import Interpose.Proofs.Engine.Budget
import Mathlib.Data.List.ReduceOption

/-!
# Probing for the prestub

Candidates are followed by the loop that resolves methods, with compiling turned off; it asks for no
prestub then, so the probe that fills the cell of the prestub does not come back to it. Of the
addresses that two candidates lead to, probing takes the one that comes first in their order.
Candidates that lead nowhere do not matter. What has been told stays, whatever changes later.
-/

namespace Interpose

variable {σ ρ α β : Type}

/-- Counts an address among those seen before, which stand in the order of their first sight. -/
def tally (a : Address) : List (Address × Nat) → List (Address × Nat)
  | [] => [(a, 1)]
  | (b, n) :: rest => if b = a then (b, n + 1) :: rest else (b, n) :: tally a rest

def elected (seen : List (Address × Nat)) : Address :=
  (seen.find? fun s => 1 < s.2).elim noPrestub (·.1)

def Agree (outcomes : List (Option Address)) (i : Nat) (a : Address) : Prop :=
  outcomes[i]? = some (some a) ∧ ∃ j, i < j ∧ outcomes[j]? = some (some a)

/-- Of the addresses that two outcomes are, `v` comes first. -/
def Earliest (outcomes : List (Option Address)) (v : Address) : Prop :=
  ∃ i, Agree outcomes i v ∧ ∀ j a, Agree outcomes j a → i ≤ j

/-- The address that outcomes share first. Where they share none, it is no address of theirs. -/
def Elects (outcomes : List (Option Address)) (v : Address) : Prop :=
  Earliest outcomes v ∨ (∀ i a, ¬ Agree outcomes i a) ∧ v = noPrestub

section
variable {l : List Address} {seen : List (Address × Nat)} {outcomes : List (Option Address)}
  {o : Option Address} {a b v : Address} {i n : Nat}

/-- Later sights of an address go to its own count, and past it to the others. -/
theorem foldl_tally_cons : l.foldl (fun seen a => tally a seen) ((b, n) :: seen) =
    (b, n + l.count b) :: (l.filter (· ≠ b)).foldl (fun seen a => tally a seen) seen := by
  induction l generalizing n seen with
  | nil => rfl
  | cons a l ih =>
    rw [List.foldl_cons, tally]
    by_cases h : b = a
    · subst h
      rw [if_pos rfl, ih, List.count_cons_self, List.filter_cons_of_neg (by simp)]
      congr 2
      omega
    · rw [if_neg h, ih, List.count_cons_of_ne (Ne.symm h),
        List.filter_cons_of_pos (by simpa using Ne.symm h), List.foldl_cons]

theorem find?_shared_cons_of_mem (h : a ∈ l) :
    ((a :: l).find? fun b => 1 < (a :: l).count b) = some a := by
  have := List.count_pos_iff.mpr h
  rw [List.find?_cons_of_pos]
  simpa using h

theorem find?_shared_cons_of_not_mem (h : a ∉ l) :
    ((a :: l).find? fun b => 1 < (a :: l).count b) = l.find? fun b => 1 < l.count b := by
  have hzero := List.count_eq_zero.mpr h
  rw [List.find?_cons_of_neg (by simp [hzero])]
  refine List.find?_congr fun b hb => ?_
  rw [List.count_cons_of_ne]
  rintro rfl
  exact h hb

/-- The counts tell the same address as the list. -/
theorem elected_foldl : elected (l.foldl (fun seen a => tally a seen) []) = Platform.shared l := by
  induction l with
  | nil => rfl
  | cons a l ih =>
    rw [List.foldl_cons, tally, foldl_tally_cons]
    -- An address that comes again has its count at the head; any other is passed over by both.
    by_cases h : a ∈ l
    · have := List.count_pos_iff.mpr h
      rw [Platform.shared, find?_shared_cons_of_mem h, elected,
        List.find?_cons_of_pos (by simpa using h)]
      rfl
    · have hothers : l.filter (· ≠ a) = l := by
        refine List.filter_eq_self.mpr fun b hb => decide_eq_true ?_
        rintro rfl
        exact h hb
      have hzero := List.count_eq_zero.mpr h
      rw [Platform.shared, find?_shared_cons_of_not_mem h, ← Platform.shared, ← ih, elected,
        elected, hothers, List.find?_cons_of_neg (by simp [hzero])]

theorem not_agree_of_nodup (h : outcomes.Nodup) : ¬ Agree outcomes i a := by
  rintro ⟨hi, j, hij, hj⟩
  have hlt := (List.getElem?_eq_some_iff.mp hj).1
  exact List.nodup_iff_getElem?_ne_getElem?.mp h i j hij hlt (hi.trans hj.symm)

theorem agree_zero : Agree (o :: outcomes) 0 a ↔ o = some a ∧ some a ∈ outcomes := by
  constructor
  · rintro ⟨ho, j, hj, hlater⟩
    obtain ⟨j, rfl⟩ := Nat.exists_eq_succ_of_ne_zero (Nat.ne_of_gt hj)
    exact ⟨by simpa using ho, List.mem_of_getElem? (by simpa using hlater)⟩
  · rintro ⟨rfl, hmem⟩
    obtain ⟨j, hj⟩ := List.getElem?_of_mem hmem
    exact ⟨rfl, j + 1, Nat.succ_pos j, hj⟩

theorem agree_succ : Agree (o :: outcomes) (i + 1) a ↔ Agree outcomes i a := by
  constructor
  · rintro ⟨hi, j, hj, hlater⟩
    obtain ⟨j, rfl⟩ := Nat.exists_eq_succ_of_ne_zero (Nat.ne_zero_of_lt hj)
    exact ⟨hi, j, Nat.lt_of_succ_lt_succ hj, hlater⟩
  · rintro ⟨hi, j, hj, hlater⟩
    exact ⟨hi, j + 1, Nat.succ_lt_succ hj, hlater⟩

theorem earliest_cons (h : ∀ a, ¬ Agree (o :: outcomes) 0 a) :
    Earliest (o :: outcomes) v ↔ Earliest outcomes v := by
  constructor
  · rintro ⟨i, hi, hfirst⟩
    cases i with
    | zero => exact absurd hi (h v)
    | succ i =>
      refine ⟨i, agree_succ.mp hi, fun j a hj => ?_⟩
      exact Nat.le_of_succ_le_succ (hfirst (j + 1) a (agree_succ.mpr hj))
  · rintro ⟨i, hi, hfirst⟩
    refine ⟨i + 1, agree_succ.mpr hi, fun j a hj => ?_⟩
    cases j with
    | zero => exact absurd hj (h a)
    | succ j => exact Nat.succ_le_succ (hfirst j a (agree_succ.mp hj))

theorem find?_shared_eq_some : (outcomes.reduceOption.find? fun a =>
    1 < outcomes.reduceOption.count a) = some v ↔ Earliest outcomes v := by
  induction outcomes with
  | nil => simp [Earliest, Agree]
  | cons o outcomes ih =>
    cases o with
    | none =>
      rw [List.reduceOption_cons_of_none, ih, earliest_cons]
      exact fun a ha => nomatch (agree_zero.mp ha).1
    | some b =>
      rw [List.reduceOption_cons_of_some]
      by_cases hb : b ∈ outcomes.reduceOption
      · rw [find?_shared_cons_of_mem hb]
        have hagree : Agree (some b :: outcomes) 0 b :=
          agree_zero.mpr ⟨rfl, List.reduceOption_mem_iff.mp hb⟩
        constructor
        · rintro ⟨⟩
          exact ⟨0, hagree, fun _ _ _ => Nat.zero_le _⟩
        · rintro ⟨i, hi, hfirst⟩
          obtain rfl := Nat.le_zero.mp (hfirst 0 b hagree)
          exact (agree_zero.mp hi).1
      · rw [find?_shared_cons_of_not_mem hb, ih, earliest_cons]
        intro a ha
        obtain ⟨⟨⟩, hmem⟩ := agree_zero.mp ha
        exact hb (List.reduceOption_mem_iff.mpr hmem)

theorem Agree.exists_earliest (h : Agree outcomes i a) : ∃ v, Earliest outcomes v := by
  classical
  have hsome : ∃ i a, Agree outcomes i a := ⟨i, a, h⟩
  obtain ⟨v, hv⟩ := Nat.find_spec hsome
  exact ⟨v, _, hv, fun j b hj => Nat.find_min' hsome ⟨b, hj⟩⟩

theorem shared_eq_iff : Platform.shared outcomes.reduceOption = v ↔ Elects outcomes v := by
  unfold Platform.shared Elects
  rw [← find?_shared_eq_some]
  cases hfind : outcomes.reduceOption.find? fun a => 1 < outcomes.reduceOption.count a with
  | some b =>
    obtain ⟨i, hi, -⟩ := find?_shared_eq_some.mp hfind
    constructor
    · rintro rfl
      exact Or.inl rfl
    · rintro (h | ⟨hnone, -⟩)
      · exact Option.some.inj h
      · exact absurd hi (hnone i b)
  | none =>
    have hnone (i : Nat) (a : Address) : ¬ Agree outcomes i a := by
      intro h
      obtain ⟨v, hv⟩ := h.exists_earliest
      rw [find?_shared_eq_some.mpr hv] at hfind
      cases hfind
    constructor
    · rintro rfl
      exact Or.inr ⟨hnone, rfl⟩
    · rintro (⟨⟨⟩⟩ | ⟨-, rfl⟩)
      rfl

end

open World

namespace Platform

section
variable (p : Platform σ ρ)

def reloads (ask : Action (World σ ρ) Address) (reload : Bool) (link : Thunk.Link) :
    Action (World σ ρ) Bool :=
  if reload then
    if link.fixup then pure true else do pure (link.next == (← ask))
  else pure false

def turning (compile : Action (World σ ρ) Unit) (ask : Action (World σ ρ) Address) (m : Method)
    (reload : Bool) : Stride σ ρ := fun entry => do
  match ← World.ask fun w => p.thunkAt entry w.memory with
  | none => pure none
  | some link =>
    if ← reloads ask reload link then
      compile
      return some (← World.ask fun w => p.runtime.entryPoint m w.runtime, true)
    else return some (link.next, false)

/-- The walk of a method and that of a candidate. Without `reload`, an entry that leads to itself is
the end. -/
def walking (compile : Action (World σ ρ) Unit) (ask : Action (World σ ρ) Address) (m : Method)
    (reload : Bool) : Action (World σ ρ) Address :=
  p.run (p.turning compile ask m reload) (if reload then refusal m else .ok) m

def survey (walk : Method → Action (World σ ρ) Address) :
    List Method → List (Address × Nat) → Action (World σ ρ) (List (Address × Nat))
  | [], seen => pure seen
  | m :: rest, seen => do
    match ← (walk m).attempt with
    | .ok a => survey walk rest (tally a seen)
    | .error _ => survey walk rest seen

def probingBy (compile : Method → Action (World σ ρ) Unit) (ask : Action (World σ ρ) Address) :
    Action (World σ ρ) Address := do
  let walk (m : Method) := p.walking (compile m) ask m false
  return elected (← survey walk p.runtime.probeCandidates [])

/-- Where candidates lead, in their order. -/
def outcomes (w : World σ ρ) : List (Option Address) :=
  p.runtime.probeCandidates.map fun m => (p.trace m w).toOption

end

section
variable {p : Platform σ ρ} {r : MethodRef} {m : Method} {w w' later : World σ ρ} {v : Address}
  {e : Failure} {entry : Address} {compile : Action (World σ ρ) Unit}
  {ask : Action (World σ ρ) Address} {methods front back : List Method} {l : List Address}
  {seen : List (Address × Nat)}

theorem turning_reload : p.turning (p.compile r) p.prestub r.method true = p.resolving r := by
  funext entry
  unfold turning resolving
  refine bind_congr fun found => ?_
  cases found with
  | none => rfl
  | some link => exact bind_congr fun compiles => rfl

theorem turning_follow : p.turning compile ask m false = p.following := by
  funext entry
  unfold turning following
  refine bind_congr fun found => ?_
  cases found with
  | none => rfl
  | some link => rfl

theorem walking_reload (hwalk : p.runtime.features.contains RuntimeFeature.bodyWalk) :
    p.walking (p.compile r) p.prestub r.method true = p.methodBody r := by
  rw [methodBody_eq_run hwalk, walking, turning_reload, if_pos rfl]

/-- Without reloading, a walk is a trace: what compiling would do does not matter, nor what asking
for the prestub would. -/
theorem walking_follow : p.walking compile ask m false w = Attempt.lift (p.trace m w) w := by
  rw [walking, turning_follow, trace_eq_run]
  rfl

theorem survey_eq {walk : Method → Action (World σ ρ) Address}
    (h : ∀ m, walk m w = Attempt.lift (p.trace m w) w) :
    survey walk methods seen w = Attempt.lift ((p.traceAll w methods).map fun l =>
      l.foldl (fun seen a => tally a seen) seen) w := by
  induction methods generalizing seen with
  | nil => rfl
  | cons m rest ih =>
    unfold survey traceAll
    simp only [bind, EStateM.bind, Action.attempt, h]
    cases htrace : p.trace m w with
    | ok a =>
      refine ih.trans ?_
      cases p.traceAll w rest <;> rfl
    | error e =>
      cases e with
      | fault => rfl
      | refused why => exact ih

theorem probingBy_eq {compile : Method → Action (World σ ρ) Unit} :
    p.probingBy compile ask w = Attempt.lift (p.probe w) w := by
  unfold probingBy
  simp only [bind, EStateM.bind, survey_eq fun m => walking_follow, probe]
  cases p.traceAll w p.runtime.probeCandidates with
  | error e => rfl
  | ok l => exact congrArg (EStateM.Result.ok · w) elected_foldl

theorem traceAll_eq_ok : p.traceAll w methods = .ok l ↔
    (∀ m ∈ methods, p.trace m w ≠ .error .fault) ∧
      l = (methods.map fun m => (p.trace m w).toOption).reduceOption := by
  induction methods generalizing l with
  | nil => simp [traceAll, eq_comm]
  | cons m rest ih =>
    unfold traceAll
    cases htrace : p.trace m w with
    | ok a =>
      have hmap : (p.traceAll w rest).map (a :: ·) = .ok l ↔
          ∃ found, p.traceAll w rest = .ok found ∧ l = a :: found := by
        cases p.traceAll w rest <;> simp [Except.map, eq_comm]
      rw [hmap, List.forall_mem_cons, List.map_cons, htrace]
      simp [ih, Except.toOption, List.reduceOption_cons_of_some, and_assoc]
    | error e =>
      cases e with
      | fault => simp [htrace]
      | refused why => simp [ih, htrace, Except.toOption, List.reduceOption_cons_of_none]

theorem traceAll_eq_error : p.traceAll w methods = .error e ↔
    e = .fault ∧ ∃ m ∈ methods, p.trace m w = .error .fault := by
  constructor
  · intro h
    refine ⟨traceAll_error h, ?_⟩
    by_contra hnone
    have hok := traceAll_eq_ok.mpr ⟨fun m hm hfault => hnone ⟨m, hm, hfault⟩, rfl⟩
    rw [h] at hok
    cases hok
  · rintro ⟨rfl, m, hm, hfault⟩
    cases hall : p.traceAll w methods with
    | ok l => exact absurd hfault ((traceAll_eq_ok.mp hall).1 m hm)
    | error e => rw [traceAll_error hall]

theorem probe_eq_ok : p.probe w = .ok v ↔
    (∀ m ∈ p.runtime.probeCandidates, p.trace m w ≠ .error .fault) ∧ Elects (p.outcomes w) v := by
  rw [← shared_eq_iff]
  unfold probe outcomes
  cases hall : p.traceAll w p.runtime.probeCandidates with
  | ok l =>
    obtain ⟨hnone, rfl⟩ := traceAll_eq_ok.mp hall
    simp only [Except.map, Except.ok.injEq]
    exact ⟨fun h => ⟨hnone, h⟩, And.right⟩
  | error e =>
    obtain ⟨-, m, hm, hfault⟩ := traceAll_eq_error.mp hall
    exact ⟨nofun, fun h => absurd hfault (h.1 m hm)⟩

theorem probe_eq_error : p.probe w = .error e ↔
    e = .fault ∧ ∃ m ∈ p.runtime.probeCandidates, p.trace m w = .error .fault := by
  rw [← traceAll_eq_error]
  unfold probe
  cases p.traceAll w p.runtime.probeCandidates <;> simp [Except.map]

theorem traceAll_refused {why : Error} (h : p.trace m w = .error (.refused why)) :
    p.traceAll w (front ++ m :: back) = p.traceAll w (front ++ back) := by
  induction front with
  | nil =>
    rw [List.nil_append, traceAll, h]
    rfl
  | cons m' front ih => rw [List.cons_append, traceAll, ih, List.cons_append, traceAll]

theorem probe_probing : (p.probing methods).probe w = (p.traceAll w methods).map shared :=
  congrArg (Except.map shared) (traceAll_congr fun _ => trace_congr rfl rfl rfl rfl)

end

/-- Wherever it comes to, an operation leaves a prestub that has been told. -/
def Lasts (x : Action (World σ ρ) α) : Prop :=
  ∀ w v, w.prestub = some v → (reached (x w)).prestub = some v

section
variable {p : Platform σ ρ} {r : MethodRef} {x : Action (World σ ρ) α} {w later : World σ ρ}
  {v entry : Address} {n : Nat} {link : Thunk.Link}

theorem Lasts.of_keeps (h : Keeps x) : Lasts x := fun w _ hv => (h w).trans hv

theorem Lasts.bind {f : α → Action (World σ ρ) β} (hx : Lasts x) (hf : ∀ a, Lasts (f a)) :
    Lasts (x >>= f) := by
  intro w v hv
  have hcell := hx w v hv
  simp only [Bind.bind, EStateM.bind]
  cases hres : x w with
  | ok a t =>
    rw [hres] at hcell
    exact hf a t v hcell
  | error e t =>
    rw [hres] at hcell
    exact hcell

theorem lasts_prestub : Lasts p.prestub := by
  intro w v hv
  rw [prestub_told hv]
  exact hv

theorem lasts_compiles : Lasts (p.compiles link) := by
  unfold compiles
  split
  · exact .of_keeps keeps_pure
  · exact lasts_prestub.bind fun _ => .of_keeps keeps_pure

theorem lasts_resolving : Lasts (p.resolving r entry) := by
  refine Lasts.bind (.of_keeps keeps_ask) fun found => ?_
  cases found with
  | none => exact .of_keeps keeps_pure
  | some link => exact lasts_compiles.bind fun _ => .of_keeps keeps_onward

theorem lasts_loop {stride : Stride σ ρ} {revisit : Address → Attempt Address} {name : String}
    {previous : Option Address} {prepared : Bool} (h : ∀ entry, Lasts (stride entry)) :
    Lasts (p.loop stride revisit name n entry previous prepared) := by
  induction n generalizing entry previous prepared with
  | zero => exact .of_keeps keeps_throw
  | succ n ih =>
    rw [loop]
    split
    · exact .of_keeps keeps_lift
    · refine (h entry).bind fun found => ?_
      cases found with
      | none => exact .of_keeps keeps_pure
      | some onward => exact ih

theorem lasts_methodBody : Lasts (p.methodBody r) := by
  by_cases hwalk : p.runtime.features.contains RuntimeFeature.bodyWalk
  · rw [methodBody_eq_run hwalk]
    exact Lasts.bind (.of_keeps keeps_ask) fun _ => lasts_loop fun _ => lasts_resolving
  · intro w v hv
    rw [methodBody_unwalked hwalk]
    exact (keeps_ask w).trans hv

/-- What may come after a world: the memory and what the runtime reports become others, and methods
are resolved. -/
inductive Later (p : Platform σ ρ) (w : World σ ρ) : World σ ρ → Prop
  | now : Later p w w
  | changed {later : World σ ρ} {memory : σ} {runtime : ρ} (h : Later p w later) :
      Later p w ⟨memory, runtime, later.prestub⟩
  | resolved {later : World σ ρ} {r : MethodRef} (h : Later p w later) :
      Later p w (reached (p.methodBody r later))

theorem Later.prestub (h : p.Later w later) (hv : w.prestub = some v) :
    later.prestub = some v := by
  induction h with
  | now => exact hv
  | changed h ih => exact ih
  | resolved h ih => exact lasts_methodBody _ _ ih

end

/-- What probing is. -/
structure Probed (p : Platform σ ρ) : Prop where
  /-- It tells the address that candidates share first, unless a candidate faults. -/
  value : ∀ w v, p.probe w = .ok v ↔
    (∀ m ∈ p.runtime.probeCandidates, p.trace m w ≠ .error .fault) ∧ Elects (p.outcomes w) v
  fault : ∀ w e, p.probe w = .error e ↔
    e = .fault ∧ ∃ m ∈ p.runtime.probeCandidates, p.trace m w = .error .fault
  /-- Candidates whose walk is refused do not matter, wherever they stand. -/
  refused : ∀ w front m back why, p.trace m w = .error (.refused why) →
    (p.probing (front ++ m :: back)).probe w = (p.probing (front ++ back)).probe w
  resolves : p.runtime.features.contains RuntimeFeature.bodyWalk →
    ∀ r, p.walking (p.compile r) p.prestub r.method true = p.methodBody r
  /-- Candidates are followed by the same walk without reloading. Whatever compiling would do, and
  whatever asking for the prestub would, nothing changes, and the value is the same. -/
  follows : ∀ compile ask m w, p.walking compile ask m false w = Attempt.lift (p.trace m w) w
  pure : ∀ compile ask w, p.probingBy compile ask w = Attempt.lift (p.probe w) w
  told : ∀ w v w', w.prestub = none →
    (p.prestub w = .ok v w' ↔ p.probe w = .ok v ∧ w' = { w with prestub := some v })
  lasting : ∀ w v w' later, p.prestub w = .ok v w' → p.Later w' later →
    p.prestub later = .ok v later

theorem probe_exact (p : Platform σ ρ) : p.Probed where
  value w v := probe_eq_ok
  fault w e := probe_eq_error
  refused w front m back why h := by
    rw [probe_probing, probe_probing, traceAll_refused h]
  resolves hwalk r := walking_reload hwalk
  follows compile ask m w := walking_follow
  pure compile ask w := probingBy_eq
  told w v w' h := by
    have hcell : p.prestubOf? w = (p.probe w).toOption := by
      rw [prestubOf?, h]
      rfl
    rw [prestub_eq_ok, hcell, Attempt.toOption_eq_some]
  lasting w v w' later h hlater := by
    obtain ⟨-, rfl⟩ := prestub_eq_ok.mp h
    exact prestub_told (hlater.prestub rfl)

/-- Two addresses are shared. The one that comes first is told, though the other one comes again
first, and the candidate in front that goes round does not matter. -/
theorem probe_exact_two_shared :
    let code : Space := { regions := [(0x1100, [0xE9, 0x7B, 0, 0, 0]),
      (0x1180, [0xE9, 0x7B, 0xFF, 0xFF, 0xFF]), (0x1200, [0xE9, 0xFB, 0x3D, 0, 0]),
      (0x1300, [0xE9, 0xFB, 0x4C, 0, 0]), (0x1400, [0xE9, 0xFB, 0x4B, 0, 0]),
      (0x1500, [0xE9, 0xFB, 0x3A, 0, 0]), (0x5000, [0x55, 0xC3]), (0x6000, [0x55, 0xC3])] }
    let round : Method := { name := "Round", handle := 0x1100 }
    let others : List Method := [{ name := "Stop", handle := 0x1200 },
      { name := "Wait", handle := 0x1300 }, { name := "Spin", handle := 0x1400 },
      { name := "Halt", handle := 0x1500 }]
    let script : Script := { features := RuntimeFeature.bodyWalk, candidates := round :: others }
    let p : Platform Space ScriptState :=
      ⟨.x86_64, Space.system {}, script.runtime, { walkLimit := 4 }⟩
    let w : World Space ScriptState := { memory := code, runtime := {} }
    p.probe w = .ok 0x5000 ∧ Earliest (p.outcomes w) 0x5000 ∧
      p.trace round w = .error (.refused (.unstableEntry "Round" 4)) ∧
      (p.probing others).probe w = .ok 0x5000 ∧
      ∀ entries, let w' : World Space ScriptState := ⟨code, { entries }, some 0x5000⟩
        p.prestub w' = .ok 0x5000 w' := by
  intro code round others script p w
  have hprobe : p.probe w = .ok 0x5000 := Attempt.toOption_eq_some.mp (by decide +kernel)
  have hround : p.trace round w = .error (.refused (.unstableEntry "Round" 4)) := by
    decide +kernel
  obtain ⟨hvalue, -, hrefused, -, -, -, htold, hlasting⟩ := probe_exact p
  have hearliest : Earliest (p.outcomes w) 0x5000 := by
    rcases ((hvalue w 0x5000).mp hprobe).2 with h | ⟨-, h⟩
    · exact h
    · exact absurd h (by decide)
  have hother := hrefused w [] round others _ hround
  refine ⟨hprobe, hearliest, hround, hother.symm.trans hprobe, fun entries => ?_⟩
  exact hlasting w 0x5000 _ _ ((htold w _ _ rfl).mpr ⟨hprobe, rfl⟩) (.changed .now)

end Platform

end Interpose

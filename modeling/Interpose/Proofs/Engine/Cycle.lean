import Interpose.Proofs.Engine.Course
import Interpose.Proofs.Memory.Layout

/-!
# Walks that go round

An entry that comes again with no compiling in between lies on a cycle of clean steps. From there on
a walk only goes round. It takes notice of a cycle of a single step, where an entry leads to itself,
and of no other: a longer cycle takes it to the limit. And where a walk speaks of a loop, there is
such an entry.
-/

namespace Interpose

namespace Space
variable {s : Space} {a : Address} {n : Nat} {e : Failure}

theorem read_error (h : read a n s = .error e) :
    e = .fault ∨ e = .refused (.unreadable a (.unmapped n)) := by
  rcases Attempt.bind_eq_error.mp h with hlocate | ⟨found, -, hrest⟩
  · exact Or.inl (locate_error hlocate)
  · cases found with
    | none =>
      cases hrest
      exact Or.inr rfl
    | some region => cases hrest

theorem runStop_error {start bound stop : Nat} {regions : Table Address Bytes}
    (h : runStop start bound regions stop = .error e) : e = .fault := by
  induction regions generalizing stop with
  | nil => cases h
  | cons region rest ih =>
    unfold runStop at h
    split at h
    · cases h
    · split at h
      · rcases Attempt.bind_eq_error.mp h with hsum | ⟨_, -, h⟩
        · exact Attempt.checked_error hsum
        · exact ih h
      · exact ih h

theorem readable_error (h : readable a n s = .error e) : e = .fault := by
  rcases Attempt.bind_eq_error.mp h with hlocate | ⟨found, -, hrest⟩
  · exact locate_error hlocate
  · cases found with
    | none => cases hrest
    | some region =>
      rcases Attempt.bind_eq_error.mp hrest with hstop | ⟨_, -, hpure⟩
      · exact runStop_error hstop
      · cases hpure

end Space

namespace Platform
variable {σ ρ : Type}

section
variable {p : Platform σ ρ} {r : MethodRef} {turns : List (Turn σ ρ)} {w w' now later : World σ ρ}
  {entry next x : Address} {link : Thunk.Link}

/-- A turn that compiles nothing is a clean step, and tells the prestub. -/
theorem resolving_clean_iff : p.resolving r entry w = .ok (some (next, false)) w' ↔
    p.Clean w.memory (p.prestubOf? w) entry next ∧ w' = { w with prestub := p.prestubOf? w } := by
  constructor
  · intro h
    cases hthunk : p.thunkAt entry w.memory with
    | error e =>
      rw [resolving_error hthunk] at h
      cases h
    | ok found =>
      cases found with
      | none =>
        rw [resolving_none hthunk] at h
        cases h
      | some link =>
        rw [resolving_some hthunk] at h
        obtain ⟨b, t, hcompiles, honward⟩ := Action.bind_eq_ok.mp h
        cases b with
        | true =>
          obtain ⟨_, t₁, -, hreport⟩ := Action.bind_eq_ok.mp honward
          obtain ⟨entry', t₂, -, hpure⟩ := Action.bind_eq_ok.mp hreport
          cases (Action.pure_eq_ok.mp hpure).1
        | false =>
          cases honward
          rcases compiles_eq_ok.mp hcompiles with ⟨-, hb, -⟩ | ⟨hfixup, v, hv, hb, rfl⟩
          · cases hb
          · have hfollows := thunkAt_eq_some.mp hthunk
            rw [hfixup] at hfollows
            exact ⟨⟨hfollows, v, hv, by simpa using hb⟩, by rw [hv]⟩
  · rintro ⟨⟨hfollows, v, hv, hne⟩, rfl⟩
    rw [hv, resolving_some (thunkAt_eq_some.mpr hfollows)]
    exact Action.bind_run (compiles_of_clean hv hne)

/-- The clean steps of a world in which the prestub has been told. -/
def Steps (p : Platform σ ρ) (w : World σ ρ) (entry next : Address) : Prop :=
  p.Clean w.memory w.prestub entry next

theorem Steps.unique {next' : Address} (h : p.Steps w entry next) (h' : p.Steps w entry next') :
    next = next' := h.1.unique h'.1

theorem Steps.prestubOf? (h : p.Steps w entry next) : p.prestubOf? w = w.prestub := by
  obtain ⟨-, v, hv, -⟩ := h
  rw [prestubOf?_of_cell hv, hv]

theorem Steps.resolving (h : p.Steps w entry next) :
    p.resolving r entry w = .ok (some (next, false)) w := by
  have hcell := h.prestubOf?
  refine resolving_clean_iff.mpr ⟨?_, by rw [hcell]⟩
  rw [hcell]
  exact h

theorem Course.visited_leads (hc : p.Course (p.resolving r) r.method w turns now entry)
    (hx : x ∈ visited turns) : ∃ y, (visited turns).head? = some y ∧
      Relation.ReflTransGen (p.Steps now) x y ∧ p.Steps now y entry := by
  induction hc with
  | start h => cases hx
  | @turn turns now later entry next compiled past h ih =>
    cases compiled with
    | true => cases hx
    | false =>
      obtain ⟨hclean, rfl⟩ := resolving_clean_iff.mp h
      refine ⟨entry, rfl, ?_, hclean⟩
      rcases List.mem_cons.mp hx with rfl | hbefore
      · exact .refl
      · obtain ⟨y, -, hreach, hlast⟩ := ih hbefore
        have hreach' := hreach.tail hlast
        rwa [hlast.prestubOf?]

/-- A course either has no entry twice in a row, or it has come to an entry that leads to itself,
and the run has noticed. -/
theorem Course.steady_or_revisited (hc : p.Course (p.resolving r) r.method w turns now entry)
    (revisit : Address → Attempt Address) (within : turns.length ≤ p.settings.walkLimit) :
    Steady turns ∨ (visited turns).head? = some entry ∧ p.Steps now entry entry ∧
      p.run (p.resolving r) revisit r.method w = Attempt.lift (revisit entry) now := by
  induction hc with
  | start h => exact Or.inl trivial
  | @turn turns now later entry next compiled past h ih =>
    have hstuck (hself : p.Steps now entry entry) :
        next = entry ∧ compiled = false ∧ later = now := by
      cases h.symm.trans hself.resolving
      exact ⟨rfl, rfl, rfl⟩
    rcases ih (Nat.le_of_lt within) with hs | ⟨-, hself, hrun⟩
    · by_cases hloop : (visited turns).head? = some entry
      · obtain ⟨y, hy, -, hlast⟩ := past.visited_leads (List.mem_of_head? hloop)
        obtain rfl : y = entry := Option.some.inj (hy.symm.trans hloop)
        obtain ⟨rfl, rfl, rfl⟩ := hstuck hlast
        obtain ⟨k, hrun⟩ := past.run_within revisit hs within
        rw [resume_revisited hloop] at hrun
        exact Or.inr ⟨rfl, hlast, hrun⟩
      · exact Or.inl ⟨hloop, hs⟩
    · obtain ⟨rfl, rfl, rfl⟩ := hstuck hself
      exact Or.inr ⟨rfl, hself, hrun⟩

end

section
variable {α : Type} {S : α → α → Prop} {x y a : α}

theorem eq_of_self (hdet : ∀ a b c, S a b → S a c → b = c) (hself : S a a)
    (h : Relation.ReflTransGen S a y) : y = a := by
  induction h with
  | refl => rfl
  | tail _ hstep ih =>
    subst ih
    exact hdet _ _ _ hstep hself

theorem back_of_cycle (hdet : ∀ a b c, S a b → S a c → b = c) (hcycle : Relation.TransGen S x x)
    (h : Relation.ReflTransGen S x a) : Relation.ReflTransGen S a x := by
  induction h with
  | refl => exact .refl
  | @tail b c _ hstep ih =>
    have hround : Relation.TransGen S b x := hcycle.trans_right ih
    obtain ⟨c', hstep', hback⟩ := Relation.TransGen.head'_iff.mp hround
    rwa [hdet _ _ _ hstep hstep']

/-- On a cycle of more than one step there is always a step to another place on it. -/
theorem exists_next_of_cycle (hdet : ∀ a b c, S a b → S a c → b = c)
    (hcycle : Relation.TransGen S x x) (hy : Relation.ReflTransGen S x y) (hne : y ≠ x)
    (h : Relation.ReflTransGen S x a) : ∃ b, S a b ∧ b ≠ a ∧ Relation.ReflTransGen S x b := by
  have hback := back_of_cycle hdet hcycle h
  obtain ⟨b, hstep, -⟩ := Relation.TransGen.head'_iff.mp (hcycle.trans_right hback)
  refine ⟨b, hstep, ?_, h.tail hstep⟩
  rintro rfl
  -- A place that leads to itself is all of the cycle.
  obtain rfl := eq_of_self hdet hstep hback
  exact hne (eq_of_self hdet hstep hy)

end

section
variable {p : Platform σ ρ} {r : MethodRef} {turns : List (Turn σ ρ)} {w now : World σ ρ}
  {entry a : Address} {n : Nat} {revisit : Address → Attempt Address}

theorem resume_endless {I : Address → Prop}
    (hnext : ∀ a, I a → ∃ b, p.Steps now a b ∧ b ≠ a ∧ I b) (hentry : I entry)
    (hnew : (visited turns).head? ≠ some entry) :
    p.resume (p.resolving r) revisit r.method n turns entry now =
      .error (p.unstable r.method.fullName) now := by
  induction n generalizing turns entry with
  | zero => rfl
  | succ n ih =>
    obtain ⟨b, hstep, hne, hb⟩ := hnext entry hentry
    rw [resume_turn hnew hstep.resolving]
    exact ih hb fun hsame => hne (Option.some.inj hsame).symm

/-- A cycle of more than one step takes a walk to its limit. -/
theorem Course.run_of_cycle (hc : p.Course (p.resolving r) r.method w turns now a)
    (hcycle : a ∈ visited turns) (hlong : (visited turns).head? ≠ some a)
    (within : turns.length < p.settings.walkLimit) :
    p.run (p.resolving r) revisit r.method w = .error (p.unstable r.method.fullName) now := by
  rcases hc.steady_or_revisited revisit (Nat.le_of_lt within) with hs | ⟨hself, -⟩
  · obtain ⟨y, hy, hreach, hlast⟩ := hc.visited_leads hcycle
    have hround : Relation.TransGen (p.Steps now) a a := .tail' hreach hlast
    have hne : y ≠ a := by
      rintro rfl
      exact hlong hy
    have hnext := fun b (hb : Relation.ReflTransGen (p.Steps now) a b) =>
      exists_next_of_cycle (S := p.Steps now) (fun _ _ _ => Steps.unique) hround hreach hne hb
    obtain ⟨k, hrun⟩ := hc.run_within revisit hs within
    rw [hrun]
    exact resume_endless hnext .refl hlong
  · exact absurd hself hlong

theorem Course.run_of_self (hc : p.Course (p.resolving r) r.method w turns now a)
    (hself : (visited turns).head? = some a) (within : turns.length < p.settings.walkLimit) :
    p.run (p.resolving r) revisit r.method w = Attempt.lift (revisit a) now := by
  rcases hc.steady_or_revisited revisit (Nat.le_of_lt within) with hs | ⟨-, -, hrun⟩
  · obtain ⟨k, hrun⟩ := hc.run_within revisit hs within
    rw [hrun, resume_revisited hself]
  · exact hrun

end

def SpeaksOfLoop (e : Failure) : Prop := ∃ name entry, e = .refused (.thunkLoop name entry)

/-- Neither the system nor the runtime speaks of loops of thunks. -/
structure Candid (p : Platform σ ρ) : Prop where
  readable : ∀ a n s e, p.system.readable a n s = .error e → ¬ SpeaksOfLoop e
  read : ∀ a n s e, p.system.read a n s = .error e → ¬ SpeaksOfLoop e
  entryPoint : ∀ m s e, p.runtime.entryPoint m s = .error e → ¬ SpeaksOfLoop e
  compile : ∀ m s e s', p.runtime.compile m s = .error e s' → ¬ SpeaksOfLoop e

section
variable {p : Platform σ ρ} {r : MethodRef} {w w' : World σ ρ} {memory : σ} {entry a : Address}
  {e : Failure} {link : Thunk.Link} {methods : List Method}

theorem not_speaksOfLoop_fault : ¬ SpeaksOfLoop .fault := by
  rintro ⟨name, entry, h⟩
  cases h

theorem Candid.readPointer (h : p.Candid) (he : p.system.readPointer memory a = .error e) :
    ¬ SpeaksOfLoop e := by
  rcases Attempt.bind_eq_error.mp he with hread | ⟨bytes, -, hpure⟩
  · exact h.read _ _ _ _ hread
  · cases hpure

theorem Candid.thunkAt (h : p.Candid) (he : p.thunkAt entry memory = .error e) :
    ¬ SpeaksOfLoop e := by
  rcases Attempt.bind_eq_error.mp he with hreadable | ⟨n, -, hrest⟩
  · exact h.readable _ _ _ _ hreadable
  · split at hrest
    · cases hrest
    · rcases Attempt.bind_eq_error.mp hrest with hread | ⟨code, -, hfound⟩
      · exact h.read _ _ _ _ hread
      · split at hfound
        · cases hfound
        · rcases Attempt.bind_eq_error.mp hfound with htarget | ⟨next, -, hpure⟩
          · unfold AddressMeaning.target at htarget
            split at htarget
            · exact h.readPointer htarget
            · cases htarget
          · cases hpure

theorem traceAll_error (h : p.traceAll w methods = .error e) : e = .fault := by
  induction methods with
  | nil => cases h
  | cons m rest ih =>
    unfold traceAll at h
    split at h
    · cases hrest : p.traceAll w rest with
      | ok found =>
        rw [hrest] at h
        cases h
      | error e' =>
        rw [hrest] at h
        cases h
        exact ih hrest
    · exact ih h
    · cases h
      rfl

theorem prestub_error (h : p.prestub w = .error e w') : e = .fault := by
  cases hcell : w.prestub with
  | some v =>
    rw [prestub_told hcell] at h
    cases h
  | none =>
    rw [prestub_untold hcell, probe] at h
    cases hall : p.traceAll w p.runtime.probeCandidates with
    | ok found =>
      rw [hall] at h
      cases h
    | error e' =>
      rw [hall] at h
      cases h
      exact traceAll_error hall

theorem compiles_error (h : p.compiles link w = .error e w') : e = .fault := by
  unfold compiles at h
  split at h
  · exact (Action.pure_eq_error.mp h).elim
  · rcases Action.bind_eq_error.mp h with hprestub | ⟨v, t, -, hpure⟩
    · exact prestub_error hprestub
    · exact (Action.pure_eq_error.mp hpure).elim

theorem Candid.compiling (hp : p.Candid) (h : p.compile r w = .error e w') : ¬ SpeaksOfLoop e := by
  unfold Platform.compile at h
  split at h
  · rcases Action.bind_eq_error.mp h with hthrow | ⟨_, _, hthrow, -⟩
    · obtain ⟨rfl, -⟩ := Action.throw_eq_error.mp hthrow
      rintro ⟨name, entry, h⟩
      cases h
    · exact (Action.throw_eq_ok.mp hthrow).elim
  · obtain ⟨s, hcompile⟩ := World.onRuntime_error h
    exact hp.compile _ _ _ _ hcompile

theorem Candid.onward {b : Bool} (hp : p.Candid) (h : p.onward r link b w = .error e w') :
    ¬ SpeaksOfLoop e := by
  cases b with
  | false => cases h
  | true =>
    rcases Action.bind_eq_error.mp h with hcompile | ⟨_, t, -, hreport⟩
    · exact hp.compiling hcompile
    · rcases Action.bind_eq_error.mp hreport with hentry | ⟨_, t₁, -, hpure⟩
      · exact hp.entryPoint _ _ _ (World.ask_eq_error.mp hentry).1
      · exact (Action.pure_eq_error.mp hpure).elim

theorem Candid.resolving (hp : p.Candid) (h : p.resolving r entry w = .error e w') :
    ¬ SpeaksOfLoop e := by
  cases hthunk : p.thunkAt entry w.memory with
  | error e' =>
    rw [resolving_error hthunk] at h
    cases h
    exact hp.thunkAt hthunk
  | ok found =>
    cases found with
    | none =>
      rw [resolving_none hthunk] at h
      cases h
    | some link =>
      rw [resolving_some hthunk] at h
      rcases Action.bind_eq_error.mp h with hcompiles | ⟨b, t, -, honward⟩
      · rw [compiles_error hcompiles]
        exact not_speaksOfLoop_fault
      · exact hp.onward honward

end

section
variable {isa : Isa} {limits : SpaceLimits} {script : Script} {settings : Settings}

theorem candid_scripted :
    Candid (⟨isa, Space.system limits, script.runtime, settings⟩ : Platform Space ScriptState) where
  readable a n s e h := by
    rw [Space.readable_error h]
    exact not_speaksOfLoop_fault
  read a n s e h := by
    rcases Space.read_error h with rfl | rfl
    · exact not_speaksOfLoop_fault
    · rintro ⟨name, entry, h⟩
      cases h
  entryPoint m s e h := by cases h
  compile m s e s' h := (Action.modify_eq_error.mp h).elim

end

/-- A walk that comes again to an entry, with no compiling since it was there, has come to one that
leads to itself, and says so, or has entered a longer cycle, and goes on to its limit. Where a walk
speaks of a loop, it has come to an entry that leads to itself. -/
theorem methodBody_loops (p : Platform σ ρ) (r : MethodRef) (w : World σ ρ)
    (hwalk : p.runtime.features.contains RuntimeFeature.bodyWalk = true) (hp : p.Candid) :
    (∀ turns now a, p.Course (p.resolving r) r.method w turns now a → a ∈ visited turns →
      turns.length < p.settings.walkLimit →
        p.methodBody r w = if (visited turns).head? = some a
          then .error (.refused (.thunkLoop r.method.fullName a)) now
          else .error (p.unstable r.method.fullName) now) ∧
    ∀ e later, p.methodBody r w = .error e later → SpeaksOfLoop e →
      ∃ turns a, p.Course (p.resolving r) r.method w turns later a ∧
        (visited turns).head? = some a ∧ turns.length < p.settings.walkLimit ∧
        e = .refused (.thunkLoop r.method.fullName a) := by
  rw [methodBody_eq_run hwalk]
  constructor
  · intro turns now a hc hcycle within
    split
    · exact hc.run_of_self ‹_› within
    · exact hc.run_of_cycle hcycle ‹_› within
  · intro e later hrun hloop
    obtain ⟨turns, haccount⟩ :=
      exists_account p (p.resolving r) (refusal r.method) r.method w
    rw [hrun] at haccount
    generalize hresult : EStateM.Result.error e later = result at haccount
    cases haccount with
    | unreported h =>
      cases hresult
      exact absurd hloop (hp.entryPoint _ _ _ h)
    | exhausted =>
      cases hresult
      obtain ⟨_, _, h⟩ := hloop
      cases h
    | revisited past steady within h =>
      cases hresult
      exact ⟨_, _, past, h, within, rfl⟩
    | ended => cases hresult
    | failed past steady within h =>
      cases hresult
      exact absurd hloop (hp.resolving h)

/-- A jump to an entry that jumps to itself. -/
theorem methodBody_loops_self :
    let code : Space :=
      { regions := [(0x1000, [0xE9, 0xFB, 0x0F, 0, 0]), (0x2000, [0xE9, 0xFB, 0xFF, 0xFF, 0xFF])] }
    let script : Script := { features := RuntimeFeature.bodyWalk }
    let p : Platform Space ScriptState :=
      ⟨.x86_64, Space.system {}, script.runtime, { walkLimit := 3 }⟩
    let r : MethodRef := ⟨.listed 0, { name := "Run", handle := 0x1000 }⟩
    let w : World Space ScriptState := { memory := code, runtime := {} }
    ∃ now, p.methodBody r w = .error (.refused (.thunkLoop "Run" 0x2000)) now ∧
      ∃ turns, p.Course (p.resolving r) r.method w turns now 0x2000 ∧
        (visited turns).head? = some 0x2000 ∧ turns.length < 3 := by
  intro code script p r w
  have hjump : p.thunkAt 0x1000 code = .ok (some ⟨0x2000, false⟩) :=
    Attempt.toOption_eq_some.mp (by decide +kernel)
  have hself : p.thunkAt 0x2000 code = .ok (some ⟨0x2000, false⟩) :=
    Attempt.toOption_eq_some.mp (by decide +kernel)
  let later : World Space ScriptState := { w with prestub := some noPrestub }
  have hc : p.Course (p.resolving r) r.method w
      [⟨0x2000, later, false⟩, ⟨0x1000, w, false⟩] later 0x2000 :=
    .turn (.turn (.start rfl)
      (resolving_clean_iff.mpr ⟨⟨thunkAt_eq_some.mp hjump, noPrestub, rfl, by decide⟩, rfl⟩))
      (Steps.resolving ⟨thunkAt_eq_some.mp hself, noPrestub, rfl, by decide⟩)
  obtain ⟨hrevisit, hspeaks⟩ := methodBody_loops p r w (by decide) candid_scripted
  have hbody := hrevisit _ _ _ hc List.mem_cons_self (by decide)
  obtain ⟨turns, a, hcourse, hhead, within, heq⟩ := hspeaks _ _ hbody ⟨_, _, rfl⟩
  cases heq
  exact ⟨_, hbody, turns, hcourse, hhead, within⟩

/-- Two entries that jump to each other: the walk comes again to the first one within its limit, and
does not speak of a loop. -/
theorem methodBody_misses_two_jumps :
    let code : Space :=
      { regions := [(0x1000, [0xE9, 0xFB, 0x0F, 0, 0]), (0x2000, [0xE9, 0xFB, 0xEF, 0xFF, 0xFF])] }
    let script : Script := { features := RuntimeFeature.bodyWalk }
    let p : Platform Space ScriptState := ⟨.x86_64, Space.system {}, script.runtime, {}⟩
    let r : MethodRef := ⟨.listed 0, { name := "Run", handle := 0x1000 }⟩
    let w : World Space ScriptState := { memory := code, runtime := {} }
    ∃ turns now, p.Course (p.resolving r) r.method w turns now 0x1000 ∧ 0x1000 ∈ visited turns ∧
      turns.length < 20 ∧ p.methodBody r w = .error (.refused (.unstableEntry "Run" 20)) now := by
  intro code script p r w
  have hthere : p.thunkAt 0x1000 code = .ok (some ⟨0x2000, false⟩) :=
    Attempt.toOption_eq_some.mp (by decide +kernel)
  have hback : p.thunkAt 0x2000 code = .ok (some ⟨0x1000, false⟩) :=
    Attempt.toOption_eq_some.mp (by decide +kernel)
  let later : World Space ScriptState := { w with prestub := some noPrestub }
  have hc : p.Course (p.resolving r) r.method w
      [⟨0x2000, later, false⟩, ⟨0x1000, w, false⟩] later 0x1000 :=
    .turn (.turn (.start rfl)
      (resolving_clean_iff.mpr ⟨⟨thunkAt_eq_some.mp hthere, noPrestub, rfl, by decide⟩, rfl⟩))
      (Steps.resolving ⟨thunkAt_eq_some.mp hback, noPrestub, rfl, by decide⟩)
  have hagain : (0x1000 : Address) ∈ [0x2000, 0x1000] := by decide
  refine ⟨_, _, hc, hagain, by decide, ?_⟩
  rw [methodBody_eq_run (by decide)]
  exact hc.run_of_cycle hagain (by decide) (by decide)

end Platform

end Interpose

import Interpose.Proofs.Engine.Cycle
import Interpose.Proofs.Engine.Film

/-!
# The budget of a walk

A walk looks at no more entries than its limit, and makes the runtime compile no more often,
whatever the memory holds and wherever compiling moves entries. Candidates of a probe are followed
under the same limit, without compiling anything. They are followed when a thunk is met that is no
fixup and the prestub has not been told: once in all walks on a platform, since its cell is filled
then.
-/

namespace Interpose

variable {σ ρ α β : Type}

def Runtime.filmed (runtime : Runtime ρ) : Runtime (Film ρ) where
  kind := runtime.kind
  features := runtime.features
  abi := runtime.abi
  entryPoint m f := runtime.entryPoint m f.now
  compile m := (runtime.compile m).filmed
  identify := runtime.identify
  needsContext := runtime.needsContext
  pins := runtime.pins
  emitGlue glue := (runtime.emitGlue glue).filmed
  probeCandidates := runtime.probeCandidates
  vtableLayout? := runtime.vtableLayout?

def Platform.filmed (p : Platform σ ρ) : Platform σ (Film ρ) :=
  ⟨p.isa, p.system, p.runtime.filmed, p.settings⟩

namespace World

def filming (w : World σ ρ) (seen : List ρ) : World σ (Film ρ) :=
  ⟨w.memory, ⟨w.runtime, seen⟩, w.prestub⟩

def showing (seen : List ρ) :
    EStateM.Result Failure (World σ ρ) α → EStateM.Result Failure (World σ (Film ρ)) α
  | .ok a w => .ok a (w.filming seen)
  | .error e w => .error e (w.filming seen)

/-- An operation does the same under a film, which shows at most `k` calls of the runtime. -/
def Calls (k : Nat) (y : Action (World σ (Film ρ)) α) (x : Action (World σ ρ) α) : Prop :=
  ∀ w seen, ∃ calls : List ρ, calls.length ≤ k ∧ y (w.filming seen) = showing (seen ++ calls) (x w)

variable {y : Action (World σ (Film ρ)) α} {x : Action (World σ ρ) α} {k l : Nat}

theorem Calls.mono (h : Calls k y x) (hl : k ≤ l) : Calls l y x := fun w seen =>
  let ⟨calls, hk, hrun⟩ := h w seen
  ⟨calls, hk.trans hl, hrun⟩

theorem calls_zero (h : ∀ w seen, y (w.filming seen) = showing seen (x w)) : Calls 0 y x := by
  intro w seen
  refine ⟨[], Nat.le_refl 0, ?_⟩
  rw [List.append_nil]
  exact h w seen

theorem calls_pure {a : α} : Calls 0 (pure a) (pure a : Action (World σ ρ) α) :=
  calls_zero fun _ _ => rfl

theorem calls_throw {e : Failure} : Calls 0 (throw e) (throw e : Action (World σ ρ) α) :=
  calls_zero fun _ _ => rfl

theorem calls_ask {f : World σ (Film ρ) → Attempt α} {g : World σ ρ → Attempt α}
    (h : ∀ w seen, f (w.filming seen) = g w) : Calls 0 (ask f) (ask g) := by
  refine calls_zero fun w seen => ?_
  unfold ask
  rw [h]
  cases g w <;> rfl

theorem calls_onRuntime {z : Action ρ α} :
    Calls 1 (onRuntime z.filmed : Action (World σ (Film ρ)) α) (onRuntime z) := by
  intro w seen
  cases hz : z w.runtime with
  | ok a s => exact ⟨[s], Nat.le_refl 1, by simp [onRuntime, Action.filmed, filming, hz]; rfl⟩
  | error e s => exact ⟨[s], Nat.le_refl 1, by simp [onRuntime, Action.filmed, filming, hz]; rfl⟩

theorem Calls.bind {g : α → Action (World σ (Film ρ)) β} {h : α → Action (World σ ρ) β}
    (hx : Calls k y x) (hg : ∀ a, Calls l (g a) (h a)) : Calls (k + l) (y >>= g) (x >>= h) := by
  intro w seen
  obtain ⟨calls, hk, hrun⟩ := hx w seen
  cases hres : x w with
  | ok a t =>
    obtain ⟨more, hl, hmore⟩ := hg a t (seen ++ calls)
    rw [List.append_assoc] at hmore
    refine ⟨calls ++ more, ?_, ?_⟩
    · rw [List.length_append]
      omega
    · simp only [Bind.bind, EStateM.bind, hrun, hres]
      exact hmore
  | error e t =>
    refine ⟨calls, hk.trans (Nat.le_add_right k l), ?_⟩
    simp only [Bind.bind, EStateM.bind, hrun, hres, showing]

def reached : EStateM.Result Failure (World σ ρ) α → World σ ρ
  | .ok _ w => w
  | .error _ w => w

/-- Wherever it comes to, an operation has left the cell of the prestub alone. -/
def Keeps (x : Action (World σ ρ) α) : Prop := ∀ w, (reached (x w)).prestub = w.prestub

theorem keeps_pure {a : α} : Keeps (pure a : Action (World σ ρ) α) := fun _ => rfl

theorem keeps_throw {e : Failure} : Keeps (throw e : Action (World σ ρ) α) := fun _ => rfl

theorem keeps_ask {f : World σ ρ → Attempt α} : Keeps (ask f) := by
  intro w
  unfold ask
  cases f w <;> rfl

theorem keeps_lift {attempt : Attempt α} :
    Keeps (Attempt.lift attempt : Action (World σ ρ) α) := by
  intro w
  cases attempt <;> rfl

theorem keeps_onRuntime {z : Action ρ α} : Keeps (onRuntime z : Action (World σ ρ) α) := by
  intro w
  unfold onRuntime
  cases z w.runtime <;> rfl

theorem keeps_onMemory {z : Action σ α} : Keeps (onMemory z : Action (World σ ρ) α) := by
  intro w
  unfold onMemory
  cases z w.memory <;> rfl

theorem Keeps.bind {g : α → Action (World σ ρ) β} (hx : Keeps x) (hg : ∀ a, Keeps (g a)) :
    Keeps (x >>= g) := by
  intro w
  have hcell := hx w
  simp only [Bind.bind, EStateM.bind]
  cases hres : x w with
  | ok a t =>
    rw [hres] at hcell
    exact (hg a t).trans hcell
  | error e t =>
    rw [hres] at hcell
    exact hcell

end World

open World

namespace Platform
variable {p : Platform σ ρ} {r : MethodRef} {m : Method} {w w' now later : World σ ρ}
  {seen : List ρ} {entry a : Address} {link : Thunk.Link} {turns past : List (Turn σ ρ)}
  {result : EStateM.Result Failure (World σ ρ) Address} {e : Failure} {n : Nat}
  {revisit : Address → Attempt Address}

theorem trace_filmed : p.filmed.trace m (w.filming seen) = p.trace m w :=
  trace_congr rfl rfl rfl rfl

theorem probe_filmed : p.filmed.probe (w.filming seen) = p.probe w :=
  congrArg (Except.map shared) (traceAll_congr fun _ => trace_filmed)

theorem calls_prestub : Calls 0 p.filmed.prestub p.prestub := by
  refine calls_zero fun w seen => ?_
  cases hcell : w.prestub with
  | some v =>
    rw [prestub_told hcell, prestub_told (w := w.filming seen) hcell]
    rfl
  | none =>
    rw [prestub_untold hcell, prestub_untold (w := w.filming seen) hcell, probe_filmed]
    cases p.probe w <;> rfl

theorem calls_compiles : Calls 0 (p.filmed.compiles link) (p.compiles link) := by
  unfold compiles
  split
  · exact calls_pure
  · exact calls_prestub.bind fun v => calls_pure

theorem calls_compile : Calls 1 (p.filmed.compile r) (p.compile r) := by
  unfold Platform.compile
  split
  · exact (calls_zero fun _ _ => rfl).mono (Nat.zero_le 1)
  · exact calls_onRuntime

theorem calls_onward {b : Bool} : Calls 1 (p.filmed.onward r link b) (p.onward r link b) := by
  cases b with
  | true =>
    refine calls_compile.bind (l := 0) fun _ => ?_
    exact Calls.bind (k := 0) (l := 0) (calls_ask fun _ _ => rfl) fun _ => calls_pure
  | false => exact calls_pure.mono (Nat.zero_le 1)

theorem calls_resolving : Calls 1 (p.filmed.resolving r entry) (p.resolving r entry) := by
  refine Calls.bind (k := 0) (l := 1) (calls_ask fun _ _ => rfl) fun found => ?_
  cases found with
  | none => exact calls_pure.mono (Nat.zero_le 1)
  | some link => exact calls_compiles.bind fun _ => calls_onward

theorem calls_loop {stride : Stride σ ρ} {filmed : Stride σ (Film ρ)}
    {revisit : Address → Attempt Address} {name : String} {previous : Option Address}
    {prepared : Bool} (h : ∀ entry, Calls 1 (filmed entry) (stride entry)) :
    Calls n (p.filmed.loop filmed revisit name n entry previous prepared)
      (p.loop stride revisit name n entry previous prepared) := by
  induction n generalizing entry previous prepared with
  | zero => exact calls_throw
  | succ n ih =>
    rw [loop, loop, Nat.add_comm n 1]
    split
    · refine Calls.mono (calls_zero fun _ _ => ?_) (Nat.zero_le _)
      cases revisit entry <;> rfl
    · refine (h entry).bind fun found => ?_
      cases found with
      | none => exact calls_pure.mono (Nat.zero_le n)
      | some onward => exact ih

theorem calls_methodBody (hwalk : p.runtime.features.contains RuntimeFeature.bodyWalk) :
    Calls p.settings.walkLimit (p.filmed.methodBody r) (p.methodBody r) := by
  rw [methodBody_eq_run hwalk, methodBody_eq_run (p := p.filmed) hwalk]
  unfold run
  refine (Calls.bind (k := 0) (calls_ask fun _ _ => rfl) fun _ =>
    calls_loop fun _ => calls_resolving).mono ?_
  exact Nat.le_of_eq (Nat.zero_add _)

/-- A turn that compiles nothing and leaves the world as it is. -/
def Turn.Idle (w : World σ ρ) (t : Turn σ ρ) : Prop := t.compiled = false ∧ t.world = w

theorem following_ok {next : Address} {compiled : Bool}
    (h : p.following entry w = .ok (some (next, compiled)) w') : compiled = false ∧ w' = w := by
  rw [following_eq] at h
  obtain ⟨hfound, rfl⟩ := Action.lift_eq_ok.mp h
  cases hthunk : p.thunkAt entry w'.memory with
  | error e =>
    rw [hthunk] at hfound
    cases hfound
  | ok found =>
    rw [hthunk] at hfound
    cases found with
    | none => cases hfound
    | some link =>
      cases hfound
      exact ⟨rfl, rfl⟩

theorem Course.idle (hc : p.Course p.following m w turns now entry) :
    now = w ∧ ∀ t ∈ turns, t.Idle w := by
  induction hc with
  | start h => exact ⟨rfl, nofun⟩
  | turn past h ih =>
    obtain ⟨rfl, hidle⟩ := ih
    obtain ⟨rfl, rfl⟩ := following_ok h
    exact ⟨rfl, List.forall_mem_cons.mpr ⟨⟨rfl, rfl⟩, hidle⟩⟩

theorem Account.idle (h : p.Account p.following .ok m w turns result) : ∀ t ∈ turns, t.Idle w := by
  cases h with
  | unreported => nofun
  | exhausted past => exact past.idle.2
  | revisited past => exact List.forall_mem_cons.mpr ⟨⟨rfl, past.idle.1⟩, past.idle.2⟩
  | ended past => exact List.forall_mem_cons.mpr ⟨⟨rfl, past.idle.1⟩, past.idle.2⟩
  | failed past => exact List.forall_mem_cons.mpr ⟨⟨rfl, past.idle.1⟩, past.idle.2⟩

/-- Whether the turn asks for a prestub that has not been told. -/
def Turn.probes (p : Platform σ ρ) (t : Turn σ ρ) : Bool :=
  match t.world.prestub, p.thunkAt t.entry t.world.memory with
  | none, .ok (some link) => !link.fixup
  | _, _ => false

def told (w : World σ ρ) : Nat := w.prestub.isSome.toNat

theorem told_congr (h : w'.prestub = w.prestub) : told w' = told w := by
  rw [told, h, told]

theorem keeps_compile : Keeps (p.compile r) := by
  unfold Platform.compile
  split
  · exact keeps_throw.bind fun _ => keeps_onRuntime
  · exact keeps_onRuntime

theorem keeps_onward {b : Bool} : Keeps (p.onward r link b) := by
  cases b with
  | true => exact Keeps.bind keeps_compile fun _ => Keeps.bind keeps_ask fun _ => keeps_pure
  | false => exact keeps_pure

theorem keeps_detourTarget {source target : MethodRef} : Keeps (p.detourTarget source target) := by
  refine Keeps.bind keeps_lift fun fixup => ?_
  cases fixup with
  | direct => exact keeps_pure
  | glue glue => exact keeps_onRuntime

theorem told_compiles {b : Bool} (h : p.compiles link w = .ok b w') :
    told w' = told w + (w.prestub.isNone && !link.fixup).toNat := by
  rcases compiles_eq_ok.mp h with ⟨hfixup, -, rfl⟩ | ⟨hfixup, v, -, -, rfl⟩
  · simp [hfixup]
  · cases hcell : w.prestub <;> simp [told, hcell, hfixup]

/-- A turn fills the cell of the prestub just when it probes, unless a fault stops it. -/
theorem told_resolving {t : Turn σ ρ}
    {result : EStateM.Result Failure (World σ ρ) (Option (Address × Bool))}
    (h : p.resolving r t.entry t.world = result) (hfault : ∀ w', result ≠ .error .fault w') :
    told (reached result) = told t.world + (t.probes p).toNat := by
  subst h
  obtain ⟨entry, w, compiled⟩ := t
  cases hthunk : p.thunkAt entry w.memory with
  | error e =>
    rw [resolving_error hthunk]
    simp [Turn.probes, hthunk, reached]
  | ok found =>
    cases found with
    | none =>
      rw [resolving_none hthunk]
      simp [Turn.probes, hthunk, reached]
    | some link =>
      rw [resolving_some hthunk] at hfault ⊢
      cases hcompiles : p.compiles link w with
      | error e t =>
        obtain rfl := compiles_error hcompiles
        exact absurd (Action.bind_run_error hcompiles) (hfault t)
      | ok b t =>
        have hprobes : Turn.probes p ⟨entry, w, compiled⟩ = (w.prestub.isNone && !link.fixup) := by
          cases hcell : w.prestub <;> simp [Turn.probes, hthunk, hcell]
        rw [Action.bind_run hcompiles, hprobes, ← told_compiles hcompiles]
        exact told_congr (keeps_onward t)

theorem told_le (w : World σ ρ) : told w ≤ 1 := Bool.toNat_le _

theorem probes_le {t : Turn σ ρ} : told t.world + (t.probes p).toNat ≤ 1 := by
  unfold Turn.probes
  split
  · rename_i hcell _
    rw [told, hcell, Option.isSome_none, Bool.toNat_false, Nat.zero_add]
    exact Bool.toNat_le _
  · exact told_le t.world

theorem countP_turn {t : Turn σ ρ} :
    (t :: turns).countP (·.probes p) = turns.countP (·.probes p) + (t.probes p).toNat := by
  rw [List.countP_cons]
  cases t.probes p <;> rfl

theorem Course.told_eq (hc : p.Course (p.resolving r) m w turns now entry) :
    told now = told w + turns.countP (·.probes p) := by
  induction hc with
  | start h => rfl
  | @turn turns now later entry next compiled past h ih =>
    rw [countP_turn, ← Nat.add_assoc, ← ih]
    exact told_resolving (t := ⟨entry, now, compiled⟩) h nofun

/-- The cell has been filled by the one turn that probed, if there was one. -/
theorem Account.told_eq (h : p.Account (p.resolving r) revisit r.method w turns result)
    (hfault : ∀ w', result ≠ .error .fault w') :
    told (reached result) = told w + turns.countP (·.probes p) := by
  cases h with
  | unreported => rfl
  | exhausted past => exact past.told_eq
  | @revisited turns now entry past steady within h =>
    obtain ⟨_, -, -, -, v, hv, -⟩ := past.visited_leads (List.mem_of_head? h)
    have hprobes : Turn.probes p ⟨entry, now, false⟩ = false := by simp [Turn.probes, hv]
    have hreached : reached (Attempt.lift (revisit entry) now) = now := by
      cases revisit entry <;> rfl
    rw [countP_turn, hprobes, hreached]
    exact past.told_eq
  | @ended turns now later entry past steady within h =>
    rw [countP_turn, ← Nat.add_assoc, ← past.told_eq]
    exact told_resolving (t := ⟨entry, now, false⟩) h nofun
  | @failed turns now later entry e past steady within h =>
    rw [countP_turn, ← Nat.add_assoc, ← past.told_eq]
    refine told_resolving (t := ⟨entry, now, false⟩) h fun w' heq => ?_
    cases heq
    exact hfault _ rfl

theorem Account.probes_le (h : p.Account (p.resolving r) revisit r.method w turns result) :
    told w + turns.countP (·.probes p) ≤ 1 := by
  have hlast {turns : List (Turn σ ρ)} {now : World σ ρ} {entry : Address}
      (past : p.Course (p.resolving r) r.method w turns now entry) :
      told w + ((⟨entry, now, false⟩ : Turn σ ρ) :: turns).countP (·.probes p) ≤ 1 := by
    rw [countP_turn, ← Nat.add_assoc, ← past.told_eq]
    exact Platform.probes_le (t := ⟨entry, now, false⟩)
  cases h with
  | unreported => exact told_le w
  | exhausted past =>
    rw [← past.told_eq]
    exact told_le _
  | revisited past => exact hlast past
  | ended past => exact hlast past
  | failed past => exact hlast past

/-- The turns of all walks on a platform, the latest first, and the world they have led to. In
between, other operations may do anything but touch the cell of the prestub. A fault is the end. -/
inductive Lifetime (p : Platform σ ρ) : List (Turn σ ρ) → World σ ρ → Prop
  | start {memory : σ} {runtime : ρ} : Lifetime p [] ⟨memory, runtime, none⟩
  | aside {past : List (Turn σ ρ)} {w : World σ ρ} {α : Type} {x : Action (World σ ρ) α}
      (h : Lifetime p past w) (hx : Keeps x) : Lifetime p past (reached (x w))
  | walk {past turns : List (Turn σ ρ)} {w : World σ ρ} {r : MethodRef}
      {result : EStateM.Result Failure (World σ ρ) Address} (h : Lifetime p past w)
      (account : p.Account (p.resolving r) (refusal r.method) r.method w turns result)
      (hfault : ∀ w', result ≠ .error .fault w') : Lifetime p (turns ++ past) (reached result)

theorem Lifetime.told_eq (h : p.Lifetime past w) : told w = past.countP (·.probes p) := by
  induction h with
  | start => rfl
  | aside h hx ih => rw [told_congr (hx _), ih]
  | walk h account hfault ih =>
    rw [account.told_eq hfault, ih, List.countP_append, Nat.add_comm]

def probing (p : Platform σ ρ) (candidates : List Method) : Platform σ ρ :=
  { p with runtime := { p.runtime with probeCandidates := candidates } }

theorem compiles_probing {candidates : List Method} (h : w.prestub.isNone → link.fixup) :
    (p.probing candidates).compiles link w = p.compiles link w := by
  unfold compiles
  split
  · rfl
  · rename_i hfixup
    cases hcell : w.prestub with
    | none => exact absurd (h (by rw [hcell]; rfl)) hfixup
    | some v =>
      rw [Action.bind_run (prestub_told hcell), Action.bind_run (prestub_told hcell)]

theorem resolving_probing {t : Turn σ ρ} {candidates : List Method} (h : t.probes p = false) :
    (p.probing candidates).resolving r t.entry t.world = p.resolving r t.entry t.world := by
  obtain ⟨entry, w, compiled⟩ := t
  cases hthunk : p.thunkAt entry w.memory with
  | error e => rw [resolving_error hthunk, resolving_error (p := p.probing candidates) hthunk]
  | ok found =>
    cases found with
    | none => rw [resolving_none hthunk, resolving_none (p := p.probing candidates) hthunk]
    | some link =>
      rw [resolving_some hthunk, resolving_some (p := p.probing candidates) hthunk]
      have hcell : w.prestub.isNone → link.fixup := by
        intro hnone
        rw [Option.isNone_iff_eq_none] at hnone
        simpa [Turn.probes, hthunk, hnone] using h
      have hcompiles : (p.probing candidates).compiles link w = p.compiles link w :=
        compiles_probing hcell
      simp only [bind, EStateM.bind, hcompiles]
      rfl

theorem visited_eq_nil (h : ∀ t ∈ turns, t.compiled) : visited turns = [] := by
  cases turns with
  | nil => rfl
  | cons t earlier => exact if_pos (h t List.mem_cons_self)

theorem steady_of_compiled (h : ∀ t ∈ turns, t.compiled) : Steady turns := by
  induction turns with
  | nil => trivial
  | cons t earlier ih =>
    have hearlier : ∀ t ∈ earlier, t.compiled := fun t ht => h t (List.mem_cons_of_mem _ ht)
    refine ⟨?_, ih hearlier⟩
    rw [visited_eq_nil hearlier]
    nofun

theorem Course.run_futile (hc : p.Course (p.resolving r) r.method w turns now entry)
    (hfull : turns.length = p.settings.walkLimit) (hcompiled : ∀ t ∈ turns, t.compiled) :
    p.run (p.resolving r) revisit r.method w = .error (p.unstable r.method.fullName) now :=
  hc.run_eq (n := 0) (steady_of_compiled hcompiled) hfull

/-- What walks on a platform may cost. -/
structure Budgeted (p : Platform σ ρ) : Prop where
  /-- A walk has an account, and by every account it takes no more turns than the limit. -/
  walk : ∀ r w,
    (∃ turns result, p.Account (p.resolving r) (refusal r.method) r.method w turns result) ∧
    ∀ turns result, p.Account (p.resolving r) (refusal r.method) r.method w turns result →
      result = p.methodBody r w ∧ turns.length ≤ p.settings.walkLimit
  calls : ∀ r, Calls p.settings.walkLimit (p.filmed.methodBody r) (p.methodBody r)
  /-- A candidate is followed in no more turns, and nothing is compiled for it. -/
  candidate : ∀ m w, (∃ turns result, p.Account p.following .ok m w turns result) ∧
    ∀ turns result, p.Account p.following .ok m w turns result →
      result = Attempt.lift (p.trace m w) w ∧ turns.length ≤ p.settings.walkLimit ∧
        ∀ t ∈ turns, t.Idle w
  probe : Calls 0 p.filmed.prestub p.prestub
  apart : ∀ r (t : Turn σ ρ), t.probes p = false → ∀ candidates,
    (p.probing candidates).resolving r t.entry t.world = p.resolving r t.entry t.world
  /-- Of all turns of all walks on a platform, no more than one probes. -/
  once : ∀ past w, p.Lifetime past w → ∀ r turns result,
    p.Account (p.resolving r) (refusal r.method) r.method w turns result →
      (turns ++ past).countP (·.probes p) ≤ 1
  aside : (∀ r, Keeps (p.compile r)) ∧ (∀ slots, Keeps (p.createProxy slots)) ∧
    (∀ source target, Keeps (p.detourTarget source target)) ∧
    ∀ source target limit writable, Keeps (p.createDetour source target limit writable) ∧
      ∀ rel?, Keeps (p.createEntryDetour rel? source target limit writable)
  futile : ∀ r w turns now entry, p.Course (p.resolving r) r.method w turns now entry →
    turns.length = p.settings.walkLimit → (∀ t ∈ turns, t.compiled) →
      p.methodBody r w =
        .error (.refused (.unstableEntry r.method.fullName p.settings.walkLimit)) now

theorem methodBody_budget (p : Platform σ ρ)
    (hwalk : p.runtime.features.contains RuntimeFeature.bodyWalk = true) : p.Budgeted where
  walk r w := by
    rw [methodBody_eq_run hwalk]
    obtain ⟨turns, account⟩ := exists_account p (p.resolving r) (refusal r.method) r.method w
    exact ⟨⟨turns, _, account⟩, fun _ _ h => ⟨h.result_eq, h.length_le⟩⟩
  calls r := calls_methodBody hwalk
  candidate m w := by
    rw [trace_eq_run]
    obtain ⟨turns, account⟩ := exists_account p p.following .ok m w
    exact ⟨⟨turns, _, account⟩, fun _ _ h => ⟨h.result_eq, h.length_le, h.idle⟩⟩
  probe := calls_prestub
  apart r t h candidates := resolving_probing h
  once past w h r turns result account := by
    rw [List.countP_append, Nat.add_comm, ← h.told_eq]
    exact account.probes_le
  aside := ⟨fun _ => keeps_compile, fun _ => keeps_onMemory, fun _ _ => keeps_detourTarget,
    fun _ _ _ _ => ⟨keeps_onMemory, fun _ => keeps_onMemory⟩⟩
  futile r w turns now entry hc hfull hcompiled := by
    rw [methodBody_eq_run hwalk]
    exact hc.run_futile hfull hcompiled

/-- Where compiling changes nothing, a precode is compiled as often as the limit says. -/
theorem methodBody_budget_precode :
    let code : Space :=
      { regions := [(0x1000, [0xE8, 0xFB, 0x7F, 0, 0, 0x5E] ++ List.replicate 18 0xCC)] }
    let script : Script := { features := RuntimeFeature.bodyWalk }
    let p : Platform Space ScriptState :=
      ⟨.x86_64, Space.system {}, script.runtime, { walkLimit := 3 }⟩
    let r : MethodRef := ⟨.listed 0, { name := "Run", handle := 0x1000 }⟩
    let w (count : Nat) : World Space ScriptState :=
      { memory := code, runtime := { compileCount := count } }
    ∃ calls, calls.length ≤ 3 ∧ p.filmed.methodBody r ((w 0).filming []) =
      .error (.refused (.unstableEntry "Run" 3)) ((w 3).filming calls) := by
  intro code script p r w
  have hthunk : p.thunkAt 0x1000 code = .ok (some ⟨0x9000, true⟩) :=
    Attempt.toOption_eq_some.mp (by decide +kernel)
  have hturn (count : Nat) :
      p.resolving r 0x1000 (w count) = .ok (some (0x1000, true)) (w (count + 1)) := by
    rw [resolving_some hthunk]
    rfl
  have hc : p.Course (p.resolving r) r.method (w 0)
      [⟨0x1000, w 2, true⟩, ⟨0x1000, w 1, true⟩, ⟨0x1000, w 0, true⟩] (w 3) 0x1000 :=
    .turn (.turn (.turn (.start rfl) (hturn 0)) (hturn 1)) (hturn 2)
  have hbudget : p.Budgeted := methodBody_budget p (by decide)
  have hfutile := hbudget.futile r (w 0) _ _ _ hc rfl (by simp)
  obtain ⟨calls, hcalls, hrun⟩ := hbudget.calls r (w 0) []
  rw [hfutile] at hrun
  exact ⟨calls, hcalls, hrun⟩

end Platform

end Interpose

import Interpose.Engine.Walk
import Interpose.Memory.Space
import Interpose.Proofs.Action
import Mathlib.Logic.Relation

/-!
# Where a walk ends

A clean step goes from an entry to where its thunk leads, unless that compiles the method. A walk
that returns has followed clean steps from the entry that the runtime reports in the end, fewer than
the limit, to an address where nothing is recognised; and clean steps that lead to such an address
are followed without compiling anything, if the limit allows for them. So a second walk right after
one that returned ends at the same address.
-/

namespace Interpose

namespace World
variable {σ ρ α : Type} {w w' : World σ ρ} {a : α} {e : Failure}

theorem ask_eq_ok {x : World σ ρ → Attempt α} : ask x w = .ok a w' ↔ x w = .ok a ∧ w' = w := by
  unfold ask
  cases x w <;> simp [eq_comm]

theorem ask_eq_error {x : World σ ρ → Attempt α} :
    ask x w = .error e w' ↔ x w = .error e ∧ w' = w := by
  unfold ask
  cases x w <;> simp [eq_comm]

theorem onRuntime_ok {x : Action ρ α} (h : onRuntime x w = .ok a w') :
    ∃ s, x w.runtime = .ok a s ∧ w' = { w with runtime := s } := by
  unfold onRuntime at h
  split at h <;> cases h
  exact ⟨_, ‹_›, rfl⟩

theorem onRuntime_error {x : Action ρ α} (h : onRuntime x w = .error e w') :
    ∃ s, x w.runtime = .error e s := by
  unfold onRuntime at h
  split at h <;> cases h
  exact ⟨_, ‹_›⟩

end World

namespace Platform
variable {σ ρ : Type} (p : Platform σ ρ) {memory : σ} {entry next a : Address} {fixup : Bool}
  {stub : Option Address} {k : Nat}

/-- Nothing is readable at an address, or nothing that is read there is recognised. -/
def Terminal (memory : σ) (a : Address) : Prop :=
  ∃ n, p.system.readable a p.window memory = .ok n ∧ (n = 0 ∨
    ∃ code, p.system.read a (min n p.window) memory = .ok code ∧ p.isa.thunks.find? code = none)

def Follows (memory : σ) (entry next : Address) (fixup : Bool) : Prop :=
  ∃ n code found, p.system.readable entry p.window memory = .ok n ∧ n ≠ 0 ∧
    p.system.read entry (min n p.window) memory = .ok code ∧
    p.isa.thunks.find? code = some found ∧ found.pattern.meaning.kind.precodeFixup = fixup ∧
    found.pattern.meaning.target (p.system.readPointer memory) entry found.offset
      found.hit.address = .ok next

/-- A step that compiles nothing when `stub` is the prestub: the thunk is no fixup and does not lead
to the prestub. -/
def Clean (memory : σ) (stub : Option Address) (entry next : Address) : Prop :=
  p.Follows memory entry next false ∧ ∃ v, stub = some v ∧ next ≠ v

/-- Clean steps to a terminal address. -/
inductive Chain (memory : σ) (stub : Option Address) : Address → Nat → Address → Prop
  | stop {a : Address} (h : p.Terminal memory a) : Chain memory stub a 0 a
  | step {entry next a : Address} {k : Nat} (h : p.Clean memory stub entry next)
      (rest : Chain memory stub next k a) : Chain memory stub entry (k + 1) a

/-- The prestub of a world, if it is known or can be told. -/
def prestubOf? (w : World σ ρ) : Option Address := w.prestub <|> (p.probe w).toOption

def Recompiles (r : MethodRef) (s s' : ρ) : Prop :=
  p.runtime.compile (p.identify r).method s = .ok () s'

/-- All that happens from one world to another is that a method is compiled and the prestub is told,
which is probed at most once. -/
structure Prepares (r : MethodRef) (w w' : World σ ρ) : Prop where
  memory : w'.memory = w.memory
  runtime : Relation.ReflTransGen (p.Recompiles r) w.runtime w'.runtime
  prestub : w'.prestub = w.prestub ∨ w.prestub = none ∧ ∃ s v,
    Relation.ReflTransGen (p.Recompiles r) w.runtime s ∧
    Relation.ReflTransGen (p.Recompiles r) s w'.runtime ∧
    p.probe ⟨w.memory, s, none⟩ = .ok v ∧ w'.prestub = some v

variable {p}

theorem thunkAt_eq_none : p.thunkAt a memory = .ok none ↔ p.Terminal memory a := by
  constructor
  · intro h
    obtain ⟨n, hn, hrest⟩ := Attempt.bind_eq_ok.mp h
    split at hrest
    · exact ⟨n, hn, Or.inl ‹_›⟩
    · obtain ⟨code, hcode, hfound⟩ := Attempt.bind_eq_ok.mp hrest
      split at hfound
      · exact ⟨n, hn, Or.inr ⟨code, hcode, ‹_›⟩⟩
      · obtain ⟨_, -, hsome⟩ := Attempt.bind_eq_ok.mp hfound
        cases hsome
  · rintro ⟨n, hn, hend⟩
    refine Attempt.bind_eq_ok.mpr ⟨n, hn, ?_⟩
    rcases hend with rfl | ⟨code, hcode, hnone⟩
    · rfl
    · by_cases hz : n = 0
      · rw [if_pos hz]
        rfl
      · rw [if_neg hz]
        refine Attempt.bind_eq_ok.mpr ⟨code, hcode, ?_⟩
        rw [hnone]
        rfl

theorem thunkAt_eq_some :
    p.thunkAt entry memory = .ok (some ⟨next, fixup⟩) ↔ p.Follows memory entry next fixup := by
  constructor
  · intro h
    obtain ⟨n, hn, hrest⟩ := Attempt.bind_eq_ok.mp h
    split at hrest
    · cases hrest
    · obtain ⟨code, hcode, hfound⟩ := Attempt.bind_eq_ok.mp hrest
      split at hfound
      · cases hfound
      · rename_i found hfind
        obtain ⟨next, hnext, hsome⟩ := Attempt.bind_eq_ok.mp hfound
        cases hsome
        exact ⟨n, code, found, hn, ‹_›, hcode, hfind, rfl, hnext⟩
  · rintro ⟨n, code, found, hn, hz, hcode, hfind, hfixup, hnext⟩
    refine Attempt.bind_eq_ok.mpr ⟨n, hn, ?_⟩
    rw [if_neg hz]
    refine Attempt.bind_eq_ok.mpr ⟨code, hcode, ?_⟩
    rw [hfind]
    refine Attempt.bind_eq_ok.mpr ⟨next, hnext, ?_⟩
    rw [hfixup]
    rfl

theorem Terminal.not_follows (h : p.Terminal memory entry) :
    ¬ p.Follows memory entry next fixup := by
  intro hf
  have hsome := thunkAt_eq_some.mpr hf
  rw [thunkAt_eq_none.mpr h] at hsome
  cases hsome

theorem Follows.unique {next' : Address} {fixup' : Bool} (h : p.Follows memory entry next fixup)
    (h' : p.Follows memory entry next' fixup') : next = next' := by
  have hsome := thunkAt_eq_some.mpr h
  rw [thunkAt_eq_some.mpr h'] at hsome
  cases hsome
  rfl

theorem Chain.ne_of_clean (h : p.Chain memory stub entry k a)
    (hstep : p.Clean memory stub entry next) : next ≠ entry := by
  rintro rfl
  induction h with
  | stop h => exact h.not_follows hstep.1
  | step h rest ih =>
    have := h.1.unique hstep.1
    subst this
    exact ih hstep

section
variable {w w' : World σ ρ} {r : MethodRef} {n : Nat} {previous : Option Address}
  {prepared : Bool} {v : Address}

theorem prestubOf?_of_cell (h : w.prestub = some v) : p.prestubOf? w = some v := by
  unfold prestubOf?
  rw [h]
  rfl

theorem prestub_told (h : w.prestub = some v) : p.prestub w = .ok v w := by
  simp only [prestub, bind, EStateM.bind, Action.get_run, h]
  rfl

theorem prestub_untold (h : w.prestub = none) : p.prestub w =
    match p.probe w with
    | .ok v => .ok v { w with prestub := some v }
    | .error e => .error e w := by
  simp only [prestub, bind, EStateM.bind, Action.get_run, h, World.ask]
  cases p.probe w <;> rfl

theorem prestub_eq_ok :
    p.prestub w = .ok v w' ↔ p.prestubOf? w = some v ∧ w' = { w with prestub := some v } := by
  obtain ⟨memory, runtime, cell⟩ := w
  cases cell with
  | some b =>
    rw [prestub_told rfl]
    constructor
    · intro h
      cases h
      exact ⟨rfl, rfl⟩
    · rintro ⟨hv, rfl⟩
      cases hv
      rfl
  | none =>
    rw [prestub_untold rfl]
    constructor
    · intro h
      split at h <;> cases h
      rename_i hprobe
      rw [prestubOf?, hprobe]
      exact ⟨rfl, rfl⟩
    · rintro ⟨hv, rfl⟩
      rw [Attempt.toOption_eq_some.mp hv]

theorem Prepares.refl : p.Prepares r w w := ⟨rfl, .refl, Or.inl rfl⟩

theorem Prepares.cell (h : p.Prepares r w w') (hv : w.prestub = some v) : w'.prestub = some v := by
  rcases h.prestub with heq | ⟨hnone, -⟩
  · exact heq.trans hv
  · rw [hv] at hnone
    cases hnone

theorem Prepares.trans {w₂ : World σ ρ} (h₁ : p.Prepares r w w') (h₂ : p.Prepares r w' w₂) :
    p.Prepares r w w₂ := by
  refine ⟨h₂.memory.trans h₁.memory, h₁.runtime.trans h₂.runtime, ?_⟩
  rcases h₁.prestub with heq | ⟨hnone, s, v, hto, hfrom, hprobe, hv⟩
  · rcases h₂.prestub with heq₂ | ⟨hnone₂, s, v, hto₂, hfrom₂, hprobe₂, hv₂⟩
    · exact Or.inl (heq₂.trans heq)
    · rw [h₁.memory] at hprobe₂
      exact Or.inr ⟨heq.symm.trans hnone₂, s, v, h₁.runtime.trans hto₂, hfrom₂, hprobe₂, hv₂⟩
  · exact Or.inr ⟨hnone, s, v, hto, hfrom.trans h₂.runtime, hprobe, h₂.cell hv⟩

theorem Prepares.of_prestub (h : p.prestubOf? w = some v) :
    p.Prepares r w { w with prestub := some v } := by
  refine ⟨rfl, .refl, ?_⟩
  obtain ⟨memory, runtime, cell⟩ := w
  cases cell with
  | some b =>
    cases h
    exact Or.inl rfl
  | none => exact Or.inr ⟨rfl, runtime, v, .refl, .refl, Attempt.toOption_eq_some.mp h, rfl⟩

theorem compiles_eq_ok {link : Thunk.Link} {b : Bool} : p.compiles link w = .ok b w' ↔
    (link.fixup = true ∧ b = true ∧ w' = w) ∨ (link.fixup = false ∧
      ∃ v, p.prestubOf? w = some v ∧ b = (link.next == v) ∧ w' = { w with prestub := some v }) := by
  unfold compiles
  cases link.fixup with
  | true =>
    rw [if_pos rfl, Action.pure_eq_ok]
    simp
  | false =>
    rw [if_neg Bool.false_ne_true, Action.bind_eq_ok]
    simp only [prestub_eq_ok, Action.pure_eq_ok, Bool.false_eq_true, false_and, false_or, true_and]
    constructor
    · rintro ⟨v, _, ⟨hv, rfl⟩, hb, rfl⟩
      exact ⟨v, hv, hb, rfl⟩
    · rintro ⟨v, hv, hb, rfl⟩
      exact ⟨v, _, ⟨hv, rfl⟩, hb, rfl⟩

theorem compiles_ok {link : Thunk.Link} {b : Bool} (h : p.compiles link w = .ok b w') :
    p.Prepares r w w' ∧ w'.runtime = w.runtime ∧
      (b = false → link.fixup = false ∧ ∃ v, w'.prestub = some v ∧ link.next ≠ v) := by
  rcases compiles_eq_ok.mp h with ⟨-, rfl, rfl⟩ | ⟨hfixup, v, hv, rfl, rfl⟩
  · exact ⟨.refl, rfl, nofun⟩
  · exact ⟨.of_prestub hv, rfl, fun hb => ⟨hfixup, v, rfl, by simpa using hb⟩⟩

theorem compiles_of_clean (hv : p.prestubOf? w = some v) (hne : next ≠ v) :
    p.compiles ⟨next, false⟩ w = .ok false { w with prestub := some v } :=
  compiles_eq_ok.mpr (Or.inr ⟨rfl, v, hv, (beq_false_of_ne hne).symm, rfl⟩)

theorem compile_ok {u : Unit} (h : p.compile r w = .ok u w') : p.Prepares r w w' := by
  unfold compile at h
  split at h
  · obtain ⟨_, _, hthrow, -⟩ := Action.bind_eq_ok.mp h
    exact (Action.throw_eq_ok.mp hthrow).elim
  · obtain ⟨s, hcompile, rfl⟩ := World.onRuntime_ok h
    exact ⟨rfl, .single hcompile, Or.inl rfl⟩

/-- A walk that returns has ended at its entry, has compiled the method and started again, or has
taken a clean step. -/
theorem walkFrom_step (h : p.walkFrom r (n + 1) entry previous prepared w = .ok a w') :
    (p.Terminal w.memory entry ∧ a = entry ∧ w' = w) ∨
    (∃ w₁ entry', p.Prepares r w w₁ ∧ p.runtime.entryPoint r.method w₁.runtime = .ok entry' ∧
      p.walkFrom r n entry' (some entry) true w₁ = .ok a w') ∨
    ∃ w₁ next, p.Prepares r w w₁ ∧ w₁.runtime = w.runtime ∧
      p.Clean w.memory w₁.prestub entry next ∧
      p.walkFrom r n next (some entry) false w₁ = .ok a w' := by
  unfold walkFrom at h
  split at h
  · exact (Action.throw_eq_ok.mp h).elim
  · obtain ⟨found, w₁, hask, h₁⟩ := Action.bind_eq_ok.mp h
    obtain ⟨hthunk, rfl⟩ := World.ask_eq_ok.mp hask
    cases found with
    | none => exact Or.inl ⟨thunkAt_eq_none.mp hthunk, Action.pure_eq_ok.mp h₁⟩
    | some link =>
      obtain ⟨b, w₂, hcompiles, h₂⟩ := Action.bind_eq_ok.mp h₁
      obtain ⟨hprepares, hruntime, hclean⟩ := compiles_ok (r := r) hcompiles
      cases b with
      | true =>
        obtain ⟨_, w₃, hcompile, h₃⟩ := Action.bind_eq_ok.mp h₂
        obtain ⟨entry', w₄, hask', h₄⟩ := Action.bind_eq_ok.mp h₃
        obtain ⟨hentry, rfl⟩ := World.ask_eq_ok.mp hask'
        exact Or.inr (Or.inl ⟨w₄, entry', hprepares.trans (compile_ok hcompile), hentry, h₄⟩)
      | false =>
        obtain ⟨hfixup, v, hv, hne⟩ := hclean rfl
        have hfollows := thunkAt_eq_some.mp hthunk
        rw [hfixup] at hfollows
        exact Or.inr (Or.inr ⟨w₂, link.next, hprepares, hruntime, ⟨hfollows, v, hv, hne⟩, h₂⟩)

/-- A walk that returns has followed clean steps from its entry, or, once it has compiled the
method, from the entry reported since. -/
theorem walkFrom_ok (h : p.walkFrom r n entry previous prepared w = .ok a w') :
    p.Prepares r w w' ∧ ∃ e k, k < n ∧ p.Chain w'.memory w'.prestub e k a ∧
      (e = entry ∧ w'.runtime = w.runtime ∨ p.runtime.entryPoint r.method w'.runtime = .ok e) := by
  induction n generalizing entry previous prepared w with
  | zero => exact (Action.throw_eq_ok.mp h).elim
  | succ n ih =>
    rcases walkFrom_step h with ⟨hterminal, rfl, rfl⟩ | ⟨w₁, entry', hprepares, hentry, hwalk⟩ |
      ⟨w₁, next, hprepares, hruntime, ⟨hfollows, v, hv, hne⟩, hwalk⟩
    · exact ⟨.refl, a, 0, Nat.succ_pos _, .stop hterminal, Or.inl ⟨rfl, rfl⟩⟩
    · obtain ⟨hrest, e, k, hk, hchain, hstart⟩ := ih hwalk
      refine ⟨hprepares.trans hrest, e, k, Nat.lt_succ_of_lt hk, hchain, Or.inr ?_⟩
      rcases hstart with ⟨rfl, hsame⟩ | hreport
      · rw [hsame]
        exact hentry
      · exact hreport
    · obtain ⟨hrest, e, k, hk, hchain, hstart⟩ := ih hwalk
      have hall := hprepares.trans hrest
      refine ⟨hall, ?_⟩
      rcases hstart with ⟨rfl, hsame⟩ | hreport
      · rw [← hall.memory] at hfollows
        exact ⟨entry, k + 1, Nat.succ_lt_succ hk, .step ⟨hfollows, v, hrest.cell hv, hne⟩ hchain,
          Or.inl ⟨rfl, hsame.trans hruntime⟩⟩
      · exact ⟨e, k, Nat.lt_succ_of_lt hk, hchain, Or.inr hreport⟩

/-- The world after clean steps: the prestub has been told, if there were any. -/
def afterSteps (p : Platform σ ρ) (k : Nat) (w : World σ ρ) : World σ ρ :=
  if k = 0 then w else { w with prestub := p.prestubOf? w }

theorem afterSteps_succ (h : p.prestubOf? w = some v) :
    p.afterSteps (k + 1) w = { w with prestub := some v } := by
  rw [afterSteps, if_neg (Nat.succ_ne_zero k), h]

theorem afterSteps_told (h : w.prestub = some v) : p.afterSteps k w = w := by
  cases k with
  | zero => rfl
  | succ k =>
    obtain ⟨memory, runtime, cell⟩ := w
    cases h
    rfl

/-- Clean steps do not compile anything: a walk has seen the end of them, or as many entries as it
may look at. -/
theorem walkFrom_of_chain (hc : p.Chain w.memory (p.prestubOf? w) entry k a)
    (hloop : prepared = true ∨ previous ≠ some entry) :
    (k < n → p.walkFrom r n entry previous prepared w = .ok a (p.afterSteps k w)) ∧
      (n ≤ k → p.walkFrom r n entry previous prepared w =
        .error (p.unstable r.method.fullName) (p.afterSteps n w)) := by
  induction n generalizing entry previous prepared w k with
  | zero => exact ⟨nofun, fun _ => Action.throw_eq_error.mpr ⟨rfl, rfl⟩⟩
  | succ n ih =>
    have hguard : ¬ (!prepared && previous == some entry) = true := by
      rcases hloop with rfl | hne
      · simp
      · simp [hne]
    unfold walkFrom
    rw [if_neg hguard]
    cases hc with
    | stop hterminal =>
      have hask : World.ask (fun w : World σ ρ => p.thunkAt a w.memory) w = .ok none w :=
        World.ask_eq_ok.mpr ⟨thunkAt_eq_none.mpr hterminal, rfl⟩
      exact ⟨fun _ => Action.bind_eq_ok.mpr ⟨none, w, hask, Action.pure_eq_ok.mpr ⟨rfl, rfl⟩⟩,
        nofun⟩
    | @step _ next _ k hclean rest =>
      have hne := (Chain.step hclean rest).ne_of_clean hclean
      obtain ⟨hfollows, v, hv, hprestub⟩ := hclean
      have hask : World.ask (fun w : World σ ρ => p.thunkAt entry w.memory) w =
          .ok (some ⟨next, false⟩) w :=
        World.ask_eq_ok.mpr ⟨thunkAt_eq_some.mpr hfollows, rfl⟩
      have hcompiles := compiles_of_clean hv hprestub
      have htold : p.prestubOf? { w with prestub := some v } = some v := prestubOf?_of_cell rfl
      rw [hv, ← htold] at rest
      have hmoved : false = true ∨ some entry ≠ some next :=
        Or.inr fun h => hne (Option.some.inj h).symm
      have hrest := ih (w := { w with prestub := some v }) rest hmoved
      rw [afterSteps_told rfl, afterSteps_told rfl] at hrest
      rw [afterSteps_succ hv, afterSteps_succ hv]
      refine ⟨fun hk => ?_, fun hk => ?_⟩
      · exact Action.bind_eq_ok.mpr ⟨_, _, hask, Action.bind_eq_ok.mpr ⟨_, _, hcompiles,
          hrest.1 (Nat.lt_of_succ_lt_succ hk)⟩⟩
      · exact Action.bind_eq_error.mpr (Or.inr ⟨_, _, hask, Action.bind_eq_error.mpr (Or.inr
          ⟨_, _, hcompiles, hrest.2 (Nat.le_of_succ_le_succ hk)⟩)⟩)

end

section
variable {ρ' : Type} {q : Platform σ ρ'} {w : World σ ρ} {w' : World σ ρ'}

theorem traceFrom_congr {name : String} {n : Nat} {previous : Option Address}
    (hthunk : q.thunkAt = p.thunkAt) (hsettings : q.settings = p.settings) :
    q.traceFrom name memory n entry previous = p.traceFrom name memory n entry previous := by
  induction n generalizing entry previous with
  | zero => simp only [traceFrom, unstable, hsettings]
  | succ n ih => simp only [traceFrom, ih, hthunk]

theorem trace_congr {m : Method} (hthunk : q.thunkAt = p.thunkAt)
    (hsettings : q.settings = p.settings) (hmemory : w'.memory = w.memory)
    (hentry : q.runtime.entryPoint m w'.runtime = p.runtime.entryPoint m w.runtime) :
    q.trace m w' = p.trace m w := by
  simp only [trace, traceFrom_congr hthunk hsettings, hsettings, hmemory, hentry]

theorem traceAll_congr {methods : List Method} (h : ∀ m, q.trace m w' = p.trace m w) :
    q.traceAll w' methods = p.traceAll w methods := by
  induction methods with
  | nil => rfl
  | cons m rest ih => simp only [traceAll, h, ih]

end

def compilingBy (p : Platform σ ρ) (compile : Method → Action ρ Unit) : Platform σ ρ :=
  { p with runtime := { p.runtime with compile } }

section
variable {compile : Method → Action ρ Unit} {w : World σ ρ}

theorem prestubOf?_compilingBy : (p.compilingBy compile).prestubOf? w = p.prestubOf? w := by
  have htrace (m : Method) : (p.compilingBy compile).trace m w = p.trace m w :=
    trace_congr rfl rfl rfl rfl
  simp only [prestubOf?, probe, traceAll_congr htrace]
  rfl

theorem afterSteps_compilingBy : (p.compilingBy compile).afterSteps k w = p.afterSteps k w := by
  rw [afterSteps, prestubOf?_compilingBy, afterSteps]

theorem Chain.compilingBy (h : p.Chain memory stub entry k a) :
    (p.compilingBy compile).Chain memory stub entry k a := by
  induction h with
  | stop h => exact .stop h
  | step h rest ih => exact .step h ih

end

section
variable {w w' : World σ ρ} {r : MethodRef}

theorem methodBody_eq {e : Address} (hwalk : p.runtime.features.contains RuntimeFeature.bodyWalk)
    (he : p.runtime.entryPoint r.method w.runtime = .ok e) :
    p.methodBody r w = p.walkFrom r p.settings.walkLimit e none false w := by
  have hask : World.ask (fun w : World σ ρ => p.runtime.entryPoint r.method w.runtime) w =
      .ok e w := World.ask_eq_ok.mpr ⟨he, rfl⟩
  simp only [methodBody, if_pos hwalk, bind, EStateM.bind, hask]

theorem methodBody_ok (hwalk : p.runtime.features.contains RuntimeFeature.bodyWalk)
    (h : p.methodBody r w = .ok a w') : p.Prepares r w w' ∧
      ∃ e k, p.runtime.entryPoint r.method w'.runtime = .ok e ∧ k < p.settings.walkLimit ∧
        p.Chain w'.memory w'.prestub e k a := by
  obtain ⟨entry, t, hask, -⟩ := Action.bind_eq_ok.mp h
  have hentry := (World.ask_eq_ok.mp hask).1
  rw [methodBody_eq hwalk hentry] at h
  obtain ⟨hprepares, e, k, hk, hchain, hstart⟩ := walkFrom_ok h
  refine ⟨hprepares, e, k, ?_, hk, hchain⟩
  rcases hstart with ⟨rfl, hruntime⟩ | hreport
  · rw [hruntime]
    exact hentry
  · exact hreport

end

/-- A body that is found lies at the end of fewer clean steps than the limit, from the entry that
the runtime reports then. Where clean steps from the entry reported now lead to an end, that end is
found without compiling anything, if they are fewer than the limit, and else the walk is refused. -/
theorem methodBody_exact (p : Platform σ ρ) (r : MethodRef) (w : World σ ρ)
    (hwalk : p.runtime.features.contains RuntimeFeature.bodyWalk = true) :
    (∀ a w', p.methodBody r w = .ok a w' → p.Prepares r w w' ∧
      ∃ e k, p.runtime.entryPoint r.method w'.runtime = .ok e ∧ k < p.settings.walkLimit ∧
        p.Chain w'.memory w'.prestub e k a) ∧
    ∀ e k a, p.runtime.entryPoint r.method w.runtime = .ok e →
      p.Chain w.memory (p.prestubOf? w) e k a → ∀ compile,
        (k < p.settings.walkLimit →
          (p.compilingBy compile).methodBody r w = .ok a (p.afterSteps k w)) ∧
        (p.settings.walkLimit ≤ k → (p.compilingBy compile).methodBody r w =
          .error (p.unstable r.method.fullName) (p.afterSteps p.settings.walkLimit w)) := by
  refine ⟨fun _ _ h => methodBody_ok hwalk h, fun e k a he hc compile => ?_⟩
  have hbody := methodBody_eq (p := p.compilingBy compile) hwalk he
  have hc' : (p.compilingBy compile).Chain w.memory
      ((p.compilingBy compile).prestubOf? w) e k a := by
    rw [prestubOf?_compilingBy]
    exact hc.compilingBy
  have hfresh : false = true ∨ none ≠ some e := Or.inr nofun
  have hrun := walkFrom_of_chain (r := r) (n := p.settings.walkLimit) hc' hfresh
  rw [afterSteps_compilingBy, afterSteps_compilingBy] at hrun
  exact ⟨fun hk => hbody.trans (hrun.1 hk), fun hk => hbody.trans (hrun.2 hk)⟩

/-- One jump in front of a body: two entries may be looked at, or only one. -/
theorem methodBody_exact_jump :
    let code : Space := { regions := [(0x1000, [0xE9, 0xFB, 0x0F, 0, 0]), (0x2000, [0x55, 0xC3])] }
    let script : Script := { features := RuntimeFeature.bodyWalk }
    let p (limit : Nat) : Platform Space ScriptState :=
      ⟨.x86_64, Space.system {}, script.runtime, { walkLimit := limit }⟩
    let r : MethodRef := ⟨.listed 0, { name := "Run", handle := 0x1000 }⟩
    let w : World Space ScriptState := { memory := code, runtime := {} }
    (∃ w', (p 2).methodBody r w = .ok 0x2000 w' ∧ (p 2).Prepares r w w' ∧
      ∃ k, k < 2 ∧ (p 2).Chain w'.memory w'.prestub 0x1000 k 0x2000) ∧
      ∃ w', (p 1).methodBody r w = .error ((p 1).unstable "Run") w' := by
  intro code script p r w
  have hchain (limit : Nat) :
      (p limit).Chain w.memory ((p limit).prestubOf? w) 0x1000 1 0x2000 := by
    have hjump : (p 0).thunkAt 0x1000 code = .ok (some ⟨0x2000, false⟩) :=
      Attempt.toOption_eq_some.mp (by decide +kernel)
    have hbody : (p limit).thunkAt 0x2000 code = .ok none := by rfl
    exact .step ⟨thunkAt_eq_some.mp hjump, noPrestub, rfl, by decide⟩
      (.stop (thunkAt_eq_none.mp hbody))
  have hwalk : script.features.contains RuntimeFeature.bodyWalk = true := by decide
  have hexact (limit : Nat) := methodBody_exact (p limit) r w hwalk
  have hreach := (hexact 2).2 _ _ _ rfl (hchain 2) (p 2).runtime.compile
  have hrefused := (hexact 1).2 _ _ _ rfl (hchain 1) (p 1).runtime.compile
  have hbody := hreach.1 Nat.one_lt_two
  obtain ⟨hprepares, e, k, he, hk, hrest⟩ := (hexact 2).1 _ _ hbody
  cases he
  exact ⟨⟨_, hbody, hprepares, k, hk, hrest⟩, _, hrefused.2 (Nat.le_refl 1)⟩

section
variable {w w' : World σ ρ} {r : MethodRef}

/-- Clean steps have told the prestub, so they are the same steps for the next walk. -/
theorem Chain.told (h : p.Chain w.memory w.prestub entry k a) :
    p.Chain w.memory (p.prestubOf? w) entry k a ∧ p.afterSteps k w = w := by
  cases h with
  | stop hterminal =>
    constructor
    · exact .stop hterminal
    · rfl
  | step hclean rest =>
    obtain ⟨-, v, hv, -⟩ := id hclean
    constructor
    · rw [prestubOf?_of_cell hv, ← hv]
      exact .step hclean rest
    · exact afterSteps_told hv

theorem methodBody_of_chain {compile : Method → Action ρ Unit}
    (hwalk : p.runtime.features.contains RuntimeFeature.bodyWalk)
    (he : p.runtime.entryPoint r.method w.runtime = .ok entry)
    (hc : p.Chain w.memory (p.prestubOf? w) entry k a) (hk : k < p.settings.walkLimit) :
    (p.compilingBy compile).methodBody r w = .ok a (p.afterSteps k w) := by
  have hfresh : false = true ∨ (none : Option Address) ≠ some entry := Or.inr nofun
  have hbody := methodBody_eq (p := p.compilingBy compile) hwalk he
  have hc' : (p.compilingBy compile).Chain w.memory
      ((p.compilingBy compile).prestubOf? w) entry k a := by
    rw [prestubOf?_compilingBy]
    exact hc.compilingBy
  have hrun := (walkFrom_of_chain (r := r) hc' hfresh).1 hk
  rwa [hbody, ← afterSteps_compilingBy]

theorem methodBody_unwalked (hwalk : ¬ p.runtime.features.contains RuntimeFeature.bodyWalk) :
    p.methodBody r w = World.ask (fun w => p.runtime.entryPoint r.method w.runtime) w := by
  simp only [methodBody, if_neg hwalk, bind_pure]

end

/-- A body that has been found is found again without compiling anything, and finding it again
leaves everything as it is. -/
theorem methodBody_idempotent {w w' : World σ ρ} {r : MethodRef} {a : Address}
    (h : p.methodBody r w = .ok a w') :
    w'.memory = w.memory ∧ p.methodBody r w' = .ok a w' ∧
      ∀ compile, (p.compilingBy compile).methodBody r w' = .ok a w' := by
  suffices hagain : w'.memory = w.memory ∧
      ∀ compile, (p.compilingBy compile).methodBody r w' = .ok a w' from
    ⟨hagain.1, hagain.2 p.runtime.compile, hagain.2⟩
  by_cases hwalk : p.runtime.features.contains RuntimeFeature.bodyWalk
  · obtain ⟨hprepares, e, k, he, hk, hchain⟩ := methodBody_ok hwalk h
    obtain ⟨htold, hsame⟩ := hchain.told
    refine ⟨hprepares.memory, fun compile => ?_⟩
    have hbody : (p.compilingBy compile).methodBody r w' = .ok a (p.afterSteps k w') :=
      methodBody_of_chain hwalk he htold hk
    rwa [hsame] at hbody
  · rw [methodBody_unwalked hwalk] at h
    obtain ⟨hentry, rfl⟩ := World.ask_eq_ok.mp h
    refine ⟨rfl, fun compile => ?_⟩
    rw [methodBody_unwalked (p := p.compilingBy compile) hwalk]
    exact World.ask_eq_ok.mpr ⟨hentry, rfl⟩

/-- A method whose entry leads to the prestub that two others share is compiled once. -/
theorem methodBody_idempotent_compiled :
    let code : Space := { regions := [(0x1000, [0xE9, 0xFB, 0x3F, 0, 0]),
      (0x1100, [0xE9, 0xFB, 0x3E, 0, 0]), (0x1200, [0xE9, 0xFB, 0x3D, 0, 0]),
      (0x2000, [0xE9, 0xFB, 0x0F, 0, 0]), (0x3000, [0x55, 0xC3]), (0x5000, [0x55, 0xC3])] }
    let method (name : String) (handle : Address) : Method := { name, handle }
    let script : Script :=
      { features := RuntimeFeature.bodyWalk, compiled := [(0x1000, 0x2000)]
        candidates := [method "Stop" 0x1100, method "Wait" 0x1200] }
    let p : Platform Space ScriptState := ⟨.x86_64, Space.system {}, script.runtime, {}⟩
    let r : MethodRef := ⟨.listed 0, method "Run" 0x1000⟩
    let w : World Space ScriptState := { memory := code, runtime := {} }
    ∃ w', p.methodBody r w = .ok 0x3000 w' ∧ w'.runtime.compileCount = 1 ∧
      w'.prestub = some 0x5000 ∧ p.methodBody r w' = .ok 0x3000 w' := by
  intro code method script p r w
  have hrun : (match p.methodBody r w with
      | .ok a w' => decide (a = 0x3000 ∧ w'.runtime.compileCount = 1 ∧ w'.prestub = some 0x5000)
      | .error _ _ => false) = true := by decide +kernel
  cases hbody : p.methodBody r w with
  | error e w' =>
    rw [hbody] at hrun
    cases hrun
  | ok a w' =>
    rw [hbody] at hrun
    obtain ⟨rfl, hcount, hprestub⟩ := of_decide_eq_true hrun
    obtain ⟨-, hagain, -⟩ := methodBody_idempotent hbody
    exact ⟨w', rfl, hcount, hprestub, hagain⟩

end Platform

end Interpose

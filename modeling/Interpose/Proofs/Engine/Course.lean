import Interpose.Proofs.Engine.Walk

/-!
# The course of a walk

A walk is a loop of turns, one for each entry it looks at. Its course is the list of turns that take
it to an entry, whatever the limit and whether or not an entry comes again; its account is the
course up to where the limit, an entry that comes twice in a row, or a turn of its own ends it. The
same loop follows the candidates of a probe and resolves a method, and every run of it has an
account.
-/

namespace Interpose

namespace Platform
variable {σ ρ : Type}

/-- What a turn at an entry leads to, if a thunk is recognised there: the next entry, and whether
the method was compiled in between. -/
abbrev Stride (σ ρ : Type) := Address → Action (World σ ρ) (Option (Address × Bool))

section
variable (p : Platform σ ρ)

def following : Stride σ ρ := fun entry => do
  return (← World.ask fun w => p.thunkAt entry w.memory).map fun link => (link.next, false)

def onward (r : MethodRef) (link : Thunk.Link) (compiles : Bool) :
    Action (World σ ρ) (Option (Address × Bool)) := do
  if compiles then
    p.compile r
    return some (← World.ask fun w => p.runtime.entryPoint r.method w.runtime, true)
  else return some (link.next, false)

def resolving (r : MethodRef) : Stride σ ρ := fun entry => do
  match ← World.ask fun w => p.thunkAt entry w.memory with
  | none => pure none
  | some link => p.onward r link (← p.compiles link)

/-- Turns at one entry after another. What an entry comes to that is the one before it as well, with
no compiling in between, is up to `revisit`. -/
def loop (stride : Stride σ ρ) (revisit : Address → Attempt Address) (name : String) :
    (remaining : Nat) → (entry : Address) → (previous : Option Address) → (prepared : Bool) →
      Action (World σ ρ) Address
  | 0, _, _, _ => throw (p.unstable name)
  | remaining + 1, entry, previous, prepared =>
    if !prepared && previous == some entry then Attempt.lift (revisit entry)
    else do
      match ← stride entry with
      | none => pure entry
      | some (next, compiled) => loop stride revisit name remaining next (some entry) compiled

def run (stride : Stride σ ρ) (revisit : Address → Attempt Address) (m : Method) :
    Action (World σ ρ) Address := do
  let entry ← World.ask fun w => p.runtime.entryPoint m w.runtime
  p.loop stride revisit m.fullName p.settings.walkLimit entry none false

def refusal (m : Method) (entry : Address) : Attempt Address :=
  .refuse (.thunkLoop m.fullName entry)

end

structure Turn (σ ρ : Type) where
  entry : Address
  world : World σ ρ
  compiled : Bool

/-- The entries looked at since the method was last compiled, the latest first as the turns are. -/
def visited : List (Turn σ ρ) → List Address
  | [] => []
  | t :: earlier => if t.compiled then [] else t.entry :: visited earlier

/-- The turns, the latest first, that lead to an entry from the one that the runtime reports. -/
inductive Course (p : Platform σ ρ) (stride : Stride σ ρ) (m : Method) (w : World σ ρ) :
    List (Turn σ ρ) → World σ ρ → Address → Prop
  | start {entry : Address} (h : p.runtime.entryPoint m w.runtime = .ok entry) :
      Course p stride m w [] w entry
  | turn {turns : List (Turn σ ρ)} {now later : World σ ρ} {entry next : Address} {compiled : Bool}
      (past : Course p stride m w turns now entry)
      (h : stride entry now = .ok (some (next, compiled)) later) :
      Course p stride m w (⟨entry, now, compiled⟩ :: turns) later next

/-- No entry comes twice in a row, unless the method is compiled in between. -/
def Steady : List (Turn σ ρ) → Prop
  | [] => True
  | t :: earlier => (visited earlier).head? ≠ some t.entry ∧ Steady earlier

/-- All turns of a walk from its start, and what it comes to: the runtime reports no entry, the
limit is reached, or there is a last turn. -/
inductive Account (p : Platform σ ρ) (stride : Stride σ ρ) (revisit : Address → Attempt Address)
    (m : Method) (w : World σ ρ) :
    List (Turn σ ρ) → EStateM.Result Failure (World σ ρ) Address → Prop
  | unreported {e : Failure} (h : p.runtime.entryPoint m w.runtime = .error e) :
      Account p stride revisit m w [] (.error e w)
  | exhausted {turns : List (Turn σ ρ)} {now : World σ ρ} {entry : Address}
      (past : Course p stride m w turns now entry) (steady : Steady turns)
      (h : turns.length = p.settings.walkLimit) :
      Account p stride revisit m w turns (.error (p.unstable m.fullName) now)
  | revisited {turns : List (Turn σ ρ)} {now : World σ ρ} {entry : Address}
      (past : Course p stride m w turns now entry) (steady : Steady turns)
      (within : turns.length < p.settings.walkLimit) (h : (visited turns).head? = some entry) :
      Account p stride revisit m w (⟨entry, now, false⟩ :: turns)
        (Attempt.lift (revisit entry) now)
  | ended {turns : List (Turn σ ρ)} {now later : World σ ρ} {entry : Address}
      (past : Course p stride m w turns now entry) (steady : Steady (⟨entry, now, false⟩ :: turns))
      (within : turns.length < p.settings.walkLimit) (h : stride entry now = .ok none later) :
      Account p stride revisit m w (⟨entry, now, false⟩ :: turns) (.ok entry later)
  | failed {turns : List (Turn σ ρ)} {now later : World σ ρ} {entry : Address} {e : Failure}
      (past : Course p stride m w turns now entry) (steady : Steady (⟨entry, now, false⟩ :: turns))
      (within : turns.length < p.settings.walkLimit) (h : stride entry now = .error e later) :
      Account p stride revisit m w (⟨entry, now, false⟩ :: turns) (.error e later)

section
variable {p : Platform σ ρ} {r : MethodRef} {m : Method} {name : String} {n : Nat}
  {entry : Address} {previous : Option Address} {prepared : Bool} {w : World σ ρ}

theorem walkFrom_eq_loop : p.walkFrom r n entry previous prepared =
    p.loop (p.resolving r) (refusal r.method) r.method.fullName n entry previous prepared := by
  induction n generalizing entry previous prepared with
  | zero => rfl
  | succ n ih =>
    rw [walkFrom, loop]
    split
    · rfl
    · simp only [resolving, bind_assoc]
      refine bind_congr fun found => ?_
      cases found with
      | none => rfl
      | some link =>
        rw [bind_assoc]
        refine bind_congr fun b => ?_
        cases b with
        | true => simp only [onward, if_true, bind_assoc, pure_bind, ih]
        | false => simp only [onward, Bool.false_eq_true, if_false, pure_bind, ih]

theorem methodBody_eq_run (hwalk : p.runtime.features.contains RuntimeFeature.bodyWalk) :
    p.methodBody r = p.run (p.resolving r) (refusal r.method) r.method := by
  simp only [methodBody, run, if_pos hwalk, walkFrom_eq_loop]

theorem resolving_error {e : Failure} (h : p.thunkAt entry w.memory = .error e) :
    p.resolving r entry w = .error e w :=
  Action.bind_run_error (World.ask_eq_error.mpr ⟨h, rfl⟩)

theorem resolving_none (h : p.thunkAt entry w.memory = .ok none) :
    p.resolving r entry w = .ok none w := by
  rw [resolving, Action.bind_run (World.ask_eq_ok.mpr ⟨h, rfl⟩)]
  rfl

theorem resolving_some {link : Thunk.Link} (h : p.thunkAt entry w.memory = .ok (some link)) :
    p.resolving r entry w = (p.compiles link >>= p.onward r link) w := by
  rw [resolving, Action.bind_run (World.ask_eq_ok.mpr ⟨h, rfl⟩)]

theorem following_eq : p.following entry w = Attempt.lift
    ((p.thunkAt entry w.memory).map (Option.map fun link => (link.next, false))) w := by
  unfold following World.ask Attempt.lift
  cases hthunk : p.thunkAt entry w.memory <;>
    simp [hthunk, bind, EStateM.bind, pure, EStateM.pure, Except.map]

theorem traceFrom_eq_loop : Attempt.lift (p.traceFrom name w.memory n entry previous) w =
    p.loop p.following .ok name n entry previous false w := by
  induction n generalizing entry previous with
  | zero => rfl
  | succ n ih =>
    rw [traceFrom, loop]
    by_cases hsame : previous = some entry
    · simp [hsame]
    · rw [if_neg hsame, if_neg (by simpa using hsame)]
      simp only [bind, EStateM.bind, following_eq]
      cases p.thunkAt entry w.memory with
      | error e => rfl
      | ok found =>
        cases found with
        | none => rfl
        | some link => exact ih

theorem trace_eq_run : Attempt.lift (p.trace m w) w = p.run p.following .ok m w := by
  simp only [run, trace, bind, EStateM.bind, World.ask]
  cases p.runtime.entryPoint m w.runtime with
  | error e => rfl
  | ok entry => exact traceFrom_eq_loop

end

section
variable {p : Platform σ ρ} {stride : Stride σ ρ} {revisit : Address → Attempt Address} {m : Method}
  {n : Nat} {turns : List (Turn σ ρ)} {w now later : World σ ρ} {entry next : Address}
  {compiled : Bool} {e : Failure} {result : EStateM.Result Failure (World σ ρ) Address}

def resume (p : Platform σ ρ) (stride : Stride σ ρ) (revisit : Address → Attempt Address)
    (m : Method) (n : Nat) (turns : List (Turn σ ρ)) (entry : Address) :
    Action (World σ ρ) Address :=
  p.loop stride revisit m.fullName n entry (turns.head?.map (·.entry))
    (turns.head?.elim false (·.compiled))

theorem guard_iff : (!(turns.head?.elim false (·.compiled)) &&
    turns.head?.map (·.entry) == some entry) = true ↔ (visited turns).head? = some entry := by
  cases turns with
  | nil => simp [visited]
  | cons t earlier =>
    cases hc : t.compiled with
    | true => simp [visited, hc]
    | false => simp [visited, hc]

theorem resume_revisited (h : (visited turns).head? = some entry) :
    p.resume stride revisit m (n + 1) turns entry now = Attempt.lift (revisit entry) now := by
  rw [resume, loop, if_pos (guard_iff.mpr h)]

section
variable (hnew : (visited turns).head? ≠ some entry)
include hnew

theorem resume_ended (h : stride entry now = .ok none later) :
    p.resume stride revisit m (n + 1) turns entry now = .ok entry later := by
  rw [resume, loop, if_neg (mt guard_iff.mp hnew)]
  exact Action.bind_eq_ok.mpr ⟨none, later, h, Action.pure_eq_ok.mpr ⟨rfl, rfl⟩⟩

theorem resume_failed (h : stride entry now = .error e later) :
    p.resume stride revisit m (n + 1) turns entry now = .error e later := by
  rw [resume, loop, if_neg (mt guard_iff.mp hnew)]
  exact Action.bind_eq_error.mpr (Or.inl h)

theorem resume_turn (h : stride entry now = .ok (some (next, compiled)) later) :
    p.resume stride revisit m (n + 1) turns entry now =
      p.resume stride revisit m n (⟨entry, now, compiled⟩ :: turns) next later := by
  rw [resume, loop, if_neg (mt guard_iff.mp hnew)]
  simp only [bind, EStateM.bind, h]
  rfl

end

theorem run_unreported (h : p.runtime.entryPoint m w.runtime = .error e) :
    p.run stride revisit m w = .error e w := by
  simp only [run, bind, EStateM.bind, World.ask, h]

theorem run_reported (h : p.runtime.entryPoint m w.runtime = .ok entry) :
    p.run stride revisit m w = p.resume stride revisit m p.settings.walkLimit [] entry w := by
  simp only [run, bind, EStateM.bind, World.ask, h]
  rfl

/-- As long as no entry comes twice in a row, a run goes along its course. -/
theorem Course.run_eq (hc : p.Course stride m w turns now entry) (hs : Steady turns)
    (hk : turns.length + n = p.settings.walkLimit) :
    p.run stride revisit m w = p.resume stride revisit m n turns entry now := by
  induction hc generalizing n with
  | start h =>
    rw [List.length_nil, Nat.zero_add] at hk
    rw [hk, run_reported h]
  | turn past h ih =>
    obtain ⟨hnew, hearlier⟩ := hs
    rw [List.length_cons, Nat.add_assoc, Nat.add_comm 1 n] at hk
    rw [ih hearlier hk, resume_turn hnew h]

theorem Course.run_within (hc : p.Course stride m w turns now entry)
    (revisit : Address → Attempt Address) (hs : Steady turns)
    (within : turns.length < p.settings.walkLimit) :
    ∃ k, p.run stride revisit m w = p.resume stride revisit m (k + 1) turns entry now := by
  obtain ⟨k, hk⟩ := Nat.exists_eq_add_of_lt within
  exact ⟨k, hc.run_eq hs hk.symm⟩

theorem Course.exists_account (hc : p.Course stride m w turns now entry) (hs : Steady turns)
    (hk : turns.length + n = p.settings.walkLimit) :
    ∃ all, p.Account stride revisit m w all (p.resume stride revisit m n turns entry now) := by
  induction n generalizing turns entry now with
  | zero => exact ⟨turns, .exhausted hc hs hk⟩
  | succ n ih =>
    have hwithin : turns.length < p.settings.walkLimit := by omega
    by_cases hloop : (visited turns).head? = some entry
    · rw [resume_revisited hloop]
      exact ⟨_, .revisited hc hs hwithin hloop⟩
    · cases hstride : stride entry now with
      | error e later =>
        rw [resume_failed hloop hstride]
        exact ⟨_, .failed hc ⟨hloop, hs⟩ hwithin hstride⟩
      | ok found later =>
        cases found with
        | none =>
          rw [resume_ended hloop hstride]
          exact ⟨_, .ended hc ⟨hloop, hs⟩ hwithin hstride⟩
        | some onward =>
          rw [resume_turn hloop hstride]
          refine ih (.turn hc hstride) ⟨hloop, hs⟩ ?_
          rw [List.length_cons]
          omega

/-- A run ends, and has an account of how it did. -/
theorem exists_account (p : Platform σ ρ) (stride : Stride σ ρ)
    (revisit : Address → Attempt Address) (m : Method) (w : World σ ρ) :
    ∃ turns, p.Account stride revisit m w turns (p.run stride revisit m w) := by
  cases hentry : p.runtime.entryPoint m w.runtime with
  | error e =>
    rw [run_unreported hentry]
    exact ⟨[], .unreported hentry⟩
  | ok entry =>
    have hc : p.Course stride m w [] w entry := .start hentry
    rw [run_reported hentry]
    exact hc.exists_account trivial (Nat.zero_add _)

theorem Account.result_eq (h : p.Account stride revisit m w turns result) :
    result = p.run stride revisit m w := by
  cases h with
  | unreported h => exact (run_unreported h).symm
  | exhausted past steady h => exact (past.run_eq (n := 0) steady h).symm
  | revisited past steady within h =>
    obtain ⟨k, hrun⟩ := past.run_within revisit steady within
    rw [hrun, resume_revisited h]
  | ended past steady within h =>
    obtain ⟨k, hrun⟩ := past.run_within revisit steady.2 within
    rw [hrun, resume_ended steady.1 h]
  | failed past steady within h =>
    obtain ⟨k, hrun⟩ := past.run_within revisit steady.2 within
    rw [hrun, resume_failed steady.1 h]

theorem Course.congr {stride' : Stride σ ρ}
    (h : ∀ turns now entry, p.Course stride m w turns now entry → stride' entry now = stride entry now)
    (hc : p.Course stride m w turns now entry) : p.Course stride' m w turns now entry := by
  induction hc with
  | start hentry => exact .start hentry
  | turn past hturn ih => exact .turn ih ((h _ _ _ past).trans hturn)

theorem run_congr {stride' : Stride σ ρ} (h : ∀ turns now entry,
    p.Course stride m w turns now entry → stride' entry now = stride entry now) :
    p.run stride' revisit m w = p.run stride revisit m w := by
  obtain ⟨turns, account⟩ := exists_account p stride revisit m w
  suffices hsame : p.Account stride' revisit m w turns (p.run stride revisit m w) from
    hsame.result_eq.symm
  generalize p.run stride revisit m w = result at account ⊢
  cases account with
  | unreported hentry => exact .unreported hentry
  | exhausted past steady hfull => exact .exhausted (past.congr h) steady hfull
  | revisited past steady within hloop => exact .revisited (past.congr h) steady within hloop
  | ended past steady within hend =>
    exact .ended (past.congr h) steady within ((h _ _ _ past).trans hend)
  | failed past steady within hfail =>
    exact .failed (past.congr h) steady within ((h _ _ _ past).trans hfail)

theorem Account.length_le (h : p.Account stride revisit m w turns result) :
    turns.length ≤ p.settings.walkLimit := by
  cases h with
  | unreported => exact Nat.zero_le _
  | exhausted past steady h => exact Nat.le_of_eq h
  | revisited past steady within => exact within
  | ended past steady within => exact within
  | failed past steady within => exact within

end

end Platform

end Interpose

import Interpose.Proofs.Engine.Detour

/-!
# Sessions of detours

A session holds any number of detours over one space. Putting back what its applied detours have
saved, the one applied last first, gives the bytes that the session began with; every move keeps
this, as long as a detour is not undone beneath one that overlaps it. A session whose detours are
all undone or dropped is back at the space it began with.
-/

namespace Interpose

open Space

inductive Handle where
  | plain (d : Detour)
  | entry (d : EntryDetour)
  deriving DecidableEq, Repr

namespace Handle

def detour : Handle → Detour
  | plain d => d
  | entry d => d.detour

def alternate : Handle → Option Range
  | plain _ => none
  | entry d => d.alternate

def owned (h : Handle) : List Range := h.detour.stub.toList ++ h.alternate.toList

section
variable {σ : Type} (sys : System σ) (isa : Isa)

def retarget (target : Address) : Handle → Action σ Handle
  | plain d => do pure (plain (← d.retarget sys isa target))
  | entry d => do pure (entry { d with detour := ← d.detour.retarget sys isa target })

def undo : Handle → Action σ Handle
  | plain d => do pure (plain (← d.undo sys))
  | entry d => do pure (entry (← d.undo sys))

/-- Undoes the detour and leaves the alternate entry be. -/
def undoDetour : Handle → Action σ Handle
  | plain d => do pure (plain (← d.undo sys))
  | entry d => do pure (entry { d with detour := ← d.detour.undo sys })

def drop : Handle → Action σ Unit
  | plain d => d.drop sys
  | entry d => d.drop sys

end

section
variable {σ : Type} {sys : System σ} {isa : Isa} {target : Address} {h h' : Handle} {d : Detour}
  {e : Failure} {t t' v : σ} {u : Unit}

theorem retarget_steps (hr : h.retarget sys isa target t = .ok h' t') :
    h.detour.retarget sys isa target t = .ok h'.detour t' ∧ h'.alternate = h.alternate := by
  cases h
  all_goals
    obtain ⟨d', _, hd, hpure⟩ := Action.bind_eq_ok.mp hr
    obtain ⟨rfl, rfl⟩ := Action.pure_eq_ok.mp hpure
    exact ⟨hd, rfl⟩

theorem retarget_fails (hr : h.retarget sys isa target t = .error e t') :
    h.detour.retarget sys isa target t = .error e t' := by
  cases h
  all_goals
    rcases Action.bind_eq_error.mp hr with hd | ⟨_, _, -, hpure⟩
    · exact hd
    · exact (Action.pure_eq_error.mp hpure).elim

theorem undo_steps (hu : h.undo sys t = .ok h' t') :
    ∃ v, h.detour.undo sys t = .ok h'.detour v ∧ t' = sys.releaseOption h.alternate v ∧
      h'.alternate = none := by
  cases h with
  | plain d =>
    obtain ⟨d', _, hd, hpure⟩ := Action.bind_eq_ok.mp hu
    obtain ⟨rfl, rfl⟩ := Action.pure_eq_ok.mp hpure
    exact ⟨_, hd, rfl, rfl⟩
  | entry d =>
    obtain ⟨_, _, hentry, hpure⟩ := Action.bind_eq_ok.mp hu
    obtain ⟨rfl, rfl⟩ := Action.pure_eq_ok.mp hpure
    obtain ⟨d', v, hd, h₁⟩ := Action.bind_eq_ok.mp hentry
    obtain ⟨_, _, hmodify, h₂⟩ := Action.bind_eq_ok.mp h₁
    obtain ⟨rfl, rfl⟩ := Action.pure_eq_ok.mp h₂
    exact ⟨v, hd, Action.modify_eq_ok.mp hmodify, rfl⟩

theorem undo_fails (hu : h.undo sys t = .error e t') : h.detour.undo sys t = .error e t' := by
  cases h with
  | plain d =>
    rcases Action.bind_eq_error.mp hu with hd | ⟨_, _, -, hpure⟩
    · exact hd
    · exact (Action.pure_eq_error.mp hpure).elim
  | entry d =>
    rcases Action.bind_eq_error.mp hu with hentry | ⟨_, _, -, hpure⟩
    · rcases Action.bind_eq_error.mp hentry with hd | ⟨_, _, -, h₁⟩
      · exact hd
      · rcases Action.bind_eq_error.mp h₁ with hmodify | ⟨_, _, -, hpure⟩
        · exact (Action.modify_eq_error.mp hmodify).elim
        · exact (Action.pure_eq_error.mp hpure).elim
    · exact (Action.pure_eq_error.mp hpure).elim

theorem undo_of_detour (hd : h.detour.undo sys t = .ok d v) :
    ∃ h', h.undo sys t = .ok h' (sys.releaseOption h.alternate v) := by
  cases h with
  | plain d' =>
    exact ⟨plain d, Action.bind_eq_ok.mpr ⟨d, v, hd, Action.pure_eq_ok.mpr ⟨rfl, rfl⟩⟩⟩
  | entry d' =>
    have hentry : d'.undo sys t = .ok ⟨d, none⟩ (sys.releaseOption d'.alternate v) :=
      Action.bind_eq_ok.mpr ⟨d, v, hd, Action.bind_eq_ok.mpr
        ⟨(), _, Action.modify_eq_ok.mpr rfl, Action.pure_eq_ok.mpr ⟨rfl, rfl⟩⟩⟩
    exact ⟨entry ⟨d, none⟩,
      Action.bind_eq_ok.mpr ⟨_, _, hentry, Action.pure_eq_ok.mpr ⟨rfl, rfl⟩⟩⟩

theorem undoDetour_steps (hu : h.undoDetour sys t = .ok h' t') :
    h.detour.undo sys t = .ok h'.detour t' ∧ h'.alternate = h.alternate := by
  cases h
  all_goals
    obtain ⟨d', _, hd, hpure⟩ := Action.bind_eq_ok.mp hu
    obtain ⟨rfl, rfl⟩ := Action.pure_eq_ok.mp hpure
    exact ⟨hd, rfl⟩

theorem undoDetour_fails (hu : h.undoDetour sys t = .error e t') :
    h.detour.undo sys t = .error e t' := by
  cases h
  all_goals
    rcases Action.bind_eq_error.mp hu with hd | ⟨_, _, -, hpure⟩
    · exact hd
    · exact (Action.pure_eq_error.mp hpure).elim

theorem drop_steps (hd : h.drop sys t = .ok u t') :
    ∃ v, h.detour.drop sys t = .ok () v ∧ t' = sys.releaseOption h.alternate v := by
  cases h with
  | plain d => exact ⟨t', hd, rfl⟩
  | entry d =>
    obtain ⟨_, v, hdrop, hmodify⟩ := Action.bind_eq_ok.mp hd
    exact ⟨v, hdrop, Action.modify_eq_ok.mp hmodify⟩

theorem drop_fails (hd : h.drop sys t = .error e t') : h.detour.drop sys t = .error e t' := by
  cases h with
  | plain d => exact hd
  | entry d =>
    rcases Action.bind_eq_error.mp hd with hdrop | ⟨_, _, -, hmodify⟩
    · exact hdrop
    · exact (Action.modify_eq_error.mp hmodify).elim

end

variable {limits : SpaceLimits} {isa : Isa} {target : Address} {h h' : Handle} {rest : List Range}
  {why : Error} {init m m' : Space} {u : Unit}

theorem retarget_ok (hs : init.Laid) (hc : Carries init (h.owned ++ rest) m)
    (hr : h.retarget (Space.system limits) isa target m = .ok h' m') :
    (h.detour.applied = true ∧ h'.detour.applied = true ∧
      h'.detour.writeAddress = h.detour.writeAddress ∧ h'.detour.backup = h.detour.backup) ∧
      Carries init (h'.owned ++ rest) m' ∧
      ∀ x, init.byteAt? x ≠ none → ¬ h.detour.Covers x → m'.byteAt? x = m.byteAt? x := by
  obtain ⟨hd, halt⟩ := retarget_steps hr
  rw [owned, List.append_assoc] at hc ⊢
  rw [halt]
  exact Detour.retarget_ok hs hc hd

theorem retarget_refused (hs : m.Laid)
    (hr : h.retarget (Space.system limits) isa target m = .error (.refused why) m') :
    Extended m [] m' := Detour.retarget_refused hs (retarget_fails hr)

theorem undo_ok (hc : Carries init (h.owned ++ rest) m)
    (hidle : h.detour.applied = false → h.detour.stub = none)
    (hu : h.undo (Space.system limits) m = .ok h' m') :
    h'.detour.applied = false ∧ h'.detour.stub = none ∧ h'.alternate = none ∧
      Carries init rest m' ∧
      ∀ x, init.byteAt? x ≠ none → m'.byteAt? x = h.detour.restore m.byteAt? x := by
  obtain ⟨v, hd, rfl, halt⟩ := undo_steps hu
  rw [owned, List.append_assoc] at hc
  obtain ⟨happlied, hstub, hc', hbytes⟩ := Detour.undo_ok hc hidle hd
  obtain ⟨hv, hsame⟩ := hc'.releaseOption limits
  exact ⟨happlied, hstub, halt, hv, fun x hx => by rw [hsame x hx, hbytes x hx]⟩

theorem undoDetour_ok (hc : Carries init (h.owned ++ rest) m)
    (hidle : h.detour.applied = false → h.detour.stub = none)
    (hu : h.undoDetour (Space.system limits) m = .ok h' m') :
    h'.detour.applied = false ∧ h'.detour.stub = none ∧ h'.alternate = h.alternate ∧
      Carries init (h'.owned ++ rest) m' ∧
      ∀ x, init.byteAt? x ≠ none → m'.byteAt? x = h.detour.restore m.byteAt? x := by
  obtain ⟨hd, halt⟩ := undoDetour_steps hu
  rw [owned, List.append_assoc] at hc
  obtain ⟨happlied, hstub, hc', hbytes⟩ := Detour.undo_ok hc hidle hd
  exact ⟨happlied, hstub, halt, by simpa [owned, hstub, halt] using hc', hbytes⟩

theorem undo_error {e : Failure} (hu : h.undo (Space.system limits) m = .error e m') : m' = m :=
  Detour.undo_error (undo_fails hu)

theorem undoDetour_error {e : Failure}
    (hu : h.undoDetour (Space.system limits) m = .error e m') : m' = m :=
  Detour.undo_error (undoDetour_fails hu)

theorem drop_undoes (hc : Carries init (h.owned ++ rest) m)
    (hidle : h.detour.applied = false → h.detour.stub = none)
    (hpos : h.detour.applied = true → 0 < h.detour.backup.length)
    (hin : h.detour.applied = true → Detour.Placed init h.detour)
    (hd : h.drop (Space.system limits) m = .ok u m') :
    ∃ h', h.undo (Space.system limits) m = .ok h' m' := by
  obtain ⟨d', t, hundo⟩ : ∃ d' t, h.detour.undo (Space.system limits) m = .ok d' t :=
    Detour.undo_succeeds hc.laid hpos fun happlied => (hin happlied).carried hc
  rw [owned, List.append_assoc] at hc
  have hstub := (Detour.undo_ok hc hidle hundo).2.1
  obtain ⟨v, hdrop, rfl⟩ := drop_steps hd
  rw [Detour.drop_of_undo hundo hstub hdrop]
  exact undo_of_detour hundo

theorem drop_ne_refused : h.drop (Space.system limits) m ≠ .error (.refused why) m' :=
  fun hd => Detour.drop_ne_refused (drop_fails hd)

end Handle

structure Holding where
  handle : Handle
  undone : Bool
  deriving DecidableEq, Repr

/-- The memory, and the detours that are held in the order in which they were applied. -/
structure Session where
  memory : Space
  held : List Holding
  deriving DecidableEq, Repr

inductive Move where
  | create (source target : Address) (limit : Option Nat) (writable : Option Address)
  | createEntry (wanted : Bool) (source target : Address) (limit : Option Nat)
      (writable : Option Address)
  | retarget (i : Nat) (target : Address)
  | undo (i : Nat)
  | undoDetour (i : Nat)
  | drop (i : Nat)
  deriving DecidableEq, Repr

def Holding.detour (h : Holding) : Detour := h.handle.detour

namespace Session
variable (limits : SpaceLimits) (isa : Isa) (rel? : Option Relocator) (s : Session)

/-- What is left of an operation: a refused one changes nothing but the memory, and a fault ends
the session. -/
def settle {α : Type} (result : EStateM.Result Failure Space α) (held : α → List Holding) :
    Option Session :=
  match result with
  | .ok a memory => some ⟨memory, held a⟩
  | .error (.refused _) memory => some { s with memory }
  | .error .fault _ => none

def perform : Move → Option Session
  | .create source target limit writable =>
    s.settle (Detour.create (Space.system limits) isa source target limit writable s.memory)
      fun d => s.held ++ [⟨.plain d, false⟩]
  | .createEntry wanted source target limit writable =>
    s.settle (EntryDetour.createWith (Space.system limits) isa rel? wanted source target limit
      writable s.memory) fun d => s.held ++ [⟨.entry d, false⟩]
  | .retarget i target => do
    let h ← s.held[i]?
    s.settle (h.handle.retarget (Space.system limits) isa target s.memory)
      fun handle => s.held.set i { h with handle }
  | .undo i => do
    let h ← s.held[i]?
    s.settle (h.handle.undo (Space.system limits) s.memory)
      fun handle => s.held.set i ⟨handle, true⟩
  | .undoDetour i => do
    let h ← s.held[i]?
    s.settle (h.handle.undoDetour (Space.system limits) s.memory)
      fun handle => s.held.set i { h with handle }
  | .drop i => do
    let h ← s.held[i]?
    s.settle (h.handle.drop (Space.system limits) s.memory) fun _ => s.held.eraseIdx i

/-- No detour applied after this one and still applied overlaps what it has patched. -/
def Uncovered (i : Nat) : Prop :=
  ∀ h ∈ s.held[i]?, h.detour.applied = true → ∀ later ∈ s.held.drop (i + 1),
    later.detour.applied = true → h.detour.patched.Apart later.detour.patched

instance (i : Nat) : Decidable (s.Uncovered i) :=
  inferInstanceAs (Decidable (∀ h ∈ s.held[i]?, h.detour.applied = true →
    ∀ later ∈ s.held.drop (i + 1), later.detour.applied = true →
      h.detour.patched.Apart later.detour.patched))

/-- Only what puts saved bytes back needs care. -/
def Permits : Move → Prop
  | .undo i => s.Uncovered i
  | .undoDetour i => s.Uncovered i
  | .drop i => s.Uncovered i
  | _ => True

instance : (move : Move) → Decidable (s.Permits move)
  | .undo i | .undoDetour i | .drop i => inferInstanceAs (Decidable (s.Uncovered i))
  | .create .. | .createEntry .. | .retarget .. => isTrue trivial

/-- What is patched was mapped to begin with. -/
def Confined (init : Space) : Prop :=
  ∀ h ∈ s.held, h.detour.applied = true → ∃ t ∈ init.ranges, h.detour.patched.Within t

instance (init : Space) : Decidable (s.Confined init) :=
  inferInstanceAs (Decidable (∀ h ∈ s.held, h.detour.applied = true →
    ∃ t ∈ init.ranges, h.detour.patched.Within t))

inductive Reaches (init : Space) : Session → Prop
  | start : Reaches init ⟨init, []⟩
  | step {s s' : Session} (move : Move) (hreach : Reaches init s) (hpermits : s.Permits move)
      (hmove : s.perform limits isa rel? move = some s') (hconfined : s'.Confined init) :
      Reaches init s'

def run? (init : Space) : List Move → Session → Option Session
  | [], s => some s
  | move :: moves, s =>
    if s.Permits move then do
      let s ← s.perform limits isa rel? move
      if s.Confined init then run? init moves s else none
    else none

theorem Reaches.of_run? {limits : SpaceLimits} {isa : Isa} {rel? : Option Relocator} {init : Space}
    {s s' : Session} {moves : List Move} (h : Reaches limits isa rel? init s)
    (hrun : run? limits isa rel? init moves s = some s') : Reaches limits isa rel? init s' := by
  induction moves generalizing s with
  | nil => exact Option.some.inj hrun ▸ h
  | cons move moves ih =>
    unfold run? at hrun
    split at hrun
    · rename_i hpermits
      obtain ⟨next, hmove, hrest⟩ := Option.bind_eq_some_iff.mp hrun
      split at hrest
      · exact ih (h.step move hpermits hmove ‹_›) hrest
      · cases hrest
    · cases hrun

end Session

def Holding.owned (h : Holding) : List Range := h.handle.owned

structure Holding.Sound (h : Holding) : Prop where
  saved : h.detour.applied = true → 0 < h.detour.backup.length
  idle : h.detour.applied = false → h.detour.stub = none
  undone : h.undone = true → h.detour.applied = false ∧ h.handle.alternate = none

/-- Restores all detours, the last one first. -/
def restoreAll (held : List Holding) (f : Address → Option UInt8) : Address → Option UInt8 :=
  held.foldr (fun h f => h.detour.restore f) f

structure Session.Kept (init : Space) (s : Session) : Prop where
  sound : ∀ h ∈ s.held, h.Sound
  carries : Carries init (s.held.flatMap Holding.owned) s.memory
  original : ∀ x, init.byteAt? x ≠ none →
    restoreAll s.held s.memory.byteAt? x = init.byteAt? x

section
variable {limits : SpaceLimits} {isa : Isa} {rel? : Option Relocator} {init m m' : Space}
  {s s' : Session} {h h' : Holding} {held pre post mid : List Holding} {i : Nat} {x : Address}
  {f g : Address → Option UInt8}

theorem restoreAll_append :
    restoreAll (pre ++ post) f = restoreAll pre (restoreAll post f) := by
  unfold restoreAll
  rw [List.foldr_append]

theorem restoreAll_cons : restoreAll (h :: post) f = h.detour.restore (restoreAll post f) := rfl

theorem restoreAll_congr (hx : f x = g x) : restoreAll held f x = restoreAll held g x := by
  induction held with
  | nil => exact hx
  | cons h held ih => exact Detour.restore_congr fun _ => ih

theorem restoreAll_of_not (hx : ∀ h ∈ held, ¬ h.detour.Covers x) : restoreAll held f x = f x := by
  induction held with
  | nil => rfl
  | cons h held ih =>
    rw [restoreAll_cons, Detour.restore_of_not (hx h List.mem_cons_self)]
    exact ih fun h' hh' => hx h' (List.mem_cons_of_mem _ hh')

/-- Bytes put back beneath detours that do not overlap them are restored all the same. -/
theorem restoreAll_undone
    (hfree : h.detour.applied = true → ∀ later ∈ post, later.detour.applied = true →
      h.detour.patched.Apart later.detour.patched)
    (hx : f x = h.detour.restore g x) :
    restoreAll post f x = h.detour.restore (restoreAll post g) x := by
  by_cases hcov : h.detour.Covers x
  · have hlater : ∀ later ∈ post, ¬ later.detour.Covers x := fun later hl hlcov =>
      (hfree hcov.1 later hl hlcov.1).not_holds hcov.2 hlcov.2
    rw [restoreAll_of_not hlater, hx, Detour.restore_of_covers hcov, Detour.restore_of_covers hcov]
  · rw [Detour.restore_of_not hcov] at hx ⊢
    exact restoreAll_congr hx

namespace Session

theorem settle_eq_some {α : Type} {result : EStateM.Result Failure Space α}
    {next : α → List Holding} (hsettle : s.settle result next = some s') :
    (∃ a m, result = .ok a m ∧ s' = ⟨m, next a⟩) ∨
      ∃ why m, result = .error (.refused why) m ∧ s' = { s with memory := m } := by
  rcases result with ⟨a, m⟩ | ⟨why | _, m⟩
  · exact Or.inl ⟨a, m, rfl, (Option.some.inj hsettle).symm⟩
  · exact Or.inr ⟨why, m, rfl, (Option.some.inj hsettle).symm⟩
  · cases hsettle

theorem Kept.start (hs : init.Laid) : Kept init ⟨init, []⟩ :=
  ⟨fun _ hh => absurd hh List.not_mem_nil, Carries.refl hs, fun _ _ => rfl⟩

theorem Kept.refused (hs : init.Laid) (hk : Kept init s) (he : Extended s.memory [] m') :
    Kept init { s with memory := m' } := by
  have hc := hk.carries.trans he.toCarries
  rw [List.append_nil] at hc
  refine ⟨hk.sound, hc, fun x hx => ?_⟩
  rw [← hk.original x hx]
  exact restoreAll_congr (he.byte_of_mapped (hk.carries.mapped hs hx))

theorem Kept.append (hk : Kept init s) (hsound : h.Sound)
    (hc : Carries init (s.held.flatMap Holding.owned ++ h.owned) m')
    (hbytes : ∀ x, init.byteAt? x ≠ none →
      h.detour.restore m'.byteAt? x = s.memory.byteAt? x) :
    Kept init ⟨m', s.held ++ [h]⟩ := by
  refine ⟨fun y hy => ?_, by simpa using hc, fun x hx => ?_⟩
  · rcases List.mem_append.mp hy with hy | hy
    · exact hk.sound y hy
    · rw [List.mem_singleton.mp hy]
      exact hsound
  · rw [← hk.original x hx, restoreAll_append]
    exact restoreAll_congr (hbytes x hx)

theorem take_cons_drop (hi : held[i]? = some h) :
    held = held.take i ++ h :: held.drop (i + 1) := by
  obtain ⟨hlt, rfl⟩ := List.getElem?_eq_some_iff.mp hi
  rw [List.getElem_cons_drop, List.take_append_drop]

theorem set_eq (hi : held[i]? = some h) :
    held.set i h' = held.take i ++ ([h'] ++ held.drop (i + 1)) := by
  obtain ⟨hlt, -⟩ := List.getElem?_eq_some_iff.mp hi
  rw [List.set_eq_take_append_cons_drop, if_pos hlt]
  rfl

theorem Kept.carries_at (hk : Kept init s) (hi : s.held[i]? = some h) :
    Carries init (h.owned ++ (s.held.eraseIdx i).flatMap Holding.owned) s.memory := by
  have hc := hk.carries
  rw [take_cons_drop hi, List.flatMap_append, List.flatMap_cons] at hc
  rw [List.eraseIdx_eq_take_drop_succ, List.flatMap_append]
  exact hc.perm (List.perm_append_comm_assoc ..)

theorem Kept.replace (hk : Kept init s) (hi : s.held[i]? = some h) (hsound : ∀ y ∈ mid, y.Sound)
    (hc : Carries init
      (mid.flatMap Holding.owned ++ (s.held.eraseIdx i).flatMap Holding.owned) m')
    (hbytes : ∀ x, init.byteAt? x ≠ none → restoreAll (mid ++ s.held.drop (i + 1)) m'.byteAt? x =
      h.detour.restore (restoreAll (s.held.drop (i + 1)) s.memory.byteAt?) x) :
    Kept init ⟨m', s.held.take i ++ (mid ++ s.held.drop (i + 1))⟩ := by
  refine ⟨fun y hy => ?_, ?_, fun x hx => ?_⟩
  · rcases List.mem_append.mp hy with hy | hy
    · exact hk.sound y (List.mem_of_mem_take hy)
    · rcases List.mem_append.mp hy with hy | hy
      · exact hsound y hy
      · exact hk.sound y (List.mem_of_mem_drop hy)
  · rw [List.eraseIdx_eq_take_drop_succ, List.flatMap_append] at hc
    rw [List.flatMap_append, List.flatMap_append]
    exact hc.perm (List.perm_append_comm_assoc ..)
  · have hbase := hk.original x hx
    rw [take_cons_drop hi, restoreAll_append, restoreAll_cons] at hbase
    rw [← hbase, restoreAll_append]
    exact restoreAll_congr (hbytes x hx)

theorem Kept.create (hs : init.Laid) (hk : Kept init s) {source target : Address}
    {limit : Option Nat} {writable : Option Address}
    (hm : s.perform limits isa rel? (.create source target limit writable) = some s') :
    Kept init s' := by
  rcases settle_eq_some hm with ⟨d, m, hcreate, rfl⟩ | ⟨why, m, hcreate, rfl⟩
  · obtain ⟨redirect, -, happly⟩ := Detour.create_ok hcreate
    obtain ⟨happlied, hpos, hc, hbytes⟩ := Detour.apply_ok hs hk.carries happly
    refine hk.append ⟨fun _ => hpos, fun hn => ?_, fun hn => ?_⟩ ?_ hbytes
    · exact absurd (happlied.symm.trans hn) (by decide)
    · cases hn
    · simpa [Holding.owned, Handle.owned, Handle.detour, Handle.alternate] using hc
  · exact hk.refused hs (Detour.create_refused hk.carries.laid hcreate)

theorem Kept.createEntry (hs : init.Laid) (hk : Kept init s) {wanted : Bool}
    {source target : Address} {limit : Option Nat} {writable : Option Address}
    (hm : s.perform limits isa rel? (.createEntry wanted source target limit writable) = some s') :
    Kept init s' := by
  rcases settle_eq_some hm with ⟨d, m, hcreate, rfl⟩ | ⟨why, m, hcreate, rfl⟩
  · obtain ⟨happlied, hpos, hc, hbytes⟩ := EntryDetour.createWith_ok hs hk.carries hcreate
    refine hk.append ⟨fun _ => hpos, fun hn => ?_, fun hn => ?_⟩ hc hbytes
    · exact absurd (happlied.symm.trans hn) (by decide)
    · cases hn
  · exact hk.refused hs (EntryDetour.createWith_refused hk.carries.laid hcreate)

/-- A retargeted detour restores what it did before, whatever was applied over it. -/
theorem Kept.retarget (hs : init.Laid) (hk : Kept init s) {target : Address}
    (hm : s.perform limits isa rel? (.retarget i target) = some s') : Kept init s' := by
  obtain ⟨h, hi, hsettle⟩ := Option.bind_eq_some_iff.mp hm
  have hsound := hk.sound h (List.mem_of_getElem? hi)
  rcases settle_eq_some hsettle with ⟨handle, m, hr, rfl⟩ | ⟨why, m, hr, rfl⟩
  · obtain ⟨⟨hwas, happlied, hwrite, hbackup⟩, hc, hbytes⟩ :=
      Handle.retarget_ok hs (hk.carries_at hi) hr
    rw [set_eq hi]
    refine hk.replace hi (List.forall_mem_singleton.mpr ⟨fun _ => ?_, fun hn => ?_, fun hn => ?_⟩)
      (by simpa [Holding.owned] using hc) fun x hx => ?_
    · show 0 < handle.detour.backup.length
      rw [hbackup]
      exact hsound.saved hwas
    · exact absurd (happlied.symm.trans hn) (by decide)
    · exact absurd (hwas.symm.trans (hsound.undone hn).1) (by decide)
    · have hsame : ∀ f, handle.detour.restore f x = h.detour.restore f x := fun f =>
        Detour.restore_of_same (happlied.trans hwas.symm) hwrite hbackup
      rw [List.singleton_append, restoreAll_cons]
      exact (hsame _).trans (Detour.restore_congr fun hn => restoreAll_congr (hbytes x hx hn))
  · exact hk.refused hs (Handle.retarget_refused hk.carries.laid hr)

theorem Kept.restored (hk : Kept init s) (hfree : s.Uncovered i) (hi : s.held[i]? = some h)
    (hsound : h'.Sound) (happlied : h'.detour.applied = false)
    (hc : Carries init (h'.owned ++ (s.held.eraseIdx i).flatMap Holding.owned) m')
    (hbytes : ∀ x, init.byteAt? x ≠ none →
      m'.byteAt? x = h.detour.restore s.memory.byteAt? x) :
    Kept init ⟨m', s.held.set i h'⟩ := by
  rw [set_eq hi]
  refine hk.replace hi (List.forall_mem_singleton.mpr hsound) ?_ fun x hx => ?_
  · rwa [List.flatMap_singleton]
  · rw [List.singleton_append, restoreAll_cons]
    exact (Detour.restore_of_not fun hcov => Bool.false_ne_true (happlied.symm.trans hcov.1)).trans
      (restoreAll_undone (hfree h hi) (hbytes x hx))

theorem Kept.undo (hk : Kept init s) (hfree : s.Uncovered i)
    (hm : s.perform limits isa rel? (.undo i) = some s') : Kept init s' := by
  obtain ⟨h, hi, hsettle⟩ := Option.bind_eq_some_iff.mp hm
  have hsound := hk.sound h (List.mem_of_getElem? hi)
  rcases settle_eq_some hsettle with ⟨handle, m, hu, rfl⟩ | ⟨why, m, hu, rfl⟩
  · obtain ⟨happlied, hstub, halt, hc, hbytes⟩ :=
      Handle.undo_ok (hk.carries_at hi) hsound.idle hu
    refine hk.restored hfree hi ⟨fun hy => ?_, fun _ => hstub, fun _ => ⟨happlied, halt⟩⟩
      happlied ?_ hbytes
    · exact absurd (happlied.symm.trans hy) Bool.false_ne_true
    · simpa [Holding.owned, Handle.owned, hstub, halt] using hc
  · rw [Handle.undo_error hu]
    exact hk

theorem Kept.undoDetour (hk : Kept init s) (hfree : s.Uncovered i)
    (hm : s.perform limits isa rel? (.undoDetour i) = some s') : Kept init s' := by
  obtain ⟨h, hi, hsettle⟩ := Option.bind_eq_some_iff.mp hm
  have hsound := hk.sound h (List.mem_of_getElem? hi)
  rcases settle_eq_some hsettle with ⟨handle, m, hu, rfl⟩ | ⟨why, m, hu, rfl⟩
  · obtain ⟨happlied, hstub, halt, hc, hbytes⟩ :=
      Handle.undoDetour_ok (hk.carries_at hi) hsound.idle hu
    refine hk.restored hfree hi ⟨fun hy => ?_, fun _ => hstub, fun hy => ⟨happlied, ?_⟩⟩
      happlied hc hbytes
    · exact absurd (happlied.symm.trans hy) Bool.false_ne_true
    · exact halt.trans (hsound.undone hy).2
  · rw [Handle.undoDetour_error hu]
    exact hk

theorem Confined.placed (hin : s.Confined init) (hs : init.Orderly) (hmem : h ∈ s.held)
    (happlied : h.detour.applied = true) : Detour.Placed init h.detour :=
  (hin h hmem happlied).imp fun t ht => ⟨ht.1, hs.bounded t ht.1, ht.2⟩

theorem Kept.drop (hs : init.Orderly) (hk : Kept init s) (hin : s.Confined init)
    (hfree : s.Uncovered i) (hm : s.perform limits isa rel? (.drop i) = some s') : Kept init s' := by
  obtain ⟨h, hi, hsettle⟩ := Option.bind_eq_some_iff.mp hm
  have hmem := List.mem_of_getElem? hi
  have hsound := hk.sound h hmem
  rcases settle_eq_some hsettle with ⟨_, m, hd, rfl⟩ | ⟨why, m, hd, rfl⟩
  · obtain ⟨_, hundo⟩ := Handle.drop_undoes (hk.carries_at hi) hsound.idle hsound.saved
      (hin.placed hs hmem) hd
    obtain ⟨-, -, -, hc, hbytes⟩ := Handle.undo_ok (hk.carries_at hi) hsound.idle hundo
    rw [List.eraseIdx_eq_take_drop_succ]
    exact hk.replace hi (fun _ hy => absurd hy List.not_mem_nil) hc fun x hx =>
      restoreAll_undone (hfree h hi) (hbytes x hx)
  · exact (Handle.drop_ne_refused hd).elim

/-- Every move keeps the invariant. -/
theorem Kept.step (hs : init.Orderly) (hk : Kept init s) (hin : s.Confined init) {move : Move}
    (hpermits : s.Permits move) (hm : s.perform limits isa rel? move = some s') :
    Kept init s' := by
  cases move with
  | create => exact hk.create hs.laid hm
  | createEntry => exact hk.createEntry hs.laid hm
  | retarget => exact hk.retarget hs.laid hm
  | undo => exact hk.undo hpermits hm
  | undoDetour => exact hk.undoDetour hpermits hm
  | drop => exact hk.drop hs hin hpermits hm

theorem Reaches.kept (hs : init.Orderly) (h : Reaches limits isa rel? init s) :
    Kept init s ∧ s.Confined init := by
  induction h with
  | start => exact ⟨Kept.start hs.laid, fun _ hh => absurd hh List.not_mem_nil⟩
  | step move hreach hpermits hmove hconfined ih =>
    exact ⟨ih.1.step hs ih.2 hpermits hmove, hconfined⟩

/-- A session whose detours are all undone has the space it began with. -/
theorem Kept.memory_eq (hs : init.Orderly) (hk : Kept init s)
    (h : ∀ y ∈ s.held, y.undone = true) :
    s.memory.regions = init.regions ∧ s.memory.liveCount = init.liveCount := by
  have howned : s.held.flatMap Holding.owned = [] := by
    refine List.flatMap_eq_nil_iff.mpr fun y hy => ?_
    obtain ⟨happlied, halt⟩ := (hk.sound y hy).undone (h y hy)
    have hstub := (hk.sound y hy).idle happlied
    simp only [Holding.owned, Handle.owned, halt]
    simpa [Holding.detour] using hstub
  have hc := hk.carries
  rw [howned] at hc
  have hranges : s.memory.view.ranges = init.view.ranges := by simpa using hc.ranges
  have hidle : ∀ x, ∀ y ∈ s.held, ¬ y.detour.Covers x := fun x y hy hcov =>
    Bool.false_ne_true (((hk.sound y hy).undone (h y hy)).1.symm.trans hcov.1)
  have hmem (t : Range) : t ∈ s.memory.ranges ↔ t ∈ init.ranges := by
    rw [← mem_view_ranges, hranges, mem_view_ranges]
  have horderly : s.memory.Orderly :=
    ⟨hc.laid.nonempty, fun t ht => hs.bounded t ((hmem t).mp ht), hc.laid.ascending⟩
  refine ⟨regions_eq horderly hs hranges (funext fun x => ?_),
    liveCount_eq (by simpa using hc.live)⟩
  by_cases hx : init.byteAt? x = none
  · rw [hx]
    refine byteAt?_eq_none fun t ht hholds => ?_
    have hsome := (byteAt?_isSome_iff hs.laid).mpr ⟨t, (hmem t).mp ht, hholds⟩
    rw [hx] at hsome
    cases hsome
  · rw [← hk.original x hx, restoreAll_of_not (hidle x)]

/-- At every state that a session reaches, the bytes mapped to begin with are what they were outside
what the applied detours patch. With all detours undone or dropped, the space maps what it did to
begin with, byte by byte, and no allocation is left over. -/
theorem Reaches.restores (hs : init.Orderly) (h : Reaches limits isa rel? init s) :
    (∀ a, init.byteAt? a ≠ none →
      (∀ y ∈ s.held, y.detour.applied = true → ¬ y.detour.patched.Holds a) →
        s.memory.byteAt? a = init.byteAt? a) ∧
      ((∀ y ∈ s.held, y.undone = true) →
        s.memory.regions = init.regions ∧ s.memory.liveCount = init.liveCount) := by
  obtain ⟨hk, -⟩ := h.kept hs
  refine ⟨fun a ha hout => ?_, hk.memory_eq hs⟩
  rw [← hk.original a ha, restoreAll_of_not fun y hy hcov => hout y hy hcov.1 hcov.2]

/-- An overlapping pair: a far target within eight bytes, retargeted, and a detour over its end. -/
theorem restores_overlapping :
    let code : Space := { regions := [(0x1000, List.replicate 32 0x90)] }
    ∃ s, s.held.length = 2 ∧ Reaches {} .x86_64 (some X86.relocator) code s ∧
      s.memory.regions = code.regions ∧ s.memory.liveCount = code.liveCount := by
  intro code
  have horderly : code.Orderly := by constructor <;> decide
  have hrun : ∃ s, run? {} .x86_64 (some X86.relocator) code
      [.createEntry true 0x1000 0x7FFF00000000 (some 8) none, .retarget 0 0x3000,
        .create 0x1002 0x2000 none none, .undo 1, .undo 0] ⟨code, []⟩ = some s ∧
      s.held.length = 2 ∧ ∀ y ∈ s.held, y.undone = true := by decide +kernel
  obtain ⟨s, hrun, hlen, hundone⟩ := hrun
  have hreach := Reaches.start.of_run? hrun
  exact ⟨s, hlen, hreach, (hreach.restores horderly).2 hundone⟩

end Session

end

end Interpose

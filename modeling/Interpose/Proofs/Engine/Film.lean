import Interpose.Proofs.Action
import Interpose.Proofs.Engine.Session

/-!
# Filming an operation

A filmed system does what another does and keeps the state after every call. Operations that are
written for any system run on it unchanged, so the film of one shows every state that it goes
through, and on it the result is the one without a film.
-/

namespace Interpose

structure Film (σ : Type) where
  now : σ
  seen : List σ := []

variable {σ α β : Type}

def Film.next (f : Film σ) (s : σ) : Film σ := ⟨s, f.seen ++ [s]⟩

def Action.filmed (x : Action σ α) : Action (Film σ) α := fun f =>
  match x f.now with
  | .ok a s => .ok a (f.next s)
  | .error e s => .error e (f.next s)

def System.filmed (sys : System σ) : System (Film σ) where
  os := sys.os
  nativeAbi? := sys.nativeAbi?
  maxAllocation := sys.maxAllocation
  guard := sys.guard
  allocate q := (sys.allocate q).filmed
  release r f := f.next (sys.release r f.now)
  patch a bytes room := (sys.patch a bytes room).filmed
  registerTargets r offsets := (sys.registerTargets r offsets).filmed
  read a n f := sys.read a n f.now
  readable a n f := sys.readable a n f.now

namespace Action
variable {x : Action σ α} {y : Action (Film σ) α} {f f' : Film σ} {a : α} {e : Failure} {s : σ}

theorem filmed_ok (h : x.filmed f = .ok a f') : ∃ s, x f.now = .ok a s ∧ f' = f.next s := by
  unfold filmed at h
  cases hx : x f.now with
  | ok b t =>
    rw [hx] at h
    cases h
    exact ⟨t, rfl, rfl⟩
  | error e t =>
    rw [hx] at h
    cases h

theorem filmed_error (h : x.filmed f = .error e f') :
    ∃ s, x f.now = .error e s ∧ f' = f.next s := by
  unfold filmed at h
  cases hx : x f.now with
  | ok b t =>
    rw [hx] at h
    cases h
  | error e t =>
    rw [hx] at h
    cases h
    exact ⟨t, rfl, rfl⟩

def onto (taken : List σ) : EStateM.Result Failure σ α → EStateM.Result Failure (Film σ) α
  | .ok a s => .ok a ⟨s, taken⟩
  | .error e s => .error e ⟨s, taken⟩

/-- An operation on films does what another does on the states, and adds to the film. -/
def Films (y : Action (Film σ) α) (x : Action σ α) : Prop :=
  ∀ s seen, ∃ taken, y ⟨s, seen⟩ = onto (seen ++ taken) (x s)

theorem Films.ok (h : Films y x) (hy : y f = .ok a f') : x f.now = .ok a f'.now := by
  obtain ⟨taken, hrun⟩ := h f.now f.seen
  cases hx : x f.now <;> rw [hx] at hrun <;> cases hy.symm.trans hrun
  rfl

theorem films_filmed : Films x.filmed x := by
  intro s seen
  cases hx : x s with
  | ok a t => exact ⟨[t], by simp [filmed, hx, onto, Film.next]⟩
  | error e t => exact ⟨[t], by simp [filmed, hx, onto, Film.next]⟩

theorem films_pure : Films (pure a) (pure a : Action σ α) := by
  intro s seen
  exact ⟨[], by simp [pure, EStateM.pure, onto]⟩

theorem films_throw : Films (throw e) (throw e : Action σ α) := by
  intro s seen
  refine ⟨[], ?_⟩
  rw [List.append_nil]
  rfl

/-- What would come behind a failure does not matter. -/
theorem films_throw_bind {g : α → Action (Film σ) β} {h : α → Action σ β} :
    Films (throw e >>= g) (throw e >>= h) := by
  intro s seen
  refine ⟨[], ?_⟩
  rw [List.append_nil]
  rfl

theorem films_lift {attempt : Attempt α} :
    Films (Attempt.lift attempt) (Attempt.lift attempt : Action σ α) := by
  intro s seen
  refine ⟨[], ?_⟩
  rw [List.append_nil]
  cases attempt <;> rfl

theorem Films.bind {g : α → Action (Film σ) β} {h : α → Action σ β} (hx : Films y x)
    (hg : ∀ a, Films (g a) (h a)) : Films (y >>= g) (x >>= h) := by
  intro s seen
  obtain ⟨taken, htaken⟩ := hx s seen
  cases hres : x s with
  | ok a t =>
    obtain ⟨more, hmore⟩ := hg a t (seen ++ taken)
    rw [List.append_assoc] at hmore
    refine ⟨taken ++ more, ?_⟩
    simp only [Bind.bind, EStateM.bind, htaken, hres]
    exact hmore
  | error e t =>
    refine ⟨taken, ?_⟩
    simp only [Bind.bind, EStateM.bind, htaken, hres, onto]

theorem Films.guarded {cleanup : Film σ → Film σ} {cleanup' : σ → σ} (hx : Films y x)
    (hclean : ∀ s seen, ∃ taken, cleanup ⟨s, seen⟩ = ⟨cleanup' s, seen ++ taken⟩) :
    Films (y.guarded cleanup) (x.guarded cleanup') := by
  intro s seen
  obtain ⟨taken, htaken⟩ := hx s seen
  cases hres : x s with
  | ok a t =>
    refine ⟨taken, ?_⟩
    simp only [Action.guarded, htaken, hres, onto]
  | error e t =>
    obtain ⟨more, hmore⟩ := hclean t (seen ++ taken)
    refine ⟨taken ++ more, ?_⟩
    simp only [Action.guarded, htaken, hres, onto, hmore, List.append_assoc]

end Action

open Interpose.Action

section
variable {sys : System σ} {isa : Isa} {redirect : Redirect} {source target : Address}
  {range : Option Range}

theorem System.films_cleanup (s : σ) (seen : List σ) :
    ∃ taken, sys.filmed.releaseOption range ⟨s, seen⟩ =
      ⟨sys.releaseOption range s, seen ++ taken⟩ := by
  cases range with
  | none => exact ⟨[], by rw [List.append_nil]; rfl⟩
  | some r => exact ⟨[sys.release r s], rfl⟩

theorem System.films_release :
    Films (modify (sys.filmed.releaseOption range)) (modify (sys.releaseOption range)) := by
  intro s seen
  cases range with
  | none => exact ⟨[], by rw [List.append_nil]; rfl⟩
  | some r => exact ⟨[sys.release r s], rfl⟩

theorem System.films_allocating {q : Request} {g : Range → Action (Film σ) α}
    {h : Range → Action σ α} (hfill : ∀ r, Films (g r) (h r)) :
    Films (sys.filmed.allocating q g) (sys.allocating q h) :=
  films_filmed.bind fun r => (hfill r).guarded fun s _ => ⟨[sys.release r s], rfl⟩

namespace Isa

theorem films_encodeViaStub :
    Films (encodeViaStub sys.filmed source target) (encodeViaStub sys source target) := by
  refine System.films_allocating fun stub => films_filmed.bind fun _ => ?_
  dsimp only
  split
  · exact films_pure
  · exact films_throw

theorem films_encodeBytes :
    Films (isa.encodeBytes sys.filmed redirect) (isa.encodeBytes sys redirect) := by
  unfold encodeBytes
  split
  · exact films_encodeViaStub
  · exact films_lift.bind fun _ => films_pure

theorem films_encode {room : Nat} :
    Films (isa.encode sys.filmed redirect room) (isa.encode sys redirect room) := by
  unfold encode
  split
  · exact films_throw_bind
  · refine films_encodeBytes.bind fun ⟨bytes, stub⟩ => ?_
    dsimp only
    split
    · exact films_throw_bind
    · exact films_pure

theorem films_encodeFront :
    Films (isa.encodeFront sys.filmed redirect) (isa.encodeFront sys redirect) :=
  (films_encode.bind fun _ => films_pure).bind fun _ => films_pure

end Isa

namespace Detour
variable {d : Detour}

theorem films_undo : Films (d.undo sys.filmed) (d.undo sys) := by
  unfold undo
  split
  · exact films_pure
  · exact films_filmed.bind fun _ => System.films_release.bind fun _ => films_pure

theorem films_retarget :
    Films (d.retarget sys.filmed isa target) (d.retarget sys isa target) := by
  unfold retarget
  dsimp only
  split
  · exact films_throw_bind
  · refine films_lift.bind fun redirect => Isa.films_encodeFront.bind fun ⟨bytes, stub⟩ => ?_
    exact (films_filmed.guarded System.films_cleanup).bind fun _ =>
      System.films_release.bind fun _ => films_pure

end Detour

namespace Handle
variable {h : Handle}

theorem films_retarget : Films (h.retarget sys.filmed isa target) (h.retarget sys isa target) := by
  cases h <;> exact Detour.films_retarget.bind fun _ => films_pure

theorem films_undo : Films (h.undo sys.filmed) (h.undo sys) := by
  cases h with
  | plain d => exact Detour.films_undo.bind fun _ => films_pure
  | entry d =>
    have hentry : Films (d.undo sys.filmed) (d.undo sys) :=
      Detour.films_undo.bind fun _ => System.films_release.bind fun _ => films_pure
    exact hentry.bind fun _ => films_pure

theorem films_undoDetour : Films (h.undoDetour sys.filmed) (h.undoDetour sys) := by
  cases h <;> exact Detour.films_undo.bind fun _ => films_pure

end Handle

end

end Interpose

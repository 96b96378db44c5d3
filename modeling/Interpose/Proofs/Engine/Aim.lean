import Interpose.Proofs.Engine.Filmed

/-!
# Detours that always redirect

As long as detours that are applied at the same time patch different bytes, each of them stands at
every state that a session reaches and leads to the last target it was successfully given. While one
is retargeted or undone, they all stand after every call on the memory, up to the patch that
rewrites the code of that one; from then on its successor stands, or its original bytes are back.
-/

namespace Interpose

open Space

namespace Action
variable {σ α : Type} {x : Action σ α} {y : Action (Film σ) α} {s s' : σ} {a : α} {p q : σ → Prop}

/-- Filmed from a state on, an operation does what it does, and goes first through states with one
property and then through states with another. -/
def Passes (y : Action (Film σ) α) (x : Action σ α) (s : σ) (p q : σ → Prop) : Prop :=
  ∃ before after, y ⟨s, []⟩ = onto (before ++ after) (x s) ∧
    (∀ m ∈ before, p m) ∧ ∀ m ∈ after, q m

theorem Films.passes (hfilms : Films y x)
    (hok : ∀ a f, y ⟨s, []⟩ = .ok a f → ∃ f₁, Film.Adds ⟨s, []⟩ p f₁ ∧ f₁.Adds q f)
    (herror : ∀ e f, y ⟨s, []⟩ = .error e f → Film.Adds ⟨s, []⟩ p f) : Passes y x s p q := by
  obtain ⟨taken, hrun⟩ := hfilms s []
  unfold Passes
  rw [hrun]
  cases hx : x s with
  | ok a t =>
    rw [hx] at hrun
    obtain ⟨f₁, ⟨-, before, hbefore, hp⟩, -, after, hafter, hq⟩ := hok a _ hrun
    refine ⟨before, after, ?_, hp, hq⟩
    rw [show [] ++ taken = before ++ after by simpa [hbefore] using hafter]
  | error e t =>
    rw [hx] at hrun
    obtain ⟨-, before, hbefore, hp⟩ := herror e _ hrun
    refine ⟨before, [], ?_, hp, nofun⟩
    rw [show [] ++ taken = before ++ [] by simpa using hbefore]

theorem Films.exists_ok (h : Films y x) (hx : x s = .ok a s') :
    ∃ f, y ⟨s, []⟩ = .ok a f ∧ f.now = s' := by
  obtain ⟨taken, hrun⟩ := h s []
  rw [hx] at hrun
  exact ⟨_, hrun, rfl⟩

def gives : EStateM.Result Failure σ α → Bool
  | .ok .. => true
  | .error .. => false

end Action

open Interpose.Action

/-- What a detour is for: its code, written in some place, leads from a source to a target. -/
structure Aim where
  source : Address
  target : Address
  place : Address
  deriving DecidableEq, Repr

def Detour.aim (d : Detour) : Aim := ⟨d.redirect.source, d.redirect.target, d.writeAddress⟩

def Holding.aim (h : Holding) : Aim := h.detour.aim

section
variable {σ : Type} {sys : System σ} {d d' : Detour} {h h' : Handle} {t t' : σ}

theorem Detour.undo_aim (h : d.undo sys t = .ok d' t') : d'.aim = d.aim := by
  rcases undo_steps h with ⟨-, rfl, -⟩ | ⟨-, _, _, -, -, rfl⟩ <;> rfl

theorem Handle.undo_aim (hu : h.undo sys t = .ok h' t') : h'.detour.aim = h.detour.aim := by
  obtain ⟨_, hd, -⟩ := undo_steps hu
  exact Detour.undo_aim hd

theorem Handle.undoDetour_aim (hu : h.undoDetour sys t = .ok h' t') :
    h'.detour.aim = h.detour.aim := Detour.undo_aim (undoDetour_steps hu).1

end

namespace Session
variable (limits : SpaceLimits) (isa : Isa) (rel? : Option Relocator) (s : Session)

/-- The aims after a move. What is refused changes none. -/
def aimed (aims : List Aim) : Move → List Aim
  | .create source target limit writable =>
    if gives (Detour.create (Space.system limits) isa source target limit writable s.memory) then
      aims ++ [⟨source, target, writable.getD source⟩]
    else aims
  | .createEntry wanted source target limit writable =>
    if gives (EntryDetour.createWith (Space.system limits) isa rel? wanted source target limit
        writable s.memory) then
      aims ++ [⟨source, target, writable.getD source⟩]
    else aims
  | .retarget i target =>
    if s.held[i]?.any fun h =>
        gives (h.handle.retarget (Space.system limits) isa target s.memory) then
      aims.modify i fun aim => { aim with target }
    else aims
  | .undo _ | .undoDetour _ => aims
  | .drop i => aims.eraseIdx i

/-- What applied detours have patched does not overlap. -/
def Spread : Prop :=
  s.held.Pairwise fun h k => h.detour.applied = true → k.detour.applied = true →
    h.detour.patched.Apart k.detour.patched

instance : Decidable s.Spread :=
  inferInstanceAs (Decidable (s.held.Pairwise fun h k => h.detour.applied = true →
    k.detour.applied = true → h.detour.patched.Apart k.detour.patched))

/-- The sessions that begin with a space and keep their detours apart, with what these are for. -/
inductive Runs (init : Space) : Session → List Aim → Prop
  | start : Runs init ⟨init, []⟩ []
  | step {s s' : Session} {aims : List Aim} (move : Move) (hruns : Runs init s aims)
      (hmove : s.perform limits isa rel? move = some s') (hconfined : s'.Confined init)
      (hspread : s'.Spread) : Runs init s' (s.aimed limits isa rel? aims move)

def pursue? (init : Space) : List Move → Session → List Aim → Option (Session × List Aim)
  | [], s, aims => some (s, aims)
  | move :: moves, s, aims => do
    let s' ← s.perform limits isa rel? move
    if s'.Confined init ∧ s'.Spread then
      pursue? init moves s' (s.aimed limits isa rel? aims move)
    else none

theorem Runs.of_pursue? {limits : SpaceLimits} {isa : Isa} {rel? : Option Relocator} {init : Space}
    {s s' : Session} {aims aims' : List Aim} {moves : List Move}
    (h : Runs limits isa rel? init s aims)
    (hrun : pursue? limits isa rel? init moves s aims = some (s', aims')) :
    Runs limits isa rel? init s' aims' := by
  induction moves generalizing s aims with
  | nil =>
    cases hrun
    exact h
  | cons move moves ih =>
    obtain ⟨next, hmove, hrest⟩ := Option.bind_eq_some_iff.mp hrun
    split at hrest
    · rename_i hok
      exact ih (h.step move hmove hok.1 hok.2) hrest
    · cases hrest

end Session

/-- All detours stand that are applied. -/
def Standing (held : List Holding) (m : Space) : Prop :=
  ∀ h ∈ held, h.detour.applied = true → h.detour.Stands m

section
variable {limits : SpaceLimits} {isa : Isa} {rel? : Option Relocator} {init m m' : Space}
  {s s' : Session} {h h' : Holding} {held : List Holding} {aims : List Aim} {i : Nat}
  {x : Address}

theorem perm_at (hi : held[i]? = some h) : held.Perm (h :: held.eraseIdx i) := by
  obtain ⟨hlt, rfl⟩ := List.getElem?_eq_some_iff.mp hi
  exact (List.getElem_cons_eraseIdx_perm hlt).symm

theorem standing_at (hi : held[i]? = some h) : Standing held m ↔
    (h.detour.applied = true → h.detour.Stands m) ∧ Standing (held.eraseIdx i) m := by
  unfold Standing
  simp only [(perm_at hi).mem_iff, List.mem_cons, forall_eq_or_imp]

theorem standing_set (hi : held[i]? = some h) : Standing (held.set i h') m ↔
    (h'.detour.applied = true → h'.detour.Stands m) ∧ Standing (held.eraseIdx i) m := by
  obtain ⟨hlt, -⟩ := List.getElem?_eq_some_iff.mp hi
  rw [standing_at (List.getElem?_set_self hlt), List.eraseIdx_set_eq]

theorem Standing.grown (h : Standing held m) (hg : m.Grown m') : Standing held m' := by
  obtain ⟨more, he⟩ := hg
  exact fun k hk happlied => (h k hk happlied).extended he

namespace Session

theorem Spread.apart_at (hs : s.Spread) (hi : s.held[i]? = some h) {k : Holding}
    (hk : k ∈ s.held.eraseIdx i) (happlied : h.detour.applied = true)
    (hkapplied : k.detour.applied = true) : h.detour.patched.Apart k.detour.patched := by
  have hsymm {h k : Holding} (hapart : h.detour.applied = true → k.detour.applied = true →
      h.detour.patched.Apart k.detour.patched) (hk : k.detour.applied = true)
      (hh : h.detour.applied = true) : k.detour.patched.Apart h.detour.patched :=
    (hapart hh hk).symm
  have hpair := ((perm_at hi).pairwise_iff hsymm).mp hs
  exact (List.pairwise_cons.mp hpair).1 k hk happlied hkapplied

theorem Spread.permits (hs : s.Spread) (move : Move) : s.Permits move := by
  have huncovered (i : Nat) : s.Uncovered i := by
    intro h hi happlied later hlater hlapplied
    refine hs.apart_at hi ?_ happlied hlapplied
    rw [List.eraseIdx_eq_take_drop_succ]
    exact List.mem_append_right _ hlater
  cases move with
  | create | createEntry | retarget => trivial
  | undo i | undoDetour i | drop i => exact huncovered i

structure Steady (init : Space) (s : Session) : Prop where
  kept : s.Kept init
  confined : s.Confined init
  spread : s.Spread
  standing : Standing s.held s.memory

theorem Steady.spared (hst : Steady init s) (hs : init.Orderly) (hi : s.held[i]? = some h)
    (hspares : Detour.Spares init ((s.held.eraseIdx i).flatMap Holding.owned) h.detour s.memory m) :
    Standing (s.held.eraseIdx i) m := by
  intro k hk happlied
  have hmem : k ∈ s.held := List.mem_of_mem_eraseIdx hk
  refine hspares k.detour ⟨fun hh => ?_, hst.confined.placed hs hmem happlied, fun r hr => ?_⟩
    (hst.standing k hmem happlied)
  · exact (hst.spread.apart_at hi hk hh happlied).symm
  · exact List.mem_flatMap.mpr ⟨k, hk, List.mem_append_left _ (Option.mem_toList.mpr hr)⟩

/-- What an applied detour has saved is what was there to begin with. -/
theorem Steady.original (hst : Steady init s) (hs : init.Orderly) (hi : s.held[i]? = some h)
    (hcov : h.detour.Covers x) :
    h.detour.backup[x.toNat - h.detour.writeAddress.toNat]? = init.byteAt? x := by
  obtain ⟨t, ht, -, hw⟩ := hst.confined.placed hs (List.mem_of_getElem? hi) hcov.1
  have hsome : (init.byteAt? x).isSome :=
    (byteAt?_isSome_iff hs.laid).mpr ⟨t, ht, hcov.2.of_within hw⟩
  -- no other detour covers this byte, so restoring all of them restores it from this one
  have hbelow : ∀ k ∈ s.held.take i, ¬ k.detour.Covers x := by
    intro k hk hkcov
    have hmem : k ∈ s.held.eraseIdx i := by
      rw [List.eraseIdx_eq_take_drop_succ]
      exact List.mem_append_left _ hk
    exact (hst.spread.apart_at hi hmem hcov.1 hkcov.1).not_holds hcov.2 hkcov.2
  have horiginal := hst.kept.original x (Option.isSome_iff_ne_none.mp hsome)
  rw [take_cons_drop hi, restoreAll_append, restoreAll_of_not hbelow, restoreAll_cons,
    Detour.restore_of_covers hcov] at horiginal
  exact horiginal

/-- The code under one detour is the original, and the others stand. -/
def Lifted (init : Space) (s : Session) (i : Nat) (h : Holding) (m : Space) : Prop :=
  (∀ x, h.detour.Covers x → m.byteAt? x = init.byteAt? x) ∧ Standing (s.held.eraseIdx i) m

theorem Steady.lifted (hst : Steady init s) (hs : init.Orderly) (hi : s.held[i]? = some h)
    (hc : Detour.Cleared init ((s.held.eraseIdx i).flatMap Holding.owned) s.memory h.detour m) :
    Lifted init s i h m := by
  refine ⟨fun x hcov => ?_, hst.spared hs hi hc.spares⟩
  rw [(hc.code hcov.1).byte hcov.2]
  exact hst.original hs hi hcov

theorem Steady.retarget_passes (hst : Steady init s) (hs : init.Orderly)
    (hi : s.held[i]? = some h) (target : Address) :
    Passes (h.handle.retarget (Space.system limits).filmed .x86_64 target)
      (h.handle.retarget (Space.system limits) .x86_64 target) s.memory (Standing s.held)
      fun m => ∃ handle m', h.handle.retarget (Space.system limits) .x86_64 target s.memory =
        .ok handle m' ∧ Standing (s.held.set i { h with handle }) m := by
  have hc := hst.kept.carries_at hi
  refine Handle.films_retarget.passes (fun handle f hr => ?_) fun e f hr => ?_
  · have hrun := Handle.films_retarget.ok hr
    obtain ⟨⟨happlied, -⟩, -⟩ := Handle.retarget_ok hs.laid hc hrun
    have hplaced := hst.confined.placed hs (List.mem_of_getElem? hi) happlied
    obtain ⟨-, f₁, hbefore, hafter⟩ := Handle.retarget_film_ok hplaced hc hr
    refine ⟨f₁, hbefore.mono fun m hm => hst.standing.grown hm, hafter.mono fun m hm => ?_⟩
    exact ⟨handle, f.now, hrun, (standing_set hi).mpr ⟨fun _ => hm.1, hst.spared hs hi hm.2⟩⟩
  · exact (Handle.retarget_film_error hc.laid hr).mono fun m hm => hst.standing.grown hm

theorem Steady.undo_film (hst : Steady init s) (hs : init.Orderly) (hi : s.held[i]? = some h)
    {handle : Handle} {f : Film Space}
    (hu : h.handle.undo (Space.system limits).filmed ⟨s.memory, []⟩ = .ok handle f) :
    Film.Adds ⟨s.memory, []⟩ (Lifted init s i h) f := by
  have hmem := List.mem_of_getElem? hi
  have hcleared := Handle.undo_film_ok (hst.confined.placed hs hmem)
    (hst.kept.sound h hmem).idle (hst.kept.carries_at hi) hu
  exact hcleared.mono fun m hm => hst.lifted hs hi hm

theorem Steady.undoDetour_film (hst : Steady init s) (hs : init.Orderly)
    (hi : s.held[i]? = some h) {handle : Handle} {f : Film Space}
    (hu : h.handle.undoDetour (Space.system limits).filmed ⟨s.memory, []⟩ = .ok handle f) :
    Film.Adds ⟨s.memory, []⟩ (Lifted init s i h) f := by
  have hcleared := Handle.undoDetour_film_ok
    (hst.confined.placed hs (List.mem_of_getElem? hi)) (hst.kept.carries_at hi) hu
  exact hcleared.mono fun m hm => hst.lifted hs hi hm

theorem Steady.undo_passes (hst : Steady init s) (hs : init.Orderly)
    (hi : s.held[i]? = some h) :
    Passes (h.handle.undo (Space.system limits).filmed) (h.handle.undo (Space.system limits))
      s.memory (Standing s.held) (Lifted init s i h) := by
  refine Handle.films_undo.passes (fun handle f hu => ?_) fun e f hu => ?_
  · exact ⟨_, Film.adds_self hst.standing, hst.undo_film hs hi hu⟩
  · rw [Handle.undo_film_error hu]
    exact Film.adds_next hst.standing

theorem Steady.undoDetour_passes (hst : Steady init s) (hs : init.Orderly)
    (hi : s.held[i]? = some h) :
    Passes (h.handle.undoDetour (Space.system limits).filmed)
      (h.handle.undoDetour (Space.system limits)) s.memory (Standing s.held)
      (Lifted init s i h) := by
  refine Handle.films_undoDetour.passes (fun handle f hu => ?_) fun e f hu => ?_
  · exact ⟨_, Film.adds_self hst.standing, hst.undoDetour_film hs hi hu⟩
  · rw [Handle.undoDetour_film_error hu]
    exact Film.adds_next hst.standing

def Meets (s : Session) (aims : List Aim) : Prop :=
  s.held.map Holding.aim = aims ∧ Standing s.held s.memory

theorem Meets.refused (h : s.Meets aims) (he : Extended s.memory [] m) :
    Meets { s with memory := m } aims := ⟨h.1, h.2.grown ⟨_, he⟩⟩

theorem Meets.append (hmeets : s.Meets aims) (hs : init.Orderly) (hin : s.Confined init)
    (hspread : Spread ⟨m, s.held ++ [h]⟩) (hstands : h.detour.Stands m)
    (hothers : ∀ k, Detour.Beside init (s.held.flatMap Holding.owned) h.detour k →
      k.Stands s.memory → k.Stands m) : Meets ⟨m, s.held ++ [h]⟩ (aims ++ [h.aim]) := by
  refine ⟨by rw [List.map_append, hmeets.1, List.map_singleton], fun k hk happlied => ?_⟩
  rcases List.mem_append.mp hk with hk | hk
  · refine hothers k.detour ⟨fun hh => ?_, hin.placed hs hk happlied, fun r hr => ?_⟩
      (hmeets.2 k hk happlied)
    · exact (List.pairwise_append.mp hspread).2.2 k hk h (List.mem_singleton_self h) happlied hh
    · exact List.mem_flatMap.mpr ⟨k, hk, List.mem_append_left _ (Option.mem_toList.mpr hr)⟩
  · rwa [List.mem_singleton.mp hk]

theorem Meets.create (hmeets : s.Meets aims) (hk : s.Kept init) (hs : init.Orderly)
    (hin : s.Confined init) {source target : Address} {limit : Option Nat}
    {writable : Option Address}
    (hm : s.perform limits .x86_64 rel? (.create source target limit writable) = some s')
    (hconfined : s'.Confined init) (hspread : s'.Spread) :
    s'.Meets (s.aimed limits .x86_64 rel? aims (.create source target limit writable)) := by
  rcases settle_eq_some hm with ⟨d, m, hcreate, rfl⟩ | ⟨why, m, hcreate, rfl⟩
  · simp only [aimed, hcreate, gives, if_true]
    obtain ⟨redirect, hplan, happly⟩ := Detour.create_ok hcreate
    have happlied := (Detour.apply_ok hs.laid hk.carries happly).1
    have hplaced := hconfined.placed hs (List.mem_append_right _ List.mem_cons_self) happlied
    obtain ⟨⟨rfl, rfl, hplace⟩, hstands, hothers⟩ :=
      Detour.apply_stands hk.carries hplan happly hplaced
    rw [← hplace]
    exact hmeets.append hs hin hspread hstands hothers
  · simp only [aimed, hcreate, gives, Bool.false_eq_true, if_false]
    exact hmeets.refused (Detour.create_refused hk.carries.laid hcreate)

theorem Meets.createEntry (hmeets : s.Meets aims) (hk : s.Kept init) (hs : init.Orderly)
    (hin : s.Confined init) {wanted : Bool} {source target : Address} {limit : Option Nat}
    {writable : Option Address}
    (hm : s.perform limits .x86_64 rel? (.createEntry wanted source target limit writable) =
      some s') (hconfined : s'.Confined init) (hspread : s'.Spread) :
    s'.Meets (s.aimed limits .x86_64 rel? aims
      (.createEntry wanted source target limit writable)) := by
  rcases settle_eq_some hm with ⟨d, m, hcreate, rfl⟩ | ⟨why, m, hcreate, rfl⟩
  · simp only [aimed, hcreate, gives, if_true]
    have happlied := (EntryDetour.createWith_ok hs.laid hk.carries hcreate).1
    have hplaced := hconfined.placed hs (List.mem_append_right _ List.mem_cons_self) happlied
    obtain ⟨⟨rfl, rfl, hplace⟩, hstands, hothers⟩ :=
      EntryDetour.createWith_stands hk.carries hcreate hplaced
    rw [← hplace]
    exact hmeets.append hs hin hspread hstands hothers
  · simp only [aimed, hcreate, gives, Bool.false_eq_true, if_false]
    exact hmeets.refused (EntryDetour.createWith_refused hk.carries.laid hcreate)

theorem map_aim_set (hi : held[i]? = some h) (haim : h'.aim = h.aim) :
    (held.set i h').map Holding.aim = held.map Holding.aim := by
  obtain ⟨hlt, rfl⟩ := List.getElem?_eq_some_iff.mp hi
  rw [List.map_set, haim, ← List.map_set, List.set_getElem_self]

theorem map_aim_modify {g : Aim → Aim} (hi : held[i]? = some h) (haim : h'.aim = g h.aim) :
    (held.set i h').map Holding.aim = (held.map Holding.aim).modify i g := by
  rw [List.map_set, haim, List.modify_eq_set_getElem?, List.getElem?_map, hi]
  rfl

theorem Steady.retarget (hst : Steady init s) (hs : init.Orderly)
    (haims : s.held.map Holding.aim = aims) {target : Address}
    (hm : s.perform limits .x86_64 rel? (.retarget i target) = some s') :
    s'.Meets (s.aimed limits .x86_64 rel? aims (.retarget i target)) := by
  obtain ⟨h, hi, hsettle⟩ := Option.bind_eq_some_iff.mp hm
  have hc := hst.kept.carries_at hi
  rcases settle_eq_some hsettle with ⟨handle, m, hr, rfl⟩ | ⟨why, m, hr, rfl⟩
  · simp only [aimed, hi, Option.any_some, hr, gives, if_true]
    obtain ⟨⟨happlied, -, hplace, -⟩, -⟩ := Handle.retarget_ok hs.laid hc hr
    have hplaced := hst.confined.placed hs (List.mem_of_getElem? hi) happlied
    obtain ⟨f, hfilm, rfl⟩ := Handle.films_retarget.exists_ok hr
    obtain ⟨⟨hsource, htarget⟩, _, -, hafter⟩ := Handle.retarget_film_ok hplaced hc hfilm
    obtain ⟨hstands, hspares⟩ := hafter.1
    refine ⟨?_, (standing_set hi).mpr ⟨fun _ => hstands, hst.spared hs hi hspares⟩⟩
    rw [← haims]
    refine map_aim_modify hi ?_
    simp only [Holding.aim, Holding.detour, Detour.aim, hsource, htarget, hplace]
  · simp only [aimed, hi, Option.any_some, hr, gives, Bool.false_eq_true, if_false]
    exact Meets.refused ⟨haims, hst.standing⟩ (Handle.retarget_refused hc.laid hr)

theorem Steady.undo (hst : Steady init s) (hs : init.Orderly)
    (hm : s.perform limits .x86_64 rel? (.undo i) = some s') :
    s'.Meets (s.held.map Holding.aim) := by
  obtain ⟨h, hi, hsettle⟩ := Option.bind_eq_some_iff.mp hm
  rcases settle_eq_some hsettle with ⟨handle, m, hu, rfl⟩ | ⟨why, m, hu, rfl⟩
  · have hsound := hst.kept.sound h (List.mem_of_getElem? hi)
    obtain ⟨hidle, -⟩ := Handle.undo_ok (hst.kept.carries_at hi) hsound.idle hu
    refine ⟨map_aim_set hi (Handle.undo_aim hu), (standing_set hi).mpr ⟨fun happlied => ?_, ?_⟩⟩
    · exact absurd (happlied.symm.trans hidle) (by decide)
    · obtain ⟨f, hfilm, rfl⟩ := Handle.films_undo.exists_ok hu
      exact (hst.undo_film hs hi hfilm).1.2
  · rw [Handle.undo_error hu]
    exact ⟨rfl, hst.standing⟩

theorem Steady.undoDetour (hst : Steady init s) (hs : init.Orderly)
    (hm : s.perform limits .x86_64 rel? (.undoDetour i) = some s') :
    s'.Meets (s.held.map Holding.aim) := by
  obtain ⟨h, hi, hsettle⟩ := Option.bind_eq_some_iff.mp hm
  rcases settle_eq_some hsettle with ⟨handle, m, hu, rfl⟩ | ⟨why, m, hu, rfl⟩
  · have hsound := hst.kept.sound h (List.mem_of_getElem? hi)
    obtain ⟨hidle, -⟩ := Handle.undoDetour_ok (hst.kept.carries_at hi) hsound.idle hu
    refine ⟨map_aim_set hi (Handle.undoDetour_aim hu),
      (standing_set hi).mpr ⟨fun happlied => ?_, ?_⟩⟩
    · exact absurd (happlied.symm.trans hidle) (by decide)
    · obtain ⟨f, hfilm, rfl⟩ := Handle.films_undoDetour.exists_ok hu
      exact (hst.undoDetour_film hs hi hfilm).1.2
  · rw [Handle.undoDetour_error hu]
    exact ⟨rfl, hst.standing⟩

theorem Steady.drop (hst : Steady init s) (hs : init.Orderly)
    (hm : s.perform limits .x86_64 rel? (.drop i) = some s') :
    s'.Meets ((s.held.map Holding.aim).eraseIdx i) := by
  obtain ⟨h, hi, hsettle⟩ := Option.bind_eq_some_iff.mp hm
  have hmem := List.mem_of_getElem? hi
  have hsound := hst.kept.sound h hmem
  rcases settle_eq_some hsettle with ⟨_, m, hd, rfl⟩ | ⟨why, m, hd, rfl⟩
  · obtain ⟨_, hu⟩ := Handle.drop_undoes (hst.kept.carries_at hi) hsound.idle hsound.saved
      (hst.confined.placed hs hmem) hd
    obtain ⟨f, hfilm, rfl⟩ := Handle.films_undo.exists_ok hu
    exact ⟨(List.eraseIdx_map ..).symm, (hst.undo_film hs hi hfilm).1.2⟩
  · exact (Handle.drop_ne_refused hd).elim

/-- Every move leaves the applied detours standing, with the aims they have then. -/
theorem Steady.step (hst : Steady init s) (hs : init.Orderly)
    (haims : s.held.map Holding.aim = aims) {move : Move}
    (hm : s.perform limits .x86_64 rel? move = some s') (hconfined : s'.Confined init)
    (hspread : s'.Spread) : s'.Meets (s.aimed limits .x86_64 rel? aims move) := by
  have hmeets : s.Meets aims := ⟨haims, hst.standing⟩
  cases move with
  | create => exact hmeets.create hst.kept hs hst.confined hm hconfined hspread
  | createEntry => exact hmeets.createEntry hst.kept hs hst.confined hm hconfined hspread
  | retarget => exact hst.retarget hs haims hm
  | undo => exact haims ▸ hst.undo hs hm
  | undoDetour => exact haims ▸ hst.undoDetour hs hm
  | drop => exact haims ▸ hst.drop hs hm

theorem Runs.steady (hs : init.Orderly) (hr : Runs limits .x86_64 rel? init s aims) :
    s.held.map Holding.aim = aims ∧ Steady init s := by
  induction hr with
  | start => exact ⟨rfl, Kept.start hs.laid, nofun, List.Pairwise.nil, nofun⟩
  | step move hruns hmove hconfined hspread ih =>
    obtain ⟨haims, hst⟩ := ih
    obtain ⟨haims', hstanding⟩ := hst.step hs haims hmove hconfined hspread
    have hkept := hst.kept.step hs hst.confined (hst.spread.permits move) hmove
    exact ⟨haims', hkept, hconfined, hspread, hstanding⟩

/-- At every state that a session of detours apart from each other reaches, each applied detour
stands and is for what it was last given. From there on, a retargeting goes through states where
they all stand, then through states where they do with the retargeted one in place of the old; if it
fails, only through the former. Undoing one goes through states where they all stand, then through
states where the others do and the code of the one undone is the original. -/
theorem Runs.stands (hs : init.Orderly) (hr : Runs limits .x86_64 rel? init s aims) :
    s.held.map Holding.aim = aims ∧ Standing s.held s.memory ∧
      ∀ i h, s.held[i]? = some h →
        (∀ target, Passes (h.handle.retarget (Space.system limits).filmed .x86_64 target)
          (h.handle.retarget (Space.system limits) .x86_64 target) s.memory (Standing s.held)
          fun m => ∃ handle m', h.handle.retarget (Space.system limits) .x86_64 target s.memory =
            .ok handle m' ∧ Standing (s.held.set i { h with handle }) m) ∧
        Passes (h.handle.undo (Space.system limits).filmed) (h.handle.undo (Space.system limits))
          s.memory (Standing s.held) (Lifted init s i h) ∧
        Passes (h.handle.undoDetour (Space.system limits).filmed)
          (h.handle.undoDetour (Space.system limits)) s.memory (Standing s.held)
          (Lifted init s i h) := by
  obtain ⟨haims, hst⟩ := hr.steady hs
  refine ⟨haims, hst.standing, fun i h hi => ⟨?_, ?_, ?_⟩⟩
  · exact fun target => hst.retarget_passes hs hi target
  · exact hst.undo_passes hs hi
  · exact hst.undoDetour_passes hs hi

/-- A far detour that is given another far target, and a near one that refuses its own source. -/
theorem stands_retargeted :
    let code : Space := { regions := [(0x1000, List.replicate 32 0x90)] }
    ∃ s, Runs {} .x86_64 (some X86.relocator) code s
        [⟨0x1000, 0x7FFF00001000, 0x1000⟩, ⟨0x1010, 0x2000, 0x1010⟩] ∧
      s.held.length = 2 ∧ (∃ h ∈ s.held, h.detour.stub ≠ none) ∧
      ∀ h ∈ s.held, h.detour.applied = true ∧ h.detour.Stands s.memory ∧
        X86.jumpTarget? s.memory.byteAt? h.detour.redirect.source = some h.detour.landing := by
  intro code
  have horderly : code.Orderly := by constructor <;> decide
  have hrun : ∃ p, pursue? {} .x86_64 (some X86.relocator) code
      [.createEntry true 0x1000 0x7FFF00000000 (some 8) none, .create 0x1010 0x2000 none none,
        .retarget 0 0x7FFF00001000, .retarget 1 0x1010] ⟨code, []⟩ [] = some p ∧
      p.2 = [⟨0x1000, 0x7FFF00001000, 0x1000⟩, ⟨0x1010, 0x2000, 0x1010⟩] ∧
      p.1.held.length = 2 ∧ (∃ h ∈ p.1.held, h.detour.stub ≠ none) ∧
      ∀ h ∈ p.1.held, h.detour.applied = true ∧
        h.detour.writeAddress = h.detour.redirect.source := by decide +kernel
  obtain ⟨⟨s, aims⟩, hrun, rfl, hlen, hstub, hheld⟩ := hrun
  have hruns := Runs.start.of_pursue? hrun
  obtain ⟨-, hstanding, -⟩ := hruns.stands horderly
  refine ⟨s, hruns, hlen, hstub, fun h hh => ?_⟩
  obtain ⟨happlied, hplace⟩ := hheld h hh
  have hstands := hstanding h hh happlied
  exact ⟨happlied, hstands, (hstands.reaches hplace).1⟩

end Session

end

end Interpose

import Interpose.Proofs.Memory.Extension
import Interpose.Proofs.Memory.Placement

/-!
# Heaps

A heap is a space together with the allocations that were made in it and are still held. Whatever is
allocated, patched and dropped, in whatever order, the space maps what it did to begin with and what
is held, nothing twice and nothing else. A grant is as its request has it, and dropping it unmaps
its own range.
-/

namespace Interpose

open Space

/-- An allocation in the hands of its owner, with what was asked for. -/
structure Grant where
  request : Request
  range : Range
  deriving DecidableEq, Repr

structure Heap where
  memory : Space
  held : List Grant
  deriving DecidableEq, Repr

namespace Heap

inductive Step where
  | allocate (q : Request)
  | patch (a : Address) (bytes : Bytes) (room : Option Nat)
  | drop (i : Nat)
  deriving DecidableEq, Repr

/-- A refused step leaves what is held as it was, a fault ends the run. -/
def perform (limits : SpaceLimits) (h : Heap) : Step → Option Heap
  | .allocate q =>
    match Space.allocate limits q h.memory with
    | .ok range memory => some ⟨memory, h.held ++ [⟨q, range⟩]⟩
    | .error (.refused _) memory => some { h with memory }
    | .error .fault _ => none
  | .patch a bytes room =>
    match Space.patch a bytes room h.memory with
    | .ok _ memory => some { h with memory }
    | .error (.refused _) memory => some { h with memory }
    | .error .fault _ => none
  | .drop i => h.held[i]?.map fun g => ⟨release g.range h.memory, h.held.eraseIdx i⟩

inductive Reaches (limits : SpaceLimits) (init : Space) : Heap → Prop
  | start : Reaches limits init ⟨init, []⟩
  | step {h h' : Heap} (step : Step) (hreach : Reaches limits init h)
      (hstep : h.perform limits step = some h') : Reaches limits init h'

def run? (limits : SpaceLimits) : List Step → Heap → Option Heap
  | [], h => some h
  | step :: steps, h => (h.perform limits step).bind (run? limits steps)

end Heap

/-- What a grant comes to: the size asked for at a place that the request accepts, within the
limits and aligned for the guard of call targets where it is executable. -/
structure Grant.Honoured (limits : SpaceLimits) (g : Grant) : Prop where
  length : g.range.length = g.request.size
  accepted : g.request.accepts g.range = .ok true
  bounded : g.range.length ≤ limits.maxAllocation
  guarded : ∀ required, limits.guard = some required → isPowerOfTwo required = true →
    g.request.executable = true → required ∣ g.range.base.toNat

namespace Heap
variable {limits : SpaceLimits} {init m : Space} {h h' : Heap} {q : Request} {a : Address}
  {bytes saved : Bytes} {room : Option Nat} {i : Nat} {g : Grant} {r : Range}

theorem Reaches.of_run? {steps : List Step} (hreach : Reaches limits init h)
    (hrun : run? limits steps h = some h') : Reaches limits init h' := by
  induction steps generalizing h with
  | nil =>
    cases hrun
    exact hreach
  | cons step steps ih =>
    obtain ⟨next, hstep, hrest⟩ := Option.bind_eq_some_iff.mp hrun
    exact ih (hreach.step step hstep) hrest

theorem honoured_of_allocate (hs : h.memory.Laid) (ha : allocate limits q h.memory = .ok r m) :
    Grant.Honoured limits ⟨q, r⟩ := by
  obtain ⟨hallocated, hmax⟩ := allocate_ok hs ha
  refine ⟨hallocated.length, hallocated.accepted, hmax, ?_⟩
  intro required hguard hpower hexec
  have hle := allocate_guarded ha hguard hexec
  have hdvd := powerOfTwo_dvd hpower (allocate_powerOfTwo ha) hle
  have hbase := (Request.accepts_eq_true.mp hallocated.accepted).2.2.1
  exact hdvd.trans (Nat.dvd_of_mod_eq_zero hbase)

structure Kept (limits : SpaceLimits) (init : Space) (h : Heap) : Prop where
  carries : Carries init (h.held.map Grant.range) h.memory
  honoured : ∀ g ∈ h.held, g.Honoured limits

theorem Kept.start (hs : init.Laid) : Kept limits init ⟨init, []⟩ :=
  ⟨Carries.refl hs, fun _ hg => absurd hg List.not_mem_nil⟩

theorem Kept.allocate (hk : Kept limits init h)
    (hp : h.perform limits (.allocate q) = some h') : Kept limits init h' := by
  unfold perform at hp
  dsimp only at hp
  split at hp
  · rename_i r m hallocate
    cases hp
    obtain ⟨hallocated, -⟩ := allocate_ok hk.carries.laid hallocate
    refine ⟨?_, ?_⟩
    · rw [List.map_append]
      exact hk.carries.trans hallocated.extended.toCarries
    · intro g hg
      rcases List.mem_append.mp hg with hg | hg
      · exact hk.honoured g hg
      · rw [List.mem_singleton.mp hg]
        exact honoured_of_allocate hk.carries.laid hallocate
  · rename_i hrefused
    cases hp
    rw [allocate_refused hrefused]
    exact hk
  · cases hp

theorem Kept.patch (hk : Kept limits init h)
    (hp : h.perform limits (.patch a bytes room) = some h') : Kept limits init h' := by
  unfold perform at hp
  dsimp only at hp
  split at hp
  · rename_i hpatch
    cases hp
    exact ⟨hk.carries.patch (patch_ok hk.carries.laid hpatch).1, hk.honoured⟩
  · rename_i hrefused
    cases hp
    rw [patch_error hrefused]
    exact hk
  · cases hp

theorem Kept.carries_at (hk : Kept limits init h) (hi : h.held[i]? = some g) :
    Carries init (g.range :: (h.held.eraseIdx i).map Grant.range) h.memory := by
  obtain ⟨hlt, rfl⟩ := List.getElem?_eq_some_iff.mp hi
  refine hk.carries.perm ?_
  rw [← List.map_cons]
  exact (List.getElem_cons_eraseIdx_perm hlt).symm.map _

theorem Kept.drop (hk : Kept limits init h) (hp : h.perform limits (.drop i) = some h') :
    Kept limits init h' := by
  obtain ⟨g, hi, rfl⟩ := Option.map_eq_some_iff.mp hp
  refine ⟨(hk.carries_at hi).release.1, ?_⟩
  intro g' hg'
  exact hk.honoured g' (List.mem_of_mem_eraseIdx hg')

theorem Kept.step {step : Step} (hk : Kept limits init h) (hp : h.perform limits step = some h') :
    Kept limits init h' := by
  cases step with
  | allocate => exact hk.allocate hp
  | patch => exact hk.patch hp
  | drop => exact hk.drop hp

theorem Reaches.kept (hs : init.Laid) (hreach : Reaches limits init h) : Kept limits init h := by
  induction hreach with
  | start => exact Kept.start hs
  | step step hreach hstep ih => exact ih.step hstep

theorem Kept.ranges (hk : Kept limits init h) :
    h.memory.ranges.Perm (init.ranges ++ h.held.map Grant.range) :=
  Multiset.coe_eq_coe.mp hk.carries.ranges

theorem Kept.orderly (hs : init.Orderly) (hk : Kept limits init h) : h.memory.Orderly := by
  refine ⟨hk.carries.laid.nonempty, ?_, hk.carries.laid.ascending⟩
  intro r hr
  rcases List.mem_append.mp (hk.ranges.mem_iff.mp hr) with hr | hr
  · exact hs.bounded r hr
  · obtain ⟨g, hg, rfl⟩ := List.mem_map.mp hr
    have hhigh := (Request.accepts_eq_true.mp (hk.honoured g hg).accepted).2.2.2
    exact Nat.lt_of_le_of_lt hhigh g.request.high.toNat_lt

/-- Dropping a grant unmaps the range it is for and changes nothing else that shows. -/
theorem Kept.drop_view (hk : Kept limits init h) (hi : h.held[i]? = some g) :
    (release g.range h.memory).view = h.memory.view.unmap g.range :=
  (release_view hk.carries.laid ((hk.carries_at hi).mem List.mem_cons_self)).2

/-- At every heap that is reached, the mapped ranges are those there were to begin with and those
that are held, none empty and none overlapping another; what is held is as it was asked for; a drop
unmaps exactly the range dropped; and a search for any valid request ends, wherever it begins. -/
theorem Reaches.allocates (hs : init.Orderly) (hreach : Reaches limits init h) :
    h.memory.Orderly ∧
      h.memory.ranges.Perm (init.ranges ++ h.held.map Grant.range) ∧
      (∀ g ∈ h.held, g.Honoured limits) ∧
      (∀ i g, h.held[i]? = some g → ∃ h', h.perform limits (.drop i) = some h' ∧
        h'.held = h.held.eraseIdx i ∧ h'.memory.view = h.memory.view.unmap g.range) ∧
      ∀ q, q.validate = .ok () → ∀ base < wordLimit,
        Searches h.memory q base (h.memory.place q base) := by
  have hk := hreach.kept hs.laid
  refine ⟨hk.orderly hs, hk.ranges, hk.honoured, ?_, ?_⟩
  · intro i g hi
    refine ⟨⟨release g.range h.memory, h.held.eraseIdx i⟩, ?_, rfl, hk.drop_view hi⟩
    exact Option.map_eq_some_iff.mpr ⟨g, hi, rfl⟩
  · intro q hq base hb
    exact place_searches (hk.orderly hs) hq hb

/-- Three grants, one of them below the code, one behind it given back after a patch. -/
theorem allocates_around_code :
    let limits : SpaceLimits := { guard := some 16 }
    let code : Space := { regions := [(0x6FFFFFF0, List.replicate 16 0x90)] }
    ∃ h, Reaches limits code h ∧ h.held.map Grant.range = [⟨0x20000800, 4096⟩, ⟨0x70001000, 9⟩] ∧
      h.memory.ranges.Perm (code.ranges ++ h.held.map Grant.range) := by
  intro limits code
  have horderly : code.Orderly := by constructor <;> decide
  have hrun : ∃ h, run? limits [.allocate { size := 64, alignment := 16, executable := true },
      .allocate { size := 4096, low := 0x20000800, high := 0x20009000 },
      .patch 0x70000008 [1, 2, 3] (some 8), .allocate { size := 9 }, .drop 0] ⟨code, []⟩ = some h ∧
      h.held.map Grant.range = [⟨0x20000800, 4096⟩, ⟨0x70001000, 9⟩] := by decide +kernel
  obtain ⟨h, hrun, hheld⟩ := hrun
  have hreach := Reaches.start.of_run? hrun
  exact ⟨h, hreach, hheld, (hreach.allocates horderly).2.1⟩

/-- A requirement that is no power of two need not divide a power of two above it. -/
theorem guard_undivided : ({} : Space).Orderly ∧ ∃ h, Reaches { guard := some 24 } {} h ∧
    ∃ g ∈ h.held, g.request.executable = true ∧ ¬ 24 ∣ g.range.base.toNat := by
  have hrun : ∃ h, run? { guard := some 24 }
      [.allocate { size := 8, alignment := 32, executable := true }] ⟨{}, []⟩ = some h ∧
      ∃ g ∈ h.held, g.request.executable = true ∧ ¬ 24 ∣ g.range.base.toNat := by decide +kernel
  obtain ⟨h, hrun, hundivided⟩ := hrun
  exact ⟨by constructor <;> decide, h, Reaches.start.of_run? hrun, hundivided⟩

end Heap

end Interpose

import Interpose.Proofs.Engine.Detour

/-!
# Detours that cannot be made

Making a detour, making one with an alternate entry and pointing one elsewhere take memory before
they write over any code, and can fail at every step on the way. Whichever step refuses, the memory
is as it was, and a detour that could not be pointed elsewhere is undone as before.
-/

namespace Interpose

namespace Space
variable {s s' t : Space} {limits : SpaceLimits} {region : Address × Bytes} {a x : Address}
  {n : Nat} {r : Range} {range : Option Range} {bytes saved : Bytes}

/-- What can be observed of two spaces is the same, up to the log. -/
structure Alike (s s' : Space) : Prop where
  ranges : s'.ranges = s.ranges
  view : s'.view = s.view

theorem Alike.byte (h : Alike s s') : s'.byteAt? = s.byteAt? := congrArg View.byte h.view

/-- The same ranges are mapped, with the same bytes, and as many allocations are live. -/
def Unchanged (s s' : Space) : Prop :=
  s'.ranges = s.ranges ∧ s'.byteAt? = s.byteAt? ∧ s'.liveCount = s.liveCount

theorem Alike.unchanged (h : Alike s s') : Unchanged s s' :=
  ⟨h.ranges, h.byte, liveCount_eq (congrArg View.live h.view)⟩

theorem Extended.alike (hs : s.Laid) (h : Extended s [] s') : Alike s s' := by
  have hranges : s'.view.ranges = s.view.ranges := by simpa using h.ranges
  exact ⟨ranges_eq h.laid hs hranges,
    View.ext hranges (funext fun x => h.bytes x nofun) (by simpa using h.live)⟩

theorem locate_congr (hr : s'.ranges = s.ranges) (h : s.locate a n = .ok (some region)) :
    ∃ region', s'.locate a n = .ok (some region') := by
  obtain ⟨hbelow, hbound, hroom⟩ := locate_eq_some.mp h
  have hmap := regionBelow?_map s' a
  rw [hr, ← regionBelow?_map, hbelow] at hmap
  obtain ⟨region', hbelow', hrange⟩ := Option.map_eq_some_iff.mp hmap
  obtain ⟨hbase, hlen⟩ : region'.1 = region.1 ∧ region'.2.length = region.2.length := by
    simpa [rangeOf] using hrange
  refine ⟨region', locate_eq_some.mpr ⟨hbelow', ?_, ?_⟩⟩ <;> rw [hbase, hlen] <;> assumption

theorem write_congr (hr : s'.ranges = s.ranges) (h : s.write a bytes = .ok t) :
    ∃ t', s'.write a bytes = .ok t' := by
  obtain ⟨found, hlocate, hfound⟩ := Attempt.bind_eq_ok.mp h
  cases found with
  | none => cases hfound
  | some region =>
    obtain ⟨region', hlocate'⟩ := locate_congr hr hlocate
    simp only [write, hlocate']
    exact ⟨_, rfl⟩

theorem patch_congr (hr : s'.ranges = s.ranges) (h : patch a bytes none s = .ok saved t) :
    ∃ t', patch a bytes none s' = .ok saved t' := by
  unfold patch at h
  split at h
  · rename_i kept written hexchange
    cases h
    obtain ⟨u, hcheck, hrest⟩ := Attempt.bind_eq_ok.mp hexchange
    obtain ⟨old, hold, hrest⟩ := Attempt.bind_eq_ok.mp hrest
    obtain ⟨now, hwrite, hpure⟩ := Attempt.bind_eq_ok.mp hrest
    cases hpure
    obtain ⟨now', hwrite'⟩ := write_congr hr hwrite
    have hexchange' : s'.exchange a bytes none = .ok (saved, now') :=
      Attempt.bind_eq_ok.mpr ⟨u, hcheck, Attempt.bind_eq_ok.mpr ⟨saved, hold,
        Attempt.bind_eq_ok.mpr ⟨now', hwrite', rfl⟩⟩⟩
    rw [patch, hexchange']
    exact ⟨_, rfl⟩
  · cases h

theorem Laid.release (hs : s.Laid) (r : Range) : (Space.release r s).Laid := by
  have hsub : (Space.release r s).ranges.Sublist s.ranges := by
    rw [release_ranges]
    exact List.filter_sublist
  exact ⟨fun t ht => hs.nonempty t (hsub.subset ht), hs.ascending.sublist hsub⟩

theorem release_byteAt? (hs : s.Laid) (r : Range) (x : Address) : (release r s).byteAt? x =
    if ∃ t ∈ (release r s).ranges, t.Holds x then s.byteAt? x else none := by
  split
  · rename_i hmapped
    obtain ⟨t, ht, hx⟩ := hmapped
    obtain ⟨region, hregion, rfl⟩ := List.mem_map.mp ht
    have hold : region ∈ s.regions := (List.mem_filter.mp hregion).1
    rw [byteAt?_of_mem (hs.release r) hregion hx, byteAt?_of_mem hs hold hx]
  · rename_i hnot
    exact byteAt?_eq_none fun t ht hx => hnot ⟨t, ht, hx⟩

theorem Alike.release (hs : s.Laid) (h : Alike s s') (r : Range) :
    Alike (Space.release r s) (Space.release r s') := by
  have hranges : (Space.release r s').ranges = (Space.release r s).ranges := by
    rw [release_ranges, release_ranges, h.ranges]
  have hlive := congrArg View.live h.view
  refine ⟨hranges, View.ext (congrArg Multiset.ofList hranges) (funext fun x => ?_) ?_⟩
  · rw [view_byte, view_byte, release_byteAt? hs, release_byteAt? (hs.of_ranges h.ranges), hranges,
      h.byte]
  · simp only [Space.view, allocationCount, freeCount] at hlive
    simp [Space.view, Space.release, log, allocationCount, freeCount]
    omega

theorem Alike.releaseOption (hs : s.Laid) (h : Alike s s') (range : Option Range) :
    Alike ((Space.system limits).releaseOption range s)
      ((Space.system limits).releaseOption range s') := by
  cases range with
  | none => exact h
  | some r => exact h.release hs r

theorem Alike.patch (hs : s.Laid) (h : Alike s s') (hp : patch a bytes none s = .ok saved t) :
    ∃ t', Space.patch a bytes none s' = .ok saved t' ∧ Alike t t' := by
  obtain ⟨t', hp'⟩ := patch_congr h.ranges hp
  have hdone := (patch_ok hs hp).1
  have hdone' := (patch_ok (hs.of_ranges h.ranges) hp').1
  refine ⟨t', hp', ?_, ?_⟩
  · rw [hdone'.ranges, hdone.ranges, h.ranges]
  · rw [hdone'.view, hdone.view, h.view]

end Space

namespace Detour
open Space
variable {limits : SpaceLimits} {isa : Isa} {source target x : Address} {limit : Option Nat}
  {writable : Option Address} {wanted : Bool} {rel? : Option Relocator} {why : Error}
  {d d' : Detour} {s s' t : Space}

theorem undo_alike (hs : s.Laid) (h : Alike s s') (hu : d.undo (Space.system limits) s = .ok d' t) :
    ∃ t', d.undo (Space.system limits) s' = .ok d' t' ∧ Alike t t' := by
  rcases undo_steps hu with ⟨happlied, rfl, rfl⟩ | ⟨happlied, saved, u, hpatch, rfl, rfl⟩
  · refine ⟨s', ?_, h⟩
    unfold undo
    rw [happlied]
    rfl
  · obtain ⟨u', hpatch', hu'⟩ := h.patch hs hpatch
    refine ⟨_, ?_, hu'.releaseOption (patch_ok hs hpatch).1.laid d.stub⟩
    unfold undo
    rw [happlied]
    exact Action.bind_eq_ok.mpr ⟨saved, u', hpatch', rfl⟩

/-- Undoing puts the saved bytes back, whatever is below the detour. -/
theorem undo_restores (hs : s.Laid) (happlied : d.applied = true)
    (hstub : ∀ r ∈ d.stub, r ∈ s.ranges) (hu : d.undo (Space.system limits) s = .ok d' t)
    (hx : ∀ r ∈ d.stub, ¬ r.Holds x) : t.byteAt? x = d.restore s.byteAt? x := by
  rcases undo_steps hu with ⟨hidle, -, -⟩ | ⟨-, saved, u, hpatch, rfl, -⟩
  · rw [happlied] at hidle
    cases hidle
  obtain ⟨hp, -⟩ := patch_ok hs hpatch
  have hsame : ((Space.system limits).releaseOption d.stub u).byteAt? x = u.byteAt? x := by
    cases hd : d.stub with
    | none => rfl
    | some r =>
      have hr : r ∈ u.ranges := hp.ranges ▸ hstub r hd
      show (Space.release r u).byteAt? x = _
      rw [← view_byte, (release_view hp.laid hr).2, View.unmap_byte_of_not (hx r hd), view_byte]
  rw [hsame, ← view_byte, hp.view]
  by_cases hcov : d.patched.Holds x
  · rw [restore_of_covers ⟨happlied, hcov⟩, View.put_byte_of_holds hcov]
  · rw [restore_of_not fun h => hcov h.2, View.put_byte_of_not hcov, view_byte]

/-- A detour that is refused, be it new, with an alternate entry, or pointed elsewhere, leaves the
memory alone. Undoing one that could not be pointed elsewhere does what it would have done before,
and brings back the saved bytes. -/
theorem refused_unchanged (limits : SpaceLimits) (isa : Isa) (hs : s.Laid) :
    (∀ source target limit writable why s',
      create (Space.system limits) isa source target limit writable s =
        .error (.refused why) s' → Unchanged s s') ∧
    (∀ rel? wanted source target limit writable why s',
      EntryDetour.createWith (Space.system limits) isa rel? wanted source target limit writable s =
        .error (.refused why) s' → Unchanged s s') ∧
    ∀ (d : Detour) target why s',
      d.retarget (Space.system limits) isa target s = .error (.refused why) s' →
      Unchanged s s' ∧
      (∀ d' t, d.undo (Space.system limits) s = .ok d' t →
        ∃ t', d.undo (Space.system limits) s' = .ok d' t' ∧ Unchanged t t') ∧
      (d.applied = true → (∀ r ∈ d.stub, r ∈ s.ranges) →
        ∀ d' t', d.undo (Space.system limits) s' = .ok d' t' →
          ∀ x, (∀ r ∈ d.stub, ¬ r.Holds x) → t'.byteAt? x = d.restore s.byteAt? x) := by
  refine ⟨fun source target limit writable why s' h => ?_,
    fun rel? wanted source target limit writable why s' h => ?_, fun d target why s' h => ?_⟩
  · exact ((create_refused hs h).alike hs).unchanged
  · exact ((EntryDetour.createWith_refused hs h).alike hs).unchanged
  · have halike := (retarget_refused hs h).alike hs
    refine ⟨halike.unchanged, fun d' t hu => ?_, fun happlied hstub d' t' hu x hx => ?_⟩
    · obtain ⟨t', hu', hsame⟩ := undo_alike hs halike hu
      exact ⟨t', hu', hsame.unchanged⟩
    · have hstub' : ∀ r ∈ d.stub, r ∈ s'.ranges := fun r hr => halike.ranges ▸ hstub r hr
      rw [undo_restores (hs.of_ranges halike.ranges) happlied hstub' hu hx, halike.byte]

/-- A detour through a stub, with no memory left for the stub of another target. -/
theorem refused_unchanged_limit :
    let limits : SpaceLimits := { allocationLimit := some 1 }
    let code : Space := { regions := [(0x1000, List.replicate 32 0x90)] }
    ∃ d s why s', create (Space.system limits) .x86_64 0x1000 0x7FFF00000000 (some 8) none code =
        .ok d s ∧
      d.retarget (Space.system limits) .x86_64 0x7FFE00000000 s = .error (.refused why) s' ∧
      Unchanged s s' := by
  intro limits code
  have hlaid : code.Laid := by constructor <;> decide
  obtain ⟨result, s', h, hresult⟩ : ∃ result s',
      (create (Space.system limits) .x86_64 0x1000 0x7FFF00000000 (some 8) none >>= fun d =>
        (d.retarget (Space.system limits) .x86_64 0x7FFE00000000).attempt) code = .ok result s' ∧
      result.toBool = false := Action.exists_ok (by decide +kernel)
  obtain ⟨d, s, hcreate, hattempt⟩ := Action.bind_eq_ok.mp h
  rcases Action.attempt_eq_ok.mp hattempt with ⟨d', rfl, -⟩ | ⟨why, -, hretarget⟩
  · cases hresult
  obtain ⟨redirect, -, happly⟩ := create_ok hcreate
  have hs : s.Laid := (apply_ok hlaid (Carries.refl hlaid) happly).2.2.1.laid
  obtain ⟨-, -, hunchanged⟩ := refused_unchanged limits .x86_64 hs
  exact ⟨d, s, why, s', hcreate, hretarget, (hunchanged d _ why s' hretarget).1⟩

end Detour

end Interpose

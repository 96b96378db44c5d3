import Interpose.Proofs.Memory.Allocation
import Interpose.Engine.Detour

/-!
# Spaces that hold more

A space carries some ranges over another when it maps and holds live what the other does and these
ranges besides. An extension also shows the same bytes outside them: it is what an operation that
takes memory of its own leaves. Extensions compose, and one by nothing has the view at the start.
-/

namespace Interpose.Space
variable {s s' s'' : Space} {limits : SpaceLimits} {q : Request} {r : Range} {a x : Address}
  {more further : List Range} {range : Option Range} {bytes : Bytes}

structure Carries (s : Space) (more : List Range) (s' : Space) : Prop where
  laid : s'.Laid
  ranges : s'.view.ranges = s.view.ranges + (more : Multiset Range)
  live : s'.view.live = s.view.live + more.length

theorem Carries.refl (hs : s.Laid) : Carries s [] s := ⟨hs, by simp, by simp⟩

theorem Carries.apart (h : Carries s more s') {t : Range} (ht : t ∈ s.ranges) (hr : r ∈ more) :
    t.Apart r :=
  h.laid.apart_of_add h.ranges (mem_view_ranges.mpr ht) (Multiset.mem_coe.mpr hr)

/-- What is carried lies where nothing was mapped. -/
theorem Carries.free (h : Carries s more s') (hr : r ∈ more) : s.view.Free r :=
  free_of_apart fun _ ht => (h.apart ht hr).symm

theorem Carries.pairwise (h : Carries s more s') : more.Pairwise Range.Apart := by
  have hperm : s'.ranges.Perm (s.ranges ++ more) := Multiset.coe_eq_coe.mp h.ranges
  have hpair := (hperm.pairwise_iff fun h => Range.Apart.symm h).mp h.laid.apart
  exact (List.pairwise_append.mp hpair).2.1

theorem Carries.mem (h : Carries s more s') (hr : r ∈ more) : r ∈ s'.ranges := by
  rw [← mem_view_ranges, h.ranges]
  exact Multiset.mem_add.mpr (Or.inr (Multiset.mem_coe.mpr hr))

theorem Carries.mem_of_mem (h : Carries s more s') (hr : r ∈ s.ranges) : r ∈ s'.ranges := by
  rw [← mem_view_ranges, h.ranges]
  exact Multiset.mem_add.mpr (Or.inl (mem_view_ranges.mpr hr))

theorem Carries.mapped (h : Carries s more s') (hs : s.Laid) (hx : s.byteAt? x ≠ none) :
    s'.byteAt? x ≠ none := by
  rw [← Option.isSome_iff_ne_none] at hx ⊢
  obtain ⟨t, ht, hholds⟩ := (byteAt?_isSome_iff hs).mp hx
  exact (byteAt?_isSome_iff h.laid).mpr ⟨t, h.mem_of_mem ht, hholds⟩

theorem Carries.perm (h : Carries s more s') (hp : more.Perm further) : Carries s further s' := by
  refine ⟨h.laid, ?_, ?_⟩
  · rw [h.ranges, Multiset.coe_eq_coe.mpr hp]
  · rw [h.live, hp.length_eq]

theorem Carries.trans (h : Carries s more s') (h' : Carries s' further s'') :
    Carries s (more ++ further) s'' := by
  refine ⟨h'.laid, ?_, ?_⟩
  · rw [h'.ranges, h.ranges, Multiset.add_assoc, Multiset.coe_add]
  · rw [h'.live, h.live, List.length_append]
    push_cast
    omega

theorem Carries.patch (h : Carries s more s') (hp : Patched s' a bytes s'') :
    Carries s more s'' := by
  refine ⟨hp.laid, ?_, ?_⟩
  · rw [hp.view, View.put_ranges, h.ranges]
  · rw [hp.view, View.put_live, h.live]

/-- Giving back what is carried changes no byte that was mapped before. -/
theorem Carries.release (h : Carries s (r :: more) s') : Carries s more (release r s') ∧
    ∀ x, s.byteAt? x ≠ none → (Space.release r s').byteAt? x = s'.byteAt? x := by
  obtain ⟨ho, hv⟩ := release_view h.laid (h.mem List.mem_cons_self)
  refine ⟨⟨ho, ?_, ?_⟩, fun x hx => ?_⟩
  · rw [hv, View.unmap_ranges, h.ranges, ← Multiset.cons_coe, Multiset.add_cons,
      Multiset.erase_cons_head]
  · rw [hv, View.unmap_live, h.live, List.length_cons]
    push_cast
    omega
  · have hnot : ¬ r.Holds x := fun hr => hx (h.free List.mem_cons_self x hr)
    rw [← view_byte, hv, View.unmap_byte_of_not hnot, view_byte]

theorem Carries.releaseOption (limits : SpaceLimits) (h : Carries s (range.toList ++ more) s') :
    Carries s more ((Space.system limits).releaseOption range s') ∧ ∀ x, s.byteAt? x ≠ none →
      ((Space.system limits).releaseOption range s').byteAt? x = s'.byteAt? x := by
  cases range with
  | none => exact ⟨h, fun x _ => rfl⟩
  | some r => exact h.release

structure Extended (s : Space) (more : List Range) (s' : Space) : Prop extends
    Carries s more s' where
  bytes : ∀ x, (∀ r ∈ more, ¬ r.Holds x) → s'.byteAt? x = s.byteAt? x

theorem Extended.refl (hs : s.Laid) : Extended s [] s := ⟨Carries.refl hs, fun _ _ => rfl⟩

theorem Extended.byte_of_mapped (h : Extended s more s') (hx : s.byteAt? x ≠ none) :
    s'.byteAt? x = s.byteAt? x :=
  h.bytes x fun _ hr hholds => hx (h.free hr x hholds)

theorem Extended.trans (h : Extended s more s') (h' : Extended s' further s'') :
    Extended s (more ++ further) s'' := by
  refine ⟨h.toCarries.trans h'.toCarries, fun x hx => ?_⟩
  rw [h'.bytes x fun r hr => hx r (List.mem_append_right _ hr),
    h.bytes x fun r hr => hx r (List.mem_append_left _ hr)]

theorem Allocated.extended (h : Allocated s q r s') : Extended s [r] s' := by
  refine ⟨⟨h.laid, ?_, ?_⟩, fun x hx => ?_⟩
  · rw [h.view, View.map_ranges, Multiset.coe_singleton, Multiset.add_comm, Multiset.singleton_add]
  · rw [h.view]
    simp
  · rw [← view_byte, h.view, View.map_byte_of_not (hx r List.mem_cons_self), view_byte]

/-- Writing inside what was taken keeps an extension. -/
theorem Extended.patch (h : Extended s more s') (hp : Patched s' a bytes s'') (hr : r ∈ more)
    (hw : (⟨a, bytes.length⟩ : Range).Within r) : Extended s more s'' := by
  refine ⟨h.toCarries.patch hp, fun x hx => ?_⟩
  rw [← view_byte, hp.view, View.put_byte_of_not fun hxa => hx r hr (hxa.of_within hw), view_byte,
    h.bytes x hx]

theorem Extended.congr (h : Extended s more s') (hr : s''.ranges = s'.ranges)
    (hv : s''.view = s'.view) : Extended s more s'' := by
  refine ⟨⟨h.laid.of_ranges hr, hv ▸ h.ranges, hv ▸ h.live⟩, fun x hx => ?_⟩
  rw [← view_byte, hv, view_byte, h.bytes x hx]

theorem Extended.release (h : Extended s (r :: more) s') : Extended s more (release r s') := by
  obtain ⟨-, hv⟩ := release_view h.laid (h.mem List.mem_cons_self)
  refine ⟨h.toCarries.release.1, fun x hx => ?_⟩
  rw [← view_byte, hv]
  by_cases hr : r.Holds x
  · rw [View.unmap_byte_of_holds hr, ← view_byte, h.free List.mem_cons_self x hr]
  · rw [View.unmap_byte_of_not hr, view_byte]
    refine h.bytes x fun t ht => ?_
    rcases List.mem_cons.mp ht with rfl | ht
    · exact hr
    · exact hx t ht

theorem Extended.releaseOption (h : Extended s (range.toList ++ more) s') :
    Extended s more ((Space.system limits).releaseOption range s') := by
  cases range with
  | none => exact h
  | some r => exact h.release

end Interpose.Space

import Interpose.Proofs.Memory.Reading

/-!
# Reading without overflow

In an orderly space every region ends within the address space. So no sum on the way of an access
overflows as long as the access itself ends there, and what is reported as readable does.
-/

namespace Interpose.Space
variable {s : Space} {a : Address} {n stop : Nat} {code : Bytes}

theorem Orderly.locate_total (hs : s.Orderly) (h : a.toNat + n < wordLimit) :
    ∃ found, s.locate a n = .ok found := by
  unfold locate
  cases hbelow : s.regionBelow? a with
  | none => exact ⟨none, rfl⟩
  | some region =>
    have hbound := hs.bounded _ (mem_ranges (regionBelow?_mem hbelow).1)
    have hstop : a.plus n = .ok (a.toNat + n) := Attempt.plus_eq_ok.mpr ⟨h, rfl⟩
    have hlimit : region.1.plus region.2.length = .ok (region.1.toNat + region.2.length) :=
      Attempt.plus_eq_ok.mpr ⟨hbound, rfl⟩
    simp only [hstop, hlimit]
    exact ⟨_, rfl⟩

theorem length_read (h : s.read a n = .ok code) : code.length = n := by
  obtain ⟨region, hl, rfl⟩ := read_eq_ok.mp h
  obtain ⟨hbelow, -, hroom⟩ := locate_eq_some.mp hl
  have hle := UInt64.le_iff_toNat_le.mp (regionBelow?_mem hbelow).2
  rw [List.length_take, List.length_drop]
  omega

theorem read_below (h : s.read a n = .ok code) : a.toNat + n < wordLimit := by
  obtain ⟨region, hl, -⟩ := read_eq_ok.mp h
  obtain ⟨-, hbound, hroom⟩ := locate_eq_some.mp hl
  exact Nat.lt_of_le_of_lt hroom hbound

/-- A read that ends in the address space gives its bytes, or is refused as unmapped. -/
theorem Orderly.read_total (hs : s.Orderly) (h : a.toNat + n < wordLimit) :
    (∃ code, s.read a n = .ok code) ∨ s.read a n = .refuse (.unreadable a (.unmapped n)) := by
  obtain ⟨found, hl⟩ := hs.locate_total h
  cases found with
  | none =>
    right
    unfold Space.read
    rw [hl]
    rfl
  | some region => exact Or.inl ⟨_, read_eq_ok.mpr ⟨region, hl, rfl⟩⟩

theorem runStop_total (start bound : Nat) {regions : Table Address Bytes}
    (h : ∀ e ∈ regions, e.1.toNat + e.2.length < wordLimit) (hstop : stop < wordLimit) :
    ∃ last, runStop start bound regions stop = .ok last ∧ stop ≤ last ∧ last < wordLimit := by
  induction regions generalizing stop with
  | nil => exact ⟨stop, rfl, Nat.le_refl _, hstop⟩
  | cons region rest ih =>
    obtain ⟨hregion, hrest⟩ := List.forall_mem_cons.mp h
    unfold runStop
    split
    · exact ⟨stop, rfl, Nat.le_refl _, hstop⟩
    · split
      · rename_i hnext
        have hbase : region.1.toNat = stop := by
          simp only [Bool.and_eq_true, decide_eq_true_eq] at hnext
          exact hnext.1
        have hlater : stop + region.2.length < wordLimit := hbase ▸ hregion
        obtain ⟨last, hlast, hle, hlt⟩ := ih hrest hlater
        refine ⟨last, ?_, by omega, hlt⟩
        exact Attempt.bind_eq_ok.mpr ⟨_, Attempt.checked_eq_ok.mpr ⟨hlater, rfl⟩, hlast⟩
      · exact ih hrest hstop

/-- How much is readable is always told, and ends in the address space. -/
theorem Orderly.readable_total (hs : s.Orderly) (a : Address) (bound : Nat) :
    ∃ count, s.readable a bound = .ok count ∧ count ≤ bound ∧ a.toNat + count < wordLimit := by
  have ha : a.toNat < wordLimit := a.toNat_lt
  obtain ⟨found, hl⟩ := hs.locate_total (n := 0) ha
  cases found with
  | none =>
    refine ⟨0, ?_, Nat.zero_le _, ha⟩
    exact Attempt.bind_eq_ok.mpr ⟨none, hl, rfl⟩
  | some region =>
    obtain ⟨-, hbound, hroom⟩ := locate_eq_some.mp hl
    have habove : ∀ e ∈ s.regions.filter (fun e => region.1 < e.1),
        e.1.toNat + e.2.length < wordLimit :=
      fun e he => hs.bounded _ (mem_ranges (List.mem_filter.mp he).1)
    obtain ⟨last, hlast, hle, hlt⟩ := runStop_total a.toNat bound habove hbound
    refine ⟨min (last - a.toNat) bound, ?_, Nat.min_le_right .., by omega⟩
    exact Attempt.bind_eq_ok.mpr ⟨some region, hl, Attempt.bind_eq_ok.mpr ⟨last, hlast, rfl⟩⟩

end Interpose.Space

import Interpose.Memory.Space
import Interpose.Proofs.Action

/-!
# Orderly spaces

The regions of a space that is laid out are non-empty and do not overlap. Every byte then belongs to
one region, which is the one that an access locates. The regions of an orderly space also end within
the address space, so that none has bytes without an address.
-/

namespace Interpose

attribute [ext] Range

namespace Range
variable {r t u : Range} {a : Address}

/-- The addresses of a range. -/
def Holds (r : Range) (a : Address) : Prop :=
  r.base.toNat ≤ a.toNat ∧ a.toNat < r.base.toNat + r.length

instance (r : Range) (a : Address) : Decidable (r.Holds a) := inferInstanceAs (Decidable (_ ∧ _))

def Apart (r t : Range) : Prop :=
  r.base.toNat + r.length ≤ t.base.toNat ∨ t.base.toNat + t.length ≤ r.base.toNat

instance (r t : Range) : Decidable (r.Apart t) := inferInstanceAs (Decidable (_ ∨ _))

def Within (r t : Range) : Prop :=
  t.base.toNat ≤ r.base.toNat ∧ r.base.toNat + r.length ≤ t.base.toNat + t.length

instance (r t : Range) : Decidable (r.Within t) := inferInstanceAs (Decidable (_ ∧ _))

theorem Apart.symm (h : r.Apart t) : t.Apart r := Or.symm h

theorem Apart.not_holds (h : r.Apart t) (ha : r.Holds a) : ¬ t.Holds a := by
  unfold Apart Holds at *
  omega

theorem Holds.of_within (ha : r.Holds a) (h : r.Within t) : t.Holds a := by
  unfold Within Holds at *
  omega

end Range

namespace Space
variable {s s' : Space} {region : Address × Bytes} {a : Address} {n : Nat}

def rangeOf (region : Address × Bytes) : Range := ⟨region.1, region.2.length⟩

/-- The mapped ranges, in the order of their bases. -/
def ranges (s : Space) : List Range := s.regions.map rangeOf

structure Laid (s : Space) : Prop where
  nonempty : ∀ r ∈ s.ranges, 0 < r.length
  ascending : s.ranges.Pairwise fun r t => r.base.toNat + r.length ≤ t.base.toNat

structure Orderly (s : Space) : Prop where
  nonempty : ∀ r ∈ s.ranges, 0 < r.length
  bounded : ∀ r ∈ s.ranges, r.base.toNat + r.length < wordLimit
  ascending : s.ranges.Pairwise fun r t => r.base.toNat + r.length ≤ t.base.toNat

theorem mem_ranges (h : region ∈ s.regions) : rangeOf region ∈ s.ranges := List.mem_map_of_mem h

theorem release_ranges (r : Range) (s : Space) :
    (release r s).ranges = s.ranges.filter fun t => t.base ≠ r.base := by
  unfold ranges
  rw [List.filter_map]
  rfl

theorem Orderly.laid (hs : s.Orderly) : s.Laid := ⟨hs.nonempty, hs.ascending⟩

theorem Orderly.of_ranges (hs : s.Orderly) (h : s'.ranges = s.ranges) : s'.Orderly := by
  constructor <;> rw [h]
  · exact hs.nonempty
  · exact hs.bounded
  · exact hs.ascending

theorem Laid.of_ranges (hs : s.Laid) (h : s'.ranges = s.ranges) : s'.Laid := by
  constructor <;> rw [h]
  · exact hs.nonempty
  · exact hs.ascending

theorem Laid.apart (hs : s.Laid) : s.ranges.Pairwise Range.Apart :=
  hs.ascending.imp Or.inl

theorem Laid.ascending_regions (hs : s.Laid) : Table.Ascending s.regions := by
  have h := List.pairwise_map.mp hs.ascending
  refine h.imp_of_mem fun {r t} hr _ hle => ?_
  have hn := hs.nonempty _ (mem_ranges hr)
  rw [UInt64.lt_iff_toNat_lt]
  simp only [rangeOf] at hle hn
  omega

theorem Laid.exists_split (hs : s.Laid) (h : region ∈ s.regions) :
    ∃ pre post, s.regions = pre ++ region :: post ∧ (∀ e ∈ pre, e.1 < region.1) ∧
      ∀ e ∈ post, region.1 < e.1 := by
  obtain ⟨pre, post, hsplit⟩ := List.append_of_mem h
  have ha := hs.ascending_regions
  rw [Table.Ascending, hsplit] at ha
  obtain ⟨-, hc, hp⟩ := List.pairwise_append.mp ha
  exact ⟨pre, post, hsplit, fun e he => hp e he region List.mem_cons_self,
    (List.pairwise_cons.mp hc).1⟩

theorem Laid.region_apart (hs : s.Laid) {pre post : Table Address Bytes}
    (h : s.regions = pre ++ region :: post) :
    (∀ e ∈ pre, (rangeOf e).Apart (rangeOf region)) ∧
      ∀ e ∈ post, (rangeOf region).Apart (rangeOf e) := by
  have ha := List.pairwise_map.mp hs.apart
  rw [h] at ha
  obtain ⟨-, hc, hp⟩ := List.pairwise_append.mp ha
  exact ⟨fun e he => hp e he region List.mem_cons_self, (List.pairwise_cons.mp hc).1⟩

/-- The byte that one region has at an address. -/
def byteIn (a : Address) (region : Address × Bytes) : Option UInt8 :=
  if region.1 ≤ a then region.2[a.toNat - region.1.toNat]? else none

theorem byteAt?_eq (s : Space) (a : Address) : s.byteAt? a = s.regions.findSome? (byteIn a) := rfl

theorem byteIn_eq_none (h : ¬ (rangeOf region).Holds a) : byteIn a region = none := by
  unfold byteIn
  split
  · rename_i hle
    rw [UInt64.le_iff_toNat_le] at hle
    simp only [Range.Holds, rangeOf] at h
    exact List.getElem?_eq_none (by omega)
  · rfl

theorem byteIn_of_holds (h : (rangeOf region).Holds a) :
    byteIn a region = region.2[a.toNat - region.1.toNat]? :=
  if_pos (UInt64.le_iff_toNat_le.mpr h.1)

theorem findSome?_byteIn_eq_none {t : Table Address Bytes}
    (h : ∀ e ∈ t, ¬ (rangeOf e).Holds a) : t.findSome? (byteIn a) = none :=
  List.findSome?_eq_none_iff.mpr fun e he => byteIn_eq_none (h e he)

theorem byteAt?_eq_none (h : ∀ r ∈ s.ranges, ¬ r.Holds a) : s.byteAt? a = none :=
  findSome?_byteIn_eq_none fun _ he => h _ (mem_ranges he)

theorem byteAt?_of_mem (hs : s.Laid) (h : region ∈ s.regions) (ha : (rangeOf region).Holds a) :
    s.byteAt? a = region.2[a.toNat - region.1.toNat]? := by
  obtain ⟨pre, post, hsplit, -, -⟩ := hs.exists_split h
  obtain ⟨hpre, -⟩ := hs.region_apart hsplit
  have hn := findSome?_byteIn_eq_none fun e he => (hpre e he).symm.not_holds ha
  have hi : a.toNat - region.1.toNat < region.2.length := by
    simp only [Range.Holds, rangeOf] at ha
    omega
  rw [byteAt?_eq, hsplit, List.findSome?_append, hn, Option.none_or, List.findSome?_cons,
    byteIn_of_holds ha, List.getElem?_eq_getElem hi]

theorem byteAt?_isSome_iff (hs : s.Laid) :
    (s.byteAt? a).isSome ↔ ∃ r ∈ s.ranges, r.Holds a := by
  constructor
  · intro h
    refine Classical.byContradiction fun hn => ?_
    rw [byteAt?_eq_none fun r hr ha => hn ⟨r, hr, ha⟩] at h
    cases h
  · rintro ⟨r, hr, ha⟩
    obtain ⟨region, hm, rfl⟩ := List.mem_map.mp hr
    rw [byteAt?_of_mem hs hm ha]
    simp only [Range.Holds, rangeOf] at ha
    rw [List.getElem?_eq_getElem (by omega)]
    rfl

theorem regionBelow?_mem {s : Space} (h : s.regionBelow? a = some region) :
    region ∈ s.regions ∧ region.1 ≤ a := by
  have hm := List.mem_filter.mp (List.mem_of_getLast? h)
  exact ⟨hm.1, by simpa using hm.2⟩

theorem regionBelow?_map (s : Space) (a : Address) : (s.regionBelow? a).map rangeOf =
    (s.ranges.filter fun r => r.base ≤ a).getLast? := by
  unfold regionBelow? ranges
  rw [List.filter_map, List.getLast?_map]
  rfl

theorem locate_eq_some : s.locate a n = .ok (some region) ↔ s.regionBelow? a = some region ∧
    region.1.toNat + region.2.length < wordLimit ∧
    a.toNat + n ≤ region.1.toNat + region.2.length := by
  unfold locate
  cases hb : s.regionBelow? a with
  | none => simp
  | some below =>
    obtain ⟨base, data⟩ := below
    constructor
    · intro h
      obtain ⟨stop, hstop, h⟩ := Attempt.bind_eq_ok.mp h
      obtain ⟨limit, hlimit, h⟩ := Attempt.bind_eq_ok.mp h
      obtain ⟨-, rfl⟩ := Attempt.plus_eq_ok.mp hstop
      obtain ⟨hbound, rfl⟩ := Attempt.plus_eq_ok.mp hlimit
      split at h
      · cases h
        exact ⟨rfl, hbound, ‹_›⟩
      · cases h
    · rintro ⟨hregion, hbound, hroom⟩
      cases hregion
      refine Attempt.bind_eq_ok.mpr ⟨_, Attempt.plus_eq_ok.mpr ⟨by omega, rfl⟩,
        Attempt.bind_eq_ok.mpr ⟨_, Attempt.plus_eq_ok.mpr ⟨hbound, rfl⟩, ?_⟩⟩
      rw [if_pos hroom]
      rfl

theorem locate_error {e : Failure} (h : s.locate a n = .error e) : e = .fault := by
  unfold locate at h
  split at h
  · cases h
  · rcases Attempt.bind_eq_error.mp h with hstop | ⟨stop, -, h⟩
    · exact Attempt.checked_error hstop
    · rcases Attempt.bind_eq_error.mp h with hlimit | ⟨limit, -, hpure⟩
      · exact Attempt.checked_error hlimit
      · cases hpure

theorem locate_some (h : s.locate a n = .ok (some region)) :
    region ∈ s.regions ∧ (⟨a, n⟩ : Range).Within (rangeOf region) := by
  obtain ⟨hbelow, -, hroom⟩ := locate_eq_some.mp h
  obtain ⟨hm, hle⟩ := regionBelow?_mem hbelow
  exact ⟨hm, UInt64.le_iff_toNat_le.mp hle, hroom⟩

/-- An access inside one region locates it. -/
theorem locate_within (hs : s.Laid) (h : region ∈ s.regions) (hn : 0 < n)
    (hbound : region.1.toNat + region.2.length < wordLimit)
    (hw : (⟨a, n⟩ : Range).Within (rangeOf region)) : s.locate a n = .ok (some region) := by
  obtain ⟨pre, post, hsplit, hpre, hpost⟩ := hs.exists_split h
  obtain ⟨-, hapart⟩ := hs.region_apart hsplit
  obtain ⟨hlo, hhi⟩ := hw
  simp only [rangeOf] at hlo hhi
  have hle : region.1 ≤ a := UInt64.le_iff_toNat_le.mpr hlo
  have habove : post.filter (fun e => decide (e.1 ≤ a)) = [] := by
    refine List.filter_eq_nil_iff.mpr fun e he => ?_
    have hlt := UInt64.lt_iff_toNat_lt.mp (hpost e he)
    have hap := hapart e he
    simp only [Range.Apart, rangeOf] at hap
    simp only [decide_eq_true_eq, UInt64.le_iff_toNat_le]
    omega
  have hbelow : s.regionBelow? a = some region := by
    simp [regionBelow?, hsplit, hle, habove]
  exact locate_eq_some.mpr ⟨hbelow, hbound, hhi⟩

end Space

end Interpose

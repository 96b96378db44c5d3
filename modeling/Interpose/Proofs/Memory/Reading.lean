import Interpose.Proofs.Memory.Log

/-!
# Reading back

An access goes to one region, the one with the highest base up to its address, even where others
overlap it. What is written is read back, and bytes in another region are read as before. The
regions only have to be sorted.
-/

namespace Interpose.Space
variable {s s' t : Space} {limits : SpaceLimits} {q : Request} {r r' : Range} {a b : Address}
  {n k : Nat} {bytes saved code window : Bytes} {room : Option Nat} {region : Address × Bytes}

theorem ranges_unique (ha : s.regions.Ascending) (hr : r ∈ s.ranges) (hr' : r' ∈ s.ranges)
    (h : r.base = r'.base) : r = r' := by
  rw [mem_ranges_iff ha] at hr hr'
  rw [h, hr', Option.some.injEq] at hr
  exact Range.ext h hr.symm

theorem regionBelow?_base (ha : s.regions.Ascending) (h : region ∈ s.regions) :
    s.regionBelow? region.1 = some region := by
  obtain ⟨pre, post, hsplit⟩ := List.append_of_mem h
  rw [Table.Ascending, hsplit] at ha
  obtain ⟨-, hpost, -⟩ := List.pairwise_append.mp ha
  have habove : post.filter (fun e => decide (e.1 ≤ region.1)) = [] := by
    refine List.filter_eq_nil_iff.mpr fun e he => ?_
    have hlt := UInt64.lt_iff_toNat_lt.mp ((List.pairwise_cons.mp hpost).1 e he)
    simp only [decide_eq_true_eq, UInt64.le_iff_toNat_le]
    omega
  simp [regionBelow?, hsplit, habove]

theorem locate_base (ha : s.regions.Ascending) (hr : r ∈ s.ranges)
    (hbound : r.base.toNat + r.length < wordLimit) (hn : n ≤ r.length) :
    ∃ region, s.locate r.base n = .ok (some region) := by
  obtain ⟨region, hregion, rfl⟩ := List.mem_map.mp hr
  refine ⟨region, locate_eq_some.mpr ⟨regionBelow?_base ha hregion, hbound, ?_⟩⟩
  exact Nat.add_le_add_left hn _

/-- What is read depends on the region that the access goes to. -/
theorem read_congr (h : s'.regionBelow? a = s.regionBelow? a) : s'.read a n = s.read a n := by
  simp only [read, locate, h]

theorem read_of_regions (h : s'.regions = s.regions) : s'.read a n = s.read a n :=
  read_congr (by rw [regionBelow?, regionBelow?, h])

theorem read_take (h : s.read a n = .ok code) (hk : k ≤ n) : s.read a k = .ok (code.take k) := by
  obtain ⟨region, hl, rfl⟩ := read_eq_ok.mp h
  obtain ⟨hbelow, hbound, hroom⟩ := locate_eq_some.mp hl
  refine read_eq_ok.mpr ⟨region, locate_eq_some.mpr ⟨hbelow, hbound, by omega⟩, ?_⟩
  rw [List.take_take, Nat.min_eq_left hk]

theorem read_prefix (h : s.read a k = .ok code) (h' : s.read a n = .ok window) (hk : k ≤ n) :
    code <+: window := by
  have hcode := read_take h' hk
  rw [h] at hcode
  cases hcode
  exact List.take_prefix k window

/-- Where no region begins in between, an access some bytes further on goes to the same region. -/
theorem read_drop (h : s.read a n = .ok code) (hk : k ≤ n)
    (hnone : ∀ t ∈ s.ranges, a.toNat < t.base.toNat → a.toNat + k < t.base.toNat) :
    s.read (a + UInt64.ofNat k) (n - k) = .ok (code.drop k) := by
  obtain ⟨region, hl, rfl⟩ := read_eq_ok.mp h
  obtain ⟨hbelow, hbound, hroom⟩ := locate_eq_some.mp hl
  have hle := UInt64.le_iff_toNat_le.mp (regionBelow?_mem hbelow).2
  have hlater : (a + UInt64.ofNat k).toNat = a.toNat + k := toNat_add_ofNat (by omega)
  have hsame : s.regionBelow? (a + UInt64.ofNat k) = s.regionBelow? a := by
    unfold regionBelow?
    congr 1
    refine List.filter_congr fun e he => ?_
    have := hnone _ (mem_ranges he)
    simp only [rangeOf] at this
    simp only [UInt64.le_iff_toNat_le, hlater, decide_eq_decide]
    omega
  refine read_eq_ok.mpr ⟨region, locate_eq_some.mpr ⟨hsame.trans hbelow, hbound, by omega⟩, ?_⟩
  rw [List.drop_take, List.drop_drop, hlater, Nat.sub_add_comm hle]

theorem take_drop_overwrite {data : Bytes} {position : Nat}
    (h : position + bytes.length ≤ data.length) :
    ((overwrite data position bytes).drop position).take bytes.length = bytes := by
  have hfront : (data.take position).length = position := by
    rw [List.length_take]
    omega
  rw [overwrite, List.append_assoc, List.drop_left' hfront, List.take_left]

theorem ranges_alter (s' : Space) (ha : s.regions.Ascending) (hr : region ∈ s.regions) {data : Bytes}
    (hd : data.length = region.2.length)
    (h : s'.regions = s.regions.alter region.1 fun _ => data) : s'.ranges = s.ranges := by
  obtain ⟨pre, post, hpre, hpost, hsplit⟩ := Table.exists_split ha region.1
  rw [Table.get?_of_mem ha hr] at hsplit
  rw [ranges, h, hsplit, Table.alter_split hpre hpost, ranges, hsplit]
  simp [Table.single, rangeOf, hd]

/-- What a write does to the regions that accesses go to. -/
theorem write_regionBelow? (ha : s.regions.Ascending) (h : s.write a bytes = .ok s') :
    s'.ranges = s.ranges ∧ ∃ region, s.locate a bytes.length = .ok (some region) ∧
      ∀ x below, s.regionBelow? x = some below → s'.regionBelow? x = some (below.1,
        if below.1 = region.1 then overwrite region.2 (a.toNat - region.1.toNat) bytes
        else below.2) := by
  obtain ⟨found, hl, h⟩ := Attempt.bind_eq_ok.mp h
  cases found with
  | none => cases h
  | some region =>
    cases h
    obtain ⟨hbelow, -, hroom⟩ := locate_eq_some.mp hl
    obtain ⟨hmem, hle⟩ := regionBelow?_mem hbelow
    rw [UInt64.le_iff_toNat_le] at hle
    have hlen : (overwrite region.2 (a.toNat - region.1.toNat) bytes).length = region.2.length :=
      length_overwrite (by omega)
    have hranges := ranges_alter ⟨_, s.next, s.events⟩ ha hmem hlen rfl
    refine ⟨hranges, region, hl, fun x below hx => ?_⟩
    have hmap := regionBelow?_map s x
    rw [← hranges, ← regionBelow?_map, hx] at hmap
    obtain ⟨below', hx', hrange⟩ := Option.map_eq_some_iff.mp hmap.symm
    have hbase : below'.1 = below.1 := congrArg Range.base hrange
    rw [hx', ← hbase]
    refine congrArg some (Prod.ext rfl ?_)
    have hget := Table.get?_of_mem ha.alter (regionBelow?_mem hx').1
    by_cases hk : below'.1 = region.1
    · rw [if_pos hk]
      rw [hk, Table.get?_alter_self ha] at hget
      exact (Option.some.inj hget).symm
    · rw [if_neg hk]
      rw [Table.get?_alter_of_ne hk, hbase, Table.get?_of_mem ha (regionBelow?_mem hx).1] at hget
      exact (Option.some.inj hget).symm

theorem patch_ranges (ha : s.regions.Ascending) (h : patch a bytes room s = .ok saved s') :
    s'.ranges = s.ranges := by
  obtain ⟨written, hwrite, rfl⟩ := patch_write h
  exact (write_regionBelow? ha hwrite).1

/-- What a patch writes is read back. -/
theorem patch_read (ha : s.regions.Ascending) (h : patch a bytes room s = .ok saved s') :
    s'.read a bytes.length = .ok bytes := by
  obtain ⟨written, hwrite, rfl⟩ := patch_write h
  obtain ⟨-, region, hl, hbelow⟩ := write_regionBelow? ha hwrite
  obtain ⟨hregion, hbound, hroom⟩ := locate_eq_some.mp hl
  have hle := UInt64.le_iff_toNat_le.mp (regionBelow?_mem hregion).2
  have hfits : a.toNat - region.1.toNat + bytes.length ≤ region.2.length := by omega
  have hnow := hbelow a region hregion
  rw [if_pos rfl] at hnow
  refine read_eq_ok.mpr ⟨_, locate_eq_some.mpr ⟨hnow, ?_, ?_⟩, (take_drop_overwrite hfits).symm⟩ <;>
    rw [length_overwrite hfits] <;> assumption

theorem patch_read_of_ne (ha : s.regions.Ascending) (h : patch a bytes room s = .ok saved s')
    (hb : s.regionBelow? b = some region)
    (hne : ∀ touched, s.locate a bytes.length = .ok (some touched) → touched.1 ≠ region.1) :
    s'.read b n = s.read b n := by
  obtain ⟨written, hwrite, rfl⟩ := patch_write h
  obtain ⟨-, touched, hl, hbelow⟩ := write_regionBelow? ha hwrite
  have hnow := hbelow b region hb
  rw [if_neg (hne touched hl).symm] at hnow
  exact read_congr (hnow.trans hb.symm)

theorem patch_base (ha : s.regions.Ascending) (hr : r ∈ s.ranges)
    (hbound : r.base.toNat + r.length < wordLimit) (hlen : code.length ≤ r.length) :
    ∃ s', patch r.base code none s = .ok [] s' := by
  obtain ⟨region, hlocate⟩ := locate_base ha hr hbound hlen
  unfold patch exchange write
  simp only [hlocate]
  exact ⟨_, rfl⟩

theorem registerTargets_base {offsets : List Nat} (ha : s.regions.Ascending) (hr : r ∈ s.ranges)
    (hbound : r.base.toNat + r.length < wordLimit) :
    registerTargets r offsets s = .ok () (s.log (.register r.base offsets)) := by
  obtain ⟨region, hlocate⟩ := locate_base ha hr hbound (Nat.le_refl _)
  unfold registerTargets
  rw [hlocate]

end Interpose.Space

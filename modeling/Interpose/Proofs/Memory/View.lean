import Interpose.Proofs.Memory.Layout
import Interpose.Proofs.Word
import Mathlib.Data.Multiset.AddSub

/-!
# What a space shows

The view of a space is what can be observed of it: which ranges are mapped, the byte at each
address and how many allocations are live. Each operation on a space that is laid out is one
operation on its view: mapping a range, unmapping it, or putting bytes at an address. Mapping a free
range, filling it and unmapping it again leaves no trace in the view.
-/

namespace Interpose

@[ext]
structure View where
  ranges : Multiset Range
  byte : Address → Option UInt8
  /-- Allocations less those given back. -/
  live : Int

namespace View
variable {v : View} {r t : Range} {a x : Address} {bytes : Bytes}

def map (v : View) (r : Range) : View :=
  ⟨r ::ₘ v.ranges, fun x => if r.Holds x then some 0 else v.byte x, v.live + 1⟩

def unmap (v : View) (r : Range) : View :=
  ⟨v.ranges.erase r, fun x => if r.Holds x then none else v.byte x, v.live - 1⟩

def put (v : View) (a : Address) (bytes : Bytes) : View :=
  { v with byte := fun x =>
      if (⟨a, bytes.length⟩ : Range).Holds x then bytes[x.toNat - a.toNat]? else v.byte x }

def Free (v : View) (r : Range) : Prop := ∀ x, r.Holds x → v.byte x = none

@[simp] theorem map_ranges : (v.map r).ranges = r ::ₘ v.ranges := rfl
@[simp] theorem map_live : (v.map r).live = v.live + 1 := rfl
@[simp] theorem unmap_ranges : (v.unmap r).ranges = v.ranges.erase r := rfl
@[simp] theorem unmap_live : (v.unmap r).live = v.live - 1 := rfl
@[simp] theorem put_ranges : (v.put a bytes).ranges = v.ranges := rfl
@[simp] theorem put_live : (v.put a bytes).live = v.live := rfl

theorem map_byte_of_not (h : ¬ r.Holds x) : (v.map r).byte x = v.byte x := if_neg h

theorem unmap_byte_of_not (h : ¬ r.Holds x) : (v.unmap r).byte x = v.byte x := if_neg h

theorem unmap_byte_of_holds (h : r.Holds x) : (v.unmap r).byte x = none := if_pos h

theorem put_byte_of_not (h : ¬ (⟨a, bytes.length⟩ : Range).Holds x) :
    (v.put a bytes).byte x = v.byte x := if_neg h

theorem put_byte_of_holds (h : (⟨a, bytes.length⟩ : Range).Holds x) :
    (v.put a bytes).byte x = bytes[x.toNat - a.toNat]? := if_pos h

end View

namespace Space
variable {s s' : Space} {limits : SpaceLimits} {q : Request} {r t : Range} {a x : Address}
  {n : Nat} {bytes saved : Bytes} {room : Option Nat} {e : Failure}

def view (s : Space) : View where
  ranges := s.ranges
  byte := s.byteAt?
  live := (s.allocationCount : Int) - s.freeCount

@[simp] theorem view_byte : s.view.byte a = s.byteAt? a := rfl

theorem mem_view_ranges : r ∈ s.view.ranges ↔ r ∈ s.ranges := Multiset.mem_coe

theorem free_of_apart (h : ∀ t ∈ s.ranges, r.Apart t) : s.view.Free r := by
  intro x hx
  exact byteAt?_eq_none fun t ht => (h t ht).not_holds hx

/-- Mapped ranges that are listed apart do not overlap. -/
theorem Laid.apart_of_add {l m : Multiset Range} (hs : s.Laid) (h : s.view.ranges = l + m)
    (hr : r ∈ l) (ht : t ∈ m) : r.Apart t := by
  induction l using Quotient.inductionOn with | _ l =>
  induction m using Quotient.inductionOn with | _ m =>
  have hp : s.ranges.Perm (l ++ m) := Multiset.coe_eq_coe.mp h
  have hpair := (hp.pairwise_iff fun h => Range.Apart.symm h).mp hs.apart
  exact (List.pairwise_append.mp hpair).2.2 r hr t ht

theorem region_eq (hs : s.Orderly) (hs' : s'.Orderly) (hb : s.byteAt? = s'.byteAt?)
    {region region' : Address × Bytes} (hr : region ∈ s.regions) (hr' : region' ∈ s'.regions)
    (h : rangeOf region = rangeOf region') : region = region' := by
  obtain ⟨hbase, hlen⟩ : region.1 = region'.1 ∧ region.2.length = region'.2.length := by
    simpa [rangeOf] using h
  refine Prod.ext hbase (List.ext_getElem hlen fun i hi hi' => ?_)
  have hbound := hs.bounded _ (mem_ranges hr)
  simp only [rangeOf] at hbound
  have hx : (region.1 + UInt64.ofNat i).toNat = region.1.toNat + i := toNat_add_ofNat (by omega)
  have hholds : (rangeOf region).Holds (region.1 + UInt64.ofNat i) := by
    simp only [Range.Holds, rangeOf]
    omega
  have hleft := byteAt?_of_mem hs.laid hr hholds
  have hright := byteAt?_of_mem hs'.laid hr' (h ▸ hholds)
  rw [hb, hright, ← hbase, hx, Nat.add_sub_cancel_left, List.getElem?_eq_getElem hi,
    List.getElem?_eq_getElem hi'] at hleft
  exact (Option.some.inj hleft).symm

theorem ranges_eq (hs : s.Laid) (hs' : s'.Laid) (h : s.view.ranges = s'.view.ranges) :
    s.ranges = s'.ranges := by
  have hperm : s.ranges.Perm s'.ranges := Multiset.coe_eq_coe.mp h
  refine List.Perm.eq_of_pairwise (fun r t hr _ hrt htr => ?_) hs.ascending hs'.ascending hperm
  have := hs.nonempty r hr
  omega

/-- Orderly spaces with the same ranges and the same bytes have the same regions. -/
theorem regions_eq (hs : s.Orderly) (hs' : s'.Orderly) (hr : s.view.ranges = s'.view.ranges)
    (hb : s.byteAt? = s'.byteAt?) : s.regions = s'.regions := by
  have hranges := ranges_eq hs.laid hs'.laid hr
  have hlen : s.regions.length = s'.regions.length := by
    simpa [ranges] using congrArg List.length hranges
  refine List.ext_getElem hlen fun i hi hi' => ?_
  refine region_eq hs hs' hb (List.getElem_mem hi) (List.getElem_mem hi') ?_
  have := List.getElem_of_eq hranges (i := i) (by simpa [ranges] using hi)
  simpa [ranges] using this

theorem liveCount_eq (h : s.view.live = s'.view.live) : s.liveCount = s'.liveCount := by
  simp only [view] at h
  unfold liveCount
  by_cases hle : s.freeCount ≤ s.allocationCount
  · have hle' : s'.freeCount ≤ s'.allocationCount := by omega
    rw [if_pos hle, if_pos hle', Except.ok.injEq]
    omega
  · have hle' : ¬ s'.freeCount ≤ s'.allocationCount := by omega
    rw [if_neg hle, if_neg hle']

theorem read_eq_ok : s.read a n = .ok code ↔ ∃ region, s.locate a n = .ok (some region) ∧
    code = (region.2.drop (a.toNat - region.1.toNat)).take n := by
  constructor
  · intro h
    obtain ⟨found, hl, h⟩ := Attempt.bind_eq_ok.mp h
    cases found with
    | none => cases h
    | some region =>
      cases h
      exact ⟨region, hl, rfl⟩
  · rintro ⟨region, hl, rfl⟩
    exact Attempt.bind_eq_ok.mpr ⟨_, hl, rfl⟩

theorem read_ok (hs : s.Laid) (h : s.read a n = .ok bytes) :
    bytes.length = n ∧ ∀ x, (⟨a, n⟩ : Range).Holds x → bytes[x.toNat - a.toNat]? = s.byteAt? x := by
  obtain ⟨region, hl, rfl⟩ := read_eq_ok.mp h
  obtain ⟨hm, hw⟩ := locate_some hl
  have ⟨hlo, hhi⟩ := hw
  simp only [rangeOf] at hlo hhi
  constructor
  · rw [List.length_take, List.length_drop]
    omega
  · intro x hx
    rw [byteAt?_of_mem hs hm (hx.of_within hw), List.getElem?_take, List.getElem?_drop]
    obtain ⟨hxl, hxh⟩ := hx
    simp only at hxl hxh
    rw [if_pos (by omega)]
    congr 1
    omega

theorem read_within (hs : s.Laid) (ht : t ∈ s.ranges)
    (hbound : t.base.toNat + t.length < wordLimit) (hn : 0 < n)
    (hw : (⟨a, n⟩ : Range).Within t) : ∃ bytes, s.read a n = .ok bytes := by
  obtain ⟨region, hm, rfl⟩ := List.mem_map.mp ht
  exact ⟨_, read_eq_ok.mpr ⟨region, locate_within hs hm hn hbound hw, rfl⟩⟩

theorem getElem?_overwrite {data : Bytes} {position i : Nat}
    (h : position + bytes.length ≤ data.length) : (overwrite data position bytes)[i]? =
      if position ≤ i ∧ i < position + bytes.length then bytes[i - position]? else data[i]? := by
  have ht : (data.take position).length = position := by
    rw [List.length_take]
    omega
  unfold overwrite
  rw [List.append_assoc, List.getElem?_append, ht]
  by_cases hi : i < position
  · rw [if_pos hi, if_neg (by omega), List.getElem?_take_of_lt hi]
  · rw [if_neg hi, List.getElem?_append]
    by_cases hb : i - position < bytes.length
    · rw [if_pos hb, if_pos (by omega)]
    · rw [if_neg hb, if_neg (by omega), List.getElem?_drop]
      congr 1
      omega

theorem length_overwrite {data : Bytes} {position : Nat}
    (h : position + bytes.length ≤ data.length) :
    (overwrite data position bytes).length = data.length := by
  simp only [overwrite, List.length_append, List.length_take, List.length_drop]
  omega

/-- Replacing the bytes of one region by as many others shows in that region only. -/
theorem byteAt?_replace (s' : Space) (hs : s.Laid) {region : Address × Bytes} {data : Bytes}
    (hr : region ∈ s.regions) (hd : data.length = region.2.length)
    (h : s'.regions = s.regions.alter region.1 fun _ => data) :
    s'.ranges = s.ranges ∧ ∀ x, s'.byteAt? x =
      if (rangeOf region).Holds x then data[x.toNat - region.1.toNat]? else s.byteAt? x := by
  obtain ⟨pre, post, hsplit, hpre, hpost⟩ := hs.exists_split hr
  have halter : s'.regions = pre ++ (region.1, data) :: post := by
    have := Table.alter_split (f := fun _ => data) (v := some region.2) hpre hpost
    rw [h, hsplit]
    simpa [Table.single] using this
  have hrange : rangeOf (region.1, data) = rangeOf region := by simp only [rangeOf, hd]
  have hranges : s'.ranges = s.ranges := by
    simp only [ranges, halter, hsplit, List.map_append, List.map_cons, hrange]
  refine ⟨hranges, fun x => ?_⟩
  by_cases hx : (rangeOf region).Holds x
  · have hm : (region.1, data) ∈ s'.regions := by simp [halter]
    rw [if_pos hx]
    exact byteAt?_of_mem (hs.of_ranges hranges) hm (hrange ▸ hx)
  · have hx' : ¬ (rangeOf (region.1, data)).Holds x := hrange ▸ hx
    rw [if_neg hx, byteAt?_eq, byteAt?_eq, halter, hsplit]
    simp only [List.findSome?_append, List.findSome?_cons, byteIn_eq_none hx, byteIn_eq_none hx']

theorem write_ok (hs : s.Laid) (h : s.write a bytes = .ok s') :
    s'.ranges = s.ranges ∧ s'.view = s.view.put a bytes ∧
      ∃ t ∈ s.ranges, (⟨a, bytes.length⟩ : Range).Within t := by
  obtain ⟨found, hl, h⟩ := Attempt.bind_eq_ok.mp h
  cases found with
  | none => cases h
  | some region =>
    cases h
    obtain ⟨hm, hw⟩ := locate_some hl
    have ⟨hlo, hhi⟩ := hw
    simp only [rangeOf] at hlo hhi
    have hroom : a.toNat - region.1.toNat + bytes.length ≤ region.2.length := by omega
    have hreplace := byteAt?_replace ⟨_, s.next, s.events⟩ hs hm (length_overwrite hroom) rfl
    refine ⟨hreplace.1, View.ext (congrArg Multiset.ofList hreplace.1) ?_ rfl, _, mem_ranges hm, hw⟩
    funext x
    refine (hreplace.2 x).trans ?_
    by_cases hp : (⟨a, bytes.length⟩ : Range).Holds x
    · rw [if_pos (hp.of_within hw), View.put_byte_of_holds hp, getElem?_overwrite hroom]
      simp only [Range.Holds] at hp
      rw [if_pos (by omega)]
      congr 1
      omega
    · rw [View.put_byte_of_not hp, view_byte]
      by_cases hx : (rangeOf region).Holds x
      · rw [if_pos hx, getElem?_overwrite hroom, byteAt?_of_mem hs hm hx]
        simp only [Range.Holds, rangeOf] at hp hx
        rw [if_neg (by omega)]
      · rw [if_neg hx]

theorem write_within (hs : s.Laid) (ht : t ∈ s.ranges)
    (hbound : t.base.toNat + t.length < wordLimit) (hb : 0 < bytes.length)
    (hw : (⟨a, bytes.length⟩ : Range).Within t) : ∃ s', s.write a bytes = .ok s' := by
  obtain ⟨region, hm, rfl⟩ := List.mem_map.mp ht
  simp only [write, locate_within hs hm hb hbound hw]
  exact ⟨_, rfl⟩

theorem log_patch_view : (s.log (.patch r)).view = s.view :=
  View.ext rfl rfl (by simp [view, log, allocationCount, freeCount])

theorem log_register_view {offsets : List Nat} : (s.log (.register a offsets)).view = s.view :=
  View.ext rfl rfl (by simp [view, log, allocationCount, freeCount])

/-- What a patch did. -/
structure Patched (s : Space) (a : Address) (bytes : Bytes) (s' : Space) : Prop where
  laid : s'.Laid
  ranges : s'.ranges = s.ranges
  view : s'.view = s.view.put a bytes
  within : ∃ t ∈ s.ranges, (⟨a, bytes.length⟩ : Range).Within t

theorem patch_ok (hs : s.Laid) (h : patch a bytes room s = .ok saved s') :
    Patched s a bytes s' ∧ (room.isSome → saved.length = bytes.length ∧
      ∀ x, (⟨a, bytes.length⟩ : Range).Holds x → saved[x.toNat - a.toNat]? = s.byteAt? x) := by
  unfold patch at h
  split at h
  · rename_i kept written hr
    cases h
    obtain ⟨_, -, hr⟩ := Attempt.bind_eq_ok.mp hr
    obtain ⟨_, hread, hr⟩ := Attempt.bind_eq_ok.mp hr
    obtain ⟨_, hwrite, hr⟩ := Attempt.bind_eq_ok.mp hr
    cases hr
    obtain ⟨hranges, hview, hwithin⟩ := write_ok hs hwrite
    refine ⟨⟨hs.of_ranges hranges, hranges, log_patch_view.trans hview, hwithin⟩, fun hroom => ?_⟩
    rw [replaced, if_pos hroom] at hread
    exact read_ok hs hread
  · cases h

theorem patch_error (h : patch a bytes room s = .error e s') : s' = s := by
  unfold patch at h
  split at h <;> cases h
  rfl

theorem patch_within (hs : s.Laid) (ht : t ∈ s.ranges)
    (hbound : t.base.toNat + t.length < wordLimit) (hb : 0 < bytes.length)
    (hw : (⟨a, bytes.length⟩ : Range).Within t) : ∃ s', patch a bytes none s = .ok [] s' := by
  obtain ⟨written, hwrite⟩ := write_within hs ht hbound hb hw
  refine ⟨written.log (.patch ⟨a, bytes.length⟩), ?_⟩
  simp [patch, exchange, replaced, checkBackup, hwrite, bind, Except.bind, pure, Except.pure]

theorem registerTargets_ok {offsets : List Nat} {u : Unit}
    (h : registerTargets r offsets s = .ok u s') : s'.ranges = s.ranges ∧ s'.view = s.view := by
  unfold registerTargets at h
  split at h <;> cases h
  exact ⟨rfl, log_register_view⟩

theorem registerTargets_error {offsets : List Nat}
    (h : registerTargets r offsets s = .error e s') : s' = s := by
  unfold registerTargets at h
  split at h <;> cases h <;> rfl

end Space

end Interpose

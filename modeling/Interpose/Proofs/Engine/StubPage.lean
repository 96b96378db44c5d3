import Interpose.Engine.StubPage
import Interpose.Proofs.Arch.Encoding
import Interpose.Proofs.Engine.AltEntry
import Mathlib.Data.List.Forall2

/-!
# Every slot has its own number

The stubs of all batches are made on one scratch page. Numbering it again leaves nothing of the
numbers before, so each allocation holds the template once for each of its slots, with the number of
that slot. The allocations do not overlap, so no two slots share a byte.
-/

namespace Interpose.StubPage

open Space

variable {limits : SpaceLimits} {s s' : Space} {template stub blank : Bytes}
  {page stubs : List Bytes} {offset size first count n k i j u v : Nat} {premultiply : Bool}
  {r : Range} {more : List Range}

section
variable {α : Type} {blocks : List (List α)} {block : List α}

/-- Behind blocks of one length, a position is found by the number of blocks in front of it. -/
theorem getElem?_flatten_of_length (hfront : ∀ b ∈ blocks.take k, b.length = n)
    (hblock : blocks[k]? = some block) (hj : j < block.length) :
    blocks.flatten[k * n + j]? = block[j]? := by
  induction blocks generalizing k with
  | nil => simp at hblock
  | cons head rest ih =>
    cases k with
    | zero =>
      obtain rfl : head = block := by simpa using hblock
      rw [List.flatten_cons, Nat.zero_mul, Nat.zero_add, List.getElem?_append_left hj]
    | succ k =>
      have hhead : head.length = n := hfront head (by simp)
      have hrest : ∀ b ∈ rest.take k, b.length = n := fun b hb => hfront b (by simp [hb])
      have hle : head.length ≤ (k + 1) * n + j := by
        rw [hhead, Nat.succ_mul]
        omega
      have hsub : (k + 1) * n + j - head.length = k * n + j := by
        rw [hhead, Nat.succ_mul]
        omega
      rw [List.flatten_cons, List.getElem?_append_right hle, hsub]
      exact ih hrest (by simpa using hblock)

end

theorem setField_eq : setField offset v stub = overwrite stub offset (leBytes 4 v) := by
  rw [setField, overwrite, length_leBytes]

theorem length_setField (h : offset + 4 ≤ stub.length) :
    (setField offset v stub).length = stub.length := by
  rw [setField_eq, length_overwrite (by rwa [length_leBytes])]

theorem getElem?_setField (h : offset + 4 ≤ stub.length) : (setField offset v stub)[j]? =
    if offset ≤ j ∧ j < offset + 4 then (leBytes 4 v)[j - offset]? else stub[j]? := by
  rw [setField_eq, getElem?_overwrite (by rwa [length_leBytes]), length_leBytes]

/-- A field that is written again keeps nothing of what it held. -/
theorem setField_setField (h : offset + 4 ≤ stub.length) :
    setField offset v (setField offset u stub) = setField offset v stub := by
  apply List.ext_getElem?
  intro j
  rw [getElem?_setField (by rwa [length_setField h]), getElem?_setField h, getElem?_setField h]
  split <;> rfl

theorem field_setField (h : offset + 4 ≤ stub.length) :
    ((setField offset v stub).drop offset).take 4 = leBytes 4 v := by
  have hfront : (stub.take offset).length = offset := by
    rw [List.length_take]
    omega
  rw [setField, List.append_assoc, List.drop_left' hfront, List.take_left' (length_leBytes ..)]

theorem length_blankStub (h : template.length ≤ size) :
    (blankStub template size).length = size := by
  rw [blankStub, List.length_append, List.length_replicate, Nat.add_sub_cancel' h]

theorem take_setField_blankStub (h : offset + 4 ≤ template.length) (hle : template.length ≤ size) :
    (setField offset v (blankStub template size)).take template.length =
      setField offset v template := by
  have hblank : offset + 4 ≤ (blankStub template size).length := by
    rw [length_blankStub hle]
    omega
  apply List.ext_getElem?
  intro j
  rw [List.getElem?_take, getElem?_setField hblank, getElem?_setField h]
  by_cases hj : j < template.length
  · rw [if_pos hj, blankStub, List.getElem?_append_left hj]
  · rw [if_neg hj, if_neg (by omega), List.getElem?_eq_none (by omega)]

/-- The stubs of slots from `first` on. -/
def numbered (offset : Nat) (premultiply : Bool) (blank : Bytes) (first count : Nat) : List Bytes :=
  (List.range count).map fun i => setField offset (fieldValue premultiply (first + i)) blank

/-- The stubs of a page differ from a blank one in their fields only. -/
def Clean (offset : Nat) (blank : Bytes) (page : List Bytes) : Prop :=
  ∀ stub ∈ page, stub.length = blank.length ∧
    ∀ v, setField offset v stub = setField offset v blank

theorem clean_replicate : Clean offset blank (List.replicate count blank) := by
  intro stub hstub
  rw [List.eq_of_mem_replicate hstub]
  exact ⟨rfl, fun _ => rfl⟩

theorem length_renumber : (renumber offset premultiply first count page).length = page.length := by
  simp only [renumber, List.length_append, List.length_mapIdx, List.length_take, List.length_drop]
  omega

theorem length_numbered : (numbered offset premultiply blank first count).length = count := by
  simp [numbered]

theorem length_of_mem_numbered (h : offset + 4 ≤ blank.length)
    (hstub : stub ∈ numbered offset premultiply blank first count) :
    stub.length = blank.length := by
  obtain ⟨i, -, rfl⟩ := List.mem_map.mp hstub
  exact length_setField h

theorem Clean.take_renumber (hclean : Clean offset blank page) (hcount : count ≤ page.length) :
    (renumber offset premultiply first count page).take count =
      numbered offset premultiply blank first count := by
  have hlen : ((page.take count).mapIdx fun i =>
      setField offset (fieldValue premultiply (first + i))).length = count := by
    rw [List.length_mapIdx, List.length_take_of_le hcount]
  rw [renumber, List.take_left' hlen]
  apply List.ext_getElem
  · rw [hlen, length_numbered]
  · intro i hi _
    have hi' : i < (page.take count).length := by simpa using hi
    have hmem : (page.take count)[i] ∈ page := List.mem_of_mem_take (List.getElem_mem hi')
    simpa [numbered] using (hclean _ hmem).2 (fieldValue premultiply (first + i))

/-- Whatever numbers a page had, it can be numbered again. -/
theorem Clean.renumber (hclean : Clean offset blank page) (h : offset + 4 ≤ blank.length) :
    Clean offset blank (renumber offset premultiply first count page) := by
  intro stub hstub
  rcases List.mem_append.mp hstub with hfront | hback
  · obtain ⟨i, hi, rfl⟩ := List.mem_mapIdx.mp hfront
    have hmem : (page.take count)[i] ∈ page := List.mem_of_mem_take (List.getElem_mem hi)
    obtain ⟨hlen, hsame⟩ := hclean _ hmem
    have hfits : offset + 4 ≤ ((page.take count)[i]).length := by rwa [hlen]
    constructor
    · rw [length_setField hfits, hlen]
    · intro v
      rw [setField_setField hfits, hsame]
  · exact hclean stub (List.mem_of_mem_drop hback)

/-- A mapped page holds stubs of one size. -/
structure Filled (size : Nat) (stubs : List Bytes) (r : Range) (s : Space) : Prop where
  mapped : r ∈ s.ranges
  length : r.length = stubs.length * size
  bounded : r.base.toNat + r.length < wordLimit
  bytes : ∀ x, r.Holds x → s.byteAt? x = stubs.flatten[x.toNat - r.base.toNat]?

theorem Filled.extended (h : Filled size stubs r s) (hs : s.Laid) (he : Extended s more s') :
    Filled size stubs r s' := by
  refine ⟨he.mem_of_mem h.mapped, h.length, h.bounded, fun x hx => ?_⟩
  have hmapped : s.byteAt? x ≠ none :=
    Option.isSome_iff_ne_none.mp ((byteAt?_isSome_iff hs).mpr ⟨r, h.mapped, hx⟩)
  rw [he.byte_of_mapped hmapped, h.bytes x hx]

theorem length_flatten (h : ∀ stub ∈ stubs, stub.length = size) :
    stubs.flatten.length = stubs.length * size := by
  rw [List.length_flatten, List.map_congr_left h, List.map_const', List.sum_replicate_nat]

theorem createPage_ok (hs : s.Laid) (hstubs : ∀ stub ∈ stubs, stub.length = size)
    (h : createPage (Space.system limits) size stubs s = .ok r s') :
    Extended s [r] s' ∧ Filled size stubs r s' := by
  obtain ⟨t, saved, v, u, halloc, hpatch, hregister⟩ := System.installing_steps h
  obtain ⟨ha, -⟩ := allocate_ok hs halloc
  have hp := (patch_ok ha.laid hpatch).1
  have hlen := length_flatten hstubs
  have hwithin : (⟨r.base, stubs.flatten.length⟩ : Range).Within r := by
    refine ⟨Nat.le_refl _, ?_⟩
    rw [hlen, ha.length]
  have hext := System.registerGuarded_ok
    (ha.extended.patch hp List.mem_cons_self hwithin) hregister
  obtain ⟨-, hview⟩ := System.registerGuarded_view hregister
  refine ⟨hext, hext.mem List.mem_cons_self, ha.length, ?_, ?_⟩
  · obtain ⟨-, -, -, hhigh⟩ := Request.accepts_eq_true.mp ha.accepted
    exact Nat.lt_of_le_of_lt hhigh (UInt64.toNat_lt _)
  · intro x hx
    have hput : (⟨r.base, stubs.flatten.length⟩ : Range).Holds x := by
      have hr : r.length = stubs.length * size := ha.length
      rwa [hlen, ← hr]
    rw [← view_byte, hview, hp.view, View.put_byte_of_holds hput]

/-- Memory is only given out under an alignment that makes sense. -/
theorem createPage_powerOfTwo (h : createPage (Space.system limits) size stubs s = .ok r s') :
    isPowerOfTwo (limits.guard.getD 8) = true := by
  obtain ⟨_, _, _, _, halloc, -⟩ := System.installing_steps h
  exact allocate_powerOfTwo halloc

theorem createPages_powerOfTwo {batches : List (Nat × Nat)} {made ranges : List Range}
    {table : List Address} (hne : batches ≠ [])
    (h : createPages (Space.system limits) offset size premultiply batches page made s =
      .ok (table, ranges) s') : isPowerOfTwo (limits.guard.getD 8) = true := by
  cases batches with
  | nil => exact (hne rfl).elim
  | cons batch rest =>
    obtain ⟨memory, t, hpage, -⟩ := Action.bind_eq_ok.mp h
    exact createPage_powerOfTwo (Action.guarded_eq_ok.mp hpage)

/-- Every batch of slots gets a page of its own with the stubs of its slots. -/
theorem createPages_ok {batches : List (Nat × Nat)} {made ranges : List Range}
    {table : List Address} (hs : s.Laid) (hclean : Clean offset blank page)
    (hblank : blank.length = size) (hfits : offset + 4 ≤ size)
    (hcount : ∀ b ∈ batches, b.2 ≤ page.length)
    (h : createPages (Space.system limits) offset size premultiply batches page made s =
      .ok (table, ranges) s') :
    Extended s ranges s' ∧
      List.Forall₂ (fun b r => Filled size (numbered offset premultiply blank b.1 b.2) r s')
        batches ranges ∧
      table = (List.zipWith (fun b r => stubSlots r.base size b.2) batches ranges).flatten := by
  subst hblank
  induction batches generalizing page s made table ranges with
  | nil =>
    obtain ⟨hpair, rfl⟩ := Action.pure_eq_ok.mp h
    obtain ⟨rfl, rfl⟩ := Prod.mk.inj hpair
    exact ⟨.refl hs, .nil, rfl⟩
  | cons batch rest ih =>
    obtain ⟨first, count⟩ := batch
    obtain ⟨hfirst, hrest⟩ := List.forall_mem_cons.mp hcount
    obtain ⟨memory, t, hpage, h⟩ := Action.bind_eq_ok.mp h
    obtain ⟨⟨below, others⟩, w, hmore, h⟩ := Action.bind_eq_ok.mp h
    obtain ⟨hpair, rfl⟩ := Action.pure_eq_ok.mp h
    obtain ⟨rfl, rfl⟩ := Prod.mk.inj hpair
    have hpage := Action.guarded_eq_ok.mp hpage
    rw [hclean.take_renumber hfirst] at hpage
    obtain ⟨hext, hfilled⟩ :=
      createPage_ok hs (fun _ => length_of_mem_numbered hfits) hpage
    obtain ⟨hext', hall, htable⟩ := ih hext.laid (hclean.renumber hfits)
      (fun b hb => by rw [length_renumber]; exact hrest b hb) hmore
    refine ⟨hext.trans hext', .cons (hfilled.extended hext.laid hext') hall, ?_⟩
    rw [htable, List.zipWith_cons_cons, List.flatten_cons]

theorem Filled.slot (h : Filled size stubs r s) (hj : j < stubs.length) :
    (r.base + UInt64.ofNat (j * size)).toNat = r.base.toNat + j * size ∧
      j * size + size ≤ r.length := by
  have hroom : j * size + size ≤ r.length := by
    rw [h.length, ← Nat.succ_mul]
    exact Nat.mul_le_mul_right size hj
  have hbound := h.bounded
  refine ⟨toNat_add_ofNat ?_, hroom⟩
  by_cases hzero : size = 0
  · subst hzero
    omega
  · omega

theorem Filled.read (h : Filled size stubs r s) (hs : s.Laid)
    (hsizes : ∀ stub ∈ stubs, stub.length = size) (hstub : stubs[j]? = some stub) (hn : 0 < n)
    (hle : n ≤ size) : s.read (r.base + UInt64.ofNat (j * size)) n = .ok (stub.take n) := by
  obtain ⟨hj, -⟩ := List.getElem?_eq_some_iff.mp hstub
  obtain ⟨hslot, hroom⟩ := h.slot hj
  have hlen : stub.length = size := hsizes stub (List.mem_of_getElem? hstub)
  have hbound := h.bounded
  have hwithin : (⟨r.base + UInt64.ofNat (j * size), n⟩ : Range).Within r := by
    simp only [Range.Within, hslot]
    omega
  obtain ⟨bytes, hread⟩ := read_within hs h.mapped hbound hn hwithin
  obtain ⟨hbytes, hshown⟩ := read_ok hs hread
  rw [hread]
  congr 1
  apply List.ext_getElem?
  intro m
  rw [List.getElem?_take]
  split
  · rename_i hm
    have hx := toNat_add_ofNat (a := r.base + UInt64.ofNat (j * size)) (m := m) (by omega)
    have hholds : (⟨r.base + UInt64.ofNat (j * size), n⟩ : Range).Holds
        (r.base + UInt64.ofNat (j * size) + UInt64.ofNat m) := by
      simp only [Range.Holds, hx]
      omega
    have hshow := hshown _ hholds
    have hfront : ∀ b ∈ stubs.take j, b.length = size := fun b hb =>
      hsizes b (List.mem_of_mem_take hb)
    rw [h.bytes _ (hholds.of_within hwithin), hx, Nat.add_sub_cancel_left, hslot, Nat.add_assoc,
      Nat.add_sub_cancel_left, getElem?_flatten_of_length hfront hstub (by omega)] at hshow
    exact hshow
  · rename_i hm
    exact List.getElem?_eq_none (by omega)

section
variable {perPage : Nat}

theorem length_batches : (batches perPage n).length = n ⌈/⌉ perPage := by
  rw [batches, List.length_map, List.length_range, Nat.ceilDiv_eq_add_pred_div]

theorem getElem_batches (h : k < (batches perPage n).length) :
    (batches perPage n)[k] = (k * perPage, min perPage (n - k * perPage)) := by
  simp [batches]

theorem count_le_of_mem_batches {b : Nat × Nat} (hb : b ∈ batches perPage n) :
    b.2 ≤ min perPage n := by
  obtain ⟨k, -, rfl⟩ := List.mem_map.mp hb
  dsimp only
  omega

theorem sum_batches (h : 0 < perPage) : ((batches perPage n).map Prod.snd).sum = n := by
  have hsum (m : Nat) : ((List.range m).map fun k => min perPage (n - k * perPage)).sum =
      min n (m * perPage) := by
    induction m with
    | zero => simp
    | succ m ih =>
      rw [List.range_succ, List.map_append, List.sum_append, ih, Nat.succ_mul]
      simp only [List.map_cons, List.map_nil, List.sum_singleton]
      omega
  have hall : n ≤ n ⌈/⌉ perPage * perPage := by
    rw [Nat.mul_comm]
    exact le_smul_ceilDiv h
  rw [batches, List.map_map, ← Nat.ceilDiv_eq_add_pred_div]
  exact (hsum _).trans (Nat.min_eq_left hall)

theorem div_lt_batches (hK : 0 < perPage) (hi : i < n) :
    i / perPage < (batches perPage n).length := by
  rw [length_batches, Nat.div_lt_iff_lt_mul hK, Nat.mul_comm]
  exact Nat.lt_of_lt_of_le hi (le_smul_ceilDiv hK)

theorem mod_lt_count (hK : 0 < perPage) (hi : i < n) :
    i % perPage < min perPage (n - i / perPage * perPage) := by
  have hmod := Nat.mod_lt i hK
  have hdiv := Nat.div_add_mod' i perPage
  omega

theorem getElem?_numbered (offset : Nat) (premultiply : Bool) (blank : Bytes) (hK : 0 < perPage)
    (hi : i < n) : (numbered offset premultiply blank (i / perPage * perPage)
      (min perPage (n - i / perPage * perPage)))[i % perPage]? =
        some (setField offset (fieldValue premultiply i) blank) := by
  rw [numbered, List.getElem?_map, List.getElem?_range (mod_lt_count hK hi), Option.map_some,
    Nat.div_add_mod']

variable {ranges : List Range}

/-- What holds of every batch and its page holds of a page and the slots dealt to it. -/
theorem forall₂_batches {P : Nat × Nat → Range → Prop}
    (hall : List.Forall₂ P (batches perPage n) ranges) (hr : ranges[k]? = some r) :
    P (k * perPage, min perPage (n - k * perPage)) r := by
  obtain ⟨hlen, hget⟩ := List.forall₂_iff_get.mp hall
  obtain ⟨hk, rfl⟩ := List.getElem?_eq_some_iff.mp hr
  have hpage := hget k (hlen ▸ hk) hk
  simpa only [List.get_eq_getElem, getElem_batches] using hpage

theorem filled_page (hall : List.Forall₂ (fun b r => Filled size
      (numbered offset premultiply blank b.1 b.2) r s) (batches perPage n) ranges)
    (hr : ranges[k]? = some r) : Filled size (numbered offset premultiply blank (k * perPage)
      (min perPage (n - k * perPage))) r s :=
  forall₂_batches hall hr

theorem exists_page (hK : 0 < perPage) (hi : i < n)
    (hlen : (batches perPage n).length = ranges.length) : ∃ r, ranges[i / perPage]? = some r := by
  have hk := div_lt_batches hK hi
  rw [hlen] at hk
  exact ⟨_, List.getElem?_eq_getElem hk⟩

theorem getElem?_table (hK : 0 < perPage) (hi : i < n) (hr : ranges[i / perPage]? = some r) :
    (List.zipWith (fun b r => stubSlots r.base size b.2) (batches perPage n) ranges).flatten[i]? =
      some (r.base + UInt64.ofNat (i % perPage * size)) := by
  have hk := div_lt_batches hK hi
  obtain ⟨hk', hr'⟩ := List.getElem?_eq_some_iff.mp hr
  have hblock : (List.zipWith (fun b r => stubSlots r.base size b.2) (batches perPage n)
      ranges)[i / perPage]? =
        some (stubSlots r.base size (min perPage (n - i / perPage * perPage))) := by
    rw [List.getElem?_zipWith, List.getElem?_eq_getElem hk, hr, getElem_batches]
  have hcount := mod_lt_count hK hi
  have hfront : ∀ b ∈ (List.zipWith (fun b r => stubSlots r.base size b.2) (batches perPage n)
      ranges).take (i / perPage), b.length = perPage := by
    intro b hb
    obtain ⟨m, hm, rfl⟩ := List.mem_take_iff_getElem.mp hb
    have hlt : m < i / perPage := by omega
    have hfull : (m + 1) * perPage ≤ i / perPage * perPage := Nat.mul_le_mul_right perPage hlt
    have hdiv := Nat.div_mul_le_self i perPage
    rw [Nat.succ_mul] at hfull
    simp only [List.getElem_zipWith, getElem_batches, stubSlots, stubOffsets, List.length_map,
      List.length_range]
    omega
  have hlook := getElem?_flatten_of_length hfront hblock (j := i % perPage)
    (by simpa [stubSlots, stubOffsets] using hcount)
  rw [Nat.div_add_mod'] at hlook
  rw [hlook]
  simp [stubSlots, stubOffsets, hcount]

theorem length_table (hK : 0 < perPage) (hlen : (batches perPage n).length = ranges.length) :
    (List.zipWith (fun b r => stubSlots r.base size b.2) (batches perPage n)
      ranges).flatten.length = n := by
  rw [List.length_flatten, List.map_zipWith]
  have hcounts : List.zipWith (fun b r => (stubSlots r.base size b.2).length) (batches perPage n)
      ranges = (batches perPage n).map Prod.snd := by
    apply List.ext_getElem
    · simp [hlen]
    · intro k hk _
      simp [stubSlots, stubOffsets]
  rw [hcounts, sum_batches hK]

theorem lt_of_getElem?_table {slot : Address} (hK : 0 < perPage)
    (hlen : (batches perPage n).length = ranges.length)
    (h : (List.zipWith (fun b r => stubSlots r.base size b.2) (batches perPage n)
      ranges).flatten[i]? = some slot) : i < n := by
  have hi := (List.getElem?_eq_some_iff.mp h).1
  rwa [length_table hK hlen] at hi

end

section
variable {table : List Address} {ranges : List Range} {guard : Option Nat}

theorem checkField_ok {u : Unit} (h : checkField template offset = .ok u) :
    offset + 4 ≤ template.length := by
  unfold checkField at h
  split at h
  · cases h
  · obtain ⟨stop, hstop, h⟩ := Attempt.bind_eq_ok.mp h
    obtain ⟨-, rfl⟩ := Attempt.checked_eq_ok.mp hstop
    split at h
    · cases h
    · omega

/-- The room for one stub under the alignment that calls are guarded with. -/
def paddedLength (guard : Option Nat) (length : Nat) : Nat :=
  guard.elim length fun alignment => length ⌈/⌉ alignment * alignment

theorem stubSize_ok (hpower : isPowerOfTwo (guard.getD 8) = true)
    (h : stubSize guard template = .ok size) : size = paddedLength guard template.length := by
  cases guard with
  | none =>
    cases h
    rfl
  | some alignment => exact alignUp_eq hpower h

theorem createTable_ok (hn : n ≠ 0)
    (h : createTable (Space.system limits) n template offset premultiply s =
      .ok (table, ranges) s') :
    ∃ size, stubSize limits.guard template = .ok size ∧ offset + 4 ≤ template.length ∧
      fieldValue premultiply (n - 1) < 4294967296 ∧ 0 < limits.maxAllocation / size ∧
      createPages (Space.system limits) offset size premultiply
        (batches (limits.maxAllocation / size) n)
        (List.replicate (min (limits.maxAllocation / size) n) (blankStub template size)) [] s =
          .ok (table, ranges) s' := by
  obtain ⟨_, _, hlift, htable⟩ := Action.bind_eq_ok.mp h
  obtain ⟨hfield, rfl⟩ := Action.lift_eq_ok.mp hlift
  rw [if_neg hn] at htable
  split at htable
  · exact (Action.throw_eq_ok.mp htable).elim
  · rename_i hlast
    obtain ⟨size, _, hlift, hpages⟩ := Action.bind_eq_ok.mp htable
    obtain ⟨hsize, rfl⟩ := Action.lift_eq_ok.mp hlift
    dsimp only at hpages
    split at hpages
    · exact (Action.throw_eq_ok.mp hpages).elim
    · rename_i hroom
      exact ⟨size, hsize, checkField_ok hfield, Nat.lt_of_not_le hlast,
        Nat.pos_of_ne_zero hroom, hpages⟩

/-- Nothing is done to the memory until the pages are made. -/
theorem createTable_fails {e : Failure}
    (h : createTable (Space.system limits) n template offset premultiply s = .error e s') :
    s' = s ∨ ∃ size, stubSize limits.guard template = .ok size ∧ offset + 4 ≤ template.length ∧
      createPages (Space.system limits) offset size premultiply
        (batches (limits.maxAllocation / size) n)
        (List.replicate (min (limits.maxAllocation / size) n) (blankStub template size)) [] s =
          .error e s' := by
  rcases Action.bind_eq_error.mp h with hlift | ⟨_, t, hlift, htable⟩
  · exact Or.inl (Action.lift_eq_error.mp hlift).2
  obtain ⟨hfield, rfl⟩ := Action.lift_eq_ok.mp hlift
  split at htable
  · exact (Action.pure_eq_error.mp htable).elim
  split at htable
  · exact Or.inl (Action.throw_eq_error.mp htable).2
  rcases Action.bind_eq_error.mp htable with hlift | ⟨size, u, hlift, hpages⟩
  · exact Or.inl (Action.lift_eq_error.mp hlift).2
  obtain ⟨hsize, rfl⟩ := Action.lift_eq_ok.mp hlift
  dsimp only at hpages
  split at hpages
  · exact Or.inl (Action.throw_eq_error.mp hpages).2
  · exact Or.inr ⟨size, hsize, checkField_ok hfield, hpages⟩

theorem createTable_zero
    (h : createTable (Space.system limits) 0 template offset premultiply s =
      .ok (table, ranges) s') : table = [] ∧ ranges = [] := by
  obtain ⟨_, _, -, htable⟩ := Action.bind_eq_ok.mp h
  obtain ⟨hpair, -⟩ := Action.pure_eq_ok.mp htable
  exact Prod.mk.inj hpair

section
variable {σ α : Type} {sys : System σ} {f f' : Filling σ} {e : Failure}

namespace Filling
variable {x : Action σ α} {a : α}

theorem onMemory_ok (h : onMemory x f = .ok a f') :
    x f.memory = .ok a f'.memory ∧ f'.table = f.table := by
  unfold onMemory at h
  split at h <;> cases h
  exact ⟨‹_›, rfl⟩

theorem onMemory_error (h : onMemory x f = .error e f') :
    x f.memory = .error e f'.memory ∧ f'.table = f.table := by
  unfold onMemory at h
  split at h <;> cases h
  exact ⟨‹_›, rfl⟩

variable {x : Action (Filling σ) α} {entries left : List Address} {m m' : σ}

theorem onTable_ok (h : onTable entries x m = .ok (left, a) m') :
    x ⟨entries, m⟩ = .ok a ⟨left, m'⟩ := by
  unfold onTable at h
  split at h <;> cases h
  exact ‹_›

theorem onTable_error (h : onTable entries x m = .error e m') :
    ∃ left, x ⟨entries, m⟩ = .error e ⟨left, m'⟩ := by
  unfold onTable at h
  split at h <;> cases h
  exact ⟨_, ‹_›⟩

end Filling

/-- A filled table holds the entries that were made for it, and no others. -/
theorem fillTable_ok (h : fillTable sys template offset premultiply f = .ok ranges f') :
    createTable sys f.table.length template offset premultiply f.memory =
      .ok (f'.table, ranges) f'.memory := by
  obtain ⟨now, g, hget, hfill⟩ := Action.bind_eq_ok.mp h
  obtain ⟨rfl, rfl⟩ := Action.get_eq_ok.mp hget
  obtain ⟨⟨entries, made⟩, g', hstubs, hwrite⟩ := Action.bind_eq_ok.mp hfill
  obtain ⟨_, g'', hmodify, hpure⟩ := Action.bind_eq_ok.mp hwrite
  obtain ⟨rfl, rfl⟩ := Action.pure_eq_ok.mp hpure
  obtain rfl := Action.modify_eq_ok.mp hmodify
  exact (Filling.onMemory_ok hstubs).1

theorem fillTable_error (h : fillTable sys template offset premultiply f = .error e f') :
    createTable sys f.table.length template offset premultiply f.memory = .error e f'.memory ∧
      f'.table = f.table := by
  rcases Action.bind_eq_error.mp h with hget | ⟨now, g, hget, hfill⟩
  · exact (Action.get_eq_error.mp hget).elim
  obtain ⟨rfl, rfl⟩ := Action.get_eq_ok.mp hget
  rcases Action.bind_eq_error.mp hfill with hstubs | ⟨⟨entries, made⟩, g', -, hwrite⟩
  · exact Filling.onMemory_error hstubs
  · rcases Action.bind_eq_error.mp hwrite with hmodify | ⟨_, _, -, hpure⟩
    · exact (Action.modify_eq_error.mp hmodify).elim
    · exact (Action.pure_eq_error.mp hpure).elim

variable {isa : Isa} {s s' : σ}

theorem createProxy_ok {proxy : Proxy} (h : createProxy sys isa n s = .ok proxy s') :
    ∃ stub, isa.proxyStub? sys.os = some stub ∧
      createTable sys n stub.template stub.indexOffset stub.premultiplied s =
        .ok (proxy.table, proxy.allocations) s' := by
  unfold createProxy at h
  cases hstub : isa.proxyStub? sys.os with
  | none =>
    rw [hstub] at h
    exact (Action.throw_eq_ok.mp h).elim
  | some stub =>
    rw [hstub] at h
    obtain ⟨⟨table, ranges⟩, t, htable, h⟩ := Action.bind_eq_ok.mp h
    obtain ⟨rfl, rfl⟩ := Action.pure_eq_ok.mp h
    exact ⟨stub, rfl, by simpa using fillTable_ok (Filling.onTable_ok htable)⟩

theorem createProxy_fails (h : createProxy sys isa n s = .error e s') :
    s' = s ∨ ∃ stub, isa.proxyStub? sys.os = some stub ∧
      createTable sys n stub.template stub.indexOffset stub.premultiplied s = .error e s' := by
  unfold createProxy at h
  cases hstub : isa.proxyStub? sys.os with
  | none =>
    rw [hstub] at h
    exact .inl (Action.throw_eq_error.mp h).2
  | some stub =>
    rw [hstub] at h
    rcases Action.bind_eq_error.mp h with htable | ⟨_, t, -, hpure⟩
    · obtain ⟨left, hfill⟩ := Filling.onTable_error htable
      exact .inr ⟨stub, rfl, by simpa using (fillTable_error hfill).1⟩
    · exact (Action.pure_eq_error.mp hpure).elim

end

theorem fieldValue_eq (hi : i < n) (h : fieldValue premultiply (n - 1) < 4294967296) :
    fieldValue premultiply i = (if premultiply then 8 * i else i) ∧
      fieldValue premultiply i < 2 ^ 32 := by
  cases premultiply <;> simp [fieldValue, wordMax, wordLimit] at h ⊢ <;> omega

theorem length_le_paddedLength (hpower : isPowerOfTwo (guard.getD 8) = true) :
    n ≤ paddedLength guard n := by
  cases guard with
  | none => exact Nat.le_refl n
  | some alignment =>
    have hpos : 0 < alignment := Space.powerOfTwo_pos hpower
    rw [paddedLength, Option.elim_some, Nat.mul_comm]
    exact le_smul_ceilDiv hpos

/-- Places of one size at different positions of pages that do not overlap do not overlap. -/
theorem places_apart {perPage : Nat} (hpages : ranges.Pairwise Range.Apart)
    (hplaces : ∀ i slot, table[i]? = some slot → ∃ r, ranges[i / perPage]? = some r ∧
      slot.toNat = r.base.toNat + i % perPage * size ∧ i % perPage * size + size ≤ r.length) :
    table.Pairwise fun a b => (⟨a, size⟩ : Range).Apart ⟨b, size⟩ := by
  refine List.pairwise_iff_getElem.mpr fun i j hi hj hij => ?_
  obtain ⟨r, hr, hslot, hroom⟩ := hplaces i _ (List.getElem?_eq_getElem hi)
  obtain ⟨t, ht, hslot', hroom'⟩ := hplaces j _ (List.getElem?_eq_getElem hj)
  rcases Nat.lt_or_eq_of_le (Nat.div_le_div_right (c := perPage) (Nat.le_of_lt hij)) with hlt | heq
  · obtain ⟨hk, rfl⟩ := List.getElem?_eq_some_iff.mp hr
    obtain ⟨hk', rfl⟩ := List.getElem?_eq_some_iff.mp ht
    have hapart := List.pairwise_iff_getElem.mp hpages _ _ hk hk' hlt
    simp only [Range.Apart] at hapart ⊢
    omega
  · rw [heq, ht] at hr
    obtain rfl := Option.some.inj hr
    have hmod : i % perPage < j % perPage := by
      have hi' := Nat.div_add_mod i perPage
      have hj' := Nat.div_add_mod j perPage
      rw [heq] at hi'
      omega
    have hnext := Nat.mul_le_mul_right size hmod
    rw [Nat.succ_mul] at hnext
    simp only [Range.Apart]
    omega

/-- At an entry of a table, on the page that it is dealt to, the stub with its number is read. -/
theorem exists_stub {perPage : Nat} {slot : Address} (hs : s.Laid) (hK : 0 < perPage)
    (hfield : offset + 4 ≤ template.length) (hle : template.length ≤ size)
    (hall : List.Forall₂ (fun b r => Filled size
      (numbered offset premultiply (blankStub template size) b.1 b.2) r s)
      (batches perPage n) ranges)
    (hslot : (List.zipWith (fun b r => stubSlots r.base size b.2) (batches perPage n)
      ranges).flatten[i]? = some slot) :
    i < n ∧ ∃ r, ranges[i / perPage]? = some r ∧
      slot.toNat = r.base.toNat + i % perPage * size ∧ i % perPage * size + size ≤ r.length ∧
      s.read slot template.length =
        .ok (setField offset (fieldValue premultiply i) template) := by
  have hi : i < n := lt_of_getElem?_table hK hall.length_eq hslot
  obtain ⟨r, hr⟩ := exists_page hK hi hall.length_eq
  rw [getElem?_table hK hi hr] at hslot
  obtain rfl := Option.some.inj hslot
  have hfilled := filled_page hall hr
  have hcount := mod_lt_count hK hi
  obtain ⟨hplace, hroom⟩ := hfilled.slot (by rwa [length_numbered])
  have hblank : (blankStub template size).length = size := length_blankStub hle
  have hstub := getElem?_numbered offset premultiply (blankStub template size) hK hi
  have hsizes : ∀ stub ∈ numbered offset premultiply (blankStub template size)
      (i / perPage * perPage) (min perPage (n - i / perPage * perPage)), stub.length = size := by
    intro stub hmem
    rw [length_of_mem_numbered (by omega) hmem, hblank]
  have hread := hfilled.read hs hsizes hstub (by omega : 0 < template.length) hle
  rw [take_setField_blankStub hfield hle] at hread
  exact ⟨hi, r, hr, hplace, hroom, hread⟩

/-- The pages behind the entries of a table that has some. -/
theorem createTable_made (hs : s.Laid) (hn : n ≠ 0)
    (h : createTable (Space.system limits) n template offset premultiply s =
      .ok (table, ranges) s') :
    let size := paddedLength limits.guard template.length
    let perPage := limits.maxAllocation / size
    0 < perPage ∧ template.length ≤ size ∧ offset + 4 ≤ template.length ∧
      fieldValue premultiply (n - 1) < 4294967296 ∧ Extended s ranges s' ∧
      List.Forall₂ (fun b r => Filled size
        (numbered offset premultiply (blankStub template size) b.1 b.2) r s')
        (batches perPage n) ranges ∧
      table = (List.zipWith (fun b r => stubSlots r.base size b.2) (batches perPage n)
        ranges).flatten := by
  intro size perPage
  obtain ⟨padded, hsize, hfield, hlast, hK, hpages⟩ := createTable_ok hn h
  have hne : batches (limits.maxAllocation / padded) n ≠ [] :=
    List.ne_nil_of_length_pos (Nat.zero_lt_of_lt (div_lt_batches hK (Nat.pos_of_ne_zero hn)))
  have hpower := createPages_powerOfTwo hne hpages
  obtain rfl : padded = size := stubSize_ok hpower hsize
  have hle : template.length ≤ size := length_le_paddedLength hpower
  exact ⟨hK, hle, hfield, hlast,
    createPages_ok hs clean_replicate (length_blankStub hle) (by omega)
      (fun b hb => by rw [List.length_replicate]; exact count_le_of_mem_batches hb) hpages⟩

/-- Slot after slot of a filled table lies at its place on its page, with the template and its own
number there, and the places do not overlap. -/
theorem fillTable_correct {f f' : Filling Space} (hs : f.memory.Laid)
    (h : fillTable (Space.system limits) template offset premultiply f = .ok ranges f') :
    let n := f.table.length
    let size := paddedLength limits.guard template.length
    let perPage := limits.maxAllocation / size
    ranges.length = n ⌈/⌉ perPage ∧ f'.table.length = n ∧
      (∀ k r, ranges[k]? = some r → r.length = min perPage (n - k * perPage) * size) ∧
      (∀ i slot, f'.table[i]? = some slot →
        let number := if premultiply then 8 * i else i
        (∃ r, ranges[i / perPage]? = some r ∧
          slot.toNat = r.base.toNat + i % perPage * size) ∧
        number < 2 ^ 32 ∧ ∃ code, f'.memory.read slot template.length = .ok code ∧
          code.length = template.length ∧ leNat ((code.drop offset).take 4) = number ∧
          ∀ j, ¬ (offset ≤ j ∧ j < offset + 4) → code[j]? = template[j]?) ∧
      f'.table.Pairwise fun a b => (⟨a, size⟩ : Range).Apart ⟨b, size⟩ := by
  intro n size perPage
  have hmade := fillTable_ok h
  by_cases hn : f.table.length = 0
  · rw [hn] at hmade
    obtain ⟨htable, rfl⟩ := createTable_zero hmade
    simp [n, hn, htable]
  obtain ⟨hK, hle, hfield, hlast, hext, hall, htable⟩ := createTable_made hs hn hmade
  have hslots {i : Nat} {slot : Address} (hslot : f'.table[i]? = some slot) :=
    exists_stub hext.laid hK hfield hle hall (htable ▸ hslot)
  refine ⟨by rw [← hall.length_eq, length_batches], ?_, fun k r hr => ?_,
    fun i slot hslot => ?_, ?_⟩
  · rw [htable]
    exact length_table hK hall.length_eq
  · rw [(filled_page hall hr).length, length_numbered]
  · obtain ⟨hi, r, hr, hplace, -, hread⟩ := hslots hslot
    obtain ⟨hnumber, hbound⟩ := fieldValue_eq hi hlast
    refine ⟨⟨r, hr, hplace⟩, ?_, _, hread, length_setField hfield, ?_, fun j hj => ?_⟩
    · rwa [hnumber] at hbound
    · rw [field_setField hfield, leNat_leBytes, hnumber]
      exact Nat.mod_eq_of_lt (by rwa [hnumber] at hbound)
    · rw [getElem?_setField hfield, if_neg hj]
  · apply places_apart hext.pairwise
    intro i slot hslot
    obtain ⟨-, r, hr, hplace, hroom, -⟩ := hslots hslot
    exact ⟨r, hr, hplace, hroom⟩

/-- Six guarded stubs of 13 bytes, of which four fit an allocation: the last slot is the second of
the second page. -/
theorem fillTable_correct_guarded :
    let limits : SpaceLimits := { maxAllocation := 64, guard := some 16 }
    let template : Bytes := [0x48, 0x8B, 0x49, 0x08, 0x48, 0x8B, 0x01, 0xFF, 0xA0, 0, 0, 0, 0]
    let f : Filling Space := ⟨[1, 2, 3, 4, 5, 6], {}⟩
    ∃ ranges f', fillTable (Space.system limits) template 9 true f = .ok ranges f' ∧
      ranges.length = 2 ∧ f'.table.length = 6 ∧
      ∃ slot r code, f'.table[5]? = some slot ∧ ranges[1]? = some r ∧ r.length = 32 ∧
        slot.toNat = r.base.toNat + 16 ∧ f'.memory.read slot 13 = .ok code ∧
        leNat ((code.drop 9).take 4) = 40 := by
  intro limits template f
  have hlaid : f.memory.Laid := by constructor <;> decide
  have hrun : fillTable (Space.system limits) template 9 true f matches .ok .. := by
    decide +kernel
  cases h : fillTable (Space.system limits) template 9 true f with
  | error =>
    rw [h] at hrun
    cases hrun
  | ok ranges f' =>
    have hpadded : paddedLength limits.guard template.length = 16 := by
      simp [paddedLength, Nat.ceilDiv_eq_add_pred_div, limits, template]
    have hshare : limits.maxAllocation / 16 = 4 := by simp [limits]
    have hslots : f.table.length = 6 := rfl
    have hcorrect := fillTable_correct hlaid h
    simp only [hpadded, hshare, hslots, Nat.ceilDiv_eq_add_pred_div] at hcorrect
    obtain ⟨hpages, htable, hlengths, hslots, -⟩ := hcorrect
    have hslot : f'.table[5]? = some f'.table[5] := List.getElem?_eq_getElem (by omega)
    obtain ⟨⟨r, hr, hplace⟩, -, code, hread, -, hfield, -⟩ := hslots 5 _ hslot
    exact ⟨ranges, f', rfl, hpages, htable, _, r, code, hslot, hr, hlengths 1 r hr, hplace,
      hread, hfield⟩

end

end Interpose.StubPage

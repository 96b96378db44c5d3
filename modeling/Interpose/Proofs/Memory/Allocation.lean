import Interpose.Proofs.Memory.View
import Mathlib.Algebra.Order.Floor.Div

/-!
# Allocation

An allocation maps a free range that its request accepts; giving it back unmaps that range and
nothing else. A refused request changes nothing.
-/

namespace Interpose.Space
variable {s s' : Space} {limits : SpaceLimits} {q : Request} {r t : Range} {a : Address}
  {n : Nat} {e : Failure}

theorem meets_eq_false {base : Address} {stop : Nat} {regions : Table Address Bytes}
    (h : meets base stop regions = .ok false) :
    ∀ e ∈ regions, stop ≤ e.1.toNat ∨ e.1.toNat + e.2.length ≤ base.toNat := by
  induction regions with
  | nil => simp
  | cons region rest ih =>
    unfold meets at h
    refine List.forall_mem_cons.mpr ?_
    by_cases hb : region.1.toNat < stop
    · rw [if_pos hb] at h
      obtain ⟨limit, hlimit, h⟩ := Attempt.bind_eq_ok.mp h
      obtain ⟨-, rfl⟩ := Attempt.plus_eq_ok.mp hlimit
      split at h
      · cases h
      · exact ⟨Or.inr (by omega), ih h⟩
    · rw [if_neg hb] at h
      exact ⟨Or.inl (by omega), ih h⟩

theorem consider_ok {base : Nat} (h : s.consider q base = .ok (.inl a)) :
    a = UInt64.ofNat base ∧ q.accepts ⟨a, q.size⟩ = .ok true ∧
      meets a (base + q.size) s.regions = .ok false := by
  obtain ⟨accepted, hacc, h⟩ := Attempt.bind_eq_ok.mp h
  cases accepted with
  | false => cases h
  | true =>
    obtain ⟨met, hmeets, h⟩ := Attempt.bind_eq_ok.mp h
    cases met with
    | false =>
      cases h
      exact ⟨rfl, hacc, hmeets⟩
    | true =>
      obtain ⟨_, -, h⟩ := Attempt.bind_eq_ok.mp h
      obtain ⟨_, -, h⟩ := Attempt.bind_eq_ok.mp h
      cases h

theorem place_ok {base : Nat} (hb : base < wordLimit) (h : s.place q base = .ok a) :
    q.accepts ⟨a, q.size⟩ = .ok true ∧ ∀ t ∈ s.ranges, (⟨a, q.size⟩ : Range).Apart t := by
  induction base using place.induct s q with
  | case1 base e hc => simp [place, hc] at h
  | case2 base b hc =>
    rw [place, hc] at h
    cases h
    obtain ⟨rfl, hacc, hmeets⟩ := consider_ok hc
    refine ⟨hacc, fun t ht => ?_⟩
    obtain ⟨region, hm, rfl⟩ := List.mem_map.mp ht
    have := meets_eq_false hmeets region hm
    simp only [UInt64.toNat_ofNat_of_lt' hb, Range.Apart, rangeOf] at this ⊢
    omega
  | case3 base next hc hlt ih =>
    rw [place, hc] at h
    simp only [if_pos hlt] at h
    exact ih hlt.2 h
  | case4 base next hc hlt =>
    rw [place, hc] at h
    simp [hlt] at h

theorem validate_powerOfTwo {u : Unit} (h : q.validate = .ok u) :
    isPowerOfTwo q.alignment = true := by
  refine Classical.byContradiction fun hnot => ?_
  unfold Request.validate at h
  split at h
  · cases h
  · simp [hnot, Attempt.refuse] at h

theorem exists_twoPow (h : isPowerOfTwo n = true) : ∃ k, n = 2 ^ k := by
  simp only [isPowerOfTwo, Bool.and_eq_true, beq_iff_eq, Nat.one_shiftLeft] at h
  exact ⟨_, h.1⟩

theorem powerOfTwo_pos (h : isPowerOfTwo n = true) : 0 < n := by
  obtain ⟨k, rfl⟩ := exists_twoPow h
  exact Nat.two_pow_pos k

theorem powerOfTwo_dvd {m : Nat} (hm : isPowerOfTwo m = true) (hn : isPowerOfTwo n = true)
    (h : m ≤ n) : m ∣ n := by
  obtain ⟨k, rfl⟩ := exists_twoPow hm
  obtain ⟨l, rfl⟩ := exists_twoPow hn
  exact Nat.pow_dvd_pow 2 ((Nat.pow_le_pow_iff_right (by decide)).mp h)

theorem alignUp_lt {alignment m : Nat} (h : alignUp n alignment = .ok m) : m < wordLimit := by
  unfold alignUp at h
  split at h
  · cases h
  · cases h
    have := Nat.and_le_left (n := n + alignment - 1) (m := wordLimit - alignment)
    omega

theorem alignUp_eq {alignment m : Nat} (ha : isPowerOfTwo alignment = true)
    (h : alignUp n alignment = .ok m) : m = n ⌈/⌉ alignment * alignment := by
  obtain ⟨k, rfl⟩ := exists_twoPow ha
  unfold alignUp at h
  split at h
  · cases h
  · rename_i hfits
    obtain ⟨-, hfits⟩ := not_or.mp hfits
    have hword : wordLimit = 2 ^ 64 := rfl
    rw [hword] at hfits
    have hk : k < 64 := (Nat.pow_lt_pow_iff_right (by decide)).mp (by omega : 2 ^ k < 2 ^ 64)
    cases h
    rw [hword, and_sub_twoPow (by omega) (by omega), Nat.ceilDiv_eq_add_pred_div]

theorem findRoom_ok (h : s.findRoom limits q = .ok a) :
    0 < q.size ∧ q.size ≤ limits.maxAllocation ∧ q.accepts ⟨a, q.size⟩ = .ok true ∧
      ∀ t ∈ s.ranges, (⟨a, q.size⟩ : Range).Apart t := by
  obtain ⟨_, -, h⟩ := Attempt.bind_eq_ok.mp h
  obtain ⟨_, hvalid, h⟩ := Attempt.bind_eq_ok.mp h
  have hsize : 0 < q.size := by
    refine Nat.pos_of_ne_zero fun hz => ?_
    simp [Request.validate, hz, Attempt.refuse] at hvalid
  split at h
  · cases h
  · split at h
    · cases h
    · obtain ⟨start, hstart, h⟩ := Attempt.bind_eq_ok.mp h
      obtain ⟨hacc, hfree⟩ := place_ok (alignUp_lt hstart) h
      exact ⟨hsize, by omega, hacc, hfree⟩

def zeroed (r : Range) : Address × Bytes := (r.base, List.replicate r.length 0)

@[simp] theorem rangeOf_zeroed : rangeOf (zeroed r) = r := by simp [rangeOf, zeroed]

theorem byteIn_zeroed (hx : r.Holds a) : byteIn a (zeroed r) = some 0 := by
  rw [byteIn_of_holds (by rwa [rangeOf_zeroed]), zeroed, List.getElem?_replicate, if_pos]
  unfold Range.Holds at hx
  dsimp only
  omega

/-- A free range goes between the regions below and above it. -/
theorem insert_split (hs : s.Laid) (hn : 0 < r.length) (hf : ∀ t ∈ s.ranges, r.Apart t) :
    ∃ pre post, s.regions = pre ++ post ∧
      s.regions.insert r.base (List.replicate r.length 0) = pre ++ zeroed r :: post ∧
      (∀ region ∈ pre, region.1 < r.base) ∧ ∀ region ∈ post, r.base < region.1 := by
  obtain ⟨pre, post, hpre, hpost, hsplit⟩ := Table.exists_split hs.ascending_regions r.base
  have hfresh : Table.get? r.base s.regions = none := by
    refine Option.eq_none_iff_forall_ne_some.mpr fun data hd => ?_
    rw [hd] at hsplit
    have hm : (r.base, data) ∈ s.regions := by simp [hsplit, Table.single]
    have ha := hf _ (mem_ranges hm)
    have hlen := hs.nonempty _ (mem_ranges hm)
    simp only [Range.Apart, rangeOf] at ha hlen
    omega
  rw [hfresh] at hsplit
  refine ⟨pre, post, by simpa [Table.single] using hsplit, ?_, hpre, hpost⟩
  rw [hsplit]
  exact Table.alter_split hpre hpost

/-- A region in front of a new one ends in front of it, as the two do not overlap. -/
theorem insert_ascending {pre post : List (Address × Bytes)} (hs : s.Laid)
    (hf : ∀ t ∈ s.ranges, r.Apart t) (hsplit : s.regions = pre ++ post)
    (hpre : ∀ region ∈ pre, region.1 < r.base) (hpost : ∀ region ∈ post, r.base < region.1) :
    ((pre ++ zeroed r :: post).map rangeOf).Pairwise fun t u =>
      t.base.toNat + t.length ≤ u.base.toNat := by
  have ha := hs.ascending
  simp only [ranges, hsplit, List.map_append, List.map_cons, rangeOf_zeroed] at ha ⊢
  obtain ⟨h₁, h₂, h₃⟩ := List.pairwise_append.mp ha
  refine List.pairwise_append.mpr ⟨h₁, List.pairwise_cons.mpr ⟨fun t ht => ?_, h₂⟩,
    fun t ht u hu => ?_⟩
  · obtain ⟨region, hm, rfl⟩ := List.mem_map.mp ht
    have hlt := UInt64.lt_iff_toNat_lt.mp (hpost region hm)
    have hap := hf _ (mem_ranges (hsplit ▸ List.mem_append_right _ hm))
    simp only [Range.Apart, rangeOf] at hap hlt ⊢
    omega
  · rcases List.mem_cons.mp hu with rfl | hu
    · obtain ⟨region, hm, rfl⟩ := List.mem_map.mp ht
      have hlt := UInt64.lt_iff_toNat_lt.mp (hpre region hm)
      have hap := hf _ (mem_ranges (hsplit ▸ List.mem_append_left _ hm))
      simp only [Range.Apart, rangeOf] at hap hlt ⊢
      omega
    · exact h₃ t ht u hu

/-- Mapping a free range keeps a space laid out and shows in that range only. -/
theorem insert_free (hs : s.Laid) (hn : 0 < r.length) (hf : ∀ t ∈ s.ranges, r.Apart t)
    (h : s'.regions = s.regions.insert r.base (List.replicate r.length 0)) :
    s'.Laid ∧ s'.ranges.Perm (r :: s.ranges) ∧
      ∀ x, s'.byteAt? x = if r.Holds x then some 0 else s.byteAt? x := by
  obtain ⟨pre, post, hsplit, hinsert, hpre, hpost⟩ := insert_split hs hn hf
  rw [← h] at hinsert
  have hperm : s'.ranges.Perm (r :: s.ranges) := by
    simp only [ranges, hinsert, hsplit, List.map_append, List.map_cons, rangeOf_zeroed]
    exact List.perm_middle
  have hmem : ∀ t ∈ s'.ranges, t = r ∨ t ∈ s.ranges := fun t ht =>
    List.mem_cons.mp (hperm.mem_iff.mp ht)
  refine ⟨⟨?_, ?_⟩, hperm, fun x => ?_⟩
  · intro t ht
    rcases hmem t ht with rfl | ht
    · exact hn
    · exact hs.nonempty t ht
  · rw [ranges, hinsert]
    exact insert_ascending hs hf hsplit hpre hpost
  · by_cases hx : r.Holds x
    · have hnone : pre.findSome? (byteIn x) = none := findSome?_byteIn_eq_none fun e he =>
        (hf _ (mem_ranges (hsplit ▸ List.mem_append_left _ he))).not_holds hx
      rw [if_pos hx, byteAt?_eq, hinsert, List.findSome?_append, hnone, List.findSome?_cons,
        byteIn_zeroed hx]
      rfl
    · have hnone : byteIn x (zeroed r) = none := byteIn_eq_none (by rwa [rangeOf_zeroed])
      rw [if_neg hx, byteAt?_eq, byteAt?_eq, hinsert, hsplit]
      simp only [List.findSome?_append, List.findSome?_cons, hnone]

/-- What an allocation did. -/
structure Allocated (s : Space) (q : Request) (r : Range) (s' : Space) : Prop where
  laid : s'.Laid
  view : s'.view = s.view.map r
  apart : ∀ t ∈ s.ranges, r.Apart t
  length : r.length = q.size
  accepted : q.accepts r = .ok true

theorem view_mapped (hperm : s'.ranges.Perm (r :: s.ranges))
    (hbyte : ∀ x, s'.byteAt? x = if r.Holds x then some 0 else s.byteAt? x)
    (hevents : s'.events = s.events ++ [.allocate r]) : s'.view = s.view.map r := by
  refine View.ext (Multiset.coe_eq_coe.mpr hperm) (funext hbyte) ?_
  simp only [view, View.map, allocationCount, freeCount, hevents, List.countP_append,
    List.countP_singleton]
  simp
  omega

theorem findRoom_allocated {base : Address} (hs : s.Laid) (hroom : s.findRoom limits q = .ok base)
    (hregions : s'.regions = s.regions.insert base (List.replicate q.size 0))
    (hevents : s'.events = s.events ++ [.allocate ⟨base, q.size⟩]) :
    Allocated s q ⟨base, q.size⟩ s' := by
  obtain ⟨hsize, -, hacc, hfree⟩ := findRoom_ok hroom
  obtain ⟨hlaid, hperm, hbyte⟩ := insert_free hs hsize hfree hregions
  exact ⟨hlaid, view_mapped hperm hbyte hevents, hfree, rfl, hacc⟩

theorem allocate_ok (hs : s.Laid) (h : allocate limits q s = .ok r s') :
    Allocated s q r s' ∧ r.length ≤ limits.maxAllocation := by
  unfold allocate at h
  split at h
  · cases h
  · rename_i base hroom
    have hmax := (findRoom_ok hroom).2.1
    dsimp only at h
    split at h
    · cases h
      exact ⟨findRoom_allocated hs hroom rfl rfl, hmax⟩
    · split at h
      · cases h
      · cases h
        exact ⟨findRoom_allocated hs hroom rfl rfl, hmax⟩

/-- A failed allocation may leave a range mapped behind it, when it fails on what comes next. -/
theorem allocate_error (hs : s.Laid) (h : allocate limits q s = .error e s') :
    s' = s ∨ ∃ r, Allocated s q r s' := by
  unfold allocate at h
  split at h
  · cases h
    exact Or.inl rfl
  · rename_i base hroom
    dsimp only at h
    split at h
    · cases h
    · split at h
      · cases h
        exact Or.inr ⟨_, findRoom_allocated hs hroom rfl rfl⟩
      · cases h

theorem allocate_findRoom (h : allocate limits q s = .ok r s') :
    s.findRoom limits q = .ok r.base ∧ r = ⟨r.base, q.size⟩ := by
  unfold allocate at h
  split at h
  · cases h
  · rename_i base hroom
    dsimp only at h
    split at h
    · cases h
      exact ⟨hroom, rfl⟩
    · split at h <;> cases h
      exact ⟨hroom, rfl⟩

theorem allocate_accepted (h : allocate limits q s = .ok r s') : q.accepts r = .ok true := by
  obtain ⟨hroom, hr⟩ := allocate_findRoom h
  rw [hr]
  exact (findRoom_ok hroom).2.2.1

theorem allocate_powerOfTwo (h : allocate limits q s = .ok r s') :
    isPowerOfTwo q.alignment = true := by
  obtain ⟨_, -, hroom⟩ := Attempt.bind_eq_ok.mp (allocate_findRoom h).1
  obtain ⟨_, hvalid, -⟩ := Attempt.bind_eq_ok.mp hroom
  exact validate_powerOfTwo hvalid

theorem allocate_guarded {required : Nat} (h : allocate limits q s = .ok r s')
    (hguard : limits.guard = some required) (hexec : q.executable = true) :
    required ≤ q.alignment := by
  obtain ⟨_, hcheck, -⟩ := Attempt.bind_eq_ok.mp (allocate_findRoom h).1
  refine Nat.le_of_not_lt fun hlt => ?_
  simp [Request.checkGuard, hguard, hexec, hlt, Attempt.refuse] at hcheck

theorem allocate_refused {why : Error} (h : allocate limits q s = .error (.refused why) s') :
    s' = s := by
  unfold allocate at h
  split at h
  · cases h
    rfl
  · split at h
    · cases h
    · split at h
      · rename_i hup
        cases h
        unfold alignUp at hup
        split at hup <;> cases hup
      · cases h

/-- Giving back a mapped range unmaps exactly that range. -/
theorem release_view (hs : s.Laid) (hr : r ∈ s.ranges) :
    (release r s).Laid ∧ (release r s).view = s.view.unmap r := by
  obtain ⟨region, hm, rfl⟩ := List.mem_map.mp hr
  obtain ⟨pre, post, hsplit, hpre, hpost⟩ := hs.exists_split hm
  obtain ⟨hap₁, hap₂⟩ := hs.region_apart hsplit
  have herase : (release (rangeOf region) s).regions = pre ++ post := by
    have := Table.erase_split (v := some region.2) hpre hpost
    simp only [release, log, hsplit]
    simpa [Table.single, rangeOf] using this
  have hranges : (release (rangeOf region) s).ranges = pre.map rangeOf ++ post.map rangeOf := by
    rw [ranges, herase, List.map_append]
  have hsub : (release (rangeOf region) s).ranges.Sublist s.ranges := by
    rw [hranges, ranges, hsplit, List.map_append, List.map_cons]
    exact List.Sublist.append_left (List.sublist_cons_self ..) _
  refine ⟨⟨fun t ht => hs.nonempty t (hsub.subset ht), hs.ascending.sublist hsub⟩,
    View.ext ?_ ?_ ?_⟩
  · have hperm : s.ranges.Perm (rangeOf region :: (release (rangeOf region) s).ranges) := by
      rw [hranges, ranges, hsplit, List.map_append, List.map_cons]
      exact List.perm_middle
    simp only [View.unmap_ranges, view]
    rw [Multiset.coe_eq_coe.mpr hperm, ← Multiset.cons_coe, Multiset.erase_cons_head]
  · funext x
    simp only [View.unmap]
    by_cases hx : (rangeOf region).Holds x
    · rw [if_pos hx, view_byte, byteAt?_eq, herase, List.findSome?_append,
        findSome?_byteIn_eq_none fun e he => (hap₁ e he).symm.not_holds hx,
        findSome?_byteIn_eq_none fun e he => (hap₂ e he).not_holds hx]
      rfl
    · rw [if_neg hx, view_byte, view_byte, byteAt?_eq, byteAt?_eq, herase, hsplit]
      simp only [List.findSome?_append, List.findSome?_cons, byteIn_eq_none hx]
  · simp [view, View.unmap, release, log, allocationCount, freeCount]
    omega

end Interpose.Space

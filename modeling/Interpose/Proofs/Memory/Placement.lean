import Interpose.Proofs.Memory.Allocation

/-!
# The search for a place

An allocation tries one place after the other. `Searches` spells out the rounds of this search with
no bound on their number, so a search that went on for ever would come to no result. Each round of a
valid request that finds its place taken goes on from a higher one, hence every search ends.
-/

namespace Interpose.Space
variable {s : Space} {q : Request} {base n m : Nat}

/-- Nothing is mapped where the range is. -/
def Vacant (s : Space) (r : Range) : Prop := ∀ t ∈ s.ranges, r.Apart t

def wanted (q : Request) (base : Nat) : Range := ⟨UInt64.ofNat base, q.size⟩

/-- The place to try after one that is taken. -/
def following (q : Request) (base : Nat) : Nat := (base + gap) ⌈/⌉ q.alignment * q.alignment

/-- `Searches s q base result`: from a place on, the search ends with a result. -/
inductive Searches (s : Space) (q : Request) : Nat → Attempt Address → Prop
  | outside {base : Nat} (hout : q.accepts (wanted q base) ≠ .ok true) :
      Searches s q base (.refuse (.allocation q.size q.alignment .windowFull))
  | found {base : Nat} (hin : q.accepts (wanted q base) = .ok true)
      (hfree : s.Vacant (wanted q base)) : Searches s q base (.ok (UInt64.ofNat base))
  | overflow {base : Nat} (hin : q.accepts (wanted q base) = .ok true)
      (htaken : ¬ s.Vacant (wanted q base)) (htop : wordLimit ≤ base + gap + q.alignment) :
      Searches s q base (.error .fault)
  | onward {base : Nat} {result : Attempt Address} (hin : q.accepts (wanted q base) = .ok true)
      (htaken : ¬ s.Vacant (wanted q base)) (hbelow : base + gap + q.alignment < wordLimit)
      (hrest : Searches s q (following q base) result) : Searches s q base result

theorem alignUp_below (hm : isPowerOfTwo m = true) (h : n + m < wordLimit) :
    alignUp n m = .ok (n ⌈/⌉ m * m) := by
  have hpos := powerOfTwo_pos hm
  obtain ⟨k, hk⟩ : ∃ k, alignUp n m = .ok k := by
    unfold alignUp
    rw [if_neg (by omega)]
    exact ⟨_, rfl⟩
  rw [hk, alignUp_eq hm hk]

theorem lt_following (base : Nat) (hpos : 0 < q.alignment) : base < following q base := by
  have hle : base + gap ≤ q.alignment * ((base + gap) ⌈/⌉ q.alignment) := le_smul_ceilDiv hpos
  rw [Nat.mul_comm] at hle
  exact Nat.lt_of_lt_of_le (Nat.lt_add_of_pos_right (by decide)) hle

theorem following_lt (hpower : isPowerOfTwo q.alignment = true)
    (h : base + gap + q.alignment < wordLimit) : following q base < wordLimit :=
  alignUp_lt (alignUp_below hpower h)

theorem meets_total (a : Address) (stop : Nat) {regions : Table Address Bytes}
    (h : ∀ e ∈ regions, e.1.toNat + e.2.length < wordLimit) :
    meets a stop regions = .ok false ∨ meets a stop regions = .ok true ∧
      ∃ e ∈ regions, e.1.toNat < stop ∧ a.toNat < e.1.toNat + e.2.length := by
  induction regions with
  | nil => exact Or.inl rfl
  | cons region rest ih =>
    obtain ⟨hregion, hrest⟩ := List.forall_mem_cons.mp h
    have htail : meets a stop rest = .ok false ∨ meets a stop rest = .ok true ∧
        ∃ e ∈ region :: rest, e.1.toNat < stop ∧ a.toNat < e.1.toNat + e.2.length := by
      refine (ih hrest).imp_right (And.imp_right ?_)
      rintro ⟨e, he, hmeets⟩
      exact ⟨e, List.mem_cons_of_mem _ he, hmeets⟩
    have hlimit : region.1.plus region.2.length = .ok (region.1.toNat + region.2.length) :=
      Attempt.plus_eq_ok.mpr ⟨hregion, rfl⟩
    unfold meets
    by_cases hb : region.1.toNat < stop
    · rw [if_pos hb, hlimit]
      simp only [bind, Except.bind]
      by_cases ha : a.toNat < region.1.toNat + region.2.length
      · rw [if_pos ha]
        exact Or.inr ⟨rfl, region, List.mem_cons_self, hb, ha⟩
      · rw [if_neg ha]
        exact htail
    · rw [if_neg hb]
      exact htail

theorem Orderly.meets_of_vacant (hs : s.Orderly) (hb : base < wordLimit)
    (h : s.Vacant (wanted q base)) :
    meets (UInt64.ofNat base) (base + q.size) s.regions = .ok false := by
  have hbase : (UInt64.ofNat base).toNat = base := UInt64.toNat_ofNat_of_lt' hb
  rcases meets_total (UInt64.ofNat base) (base + q.size)
    fun e he => hs.bounded _ (mem_ranges he) with hfalse | ⟨-, e, he, hlow, hhigh⟩
  · exact hfalse
  · have hapart := h _ (mem_ranges he)
    have hlen := hs.nonempty _ (mem_ranges he)
    simp only [Range.Apart, rangeOf, wanted, hbase] at *
    omega

theorem Orderly.meets_of_taken (hs : s.Orderly) (hb : base < wordLimit)
    (h : ¬ s.Vacant (wanted q base)) :
    meets (UInt64.ofNat base) (base + q.size) s.regions = .ok true := by
  have hbase : (UInt64.ofNat base).toNat = base := UInt64.toNat_ofNat_of_lt' hb
  rcases meets_total (UInt64.ofNat base) (base + q.size)
    fun e he => hs.bounded _ (mem_ranges he) with hfalse | ⟨htrue, -⟩
  · refine absurd ?_ h
    intro t ht
    obtain ⟨region, hm, rfl⟩ := List.mem_map.mp ht
    have := meets_eq_false hfalse region hm
    simp only [Range.Apart, rangeOf, wanted, hbase] at this ⊢
    omega
  · exact htrue

theorem consider_outside (hpos : 0 < q.alignment) (hout : q.accepts (wanted q base) ≠ .ok true) :
    s.consider q base = .refuse (.allocation q.size q.alignment .windowFull) := by
  have hacc : q.accepts (wanted q base) = .ok false := by
    unfold Request.accepts at hout ⊢
    split at hout
    · rw [if_pos ‹_›]
    · rw [if_neg ‹_›, if_neg (by omega)]
      rw [if_neg (by omega)] at hout
      simpa using hout
  unfold consider
  rw [wanted] at hacc
  simp [hacc, bind, Except.bind]

theorem consider_found (hs : s.Orderly) (hb : base < wordLimit)
    (hin : q.accepts (wanted q base) = .ok true) (hfree : s.Vacant (wanted q base)) :
    s.consider q base = .ok (.inl (UInt64.ofNat base)) := by
  have hmeets := hs.meets_of_vacant hb hfree
  unfold consider
  rw [wanted] at hin
  simp [hin, hmeets, bind, Except.bind, pure, Except.pure]

theorem consider_overflow (hs : s.Orderly) (hb : base < wordLimit)
    (hin : q.accepts (wanted q base) = .ok true) (htaken : ¬ s.Vacant (wanted q base))
    (htop : wordLimit ≤ base + gap + q.alignment) : s.consider q base = .error .fault := by
  have hmeets := hs.meets_of_taken hb htaken
  have hup : alignUp (base + gap) q.alignment = .error .fault := if_pos (Or.inr htop)
  unfold consider
  rw [wanted] at hin
  by_cases hgap : base + gap < wordLimit
  · simp [hin, hmeets, checked, hgap, hup, bind, Except.bind]
  · simp [hin, hmeets, checked, hgap, bind, Except.bind]

theorem consider_onward (hs : s.Orderly) (hpower : isPowerOfTwo q.alignment = true)
    (hb : base < wordLimit) (hin : q.accepts (wanted q base) = .ok true)
    (htaken : ¬ s.Vacant (wanted q base)) (hbelow : base + gap + q.alignment < wordLimit) :
    s.consider q base = .ok (.inr (following q base)) := by
  have hmeets := hs.meets_of_taken hb htaken
  have hgap : base + gap < wordLimit := by omega
  unfold consider
  rw [wanted] at hin
  simp [hin, hmeets, checked, hgap, alignUp_below hpower hbelow, following, bind, Except.bind,
    pure, Except.pure]

/-- From any place on, the search for a valid request ends, and with what `place` gives. -/
theorem place_searches {base : Nat} (hs : s.Orderly) (hq : q.validate = .ok ())
    (hb : base < wordLimit) : Searches s q base (s.place q base) := by
  have hpower := validate_powerOfTwo hq
  have hpos := powerOfTwo_pos hpower
  rw [place]
  by_cases hin : q.accepts (wanted q base) = .ok true
  · by_cases hfree : s.Vacant (wanted q base)
    · rw [consider_found hs hb hin hfree]
      exact .found hin hfree
    · by_cases htop : wordLimit ≤ base + gap + q.alignment
      · rw [consider_overflow hs hb hin hfree htop]
        exact .overflow hin hfree htop
      · have hbelow : base + gap + q.alignment < wordLimit := by omega
        have hlt := lt_following base hpos
        have hnext := following_lt hpower hbelow
        rw [consider_onward hs hpower hb hin hfree hbelow]
        simp only [if_pos (And.intro hlt hnext)]
        exact .onward hin hfree hbelow (place_searches hs hq hnext)
  · rw [consider_outside hpos hin]
    exact .outside hin
termination_by wordLimit - base

variable {limits : SpaceLimits} {s' : Space} {guard : Option Nat} {e : Failure}

def outset (s : Space) (q : Request) : Nat :=
  if q.low ≤ s.next ∧ s.next < q.high then s.next.toNat else max q.low.toNat gap

def firstPlace (s : Space) (q : Request) : Nat := s.outset q ⌈/⌉ q.alignment * q.alignment

/-- A request that passes the checks in front of the search. -/
structure Sought (limits : SpaceLimits) (s : Space) (q : Request) : Prop where
  guarded : q.checkGuard limits.guard = .ok ()
  valid : q.validate = .ok ()
  small : q.size ≤ limits.maxAllocation
  allowed : limits.allocationLimit.any (· ≤ s.allocationCount) = false

/-- Where the arithmetic of an allocation leaves the address space: the first place cannot be
aligned, a place after a taken one cannot be, or no position follows the range that was taken. -/
inductive Overflows (limits : SpaceLimits) (s : Space) (q : Request) : Prop
  | outset (hsought : Sought limits s q) (htop : wordLimit ≤ s.outset q + q.alignment)
  | search (hsought : Sought limits s q)
      (hsearch : Searches s q (s.firstPlace q) (.error .fault))
  | next {a : Address} (hsought : Sought limits s q)
      (hsearch : Searches s q (s.firstPlace q) (.ok a)) (habove : s.next ≤ a)
      (htop : wordLimit ≤ a.toNat + q.size + gap)

theorem checkGuard_error (h : q.checkGuard guard = .error e) : ∃ why, e = .refused why := by
  unfold Request.checkGuard at h
  split at h
  · split at h <;> cases h
    exact ⟨_, rfl⟩
  · cases h

theorem validate_error (h : q.validate = .error e) : ∃ why, e = .refused why := by
  unfold Request.validate at h
  split at h
  · cases h
    exact ⟨_, rfl⟩
  · split at h
    · cases h
      exact ⟨_, rfl⟩
    · split at h <;> cases h
      exact ⟨_, rfl⟩

/-- A request is refused before the search, or comes to what the search comes to. -/
theorem Orderly.findRoom_cases (hs : s.Orderly) (limits : SpaceLimits) (q : Request) :
    (∃ why, s.findRoom limits q = .refuse why) ∨ Sought limits s q ∧
      (wordLimit ≤ s.outset q + q.alignment ∨
        Searches s q (s.firstPlace q) (s.findRoom limits q)) := by
  unfold findRoom
  cases hguard : q.checkGuard limits.guard with
  | error e =>
    obtain ⟨why, rfl⟩ := checkGuard_error hguard
    exact Or.inl ⟨why, rfl⟩
  | ok u =>
    cases hvalid : q.validate with
    | error e =>
      obtain ⟨why, rfl⟩ := validate_error hvalid
      exact Or.inl ⟨why, rfl⟩
    | ok v =>
      simp only [bind, Except.bind]
      split
      · exact Or.inl ⟨_, rfl⟩
      · split
        · exact Or.inl ⟨_, rfl⟩
        · rename_i hsmall hallowed
          refine Or.inr ⟨⟨hguard, hvalid, by omega, by simpa using hallowed⟩, ?_⟩
          by_cases htop : wordLimit ≤ s.outset q + q.alignment
          · exact Or.inl htop
          · have hup := alignUp_below (validate_powerOfTwo hvalid) (Nat.lt_of_not_le htop)
            right
            have hfirst := place_searches hs hvalid (alignUp_lt hup)
            unfold outset at hup
            rw [hup]
            exact hfirst

theorem Orderly.allocate_fault (hs : s.Orderly) (h : allocate limits q s = .error .fault s') :
    Overflows limits s q := by
  unfold allocate at h
  split at h
  · rename_i e hroom
    cases h
    rcases hs.findRoom_cases limits q with ⟨why, hrefused⟩ | ⟨hsought, hrest⟩
    · rw [hroom] at hrefused
      cases hrefused
    · rcases hrest with htop | hsearch
      · exact .outset hsought htop
      · rw [hroom] at hsearch
        exact .search hsought hsearch
  · rename_i base hroom
    dsimp only at h
    split at h
    · cases h
    · rename_i habove
      split at h
      · rename_i e hup
        rcases hs.findRoom_cases limits q with ⟨why, hrefused⟩ | ⟨hsought, hrest⟩
        · rw [hroom] at hrefused
          cases hrefused
        · rcases hrest with htop | hsearch
          · exact .outset hsought htop
          · rw [hroom] at hsearch
            refine .next hsought hsearch (UInt64.not_lt.mp habove) (Nat.le_of_not_lt fun hlt => ?_)
            unfold alignUp at hup
            rw [if_neg (not_or.mpr ⟨by decide, Nat.not_le.mpr hlt⟩)] at hup
            cases hup
      · cases h

theorem not_overflows (hfree : s.Vacant (wanted q (s.firstPlace q)))
    (hroom : s.outset q + q.alignment + q.size + gap < wordLimit) : ¬ Overflows limits s q := by
  intro h
  cases h with
  | outset hsought htop => omega
  | search hsought hsearch =>
    cases hsearch with
    | overflow hin htaken htop => exact htaken hfree
    | onward hin htaken hbelow hrest => exact htaken hfree
  | next hsought hsearch habove htop =>
    cases hsearch with
    | found hin hvacant =>
      have hplace : s.firstPlace q ≤ s.outset q + q.alignment := by
        unfold firstPlace
        rw [Nat.ceilDiv_eq_add_pred_div]
        have := Nat.div_mul_le_self (s.outset q + q.alignment - 1) q.alignment
        omega
      have hword : (UInt64.ofNat (s.firstPlace q)).toNat ≤ s.firstPlace q := by
        rw [UInt64.toNat_ofNat']
        exact Nat.mod_le ..
      omega
    | onward hin htaken hbelow hrest => exact htaken hfree

end Interpose.Space

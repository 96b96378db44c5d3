import Interpose.Proofs.Pattern.Match

/-!
# The fit that a search finds

Among all fits of a pattern, one that makes the gaps as short as can be from left to right is also
one that ends first: where items fit from two places on, the front of the earlier fit goes with the
rest of the later one. This is the fit that `matchItems` finds. Its bytes are all that counts, so
the same is found in any data that begins with them.
-/

namespace Interpose

variable {items : List Item} {skips skips' : List Nat} {data data' more captured captured' : Bytes}
  {n n' k : Nat} {r : Nat × Bytes} {item : Item} {b c : UInt8}

theorem drop_of_drop_cons (h : (b :: data).drop k = c :: data') :
    data.drop k = data' := by
  have htail := congrArg List.tail h
  rwa [List.tail_drop, List.drop_succ_cons, List.tail_cons] at htail

namespace Fits

theorem length_le (h : Fits items skips data n captured) : n ≤ data.length := by
  induction h with
  | nil => exact Nat.zero_le _
  | literal h ih => exact Nat.succ_le_succ ih
  | any h ih => exact Nat.succ_le_succ ih
  | address h ih => exact Nat.succ_le_succ ih
  | gap h ih =>
    rw [List.length_append]
    exact Nat.add_le_add_left ih _

theorem minLength_le (h : Fits items skips data n captured) : minLength items ≤ n := by
  unfold minLength
  induction h with
  | nil => exact Nat.le_refl 0
  | literal h ih => simpa using ih
  | any h ih => simpa using ih
  | address h ih => simpa using ih
  | gap h ih => exact Nat.le_trans (by simpa using ih) (Nat.le_add_left ..)

theorem length_captured (h : Fits items skips data n captured) :
    captured.length = addressCount items := by
  unfold addressCount
  induction h with
  | nil => rfl
  | literal h ih => simpa using ih
  | any h ih => simpa using ih
  | address h ih => simpa using ih
  | gap h ih => simpa using ih

/-- The skips determine what is covered and captured. -/
theorem unique (h : Fits items skips data n captured) (h' : Fits items skips data n' captured') :
    n = n' ∧ captured = captured' := by
  induction h generalizing n' captured' with
  | nil =>
    cases h'
    exact ⟨rfl, rfl⟩
  | literal h ih =>
    cases h' with
    | literal h' =>
      obtain ⟨rfl, rfl⟩ := ih h'
      exact ⟨rfl, rfl⟩
  | any h ih =>
    cases h' with
    | any h' =>
      obtain ⟨rfl, rfl⟩ := ih h'
      exact ⟨rfl, rfl⟩
  | address h ih =>
    cases h' with
    | address h' =>
      obtain ⟨rfl, rfl⟩ := ih h'
      exact ⟨rfl, rfl⟩
  | @gap items skips skipped data captured n h ih =>
    generalize hcount : skipped.length = count at h'
    generalize hdata : skipped ++ data = whole at h'
    cases h' with
    | gap h' =>
      obtain ⟨rfl, rfl⟩ := List.append_inj hdata hcount
      obtain ⟨rfl, rfl⟩ := ih h'
      exact ⟨rfl, rfl⟩

theorem uncons (hgap : item ≠ .gap) (h : Fits (item :: items) skips (b :: data) n captured) :
    ∃ m captured', n = m + 1 ∧ Fits items skips data m captured' := by
  generalize hwhole : b :: data = whole at h
  cases h with
  | gap h => exact absurd rfl hgap
  | literal h =>
    cases hwhole
    exact ⟨_, _, rfl, h⟩
  | any h =>
    cases hwhole
    exact ⟨_, _, rfl, h⟩
  | address h =>
    cases hwhole
    exact ⟨_, _, rfl, h⟩

theorem append (h : Fits items skips data n captured) (more : Bytes) :
    Fits items skips (data ++ more) n captured := by
  induction h with
  | nil => exact .nil
  | literal h ih => exact .literal ih
  | any h ih => exact .any ih
  | address h ih => exact .address ih
  | gap h ih =>
    rw [List.append_assoc]
    exact .gap ih

/-- What is not covered may be cut off. -/
theorem take (h : Fits items skips data n captured) : Fits items skips (data.take n) n captured := by
  induction h with
  | nil => exact .nil
  | literal h ih => exact .literal ih
  | any h ih => exact .any ih
  | address h ih => exact .address ih
  | gap h ih =>
    rw [List.take_length_add_append]
    exact .gap ih

theorem congr (h : Fits items skips data n captured) (hsame : data'.take n = data.take n) :
    Fits items skips data' n captured := by
  have hcut := h.take
  rw [← hsame] at hcut
  have := hcut.append (data'.drop n)
  rwa [List.take_append_drop] at this

/-- Items that fit from here and from a later place on fit from here to no later an end: up to the
first gap as they do from here, and then as from the later place. -/
theorem earlier (h : Fits items skips data n captured)
    (hlater : Fits items skips' (data.drop k) n' captured') :
    ∃ skips₁ n₁ captured₁, Fits items skips₁ data n₁ captured₁ ∧ n₁ ≤ k + n' := by
  induction h generalizing n' captured' skips' with
  | nil => exact ⟨_, _, _, .nil, Nat.zero_le _⟩
  | literal h ih =>
    generalize hdrop : List.drop k _ = later at hlater
    cases hlater with
    | literal hlater =>
      obtain ⟨_, _, _, hfit, hle⟩ := ih (drop_of_drop_cons hdrop ▸ hlater)
      exact ⟨_, _, _, .literal hfit, Nat.succ_le_succ hle⟩
  | any h ih =>
    generalize hdrop : List.drop k _ = later at hlater
    cases hlater with
    | any hlater =>
      obtain ⟨_, _, _, hfit, hle⟩ := ih (drop_of_drop_cons hdrop ▸ hlater)
      exact ⟨_, _, _, .any hfit, Nat.succ_le_succ hle⟩
  | address h ih =>
    generalize hdrop : List.drop k _ = later at hlater
    cases hlater with
    | address hlater =>
      obtain ⟨_, _, _, hfit, hle⟩ := ih (drop_of_drop_cons hdrop ▸ hlater)
      exact ⟨_, _, _, .address hfit, Nat.succ_le_succ hle⟩
  | @gap items skips skipped data captured n h ih =>
    generalize hdrop : List.drop k _ = later at hlater
    cases hlater with
    | @gap _ skips₂ skipped₂ rest _ n₂ hlater =>
      have hfit := @Fits.gap items skips₂ ((skipped ++ data).take k ++ skipped₂) rest _ n₂ hlater
      rw [List.append_assoc, ← hdrop, List.take_append_drop] at hfit
      refine ⟨_, _, _, hfit, ?_⟩
      have hlen : ((skipped ++ data).take k).length ≤ k := List.length_take_le ..
      rw [List.length_append]
      omega

end Fits

section Suffix
variable {attempt : Bytes → Option (Nat × Bytes)}

theorem firstSuffix_eq_some (h : firstSuffix attempt data = some r) :
    ∃ skipped rest r', data = skipped ++ rest ∧ attempt rest = some r' ∧
      r = (skipped.length + r'.1, r'.2) ∧
      ∀ front back, data = front ++ back → front.length < skipped.length → attempt back = none := by
  induction data generalizing r with
  | nil => exact ⟨[], [], r, rfl, h, by simp, fun _ _ _ hlt => absurd hlt (Nat.not_lt_zero _)⟩
  | cons b data ih =>
    unfold firstSuffix at h
    cases hhere : attempt (b :: data) with
    | some found =>
      rw [hhere] at h
      cases h
      exact ⟨[], b :: data, r, rfl, hhere, by simp, fun _ _ _ hlt => absurd hlt (Nat.not_lt_zero _)⟩
    | none =>
      rw [hhere] at h
      obtain ⟨r₁, hr₁, rfl⟩ := Option.map_eq_some_iff.mp h
      obtain ⟨skipped, rest, r', rfl, hrest, rfl, hfirst⟩ := ih hr₁
      refine ⟨b :: skipped, rest, r', rfl, hrest, ?_, ?_⟩
      · simp only [List.length_cons, Prod.mk.injEq, and_true]
        omega
      · intro front back hsplit hlt
        cases front with
        | nil =>
          rw [List.nil_append] at hsplit
          rw [← hsplit]
          exact hhere
        | cons a front =>
          exact hfirst front back (List.cons.inj hsplit).2 (Nat.lt_of_succ_lt_succ hlt)

theorem firstSuffix_eq_none (h : firstSuffix attempt data = none) :
    ∀ front back, data = front ++ back → attempt back = none := by
  induction data with
  | nil =>
    intro front back hsplit
    obtain ⟨-, rfl⟩ := List.append_eq_nil_iff.mp hsplit.symm
    exact h
  | cons b data ih =>
    unfold firstSuffix at h
    cases hhere : attempt (b :: data) with
    | some found =>
      rw [hhere] at h
      cases h
    | none =>
      rw [hhere] at h
      intro front back hsplit
      cases front with
      | nil =>
        rw [List.nil_append] at hsplit
        rw [← hsplit]
        exact hhere
      | cons a front => exact ih (Option.map_eq_none_iff.mp h) front back (List.cons.inj hsplit).2

end Suffix

/-- A fit that ends first and makes its gaps as short as can be, the leftmost before the next. -/
structure Shortest (items : List Item) (skips : List Nat) (data : Bytes) (n : Nat)
    (captured : Bytes) : Prop where
  fits : Fits items skips data n captured
  ends : ∀ skips' n' captured', Fits items skips' data n' captured' → n ≤ n'
  first : ∀ skips' n' captured', Fits items skips' data n' captured' →
    ¬ List.Lex (· < ·) skips' skips

theorem matchItems_ne_none (h : Fits items skips data n captured) :
    matchItems items data ≠ none := by
  induction h with
  | nil => exact Option.some_ne_none _
  | literal h ih =>
    rw [matchItems, if_pos rfl]
    exact fun hnone => ih (Option.map_eq_none_iff.mp hnone)
  | any h ih => exact fun hnone => ih (Option.map_eq_none_iff.mp hnone)
  | address h ih => exact fun hnone => ih (Option.map_eq_none_iff.mp hnone)
  | gap h ih => exact fun hnone => ih (firstSuffix_eq_none hnone _ _ rfl)

section Gap
variable {skipped : Bytes} (hfirst : ∀ front back, skipped ++ data = front ++ back →
  front.length < skipped.length → matchItems items back = none)
include hfirst

theorem Fits.exists_more (h : Fits (.gap :: items) skips (skipped ++ data) n captured) :
    ∃ k rest m, skips = (skipped.length + k) :: rest ∧ n = skipped.length + (k + m) ∧
      Fits items rest (data.drop k) m captured := by
  generalize hwhole : skipped ++ data = whole at h hfirst
  cases h with
  | @gap _ rest skipped' back _ m hfit =>
    have hle : skipped.length ≤ skipped'.length := by
      apply Nat.le_of_not_lt
      intro hlt
      exact matchItems_ne_none hfit (hfirst _ _ rfl hlt)
    have hback : data.drop (skipped'.length - skipped.length) = back := by
      have hdrop := congrArg (List.drop skipped'.length) hwhole
      rwa [List.drop_append, List.drop_eq_nil_of_le hle, List.nil_append, List.drop_left] at hdrop
    refine ⟨skipped'.length - skipped.length, rest, m, ?_, by omega, hback ▸ hfit⟩
    rw [Nat.add_sub_cancel' hle]

theorem Shortest.gap (h : Shortest items skips data n captured) :
    Shortest (.gap :: items) (skipped.length :: skips) (skipped ++ data) (skipped.length + n)
      captured := by
  constructor
  · exact .gap h.fits
  · intro skips' n' captured' hfit
    obtain ⟨k, rest, m, -, rfl, hrest⟩ := hfit.exists_more hfirst
    obtain ⟨_, n₁, _, hhere, hle⟩ := h.fits.earlier hrest
    have := h.ends _ _ _ hhere
    omega
  · intro skips' n' captured' hfit hlex
    obtain ⟨k, rest, m, rfl, -, hrest⟩ := hfit.exists_more hfirst
    rcases List.cons_lex_cons_iff.mp hlex with hlt | ⟨heq, htail⟩
    · omega
    · obtain rfl : k = 0 := by omega
      exact h.first _ _ _ hrest htail

end Gap

theorem Shortest.cons (hgap : item ≠ .gap) (h : Shortest items skips data n captured)
    (hfits : Fits (item :: items) skips (b :: data) (n + 1) captured') :
    Shortest (item :: items) skips (b :: data) (n + 1) captured' := by
  constructor
  · exact hfits
  · intro skips' n' _ hother
    obtain ⟨m, _, rfl, htail⟩ := hother.uncons hgap
    exact Nat.succ_le_succ (h.ends _ _ _ htail)
  · intro skips' n' _ hother
    obtain ⟨m, _, rfl, htail⟩ := hother.uncons hgap
    exact h.first _ _ _ htail

theorem matchItems_shortest (h : matchItems items data = some r) :
    ∃ skips, Shortest items skips data r.1 r.2 := by
  induction items generalizing data r with
  | nil =>
    cases h
    refine ⟨[], .nil, fun _ _ _ _ => Nat.zero_le _, ?_⟩
    intro skips' n' captured' _ hlex
    cases hlex
  | cons item items ih =>
    cases item with
    | gap =>
      obtain ⟨skipped, rest, r', rfl, hrest, rfl, hfirst⟩ := firstSuffix_eq_some h
      obtain ⟨skips, hshort⟩ := ih hrest
      exact ⟨_, hshort.gap hfirst⟩
    | literal value =>
      cases data with
      | nil => cases h
      | cons b rest =>
        by_cases hb : b = value
        · subst hb
          rw [matchItems, if_pos rfl] at h
          obtain ⟨r', hr', rfl⟩ := Option.map_eq_some_iff.mp h
          obtain ⟨skips, hshort⟩ := ih hr'
          exact ⟨skips, hshort.cons (by simp) (.literal hshort.fits)⟩
        · rw [matchItems, if_neg hb] at h
          cases h
    | any =>
      cases data with
      | nil => cases h
      | cons b rest =>
        obtain ⟨r', hr', rfl⟩ := Option.map_eq_some_iff.mp h
        obtain ⟨skips, hshort⟩ := ih hr'
        exact ⟨skips, hshort.cons (by simp) (.any hshort.fits)⟩
    | address =>
      cases data with
      | nil => cases h
      | cons b rest =>
        obtain ⟨r', hr', rfl⟩ := Option.map_eq_some_iff.mp h
        obtain ⟨skips, hshort⟩ := ih hr'
        exact ⟨skips, hshort.cons (by simp) (.address hshort.fits)⟩

theorem Fits.found (h : Fits items skips data n captured) :
    ∃ r skips', matchItems items data = some r ∧ Shortest items skips' data r.1 r.2 := by
  obtain ⟨r, hr⟩ := Option.ne_none_iff_exists'.mp (matchItems_ne_none h)
  obtain ⟨skips', hshort⟩ := matchItems_shortest hr
  exact ⟨r, skips', hr, hshort⟩

namespace Shortest

/-- Of two fits that are each in the data of the other, neither has shorter gaps. -/
theorem skips_eq (h : Shortest items skips data n captured)
    (h' : Shortest items skips' data' n' captured') (hfit : Fits items skips data' n captured)
    (hfit' : Fits items skips' data n' captured') : skips = skips' :=
  List.le_antisymm (h.first _ _ _ hfit') (h'.first _ _ _ hfit)

theorem unique (h : Shortest items skips data n captured)
    (h' : Shortest items skips' data n' captured') : n = n' ∧ captured = captured' := by
  obtain rfl := h.skips_eq h' h.fits h'.fits
  exact h.fits.unique h'.fits

theorem matchItems_eq (h : Shortest items skips data n captured) :
    matchItems items data = some (n, captured) := by
  obtain ⟨r, skips', hr, h'⟩ := h.fits.found
  obtain ⟨rfl, rfl⟩ := h.unique h'
  exact hr

theorem congr (h : Shortest items skips data n captured) (hsame : data'.take n = data.take n) :
    Shortest items skips data' n captured := by
  have hfit := h.fits.congr hsame
  obtain ⟨r, skips', -, h'⟩ := hfit.found
  have hle : r.1 ≤ n := h'.ends _ _ _ hfit
  have hcut : data.take r.1 = data'.take r.1 := by
    have := congrArg (List.take r.1) hsame
    rw [List.take_take, List.take_take, Nat.min_eq_left hle] at this
    exact this.symm
  obtain rfl := h.skips_eq h' hfit (h'.fits.congr hcut)
  obtain ⟨rfl, rfl⟩ := hfit.unique h'.fits
  exact h'

end Shortest

namespace Pattern
variable {p : Pattern} {hit : Hit}

theorem matchAt?_eq_some : p.matchAt? data = some hit ↔ ∃ skips captured,
    Shortest p.items skips data hit.length captured ∧
      hit.address = UInt64.ofNat (leNat captured) := by
  rw [matchAt?_eq]
  constructor
  · intro h
    split at h
    · cases h
    · obtain ⟨r, hr, rfl⟩ := Option.map_eq_some_iff.mp h
      obtain ⟨skips, hshort⟩ := matchItems_shortest hr
      exact ⟨skips, r.2, hshort, rfl⟩
  · rintro ⟨skips, captured, hshort, haddress⟩
    have hlong : p.minLength ≤ data.length :=
      Nat.le_trans hshort.fits.minLength_le hshort.fits.length_le
    rw [if_neg (Nat.not_lt.mpr hlong), hshort.matchItems_eq, Option.map_some, ← haddress]

theorem matchAt?_isSome_iff : (p.matchAt? data).isSome ↔
    ∃ skips n captured, Fits p.items skips data n captured := by
  constructor
  · intro h
    obtain ⟨hit, hhit⟩ := Option.isSome_iff_exists.mp h
    obtain ⟨skips, captured, hshort, -⟩ := matchAt?_eq_some.mp hhit
    exact ⟨_, _, _, hshort.fits⟩
  · rintro ⟨skips, n, captured, hfit⟩
    obtain ⟨r, skips', -, hshort⟩ := hfit.found
    have hhit : p.matchAt? data = some ⟨r.1, UInt64.ofNat (leNat r.2)⟩ :=
      matchAt?_eq_some.mpr ⟨_, _, hshort, rfl⟩
    rw [hhit]
    rfl

/-- An attempt comes to a hit exactly if the items fit. The hit is as long as the fit that ends
first, and captures what the one with the shortest gaps does, with zeros for all bytes above. -/
theorem matchAt?_exact (p : Pattern) (data : Bytes) :
    p.attemptAt data = .ok (p.matchAt? data) ∧
    ((p.matchAt? data).isSome ↔ ∃ skips n captured, Fits p.items skips data n captured) ∧
    ∀ hit, p.matchAt? data = some hit → ∃ skips captured,
      Shortest p.items skips data hit.length captured ∧
      hit.address.toNat = leNat captured ∧
      leBytes 8 hit.address.toNat = captured ++ List.replicate (8 - p.addressCount) 0 := by
  refine ⟨?_, matchAt?_isSome_iff, ?_⟩
  · rw [attemptAt_eq, matchAt?_eq]
  · intro hit hhit
    obtain ⟨skips, captured, hshort, haddress⟩ := matchAt?_eq_some.mp hhit
    have hcount : captured.length = p.addressCount := hshort.fits.length_captured
    have hpadded : (captured ++ List.replicate (8 - p.addressCount) 0).length = 8 := by
      have : p.addressCount ≤ 8 := p.addressCount_le
      rw [List.length_append, List.length_replicate]
      omega
    have hvalue := leNat_append_zeros captured (8 - p.addressCount)
    have hword := leNat_lt (captured ++ List.replicate (8 - p.addressCount) 0)
    rw [hpadded, hvalue] at hword
    have htoNat : hit.address.toNat = leNat captured := by
      rw [haddress]
      exact UInt64.toNat_ofNat_of_lt' hword
    refine ⟨skips, captured, hshort, htoNat, ?_⟩
    have hbytes := leBytes_leNat (captured ++ List.replicate (8 - p.addressCount) 0)
    rwa [hpadded, hvalue, ← htoNat] at hbytes

/-- What a hit covers is all that it depends on. -/
theorem matchAt?_consumed (h : p.matchAt? data = some hit) :
    hit.length ≤ data.length ∧
    ∀ data' : Bytes, hit.length ≤ data'.length → data'.take hit.length = data.take hit.length →
      p.matchAt? data' = some hit := by
  obtain ⟨skips, captured, hshort, haddress⟩ := matchAt?_eq_some.mp h
  constructor
  · exact hshort.fits.length_le
  · intro data' _ hsame
    exact matchAt?_eq_some.mpr ⟨skips, captured, hshort.congr hsame, haddress⟩

theorem matchAt?_consumed_cut :
    let p : Pattern := ⟨"two gaps", [.address, .gap, .address, .literal 0xe8, .gap, .literal 0xc3],
      ⟨⟨.abs32, false, false⟩, 0⟩, false, by decide, by decide⟩
    p.matchAt? [1, 2, 3, 0xe8, 4, 0xc3, 0xe8, 0xc3] = some ⟨6, 0x301⟩ ∧
      p.matchAt? [1, 2, 3, 0xe8, 4, 0xc3] = some ⟨6, 0x301⟩ ∧
      p.matchAt? [1, 2, 3, 0xe8, 4, 0xc3, 0xff, 0xc3, 0xe8, 0xc3] = some ⟨6, 0x301⟩ := by
  intro p
  have hwhole : p.matchAt? [1, 2, 3, 0xe8, 4, 0xc3, 0xe8, 0xc3] = some ⟨6, 0x301⟩ := by decide
  have hsame := (matchAt?_consumed hwhole).2
  exact ⟨hwhole, hsame _ (by decide) (by decide), hsame _ (by decide) (by decide)⟩

end Pattern

end Interpose

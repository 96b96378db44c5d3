import Interpose.Proofs.Pattern.Scan

/-!
# Matching at the start

At the first byte there is a candidate for each pattern at most. One pass over the groups and then
over the patterns without an anchor comes first to the one that stands first in the order of anchor
distance and registration. Where all patterns stand at the start only, the candidates of a scan are
the same, and so is the one it chooses: the distance of an anchor is then its position.
-/

namespace Interpose

/-- The order of the patterns at a start: by the distance of the anchor, without one last, and then
by registration. -/
def Pattern.standing (p : Pattern) (i : Nat) : Nat × Nat × Nat :=
  match p.anchor with
  | some (o, _) => (0, o, i)
  | none => (1, 0, i)

/-- Of the candidates at the start the first in order. -/
def Foremost (ps : List Pattern) (data : Bytes) (m : Match) : Prop :=
  ∃ i, Candidate ps data i 0 m ∧ ∀ i' m', Candidate ps data i' 0 m' →
    Ahead (m.pattern.standing i) (m'.pattern.standing i')

section Standing
variable {p p' : Pattern} {i i' o o' : Nat} {v v' : UInt8}

theorem Pattern.standing_of_anchor (h : p.anchor = some (o, v)) : p.standing i = (0, o, i) := by
  unfold standing
  rw [h]

theorem Pattern.standing_of_none (h : p.anchor = none) : p.standing i = (1, 0, i) := by
  unfold standing
  rw [h]

theorem Pattern.standing_index : (p.standing i).2.2 = i := by
  unfold standing
  split
  · rfl
  · rfl

theorem ahead_of_anchors (h : p.anchor = some (o, v)) (h' : p'.anchor = some (o', v'))
    (hle : o < o' ∨ o = o' ∧ i ≤ i') : Ahead (p.standing i) (p'.standing i') := by
  rw [Pattern.standing_of_anchor h, Pattern.standing_of_anchor h']
  simp only [Ahead, Prod.lex_def]
  exact Or.inr ⟨trivial, hle⟩

theorem ahead_of_none (h : p.anchor = some (o, v)) (h' : p'.anchor = none) :
    Ahead (p.standing i) (p'.standing i') := by
  rw [Pattern.standing_of_anchor h, Pattern.standing_of_none h']
  simp only [Ahead, Prod.lex_def]
  exact Or.inl Nat.zero_lt_one

theorem ahead_of_nones (h : p.anchor = none) (h' : p'.anchor = none) (hle : i ≤ i') :
    Ahead (p.standing i) (p'.standing i') := by
  rw [Pattern.standing_of_none h, Pattern.standing_of_none h']
  simp only [Ahead, Prod.lex_def]
  exact Or.inr ⟨trivial, Or.inr ⟨trivial, hle⟩⟩

theorem Ahead.antisymm {a b : Nat × Nat × Nat} (h : Ahead a b) (h' : Ahead b a) : a = b := by
  simp only [Ahead, Prod.lex_def] at h h'
  apply Prod.ext
  · omega
  · apply Prod.ext
    · omega
    · omega

theorem eq_of_ahead (h : Ahead (p.standing i) (p'.standing i'))
    (h' : Ahead (p'.standing i') (p.standing i)) : i = i' := by
  have heq := congrArg (·.2.2) (h.antisymm h')
  simpa only [Pattern.standing_index] using heq

end Standing

theorem Foremost.unique {ps : List Pattern} {data : Bytes} {m m' : Match}
    (h : Foremost ps data m) (h' : Foremost ps data m') : m = m' := by
  obtain ⟨i, hc, hfirst⟩ := h
  obtain ⟨i', hc', hfirst'⟩ := h'
  obtain rfl : i = i' := eq_of_ahead (hfirst _ _ hc') (hfirst' _ _ hc)
  exact hc.unique hc'

theorem Chosen.foremost {ps : List Pattern} {data : Bytes} {m : Match}
    (hstart : ∀ p ∈ ps, p.atStart = true) (h : Chosen ps data m) : Foremost ps data m := by
  cases h with
  | anchored i s o v hc ha hleast =>
    obtain rfl := hc.atStart (hstart _ hc.mem)
    refine ⟨i, hc, ?_⟩
    intro i' m' hc'
    cases ha' : m'.pattern.anchor with
    | none => exact ahead_of_none ha ha'
    | some a' =>
      have hahead := hleast i' 0 a'.1 a'.2 m' hc' ha'
      simp only [Ahead, Prod.lex_def] at hahead
      exact ahead_of_anchors ha ha' (by omega)
  | anchorless i s hc hnone hleast =>
    obtain rfl := hc.atStart (hstart _ hc.mem)
    refine ⟨i, hc, ?_⟩
    intro i' m' hc'
    have hle := hleast i' 0 m' hc'
    exact ahead_of_nones (hnone _ _ _ hc) (hnone _ _ _ hc') (by omega)

namespace Collection
variable {ps : List Pattern} {data : Bytes} {i : Nat} {m : Match}

theorem firstAtStart_eq (l : List Pattern) :
    firstAtStart l 0 data = l.findSome? (·.matchFrom? data 0) := by
  unfold firstAtStart Pattern.matchFrom?
  simp

def ungrouped (ps : List Pattern) (data : Bytes) : Option Match :=
  (ps.filter fun p => p.anchor.isNone).findSome? (·.matchFrom? data 0)

theorem matchAt?_eq : (ofList ps).matchAt? data =
    if data.length < (ofList ps).minLength then none
    else (sweep ps data fun o => o).or (ungrouped ps data) := by
  have hf := Filed.ofList ps
  unfold matchAt?
  dsimp only
  rw [findSome?_congr (g := fun e => data[e.1]?.bind fun v => inGroup ps data e.1 v e.1),
    Option.orElse_eq_orElse, Option.orElse_eq_or, firstAtStart_eq, anchorless_ofList]
  · rfl
  · rintro ⟨o, g⟩ hg
    have hget := Table.get?_of_mem hf.ascending hg
    dsimp only
    cases hv : data[o]? with
    | none => rfl
    | some v =>
      rw [Option.bind_some]
      by_cases hshort : data.length < g.minLength
      · rw [inGroup_short hget (by simpa using hshort)]
        exact if_pos hshort
      · simp only [if_neg hshort, inGroup, Nat.lt_irrefl, if_false, Nat.sub_self, firstAtStart_eq,
          hf.bucket_eq hget]

theorem sweep_start_eq_none (h : sweep ps data (fun o => o) = none) (hc : Candidate ps data i 0 m) :
    m.pattern.anchor = none := by
  refine Option.eq_none_iff_forall_ne_some.mpr fun a ha => ?_
  exact sweep_ne_none (o := a.1) (v := a.2) hc ha (Nat.zero_add _) h

theorem ungrouped_eq_some (h : ungrouped ps data = some m) : ∃ i,
    Candidate ps data i 0 m ∧ m.pattern.anchor = none ∧
      ∀ i' m', Candidate ps data i' 0 m' → m'.pattern.anchor = none → i ≤ i' := by
  obtain ⟨i, p, hp, ha, hm, hfirst⟩ := findSome?_filter_eq_some h
  have hc := Candidate.of_matchFrom? hp hm
  obtain rfl := Option.some.inj (hp.symm.trans hc.pattern)
  refine ⟨i, hc, by simpa using ha, ?_⟩
  intro i' m' hc' ha'
  apply Nat.le_of_not_lt
  intro hlt
  have hnone := hfirst i' m'.pattern hlt hc'.pattern (by simpa using ha')
  rw [hc'.matchFrom?] at hnone
  cases hnone

theorem ungrouped_eq_none (h : ungrouped ps data = none) (hc : Candidate ps data i 0 m) :
    m.pattern.anchor ≠ none := by
  intro ha
  have hnone := List.findSome?_eq_none_iff.mp h m.pattern
    (List.mem_filter.mpr ⟨hc.mem, by simpa using ha⟩)
  rw [hc.matchFrom?] at hnone
  cases hnone

theorem matchAt?_eq_some (h : (ofList ps).matchAt? data = some m) : Foremost ps data m := by
  rw [matchAt?_eq] at h
  split at h
  · cases h
  · rcases Option.or_eq_some_iff.mp h with hgroups | ⟨hgroups, hrest⟩
    · obtain ⟨i, s, o, v, hc, ha, hs, hfirst⟩ := sweep_eq_some hgroups
      obtain rfl : s = 0 := Nat.add_eq_right.mp hs
      refine ⟨i, hc, ?_⟩
      intro i' m' hc'
      cases ha' : m'.pattern.anchor with
      | none => exact ahead_of_none ha ha'
      | some a' =>
        exact ahead_of_anchors ha ha' (hfirst i' 0 a'.1 a'.2 m' hc' ha' (Nat.zero_add _))
    · obtain ⟨i, hc, ha, hfirst⟩ := ungrouped_eq_some hrest
      refine ⟨i, hc, ?_⟩
      intro i' m' hc'
      have ha' := sweep_start_eq_none hgroups hc'
      exact ahead_of_nones ha ha' (hfirst i' m' hc' ha')

theorem matchAt?_eq_none (h : (ofList ps).matchAt? data = none) : ¬ Candidate ps data i 0 m := by
  intro hc
  rw [matchAt?_eq] at h
  split at h
  · have := minLength_le hc.mem
    have := hc.length_le
    omega
  · obtain ⟨hgroups, hrest⟩ := Option.or_eq_none_iff.mp h
    exact ungrouped_eq_none hrest hc (sweep_start_eq_none hgroups hc)

theorem matchAt?_of_foremost (h : Foremost ps data m) : (ofList ps).matchAt? data = some m := by
  cases hmatch : (ofList ps).matchAt? data with
  | none =>
    obtain ⟨i, hc, -⟩ := h
    exact absurd hc (matchAt?_eq_none hmatch)
  | some m' => rw [(matchAt?_eq_some hmatch).unique h]

/-- At the start the foremost candidate is found, and nothing only if no pattern matches there. If
all patterns stand at the start, a scan finds the same. -/
theorem matchAt?_foremost (ps : List Pattern) (data : Bytes) :
    ((ofList ps).matchAt? data = none ↔ ∀ p ∈ ps, p.matchAt? data = none) ∧
    (∀ m, (ofList ps).matchAt? data = some m ↔ Foremost ps data m) ∧
    ((∀ p ∈ ps, p.atStart = true) → (ofList ps).find? data = (ofList ps).matchAt? data) := by
  refine ⟨⟨?_, ?_⟩, fun m => ⟨matchAt?_eq_some, matchAt?_of_foremost⟩, ?_⟩
  · intro h p hp
    refine Option.eq_none_iff_forall_ne_some.mpr fun hit hhit => ?_
    obtain ⟨i, hi⟩ := List.getElem?_of_mem hp
    have hc : Candidate ps data i 0 ⟨p, 0, hit⟩ := ⟨hi, rfl, hhit, fun _ => rfl⟩
    exact matchAt?_eq_none h hc
  · intro h
    refine Option.eq_none_iff_forall_ne_some.mpr fun m hm => ?_
    obtain ⟨i, hc, -⟩ := matchAt?_eq_some hm
    have hhit := hc.hit
    rw [List.drop_zero, h _ hc.mem] at hhit
    cases hhit
  · intro hstart
    cases hfind : (ofList ps).find? data with
    | some m => exact (matchAt?_of_foremost ((find?_eq_some hfind).foremost hstart)).symm
    | none =>
      refine (Option.eq_none_iff_forall_ne_some.mpr fun m hm => ?_).symm
      obtain ⟨i, hc, -⟩ := matchAt?_eq_some hm
      exact find?_eq_none hfind hc

/-- Of three patterns that match, the scan finds the one whose anchor is nearest. -/
theorem find?_foremost :
    let nowhere : AddressMeaning := ⟨⟨.abs64, false, false⟩, 0⟩
    let ps : List Pattern := [
      ⟨"behind a gap", [.gap, .literal 0x25], nowhere, true, by decide, by decide⟩,
      ⟨"far", [.any, .any, .literal 0x25], nowhere, true, by decide, by decide⟩,
      ⟨"near", [.address, .literal 0xff], nowhere, true, by decide, by decide⟩,
      ⟨"nearer", [.literal 0x90], nowhere, true, by decide, by decide⟩]
    ((ofList ps).find? [0x48, 0xff, 0x25]).map (fun m => (m.pattern.name, m.offset, m.hit)) =
      some ("near", 0, ⟨2, 0x48⟩) := by
  intro nowhere ps
  have hstart : ∀ p ∈ ps, p.atStart = true := by decide
  rw [(matchAt?_foremost ps _).2.2 hstart]
  decide

end Collection

end Interpose

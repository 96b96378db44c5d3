import Interpose.Arch.Isa
import Interpose.Proofs.Pattern.Scan

/-!
# Windows that are wide enough

A pattern without gaps looks at as many bytes as it has items, and one that stands at the start
looks nowhere else. So the candidates of a collection of such patterns are the same in all windows
that hold its longest pattern, and so is the one that it finds. The thunks of every instruction set
are such patterns.
-/

namespace Interpose

variable {items : List Item} {item : Item} {data data' : Bytes} {n : Nat}

theorem minLength_cons (h : item ≠ .gap) : minLength (item :: items) = minLength items + 1 := by
  simp [minLength, h]

/-- Items without gaps look at no byte behind those they cover. -/
theorem matchItems_take (hgap : .gap ∉ items) (hn : minLength items ≤ n) :
    matchItems items (data.take n) = matchItems items data := by
  induction items generalizing data n with
  | nil => rfl
  | cons item items ih =>
    obtain ⟨hitem, hrest⟩ : item ≠ .gap ∧ .gap ∉ items := by
      simpa [eq_comm] using hgap
    rw [minLength_cons hitem] at hn
    obtain ⟨k, rfl⟩ := Nat.exists_eq_add_of_lt hn
    cases data with
    | nil => rfl
    | cons b data =>
      have htail : matchItems items (data.take (minLength items + k)) = matchItems items data :=
        ih hrest (Nat.le_add_right _ k)
      rw [List.take_succ_cons]
      cases item with
      | gap => exact absurd rfl hitem
      | literal value => rw [matchItems, matchItems, htail]
      | any => rw [matchItems, matchItems, htail]
      | address => rw [matchItems, matchItems, htail]

namespace Pattern
variable {p : Pattern}

/-- A pattern that is told by the first bytes of the data, as many as it has items. -/
structure Rigid (p : Pattern) : Prop where
  atStart : p.atStart = true
  gapless : .gap ∉ p.items

instance (p : Pattern) : Decidable p.Rigid :=
  decidable_of_iff (p.atStart = true ∧ .gap ∉ p.items)
    ⟨fun h => ⟨h.1, h.2⟩, fun h => ⟨h.atStart, h.gapless⟩⟩

theorem Rigid.matchAt?_take (h : p.Rigid) (hn : p.minLength ≤ n) :
    p.matchAt? (data.take n) = p.matchAt? data := by
  have hshort : (data.take n).length < p.minLength ↔ data.length < p.minLength := by
    rw [List.length_take]
    omega
  rw [matchAt?_eq, matchAt?_eq, matchItems_take h.gapless hn]
  simp only [hshort]

end Pattern

theorem Chosen.congr {ps : List Pattern} {m : Match}
    (hsame : ∀ i s m, Candidate ps data i s m ↔ Candidate ps data' i s m)
    (h : Chosen ps data m) : Chosen ps data' m := by
  cases h with
  | anchored i s o v hc ha hleast =>
    refine .anchored i s o v ((hsame _ _ _).mp hc) ha ?_
    intro i' s' o' v' m' hc'
    exact hleast i' s' o' v' m' ((hsame _ _ _).mpr hc')
  | anchorless i s hc hnone hleast =>
    refine .anchorless i s ((hsame _ _ _).mp hc) ?_ ?_
    · intro i' s' m' hc'
      exact hnone i' s' m' ((hsame _ _ _).mpr hc')
    · intro i' s' m' hc'
      exact hleast i' s' m' ((hsame _ _ _).mpr hc')

namespace Collection
variable {ps : List Pattern}

theorem find?_congr (hsame : ∀ i s m, Candidate ps data i s m ↔ Candidate ps data' i s m) :
    (ofList ps).find? data = (ofList ps).find? data' := by
  cases hfind : (ofList ps).find? data with
  | none =>
    refine (Option.eq_none_iff_forall_ne_some.mpr fun m hm => ?_).symm
    obtain ⟨i, s, hc⟩ := (find?_eq_some hm).candidate
    exact find?_eq_none hfind ((hsame i s m).mpr hc)
  | some m => exact (find?_of_chosen ((find?_eq_some hfind).congr hsame)).symm

theorem candidate_take (hrigid : ∀ p ∈ ps, p.Rigid) (hn : (ofList ps).maxMinLength ≤ n)
    (i s : Nat) (m : Match) :
    Candidate ps (data.take n) i s m ↔ Candidate ps data i s m := by
  have hhit (hp : m.pattern ∈ ps) :
      m.pattern.matchAt? (data.take n) = m.pattern.matchAt? data :=
    (hrigid _ hp).matchAt?_take (Nat.le_trans (minLength_le_maxMinLength hp) hn)
  constructor
  · intro hc
    obtain rfl := hc.atStart (hrigid _ hc.mem).atStart
    exact ⟨hc.pattern, hc.offset, (hhit hc.mem).symm.trans hc.hit, hc.atStart⟩
  · intro hc
    obtain rfl := hc.atStart (hrigid _ hc.mem).atStart
    exact ⟨hc.pattern, hc.offset, (hhit hc.mem).trans hc.hit, hc.atStart⟩

/-- Rigid patterns find the same in a window as in all of the data, if the window is as wide as the
longest of them needs; and all thunks are rigid. -/
theorem find?_window :
    (∀ ps : List Pattern, (∀ p ∈ ps, p.Rigid) → ∀ (data : Bytes) (n : Nat),
      (ofList ps).maxMinLength ≤ n → (ofList ps).find? (data.take n) = (ofList ps).find? data) ∧
    ∀ isa : Isa, ∃ ps, isa.thunks = ofList ps ∧ ∀ p ∈ ps, p.Rigid := by
  constructor
  · intro ps hrigid data n hn
    exact find?_congr (candidate_take hrigid hn)
  · intro isa
    cases isa with
    | x86 => exact ⟨Thunk.x86, rfl, by decide⟩
    | x86_64 => exact ⟨Thunk.x86_64, rfl, by decide⟩
    | aarch64 => exact ⟨Thunk.aarch64, rfl, by decide⟩

/-- The shorter of two patterns has its anchor further from its start. Both stand in the data, and
the window ends with them. -/
theorem find?_window_cut :
    let nowhere : AddressMeaning := ⟨⟨.abs32, false, false⟩, 0⟩
    let ps : List Pattern := [
      ⟨"short", [.address, .any, .literal 0xC3], nowhere, true, by decide, by decide⟩,
      ⟨"long", [.any, .literal 0xE9, .any, .any, .any], nowhere, true, by decide, by decide⟩]
    let data : Bytes := [0x48, 0xE9, 0xC3, 0, 0, 0xE9, 0xC3]
    (∀ p ∈ ps, p.Rigid) ∧ (ofList ps).maxMinLength = 5 ∧
      (ofList ps).find? (data.take 5) = (ofList ps).find? data ∧
      ((ofList ps).find? data).map (fun m => (m.pattern.name, m.offset, m.hit)) =
        some ("long", 0, ⟨5, 0⟩) := by
  intro nowhere ps data
  have hrigid : ∀ p ∈ ps, p.Rigid := by decide
  have hwide : (ofList ps).maxMinLength = 5 := by decide
  have hsame := find?_window.1 ps hrigid data 5 (Nat.le_of_eq hwide)
  exact ⟨hrigid, hwide, hsame, by decide +kernel⟩

end Collection

end Interpose

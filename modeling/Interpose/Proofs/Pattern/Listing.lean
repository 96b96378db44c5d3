import Interpose.Proofs.Pattern.Export

/-!
# What an index holds and how it is listed

Groups are opened one by one, lowered to the shortest pattern they get, and sorted in the end. The
index that comes out has each pattern under its own anchor, as often as it was registered and in
that order, and each group is as long as the shortest pattern it holds. Listing it group by group
and bucket by bucket sorts the patterns by their anchors, and the sort is stable.
-/

namespace Interpose

inductive AnchorLE : Option (Nat × UInt8) → Option (Nat × UInt8) → Prop
  | nearer {o o' : Nat} {v v' : UInt8} : o < o' → AnchorLE (some (o, v)) (some (o', v'))
  | lower {o : Nat} {v v' : UInt8} : v ≤ v' → AnchorLE (some (o, v)) (some (o, v'))
  | unanchored {a : Option (Nat × UInt8)} : AnchorLE a none

/-- Every pattern is filed under its anchor and nowhere else: a bucket is the list of the patterns
that have its anchor, each as often as it was registered, in the order of registration. A group is
as long as the shortest pattern in it. -/
structure Collection.Indexes (c : Collection) (ps : List Pattern) : Prop where
  offsets : c.groups.Ascending
  values : ∀ o g, c.groups.get? o = some g → g.buckets.Ascending
  bucket : ∀ o v, AnchorGroup.bucket? (c.groups.get? o) v = ps.filter (·.anchor = some (o, v))
  anchorless : c.anchorless = ps.filter (·.anchor = none)
  shortest : ∀ o g, c.groups.get? o = some g →
    (g.members.map Pattern.minLength).min? = some g.minLength

/-- The listing is a stable sort of the patterns by their anchors, and the two lengths are the least
and the greatest in it. -/
structure Collection.Lists (c : Collection) (ps : List Pattern) : Prop where
  perm : c.toList.Perm ps
  sorted : c.toList.Pairwise fun p q => AnchorLE p.anchor q.anchor
  stable : ∀ a, c.toList.filter (·.anchor = a) = ps.filter (·.anchor = a)
  least : c.toList ≠ [] → IsLeast {n | n ∈ c.toList.map Pattern.minLength} c.minLength
  greatest : c.toList ≠ [] → IsGreatest {n | n ∈ c.toList.map Pattern.minLength} c.maxMinLength
  empty : c.toList = [] → c.minLength = 0 ∧ c.maxMinLength = 0

namespace Filed
variable {ps : List Pattern} {groups : Table Nat AnchorGroup} {g : AnchorGroup} {p : Pattern}
  {o : Nat}

theorem mem_members (h : Filed ps groups) (hg : groups.get? o = some g) :
    p ∈ g.members ↔ p ∈ ps ∧ ∃ v, p.anchor = some (o, v) := by
  have hmem : ∀ v, p.anchor = some (o, v) → (p ∈ g.members ↔ p ∈ ps) := by
    intro v hv
    have hsame : p ∈ g.members.filter (·.anchor = some (o, v)) ↔
        p ∈ ps.filter (·.anchor = some (o, v)) := by rw [h.members_filter hg]
    simpa [hv] using hsame
  constructor
  · intro hp
    obtain ⟨v, hv⟩ := h.anchor_of_mem_members hg hp
    exact ⟨(hmem v hv).mp hp, v, hv⟩
  · rintro ⟨hp, v, hv⟩
    exact (hmem v hv).mpr hp

theorem min?_members (h : Filed ps groups) (ht : Tight ps groups) (hg : groups.get? o = some g) :
    (g.members.map Pattern.minLength).min? = some g.minLength := by
  refine List.min?_eq_some_iff.mpr ⟨?_, ?_⟩
  · obtain ⟨p, hp, v, hv, hlen⟩ := ht.attained o g hg
    exact List.mem_map.mpr ⟨p, (h.mem_members hg).mpr ⟨hp, v, hv⟩, hlen⟩
  · intro n hn
    obtain ⟨p, hp, rfl⟩ := List.mem_map.mp hn
    obtain ⟨hps, v, hv⟩ := (h.mem_members hg).mp hp
    exact h.minLength o g hg p hps v hv

theorem members_sorted (h : Filed ps groups) (hg : groups.get? o = some g) :
    g.members.Pairwise fun p q => AnchorLE p.anchor q.anchor := by
  refine List.pairwise_flatMap.mpr ⟨?_, (h.buckets o g hg).imp_of_mem ?_⟩
  · intro e he
    refine List.pairwise_of_forall_mem_list fun p hp q hq => ?_
    rw [h.anchor_of_mem_entry hg he hp, h.anchor_of_mem_entry hg he hq]
    exact .lower (UInt8.le_refl _)
  · intro e e' he he' hlt p hp q hq
    rw [h.anchor_of_mem_entry hg he hp, h.anchor_of_mem_entry hg he' hq]
    exact .lower (UInt8.le_of_lt hlt)

end Filed

namespace Collection
variable {ps : List Pattern}

theorem toList_sorted (ps : List Pattern) :
    (ofList ps).toList.Pairwise fun p q => AnchorLE p.anchor q.anchor := by
  have hf := Filed.ofList ps
  have hlast : ∀ (p q : Pattern), q ∈ (ofList ps).anchorless → AnchorLE p.anchor q.anchor := by
    intro p q hq
    rw [anchorless_ofList] at hq
    rw [Option.isNone_iff_eq_none.mp (List.mem_filter.mp hq).2]
    exact .unanchored
  have hgroups : ((ofList ps).groups.flatMap (·.2.members)).Pairwise
      fun p q => AnchorLE p.anchor q.anchor := by
    refine List.pairwise_flatMap.mpr ⟨?_, hf.ascending.imp_of_mem ?_⟩
    · intro e he
      exact hf.members_sorted (Table.get?_of_mem hf.ascending he)
    · intro e e' he he' hlt p hp q hq
      obtain ⟨v, hv⟩ := hf.anchor_of_mem_members (Table.get?_of_mem hf.ascending he) hp
      obtain ⟨v', hv'⟩ := hf.anchor_of_mem_members (Table.get?_of_mem hf.ascending he') hq
      rw [hv, hv']
      exact .nearer hlt
  refine List.pairwise_append.mpr ⟨hgroups, ?_, fun p _ q hq => hlast p q hq⟩
  exact List.pairwise_of_forall_mem_list fun p _ q hq => hlast p q hq

theorem minLength_eq (ps : List Pattern) :
    (ofList ps).minLength = (((ofList ps).toList.map Pattern.minLength).min?).getD 0 :=
  (minLength_perm (toList_perm ps)).symm

theorem maxMinLength_eq (ps : List Pattern) :
    (ofList ps).maxMinLength = (((ofList ps).toList.map Pattern.minLength).max?).getD 0 :=
  congrArg (·.getD 0) (max?_perm (toList_perm ps) Pattern.minLength).symm

theorem ofList_indexes (ps : List Pattern) : (ofList ps).Indexes ps where
  offsets := (Filed.ofList ps).ascending
  values := (Filed.ofList ps).buckets
  bucket := (Filed.ofList ps).bucket
  anchorless := by
    rw [anchorless_ofList]
    refine List.filter_congr fun p _ => ?_
    cases p.anchor with
    | none => rfl
    | some a => rfl
  shortest _ _ hg := (Filed.ofList ps).min?_members (Tight.ofList ps) hg

theorem ofList_lists (ps : List Pattern) : (ofList ps).Lists ps where
  perm := toList_perm ps
  sorted := toList_sorted ps
  stable := toList_filter ps
  least hne := by
    rw [minLength_eq]
    exact isLeast_min? fun h => hne (List.map_eq_nil_iff.mp h)
  greatest hne := by
    rw [maxMinLength_eq]
    exact isGreatest_max? fun h => hne (List.map_eq_nil_iff.mp h)
  empty h := by
    rw [minLength_eq, maxMinLength_eq, h]
    exact ⟨rfl, rfl⟩

/-- A collection indexes the patterns it is made of, and so it lists them. -/
theorem ofList_represents (ps : List Pattern) :
    (ofList ps).Indexes ps ∧ (ofList ps).Lists ps :=
  ⟨ofList_indexes ps, ofList_lists ps⟩

/-- The group at distance two is opened first and listed last. Of the other group the bucket of the
lower byte is listed first, although it was filled last. -/
example :
    let nowhere : AddressMeaning := ⟨⟨.abs32, false, false⟩, 0⟩
    let ps : List Pattern := [
      ⟨"far", [.any, .address, .literal 0xC3], nowhere, false, by decide, by decide⟩,
      ⟨"jump", [.literal 0xE9, .address], nowhere, false, by decide, by decide⟩,
      ⟨"behind a gap", [.gap, .literal 0xCC], nowhere, false, by decide, by decide⟩,
      ⟨"jump again", [.literal 0xE9, .any], nowhere, false, by decide, by decide⟩,
      ⟨"wide", [.literal 0x48, .any, .any, .any], nowhere, false, by decide, by decide⟩]
    (ofList ps).toList.map (·.name) = ["wide", "jump", "jump again", "far", "behind a gap"] ∧
      (ofList ps).groups.map (fun e => (e.1, e.2.minLength)) = [(0, 2), (2, 3)] ∧
      (ofList ps).minLength = 1 ∧ (ofList ps).maxMinLength = 4 := by
  decide

end Collection

end Interpose

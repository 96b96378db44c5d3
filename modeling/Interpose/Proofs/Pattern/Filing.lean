import Interpose.Pattern.Collection
import Mathlib.Order.Bounds.Basic

/-!
# How patterns are filed

A collection files each pattern under its anchor and loses none: the bucket of an anchor is the
list of patterns that have it, in order of registration, and a group is no longer than the shortest
of its patterns. That the groups are sorted only in the end makes no difference: they come out as if
each pattern had been filed in sorted groups (`fileAnchored`), and it is these that are reasoned
about. The set of anchor bytes is the set of bytes that some pattern is anchored on, and the lengths
of a collection are bounds of those of its patterns.
-/

namespace Interpose

namespace ByteSet

theorem find?_ofList (bytes data : Bytes) :
    (ofList bytes).find? data = data.findIdx? fun x => bytes.contains x := by
  have congr {q r : UInt8 → Bool} (h : ∀ x, q x = r x) : data.findIdx? q = data.findIdx? r :=
    congrArg data.findIdx? (funext h)
  unfold ofList
  split
  · exact (List.findIdx?_eq_none_iff.mpr fun _ _ => rfl).symm
  · exact congr fun x => by simp only [List.contains_cons, List.contains_nil, Bool.or_false]
  · exact congr fun x => by simp only [List.contains_cons, List.contains_nil, Bool.or_false]
  · exact congr fun x => by
      simp only [List.contains_cons, List.contains_nil, Bool.or_false, Bool.or_assoc]
  · refine congr fun x => ?_
    show (Vector.ofFn fun value => bytes.contains (UInt8.ofFin value))[x.toFin.val] = _
    rw [Vector.getElem_ofFn]
    rfl

end ByteSet

namespace AnchorGroup
variable {g : AnchorGroup} {group : Option AnchorGroup} {p : Pattern} {value v : UInt8}

def bucket? (group : Option AnchorGroup) (value : UInt8) : List Pattern :=
  group.elim [] (·.bucket value)

theorem buckets_getD {n : Nat} (h : ∀ g, group = some g → g.buckets.Ascending) :
    (group.getD ⟨n, []⟩).buckets.Ascending := by
  cases group with
  | none => exact List.Pairwise.nil
  | some g => exact h g rfl

theorem buckets_add (h : ∀ g, group = some g → g.buckets.Ascending) :
    (add value p group).buckets.Ascending := (buckets_getD h).alter

theorem bucket_add (h : ∀ g, group = some g → g.buckets.Ascending) :
    (add value p group).bucket v = bucket? group v ++ if v = value then [p] else [] := by
  have hold : (group.getD ⟨p.minLength, []⟩).bucket v = bucket? group v := by
    cases group <;> rfl
  rw [← hold]
  by_cases hv : v = value
  · subst hv
    simp only [add, bucket, Table.get?_alter_self (buckets_getD h), Option.getD_some, if_true]
  · simp only [add, bucket, Table.get?_alter_of_ne hv, if_neg hv, List.append_nil]

end AnchorGroup

/-- Files a pattern in the group of its anchor, the groups being kept in order. -/
def fileAnchored (groups : Table Nat AnchorGroup) (p : Pattern) : Table Nat AnchorGroup :=
  match p.anchor with
  | some (offset, value) => groups.alter offset (AnchorGroup.add value p)
  | none => groups

namespace Filing
variable {f : Filing} {p : Pattern} {ps : List Pattern}

theorem sort_file : Table.sort (f.file p).groups = fileAnchored (Table.sort f.groups) p := by
  unfold file fileAnchored
  cases p.anchor with
  | none => rfl
  | some a => exact Table.sort_amend f.groups

theorem anchorless_file :
    (f.file p).anchorless = f.anchorless ++ [p].filter fun q => q.anchor.isNone := by
  unfold file
  cases hanchor : p.anchor with
  | none => simp [hanchor]
  | some a => simp [hanchor]

theorem sort_foldl : Table.sort (ps.foldl file f).groups =
    ps.foldl fileAnchored (Table.sort f.groups) := by
  induction ps generalizing f with
  | nil => rfl
  | cons p rest ih => rw [List.foldl_cons, List.foldl_cons, ih, sort_file]

theorem anchorless_foldl : (ps.foldl file f).anchorless =
    f.anchorless ++ ps.filter fun p => p.anchor.isNone := by
  induction ps generalizing f with
  | nil => exact (List.append_nil _).symm
  | cons p rest ih =>
    rw [List.foldl_cons, ih, anchorless_file, List.append_assoc, ← List.filter_append]
    rfl

end Filing

/-- Groups that are sorted in the end are the groups that were kept in order. -/
theorem Collection.groups_ofList (ps : List Pattern) :
    (ofList ps).groups = ps.foldl fileAnchored [] := Filing.sort_foldl

/-- What holds of no patterns and no groups, and still holds after one more pattern is filed, holds
of all groups of a collection. -/
theorem Collection.groups_induction {motive : List Pattern → Table Nat AnchorGroup → Prop}
    (nil : motive [] [])
    (file : ∀ ps groups p, motive ps groups → motive (ps ++ [p]) (fileAnchored groups p))
    (ps : List Pattern) : motive ps (ofList ps).groups := by
  suffices hfold : ∀ (rest filed : List Pattern) (groups : Table Nat AnchorGroup),
      motive filed groups → motive (filed ++ rest) (rest.foldl fileAnchored groups) by
    rw [groups_ofList]
    exact hfold ps [] [] nil
  intro rest
  induction rest with
  | nil =>
    intro filed groups h
    rwa [List.append_nil]
  | cons p rest ih =>
    intro filed groups h
    have hrest := ih (filed ++ [p]) _ (file filed groups p h)
    rwa [List.append_assoc] at hrest

theorem Collection.anchorless_ofList (ps : List Pattern) :
    (ofList ps).anchorless = ps.filter fun p => p.anchor.isNone := Filing.anchorless_foldl

/-- What filing some patterns comes to. -/
structure Filed (ps : List Pattern) (groups : Table Nat AnchorGroup) : Prop where
  ascending : groups.Ascending
  buckets : ∀ o g, groups.get? o = some g → g.buckets.Ascending
  bucket : ∀ o v, AnchorGroup.bucket? (groups.get? o) v = ps.filter (·.anchor = some (o, v))
  minLength : ∀ o g, groups.get? o = some g →
    ∀ p ∈ ps, ∀ v, p.anchor = some (o, v) → g.minLength ≤ p.minLength

namespace Filed
variable {ps : List Pattern} {groups : Table Nat AnchorGroup} {p : Pattern} {o : Nat}
  {v : UInt8} {g : AnchorGroup}

theorem nil : Filed [] [] :=
  ⟨List.Pairwise.nil, nofun, fun _ _ => rfl, fun _ _ _ _ hp => absurd hp List.not_mem_nil⟩

theorem file_unanchored (h : Filed ps groups) (hanchor : p.anchor = none) :
    Filed (ps ++ [p]) groups := by
  refine ⟨h.ascending, h.buckets, fun o v => ?_, fun o g hg q hq v hv => ?_⟩
  · simp [h.bucket o v, List.filter_append, hanchor]
  · rcases List.mem_append.mp hq with hq | hq
    · exact h.minLength o g hg q hq v hv
    · rw [List.mem_singleton.mp hq, hanchor] at hv
      cases hv

theorem exists_group (h : Filed ps groups) (hp : p ∈ ps) (hanchor : p.anchor = some (o, v)) :
    ∃ g, groups.get? o = some g := by
  have hmem : p ∈ ps.filter (·.anchor = some (o, v)) := by simpa using ⟨hp, hanchor⟩
  rw [← h.bucket o v] at hmem
  cases hgroup : groups.get? o with
  | none =>
    rw [hgroup] at hmem
    cases hmem
  | some g => exact ⟨g, rfl⟩

theorem file_anchored (h : Filed ps groups) (hanchor : p.anchor = some (o, v)) :
    Filed (ps ++ [p]) (groups.alter o (AnchorGroup.add v p)) := by
  have hself : (groups.alter o (AnchorGroup.add v p)).get? o =
      some (AnchorGroup.add v p (groups.get? o)) := Table.get?_alter_self h.ascending
  have hother {o'} (ho : o' ≠ o) :
      (groups.alter o (AnchorGroup.add v p)).get? o' = groups.get? o' := Table.get?_alter_of_ne ho
  refine ⟨h.ascending.alter, fun o' g hg => ?_, fun o' v' => ?_, fun o' g hg q hq v' hv => ?_⟩
  · by_cases ho : o' = o
    · subst ho
      cases hself.symm.trans hg
      exact AnchorGroup.buckets_add (h.buckets o')
    · exact h.buckets o' g ((hother ho).symm.trans hg)
  · rw [List.filter_append, ← h.bucket o' v']
    by_cases ho : o' = o
    · subst ho
      rw [hself]
      show (AnchorGroup.add v p (groups.get? o')).bucket v' = _
      rw [AnchorGroup.bucket_add (h.buckets o')]
      by_cases hv : v' = v
      · simp [hv, hanchor]
      · simp [hv, hanchor, Ne.symm hv]
    · rw [hother ho]
      simp [hanchor, Ne.symm ho]
  · by_cases ho : o' = o
    · subst ho
      cases hself.symm.trans hg
      rcases List.mem_append.mp hq with hq | hq
      · obtain ⟨g, hgroup⟩ := h.exists_group hq hv
        rw [hgroup]
        exact Nat.le_trans (Nat.min_le_left _ _) (h.minLength o' g hgroup q hq v' hv)
      · rw [List.mem_singleton.mp hq]
        exact Nat.min_le_right _ _
    · rcases List.mem_append.mp hq with hq | hq
      · exact h.minLength o' g ((hother ho).symm.trans hg) q hq v' hv
      · rw [List.mem_singleton.mp hq, hanchor] at hv
        cases hv
        exact absurd rfl ho

theorem file (h : Filed ps groups) (p : Pattern) : Filed (ps ++ [p]) (fileAnchored groups p) := by
  unfold fileAnchored
  split
  · exact h.file_anchored ‹_›
  · exact h.file_unanchored ‹_›

theorem ofList (ps : List Pattern) : Filed ps (Collection.ofList ps).groups :=
  Collection.groups_induction nil (fun _ _ p h => h.file p) ps

theorem bucket_eq (h : Filed ps groups) (hg : groups.get? o = some g) (v : UInt8) :
    g.bucket v = ps.filter (·.anchor = some (o, v)) := by
  rw [← h.bucket o v, hg]
  rfl

end Filed

theorem isLeast_min? {l : List Nat} (hne : l ≠ []) : IsLeast {n | n ∈ l} (l.min?.getD 0) := by
  cases hmin : l.min? with
  | none => exact absurd (List.min?_eq_none_iff.mp hmin) hne
  | some n => exact List.min?_eq_some_iff.mp hmin

theorem isGreatest_max? {l : List Nat} (hne : l ≠ []) :
    IsGreatest {n | n ∈ l} (l.max?.getD 0) := by
  cases hmax : l.max? with
  | none => exact absurd (List.max?_eq_none_iff.mp hmax) hne
  | some n => exact List.max?_eq_some_iff.mp hmax

namespace Collection
variable {ps : List Pattern} {v : UInt8} {p : Pattern} {o : Nat}

theorem minLength_le (hp : p ∈ ps) : (ofList ps).minLength ≤ p.minLength := by
  have hmem : p.minLength ∈ ps.map Pattern.minLength := List.mem_map_of_mem hp
  exact (isLeast_min? (List.ne_nil_of_mem hmem)).2 hmem

theorem minLength_le_maxMinLength (hp : p ∈ ps) : p.minLength ≤ (ofList ps).maxMinLength := by
  have hmem : p.minLength ∈ ps.map Pattern.minLength := List.mem_map_of_mem hp
  exact (isGreatest_max? (List.ne_nil_of_mem hmem)).2 hmem

theorem isAnchorByte_iff :
    (ofList ps).isAnchorByte v = true ↔ ∃ p ∈ ps, ∃ o, p.anchor = some (o, v) := by
  have hf := Filed.ofList ps
  unfold isAnchorByte
  rw [List.any_eq_true]
  constructor
  · rintro ⟨⟨o, g⟩, hg, hne⟩
    rw [hf.bucket_eq (Table.get?_of_mem hf.ascending hg)] at hne
    obtain ⟨p, hp, hanchor⟩ : ∃ p ∈ ps, p.anchor = some (o, v) := by simpa using hne
    exact ⟨p, hp, o, hanchor⟩
  · rintro ⟨p, hp, o, hanchor⟩
    obtain ⟨g, hg⟩ := hf.exists_group hp hanchor
    refine ⟨(o, g), Table.mem_of_get? hg, ?_⟩
    rw [hf.bucket_eq hg]
    simpa using ⟨p, hp, hanchor⟩

theorem anchorBytes_find? (data : Bytes) :
    (ofList ps).anchorBytes.find? data = data.findIdx? (ofList ps).isAnchorByte := by
  unfold anchorBytes
  rw [ByteSet.find?_ofList]
  refine congrArg data.findIdx? (funext fun x => Bool.eq_iff_iff.mpr ?_)
  rw [List.contains_iff_mem, List.mem_filter]
  refine and_iff_right (List.mem_map.mpr ⟨x.toNat, ?_, UInt8.ofNat_toNat⟩)
  exact List.mem_range.mpr x.toNat_lt

end Collection

end Interpose

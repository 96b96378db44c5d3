import Interpose.Proofs.Pattern.Filing
import Interpose.Proofs.Pattern.Text
import Mathlib.Data.List.Sort

/-!
# Collections rebuilt from their own listing

A collection lists its patterns by anchor and not in order of registration. The index made of that
listing is still the same index: it is fixed by the patterns of each anchor, and these are listed in
the order in which they were registered. So a collection that is written out and read in again
matches as before.
-/

namespace Interpose

namespace Table
variable {κ α β : Type} [LE κ] [LT κ] [DecidableLT κ] [DecidableEq κ] [Std.IsLinearOrder κ]
  [Std.LawfulOrderLT κ] {t u : Table κ α} {key : κ}

omit [DecidableLT κ] in
theorem ext_of_get? (ht : t.Ascending) (hu : u.Ascending)
    (h : ∀ k v, t.get? k = some v ↔ u.get? k = some v) : t = u := by
  have hirrefl : Std.Irrefl fun x y : κ × α => x.1 < y.1 := ⟨fun x => by grind⟩
  have hantisymm : Std.Antisymm fun x y : κ × α => x.1 < y.1 := ⟨fun x y => by grind⟩
  refine List.Pairwise.eq_of_mem_iff ht hu fun e => ?_
  obtain ⟨k, v⟩ := e
  constructor
  · intro hmem
    exact mem_of_get? ((h k v).mp (get?_of_mem ht hmem))
  · intro hmem
    exact mem_of_get? ((h k v).mpr (get?_of_mem hu hmem))

theorem flatMap_eq_single {f : κ × α → List β} (ht : t.Ascending)
    (h : ∀ e ∈ t, e.1 ≠ key → f e = []) : t.flatMap f = (single key (t.get? key)).flatMap f := by
  obtain ⟨pre, post, hpre, hpost, hs⟩ := exists_split ht key
  have hnil : ∀ part : Table κ α, (∀ e ∈ part, e ∈ t ∧ e.1 ≠ key) → part.flatMap f = [] := by
    intro part hpart
    exact List.flatMap_eq_nil_iff.mpr fun e he => h e (hpart e he).1 (hpart e he).2
  have hpreNil := hnil pre fun e he => ⟨by rw [hs]; simp [he], by have := hpre e he; grind⟩
  have hpostNil := hnil post fun e he => ⟨by rw [hs]; simp [he], by have := hpost e he; grind⟩
  calc t.flatMap f = (pre ++ single key (t.get? key) ++ post).flatMap f := by rw [← hs]
    _ = (single key (t.get? key)).flatMap f := by
      rw [List.flatMap_append, List.flatMap_append, hpreNil, hpostNil, List.nil_append,
        List.append_nil]

end Table

/-- Every group is as long as one of its patterns, and no bucket is empty. -/
structure Tight (ps : List Pattern) (groups : Table Nat AnchorGroup) : Prop where
  attained : ∀ o g, groups.get? o = some g →
    ∃ p ∈ ps, ∃ v, p.anchor = some (o, v) ∧ p.minLength = g.minLength
  occupied : ∀ o g, groups.get? o = some g → ∀ v l, g.buckets.get? v = some l → l ≠ []

namespace AnchorGroup
variable {group : Option AnchorGroup} {p : Pattern} {value : UInt8}

theorem minLength_add : (add value p group).minLength = p.minLength ∨
    ∃ g, group = some g ∧ (add value p group).minLength = g.minLength := by
  cases group with
  | none => exact Or.inl (Nat.min_self _)
  | some g =>
    rcases Nat.le_total g.minLength p.minLength with hle | hle
    · exact Or.inr ⟨g, rfl, Nat.min_eq_left hle⟩
    · exact Or.inl (Nat.min_eq_right hle)

theorem occupied_add (hb : ∀ g, group = some g → g.buckets.Ascending)
    (h : ∀ g, group = some g → ∀ v l, g.buckets.get? v = some l → l ≠ []) {v : UInt8}
    {l : List Pattern} (hl : (add value p group).buckets.get? v = some l) : l ≠ [] := by
  have hascending := buckets_getD (n := p.minLength) hb
  by_cases hv : v = value
  · subst hv
    cases (Table.get?_alter_self hascending).symm.trans hl
    simp
  · have hold : (group.getD ⟨p.minLength, []⟩).buckets.get? v = some l := by
      rwa [← Table.get?_alter_of_ne hv]
    cases group with
    | none => cases hold
    | some g => exact h g rfl v l hold

end AnchorGroup

namespace Tight
variable {ps qs : List Pattern} {groups groups' : Table Nat AnchorGroup} {p : Pattern} {o : Nat}
  {v : UInt8} {g : AnchorGroup}

theorem file_anchored (hf : Filed ps groups) (ht : Tight ps groups)
    (hanchor : p.anchor = some (o, v)) :
    Tight (ps ++ [p]) (groups.alter o (AnchorGroup.add v p)) := by
  have hself : (groups.alter o (AnchorGroup.add v p)).get? o =
      some (AnchorGroup.add v p (groups.get? o)) := Table.get?_alter_self hf.ascending
  refine ⟨fun o' g hg => ?_, fun o' g hg v' l hl => ?_⟩
  · by_cases ho : o' = o
    · subst ho
      cases hself.symm.trans hg
      rcases AnchorGroup.minLength_add with hlen | ⟨g, hold, hlen⟩
      · exact ⟨p, by simp, v, hanchor, hlen.symm⟩
      · obtain ⟨q, hq, w, hqw, hlen'⟩ := ht.attained o' g hold
        exact ⟨q, List.mem_append_left _ hq, w, hqw, hlen'.trans hlen.symm⟩
    · rw [Table.get?_alter_of_ne ho] at hg
      obtain ⟨q, hq, hrest⟩ := ht.attained o' g hg
      exact ⟨q, List.mem_append_left _ hq, hrest⟩
  · by_cases ho : o' = o
    · subst ho
      cases hself.symm.trans hg
      exact AnchorGroup.occupied_add (hf.buckets o') (ht.occupied o') hl
    · rw [Table.get?_alter_of_ne ho] at hg
      exact ht.occupied o' g hg v' l hl

theorem file (hf : Filed ps groups) (ht : Tight ps groups) (p : Pattern) :
    Tight (ps ++ [p]) (fileAnchored groups p) := by
  unfold fileAnchored
  split
  · exact file_anchored hf ht ‹_›
  · refine ⟨fun o g hg => ?_, ht.occupied⟩
    obtain ⟨q, hq, hrest⟩ := ht.attained o g hg
    exact ⟨q, List.mem_append_left _ hq, hrest⟩

theorem ofList (ps : List Pattern) : Tight ps (Collection.ofList ps).groups := by
  -- Groups stay tight if what they hold is filed right, so the two are carried together.
  have hboth : Filed ps (Collection.ofList ps).groups ∧ Tight ps (Collection.ofList ps).groups :=
    Collection.groups_induction (motive := fun ps groups => Filed ps groups ∧ Tight ps groups)
      ⟨.nil, nofun, nofun⟩ (fun _ _ p h => ⟨h.1.file p, file h.1 h.2 p⟩) ps
  exact hboth.2

end Tight

namespace Filed
variable {ps qs : List Pattern} {groups groups' : Table Nat AnchorGroup} {p : Pattern} {o : Nat}
  {v : UInt8} {g g' : AnchorGroup}

theorem minLength_le (h : Filed ps groups) (hg : groups.get? o = some g) (ht : Tight qs groups')
    (hg' : groups'.get? o = some g')
    (hsame : ∀ a, ps.filter (·.anchor = some a) = qs.filter (·.anchor = some a)) :
    g.minLength ≤ g'.minLength := by
  obtain ⟨q, hq, w, hqw, hlen⟩ := ht.attained o g' hg'
  have hmem : q ∈ ps.filter (·.anchor = some (o, w)) := by
    rw [hsame]
    simpa using ⟨hq, hqw⟩
  rw [← hlen]
  exact h.minLength o g hg q (List.mem_filter.mp hmem).1 w hqw

theorem bucket_get?_eq_some (h : Filed ps groups) (hg : groups.get? o = some g)
    (ht : Tight ps groups) {l : List Pattern} :
    g.buckets.get? v = some l ↔ l ≠ [] ∧ l = ps.filter (·.anchor = some (o, v)) := by
  rw [← h.bucket_eq hg]
  unfold AnchorGroup.bucket
  constructor
  · intro hl
    exact ⟨ht.occupied o g hg v l hl, by rw [hl]; rfl⟩
  · rintro ⟨hne, rfl⟩
    cases hl : g.buckets.get? v with
    | none =>
      rw [hl] at hne
      exact absurd rfl hne
    | some l => rfl

theorem get?_of_get? (h : Filed ps groups) (ht : Tight ps groups) (h' : Filed qs groups')
    (ht' : Tight qs groups')
    (hsame : ∀ a, ps.filter (·.anchor = some a) = qs.filter (·.anchor = some a))
    (hg : groups.get? o = some g) : groups'.get? o = some g := by
  obtain ⟨p, hp, v, hpv, -⟩ := ht.attained o g hg
  have hmem : p ∈ qs.filter (·.anchor = some (o, v)) := by
    rw [← hsame]
    simpa using ⟨hp, hpv⟩
  obtain ⟨g', hg'⟩ := h'.exists_group (List.mem_filter.mp hmem).1 hpv
  have hlen : g.minLength = g'.minLength :=
    Nat.le_antisymm (h.minLength_le hg ht' hg' hsame)
      (h'.minLength_le hg' ht hg fun a => (hsame a).symm)
  have hbuckets : g.buckets = g'.buckets := by
    refine Table.ext_of_get? (h.buckets o g hg) (h'.buckets o g' hg') fun v l => ?_
    rw [h.bucket_get?_eq_some hg ht, h'.bucket_get?_eq_some hg' ht', hsame]
  obtain ⟨n, b⟩ := g
  obtain ⟨n', b'⟩ := g'
  cases hlen
  cases hbuckets
  exact hg'

theorem groups_eq (h : Filed ps groups) (ht : Tight ps groups) (h' : Filed qs groups')
    (ht' : Tight qs groups')
    (hsame : ∀ a, ps.filter (·.anchor = some a) = qs.filter (·.anchor = some a)) :
    groups = groups' :=
  Table.ext_of_get? h.ascending h'.ascending fun _ _ =>
    ⟨h.get?_of_get? ht h' ht' hsame, h'.get?_of_get? ht' h ht fun a => (hsame a).symm⟩

theorem entry_eq (h : Filed ps groups) (hg : groups.get? o = some g) {l : List Pattern}
    (hl : (v, l) ∈ g.buckets) : l = ps.filter (·.anchor = some (o, v)) := by
  rw [← h.bucket_eq hg]
  unfold AnchorGroup.bucket
  rw [Table.get?_of_mem (h.buckets o g hg) hl]
  rfl

theorem anchor_of_mem_entry (h : Filed ps groups) (hg : groups.get? o = some g)
    {e : UInt8 × List Pattern} (he : e ∈ g.buckets) (hp : p ∈ e.2) :
    p.anchor = some (o, e.1) := by
  rw [h.entry_eq hg he] at hp
  simpa using (List.mem_filter.mp hp).2

theorem anchor_of_mem_members (h : Filed ps groups) (hg : groups.get? o = some g)
    (hp : p ∈ g.members) : ∃ v, p.anchor = some (o, v) := by
  obtain ⟨e, he, hp⟩ := List.mem_flatMap.mp hp
  exact ⟨e.1, h.anchor_of_mem_entry hg he hp⟩

theorem members_filter (h : Filed ps groups) (hg : groups.get? o = some g) :
    g.members.filter (·.anchor = some (o, v)) = ps.filter (·.anchor = some (o, v)) := by
  have hother : ∀ e ∈ g.buckets, e.1 ≠ v → e.2.filter (·.anchor = some (o, v)) = [] := by
    intro e he hne
    refine List.filter_eq_nil_iff.mpr fun p hp => ?_
    have hanchor := h.anchor_of_mem_entry hg he hp
    grind
  have hself : (g.buckets.get? v).getD [] = ps.filter (·.anchor = some (o, v)) := h.bucket_eq hg v
  unfold AnchorGroup.members
  rw [List.filter_flatMap, Table.flatMap_eq_single (h.buckets o g hg) hother]
  cases hl : g.buckets.get? v with
  | none =>
    rw [← hself, hl]
    rfl
  | some l =>
    rw [hl] at hself
    simp only [Table.single, Option.toList_some, List.map_cons, List.map_nil, List.flatMap_cons,
      List.flatMap_nil, List.append_nil]
    rw [show l = ps.filter (·.anchor = some (o, v)) from hself, List.filter_filter]
    simp

end Filed

namespace Collection
variable {ps : List Pattern} {data : Bytes} {start : Nat}

theorem members_filter_of_ne {g : AnchorGroup} {o : Nat} {a : Option (Nat × UInt8)}
    (hg : (ofList ps).groups.get? o = some g) (hne : ∀ v, a ≠ some (o, v)) :
    g.members.filter (·.anchor = a) = [] := by
  refine List.filter_eq_nil_iff.mpr fun p hp => ?_
  obtain ⟨v, hv⟩ := (Filed.ofList ps).anchor_of_mem_members hg hp
  have := hne v
  grind

/-- Of the patterns of one anchor, none is lost or moved past another in the listing. -/
theorem toList_filter (ps : List Pattern) (a : Option (Nat × UInt8)) :
    (ofList ps).toList.filter (·.anchor = a) = ps.filter (·.anchor = a) := by
  have hf := Filed.ofList ps
  unfold toList
  rw [List.filter_append, List.filter_flatMap]
  cases a with
  | none =>
    have hgroups : (ofList ps).groups.flatMap
        (fun e => e.2.members.filter (·.anchor = none)) = [] := by
      refine List.flatMap_eq_nil_iff.mpr fun ⟨o, g⟩ he => ?_
      exact members_filter_of_ne (Table.get?_of_mem hf.ascending he) nofun
    rw [hgroups, List.nil_append, anchorless_ofList, List.filter_filter]
    refine List.filter_congr fun p _ => ?_
    cases p.anchor <;> simp
  | some a =>
    obtain ⟨o, v⟩ := a
    have hanchorless : (ofList ps).anchorless.filter (·.anchor = some (o, v)) = [] := by
      rw [anchorless_ofList, List.filter_filter]
      refine List.filter_eq_nil_iff.mpr fun p _ => ?_
      cases p.anchor <;> simp
    have hother : ∀ e ∈ (ofList ps).groups, e.1 ≠ o →
        e.2.members.filter (·.anchor = some (o, v)) = [] := by
      rintro ⟨o', g⟩ he hne
      exact members_filter_of_ne (Table.get?_of_mem hf.ascending he) fun w => by grind
    rw [hanchorless, List.append_nil, Table.flatMap_eq_single hf.ascending hother]
    cases hg : (ofList ps).groups.get? o with
    | none =>
      have hbucket := hf.bucket o v
      rw [hg] at hbucket
      exact hbucket
    | some g =>
      simp only [Table.single, Option.toList_some, List.map_cons, List.map_nil, List.flatMap_cons,
        List.flatMap_nil, List.append_nil]
      exact hf.members_filter hg

theorem toList_perm (ps : List Pattern) : (ofList ps).toList.Perm ps := by
  refine List.perm_iff_count.mpr fun p => ?_
  have hcount : ∀ l : List Pattern, (l.filter (·.anchor = p.anchor)).count p = l.count p :=
    fun l => List.count_filter (by simp)
  rw [← hcount, toList_filter, hcount]

/-- Listing and indexing again changes the order of registration only. -/
theorem ofList_toList (ps : List Pattern) :
    ofList (ofList ps).toList = { ofList ps with patterns := (ofList ps).toList } := by
  have hgroups : (ofList (ofList ps).toList).groups = (ofList ps).groups :=
    (Filed.ofList _).groups_eq (Tight.ofList _) (Filed.ofList ps) (Tight.ofList ps)
      fun a => toList_filter ps (some a)
  have hanchorless : (ofList (ofList ps).toList).anchorless = (ofList ps).anchorless := by
    have hnone : ∀ p : Pattern, p.anchor.isNone = decide (p.anchor = none) := by
      intro p
      cases p.anchor <;> rfl
    simp only [anchorless_ofList, hnone]
    exact toList_filter ps none
  calc ofList (ofList ps).toList
      = ⟨(ofList ps).toList, (ofList (ofList ps).toList).groups,
          (ofList (ofList ps).toList).anchorless⟩ := rfl
    _ = { ofList ps with patterns := (ofList ps).toList } := by rw [hgroups, hanchorless]

theorem toList_ofList_toList (ps : List Pattern) :
    (ofList (ofList ps).toList).toList = (ofList ps).toList := by
  rw [ofList_toList]
  rfl

theorem scanFrom_patterns (c : Collection) (qs : List Pattern) :
    ({ c with patterns := qs } : Collection).scanFrom data start = c.scanFrom data start := by
  have hbytes : ({ c with patterns := qs } : Collection).anchorBytes = c.anchorBytes := rfl
  fun_induction scanFrom c data start with
  | case1 start hlt hskip => rw [scanFrom, if_pos hlt, hbytes, hskip]
  | case2 start hlt skip hskip found ih =>
    rw [scanFrom, if_pos hlt, hbytes, hskip]
    exact congrArg (found <|> ·) ih
  | case3 start hlt => rw [scanFrom, if_neg hlt]

variable {qs : List Pattern} (h : qs.Perm ps)
include h

theorem minLength_perm : (ofList qs).minLength = (ofList ps).minLength := by
  have hmin : (qs.map Pattern.minLength).min? = (ps.map Pattern.minLength).min? := Option.ext
    fun n => by simp only [List.min?_eq_some_iff, (h.map Pattern.minLength).mem_iff]
  exact congrArg (·.getD 0) hmin

theorem max?_perm (f : Pattern → Nat) : (qs.map f).max? = (ps.map f).max? :=
  Option.ext fun n => by simp only [List.max?_eq_some_iff, (h.map f).mem_iff]

omit h in
theorem matchAt?_toList (ps : List Pattern) (data : Bytes) :
    (ofList (ofList ps).toList).matchAt? data = (ofList ps).matchAt? data := by
  have hlen := minLength_perm (toList_perm ps)
  rw [ofList_toList] at hlen ⊢
  unfold matchAt?
  rw [hlen]

omit h in
theorem find?_toList (ps : List Pattern) (data : Bytes) :
    (ofList (ofList ps).toList).find? data = (ofList ps).find? data := by
  have hlen := minLength_perm (toList_perm ps)
  rw [ofList_toList] at hlen ⊢
  unfold find?
  rw [hlen, scanFrom_patterns]

end Collection

/-- A collection that is written out and read in again matches what it matched before, is as large,
and is written out the same. -/
theorem SignatureSet.import_export (architecture : String) (ps : List Pattern) :
    ∃ c, (ofCollection architecture (.ofList ps)).toCollection = .ok c ∧
      (∀ data, c.matchAt? data = (Collection.ofList ps).matchAt? data ∧
        c.find? data = (Collection.ofList ps).find? data) ∧
      c.size = (Collection.ofList ps).size ∧
      c.minLength = (Collection.ofList ps).minLength ∧
      c.maxMinLength = (Collection.ofList ps).maxMinLength ∧
      c.maxAddressCount = (Collection.ofList ps).maxAddressCount ∧
      ∀ name, ofCollection name c = ofCollection name (.ofList ps) := by
  have hperm := Collection.toList_perm ps
  refine ⟨_, toCollection_ofCollection architecture _,
    fun data => ⟨Collection.matchAt?_toList ps data, Collection.find?_toList ps data⟩, ?_, ?_, ?_, ?_,
    fun name => ?_⟩
  · exact hperm.length_eq
  · exact Collection.minLength_perm hperm
  · exact congrArg (·.getD 0) (Collection.max?_perm hperm Pattern.minLength)
  · exact congrArg (·.getD 0) (Collection.max?_perm hperm Pattern.addressCount)
  · unfold ofCollection
    rw [Collection.toList_ofList_toList]

end Interpose

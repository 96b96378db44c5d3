import Interpose.Proofs.Pattern.Filing
import Interpose.Proofs.Pattern.Match

/-!
# What a collection finds

A candidate is a pattern with a place where it matches. A collection finds the candidate whose
anchor comes first; of those whose anchors stand at one place, the one with its anchor nearest to
its start, and then the one registered first. Only without such a candidate does it find one of a
pattern that has no anchor.
-/

namespace Interpose

/-- The pattern registered as the `i`-th matches from `s` on. -/
structure Candidate (ps : List Pattern) (data : Bytes) (i s : Nat) (m : Match) : Prop where
  pattern : ps[i]? = some m.pattern
  offset : m.offset = s
  hit : m.pattern.matchAt? (data.drop s) = some m.hit
  atStart : m.pattern.atStart = true → s = 0

def Ahead (a b : Nat × Nat × Nat) : Prop := Prod.Lex (· < ·) (Prod.Lex (· < ·) (· ≤ ·)) a b

/-- The candidate to find: of those with an anchor, the one whose anchor stands first, then the one
whose anchor is nearest to its start, then the one registered first; without any, the one registered
first where it matches first. -/
inductive Chosen (ps : List Pattern) (data : Bytes) (m : Match) : Prop
  | anchored (i s o : Nat) (v : UInt8) (hc : Candidate ps data i s m)
      (ha : m.pattern.anchor = some (o, v))
      (hleast : ∀ i' s' o' v' m', Candidate ps data i' s' m' →
        m'.pattern.anchor = some (o', v') → Ahead (s + o, o, i) (s' + o', o', i'))
  | anchorless (i s : Nat) (hc : Candidate ps data i s m)
      (hnone : ∀ i' s' m', Candidate ps data i' s' m' → m'.pattern.anchor = none)
      (hleast : ∀ i' s' m', Candidate ps data i' s' m' → i < i' ∨ i = i' ∧ s ≤ s')

theorem findSome?_eq_some_iff_getElem? {α β : Type} {f : α → Option β} {l : List α} {b : β} :
    l.findSome? f = some b ↔ ∃ (i : Nat) (a : α), l[i]? = some a ∧ f a = some b ∧
      ∀ (j : Nat) (a' : α), j < i → l[j]? = some a' → f a' = none := by
  rw [List.findSome?_eq_some_iff]
  constructor
  · rintro ⟨pre, a, post, rfl, hf, hnone⟩
    refine ⟨pre.length, a, by simp, hf, fun j a' hj ha' => hnone a' ?_⟩
    rw [List.getElem?_append_left hj] at ha'
    exact List.mem_of_getElem? ha'
  · rintro ⟨i, a, hi, hf, hnone⟩
    obtain ⟨hlt, rfl⟩ := List.getElem?_eq_some_iff.mp hi
    refine ⟨l.take i, l[i], l.drop (i + 1), ?_, hf, fun x hx => ?_⟩
    · rw [List.getElem_cons_drop, List.take_append_drop]
    · obtain ⟨j, hj, rfl⟩ := List.mem_take_iff_getElem.mp hx
      exact hnone j _ (by omega) (List.getElem?_eq_getElem _)

theorem findSome?_congr {α β : Type} {f g : α → Option β} {l : List α}
    (h : ∀ a ∈ l, f a = g a) : l.findSome? f = l.findSome? g := by
  induction l with
  | nil => rfl
  | cons a l ih =>
    rw [List.findSome?_cons, List.findSome?_cons, h a List.mem_cons_self,
      ih fun a' ha' => h a' (List.mem_cons_of_mem _ ha')]

theorem findSome?_filter {α β : Type} {f : α → Option β} {q : α → Bool} {l : List α} :
    (l.filter q).findSome? f = l.findSome? fun a => if q a then f a else none := by
  induction l with
  | nil => rfl
  | cons a l ih =>
    rw [List.filter_cons, List.findSome?_cons]
    split
    · rw [List.findSome?_cons, ih]
    · exact ih

theorem findSome?_filter_eq_some {α β : Type} {f : α → Option β} {q : α → Bool} {l : List α} {b : β}
    (h : (l.filter q).findSome? f = some b) : ∃ (i : Nat) (a : α), l[i]? = some a ∧ q a = true ∧
      f a = some b ∧ ∀ (j : Nat) (a' : α), j < i → l[j]? = some a' → q a' = true → f a' = none := by
  rw [findSome?_filter] at h
  obtain ⟨i, a, ha, hf, hfirst⟩ := findSome?_eq_some_iff_getElem?.mp h
  split at hf
  · rename_i hq
    refine ⟨i, a, ha, hq, hf, ?_⟩
    intro j a' hj ha' hq'
    have hnone := hfirst j a' hj ha'
    rwa [if_pos hq'] at hnone
  · cases hf

theorem getElem?_of_firstLiteral {items : List Item} {data : Bytes} {r : Nat × Bytes} {o : Nat}
    {v : UInt8} (hl : firstLiteral items = some (o, v)) (hm : matchItems items data = some r) :
    data[o]? = some v := by
  induction items generalizing data r o with
  | nil => cases hl
  | cons item items ih =>
    cases item with
    | gap => cases hl
    | literal value =>
      cases hl
      cases data with
      | nil => cases hm
      | cons b rest =>
        simp only [matchItems] at hm
        split at hm
        · rename_i hb
          rw [hb]
          rfl
        · cases hm
    | any =>
      obtain ⟨⟨o', v'⟩, hrest, heq⟩ := Option.map_eq_some_iff.mp hl
      cases heq
      cases data with
      | nil => cases hm
      | cons b rest =>
        obtain ⟨r', hm, -⟩ := Option.map_eq_some_iff.mp hm
        show rest[o']? = some v'
        exact ih hrest hm
    | address =>
      obtain ⟨⟨o', v'⟩, hrest, heq⟩ := Option.map_eq_some_iff.mp hl
      cases heq
      cases data with
      | nil => cases hm
      | cons b rest =>
        obtain ⟨r', hm, -⟩ := Option.map_eq_some_iff.mp hm
        show rest[o']? = some v'
        exact ih hrest hm

namespace Pattern
variable {p : Pattern} {data : Bytes} {s o : Nat} {v : UInt8} {hit : Hit} {m : Match}

theorem matchAt?_length (h : p.matchAt? data = some hit) : p.minLength ≤ data.length := by
  rw [matchAt?_eq] at h
  split at h
  · cases h
  · omega

theorem matchAt?_anchor (h : p.matchAt? data = some hit) (ha : p.anchor = some (o, v)) :
    data[o]? = some v := by
  rw [matchAt?_eq] at h
  split at h
  · cases h
  · obtain ⟨r, hr, -⟩ := Option.map_eq_some_iff.mp h
    exact getElem?_of_firstLiteral ha hr

def matchFrom? (p : Pattern) (data : Bytes) (start : Nat) : Option Match :=
  if !p.atStart || start == 0 then (p.matchAt? (data.drop start)).map fun hit => ⟨p, start, hit⟩
  else none

theorem matchFrom?_eq_some : p.matchFrom? data s = some m ↔
    m.pattern = p ∧ m.offset = s ∧ p.matchAt? (data.drop s) = some m.hit ∧
      (p.atStart = true → s = 0) := by
  unfold matchFrom?
  constructor
  · intro h
    split at h
    · rename_i hs
      obtain ⟨hit, hhit, rfl⟩ := Option.map_eq_some_iff.mp h
      exact ⟨rfl, rfl, hhit, fun ha => by simpa [ha] using hs⟩
    · cases h
  · rintro ⟨rfl, rfl, hhit, hs⟩
    have hcond : (!m.pattern.atStart || m.offset == 0) = true := by
      cases ha : m.pattern.atStart with
      | false => rfl
      | true => simp [hs ha]
    rw [if_pos hcond, hhit]
    rfl

theorem find?_eq_some (h : p.find? data = some (s, hit)) :
    p.matchFrom? data s = some ⟨p, s, hit⟩ ∧ ∀ t < s, p.matchFrom? data t = none := by
  unfold find? at h
  split at h
  · cases h
  · split at h
    · obtain ⟨hit', hhit, heq⟩ := Option.map_eq_some_iff.mp h
      cases heq
      exact ⟨matchFrom?_eq_some.mpr ⟨rfl, rfl, hhit, fun _ => rfl⟩, fun t ht => by omega⟩
    · rename_i hat
      obtain ⟨i, a, hi, ha, hleast⟩ := findSome?_eq_some_iff_getElem?.mp h
      obtain ⟨hlt, hia⟩ := List.getElem?_eq_some_iff.mp hi
      rw [List.getElem_range] at hia
      subst hia
      obtain ⟨hit', hhit, heq⟩ := Option.map_eq_some_iff.mp ha
      cases heq
      refine ⟨matchFrom?_eq_some.mpr ⟨rfl, rfl, hhit, fun h => absurd h hat⟩, fun t ht => ?_⟩
      have hnone := hleast t t ht (List.getElem?_range (by simpa using Nat.lt_trans ht hlt))
      have hmatch := Option.map_eq_none_iff.mp hnone
      unfold matchFrom?
      rw [hmatch]
      split <;> rfl

theorem find?_eq_none (h : p.find? data = none) : p.matchFrom? data s = none := by
  refine Option.eq_none_iff_forall_ne_some.mpr fun m hm => ?_
  obtain ⟨-, -, hhit, hat⟩ := matchFrom?_eq_some.mp hm
  have hlen := matchAt?_length hhit
  rw [List.length_drop] at hlen
  have hpos : 0 < p.minLength := p.minLength_pos
  unfold find? at h
  rw [if_neg (by omega)] at h
  split at h
  · rename_i ha
    rw [hat ha] at hhit
    rw [Option.map_eq_none_iff] at h
    rw [List.drop_zero, h] at hhit
    cases hhit
  · have hnone := List.findSome?_eq_none_iff.mp h s (List.mem_range.mpr (by omega))
    rw [Option.map_eq_none_iff.mp hnone] at hhit
    cases hhit

end Pattern

namespace Candidate
variable {ps : List Pattern} {data : Bytes} {i s o : Nat} {v : UInt8} {m : Match}

theorem matchFrom? (h : Candidate ps data i s m) : m.pattern.matchFrom? data s = some m :=
  Pattern.matchFrom?_eq_some.mpr ⟨rfl, h.offset, h.hit, h.atStart⟩

theorem of_matchFrom? {p : Pattern} (hp : ps[i]? = some p) (h : p.matchFrom? data s = some m) :
    Candidate ps data i s m := by
  obtain ⟨rfl, hs, hhit, hat⟩ := Pattern.matchFrom?_eq_some.mp h
  exact ⟨hp, hs, hhit, hat⟩

theorem mem (h : Candidate ps data i s m) : m.pattern ∈ ps := List.mem_of_getElem? h.pattern

theorem length_le (h : Candidate ps data i s m) : m.pattern.minLength ≤ data.length - s := by
  have := Pattern.matchAt?_length h.hit
  rwa [List.length_drop] at this

theorem getElem?_anchor (h : Candidate ps data i s m) (ha : m.pattern.anchor = some (o, v)) :
    data[s + o]? = some v := by
  have := Pattern.matchAt?_anchor h.hit ha
  rwa [List.getElem?_drop] at this

theorem unique {m' : Match} (h : Candidate ps data i s m) (h' : Candidate ps data i s m') :
    m = m' := by
  have hp := Option.some.inj (h.pattern.symm.trans h'.pattern)
  have hm := h.matchFrom?
  rw [hp, h'.matchFrom?] at hm
  exact (Option.some.inj hm).symm

end Candidate

namespace Collection
variable {ps : List Pattern} {data : Bytes} {i s o pos start : Nat} {v : UInt8} {m : Match}

theorem firstAtStart_filter (l : List Pattern) :
    firstAtStart (l.filter fun p => !p.atStart || start == 0) start (data.drop start) =
      l.findSome? (·.matchFrom? data start) := findSome?_filter

/-- What one group finds for an anchor byte `v` at a position. -/
def inGroup (ps : List Pattern) (data : Bytes) (pos : Nat) (v : UInt8) (o : Nat) : Option Match :=
  if pos < o then none
  else (ps.filter (·.anchor = some (o, v))).findSome? (·.matchFrom? data (pos - o))

theorem inGroup_eq_some (h : inGroup ps data pos v o = some m) : o ≤ pos ∧ ∃ i,
    Candidate ps data i (pos - o) m ∧ m.pattern.anchor = some (o, v) ∧
      ∀ j m', j < i → Candidate ps data j (pos - o) m' → m'.pattern.anchor ≠ some (o, v) := by
  unfold inGroup at h
  split at h
  · cases h
  · obtain ⟨i, p, hp, ha, hm, hfirst⟩ := findSome?_filter_eq_some h
    have hc := Candidate.of_matchFrom? hp hm
    obtain rfl := Option.some.inj (hp.symm.trans hc.pattern)
    refine ⟨by omega, i, hc, by simpa using ha, ?_⟩
    intro j m' hj hc' ha'
    have hnone := hfirst j m'.pattern hj hc'.pattern (by simpa using ha')
    rw [hc'.matchFrom?] at hnone
    cases hnone

theorem inGroup_ne_none (h : Candidate ps data i s m) (ha : m.pattern.anchor = some (o, v)) :
    inGroup ps data (s + o) v o ≠ none := by
  intro hnone
  unfold inGroup at hnone
  rw [if_neg (by omega), Nat.add_sub_cancel] at hnone
  have := List.findSome?_eq_none_iff.mp hnone m.pattern
    (List.mem_filter.mpr ⟨h.mem, by simpa using ha⟩)
  rw [h.matchFrom?] at this
  cases this

theorem inGroup_short {g : AnchorGroup} (hg : (ofList ps).groups.get? o = some g)
    (hshort : (data.drop (pos - o)).length < g.minLength) : inGroup ps data pos v o = none := by
  unfold inGroup
  split
  · rfl
  · apply List.findSome?_eq_none_iff.mpr
    intro p hp
    obtain ⟨hmem, ha⟩ := List.mem_filter.mp hp
    refine Option.eq_none_iff_forall_ne_some.mpr fun m hm => ?_
    have hle := (Filed.ofList ps).minLength o g hg p hmem v (by simpa using ha)
    have hlen := Pattern.matchAt?_length (Pattern.matchFrom?_eq_some.mp hm).2.2.1
    omega

theorem matchAnchoredAt?_eq : (ofList ps).matchAnchoredAt? data pos v =
    (ofList ps).groups.findSome? fun e => inGroup ps data pos v e.1 := by
  have hf := Filed.ofList ps
  unfold matchAnchoredAt?
  refine findSome?_congr fun ⟨o, g⟩ hg => ?_
  have hget := Table.get?_of_mem hf.ascending hg
  by_cases hshort : (data.drop (pos - o)).length < g.minLength
  · simp only [if_pos hshort, inGroup_short hget hshort, ite_self]
  · simp only [if_neg hshort, inGroup, firstAtStart_filter, hf.bucket_eq hget]

def foundAt (ps : List Pattern) (data : Bytes) (pos : Nat) : Option Match :=
  data[pos]?.bind ((ofList ps).matchAnchoredAt? data pos)

theorem foundAt_eq_none (h : ∀ v, data[pos]? = some v → (ofList ps).isAnchorByte v = false) :
    foundAt ps data pos = none := by
  refine Option.eq_none_iff_forall_ne_some.mpr fun m hm => ?_
  obtain ⟨v, hv, hm⟩ := Option.bind_eq_some_iff.mp hm
  rw [matchAnchoredAt?_eq] at hm
  obtain ⟨⟨o, g⟩, -, hm⟩ := List.exists_of_findSome?_eq_some hm
  unfold inGroup at hm
  split at hm
  · cases hm
  · obtain ⟨p, hp, -⟩ := List.exists_of_findSome?_eq_some hm
    obtain ⟨hmem, ha⟩ := List.mem_filter.mp hp
    have hanchor := isAnchorByte_iff.mpr ⟨p, hmem, o, by simpa using ha⟩
    rw [h v hv] at hanchor
    cases hanchor

/-- What the groups find, each at a position of its own. -/
def sweep (ps : List Pattern) (data : Bytes) (place : Nat → Nat) : Option Match :=
  (ofList ps).groups.findSome? fun e =>
    data[place e.1]?.bind fun v => inGroup ps data (place e.1) v e.1

section Sweep
variable {place : Nat → Nat}

theorem sweep_eq_some (h : sweep ps data place = some m) :
    ∃ i s o v, Candidate ps data i s m ∧ m.pattern.anchor = some (o, v) ∧ s + o = place o ∧
      ∀ i' s' o' v' m', Candidate ps data i' s' m' → m'.pattern.anchor = some (o', v') →
        s' + o' = place o' → o < o' ∨ o = o' ∧ i ≤ i' := by
  have hf := Filed.ofList ps
  obtain ⟨⟨o, g⟩, hg, hfound, hlow⟩ := Table.findSome?_eq_some hf.ascending h
  obtain ⟨v, hv, hgroup⟩ := Option.bind_eq_some_iff.mp hfound
  obtain ⟨hle, i, hc, ha, hfirst⟩ := inGroup_eq_some hgroup
  refine ⟨i, place o - o, o, v, hc, ha, Nat.sub_add_cancel hle, ?_⟩
  intro i' s' o' v' m' hc' ha' hs
  have hv' := hc'.getElem?_anchor ha'
  rw [hs] at hv'
  rcases Nat.lt_trichotomy o o' with hlt | rfl | hgt
  · exact Or.inl hlt
  · obtain rfl : v = v' := Option.some.inj (hv.symm.trans hv')
    refine Or.inr ⟨rfl, Nat.le_of_not_lt fun hlt => hfirst i' m' hlt ?_ ha'⟩
    rwa [← hs, Nat.add_sub_cancel]
  · obtain ⟨g', hg'⟩ := hf.exists_group hc'.mem ha'
    have hnone := hlow (o', g') (Table.mem_of_get? hg') hgt
    dsimp only at hnone
    rw [hv', Option.bind_some, ← hs] at hnone
    exact absurd hnone (inGroup_ne_none hc' ha')

theorem sweep_ne_none (h : Candidate ps data i s m) (ha : m.pattern.anchor = some (o, v))
    (hs : s + o = place o) : sweep ps data place ≠ none := by
  intro hnone
  obtain ⟨g, hg⟩ := (Filed.ofList ps).exists_group h.mem ha
  have hgroup := List.findSome?_eq_none_iff.mp hnone (o, g) (Table.mem_of_get? hg)
  dsimp only at hgroup
  rw [← hs, h.getElem?_anchor ha, Option.bind_some] at hgroup
  exact inGroup_ne_none h ha hgroup

end Sweep

theorem foundAt_eq : foundAt ps data pos = sweep ps data fun _ => pos := by
  unfold foundAt sweep
  dsimp only
  cases data[pos]? with
  | none => exact (List.findSome?_eq_none_iff.mpr fun _ _ => rfl).symm
  | some v =>
    simp only [Option.bind_some]
    exact matchAnchoredAt?_eq

/-- What is found at a position is an anchored candidate, first in its place. -/
theorem foundAt_eq_some (h : foundAt ps data pos = some m) :
    ∃ i s o v, Candidate ps data i s m ∧ m.pattern.anchor = some (o, v) ∧ s + o = pos ∧
      ∀ i' s' o' v' m', Candidate ps data i' s' m' → m'.pattern.anchor = some (o', v') →
        s' + o' = pos → o < o' ∨ o = o' ∧ i ≤ i' := by
  rw [foundAt_eq] at h
  exact sweep_eq_some h

theorem foundAt_ne_none (h : Candidate ps data i s m) (ha : m.pattern.anchor = some (o, v)) :
    foundAt ps data (s + o) ≠ none := by
  rw [foundAt_eq]
  exact sweep_ne_none h ha rfl

/-- The scan passes over no position at which there is something to find. -/
theorem foundAt_skipped {skip : Option Nat}
    (h : (ofList ps).anchorBytes.find? (data.drop start) = skip) {q : Nat} (hq : start ≤ q)
    (hskip : ∀ n, skip = some n → q < start + n) : foundAt ps data q = none := by
  rw [anchorBytes_find?] at h
  refine foundAt_eq_none fun v hv => ?_
  have hdrop : (data.drop start)[q - start]? = some v := by
    rw [List.getElem?_drop, Nat.add_sub_cancel' hq, hv]
  obtain ⟨hlt, hget⟩ := List.getElem?_eq_some_iff.mp hdrop
  cases skip with
  | none => exact List.findIdx?_eq_none_iff.mp h v (hget ▸ List.getElem_mem hlt)
  | some n =>
    obtain ⟨_, -, hbefore⟩ := List.findIdx?_eq_some_iff_getElem.mp h
    have := hskip n rfl
    have hnot := hbefore (q - start) (by omega)
    rw [hget] at hnot
    simpa using hnot

theorem scanFrom_eq_some (h : (ofList ps).scanFrom data start = some m) :
    ∃ pos, start ≤ pos ∧ foundAt ps data pos = some m ∧
      ∀ q, start ≤ q → q < pos → foundAt ps data q = none := by
  fun_induction scanFrom (ofList ps) data start with
  | case1 => cases h
  | case2 start hlt skip hskip found ih =>
    have hfound : found = foundAt ps data (start + skip) := rfl
    simp only [Option.orElse_eq_orElse, Option.orElse_eq_or, Option.or_eq_some_iff] at h
    rcases h with hhere | ⟨hhere, hrest⟩
    · refine ⟨start + skip, by omega, hfound ▸ hhere, fun q hq hlt' => ?_⟩
      exact foundAt_skipped hskip hq fun n hn => by cases hn; exact hlt'
    · obtain ⟨pos, hpos, hm, hleast⟩ := ih hrest
      refine ⟨pos, by omega, hm, fun q hq hlt' => ?_⟩
      rcases Nat.lt_trichotomy q (start + skip) with hbefore | rfl | hafter
      · exact foundAt_skipped hskip hq fun n hn => by cases hn; exact hbefore
      · exact hfound ▸ hhere
      · exact hleast q (by omega) hlt'
  | case3 => cases h

theorem scanFrom_eq_none (h : (ofList ps).scanFrom data start = none) (hpos : start ≤ pos) :
    foundAt ps data pos = none := by
  fun_induction scanFrom (ofList ps) data start with
  | case1 start hlt hskip => exact foundAt_skipped hskip hpos nofun
  | case2 start hlt skip hskip found ih =>
    have hfound : found = foundAt ps data (start + skip) := rfl
    simp only [Option.orElse_eq_orElse, Option.orElse_eq_or, Option.or_eq_none_iff] at h
    obtain ⟨hhere, hrest⟩ := h
    rcases Nat.lt_trichotomy pos (start + skip) with hbefore | rfl | hafter
    · exact foundAt_skipped hskip hpos fun n hn => by cases hn; exact hbefore
    · exact hfound ▸ hhere
    · exact ih hrest (by omega)
  | case3 start hlt =>
    refine foundAt_eq_none fun v hv => ?_
    rw [List.getElem?_eq_none (by omega)] at hv
    cases hv

theorem anchorless_eq_some
    (h : ((ofList ps).anchorless.findSome? fun p =>
      (p.find? data).map fun r => (⟨p, r.1, r.2⟩ : Match)) = some m) :
    ∃ i s, Candidate ps data i s m ∧ m.pattern.anchor = none ∧
      ∀ i' s' m', Candidate ps data i' s' m' → m'.pattern.anchor = none →
        i < i' ∨ i = i' ∧ s ≤ s' := by
  rw [anchorless_ofList] at h
  obtain ⟨i, p, hp, ha, hm, hfirst⟩ := findSome?_filter_eq_some h
  obtain ⟨⟨s, hit⟩, hfind, rfl⟩ := Option.map_eq_some_iff.mp hm
  obtain ⟨hmatch, hbefore⟩ := Pattern.find?_eq_some hfind
  refine ⟨i, s, Candidate.of_matchFrom? hp hmatch, by simpa using ha, ?_⟩
  intro i' s' m' hc' ha'
  rcases Nat.lt_trichotomy i i' with hlt | rfl | hgt
  · exact Or.inl hlt
  · refine Or.inr ⟨rfl, Nat.le_of_not_lt fun hlt => ?_⟩
    have hpat := Option.some.inj (hc'.pattern.symm.trans hp)
    have hnone := hbefore s' hlt
    rw [← hpat, hc'.matchFrom?] at hnone
    cases hnone
  · have hnone := hfirst i' m'.pattern hgt hc'.pattern (by simp [ha'])
    have hfind' := Pattern.find?_eq_none (s := s') (Option.map_eq_none_iff.mp hnone)
    rw [hc'.matchFrom?] at hfind'
    cases hfind'

theorem anchorless_eq_none
    (h : ((ofList ps).anchorless.findSome? fun p =>
      (p.find? data).map fun r => (⟨p, r.1, r.2⟩ : Match)) = none)
    (hc : Candidate ps data i s m) : m.pattern.anchor ≠ none := by
  intro ha
  rw [anchorless_ofList] at h
  have hnone := List.findSome?_eq_none_iff.mp h m.pattern
    (List.mem_filter.mpr ⟨hc.mem, by simp [ha]⟩)
  have hfind := Pattern.find?_eq_none (s := s) (Option.map_eq_none_iff.mp hnone)
  rw [hc.matchFrom?] at hfind
  cases hfind

theorem scanFrom_ne_none (hc : Candidate ps data i s m) (ha : m.pattern.anchor = some (o, v)) :
    (ofList ps).scanFrom data 0 ≠ none := fun h =>
  foundAt_ne_none hc ha (scanFrom_eq_none h (Nat.zero_le _))

theorem find?_eq_some (h : (ofList ps).find? data = some m) : Chosen ps data m := by
  unfold find? at h
  split at h
  · cases h
  · simp only [Option.orElse_eq_orElse, Option.orElse_eq_or, Option.or_eq_some_iff] at h
    rcases h with hscan | ⟨hscan, hrest⟩
    · obtain ⟨pos, -, hfound, hbefore⟩ := scanFrom_eq_some hscan
      obtain ⟨i, s, o, v, hc, ha, hpos, hfirst⟩ := foundAt_eq_some hfound
      refine .anchored i s o v hc ha fun i' s' o' v' m' hc' ha' => ?_
      unfold Ahead
      simp only [Prod.lex_def]
      rcases Nat.lt_trichotomy (s + o) (s' + o') with hlt | heq | hgt
      · exact Or.inl hlt
      · exact Or.inr ⟨heq, hfirst i' s' o' v' m' hc' ha' (by omega)⟩
      · exact absurd (hbefore (s' + o') (Nat.zero_le _) (by omega)) (foundAt_ne_none hc' ha')
    · have hnone : ∀ i' s' m', Candidate ps data i' s' m' → m'.pattern.anchor = none := by
        intro i' s' m' hc'
        refine Option.eq_none_iff_forall_ne_some.mpr fun a ha => ?_
        exact scanFrom_ne_none hc' (o := a.1) (v := a.2) ha hscan
      obtain ⟨i, s, hc, -, hleast⟩ := anchorless_eq_some hrest
      exact .anchorless i s hc hnone fun i' s' m' hc' => hleast i' s' m' hc' (hnone i' s' m' hc')

theorem find?_eq_none (h : (ofList ps).find? data = none) : ¬ Candidate ps data i s m := by
  intro hc
  unfold find? at h
  split at h
  · rename_i hshort
    have := minLength_le hc.mem
    have := hc.length_le
    omega
  · simp only [Option.orElse_eq_orElse, Option.orElse_eq_or, Option.or_eq_none_iff] at h
    refine anchorless_eq_none h.2 hc (Option.eq_none_iff_forall_ne_some.mpr fun a ha => ?_)
    exact scanFrom_ne_none hc (o := a.1) (v := a.2) ha h.1

end Collection

theorem Chosen.candidate {ps : List Pattern} {data : Bytes} {m : Match} (h : Chosen ps data m) :
    ∃ i s, Candidate ps data i s m := by
  rcases h with ⟨i, s, o, v, hc, -, -⟩ | ⟨i, s, hc, -, -⟩
  · exact ⟨i, s, hc⟩
  · exact ⟨i, s, hc⟩

/-- At most one match is chosen. -/
theorem Chosen.unique {ps : List Pattern} {data : Bytes} {m m' : Match} (h : Chosen ps data m)
    (h' : Chosen ps data m') : m = m' := by
  rcases h with ⟨i, s, o, v, hc, ha, hleast⟩ | ⟨i, s, hc, hnone, hleast⟩
  · rcases h' with ⟨i', s', o', v', hc', ha', hleast'⟩ | ⟨i', s', hc', hnone', -⟩
    · have h₁ := hleast i' s' o' v' m' hc' ha'
      have h₂ := hleast' i s o v m hc ha
      simp only [Ahead, Prod.lex_def] at h₁ h₂
      obtain rfl : i = i' := by omega
      obtain rfl : s = s' := by omega
      exact hc.unique hc'
    · rw [hnone' i s m hc] at ha
      cases ha
  · rcases h' with ⟨i', s', o', v', hc', ha', -⟩ | ⟨i', s', hc', -, hleast'⟩
    · rw [hnone i' s' m' hc'] at ha'
      cases ha'
    · have h₁ := hleast i' s' m' hc'
      have h₂ := hleast' i s m hc
      obtain rfl : i = i' := by omega
      obtain rfl : s = s' := by omega
      exact hc.unique hc'

theorem Collection.find?_of_chosen {ps : List Pattern} {data : Bytes} {m : Match}
    (h : Chosen ps data m) : (ofList ps).find? data = some m := by
  cases hfind : (ofList ps).find? data with
  | none =>
    obtain ⟨i, s, hc⟩ := h.candidate
    exact absurd hc (find?_eq_none hfind)
  | some m' => rw [(find?_eq_some hfind).unique h]

/-- A collection finds the chosen candidate, and nothing only if there is no candidate. -/
theorem Collection.find?_iff (ps : List Pattern) (data : Bytes) :
    ((ofList ps).find? data = none ↔ ∀ i s m, ¬ Candidate ps data i s m) ∧
      ∀ m, (ofList ps).find? data = some m ↔ Chosen ps data m := by
  refine ⟨⟨fun h i s m => find?_eq_none h, fun h => ?_⟩,
    fun m => ⟨find?_eq_some, fun h => ?_⟩⟩
  · cases hfind : (ofList ps).find? data with
    | none => rfl
    | some m =>
      obtain ⟨i, s, hc⟩ := (find?_eq_some hfind).candidate
      exact absurd hc (h i s m)
  · cases hfind : (ofList ps).find? data with
    | none =>
      obtain ⟨i, s, hc⟩ := h.candidate
      exact absurd hc (find?_eq_none hfind)
    | some m' => rw [(find?_eq_some hfind).unique h]

namespace Collection
variable {ps : List Pattern} {data : Bytes} {m m' : Match} {i' s' o o' : Nat} {v v' : UInt8}

/-- No anchor stands in front of that of what is found. So a match that begins earlier is one of a
pattern whose anchor is further from its start. -/
theorem find?_anchor_first (h : (ofList ps).find? data = some m)
    (ha : m.pattern.anchor = some (o, v)) (hc' : Candidate ps data i' s' m')
    (ha' : m'.pattern.anchor = some (o', v')) :
    m.offset + o ≤ s' + o' ∧ (o' ≤ o → m.offset ≤ s') := by
  suffices hfirst : m.offset + o ≤ s' + o' from ⟨hfirst, by omega⟩
  cases find?_eq_some h with
  | anchored i s o₁ v₁ hc ha₁ hleast =>
    cases ha.symm.trans ha₁
    have hahead := hleast i' s' o' v' m' hc' ha'
    simp only [Ahead, Prod.lex_def] at hahead
    have hoffset := hc.offset
    omega
  | anchorless i s hc hnone hleast =>
    rw [hnone i' s' m' hc'] at ha'
    cases ha'

/-- Two patterns with their anchors at one distance: the earlier match is found. -/
theorem find?_anchor_first_alike :
    let nowhere : AddressMeaning := ⟨⟨.abs32, false, false⟩, 0⟩
    let ps : List Pattern := [
      ⟨"return", [.any, .literal 0xC3], nowhere, false, by decide, by decide⟩,
      ⟨"jump", [.any, .literal 0xE9], nowhere, false, by decide, by decide⟩]
    ∃ m, (ofList ps).find? [0x90, 0x48, 0xE9, 0x48, 0xC3] = some m ∧
      m.pattern.anchor = some (1, 0xE9) ∧ m.offset ≤ 3 := by
  intro nowhere ps
  have hfind : ((ofList ps).find? [0x90, 0x48, 0xE9, 0x48, 0xC3]).map (·.pattern.anchor) =
      some (some (1, 0xE9)) := by decide +kernel
  obtain ⟨m, hm, ha⟩ := Option.map_eq_some_iff.mp hfind
  have hc : Candidate ps [0x90, 0x48, 0xE9, 0x48, 0xC3] 0 3 ⟨ps[0], 3, ⟨2, 0⟩⟩ :=
    ⟨rfl, rfl, by decide, by decide⟩
  exact ⟨m, hm, ha, (find?_anchor_first hm ha hc rfl).2 (Nat.le_refl 1)⟩

/-- The match that begins first need not be found, even if all patterns have anchors. -/
theorem find?_passes_earlier :
    ¬ ∀ (ps : List Pattern) (data : Bytes) (m : Match) (o : Nat) (v : UInt8),
      (ofList ps).find? data = some m → m.pattern.anchor = some (o, v) →
      ∀ (i' s' : Nat) (m' : Match) (o' : Nat) (v' : UInt8), Candidate ps data i' s' m' →
        m'.pattern.anchor = some (o', v') → m.offset ≤ s' := by
  intro hclaim
  let nowhere : AddressMeaning := ⟨⟨.abs32, false, false⟩, 0⟩
  let ps : List Pattern := [
    ⟨"late", [.any, .any, .literal 0xC3], nowhere, false, by decide, by decide⟩,
    ⟨"early", [.literal 0xE9], nowhere, false, by decide, by decide⟩]
  have hfind : ((ofList ps).find? [0x00, 0xE9, 0xC3]).map (fun m => (m.pattern.anchor, m.offset)) =
      some (some (0, 0xE9), 1) := by decide +kernel
  obtain ⟨m, hm, hfound⟩ := Option.map_eq_some_iff.mp hfind
  obtain ⟨ha, hoffset⟩ := Prod.mk.inj hfound
  have hc : Candidate ps [0x00, 0xE9, 0xC3] 0 0 ⟨ps[0], 0, ⟨3, 0⟩⟩ :=
    ⟨rfl, rfl, by decide, by decide⟩
  have hle := hclaim ps _ m 0 0xE9 hm ha 0 0 _ 2 0xC3 hc rfl
  omega

end Collection

end Interpose

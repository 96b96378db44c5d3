/-!
# Tables

A finite map as a list of pairs with ascending keys. What happens to one key is read off the split
of a table at it: `exists_split` gives the split, `alter_split` says what changes. Entries may also
be gathered in the order in which their keys come up and be sorted in the end: by `sort_amend` that
makes the same table.
-/

namespace Interpose

abbrev Table (κ α : Type) := List (κ × α)

namespace Table

section Operations
variable {κ α : Type} [LT κ] [DecidableLT κ] [DecidableEq κ]

def alter (key : κ) (f : Option α → α) : Table κ α → Table κ α
  | [] => [(key, f none)]
  | (k, v) :: rest =>
    if k = key then (k, f (some v)) :: rest
    else if key < k then (key, f none) :: (k, v) :: rest
    else (k, v) :: alter key f rest

/-- Replaces the first value under `key` by `f` of it where it stands; a new key comes last. -/
def amend (key : κ) (f : Option α → α) : List (κ × α) → List (κ × α)
  | [] => [(key, f none)]
  | (k, v) :: rest => if k = key then (k, f (some v)) :: rest else (k, v) :: amend key f rest

/-- Puts an entry behind those with lower keys. -/
def place (entry : κ × α) : List (κ × α) → List (κ × α)
  | [] => [entry]
  | e :: rest => if e.1 < entry.1 then e :: place entry rest else entry :: e :: rest

/-- Sorts entries by their keys; those with one key stay in order. -/
def sort (entries : List (κ × α)) : Table κ α := entries.foldr place []

def insert (key : κ) (value : α) (t : Table κ α) : Table κ α := t.alter key fun _ => value

def get? (key : κ) (t : Table κ α) : Option α := List.lookup key t

def erase (key : κ) (t : Table κ α) : Table κ α := t.filter fun entry => entry.1 ≠ key

def Ascending (t : Table κ α) : Prop := t.Pairwise fun x y => x.1 < y.1

def single (key : κ) (value : Option α) : Table κ α := value.toList.map fun v => (key, v)

end Operations

theorem ascending_splice {κ α : Type} [LT κ] {pre post : Table κ α} {key : κ} {v : α}
    (hpre : ∀ e ∈ pre, e.1 < key) (hpost : ∀ e ∈ post, key < e.1) (ha : (pre ++ post).Ascending) :
    (pre ++ (key, v) :: post).Ascending := by
  obtain ⟨h₁, h₂, h₃⟩ := List.pairwise_append.mp ha
  refine List.pairwise_append.mpr ⟨h₁, List.pairwise_cons.mpr ⟨hpost, h₂⟩, ?_⟩
  intro x hx y hy
  rcases List.mem_cons.mp hy with rfl | hy
  · exact hpre x hx
  · exact h₃ x hx y hy

section Order
variable {κ α : Type} [LE κ] [LT κ] [DecidableLT κ] [DecidableEq κ] [Std.IsLinearOrder κ]
  [Std.LawfulOrderLT κ] {t pre post : Table κ α} {key : κ}

omit [DecidableLT κ] in
theorem get?_split {v : Option α} (hpre : ∀ e ∈ pre, e.1 < key) (hpost : ∀ e ∈ post, key < e.1) :
    (pre ++ single key v ++ post).get? key = v := by
  have hn : ∀ t : Table κ α, (∀ e ∈ t, e.1 ≠ key) → List.lookup key t = none := by
    intro t ht
    rw [List.lookup_eq_none_iff]
    intro e he
    have := ht e he
    grind
  have hp := hn pre fun e he => by have := hpre e he; grind
  have hq := hn post fun e he => by have := hpost e he; grind
  cases v <;> simp [get?, single, List.lookup_append, hp, hq]

theorem exists_split (ht : t.Ascending) (key : κ) :
    ∃ pre post, (∀ e ∈ pre, e.1 < key) ∧ (∀ e ∈ post, key < e.1) ∧
      t = pre ++ single key (t.get? key) ++ post := by
  suffices h : ∃ pre post v, (∀ e ∈ pre, e.1 < key) ∧ (∀ e ∈ post, key < e.1) ∧
      t = pre ++ single key v ++ post by
    obtain ⟨pre, post, v, hpre, hpost, rfl⟩ := h
    exact ⟨pre, post, hpre, hpost, by rw [get?_split hpre hpost]⟩
  induction t with
  | nil => exact ⟨[], [], none, by simp, by simp, rfl⟩
  | cons e rest ih =>
    obtain ⟨he, hr⟩ := List.pairwise_cons.mp ht
    by_cases hlt : e.1 < key
    · obtain ⟨pre, post, v, hpre, hpost, hs⟩ := ih hr
      exact ⟨e :: pre, post, v, List.forall_mem_cons.mpr ⟨hlt, hpre⟩, hpost, by simp [hs]⟩
    · by_cases hk : e.1 = key
      · exact ⟨[], rest, some e.2, by simp, hk ▸ he, by simp [single, ← hk]⟩
      · have hge : key < e.1 := by grind
        refine ⟨[], e :: rest, none, by simp, ?_, rfl⟩
        intro x hx
        rcases List.mem_cons.mp hx with rfl | hx
        · exact hge
        · have := he x hx
          grind

theorem alter_split {f : Option α → α} {v : Option α} (hpre : ∀ e ∈ pre, e.1 < key)
    (hpost : ∀ e ∈ post, key < e.1) :
    (pre ++ single key v ++ post).alter key f = pre ++ (key, f v) :: post := by
  induction pre with
  | nil =>
    cases v with
    | some v => simp [single, alter]
    | none =>
      cases post with
      | nil => simp [single, alter]
      | cons e rest =>
        have he := hpost e List.mem_cons_self
        have hne : e.1 ≠ key := by grind
        simp [single, alter, he, hne]
  | cons e pre ih =>
    have he := hpre e List.mem_cons_self
    have hne : e.1 ≠ key := by grind
    have hge : ¬ key < e.1 := by grind
    have := ih fun x hx => hpre x (List.mem_cons_of_mem _ hx)
    simpa [alter, hne, hge] using this

theorem exists_alter (ht : t.Ascending) (f : Option α → α) :
    ∃ pre post, (∀ e ∈ pre, e.1 < key) ∧ (∀ e ∈ post, key < e.1) ∧
      t = pre ++ single key (t.get? key) ++ post ∧
      t.alter key f = pre ++ (key, f (t.get? key)) :: post := by
  obtain ⟨pre, post, hpre, hpost, hs⟩ := exists_split ht key
  have halter := alter_split (f := f) (v := t.get? key) hpre hpost
  rw [← hs] at halter
  exact ⟨pre, post, hpre, hpost, hs, halter⟩

theorem get?_alter_self (ht : t.Ascending) {f : Option α → α} :
    (t.alter key f).get? key = some (f (t.get? key)) := by
  obtain ⟨pre, post, hpre, hpost, -, halter⟩ := exists_alter ht f
  have h := get?_split (v := some (f (t.get? key))) hpre hpost
  rw [halter]
  simpa [single] using h

omit [LE κ] [Std.IsLinearOrder κ] [Std.LawfulOrderLT κ] in
theorem get?_alter_of_ne {f : Option α → α} {k : κ} (hne : k ≠ key) :
    (t.alter key f).get? k = t.get? k := by
  have hbeq : (k == key) = false := beq_false_of_ne hne
  induction t with
  | nil => simp only [alter, get?, List.lookup_cons, hbeq]
  | cons e rest ih =>
    obtain ⟨k', v⟩ := e
    by_cases heq : k' = key
    · subst heq
      simp only [alter, get?, List.lookup_cons, hbeq, if_true]
    · by_cases hlt : key < k'
      · simp only [alter, get?, List.lookup_cons, hbeq, if_neg heq, if_pos hlt]
      · simp only [alter, get?, List.lookup_cons, if_neg heq, if_neg hlt] at ih ⊢
        rw [ih]

theorem Ascending.alter (ht : t.Ascending) {f : Option α → α} : (t.alter key f).Ascending := by
  obtain ⟨pre, post, hpre, hpost, hs, halter⟩ := exists_alter ht f
  rw [halter]
  refine ascending_splice hpre hpost (List.Pairwise.sublist ?_ ht)
  rw [hs, List.append_assoc]
  exact List.Sublist.append_left (List.sublist_append_right ..) pre

omit [DecidableLT κ] in
theorem get?_of_mem (ht : t.Ascending) {v : α} (h : (key, v) ∈ t) : t.get? key = some v := by
  obtain ⟨pre, post, rfl⟩ := List.append_of_mem h
  obtain ⟨-, hc, hp⟩ := List.pairwise_append.mp ht
  have hs := get?_split (v := some v) (fun e he => hp e he _ List.mem_cons_self)
    (List.pairwise_cons.mp hc).1
  simpa [single] using hs

omit [LE κ] [LT κ] [DecidableLT κ] [Std.IsLinearOrder κ] [Std.LawfulOrderLT κ] in
theorem mem_of_get? {v : α} (h : t.get? key = some v) : (key, v) ∈ t := by
  obtain ⟨pre, post, hs, -⟩ := List.lookup_eq_some_iff.mp h
  simp [hs]

omit [DecidableLT κ] [DecidableEq κ] in
theorem findSome?_eq_some {β : Type} {f : κ × α → Option β} {b : β} (ht : t.Ascending)
    (h : t.findSome? f = some b) :
    ∃ e ∈ t, f e = some b ∧ ∀ e' ∈ t, e'.1 < e.1 → f e' = none := by
  obtain ⟨pre, e, post, rfl, hf, hnone⟩ := List.findSome?_eq_some_iff.mp h
  have hpost := (List.pairwise_cons.mp (List.pairwise_append.mp ht).2.1).1
  refine ⟨e, by simp, hf, fun e' he' hlt => ?_⟩
  rcases List.mem_append.mp he' with hpre | hmem
  · exact hnone e' hpre
  · rcases List.mem_cons.mp hmem with rfl | hmem
    · grind
    · have := hpost e' hmem
      grind

omit [DecidableLT κ] in
theorem erase_split {v : Option α} (hpre : ∀ e ∈ pre, e.1 < key) (hpost : ∀ e ∈ post, key < e.1) :
    (pre ++ single key v ++ post).erase key = pre ++ post := by
  have hp : pre.filter (fun entry => entry.1 ≠ key) = pre := by
    refine List.filter_eq_self.mpr fun e he => ?_
    have := hpre e he
    grind
  have hq : post.filter (fun entry => entry.1 ≠ key) = post := by
    refine List.filter_eq_self.mpr fun e he => ?_
    have := hpost e he
    grind
  have hs : (single key v).filter (fun entry => entry.1 ≠ key) = [] := by
    cases v <;> simp [single]
  simp only [erase, List.filter_append, hp, hq, hs, List.append_nil]

variable {k : κ} {v : α} {f : Option α → α}

/-- No entry placed before has the key, so the one placed last is the one that changes. -/
theorem alter_place_self : alter key f (place (key, v) t) = place (key, f (some v)) t := by
  induction t with
  | nil => simp only [place, alter, if_true]
  | cons e rest ih =>
    by_cases hlt : e.1 < key
    · have hne : e.1 ≠ key := by grind
      have hge : ¬ key < e.1 := by grind
      simp only [place, if_pos hlt, alter, if_neg hne, if_neg hge, ih]
    · simp only [place, if_neg hlt, alter, if_true]

theorem alter_place_of_ne (hne : k ≠ key) :
    alter key f (place (k, v) t) = place (k, v) (alter key f t) := by
  induction t with
  | nil => grind [place, alter]
  | cons e rest ih => grind [place, alter]

/-- To change the entries and sort them is to sort them and change the table. -/
theorem sort_amend (entries : List (κ × α)) :
    sort (amend key f entries) = alter key f (sort entries) := by
  induction entries with
  | nil => rfl
  | cons e rest ih =>
    obtain ⟨k, v⟩ := e
    by_cases hk : k = key
    · subst hk
      simp only [amend, if_true]
      exact alter_place_self.symm
    · simp only [amend, if_neg hk]
      calc place (k, v) (sort (amend key f rest))
          = place (k, v) (alter key f (sort rest)) := by rw [ih]
        _ = alter key f (place (k, v) (sort rest)) := (alter_place_of_ne hk).symm

end Order

end Table

end Interpose

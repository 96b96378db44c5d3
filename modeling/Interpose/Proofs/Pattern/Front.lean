import Interpose.Arch.Isa
import Interpose.Proofs.Pattern.Fit
import Interpose.Proofs.Pattern.Scan

/-!
# Patterns of code in front of data

Thunks are fixed code followed by a captured word, and by more for the longer ones. In data that
begins with the code and a word, a collection of thunks finds one at the front, and whichever it
finds has captured that word.
-/

namespace Interpose

variable {items more : List Item} {bytes word data rest : Bytes} {r : Nat × Bytes}

theorem matchItems_target (word rest : Bytes) (more : List Item) :
    matchItems (Thunk.target word.length ++ more) (word ++ rest) =
      (matchItems more rest).map fun r => (word.length + r.1, word ++ r.2) := by
  induction word with
  | nil => simp [Thunk.target]
  | cons b word ih =>
    have hitems : Thunk.target (b :: word).length ++ more =
        .address :: (Thunk.target word.length ++ more) := rfl
    rw [hitems, List.cons_append, matchItems, ih, Option.map_map]
    refine Option.map_congr fun r _ => ?_
    simp only [Function.comp_apply, List.length_cons, List.cons_append]
    congr 1
    omega

theorem matchItems_code (bytes rest : Bytes) (more : List Item) :
    matchItems (Thunk.code bytes ++ more) (bytes ++ rest) =
      (matchItems more rest).map fun r => (bytes.length + r.1, r.2) := by
  induction bytes with
  | nil => simp [Thunk.code]
  | cons b bytes ih =>
    have hitems : Thunk.code (b :: bytes) ++ more = .literal b :: (Thunk.code bytes ++ more) := rfl
    rw [hitems, List.cons_append, matchItems, if_pos rfl, ih, Option.map_map]
    refine Option.map_congr fun r _ => ?_
    simp only [Function.comp_apply, List.length_cons]
    congr 1
    omega

namespace Pattern
variable {p : Pattern} {hit : Hit}

theorem matchAt?_captures (hp : p.items = Thunk.code bytes ++ (Thunk.target word.length ++ more))
    (hmore : Interpose.addressCount more = 0) (h : p.matchAt? (bytes ++ (word ++ rest)) = some hit) :
    hit.address = UInt64.ofNat (leNat word) := by
  rw [matchAt?_eq] at h
  split at h
  · cases h
  · obtain ⟨r, hr, rfl⟩ := Option.map_eq_some_iff.mp h
    rw [hp, matchItems_code] at hr
    obtain ⟨r₁, hr₁, rfl⟩ := Option.map_eq_some_iff.mp hr
    rw [matchItems_target] at hr₁
    obtain ⟨r₂, hr₂, rfl⟩ := Option.map_eq_some_iff.mp hr₁
    obtain ⟨skips, hshort⟩ := matchItems_shortest hr₂
    have hnone : r₂.2 = [] := by
      rw [← List.length_eq_zero_iff, hshort.fits.length_captured, hmore]
    simp only [hnone, List.append_nil]

theorem matchAt?_isSome (rest : Bytes) (hp : p.items = Thunk.code bytes ++ Thunk.target word.length) :
    (p.matchAt? (bytes ++ (word ++ rest))).isSome := by
  have hlen : p.minLength = bytes.length + word.length := by
    simp [minLength, Interpose.minLength, hp, Thunk.code, Thunk.target, List.filter_append,
      List.filter_map, Function.comp_def]
  have hmatch := matchItems_code bytes (word ++ rest) (Thunk.target word.length)
  rw [← List.append_nil (Thunk.target word.length), matchItems_target] at hmatch
  rw [List.append_nil, ← hp] at hmatch
  rw [matchAt?_eq]
  rw [if_neg (by simp only [hlen, List.length_append]; omega), hmatch]
  rfl

end Pattern

/-- All of the patterns stand at the start of code and are told by the first byte. Those that begin
with the byte `b` go on with `bytes` and capture the `n` bytes behind these and no others, which all
of them take for the same address; one of them ends there. -/
def Front (ps : List Pattern) (b : UInt8) (bytes : Bytes) (n : Nat) (meaning : AddressMeaning) :
    Prop :=
  (∃ p ∈ ps, p.items = Thunk.code (b :: bytes) ++ Thunk.target n) ∧
    ∀ p ∈ ps, p.atStart = true ∧ p.anchor.map Prod.fst = some 0 ∧
      (p.anchor = some (0, b) → p.meaning = meaning ∧
        p.items = Thunk.code (b :: bytes) ++
          (Thunk.target n ++ p.items.drop (bytes.length + 1 + n)) ∧
        addressCount (p.items.drop (bytes.length + 1 + n)) = 0)

instance (ps : List Pattern) (b : UInt8) (bytes : Bytes) (n : Nat) (meaning : AddressMeaning) :
    Decidable (Front ps b bytes n meaning) := inferInstanceAs (Decidable (_ ∧ _))

/-- Whatever follows the word, a thunk is found that has captured it. -/
theorem Collection.find?_front {ps : List Pattern} {b : UInt8} {n : Nat} {meaning : AddressMeaning}
    (h : Front ps b bytes n meaning) (hword : word.length = n) (rest : Bytes) :
    ∃ found, (ofList ps).find? (b :: bytes ++ (word ++ rest)) = some found ∧ found.offset = 0 ∧
      found.pattern.meaning = meaning ∧ found.hit.address = UInt64.ofNat (leNat word) := by
  subst hword
  obtain ⟨⟨p, hp, hitems⟩, hall⟩ := h
  cases hfind : (ofList ps).find? (b :: bytes ++ (word ++ rest)) with
  | none =>
    obtain ⟨hit, hhit⟩ := Option.isSome_iff_exists.mp (Pattern.matchAt?_isSome rest hitems)
    obtain ⟨i, hi⟩ := List.getElem?_of_mem hp
    have hc : Candidate ps (b :: bytes ++ (word ++ rest)) i 0 ⟨p, 0, hit⟩ :=
      ⟨hi, rfl, hhit, fun _ => rfl⟩
    exact absurd hc (find?_eq_none hfind)
  | some found =>
    obtain ⟨i, s, hc⟩ := (find?_eq_some hfind).candidate
    obtain ⟨hstart, hanchor, hsame⟩ := hall _ hc.mem
    obtain rfl := hc.atStart hstart
    obtain ⟨⟨o, v⟩, ha, rfl⟩ := Option.map_eq_some_iff.mp hanchor
    obtain rfl : b = v := Option.some.inj (hc.getElem?_anchor ha)
    obtain ⟨hmeaning, hshape, hmore⟩ := hsame ha
    exact ⟨found, rfl, hc.offset, hmeaning, Pattern.matchAt?_captures hshape hmore hc.hit⟩

end Interpose

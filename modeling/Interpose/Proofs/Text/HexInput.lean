import Interpose.Text.HexInput
import Mathlib.Data.List.Forall2

/-!
# What is read of typed bytes

A typed text is read if it comes in spellings of bytes: pairs of digits, and digits behind a plus
sign. Without a plus sign these are the runs of evenly many digits. A text in which a pair of bytes
ends inside a character faults there, unless it is refused before.
-/

namespace Interpose.Text

variable {c d : Char} {n : Nat} {b : UInt8} {text pair rest : List Char} {bytes : Bytes}

def IsHexDigit (c : Char) : Prop :=
  ('0' ≤ c ∧ c ≤ '9') ∨ ('a' ≤ c ∧ c ≤ 'f') ∨ ('A' ≤ c ∧ c ≤ 'F')

instance (c : Char) : Decidable (IsHexDigit c) := inferInstanceAs (Decidable (_ ∨ _))

def hexValue (c : Char) : Nat :=
  if c ≤ '9' then c.toNat - 48 else if c ≤ 'F' then c.toNat - 55 else c.toNat - 87

def pairValue (c d : Char) : UInt8 := UInt8.ofNat (16 * hexValue c + hexValue d)

def pairValues : List Char → Bytes
  | c :: d :: rest => pairValue c d :: pairValues rest
  | _ => []

/-- The texts that are read as one byte. -/
inductive Spells : List Char → UInt8 → Prop where
  | digits {c d : Char} : IsHexDigit c → IsHexDigit d → Spells [c, d] (pairValue c d)
  /-- A plus sign takes the place of the first digit. -/
  | plus {d : Char} : IsHexDigit d → Spells ['+', d] (pairValue '0' d)

/-- The first two bytes of a text end inside a character. -/
inductive Cut : List Char → Prop where
  | wide {c : Char} {rest : List Char} : 2 < c.utf8Size → Cut (c :: rest)
  | behind {c d : Char} {rest : List Char} : c.utf8Size = 1 → 1 < d.utf8Size → Cut (c :: d :: rest)

theorem char_le_iff : c ≤ d ↔ c.toNat ≤ d.toNat := by
  rw [Char.le_def, UInt32.le_iff_toNat_le]
  rfl

theorem isHexDigit_iff : IsHexDigit c ↔ (48 ≤ c.toNat ∧ c.toNat ≤ 57) ∨
    (97 ≤ c.toNat ∧ c.toNat ≤ 102) ∨ (65 ≤ c.toNat ∧ c.toNat ≤ 70) := by
  unfold IsHexDigit
  simp only [char_le_iff, Char.reduceToNat]

theorem hexValue_eq : hexValue c =
    if c.toNat ≤ 57 then c.toNat - 48 else if c.toNat ≤ 70 then c.toNat - 55 else c.toNat - 87 := by
  unfold hexValue
  simp only [char_le_iff, Char.reduceToNat]

theorem digit?_eq_some : digit? 16 c = some n ↔ IsHexDigit c ∧ n = hexValue c := by
  rw [isHexDigit_iff, hexValue_eq]
  unfold digit?
  simp only [char_le_iff, Char.reduceToNat, Option.filter_eq_some_iff, decide_eq_true_eq]
  grind

theorem IsHexDigit.utf8Size (h : IsHexDigit c) : c.utf8Size = 1 := by
  rw [Char.utf8Size_eq_one_iff, UInt32.le_iff_toNat_le]
  rw [isHexDigit_iff] at h
  show c.toNat ≤ 127
  omega

theorem IsHexDigit.hexValue_lt (h : IsHexDigit c) : hexValue c < 16 := by
  rw [isHexDigit_iff] at h
  rw [hexValue_eq]
  split
  · omega
  · split <;> omega

theorem IsHexDigit.ne_plus (h : IsHexDigit c) : c ≠ '+' := by
  rintro rfl
  exact absurd h (by decide)

theorem readDigits_cons_eq_ok {value : Nat} : readDigits 16 256 value (c :: rest) = .ok n ↔
    IsHexDigit c ∧ value * 16 + hexValue c < 256 ∧
      readDigits 16 256 (value * 16 + hexValue c) rest = .ok n := by
  rw [readDigits]
  cases hdigit : digit? 16 c with
  | none =>
    refine ⟨nofun, fun h => ?_⟩
    rw [digit?_eq_some.mpr ⟨h.1, rfl⟩] at hdigit
    cases hdigit
  | some k =>
    obtain ⟨hc, rfl⟩ := digit?_eq_some.mp hdigit
    dsimp only
    split
    · exact ⟨fun h => ⟨hc, ‹_›, h⟩, fun h => h.2.2⟩
    · exact ⟨nofun, fun h => absurd h.2.1 ‹_›⟩

theorem readNumber_unsigned (h : c ≠ '+') :
    readNumber 16 256 (c :: rest) = readDigits 16 256 0 (c :: rest) := by
  unfold readNumber
  split <;> simp_all

theorem toNat_pairValue (hc : IsHexDigit c) (hd : IsHexDigit d) :
    (pairValue c d).toNat = 16 * hexValue c + hexValue d := by
  have := hc.hexValue_lt
  have := hd.hexValue_lt
  exact UInt8.toNat_ofNat_of_lt' (by show _ < 256; omega)

theorem Spells.readNumber (h : Spells pair b) : readNumber 16 256 pair = .ok b.toNat := by
  cases h with
  | @digits c d hc hd =>
    have := hc.hexValue_lt
    have := hd.hexValue_lt
    rw [readNumber_unsigned hc.ne_plus, readDigits_cons_eq_ok, readDigits_cons_eq_ok,
      toNat_pairValue hc hd]
    refine ⟨hc, by omega, hd, by omega, ?_⟩
    rw [readDigits]
    congr 1
    omega
  | @plus d hd =>
    have := hd.hexValue_lt
    show readDigits 16 256 0 [d] = _
    rw [readDigits_cons_eq_ok, toNat_pairValue (by decide) hd]
    exact ⟨hd, by omega, rfl⟩

theorem takePair?_narrow (hc : c.utf8Size = 1) (hd : d.utf8Size = 1) :
    takePair? (c :: d :: rest) = some ([c, d], rest) := by
  simp [takePair?, hc, hd]

theorem Spells.takePair? (h : Spells pair b) (rest : List Char) :
    takePair? (pair ++ rest) = some (pair, rest) := by
  cases h with
  | digits hc hd => exact takePair?_narrow hc.utf8Size hd.utf8Size
  | plus hd => exact takePair?_narrow (by decide) hd.utf8Size

theorem takePair?_eq_some (h : takePair? text = some (pair, rest)) : text = pair ++ rest ∧
    ((∃ c, pair = [c] ∧ c.utf8Size = 2) ∨
      ∃ c d, pair = [c, d] ∧ c.utf8Size = 1 ∧ d.utf8Size = 1) := by
  unfold takePair? at h
  grind

theorem takePair?_eq_none (h : takePair? text = none) :
    text = [] ∨ (∃ c, text = [c] ∧ c.utf8Size = 1) ∨ Cut text := by
  cases text with
  | nil => exact Or.inl rfl
  | cons c rest =>
    right
    have hpos := c.utf8Size_pos
    by_cases hwide : 2 < c.utf8Size
    · exact Or.inr (.wide hwide)
    by_cases htwo : c.utf8Size = 2
    · simp [takePair?, htwo] at h
    have hone : c.utf8Size = 1 := by omega
    cases rest with
    | nil => exact Or.inl ⟨c, rfl, hone⟩
    | cons d rest =>
      have hposd := d.utf8Size_pos
      refine Or.inr (.behind hone (Nat.lt_of_le_of_ne hposd fun hd => ?_))
      rw [takePair?_narrow hone hd.symm] at h
      cases h

theorem Cut.takePair? (h : Cut text) : takePair? text = none := by
  cases h with
  | @wide c rest h =>
    have htwo : c.utf8Size ≠ 2 := by omega
    have hone : c.utf8Size ≠ 1 := by omega
    cases rest <;> simp [Text.takePair?, htwo, hone]
  | @behind c d rest h h' =>
    simp only [Text.takePair?]
    rw [if_neg (by omega), if_neg (by omega)]

theorem spells_of_readNumber (htake : takePair? text = some (pair, rest))
    (h : readNumber 16 256 pair = .ok n) : ∃ b, Spells pair b ∧ n = b.toNat := by
  obtain ⟨-, ⟨c, rfl, hc⟩ | ⟨c, d, rfl, -, -⟩⟩ := takePair?_eq_some htake
  · -- A single character of two bytes is neither the sign nor a digit.
    have hplus : c ≠ '+' := by
      rintro rfl
      exact absurd hc (by decide)
    rw [readNumber_unsigned hplus] at h
    have hone := (readDigits_cons_eq_ok.mp h).1.utf8Size
    omega
  · by_cases hplus : c = '+'
    · subst hplus
      replace h : readDigits 16 256 0 [d] = .ok n := h
      obtain ⟨hd, -, hn⟩ := readDigits_cons_eq_ok.mp h
      cases hn
      exact ⟨_, .plus hd, by rw [toNat_pairValue (by decide) hd]; rfl⟩
    · rw [readNumber_unsigned hplus] at h
      obtain ⟨hc, -, h⟩ := readDigits_cons_eq_ok.mp h
      obtain ⟨hd, -, hn⟩ := readDigits_cons_eq_ok.mp h
      cases hn
      exact ⟨_, .digits hc hd, by rw [toNat_pairValue hc hd]; omega⟩

theorem readPairs_spelling (h : Spells pair b) (rest : List Char) :
    readPairs (pair ++ rest) = (readPairs rest).map (b :: ·) := by
  have htake := h.takePair? rest
  have hne : (pair ++ rest).isEmpty = false := by cases h <;> rfl
  rw [readPairs.eq_def, if_neg (by rw [hne]; decide)]
  split
  · rename_i hnone
    cases htake.symm.trans hnone
  · rename_i hsome
    cases htake.symm.trans hsome
    rw [h.readNumber]
    dsimp only
    rw [UInt8.ofNat_toNat]

theorem readPairs_cut (h : Cut text) : readPairs text = .error (.engine .fault) := by
  have hne : text.isEmpty = false := by cases h <;> rfl
  rw [readPairs.eq_def, if_neg (by rw [hne]; decide)]
  split
  · rfl
  · rename_i hsome
    cases h.takePair?.symm.trans hsome

theorem readPairs_spellings {pairs : List (List Char)} (h : List.Forall₂ Spells pairs bytes)
    (rest : List Char) : readPairs (pairs.flatten ++ rest) = (readPairs rest).map (bytes ++ ·) := by
  induction h with
  | nil =>
    rw [List.flatten_nil, List.nil_append]
    cases readPairs rest <;> rfl
  | cons hpair _ ih =>
    rw [List.flatten_cons, List.append_assoc, readPairs_spelling hpair, ih]
    cases readPairs rest <;> rfl

/-- What is read comes in spellings of bytes, and so does what is in front of the place where
reading stops. -/
theorem readPairs_cases (text : List Char) : ∃ pairs bytes rest, text = pairs.flatten ++ rest ∧
    List.Forall₂ Spells pairs bytes ∧ (rest = [] ∧ readPairs text = .ok bytes ∨
      ((∃ c, rest = [c] ∧ c.utf8Size = 1) ∨ Cut rest) ∧ readPairs text = .error (.engine .fault) ∨
      ∃ pair why, readPairs text = .error (.input (.badByte pair why))) := by
  fun_induction readPairs text with
  | case1 text hempty =>
    exact ⟨[], [], [], by simpa using hempty, .nil, Or.inl ⟨rfl, rfl⟩⟩
  | case2 text hne htake =>
    refine ⟨[], [], text, rfl, .nil, Or.inr (Or.inl ⟨?_, rfl⟩)⟩
    exact (takePair?_eq_none htake).resolve_left (by simpa using hne)
  | case3 text hne pair rest htake _ why hnumber =>
    exact ⟨[], [], text, rfl, .nil, Or.inr (Or.inr ⟨_, why, rfl⟩)⟩
  | case4 text hne pair rest htake _ value hnumber ih =>
    obtain ⟨htext, -⟩ := takePair?_eq_some htake
    obtain ⟨b, hpair, rfl⟩ := spells_of_readNumber htake hnumber
    obtain ⟨pairs, bytes, last, hrest, hpairs, hstop⟩ := ih
    refine ⟨pair :: pairs, b :: bytes, last, ?_, .cons hpair hpairs, ?_⟩
    · rw [htext, hrest, List.flatten_cons, List.append_assoc]
    · obtain ⟨hlast, h⟩ | ⟨hlast, h⟩ | ⟨bad, why, h⟩ := hstop
      · exact Or.inl ⟨hlast, by rw [h, UInt8.ofNat_toNat]; rfl⟩
      · exact Or.inr (Or.inl ⟨hlast, by rw [h]; rfl⟩)
      · exact Or.inr (Or.inr ⟨bad, why, by rw [h]; rfl⟩)

theorem readPairs_eq_ok : readPairs text = .ok bytes ↔
    ∃ pairs, text = pairs.flatten ∧ List.Forall₂ Spells pairs bytes := by
  constructor
  · intro h
    obtain ⟨pairs, read, rest, htext, hpairs, hstop⟩ := readPairs_cases text
    obtain ⟨rfl, h'⟩ | ⟨-, h'⟩ | ⟨bad, why, h'⟩ := hstop
    · cases h.symm.trans h'
      exact ⟨pairs, by simpa using htext, hpairs⟩
    · cases h.symm.trans h'
    · cases h.symm.trans h'
  · rintro ⟨pairs, rfl, hpairs⟩
    have h := readPairs_spellings hpairs []
    rw [List.append_nil] at h
    rw [h, readPairs.eq_def]
    simp [Except.map]

theorem utf8ByteSize_cons (c : Char) (rest : List Char) :
    (String.ofList (c :: rest)).utf8ByteSize = c.utf8Size + (String.ofList rest).utf8ByteSize := by
  simp

theorem utf8ByteSize_append (text rest : List Char) : (String.ofList (text ++ rest)).utf8ByteSize =
    (String.ofList text).utf8ByteSize + (String.ofList rest).utf8ByteSize := by
  simp

theorem Spells.utf8ByteSize (h : Spells pair b) : (String.ofList pair).utf8ByteSize = 2 := by
  cases h with
  | digits hc hd =>
    rw [utf8ByteSize_cons, utf8ByteSize_cons, hc.utf8Size, hd.utf8Size]
    rfl
  | plus hd =>
    rw [utf8ByteSize_cons, utf8ByteSize_cons, hd.utf8Size]
    rfl

theorem spellings_even {pairs : List (List Char)} (h : List.Forall₂ Spells pairs bytes) :
    (String.ofList pairs.flatten).utf8ByteSize % 2 = 0 := by
  induction h with
  | nil => rfl
  | cons hpair _ ih =>
    rw [List.flatten_cons, utf8ByteSize_append, hpair.utf8ByteSize]
    omega

theorem readPairs_eq_fault (heven : (String.ofList text).utf8ByteSize % 2 = 0) :
    readPairs text = .error (.engine .fault) ↔ ∃ pairs bytes rest, text = pairs.flatten ++ rest ∧
      List.Forall₂ Spells pairs bytes ∧ Cut rest := by
  constructor
  · intro h
    obtain ⟨pairs, bytes, rest, htext, hpairs, hstop⟩ := readPairs_cases text
    refine ⟨pairs, bytes, rest, htext, hpairs, ?_⟩
    obtain ⟨-, h'⟩ | ⟨⟨c, rfl, hc⟩ | hcut, -⟩ | ⟨bad, why, h'⟩ := hstop
    · cases h.symm.trans h'
    · -- A single byte behind spellings makes the number of bytes odd.
      have hpairs := spellings_even hpairs
      rw [htext, utf8ByteSize_append, utf8ByteSize_cons, hc, String.ofList_nil,
        String.utf8ByteSize_empty] at heven
      omega
    · exact hcut
    · cases h.symm.trans h'
  · rintro ⟨pairs, bytes, rest, rfl, hpairs, hcut⟩
    rw [readPairs_spellings hpairs, readPairs_cut hcut]
    rfl

theorem spellings_of_digits (text : List Char) (heven : text.length % 2 = 0)
    (h : ∀ c ∈ text, IsHexDigit c) :
    ∃ pairs, text = pairs.flatten ∧ List.Forall₂ Spells pairs (pairValues text) := by
  fun_induction pairValues text with
  | case1 c d rest ih =>
    obtain ⟨hc, hrest⟩ := List.forall_mem_cons.mp h
    obtain ⟨hd, hrest⟩ := List.forall_mem_cons.mp hrest
    simp only [List.length_cons] at heven
    obtain ⟨pairs, htext, hpairs⟩ := ih (by omega) hrest
    exact ⟨[c, d] :: pairs, by rw [htext]; rfl, .cons (.digits hc hd) hpairs⟩
  | case2 text hshort =>
    obtain rfl : text = [] := by
      match text with
      | [] => rfl
      | [c] => simp at heven
      | c :: d :: rest => exact absurd rfl (hshort c d rest)
    exact ⟨[], rfl, .nil⟩

theorem digits_of_spellings {pairs : List (List Char)} (h : List.Forall₂ Spells pairs bytes)
    (hplus : '+' ∉ pairs.flatten) : pairs.flatten.length % 2 = 0 ∧
      (∀ c ∈ pairs.flatten, IsHexDigit c) ∧ bytes = pairValues pairs.flatten := by
  induction h with
  | nil => exact ⟨rfl, nofun, rfl⟩
  | @cons pair b pairs bytes hpair _ ih =>
    rw [List.flatten_cons, List.mem_append, not_or] at hplus
    obtain ⟨heven, hdigits, hvalues⟩ := ih hplus.2
    cases hpair with
    | @digits c d hc hd =>
      refine ⟨?_, ?_, ?_⟩
      · show (pairs.flatten.length + 1 + 1) % 2 = 0
        omega
      · exact List.forall_mem_cons.mpr ⟨hc, List.forall_mem_cons.mpr ⟨hd, hdigits⟩⟩
      · rw [hvalues]
        rfl
    | plus hd => exact absurd List.mem_cons_self hplus.1

theorem readBytes_odd {text : String}
    (h : (String.ofList (typedDigits text)).utf8ByteSize % 2 = 1) :
    readBytes text = .error (.input (.oddDigits text)) := if_pos h

theorem readBytes_even {text : String}
    (h : (String.ofList (typedDigits text)).utf8ByteSize % 2 = 0) :
    readBytes text = readPairs (typedDigits text) := if_neg (by omega)

theorem readBytes_eq_ok {text : String} : readBytes text = .ok bytes ↔
    ∃ pairs, typedDigits text = pairs.flatten ∧ List.Forall₂ Spells pairs bytes := by
  rw [← readPairs_eq_ok]
  rcases Nat.mod_two_eq_zero_or_one (String.ofList (typedDigits text)).utf8ByteSize with h | h
  · rw [readBytes_even h]
  · rw [readBytes_odd h]
    refine ⟨nofun, fun hread => ?_⟩
    obtain ⟨pairs, htext, hpairs⟩ := readPairs_eq_ok.mp hread
    rw [htext, spellings_even hpairs] at h
    cases h

theorem readBytes_eq_fault {text : String} : readBytes text = .error (.engine .fault) ↔
    (String.ofList (typedDigits text)).utf8ByteSize % 2 = 0 ∧ ∃ pairs bytes rest,
      typedDigits text = pairs.flatten ++ rest ∧ List.Forall₂ Spells pairs bytes ∧ Cut rest := by
  rcases Nat.mod_two_eq_zero_or_one (String.ofList (typedDigits text)).utf8ByteSize with h | h
  · rw [readBytes_even h, readPairs_eq_fault h, and_iff_right h]
  · rw [readBytes_odd h, h]
    exact ⟨nofun, fun hcut => absurd hcut.1 Nat.one_ne_zero⟩

theorem readBytes_error {text : String} {e : ToolFailure} (h : readBytes text = .error e) :
    e = .engine .fault ∨ e = .input (.oddDigits text) ∨
      ∃ pair why, e = .input (.badByte pair why) := by
  rcases Nat.mod_two_eq_zero_or_one (String.ofList (typedDigits text)).utf8ByteSize with
    hsize | hsize
  · rw [readBytes_even hsize] at h
    obtain ⟨_, _, _, -, -, hstop⟩ := readPairs_cases (typedDigits text)
    obtain ⟨-, h'⟩ | ⟨-, h'⟩ | ⟨pair, why, h'⟩ := hstop
    · cases h.symm.trans h'
    · cases h.symm.trans h'
      exact Or.inl rfl
    · cases h.symm.trans h'
      exact Or.inr (Or.inr ⟨pair, why, rfl⟩)
  · cases (readBytes_odd hsize).symm.trans h
    exact Or.inr (Or.inl rfl)

/-- A text is read as bytes exactly if it comes in spellings of these. So a run of evenly many
digits is read as their values, and without a plus sign nothing else is. A text of an even number of
bytes faults exactly if, behind spellings, a pair is cut inside a character. All other texts are
refused, for their length or for a pair. -/
theorem readBytes_exact (text : String) :
    let digits := typedDigits text
    (∀ bytes, readBytes text = .ok bytes ↔
      ∃ pairs, digits = pairs.flatten ∧ List.Forall₂ Spells pairs bytes) ∧
    (digits.length % 2 = 0 → (∀ c ∈ digits, IsHexDigit c) →
      readBytes text = .ok (pairValues digits)) ∧
    ('+' ∉ digits → ∀ bytes, readBytes text = .ok bytes →
      digits.length % 2 = 0 ∧ (∀ c ∈ digits, IsHexDigit c) ∧ bytes = pairValues digits) ∧
    (readBytes text = .error (.engine .fault) ↔ (String.ofList digits).utf8ByteSize % 2 = 0 ∧
      ∃ pairs bytes rest, digits = pairs.flatten ++ rest ∧ List.Forall₂ Spells pairs bytes ∧
        Cut rest) ∧
    ∀ e, readBytes text = .error e → e = .engine .fault ∨ e = .input (.oddDigits text) ∨
      ∃ pair why, e = .input (.badByte pair why) := by
  intro digits
  refine ⟨fun _ => readBytes_eq_ok, ?_, ?_, readBytes_eq_fault, fun _ => readBytes_error⟩
  · intro heven hdigits
    exact readBytes_eq_ok.mpr (spellings_of_digits digits heven hdigits)
  · intro hplus bytes h
    obtain ⟨pairs, hpairs, hspells⟩ := readBytes_eq_ok.mp h
    have hdigits : digits = pairs.flatten := hpairs
    rw [hdigits] at hplus ⊢
    exact digits_of_spellings hspells hplus

/-- Bytes typed with separators, leads and letters of both cases. -/
theorem readBytes_exact_separated :
    typedDigits "0xE9, fb\t0f" = ['E', '9', 'f', 'b', '0', 'f'] ∧
      readBytes "0xE9, fb\t0f" = .ok [0xE9, 0xFB, 0x0F] := by
  have hdigits : typedDigits "0xE9, fb\t0f" = ['E', '9', 'f', 'b', '0', 'f'] := by decide
  have hrun : ∀ c ∈ ['E', '9', 'f', 'b', '0', 'f'], IsHexDigit c := by simp [isHexDigit_iff]
  have h := (readBytes_exact "0xE9, fb\t0f").2.1 (by rw [hdigits]; decide) (hdigits ▸ hrun)
  rw [hdigits] at h
  exact ⟨hdigits, h⟩

/-- A sign is read with its digit, and a pair that is cut faults. -/
theorem readBytes_beyond_digits :
    (typedDigits "+A" = ['+', 'A'] ∧ ¬ IsHexDigit '+' ∧ readBytes "+A" = .ok [0x0A]) ∧
      typedDigits "1é1" = ['1', 'é', '1'] ∧ readBytes "1é1" = .error (.engine .fault) := by
  have hplus : typedDigits "+A" = ['+', 'A'] := by decide
  have hcut : typedDigits "1é1" = ['1', 'é', '1'] := by decide
  refine ⟨⟨hplus, by decide, ?_⟩, hcut, ?_⟩
  · exact readBytes_eq_ok.mpr ⟨[['+', 'A']], hplus, .cons (.plus (by decide)) .nil⟩
  · refine readBytes_eq_fault.mpr ⟨by rw [hcut]; decide, [], [], _, hcut, .nil, ?_⟩
    exact .behind (by decide) (by decide)

end Interpose.Text

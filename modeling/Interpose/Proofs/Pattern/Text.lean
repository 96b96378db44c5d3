import Interpose.Pattern.Signature
import Interpose.Proofs.Action

/-!
# Reading back what was written

The words of blank-separated words are these words, the token of an item is read as that item, and
so the text of a pattern is read as its items and a signature as the pattern it was made of.
-/

namespace Interpose

namespace Text
variable {sep : Char → Bool} {run rest : List Char} {c : Char} {n : Nat}

theorem splitOnP_ne_nil (sep : Char → Bool) (text : List Char) : splitOnP sep text ≠ [] := by
  cases text with
  | nil => nofun
  | cons c rest =>
    unfold splitOnP
    split
    · nofun
    · split <;> nofun

theorem splitOnP_run (h : ∀ c ∈ run, sep c = false) : splitOnP sep run = [run] := by
  induction run with
  | nil => rfl
  | cons c run ih =>
    obtain ⟨hc, hrun⟩ := List.forall_mem_cons.mp h
    simp only [splitOnP, ih hrun, hc, Bool.false_eq_true, if_false]

theorem splitOnP_run_append (h : ∀ c ∈ run, sep c = false) (hc : sep c = true) :
    splitOnP sep (run ++ c :: rest) = run :: splitOnP sep rest := by
  induction run with
  | nil =>
    obtain ⟨first, others, hsplit⟩ := List.exists_cons_of_ne_nil (splitOnP_ne_nil sep rest)
    simp only [List.nil_append, splitOnP, hsplit, hc, if_true]
  | cons d run ih =>
    obtain ⟨hd, hrun⟩ := List.forall_mem_cons.mp h
    simp only [List.cons_append, splitOnP, ih hrun, hd, Bool.false_eq_true, if_false]

theorem splitOnP_intercalate {ws : List (List Char)} (hne : ws ≠ [])
    (h : ∀ w ∈ ws, ∀ c ∈ w, sep c = false) (hc : sep c = true) :
    splitOnP sep ([c].intercalate ws) = ws := by
  induction ws with
  | nil => exact absurd rfl hne
  | cons w ws ih =>
    obtain ⟨hw, hws⟩ := List.forall_mem_cons.mp h
    cases ws with
    | nil =>
      rw [List.intercalate_singleton]
      exact splitOnP_run hw
    | cons w' ws =>
      have hrest := ih (List.cons_ne_nil _ _) hws
      rw [List.intercalate_cons_cons, List.append_assoc, List.singleton_append,
        splitOnP_run_append hw hc, hrest]

theorem words_intercalate (ws : List (List Char))
    (h : ∀ w ∈ ws, w ≠ [] ∧ ∀ c ∈ w, isBlank c = false) :
    words (" ".intercalate (ws.map String.ofList)).toList = ws := by
  have htext : (" ".intercalate (ws.map String.ofList)).toList = [' '].intercalate ws := by
    rw [String.toList_intercalate, List.map_map]
    simp
  rw [htext]
  unfold words
  by_cases hne : ws = []
  · subst hne
    rfl
  · rw [splitOnP_intercalate hne (fun w hw => (h w hw).2) rfl]
    exact List.filter_eq_self.mpr fun w hw => by simpa using (h w hw).1

theorem digit?_hexDigit (h : n < 16) : digit? 16 (hexDigit n) = some n := by
  have all : ∀ n : Fin 16, digit? 16 (hexDigit n.val) = some n.val := by decide
  exact all ⟨n, h⟩

theorem isBlank_hexDigit (h : n < 16) : isBlank (hexDigit n) = false := by
  have all : ∀ n : Fin 16, isBlank (hexDigit n.val) = false := by decide
  exact all ⟨n, h⟩

theorem hexDigit_ne (h : n < 16) (hc : c ∈ ['+', '?', '%', '*']) : hexDigit n ≠ c := by
  have all : ∀ n : Fin 16, hexDigit n.val ∉ ['+', '?', '%', '*'] := by decide
  rintro rfl
  exact all ⟨n, h⟩ hc

theorem readNumber_hexByte (b : UInt8) : readNumber 16 256 (hexByte b) = .ok b.toNat := by
  have hb : b.toNat < 256 := b.toNat_lt
  have hplus : hexDigit (b.toNat / 16) ≠ '+' := hexDigit_ne (by omega) (by simp)
  have hdigits : readDigits 16 256 0 (hexByte b) = .ok b.toNat := by
    simp only [hexByte, readDigits, digit?_hexDigit (n := b.toNat / 16) (by omega),
      digit?_hexDigit (n := b.toNat % 16) (by omega)]
    rw [if_pos (by omega), if_pos (by omega)]
    congr 1
    omega
  rw [← hdigits]
  unfold hexByte readNumber
  split
  · contradiction
  · simp_all
  · simp_all
  · rfl

end Text

namespace Item

theorem token_ne_nil (item : Item) : item.token ≠ [] := by
  cases item <;> exact List.cons_ne_nil _ _

theorem isBlank_token (item : Item) : ∀ c ∈ item.token, Text.isBlank c = false := by
  cases item with
  | literal value =>
    have hb : value.toNat < 256 := value.toNat_lt
    intro c hc
    simp only [token, Text.hexByte, List.mem_cons, List.not_mem_nil, or_false] at hc
    obtain rfl | rfl := hc <;> exact Text.isBlank_hexDigit (by omega)
  | any => simp [token, Text.isBlank]
  | address => simp [token, Text.isBlank]
  | gap => simp [token, Text.isBlank]

theorem ofToken_token (item : Item) : ofToken item.token = .ok item := by
  cases item with
  | literal value =>
    have hb : value.toNat < 256 := value.toNat_lt
    have hread := Text.readNumber_hexByte value
    have hany : Text.hexDigit (value.toNat / 16) ≠ '?' := Text.hexDigit_ne (by omega) (by simp)
    have haddress : Text.hexDigit (value.toNat / 16) ≠ '%' := Text.hexDigit_ne (by omega) (by simp)
    simp only [Text.hexByte] at hread
    simp [ofToken, token, Text.hexByte, hany, haddress, hread]
  | any => rfl
  | address => rfl
  | gap => rfl

end Item

theorem parseItems_formatItems {items : List Item} (hne : items ≠ []) :
    parseItems (formatItems items) = .ok items := by
  have hwords : Text.words (formatItems items).toList = items.map Item.token := by
    have hjoin := Text.words_intercalate (items.map Item.token)
      (List.forall_mem_map.mpr fun item _ => ⟨item.token_ne_nil, item.isBlank_token⟩)
    rwa [List.map_map] at hjoin
  unfold parseItems
  rw [hwords, Attempt.mapM_map_eq_ok Item.ofToken_token]
  show (if items = [] then _ else _) = _
  rw [if_neg hne]
  rfl

theorem parseItems_ne_nil {text : String} {items : List Item} (h : parseItems text = .ok items) :
    items ≠ [] := by
  obtain ⟨read, -, h⟩ := Attempt.bind_eq_ok.mp h
  split at h
  · cases h
  · cases h
    assumption

namespace Pattern

theorem items_ne_nil (p : Pattern) : p.items ≠ [] := by
  intro h
  have hpos := p.minLength_pos
  rw [h] at hpos
  exact absurd hpos (Nat.lt_irrefl 0)

theorem make_items (p : Pattern) : make p.name p.meaning p.atStart p.items = .ok p := by
  unfold make
  rw [if_neg p.items_ne_nil, dif_pos p.addressCount_le, dif_pos p.minLength_pos]

theorem make_eq_ok {name : String} {meaning : AddressMeaning} {atStart : Bool} {items : List Item}
    {p : Pattern} : make name meaning atStart items = .ok p ↔
      p.name = name ∧ p.meaning = meaning ∧ p.atStart = atStart ∧ p.items = items := by
  constructor
  · intro h
    unfold make at h
    split at h
    · cases h
    · split at h
      · split at h
        · cases h
          exact ⟨rfl, rfl, rfl, rfl⟩
        · cases h
      · cases h
  · rintro ⟨rfl, rfl, rfl, rfl⟩
    exact p.make_items

theorem parse_formatItems (p : Pattern) :
    parse p.name p.meaning p.atStart (formatItems p.items) = .ok p := by
  unfold parse
  rw [parseItems_formatItems p.items_ne_nil]
  exact p.make_items

end Pattern

namespace Signature

theorem toPattern_ofPattern (p : Pattern) : (ofPattern p).toPattern = .ok p := p.parse_formatItems

/-- Items are read back from their text, and so are those of any text that is read, however it
spells them: writing them a second time changes nothing. A pattern holds what it was made of, with
any name and meaning, and its signature is read as the same pattern. -/
theorem read_back :
    (∀ items, items ≠ [] → parseItems (formatItems items) = .ok items) ∧
    (∀ text items, parseItems text = .ok items → parseItems (formatItems items) = .ok items) ∧
    (∀ text written, (parseItems text).map formatItems = .ok written →
      (parseItems written).map formatItems = .ok written) ∧
    ∀ name meaning atStart items p, Pattern.make name meaning atStart items = .ok p →
      (p.name = name ∧ p.meaning = meaning ∧ p.atStart = atStart ∧ p.items = items) ∧
      (ofPattern p).toPattern = .ok p := by
  refine ⟨fun items => parseItems_formatItems, ?_, ?_, ?_⟩
  · intro text items h
    exact parseItems_formatItems (parseItems_ne_nil h)
  · intro text written h
    cases hread : parseItems text with
    | error e =>
      rw [hread] at h
      cases h
    | ok items =>
      rw [hread] at h
      cases h
      rw [parseItems_formatItems (parseItems_ne_nil hread)]
      rfl
  · intro name meaning atStart items p h
    exact ⟨Pattern.make_eq_ok.mp h, toPattern_ofPattern p⟩

/-- A text of all kinds of items, few of them as they are written. -/
theorem read_back_respelled :
    let items : List Item := [.literal 0xE9, .literal 0x0F, .any, .address, .gap]
    let meaning : AddressMeaning := ⟨⟨.rel64, true, true⟩, 0xFFFFFFFFFFFFFFFF⟩
    parseItems "+e9\u2003F ?\t%%\n*" = .ok items ∧ formatItems items = "E9 0F ?? %% *" ∧
      parseItems "E9 0F ?? %% *" = .ok items ∧
      ∃ p, Pattern.make "\"?\n" meaning true items = .ok p ∧ (ofPattern p).toPattern = .ok p := by
  intro items meaning
  obtain ⟨-, hread, -, hmake⟩ := read_back
  have htext : parseItems "+e9\u2003F ?\t%%\n*" = .ok items := by rfl
  have hwritten : formatItems items = "E9 0F ?? %% *" := by decide
  have hp : Pattern.make "\"?\n" meaning true items =
      .ok ⟨"\"?\n", items, meaning, true, by decide, by decide⟩ := by rfl
  exact ⟨htext, hwritten, hwritten ▸ hread _ _ htext, _, hp, (hmake _ _ _ _ _ hp).2⟩

end Signature

theorem SignatureSet.toCollection_ofCollection (architecture : String) (c : Collection) :
    (ofCollection architecture c).toCollection = .ok (Collection.ofList c.toList) := by
  unfold toCollection ofCollection
  rw [Attempt.mapM_map_eq_ok Signature.toPattern_ofPattern]
  rfl

end Interpose

import Interpose.X86.Layout

/-!
# What is laid out

Laying out moved instructions changes their forms and places, and neither the instructions nor their
order. Every form of a branch has bytes, so code with a branch in it is not empty.
-/

namespace Interpose.X86

variable {slots rest : List Slot} {s : Slot} {index fuel : Nat} {base place pointer target : Address}
  {code : List (Instruction × Address)} {bytes : Bytes} {kind : Branch} {lead : Bytes}

namespace Slot

theorem shrinkBranch_instruction (s : Slot) (slots : List Slot) (gained : Nat) (kind : Branch)
    (lead : Nat) : (s.shrinkBranch slots gained kind lead).instruction = s.instruction := by
  unfold shrinkBranch
  dsimp only
  split
  · rfl
  · split
    · rfl
    · split
      · rfl
      · split <;> rfl

theorem shrinkRelative_instruction (s : Slot) (slots : List Slot) (gained lead lead32 tail : Nat) :
    (s.shrinkRelative slots gained lead lead32 tail).instruction = s.instruction := by
  unfold shrinkRelative
  dsimp only
  split
  · rfl
  · split
    · rfl
    · split <;> rfl

theorem shrink_instruction (s : Slot) (slots : List Slot) (gained : Nat) :
    (s.shrink slots gained).instruction = s.instruction := by
  unfold shrink
  split
  · rfl
  · split
    · rfl
    · exact s.shrinkRelative_instruction ..
    · exact s.shrinkBranch_instruction ..

end Slot

theorem map_instruction_set (slot : Slot) (h : slots[index]? = some s)
    (hsame : slot.instruction = s.instruction) :
    (slots.set index slot).map Slot.instruction = slots.map Slot.instruction := by
  rw [List.map_set, hsame]
  refine List.ext_getElem? fun i => ?_
  by_cases hi : index = i
  · subst hi
    have hlt : index < slots.length := (List.getElem?_eq_some_iff.mp h).1
    rw [List.getElem?_set_self (by simpa using hlt), List.getElem?_map, h]
    rfl
  · rw [List.getElem?_set_ne hi]

theorem shrinkFrom_instruction (counting : Bool) (remaining : Nat) (slots : List Slot)
    (index : Nat) (place : Address) (gained : Nat) :
    (shrinkFrom counting remaining slots index place gained).1.map Slot.instruction =
      slots.map Slot.instruction := by
  induction remaining generalizing slots index place gained with
  | zero => rfl
  | succ remaining ih =>
    unfold shrinkFrom
    split
    · rfl
    · rename_i slot hslot
      have hplaced := map_instruction_set { slot with place } hslot rfl
      have hat : (slots.set index { slot with place })[index]? = some { slot with place } :=
        List.getElem?_set_self (List.getElem?_eq_some_iff.mp hslot).1
      dsimp only
      rw [ih, map_instruction_set _ hat (Slot.shrink_instruction ..), hplaced]

theorem settle_instruction :
    (settle fuel base slots).map Slot.instruction = slots.map Slot.instruction := by
  induction fuel generalizing slots with
  | zero => rfl
  | succ fuel ih =>
    have hpass := shrinkFrom_instruction true slots.length slots 0 base 0
    unfold settle
    split
    · rename_i shorter hshorter
      rw [hshorter] at hpass
      rw [ih, hpass]
    · rename_i final hfinal
      rw [hfinal] at hpass
      exact hpass

theorem placeAll_instruction :
    (placeAll place slots).map Slot.instruction = slots.map Slot.instruction := by
  induction slots generalizing place with
  | nil => rfl
  | cons slot slots ih => rw [placeAll, List.map_cons, List.map_cons, ih]

theorem arrange_instruction (base : Address) (code : List (Instruction × Address)) :
    (arrange base code).map Slot.instruction = code.map Prod.fst := by
  unfold arrange
  dsimp only
  rw [settle_instruction, shrinkFrom_instruction, placeAll_instruction, List.map_map]
  rfl

namespace Branch

theorem shortBytes?_ne_nil (h : kind.shortBytes? lead place target = some bytes) : bytes ≠ [] := by
  unfold shortBytes? at h
  dsimp only at h
  cases kind with
  | call => cases h
  | transaction =>
    dsimp only at h
    split at h
    · rw [← Option.some.inj h]
      simp
    · cases h
  | _ =>
    obtain ⟨displacement, -, rfl⟩ := Option.map_eq_some_iff.mp h
    simp

theorem nearBytes?_ne_nil (h : kind.nearBytes? lead place target = some bytes) : bytes ≠ [] := by
  simp only [nearBytes?, Option.bind_eq_bind, Option.bind_eq_some_iff] at h
  obtain ⟨displacement, -, h⟩ := h
  cases kind <;> rw [← Option.some.inj h] <;> simp

theorem pointerJump?_ne_nil {isCall : Bool} {n : Nat}
    (h : pointerJump? isCall place pointer n = some bytes) : bytes ≠ [] := by
  simp only [pointerJump?, Option.bind_eq_bind, Option.bind_eq_some_iff] at h
  obtain ⟨displacement, -, h⟩ := h
  rw [← Option.some.inj h]
  simp

theorem longBytes?_ne_nil {n : Nat} (h : kind.longBytes? lead place pointer n = some bytes) :
    bytes ≠ [] := by
  cases kind with
  | transaction => cases h
  | _ =>
    simp only [longBytes?, Option.map_eq_some_iff] at h
    obtain ⟨jump, hjump, rfl⟩ := h
    simp [pointerJump?_ne_nil hjump]

end Branch

theorem Slot.bytes?_ne_nil (hs : s.instruction = .branch kind lead target)
    (h : s.bytes? slots pointer = some bytes) : bytes ≠ [] := by
  obtain ⟨h, -⟩ := Option.filter_eq_some_iff.mp h
  rw [hs] at h
  cases hshape : s.shape <;> rw [hshape] at h
  · cases h
  · exact Branch.shortBytes?_ne_nil h
  · exact Branch.nearBytes?_ne_nil h
  · exact Branch.longBytes?_ne_nil h

theorem writeSlots?_ne_nil (hs : s ∈ rest) (hbranch : s.instruction = .branch kind lead target)
    (h : writeSlots? slots rest pointer = some bytes) : bytes ≠ [] := by
  induction rest generalizing pointer bytes with
  | nil => cases hs
  | cons first rest ih =>
    simp only [writeSlots?, Option.bind_eq_bind, Option.bind_eq_some_iff] at h
    obtain ⟨front, hfront, back, hback, h⟩ := h
    rw [← Option.some.inj h]
    intro hnil
    obtain ⟨hnil, hnil'⟩ := List.append_eq_nil_iff.mp hnil
    rcases List.mem_cons.mp hs with rfl | hs
    · exact Slot.bytes?_ne_nil hbranch hfront hnil
    · exact ih hs hback hnil'

theorem encodeAt?_ne_nil {origin : Address} (hmem : (.branch kind lead target, origin) ∈ code)
    (h : encodeAt? base code = some bytes) : bytes ≠ [] := by
  simp only [encodeAt?, Option.bind_eq_bind, Option.bind_eq_some_iff] at h
  obtain ⟨written, hwritten, h⟩ := h
  have hslot : Instruction.branch kind lead target ∈ (arrange base code).map Slot.instruction := by
    rw [arrange_instruction]
    exact List.mem_map.mpr ⟨_, hmem, rfl⟩
  obtain ⟨s, hs, hbranch⟩ := List.mem_map.mp hslot
  have hne := writeSlots?_ne_nil hs hbranch hwritten
  split at h <;> rw [← Option.some.inj h]
  · exact hne
  · simp [hne]

end Interpose.X86

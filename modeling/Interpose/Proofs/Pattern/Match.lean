import Interpose.Pattern.Match
import Interpose.Proofs.Action
import Interpose.Proofs.Word

/-!
# Matching with one buffer

An attempt writes behind the bytes that were captured before it, to as many places as its items have
addresses. The attempts at one gap all write to the same places, so the one that succeeds has its
bytes there whatever the others left, and the places behind them keep the zeros they began with. The
search in the buffer thus comes to what `matchItems` does.
-/

namespace Interpose

variable {c c' c'' : Capture} {n count : Nat} {found : Option (Nat × Bytes)} {b : UInt8}
  {items : List Item} {data : Bytes}

/-- What an attempt does to the buffer: nothing but at `n` places behind the bytes captured before,
and there it leaves the bytes that it found to capture. -/
structure Writes (c : Capture) (n : Nat) (found : Option (Nat × Bytes)) (c' : Capture) : Prop where
  length : c'.buffer.length = c.buffer.length
  front : c'.buffer.take c.count = c.buffer.take c.count
  back : c'.buffer.drop (c.count + n) = c.buffer.drop (c.count + n)
  captured : ∀ r, found = some r → (c'.buffer.drop c.count).take n = r.2

theorem Writes.nothing (c : Capture) : Writes c 0 (some (0, [])) c := by
  refine ⟨rfl, rfl, rfl, ?_⟩
  rintro r ⟨⟩
  rfl

theorem Writes.unmatched (c : Capture) (n : Nat) : Writes c n none c := ⟨rfl, rfl, rfl, nofun⟩

theorem Writes.trans (h : Writes ⟨c.buffer, count⟩ n none c')
    (h' : Writes ⟨c'.buffer, count⟩ n found c'') : Writes ⟨c.buffer, count⟩ n found c'' :=
  ⟨h'.length.trans h.length, h'.front.trans h.front, h'.back.trans h.back, h'.captured⟩

theorem Writes.covering (h : Writes c n found c') :
    Writes c n (found.map fun r => (r.1 + 1, r.2)) c' := by
  refine ⟨h.length, h.front, h.back, ?_⟩
  intro r hr
  obtain ⟨r', hr', rfl⟩ := Option.map_eq_some_iff.mp hr
  exact h.captured r' hr'

theorem Writes.capturing (hroom : c.count < c.buffer.length)
    (h : Writes ⟨c.buffer.set c.count b, c.count + 1⟩ n found c') :
    Writes c (n + 1) (found.map fun r => (r.1 + 1, b :: r.2)) c' := by
  obtain ⟨hlength, hfront, hback, hcaptured⟩ := h
  dsimp only at hlength hfront hback hcaptured
  rw [List.length_set] at hlength
  have htake : c'.buffer.take c.count = c.buffer.take c.count := by
    have := congrArg (List.take c.count) hfront
    simpa [List.take_take, List.take_set_of_le] using this
  have hbyte : c'.buffer[c.count]? = some b := by
    have := congrArg (·[c.count]?) hfront
    simpa [List.getElem?_take, hroom] using this
  refine ⟨hlength, htake, ?_, ?_⟩
  · rw [Nat.add_comm n 1, ← Nat.add_assoc, hback, List.drop_set_of_lt (by omega)]
  · intro r hr
    obtain ⟨r', hr', rfl⟩ := Option.map_eq_some_iff.mp hr
    have hlt : c.count < c'.buffer.length := by omega
    have hget : c'.buffer[c.count] = b := by
      rw [List.getElem?_eq_getElem hlt] at hbyte
      exact Option.some.inj hbyte
    rw [List.drop_eq_getElem_cons hlt, hget, List.take_succ_cons, hcaptured r' hr']

/-- A search in the buffer that comes to what a search without one does. -/
def Realises (n : Nat) (attempt : Bytes → Capturing (Option Nat))
    (search : Bytes → Option (Nat × Bytes)) : Prop :=
  ∀ (data : Bytes) (c : Capture), c.count + n ≤ c.buffer.length →
    ∃ c', attempt data c = .ok ((search data).map Prod.fst) c' ∧ Writes c n (search data) c'

theorem counted_ok {act : Capturing (Option Nat)} (f : Bytes → Bytes)
    (h : act c = .ok (found.map Prod.fst) c') :
    (do return (← act).map (· + 1) : Capturing (Option Nat)) c =
      .ok ((found.map fun r => (r.1 + 1, f r.2)).map Prod.fst) c' := by
  refine Action.bind_eq_ok.mpr ⟨_, _, h, Action.pure_eq_ok.mpr ⟨?_, rfl⟩⟩
  rw [Option.map_map, Option.map_map]
  rfl

theorem skipInto_realises {attempt : Bytes → Capturing (Option Nat)}
    {search : Bytes → Option (Nat × Bytes)} (h : Realises n attempt search) (data : Bytes)
    (c : Capture) (hroom : count + n ≤ c.buffer.length) :
    ∃ c', skipInto attempt count data c = .ok ((firstSuffix search data).map Prod.fst) c' ∧
      Writes ⟨c.buffer, count⟩ n (firstSuffix search data) c' := by
  induction data generalizing c with
  | nil =>
    obtain ⟨c', hrun, hwrites⟩ := h [] ⟨c.buffer, count⟩ hroom
    exact ⟨c', Action.bind_eq_ok.mpr ⟨(), _, Action.modify_eq_ok.mpr rfl, hrun⟩, hwrites⟩
  | cons b rest ih =>
    obtain ⟨c₁, hrun, hwrites⟩ := h (b :: rest) ⟨c.buffer, count⟩ hroom
    unfold skipInto firstSuffix
    cases hfound : search (b :: rest) with
    | some r =>
      rw [hfound] at hrun hwrites
      refine ⟨c₁, ?_, hwrites⟩
      refine Action.bind_eq_ok.mpr ⟨(), _, Action.modify_eq_ok.mpr rfl, ?_⟩
      exact Action.bind_eq_ok.mpr ⟨_, _, hrun, rfl⟩
    | none =>
      rw [hfound] at hrun hwrites
      obtain ⟨c₂, hrest, hwrites'⟩ := ih c₁ (by rwa [hwrites.length])
      refine ⟨c₂, ?_, (hwrites.trans hwrites').covering⟩
      refine Action.bind_eq_ok.mpr ⟨(), _, Action.modify_eq_ok.mpr rfl, ?_⟩
      exact Action.bind_eq_ok.mpr ⟨_, _, hrun, counted_ok id hrest⟩

/-- The search in the buffer finds the same bytes to cover and leaves the bytes captured behind
those that were there. -/
theorem matchInto_realises (items : List Item) :
    Realises (addressCount items) (matchInto items) (matchItems items) := by
  induction items with
  | nil => exact fun data c _ => ⟨c, rfl, Writes.nothing c⟩
  | cons item items ih =>
    intro data c hroom
    cases item with
    | gap =>
      have hcount : addressCount (.gap :: items) = addressCount items := by simp [addressCount]
      rw [hcount] at hroom ⊢
      obtain ⟨c', hrun, hwrites⟩ := skipInto_realises ih data c hroom
      exact ⟨c', Action.bind_eq_ok.mpr ⟨c, c, rfl, hrun⟩, hwrites⟩
    | literal value =>
      have hcount : addressCount (.literal value :: items) = addressCount items := by
        simp [addressCount]
      rw [hcount] at hroom ⊢
      cases data with
      | nil => exact ⟨c, rfl, Writes.unmatched c _⟩
      | cons b rest =>
        unfold matchInto matchItems
        by_cases hb : b = value
        · rw [if_pos hb, if_pos hb]
          obtain ⟨c', hrun, hwrites⟩ := ih rest c hroom
          exact ⟨c', counted_ok id hrun, hwrites.covering⟩
        · rw [if_neg hb, if_neg hb]
          exact ⟨c, rfl, Writes.unmatched c _⟩
    | any =>
      have hcount : addressCount (.any :: items) = addressCount items := by simp [addressCount]
      rw [hcount] at hroom ⊢
      cases data with
      | nil => exact ⟨c, rfl, Writes.unmatched c _⟩
      | cons b rest =>
        obtain ⟨c', hrun, hwrites⟩ := ih rest c hroom
        exact ⟨c', counted_ok id hrun, hwrites.covering⟩
    | address =>
      have hcount : addressCount (.address :: items) = addressCount items + 1 := by
        simp [addressCount]
      rw [hcount] at hroom ⊢
      cases data with
      | nil => exact ⟨c, rfl, Writes.unmatched c _⟩
      | cons b rest =>
        have hlt : c.count < c.buffer.length := by omega
        have hpush : capture b c = .ok () ⟨c.buffer.set c.count b, c.count + 1⟩ := if_pos hlt
        obtain ⟨c', hrun, hwrites⟩ := ih rest ⟨c.buffer.set c.count b, c.count + 1⟩
          (by rw [List.length_set]; dsimp only; omega)
        refine ⟨c', ?_, hwrites.capturing hlt⟩
        exact Action.bind_eq_ok.mpr ⟨_, _, hpush, counted_ok (b :: ·) hrun⟩

namespace Pattern
variable {p : Pattern}

theorem attemptAt_eq (p : Pattern) (data : Bytes) : p.attemptAt data =
    .ok (if data.length < p.minLength then none
      else (matchItems p.items data).map fun r => ⟨r.1, UInt64.ofNat (leNat r.2)⟩) := by
  unfold attemptAt
  by_cases hshort : data.length < p.minLength
  · rw [if_pos hshort, if_pos hshort]
  · rw [if_neg hshort, if_neg hshort]
    obtain ⟨c, hrun, hwrites⟩ := matchInto_realises p.items data ⟨List.replicate 8 0, 0⟩
      (by simpa using p.addressCount_le)
    rw [hrun]
    cases hfound : matchItems p.items data with
    | none => rfl
    | some r =>
      have hback := hwrites.back
      have hcaptured := hwrites.captured r hfound
      dsimp only at hback hcaptured
      rw [Nat.zero_add, List.drop_replicate] at hback
      have hbuffer : c.buffer =
          r.2 ++ List.replicate (8 - Interpose.addressCount p.items) 0 := by
        rw [← hcaptured, ← hback, List.drop_zero, List.take_append_drop]
      simp [hbuffer, leNat_append_zeros]

theorem matchAt?_eq (p : Pattern) (data : Bytes) : p.matchAt? data =
    if data.length < p.minLength then none
    else (matchItems p.items data).map fun r => ⟨r.1, UInt64.ofNat (leNat r.2)⟩ := by
  unfold matchAt?
  rw [attemptAt_eq]

end Pattern

end Interpose

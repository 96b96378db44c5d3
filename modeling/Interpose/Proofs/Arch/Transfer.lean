import Interpose.Proofs.Arch.Encoding
import Interpose.Proofs.Word

/-!
# Where a redirect leads

What the two jumps of a 64-bit redirect do to the instruction pointer, and that the bytes written
for a redirect lead from its source to its target. A stub inside the window asked for is always
within reach of a near jump, also where the window is cut off at an end of the address space.
-/

namespace Interpose

namespace X86

abbrev Memory := Address → Option UInt8

variable {m : Memory} {a b : Address} {gap : Int}

def readAt (m : Memory) (a : Address) : Nat → Option Bytes
  | 0 => some []
  | n + 1 => do
    let byte ← m a
    let rest ← readAt m (a + 1) n
    some (byte :: rest)

def Holds (m : Memory) (a : Address) (code : Bytes) : Prop := readAt m a code.length = some code

/-- Where a near jump (`E9` and a displacement) or a jump through a word in front of or behind it
(`FF 25` and the displacement of the word) at an address leads. Displacements are measured from the
end of the instruction. -/
def jumpTarget? (m : Memory) (a : Address) : Option Address :=
  if m a = some 0xE9 then do
    let displacement ← readAt m (a + 1) 4
    some ((a + 5).shift (signed32 (leNat displacement)))
  else if m a = some 0xFF ∧ m (a + 1) = some 0x25 then do
    let displacement ← readAt m (a + 2) 4
    let word ← readAt m ((a + 6).shift (signed32 (leNat displacement))) 8
    some (UInt64.ofNat (leNat word))
  else none

theorem holds_cons {byte : UInt8} {code : Bytes} :
    Holds m a (byte :: code) ↔ m a = some byte ∧ Holds m (a + 1) code := by
  unfold Holds
  simp only [List.length_cons, readAt]
  cases hm : m a with
  | none => simp
  | some x =>
    cases hr : readAt m (a + 1) code.length with
    | none => simp
    | some rest => simp

theorem Holds.append {front back : Bytes} (h : Holds m a (front ++ back)) :
    Holds m a front ∧ Holds m (a + UInt64.ofNat front.length) back := by
  induction front generalizing a with
  | nil => exact ⟨rfl, by simpa using h⟩
  | cons byte front ih =>
    obtain ⟨hbyte, hrest⟩ := holds_cons.mp h
    obtain ⟨hfront, hback⟩ := ih hrest
    refine ⟨holds_cons.mpr ⟨hbyte, hfront⟩, ?_⟩
    have hlen : a + UInt64.ofNat (byte :: front).length = a + 1 + UInt64.ofNat front.length := by
      rw [List.length_cons, UInt64.ofNat_add, UInt64.add_assoc,
        UInt64.add_comm (UInt64.ofNat front.length)]
      rfl
    rwa [hlen]

theorem readAt_leBytes {n v : Nat} (h : Holds m a (leBytes n v)) :
    readAt m a n = some (leBytes n v) := by
  unfold Holds at h
  rwa [length_leBytes] at h

theorem jumpTarget?_rel32 (hgap : fits32 gap = true) (h : Holds m a (Redirect.rel32Bytes gap)) :
    jumpTarget? m a = some ((a + 5).shift gap) := by
  obtain ⟨hop, hrest⟩ := holds_cons.mp h
  unfold jumpTarget?
  rw [if_pos hop, readAt_leBytes hrest]
  simp only [Option.bind_eq_bind, Option.bind_some, signed32_ofInt hgap]

theorem jumpTarget?_abs64 (h : Holds m a (Redirect.abs64Bytes b)) : jumpTarget? m a = some b := by
  obtain ⟨hop, hrest⟩ := holds_cons.mp h
  obtain ⟨hmode, -⟩ := holds_cons.mp hrest
  obtain ⟨hcode, hword⟩ := Holds.append h
  have hsplit : Holds m a ([0xFF, 0x25] ++ [0, 0, 0, 0]) := hcode
  have hzero : Holds m (a + 2) [0, 0, 0, 0] := hsplit.append.2
  have hslot : (a + 6).shift (signed32 (leNat [0, 0, 0, 0])) = a + 6 := by
    rw [show signed32 (leNat [0, 0, 0, 0]) = 0 by decide]
    simp only [Address.shift, show UInt64.ofInt 0 = 0 from rfl, UInt64.add_zero]
  have hread : readAt m (a + 6) 8 = some (leBytes 8 b.toNat) := readAt_leBytes hword
  have hne : ¬ m a = some 0xE9 := by rw [hop]; decide
  unfold jumpTarget?
  rw [if_neg hne, if_pos ⟨hop, hmode⟩, show readAt m (a + 2) 4 = _ from hzero]
  simp only [Option.bind_eq_bind, Option.bind_some, hslot, hread, ofNat_leNat_leBytes]

end X86

namespace Isa
open Redirect X86

variable {σ : Type} {sys : System σ} {source target : Address} {limit : Option Nat}
  {r : Redirect} {e : Failure} {s s' : σ}

theorem fits32_of_accepts {range : Range} (h : (stubRequest sys source).accepts range = .ok true) :
    fits32 (rel32Gap source range.base) = true := by
  obtain ⟨-, hlow, -, hhigh⟩ := Request.accepts_eq_true.mp h
  simp only [stubRequest, Request.near] at hlow hhigh
  have hbase := range.base.toNat_lt
  have hsource := source.toNat_lt
  have hlow' : source.toNat ≤ range.base.toNat + nearReach.toNat := by
    unfold Address.minusSaturating at hlow
    split at hlow
    · rename_i hle
      rw [UInt64.le_iff_toNat_le, UInt64.toNat_sub_of_le _ _ hle] at hlow
      omega
    · rename_i hle
      rw [UInt64.le_iff_toNat_le] at hle
      omega
  have hhigh' : range.base.toNat ≤ source.toNat + nearReach.toNat := by
    unfold Address.plusSaturating at hhigh
    split at hhigh
    · rw [UInt64.toNat_add] at hhigh
      omega
    · rename_i hle
      unfold wordLimit at hle
      omega
  have hreach : nearReach.toNat = 0x7FF00000 := rfl
  unfold fits32 rel32Gap distance signed64 wordLimit
  rw [UInt64.toNat_sub, UInt64.toNat_add, Int.bmod_def, show (5 : UInt64).toNat = 5 from rfl]
  simp only [Bool.and_eq_true, decide_eq_true_eq]
  split <;> omega

theorem plan_eq_error : x86_64.plan source target limit = .error e ↔
    ∃ m, limit = some m ∧ m < 5 ∧ e = .refused (.noEncoding source target m) := by
  rw [← checkLimit_eq_error]
  constructor
  · intro h
    rcases Attempt.bind_eq_error.mp h with hlimit | ⟨u, -, hrest⟩
    · exact hlimit
    · split at hrest
      · cases hrest
      · split at hrest <;> cases hrest
  · intro h
    exact Attempt.bind_eq_error.mpr (Or.inl h)

/-- A planned redirect that needs no stub has bytes, and these lead to the target. -/
theorem directBytes_leads (h : x86_64.plan source target limit = .ok r)
    (hvia : ¬ ViaStub x86_64 r) : ∃ code, x86_64.directBytes r = .ok code ∧
      ∀ m, Holds m source code → jumpTarget? m source = some target := by
  obtain ⟨_, -, h⟩ := Attempt.bind_eq_ok.mp h
  split at h
  · rename_i hfits
    cases h
    have hcode : x86_64.directBytes ⟨source, target, 5, .rel32⟩ =
        if fits32 (rel32Gap source target) then .ok (rel32Bytes (rel32Gap source target))
        else .refuse (.noEncoding source target 5) := rfl
    refine ⟨rel32Bytes (rel32Gap source target), hcode.trans (if_pos hfits), fun m hm => ?_⟩
    rw [jumpTarget?_rel32 hfits hm]
    exact congrArg some (shift_distance _ _)
  · split at h
    · cases h
      exact ⟨abs64Bytes target, rfl, fun m hm => jumpTarget?_abs64 hm⟩
    · cases h
      exact absurd ⟨rfl, rfl⟩ hvia

/-- How code written at a source leads to a target: by itself, or over a stub that was allocated
and filled for it. -/
inductive Leads (sys : System σ) (r : Redirect) (code : Bytes) (s : σ) : Option Range → σ → Prop
  | direct (hkind : r.kind ≠ .rel32ViaStub)
      (hjump : ∀ m, Holds m r.source code → jumpTarget? m r.source = some r.target) :
      Leads sys r code s none s
  | viaStub {stub : Range} {filling saved : Bytes} {t s' : σ} (hkind : r.kind = .rel32ViaStub)
      (halloc : sys.allocate (stubRequest sys r.source) s = .ok stub t)
      (hpatch : sys.patch stub.base filling none t = .ok saved s') (hlength : filling.length = 14)
      (hnear : ∀ m, Holds m r.source code → jumpTarget? m r.source = some stub.base)
      (hfar : ∀ m, Holds m stub.base filling → jumpTarget? m stub.base = some r.target) :
      Leads sys r code s (some stub) s'

def StubRefused (sys : System σ) (r : Redirect) (s : σ) (e : Failure) (s' : σ) : Prop :=
  sys.allocate (stubRequest sys r.source) s = .error e s' ∨
    ∃ stub t u, sys.allocate (stubRequest sys r.source) s = .ok stub t ∧
      sys.patch stub.base (abs64Bytes r.target) none t = .error e u ∧ s' = sys.release stub u

/-- Allocations are ranges that their requests accept. -/
def Accepting (sys : System σ) : Prop :=
  ∀ q s range s', sys.allocate q s = .ok range s' → q.accepts range = .ok true

theorem accepting_space {limits : SpaceLimits} : Accepting (Space.system limits) :=
  fun _ _ _ _ => Space.allocate_accepted

theorem encodeInto_leads {buffer after : Bytes} {count : Nat} {stub : Option Range}
    (hplan : x86_64.plan source target limit = .ok r)
    (h : x86_64.encodeInto sys r buffer s = .ok (count, after, stub) s') :
    count = r.size ∧ after.drop r.size = buffer.drop r.size ∧
      Leads sys r (after.take r.size) s stub s' := by
  obtain ⟨code, hcode, rfl, rfl⟩ := encodeInto_ok h
  obtain ⟨-, -, hbytes⟩ := encode_ok hcode
  obtain ⟨rfl, rfl, hsize, -⟩ := plan_ok hplan
  have hlen : code.length = r.size := by
    have := encodeBytes_length hbytes
    rw [hsize, Option.some.injEq] at this
    exact this.symm
  rw [← hlen, List.take_left, List.drop_left]
  refine ⟨rfl, rfl, ?_⟩
  rcases encodeBytes_ok hbytes with ⟨hvia, hdirect, rfl, rfl⟩ | ⟨⟨-, hkind⟩, hvia⟩
  · obtain ⟨code', hdirect', hjump⟩ := directBytes_leads hplan hvia
    rw [hdirect] at hdirect'
    cases hdirect'
    exact .direct (fun hkind => hvia ⟨rfl, hkind⟩) hjump
  · obtain ⟨range, t, saved, halloc, hpatch, hfits, rfl, rfl⟩ := encodeViaStub_ok hvia
    refine .viaStub hkind halloc hpatch (length_abs64Bytes _) (fun m hm => ?_)
      fun m hm => jumpTarget?_abs64 hm
    rw [jumpTarget?_rel32 hfits hm]
    exact congrArg some (shift_distance _ _)

theorem encodeInto_refused {buffer : Bytes} (hplan : x86_64.plan source target limit = .ok r)
    (hroom : r.size ≤ buffer.length) (h : x86_64.encodeInto sys r buffer s = .error e s') :
    r.kind = .rel32ViaStub ∧ (Accepting sys → StubRefused sys r s e s') := by
  obtain ⟨-, -, hsize, -⟩ := plan_ok hplan
  rcases encode_error (encodeInto_error.mp h) with ⟨hlt, -⟩ | hbytes | ⟨-, code, stub, hlt, hbytes⟩
  · omega
  · rcases encodeBytes_error hbytes with ⟨hdirect, hvia, -⟩ | ⟨⟨-, hkind⟩, hvia⟩
    · obtain ⟨code, hok, -⟩ := directBytes_leads hplan hvia
      rw [hok] at hdirect
      cases hdirect
    · refine ⟨hkind, fun hsys => ?_⟩
      rcases encodeViaStub_error hvia with halloc | ⟨range, t, halloc, u, rfl, hrest⟩
      · exact Or.inl halloc
      · rcases hrest with hpatch | ⟨hfar, -⟩
        · exact Or.inr ⟨range, t, u, halloc, hpatch, rfl⟩
        · rw [fits32_of_accepts (hsys _ _ _ _ halloc)] at hfar
          cases hfar
  · have := encodeBytes_length hbytes
    rw [hsize, Option.some.injEq] at this
    omega

/-- Redirects of the 64-bit instruction set. One can be planned unless the limit is below five
bytes; a buffer that holds the planned size is written up to that size only, with code that leads
from the source to the target. Encoding fails only where a stub is needed and the system refuses
it: a stub that the request accepts is never out of reach. -/
theorem redirect_correct (sys : System σ) (source target : Address) (limit : Option Nat) :
    (∀ e, x86_64.plan source target limit = .error e ↔
      ∃ m, limit = some m ∧ m < 5 ∧ e = .refused (.noEncoding source target m)) ∧
    ∀ r, x86_64.plan source target limit = .ok r →
      r.source = source ∧ r.target = target ∧ r.size ≤ maxRedirectSize ∧
      (∀ m, limit = some m → r.size ≤ m) ∧
      ∀ buffer s, r.size ≤ buffer.length →
        (∀ count after stub s', x86_64.encodeInto sys r buffer s = .ok (count, after, stub) s' →
          count = r.size ∧ after.drop r.size = buffer.drop r.size ∧
            Leads sys r (after.take r.size) s stub s') ∧
        ∀ e s', x86_64.encodeInto sys r buffer s = .error e s' →
          r.kind = .rel32ViaStub ∧ (Accepting sys → StubRefused sys r s e s') := by
  refine ⟨fun e => plan_eq_error, fun r hplan => ?_⟩
  obtain ⟨hsource, htarget, hsize, hlimit⟩ := plan_ok hplan
  refine ⟨hsource, htarget, (sizeOf?_bounds hsize).2, hlimit, fun buffer s hroom => ⟨?_, ?_⟩⟩
  · exact fun count after stub s' h => encodeInto_leads hplan h
  · exact fun e s' h => encodeInto_refused hplan hroom h

/-- A far target within eight bytes: the stub of an empty space leads there, and a space that
allows no allocation refuses it. -/
theorem redirect_correct_far :
    let r : Redirect := ⟨0x1000, 0x7FFF00000000, 5, .rel32ViaStub⟩
    let buffer : Bytes := List.replicate 16 0xEE
    x86_64.plan 0x1000 0x7FFF00000000 (some 8) = .ok r ∧
      (∃ (after : Bytes) (stub : Range) (s' : Space), after.drop 5 = buffer.drop 5 ∧
        Leads (Space.system {}) r (after.take 5) {} (some stub) s') ∧
      ∃ e s', StubRefused (Space.system { allocationLimit := some 0 }) r {} e s' := by
  intro r buffer
  have hplan : x86_64.plan 0x1000 0x7FFF00000000 (some 8) = .ok r := by decide
  have hroom : r.size ≤ buffer.length := by decide
  refine ⟨hplan, ?_, ?_⟩
  · have hcorrect := (redirect_correct (Space.system {}) _ _ _).2 r hplan
    have hrun : (x86_64.encodeInto (Space.system {}) r buffer ({} : Space)) matches .ok .. := by
      decide +kernel
    cases h : x86_64.encodeInto (Space.system {}) r buffer ({} : Space) with
    | error =>
      rw [h] at hrun
      cases hrun
    | ok result s' =>
      obtain ⟨count, after, stub⟩ := result
      obtain ⟨-, hdrop, hleads⟩ := (hcorrect.2.2.2.2 buffer {} hroom).1 _ _ _ _ h
      cases hleads with
      | direct hkind => exact absurd rfl hkind
      | viaStub hkind halloc hpatch hlength hnear hfar =>
        exact ⟨_, _, s', hdrop, .viaStub hkind halloc hpatch hlength hnear hfar⟩
  · have hcorrect := (redirect_correct (Space.system { allocationLimit := some 0 }) _ _ _).2 r hplan
    have hrun : (x86_64.encodeInto (Space.system { allocationLimit := some 0 }) r buffer
        ({} : Space)) matches .error .. := by decide +kernel
    cases h : x86_64.encodeInto (Space.system { allocationLimit := some 0 }) r buffer
        ({} : Space) with
    | ok =>
      rw [h] at hrun
      cases hrun
    | error e s' =>
      exact ⟨e, s', ((hcorrect.2.2.2.2 buffer {} hroom).2 e s' h).2 accepting_space⟩

end Isa

end Interpose

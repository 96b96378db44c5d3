import Interpose.Proofs.Arch.Transfer

/-!
# Redirects without a stub

What the branches of the fixed-width instruction set do, and where the near jump of a 32-bit
processor leads. On these instruction sets a redirect that can be planned is always encoded, whatever
the buffer held and without touching memory, and its bytes lead from the source to the target.
-/

namespace Interpose

namespace A64
open X86 (Memory readAt Holds readAt_leBytes)

structure Cpu where
  pc : Address
  x : Nat → Address

namespace Cpu

/-- Register 31 reads as zero. -/
def get (c : Cpu) (reg : Nat) : Address := if reg = 31 then 0 else c.x reg

def set (c : Cpu) (reg : Nat) (value : Address) : Cpu :=
  { c with x := fun i => if i = reg then value else c.x i }

end Cpu

inductive Op where
  | branch (gap : Int)
  | loadLiteral (reg : Nat) (gap : Int)
  | branchTo (reg : Nat)
  deriving DecidableEq, Repr

/-- `b`, the 64-bit `ldr` of a literal, and `br`. Displacements are signed fields of 26 and of 19
bits that count words. -/
def Op.decode? (word : Nat) : Option Op :=
  if word / 67108864 = 5 then some (.branch (4 * Int.bmod word 67108864))
  else if word / 16777216 = 0x58 then
    some (.loadLiteral (word % 32) (4 * Int.bmod ↑(word / 32) 524288))
  else if word / 1024 = 0x3587C0 ∧ word % 32 = 0 then some (.branchTo (word / 32 % 32))
  else none

def Cpu.step? (m : Memory) (c : Cpu) : Option Cpu := do
  let word ← readAt m c.pc 4
  match ← Op.decode? (leNat word) with
  | .branch gap => some { c with pc := c.pc.shift gap }
  | .loadLiteral reg gap => do
    let literal ← readAt m (c.pc.shift gap) 8
    some { c.set reg (UInt64.ofNat (leNat literal)) with pc := c.pc + 4 }
  | .branchTo reg => some { c with pc := c.get reg }

variable {m : Memory} {c : Cpu} {gap : Int} {target : Address}

theorem decode?_branch (hmod : gap % 4 = 0) (hlow : -134217728 ≤ gap) (hhigh : gap < 134217728) :
    Op.decode? (leNat (Redirect.branchBytes gap)) = some (.branch gap) := by
  have hword : leNat (Redirect.branchBytes gap) = 0x14000000 + ((gap / 4) % 67108864).toNat := by
    unfold Redirect.branchBytes
    rw [leNat_leBytes]
    omega
  have hop : leNat (Redirect.branchBytes gap) / 67108864 = 5 := by
    rw [hword]
    omega
  have hgap : 4 * Int.bmod (leNat (Redirect.branchBytes gap)) 67108864 = gap := by
    rw [hword, Int.bmod_def]
    split <;> omega
  unfold Op.decode?
  rw [if_pos hop, hgap]

theorem step?_branch (hmod : gap % 4 = 0) (hlow : -134217728 ≤ gap) (hhigh : gap < 134217728)
    (h : Holds m c.pc (Redirect.branchBytes gap)) :
    c.step? m = some { c with pc := c.pc.shift gap } := by
  unfold Cpu.step?
  rw [readAt_leBytes h]
  simp only [Option.bind_eq_bind, Option.bind_some]
  rw [← Redirect.branchBytes, decode?_branch hmod hlow hhigh]
  rfl

theorem step?_loadLiteral (hcode : Holds m c.pc (leBytes 4 0x58000051))
    (hword : Holds m (c.pc + 8) (leBytes 8 target.toNat)) :
    c.step? m = some { c.set 17 target with pc := c.pc + 4 } := by
  have hop : Op.decode? (leNat (leBytes 4 0x58000051)) = some (.loadLiteral 17 8) := by decide
  have hslot : c.pc.shift 8 = c.pc + 8 := rfl
  unfold Cpu.step?
  rw [readAt_leBytes hcode]
  simp only [Option.bind_eq_bind, Option.bind_some, hop, hslot, readAt_leBytes hword,
    ofNat_leNat_leBytes]

theorem step?_branchTo (h : Holds m c.pc (leBytes 4 0xD61F0220)) :
    c.step? m = some { c with pc := c.get 17 } := by
  have hop : Op.decode? (leNat (leBytes 4 0xD61F0220)) = some (.branchTo 17) := by decide
  unfold Cpu.step?
  rw [readAt_leBytes h]
  simp only [Option.bind_eq_bind, Option.bind_some, hop]

theorem steps_literal (h : Holds m c.pc (Redirect.literalBytes target)) :
    (c.step? m >>= fun c => c.step? m) = some { c.set 17 target with pc := target } := by
  obtain ⟨hcode, hword⟩ := Holds.append h
  obtain ⟨hload, hbranch⟩ := Holds.append hcode
  rw [List.length_append, length_leBytes, length_leBytes] at hword
  rw [length_leBytes] at hbranch
  rw [step?_loadLiteral hload hword, Option.bind_eq_bind, Option.bind_some]
  apply step?_branchTo (c := { c.set 17 target with pc := c.pc + 4 })
  exact hbranch

end A64

namespace X86
variable {m : Memory} {a target : Address}

/-- Where a near jump leads a processor whose instruction pointer has 32 bits. -/
def nearTarget? (m : Memory) (a : Address) : Option UInt32 :=
  if m a = some 0xE9 then do
    let displacement ← readAt m (a + 1) 4
    some (a.toUInt32 + 5 + UInt32.ofNat (leNat displacement))
  else none

theorem nearTarget?_rel32
    (h : Holds m a (Redirect.rel32Bytes (Redirect.rel32Gap a target))) :
    nearTarget? m a = some target.toUInt32 := by
  obtain ⟨hop, hrest⟩ := holds_cons.mp h
  unfold nearTarget?
  rw [if_pos hop, readAt_leBytes hrest]
  simp only [Option.bind_eq_bind, Option.bind_some, Option.some.injEq]
  unfold Redirect.rel32Gap distance
  rw [ofInt_signed64, leNat_leBytes, ← UInt32.toNat_inj]
  simp only [UInt32.toNat_add, UInt64.toNat_toUInt32, UInt32.toNat_ofNat', UInt64.toNat_sub,
    UInt64.toNat_add]
  have ha := a.toNat_lt
  have ht := target.toNat_lt
  have h5 : (5 : UInt64).toNat = 5 := rfl
  have h5' : (5 : UInt32).toNat = 5 := rfl
  omega

end X86

namespace Isa
open Redirect X86

variable {σ : Type} {sys : System σ} {isa : Isa} {source target : Address} {limit : Option Nat}
  {r : Redirect} {code buffer : Bytes} {e : Failure} {s : σ} {m : Memory}

/-- The code at the source of a redirect leads to its target and does nothing else, but for the
scratch register of a branch through a literal. -/
def Transfers (isa : Isa) (r : Redirect) (m : Memory) : Prop :=
  match isa, r.kind with
  | aarch64, .branch26 =>
    ∀ c : A64.Cpu, c.pc = r.source → c.step? m = some { c with pc := r.target }
  | aarch64, .literalBranch => ∀ c : A64.Cpu, c.pc = r.source →
      (c.step? m >>= fun c => c.step? m) = some { c.set 17 r.target with pc := r.target }
  | x86, .rel32 => nearTarget? m r.source = some r.target.toUInt32
  | x86_64, .rel32 => jumpTarget? m r.source = some r.target
  | x86_64, .abs64Indirect => jumpTarget? m r.source = some r.target
  | _, _ => False

theorem branchGap?_eq_some {gap : Int} : branchGap? source target = some gap ↔
    distance source target = gap ∧ gap % 4 = 0 ∧ -134217728 ≤ gap ∧ gap < 134217728 := by
  unfold branchGap?
  simp only [Option.ite_none_right_eq_some, Option.some.injEq]
  constructor
  · rintro ⟨hgap, h⟩
    rw [h] at hgap
    exact ⟨h, hgap⟩
  · rintro ⟨h, hgap⟩
    rw [h]
    exact ⟨hgap, rfl⟩

theorem branchGap?_eq_none : branchGap? source target = none ↔
    ¬ (distance source target % 4 = 0 ∧
      -2 ^ 27 ≤ distance source target ∧ distance source target < 2 ^ 27) := by
  unfold branchGap?
  simp only [ite_eq_right_iff, reduceCtorEq, imp_false]
  rfl

/-- The bytes of a redirect that needs no stub are those of an instruction to its target. -/
theorem directBytes_transfers (h : isa.directBytes r = .ok code) (hm : Holds m r.source code) :
    isa.Transfers r m := by
  revert h
  fun_cases directBytes isa r with
  | case1 hkind gap hfits =>
    intro h
    cases h
    simp only [Transfers, hkind]
    rw [jumpTarget?_rel32 hfits hm]
    exact congrArg some (shift_distance _ _)
  | case2 =>
    intro h
    cases h
  | case3 hkind =>
    intro h
    cases h
    simp only [Transfers, hkind]
    exact jumpTarget?_abs64 hm
  | case4 hkind =>
    intro h
    cases h
    simp only [Transfers, hkind]
    exact nearTarget?_rel32 hm
  | case5 hkind gap hgap =>
    intro h
    cases h
    simp only [Transfers, hkind]
    obtain ⟨hdistance, hmod, hlow, hhigh⟩ := branchGap?_eq_some.mp hgap
    intro c hc
    have hstep := A64.step?_branch hmod hlow hhigh (hc ▸ hm)
    rwa [hc, ← hdistance, shift_distance] at hstep
  | case6 =>
    intro h
    cases h
  | case7 hkind =>
    intro h
    cases h
    simp only [Transfers, hkind]
    intro c hc
    exact A64.steps_literal (hc ▸ hm)
  | case8 =>
    intro h
    cases h

theorem plan_x86_eq_error : x86.plan source target limit = .error e ↔
    ∃ m, limit = some m ∧ m < 5 ∧ e = .refused (.noEncoding source target m) := by
  rw [← checkLimit_eq_error]
  constructor
  · intro h
    rcases Attempt.bind_eq_error.mp h with hlimit | ⟨u, -, hpure⟩
    · exact hlimit
    · cases hpure
  · intro h
    exact Attempt.bind_eq_error.mpr (Or.inl h)

theorem plan_aarch64_eq_error : aarch64.plan source target limit = .error e ↔
    ∃ m, limit = some m ∧ e = .refused (.noEncoding source target m) ∧
      (m < 4 ∨ m < 16 ∧ branchGap? source target = none) := by
  simp only [plan, Attempt.bind_eq_error, checkLimit_eq_error]
  constructor
  · rintro (⟨m, hm, hlt, he⟩ | ⟨u, -, hrest⟩)
    · exact ⟨m, hm, he, Or.inl hlt⟩
    · split at hrest
      · cases hrest
      · rename_i hgap
        rcases Attempt.bind_eq_error.mp hrest with hlimit | ⟨v, -, hpure⟩
        · obtain ⟨m, hm, hlt, he⟩ := checkLimit_eq_error.mp hlimit
          exact ⟨m, hm, he, Or.inr ⟨hlt, Option.not_isSome_iff_eq_none.mp hgap⟩⟩
        · cases hpure
  · rintro ⟨m, rfl, rfl, hsmall⟩
    by_cases hlt : m < 4
    · exact Or.inl ⟨m, rfl, hlt, rfl⟩
    · obtain ⟨hfew, hgap⟩ := hsmall.resolve_left hlt
      refine Or.inr ⟨(), checkLimit_eq_ok.mpr ?_, ?_⟩
      · rintro m' hm'
        cases hm'
        omega
      · rw [hgap]
        exact Attempt.bind_eq_error.mpr (Or.inl (checkLimit_eq_error.mpr ⟨m, rfl, hfew, rfl⟩))

theorem directBytes_branch26 {gap : Int} (hisa : isa = aarch64) (hkind : r.kind = .branch26)
    (hgap : branchGap? r.source r.target = some gap) :
    isa.directBytes r = .ok (branchBytes gap) := by
  fun_cases directBytes isa r with
  | case5 hkind' gap' hgap' =>
    rw [hgap] at hgap'
    cases hgap'
    rfl
  | case8 _ _ _ _ hbranch => exact (hbranch hisa hkind).elim
  | _ => simp_all

theorem directBytes_planned (hisa : isa ≠ x86_64) (h : isa.plan source target limit = .ok r) :
    ∃ code, isa.directBytes r = .ok code := by
  cases isa with
  | x86_64 => exact absurd rfl hisa
  | x86 =>
    obtain ⟨u, -, h⟩ := Attempt.bind_eq_ok.mp h
    cases h
    exact ⟨_, rfl⟩
  | aarch64 =>
    obtain ⟨u, -, h⟩ := Attempt.bind_eq_ok.mp h
    split at h
    · rename_i hgap
      obtain ⟨gap, hgap⟩ := Option.isSome_iff_exists.mp hgap
      cases h
      exact ⟨_, directBytes_branch26 rfl rfl hgap⟩
    · obtain ⟨v, -, h⟩ := Attempt.bind_eq_ok.mp h
      cases h
      exact ⟨_, rfl⟩

theorem encodeInto_direct (hvia : ¬ ViaStub isa r) (h : isa.directBytes r = .ok code)
    (hlength : code.length = r.size) (hroom : r.size ≤ buffer.length) :
    isa.encodeInto sys r buffer s = .ok (r.size, code ++ buffer.drop r.size, none) s := by
  have hbytes : isa.encodeBytes sys r s = .ok (code, none) s := by
    unfold encodeBytes ViaStub at *
    rw [if_neg hvia, h]
    rfl
  have hencode : isa.encode sys r buffer.length s = .ok (code, none) s := by
    unfold encode
    rw [if_neg (by omega)]
    apply Action.bind_eq_ok.mpr
    exact ⟨_, _, hbytes, by simp only [if_neg (show ¬ buffer.length < code.length by omega)]; rfl⟩
  unfold encodeInto
  apply Action.bind_eq_ok.mpr
  exact ⟨_, _, hencode, by rw [← hlength]; rfl⟩

/-- Redirects of the 32-bit and of the fixed-width instruction set. One can be planned unless the
limit is below its shortest encoding that reaches: five bytes, or four within the reach of a branch
and sixteen beyond. It is then encoded into every buffer that holds the planned size, up to that
size only, without a stub and without touching memory, by code that leads to the target. -/
theorem direct_redirect_correct (sys : System σ) (source target : Address) (limit : Option Nat) :
    (∀ e, aarch64.plan source target limit = .error e ↔
      ∃ m, limit = some m ∧ e = .refused (.noEncoding source target m) ∧
        (m < 4 ∨ m < 16 ∧ ¬ (distance source target % 4 = 0 ∧
          -2 ^ 27 ≤ distance source target ∧ distance source target < 2 ^ 27))) ∧
    (∀ e, x86.plan source target limit = .error e ↔
      ∃ m, limit = some m ∧ m < 5 ∧ e = .refused (.noEncoding source target m)) ∧
    ∀ isa, isa ≠ x86_64 → ∀ r, isa.plan source target limit = .ok r →
      r.source = source ∧ r.target = target ∧ r.size ≤ maxRedirectSize ∧
      (∀ m, limit = some m → r.size ≤ m) ∧
      ∀ buffer s, r.size ≤ buffer.length → ∃ code, code.length = r.size ∧
        isa.encodeInto sys r buffer s = .ok (r.size, code ++ buffer.drop r.size, none) s ∧
        ∀ m, Holds m source code → isa.Transfers r m := by
  refine ⟨fun e => ?_, fun e => ?_, fun isa hisa r hplan => ?_⟩
  · rw [plan_aarch64_eq_error, branchGap?_eq_none]
  · rw [plan_x86_eq_error]
  · obtain ⟨hsource, htarget, hsize, hlimit⟩ := plan_ok hplan
    obtain ⟨code, hcode⟩ := directBytes_planned hisa hplan
    have hlength : code.length = r.size := by
      have := directBytes_length hcode
      rw [hsize, Option.some.injEq] at this
      exact this.symm
    refine ⟨hsource, htarget, (sizeOf?_bounds hsize).2, hlimit, fun buffer s hroom => ?_⟩
    refine ⟨code, hlength, ?_, fun m hm => ?_⟩
    · exact encodeInto_direct (fun hvia => hisa hvia.1) hcode hlength hroom
    · rw [← hsource] at hm
      exact directBytes_transfers hcode hm

/-- At the edges of a branch: backwards over the end of the address space, and one word too far. -/
theorem direct_redirect_correct_edges :
    let r : Redirect := ⟨0x10, 0xFFFFFFFFFFFFFFF0, 4, .branch26⟩
    let buffer : Bytes := List.replicate 16 0xEE
    aarch64.plan 0x10 0xFFFFFFFFFFFFFFF0 (some 15) = .ok r ∧
      (∃ code, code.length = 4 ∧ aarch64.encodeInto (Space.system {}) r buffer ({} : Space) =
          .ok (4, code ++ buffer.drop 4, none) {} ∧
        ∀ m, Holds m 0x10 code → aarch64.Transfers r m) ∧
      aarch64.plan 0x1000 0x8001000 (some 15) =
        .error (.refused (.noEncoding 0x1000 0x8001000 15)) := by
  intro r buffer
  have hplan : aarch64.plan 0x10 0xFFFFFFFFFFFFFFF0 (some 15) = .ok r := by decide
  refine ⟨hplan, ?_, ?_⟩
  · obtain ⟨-, -, hcorrect⟩ := direct_redirect_correct (Space.system {}) 0x10 0xFFFFFFFFFFFFFFF0
      (some 15)
    obtain ⟨-, -, -, -, hencodes⟩ := hcorrect aarch64 nofun r hplan
    exact hencodes buffer {} (by decide)
  · apply ((direct_redirect_correct (Space.system {}) 0x1000 0x8001000 (some 15)).1 _).mpr
    exact ⟨15, rfl, rfl, Or.inr ⟨by decide, by decide⟩⟩

end Isa

end Interpose

import Interpose.Engine.Walk
import Interpose.Proofs.Engine.Detour
import Interpose.Proofs.Memory.Reading
import Interpose.Proofs.Pattern.Front

/-!
# Detours are recognised

A redirect written over code is a thunk to whoever walks that code. The thunks of its instruction
set find it in any window that holds it, whatever follows, and lead to its target, or to its stub
and from there to its target.
-/

namespace Interpose

open Space

namespace Isa
open Redirect
variable {limits : SpaceLimits} {m : Space} {a b : Address} {k n : Nat} {word : Bytes}

section
variable {σ : Type} (isa : Isa) (sys : System σ) (m : σ)

/-- Where the thunk in a window of code leads, if one is found. -/
def thunkTarget? (a : Address) (window : Bytes) : Attempt (Option Address) :=
  match isa.thunks.find? window with
  | none => .ok none
  | some found =>
    (found.pattern.meaning.target (sys.readPointer m) a found.offset found.hit.address).map some

structure Recognises (a : Address) (least : Nat) (b : Address) : Prop where
  readable : ∃ window, sys.read a least m = .ok window
  leads : ∀ n window, least ≤ n → sys.read a n m = .ok window →
    isa.thunkTarget? sys m a window = .ok (some b)

end

theorem Recognises.mono {isa : Isa} {σ : Type} {sys : System σ} {m : σ}
    (h : isa.Recognises sys m a k b) (hk : k ≤ n) (hn : ∃ window, sys.read a n m = .ok window) :
    isa.Recognises sys m a n b :=
  ⟨hn, fun n' window hn' => h.leads n' window (Nat.le_trans hk hn')⟩

section
variable {σ ρ : Type} {p : Platform σ ρ} {m : σ} {window : Bytes}

theorem thunkAt_next (hn : p.system.readable a p.window m = .ok n) (hz : n ≠ 0)
    (hread : p.system.read a (min n p.window) m = .ok window) :
    (p.thunkAt a m).map (Option.map Thunk.Link.next) = p.isa.thunkTarget? p.system m a window := by
  simp only [Platform.thunkAt, hn, hread, bind, Except.bind, if_neg hz]
  unfold thunkTarget?
  cases p.isa.thunks.find? window with
  | none => rfl
  | some found =>
    dsimp only
    cases found.pattern.meaning.target (p.system.readPointer m) a found.offset
        found.hit.address with
    | error => rfl
    | ok next => rfl

theorem Recognises.walked (h : p.isa.Recognises p.system m a k b)
    (hn : p.system.readable a p.window m = .ok n) (hz : n ≠ 0) (hk : k ≤ min n p.window)
    (hread : p.system.read a (min n p.window) m = .ok window) :
    (p.thunkAt a m).map (Option.map Thunk.Link.next) = .ok (some b) := by
  rw [thunkAt_next hn hz hread]
  exact h.leads _ _ hk hread

end

theorem front_near : Front Thunk.x86_64 0xE9 [] 4 (Thunk.relative 5 false false) := by decide

theorem front_far : Front Thunk.x86_64 0xFF [0x25] 4 (Thunk.relative 6 true false) := by decide

theorem front_near32 : Front Thunk.x86 0xE9 [] 4 (Thunk.relative 5 false false) := by decide

theorem front_literal : Front Thunk.aarch64 0x51 [0x00, 0x00, 0x58, 0x20, 0x02, 0x1F, 0xD6] 8
    ⟨⟨.abs64, false, false⟩, 0⟩ := by decide

/-- Code that a thunk begins with is recognised by what the thunk has captured. -/
theorem recognises_front {isa : Isa} {ps : List Pattern} {v : UInt8} {bytes : Bytes}
    {meaning : AddressMeaning} (hisa : isa.thunks = .ofList ps)
    (hfront : Front ps v bytes k meaning) (hword : word.length = k)
    (hread : m.read a n = .ok (v :: bytes ++ word))
    (htarget : meaning.target ((Space.system limits).readPointer m) a 0
      (UInt64.ofNat (leNat word)) = .ok b) : isa.Recognises (Space.system limits) m a n b := by
  refine ⟨⟨_, hread⟩, fun n' window hn' hwindow => ?_⟩
  obtain ⟨rest, rfl⟩ := read_prefix hread hwindow hn'
  rw [List.append_assoc]
  obtain ⟨found, hfind, hoffset, hmeaning, haddress⟩ := Collection.find?_front hfront hword rest
  unfold thunkTarget?
  rw [hisa, hfind]
  simp only [hoffset, hmeaning, haddress, htarget]
  rfl

theorem target_near (read : Address → Attempt Address) (gap : Int) :
    (Thunk.relative 5 false false).target read a 0
      (UInt64.ofNat (leNat (leBytes 4 (UInt64.ofInt gap).toNat))) =
      .ok ((a + 5).shift (signed32 (leNat (leBytes 4 (UInt64.ofInt gap).toNat)))) := by
  have hword := toNat_ofNat_leNat (n := 4) (by decide) (UInt64.ofInt gap).toNat
  simp only [AddressMeaning.target, AddressMeaning.decode, Thunk.relative, hword]
  simp

theorem recognises_near (hfits : fits32 (rel32Gap a b) = true)
    (hread : m.read a 5 = .ok (rel32Bytes (rel32Gap a b))) :
    x86_64.Recognises (Space.system limits) m a 5 b := by
  have hcode : m.read a 5 =
      .ok (0xE9 :: [] ++ leBytes 4 (UInt64.ofInt (rel32Gap a b)).toNat) := hread
  refine recognises_front rfl front_near (length_leBytes _ _) hcode ?_
  rw [target_near, signed32_ofInt hfits]
  exact congrArg Except.ok (shift_distance (a + 5) b)

/-- The pointer that a far jump goes through is read from behind it, where no other region may
begin. -/
theorem recognises_far (hread : m.read a 14 = .ok (abs64Bytes b))
    (hnone : ∀ t ∈ m.ranges, a.toNat < t.base.toNat → a.toNat + 6 < t.base.toNat) :
    x86_64.Recognises (Space.system limits) m a 6 b := by
  have hjump : m.read a 6 = .ok (0xFF :: [0x25] ++ [0, 0, 0, 0]) := read_take hread (by decide)
  have hpointer : m.read (a + 6) 8 = .ok (leBytes 8 b.toNat) := read_drop hread (by decide) hnone
  refine recognises_front rfl front_far rfl hjump ?_
  have hdecode : (Thunk.relative 6 true false).decode a 0 (UInt64.ofNat (leNat [0, 0, 0, 0])) =
      a + 6 := by
    have hzero : signed32 (UInt64.ofNat (leNat [0, 0, 0, 0])).toNat = 0 := by decide
    have hstay : UInt64.ofInt 0 = 0 := rfl
    simp only [AddressMeaning.decode, Thunk.relative, hzero, Address.shift, hstay]
    simp
  have htarget : (Space.system limits).readPointer m (a + 6) = .ok b := by
    refine Attempt.bind_eq_ok.mpr ⟨_, hpointer, ?_⟩
    rw [ofNat_leNat_leBytes]
    rfl
  unfold AddressMeaning.target
  simp only [hdecode]
  exact htarget

theorem recognises_literal (hread : m.read a 16 = .ok (literalBytes b)) :
    aarch64.Recognises (Space.system limits) m a 16 b := by
  have hload : leBytes 4 0x58000051 ++ leBytes 4 0xD61F0220 =
      0x51 :: [0x00, 0x00, 0x58, 0x20, 0x02, 0x1F, 0xD6] := by decide
  rw [literalBytes, hload] at hread
  refine recognises_front rfl front_literal (length_leBytes _ _) hread ?_
  rw [ofNat_leNat_leBytes]
  rfl

/-- A displacement that does not fit is cut off, which leaves the low half of the address. -/
theorem recognises_near32 (hread : m.read a 5 = .ok (rel32Bytes (rel32Gap a b))) :
    ∃ c, x86.Recognises (Space.system limits) m a 5 c ∧
      c.toNat % 4294967296 = b.toNat % 4294967296 := by
  have hcode : m.read a 5 =
      .ok (0xE9 :: [] ++ leBytes 4 (UInt64.ofInt (rel32Gap a b)).toNat) := hread
  refine ⟨_, recognises_front rfl front_near32 (length_leBytes _ _) hcode (target_near _ _), ?_⟩
  have hgap : UInt64.ofInt (rel32Gap a b) = b - (a + 5) := by
    unfold rel32Gap distance
    rw [ofInt_signed64]
  have hsum : ((a + 5) + (b - (a + 5))).toNat = b.toNat := by
    rw [UInt64.add_comm, UInt64.sub_add_cancel]
  rw [UInt64.toNat_add] at hsum
  rw [hgap, leNat_leBytes, Address.shift, UInt64.toNat_add, toNat_ofInt]
  unfold signed32
  rw [Int.bmod_def]
  split <;> omega

theorem recognises_direct_x86_64 {r : Redirect} {code : Bytes} (hsize : x86_64.sizeOf? r.kind = some r.size)
    (hcode : x86_64.directBytes r = .ok code) (hread : m.read r.source code.length = .ok code)
    (hnone : r.kind = .abs64Indirect →
      ∀ t ∈ m.ranges, r.source.toNat < t.base.toNat → r.source.toNat + 6 < t.base.toNat) :
    x86_64.Recognises (Space.system limits) m r.source r.size r.target := by
  obtain ⟨source, target, size, kind⟩ := r
  cases kind with
  | rel32 =>
    cases hsize
    have hnear : x86_64.directBytes ⟨source, target, 5, .rel32⟩ =
        if fits32 (rel32Gap source target) then .ok (rel32Bytes (rel32Gap source target))
        else .refuse (.noEncoding source target 5) := rfl
    rw [hnear] at hcode
    split at hcode
    · rename_i hfits
      cases hcode
      rw [length_rel32Bytes] at hread
      exact recognises_near hfits hread
    · cases hcode
  | abs64Indirect =>
    cases hsize
    cases hcode
    rw [length_abs64Bytes] at hread
    exact (recognises_far hread (hnone rfl)).mono (n := 14) (by decide) ⟨_, hread⟩
  | rel32ViaStub => cases hcode
  | branch26 => cases hsize
  | literalBranch => cases hsize

theorem recognises_direct_aarch64 {r : Redirect} {code : Bytes}
    (hsize : aarch64.sizeOf? r.kind = some r.size) (hkind : r.kind = .literalBranch)
    (hcode : aarch64.directBytes r = .ok code) (hread : m.read r.source code.length = .ok code) :
    aarch64.Recognises (Space.system limits) m r.source r.size r.target := by
  obtain ⟨source, target, size, kind⟩ := r
  cases hkind
  cases hsize
  cases hcode
  rw [length_literalBytes] at hread
  exact recognises_literal hread

theorem recognises_direct_x86 {r : Redirect} {code : Bytes}
    (hsize : x86.sizeOf? r.kind = some r.size)
    (hcode : x86.directBytes r = .ok code) (hread : m.read r.source code.length = .ok code) :
    ∃ b, x86.Recognises (Space.system limits) m r.source r.size b ∧
      b.toNat % 4294967296 = r.target.toNat % 4294967296 := by
  obtain ⟨source, target, size, kind⟩ := r
  cases kind with
  | rel32 =>
    cases hsize
    cases hcode
    rw [length_rel32Bytes] at hread
    exact recognises_near32 hread
  | abs64Indirect => cases hsize
  | rel32ViaStub => cases hsize
  | branch26 => cases hsize
  | literalBranch => cases hsize

/-- The stub of a redirect stands apart from all that was mapped before, and holds a far jump. -/
theorem encodeViaStub_reads {s t : Space} {bytes : Bytes} {stub : Option Range}
    (ha : s.regions.Ascending)
    (h : encodeViaStub (Space.system limits) a b s = .ok (bytes, stub) t) :
    ∃ r, stub = some r ∧ r.length = 14 ∧ bytes = rel32Bytes (rel32Gap a r.base) ∧
      fits32 (rel32Gap a r.base) = true ∧ t.regions.Ascending ∧ r ∈ t.ranges ∧
      t.read r.base 14 = .ok (abs64Bytes b) ∧ (∀ u ∈ s.ranges, r.Apart u) ∧
      ∀ u ∈ t.ranges, u = r ∨ u ∈ s.ranges := by
  obtain ⟨r, v, saved, halloc, hpatch, hfits, rfl, rfl⟩ := encodeViaStub_ok h
  have htaken := allocate_taken ha halloc
  have hranges := patch_ranges htaken.ascending hpatch
  refine ⟨r, rfl, htaken.length, rfl, hfits, (patch_log htaken.ascending hpatch).2.1,
    hranges ▸ htaken.mapped, ?_, htaken.apart, hranges ▸ htaken.only⟩
  have hread := patch_read htaken.ascending hpatch
  rwa [length_abs64Bytes] at hread

end Isa

namespace Detour
open Isa Redirect
variable {limits : SpaceLimits} {isa : Isa} {source target : Address} {limit : Option Nat}
  {r : Redirect} {d : Detour} {s s' t : Space} {code saved : Bytes} {stub : Option Range}
  {room : Option Nat}

theorem viaStub_recognised (ha : s.regions.Ascending)
    (h : encodeViaStub (Space.system limits) source target s = .ok (code, stub) t)
    (hpatch : Space.patch source code room t = .ok saved s')
    (hmapped : ∃ u ∈ s.ranges, (⟨source, 5⟩ : Range).Within u) :
    ∃ r, stub = some r ∧ x86_64.Recognises (Space.system limits) s' source 5 r.base ∧
      x86_64.Recognises (Space.system limits) s' r.base 6 target := by
  obtain ⟨r, rfl, hlen, rfl, hfits, hsorted, hr, hread, hapart, honly⟩ := encodeViaStub_reads ha h
  have hnear := patch_read hsorted hpatch
  rw [length_rel32Bytes] at hnear
  refine ⟨r, rfl, recognises_near hfits hnear, recognises_far ?_ fun u hu hlt => ?_⟩
  · obtain ⟨region, hregion, rfl⟩ := List.mem_map.mp hr
    rw [← hread]
    refine patch_read_of_ne hsorted hpatch (regionBelow?_base hsorted hregion) fun touched hl hbase => ?_
    obtain ⟨htouched, hlow, hhigh⟩ := locate_some hl
    have hsame := ranges_unique hsorted (mem_ranges htouched) hr hbase
    obtain ⟨u, hu, hulow, huhigh⟩ := hmapped
    have hu' := hapart u hu
    rw [hsame] at hlow hhigh
    simp only [Range.Apart, length_rel32Bytes] at hu' hlow hhigh hulow huhigh
    omega
  · rw [patch_ranges hsorted hpatch] at hu
    rcases honly u hu with rfl | hu
    · omega
    · have hu' := hapart u hu
      simp only [Range.Apart] at hu'
      omega

/-- A detour that has been written is recognised in every window that holds it. The thunk leads to
the target, or to the stub and from there to the target; on a 32-bit instruction set to an address
with the same low half. A stub must not come to stand where the code to patch should be mapped, and
no region may begin between a far jump and the pointer behind it. -/
theorem apply_recognised (hs : s.regions.Ascending)
    (hplan : isa.plan source target limit = .ok r)
    (h : apply (Space.system limits) isa r source s = .ok d s')
    (hmapped : r.kind = .rel32ViaStub → ∃ t ∈ s.ranges, (⟨source, r.size⟩ : Range).Within t)
    (hnone : r.kind = .abs64Indirect →
      ∀ t ∈ s.ranges, source.toNat < t.base.toNat → source.toNat + 6 < t.base.toNat) :
    (isa = .x86_64 → r.kind ≠ .rel32ViaStub →
      isa.Recognises (Space.system limits) s' source r.size target) ∧
    (isa = .x86_64 → r.kind = .rel32ViaStub → ∃ stub, d.stub = some stub ∧
      isa.Recognises (Space.system limits) s' source r.size stub.base ∧
      isa.Recognises (Space.system limits) s' stub.base 6 target) ∧
    (isa = .aarch64 → r.kind = .literalBranch →
      isa.Recognises (Space.system limits) s' source r.size target) ∧
    (isa = .x86 → ∃ b, isa.Recognises (Space.system limits) s' source r.size b ∧
      b.toNat % 4294967296 = target.toNat % 4294967296) := by
  obtain ⟨code, stub, t, saved, hfront, hpatch, rfl⟩ := apply_steps h
  obtain ⟨rfl, rfl, hsize, -⟩ := Isa.plan_ok hplan
  rcases encodeBytes_ok (encodeFront_ok hfront) with ⟨hvia, hdirect, rfl, rfl⟩ | ⟨⟨rfl, hkind⟩, hvia⟩
  · have hread := patch_read hs hpatch
    have hranges := patch_ranges hs hpatch
    refine ⟨?_, ?_, ?_, ?_⟩
    · rintro rfl -
      exact recognises_direct_x86_64 hsize hdirect hread (hranges ▸ hnone)
    · rintro rfl hkind
      exact absurd ⟨rfl, hkind⟩ hvia
    · rintro rfl hkind
      exact recognises_direct_aarch64 hsize hkind hdirect hread
    · rintro rfl
      exact recognises_direct_x86 hsize hdirect hread
  · have hfive : r.size = 5 := by
      rw [hkind] at hsize
      exact (Option.some.inj hsize).symm
    refine ⟨fun _ hne => absurd hkind hne, fun _ _ => ?_, nofun, nofun⟩
    rw [hfive] at hmapped ⊢
    exact viaStub_recognised hs hvia hpatch (hmapped hkind)

/-- Through a stub, to which a walk goes from the source, and by a jump that needs none. -/
theorem apply_recognised_far :
    let sys := Space.system {}
    let p : Platform Space ScriptState := ⟨.x86_64, sys, ({} : Script).runtime, {}⟩
    let code : Space := { regions := [(0x1000, List.replicate 32 0x90)] }
    (∃ d s' stub,
      apply sys .x86_64 ⟨0x1000, 0x7FFF00000000, 5, .rel32ViaStub⟩ 0x1000 code = .ok d s' ∧
      d.stub = some stub ∧ x86_64.Recognises sys s' 0x1000 5 stub.base ∧
      x86_64.Recognises sys s' stub.base 6 0x7FFF00000000 ∧
      (p.thunkAt 0x1000 s').map (Option.map Thunk.Link.next) = .ok (some stub.base)) ∧
    ∃ d s',
      apply sys .x86_64 ⟨0x1000, 0x7FFF00000000, 14, .abs64Indirect⟩ 0x1000 code = .ok d s' ∧
      x86_64.Recognises sys s' 0x1000 14 0x7FFF00000000 := by
  intro sys p code
  have hs : code.regions.Ascending := List.pairwise_singleton _ _
  constructor
  · obtain ⟨d, s', h, hreadable, hread⟩ : ∃ d s',
        apply sys .x86_64 ⟨0x1000, 0x7FFF00000000, 5, .rel32ViaStub⟩ 0x1000 code = .ok d s' ∧
        (sys.readable 0x1000 p.window s').toOption = some 19 ∧
        (sys.read 0x1000 (min 19 p.window) s').toOption.isSome :=
      Action.exists_ok (by decide +kernel)
    obtain ⟨window, hread⟩ := Option.isSome_iff_exists.mp hread
    have hplan : x86_64.plan 0x1000 0x7FFF00000000 (some 8) =
        .ok ⟨0x1000, 0x7FFF00000000, 5, .rel32ViaStub⟩ := by decide
    obtain ⟨-, hvia, -⟩ := apply_recognised hs hplan h
      (fun _ => ⟨⟨0x1000, 32⟩, by decide, by decide⟩) nofun
    obtain ⟨stub, hstub, hnear, hfar⟩ := hvia rfl rfl
    have hwalked := Recognises.walked (p := p) hnear (Attempt.toOption_eq_some.mp hreadable)
      (by decide) (by decide) (Attempt.toOption_eq_some.mp hread)
    exact ⟨d, s', stub, h, hstub, hnear, hfar, hwalked⟩
  · obtain ⟨d, s', h, -⟩ : ∃ d s',
        apply sys .x86_64 ⟨0x1000, 0x7FFF00000000, 14, .abs64Indirect⟩ 0x1000 code = .ok d s' ∧
        True := Action.exists_ok (by decide +kernel)
    have hplan : x86_64.plan 0x1000 0x7FFF00000000 none =
        .ok ⟨0x1000, 0x7FFF00000000, 14, .abs64Indirect⟩ := by decide
    obtain ⟨hdirect, -⟩ := apply_recognised hs hplan h nofun (fun _ => by decide)
    exact ⟨d, s', h, hdirect rfl nofun⟩

/-- A stub that is allocated at the source is overwritten by the jump to it; a region that begins
inside a far jump hides the pointer; and the jump of a stub takes six bytes to tell. -/
theorem create_unrecognised :
    let sys := Space.system {}
    (∃ d s', create sys .x86_64 0x70000000 0x7FFF00000000 (some 8) none {} = .ok d s' ∧
      d.stub = some ⟨0x70000000, 14⟩ ∧ (s'.read 0x70000000 14).bind
        (x86_64.thunkTarget? sys s' 0x70000000) = .ok (some 0x70000000)) ∧
    (∃ d s', create sys .x86_64 0x1000 0x7FFF00000000 none none
        { regions := [(0x1000, List.replicate 32 0x90), (0x1004, List.replicate 4 0xCC)] } =
          .ok d s' ∧ (s'.read 0x1000 14).bind (x86_64.thunkTarget? sys s' 0x1000) =
        .error (.refused (.unreadable 0x1006 (.unmapped 8)))) ∧
    ∃ d s', create sys .x86_64 0x1000 0x7FFF00000000 (some 8) none
        { regions := [(0x1000, List.replicate 32 0x90)] } = .ok d s' ∧
      d.stub = some ⟨0x70000000, 14⟩ ∧
      (s'.read 0x70000000 5).bind (x86_64.thunkTarget? sys s' 0x70000000) = .ok none := by
  intro sys
  refine ⟨Action.exists_ok ?_, Action.exists_ok ?_, Action.exists_ok ?_⟩ <;> decide +kernel

end Detour

end Interpose

import Interpose.Proofs.Arch.Transfer
import Interpose.Proofs.Engine.Detour

/-!
# Detours that stand

A detour stands in a memory when the code it wrote leads from its source to its target there, and
its stub is mapped and jumps on. What an operation does elsewhere leaves a detour standing, and a
detour that has just been applied stands.
-/

namespace Interpose

open Space

namespace X86
variable {m m' : Memory} {a : Address} {code : Bytes}

theorem holds_iff : Holds m a code ↔
    ∀ i (h : i < code.length), m (a + UInt64.ofNat i) = some code[i] := by
  induction code generalizing a with
  | nil => simp [Holds, readAt]
  | cons byte code ih =>
    rw [holds_cons, ih]
    have hshift (i : Nat) : a + 1 + UInt64.ofNat i = a + UInt64.ofNat (i + 1) := by
      rw [UInt64.ofNat_add, UInt64.add_assoc, UInt64.add_comm (UInt64.ofNat i)]
      rfl
    constructor
    · rintro ⟨hbyte, hrest⟩ i hi
      cases i with
      | zero => simpa using hbyte
      | succ i =>
        rw [← hshift]
        exact hrest i (Nat.lt_of_succ_lt_succ hi)
    · intro h
      constructor
      · simpa using h 0 (Nat.succ_pos _)
      · intro i hi
        rw [hshift]
        exact h (i + 1) (Nat.succ_lt_succ hi)

theorem Holds.congr (h : Holds m a code) (hroom : a.toNat + code.length < wordLimit)
    (hsame : ∀ x, (⟨a, code.length⟩ : Range).Holds x → m' x = m x) : Holds m' a code := by
  refine holds_iff.mpr fun i hi => ?_
  have hx : (a + UInt64.ofNat i).toNat = a.toNat + i := toNat_add_ofNat (by omega)
  rw [hsame _ ⟨by rw [hx]; exact Nat.le_add_right .., by rw [hx]; exact Nat.add_lt_add_left hi _⟩]
  exact holds_iff.mp h i hi

theorem Holds.byte {x : Address} (h : Holds m a code)
    (hx : (⟨a, code.length⟩ : Range).Holds x) : m x = code[x.toNat - a.toNat]? := by
  obtain ⟨hlow, hhigh⟩ := hx
  dsimp only at hlow hhigh
  have hi : x.toNat - a.toNat < code.length := by omega
  have heq : a + UInt64.ofNat (x.toNat - a.toNat) = x := by
    have hlt := x.toNat_lt
    refine UInt64.toNat_inj.mp ?_
    rw [toNat_add_ofNat (by unfold wordLimit; omega)]
    omega
  have hbyte := holds_iff.mp h _ hi
  rw [heq] at hbyte
  rw [hbyte, List.getElem?_eq_getElem hi]

theorem Holds.mapped {x : Address} (h : Holds m a code) (hx : (⟨a, code.length⟩ : Range).Holds x) :
    m x ≠ none := by
  rw [h.byte hx]
  obtain ⟨hlow, hhigh⟩ := hx
  dsimp only at hlow hhigh
  rw [ne_eq, List.getElem?_eq_none_iff]
  omega

/-- Code that leads from an address elsewhere in every memory that holds it there. -/
def Jumps (source : Address) (code : Bytes) (a : Address) : Prop :=
  ∀ m, Holds m source code → jumpTarget? m source = some a

end X86

theorem Space.Patched.holds {s s' : Space} {a : Address} {bytes : Bytes}
    (hp : Patched s a bytes s') (hroom : a.toNat + bytes.length < wordLimit) :
    X86.Holds s'.byteAt? a bytes := by
  refine X86.holds_iff.mpr fun i hi => ?_
  have hx : (a + UInt64.ofNat i).toNat = a.toNat + i := toNat_add_ofNat (by omega)
  have hholds : (⟨a, bytes.length⟩ : Range).Holds (a + UInt64.ofNat i) := by
    simp only [Range.Holds, hx]
    omega
  rw [← view_byte, hp.view, View.put_byte_of_holds hholds, hx, Nat.add_sub_cancel_left,
    List.getElem?_eq_getElem hi]

namespace Range
variable {r r' t : Range}

theorem Apart.of_within (h : r.Apart t) (hw : r'.Within r) : r'.Apart t := by
  unfold Apart Within at *
  omega

end Range

namespace Isa
open Redirect X86
variable {source target : Address} {limit : Option Nat} {r : Redirect} {code : Bytes}
  {stub : Option Range} {limits : SpaceLimits} {s s' : Space}

/-- What an encoding leads to: the target, or a stub from which an absolute jump goes there. -/
theorem encodeFront_leads (hs : s.Laid) (hplan : x86_64.plan source target limit = .ok r)
    (h : x86_64.encodeFront (Space.system limits) r s = .ok (code, stub) s') :
    code.length = r.size ∧ Jumps source code (stub.elim target Range.base) ∧
      ∀ range ∈ stub, range.length = 14 ∧ range.base.toNat + range.length < wordLimit ∧
        Holds s'.byteAt? range.base (abs64Bytes target) := by
  have hbytes := encodeFront_ok h
  obtain ⟨rfl, rfl, hsize, -⟩ := plan_ok hplan
  have hlength : code.length = r.size := by
    have hcode := encodeBytes_length hbytes
    rw [hsize, Option.some.injEq] at hcode
    exact hcode.symm
  refine ⟨hlength, ?_⟩
  rcases encodeBytes_ok hbytes with ⟨hvia, hdirect, rfl, -⟩ | ⟨-, hvia⟩
  · obtain ⟨code', hdirect', hjump⟩ := directBytes_leads hplan hvia
    rw [hdirect] at hdirect'
    cases hdirect'
    exact ⟨hjump, fun _ hr => by cases hr⟩
  · obtain ⟨range, t, saved, halloc, hpatch, hfits, rfl, rfl⟩ := encodeViaStub_ok hvia
    obtain ⟨ha, -⟩ := allocate_ok hs halloc
    obtain ⟨-, -, -, hhigh⟩ := Request.accepts_eq_true.mp ha.accepted
    have hroom : range.base.toNat + range.length < wordLimit :=
      Nat.lt_of_le_of_lt hhigh (UInt64.toNat_lt _)
    have hlen : range.length = 14 := ha.length
    constructor
    · intro m hm
      rw [jumpTarget?_rel32 hfits hm]
      exact congrArg some (shift_distance _ _)
    · rintro _ ⟨⟩
      refine ⟨hlen, hroom, (patch_ok ha.laid hpatch).1.holds ?_⟩
      rwa [length_abs64Bytes, ← hlen]

end Isa

namespace Detour
variable {d d' : Detour} {limits : SpaceLimits} {source target a : Address} {limit : Option Nat}
  {redirect : Redirect} {bytes : Bytes} {range r : Range} {more rest held : List Range}
  {init m m' s s' : Space}

/-- Where the code of a detour leads by itself. -/
def landing (d : Detour) : Address := d.stub.elim d.redirect.target Range.base

structure Stands (d : Detour) (m : Space) : Prop where
  fits : d.redirect.size ≤ d.backup.length
  room : d.writeAddress.toNat + d.backup.length < wordLimit
  code : ∃ code : Bytes, code.length = d.redirect.size ∧
    X86.Holds m.byteAt? d.writeAddress code ∧ X86.Jumps d.redirect.source code d.landing
  stub : ∀ r ∈ d.stub, r ∈ m.ranges ∧ r.length = 14 ∧ r.base.toNat + r.length < wordLimit ∧
    X86.Holds m.byteAt? r.base (Redirect.abs64Bytes d.redirect.target)

/-- Over its own source, a detour that stands leads to its target, by way of its stub if it has
one. -/
theorem Stands.reaches (h : d.Stands m) (hplace : d.writeAddress = d.redirect.source) :
    X86.jumpTarget? m.byteAt? d.redirect.source = some d.landing ∧
      ∀ r ∈ d.stub, X86.jumpTarget? m.byteAt? r.base = some d.redirect.target := by
  obtain ⟨code, -, hholds, hjumps⟩ := h.code
  refine ⟨hjumps _ (hplace ▸ hholds), fun r hr => ?_⟩
  exact X86.jumpTarget?_abs64 (h.stub r hr).2.2.2

/-- Only the code and the stub matter. -/
theorem Stands.congr (h : d.Stands m)
    (hcode : ∀ x, m.byteAt? x ≠ none → d.patched.Holds x → m'.byteAt? x = m.byteAt? x)
    (hstub : ∀ r ∈ d.stub, r ∈ m'.ranges ∧
      ∀ x, m.byteAt? x ≠ none → r.Holds x → m'.byteAt? x = m.byteAt? x) : d.Stands m' := by
  obtain ⟨code, hlen, hholds, hjumps⟩ := h.code
  have hfits := h.fits
  have hroom := h.room
  refine ⟨hfits, hroom, ⟨code, hlen, ?_, hjumps⟩, fun r hr => ?_⟩
  · refine hholds.congr (by omega) fun x hx => hcode x (hholds.mapped hx) ?_
    exact hx.of_within ⟨Nat.le_refl _, by simp only [patched]; omega⟩
  · obtain ⟨-, hlength, hbound, hjump⟩ := h.stub r hr
    obtain ⟨hmapped, hsame⟩ := hstub r hr
    have hlen' : (Redirect.abs64Bytes d.redirect.target).length = r.length := by
      rw [hlength, Isa.length_abs64Bytes]
    refine ⟨hmapped, hlength, hbound, hjump.congr (by rwa [hlen']) fun x hx => ?_⟩
    have hmap := hjump.mapped hx
    rw [hlen'] at hx
    exact hsame x hmap hx

theorem Stands.extended (h : d.Stands m) (he : Extended m more m') : d.Stands m' :=
  h.congr (fun _ hx _ => he.byte_of_mapped hx) fun r hr =>
    ⟨he.mem_of_mem (h.stub r hr).1, fun _ hx _ => he.byte_of_mapped hx⟩

theorem Stands.patch (h : d.Stands m) (hp : Patched m a bytes m')
    (hcode : d.patched.Apart ⟨a, bytes.length⟩)
    (hstub : ∀ r ∈ d.stub, r.Apart ⟨a, bytes.length⟩) : d.Stands m' := by
  have hsame {t : Range} (ht : t.Apart ⟨a, bytes.length⟩) {x : Address} (hx : t.Holds x) :
      m'.byteAt? x = m.byteAt? x := by
    rw [← view_byte, hp.view, View.put_byte_of_not (ht.not_holds hx), view_byte]
  refine h.congr (fun x _ hx => hsame hcode hx) fun r hr =>
    ⟨?_, fun x _ hx => hsame (hstub r hr) hx⟩
  rw [hp.ranges]
  exact (h.stub r hr).1

theorem Stands.release (h : d.Stands m) (hm : m.Laid) (hr : r ∈ m.ranges)
    (hcode : d.patched.Apart r) (hstub : ∀ t ∈ d.stub, t.Apart r) : d.Stands (release r m) := by
  obtain ⟨-, hview⟩ := release_view hm hr
  have hsame {t : Range} (ht : t.Apart r) {x : Address} (hx : t.Holds x) :
      (Space.release r m).byteAt? x = m.byteAt? x := by
    rw [← view_byte, hview, View.unmap_byte_of_not (ht.not_holds hx), view_byte]
  refine h.congr (fun x _ hx => hsame hcode hx) fun t ht =>
    ⟨?_, fun x _ hx => hsame (hstub t ht) hx⟩
  obtain ⟨hmapped, hlength, -⟩ := h.stub t ht
  have hne : t ≠ r := by
    rintro rfl
    have hself := hstub t ht
    unfold Range.Apart at hself
    omega
  rw [← mem_view_ranges, hview]
  exact (Multiset.mem_erase_of_ne hne).mpr (mem_view_ranges.mpr hmapped)

/-- Another detour, with a stub of its own, that patches none of the bytes this one has patched. -/
structure Beside (init : Space) (held : List Range) (d k : Detour) : Prop where
  apart : d.applied = true → k.patched.Apart d.patched
  placed : Placed init k
  stub : ∀ r ∈ k.stub, r ∈ held

variable {k : Detour} {own : List Range} {code : Bytes} {t : Space}

theorem Placed.apart (h : Placed init d) (hc : Carries init held s) (hr : r ∈ held) :
    d.patched.Apart r := by
  obtain ⟨t, ht, -, hw⟩ := h
  exact (hc.apart ht hr).of_within hw

theorem Beside.patch (h : Beside init held d k) (happlied : d.applied = true)
    (hd : Placed init d) (hc : Carries init (own ++ held) s) (hk : k.Stands m)
    (hp : Patched m a bytes m') (hw : (⟨a, bytes.length⟩ : Range).Within d.patched) :
    k.Stands m' := by
  refine hk.patch hp ((h.apart happlied).symm.of_within hw).symm fun r hr => ?_
  have happart := hd.apart hc (List.mem_append_right own (h.stub r hr))
  exact (happart.of_within hw).symm

theorem Beside.release (h : Beside init held d k) (hc : Carries init (own ++ held) s)
    (hk : k.Stands m) (hm : m.Laid) (hr : r ∈ own) (hmem : r ∈ m.ranges) :
    k.Stands (Space.release r m) := by
  refine hk.release hm hmem (h.placed.apart hc (List.mem_append_left held hr)) fun q hq => ?_
  exact ((List.pairwise_append.mp hc.pairwise).2.2 r hr q (h.stub q hq)).symm

/-- A detour stands once its code has been written. -/
theorem stands_of_patch (hd : Placed init d) (hc : Carries init held s)
    (he : Extended s d.stub.toList t) (hfits : d.redirect.size ≤ d.backup.length)
    (hlength : code.length = d.redirect.size)
    (hjumps : X86.Jumps d.redirect.source code d.landing)
    (hstub : ∀ r ∈ d.stub, r.length = 14 ∧ r.base.toNat + r.length < wordLimit ∧
      X86.Holds t.byteAt? r.base (Redirect.abs64Bytes d.redirect.target))
    (hp : Patched t d.writeAddress code m) : d.Stands m := by
  obtain ⟨u, hu, hbound, hlow, hhigh⟩ := hd
  simp only [patched] at hlow hhigh
  have hcode : (⟨d.writeAddress, code.length⟩ : Range).Within u :=
    ⟨hlow, by simp only; omega⟩
  refine ⟨hfits, by omega, ⟨code, hlength, hp.holds (by omega), hjumps⟩, fun r hr => ?_⟩
  obtain ⟨hlen, hroom, hjump⟩ := hstub r hr
  have hmem : r ∈ d.stub.toList := Option.mem_toList.mpr hr
  have hlen' : (Redirect.abs64Bytes d.redirect.target).length = r.length := by
    rw [hlen, Isa.length_abs64Bytes]
  refine ⟨hp.ranges ▸ he.mem hmem, hlen, hroom, hjump.congr (by rwa [hlen']) fun x hx => ?_⟩
  rw [hlen'] at hx
  have hapart := ((he.apart (hc.mem_of_mem hu) hmem).of_within hcode).symm
  rw [← view_byte, hp.view, View.put_byte_of_not (hapart.not_holds hx), view_byte]

theorem apply_stands (hc : Carries init held s)
    (hplan : Isa.x86_64.plan source target limit = .ok redirect)
    (h : apply (Space.system limits) .x86_64 redirect a s = .ok d s') (hd : Placed init d) :
    (d.redirect.source = source ∧ d.redirect.target = target ∧ d.writeAddress = a) ∧
      d.Stands s' ∧ ∀ k, Beside init held d k → k.Stands s → k.Stands s' := by
  obtain ⟨code, stub, t, backup, hcode, hpatch, rfl⟩ := apply_steps h
  obtain ⟨hlength, hjumps, hstub⟩ := Isa.encodeFront_leads hc.laid hplan hcode
  obtain ⟨rfl, rfl, -, -⟩ := Isa.plan_ok hplan
  have he := Isa.encodeFront_extended hc.laid hcode
  obtain ⟨hp, hsaved⟩ := patch_ok he.laid hpatch
  have hbackup : backup.length = code.length := (hsaved rfl).1
  refine ⟨⟨rfl, rfl, rfl⟩, ?_, fun k hk hstands => ?_⟩
  · exact stands_of_patch hd hc he (by rw [← hlength, hbackup]) hlength hjumps hstub hp
  · have hw : (⟨a, code.length⟩ : Range).Within ⟨a, backup.length⟩ := by
      rw [hbackup]
      exact ⟨Nat.le_refl _, Nat.le_refl _⟩
    have hheld : Carries init ([] ++ held) s := hc
    exact hk.patch rfl hd hheld (hstands.extended he) hp hw

end Detour

namespace EntryDetour
variable {d : EntryDetour} {limits : SpaceLimits} {source target : Address} {limit : Option Nat}
  {writable : Option Address} {rel? : Option Relocator} {wanted : Bool} {held : List Range}
  {init s s' : Space}

theorem createWith_stands (hc : Carries init held s)
    (h : createWith (Space.system limits) .x86_64 rel? wanted source target limit writable s =
      .ok d s') (hd : Detour.Placed init d.detour) :
    (d.detour.redirect.source = source ∧ d.detour.redirect.target = target ∧
      d.detour.writeAddress = writable.getD source) ∧ d.detour.Stands s' ∧
      ∀ k, Detour.Beside init held d.detour k → k.Stands s → k.Stands s' := by
  obtain ⟨redirect, s₁, hlift, h₁⟩ := Action.bind_eq_ok.mp h
  obtain ⟨alternate, t, halt, h₂⟩ := Action.bind_eq_ok.mp h₁
  obtain ⟨detour, u, hguard, h₃⟩ := Action.bind_eq_ok.mp h₂
  obtain ⟨hplan, rfl⟩ := Action.lift_eq_ok.mp hlift
  obtain ⟨rfl, rfl⟩ := Action.pure_eq_ok.mp h₃
  have he := alternateFor_ok hc.laid halt
  obtain ⟨haim, hstands, hothers⟩ := Detour.apply_stands (hc.trans he.toCarries)
    (Detour.plan_ok hplan) (Action.guarded_eq_ok.mp hguard) hd
  refine ⟨haim, hstands, fun k hk hbefore => hothers k ?_ (hbefore.extended he)⟩
  exact ⟨hk.apart, hk.placed, fun r hr => List.mem_append_left _ (hk.stub r hr)⟩

end EntryDetour

end Interpose

import Interpose.Proofs.Memory.Extension

/-!
# Encoding a redirect

Only an encoding through a stub touches memory: it allocates the stub and fills it with an absolute
jump. On an orderly space a successful encoding holds its stub and nothing else; a refused one has
given everything back.
-/

namespace Interpose

namespace System
variable {σ α : Type} {sys : System σ} {q : Request} {fill : Range → Action σ α} {a : α}
  {e : Failure} {s s' : σ}

theorem allocating_eq_ok : sys.allocating q fill s = .ok a s' ↔
    ∃ r t, sys.allocate q s = .ok r t ∧ fill r t = .ok a s' := by
  simp only [allocating, Action.bind_eq_ok, Action.guarded_eq_ok]

theorem allocating_eq_error : sys.allocating q fill s = .error e s' ↔
    sys.allocate q s = .error e s' ∨
      ∃ r t, sys.allocate q s = .ok r t ∧ ∃ u, fill r t = .error e u ∧ s' = sys.release r u := by
  simp only [allocating, Action.bind_eq_error, Action.guarded_eq_error]

variable {code : Bytes} {offsets : List Nat} {r : Range}

theorem installing_steps (h : sys.installing q code offsets s = .ok r s') :
    ∃ t saved v u, sys.allocate q s = .ok r t ∧ sys.patch r.base code none t = .ok saved v ∧
      sys.registerGuarded r offsets v = .ok u s' := by
  obtain ⟨memory, t, halloc, h⟩ := allocating_eq_ok.mp h
  obtain ⟨saved, v, hpatch, h⟩ := Action.bind_eq_ok.mp h
  obtain ⟨u, w, hregister, h⟩ := Action.bind_eq_ok.mp h
  obtain ⟨rfl, rfl⟩ := Action.pure_eq_ok.mp h
  exact ⟨t, saved, v, u, halloc, hpatch, hregister⟩

theorem installing_fails (h : sys.installing q code offsets s = .error e s') :
    sys.allocate q s = .error e s' ∨
      ∃ r t, sys.allocate q s = .ok r t ∧ ∃ u, s' = sys.release r u ∧
        (sys.patch r.base code none t = .error e u ∨
          ∃ saved v, sys.patch r.base code none t = .ok saved v ∧
            sys.registerGuarded r offsets v = .error e u) := by
  rcases allocating_eq_error.mp h with halloc | ⟨r, t, halloc, u, hfill, rfl⟩
  · exact Or.inl halloc
  · refine Or.inr ⟨r, t, halloc, u, rfl, ?_⟩
    rcases Action.bind_eq_error.mp hfill with hpatch | ⟨saved, v, hpatch, hrest⟩
    · exact Or.inl hpatch
    · rcases Action.bind_eq_error.mp hrest with hregister | ⟨_, _, -, hpure⟩
      · exact Or.inr ⟨saved, v, hpatch, hregister⟩
      · exact (Action.pure_eq_error.mp hpure).elim

end System

namespace Isa
open Redirect

section Anywhere
variable {σ : Type} {sys : System σ} {isa : Isa} {redirect : Redirect} {source target : Address}
  {room : Nat} {bytes : Bytes} {stub : Option Range} {e : Failure} {why : Error} {s s' : σ}

@[simp] theorem length_rel32Bytes (gap : Int) : (rel32Bytes gap).length = 5 := by simp [rel32Bytes]

@[simp] theorem length_abs64Bytes (target : Address) : (abs64Bytes target).length = 14 := by
  simp [abs64Bytes]

@[simp] theorem length_branchBytes (gap : Int) : (branchBytes gap).length = 4 := by
  simp [branchBytes]

@[simp] theorem length_literalBytes (target : Address) : (literalBytes target).length = 16 := by
  simp [literalBytes]

theorem encodeViaStub_ok (h : encodeViaStub sys source target s = .ok (bytes, stub) s') :
    ∃ r t saved, sys.allocate (stubRequest sys source) s = .ok r t ∧
      sys.patch r.base (abs64Bytes target) none t = .ok saved s' ∧
      fits32 (rel32Gap source r.base) = true ∧ bytes = rel32Bytes (rel32Gap source r.base) ∧
      stub = some r := by
  obtain ⟨r, t, halloc, h⟩ := System.allocating_eq_ok.mp h
  obtain ⟨saved, u, hpatch, h⟩ := Action.bind_eq_ok.mp h
  cases hfits : fits32 (rel32Gap source r.base) with
  | false => simp [hfits, Action.throw_eq_ok] at h
  | true =>
    simp only [hfits, if_pos] at h
    obtain ⟨hpair, rfl⟩ := Action.pure_eq_ok.mp h
    obtain ⟨rfl, rfl⟩ := Prod.mk.inj hpair
    exact ⟨r, t, saved, halloc, hpatch, hfits, rfl, rfl⟩

theorem encodeViaStub_error (h : encodeViaStub sys source target s = .error e s') :
    sys.allocate (stubRequest sys source) s = .error e s' ∨
      ∃ r t, sys.allocate (stubRequest sys source) s = .ok r t ∧ ∃ u, s' = sys.release r u ∧
        (sys.patch r.base (abs64Bytes target) none t = .error e u ∨
          fits32 (rel32Gap source r.base) = false ∧
            ∃ saved, sys.patch r.base (abs64Bytes target) none t = .ok saved u) := by
  rcases System.allocating_eq_error.mp h with halloc | ⟨r, t, halloc, u, hfill, rfl⟩
  · exact Or.inl halloc
  · refine Or.inr ⟨r, t, halloc, u, rfl, ?_⟩
    rcases Action.bind_eq_error.mp hfill with hpatch | ⟨saved, v, hpatch, hjump⟩
    · exact Or.inl hpatch
    · cases hfits : fits32 (rel32Gap source r.base) with
      | true => simp [hfits, Action.pure_eq_error] at hjump
      | false =>
        simp only [hfits, Bool.false_eq_true, if_false, Action.throw_eq_error] at hjump
        obtain ⟨rfl, rfl⟩ := hjump
        exact Or.inr ⟨rfl, saved, hpatch⟩

/-- How many bytes an instruction set writes for a kind of redirect. -/
def sizeOf? : Isa → RedirectKind → Option Nat
  | x86_64, .rel32 => some 5
  | x86_64, .abs64Indirect => some 14
  | x86_64, .rel32ViaStub => some 5
  | x86, .rel32 => some 5
  | aarch64, .branch26 => some 4
  | aarch64, .literalBranch => some 16
  | _, _ => none

theorem sizeOf?_bounds {kind : RedirectKind} {n : Nat} (h : isa.sizeOf? kind = some n) :
    0 < n ∧ n ≤ maxRedirectSize := by
  revert h
  cases isa <;> cases kind <;> intro h <;> cases h <;> decide

theorem directBytes_length (h : isa.directBytes redirect = .ok bytes) :
    isa.sizeOf? redirect.kind = some bytes.length := by
  revert h
  fun_cases directBytes isa redirect <;> intro h <;> cases h <;> simp_all [sizeOf?]

theorem checkLimit_eq_ok {n : Nat} {limit : Option Nat} {u : Unit} :
    checkLimit source target n limit = .ok u ↔ ∀ m, limit = some m → n ≤ m := by
  cases limit with
  | none => simp [checkLimit]
  | some m =>
    by_cases h : m < n <;> simp [checkLimit, Attempt.refuse, h]
    omega

theorem checkLimit_eq_error {n : Nat} {limit : Option Nat} :
    checkLimit source target n limit = .error e ↔
      ∃ m, limit = some m ∧ m < n ∧ e = .refused (.noEncoding source target m) := by
  cases limit with
  | none => simp [checkLimit]
  | some m => by_cases h : m < n <;> simp [checkLimit, Attempt.refuse, h, eq_comm]

theorem plan_ok {limit : Option Nat} (h : isa.plan source target limit = .ok redirect) :
    redirect.source = source ∧ redirect.target = target ∧
      isa.sizeOf? redirect.kind = some redirect.size ∧ ∀ m, limit = some m → redirect.size ≤ m := by
  cases isa with
  | x86 =>
    obtain ⟨_, hlimit, h⟩ := Attempt.bind_eq_ok.mp h
    cases h
    exact ⟨rfl, rfl, rfl, checkLimit_eq_ok.mp hlimit⟩
  | x86_64 =>
    obtain ⟨_, hlimit, h⟩ := Attempt.bind_eq_ok.mp h
    split at h
    · cases h
      exact ⟨rfl, rfl, rfl, checkLimit_eq_ok.mp hlimit⟩
    · split at h
      · rename_i hall
        cases h
        refine ⟨rfl, rfl, rfl, ?_⟩
        rintro m rfl
        simpa using hall
      · cases h
        exact ⟨rfl, rfl, rfl, checkLimit_eq_ok.mp hlimit⟩
  | aarch64 =>
    obtain ⟨_, hlimit, h⟩ := Attempt.bind_eq_ok.mp h
    split at h
    · cases h
      exact ⟨rfl, rfl, rfl, checkLimit_eq_ok.mp hlimit⟩
    · obtain ⟨_, hlimit, h⟩ := Attempt.bind_eq_ok.mp h
      cases h
      exact ⟨rfl, rfl, rfl, checkLimit_eq_ok.mp hlimit⟩

/-- The redirects that go through a stub. -/
def ViaStub (isa : Isa) (redirect : Redirect) : Prop :=
  isa = x86_64 ∧ redirect.kind = .rel32ViaStub

/-- An encoding either leaves the state alone or goes through a stub. -/
theorem encodeBytes_ok (h : isa.encodeBytes sys redirect s = .ok (bytes, stub) s') :
    (¬ ViaStub isa redirect ∧ isa.directBytes redirect = .ok bytes ∧ stub = none ∧ s' = s) ∨
      ViaStub isa redirect ∧
        encodeViaStub sys redirect.source redirect.target s = .ok (bytes, stub) s' := by
  unfold encodeBytes at h
  split at h
  · exact Or.inr ⟨‹_›, h⟩
  · obtain ⟨direct, t, hlift, hpair⟩ := Action.bind_eq_ok.mp h
    obtain ⟨hdirect, rfl⟩ := Action.lift_eq_ok.mp hlift
    obtain ⟨hbytes, rfl⟩ := Action.pure_eq_ok.mp hpair
    cases hbytes
    exact Or.inl ⟨‹_›, hdirect, rfl, rfl⟩

theorem encodeBytes_length (h : isa.encodeBytes sys redirect s = .ok (bytes, stub) s') :
    isa.sizeOf? redirect.kind = some bytes.length := by
  rcases encodeBytes_ok h with ⟨-, hdirect, -, -⟩ | ⟨⟨rfl, hkind⟩, hvia⟩
  · exact directBytes_length hdirect
  · obtain ⟨r, t, saved, -, -, -, rfl, -⟩ := encodeViaStub_ok hvia
    rw [hkind, length_rel32Bytes]
    rfl

theorem encodeBytes_error (h : isa.encodeBytes sys redirect s = .error e s') :
    (isa.directBytes redirect = .error e ∧ ¬ ViaStub isa redirect ∧ s' = s) ∨
      ViaStub isa redirect ∧
        encodeViaStub sys redirect.source redirect.target s = .error e s' := by
  unfold encodeBytes at h
  split at h
  · exact Or.inr ⟨‹_›, h⟩
  · rcases Action.bind_eq_error.mp h with hlift | ⟨direct, t, -, hpair⟩
    · obtain ⟨hdirect, rfl⟩ := Action.lift_eq_error.mp hlift
      exact Or.inl ⟨hdirect, ‹_›, rfl⟩
    · exact (Action.pure_eq_error.mp hpair).elim

theorem encode_ok (h : isa.encode sys redirect room s = .ok (bytes, stub) s') :
    redirect.size ≤ room ∧ bytes.length ≤ room ∧
      isa.encodeBytes sys redirect s = .ok (bytes, stub) s' := by
  unfold encode at h
  split at h
  · exact (Action.throw_eq_ok.mp h).elim
  · obtain ⟨⟨code, via⟩, t, hbytes, h⟩ := Action.bind_eq_ok.mp h
    dsimp only at h
    split at h
    · exact (Action.throw_eq_ok.mp h).elim
    · obtain ⟨hpair, rfl⟩ := Action.pure_eq_ok.mp h
      cases hpair
      exact ⟨by omega, by omega, hbytes⟩

theorem encode_error (h : isa.encode sys redirect room s = .error e s') :
    (room < redirect.size ∧ s' = s ∧ e ≠ .fault) ∨ isa.encodeBytes sys redirect s = .error e s' ∨
      e = .fault ∧ ∃ bytes stub, room < bytes.length ∧
        isa.encodeBytes sys redirect s = .ok (bytes, stub) s' := by
  unfold encode at h
  split at h
  · obtain ⟨rfl, rfl⟩ := Action.throw_eq_error.mp h
    exact Or.inl ⟨‹_›, rfl, nofun⟩
  · rcases Action.bind_eq_error.mp h with hbytes | ⟨⟨code, via⟩, t, hbytes, hroom⟩
    · exact Or.inr (Or.inl hbytes)
    · dsimp only at hroom
      split at hroom
      · obtain ⟨rfl, rfl⟩ := Action.throw_eq_error.mp hroom
        exact Or.inr (Or.inr ⟨rfl, code, via, ‹_›, hbytes⟩)
      · exact (Action.pure_eq_error.mp hroom).elim

theorem encodeInto_ok {count : Nat} {buffer after : Bytes}
    (h : isa.encodeInto sys redirect buffer s = .ok (count, after, stub) s') :
    ∃ bytes, isa.encode sys redirect buffer.length s = .ok (bytes, stub) s' ∧
      count = bytes.length ∧ after = bytes ++ buffer.drop bytes.length := by
  obtain ⟨⟨code, via⟩, t, hcode, h⟩ := Action.bind_eq_ok.mp h
  obtain ⟨hpair, rfl⟩ := Action.pure_eq_ok.mp h
  cases hpair
  exact ⟨code, hcode, rfl, rfl⟩

theorem encodeInto_error {buffer : Bytes} :
    isa.encodeInto sys redirect buffer s = .error e s' ↔
      isa.encode sys redirect buffer.length s = .error e s' := by
  unfold encodeInto
  simp only [Action.bind_eq_error, Action.pure_eq_error, and_false, exists_false, or_false]

theorem encodeFront_ok (h : isa.encodeFront sys redirect s = .ok (bytes, stub) s') :
    isa.encodeBytes sys redirect s = .ok (bytes, stub) s' := by
  obtain ⟨⟨count, after, via⟩, t, hinto, h⟩ := Action.bind_eq_ok.mp h
  obtain ⟨hpair, rfl⟩ := Action.pure_eq_ok.mp h
  cases hpair
  obtain ⟨code, hcode, rfl, rfl⟩ := encodeInto_ok hinto
  rw [List.take_left]
  exact (encode_ok hcode).2.2

theorem encodeFront_error (h : isa.encodeFront sys redirect s = .error e s') :
    s' = s ∨ isa.encodeBytes sys redirect s = .error e s' := by
  rcases Action.bind_eq_error.mp h with hinto | ⟨_, _, -, hpair⟩
  · rcases encode_error (encodeInto_error.mp hinto) with
      ⟨-, rfl, -⟩ | hbytes | ⟨-, bytes, stub, hlong, hbytes⟩
    · exact Or.inl rfl
    · exact Or.inr hbytes
    · -- no encoding is longer than the buffer
      have hle := (sizeOf?_bounds (encodeBytes_length hbytes)).2
      rw [List.length_replicate] at hlong
      omega
  · exact (Action.pure_eq_error.mp hpair).elim

end Anywhere

section OnSpaces
open Space
variable {limits : SpaceLimits} {isa : Isa} {redirect : Redirect} {source target : Address}
  {bytes : Bytes} {stub : Option Range} {why : Error} {s s' : Space}

theorem encodeViaStub_extended (hs : s.Laid)
    (h : encodeViaStub (Space.system limits) source target s = .ok (bytes, stub) s') :
    Extended s stub.toList s' := by
  obtain ⟨r, t, saved, halloc, hpatch, -, rfl, rfl⟩ := encodeViaStub_ok h
  obtain ⟨ha, -⟩ := allocate_ok hs halloc
  obtain ⟨hp, -⟩ := patch_ok ha.laid hpatch
  refine ha.extended.patch hp List.mem_cons_self ⟨Nat.le_refl _, ?_⟩
  simp only [length_abs64Bytes, ha.length, stubRequest, Request.near]
  exact Nat.le_refl _

theorem encodeViaStub_refused (hs : s.Laid)
    (h : encodeViaStub (Space.system limits) source target s = .error (.refused why) s') :
    Extended s [] s' := by
  rcases encodeViaStub_error h with halloc | ⟨r, t, halloc, u, rfl, hrest⟩
  · rw [allocate_refused halloc]
    exact Extended.refl hs
  · obtain ⟨ha, -⟩ := allocate_ok hs halloc
    rcases hrest with hpatch | ⟨-, saved, hpatch⟩
    · rw [patch_error hpatch]
      exact ha.extended.release
    · obtain ⟨hp, -⟩ := patch_ok ha.laid hpatch
      refine (ha.extended.patch hp List.mem_cons_self ⟨Nat.le_refl _, ?_⟩).release
      simp only [length_abs64Bytes, ha.length, stubRequest, Request.near]
      exact Nat.le_refl _

theorem encodeFront_extended (hs : s.Laid)
    (h : isa.encodeFront (Space.system limits) redirect s = .ok (bytes, stub) s') :
    Extended s stub.toList s' := by
  rcases encodeBytes_ok (encodeFront_ok h) with ⟨-, -, rfl, rfl⟩ | ⟨-, hvia⟩
  · exact Extended.refl hs
  · exact encodeViaStub_extended hs hvia

theorem encodeFront_restored (hs : s.Laid)
    (h : isa.encodeFront (Space.system limits) redirect s = .error (.refused why) s') :
    Extended s [] s' := by
  rcases encodeFront_error h with rfl | hbytes
  · exact Extended.refl hs
  · rcases encodeBytes_error hbytes with ⟨-, -, rfl⟩ | ⟨-, hvia⟩
    · exact Extended.refl hs
    · exact encodeViaStub_refused hs hvia

end OnSpaces

end Isa

end Interpose

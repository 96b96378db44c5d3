import Interpose.Proofs.Arch.Encoding
import Interpose.Proofs.Engine.AltEntry

/-!
# What detours keep

The bytes saved by an applied detour stand for what its patch hides. Applying, retargeting and
undoing a detour keep the bytes that restoring it would give, and a detour holds its stub and its
alternate entry while it may lead to them and no longer.
-/

namespace Interpose

open Space

variable {limits : SpaceLimits} {isa : Isa} {redirect : Redirect} {source target w x : Address}
  {limit : Option Nat} {writable : Option Address} {wanted : Bool} {rel? : Option Relocator}
  {range : Option Range} {held : List Range} {why : Error} {init s s' : Space}

namespace Detour
variable {d d' : Detour} {f g : Address → Option UInt8}

/-- Where a detour has saved bytes from. -/
def patched (d : Detour) : Range := ⟨d.writeAddress, d.backup.length⟩

def Covers (d : Detour) (x : Address) : Prop := d.applied = true ∧ d.patched.Holds x

instance (d : Detour) (x : Address) : Decidable (d.Covers x) := inferInstanceAs (Decidable (_ ∧ _))

/-- The bytes as they were before an applied detour. -/
def restore (d : Detour) (f : Address → Option UInt8) (x : Address) : Option UInt8 :=
  if d.Covers x then d.backup[x.toNat - d.writeAddress.toNat]? else f x

theorem restore_of_covers (h : d.Covers x) :
    d.restore f x = d.backup[x.toNat - d.writeAddress.toNat]? := if_pos h

theorem restore_of_not (h : ¬ d.Covers x) : d.restore f x = f x := if_neg h

theorem restore_congr (h : ¬ d.Covers x → f x = g x) : d.restore f x = d.restore g x := by
  by_cases hx : d.Covers x
  · rw [restore_of_covers hx, restore_of_covers hx]
  · rw [restore_of_not hx, restore_of_not hx, h hx]

theorem restore_of_same (happlied : d'.applied = d.applied)
    (hwrite : d'.writeAddress = d.writeAddress) (hbackup : d'.backup = d.backup) :
    d'.restore f x = d.restore f x := by
  have hcov : d'.Covers x ↔ d.Covers x := by
    simp only [Covers, patched, happlied, hwrite, hbackup]
  unfold restore
  rw [hwrite, hbackup]
  exact if_congr hcov rfl rfl

theorem apply_steps {σ : Type} {sys : System σ} {t t' : σ}
    (h : apply sys isa redirect w t = .ok d t') : ∃ code stub u saved,
      isa.encodeFront sys redirect t = .ok (code, stub) u ∧
      sys.patch w code (some code.length) u = .ok saved t' ∧
      d = ⟨redirect, w, saved, stub, true⟩ := by
  obtain ⟨⟨code, stub⟩, u, hcode, h₁⟩ := Action.bind_eq_ok.mp h
  obtain ⟨saved, v, hguard, h₂⟩ := Action.bind_eq_ok.mp h₁
  obtain ⟨rfl, rfl⟩ := Action.pure_eq_ok.mp h₂
  exact ⟨code, stub, u, saved, hcode, Action.guarded_eq_ok.mp hguard, rfl⟩

theorem apply_ok (hs : init.Laid) (hc : Carries init held s)
    (h : apply (Space.system limits) isa redirect w s = .ok d s') :
    d.applied = true ∧ 0 < d.backup.length ∧ Carries init (held ++ d.stub.toList) s' ∧
      ∀ x, init.byteAt? x ≠ none → d.restore s'.byteAt? x = s.byteAt? x := by
  obtain ⟨code, stub, t, backup, hcode, hpatch, rfl⟩ := apply_steps h
  have he := Isa.encodeFront_extended hc.laid hcode
  obtain ⟨hp, hsaved⟩ := patch_ok he.laid hpatch
  obtain ⟨hlen, hbytes⟩ := hsaved rfl
  have hpos := (Isa.sizeOf?_bounds (Isa.encodeBytes_length (Isa.encodeFront_ok hcode))).1
  refine ⟨rfl, hlen ▸ hpos, (hc.trans he.toCarries).patch hp, fun x hx => ?_⟩
  rw [← he.byte_of_mapped (hc.mapped hs hx)]
  by_cases hcov : (⟨w, code.length⟩ : Range).Holds x
  · rw [restore_of_covers ⟨rfl, by simpa only [patched, hlen] using hcov⟩]
    exact hbytes x hcov
  · rw [restore_of_not fun hd => hcov (by simpa only [patched, hlen] using hd.2), ← view_byte,
      hp.view, View.put_byte_of_not hcov, view_byte]

theorem apply_refused (hs : s.Laid)
    (h : apply (Space.system limits) isa redirect w s = .error (.refused why) s') :
    Extended s [] s' := by
  rcases Action.bind_eq_error.mp h with hcode | ⟨⟨code, stub⟩, t, hcode, h₁⟩
  · exact Isa.encodeFront_restored hs hcode
  have he := Isa.encodeFront_extended hs hcode
  rcases Action.bind_eq_error.mp h₁ with hguard | ⟨_, _, -, hpure⟩
  · obtain ⟨u, hpatch, rfl⟩ := Action.guarded_eq_error.mp hguard
    rw [patch_error hpatch]
    exact Extended.releaseOption (by rwa [List.append_nil])
  · exact (Action.pure_eq_error.mp hpure).elim

theorem plan_ok (h : plan isa source target limit = .ok redirect) :
    isa.plan source target limit = .ok redirect := by
  unfold plan at h
  split at h
  · cases h
  · exact h

theorem create_ok (h : create (Space.system limits) isa source target limit writable s = .ok d s') :
    ∃ redirect, isa.plan source target limit = .ok redirect ∧
      apply (Space.system limits) isa redirect (writable.getD source) s = .ok d s' := by
  obtain ⟨redirect, t, hlift, happly⟩ := Action.bind_eq_ok.mp h
  obtain ⟨hplan, rfl⟩ := Action.lift_eq_ok.mp hlift
  exact ⟨redirect, plan_ok hplan, happly⟩

theorem create_refused (hs : s.Laid)
    (h : create (Space.system limits) isa source target limit writable s =
      .error (.refused why) s') : Extended s [] s' := by
  rcases Action.bind_eq_error.mp h with hplan | ⟨redirect, t, hplan, happly⟩
  · rw [(Action.lift_eq_error.mp hplan).2]
    exact Extended.refl hs
  · cases (Action.lift_eq_ok.mp hplan).2
    exact apply_refused hs happly

section
variable {σ : Type} {sys : System σ} {e : Failure} {t t' : σ}

theorem retarget_steps (h : d.retarget sys isa target t = .ok d' t') : d.applied = true ∧
    ∃ redirect code stub u saved v, plan isa d.redirect.source target (some d.backup.length) =
        .ok redirect ∧ isa.encodeFront sys redirect t = .ok (code, stub) u ∧
      sys.patch d.writeAddress code none u = .ok saved v ∧ t' = sys.releaseOption d.stub v ∧
      d' = { d with redirect, stub } := by
  unfold retarget at h
  cases happlied : d.applied with
  | false =>
    simp only [happlied, Bool.not_false, if_true] at h
    obtain ⟨_, _, hthrow, -⟩ := Action.bind_eq_ok.mp h
    exact (Action.throw_eq_ok.mp hthrow).elim
  | true =>
    simp only [happlied, Bool.not_true, Bool.false_eq_true, if_false] at h
    obtain ⟨redirect, t₁, hlift, h₁⟩ := Action.bind_eq_ok.mp h
    obtain ⟨hplan, rfl⟩ := Action.lift_eq_ok.mp hlift
    obtain ⟨⟨code, stub⟩, u, hcode, h₂⟩ := Action.bind_eq_ok.mp h₁
    obtain ⟨saved, v, hguard, h₃⟩ := Action.bind_eq_ok.mp h₂
    obtain ⟨_, _, hmodify, h₄⟩ := Action.bind_eq_ok.mp h₃
    obtain ⟨rfl, rfl⟩ := Action.pure_eq_ok.mp h₄
    exact ⟨rfl, redirect, code, stub, u, saved, v, hplan, hcode, Action.guarded_eq_ok.mp hguard,
      Action.modify_eq_ok.mp hmodify, by rw [← happlied]⟩

theorem retarget_fails (h : d.retarget sys isa target t = .error e t') : t' = t ∨
    ∃ redirect, isa.encodeFront sys redirect t = .error e t' ∨
      ∃ code stub u v, isa.encodeFront sys redirect t = .ok (code, stub) u ∧
        sys.patch d.writeAddress code none u = .error e v ∧ t' = sys.releaseOption stub v := by
  unfold retarget at h
  cases happlied : d.applied with
  | false =>
    simp only [happlied, Bool.not_false, if_true] at h
    rcases Action.bind_eq_error.mp h with hthrow | ⟨_, _, hthrow, -⟩
    · exact Or.inl (Action.throw_eq_error.mp hthrow).2
    · exact (Action.throw_eq_ok.mp hthrow).elim
  | true =>
    simp only [happlied, Bool.not_true, Bool.false_eq_true, if_false] at h
    rcases Action.bind_eq_error.mp h with hplan | ⟨redirect, t₁, hplan, h₁⟩
    · exact Or.inl (Action.lift_eq_error.mp hplan).2
    cases (Action.lift_eq_ok.mp hplan).2
    refine Or.inr ⟨redirect, ?_⟩
    rcases Action.bind_eq_error.mp h₁ with hcode | ⟨⟨code, stub⟩, u, hcode, h₂⟩
    · exact Or.inl hcode
    rcases Action.bind_eq_error.mp h₂ with hguard | ⟨_, _, -, h₃⟩
    · obtain ⟨v, hpatch, rfl⟩ := Action.guarded_eq_error.mp hguard
      exact Or.inr ⟨code, stub, u, v, hcode, hpatch, rfl⟩
    · rcases Action.bind_eq_error.mp h₃ with hmodify | ⟨_, _, -, hpure⟩
      · exact (Action.modify_eq_error.mp hmodify).elim
      · exact (Action.pure_eq_error.mp hpure).elim

theorem undo_steps (h : d.undo sys t = .ok d' t') : (d.applied = false ∧ d' = d ∧ t' = t) ∨
    d.applied = true ∧ ∃ saved u, sys.patch d.writeAddress d.backup none t = .ok saved u ∧
      t' = sys.releaseOption d.stub u ∧ d' = { d with applied := false, stub := none } := by
  unfold undo at h
  cases happlied : d.applied with
  | false =>
    simp only [happlied, Bool.not_false, if_true] at h
    exact Or.inl ⟨rfl, Action.pure_eq_ok.mp h⟩
  | true =>
    simp only [happlied, Bool.not_true, Bool.false_eq_true, if_false] at h
    obtain ⟨saved, u, hpatch, h₁⟩ := Action.bind_eq_ok.mp h
    obtain ⟨_, _, hmodify, h₂⟩ := Action.bind_eq_ok.mp h₁
    obtain ⟨rfl, rfl⟩ := Action.pure_eq_ok.mp h₂
    exact Or.inr ⟨rfl, saved, u, hpatch, Action.modify_eq_ok.mp hmodify, rfl⟩

theorem undo_fails (h : d.undo sys t = .error e t') :
    sys.patch d.writeAddress d.backup none t = .error e t' := by
  unfold undo at h
  cases happlied : d.applied with
  | false =>
    simp only [happlied, Bool.not_false, if_true] at h
    exact (Action.pure_eq_error.mp h).elim
  | true =>
    simp only [happlied, Bool.not_true, Bool.false_eq_true, if_false] at h
    rcases Action.bind_eq_error.mp h with hpatch | ⟨_, _, -, h₁⟩
    · exact hpatch
    · rcases Action.bind_eq_error.mp h₁ with hmodify | ⟨_, _, -, hpure⟩
      · exact (Action.modify_eq_error.mp hmodify).elim
      · exact (Action.pure_eq_error.mp hpure).elim

end

/-- A retargeted detour rewrites no more than it has saved. -/
theorem retarget_ok (hs : init.Laid) (hc : Carries init (d.stub.toList ++ held) s)
    (h : d.retarget (Space.system limits) isa target s = .ok d' s') :
    (d.applied = true ∧ d'.applied = true ∧ d'.writeAddress = d.writeAddress ∧
      d'.backup = d.backup) ∧ Carries init (d'.stub.toList ++ held) s' ∧
      ∀ x, init.byteAt? x ≠ none → ¬ d.Covers x → s'.byteAt? x = s.byteAt? x := by
  obtain ⟨happlied, redirect, code, stub, t, saved, u, hplan, hcode, hpatch, rfl, rfl⟩ :=
    retarget_steps h
  have he := Isa.encodeFront_extended hc.laid hcode
  obtain ⟨hp, -⟩ := patch_ok he.laid hpatch
  obtain ⟨-, -, hsize, hfits⟩ := Isa.plan_ok (plan_ok hplan)
  have hlen : code.length ≤ d.backup.length := by
    have hcodelen := Isa.encodeBytes_length (Isa.encodeFront_ok hcode)
    rw [hsize, Option.some.injEq] at hcodelen
    exact hcodelen ▸ hfits _ rfl
  have hu := (hc.trans he.toCarries).patch hp
  rw [List.append_assoc] at hu
  obtain ⟨hv, hsame⟩ := hu.releaseOption limits
  refine ⟨⟨happlied, happlied, rfl, rfl⟩, hv.perm List.perm_append_comm, fun x hx hcov => ?_⟩
  have hout : ¬ (⟨d.writeAddress, code.length⟩ : Range).Holds x := fun hholds =>
    hcov ⟨happlied, hholds.of_within ⟨Nat.le_refl _, Nat.add_le_add_left hlen _⟩⟩
  rw [hsame x hx, ← view_byte, hp.view, View.put_byte_of_not hout, view_byte,
    he.byte_of_mapped (hc.mapped hs hx)]

theorem retarget_refused (hs : s.Laid)
    (h : d.retarget (Space.system limits) isa target s = .error (.refused why) s') :
    Extended s [] s' := by
  rcases retarget_fails h with rfl | ⟨redirect, hcode | ⟨code, stub, t, u, hcode, hpatch, rfl⟩⟩
  · exact Extended.refl hs
  · exact Isa.encodeFront_restored hs hcode
  · rw [patch_error hpatch]
    have he := Isa.encodeFront_extended hs hcode
    exact Extended.releaseOption (by rwa [List.append_nil])

theorem undo_ok (hc : Carries init (d.stub.toList ++ held) s)
    (hidle : d.applied = false → d.stub = none)
    (h : d.undo (Space.system limits) s = .ok d' s') :
    d'.applied = false ∧ d'.stub = none ∧ Carries init held s' ∧
      ∀ x, init.byteAt? x ≠ none → s'.byteAt? x = d.restore s.byteAt? x := by
  rcases undo_steps h with ⟨happlied, rfl, rfl⟩ | ⟨happlied, saved, u, hpatch, rfl, rfl⟩
  · rw [hidle happlied] at hc
    refine ⟨happlied, hidle happlied, hc, fun x _ => ?_⟩
    rw [restore_of_not fun hcov => Bool.false_ne_true (happlied.symm.trans hcov.1)]
  · obtain ⟨hp, -⟩ := patch_ok hc.laid hpatch
    obtain ⟨hv, hsame⟩ := (hc.patch hp).releaseOption limits
    refine ⟨rfl, rfl, hv, fun x hx => ?_⟩
    rw [hsame x hx, ← view_byte, hp.view]
    by_cases hcov : d.patched.Holds x
    · rw [restore_of_covers ⟨happlied, hcov⟩, View.put_byte_of_holds hcov]
    · rw [restore_of_not fun h => hcov h.2, View.put_byte_of_not hcov, view_byte]

theorem undo_error {e : Failure} (h : d.undo (Space.system limits) s = .error e s') : s' = s :=
  patch_error (undo_fails h)

/-- What a detour has patched lies in a range that is mapped. -/
def Placed (s : Space) (d : Detour) : Prop :=
  ∃ t ∈ s.ranges, t.base.toNat + t.length < wordLimit ∧ d.patched.Within t

theorem Placed.carried (h : Placed init d) (hc : Carries init held s) : Placed s d :=
  h.imp fun _ ht => ⟨hc.mem_of_mem ht.1, ht.2⟩

theorem undo_succeeds (hs : s.Laid) (hpos : d.applied = true → 0 < d.backup.length)
    (hin : d.applied = true → Placed s d) :
    ∃ d' s', d.undo (Space.system limits) s = .ok d' s' := by
  cases happlied : d.applied with
  | false => exact ⟨d, s, by simp [undo, happlied, pure, EStateM.pure]⟩
  | true =>
    obtain ⟨t, ht, hbound, hw⟩ := hin happlied
    obtain ⟨u, hpatch⟩ := patch_within hs ht hbound (hpos happlied) hw
    refine ⟨{ d with applied := false, stub := none },
      (Space.system limits).releaseOption d.stub u, ?_⟩
    simp only [undo, happlied, Bool.not_true, Bool.false_eq_true, if_false]
    exact Action.bind_eq_ok.mpr ⟨[], u, hpatch, Action.bind_eq_ok.mpr
      ⟨(), _, Action.modify_eq_ok.mpr rfl, Action.pure_eq_ok.mpr ⟨rfl, rfl⟩⟩⟩

/-- Where a detour can be undone, dropping it does that. -/
theorem drop_of_undo {t : Space} {u : Unit} (hundo : d.undo (Space.system limits) s = .ok d' t)
    (hstub : d'.stub = none) (h : d.drop (Space.system limits) s = .ok u s') : s' = t := by
  obtain ⟨result, v, hattempt, h₁⟩ := Action.bind_eq_ok.mp h
  rcases Action.attempt_eq_ok.mp hattempt with ⟨d₁, rfl, hok⟩ | ⟨why, rfl, herr⟩
  · rw [hundo] at hok
    cases hok
    rw [Action.modify_eq_ok.mp h₁, hstub]
    rfl
  · rw [hundo] at herr
    cases herr

theorem drop_ne_refused : d.drop (Space.system limits) s ≠ .error (.refused why) s' := by
  intro h
  rcases Action.bind_eq_error.mp h with hattempt | ⟨result, t, -, hmodify⟩
  · cases (Action.attempt_eq_error.mp hattempt).1
  · cases result <;> exact Action.modify_eq_error.mp hmodify

end Detour

namespace EntryDetour
variable {d : EntryDetour}

theorem alternateFor_ok (hs : s.Laid)
    (h : alternateFor (Space.system limits) rel? wanted redirect s = .ok range s') :
    Extended s range.toList s' := by
  unfold alternateFor at h
  cases rel? with
  | none =>
    obtain ⟨rfl, rfl⟩ := Action.pure_eq_ok.mp h
    exact Extended.refl hs
  | some rel =>
    dsimp only at h
    split at h
    · obtain ⟨result, t, hattempt, hrest⟩ := Action.bind_eq_ok.mp h
      rcases Action.attempt_eq_ok.mp hattempt with ⟨memory, rfl, hok⟩ | ⟨why, rfl, herr⟩
      · obtain ⟨rfl, rfl⟩ := Action.pure_eq_ok.mp hrest
        exact Relocator.createAlternateEntry_ok hs hok
      · obtain ⟨rfl, rfl⟩ := Action.pure_eq_ok.mp hrest
        exact Relocator.createAlternateEntry_refused hs herr
    · obtain ⟨rfl, rfl⟩ := Action.pure_eq_ok.mp h
      exact Extended.refl hs

theorem alternateFor_ne_refused :
    alternateFor (Space.system limits) rel? wanted redirect s ≠ .error (.refused why) s' := by
  intro h
  unfold alternateFor at h
  cases rel? with
  | none => exact Action.pure_eq_error.mp h
  | some rel =>
    dsimp only at h
    split at h
    · rcases Action.bind_eq_error.mp h with hattempt | ⟨result, t, hattempt, hrest⟩
      · cases (Action.attempt_eq_error.mp hattempt).1
      · rcases Action.attempt_eq_ok.mp hattempt with ⟨memory, rfl, -⟩ | ⟨_, rfl, -⟩
        · exact Action.pure_eq_error.mp hrest
        · exact Action.pure_eq_error.mp hrest
    · exact Action.pure_eq_error.mp h

theorem createWith_ok (hs : init.Laid) (hc : Carries init held s)
    (h : createWith (Space.system limits) isa rel? wanted source target limit writable s =
      .ok d s') :
    d.detour.applied = true ∧ 0 < d.detour.backup.length ∧
      Carries init (held ++ (d.detour.stub.toList ++ d.alternate.toList)) s' ∧
      ∀ x, init.byteAt? x ≠ none → d.detour.restore s'.byteAt? x = s.byteAt? x := by
  obtain ⟨redirect, s₁, hplan, h₁⟩ := Action.bind_eq_ok.mp h
  obtain ⟨alternate, t, halt, h₂⟩ := Action.bind_eq_ok.mp h₁
  obtain ⟨detour, u, hguard, h₃⟩ := Action.bind_eq_ok.mp h₂
  cases (Action.lift_eq_ok.mp hplan).2
  obtain ⟨rfl, rfl⟩ := Action.pure_eq_ok.mp h₃
  have he := alternateFor_ok hc.laid halt
  obtain ⟨happlied, hpos, hv, hbytes⟩ :=
    Detour.apply_ok hs (hc.trans he.toCarries) (Action.guarded_eq_ok.mp hguard)
  refine ⟨happlied, hpos, hv.perm ?_, fun x hx => ?_⟩
  · rw [List.append_assoc]
    exact List.perm_append_comm.append_left held
  · rw [hbytes x hx, he.byte_of_mapped (hc.mapped hs hx)]

theorem createWith_refused (hs : s.Laid)
    (h : createWith (Space.system limits) isa rel? wanted source target limit writable s =
      .error (.refused why) s') : Extended s [] s' := by
  rcases Action.bind_eq_error.mp h with hplan | ⟨redirect, s₁, hplan, h₁⟩
  · rw [(Action.lift_eq_error.mp hplan).2]
    exact Extended.refl hs
  cases (Action.lift_eq_ok.mp hplan).2
  rcases Action.bind_eq_error.mp h₁ with halt | ⟨alternate, t, halt, h₂⟩
  · exact (alternateFor_ne_refused halt).elim
  have he := alternateFor_ok hs halt
  rcases Action.bind_eq_error.mp h₂ with hguard | ⟨_, _, -, hpure⟩
  · obtain ⟨u, happly, rfl⟩ := Action.guarded_eq_error.mp hguard
    exact (he.trans (Detour.apply_refused he.laid happly)).releaseOption
  · exact (Action.pure_eq_error.mp hpure).elim

end EntryDetour

end Interpose

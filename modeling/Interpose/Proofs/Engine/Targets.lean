import Interpose.Proofs.Engine.Detour
import Interpose.Proofs.Engine.Handed
import Interpose.Proofs.Engine.StubPage
import Interpose.Proofs.X86.Layout

/-!
# Call targets under a guard

Where calls are guarded, stubs, tables and alternate entries register their addresses. Over every run
of the operations that make these, failed ones included, no call target is registered before its code
is in place, and every address handed out is registered once, even in memory that is taken anew after
it was given back.
-/

namespace Interpose

open Space

variable {guard n size : Nat} {limits : SpaceLimits} {q : Request} {x y : Handed}
  {s s' t u : Space} {r memory : Range} {code saved : Bytes} {e : Failure} {z : Unit}

namespace StubPage
variable {template blank : Bytes} {page stubs : List Bytes} {offset : Nat} {premultiply : Bool}
  {table : List Address} {ranges made : List Range} {todo : List (Nat × Nat)}

theorem createSingle_hands (hg : limits.guard = some guard) (ha : s.regions.Ascending)
    (h : createSingle (Space.system limits) code s = .ok r s') :
    Hands guard s ⟨[r.base], [r]⟩ s' := by
  have hhands := System.installing_hands hg ha (Nat.le_refl code.length)
    (by simp [Space.system, hg]) (fun hpos => by simpa using hpos) (fun _ => List.nodup_singleton 0) h
  simpa using hhands

theorem createSingle_error (ha : s.regions.Ascending)
    (h : createSingle (Space.system limits) code s = .error e s') : Proceeds guard [] s s' :=
  System.installing_error ha h

theorem nodup_stubOffsets (hsize : 0 < size) : (stubOffsets size n).Nodup := by
  refine List.Nodup.map (fun i j hij => ?_) List.nodup_range
  exact Nat.eq_of_mul_eq_mul_right hsize hij

theorem createPage_hands (hg : limits.guard = some guard) (ha : s.regions.Ascending)
    (hstubs : ∀ stub ∈ stubs, stub.length = size) (hdvd : guard ∣ size)
    (h : createPage (Space.system limits) size stubs s = .ok r s') :
    Hands guard s ⟨stubSlots r.base size stubs.length, [r]⟩ s' := by
  refine System.installing_hands hg ha (Nat.le_of_eq (length_flatten hstubs))
    (by simp [Space.system, hg]) (fun hpos offset hoffset => ?_)
    (fun hpos => nodup_stubOffsets (Nat.pos_of_mul_pos_left hpos)) h
  obtain ⟨i, hi, rfl⟩ := List.mem_map.mp hoffset
  have hsize : 0 < size := Nat.pos_of_mul_pos_left hpos
  rw [length_flatten hstubs]
  exact ⟨(Nat.mul_lt_mul_right hsize).mpr (List.mem_range.mp hi), Nat.dvd_mul_left_of_dvd hdvd i⟩

theorem createPage_error (ha : s.regions.Ascending)
    (h : createPage (Space.system limits) size stubs s = .error e s') :
    Proceeds guard [] s s' := System.installing_error ha h

theorem proceeds_releaseAll (ha : s.regions.Ascending) (made : List Range) :
    Proceeds guard made s (releaseAll (Space.system limits) made s) := by
  induction made generalizing s with
  | nil => exact .refl ha
  | cons r made ih =>
    have hfirst : Proceeds guard [r] s (release r s) := proceeds_release ha r
    exact hfirst.trans (ih hfirst.ascending)

theorem length_of_mem_renumber (hclean : Clean offset blank page) (hblank : blank.length = size)
    (hfits : offset + 4 ≤ size) {first count : Nat} {stub : Bytes}
    (hstub : stub ∈ (renumber offset premultiply first count page).take count) :
    stub.length = size := by
  have hclean' : Clean offset blank (renumber offset premultiply first count page) :=
    hclean.renumber (hblank.symm ▸ hfits)
  rw [(hclean' stub (List.mem_of_mem_take hstub)).1, hblank]

theorem createPages_hands (hg : limits.guard = some guard) (hdvd : guard ∣ size)
    (hblank : blank.length = size) (hfits : offset + 4 ≤ size) (ha : s.regions.Ascending)
    (hclean : Clean offset blank page) (hcount : ∀ b ∈ todo, b.2 ≤ page.length)
    (h : createPages (Space.system limits) offset size premultiply todo page made s =
      .ok (table, ranges) s') : Hands guard s ⟨table, ranges⟩ s' := by
  induction todo generalizing page s made table ranges with
  | nil =>
    obtain ⟨hpair, rfl⟩ := Action.pure_eq_ok.mp h
    obtain ⟨rfl, rfl⟩ := Prod.mk.inj hpair
    exact .of_proceeds (.refl ha)
  | cons batch rest ih =>
    obtain ⟨first, count⟩ := batch
    obtain ⟨hfirst, hrest⟩ := List.forall_mem_cons.mp hcount
    obtain ⟨memory, t, hpage, h⟩ := Action.bind_eq_ok.mp h
    obtain ⟨⟨below, others⟩, w, hmore, h⟩ := Action.bind_eq_ok.mp h
    obtain ⟨hpair, rfl⟩ := Action.pure_eq_ok.mp h
    obtain ⟨rfl, rfl⟩ := Prod.mk.inj hpair
    have hhands := createPage_hands hg ha
      (fun _ => length_of_mem_renumber hclean hblank hfits) hdvd (Action.guarded_eq_ok.mp hpage)
    rw [List.length_take_of_le (by rwa [length_renumber])] at hhands
    exact hhands.append (ih hhands.ascending (hclean.renumber (hblank.symm ▸ hfits))
      (fun b hb => by rw [length_renumber]; exact hrest b hb) hmore)

theorem createPages_error (hg : limits.guard = some guard) (hdvd : guard ∣ size)
    (hblank : blank.length = size) (hfits : offset + 4 ≤ size) (ha : s.regions.Ascending)
    (hclean : Clean offset blank page)
    (h : createPages (Space.system limits) offset size premultiply todo page made s = .error e s') :
    Proceeds guard made s s' := by
  induction todo generalizing page s made with
  | nil => exact (Action.pure_eq_error.mp h).elim
  | cons batch rest ih =>
    obtain ⟨first, count⟩ := batch
    rcases Action.bind_eq_error.mp h with hguard | ⟨memory, t, hpage, h⟩
    · obtain ⟨u, hpage, rfl⟩ := Action.guarded_eq_error.mp hguard
      have hpage : Proceeds guard [] s u := createPage_error ha hpage
      exact hpage.trans (proceeds_releaseAll hpage.ascending made)
    · have hhands := createPage_hands hg ha
        (fun _ => length_of_mem_renumber hclean hblank hfits) hdvd (Action.guarded_eq_ok.mp hpage)
      rcases Action.bind_eq_error.mp h with hmore | ⟨_, _, -, hpure⟩
      · exact hhands.cancel
          (ih hhands.ascending (hclean.renumber (hblank.symm ▸ hfits)) hmore)
      · exact (Action.pure_eq_error.mp hpure).elim

section
variable (hg : limits.guard = some guard) (hpow : isPowerOfTwo guard = true)
include hg hpow

/-- A stub takes a multiple of what the guard requires. -/
theorem stubSize_guarded (h : stubSize limits.guard template = .ok size) :
    guard ∣ size ∧ template.length ≤ size := by
  have hpower : isPowerOfTwo (limits.guard.getD 8) = true := by rwa [hg]
  rw [stubSize_ok hpower h]
  refine ⟨?_, length_le_paddedLength hpower⟩
  rw [paddedLength, hg, Option.elim_some]
  exact Nat.dvd_mul_left ..

theorem createTable_hands (ha : s.regions.Ascending)
    (h : createTable (Space.system limits) n template offset premultiply s =
      .ok (table, ranges) s') : Hands guard s ⟨table, ranges⟩ s' := by
  by_cases hn : n = 0
  · subst hn
    obtain ⟨_, _, hlift, htable⟩ := Action.bind_eq_ok.mp h
    obtain ⟨hpair, rfl⟩ := Action.pure_eq_ok.mp htable
    cases hpair
    rw [(Action.lift_eq_ok.mp hlift).2]
    exact .of_proceeds (.refl ha)
  · obtain ⟨size, hsize, hfield, -, -, hpages⟩ := createTable_ok hn h
    obtain ⟨hdvd, hle⟩ := stubSize_guarded hg hpow hsize
    refine createPages_hands hg hdvd (length_blankStub hle) (by omega) ha clean_replicate
      (fun b hb => ?_) hpages
    rw [List.length_replicate]
    exact count_le_of_mem_batches hb

theorem createTable_error (ha : s.regions.Ascending)
    (h : createTable (Space.system limits) n template offset premultiply s = .error e s') :
    Proceeds guard [] s s' := by
  rcases createTable_fails h with rfl | ⟨size, hsize, hfield, hpages⟩
  · exact .refl ha
  · obtain ⟨hdvd, hle⟩ := stubSize_guarded hg hpow hsize
    exact createPages_error hg hdvd (length_blankStub hle) (by omega) ha clean_replicate hpages

variable {entries : List Address}

theorem fillTable_hands (ha : s.regions.Ascending)
    (h : Filling.onTable entries (fillTable (Space.system limits) template offset premultiply) s =
      .ok (table, ranges) s') : Hands guard s ⟨table, ranges⟩ s' :=
  createTable_hands hg hpow ha (fillTable_ok (Filling.onTable_ok h))

theorem fillTable_stops (ha : s.regions.Ascending)
    (h : Filling.onTable entries (fillTable (Space.system limits) template offset premultiply) s =
      .error e s') : Proceeds guard [] s s' := by
  obtain ⟨left, hfill⟩ := Filling.onTable_error h
  exact createTable_error hg hpow ha (fillTable_error hfill).1

theorem createProxy_hands {isa : Isa} {proxy : Proxy} (ha : s.regions.Ascending)
    (h : createProxy (Space.system limits) isa n s = .ok proxy s') :
    Hands guard s ⟨proxy.table, proxy.allocations⟩ s' := by
  obtain ⟨stub, -, htable⟩ := createProxy_ok h
  exact createTable_hands hg hpow ha htable

theorem createProxy_error {isa : Isa} (ha : s.regions.Ascending)
    (h : createProxy (Space.system limits) isa n s = .error e s') : Proceeds guard [] s s' := by
  rcases createProxy_fails h with rfl | ⟨stub, -, htable⟩
  · exact .refl ha
  · exact createTable_error hg hpow ha htable

end

end StubPage

namespace Relocator
variable {rel : Relocator} {a : Address} {pieces : List (rel.Piece × Address)}

/-- Code that ends in a jump is not empty. -/
def Writes (rel : Relocator) : Prop :=
  ∀ (base target origin : Address) (pieces : List (rel.Piece × Address)) (code : Bytes),
    rel.encode? base (pieces ++ [(rel.jump target, origin)]) = some code → code ≠ []

theorem writes_x86 : X86.relocator.Writes := by
  intro base target origin pieces code h
  exact X86.encodeAt?_ne_nil (List.mem_append_right _ (List.mem_singleton.mpr rfl)) h

theorem writes_of_isa {isa : Isa} (h : isa.relocator? = some rel) : rel.Writes := by
  cases isa <;> cases h
  exact writes_x86

theorem clobbered_ok {σ : Type} {sys : System σ} {v : σ}
    (h : rel.clobbered sys a n v = .ok pieces) :
    ∃ front target origin, pieces = front ++ [(rel.jump target, origin)] := by
  obtain ⟨bound, -, h⟩ := Attempt.bind_eq_ok.mp h
  obtain ⟨count, -, h⟩ := Attempt.bind_eq_ok.mp h
  split at h
  · cases h
  · obtain ⟨code, -, h⟩ := Attempt.bind_eq_ok.mp h
    obtain ⟨⟨front, total⟩, -, h⟩ := Attempt.bind_eq_ok.mp h
    cases h
    exact ⟨front, _, _, rfl⟩

theorem allocateAround_taken (ha : s.regions.Ascending)
    (h : allocateAround (Space.system limits) a q s = .ok memory s') :
    ∃ p : Request, Taken s p memory s' ∧ p.alignment = q.alignment := by
  rcases allocateAround_steps h with hnear | ⟨why, t, hrefused, halloc⟩
  · exact ⟨_, allocate_taken ha hnear, rfl⟩
  · cases allocate_refused hrefused
    exact ⟨_, allocate_taken ha halloc, rfl⟩

theorem allocateAround_error (ha : s.regions.Ascending)
    (h : allocateAround (Space.system limits) a q s = .error e s') : Proceeds guard [] s s' := by
  rcases allocateAround_fails h with ⟨-, hnear⟩ | ⟨why, t, hrefused, halloc⟩
  · exact proceeds_allocate_error ha hnear
  · cases allocate_refused hrefused
    exact proceeds_allocate_error ha halloc

theorem fill_not_installed (ht : Taken s q memory t)
    (h : rel.fill (Space.system limits) pieces memory t = .error e s') :
    Proceeds guard [] t s' := by
  rcases fill_fails h with ⟨-, -, rfl⟩ | ⟨code, -, -, hpatch | hregister⟩
  · exact .refl ht.ascending
  · rw [patch_error hpatch]
    exact .refl ht.ascending
  · exact ht.not_installed (Or.inr hregister)

theorem dvd_codeAlignment (hg : limits.guard = some guard) (hpow : isPowerOfTwo guard = true) :
    guard ∣ (Space.system limits).codeAlignment 16 := by
  show guard ∣ max (limits.guard.getD 0) 16
  rw [hg, Option.getD_some]
  rcases Nat.le_total guard 16 with hle | hle
  · rw [Nat.max_eq_right hle]
    exact powerOfTwo_dvd hpow (by decide) hle
  · rw [Nat.max_eq_left hle]

theorem createAlternateEntry_hands (hg : limits.guard = some guard)
    (hpow : isPowerOfTwo guard = true) (hrel : rel.Writes) (ha : s.regions.Ascending)
    (h : rel.createAlternateEntry (Space.system limits) a n s = .ok memory s') :
    Hands guard s ⟨[memory.base], [memory]⟩ s' := by
  obtain ⟨pieces, t, hpieces, hroom, hfill⟩ := createAlternateEntry_steps h
  obtain ⟨front, target, origin, rfl⟩ := clobbered_ok hpieces
  obtain ⟨p, ht, halign⟩ := allocateAround_taken ha hroom
  obtain ⟨code, saved, u, hcode, hlen, hpatch, hregister⟩ := fill_steps hfill
  have hpos : 0 < code.length := List.length_pos_iff.mpr (hrel _ _ _ _ _ hcode)
  obtain ⟨-, -, haligned, -⟩ := Request.accepts_eq_true.mp ht.accepted
  have hbase : guard ∣ memory.base.toNat := by
    have hdvd := Nat.dvd_of_mod_eq_zero haligned
    rw [halign] at hdvd
    exact (dvd_codeAlignment hg hpow).trans hdvd
  have hoffsets : ∀ offset ∈ [0],
      offset < code.length ∧ (memory.base.toNat + offset) % guard = 0 := by
    simpa [hpos] using Nat.mod_eq_zero_of_dvd hbase
  simpa using ht.installed hg hlen hoffsets (List.nodup_singleton 0) hpatch hregister

theorem createAlternateEntry_error (ha : s.regions.Ascending)
    (h : rel.createAlternateEntry (Space.system limits) a n s = .error e s') :
    Proceeds guard [] s s' := by
  rcases createAlternateEntry_fails h with
    ⟨-, rfl⟩ | hroom | ⟨pieces, room, t, t', hroom, hfill, rfl⟩
  · exact .refl ha
  · exact allocateAround_error ha hroom
  · obtain ⟨p, ht, -⟩ := allocateAround_taken ha hroom
    exact ht.hands.undone (fill_not_installed ht hfill)

end Relocator

section
variable {isa : Isa} {redirect : Redirect} {stub range : Option Range} {w source target : Address}
  {rel? : Option Relocator} {wanted : Bool} {limit : Option Nat} {writable : Option Address}

theorem Isa.encodeFront_hands (ha : s.regions.Ascending)
    (h : isa.encodeFront (Space.system limits) redirect s = .ok (code, stub) s') :
    Hands guard s ⟨[], stub.toList⟩ s' := by
  rcases Isa.encodeBytes_ok (Isa.encodeFront_ok h) with ⟨-, -, rfl, rfl⟩ | ⟨-, hvia⟩
  · exact .of_proceeds (.refl ha)
  · obtain ⟨r, t, saved, halloc, hpatch, -, -, rfl⟩ := Isa.encodeViaStub_ok hvia
    have ht := allocate_taken ha halloc
    exact ht.hands.append (.of_proceeds (proceeds_patch ht.ascending hpatch))

theorem Isa.encodeFront_stopped (ha : s.regions.Ascending)
    (h : isa.encodeFront (Space.system limits) redirect s = .error e s') :
    Proceeds guard [] s s' := by
  rcases Isa.encodeFront_error h with rfl | hbytes
  · exact .refl ha
  rcases Isa.encodeBytes_error hbytes with ⟨-, -, rfl⟩ | ⟨-, hvia⟩
  · exact .refl ha
  rcases Isa.encodeViaStub_error hvia with halloc | ⟨r, t, halloc, u, rfl, hrest⟩
  · exact proceeds_allocate_error ha halloc
  have ht := allocate_taken ha halloc
  rcases hrest with hpatch | ⟨-, saved, hpatch⟩
  · rw [patch_error hpatch]
    exact ht.hands.undone (.refl ht.ascending)
  · exact ht.hands.undone (proceeds_patch ht.ascending hpatch)

theorem Detour.apply_hands {d : Detour} (ha : s.regions.Ascending)
    (h : Detour.apply (Space.system limits) isa redirect w s = .ok d s') :
    Hands guard s ⟨[], d.stub.toList⟩ s' := by
  obtain ⟨code, stub, t, backup, hcode, hpatch, rfl⟩ := Detour.apply_steps h
  have hstub : Hands guard s ⟨[], stub.toList⟩ t := Isa.encodeFront_hands ha hcode
  simpa [Handed.append] using hstub.append (.of_proceeds (proceeds_patch hstub.ascending hpatch))

theorem Detour.apply_error (ha : s.regions.Ascending)
    (h : Detour.apply (Space.system limits) isa redirect w s = .error e s') :
    Proceeds guard [] s s' := by
  rcases Action.bind_eq_error.mp h with hcode | ⟨⟨code, stub⟩, t, hcode, h₁⟩
  · exact Isa.encodeFront_stopped ha hcode
  have hstub : Hands guard s ⟨[], stub.toList⟩ t := Isa.encodeFront_hands ha hcode
  rcases Action.bind_eq_error.mp h₁ with hguard | ⟨_, _, -, hpure⟩
  · obtain ⟨u, hpatch, rfl⟩ := Action.guarded_eq_error.mp hguard
    rw [patch_error hpatch]
    exact hstub.cancel (proceeds_releaseOption hstub.ascending stub)
  · exact (Action.pure_eq_error.mp hpure).elim

namespace EntryDetour

theorem alternateFor_hands (hg : limits.guard = some guard) (hpow : isPowerOfTwo guard = true)
    (hrel : ∀ rel, rel? = some rel → rel.Writes) (ha : s.regions.Ascending)
    (h : alternateFor (Space.system limits) rel? wanted redirect s = .ok range s') :
    Hands guard s ⟨range.toList.map Range.base, range.toList⟩ s' := by
  unfold alternateFor at h
  cases rel? with
  | none =>
    obtain ⟨rfl, rfl⟩ := Action.pure_eq_ok.mp h
    exact .of_proceeds (.refl ha)
  | some rel =>
    dsimp only at h
    split at h
    · obtain ⟨result, t, hattempt, hrest⟩ := Action.bind_eq_ok.mp h
      rcases Action.attempt_eq_ok.mp hattempt with ⟨memory, rfl, hok⟩ | ⟨why, rfl, herr⟩
      · obtain ⟨rfl, rfl⟩ := Action.pure_eq_ok.mp hrest
        exact Relocator.createAlternateEntry_hands hg hpow (hrel rel rfl) ha hok
      · obtain ⟨rfl, rfl⟩ := Action.pure_eq_ok.mp hrest
        exact .of_proceeds (Relocator.createAlternateEntry_error ha herr)
    · obtain ⟨rfl, rfl⟩ := Action.pure_eq_ok.mp h
      exact .of_proceeds (.refl ha)

theorem alternateFor_error (ha : s.regions.Ascending)
    (h : alternateFor (Space.system limits) rel? wanted redirect s = .error e s') :
    Proceeds guard [] s s' := by
  unfold alternateFor at h
  cases rel? with
  | none => exact (Action.pure_eq_error.mp h).elim
  | some rel =>
    dsimp only at h
    split at h
    · rcases Action.bind_eq_error.mp h with hattempt | ⟨result, t, hattempt, hrest⟩
      · exact Relocator.createAlternateEntry_error ha (Action.attempt_eq_error.mp hattempt).2
      · cases result <;> exact (Action.pure_eq_error.mp hrest).elim
    · exact (Action.pure_eq_error.mp h).elim

/-- What a detour with an alternate entry hands out. -/
def handed (d : EntryDetour) : Handed :=
  ⟨d.alternate.toList.map Range.base, d.alternate.toList ++ d.detour.stub.toList⟩

theorem createWith_hands {d : EntryDetour} (hg : limits.guard = some guard)
    (hpow : isPowerOfTwo guard = true) (hrel : ∀ rel, rel? = some rel → rel.Writes)
    (ha : s.regions.Ascending)
    (h : createWith (Space.system limits) isa rel? wanted source target limit writable s =
      .ok d s') : Hands guard s d.handed s' := by
  obtain ⟨redirect, s₁, hplan, h₁⟩ := Action.bind_eq_ok.mp h
  obtain ⟨alternate, t, halt, h₂⟩ := Action.bind_eq_ok.mp h₁
  obtain ⟨detour, u, hguard, h₃⟩ := Action.bind_eq_ok.mp h₂
  cases (Action.lift_eq_ok.mp hplan).2
  obtain ⟨rfl, rfl⟩ := Action.pure_eq_ok.mp h₃
  have hfirst := alternateFor_hands hg hpow hrel ha halt
  have hsecond : Hands guard t ⟨[], detour.stub.toList⟩ s' :=
    Detour.apply_hands hfirst.ascending (Action.guarded_eq_ok.mp hguard)
  simpa [Handed.append, handed] using hfirst.append hsecond

theorem createWith_error (hg : limits.guard = some guard) (hpow : isPowerOfTwo guard = true)
    (hrel : ∀ rel, rel? = some rel → rel.Writes) (ha : s.regions.Ascending)
    (h : createWith (Space.system limits) isa rel? wanted source target limit writable s =
      .error e s') : Proceeds guard [] s s' := by
  rcases Action.bind_eq_error.mp h with hplan | ⟨redirect, s₁, hplan, h₁⟩
  · rw [(Action.lift_eq_error.mp hplan).2]
    exact .refl ha
  cases (Action.lift_eq_ok.mp hplan).2
  rcases Action.bind_eq_error.mp h₁ with halt | ⟨alternate, t, halt, h₂⟩
  · exact alternateFor_error ha halt
  have hfirst := alternateFor_hands hg hpow hrel ha halt
  rcases Action.bind_eq_error.mp h₂ with hguard | ⟨_, _, -, hpure⟩
  · obtain ⟨u, happly, rfl⟩ := Action.guarded_eq_error.mp hguard
    have hstopped : Proceeds guard [] t u := Detour.apply_error hfirst.ascending happly
    exact hfirst.cancel
      (hstopped.trans (proceeds_releaseOption hstopped.ascending alternate))
  · exact (Action.pure_eq_error.mp hpure).elim

end EntryDetour

end

namespace CallTargets

inductive Op where
  | table (entries : List Address) (template : Bytes) (offset : Nat) (premultiply : Bool)
  | proxy (isa : Isa) (slots : Nat)
  | single (code : Bytes)
  | detour (isa : Isa) (wanted : Bool) (source target : Address) (limit : Option Nat)
    (writable : Option Address)
  deriving DecidableEq, Repr

section
variable (relocators : Isa → Option Relocator) (limits : SpaceLimits)

/-- What an operation hands out; a table of the caller is handed out as it is left. -/
def Op.run : Op → Action Space Handed
  | table entries template offset premultiply => do
    let (entries, owned) ← StubPage.Filling.onTable entries
      (StubPage.fillTable (Space.system limits) template offset premultiply)
    pure ⟨entries, owned⟩
  | proxy isa slots => do
    let made ← StubPage.createProxy (Space.system limits) isa slots
    pure ⟨made.table, made.allocations⟩
  | single code => do
    let memory ← StubPage.createSingle (Space.system limits) code
    pure ⟨[memory.base], [memory]⟩
  | detour isa wanted source target limit writable => do
    let made ← EntryDetour.createWith (Space.system limits) isa (relocators isa) wanted source
      target limit writable
    pure made.handed

/-- Between the operations, allocations are given back and bytes are written, as they are when a
detour is undone. -/
inductive Move where
  | op (o : Op)
  | drop (r : Range)
  | patch (a : Address) (bytes : Bytes) (room : Option Nat)
  deriving DecidableEq, Repr

/-- What a move makes of a space and of what was handed out in it. Only what is owned is given
back; an operation that fails hands out nothing, and leaves whatever space it leaves. -/
def Move.step (m : Move) (now : Space × Handed) : Option (Space × Handed) :=
  match m with
  | op o =>
    match o.run relocators limits now.1 with
    | .ok y s' => some (s', now.2.append y)
    | .error _ s' => some (s', now.2)
  | drop r => if r ∈ now.2.owned then some (release r now.1, now.2.drop r) else none
  | patch a bytes room =>
    match Space.patch a bytes room now.1 with
    | .ok _ s' => some (s', now.2)
    | .error _ s' => some (s', now.2)

def run (moves : List Move) (now : Space × Handed) : Option (Space × Handed) :=
  moves.foldlM (fun now m => m.step relocators limits now) now

end

section
variable {relocators : Isa → Option Relocator} {init : Space} {o : Op} {m : Move}
  {moves : List Move}
variable (hrel : ∀ isa rel, relocators isa = some rel → rel.Writes)
  (hg : limits.guard = some guard) (hpow : isPowerOfTwo guard = true)
include hrel hg hpow

theorem Op.run_hands (ha : s.regions.Ascending) (h : o.run relocators limits s = .ok y s') :
    Hands guard s y s' := by
  cases o with
  | table entries template offset premultiply =>
    obtain ⟨⟨table, ranges⟩, t, htable, h⟩ := Action.bind_eq_ok.mp h
    obtain ⟨rfl, rfl⟩ := Action.pure_eq_ok.mp h
    exact StubPage.fillTable_hands hg hpow ha htable
  | proxy isa slots =>
    obtain ⟨made, t, hproxy, h⟩ := Action.bind_eq_ok.mp h
    obtain ⟨rfl, rfl⟩ := Action.pure_eq_ok.mp h
    exact StubPage.createProxy_hands hg hpow ha hproxy
  | single code =>
    obtain ⟨memory, t, hsingle, h⟩ := Action.bind_eq_ok.mp h
    obtain ⟨rfl, rfl⟩ := Action.pure_eq_ok.mp h
    exact StubPage.createSingle_hands hg ha hsingle
  | detour isa wanted source target limit writable =>
    obtain ⟨made, t, hdetour, h⟩ := Action.bind_eq_ok.mp h
    obtain ⟨rfl, rfl⟩ := Action.pure_eq_ok.mp h
    exact EntryDetour.createWith_hands hg hpow (hrel isa) ha hdetour

theorem Op.run_error (ha : s.regions.Ascending) (h : o.run relocators limits s = .error e s') :
    Proceeds guard [] s s' := by
  cases o with
  | table entries template offset premultiply =>
    rcases Action.bind_eq_error.mp h with htable | ⟨_, _, -, hpure⟩
    · exact StubPage.fillTable_stops hg hpow ha htable
    · exact (Action.pure_eq_error.mp hpure).elim
  | proxy isa slots =>
    rcases Action.bind_eq_error.mp h with hproxy | ⟨_, _, -, hpure⟩
    · exact StubPage.createProxy_error hg hpow ha hproxy
    · exact (Action.pure_eq_error.mp hpure).elim
  | single code =>
    rcases Action.bind_eq_error.mp h with hsingle | ⟨_, _, -, hpure⟩
    · exact StubPage.createSingle_error ha hsingle
    · exact (Action.pure_eq_error.mp hpure).elim
  | detour isa wanted source target limit writable =>
    rcases Action.bind_eq_error.mp h with hdetour | ⟨_, _, -, hpure⟩
    · exact EntryDetour.createWith_error hg hpow (hrel isa) ha hdetour
    · exact (Action.pure_eq_error.mp hpure).elim

theorem Move.step_hands (h : Hands guard init x s)
    (hm : m.step relocators limits (s, x) = some (s', y)) : Hands guard init y s' := by
  have hproceed : Proceeds guard [] s s' → Hands guard init x s' := by
    intro hp
    simpa [Handed.append] using h.append (.of_proceeds hp)
  cases m with
  | op o =>
    unfold step at hm
    dsimp only at hm
    split at hm <;> cases hm
    · exact h.append (o.run_hands hrel hg hpow h.ascending ‹_›)
    · exact hproceed (o.run_error hrel hg hpow h.ascending ‹_›)
  | drop r =>
    unfold step at hm
    dsimp only at hm
    split at hm <;> cases hm
    exact h.drop ‹_›
  | patch a bytes room =>
    unfold step at hm
    dsimp only at hm
    split at hm <;> cases hm
    · exact hproceed (proceeds_patch h.ascending ‹_›)
    · rename_i hpatch
      rwa [patch_error hpatch]

theorem run_hands (h : Hands guard init x s)
    (hrun : run relocators limits moves (s, x) = some (s', y)) : Hands guard init y s' := by
  induction moves generalizing s x with
  | nil =>
    cases hrun
    exact h
  | cons m moves ih =>
    obtain ⟨⟨t, z⟩, hstep, hrest⟩ := Option.bind_eq_some_iff.mp hrun
    exact ih (m.step_hands hrel hg hpow h hstep) hrest

/-- In the log of any run, call targets are registered at places written since their memory was last
allocated, and aligned for the guard; every address handed out and not given back has been
registered once since its memory was allocated. -/
theorem run_registers (hinit : init.regions.Ascending)
    (h : run relocators limits moves (init, {}) = some (s, x)) :
    ∃ new, s.events = init.events ++ new ∧ Log.Sound guard new ∧
      ∀ a ∈ x.entries, ∃ r ∈ x.owned, r.Holds a ∧ Log.Registered s.events r a := by
  have hhands := run_hands hrel hg hpow (.of_proceeds (.refl hinit)) h
  obtain ⟨new, hnew, hsound, -⟩ := hhands.log
  exact ⟨new, hnew, hsound, hhands.entered⟩

omit hrel hg hpow in
/-- Two pages of stubs of which the first is given back, a single stub, an alternate entry, and two
pages of which the second is refused. -/
theorem run_registers_refused :
    let limits : SpaceLimits := { maxAllocation := 64, guard := some 16, allocationLimit := some 6 }
    let template : Bytes := [0x48, 0x8B, 0x49, 0x08, 0x48, 0x8B, 0x01, 0xFF, 0xA0, 0, 0, 0, 0]
    let init : Space := { regions := [(0x1000, List.replicate 32 0x90)] }
    let fill : Op := .table [1, 2, 3, 4, 5, 6] template 9 true
    ∃ s x, run Isa.relocator? limits [.op fill, .drop ⟨0x70000000, 64⟩, .op (.single [0xC3]),
        .op (.detour .x86_64 true 0x1000 0x7FFF00000000 (some 8) none), .op fill] (init, {}) =
          some (s, x) ∧
      x.entries.length = 4 ∧ s.freeCount = 2 ∧
      ∃ new, s.events = init.events ++ new ∧ Log.Sound 16 new ∧
        ∀ a ∈ x.entries, ∃ r ∈ x.owned, r.Holds a ∧ Log.Registered s.events r a := by
  intro limits template init fill
  have hrun : ∃ now, run Isa.relocator? limits [.op fill, .drop ⟨0x70000000, 64⟩,
      .op (.single [0xC3]), .op (.detour .x86_64 true 0x1000 0x7FFF00000000 (some 8) none),
      .op fill] (init, {}) = some now ∧ now.2.entries.length = 4 ∧ now.1.freeCount = 2 := by
    decide +kernel
  obtain ⟨⟨s, x⟩, hrun, hentries, hfreed⟩ := hrun
  have hrel : ∀ isa rel, Isa.relocator? isa = some rel → rel.Writes :=
    fun _ _ => Relocator.writes_of_isa
  have hinit : init.regions.Ascending := List.pairwise_singleton _ _
  exact ⟨s, x, hrun, hentries, hfreed, run_registers hrel rfl (by decide) hinit hrun⟩

end

end CallTargets

end Interpose

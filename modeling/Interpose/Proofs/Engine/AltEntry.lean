import Interpose.Proofs.Memory.Extension

/-!
# What alternate entries hold

An alternate entry holds the one allocation that the moved instructions were written to. Whatever
the relocator makes of the code, a refused alternate entry has given back what it took.
-/

namespace Interpose

open Space

variable {rel : Relocator} {limits : SpaceLimits} {s s' t : Space} {memory : Range} {a : Address}
  {n : Nat} {q : Request} {pieces : List (rel.Piece × Address)} {offsets : List Nat} {why : Error}
  {e : Failure} {u : Unit}

theorem System.registerGuarded_view
    (hr : (Space.system limits).registerGuarded memory offsets t = .ok u s') :
    s'.ranges = t.ranges ∧ s'.view = t.view := by
  unfold System.registerGuarded at hr
  split at hr
  · exact registerTargets_ok hr
  · obtain ⟨-, rfl⟩ := Action.pure_eq_ok.mp hr
    exact ⟨rfl, rfl⟩

theorem System.registerGuarded_regions
    (hr : (Space.system limits).registerGuarded memory offsets t = .ok u s') :
    s'.regions = t.regions := by
  unfold System.registerGuarded at hr
  split at hr
  · change Space.registerTargets memory offsets t = .ok u s' at hr
    unfold Space.registerTargets at hr
    split at hr <;> cases hr
    rfl
  · rw [(Action.pure_eq_ok.mp hr).2]

theorem System.registerGuarded_ok (h : Extended s [memory] t)
    (hr : (Space.system limits).registerGuarded memory offsets t = .ok u s') :
    Extended s [memory] s' := by
  obtain ⟨hranges, hview⟩ := System.registerGuarded_view hr
  exact h.congr hranges hview

theorem System.registerGuarded_error
    (hr : (Space.system limits).registerGuarded memory offsets t = .error e s') : s' = t := by
  unfold System.registerGuarded at hr
  split at hr
  · exact registerTargets_error hr
  · exact (Action.pure_eq_error.mp hr).elim

namespace Relocator

section
variable {σ : Type} {sys : System σ} {v w : σ}

theorem fill_steps (h : rel.fill sys pieces memory v = .ok u w) :
    ∃ code saved x, rel.encode? memory.base pieces = some code ∧ code.length ≤ memory.length ∧
      sys.patch memory.base code none v = .ok saved x ∧
      sys.registerGuarded memory [0] x = .ok u w := by
  unfold fill at h
  cases hcode : rel.encode? memory.base pieces with
  | none =>
    rw [hcode] at h
    exact (Action.throw_eq_ok.mp h).elim
  | some code =>
    rw [hcode] at h
    dsimp only at h
    split at h
    · obtain ⟨_, _, hthrow, -⟩ := Action.bind_eq_ok.mp h
      exact (Action.throw_eq_ok.mp hthrow).elim
    · obtain ⟨saved, x, hpatch, hregister⟩ := Action.bind_eq_ok.mp h
      exact ⟨code, saved, x, rfl, by omega, hpatch, hregister⟩

/-- Either nothing was done to the memory, or the system did not do what it was asked for. -/
theorem fill_fails (h : rel.fill sys pieces memory v = .error e w) :
    (∃ why, e = .refused why ∧ w = v) ∨ ∃ code, rel.encode? memory.base pieces = some code ∧
      code.length ≤ memory.length ∧ (sys.patch memory.base code none v = .error e w ∨
        ∃ saved x, sys.patch memory.base code none v = .ok saved x ∧
          sys.registerGuarded memory [0] x = .error e w) := by
  unfold fill at h
  cases hcode : rel.encode? memory.base pieces with
  | none =>
    rw [hcode] at h
    exact Or.inl ⟨_, Action.throw_eq_error.mp h⟩
  | some code =>
    rw [hcode] at h
    dsimp only at h
    split at h
    · rcases Action.bind_eq_error.mp h with hthrow | ⟨_, _, hthrow, -⟩
      · exact Or.inl ⟨_, Action.throw_eq_error.mp hthrow⟩
      · exact (Action.throw_eq_ok.mp hthrow).elim
    · exact Or.inr ⟨code, rfl, by omega, Action.bind_eq_error.mp h⟩

theorem allocateAround_steps (h : allocateAround sys a q v = .ok memory w) :
    sys.allocate (q.near a Redirect.nearReach) v = .ok memory w ∨
      ∃ why x, sys.allocate (q.near a Redirect.nearReach) v = .error (.refused why) x ∧
        sys.allocate q x = .ok memory w := by
  obtain ⟨result, x, hnear, h⟩ := Action.bind_eq_ok.mp h
  rcases Action.attempt_eq_ok.mp hnear with ⟨r, rfl, halloc⟩ | ⟨why, rfl, halloc⟩
  · obtain ⟨rfl, rfl⟩ := Action.pure_eq_ok.mp h
    exact Or.inl halloc
  · exact Or.inr ⟨why, x, halloc, h⟩

theorem allocateAround_fails (h : allocateAround sys a q v = .error e w) :
    (e = .fault ∧ sys.allocate (q.near a Redirect.nearReach) v = .error .fault w) ∨
      ∃ why x, sys.allocate (q.near a Redirect.nearReach) v = .error (.refused why) x ∧
        sys.allocate q x = .error e w := by
  rcases Action.bind_eq_error.mp h with hnear | ⟨result, x, hnear, hrest⟩
  · exact Or.inl (Action.attempt_eq_error.mp hnear)
  · rcases Action.attempt_eq_ok.mp hnear with ⟨r, rfl, -⟩ | ⟨why, rfl, halloc⟩
    · exact (Action.pure_eq_error.mp hrest).elim
    · exact Or.inr ⟨why, x, halloc, hrest⟩

def entryRequest (sys : System σ) (n : Nat) : Request :=
  { size := capacity n, alignment := sys.codeAlignment 16, executable := true }

theorem createAlternateEntry_steps (h : rel.createAlternateEntry sys a n v = .ok memory w) :
    ∃ pieces x, rel.clobbered sys a n v = .ok pieces ∧
      allocateAround sys a (entryRequest sys n) v = .ok memory x ∧
      rel.fill sys pieces memory x = .ok () w := by
  obtain ⟨now, _, hget, h₁⟩ := Action.bind_eq_ok.mp h
  obtain ⟨pieces, _, hlift, h₂⟩ := Action.bind_eq_ok.mp h₁
  obtain ⟨room, x, hroom, h₃⟩ := Action.bind_eq_ok.mp h₂
  obtain ⟨_, _, hfill, h₄⟩ := Action.bind_eq_ok.mp h₃
  obtain ⟨rfl, rfl⟩ := Action.get_eq_ok.mp hget
  obtain ⟨hpieces, rfl⟩ := Action.lift_eq_ok.mp hlift
  obtain ⟨rfl, rfl⟩ := Action.pure_eq_ok.mp h₄
  exact ⟨pieces, x, hpieces, hroom, Action.guarded_eq_ok.mp hfill⟩

/-- Memory that was allocated is given back when it cannot be filled. -/
theorem createAlternateEntry_fails (h : rel.createAlternateEntry sys a n v = .error e w) :
    (rel.clobbered sys a n v = .error e ∧ w = v) ∨
      allocateAround sys a (entryRequest sys n) v = .error e w ∨
      ∃ pieces room x y, allocateAround sys a (entryRequest sys n) v = .ok room x ∧
        rel.fill sys pieces room x = .error e y ∧ w = sys.release room y := by
  rcases Action.bind_eq_error.mp h with hget | ⟨now, _, hget, h₁⟩
  · exact (Action.get_eq_error.mp hget).elim
  obtain ⟨rfl, rfl⟩ := Action.get_eq_ok.mp hget
  rcases Action.bind_eq_error.mp h₁ with hlift | ⟨pieces, _, hlift, h₂⟩
  · exact Or.inl (Action.lift_eq_error.mp hlift)
  obtain ⟨-, rfl⟩ := Action.lift_eq_ok.mp hlift
  rcases Action.bind_eq_error.mp h₂ with hroom | ⟨room, x, hroom, h₃⟩
  · exact Or.inr (Or.inl hroom)
  rcases Action.bind_eq_error.mp h₃ with hfill | ⟨_, _, -, hpure⟩
  · obtain ⟨y, hfail, rfl⟩ := Action.guarded_eq_error.mp hfill
    exact Or.inr (Or.inr ⟨pieces, room, x, y, hroom, hfail, rfl⟩)
  · exact (Action.pure_eq_error.mp hpure).elim

end

theorem fill_patched (h : Extended s [memory] t) {code saved : Bytes}
    (hlen : code.length ≤ memory.length)
    (hpatch : (Space.system limits).patch memory.base code none t = .ok saved s') :
    Extended s [memory] s' := by
  obtain ⟨hp, -⟩ := patch_ok h.laid hpatch
  exact h.patch hp List.mem_cons_self ⟨Nat.le_refl _, Nat.add_le_add_left hlen _⟩

theorem fill_ok (h : Extended s [memory] t)
    (hf : rel.fill (Space.system limits) pieces memory t = .ok u s') : Extended s [memory] s' := by
  obtain ⟨code, saved, x, -, hlen, hpatch, hregister⟩ := fill_steps hf
  exact System.registerGuarded_ok (fill_patched h hlen hpatch) hregister

theorem fill_error (h : Extended s [memory] t)
    (hf : rel.fill (Space.system limits) pieces memory t = .error e s') :
    Extended s [memory] s' := by
  rcases fill_fails hf with ⟨-, -, rfl⟩ | ⟨code, -, hlen, hpatch | ⟨saved, x, hpatch, hregister⟩⟩
  · exact h
  · rw [patch_error hpatch]
    exact h
  · rw [System.registerGuarded_error hregister]
    exact fill_patched h hlen hpatch

theorem allocateAround_ok (hs : s.Laid)
    (h : allocateAround (Space.system limits) a q s = .ok memory s') : Extended s [memory] s' := by
  rcases allocateAround_steps h with hnear | ⟨why, t, hrefused, halloc⟩
  · exact (allocate_ok hs hnear).1.extended
  · cases allocate_refused hrefused
    exact (allocate_ok hs halloc).1.extended

theorem allocateAround_refused
    (h : allocateAround (Space.system limits) a q s = .error (.refused why) s') : s' = s := by
  rcases allocateAround_fails h with ⟨hfault, -⟩ | ⟨_, t, hrefused, halloc⟩
  · cases hfault
  · cases allocate_refused hrefused
    exact allocate_refused halloc

theorem createAlternateEntry_ok (hs : s.Laid)
    (h : rel.createAlternateEntry (Space.system limits) a n s = .ok memory s') :
    Extended s [memory] s' := by
  obtain ⟨pieces, t, -, hroom, hfill⟩ := createAlternateEntry_steps h
  exact fill_ok (allocateAround_ok hs hroom) hfill

theorem createAlternateEntry_refused (hs : s.Laid)
    (h : rel.createAlternateEntry (Space.system limits) a n s = .error (.refused why) s') :
    Extended s [] s' := by
  rcases createAlternateEntry_fails h with
    ⟨-, rfl⟩ | hroom | ⟨pieces, room, t, t', hroom, hfill, rfl⟩
  · exact Extended.refl hs
  · rw [allocateAround_refused hroom]
    exact Extended.refl hs
  · exact (fill_error (allocateAround_ok hs hroom) hfill).release

end Relocator

end Interpose

import Interpose.Proofs.Engine.Film
import Interpose.Proofs.Engine.Standing

/-!
# What retargeting and undoing go through

Up to the patch that rewrites its code a detour stands at every moment, and from then on its
successor does: the new stub is there before that patch, and the old one is given back after it.
What is undone has its saved bytes back before its stub is given back. A detour beside it stands all
the while.
-/

namespace Interpose

open Space

section
variable {σ α β : Type}

def Film.last : EStateM.Result Failure (Film σ) α → Film σ
  | .ok _ f | .error _ f => f

/-- A film goes on with states that satisfy a property, and ends in one. -/
def Film.Adds (f : Film σ) (p : σ → Prop) (f' : Film σ) : Prop :=
  p f'.now ∧ ∃ taken, f'.seen = f.seen ++ taken ∧ ∀ m ∈ taken, p m

def Action.Shows (y : Action (Film σ) α) (f : Film σ) (p : σ → Prop) : Prop :=
  f.Adds p (Film.last (y f))

namespace Film
variable {sys : System σ} {f f' f'' : Film σ} {range : Option Range} {p q : σ → Prop} {s : σ}

theorem adds_self (h : p f.now) : f.Adds p f := ⟨h, [], (List.append_nil _).symm, nofun⟩

theorem adds_next (h : p s) : f.Adds p (f.next s) := ⟨h, [s], rfl, by simpa using h⟩

theorem Adds.mono (h : f.Adds p f') (hpq : ∀ m, p m → q m) : f.Adds q f' := by
  obtain ⟨hnow, taken, hseen, hall⟩ := h
  exact ⟨hpq _ hnow, taken, hseen, fun m hm => hpq m (hall m hm)⟩

theorem Adds.trans (h : f.Adds p f') (h' : f'.Adds p f'') : f.Adds p f'' := by
  obtain ⟨-, taken, hseen, hall⟩ := h
  obtain ⟨hnow, more, hseen', hall'⟩ := h'
  refine ⟨hnow, taken ++ more, ?_, fun m hm => (List.mem_append.mp hm).elim (hall m) (hall' m)⟩
  rw [hseen', hseen, List.append_assoc]

theorem Adds.release (h : f.Adds p f') (hr : ∀ r ∈ range, p (sys.release r f'.now)) :
    f.Adds p (sys.filmed.releaseOption range f') := by
  cases range with
  | none => exact h
  | some r => exact h.trans (adds_next (hr r rfl))

end Film

namespace Action
variable {x : Action σ α} {y : Action (Film σ) α} {g : α → Action (Film σ) β} {f : Film σ}
  {p q : σ → Prop} {a : α} {e : Failure}

theorem shows_pure (h : p f.now) : Shows (pure a) f p := Film.adds_self h

theorem shows_throw (h : p f.now) : Shows (throw e : Action (Film σ) α) f p := Film.adds_self h

theorem shows_lift {attempt : Attempt α} (h : p f.now) : Shows (Attempt.lift attempt) f p := by
  unfold Shows Attempt.lift
  cases attempt <;> exact Film.adds_self h

theorem shows_filmed (hok : ∀ a s, x f.now = .ok a s → p s)
    (herror : ∀ e s, x f.now = .error e s → p s) : Shows x.filmed f p := by
  unfold Shows filmed
  cases hx : x f.now with
  | ok a s => exact Film.adds_next (hok a s hx)
  | error e s => exact Film.adds_next (herror e s hx)

theorem Shows.bind (hy : y.Shows f p) (hg : ∀ a f', y f = .ok a f' → p f'.now → (g a).Shows f' p) :
    Shows (y >>= g) f p := by
  unfold Shows at hy ⊢
  simp only [Bind.bind, EStateM.bind]
  cases hres : y f with
  | ok a f' =>
    rw [hres] at hy
    exact hy.trans (hg a f' hres hy.1)
  | error e f' =>
    rw [hres] at hy
    exact hy

theorem Shows.guarded {cleanup : σ → σ} (hy : y.Shows f p) (hpq : ∀ m, p m → q m)
    (hclean : ∀ m, p m → q (cleanup m)) :
    Shows (y.guarded fun f => f.next (cleanup f.now)) f q := by
  unfold Shows Action.guarded at *
  cases hres : y f with
  | ok a f' =>
    rw [hres] at hy
    exact hy.mono hpq
  | error e f' =>
    rw [hres] at hy
    exact (hy.mono hpq).trans (Film.adds_next (hclean _ hy.1))

end Action
end

variable {limits : SpaceLimits} {isa : Isa} {redirect : Redirect} {source target : Address}
  {f f' : Film Space} {e : Failure} {s : Space}

/-- Nothing has changed but for memory taken. -/
def Space.Grown (s m : Space) : Prop := ∃ more, Extended s more m

theorem Space.Grown.refl (hs : s.Laid) : s.Grown s := ⟨[], .refl hs⟩

namespace Isa

theorem shows_encodeViaStub (hs : f.now.Laid) :
    (encodeViaStub (Space.system limits).filmed source target).Shows f f.now.Grown := by
  refine Action.Shows.bind (Action.shows_filmed ?_ ?_) fun r f' hres _ => ?_
  · exact fun r t halloc => ⟨_, (allocate_ok hs halloc).1.extended⟩
  · intro e t halloc
    rcases allocate_error hs halloc with rfl | ⟨r, ha⟩
    · exact .refl hs
    · exact ⟨_, ha.extended⟩
  obtain ⟨t, halloc, rfl⟩ := Action.filmed_ok hres
  obtain ⟨ha, -⟩ := allocate_ok hs halloc
  have hfill : Action.Shows (do
      let _ ← (Space.system limits).filmed.patch r.base (Redirect.abs64Bytes target) none
      let gap := Redirect.rel32Gap source r.base
      if fits32 gap then pure (Redirect.rel32Bytes gap, some r)
      else throw (.refused (.allocation 14 16 .stubOutOfReach))) (f.next t)
      (Extended f.now [r]) := by
    refine Action.Shows.bind (Action.shows_filmed ?_ ?_) fun _ f' _ hext => ?_
    · intro saved u hpatch
      refine ha.extended.patch (patch_ok ha.laid hpatch).1 List.mem_cons_self ⟨Nat.le_refl _, ?_⟩
      simp only [length_abs64Bytes, ha.length, stubRequest, Request.near]
      exact Nat.le_refl _
    · intro e u hpatch
      rw [patch_error hpatch]
      exact ha.extended
    · dsimp only
      split
      · exact Action.shows_pure hext
      · exact Action.shows_throw hext
  exact hfill.guarded (fun _ hm => ⟨_, hm⟩) fun _ hm => ⟨_, hm.release⟩

theorem shows_encodeFront (hs : f.now.Laid) :
    (isa.encodeFront (Space.system limits).filmed redirect).Shows f f.now.Grown := by
  have hbytes : (isa.encodeBytes (Space.system limits).filmed redirect).Shows f f.now.Grown := by
    unfold encodeBytes
    split
    · exact shows_encodeViaStub hs
    · exact (Action.shows_lift (.refl hs)).bind fun _ _ _ hm => Action.shows_pure hm
  refine Action.Shows.bind (Action.Shows.bind ?_ fun _ _ _ hm => Action.shows_pure hm)
    fun _ _ _ hm => Action.shows_pure hm
  unfold encode
  split
  · exact (Action.shows_throw (.refl hs)).bind fun _ _ hres _ => by cases hres
  · refine hbytes.bind fun ⟨bytes, stub⟩ f' _ hm => ?_
    dsimp only
    split
    · exact (Action.shows_throw hm).bind fun _ _ hres _ => by cases hres
    · exact Action.shows_pure hm

theorem encodeFront_film {result : EStateM.Result Failure (Film Space) (Bytes × Option Range)}
    (hs : f.now.Laid) (h : isa.encodeFront (Space.system limits).filmed redirect f = result) :
    f.Adds f.now.Grown (Film.last result) := by
  subst h
  exact shows_encodeFront hs

end Isa

namespace Detour
variable {d d' : Detour} {init m : Space} {rest own : List Range} {r : Range} {range : Option Range}

/-- Detours beside this one stand as they did. -/
def Spares (init : Space) (rest : List Range) (d : Detour) (s m : Space) : Prop :=
  ∀ k, Beside init rest d k → k.Stands s → k.Stands m

theorem Spares.mono {more : List Range} (h : Spares init more d s m)
    (hsub : ∀ r ∈ rest, r ∈ more) : Spares init rest d s m :=
  fun k hk => h k ⟨hk.apart, hk.placed, fun r hr => hsub r (hk.stub r hr)⟩

theorem Spares.release (h : Spares init rest d s m) (hc : Carries init (own ++ rest) s)
    (hm : m.Laid) (hr : r ∈ own) (hmem : r ∈ m.ranges) :
    Spares init rest d s (Space.release r m) :=
  fun k hk hstands => hk.release hc (h k hk hstands) hm hr hmem

/-- The old detour has what it stands on until its code is rewritten, and the new one stands from
then on. -/
theorem retarget_film_ok (hd : Placed init d) (hc : Carries init (d.stub.toList ++ rest) f.now)
    (h : d.retarget (Space.system limits).filmed .x86_64 target f = .ok d' f') :
    (d'.redirect.source = d.redirect.source ∧ d'.redirect.target = target) ∧
      ∃ f₁ : Film Space, f.Adds f.now.Grown f₁ ∧
        f₁.Adds (fun m => d'.Stands m ∧ Spares init rest d f.now m) f' := by
  obtain ⟨happlied, redirect, code, stub, f₁, saved, f₂, hplan, hfront, hfilmed, rfl, rfl⟩ :=
    retarget_steps h
  obtain ⟨u, hpatch, rfl⟩ := Action.filmed_ok hfilmed
  have hbefore := Isa.encodeFront_film hc.laid hfront
  have hcode := Isa.films_encodeFront.ok hfront
  obtain ⟨hlength, hjumps, hstub⟩ := Isa.encodeFront_leads hc.laid (plan_ok hplan) hcode
  obtain ⟨hsource, htarget, -, hlimit⟩ := Isa.plan_ok (plan_ok hplan)
  have he := Isa.encodeFront_extended hc.laid hcode
  obtain ⟨hp, -⟩ := patch_ok he.laid hpatch
  have hu := (hc.trans he.toCarries).patch hp
  have hfits : redirect.size ≤ d.backup.length := hlimit _ rfl
  have hd' : Placed init { d with redirect, stub } := hd
  have hstands : Stands { d with redirect, stub } u := by
    refine stands_of_patch hd' hc he hfits hlength ?_ ?_ hp
    · rwa [hsource, landing, htarget]
    · rwa [htarget]
  have hspares : Spares init rest d f.now u := fun k hk hbeside =>
    hk.patch happlied hd hc (hbeside.extended he) hp
      ⟨Nat.le_refl _, Nat.add_le_add_left (hlength ▸ hfits) _⟩
  refine ⟨⟨hsource, htarget⟩, f₁, hbefore, ?_⟩
  refine (Film.adds_next ⟨hstands, hspares⟩).release fun r hr => ?_
  -- the old stub lies apart from the new one, and from all that is patched
  have hmem : r ∈ d.stub.toList := Option.mem_toList.mpr hr
  have hown : r ∈ d.stub.toList ++ rest := List.mem_append_left _ hmem
  have hold : r ∈ u.ranges := hu.mem (List.mem_append_left _ hown)
  refine ⟨hstands.release hu.laid hold (hd.apart hc hown) fun q hq => ?_,
    hspares.release hc hu.laid hmem hold⟩
  exact (he.apart (hc.mem hown) (Option.mem_toList.mpr hq)).symm

theorem retarget_film_error (hs : f.now.Laid)
    (h : d.retarget (Space.system limits).filmed isa target f = .error e f') :
    f.Adds f.now.Grown f' := by
  rcases retarget_fails h with
    rfl | ⟨redirect, hfront | ⟨code, stub, f₁, f₂, hfront, hfilmed, rfl⟩⟩
  · exact Film.adds_self (.refl hs)
  · exact Isa.encodeFront_film hs hfront
  · obtain ⟨u, hpatch, rfl⟩ := Action.filmed_error hfilmed
    have he := Isa.encodeFront_extended hs (Isa.films_encodeFront.ok hfront)
    rw [patch_error hpatch]
    have hbefore := Isa.encodeFront_film hs hfront
    refine (hbefore.trans (Film.adds_next ⟨_, he⟩)).release fun r hr => ?_
    obtain rfl := Option.mem_def.mp hr
    exact ⟨_, he.release⟩

/-- A detour is undone when its saved bytes are back and those beside it stand. -/
structure Cleared (init : Space) (rest : List Range) (s : Space) (d : Detour) (m : Space) :
    Prop where
  code : d.applied = true → X86.Holds m.byteAt? d.writeAddress d.backup
  spares : Spares init rest d s m

theorem Cleared.mono {more : List Range} (h : Cleared init more s d m)
    (hsub : ∀ r ∈ rest, r ∈ more) : Cleared init rest s d m := ⟨h.code, h.spares.mono hsub⟩

theorem Cleared.release (h : Cleared init rest s d m) (hd : d.applied = true → Placed init d)
    (hc : Carries init (own ++ rest) s) (hm : m.Laid) (hr : r ∈ own) (hmem : r ∈ m.ranges) :
    Cleared init rest s d (Space.release r m) := by
  refine ⟨fun happlied => (h.code happlied).congr ?_ fun x hx => ?_,
    h.spares.release hc hm hr hmem⟩
  · obtain ⟨t, -, hbound, -, hhigh⟩ := hd happlied
    exact Nat.lt_of_le_of_lt hhigh hbound
  · have hapart := (hd happlied).apart hc (List.mem_append_left _ hr)
    rw [← view_byte, (release_view hm hmem).2, View.unmap_byte_of_not (hapart.not_holds hx),
      view_byte]

theorem undo_film_ok (hd : d.applied = true → Placed init d)
    (hc : Carries init (d.stub.toList ++ rest) f.now)
    (h : d.undo (Space.system limits).filmed f = .ok d' f') :
    f.Adds (Cleared init rest f.now d) f' := by
  rcases undo_steps h with ⟨hnot, rfl, rfl⟩ | ⟨happlied, saved, f₁, hfilmed, rfl, rfl⟩
  · refine Film.adds_self ⟨fun happlied => ?_, fun k _ hk => hk⟩
    exact absurd (happlied.symm.trans hnot) (by decide)
  obtain ⟨u, hpatch, rfl⟩ := Action.filmed_ok hfilmed
  obtain ⟨hp, -⟩ := patch_ok hc.laid hpatch
  have hu := hc.patch hp
  have hcleared : Cleared init rest f.now d u := by
    refine ⟨fun _ => hp.holds ?_, fun k hk hbeside => ?_⟩
    · obtain ⟨t, -, hbound, -, hhigh⟩ := hd happlied
      exact Nat.lt_of_le_of_lt hhigh hbound
    · exact hk.patch happlied (hd happlied) hc hbeside hp ⟨Nat.le_refl _, Nat.le_refl _⟩
  refine (Film.adds_next hcleared).release fun r hr => ?_
  have hmem : r ∈ d.stub.toList := Option.mem_toList.mpr hr
  exact hcleared.release hd hc hu.laid hmem (hu.mem (List.mem_append_left _ hmem))

theorem undo_film_error (h : d.undo (Space.system limits).filmed f = .error e f') :
    f' = f.next f.now := by
  obtain ⟨u, hpatch, rfl⟩ := Action.filmed_error (undo_fails h)
  rw [patch_error hpatch]

end Detour

namespace Handle
variable {h h' : Handle} {rest : List Range} {init : Space}

theorem retarget_film_ok (hd : Detour.Placed init h.detour)
    (hc : Carries init (h.owned ++ rest) f.now)
    (hr : h.retarget (Space.system limits).filmed .x86_64 target f = .ok h' f') :
    (h'.detour.redirect.source = h.detour.redirect.source ∧
      h'.detour.redirect.target = target) ∧
      ∃ f₁ : Film Space, f.Adds f.now.Grown f₁ ∧
        f₁.Adds (fun m => h'.detour.Stands m ∧ Detour.Spares init rest h.detour f.now m) f' := by
  rw [owned, List.append_assoc] at hc
  obtain ⟨haim, f₁, hbefore, hafter⟩ := Detour.retarget_film_ok hd hc (retarget_steps hr).1
  refine ⟨haim, f₁, hbefore, hafter.mono fun m hm => ⟨hm.1, ?_⟩⟩
  exact hm.2.mono fun _ => List.mem_append_right _

theorem retarget_film_error (hs : f.now.Laid)
    (hr : h.retarget (Space.system limits).filmed isa target f = .error e f') :
    f.Adds f.now.Grown f' := Detour.retarget_film_error hs (retarget_fails hr)

theorem undo_film_ok (hd : h.detour.applied = true → Detour.Placed init h.detour)
    (hidle : h.detour.applied = false → h.detour.stub = none)
    (hc : Carries init (h.owned ++ rest) f.now)
    (hu : h.undo (Space.system limits).filmed f = .ok h' f') :
    f.Adds (Detour.Cleared init rest f.now h.detour) f' := by
  obtain ⟨f₁, hd', rfl, -⟩ := undo_steps hu
  have hc' := hc
  rw [owned, List.append_assoc] at hc'
  obtain ⟨-, -, hleft, -⟩ := Detour.undo_ok hc' hidle (Detour.films_undo.ok hd')
  have hcleared := (Detour.undo_film_ok hd hc' hd').mono fun m hm =>
    hm.mono fun _ => List.mem_append_right _
  refine hcleared.release fun r hr => ?_
  have hmem : r ∈ h.alternate.toList := Option.mem_toList.mpr hr
  exact hcleared.1.release hd hc hleft.laid (List.mem_append_right _ hmem)
    (hleft.mem (List.mem_append_left _ hmem))

theorem undoDetour_film_ok (hd : h.detour.applied = true → Detour.Placed init h.detour)
    (hc : Carries init (h.owned ++ rest) f.now)
    (hu : h.undoDetour (Space.system limits).filmed f = .ok h' f') :
    f.Adds (Detour.Cleared init rest f.now h.detour) f' := by
  rw [owned, List.append_assoc] at hc
  exact (Detour.undo_film_ok hd hc (undoDetour_steps hu).1).mono fun m hm =>
    hm.mono fun _ => List.mem_append_right _

theorem undo_film_error (hu : h.undo (Space.system limits).filmed f = .error e f') :
    f' = f.next f.now := Detour.undo_film_error (undo_fails hu)

theorem undoDetour_film_error (hu : h.undoDetour (Space.system limits).filmed f = .error e f') :
    f' = f.next f.now := Detour.undo_film_error (undoDetour_fails hu)

end Handle

end Interpose

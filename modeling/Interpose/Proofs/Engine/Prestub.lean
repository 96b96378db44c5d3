import Interpose.Proofs.Engine.Probe

/-!
# Walks and the prestub

All that a walk is told of the prestub is one address. It compiles the method at fixups and at
thunks that lead to this address, and follows all other thunks. Where candidates share nothing, the
address is the one that stands for none. A body that is the prestub is one that the runtime itself
reports.
-/

namespace Interpose

open World

namespace Platform
variable {σ ρ : Type}

section
variable (p : Platform σ ρ)

/-- Asks for the prestub as a walk does, but decides as if it were `v`. -/
def heeds (v : Address) (link : Thunk.Link) : Action (World σ ρ) Bool :=
  if link.fixup then pure true else do
    let _ ← p.prestub
    pure (link.next == v)

def minding (v : Address) (r : MethodRef) : Stride σ ρ := fun entry => do
  match ← World.ask fun w => p.thunkAt entry w.memory with
  | none => pure none
  | some link => p.onward r link (← p.heeds v link)

def bodyBy (stride : Stride σ ρ) (r : MethodRef) : Action (World σ ρ) Address :=
  if p.runtime.features.contains RuntimeFeature.bodyWalk then
    p.run stride (refusal r.method) r.method
  else World.ask fun w => p.runtime.entryPoint r.method w.runtime

/-- All that a walk can be told of the prestub is `v`: it was told before, or is what probing finds
where the walk asks first. -/
structure Tells (r : MethodRef) (w : World σ ρ) (v : Address) : Prop where
  cell : ∀ a, w.prestub = some a → a = v
  probed : ∀ turns now entry, p.Course (p.resolving r) r.method w turns now entry →
    Turn.probes p ⟨entry, now, false⟩ → ∀ a, p.probe now = .ok a → a = v

end

section
variable {p : Platform σ ρ} {r : MethodRef} {turns : List (Turn σ ρ)} {w w' now later : World σ ρ}
  {entry next a v e : Address} {link : Thunk.Link} {found : Option (Address × Bool)}

theorem heeds_eq (h : link.fixup = false → ∀ a, p.prestubOf? w = some a → a = v) :
    p.heeds v link w = p.compiles link w := by
  unfold heeds compiles
  cases hfixup : link.fixup with
  | true => rfl
  | false =>
    simp only [Bool.false_eq_true, if_false]
    refine Action.bind_congr_ok fun a t htold => ?_
    obtain rfl := h hfixup a (prestub_eq_ok.mp htold).1
    rfl

theorem probes_of_untold (hthunk : p.thunkAt entry w.memory = .ok (some link))
    (hfixup : link.fixup = false) (hcell : w.prestub = none) :
    Turn.probes p ⟨entry, w, false⟩ = true := by
  simp [Turn.probes, hcell, hthunk, hfixup]

theorem onward_ok {b : Bool} (h : p.onward r link b w = .ok found w') :
    (b = true ∧ ∃ e, found = some (e, true) ∧ p.compile r w = .ok () w' ∧
      p.runtime.entryPoint r.method w'.runtime = .ok e) ∨
    b = false ∧ found = some (link.next, false) ∧ w' = w := by
  cases b with
  | true =>
    obtain ⟨_, t, hcompile, hreport⟩ := Action.bind_eq_ok.mp h
    obtain ⟨e, t', hask, hpure⟩ := Action.bind_eq_ok.mp hreport
    obtain ⟨hentry, rfl⟩ := World.ask_eq_ok.mp hask
    obtain ⟨rfl, rfl⟩ := Action.pure_eq_ok.mp hpure
    exact Or.inl ⟨rfl, e, rfl, hcompile, hentry⟩
  | false =>
    obtain ⟨rfl, rfl⟩ := Action.pure_eq_ok.mp h
    exact Or.inr ⟨rfl, rfl, rfl⟩

theorem onward_prestub {b : Bool} (h : p.onward r link b w = .ok found w') :
    w'.prestub = w.prestub := by
  have hkept : (reached (p.onward r link b w)).prestub = w.prestub := keeps_onward w
  rwa [h] at hkept

/-- A turn that does not fail finds no thunk, or decides at a thunk and goes on. -/
theorem resolving_ok (h : p.resolving r entry w = .ok found w') :
    (p.thunkAt entry w.memory = .ok none ∧ found = none ∧ w' = w) ∨
    ∃ link b t, p.thunkAt entry w.memory = .ok (some link) ∧ p.compiles link w = .ok b t ∧
      p.onward r link b t = .ok found w' := by
  cases hthunk : p.thunkAt entry w.memory with
  | error e =>
    rw [resolving_error hthunk] at h
    cases h
  | ok seen =>
    cases seen with
    | none =>
      rw [resolving_none hthunk] at h
      cases h
      exact Or.inl ⟨rfl, rfl, rfl⟩
    | some link =>
      rw [resolving_some hthunk] at h
      obtain ⟨b, t, hcompiles, honward⟩ := Action.bind_eq_ok.mp h
      exact Or.inr ⟨link, b, t, rfl, hcompiles, honward⟩

theorem resolving_cell (h : p.resolving r entry w = .ok found w') (ha : w'.prestub = some a) :
    w.prestub = some a ∨ Turn.probes p ⟨entry, w, false⟩ ∧ p.probe w = .ok a := by
  rcases resolving_ok h with ⟨-, -, rfl⟩ | ⟨link, b, t, hthunk, hcompiles, honward⟩
  · exact Or.inl ha
  · -- Going on leaves the cell alone, so only the decision can have filled it.
    have hkept : t.prestub = some a := (onward_prestub honward).symm.trans ha
    rcases compiles_eq_ok.mp hcompiles with ⟨-, -, rfl⟩ | ⟨hfixup, v, hv, -, rfl⟩
    · exact Or.inl hkept
    · cases hkept
      cases hcell : w.prestub with
      | some v =>
        rw [prestubOf?_of_cell hcell] at hv
        exact Or.inl hv
      | none =>
        rw [prestubOf?, hcell] at hv
        exact Or.inr ⟨probes_of_untold hthunk hfixup hcell, Attempt.toOption_eq_some.mp hv⟩

theorem resolving_ended (h : p.resolving r entry w = .ok none w') : w' = w := by
  rcases resolving_ok h with ⟨-, -, rfl⟩ | ⟨link, b, t, -, -, honward⟩
  · rfl
  · rcases onward_ok honward with ⟨-, e, ⟨⟩, -⟩ | ⟨-, ⟨⟩, -⟩

theorem prestub_compilingBy {compile : Method → Action ρ Unit} :
    (p.compilingBy compile).prestub = p.prestub := by
  funext w
  cases hcell : w.prestub with
  | some v => rw [prestub_told hcell, prestub_told hcell]
  | none =>
    have hprobe : (p.compilingBy compile).probe w = p.probe w :=
      congrArg (Except.map shared) (traceAll_congr fun _ => trace_congr rfl rfl rfl rfl)
    rw [prestub_untold hcell, prestub_untold hcell, hprobe]

theorem compiles_compilingBy {compile : Method → Action ρ Unit} :
    (p.compilingBy compile).compiles link = p.compiles link := by
  unfold compiles
  rw [prestub_compilingBy]

theorem Course.probes_start (hentry : p.runtime.entryPoint r.method w.runtime = .ok e)
    (hthunk : p.thunkAt e w.memory = .ok (some link)) (hfixup : link.fixup = false)
    (hc : p.Course (p.resolving r) r.method w turns now entry)
    (hprobes : Turn.probes p ⟨entry, now, false⟩) : now = w := by
  have hcourse : now = w ∧ entry = e ∨ ∃ v, now.prestub = some v := by
    clear hprobes
    induction hc with
    | start h =>
      rw [hentry] at h
      cases h
      exact Or.inl ⟨rfl, rfl⟩
    | @turn turns now later entry next compiled past hturn ih =>
      refine Or.inr ?_
      rcases ih with ⟨rfl, rfl⟩ | ⟨v, hv⟩
      · rcases resolving_ok hturn with ⟨-, ⟨⟩, -⟩ | ⟨link', b, t, hsome, hcompiles, honward⟩
        cases hthunk.symm.trans hsome
        rcases compiles_eq_ok.mp hcompiles with ⟨hfalse, -⟩ | ⟨-, v, -, -, rfl⟩
        · exact absurd hfalse (by simp [hfixup])
        · exact ⟨v, onward_prestub honward⟩
      · have hlasts : (reached (p.resolving r entry now)).prestub = some v :=
          lasts_resolving now v hv
        rw [hturn] at hlasts
        exact ⟨v, hlasts⟩
  rcases hcourse with ⟨rfl, -⟩ | ⟨v, hv⟩
  · rfl
  · simp [Turn.probes, hv] at hprobes

theorem Tells.course (h : p.Tells r w v) (hc : p.Course (p.resolving r) r.method w turns now entry)
    (ha : now.prestub = some a) : a = v := by
  induction hc with
  | start => exact h.cell a ha
  | turn past hturn ih =>
    rcases resolving_cell hturn ha with hbefore | ⟨hprobes, hprobe⟩
    · exact ih hbefore
    · exact h.probed _ _ _ past hprobes a hprobe

theorem Tells.prestubOf? (h : p.Tells r w v)
    (hc : p.Course (p.resolving r) r.method w turns now entry)
    (hthunk : p.thunkAt entry now.memory = .ok (some link)) (hfixup : link.fixup = false)
    (ha : p.prestubOf? now = some a) : a = v := by
  cases hcell : now.prestub with
  | some b =>
    rw [prestubOf?_of_cell hcell] at ha
    exact h.course hc (hcell.trans ha)
  | none =>
    rw [Platform.prestubOf?, hcell] at ha
    exact h.probed _ _ _ hc (probes_of_untold hthunk hfixup hcell) a
      (Attempt.toOption_eq_some.mp ha)

theorem Tells.minding (h : p.Tells r w v)
    (hc : p.Course (p.resolving r) r.method w turns now entry) :
    p.minding v r entry now = p.resolving r entry now := by
  refine Action.bind_congr_ok fun seen t hask => ?_
  obtain ⟨hthunk, rfl⟩ := World.ask_eq_ok.mp hask
  cases seen with
  | none => rfl
  | some link =>
    have hheeds : p.heeds v link t = p.compiles link t :=
      heeds_eq fun hfixup a ha => h.prestubOf? hc hthunk hfixup ha
    exact Action.bind_congr_left hheeds

theorem Tells.methodBody (h : p.Tells r w v) :
    p.methodBody r w = p.bodyBy (p.minding v r) r w := by
  unfold bodyBy
  by_cases hwalk : p.runtime.features.contains RuntimeFeature.bodyWalk
  · rw [if_pos hwalk, methodBody_eq_run hwalk]
    exact (run_congr fun _ _ _ hc => h.minding hc).symm
  · rw [if_neg hwalk, methodBody_unwalked hwalk]

/-- A thunk that leads to the prestub makes its method be compiled, or the turn fails. -/
theorem Tells.compiled (h : p.Tells r w v)
    (hc : p.Course (p.resolving r) r.method w turns now entry)
    (hthunk : p.thunkAt entry now.memory = .ok (some link)) (hnext : link.next = v)
    (hturn : p.resolving r entry now = .ok found later) :
    ∃ t e, t.runtime = now.runtime ∧ p.compile r t = .ok () later ∧
      p.runtime.entryPoint r.method later.runtime = .ok e ∧ found = some (e, true) := by
  rcases resolving_ok hturn with ⟨hnone, -⟩ | ⟨link', b, t, hsome, hcompiles, honward⟩
  · rw [hthunk] at hnone
    cases hnone
  · cases hthunk.symm.trans hsome
    obtain ⟨hb, hruntime⟩ : b = true ∧ t.runtime = now.runtime := by
      rcases compiles_eq_ok.mp hcompiles with ⟨-, hb, rfl⟩ | ⟨hfixup, a, ha, hb, rfl⟩
      · exact ⟨hb, rfl⟩
      · obtain rfl := h.prestubOf? hc hthunk hfixup ha
        exact ⟨hb.trans (beq_iff_eq.mpr hnext), rfl⟩
    rcases onward_ok honward with ⟨-, e, rfl, hcompile, hentry⟩ | ⟨hfalse, -⟩
    · exact ⟨t, e, hruntime, hcompile, hentry, rfl⟩
    · rw [hb] at hfalse
      cases hfalse

/-- An entry that a walk comes to is one that the runtime reports, or it is not the prestub. -/
theorem Tells.reported (h : p.Tells r w v)
    (hc : p.Course (p.resolving r) r.method w turns now entry) :
    p.runtime.entryPoint r.method now.runtime = .ok entry ∨ entry ≠ v := by
  cases hc with
  | start hentry => exact Or.inl hentry
  | turn past hturn =>
    rcases resolving_ok hturn with ⟨-, ⟨⟩, -⟩ | ⟨link, b, t, hthunk, hcompiles, honward⟩
    rcases onward_ok honward with ⟨rfl, e, hfound, -, hentry⟩ | ⟨rfl, hfound, -⟩
    · cases hfound
      exact Or.inl hentry
    · cases hfound
      rcases compiles_eq_ok.mp hcompiles with ⟨-, ⟨⟩, -⟩ | ⟨hfixup, a, ha, hb, -⟩
      obtain rfl := h.prestubOf? past hthunk hfixup ha
      exact Or.inr (by simpa using hb)

theorem Tells.body (h : p.Tells r w v) (hbody : p.methodBody r w = .ok v w') :
    p.runtime.entryPoint r.method w'.runtime = .ok v := by
  by_cases hwalk : p.runtime.features.contains RuntimeFeature.bodyWalk
  · rw [methodBody_eq_run hwalk] at hbody
    obtain ⟨turns, account⟩ := exists_account p (p.resolving r) (refusal r.method) r.method w
    rw [hbody] at account
    cases account with
    | ended past steady within hend =>
      obtain rfl := resolving_ended hend
      exact (h.reported past).resolve_right (absurd rfl)
  · rw [methodBody_unwalked hwalk] at hbody
    obtain ⟨hentry, rfl⟩ := World.ask_eq_ok.mp hbody
    exact hentry

theorem Course.body (hc : p.Course (p.resolving r) r.method w turns now entry)
    (steady : Steady (⟨entry, now, false⟩ :: turns)) (within : turns.length < p.settings.walkLimit)
    (hend : p.thunkAt entry now.memory = .ok none)
    (hwalk : p.runtime.features.contains RuntimeFeature.bodyWalk) :
    p.methodBody r w = .ok entry now := by
  have account : p.Account (p.resolving r) (refusal r.method) r.method w _ (.ok entry now) :=
    .ended hc steady within (resolving_none hend)
  rw [methodBody_eq_run hwalk, account.result_eq]

/-- A thunk that is no fixup and does not lead to the prestub is followed, once the walk has asked
for the prestub. What compiling would do does not matter. -/
theorem Tells.followed (h : p.Tells r w v)
    (hc : p.Course (p.resolving r) r.method w turns now entry)
    (hthunk : p.thunkAt entry now.memory = .ok (some link)) (hfixup : link.fixup = false)
    (hnext : link.next ≠ v) {compile : Method → Action ρ Unit} :
    (p.compilingBy compile).resolving r entry now =
      (p.prestub >>= fun _ => pure (some (link.next, false))) now := by
  have hdecides : (p.compilingBy compile).compiles link now =
      (p.prestub >>= fun _ => pure false) now := by
    have hne : (link.next == v) = false := beq_false_of_ne hnext
    rw [compiles_compilingBy, ← heeds_eq fun _ a ha => h.prestubOf? hc hthunk hfixup ha, heeds,
      hfixup, hne]
    rfl
  rw [resolving_some (p := p.compilingBy compile) hthunk]
  refine (Action.bind_congr_left hdecides).trans ?_
  rw [bind_assoc]
  rfl

end

section
variable {p : Platform σ ρ} {r : MethodRef} {w : World σ ρ} {v : Address}

theorem tells_of_unshared (hcell : w.prestub = none ∨ w.prestub = some noPrestub)
    (hnone : ∀ turns now entry, p.Course (p.resolving r) r.method w turns now entry →
      Turn.probes p ⟨entry, now, false⟩ → ∀ i a, ¬ Agree (p.outcomes now) i a) :
    p.Tells r w noPrestub where
  cell a ha := by
    rcases hcell with h | h <;> rw [h] at ha <;> cases ha
    rfl
  probed turns now entry hc hprobes a ha := by
    rcases (probe_eq_ok.mp ha).2 with ⟨i, hi, -⟩ | ⟨-, rfl⟩
    · exact absurd hi (hnone _ _ _ hc hprobes i a)
    · rfl

theorem tells_of_shared (hcell : w.prestub = none ∨ w.prestub = some v)
    (hshared : ∀ turns now entry, p.Course (p.resolving r) r.method w turns now entry →
      Turn.probes p ⟨entry, now, false⟩ → Earliest (p.outcomes now) v) :
    p.Tells r w v where
  cell a ha := by
    rcases hcell with h | h <;> rw [h] at ha <;> cases ha
    rfl
  probed turns now entry hc hprobes a ha := by
    obtain ⟨i, hi, hfirst⟩ := hshared _ _ _ hc hprobes
    rcases (probe_eq_ok.mp ha).2 with ⟨j, hj, hfirst'⟩ | ⟨hnone, -⟩
    · obtain rfl := Nat.le_antisymm (hfirst j a hj) (hfirst' i v hi)
      exact Option.some.inj (Option.some.inj (hj.1.symm.trans hi.1))
    · exact absurd hi (hnone i v)

end

/-- Where candidates share no address, a walk compiles the method at fixups, and at thunks that lead
to the address which stands for none. Every other thunk is followed, wherever it leads. -/
theorem methodBody_unshared (p : Platform σ ρ) (r : MethodRef) (w : World σ ρ)
    (hcell : w.prestub = none ∨ w.prestub = some noPrestub)
    (hnone : ∀ turns now entry, p.Course (p.resolving r) r.method w turns now entry →
      Turn.probes p ⟨entry, now, false⟩ → ∀ i a, ¬ Agree (p.outcomes now) i a) :
    p.methodBody r w = p.bodyBy (p.minding noPrestub r) r w ∧
    ∀ turns now entry link, p.Course (p.resolving r) r.method w turns now entry →
      p.thunkAt entry now.memory = .ok (some link) → link.fixup = false → link.next ≠ noPrestub →
        ∀ compile, (p.compilingBy compile).resolving r entry now =
          (p.prestub >>= fun _ => pure (some (link.next, false))) now := by
  have htells := tells_of_unshared hcell hnone
  refine ⟨htells.methodBody, ?_⟩
  intro turns now entry link hc hthunk hfixup hnext compile
  exact htells.followed hc hthunk hfixup hnext

/-- A jump to a precode, whose method is compiled once, beside two candidates that end apart. -/
theorem methodBody_unshared_precode :
    let code : Space := { regions := [(0x1000, [0xE9, 0xFB, 0x0F, 0, 0]),
      (0x1100, [0xE9, 0xFB, 0x3E, 0, 0]), (0x1200, [0xE9, 0xFB, 0x4D, 0, 0]),
      (0x2000, [0xE8, 0xFB, 0x7F, 0, 0, 0x5E] ++ List.replicate 18 0xCC), (0x3000, [0x55, 0xC3]),
      (0x5000, [0x55, 0xC3]), (0x6000, [0x55, 0xC3])] }
    let method (name : String) (handle : Address) : Method := { name, handle }
    let script : Script :=
      { features := RuntimeFeature.bodyWalk, compiled := [(0x1000, 0x3000)]
        candidates := [method "Stop" 0x1100, method "Wait" 0x1200] }
    let p : Platform Space ScriptState := ⟨.x86_64, Space.system {}, script.runtime, {}⟩
    let r : MethodRef := ⟨.listed 0, method "Run" 0x1000⟩
    let w : World Space ScriptState := { memory := code, runtime := {} }
    p.outcomes w = [some 0x5000, some 0x6000] ∧ (∀ i a, ¬ Agree (p.outcomes w) i a) ∧
      (∃ w', p.bodyBy (p.minding noPrestub r) r w = .ok 0x3000 w' ∧ w'.runtime.compileCount = 1) ∧
      ∀ compile, (p.compilingBy compile).resolving r 0x1000 w =
        .ok (some (0x2000, false)) { w with prestub := some noPrestub } := by
  intro code method script p r w
  have houtcomes : p.outcomes w = [some 0x5000, some 0x6000] := by decide +kernel
  have hnone (i : Nat) (a : Address) : ¬ Agree (p.outcomes w) i a := by
    rw [houtcomes]
    exact not_agree_of_nodup (by decide)
  have hjump : p.thunkAt 0x1000 code = .ok (some ⟨0x2000, false⟩) :=
    Attempt.toOption_eq_some.mp (by decide +kernel)
  have hprecode : p.thunkAt 0x2000 code = .ok (some ⟨0xA000, true⟩) :=
    Attempt.toOption_eq_some.mp (by decide +kernel)
  have hprobe : p.probe w = .ok noPrestub := by
    refine probe_eq_ok.mpr ⟨fun m hm hfault => ?_, .inr ⟨hnone, rfl⟩⟩
    have houtcome : (p.trace m w).toOption ∈ p.outcomes w := List.mem_map_of_mem hm
    rw [hfault, houtcomes] at houtcome
    exact absurd houtcome (by decide)
  have hcell : p.prestubOf? w = some noPrestub := by
    rw [prestubOf?, hprobe]
    rfl
  have hfollow : p.resolving r 0x1000 w =
      .ok (some (0x2000, false)) ({ w with prestub := some noPrestub }) := by
    rw [← hcell]
    exact resolving_clean_iff.mpr ⟨⟨thunkAt_eq_some.mp hjump, noPrestub, hcell, by decide⟩, rfl⟩
  obtain ⟨found, later, hcompile, rfl, hmemory, hcount⟩ : ∃ found later,
      p.resolving r 0x2000 ({ w with prestub := some noPrestub }) = .ok found later ∧
        (found = some (0x3000, true) ∧ later.memory = code ∧ later.runtime.compileCount = 1) := by
    rw [resolving_some hprecode]
    exact Action.exists_ok (by decide +kernel)
  have hend : p.thunkAt 0x3000 later.memory = .ok none := by
    rw [hmemory]
    rfl
  have hbody : p.methodBody r w = .ok 0x3000 later :=
    Course.body (.turn (.turn (.start rfl) hfollow) hcompile) ⟨nofun, by decide, nofun, trivial⟩
      (by decide) hend (by decide)
  obtain ⟨hrun, hfollowed⟩ :=
    methodBody_unshared p r w (Or.inl rfl) fun turns now entry hc hprobes => by
      rwa [hc.probes_start rfl hjump rfl hprobes]
  refine ⟨houtcomes, hnone, ⟨later, hrun.symm.trans hbody, hcount⟩, fun compile => ?_⟩
  rw [hfollowed [] w 0x1000 _ (.start rfl) hjump rfl (by decide) compile]
  exact Action.bind_run (prestub_eq_ok.mpr ⟨hcell, rfl⟩)

/-- With no candidates at all, a jump to the last address makes its method be compiled. -/
theorem methodBody_compiles_at_top :
    let code : Space :=
      { regions := [(0x1000, [0xE9, 0xFA, 0xEF, 0xFF, 0xFF]), (0x3000, [0x55, 0xC3])] }
    let script : Script := { features := RuntimeFeature.bodyWalk, compiled := [(0x1000, 0x3000)] }
    let p : Platform Space ScriptState := ⟨.x86_64, Space.system {}, script.runtime, {}⟩
    let r : MethodRef := ⟨.listed 0, { name := "Run", handle := 0x1000 }⟩
    let w : World Space ScriptState := { memory := code, runtime := {} }
    p.runtime.probeCandidates = [] ∧
      p.thunkAt 0x1000 code = .ok (some ⟨0xFFFFFFFFFFFFFFFF, false⟩) ∧
      ∃ w', p.methodBody r w = .ok 0x3000 w' ∧ w'.runtime.compileCount = 1 := by
  intro code script p r w
  have hjump : p.thunkAt 0x1000 code = .ok (some ⟨noPrestub, false⟩) :=
    Attempt.toOption_eq_some.mp (by decide +kernel)
  obtain ⟨found, later, hturn, rfl, hmemory, hcount⟩ : ∃ found later,
      p.resolving r 0x1000 w = .ok found later ∧
        (found = some (0x3000, true) ∧ later.memory = code ∧ later.runtime.compileCount = 1) := by
    rw [resolving_some hjump]
    exact Action.exists_ok (by decide +kernel)
  have hend : p.thunkAt 0x3000 later.memory = .ok none := by
    rw [hmemory]
    rfl
  have hbody : p.methodBody r w = .ok 0x3000 later :=
    Course.body (.turn (.start rfl) hturn) ⟨nofun, nofun, trivial⟩ (by decide) hend (by decide)
  exact ⟨rfl, hjump, later, hbody, hcount⟩

/-- A body that is the prestub is one that the runtime itself reports as the method's entry. Any
thunk that leads to the prestub makes the method be compiled, unless the walk fails there. -/
theorem methodBody_prestub (p : Platform σ ρ) (r : MethodRef) (w : World σ ρ) (v : Address)
    (hcell : w.prestub = none ∨ w.prestub = some v)
    (hshared : ∀ turns now entry, p.Course (p.resolving r) r.method w turns now entry →
      Turn.probes p ⟨entry, now, false⟩ → Earliest (p.outcomes now) v) :
    (∀ w', p.methodBody r w = .ok v w' → p.runtime.entryPoint r.method w'.runtime = .ok v) ∧
    ∀ turns now entry link, p.Course (p.resolving r) r.method w turns now entry →
      p.thunkAt entry now.memory = .ok (some link) → link.next = v →
        ∀ found later, p.resolving r entry now = .ok found later →
          ∃ t e, t.runtime = now.runtime ∧ p.compile r t = .ok () later ∧
            p.runtime.entryPoint r.method later.runtime = .ok e ∧ found = some (e, true) := by
  have htells := tells_of_shared hcell hshared
  refine ⟨fun w' hbody => htells.body hbody, ?_⟩
  intro turns now entry link hc hthunk hnext found later hturn
  exact htells.compiled hc hthunk hnext hturn

/-- A method that jumps to the prestub is compiled, and the runtime then reports the prestub. -/
theorem methodBody_prestub_reported :
    let code : Space := { regions := [(0x1000, [0xE9, 0xFB, 0x3F, 0, 0]),
      (0x1100, [0xE9, 0xFB, 0x3E, 0, 0]), (0x1200, [0xE9, 0xFB, 0x3D, 0, 0]),
      (0x5000, [0x55, 0xC3])] }
    let method (name : String) (handle : Address) : Method := { name, handle }
    let script : Script :=
      { features := RuntimeFeature.bodyWalk, compiled := [(0x1000, 0x5000)]
        candidates := [method "Stop" 0x1100, method "Wait" 0x1200] }
    let p : Platform Space ScriptState := ⟨.x86_64, Space.system {}, script.runtime, {}⟩
    let r : MethodRef := ⟨.listed 0, method "Run" 0x1000⟩
    let w : World Space ScriptState := { memory := code, runtime := {} }
    Earliest (p.outcomes w) 0x5000 ∧ ∃ later, p.methodBody r w = .ok 0x5000 later ∧
      later.runtime.compileCount = 1 ∧ p.runtime.entryPoint r.method later.runtime = .ok 0x5000 ∧
      ∃ t, p.compile r t = .ok () later := by
  intro code method script p r w
  have hjump : p.thunkAt 0x1000 code = .ok (some ⟨0x5000, false⟩) :=
    Attempt.toOption_eq_some.mp (by decide +kernel)
  have hprobe : p.probe w = .ok 0x5000 := Attempt.toOption_eq_some.mp (by decide +kernel)
  have hshared : Earliest (p.outcomes w) 0x5000 :=
    (probe_eq_ok.mp hprobe).2.resolve_right fun h => absurd h.2 (by decide)
  have hcell : p.prestubOf? w = some 0x5000 := by
    rw [prestubOf?, hprobe]
    rfl
  have hcompiles : p.compiles ⟨0x5000, false⟩ w = .ok true { w with prestub := some 0x5000 } :=
    compiles_eq_ok.mpr (Or.inr ⟨rfl, 0x5000, hcell, rfl, rfl⟩)
  obtain ⟨found, later, hturn, rfl, hmemory, hcount⟩ : ∃ found later,
      p.resolving r 0x1000 w = .ok found later ∧
        (found = some (0x5000, true) ∧ later.memory = code ∧ later.runtime.compileCount = 1) := by
    rw [resolving_some hjump, Action.bind_run hcompiles]
    exact Action.exists_ok (by decide +kernel)
  have hend : p.thunkAt 0x5000 later.memory = .ok none := by
    rw [hmemory]
    rfl
  have hbody : p.methodBody r w = .ok 0x5000 later :=
    Course.body (.turn (.start rfl) hturn) ⟨nofun, nofun, trivial⟩ (by decide) hend (by decide)
  obtain ⟨hreported, hcompiled⟩ := methodBody_prestub p r w 0x5000 (Or.inl rfl)
    fun turns now entry hc hprobes => by rwa [hc.probes_start rfl hjump rfl hprobes]
  obtain ⟨t, _, -, hcompile, -, -⟩ :=
    hcompiled [] w 0x1000 _ (.start rfl) hjump rfl _ later hturn
  exact ⟨hshared, later, hbody, hcount, hreported later hbody, t, hcompile⟩

/-- A method whose entry is the prestub, which the platform knows, is not compiled. -/
theorem methodBody_returns_prestub :
    let code : Space := { regions := [(0x1100, [0xE9, 0xFB, 0x3E, 0, 0]),
      (0x1200, [0xE9, 0xFB, 0x3D, 0, 0]), (0x5000, [0x55, 0xC3])] }
    let method (name : String) (handle : Address) : Method := { name, handle }
    let script : Script :=
      { features := RuntimeFeature.bodyWalk
        candidates := [method "Stop" 0x1100, method "Wait" 0x1200] }
    let p : Platform Space ScriptState := ⟨.x86_64, Space.system {}, script.runtime, {}⟩
    let r : MethodRef := ⟨.listed 0, method "Run" 0x5000⟩
    let w : World Space ScriptState := { memory := code, runtime := {}, prestub := some 0x5000 }
    Earliest (p.outcomes w) 0x5000 ∧ p.methodBody r w = .ok 0x5000 w := by
  intro code method script p r w
  have hprobe : p.probe w = .ok 0x5000 := Attempt.toOption_eq_some.mp (by decide +kernel)
  refine ⟨(probe_eq_ok.mp hprobe).2.resolve_right fun h => absurd h.2 (by decide), ?_⟩
  have hend : p.thunkAt 0x5000 code = .ok none := by
    rfl
  exact Course.body (.start rfl) ⟨nofun, trivial⟩ (by decide) hend (by decide)

end Platform

end Interpose

import Interpose.Proofs.Call.Glue

/-!
# Calls without glue

A replacement of the same shape takes the same operands in the same order. Whether it can be called
directly is a matter of the places: what a caller of the method passes is compared, value by value,
with what the replacement expects where it has no context.
-/

namespace Interpose

/-- The receiver comes in front of the user arguments, and a return buffer that has a slot comes
between the two. -/
structure Abi.Conventional (abi : Abi) : Prop where
  nodup : abi.argumentOrder.Nodup
  ordered : [.thisPointer, .userArguments].Sublist abi.argumentOrder
  buffered : .returnBuffer ∈ abi.argumentOrder →
    [.thisPointer, .returnBuffer, .userArguments].Sublist abi.argumentOrder

theorem Abi.conventional_builtin :
    ∀ abi ∈ [systemV64, win64, aapcs64, cdecl], abi.Conventional := by
  simp only [List.forall_mem_cons]
  refine ⟨?_, ?_, ?_, ?_, fun _ h => nomatch h⟩ <;> exact ⟨by decide, by decide, by decide⟩

/-- The replacement returns the same and takes the same: it is a method of the same kind, or a
static method whose first parameter is the receiver. -/
structure Method.Matches (source target : Method) : Prop where
  returns : target.returnType = source.returnType
  takes : (target.isStatic = source.isStatic ∧ target.params = source.params) ∨
    source.isStatic = false ∧ target.isStatic = true ∧
      ∃ receiver, target.params = receiver :: source.params

theorem flatMap_eq_of_sublist {α β : Type} {f : α → List β} {kept all : List α}
    (hsub : kept.Sublist all) (hnodup : all.Nodup) (hempty : ∀ a ∈ all, a ∉ kept → f a = []) :
    all.flatMap f = kept.flatMap f := by
  induction hsub with
  | slnil => rfl
  | @cons kept all a hsub ih =>
    obtain ⟨hfresh, hrest⟩ := List.nodup_cons.mp hnodup
    have ha : f a = [] := hempty a List.mem_cons_self fun h => hfresh (hsub.subset h)
    rw [List.flatMap_cons, ha, List.nil_append]
    exact ih hrest fun b hb => hempty b (List.mem_cons_of_mem a hb)
  | @cons_cons kept all a hsub ih =>
    obtain ⟨hfresh, hrest⟩ := List.nodup_cons.mp hnodup
    rw [List.flatMap_cons, List.flatMap_cons, ih hrest]
    intro b hb hkept
    refine hempty b (List.mem_cons_of_mem a hb) fun h => ?_
    rcases List.mem_cons.mp h with rfl | hmem
    · exact hfresh hb
    · exact hkept hmem

namespace Passed
variable {m source target : Method}

def operands (m : Method) : List (Passed m) := receiver m ++ users m

/-- What a caller of the replaced method passes for a value that the replacement takes: the operands
stand for each other in their order. -/
def meant (source : Method) : Passed target → Option (Passed source)
  | this => (operands source)[0]?
  | buffer => some buffer
  | context => some context
  | user i => (operands source)[(receiver target).length + i]?

def type (value : Passed m) : TypeRef := value.param.type

theorem users_meant {taken : List (Passed source)} (h : taken.length = target.params.length)
    (hmeant : ∀ i : Fin target.params.length, meant source (.user i) = taken[(i : Nat)]?) :
    (users target).map (meant source) = taken.map some := by
  apply List.ext_getElem
  · simp [users, h]
  · intro i hi hi'
    have hlt : i < taken.length := by simpa using hi'
    simp [users, hmeant, hlt]

theorem operands_meant (h : (operands target).length = (operands source).length) :
    (operands target).map (meant source) = (operands source).map some := by
  have husers : (users target).length = target.params.length := by simp [users]
  cases hstatic : target.isStatic with
  | true =>
    have hnone : receiver target = [] := by simp [receiver, hstatic]
    rw [operands, hnone, List.nil_append] at h ⊢
    exact users_meant (h.symm.trans husers) fun i => by simp [meant, hnone]
  | false =>
    have hthis : receiver target = [this] := by simp [receiver, hstatic]
    cases hsource : operands source with
    | nil =>
      rw [hsource, operands, hthis] at h
      simp at h
    | cons first rest =>
      rw [hsource, operands, hthis] at h
      have hrest : rest.length = target.params.length := by
        rw [← husers]
        simpa using h.symm
      rw [operands, hthis, List.map_append,
        users_meant hrest fun i => by simp [meant, hthis, hsource, Nat.add_comm]]
      simp [meant, hsource]

end Passed

section
variable {abi : Abi} {source target : Method} {context : Bool}

open Passed

theorem Method.passed_eq (m : Method) (h : abi.Conventional) :
    m.passed abi false =
      receiver m ++ (if abi.hasReturnBuffer m.returnType then [.buffer] else []) ++ users m := by
  unfold passed
  by_cases hslot : .returnBuffer ∈ abi.argumentOrder
  · have hkept : abi.argumentOrder.flatMap (inSlot m abi false) =
        [.thisPointer, .returnBuffer, .userArguments].flatMap (inSlot m abi false) := by
      refine flatMap_eq_of_sublist (h.buffered hslot) h.nodup fun slot _ hne => ?_
      cases slot <;> simp [inSlot] at hne ⊢
    rw [hkept]
    simp [inSlot, Abi.hasReturnBuffer, Abi.hasSlot, hslot]
  · have hkept : abi.argumentOrder.flatMap (inSlot m abi false) =
        [.thisPointer, .userArguments].flatMap (inSlot m abi false) := by
      refine flatMap_eq_of_sublist h.ordered h.nodup fun slot hmem hne => ?_
      cases slot with
      | returnBuffer => exact absurd hmem hslot
      | _ => simp [inSlot] at hne ⊢
    rw [hkept]
    simp [inSlot, Abi.hasReturnBuffer, Abi.hasSlot, hslot]

theorem Method.passed_uncontexted (m : Method)
    (h : (abi.hasSlot .genericContext && context) = false) :
    m.passed abi context = m.passed abi false := by
  refine List.flatMap_congr fun slot hmem => ?_
  cases slot with
  | genericContext =>
    have hcontext : context = false := by simpa [Abi.hasSlot, hmem] using h
    rw [hcontext]
  | _ => rfl

theorem Method.passed_length_lt (m : Method)
    (h : (abi.hasSlot .genericContext && context) = true) :
    (m.passed abi false).length < (m.passed abi context).length := by
  obtain ⟨hslot, rfl⟩ : .genericContext ∈ abi.argumentOrder ∧ context = true := by
    simpa [Abi.hasSlot] using h
  have hcontext : .context ∈ m.passed abi true :=
    List.mem_flatMap.mpr ⟨_, hslot, by simp [inSlot]⟩
  have hothers : m.passed abi false = (m.passed abi true).filter (· ≠ .context) := by
    rw [passed, passed, List.filter_flatMap]
    refine List.flatMap_congr fun slot _ => ?_
    have hnone : .context ∉ inSlot m abi false slot := by
      cases slot <;> simp [inSlot, context_not_mem]
    cases slot with
    | genericContext => simp [inSlot]
    | _ =>
      refine (List.filter_eq_self.mpr fun value hvalue => ?_).symm
      exact decide_eq_true (ne_of_mem_of_not_mem hvalue hnone)
  rw [hothers]
  exact List.length_filter_lt_length_iff_exists.mpr ⟨_, hcontext, by simp⟩

theorem Method.Matches.operands_length (h : source.Matches target) :
    (operands target).length = (operands source).length := by
  have hlength (m : Method) :
      (operands m).length = (if m.isStatic then 0 else 1) + m.params.length := by
    cases hstatic : m.isStatic <;> simp [operands, receiver, users, hstatic, Nat.add_comm]
  rw [hlength, hlength]
  rcases h.takes with ⟨hkind, hparams⟩ | ⟨hsource, htarget, first, hparams⟩
  · rw [hkind, hparams]
  · simp [hsource, htarget, hparams, Nat.add_comm]

/-- Values change places: a static replacement takes the receiver behind the return buffer, and no
replacement takes a context. -/
def Abi.shifts (abi : Abi) (source target : Method) (context : Bool) : Bool :=
  (!source.isStatic && target.isStatic && abi.hasReturnBuffer source.returnType) ||
    (abi.hasSlot .genericContext && context)

theorem planFixup_cases (huser : .userArguments ∈ abi.argumentOrder)
    (hopen : target.isOpenGeneric = false) (hsource : source.isConstructor = false)
    (htarget : target.isConstructor = false) :
    (abi.shifts source target context = false ∧
      planFixup abi source target context = .ok .direct) ∨
    (abi.shifts source target context = true ∧
      ∃ g, planFixup abi source target context = .ok (.glue g)) := by
  obtain ⟨user, hstart⟩ := (source.callShape abi context).start?_isSome huser
  have hbuffer : (source.callShape abi context).returnBuffer?.isSome =
      abi.hasReturnBuffer source.returnType := by
    cases h : abi.hasReturnBuffer source.returnType <;> simp [Method.callShape, h]
  have hcontext : (source.callShape abi context).hasContext =
      (abi.hasSlot .genericContext && context) := rfl
  have hshifts : (!(!source.isStatic && target.isStatic && abi.hasReturnBuffer source.returnType) &&
      !(abi.hasSlot .genericContext && context)) = !abi.shifts source target context := by
    rw [Abi.shifts, Bool.not_or]
  unfold planFixup
  simp only [hopen, hsource, htarget, hbuffer, hcontext, hstart, hshifts]
  cases abi.shifts source target context with
  | false => exact Or.inl ⟨rfl, rfl⟩
  | true => exact Or.inr ⟨rfl, _, rfl⟩

section
variable {α : Type} {given : Passed source → α} {taken : Passed target → α}

/-- Whatever is looked at in values that tells the receiver from the return buffer: caller and
replacement agree on it place by place where no places change, and only there. -/
theorem passed_map_eq_iff (h : abi.Conventional) (hmatch : source.Matches target)
    (hoperands : (operands target).map taken = (operands source).map given)
    (hbuffer : taken .buffer = given .buffer) (hne : given .this ≠ given .buffer) :
    (target.passed abi false).map taken = (source.passed abi context).map given ↔
      abi.shifts source target context = false := by
  cases hcontext : abi.hasSlot .genericContext && context with
  | true =>
    have hlength : (target.passed abi false).length = (source.passed abi false).length := by
      have hcount := hmatch.operands_length
      rw [target.passed_eq h, source.passed_eq h, hmatch.returns]
      simp only [operands, List.length_append] at hcount ⊢
      split <;> simp only [List.length_cons, List.length_nil] <;> omega
    have hlt := source.passed_length_lt hcontext
    constructor
    · intro heq
      have hsame := congrArg List.length heq
      simp only [List.length_map] at hsame
      omega
    · simp [Abi.shifts, hcontext]
  | false =>
    rw [source.passed_uncontexted hcontext, target.passed_eq h, source.passed_eq h, hmatch.returns,
      Abi.shifts, hcontext, Bool.or_false]
    simp only [operands, List.map_append] at hoperands ⊢
    rcases hmatch.takes with ⟨hkind, -⟩ | ⟨hsource, htarget, -⟩
    · have hreceivers :
          ((receiver target).map taken).length = ((receiver source).map given).length := by
        simp only [receiver, hkind, List.length_map]
        split <;> rfl
      obtain ⟨hreceiver, husers⟩ := List.append_inj hoperands hreceivers
      rw [hreceiver, husers, hkind]
      cases abi.hasReturnBuffer source.returnType <;> simp [hbuffer]
    · have hnone : receiver target = [] := by simp [receiver, htarget]
      have hthis : receiver source = [.this] := by simp [receiver, hsource]
      rw [hnone, hthis] at hoperands ⊢
      -- With a buffer, the first value is the receiver to the one and the buffer to the other.
      cases abi.hasReturnBuffer source.returnType with
      | false => simpa [hsource] using hoperands
      | true => simp [hsource, htarget, hbuffer, hne.symm]

end

end

/-- Under the conventions of all platforms, and others in which a return buffer comes between the
receiver and the user arguments, a replacement of the same shape is called directly exactly where
callers pass each value in the place in which the replacement expects it. If the operands have the
same types, that is where callers pass the types that it expects. Anywhere else there is glue. -/
theorem planFixup_direct_iff :
    (∀ builtin ∈ [Abi.systemV64, .win64, .aapcs64, .cdecl], builtin.Conventional) ∧
    ∀ (abi : Abi) (source target : Method) (context : Bool), abi.Conventional →
      source.Matches target → target.isOpenGeneric = false →
      source.isConstructor = false → target.isConstructor = false →
        let plan := planFixup abi source target context
        let expected := target.passed abi false
        let passed := source.passed abi context
        (plan = .ok .direct ↔ expected.map (Passed.meant source) = passed.map some) ∧
        ((Passed.operands target).map Passed.type = (Passed.operands source).map Passed.type →
          (plan = .ok .direct ↔ expected.map Passed.type = passed.map Passed.type)) ∧
        (plan = .ok .direct ∨ ∃ g, plan = .ok (.glue g)) := by
  refine ⟨Abi.conventional_builtin, ?_⟩
  intro abi source target context h hmatch hopen hsource htarget plan expected passed
  have huser : .userArguments ∈ abi.argumentOrder := h.ordered.subset (by simp)
  have hplaces : expected.map (Passed.meant source) = passed.map some ↔
      abi.shifts source target context = false :=
    passed_map_eq_iff h hmatch (Passed.operands_meant hmatch.operands_length) rfl (by simp)
  have htypes (hoperands : (Passed.operands target).map Passed.type =
      (Passed.operands source).map Passed.type) :
      expected.map Passed.type = passed.map Passed.type ↔
        abi.shifts source target context = false :=
    passed_map_eq_iff h hmatch hoperands (congrArg TypeRef.byRef hmatch.returns) nofun
  rcases planFixup_cases huser hopen hsource htarget with ⟨hshifts, hdirect⟩ | ⟨hshifts, g, hglue⟩
  · have hplan : plan = .ok .direct := hdirect
    exact ⟨by simp [hplan, hplaces, hshifts], fun ho => by simp [hplan, htypes ho, hshifts],
      Or.inl hplan⟩
  · have hplan : plan = .ok (.glue g) := hglue
    exact ⟨by simp [hplan, hplaces, hshifts], fun ho => by simp [hplan, htypes ho, hshifts],
      Or.inr ⟨g, hplan⟩⟩

/-- A struct comes back through a buffer behind the receiver, where a static replacement expects the
receiver behind the buffer. Where the buffer has no place among the arguments, nothing moves. -/
theorem planFixup_direct_iff_buffered :
    let source : Method := {
      name := "Get", handle := 0x1000, declaringType := some "Map", isStatic := false
      params := [.pointer], returnType := .struct "Big" 24 }
    let target : Method := {
      name := "Hook", handle := 0x2000, params := [.object "Map", .pointer]
      returnType := .struct "Big" 24 }
    source.passed .win64 false = [.this, .buffer, .user 0] ∧
      target.passed .win64 false = [.buffer, .user 0, .user 1] ∧
      (∃ g, planFixup .win64 source target false = .ok (.glue g)) ∧
      planFixup .aapcs64 source target false = .ok .direct := by
  intro source target
  have hmatch : source.Matches target := ⟨rfl, Or.inr ⟨rfl, rfl, _, rfl⟩⟩
  obtain ⟨hconventional, hdirect⟩ := planFixup_direct_iff
  obtain ⟨hplaces, -, hplans⟩ :=
    hdirect .win64 source target false (hconventional _ (by simp)) hmatch rfl rfl rfl
  obtain ⟨-, htypes, -⟩ :=
    hdirect .aapcs64 source target false (hconventional _ (by simp)) hmatch rfl rfl rfl
  refine ⟨rfl, rfl, hplans.resolve_left fun h => ?_, (htypes rfl).mpr rfl⟩
  exact absurd (hplaces.mp h) (by decide)

end Interpose

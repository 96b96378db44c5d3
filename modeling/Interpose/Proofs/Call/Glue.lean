import Interpose.Call.Glue
import Interpose.Proofs.Action
import Mathlib.Data.List.FinRange
import Mathlib.Data.List.TakeWhile

/-!
# Running glue

A forwarding routine is run on a stack, with the values that a caller passes in the order of the
convention. Whatever glue is planned, it takes exactly these values, calls once with the receiver
and the user arguments, and leaves nothing on the stack but its own result.
-/

namespace Interpose

inductive Passed (m : Method) where
  | this
  | buffer
  | context
  | user (i : Fin m.params.length)
  deriving DecidableEq, Repr

namespace Passed
variable {m : Method}

def param : Passed m → GlueParam
  | this => ⟨.thisPointer, .object (m.declaringType.getD "object")⟩
  | buffer => ⟨.returnBuffer, .byRef m.returnType⟩
  | context => ⟨.genericContext, .nativeInt⟩
  | user i => ⟨.userArguments, m.params[i]⟩

def users (m : Method) : List (Passed m) := (List.finRange m.params.length).map user

def receiver (m : Method) : List (Passed m) := if m.isStatic then [] else [this]

/-- What a caller passes in a slot. -/
def inSlot (m : Method) (abi : Abi) (hasContext : Bool) : Slot → List (Passed m)
  | .thisPointer => receiver m
  | .returnBuffer => if abi.classify m.returnType true = .byReference then [buffer] else []
  | .genericContext => if hasContext then [context] else []
  | .userArguments => users m

theorem context_not_mem (m : Method) : context ∉ receiver m ∧ context ∉ users m := by
  cases hstatic : m.isStatic <;> simp [receiver, users, hstatic]

end Passed

/-- What a caller passes under a convention, in the order of its slots. -/
def Method.passed (m : Method) (abi : Abi) (hasContext : Bool) : List (Passed m) :=
  abi.argumentOrder.flatMap (Passed.inSlot m abi hasContext)

inductive Operand (α : Type) where
  | passed (value : α)
  | result
  deriving DecidableEq, Repr

structure Activation (α : Type) where
  stack : List (Operand α) := []
  reads : List α := []
  calls : List (List (Operand α)) := []
  stores : List (TypeRef × Operand α × Operand α) := []
  deriving DecidableEq, Repr

namespace Activation
variable {α : Type} (args : List α) (arity : Nat) (returns : Bool)

def load (index : Nat) (s : Activation α) : Option (Activation α) :=
  args[index]?.map fun a => { s with stack := .passed a :: s.stack, reads := s.reads ++ [a] }

def call (s : Activation α) : Option (Activation α) :=
  if arity ≤ s.stack.length then
    some { s with
      stack := (if returns then [.result] else []) ++ s.stack.drop arity
      calls := s.calls ++ [(s.stack.take arity).reverse] }
  else none

def store (type : TypeRef) (s : Activation α) : Option (Activation α) :=
  match s.stack with
  | value :: pointer :: rest =>
    some { s with stack := rest, stores := s.stores ++ [(type, pointer, value)] }
  | _ => none

/-- Runs operations up to the return; there is none when an argument or an operand is missing. The
target takes `arity` arguments, and `returns` tells whether it has a result. -/
def run : List GlueOp → Activation α → Option (Activation α)
  | [], _ => none
  | .loadArg index :: rest, s => s.load args index >>= run rest
  | .call :: rest, s => s.call arity returns >>= run rest
  | .storeIndirect type :: rest, s => s.store type >>= run rest
  | .loadReturnBuffer index :: rest, s => s.load args index >>= run rest
  | .ret :: _, s => some s

variable {args arity returns} {s : Activation α} {rest : List GlueOp} {values : List α}
  {positions : List Nat}

/-- Loads put the values at some positions on the stack, the last one on top. -/
theorem run_loads (h : positions.map (args[·]?) = values.map some) :
    run args arity returns (positions.map .loadArg ++ rest) s =
      run args arity returns rest { s with
        stack := (values.map .passed).reverse ++ s.stack, reads := s.reads ++ values } := by
  induction positions generalizing values s with
  | nil =>
    obtain rfl : values = [] := by simpa using h.symm
    simp
  | cons position positions ih =>
    cases values with
    | nil => simp at h
    | cons value values =>
      obtain ⟨hvalue, hvalues⟩ : args[position]? = some value ∧
          positions.map (args[·]?) = values.map some := by simpa using h
      have hload : s.load args position = some { s with
          stack := .passed value :: s.stack, reads := s.reads ++ [value] } := by
        simp [load, hvalue]
      simp only [List.map_cons, List.cons_append, run, hload, Option.bind_eq_bind,
        Option.bind_some]
      rw [ih hvalues]
      simp

theorem run_call {operands below : List (Operand α)} (hstack : s.stack = operands.reverse ++ below)
    (harity : operands.length = arity) :
    run args arity returns (.call :: rest) s = run args arity returns rest { s with
      stack := (if returns then [.result] else []) ++ below, calls := s.calls ++ [operands] } := by
  have hcall : s.call arity returns = some { s with
      stack := (if returns then [.result] else []) ++ below, calls := s.calls ++ [operands] } := by
    subst harity
    simp [call, hstack]
  simp only [run, hcall, Option.bind_eq_bind, Option.bind_some]

end Activation

namespace CallShape
variable {m : Method} {abi : Abi} {hasContext : Bool} {order : List Slot} {slot : Slot} {n i : Nat}
  {shape : CallShape}

theorem slotParams_eq (h : slot ∈ abi.argumentOrder) :
    (m.callShape abi hasContext).slotParams slot =
      (Passed.inSlot m abi hasContext slot).map Passed.param := by
  have hslot : abi.hasSlot slot = true := by simpa [Abi.hasSlot] using h
  cases slot with
  | thisPointer =>
    cases hs : m.isStatic <;>
      simp [slotParams, Method.callShape, Method.thisType?, Passed.inSlot, Passed.receiver,
        Passed.param, hs]
  | returnBuffer =>
    by_cases hr : abi.classify m.returnType true = .byReference <;>
      simp [slotParams, Method.callShape, Abi.hasReturnBuffer, Passed.inSlot, Passed.param, hslot,
        hr]
  | genericContext =>
    cases hasContext <;>
      simp [slotParams, Method.callShape, Passed.inSlot, Passed.param, hslot]
  | userArguments =>
    have hparams := congrArg (List.map (GlueParam.mk .userArguments))
      (List.map_getElem_finRange m.params)
    rw [List.map_map] at hparams
    simp only [slotParams, Method.callShape, Passed.inSlot, Passed.users, List.map_map]
    exact hparams.symm

theorem layout_eq (h : ∀ slot ∈ order, slot ∈ abi.argumentOrder) :
    (m.callShape abi hasContext).layout order =
      (order.flatMap (Passed.inSlot m abi hasContext)).map Passed.param := by
  unfold layout
  rw [List.map_flatMap]
  exact List.flatMap_congr fun slot hs => slotParams_eq (h slot hs)

theorem start?_eq_some (h : shape.start? order slot = some n) :
    ∃ front back, order = front ++ slot :: back ∧ n = (shape.layout front).length := by
  unfold start? at h
  have hsplit := List.takeWhile_append_dropWhile (p := (· ≠ slot)) (l := order.reverse)
  split at h
  · cases h
  · rename_i head before hdrop
    cases h
    have hne : order.reverse.dropWhile (· ≠ slot) ≠ [] := by
      rw [hdrop]
      nofun
    have hhead := List.head_dropWhile_not (p := (· ≠ slot)) hne
    simp only [hdrop, List.head_cons] at hhead
    obtain rfl : head = slot := by simpa using hhead
    rw [hdrop] at hsplit
    refine ⟨before.reverse, (order.reverse.takeWhile (· ≠ head)).reverse, ?_, rfl⟩
    have horder := congrArg List.reverse hsplit
    simpa only [List.reverse_append, List.reverse_cons, List.reverse_reverse, List.append_assoc,
      List.singleton_append] using horder.symm

theorem start?_isSome (h : slot ∈ order) : ∃ n, shape.start? order slot = some n := by
  unfold start?
  split
  · rename_i hdrop
    have := List.dropWhile_eq_nil_iff.mp hdrop slot (List.mem_reverse.mpr h)
    simp at this
  · exact ⟨_, rfl⟩

/-- The values of a slot are the arguments from its start on. -/
theorem getElem?_passed {shape : CallShape} (hshape : shape = m.callShape abi hasContext)
    (h : shape.start? abi.argumentOrder slot = some n)
    (hi : i < (Passed.inSlot m abi hasContext slot).length) :
    (m.passed abi hasContext)[n + i]? = (Passed.inSlot m abi hasContext slot)[i]? := by
  obtain ⟨front, back, horder, rfl⟩ := start?_eq_some h
  have hfront : (shape.layout front).length =
      (front.flatMap (Passed.inSlot m abi hasContext)).length := by
    rw [hshape, layout_eq fun slot hs => by simp [horder, hs], List.length_map]
  rw [Method.passed, horder, List.flatMap_append, List.flatMap_cons, hfront,
    List.getElem?_append_right (Nat.le_add_right ..), Nat.add_sub_cancel_left,
    List.getElem?_append_left hi]

theorem map_getElem?_passed {shape : CallShape} (hshape : shape = m.callShape abi hasContext)
    (h : shape.start? abi.argumentOrder slot = some n) :
    ((List.range (Passed.inSlot m abi hasContext slot).length).map (n + ·)).map
      ((m.passed abi hasContext)[·]?) = (Passed.inSlot m abi hasContext slot).map some := by
  apply List.ext_getElem
  · simp
  · intro i hi _
    have hlt : i < (Passed.inSlot m abi hasContext slot).length := by simpa using hi
    simp only [List.getElem_map, List.getElem_range]
    rw [getElem?_passed hshape h hlt, List.getElem?_eq_getElem hlt]

theorem loads_users {shape : CallShape} (hshape : shape = m.callShape abi hasContext)
    (h : shape.start? abi.argumentOrder .userArguments = some n) :
    ((List.range m.params.length).map (n + ·)).map ((m.passed abi hasContext)[·]?) =
      (Passed.users m).map some := by
  have hall := map_getElem?_passed hshape h
  simpa only [Passed.inSlot, Passed.users, List.length_map, List.length_finRange] using hall

theorem loads_receiver {shape : CallShape} (hshape : shape = m.callShape abi hasContext)
    (hslot : m.isStatic = false → abi.hasSlot .thisPointer = true) :
    (shape.thisType?.bind fun _ => shape.start? abi.argumentOrder .thisPointer).toList.map
      ((m.passed abi hasContext)[·]?) = (Passed.receiver m).map some := by
  cases hstatic : m.isStatic with
  | true => simp [hshape, Method.callShape, Method.thisType?, Passed.receiver, hstatic]
  | false =>
    have hmem : Slot.thisPointer ∈ abi.argumentOrder := by simpa [Abi.hasSlot] using hslot hstatic
    obtain ⟨n, hn⟩ := shape.start?_isSome hmem
    have htype : shape.thisType? = some (.object (m.declaringType.getD "object")) := by
      simp [hshape, Method.callShape, Method.thisType?, hstatic]
    have hall := map_getElem?_passed hshape hn
    simpa [htype, hn, Passed.inSlot, Passed.receiver, hstatic] using hall

theorem loads_buffer {shape : CallShape} (hshape : shape = m.callShape abi hasContext)
    (hbuffer : abi.hasReturnBuffer m.returnType = true) :
    shape.returnBuffer? = some (.byRef m.returnType) ∧
      ∃ n, shape.start? abi.argumentOrder .returnBuffer = some n ∧
        (m.passed abi hasContext)[n]? = some .buffer := by
  obtain ⟨hclass, hmem⟩ : abi.classify m.returnType true = .byReference ∧
      Slot.returnBuffer ∈ abi.argumentOrder := by
    simpa [Abi.hasReturnBuffer, Abi.hasSlot] using hbuffer
  obtain ⟨n, hn⟩ := shape.start?_isSome hmem
  refine ⟨?_, n, hn, ?_⟩
  · simp [hshape, Method.callShape, hbuffer]
  · simpa [Passed.inSlot, hclass] using map_getElem?_passed hshape hn

end CallShape

section
variable {source target : Method} {abi : Abi} {context : Bool} {g : Glue}

theorem Abi.isVoid_of_hasReturnBuffer {type : TypeRef} (h : abi.hasReturnBuffer type = true) :
    type.isVoid = false := by
  cases type with
  | void => simp [hasReturnBuffer, classify, Classifier.classify, Classifier.aggregateSize?] at h
  | _ => rfl

theorem planFixup_eq_glue (h : planFixup abi source target context = .ok (.glue g)) :
    ∃ shape user, shape = source.callShape abi context ∧
      shape.start? abi.argumentOrder .userArguments = some user ∧
      g.params = shape.layout abi.argumentOrder ∧ g.target = target.handle ∧
      (g.returnType = match shape.returnBuffer? with
        | some type => if abi.returnsReturnBuffer then type else .void
        | none => source.returnType) ∧
      g.body = forwardBody abi source.returnType
        (shape.returnBuffer?.bind fun _ => shape.start? abi.argumentOrder .returnBuffer)
        (shape.thisType?.bind fun _ => shape.start? abi.argumentOrder .thisPointer)
        user source.params.length := by
  unfold planFixup at h
  split at h
  · cases h
  · split at h
    · cases h
    · dsimp only at h
      split at h
      · cases h
      · split at h
        · cases h
        · rename_i user huser
          cases h
          exact ⟨_, user, rfl, huser, rfl, rfl, rfl, rfl⟩

/-- Loading the buffer, the receiver and the user arguments and calling takes the latter two off the
stack again. -/
theorem Activation.run_forward {α : Type} {args buffer receiver users : List α} {returns : Bool}
    {buffer? this? : Option Nat} {user count : Nat} {rest : List GlueOp}
    (hbuffer : buffer?.toList.map (args[·]?) = buffer.map some)
    (hthis : this?.toList.map (args[·]?) = receiver.map some)
    (husers : ((List.range count).map (user + ·)).map (args[·]?) = users.map some) :
    run args (receiver.length + users.length) returns
      (buffer?.toList.map .loadArg ++ this?.toList.map .loadArg ++
        (List.range count).map (fun i => .loadArg (user + i)) ++ .call :: rest) {} =
    run args (receiver.length + users.length) returns rest {
      stack := (if returns then [.result] else []) ++ (buffer.map .passed).reverse
      reads := buffer ++ receiver ++ users
      calls := [(receiver ++ users).map .passed] } := by
  have hall : (buffer?.toList ++ this?.toList ++ (List.range count).map (user + ·)).map (args[·]?) =
      (buffer ++ receiver ++ users).map some := by
    simp only [List.map_append, hbuffer, hthis, husers]
  have hops : buffer?.toList.map .loadArg ++ this?.toList.map .loadArg ++
      (List.range count).map (fun i => .loadArg (user + i)) ++ .call :: rest =
      (buffer?.toList ++ this?.toList ++ (List.range count).map (user + ·)).map .loadArg ++
        .call :: rest := by
    simp only [List.map_append, List.map_map, Function.comp_def]
  have hstack : ((buffer ++ receiver ++ users).map Operand.passed).reverse ++ [] =
      ((receiver ++ users).map .passed).reverse ++ (buffer.map .passed).reverse := by
    simp
  have harity : ((receiver ++ users).map Operand.passed).length =
      receiver.length + users.length := by
    simp
  rw [hops, run_loads hall, run_call hstack harity]
  rfl

section
variable {α : Type} {args receiver users : List α} {b : α} {returns : Bool} {type : TypeRef}
  {this? : Option Nat} {n user count : Nat}

theorem Activation.run_forwardBody_none
    (hthis : this?.toList.map (args[·]?) = receiver.map some)
    (husers : ((List.range count).map (user + ·)).map (args[·]?) = users.map some) :
    run args (receiver.length + users.length) returns (forwardBody abi type none this? user count)
      {} = some {
        stack := if returns then [.result] else []
        reads := receiver ++ users
        calls := [(receiver ++ users).map .passed] } := by
  have hbuffer : (none : Option Nat).toList.map (args[·]?) = ([] : List α).map some := rfl
  have hbody : forwardBody abi type none this? user count =
      (none : Option Nat).toList.map .loadArg ++ this?.toList.map .loadArg ++
        (List.range count).map (fun i => .loadArg (user + i)) ++ .call :: [.ret] := by
    simp [forwardBody]
  rw [hbody, run_forward hbuffer hthis husers]
  simp [run]

theorem Activation.run_forwardBody_some (hbuffer : args[n]? = some b)
    (hthis : this?.toList.map (args[·]?) = receiver.map some)
    (husers : ((List.range count).map (user + ·)).map (args[·]?) = users.map some) :
    run args (receiver.length + users.length) true (forwardBody abi type (some n) this? user count)
      {} = some {
        stack := if abi.returnsReturnBuffer then [.passed b] else []
        reads := [b] ++ receiver ++ users ++ if abi.returnsReturnBuffer then [b] else []
        calls := [(receiver ++ users).map .passed]
        stores := [(type, .passed b, .result)] } := by
  have hbuffers : (some n).toList.map (args[·]?) = [b].map some := by simp [hbuffer]
  have hbody : forwardBody abi type (some n) this? user count =
      (some n).toList.map .loadArg ++ this?.toList.map .loadArg ++
        (List.range count).map (fun i => .loadArg (user + i)) ++ .call :: .storeIndirect type ::
          ((if abi.returnsReturnBuffer then [.loadReturnBuffer n] else []) ++ [.ret]) := by
    simp [forwardBody]
  rw [hbody, run_forward hbuffers hthis husers]
  cases abi.returnsReturnBuffer <;> simp [run, store, load, hbuffer]
end

/-- Planned glue takes what a caller passes, in that order. Run on it, it never runs out of operands
or arguments, calls its target once with the receiver and the user arguments, does not look at the
context, stores the result through the return buffer if there is one, and returns with just its own
result on the stack. -/
theorem planFixup_forwards (hthis : source.isStatic = false → abi.hasSlot .thisPointer = true)
    (h : planFixup abi source target context = .ok (.glue g)) :
    let args := source.passed abi context
    let operands := Passed.receiver source ++ Passed.users source
    g.params = args.map Passed.param ∧ g.target = target.handle ∧
    ∃ s, Activation.run args operands.length (!source.returnType.isVoid) g.body {} = some s ∧
      s.calls = [operands.map .passed] ∧ .context ∉ s.reads ∧
      if abi.hasReturnBuffer source.returnType then
        s.stores = [(source.returnType, .passed .buffer, .result)] ∧
        if abi.returnsReturnBuffer then
          s.stack = [.passed .buffer] ∧ g.returnType = .byRef source.returnType
        else s.stack = [] ∧ g.returnType = .void
      else s.stores = [] ∧ g.returnType = source.returnType ∧
        s.stack = if source.returnType.isVoid then [] else [.result] := by
  intro args operands
  obtain ⟨shape, user, hshape, huser, hparams, htarget, hreturn, hbody⟩ := planFixup_eq_glue h
  refine ⟨?_, htarget, ?_⟩
  · rw [hparams, hshape]
    exact CallShape.layout_eq fun _ hs => hs
  have husers := CallShape.loads_users hshape huser
  have hreceiver := CallShape.loads_receiver hshape hthis
  obtain ⟨hcontext, hcontext'⟩ := Passed.context_not_mem source
  cases hbuffer : abi.hasReturnBuffer source.returnType with
  | false =>
    have hnone : shape.returnBuffer? = none := by simp [hshape, Method.callShape, hbuffer]
    rw [hnone] at hreturn hbody
    have hrun : Activation.run args operands.length (!source.returnType.isVoid) g.body {} = some {
        stack := if !source.returnType.isVoid then [.result] else []
        reads := operands
        calls := [operands.map .passed] } := by
      rw [hbody, List.length_append]
      exact Activation.run_forwardBody_none hreceiver husers
    refine ⟨_, hrun, rfl, ?_, ?_⟩
    · simp [operands, hcontext, hcontext']
    · cases hvoid : source.returnType.isVoid <;> simp [hreturn]
  | true =>
    obtain ⟨hsome, n, hn, hread⟩ := CallShape.loads_buffer hshape hbuffer
    have hvalue := Abi.isVoid_of_hasReturnBuffer hbuffer
    simp only [hsome, hn, Option.bind_some] at hreturn hbody
    have hrun : Activation.run args operands.length (!source.returnType.isVoid) g.body {} = some {
        stack := if abi.returnsReturnBuffer then [.passed .buffer] else []
        reads := [.buffer] ++ Passed.receiver source ++ Passed.users source ++
          if abi.returnsReturnBuffer then [.buffer] else []
        calls := [operands.map .passed]
        stores := [(source.returnType, .passed .buffer, .result)] } := by
      rw [hbody, List.length_append, hvalue]
      exact Activation.run_forwardBody_some hread hreceiver husers
    refine ⟨_, hrun, rfl, ?_, ?_⟩
    · cases abi.returnsReturnBuffer <;> simp [hcontext, hcontext']
    · cases hreturns : abi.returnsReturnBuffer <;> simp [hreturn, hreturns]

/-- An instance method with a generic context and a struct returned through a buffer that comes in
front of the receiver, replaced by a static one. -/
theorem planFixup_forwards_buffered :
    let abi : Abi := ⟨[.returnBuffer, .thisPointer, .genericContext, .userArguments], .win64, true⟩
    let source : Method := {
      name := "Get", handle := 0x1000, declaringType := some "Map", isStatic := false
      params := [.pointer, .nativeInt], returnType := .struct "Big" 24 }
    let target : Method := { name := "Hook", handle := 0x2000 }
    ∃ g s, planFixup abi source target true = .ok (.glue g) ∧
      g.params.map (·.slot) =
        [.returnBuffer, .thisPointer, .genericContext, .userArguments, .userArguments] ∧
      Activation.run (source.passed abi true) 3 true g.body {} = some s ∧
      s.calls = [[.passed .this, .passed (.user 0), .passed (.user 1)]] ∧
      .context ∉ s.reads ∧ s.stores = [(.struct "Big" 24, .passed .buffer, .result)] ∧
      s.stack = [.passed .buffer] := by
  intro abi source target
  obtain ⟨g, hg⟩ : ∃ g, planFixup abi source target true = .ok (.glue g) := ⟨_, rfl⟩
  obtain ⟨hparams, -, s, hrun, hcalls, hreads, hstores, hstack, -⟩ :=
    planFixup_forwards (fun _ => rfl) hg
  exact ⟨g, s, hg, by rw [hparams]; rfl, hrun, hcalls, hreads, hstores, hstack⟩

end
end Interpose

import Interpose.Call.TypeRef
import Interpose.Kind

/-!
# Calling conventions

A convention orders the slots of the special arguments and the user arguments, and says by a rule
on sizes which values travel in registers.
-/

namespace Interpose

inductive Slot where
  | thisPointer
  | returnBuffer
  | genericContext
  | userArguments
  deriving DecidableEq, Repr

namespace Slot

def name : Slot → String
  | thisPointer => "ThisPointer"
  | returnBuffer => "ReturnBuffer"
  | genericContext => "GenericContext"
  | userArguments => "UserArguments"

def all : List Slot := [thisPointer, returnBuffer, genericContext, userArguments]

def ofName? (text : String) : Option Slot := all.find? fun slot => slot.name == text

end Slot

inductive Passing where
  | inRegister
  | byReference
  | onStack
  deriving DecidableEq, Repr

def Passing.name : Passing → String
  | inRegister => "InRegister"
  | byReference => "ByReference"
  | onStack => "OnStack"

/-- The rule by which one convention passes values. -/
inductive Classifier where
  | systemV64
  | win64
  | aapcs64
  | cdecl
  deriving DecidableEq, Repr

namespace Classifier

def name : Classifier → String
  | systemV64 => "SystemV64"
  | win64 => "Win64"
  | aapcs64 => "Aapcs64"
  | cdecl => "Cdecl"

def ofName? (text : String) : Option Classifier :=
  [systemV64, win64, aapcs64, cdecl].find? fun c => c.name == text

/-- The size that decides how a value is passed; other values always fit a register. -/
def aggregateSize? : TypeRef → Option Nat
  | .struct _ size => some size
  | .primitive _ size => if 8 < size then some size else none
  | _ => none

def inRegisters (c : Classifier) (size : Nat) (isReturn : Bool) : Bool :=
  match c with
  | systemV64 | aapcs64 => size ≤ 16
  | win64 => size == 1 || size == 2 || size == 4 || size == 8
  | cdecl => isReturn && size ≤ 8

def classify (c : Classifier) (type : TypeRef) (isReturn : Bool) : Passing :=
  match aggregateSize? type with
  | none => .inRegister
  | some size =>
    if c.inRegisters size isReturn then .inRegister
    else if isReturn then .byReference
    else if c = win64 then .byReference
    else .onStack

end Classifier

structure Abi where
  argumentOrder : List Slot
  classifier : Classifier
  returnsReturnBuffer : Bool
  deriving DecidableEq, Repr

namespace Abi

open Slot in
def systemV64 : Abi :=
  ⟨[thisPointer, returnBuffer, genericContext, userArguments], .systemV64, true⟩

open Slot in
def win64 : Abi := ⟨[thisPointer, returnBuffer, genericContext, userArguments], .win64, true⟩

open Slot in
/-- The return buffer has a register of its own, outside the argument order. -/
def aapcs64 : Abi := ⟨[thisPointer, genericContext, userArguments], .aapcs64, false⟩

open Slot in
def cdecl : Abi := ⟨[thisPointer, returnBuffer, userArguments, genericContext], .cdecl, true⟩

def forPlatform? (os : OsKind) (arch : ArchKind) : Option Abi :=
  match arch, os with
  | .x86_64, .windows => some win64
  | .x86_64, .unknown => none
  | .x86_64, _ => some systemV64
  | .x86, _ => some cdecl
  | .aarch64, _ => some aapcs64
  | .arm, _ => none

variable (abi : Abi)

def classify (type : TypeRef) (isReturn : Bool) : Passing := abi.classifier.classify type isReturn

def position? (slot : Slot) : Option Nat := abi.argumentOrder.findIdx? (· == slot)

def hasSlot (slot : Slot) : Bool := abi.argumentOrder.contains slot

def contextPrecedesArguments : Bool :=
  match abi.position? .genericContext, abi.position? .userArguments with
  | some context, some arguments => context < arguments
  | _, _ => false

def hasReturnBuffer (type : TypeRef) : Bool :=
  abi.classify type true == .byReference && abi.hasSlot .returnBuffer

end Abi

end Interpose

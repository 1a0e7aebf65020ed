import JavaClass.Reader
import JavaClass.Sink

/-!
# Tables in attributes

The entries of the tables that attributes hold, each with its encoding. All but the bootstrap
methods are a fixed number of 16 bit fields.
-/

namespace JavaClass

structure ExceptionHandler where
  startPc : UInt16
  endPc : UInt16
  handlerPc : UInt16
  /-- The class of what is caught; 0 is everything. -/
  catchType : UInt16
  deriving DecidableEq, Repr

structure LineNumber where
  startPc : UInt16
  line : UInt16
  deriving DecidableEq, Repr

structure LocalVariable where
  startPc : UInt16
  length : UInt16
  nameIndex : UInt16
  /-- The descriptor of the variable, or its signature in a table of generic types. -/
  typeIndex : UInt16
  slot : UInt16
  deriving DecidableEq, Repr

structure InnerClass where
  innerIndex : UInt16
  outerIndex : UInt16
  nameIndex : UInt16
  accessFlags : UInt16
  deriving DecidableEq, Repr

structure BootstrapMethod where
  methodIndex : UInt16
  arguments : List UInt16
  deriving DecidableEq, Repr

structure MethodParameter where
  nameIndex : UInt16
  accessFlags : UInt16
  deriving DecidableEq, Repr

namespace ExceptionHandler

def decode : Decode ExceptionHandler :=
  return ⟨← Decode.u16, ← Decode.u16, ← Decode.u16, ← Decode.u16⟩

def encode (h : ExceptionHandler) : Encode := do
  Encode.u16 h.startPc
  Encode.u16 h.endPc
  Encode.u16 h.handlerPc
  Encode.u16 h.catchType

def encodedLength (_ : ExceptionHandler) : Nat :=
  8

end ExceptionHandler

namespace LineNumber

def decode : Decode LineNumber :=
  return ⟨← Decode.u16, ← Decode.u16⟩

def encode (n : LineNumber) : Encode := do
  Encode.u16 n.startPc
  Encode.u16 n.line

def encodedLength (_ : LineNumber) : Nat :=
  4

end LineNumber

namespace LocalVariable

def decode : Decode LocalVariable :=
  return ⟨← Decode.u16, ← Decode.u16, ← Decode.u16, ← Decode.u16, ← Decode.u16⟩

def encode (v : LocalVariable) : Encode := do
  Encode.u16 v.startPc
  Encode.u16 v.length
  Encode.u16 v.nameIndex
  Encode.u16 v.typeIndex
  Encode.u16 v.slot

def encodedLength (_ : LocalVariable) : Nat :=
  10

end LocalVariable

namespace InnerClass

def decode : Decode InnerClass :=
  return ⟨← Decode.u16, ← Decode.u16, ← Decode.u16, ← Decode.u16⟩

def encode (c : InnerClass) : Encode := do
  Encode.u16 c.innerIndex
  Encode.u16 c.outerIndex
  Encode.u16 c.nameIndex
  Encode.u16 c.accessFlags

def encodedLength (_ : InnerClass) : Nat :=
  8

end InnerClass

namespace BootstrapMethod

def decode : Decode BootstrapMethod :=
  return ⟨← Decode.u16, ← Decode.counted Decode.u16⟩

def encode (m : BootstrapMethod) : Encode := do
  Encode.u16 m.methodIndex
  Encode.counted "& self.bootstrap_arguments.len()" Encode.u16 m.arguments

def encodedLength (m : BootstrapMethod) : Nat :=
  4 + 2 * m.arguments.length

end BootstrapMethod

namespace MethodParameter

def decode : Decode MethodParameter :=
  return ⟨← Decode.u16, ← Decode.u16⟩

def encode (p : MethodParameter) : Encode := do
  Encode.u16 p.nameIndex
  Encode.u16 p.accessFlags

def encodedLength (_ : MethodParameter) : Nat :=
  4

end MethodParameter
end JavaClass

import JavaClass.Text.Latin1

/-!
# Constants

The entries of a constant pool, without their encoding. An index in an entry points into the same
pool; nothing here says that it points at an entry of the right kind.
-/

namespace JavaClass

inductive Constant where
  | classInfo (nameIndex : UInt16)
  | fieldRef (classIndex nameAndTypeIndex : UInt16)
  | methodRef (classIndex nameAndTypeIndex : UInt16)
  | interfaceMethodRef (classIndex nameAndTypeIndex : UInt16)
  | string (stringIndex : UInt16)
  | integer (bits : UInt32)
  | float (bits : UInt32)
  | long (high low : UInt32)
  | double (high low : UInt32)
  | nameAndType (nameIndex descriptorIndex : UInt16)
  /-- Text in modified UTF-8, kept as the bytes it is stored in. -/
  | utf8 (bytes : List UInt8)
  | methodHandle (referenceKind : UInt8) (referenceIndex : UInt16)
  | methodType (descriptorIndex : UInt16)
  | invokeDynamic (bootstrapIndex nameAndTypeIndex : UInt16)
  deriving DecidableEq, Repr, Inhabited

namespace Constant

inductive Kind where
  | classInfo | fieldRef | methodRef | interfaceMethodRef | string | integer | float | long | double
  | nameAndType | utf8 | methodHandle | methodType | invokeDynamic
  deriving DecidableEq, Repr, Inhabited

def Kind.name : Kind → String
  | .classInfo => "Class"
  | .fieldRef => "Fieldref"
  | .methodRef => "Methodref"
  | .interfaceMethodRef => "InterfaceMethodref"
  | .string => "String"
  | .integer => "Integer"
  | .float => "Float"
  | .long => "Long"
  | .double => "Double"
  | .nameAndType => "NameAndType"
  | .utf8 => "Utf8"
  | .methodHandle => "MethodHandle"
  | .methodType => "MethodType"
  | .invokeDynamic => "InvokeDynamic"

def kind : Constant → Kind
  | classInfo .. => .classInfo
  | fieldRef .. => .fieldRef
  | methodRef .. => .methodRef
  | interfaceMethodRef .. => .interfaceMethodRef
  | string .. => .string
  | integer .. => .integer
  | float .. => .float
  | long .. => .long
  | double .. => .double
  | nameAndType .. => .nameAndType
  | utf8 .. => .utf8
  | methodHandle .. => .methodHandle
  | methodType .. => .methodType
  | invokeDynamic .. => .invokeDynamic

/-- A 64 bit number takes up two indices of the pool, everything else one. -/
def isWide : Constant → Bool
  | long .. | double .. => true
  | _ => false

/-- The number of indices a constant takes up. -/
def width (c : Constant) : Nat :=
  if c.isWide then 2 else 1

theorem width_pos (c : Constant) : 0 < c.width := by
  unfold width; split <;> decide

/-- The byte that says which constant follows. -/
def tag : Constant → UInt8
  | utf8 .. => 1
  | integer .. => 3
  | float .. => 4
  | long .. => 5
  | double .. => 6
  | classInfo .. => 7
  | string .. => 8
  | fieldRef .. => 9
  | methodRef .. => 10
  | interfaceMethodRef .. => 11
  | nameAndType .. => 12
  | methodHandle .. => 15
  | methodType .. => 16
  | invokeDynamic .. => 18

def ofString (text : String) : Constant :=
  .utf8 text.toUTF8.toList

/-- The text of a `utf8` entry, one character per byte. -/
def text? : Constant → Option String
  | utf8 bytes => some (Text.latin1 bytes)
  | _ => none

def ofUInt64 (make : UInt32 → UInt32 → Constant) (value : UInt64) : Constant :=
  make (value >>> 32).toUInt32 value.toUInt32

/-- The two halves of a 64 bit number put together. -/
def joinHalves (high low : UInt32) : UInt64 :=
  (high.toUInt64 <<< 32) ||| low.toUInt64

end Constant
end JavaClass

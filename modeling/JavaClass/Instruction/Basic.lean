import JavaClass.Opcode
import JavaClass.Size

/-!
# Instructions

An instruction keeps the exact form it is stored in: `iload_0`, `iload 0` and `wide iload 0` are
three values. The opcode of a form that several share is a field, and nothing here says that it fits
the form. Offsets of branches count from the opcode of the instruction itself.
-/

namespace JavaClass

inductive Instruction where
  | plain (op : Opcode)
  | implicit (op : Opcode) (value : Opcode.ImplicitValue)
  | pushByte (value : Int8)
  | pushShort (value : Int16)
  | loadConstant (index : UInt8)
  | loadConstantWide (op : Opcode) (index : UInt16)
  | localVariable (op : Opcode) (index : UInt8)
  | increment (index : UInt8) (amount : Int8)
  | branch (op : Opcode) (offset : Int16)
  | branchWide (op : Opcode) (offset : Int32)
  /-- An index into the constant pool is the only operand. -/
  | constantRef (op : Opcode) (index : UInt16)
  | invokeInterface (index : UInt16) (count : UInt8)
  | invokeDynamic (index : UInt16)
  | newArray (element : ArrayType)
  | multiNewArray (index : UInt16) (dimensions : UInt8)
  /-- One offset for each number from `low` to `high`. The `padding` is the number of zeros between
  the opcode and the other operands. -/
  | tableSwitch (padding : UInt8) (fallback low high : Int32) (offsets : List Int32)
  /-- Pairs of a number and the offset for it. -/
  | lookupSwitch (padding : UInt8) (fallback : Int32) (pairs : List (Int32 × Int32))
  | wideLocal (op : Opcode) (index : UInt16)
  | wideIncrement (index : UInt16) (amount : Int16)
  deriving DecidableEq, Repr

namespace Instruction

def opcode : Instruction → Opcode
  | plain op | implicit op _ | loadConstantWide op _ | localVariable op _ | branch op _
  | branchWide op _ | constantRef op _ => op
  | pushByte .. => .bipush
  | pushShort .. => .sipush
  | loadConstant .. => .ldc
  | increment .. => .iinc
  | invokeInterface .. => .invokeinterface
  | invokeDynamic .. => .invokedynamic
  | newArray .. => .newarray
  | multiNewArray .. => .multianewarray
  | tableSwitch .. => .tableswitch
  | lookupSwitch .. => .lookupswitch
  | wideLocal .. | wideIncrement .. => .wide

/-- The type an instruction works on; of a widened one, that of the instruction that is widened. -/
def valueType : Instruction → ValueType
  | wideLocal op _ => op.valueType
  | wideIncrement .. => Opcode.iinc.valueType
  | i => i.opcode.valueType

/-- The number of bytes after the opcode. -/
def operandLength : Instruction → Nat
  | plain .. | implicit .. => 0
  | pushByte .. | loadConstant .. | localVariable .. | newArray .. => 1
  | pushShort .. | loadConstantWide .. | increment .. | branch .. | constantRef .. => 2
  | multiNewArray .. | wideLocal .. => 3
  | invokeInterface .. | invokeDynamic .. | branchWide .. => 4
  | wideIncrement .. => 5
  | tableSwitch padding _ _ _ offsets => padding.toNat + 12 + 4 * offsets.length
  | lookupSwitch padding _ pairs => padding.toNat + 8 + 8 * pairs.length

/-- The number of bytes with the opcode. -/
def size (i : Instruction) : Nat :=
  1 + i.operandLength

theorem size_pos (i : Instruction) : 0 < i.size := by
  unfold size; omega

/-- The number of bytes that code takes up. -/
def codeLength (code : List Instruction) : Nat :=
  totalSize size code

end Instruction
end JavaClass

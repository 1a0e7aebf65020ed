import JavaClass.Attribute.Kind
import JavaClass.Constant.Basic
import JavaClass.Text.Number
import JavaClass.Text.Quoted

/-!
# What can go wrong

The causes for which reading or writing a class file stops, and what each of them says.
-/

namespace JavaClass

/-- What is wrong with an instruction whose opcode is fine. -/
inductive InstructionFlaw where
  | unknownArrayType (atype : UInt8)
  | fourthByteNotZero
  | thirdAndFourthByteNotZero
  | paddingNotZero
  | emptyRange (low high : Int32)
  | negativePairCount (count : Int32)
  | offsetsOutsideRange (offsets : Nat) (low high : Int32)
  deriving DecidableEq, Repr

def InstructionFlaw.message : InstructionFlaw → String
  | unknownArrayType atype => s!"unknown array type {atype.toNat}"
  | fourthByteNotZero => "fourth operand byte must be zero"
  | thirdAndFourthByteNotZero => "third and fourth operand bytes must be zero"
  | paddingNotZero => "nonzero padding byte"
  | emptyRange low high => s!"low {low.toInt} is greater than high {high.toInt}"
  | negativePairCount count => s!"npairs is negative: {count.toInt}"
  | offsetsOutsideRange offsets low high =>
    s!"{offsets} offsets for the range {low.toInt} to {high.toInt}"

inductive Error where
  | badMagic (found : UInt32)
  | invalidConstantTag (tag : UInt8)
  | unimplementedOpcode (byte : UInt8)
  | invalidWideOpcode (byte : UInt8)
  | malformedInstruction (opcode : UInt8) (flaw : InstructionFlaw)
  | unknownAttribute (name : String)
  | indexOutOfRange (index : UInt16)
  /-- The index is the second one of a 64 bit number. -/
  | unusableIndex (index : UInt16)
  | wrongConstantKind (index : UInt16) (expected actual : Constant.Kind)
  | codeLengthMismatch (declared decoded : UInt32)
  | attributeLengthMismatch (kind : Attribute.Kind) (declared : UInt32) (actual : Nat)
  | invalidFrameType (byte : UInt8)
  | invalidVerificationTag (tag : UInt8)
  | nestedTooDeep (limit : Nat)
  /-- A count does not fit the field it is written to. -/
  | countOverflow (what : String) (count : Nat)
  /-- The bytes end before the value does. -/
  | unexpectedEnd
  /-- A buffer of fixed size has no room for the next bytes. -/
  | bufferFull
  deriving DecidableEq, Repr

private def opcodeText (byte : UInt8) : String :=
  "0x" ++ Text.hexPadded 2 byte.toNat

def Error.message : Error → String
  | badMagic found => "wrong magic: got 0x" ++ Text.hex found.toNat ++ ", expected 0xCAFEBABE"
  | invalidConstantTag tag => s!"unexpected constant pool tag {tag.toNat}"
  | unimplementedOpcode byte => "unimplemented opcode " ++ opcodeText byte
  | invalidWideOpcode byte => "opcode " ++ opcodeText byte ++ " can't be used with `wide`"
  | malformedInstruction opcode flaw =>
    "malformed instruction with opcode " ++ opcodeText opcode ++ ": " ++ flaw.message
  | unknownAttribute name => "unknown attribute " ++ Text.quote name
  | indexOutOfRange index => s!"no constant pool entry at index {index.toNat}"
  | unusableIndex index =>
    s!"constant pool index {index.toNat} is the unusable second slot of a long or double"
  | wrongConstantKind index expected actual =>
    s!"expected constant pool entry {expected.name} at index {index.toNat}, got {actual.name}"
  | codeLengthMismatch declared decoded =>
    s!"`code_length` is {declared.toNat}, but the instructions take up {decoded.toNat} bytes"
  | attributeLengthMismatch kind declared actual =>
    "attribute " ++ Text.quote kind.name ++
      s!" declares a length of {declared.toNat}, but its content is {actual} bytes long"
  | invalidFrameType byte => s!"unknown stack map frame type {byte.toNat}"
  | invalidVerificationTag tag => s!"unknown verification type tag {tag.toNat}"
  | nestedTooDeep limit => s!"attributes nested deeper than {limit} levels"
  | countOverflow what count => s!"{what} has {count} elements, too many to write its length"
  | unexpectedEnd => "unexpected end of data"
  | bufferFull => "io error: failed to write whole buffer"

end JavaClass

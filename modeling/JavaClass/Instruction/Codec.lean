import JavaClass.Instruction.Basic
import JavaClass.Reader
import JavaClass.Sink

/-!
# Encoding of instructions

An instruction is its opcode and its operands. The operands of a switch are aligned to a multiple of
four bytes from the start of the code, so what a switch is read as depends on where it stands; all
others read the same everywhere. What has to be zero is checked, because writing puts a zero there
again.
-/

namespace JavaClass.Instruction

def decodeImplicit (op : Opcode) : Decode Instruction :=
  match op.implicitValue? with
  | some value => return .implicit op value
  | none => throw (.unimplementedOpcode op.byte)

def decodeInvokeInterface : Decode Instruction := do
  let index ← Decode.u16
  let count ← Decode.u8
  if (← Decode.u8) ≠ 0 then
    throw (.malformedInstruction Opcode.invokeinterface.byte .fourthByteNotZero)
  return .invokeInterface index count

def decodeInvokeDynamic : Decode Instruction := do
  let index ← Decode.u16
  if (← Decode.u16) ≠ 0 then
    throw (.malformedInstruction Opcode.invokedynamic.byte .thirdAndFourthByteNotZero)
  return .invokeDynamic index

def decodeNewArray : Decode Instruction := do
  let code ← Decode.u8
  match ArrayType.ofCode? code with
  | some element => return .newArray element
  | none => throw (.malformedInstruction Opcode.newarray.byte (.unknownArrayType code))

/-- The number of bytes from a position in the code to the next multiple of four. -/
def paddingAt (position : UInt64) : Nat :=
  (4 - (position % 4).toNat) % 4

/-- Reads the zeros that align the operands of a switch. -/
def decodePadding (op : Opcode) : Decode UInt8 := do
  let c ← get
  let padding := paddingAt (UInt64.ofNat c.offset - c.codeStart)
  let zeros ← Decode.times padding Decode.u8
  match zeros.findIdx? (· ≠ 0) with
  | none => return UInt8.ofNat padding
  | some position =>
    Decode.report (.nonzeroPadding position (← Decode.offset))
    throw (.malformedInstruction op.byte .paddingNotZero)

/-- The number of integers from `low` to `high`. -/
def rangeSize (low high : Int32) : Int :=
  high.toInt - low.toInt + 1

def decodeTableSwitch : Decode Instruction := do
  let padding ← decodePadding .tableswitch
  let fallback ← Decode.i32
  let low ← Decode.i32
  let high ← Decode.i32
  if high < low then
    throw (.malformedInstruction Opcode.tableswitch.byte (.emptyRange low high))
  return .tableSwitch padding fallback low high
    (← Decode.times (rangeSize low high).toNat Decode.i32)

def decodeLookupSwitch : Decode Instruction := do
  let padding ← decodePadding .lookupswitch
  let fallback ← Decode.i32
  let count ← Decode.i32
  if count < 0 then
    throw (.malformedInstruction Opcode.lookupswitch.byte (.negativePairCount count))
  return .lookupSwitch padding fallback
    (← Decode.times count.toInt.toNat (do return (← Decode.i32, ← Decode.i32)))

def decodeWide : Decode Instruction := do
  let byte ← Decode.u8
  match Opcode.ofByte? byte with
  | none => throw (.invalidWideOpcode byte)
  | some op =>
    match op.form with
    | .localVariable => return .wideLocal op (← Decode.u16)
    | .increment => return .wideIncrement (← Decode.u16) (← Decode.i16)
    | _ => throw (.invalidWideOpcode byte)

def decodeOperands (op : Opcode) : Decode Instruction := do
  match op.form with
  | .plain => return .plain op
  | .implicit => decodeImplicit op
  | .pushByte => return .pushByte (← Decode.i8)
  | .pushShort => return .pushShort (← Decode.i16)
  | .loadConstant => return .loadConstant (← Decode.u8)
  | .loadConstantWide => return .loadConstantWide op (← Decode.u16)
  | .localVariable => return .localVariable op (← Decode.u8)
  | .increment => return .increment (← Decode.u8) (← Decode.i8)
  | .branch => return .branch op (← Decode.i16)
  | .branchWide => return .branchWide op (← Decode.i32)
  | .constantRef => return .constantRef op (← Decode.u16)
  | .invokeInterface => decodeInvokeInterface
  | .invokeDynamic => decodeInvokeDynamic
  | .newArray => decodeNewArray
  | .multiNewArray => return .multiNewArray (← Decode.u16) (← Decode.u8)
  | .tableSwitch => decodeTableSwitch
  | .lookupSwitch => decodeLookupSwitch
  | .wide => decodeWide
  | .reserved => throw (.unimplementedOpcode op.byte)

def decode : Decode Instruction := do
  let byte ← Decode.u8
  match Opcode.ofByte? byte with
  | some op => decodeOperands op
  | none => throw (.unimplementedOpcode byte)

def encodePadding (padding : UInt8) : Encode :=
  Encode.bytes (List.replicate padding.toNat 0)

def encodeOperands : Instruction → Encode
  | plain .. | implicit .. => return
  | pushByte value => Encode.i8 value
  | pushShort value => Encode.i16 value
  | loadConstant index | localVariable _ index => Encode.u8 index
  | loadConstantWide _ index | constantRef _ index => Encode.u16 index
  | increment index amount => do
    Encode.u8 index
    Encode.i8 amount
  | branch _ offset => Encode.i16 offset
  | branchWide _ offset => Encode.i32 offset
  | invokeInterface index count => do
    Encode.u16 index
    Encode.u8 count
    Encode.u8 0
  | invokeDynamic index => do
    Encode.u16 index
    Encode.u16 0
  | newArray element => Encode.u8 element.code
  | multiNewArray index dimensions => do
    Encode.u16 index
    Encode.u8 dimensions
  | tableSwitch padding fallback low high offsets => do
    if rangeSize low high ≠ offsets.length then
      throw (.malformedInstruction Opcode.tableswitch.byte
        (.offsetsOutsideRange offsets.length low high))
    encodePadding padding
    Encode.i32 fallback
    Encode.i32 low
    Encode.i32 high
    Encode.each Encode.i32 offsets
  | lookupSwitch padding fallback pairs => do
    encodePadding padding
    Encode.i32 fallback
    if pairs.length < 0x80000000 then
      Encode.u32 (UInt32.ofNat pairs.length)
    else
      throw (.countOverflow "lookupswitch npairs" pairs.length)
    Encode.each (fun (key, offset) => do Encode.i32 key; Encode.i32 offset) pairs
  | wideLocal op index => do
    Encode.u8 op.byte
    Encode.u16 index
  | wideIncrement index amount => do
    Encode.u8 Opcode.iinc.byte
    Encode.u16 index
    Encode.i16 amount

def encode (i : Instruction) : Encode := do
  Encode.u8 i.opcode.byte
  encodeOperands i

/-- The bytes after the opcode. -/
def operandBytes (i : Instruction) : Except Error (List UInt8) :=
  (encodeOperands i).run

end JavaClass.Instruction

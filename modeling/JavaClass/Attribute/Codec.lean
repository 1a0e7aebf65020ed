import JavaClass.Attribute.Basic
import JavaClass.Instruction.Codec

/-!
# Encoding of attributes

An attribute is the index of its name, the length of its payload and the payload. The name decides
how the payload is read, and the length is compared with what was read. The payload is put together
before anything of the attribute is written, so its length is known, and a payload that cannot be
written leaves nothing behind.

`decodeWithin` is given the number of levels that attributes may still be nested and is defined by
recursion on it. An attribute of unknown name has no known attributes inside and is not counted.
-/

namespace JavaClass

inductive UnknownPolicy where
  /-- An unknown name is an error. -/
  | reject
  /-- The payload is kept as it is. -/
  | preserve
  deriving DecidableEq, Repr, Inhabited

structure Options where
  unknown : UnknownPolicy := .reject
  /-- How deep attributes may be nested; those of a class, a field or a method are at depth one. -/
  maxDepth : Nat := 8
  deriving DecidableEq, Repr, Inhabited

namespace CodeBlock

/-- Reads instructions as long as one starts in the next `left` bytes, of which the first `inside`
are already read as part of the one before. Also gives the number of bytes by which the last one
reaches beyond these. -/
def decodeInstructions :
    (left inside : Nat) → (code : List Instruction) → Decode (List Instruction × Nat)
  | 0, inside, code => return (code.reverse, inside)
  | left + 1, inside + 1, code => decodeInstructions left inside code
  | left + 1, 0, code => do
    let i ← Instruction.decode
    decodeInstructions left i.operandLength (i :: code)

/-- Reads instructions with the number of bytes that they take up in front. -/
def decodeCode : Decode (List Instruction) := do
  let length ← Decode.u32
  modify fun c => { c with codeStart := UInt64.ofNat c.offset }
  let (code, beyond) ← decodeInstructions length.toNat 0 []
  if beyond ≠ 0 then
    throw (.codeLengthMismatch length (UInt32.ofNat (min (length.toNat + beyond) 0xffffffff)))
  Decode.report (.readCode code.length length)
  return code

def decode : Decode CodeBlock :=
  return ⟨← Decode.u16, ← Decode.u16, ← decodeCode, ← Decode.counted ExceptionHandler.decode⟩

def encode (b : CodeBlock) : Encode := do
  Encode.u16 b.maxStack
  Encode.u16 b.maxLocals
  Encode.count 4 "code_length" (Instruction.codeLength b.instructions)
  Encode.each Instruction.encode b.instructions
  Encode.counted "exception_table_length" ExceptionHandler.encode b.handlers

def encodedLength (b : CodeBlock) : Nat :=
  10 + Instruction.codeLength b.instructions + totalSize ExceptionHandler.encodedLength b.handlers

end CodeBlock

namespace Attribute

/-- The payload of a known name, which takes `length` bytes if it says so. The attributes inside of
code are read by `inner`. -/
def decodePayload (inner : Decode Attribute) (nameIndex : UInt16) (kind : Kind) (length : UInt32) :
    Decode Attribute :=
  match kind with
  | .code => return .code nameIndex (← CodeBlock.decode) (← Decode.counted inner)
  | .constantValue => leaf do return .constantValue (← Decode.u16)
  | .stackMapTable => leaf do return .stackMapTable (← Decode.counted StackFrame.decode)
  | .exceptions => leaf do return .exceptions (← Decode.counted Decode.u16)
  | .innerClasses => leaf do return .innerClasses (← Decode.counted InnerClass.decode)
  | .enclosingMethod => leaf do return .enclosingMethod (← Decode.u16) (← Decode.u16)
  | .synthetic => leaf do return .synthetic
  | .signature => leaf do return .signature (← Decode.u16)
  | .sourceFile => leaf do return .sourceFile (← Decode.u16)
  | .sourceDebugExtension => leaf do
    return .sourceDebugExtension (← Decode.bytes length.toNat)
  | .lineNumberTable => leaf do return .lineNumberTable (← Decode.counted LineNumber.decode)
  | .localVariableTable => leaf do
    return .localVariableTable (← Decode.counted LocalVariable.decode)
  | .localVariableTypeTable => leaf do
    return .localVariableTypeTable (← Decode.counted LocalVariable.decode)
  | .deprecated => leaf do return .deprecated
  | .bootstrapMethods => leaf do return .bootstrapMethods (← Decode.counted BootstrapMethod.decode)
  | .methodParameters => leaf do
    return .methodParameters (← Decode.times (← Decode.u8).toNat MethodParameter.decode)
  | .nestHost => leaf do return .nestHost (← Decode.u16)
  | .nestMembers => leaf do return .nestMembers (← Decode.counted Decode.u16)
where
  leaf (content : Decode Content) : Decode Attribute :=
    return .leaf nameIndex (← content)

/-- Reads a payload one level further down and compares its length with the declared one. -/
def decodeMeasured (kind : Kind) (length : UInt32) (payload : Decode Attribute) :
    Decode Attribute := do
  let start ← Decode.offset
  let a ← Decode.nested payload
  let actual := (← Decode.offset) - start
  if actual ≠ length.toNat then
    throw (.attributeLengthMismatch kind length actual)
  Decode.report (.readAttribute kind length)
  return a

/-- Reads the name and the length, and then the payload, by `known` if the name is known. -/
def decodeNamed (policy : UnknownPolicy) (known : UInt16 → Kind → UInt32 → Decode Attribute) :
    Decode Attribute := do
  let nameIndex ← Decode.u16
  let length ← Decode.u32
  let name ← Decode.lift ((← Decode.pool).getUtf8 nameIndex)
  match Kind.ofName? name, policy with
  | some kind, _ => known nameIndex kind length
  | none, .reject => throw (.unknownAttribute (Text.latin1 name))
  | none, .preserve =>
    Decode.report (.keptUnknown (Text.latin1 name) length)
    return .leaf nameIndex (.unknown (← Decode.bytes length.toNat))

def decodeWithin (options : Options) : (levels : Nat) → Decode Attribute
  | 0 => decodeNamed options.unknown fun _ _ _ => throw (.nestedTooDeep options.maxDepth)
  | levels + 1 => decodeNamed options.unknown fun nameIndex kind length =>
    decodeMeasured kind length
      (decodePayload (decodeWithin options levels) nameIndex kind length)

def decode (options : Options) : Decode Attribute := do
  decodeWithin options (options.maxDepth - (← get).depth)

namespace Content

def encode : Content → Encode
  | constantValue index | signature index | sourceFile index | nestHost index => Encode.u16 index
  | stackMapTable frames => Encode.counted "number_of_entries" StackFrame.encode frames
  | exceptions indices | nestMembers indices =>
    Encode.counted "number_of_classes" Encode.u16 indices
  | innerClasses classes => Encode.counted "number_of_classes" InnerClass.encode classes
  | enclosingMethod classIndex methodIndex => do
    Encode.u16 classIndex
    Encode.u16 methodIndex
  | synthetic | deprecated => return
  | sourceDebugExtension bytes | unknown bytes => Encode.bytes bytes
  | lineNumberTable lines => Encode.counted "line_number_table_length" LineNumber.encode lines
  | localVariableTable entries =>
    Encode.counted "local_variable_table_length" LocalVariable.encode entries
  | localVariableTypeTable entries =>
    Encode.counted "local_variable_type_table_length" LocalVariable.encode entries
  | bootstrapMethods methods =>
    Encode.counted "num_bootstrap_methods" BootstrapMethod.encode methods
  | methodParameters parameters => do
    Encode.count 1 "parameters_count" parameters.length
    Encode.each MethodParameter.encode parameters

def encodedLength : Content → Nat
  | constantValue _ | signature _ | sourceFile _ | nestHost _ => 2
  | stackMapTable frames => 2 + totalSize StackFrame.encodedLength frames
  | exceptions indices | nestMembers indices => 2 + 2 * indices.length
  | innerClasses classes => 2 + totalSize InnerClass.encodedLength classes
  | enclosingMethod .. => 4
  | synthetic | deprecated => 0
  | sourceDebugExtension bytes | unknown bytes => bytes.length
  | lineNumberTable lines => 2 + 4 * lines.length
  | localVariableTable entries | localVariableTypeTable entries => 2 + 10 * entries.length
  | bootstrapMethods methods => 2 + totalSize BootstrapMethod.encodedLength methods
  | methodParameters parameters => 1 + 4 * parameters.length

end Content

/-- Writes a payload with its name and its length in front. -/
def encodeFramed (nameIndex : UInt16) (payload : Encode) : Encode := do
  match payload.run with
  | .ok bytes =>
    Encode.u16 nameIndex
    Encode.count 4 "attribute_length" bytes.length
    Encode.bytes bytes
  | .error e => throw e

mutual

def encode : Attribute → Encode
  | leaf nameIndex content => encodeFramed nameIndex content.encode
  | code nameIndex block attributes => encodeFramed nameIndex do
    block.encode
    Encode.count 2 "attributes_count" attributes.length
    encodeAll attributes

def encodeAll : List Attribute → Encode
  | [] => return
  | a :: as => do
    encode a
    encodeAll as

end

theorem encodeAll_eq (as : List Attribute) : encodeAll as = Encode.each encode as := by
  induction as with
  | nil => simp [encodeAll, Encode.each]
  | cons a as ih => simp [encodeAll, Encode.each, ih]

mutual

/-- The number of bytes of the payload. -/
def payloadLength : Attribute → Nat
  | leaf _ content => content.encodedLength
  | code _ block attributes => block.encodedLength + 2 + encodedLengthAll attributes

/-- The number of bytes of several attributes in a row. -/
def encodedLengthAll : List Attribute → Nat
  | [] => 0
  | a :: as => 6 + payloadLength a + encodedLengthAll as

end

def encodedLength (a : Attribute) : Nat :=
  6 + a.payloadLength

end Attribute
end JavaClass

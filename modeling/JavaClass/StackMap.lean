import JavaClass.Reader
import JavaClass.Sink
import JavaClass.Size

/-!
# Stack map frames

What a verifier is told about the local variables and the operand stack at some point of the code.
The type of a frame, its first byte, is not kept: it follows from the frame (`StackFrame.type`).
-/

namespace JavaClass

inductive VerificationType where
  | top | integer | float | double | long | null | uninitializedThis
  | object (classIndex : UInt16)
  /-- The value is what the `new` at this place of the code has made. -/
  | uninitialized (offset : UInt16)
  deriving DecidableEq, Repr, Inhabited

namespace VerificationType

/-- The byte that says which type follows. -/
def tag : VerificationType → UInt8
  | top => 0
  | integer => 1
  | float => 2
  | double => 3
  | long => 4
  | null => 5
  | uninitializedThis => 6
  | object _ => 7
  | uninitialized _ => 8

def decode : Decode VerificationType := do
  let tag ← Decode.u8
  match tag.toNat with
  | 0 => return .top
  | 1 => return .integer
  | 2 => return .float
  | 3 => return .double
  | 4 => return .long
  | 5 => return .null
  | 6 => return .uninitializedThis
  | 7 => return .object (← Decode.u16)
  | 8 => return .uninitialized (← Decode.u16)
  | _ => throw (.invalidVerificationTag tag)

def encode (t : VerificationType) : Encode := do
  Encode.u8 t.tag
  match t with
  | object n | uninitialized n => Encode.u16 n
  | _ => return

def encodedLength : VerificationType → Nat
  | object _ | uninitialized _ => 3
  | _ => 1

end VerificationType

/-- The stack is empty where nothing is said about it. -/
inductive StackFrame where
  /-- The same local variables as before. -/
  | same (offsetDelta : UInt8)
  | sameOneItem (offsetDelta : UInt8) (item : VerificationType)
  | sameOneItemExtended (offsetDelta : UInt16) (item : VerificationType)
  /-- The last `count` local variables are gone. -/
  | chop (count : UInt8) (offsetDelta : UInt16)
  | sameExtended (offsetDelta : UInt16)
  /-- There are more local variables. -/
  | append (offsetDelta : UInt16) (locals : List VerificationType)
  | full (offsetDelta : UInt16) (locals stack : List VerificationType)
  deriving DecidableEq, Repr, Inhabited

namespace StackFrame

/-- The first byte of a frame, which also holds a short offset or the number of variables that come
or go. There is none if that number is too large for it. -/
def type : StackFrame → Except Error UInt8
  | same offsetDelta =>
    if offsetDelta ≤ 63 then .ok offsetDelta
    else .error (.countOverflow "offset_delta of a same frame" offsetDelta.toNat)
  | sameOneItem offsetDelta _ =>
    if offsetDelta ≤ 63 then .ok (offsetDelta + 64)
    else .error (.countOverflow "offset_delta of a same frame" offsetDelta.toNat)
  | sameOneItemExtended .. => .ok 247
  | chop count _ =>
    if 1 ≤ count ∧ count ≤ 3 then .ok (251 - count)
    else .error (.countOverflow "k of a chop frame" count.toNat)
  | sameExtended _ => .ok 251
  | append _ locals =>
    if 1 ≤ locals.length ∧ locals.length ≤ 3 then .ok (251 + UInt8.ofNat locals.length)
    else .error (.countOverflow "locals of an append frame" locals.length)
  | full .. => .ok 255

def decode : Decode StackFrame := do
  let type ← Decode.u8
  if type ≤ 63 then
    return .same type
  else if type ≤ 127 then
    return .sameOneItem (type - 64) (← VerificationType.decode)
  else if type < 247 then
    throw (.invalidFrameType type)
  else if type = 247 then
    return .sameOneItemExtended (← Decode.u16) (← VerificationType.decode)
  else if type ≤ 250 then
    return .chop (251 - type) (← Decode.u16)
  else if type = 251 then
    return .sameExtended (← Decode.u16)
  else if type ≤ 254 then
    return .append (← Decode.u16) (← Decode.times (type - 251).toNat VerificationType.decode)
  else
    return .full (← Decode.u16) (← Decode.counted VerificationType.decode)
      (← Decode.counted VerificationType.decode)

def encodeBody : StackFrame → Encode
  | same _ => return
  | sameOneItem _ item => item.encode
  | sameOneItemExtended offsetDelta item => do
    Encode.u16 offsetDelta
    item.encode
  | chop _ offsetDelta | sameExtended offsetDelta => Encode.u16 offsetDelta
  | append offsetDelta locals => do
    Encode.u16 offsetDelta
    Encode.each VerificationType.encode locals
  | full offsetDelta locals stack => do
    Encode.u16 offsetDelta
    Encode.counted "number_of_locals" VerificationType.encode locals
    Encode.counted "number_of_stack_items" VerificationType.encode stack

def encode (f : StackFrame) : Encode := do
  match f.type with
  | .ok type =>
    Encode.u8 type
    f.encodeBody
  | .error e => throw e

/-- The number of bytes that types are stored in, without their count. -/
def typesLength (types : List VerificationType) : Nat :=
  totalSize VerificationType.encodedLength types

def encodedLength : StackFrame → Nat
  | same _ => 1
  | sameOneItem _ item => 1 + item.encodedLength
  | sameOneItemExtended _ item => 3 + item.encodedLength
  | chop .. | sameExtended _ => 3
  | append _ locals => 3 + typesLength locals
  | full _ locals stack => 7 + typesLength locals + typesLength stack

end StackFrame
end JavaClass

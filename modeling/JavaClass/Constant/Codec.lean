import JavaClass.Reader
import JavaClass.Sink
import JavaClass.Size

/-!
# Encoding of constants

A constant is stored as its tag and its fields, a pool as its count and its constants. The count is
one more than the number of indices, and reading goes on until the constants use all of these up.
-/

namespace JavaClass

namespace Constant

def decode : Decode Constant := do
  let tag ← Decode.u8
  match tag.toNat with
  | 1 => return .utf8 (← Decode.counted Decode.u8)
  | 3 => return .integer (← Decode.u32)
  | 4 => return .float (← Decode.u32)
  | 5 => return .long (← Decode.u32) (← Decode.u32)
  | 6 => return .double (← Decode.u32) (← Decode.u32)
  | 7 => return .classInfo (← Decode.u16)
  | 8 => return .string (← Decode.u16)
  | 9 => return .fieldRef (← Decode.u16) (← Decode.u16)
  | 10 => return .methodRef (← Decode.u16) (← Decode.u16)
  | 11 => return .interfaceMethodRef (← Decode.u16) (← Decode.u16)
  | 12 => return .nameAndType (← Decode.u16) (← Decode.u16)
  | 15 => return .methodHandle (← Decode.u8) (← Decode.u16)
  | 16 => return .methodType (← Decode.u16)
  | 18 => return .invokeDynamic (← Decode.u16) (← Decode.u16)
  | _ => throw (.invalidConstantTag tag)

def encode (c : Constant) : Encode := do
  Encode.u8 c.tag
  match c with
  | utf8 bytes => Encode.counted "bytes.len()" Encode.u8 bytes
  | integer bits | float bits => Encode.u32 bits
  | long high low | double high low =>
    Encode.u32 high
    Encode.u32 low
  | classInfo index | string index | methodType index => Encode.u16 index
  | fieldRef first second | methodRef first second | interfaceMethodRef first second
  | nameAndType first second | invokeDynamic first second =>
    Encode.u16 first
    Encode.u16 second
  | methodHandle kind index =>
    Encode.u8 kind
    Encode.u16 index

/-- The number of bytes a constant is stored in. -/
def encodedLength : Constant → Nat
  | utf8 bytes => 3 + bytes.length
  | integer .. | float .. => 5
  | long .. | double .. => 9
  | classInfo .. | string .. | methodType .. => 3
  | fieldRef .. | methodRef .. | interfaceMethodRef .. | nameAndType .. | invokeDynamic .. => 5
  | methodHandle .. => 4

end Constant

namespace Pool

/-- Adds constants until `indices` more indices are taken. False when the last of them is a 64 bit
number that would need one more. -/
def fill : (indices : Nat) → Decode Bool
  | 0 => return true
  | 1 => do
    let c ← Constant.decode
    Decode.addConstant c
    return !c.isWide
  | indices + 2 => do
    let c ← Constant.decode
    Decode.addConstant c
    if c.isWide then fill indices else fill (indices + 1)

/-- Adds the constants of a stored pool to the ones that are there already. -/
def decode : Decode Unit := do
  let count ← Decode.u16
  if count = 0 then
    throw (.indexOutOfRange count)
  if ← fill (count.toNat - 1) then
    Decode.report (.readPool (← Decode.pool).size count)
  else
    throw (.indexOutOfRange count)

def encode (p : Pool) : Encode := do
  Encode.count 2 "constant_pool_count" p.count
  Encode.each Constant.encode p.entries.toList

/-- The number of bytes a pool is stored in. -/
def encodedLength (p : Pool) : Nat :=
  2 + totalSize Constant.encodedLength p.entries.toList

end Pool
end JavaClass

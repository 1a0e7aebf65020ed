import JavaClass.ClassFile.Codec

/-!
# Operations

What one can ask of a cursor, in any order. An operation that fails leaves a cursor like one that
succeeds, and the next operation goes on from there.
-/

namespace JavaClass

inductive Operation where
  | addConstant (constant : Constant)
  | setCodeStart (offset : UInt64)
  | u8
  | u16
  | u32
  | i8
  | i16
  | i32
  | bytes (n : Nat)
  | readInstruction
  | readAttribute
  | readClass
  deriving DecidableEq, Repr

namespace Operation

/-- What an operation comes to; a constant that is added comes to its index. -/
def Value : Operation → Type
  | addConstant _ => Nat
  | setCodeStart _ => Unit
  | u8 => UInt8
  | u16 => UInt16
  | u32 => UInt32
  | i8 => Int8
  | i16 => Int16
  | i32 => Int32
  | bytes _ => List UInt8
  | readInstruction => Instruction
  | readAttribute => Attribute
  | readClass => ClassFile

def decode (options : Options) : (op : Operation) → Decode op.Value
  | addConstant constant => do
    let index := (← Decode.pool).nextIndex
    Decode.addConstant constant
    return index
  | setCodeStart offset => modify fun c => { c with codeStart := offset }
  | u8 => Decode.u8
  | u16 => Decode.u16
  | u32 => Decode.u32
  | i8 => Decode.i8
  | i16 => Decode.i16
  | i32 => Decode.i32
  | bytes n => Decode.bytes n
  | readInstruction => Instruction.decode
  | readAttribute => Attribute.decode options
  | readClass => ClassFile.decode options

def run (options : Options) (c : Cursor) (op : Operation) : Except Error op.Value × Cursor :=
  Decode.outcome (op.decode options) c

/-- The cursor after several operations, whatever comes of each. -/
def runAll (options : Options) (c : Cursor) (ops : List Operation) : Cursor :=
  ops.foldl (fun c op => (op.run options c).2) c

end Operation
end JavaClass

/-!
# Opcodes

The first byte of an instruction. Its *form* says which kind of operands follow; it is defined for
every byte and is `reserved` for those that cannot stand in a class file, three of which have a
name.
-/

namespace JavaClass

/-- The type of value that an instruction works on or produces. -/
inductive ValueType where
  | byte | short | int | long | char | float | double | reference | none
  deriving DecidableEq, Repr, Inhabited

def ValueType.name : ValueType → String
  | byte => "Byte"
  | short => "Short"
  | int => "Int"
  | long => "Long"
  | char => "Char"
  | float => "Float"
  | double => "Double"
  | reference => "Reference"
  | none => "None"

/-- A byte that stands for an instruction. -/
structure Opcode where
  byte : UInt8
  assigned : byte ≤ 0xca ∨ 0xfe ≤ byte
  deriving DecidableEq, Repr

namespace Opcode

/-- The layout of the operands, as far as it decides their number. -/
inductive Shape where
  | none
  /-- The operand is part of the opcode. -/
  | implicit
  | oneByte | twoBytes | threeBytes | fourBytes
  /-- The number of bytes depends on the operands themselves. -/
  | varying
  | invalid
  deriving DecidableEq, Repr, Inhabited

namespace Shape

def name : Shape → String
  | none => "None"
  | implicit => "Implicit"
  | oneByte => "OneByte"
  | twoBytes => "TwoBytes"
  | threeBytes => "ThreeBytes"
  | fourBytes => "FourBytes"
  | varying => "Variable"
  | invalid => "Invalid"

/-- The number of operand bytes, where it is fixed. -/
def operandLength? : Shape → Option Nat
  | none | implicit => some 0
  | oneByte => some 1
  | twoBytes => some 2
  | threeBytes => some 3
  | fourBytes => some 4
  | varying | invalid => Option.none

end Shape

/-- The meaning of the operands. -/
inductive Form where
  | plain | implicit | pushByte | pushShort | loadConstant | loadConstantWide | localVariable
  | increment | branch | branchWide | constantRef | invokeInterface | invokeDynamic | newArray
  | multiNewArray | tableSwitch | lookupSwitch | wide | reserved
  deriving DecidableEq, Repr, Inhabited

def Form.shape : Form → Shape
  | plain => .none
  | implicit => .implicit
  | pushByte | loadConstant | localVariable | newArray => .oneByte
  | pushShort | loadConstantWide | increment | branch | constantRef => .twoBytes
  | multiNewArray => .threeBytes
  | branchWide | invokeInterface | invokeDynamic => .fourBytes
  | tableSwitch | lookupSwitch | wide => .varying
  | reserved => .invalid

/-- The forms of the bytes, in runs that are given by their last byte. -/
def formRuns : List (UInt8 × Form) :=
  [(0x00, .plain), (0x0f, .implicit), (0x10, .pushByte), (0x11, .pushShort), (0x12, .loadConstant),
    (0x14, .loadConstantWide), (0x19, .localVariable), (0x2d, .implicit), (0x35, .plain),
    (0x3a, .localVariable), (0x4e, .implicit), (0x83, .plain), (0x84, .increment), (0x98, .plain),
    (0xa8, .branch), (0xa9, .localVariable), (0xaa, .tableSwitch), (0xab, .lookupSwitch),
    (0xb1, .plain), (0xb8, .constantRef), (0xb9, .invokeInterface), (0xba, .invokeDynamic),
    (0xbb, .constantRef), (0xbc, .newArray), (0xbd, .constantRef), (0xbf, .plain),
    (0xc1, .constantRef), (0xc3, .plain), (0xc4, .wide), (0xc5, .multiNewArray), (0xc7, .branch),
    (0xc9, .branchWide)]

def formOf (byte : UInt8) : Form :=
  match formRuns.find? fun run => byte ≤ run.1 with
  | some run => run.2
  | none => .reserved

def form (op : Opcode) : Form :=
  formOf op.byte

def shape (op : Opcode) : Shape :=
  op.form.shape

def ofByte? (byte : UInt8) : Option Opcode :=
  if h : byte ≤ 0xca ∨ 0xfe ≤ byte then some ⟨byte, h⟩ else none

/-- The opcodes in order of their bytes: how each is written, and what it works on. -/
def table : Array (String × ValueType) :=
  #[("nop", .none), ("aconst_null", .reference), ("iconst_m1", .int), ("iconst_0", .int),
    ("iconst_1", .int), ("iconst_2", .int), ("iconst_3", .int), ("iconst_4", .int),
    ("iconst_5", .int), ("lconst_0", .long), ("lconst_1", .long), ("fconst_0", .float),
    ("fconst_1", .float), ("fconst_2", .float), ("dconst_0", .double), ("dconst_1", .double),
    ("bipush", .int), ("sipush", .int), ("ldc", .none), ("ldc_w", .none), ("ldc2_w", .none),
    ("iload", .int), ("lload", .long), ("fload", .float), ("dload", .double),
    ("aload", .reference), ("iload_0", .int), ("iload_1", .int), ("iload_2", .int),
    ("iload_3", .int), ("lload_0", .long), ("lload_1", .long), ("lload_2", .long),
    ("lload_3", .long), ("fload_0", .float), ("fload_1", .float), ("fload_2", .float),
    ("fload_3", .float), ("dload_0", .double), ("dload_1", .double), ("dload_2", .double),
    ("dload_3", .double), ("aload_0", .reference), ("aload_1", .reference),
    ("aload_2", .reference), ("aload_3", .reference), ("iaload", .int), ("laload", .long),
    ("faload", .float), ("daload", .double), ("aaload", .reference), ("baload", .byte),
    ("caload", .char), ("saload", .short), ("istore", .int), ("lstore", .long),
    ("fstore", .float), ("dstore", .double), ("astore", .reference), ("istore_0", .int),
    ("istore_1", .int), ("istore_2", .int), ("istore_3", .int), ("lstore_0", .long),
    ("lstore_1", .long), ("lstore_2", .long), ("lstore_3", .long), ("fstore_0", .float),
    ("fstore_1", .float), ("fstore_2", .float), ("fstore_3", .float), ("dstore_0", .double),
    ("dstore_1", .double), ("dstore_2", .double), ("dstore_3", .double), ("astore_0", .reference),
    ("astore_1", .reference), ("astore_2", .reference), ("astore_3", .reference),
    ("iastore", .int), ("lastore", .long), ("fastore", .float), ("dastore", .double),
    ("aastore", .reference), ("bastore", .byte), ("castore", .char), ("sastore", .short),
    ("pop", .none), ("pop2", .none), ("dup", .none), ("dup_x1", .none), ("dup_x2", .none),
    ("dup2", .none), ("dup2_x1", .none), ("dup2_x2", .none), ("swap", .none), ("iadd", .int),
    ("ladd", .long), ("fadd", .float), ("dadd", .double), ("isub", .int), ("lsub", .long),
    ("fsub", .float), ("dsub", .double), ("imul", .int), ("lmul", .long), ("fmul", .float),
    ("dmul", .double), ("idiv", .int), ("ldiv", .long), ("fdiv", .float), ("ddiv", .double),
    ("irem", .int), ("lrem", .long), ("frem", .float), ("drem", .double), ("ineg", .int),
    ("lneg", .long), ("fneg", .float), ("dneg", .double), ("ishl", .int), ("lshl", .long),
    ("ishr", .int), ("lshr", .long), ("iushr", .int), ("lushr", .long), ("iand", .int),
    ("land", .long), ("ior", .int), ("lor", .long), ("ixor", .int), ("lxor", .long),
    ("iinc", .none), ("i2l", .long), ("i2f", .float), ("i2d", .double), ("l2i", .int),
    ("l2f", .float), ("l2d", .double), ("f2i", .int), ("f2l", .long), ("f2d", .double),
    ("d2i", .int), ("d2l", .long), ("d2f", .float), ("i2b", .byte), ("i2c", .char),
    ("i2s", .short), ("lcmp", .int), ("fcmpl", .int), ("fcmpg", .int), ("dcmpl", .int),
    ("dcmpg", .int), ("ifeq", .none), ("ifne", .none), ("iflt", .none), ("ifge", .none),
    ("ifgt", .none), ("ifle", .none), ("if_icmpeq", .none), ("if_icmpne", .none),
    ("if_icmplt", .none), ("if_icmpge", .none), ("if_icmpgt", .none), ("if_icmple", .none),
    ("if_acmpeq", .none), ("if_acmpne", .none), ("goto", .none), ("jsr", .none), ("ret", .none),
    ("tableswitch", .none), ("lookupswitch", .none), ("ireturn", .int), ("lreturn", .long),
    ("freturn", .float), ("dreturn", .double), ("areturn", .reference), ("return", .none),
    ("getstatic", .none), ("putstatic", .none), ("getfield", .none), ("putfield", .none),
    ("invokevirtual", .none), ("invokespecial", .none), ("invokestatic", .none),
    ("invokeinterface", .none), ("invokedynamic", .none), ("new", .reference),
    ("newarray", .reference), ("anewarray", .reference), ("arraylength", .int), ("athrow", .none),
    ("checkcast", .reference), ("instanceof", .int), ("monitorenter", .none),
    ("monitorexit", .none), ("wide", .none), ("multianewarray", .reference), ("ifnull", .none),
    ("ifnonnull", .none), ("goto_w", .none), ("jsr_w", .none), ("breakpoint", .none),
    ("impdep1", .none), ("impdep2", .none)]

/-- The place in the table. The bytes between 0xca and 0xfe have none. -/
def position (op : Opcode) : Nat :=
  if op.byte ≤ 0xca then op.byte.toNat else op.byte.toNat - 51

theorem position_lt (op : Opcode) : op.position < table.size := by
  obtain ⟨byte, h⟩ := op
  have hsize : table.size = 205 := rfl
  have hlt := byte.toNat_lt
  simp only [position, UInt8.le_iff_toNat_le] at *
  split <;> simp_all <;> omega

def mnemonic (op : Opcode) : String :=
  have := op.position_lt
  table[op.position].1

def valueType (op : Opcode) : ValueType :=
  have := op.position_lt
  table[op.position].2

def bipush : Opcode := ⟨0x10, by decide⟩
def sipush : Opcode := ⟨0x11, by decide⟩
def ldc : Opcode := ⟨0x12, by decide⟩
def iinc : Opcode := ⟨0x84, by decide⟩
def tableswitch : Opcode := ⟨0xaa, by decide⟩
def lookupswitch : Opcode := ⟨0xab, by decide⟩
def invokeinterface : Opcode := ⟨0xb9, by decide⟩
def invokedynamic : Opcode := ⟨0xba, by decide⟩
def newarray : Opcode := ⟨0xbc, by decide⟩
def wide : Opcode := ⟨0xc4, by decide⟩
def multianewarray : Opcode := ⟨0xc5, by decide⟩

/-- The value that an opcode such as `iconst_3` or `aload_0` has built in. -/
inductive ImplicitValue where
  | null | minusOne | zero | one | two | three | four | five
  deriving DecidableEq, Repr, Inhabited

namespace ImplicitValue

def name : ImplicitValue → String
  | null => "Null"
  | minusOne => "M1"
  | zero => "Zero"
  | one => "One"
  | two => "Two"
  | three => "Three"
  | four => "Four"
  | five => "Five"

def toInt? : ImplicitValue → Option Int
  | null => none
  | minusOne => some (-1)
  | zero => some 0
  | one => some 1
  | two => some 2
  | three => some 3
  | four => some 4
  | five => some 5

/-- The number up to five. -/
def small : Nat → ImplicitValue
  | 0 => zero
  | 1 => one
  | 2 => two
  | 3 => three
  | 4 => four
  | _ => five

end ImplicitValue

/-- Only the opcodes of implicit form have a value. The loads and stores come in runs of four. -/
def implicitValue? (op : Opcode) : Option ImplicitValue :=
  let n := op.byte.toNat
  if op.form ≠ .implicit then none
  else if n = 0x01 then some .null
  else if n = 0x02 then some .minusOne
  else if n ≤ 0x08 then some (.small (n - 0x03))
  else if n ≤ 0x0a then some (.small (n - 0x09))
  else if n ≤ 0x0d then some (.small (n - 0x0b))
  else if n ≤ 0x0f then some (.small (n - 0x0e))
  else if n ≤ 0x2d then some (.small ((n - 0x1a) % 4))
  else some (.small ((n - 0x3b) % 4))

end Opcode

/-- The element type of an array of numbers. -/
inductive ArrayType where
  | boolean | char | float | double | byte | short | int | long
  deriving DecidableEq, Repr, Inhabited

namespace ArrayType

/-- The name of the type in a Java program. -/
def name : ArrayType → String
  | boolean => "boolean"
  | char => "char"
  | float => "float"
  | double => "double"
  | byte => "byte"
  | short => "short"
  | int => "int"
  | long => "long"

/-- The number that the type is stored as. -/
def code : ArrayType → UInt8
  | boolean => 4
  | char => 5
  | float => 6
  | double => 7
  | byte => 8
  | short => 9
  | int => 10
  | long => 11

def all : List ArrayType :=
  [boolean, char, float, double, byte, short, int, long]

def ofCode? (n : UInt8) : Option ArrayType :=
  all.find? fun t => t.code = n

end ArrayType
end JavaClass

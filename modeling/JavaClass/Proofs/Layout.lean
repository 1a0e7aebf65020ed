import JavaClass.ClassFile.Codec

/-!
# Layouts

The bytes that each part of a class file is stored in, as a function of the part alone: no sink, no
error and no order of writing. A layout is defined for every value. What it looks like when some
count does not fit its field is of no interest; `Fits` (see `Proofs/Fits`) says when that happens.

The length of a layout is the `encodedLength` of the part (`length_layout`, for each of them).
-/

namespace JavaClass

namespace Layout

def u8 (n : UInt8) : List UInt8 := BigEndian.encode 1 n.toNat

def u16 (n : UInt16) : List UInt8 := BigEndian.encode 2 n.toNat

def u32 (n : UInt32) : List UInt8 := BigEndian.encode 4 n.toNat

def i8 (n : Int8) : List UInt8 := u8 n.toUInt8

def i16 (n : Int16) : List UInt8 := u16 n.toUInt16

def i32 (n : Int32) : List UInt8 := u32 n.toUInt32

/-- The items one after the other, with their number in front. -/
def counted {α : Type} (item : α → List UInt8) (as : List α) : List UInt8 :=
  BigEndian.encode 2 as.length ++ as.flatMap item

@[simp] theorem length_u8 (n : UInt8) : (u8 n).length = 1 := BigEndian.length_encode ..

@[simp] theorem length_u16 (n : UInt16) : (u16 n).length = 2 := BigEndian.length_encode ..

@[simp] theorem length_u32 (n : UInt32) : (u32 n).length = 4 := BigEndian.length_encode ..

@[simp] theorem length_i8 (n : Int8) : (i8 n).length = 1 := BigEndian.length_encode ..

@[simp] theorem length_i16 (n : Int16) : (i16 n).length = 2 := BigEndian.length_encode ..

@[simp] theorem length_i32 (n : Int32) : (i32 n).length = 4 := BigEndian.length_encode ..

theorem u8_eq (n : UInt8) : u8 n = [n] := by
  simp [u8, BigEndian.encode, BigEndian.bound]

theorem flatMap_u8 (bs : List UInt8) : bs.flatMap u8 = bs := by
  induction bs with
  | nil => rfl
  | cons b bs ih => rw [List.flatMap_cons, ih, u8_eq, List.singleton_append]

theorem length_flatMap {α β : Type} {item : α → List β} {size : α → Nat}
    (h : ∀ a, (item a).length = size a) (as : List α) :
    (as.flatMap item).length = totalSize size as := by
  induction as with
  | nil => rfl
  | cons a as ih => rw [List.flatMap_cons, List.length_append, h, ih, totalSize_cons]

theorem length_flatMap_const {α : Type} {item : α → List UInt8} {n : Nat}
    (h : ∀ a, (item a).length = n) (as : List α) : (as.flatMap item).length = n * as.length := by
  rw [length_flatMap h, totalSize_of_forall fun _ _ => rfl]

theorem length_counted {α : Type} {item : α → List UInt8} {size : α → Nat}
    (h : ∀ a, (item a).length = size a) (as : List α) :
    (counted item as).length = 2 + totalSize size as := by
  rw [counted, List.length_append, BigEndian.length_encode, length_flatMap h]

theorem length_counted_const {α : Type} {item : α → List UInt8} {n : Nat}
    (h : ∀ a, (item a).length = n) (as : List α) : (counted item as).length = 2 + n * as.length := by
  rw [counted, List.length_append, BigEndian.length_encode, length_flatMap_const h]

end Layout

/-! ### Constants -/

namespace Constant

/-- What follows the tag. -/
def fields : Constant → List UInt8
  | utf8 bytes => Layout.counted Layout.u8 bytes
  | integer bits | float bits => Layout.u32 bits
  | long high low | double high low => Layout.u32 high ++ Layout.u32 low
  | classInfo index | string index | methodType index => Layout.u16 index
  | fieldRef first second | methodRef first second | interfaceMethodRef first second
  | nameAndType first second | invokeDynamic first second => Layout.u16 first ++ Layout.u16 second
  | methodHandle kind index => Layout.u8 kind ++ Layout.u16 index

def layout (k : Constant) : List UInt8 :=
  Layout.u8 k.tag ++ k.fields

theorem length_layout (k : Constant) : k.layout.length = k.encodedLength := by
  cases k with
  | utf8 bytes => simp [layout, fields, encodedLength, Layout.length_counted_const]; omega
  | _ => simp [layout, fields, encodedLength]

end Constant

namespace Pool

def layout (p : Pool) : List UInt8 :=
  BigEndian.encode 2 p.count ++ p.entries.toList.flatMap Constant.layout

theorem length_layout (p : Pool) : p.layout.length = p.encodedLength := by
  rw [layout, List.length_append, BigEndian.length_encode,
    Layout.length_flatMap Constant.length_layout, encodedLength]

end Pool

/-! ### Instructions -/

namespace Instruction

/-- What follows the opcode. -/
def operands : Instruction → List UInt8
  | plain .. | implicit .. => []
  | pushByte value => Layout.i8 value
  | pushShort value => Layout.i16 value
  | loadConstant index | localVariable _ index => Layout.u8 index
  | loadConstantWide _ index | constantRef _ index => Layout.u16 index
  | increment index amount => Layout.u8 index ++ Layout.i8 amount
  | branch _ offset => Layout.i16 offset
  | branchWide _ offset => Layout.i32 offset
  | invokeInterface index count => Layout.u16 index ++ (Layout.u8 count ++ Layout.u8 0)
  | invokeDynamic index => Layout.u16 index ++ Layout.u16 0
  | newArray element => Layout.u8 element.code
  | multiNewArray index dimensions => Layout.u16 index ++ Layout.u8 dimensions
  | tableSwitch padding fallback low high offsets =>
    List.replicate padding.toNat 0 ++
      (Layout.i32 fallback ++ (Layout.i32 low ++ (Layout.i32 high ++ offsets.flatMap Layout.i32)))
  | lookupSwitch padding fallback pairs =>
    List.replicate padding.toNat 0 ++
      (Layout.i32 fallback ++ (Layout.u32 (UInt32.ofNat pairs.length) ++
        pairs.flatMap fun (key, offset) => Layout.i32 key ++ Layout.i32 offset))
  | wideLocal op index => Layout.u8 op.byte ++ Layout.u16 index
  | wideIncrement index amount =>
    Layout.u8 Opcode.iinc.byte ++ (Layout.u16 index ++ Layout.i16 amount)

def layout (i : Instruction) : List UInt8 :=
  Layout.u8 i.opcode.byte ++ i.operands

theorem length_operands (i : Instruction) : i.operands.length = i.operandLength := by
  cases i with
  | tableSwitch padding fallback low high offsets =>
    simp [operands, operandLength, Layout.length_flatMap_const Layout.length_i32]; omega
  | lookupSwitch padding fallback pairs =>
    have h : ∀ pair : Int32 × Int32, (Layout.i32 pair.1 ++ Layout.i32 pair.2).length = 8 := by
      intro pair; simp
    simp [operands, operandLength, Layout.length_flatMap_const h]; omega
  | _ => simp [operands, operandLength]

theorem length_layout (i : Instruction) : i.layout.length = i.size := by
  rw [layout, List.length_append, Layout.length_u8, length_operands, size]

theorem length_code (code : List Instruction) :
    (code.flatMap layout).length = codeLength code :=
  Layout.length_flatMap length_layout code

end Instruction

/-! ### Stack map frames -/

namespace VerificationType

/-- What follows the tag. -/
def fields : VerificationType → List UInt8
  | object n | uninitialized n => Layout.u16 n
  | _ => []

def layout (t : VerificationType) : List UInt8 :=
  Layout.u8 t.tag ++ t.fields

theorem length_layout (t : VerificationType) : t.layout.length = t.encodedLength := by
  cases t <;> simp [layout, fields, encodedLength]

end VerificationType

namespace StackFrame

/-- The first byte as the frame asks for it, whether or not it is that of another kind of frame. -/
def typeByte : StackFrame → UInt8
  | same offsetDelta => offsetDelta
  | sameOneItem offsetDelta _ => offsetDelta + 64
  | sameOneItemExtended .. => 247
  | chop count _ => 251 - count
  | sameExtended _ => 251
  | append _ locals => 251 + UInt8.ofNat locals.length
  | full .. => 255

/-- What follows the first byte. -/
def body : StackFrame → List UInt8
  | same _ => []
  | sameOneItem _ item => item.layout
  | sameOneItemExtended offsetDelta item => Layout.u16 offsetDelta ++ item.layout
  | chop _ offsetDelta | sameExtended offsetDelta => Layout.u16 offsetDelta
  | append offsetDelta locals => Layout.u16 offsetDelta ++ locals.flatMap VerificationType.layout
  | full offsetDelta locals stack =>
    Layout.u16 offsetDelta ++ (Layout.counted VerificationType.layout locals ++
      Layout.counted VerificationType.layout stack)

def layout (f : StackFrame) : List UInt8 :=
  Layout.u8 f.typeByte ++ f.body

theorem length_layout (f : StackFrame) : f.layout.length = f.encodedLength := by
  have hone := VerificationType.length_layout
  have hmany := Layout.length_flatMap hone
  have hcounted := Layout.length_counted hone
  cases f <;> simp [layout, body, encodedLength, typesLength, hone, hmany, hcounted] <;> omega

end StackFrame

/-! ### Tables -/

namespace ExceptionHandler

def layout (h : ExceptionHandler) : List UInt8 :=
  Layout.u16 h.startPc ++ (Layout.u16 h.endPc ++ (Layout.u16 h.handlerPc ++ Layout.u16 h.catchType))

theorem length_layout (h : ExceptionHandler) : h.layout.length = h.encodedLength := by
  simp [layout, encodedLength]

end ExceptionHandler

namespace LineNumber

def layout (n : LineNumber) : List UInt8 :=
  Layout.u16 n.startPc ++ Layout.u16 n.line

theorem length_layout (n : LineNumber) : n.layout.length = n.encodedLength := by
  simp [layout, encodedLength]

end LineNumber

namespace LocalVariable

def layout (v : LocalVariable) : List UInt8 :=
  Layout.u16 v.startPc ++ (Layout.u16 v.length ++ (Layout.u16 v.nameIndex ++
    (Layout.u16 v.typeIndex ++ Layout.u16 v.slot)))

theorem length_layout (v : LocalVariable) : v.layout.length = v.encodedLength := by
  simp [layout, encodedLength]

end LocalVariable

namespace InnerClass

def layout (c : InnerClass) : List UInt8 :=
  Layout.u16 c.innerIndex ++ (Layout.u16 c.outerIndex ++ (Layout.u16 c.nameIndex ++
    Layout.u16 c.accessFlags))

theorem length_layout (c : InnerClass) : c.layout.length = c.encodedLength := by
  simp [layout, encodedLength]

end InnerClass

namespace BootstrapMethod

def layout (m : BootstrapMethod) : List UInt8 :=
  Layout.u16 m.methodIndex ++ Layout.counted Layout.u16 m.arguments

theorem length_layout (m : BootstrapMethod) : m.layout.length = m.encodedLength := by
  simp [layout, encodedLength, Layout.length_counted_const]; omega

end BootstrapMethod

namespace MethodParameter

def layout (p : MethodParameter) : List UInt8 :=
  Layout.u16 p.nameIndex ++ Layout.u16 p.accessFlags

theorem length_layout (p : MethodParameter) : p.layout.length = p.encodedLength := by
  simp [layout, encodedLength]

end MethodParameter

/-! ### Attributes -/

namespace CodeBlock

/-- The instructions with the number of bytes they take up in front. -/
def codeLayout (code : List Instruction) : List UInt8 :=
  BigEndian.encode 4 (Instruction.codeLength code) ++ code.flatMap Instruction.layout

def layout (b : CodeBlock) : List UInt8 :=
  Layout.u16 b.maxStack ++ (Layout.u16 b.maxLocals ++ (codeLayout b.instructions ++
    Layout.counted ExceptionHandler.layout b.handlers))

theorem length_layout (b : CodeBlock) : b.layout.length = b.encodedLength := by
  simp only [layout, codeLayout, encodedLength, List.length_append, Layout.length_u16,
    BigEndian.length_encode, Instruction.length_code,
    Layout.length_counted ExceptionHandler.length_layout]
  omega

end CodeBlock

namespace Attribute

namespace Content

def layout : Content → List UInt8
  | constantValue index | signature index | sourceFile index | nestHost index => Layout.u16 index
  | stackMapTable frames => Layout.counted StackFrame.layout frames
  | exceptions indices | nestMembers indices => Layout.counted Layout.u16 indices
  | innerClasses classes => Layout.counted InnerClass.layout classes
  | enclosingMethod classIndex methodIndex => Layout.u16 classIndex ++ Layout.u16 methodIndex
  | synthetic | deprecated => []
  | sourceDebugExtension bytes | unknown bytes => bytes
  | lineNumberTable lines => Layout.counted LineNumber.layout lines
  | localVariableTable entries | localVariableTypeTable entries =>
    Layout.counted LocalVariable.layout entries
  | bootstrapMethods methods => Layout.counted BootstrapMethod.layout methods
  | methodParameters parameters =>
    BigEndian.encode 1 parameters.length ++ parameters.flatMap MethodParameter.layout

theorem length_layout (content : Content) : content.layout.length = content.encodedLength := by
  cases content <;>
    simp [layout, encodedLength, Layout.length_counted StackFrame.length_layout,
      Layout.length_counted BootstrapMethod.length_layout,
      Layout.length_counted_const Layout.length_u16,
      Layout.length_counted InnerClass.length_layout,
      Layout.length_counted_const LineNumber.length_layout,
      Layout.length_counted_const LocalVariable.length_layout,
      Layout.length_flatMap_const MethodParameter.length_layout]

end Content

/-- A payload with its name and its length in front. -/
def framed (nameIndex : UInt16) (payload : List UInt8) : List UInt8 :=
  Layout.u16 nameIndex ++ (BigEndian.encode 4 payload.length ++ payload)

mutual

/-- What follows the name and the length. -/
def payload : Attribute → List UInt8
  | leaf _ content => content.layout
  | code _ block attributes =>
    block.layout ++ (BigEndian.encode 2 attributes.length ++ layoutAll attributes)

/-- Several attributes in a row. -/
def layoutAll : List Attribute → List UInt8
  | [] => []
  | a :: as => framed a.nameIndex (payload a) ++ layoutAll as

end

def layout (a : Attribute) : List UInt8 :=
  framed a.nameIndex a.payload

theorem layoutAll_eq (as : List Attribute) : layoutAll as = as.flatMap layout := by
  induction as with
  | nil => simp [layoutAll]
  | cons a as ih => rw [layoutAll, List.flatMap_cons, ih, layout]

theorem payload_code (nameIndex : UInt16) (block : CodeBlock) (as : List Attribute) :
    (code nameIndex block as).payload = block.layout ++ Layout.counted layout as := by
  rw [payload, layoutAll_eq, Layout.counted]

theorem length_framed (nameIndex : UInt16) (payload : List UInt8) :
    (framed nameIndex payload).length = 6 + payload.length := by
  simp [framed]; omega

mutual

theorem length_payload : ∀ a : Attribute, a.payload.length = a.payloadLength
  | leaf _ content => by rw [payload, payloadLength, Content.length_layout]
  | code _ block as => by
    simp only [payload, payloadLength, List.length_append, CodeBlock.length_layout,
      BigEndian.length_encode, length_layoutAll as]
    omega

theorem length_layoutAll : ∀ as : List Attribute, (layoutAll as).length = encodedLengthAll as
  | [] => rfl
  | a :: as => by
    rw [layoutAll, encodedLengthAll, List.length_append, length_framed, length_payload a,
      length_layoutAll as]

end

theorem length_layout (a : Attribute) : a.layout.length = a.encodedLength := by
  rw [layout, length_framed, length_payload, encodedLength]

end Attribute

/-! ### Members and classes -/

namespace Member

def layout (m : Member) : List UInt8 :=
  Layout.u16 m.accessFlags ++ (Layout.u16 m.nameIndex ++ (Layout.u16 m.descriptorIndex ++
    Layout.counted Attribute.layout m.attributes))

theorem length_layout (m : Member) : m.layout.length = m.encodedLength := by
  simp [layout, encodedLength, Layout.length_counted Attribute.length_layout]; omega

end Member

namespace ClassFile

def layout (c : ClassFile) : List UInt8 :=
  Layout.u32 magic ++ (Layout.u16 c.minorVersion ++ (Layout.u16 c.majorVersion ++
    (c.pool.layout ++ (Layout.u16 c.accessFlags ++ (Layout.u16 c.thisClass ++
      (Layout.u16 c.superClass ++ (Layout.counted Layout.u16 c.interfaces ++
        (Layout.counted Member.layout c.fields ++ (Layout.counted Member.layout c.methods ++
          Layout.counted Attribute.layout c.attributes)))))))))

theorem length_layout (c : ClassFile) : c.layout.length = c.length := by
  simp [layout, length, Pool.length_layout, Layout.length_counted_const,
    Layout.length_counted Member.length_layout, Layout.length_counted Attribute.length_layout]
  omega

end ClassFile
end JavaClass

import JavaClass.Proofs.Encodable

/-!
# Lengths of what is written

The length of a part of a class file is computed without writing it. `Encode.Sized` says that such a
length is the number of bytes that are written, whenever the part can be written at all; nothing is
asked of its meaning, so the opcode of an instruction or the name of an attribute may be any.

`length_written` puts this together for all parts, with the two lengths that are stored in front of
the bytes they are about: that of a payload, and that of code, which is stored before any
instruction is written.
-/

namespace JavaClass

open Encode

/-- Whatever is written of a value takes up as many bytes as its size says. -/
def Encode.Sized {α : Type} (encode : α → Encode) (size : α → Nat) : Prop :=
  ∀ a bytes, (encode a).run = .ok bytes → bytes.length = size a

theorem Encode.sized_of_writes {α : Type} {encode : α → Encode} {fits : α → Prop}
    {layout : α → List UInt8} {size : α → Nat} (h : ∀ a, Writes (encode a) (fits a) (layout a))
    (hlength : ∀ a, (layout a).length = size a) : Sized encode size := by
  intro a bytes hrun
  obtain ⟨-, rfl⟩ := (h a).run_eq_ok_iff.mp hrun
  exact hlength a

/-- A number that is stored in front of other bytes. -/
theorem BigEndian.decode_take_encode_append {width n : Nat} (hn : n < bound width)
    (rest : List UInt8) : decode ((encode width n ++ rest).take width) = n := by
  rw [List.take_left' (length_encode width n), decode_encode, Nat.mod_eq_of_lt hn]

namespace Attribute

theorem run_encode_eq_ok_iff {a : Attribute} {bytes : List UInt8} :
    a.encode.run = .ok bytes ↔ a.Fits ∧ bytes = a.layout :=
  a.writes_encode.run_eq_ok_iff

theorem length_payload_lt {a : Attribute} (h : a.Fits) : a.payload.length < BigEndian.bound 4 := by
  rw [length_payload]
  cases a with
  | leaf nameIndex content => exact Nat.lt_succ_of_le (fits_leaf.mp h).2
  | code nameIndex block as => exact Nat.lt_succ_of_le (fits_code.mp h).2.2.2

/-- The length of the payload is what is left to write behind it. -/
theorem stored_length {a : Attribute} {bytes : List UInt8} (h : a.encode.run = .ok bytes) :
    BigEndian.decode ((bytes.drop 2).take 4) = (bytes.drop 6).length := by
  obtain ⟨hfits, rfl⟩ := run_encode_eq_ok_iff.mp h
  have hdrop : a.layout.drop 2 = BigEndian.encode 4 a.payload.length ++ a.payload := by
    rw [layout, framed]
    exact List.drop_left' (Layout.length_u16 _)
  have hlength : (a.layout.drop 6).length = a.payload.length := by
    rw [List.length_drop, layout, length_framed, Nat.add_sub_cancel_left]
  rw [hdrop, hlength, BigEndian.decode_take_encode_append (length_payload_lt hfits)]

/-- Ten bytes stand in front of the length of code: the name, the length of the payload and the two
limits. -/
theorem layout_code (nameIndex : UInt16) (block : CodeBlock) (as : List Attribute) :
    ∃ front behind, front.length = 10 ∧ (code nameIndex block as).layout =
      front ++ (BigEndian.encode 4 (Instruction.codeLength block.instructions) ++
        (block.instructions.flatMap Instruction.layout ++ behind)) := by
  refine ⟨Layout.u16 nameIndex ++ (BigEndian.encode 4 (code nameIndex block as).payload.length ++
    (Layout.u16 block.maxStack ++ Layout.u16 block.maxLocals)),
    Layout.counted ExceptionHandler.layout block.handlers ++ Layout.counted layout as, ?_, ?_⟩
  · simp
  · simp only [layout, framed, payload_code, CodeBlock.layout, CodeBlock.codeLayout,
      Attribute.nameIndex, List.append_assoc]

/-- The length of code is that of the bytes which its instructions are written as. -/
theorem stored_codeLength {nameIndex : UInt16} {block : CodeBlock} {as : List Attribute}
    {bytes : List UInt8} (h : (code nameIndex block as).encode.run = .ok bytes) :
    ∃ written, (each Instruction.encode block.instructions).run = .ok written ∧
      BigEndian.decode ((bytes.drop 10).take 4) = written.length ∧ written <+: bytes.drop 14 := by
  obtain ⟨hfits, rfl⟩ := run_encode_eq_ok_iff.mp h
  have hblock : block.Fits := (fits_code.mp hfits).1
  have hwritten := (writes_each Instruction.writes_encode block.instructions).run_eq_ok_iff.mpr
    ⟨hblock.instructions, rfl⟩
  have hlt : Instruction.codeLength block.instructions < BigEndian.bound 4 :=
    Nat.lt_succ_of_le hblock.length
  obtain ⟨front, behind, hfront, hlayout⟩ := layout_code nameIndex block as
  have hdrop : (code nameIndex block as).layout.drop 10 =
      BigEndian.encode 4 (Instruction.codeLength block.instructions) ++
        (block.instructions.flatMap Instruction.layout ++ behind) := by
    rw [hlayout]
    exact List.drop_left' hfront
  refine ⟨_, hwritten, ?_, behind, ?_⟩
  · rw [hdrop, BigEndian.decode_take_encode_append hlt, Instruction.length_code]
  · rw [show 14 = 10 + 4 from rfl, ← List.drop_drop, hdrop]
    exact (List.drop_left' (BigEndian.length_encode ..)).symm

end Attribute

/-- What can be written of a part of a class file is as long as the part says, and so is what stands
behind a length that is stored. -/
theorem length_written :
    Sized Constant.encode Constant.encodedLength ∧ Sized Pool.encode Pool.encodedLength ∧
    Sized Instruction.encode Instruction.size ∧
    Sized VerificationType.encode VerificationType.encodedLength ∧
    Sized StackFrame.encode StackFrame.encodedLength ∧
    Sized ExceptionHandler.encode ExceptionHandler.encodedLength ∧
    Sized LineNumber.encode LineNumber.encodedLength ∧
    Sized LocalVariable.encode LocalVariable.encodedLength ∧
    Sized InnerClass.encode InnerClass.encodedLength ∧
    Sized BootstrapMethod.encode BootstrapMethod.encodedLength ∧
    Sized MethodParameter.encode MethodParameter.encodedLength ∧
    Sized Attribute.encode Attribute.encodedLength ∧ Sized Member.encode Member.encodedLength ∧
    Sized ClassFile.encode ClassFile.length ∧
    (∀ (a : Attribute) bytes, a.encode.run = .ok bytes →
      BigEndian.decode ((bytes.drop 2).take 4) = (bytes.drop 6).length) ∧
    ∀ nameIndex (block : CodeBlock) as bytes,
      (Attribute.code nameIndex block as).encode.run = .ok bytes →
        ∃ written, (each Instruction.encode block.instructions).run = .ok written ∧
          BigEndian.decode ((bytes.drop 10).take 4) = written.length ∧
          written <+: bytes.drop 14 := by
  refine ⟨?_, ?_, ?_, ?_, ?_, ?_, ?_, ?_, ?_, ?_, ?_, ?_, ?_, ?_, ?_, ?_⟩
  · exact sized_of_writes Constant.writes_encode Constant.length_layout
  · exact sized_of_writes Pool.writes_encode Pool.length_layout
  · exact sized_of_writes Instruction.writes_encode Instruction.length_layout
  · exact sized_of_writes VerificationType.writes_encode VerificationType.length_layout
  · exact sized_of_writes StackFrame.writes_encode StackFrame.length_layout
  · exact sized_of_writes ExceptionHandler.writes_encode ExceptionHandler.length_layout
  · exact sized_of_writes LineNumber.writes_encode LineNumber.length_layout
  · exact sized_of_writes LocalVariable.writes_encode LocalVariable.length_layout
  · exact sized_of_writes InnerClass.writes_encode InnerClass.length_layout
  · exact sized_of_writes BootstrapMethod.writes_encode BootstrapMethod.length_layout
  · exact sized_of_writes MethodParameter.writes_encode MethodParameter.length_layout
  · exact sized_of_writes Attribute.writes_encode Attribute.length_layout
  · exact sized_of_writes Member.writes_encode Member.length_layout
  · exact sized_of_writes ClassFile.writes_encode ClassFile.length_layout
  · intro a bytes h
    exact Attribute.stored_length h
  · intro nameIndex block as bytes h
    exact Attribute.stored_codeLength h

/-- It can be written but not read again: an opcode does not go with its operands, a switch is
padded too far, and the name index points nowhere. -/
def Attribute.unreadable : Attribute :=
  .code 0 ⟨1, 0, [.localVariable ⟨0xb2, by decide⟩ 5, .tableSwitch 9 0 7 7 [1]], []⟩
    [.leaf 0 .deprecated]

theorem length_written_unreadable : ∃ bytes, Attribute.unreadable.encode.run = .ok bytes ∧
    bytes.length = 52 ∧ BigEndian.decode ((bytes.drop 2).take 4) = 46 ∧
    BigEndian.decode ((bytes.drop 10).take 4) = 28 := by
  have hfits : Attribute.unreadable.Fits := by decide
  have hrun := Attribute.run_encode_eq_ok_iff.mpr ⟨hfits, rfl⟩
  obtain ⟨-, -, -, -, -, -, -, -, -, -, -, hattribute, -, -, hpayload, hcode⟩ := length_written
  obtain ⟨written, hwritten, hlength, -⟩ := hcode _ _ _ _ hrun
  have hall := (writes_each Instruction.writes_encode _).run_eq_ok_iff.mp hwritten
  refine ⟨_, hrun, hattribute _ _ hrun, hpayload _ _ hrun, ?_⟩
  rw [hlength, hall.2]
  rfl

end JavaClass

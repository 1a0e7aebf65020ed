import JavaClass.Proofs.Fits
import JavaClass.Proofs.Writing

/-!
# Writing succeeds on what fits

`writes_encode`, for each part of a class file: it is written as its layout if it fits, and writing
it fails because of a misfit if it does not. For a whole class file this is
`ClassFile.toBytes_ok_iff_fits`: no count is ever cut short to make it fit, and nothing else keeps a
class file from being written.

An attribute is the one part that is not written as it goes. Its payload is put together first
(`Attribute.writes_framed`), so a payload that is too long is found out when its length is written.
-/

namespace JavaClass

open Encode

/-! ### Constants -/

theorem Constant.writes_encode (k : Constant) : Writes k.encode k.Fits k.layout := by
  cases k with
  | utf8 bytes =>
    exact (writes_u8 _).cons ((writes_counted_of_forall _ writes_u8 bytes).congr Iff.rfl)
  | integer bits => exact (writes_u8 _).cons (writes_u32 bits)
  | float bits => exact (writes_u8 _).cons (writes_u32 bits)
  | long high low => exact (writes_u8 _).cons ((writes_u32 high).cons (writes_u32 low))
  | double high low => exact (writes_u8 _).cons ((writes_u32 high).cons (writes_u32 low))
  | methodHandle kind index => exact (writes_u8 _).cons ((writes_u8 kind).cons (writes_u16 index))
  | classInfo index => exact (writes_u8 _).cons (writes_u16 index)
  | string index => exact (writes_u8 _).cons (writes_u16 index)
  | methodType index => exact (writes_u8 _).cons (writes_u16 index)
  | fieldRef first second => exact (writes_u8 _).cons ((writes_u16 first).cons (writes_u16 second))
  | methodRef first second => exact (writes_u8 _).cons ((writes_u16 first).cons (writes_u16 second))
  | interfaceMethodRef first second =>
    exact (writes_u8 _).cons ((writes_u16 first).cons (writes_u16 second))
  | nameAndType first second =>
    exact (writes_u8 _).cons ((writes_u16 first).cons (writes_u16 second))
  | invokeDynamic first second =>
    exact (writes_u8 _).cons ((writes_u16 first).cons (writes_u16 second))

theorem Pool.writes_encode (p : Pool) : Writes p.encode p.Fits p.layout :=
  ((writes_count 2 _ p.count).seq (writes_each Constant.writes_encode _)).congr
    (and_congr_left' Nat.lt_succ_iff)

/-! ### Instructions -/

namespace Instruction

theorem writes_encodePadding (padding : UInt8) :
    Writes (encodePadding padding) True (List.replicate padding.toNat 0) := .bytes _

private theorem writes_pair (pair : Int32 × Int32) :
    Writes (do i32 pair.1; i32 pair.2) True (Layout.i32 pair.1 ++ Layout.i32 pair.2) :=
  (writes_i32 pair.1).cons (writes_i32 pair.2)

theorem writes_encodeOperands (i : Instruction) :
    Writes i.encodeOperands i.Fits i.operands := by
  cases i with
  | plain op => exact .pure
  | implicit op value => exact .pure
  | pushByte value => exact writes_i8 value
  | pushShort value => exact writes_i16 value
  | loadConstant index => exact writes_u8 index
  | loadConstantWide op index => exact writes_u16 index
  | localVariable op index => exact writes_u8 index
  | increment index amount => exact (writes_u8 index).cons (writes_i8 amount)
  | branch op offset => exact writes_i16 offset
  | branchWide op offset => exact writes_i32 offset
  | constantRef op index => exact writes_u16 index
  | invokeInterface index count =>
    exact (writes_u16 index).cons ((writes_u8 count).cons (writes_u8 0))
  | invokeDynamic index => exact (writes_u16 index).cons (writes_u16 0)
  | newArray element => exact writes_u8 element.code
  | multiNewArray index dimensions => exact (writes_u16 index).cons (writes_u8 dimensions)
  | wideLocal op index => exact (writes_u8 op.byte).cons (writes_u16 index)
  | wideIncrement index amount =>
    exact (writes_u8 Opcode.iinc.byte).cons ((writes_u16 index).cons (writes_i16 amount))
  | tableSwitch padding fallback low high offsets =>
    by_cases hrange : rangeSize low high = offsets.length
    · have hencode : encodeOperands (tableSwitch padding fallback low high offsets) = (do
          encodePadding padding; i32 fallback; i32 low; i32 high; each i32 offsets) :=
        if_neg (not_not_intro hrange)
      rw [hencode]
      refine Writes.congr ?_ (iff_of_true trivial hrange)
      exact (writes_encodePadding padding).cons <| (writes_i32 fallback).cons <|
        (writes_i32 low).cons <| (writes_i32 high).cons <|
          (writes_each writes_i32 offsets).congr (iff_of_true (fun _ _ => trivial) trivial)
    · have hencode : encodeOperands (tableSwitch padding fallback low high offsets) =
          throw (.malformedInstruction Opcode.tableswitch.byte
            (.offsetsOutsideRange offsets.length low high)) := by
        simp only [encodeOperands, if_pos hrange]
        rfl
      rw [hencode]
      exact (Writes.throw (.offsetsOutsideRange hrange)).congr (iff_of_false not_false hrange)
  | lookupSwitch padding fallback pairs =>
    by_cases hcount : pairs.length < 0x80000000
    · have hencode : encodeOperands (lookupSwitch padding fallback pairs) = (do
          encodePadding padding; i32 fallback; u32 (UInt32.ofNat pairs.length)
          each (fun pair => do i32 pair.1; i32 pair.2) pairs) := by
        simp only [encodeOperands, if_pos hcount]
      rw [hencode]
      refine Writes.congr ?_ (iff_of_true trivial (Nat.lt_succ_iff.mp hcount))
      exact (writes_encodePadding padding).cons <| (writes_i32 fallback).cons <|
        (writes_u32 (UInt32.ofNat pairs.length)).cons <|
          (writes_each writes_pair pairs).congr (iff_of_true (fun _ _ => trivial) trivial)
    · have hencode : encodeOperands (lookupSwitch padding fallback pairs) = (do
          encodePadding padding; i32 fallback
          throw (.countOverflow "lookupswitch npairs" pairs.length)) := by
        simp only [encodeOperands, if_neg hcount]
        rfl
      rw [hencode]
      refine Writes.congr ?_ (iff_of_false not_false fun h => hcount (Nat.lt_succ_iff.mpr h))
      exact (writes_encodePadding padding).cons <| (writes_i32 fallback).cons <|
        .throw (.countOverflow ..)

theorem writes_encode (i : Instruction) : Writes i.encode i.Fits i.layout :=
  (writes_u8 i.opcode.byte).cons i.writes_encodeOperands

end Instruction

/-! ### Stack map frames -/

theorem VerificationType.writes_encode (t : VerificationType) : Writes t.encode True t.layout := by
  cases t with
  | object n => exact (writes_u8 7).cons (writes_u16 n)
  | uninitialized n => exact (writes_u8 8).cons (writes_u16 n)
  | _ => exact (writes_u8 _).cons .pure

namespace StackFrame

theorem type_cases (f : StackFrame) : (f.HeadFits ∧ f.type = .ok f.typeByte) ∨
    (¬ f.HeadFits ∧ ∃ e, e.IsMisfit ∧ f.type = .error e) := by
  cases f with
  | sameOneItemExtended offsetDelta item => exact Or.inl ⟨trivial, rfl⟩
  | sameExtended offsetDelta => exact Or.inl ⟨trivial, rfl⟩
  | full offsetDelta locals stack => exact Or.inl ⟨trivial, rfl⟩
  | _ =>
    rw [type]
    split
    · next h => exact Or.inl ⟨h, rfl⟩
    · next h => exact Or.inr ⟨h, _, .countOverflow .., rfl⟩

theorem writes_encodeBody (f : StackFrame) : Writes f.encodeBody f.BodyFits f.body := by
  have htypes := writes_each VerificationType.writes_encode
  have hcounted := fun what => writes_counted_of_forall what VerificationType.writes_encode
  cases f with
  | same offsetDelta => exact .pure
  | sameOneItem offsetDelta item => exact item.writes_encode
  | sameOneItemExtended offsetDelta item => exact (writes_u16 _).cons item.writes_encode
  | chop count offsetDelta => exact writes_u16 offsetDelta
  | sameExtended offsetDelta => exact writes_u16 offsetDelta
  | append offsetDelta locals =>
    exact (writes_u16 _).cons ((htypes locals).congr (iff_of_true (fun _ _ => trivial) trivial))
  | full offsetDelta locals stack =>
    exact (writes_u16 _).cons ((hcounted _ locals).seq (hcounted _ stack))

theorem writes_encode (f : StackFrame) : Writes f.encode f.Fits f.layout := by
  rw [encode, fits_iff]
  rcases f.type_cases with ⟨hhead, htype⟩ | ⟨hhead, e, he, htype⟩
  · rw [htype, and_iff_right hhead]
    exact (writes_u8 f.typeByte).cons f.writes_encodeBody
  · rw [htype]
    exact (Writes.throw he).congr (iff_of_false not_false fun h => hhead h.1)

end StackFrame

/-! ### Tables -/

theorem ExceptionHandler.writes_encode (h : ExceptionHandler) : Writes h.encode True h.layout :=
  (writes_u16 _).cons <| (writes_u16 _).cons <| (writes_u16 _).cons <| writes_u16 _

theorem LineNumber.writes_encode (n : LineNumber) : Writes n.encode True n.layout :=
  (writes_u16 _).cons <| writes_u16 _

theorem LocalVariable.writes_encode (v : LocalVariable) : Writes v.encode True v.layout :=
  (writes_u16 _).cons <| (writes_u16 _).cons <| (writes_u16 _).cons <| (writes_u16 _).cons <|
    writes_u16 _

theorem InnerClass.writes_encode (c : InnerClass) : Writes c.encode True c.layout :=
  (writes_u16 _).cons <| (writes_u16 _).cons <| (writes_u16 _).cons <| writes_u16 _

theorem BootstrapMethod.writes_encode (m : BootstrapMethod) : Writes m.encode m.Fits m.layout :=
  (writes_u16 _).cons <| writes_counted_of_forall _ writes_u16 _

theorem MethodParameter.writes_encode (p : MethodParameter) : Writes p.encode True p.layout :=
  (writes_u16 _).cons <| writes_u16 _

/-! ### Attributes -/

theorem CodeBlock.writes_encode (b : CodeBlock) : Writes b.encode b.Fits b.layout := by
  have hlength : Instruction.codeLength b.instructions < BigEndian.bound 4 ↔
      Instruction.codeLength b.instructions ≤ 0xffffffff := Nat.lt_succ_iff
  have hcode := (writes_count 4 "code_length" (Instruction.codeLength b.instructions)).seq
    ((writes_each Instruction.writes_encode b.instructions).seq
      (writes_counted_of_forall "exception_table_length" ExceptionHandler.writes_encode b.handlers))
  rw [layout, codeLayout, List.append_assoc]
  refine ((writes_u16 _).cons ((writes_u16 _).cons hcode)).congr ?_
  rw [fits_iff, hlength]

namespace Attribute

theorem Content.writes_encode (content : Content) :
    Writes content.encode content.Fits content.layout := by
  cases content with
  | constantValue index => exact writes_u16 index
  | signature index => exact writes_u16 index
  | sourceFile index => exact writes_u16 index
  | nestHost index => exact writes_u16 index
  | enclosingMethod classIndex methodIndex => exact (writes_u16 classIndex).cons (writes_u16 _)
  | synthetic => exact .pure
  | deprecated => exact .pure
  | sourceDebugExtension bytes => exact .bytes bytes
  | unknown bytes => exact .bytes bytes
  | stackMapTable frames => exact writes_counted _ StackFrame.writes_encode frames
  | bootstrapMethods methods => exact writes_counted _ BootstrapMethod.writes_encode methods
  | exceptions indices => exact writes_counted_of_forall _ writes_u16 indices
  | nestMembers indices => exact writes_counted_of_forall _ writes_u16 indices
  | innerClasses classes => exact writes_counted_of_forall _ InnerClass.writes_encode classes
  | lineNumberTable lines => exact writes_counted_of_forall _ LineNumber.writes_encode lines
  | localVariableTable entries =>
    exact writes_counted_of_forall _ LocalVariable.writes_encode entries
  | localVariableTypeTable entries =>
    exact writes_counted_of_forall _ LocalVariable.writes_encode entries
  | methodParameters parameters =>
    refine ((writes_count 1 _ parameters.length).seq
      (writes_each MethodParameter.writes_encode parameters)).congr ?_
    exact (and_iff_left fun _ _ => trivial).trans Nat.lt_succ_iff

/-- The payload is written to a sink of its own first. -/
theorem writes_framed {payload : Encode} {fits : Prop} {out : List UInt8} (nameIndex : UInt16)
    (h : Writes payload fits out) :
    Writes (encodeFramed nameIndex payload) (fits ∧ out.length ≤ 0xffffffff)
      (framed nameIndex out) := by
  rw [encodeFramed]
  cases hrun : payload.run with
  | error e =>
    refine (Writes.throw (h.isMisfit_of_run hrun)).congr (iff_of_false not_false fun hfits => ?_)
    rw [h.run_eq_ok_iff.mpr ⟨hfits.1, rfl⟩] at hrun
    cases hrun
  | ok bytes =>
    obtain ⟨hfits, rfl⟩ := h.run_eq_ok_iff.mp hrun
    refine ((writes_u16 nameIndex).cons ((writes_count 4 _ _).seq (.bytes _))).congr ?_
    rw [and_true, and_iff_right hfits]
    exact Nat.lt_succ_iff

mutual

theorem writes_encode : ∀ a : Attribute, Writes a.encode a.Fits a.layout
  | leaf nameIndex content => by
    rw [encode, Fits, ← content.length_layout, layout, payload]
    exact writes_framed nameIndex content.writes_encode
  | code nameIndex block attributes => by
    have hpayload := block.writes_encode.seq
      ((writes_count 2 "attributes_count" attributes.length).seq (writes_encodeAll attributes))
    rw [encode, Fits, ← length_payload, layout, payload]
    refine (writes_framed nameIndex hpayload).congr ?_
    rw [and_assoc, and_assoc]
    exact and_congr_right' (and_congr_left' Nat.lt_succ_iff)

theorem writes_encodeAll : ∀ as : List Attribute, Writes (encodeAll as) (FitsAll as) (layoutAll as)
  | [] => .pure
  | a :: as => by
    rw [encodeAll, FitsAll, layoutAll]
    exact (writes_encode a).seq (writes_encodeAll as)

end

end Attribute

/-! ### Members and classes -/

theorem Member.writes_encode (m : Member) : Writes m.encode m.Fits m.layout :=
  (writes_u16 _).cons <| (writes_u16 _).cons <| (writes_u16 _).cons <|
    writes_counted _ Attribute.writes_encode _

namespace ClassFile

theorem writes_encode (c : ClassFile) : Writes c.encode c.Fits c.layout :=
  (writes_u32 magic).cons <| (writes_u16 _).cons <| (writes_u16 _).cons <|
    c.pool.writes_encode.seq <| (writes_u16 _).cons <| (writes_u16 _).cons <| (writes_u16 _).cons <|
      (writes_counted_of_forall _ writes_u16 _).seq <|
        (writes_counted _ Member.writes_encode _).seq <|
          (writes_counted _ Member.writes_encode _).seq <|
            writes_counted _ Attribute.writes_encode _

theorem toBytes_eq_ok_iff {c : ClassFile} {bytes : List UInt8} :
    c.toBytes = .ok bytes ↔ c.Fits ∧ bytes = c.layout :=
  c.writes_encode.run_eq_ok_iff

/-- A class is written if and only if every count of it fits the field it is stored in. What is
written is its layout, and what stops the writing is a misfit. -/
theorem toBytes_ok_iff_fits (c : ClassFile) :
    ((∃ bytes, c.toBytes = .ok bytes) ↔ c.Fits) ∧
      (∀ bytes, c.toBytes = .ok bytes → bytes = c.layout) ∧
      ∀ e, c.toBytes = .error e → e.IsMisfit := by
  refine ⟨⟨fun ⟨bytes, hbytes⟩ => ?_, fun hfits => ?_⟩, fun bytes hbytes => ?_, fun e he => ?_⟩
  · exact (toBytes_eq_ok_iff.mp hbytes).1
  · exact ⟨c.layout, toBytes_eq_ok_iff.mpr ⟨hfits, rfl⟩⟩
  · exact (toBytes_eq_ok_iff.mp hbytes).2
  · exact c.writes_encode.isMisfit_of_run he

end ClassFile
end JavaClass

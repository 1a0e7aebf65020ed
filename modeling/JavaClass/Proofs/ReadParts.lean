import JavaClass.ClassFile.Codec
import JavaClass.Proofs.Fits
import JavaClass.Proofs.Reading
import Mathlib.Tactic.Simproc.ExistsAndEq

/-!
# Reading the small parts

`reads_decode`, for each part of a class file that means the same wherever it stands: constants, the
frames of a stack map and the entries of the tables. What is read is just what fits, and it is read
from its layout.

Where a first byte says what follows, each branch of the decoder is compared with the one kind of
value that has this first byte.
-/

namespace JavaClass

open Decode

/-! ### Constants -/

theorem Constant.reads_decode (c : Cursor) :
    ReadsAt Cursor.context c decode fun k bs => k.Fits ∧ bs = k.layout := by
  refine ((reads_u8 c).bind (S := fun tag k bs => k.tag = tag ∧ k.Fits ∧ bs = k.fields)
    fun tag _ c _ _ => ?_).congr fun k bs => ?_
  · have htag {n : UInt8} (h : tag.toNat = n.toNat) : tag = n := UInt8.toNat_inj.mp h
    split
    · next h =>
      obtain rfl := htag (n := 1) h
      refine ((reads_counted_of_forall reads_u8 c).map utf8).congr fun k bs => ?_
      cases k <;> simp [tag, Fits, fields]
    · next h =>
      obtain rfl := htag (n := 3) h
      refine ((reads_u32 c).map integer).congr fun k bs => ?_
      cases k <;> simp [tag, Fits, fields]
    · next h =>
      obtain rfl := htag (n := 4) h
      refine ((reads_u32 c).map float).congr fun k bs => ?_
      cases k <;> simp [tag, Fits, fields]
    · next h =>
      obtain rfl := htag (n := 5) h
      refine (reads_both reads_u32 reads_u32 long c).congr fun k bs => ?_
      cases k <;> simp [tag, Fits, fields]
    · next h =>
      obtain rfl := htag (n := 6) h
      refine (reads_both reads_u32 reads_u32 double c).congr fun k bs => ?_
      cases k <;> simp [tag, Fits, fields]
    · next h =>
      obtain rfl := htag (n := 7) h
      refine ((reads_u16 c).map classInfo).congr fun k bs => ?_
      cases k <;> simp [tag, Fits, fields]
    · next h =>
      obtain rfl := htag (n := 8) h
      refine ((reads_u16 c).map string).congr fun k bs => ?_
      cases k <;> simp [tag, Fits, fields]
    · next h =>
      obtain rfl := htag (n := 9) h
      refine (reads_both reads_u16 reads_u16 fieldRef c).congr fun k bs => ?_
      cases k <;> simp [tag, Fits, fields]
    · next h =>
      obtain rfl := htag (n := 10) h
      refine (reads_both reads_u16 reads_u16 methodRef c).congr fun k bs => ?_
      cases k <;> simp [tag, Fits, fields]
    · next h =>
      obtain rfl := htag (n := 11) h
      refine (reads_both reads_u16 reads_u16 interfaceMethodRef c).congr fun k bs => ?_
      cases k <;> simp [tag, Fits, fields]
    · next h =>
      obtain rfl := htag (n := 12) h
      refine (reads_both reads_u16 reads_u16 nameAndType c).congr fun k bs => ?_
      cases k <;> simp [tag, Fits, fields]
    · next h =>
      obtain rfl := htag (n := 15) h
      refine (reads_both reads_u8 reads_u16 methodHandle c).congr fun k bs => ?_
      cases k <;> simp [tag, Fits, fields]
    · next h =>
      obtain rfl := htag (n := 16) h
      refine ((reads_u16 c).map methodType).congr fun k bs => ?_
      cases k <;> simp [tag, Fits, fields]
    · next h =>
      obtain rfl := htag (n := 18) h
      refine (reads_both reads_u16 reads_u16 invokeDynamic c).congr fun k bs => ?_
      cases k <;> simp [tag, Fits, fields]
    · -- no constant has any other tag
      refine (ReadsAt.throw _).congr fun k bs => iff_of_false not_false ?_
      rintro ⟨rfl, -⟩
      have : k.tag.toNat = 1 ∨ (3 ≤ k.tag.toNat ∧ k.tag.toNat ≤ 12) ∨ k.tag.toNat = 15 ∨
          k.tag.toNat = 16 ∨ k.tag.toNat = 18 := by
        cases k <;> simp [tag]
      grind
  · simp [Then, layout]

/-! ### Stack map frames -/

theorem VerificationType.reads_decode (c : Cursor) :
    ReadsAt Cursor.context c decode fun t bs => bs = t.layout := by
  refine ((reads_u8 c).bind (S := fun tag t bs => t.tag = tag ∧ bs = t.fields)
    fun tag _ c _ _ => ?_).congr fun t bs => ?_
  · have htag {n : UInt8} (h : tag.toNat = n.toNat) : tag = n := UInt8.toNat_inj.mp h
    split
    · next h =>
      obtain rfl := htag (n := 0) h
      refine (ReadsAt.pure top).congr fun t bs => ?_
      cases t <;> simp [tag, fields]
    · next h =>
      obtain rfl := htag (n := 1) h
      refine (ReadsAt.pure integer).congr fun t bs => ?_
      cases t <;> simp [tag, fields]
    · next h =>
      obtain rfl := htag (n := 2) h
      refine (ReadsAt.pure float).congr fun t bs => ?_
      cases t <;> simp [tag, fields]
    · next h =>
      obtain rfl := htag (n := 3) h
      refine (ReadsAt.pure double).congr fun t bs => ?_
      cases t <;> simp [tag, fields]
    · next h =>
      obtain rfl := htag (n := 4) h
      refine (ReadsAt.pure long).congr fun t bs => ?_
      cases t <;> simp [tag, fields]
    · next h =>
      obtain rfl := htag (n := 5) h
      refine (ReadsAt.pure null).congr fun t bs => ?_
      cases t <;> simp [tag, fields]
    · next h =>
      obtain rfl := htag (n := 6) h
      refine (ReadsAt.pure uninitializedThis).congr fun t bs => ?_
      cases t <;> simp [tag, fields]
    · next h =>
      obtain rfl := htag (n := 7) h
      refine ((reads_u16 c).map object).congr fun t bs => ?_
      cases t <;> simp [tag, fields]
    · next h =>
      obtain rfl := htag (n := 8) h
      refine ((reads_u16 c).map uninitialized).congr fun t bs => ?_
      cases t <;> simp [tag, fields]
    · refine (ReadsAt.throw _).congr fun t bs => iff_of_false not_false ?_
      rintro ⟨rfl, -⟩
      have : t.tag.toNat ≤ 8 := by
        cases t <;> simp [tag]
      grind
  · simp [Then, layout]

namespace StackFrame

/-- The first byte of a frame with `n` more local variables. -/
private theorem append_typeByte {n : Nat} {type : UInt8} :
    251 + UInt8.ofNat n = type ∧ 1 ≤ n ∧ n ≤ 3 ↔
      251 < type ∧ type ≤ 254 ∧ n = (type - 251).toNat := by
  constructor
  · rintro ⟨rfl, hn⟩
    obtain rfl | rfl | rfl : n = 1 ∨ n = 2 ∨ n = 3 := by omega
    · decide
    · decide
    · decide
  · rintro ⟨hlow, hhigh, rfl⟩
    obtain rfl | rfl | rfl : type = 252 ∨ type = 253 ∨ type = 254 := by grind
    · decide
    · decide
    · decide

theorem reads_decode (c : Cursor) :
    ReadsAt Cursor.context c decode fun f bs => f.Fits ∧ bs = f.layout := by
  have htypes := reads_counted_of_forall VerificationType.reads_decode
  refine ((reads_u8 c).bind
    (S := fun type f bs => (f.typeByte = type ∧ f.HeadFits) ∧ f.BodyFits ∧ bs = f.body)
    fun type _ c _ _ => ?_).congr fun f bs => ?_
  · split
    · refine (ReadsAt.pure (same type)).congr fun f bs => ?_
      cases f <;> simp [typeByte, HeadFits, BodyFits, body, append_typeByte] <;> grind
    split
    · refine ((VerificationType.reads_decode c).map (sameOneItem (type - 64))).congr fun f bs => ?_
      cases f <;> simp [typeByte, HeadFits, BodyFits, body, append_typeByte] <;> grind
    split
    · refine (ReadsAt.throw _).congr fun f bs => ?_
      cases f <;> simp [typeByte, HeadFits, BodyFits, body, append_typeByte] <;> grind
    split
    · refine (reads_both reads_u16 VerificationType.reads_decode sameOneItemExtended c).congr
        fun f bs => ?_
      cases f <;> simp [typeByte, HeadFits, BodyFits, body, append_typeByte] <;> grind
    split
    · refine ((reads_u16 c).map (chop (251 - type))).congr fun f bs => ?_
      cases f <;> simp [typeByte, HeadFits, BodyFits, body, append_typeByte] <;> grind
    split
    · refine ((reads_u16 c).map sameExtended).congr fun f bs => ?_
      cases f <;> simp [typeByte, HeadFits, BodyFits, body, append_typeByte] <;> grind
    split
    · refine ((reads_u16 c).bind fun offsetDelta _ c _ _ =>
        (reads_times_of_forall VerificationType.reads_decode (type - 251).toNat c).map
          (append offsetDelta)).congr fun f bs => ?_
      cases f <;> simp [typeByte, HeadFits, BodyFits, body, append_typeByte, Then] <;> grind
    · refine ((reads_u16 c).bind fun offsetDelta _ c _ _ => (htypes c).bind fun locals _ c _ _ =>
        (htypes c).map (full offsetDelta locals)).congr fun f bs => ?_
      cases f <;> simp [typeByte, HeadFits, BodyFits, body, append_typeByte, Then] <;> grind
  · simp [Then, layout, fits_iff]

end StackFrame

/-! ### Tables -/

theorem ExceptionHandler.reads_decode (c : Cursor) :
    ReadsAt Cursor.context c decode fun h bs => bs = h.layout := by
  refine ((reads_u16 c).bind fun _ _ c _ _ => (reads_u16 c).bind fun _ _ c _ _ =>
    (reads_u16 c).bind fun _ _ c _ _ => (reads_u16 c).map _).congr fun h bs => ?_
  obtain ⟨startPc, endPc, handlerPc, catchType⟩ := h
  simp [Then, layout]

theorem LineNumber.reads_decode (c : Cursor) :
    ReadsAt Cursor.context c decode fun n bs => bs = n.layout := by
  refine (reads_both reads_u16 reads_u16 mk c).congr fun n bs => ?_
  obtain ⟨startPc, line⟩ := n
  simp [layout]

theorem LocalVariable.reads_decode (c : Cursor) :
    ReadsAt Cursor.context c decode fun v bs => bs = v.layout := by
  refine ((reads_u16 c).bind fun _ _ c _ _ => (reads_u16 c).bind fun _ _ c _ _ =>
    (reads_u16 c).bind fun _ _ c _ _ => (reads_u16 c).bind fun _ _ c _ _ =>
      (reads_u16 c).map _).congr fun v bs => ?_
  obtain ⟨startPc, length, nameIndex, typeIndex, slot⟩ := v
  simp [Then, layout]

theorem InnerClass.reads_decode (c : Cursor) :
    ReadsAt Cursor.context c decode fun k bs => bs = k.layout := by
  refine ((reads_u16 c).bind fun _ _ c _ _ => (reads_u16 c).bind fun _ _ c _ _ =>
    (reads_u16 c).bind fun _ _ c _ _ => (reads_u16 c).map _).congr fun k bs => ?_
  obtain ⟨innerIndex, outerIndex, nameIndex, accessFlags⟩ := k
  simp [Then, layout]

theorem BootstrapMethod.reads_decode (c : Cursor) :
    ReadsAt Cursor.context c decode fun m bs => m.Fits ∧ bs = m.layout := by
  refine ((reads_u16 c).bind fun methodIndex _ c _ _ =>
    (reads_counted_of_forall reads_u16 c).map (mk methodIndex)).congr fun m bs => ?_
  obtain ⟨methodIndex, arguments⟩ := m
  simp [Then, layout, Fits]

theorem MethodParameter.reads_decode (c : Cursor) :
    ReadsAt Cursor.context c decode fun p bs => bs = p.layout := by
  refine (reads_both reads_u16 reads_u16 mk c).congr fun p bs => ?_
  obtain ⟨nameIndex, accessFlags⟩ := p
  simp [layout]

end JavaClass

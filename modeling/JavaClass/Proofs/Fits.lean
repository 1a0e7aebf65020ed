import JavaClass.ClassFile.Codec

/-!
# What fits the format

A value *fits* if each of its counts, lengths and small numbers fits the field it is stored in. This
says nothing about meaning: an index may point anywhere, an opcode need not go with its operands, a
name need not go with its attribute, and a switch may have any padding.

`Fits` can be computed (`Decidable` throughout). That writing succeeds on exactly the values that fit
is shown in `Proofs/Encodable`.
-/

namespace JavaClass

namespace Constant

def Fits : Constant → Prop
  | utf8 bytes => bytes.length ≤ 65535
  | _ => True

instance : DecidablePred Fits
  | utf8 bytes => inferInstanceAs (Decidable (bytes.length ≤ 65535))
  | classInfo .. | fieldRef .. | methodRef .. | interfaceMethodRef .. | string .. | integer ..
  | float .. | long .. | double .. | nameAndType .. | methodHandle .. | methodType ..
  | invokeDynamic .. => isTrue trivial

end Constant

def Pool.Fits (p : Pool) : Prop :=
  p.count ≤ 65535 ∧ ∀ k ∈ p.entries.toList, k.Fits

instance : DecidablePred Pool.Fits := fun p =>
  inferInstanceAs (Decidable (p.count ≤ 65535 ∧ ∀ k ∈ p.entries.toList, k.Fits))

namespace Instruction

/-- The counts of the switches; all other operands have the size of their fields already. -/
def Fits : Instruction → Prop
  | tableSwitch _ _ low high offsets => high.toInt - low.toInt + 1 = offsets.length
  | lookupSwitch _ _ pairs => pairs.length ≤ 0x7fffffff
  | _ => True

instance : DecidablePred Fits
  | tableSwitch _ _ low high offsets =>
    inferInstanceAs (Decidable (high.toInt - low.toInt + 1 = offsets.length))
  | lookupSwitch _ _ pairs => inferInstanceAs (Decidable (pairs.length ≤ 0x7fffffff))
  | plain .. | implicit .. | pushByte .. | pushShort .. | loadConstant .. | loadConstantWide ..
  | localVariable .. | increment .. | branch .. | branchWide .. | constantRef ..
  | invokeInterface .. | invokeDynamic .. | newArray .. | multiNewArray .. | wideLocal ..
  | wideIncrement .. => isTrue trivial

end Instruction

namespace StackFrame

def Fits : StackFrame → Prop
  | same offsetDelta | sameOneItem offsetDelta _ => offsetDelta ≤ 63
  | chop count _ => 1 ≤ count ∧ count ≤ 3
  | append _ locals => 1 ≤ locals.length ∧ locals.length ≤ 3
  | full _ locals stack => locals.length ≤ 65535 ∧ stack.length ≤ 65535
  | sameOneItemExtended .. | sameExtended _ => True

instance : DecidablePred Fits
  | same offsetDelta | sameOneItem offsetDelta _ => inferInstanceAs (Decidable (offsetDelta ≤ 63))
  | chop count _ => inferInstanceAs (Decidable (1 ≤ count ∧ count ≤ 3))
  | append _ locals => inferInstanceAs (Decidable (1 ≤ locals.length ∧ locals.length ≤ 3))
  | full _ locals stack =>
    inferInstanceAs (Decidable (locals.length ≤ 65535 ∧ stack.length ≤ 65535))
  | sameOneItemExtended .. | sameExtended _ => isTrue trivial

/-- What the first byte holds fits into it. -/
def HeadFits : StackFrame → Prop
  | same offsetDelta | sameOneItem offsetDelta _ => offsetDelta ≤ 63
  | chop count _ => 1 ≤ count ∧ count ≤ 3
  | append _ locals => 1 ≤ locals.length ∧ locals.length ≤ 3
  | sameOneItemExtended .. | sameExtended _ | full .. => True

/-- The counts that are stored with the types themselves fit. -/
def BodyFits : StackFrame → Prop
  | full _ locals stack => locals.length ≤ 65535 ∧ stack.length ≤ 65535
  | _ => True

theorem fits_iff (f : StackFrame) : f.Fits ↔ f.HeadFits ∧ f.BodyFits := by
  cases f <;> simp [Fits, HeadFits, BodyFits]

end StackFrame

def BootstrapMethod.Fits (m : BootstrapMethod) : Prop :=
  m.arguments.length ≤ 65535

instance : DecidablePred BootstrapMethod.Fits := fun m =>
  inferInstanceAs (Decidable (m.arguments.length ≤ 65535))

namespace Attribute.Content

def Fits : Content → Prop
  | stackMapTable frames => frames.length ≤ 65535 ∧ ∀ f ∈ frames, f.Fits
  | exceptions indices | nestMembers indices => indices.length ≤ 65535
  | innerClasses classes => classes.length ≤ 65535
  | lineNumberTable lines => lines.length ≤ 65535
  | localVariableTable entries | localVariableTypeTable entries => entries.length ≤ 65535
  | bootstrapMethods methods => methods.length ≤ 65535 ∧ ∀ m ∈ methods, m.Fits
  | methodParameters parameters => parameters.length ≤ 255
  | constantValue _ | enclosingMethod .. | synthetic | signature _ | sourceFile _
  | sourceDebugExtension _ | deprecated | nestHost _ | unknown _ => True

instance : DecidablePred Fits
  | stackMapTable frames =>
    inferInstanceAs (Decidable (frames.length ≤ 65535 ∧ ∀ f ∈ frames, f.Fits))
  | exceptions indices | nestMembers indices =>
    inferInstanceAs (Decidable (indices.length ≤ 65535))
  | innerClasses classes => inferInstanceAs (Decidable (classes.length ≤ 65535))
  | lineNumberTable lines => inferInstanceAs (Decidable (lines.length ≤ 65535))
  | localVariableTable entries | localVariableTypeTable entries =>
    inferInstanceAs (Decidable (entries.length ≤ 65535))
  | bootstrapMethods methods =>
    inferInstanceAs (Decidable (methods.length ≤ 65535 ∧ ∀ m ∈ methods, m.Fits))
  | methodParameters parameters => inferInstanceAs (Decidable (parameters.length ≤ 255))
  | constantValue _ | enclosingMethod .. | synthetic | signature _ | sourceFile _
  | sourceDebugExtension _ | deprecated | nestHost _ | unknown _ => isTrue trivial

end Attribute.Content

/-- The code length is stored in four bytes. -/
structure CodeBlock.Fits (b : CodeBlock) : Prop where
  length : Instruction.codeLength b.instructions ≤ 0xffffffff
  instructions : ∀ i ∈ b.instructions, i.Fits
  handlers : b.handlers.length ≤ 65535

theorem CodeBlock.fits_iff {b : CodeBlock} : b.Fits ↔
    Instruction.codeLength b.instructions ≤ 0xffffffff ∧ (∀ i ∈ b.instructions, i.Fits) ∧
      b.handlers.length ≤ 65535 :=
  ⟨fun h => ⟨h.length, h.instructions, h.handlers⟩, fun h => ⟨h.1, h.2.1, h.2.2⟩⟩

instance : DecidablePred CodeBlock.Fits := fun _ => decidable_of_iff' _ CodeBlock.fits_iff

namespace Attribute

mutual

/-- The content fits, and its length fits the four bytes it is stored in. -/
def Fits : Attribute → Prop
  | leaf _ content => content.Fits ∧ content.encodedLength ≤ 0xffffffff
  | code nameIndex block attributes =>
    block.Fits ∧ attributes.length ≤ 65535 ∧ FitsAll attributes ∧
      payloadLength (code nameIndex block attributes) ≤ 0xffffffff

def FitsAll : List Attribute → Prop
  | [] => True
  | a :: as => Fits a ∧ FitsAll as

end

theorem fitsAll_iff {as : List Attribute} : FitsAll as ↔ ∀ a ∈ as, a.Fits := by
  induction as with
  | nil => simp [FitsAll]
  | cons a as ih => simp [FitsAll, ih]

theorem fits_leaf {nameIndex : UInt16} {content : Content} :
    (leaf nameIndex content).Fits ↔ content.Fits ∧ content.encodedLength ≤ 0xffffffff := by
  rw [Fits]

theorem fits_code {nameIndex : UInt16} {block : CodeBlock} {as : List Attribute} :
    (code nameIndex block as).Fits ↔ block.Fits ∧ as.length ≤ 65535 ∧ (∀ a ∈ as, a.Fits) ∧
      (code nameIndex block as).payloadLength ≤ 0xffffffff := by
  rw [Fits, fitsAll_iff]

mutual

def decideFits : ∀ a : Attribute, Decidable a.Fits
  | leaf _ _ => decidable_of_iff' _ fits_leaf
  | code nameIndex block as =>
    have := decideFitsAll as
    inferInstanceAs (Decidable (block.Fits ∧ as.length ≤ 65535 ∧ FitsAll as ∧
      payloadLength (code nameIndex block as) ≤ 0xffffffff))

def decideFitsAll : ∀ as : List Attribute, Decidable (FitsAll as)
  | [] => isTrue trivial
  | a :: as =>
    have := decideFits a
    have := decideFitsAll as
    inferInstanceAs (Decidable (a.Fits ∧ FitsAll as))

end

instance : DecidablePred Fits := decideFits

end Attribute

def Member.Fits (m : Member) : Prop :=
  m.attributes.length ≤ 65535 ∧ ∀ a ∈ m.attributes, a.Fits

instance : DecidablePred Member.Fits := fun m =>
  inferInstanceAs (Decidable (m.attributes.length ≤ 65535 ∧ ∀ a ∈ m.attributes, a.Fits))

/-- Every count of a class file fits the field it is stored in. -/
def ClassFile.Fits (c : ClassFile) : Prop :=
  c.pool.Fits ∧ c.interfaces.length ≤ 65535 ∧
    (c.fields.length ≤ 65535 ∧ ∀ m ∈ c.fields, m.Fits) ∧
    (c.methods.length ≤ 65535 ∧ ∀ m ∈ c.methods, m.Fits) ∧
    c.attributes.length ≤ 65535 ∧ ∀ a ∈ c.attributes, a.Fits

instance : DecidablePred ClassFile.Fits := fun c =>
  inferInstanceAs (Decidable (c.pool.Fits ∧ c.interfaces.length ≤ 65535 ∧
    (c.fields.length ≤ 65535 ∧ ∀ m ∈ c.fields, m.Fits) ∧
    (c.methods.length ≤ 65535 ∧ ∀ m ∈ c.methods, m.Fits) ∧
    c.attributes.length ≤ 65535 ∧ ∀ a ∈ c.attributes, a.Fits))

end JavaClass

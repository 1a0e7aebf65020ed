import JavaClass.Proofs.Fits

/-!
# Well-formed class files

A value that fits can be written, but reading what was written need not give it back: the bytes may
mean something else. It is *regular* if they do not:

* the opcode of each instruction has the form that its operands have, and the padding of each switch
  reaches to a multiple of four bytes from the start of the code (`AlignedFrom`);
* the name of each attribute is the one for its content, and no attribute is nested too deep;
* an attribute of unknown content has a name that is unknown indeed, and those are kept.

The names are looked up in the pool of the class. A class is *well-formed* if it fits and is regular.
That these are the classes that reading gives, and the ones that survive being written and read
again, is shown in `Proofs/RoundTrip`.
-/

namespace JavaClass

namespace Instruction

/-- The opcode is one for these operands, and a table of offsets is for at least one number. -/
def Regular : Instruction → Prop
  | plain op => op.form = .plain
  | implicit op value => op.implicitValue? = some value
  | loadConstantWide op _ => op.form = .loadConstantWide
  | localVariable op _ | wideLocal op _ => op.form = .localVariable
  | branch op _ => op.form = .branch
  | branchWide op _ => op.form = .branchWide
  | constantRef op _ => op.form = .constantRef
  | tableSwitch _ _ low high _ => low ≤ high
  | pushByte _ | pushShort _ | loadConstant _ | increment .. | invokeInterface ..
  | invokeDynamic _ | newArray _ | multiNewArray .. | lookupSwitch .. | wideIncrement .. => True

instance : DecidablePred Regular
  | plain op => inferInstanceAs (Decidable (op.form = .plain))
  | implicit op value => inferInstanceAs (Decidable (op.implicitValue? = some value))
  | loadConstantWide op _ => inferInstanceAs (Decidable (op.form = .loadConstantWide))
  | localVariable op _ | wideLocal op _ => inferInstanceAs (Decidable (op.form = .localVariable))
  | branch op _ => inferInstanceAs (Decidable (op.form = .branch))
  | branchWide op _ => inferInstanceAs (Decidable (op.form = .branchWide))
  | constantRef op _ => inferInstanceAs (Decidable (op.form = .constantRef))
  | tableSwitch _ _ low high _ => inferInstanceAs (Decidable (low ≤ high))
  | pushByte _ | pushShort _ | loadConstant _ | increment .. | invokeInterface ..
  | invokeDynamic _ | newArray _ | multiNewArray .. | lookupSwitch .. | wideIncrement .. =>
    isTrue trivial

/-- The operands of a switch at `position` start at a multiple of four. -/
def AlignedAt (position : Nat) : Instruction → Prop
  | tableSwitch padding .. | lookupSwitch padding .. =>
    padding.toNat = (4 - (position + 1) % 4) % 4
  | _ => True

instance (position : Nat) : DecidablePred (AlignedAt position)
  | tableSwitch padding .. | lookupSwitch padding .. =>
    inferInstanceAs (Decidable (padding.toNat = (4 - (position + 1) % 4) % 4))
  | plain .. | implicit .. | pushByte .. | pushShort .. | loadConstant .. | loadConstantWide ..
  | localVariable .. | increment .. | branch .. | branchWide .. | constantRef ..
  | invokeInterface .. | invokeDynamic .. | newArray .. | multiNewArray .. | wideLocal ..
  | wideIncrement .. => isTrue trivial

/-- Each instruction is aligned where it stands if the first one stands at `position`. -/
def AlignedFrom : (position : Nat) → List Instruction → Prop
  | _, [] => True
  | position, i :: code => i.AlignedAt position ∧ AlignedFrom (position + i.size) code

def decideAlignedFrom : ∀ (position : Nat) (code : List Instruction),
    Decidable (AlignedFrom position code)
  | _, [] => isTrue trivial
  | position, i :: code =>
    have := decideAlignedFrom (position + i.size) code
    inferInstanceAs (Decidable (i.AlignedAt position ∧ AlignedFrom (position + i.size) code))

instance (position : Nat) : DecidablePred (AlignedFrom position) := decideAlignedFrom position

/-- An instruction stands behind all those before it. -/
theorem alignedFrom_iff {position : Nat} {code : List Instruction} :
    AlignedFrom position code ↔
      ∀ before i after, code = before ++ i :: after → i.AlignedAt (position + codeLength before) := by
  induction code generalizing position with
  | nil => simp [AlignedFrom]
  | cons i code ih =>
    rw [AlignedFrom, ih]
    constructor
    · rintro ⟨hi, hcode⟩ before j after h
      cases before with
      | nil =>
        obtain ⟨rfl, rfl⟩ := List.cons.inj h
        exact hi
      | cons k before =>
        obtain ⟨rfl, rfl⟩ := List.cons.inj h
        have := hcode before j after rfl
        rwa [Nat.add_assoc] at this
    · intro h
      refine ⟨h [] i code rfl, fun before j after hcode => ?_⟩
      have := h (i :: before) j after (by rw [hcode, List.cons_append])
      rwa [codeLength, totalSize_cons, ← Nat.add_assoc] at this

example : AlignedFrom 1 [tableSwitch 2 0 0 0 [0]] ∧ ¬ AlignedFrom 0 [tableSwitch 2 0 0 0 [0]] := by
  decide

end Instruction

/-- The instructions are regular and stand where they should. -/
def CodeBlock.Regular (b : CodeBlock) : Prop :=
  (∀ i ∈ b.instructions, i.Regular) ∧ Instruction.AlignedFrom 0 b.instructions

instance : DecidablePred CodeBlock.Regular := fun b =>
  inferInstanceAs
    (Decidable ((∀ i ∈ b.instructions, i.Regular) ∧ Instruction.AlignedFrom 0 b.instructions))

namespace Attribute

/-- The name at an index is one for content of some kind that is nested `depth` levels deep. -/
def NamedFor (options : Options) (pool : Pool) (depth : Nat) (nameIndex : UInt16) :
    Option Kind → Prop
  | some kind => pool.getUtf8 nameIndex = .ok kind.nameBytes ∧ depth ≤ options.maxDepth
  | none => options.unknown = .preserve ∧
    ∃ name, pool.getUtf8 nameIndex = .ok name ∧ Kind.ofName? name = none

variable {options : Options} {pool : Pool} {depth : Nat} {nameIndex : UInt16}

instance : DecidablePred (NamedFor options pool depth nameIndex)
  | some kind => decidable_of_iff
      ((pool.getUtf8 nameIndex).toOption = some kind.nameBytes ∧ depth ≤ options.maxDepth) <| by
    rw [NamedFor]
    cases pool.getUtf8 nameIndex <;> simp [Except.toOption]
  | none => decidable_of_iff
      (options.unknown = .preserve ∧
        (pool.getUtf8 nameIndex).toOption.any (Kind.ofName? · = none)) <| by
    rw [NamedFor]
    cases pool.getUtf8 nameIndex <;> simp [Except.toOption]

mutual

/-- The name goes with the content, and what is inside of code is regular one level further down. -/
def Regular (options : Options) (pool : Pool) (depth : Nat) : Attribute → Prop
  | leaf nameIndex content => NamedFor options pool depth nameIndex content.kind?
  | code nameIndex block attributes =>
    NamedFor options pool depth nameIndex (some .code) ∧ block.Regular ∧
      RegularAll options pool (depth + 1) attributes

def RegularAll (options : Options) (pool : Pool) (depth : Nat) : List Attribute → Prop
  | [] => True
  | a :: as => Regular options pool depth a ∧ RegularAll options pool depth as

end

theorem regularAll_iff {as : List Attribute} :
    RegularAll options pool depth as ↔ ∀ a ∈ as, a.Regular options pool depth := by
  induction as with
  | nil => simp [RegularAll]
  | cons a as ih => simp [RegularAll, ih]

theorem regular_leaf {content : Content} :
    (leaf nameIndex content).Regular options pool depth ↔
      NamedFor options pool depth nameIndex content.kind? := by
  rw [Regular]

theorem regular_code {block : CodeBlock} {as : List Attribute} :
    (code nameIndex block as).Regular options pool depth ↔
      NamedFor options pool depth nameIndex (some .code) ∧ block.Regular ∧
        ∀ a ∈ as, a.Regular options pool (depth + 1) := by
  rw [Regular, regularAll_iff]

mutual

def decideRegular (options : Options) (pool : Pool) (depth : Nat) :
    ∀ a : Attribute, Decidable (a.Regular options pool depth)
  | leaf _ _ => decidable_of_iff' _ regular_leaf
  | code nameIndex block as =>
    have := decideRegularAll options pool (depth + 1) as
    inferInstanceAs (Decidable (NamedFor options pool depth nameIndex (some .code) ∧
      block.Regular ∧ RegularAll options pool (depth + 1) as))

def decideRegularAll (options : Options) (pool : Pool) (depth : Nat) :
    ∀ as : List Attribute, Decidable (RegularAll options pool depth as)
  | [] => isTrue trivial
  | a :: as =>
    have := decideRegular options pool depth a
    have := decideRegularAll options pool depth as
    inferInstanceAs (Decidable (a.Regular options pool depth ∧ RegularAll options pool depth as))

end

instance : DecidablePred (Regular options pool depth) := decideRegular options pool depth

end Attribute

/-- The attributes of a field or a method are at depth one. -/
def Member.Regular (options : Options) (pool : Pool) (m : Member) : Prop :=
  ∀ a ∈ m.attributes, a.Regular options pool 1

instance (options : Options) (pool : Pool) : DecidablePred (Member.Regular options pool) := fun m =>
  inferInstanceAs (Decidable (∀ a ∈ m.attributes, a.Regular options pool 1))

namespace ClassFile

structure WellFormed (options : Options) (c : ClassFile) : Prop where
  fits : c.Fits
  fields : ∀ m ∈ c.fields, m.Regular options c.pool
  methods : ∀ m ∈ c.methods, m.Regular options c.pool
  attributes : ∀ a ∈ c.attributes, a.Regular options c.pool 1

theorem wellFormed_iff {options : Options} {c : ClassFile} : c.WellFormed options ↔
    c.Fits ∧ (∀ m ∈ c.fields, m.Regular options c.pool) ∧
      (∀ m ∈ c.methods, m.Regular options c.pool) ∧
      ∀ a ∈ c.attributes, a.Regular options c.pool 1 :=
  ⟨fun h => ⟨h.fits, h.fields, h.methods, h.attributes⟩,
    fun h => ⟨h.1, h.2.1, h.2.2.1, h.2.2.2⟩⟩

instance (options : Options) : DecidablePred (WellFormed options) := fun _ =>
  decidable_of_iff' _ wellFormed_iff

end ClassFile
end JavaClass

import JavaClass.Proofs.Encodable
import JavaClass.Proofs.EndlessListings
import Mathlib.Tactic.MkIffOfInductiveProp

/-!
# Which classes can be listed

What a listing has to look up for an attribute depends on what the attribute is of, so there is one
condition for those of code, one for those of members and one for those of classes. All other
look-ups go without: a superclass, a signature or what an instruction refers to is left out of the
listing if it is not there. So there is a listing just if all conditions are met and the method
handles among the constants do not lead back to where they have been
(`ClassFile.listing_ok_iff_listable`).
-/

namespace JavaClass

namespace Listing

/-- What is needed to list an attribute of code. -/
def CodeAttributeListable (p : Pool) (a : Attribute) : Prop :=
  match a with
  | .leaf _ (.lineNumberTable _) => True
  | .leaf _ (.localVariableTable entries) | .leaf _ (.localVariableTypeTable entries) =>
    ∀ v ∈ entries, p.HasText v.nameIndex ∧ p.HasText v.typeIndex
  | .leaf _ (.stackMapTable frames) => ∀ f ∈ frames, f.HeadFits
  | a => p.HasText a.nameIndex

/-- What is needed to list an attribute of a field or a method. -/
def MemberAttributeListable (p : Pool) (a : Attribute) : Prop :=
  match a with
  | .code _ block attributes =>
    (∀ h ∈ block.handlers, h.catchType ≠ 0 → p.HasClassName h.catchType) ∧
      ∀ a ∈ attributes, CodeAttributeListable p a
  | .leaf _ (.constantValue index) => p.HasResolved index
  | .leaf _ (.exceptions indices) => ∀ index ∈ indices, p.HasClassName index
  | .leaf _ (.methodParameters parameters) =>
    ∀ q ∈ parameters, q.nameIndex ≠ 0 → p.HasText q.nameIndex
  | .leaf _ (.signature _) | .leaf _ .deprecated | .leaf _ .synthetic => True
  | a => p.HasText a.nameIndex

/-- What is needed to list an attribute of a class. -/
def ClassAttributeListable (p : Pool) (a : Attribute) : Prop :=
  match a with
  | .leaf _ (.sourceFile index) => p.HasText index
  | .leaf _ (.nestHost index) => p.HasClassName index
  | .leaf _ (.nestMembers indices) => ∀ index ∈ indices, p.HasClassName index
  | .leaf _ (.innerClasses classes) => ∀ c ∈ classes, p.HasClassName c.innerIndex
  | .leaf _ (.enclosingMethod classIndex methodIndex) =>
    p.HasClassName classIndex ∧ (methodIndex ≠ 0 → p.HasNameAndType methodIndex)
  | .leaf _ (.bootstrapMethods methods) =>
    ∀ m ∈ methods, p.HasResolved m.methodIndex ∧ ∀ index ∈ m.arguments, p.HasResolved index
  | .leaf _ (.signature _) | .leaf _ .deprecated | .leaf _ .synthetic => True
  | a => p.HasText a.nameIndex

/-- What is needed to list a field or a method. -/
@[mk_iff]
structure MemberListable (p : Pool) (m : Member) : Prop where
  name : p.HasText m.nameIndex
  descriptor : p.HasText m.descriptorIndex
  attributes : ∀ a ∈ m.attributes, MemberAttributeListable p a

end Listing

/-- What is needed to list a class. -/
@[mk_iff]
structure ClassFile.Listable (c : ClassFile) : Prop where
  name : c.pool.HasClassName c.thisClass
  fields : ∀ m ∈ c.fields, Listing.MemberListable c.pool m
  methods : ∀ m ∈ c.methods, Listing.MemberListable c.pool m
  attributes : ∀ a ∈ c.attributes, Listing.ClassAttributeListable c.pool a

namespace Listing

variable {p : Pool} {a : Attribute}

@[simp] theorem succeeds_briefLines (indent : String) :
    Succeeds (briefLines p indent a) ↔ p.HasText a.nameIndex := by
  simp [briefLines]

/-! ### Attributes of code -/

@[simp] theorem succeeds_variableLines (title : String) {entries : List LocalVariable} :
    Succeeds (variableLines p title entries) ↔
      ∀ v ∈ entries, p.HasText v.nameIndex ∧ p.HasText v.typeIndex := by
  simp [variableLines, variableLine]

@[simp] theorem succeeds_type {f : StackFrame} : Succeeds f.type ↔ f.HeadFits := by
  rcases f.type_cases with ⟨hfits, htype⟩ | ⟨hfits, e, -, htype⟩
  · rw [htype]
    exact iff_of_true (succeeds_ok _) hfits
  · rw [htype]
    exact iff_of_false (not_succeeds_error e) hfits

@[simp] theorem succeeds_frameLine {f : StackFrame} : Succeeds (frameLine f) ↔ f.HeadFits := by
  simp [frameLine]

@[simp] theorem succeeds_codeAttributeLines :
    Succeeds (codeAttributeLines p a) ↔ CodeAttributeListable p a := by
  cases a with
  | leaf nameIndex content =>
    cases content with
    | _ => simp [codeAttributeLines, CodeAttributeListable]
  | code nameIndex block attributes => simp [codeAttributeLines, CodeAttributeListable]

/-! ### Attributes of fields and methods -/

@[simp] theorem succeeds_handlerLine {h : ExceptionHandler} :
    Succeeds (handlerLine p h) ↔ (h.catchType ≠ 0 → p.HasClassName h.catchType) := by
  simp [handlerLine, caughtText]

/-- Without handlers there is no table, and nothing is needed. -/
@[simp] theorem succeeds_handlerLines {handlers : List ExceptionHandler} :
    Succeeds (handlerLines p handlers) ↔
      ∀ h ∈ handlers, h.catchType ≠ 0 → p.HasClassName h.catchType := by
  cases handlers with
  | nil => simp [handlerLines]
  | cons h handlers => simp [handlerLines]

@[simp] theorem succeeds_parameterLine {parameter : MethodParameter} :
    Succeeds (parameterLine p parameter) ↔
      (parameter.nameIndex ≠ 0 → p.HasText parameter.nameIndex) := by
  simp [parameterLine, parameterName]

/-- A constant is looked up first, and then all that it refers to. -/
theorem exists_require_get {index : UInt16} :
    (∃ c, require (p.get index) = .ok c ∧ p.Resolves c) ↔ p.HasResolved index := by
  simp only [require_eq_ok]
  rfl

theorem succeeds_memberAttributeLines (hacyclic : ∀ index, p.Acyclic index) :
    Succeeds (memberAttributeLines p a) ↔ MemberAttributeListable p a := by
  cases a with
  | leaf nameIndex content =>
    cases content with
    | _ => simp [memberAttributeLines, MemberAttributeListable, exists_require_get, getDotted]
  | code nameIndex block attributes =>
    simp [memberAttributeLines, MemberAttributeListable, blockLines, succeeds_codeLines hacyclic]

/-! ### Attributes of a class -/

@[simp] theorem succeeds_argumentLine {index : UInt16} :
    Succeeds (argumentLine p index) ↔ p.HasResolved index := by
  simp [argumentLine, exists_require_get]

@[simp] theorem succeeds_bootstrapLines {m : BootstrapMethod} (position : Nat) :
    Succeeds (bootstrapLines p m position) ↔
      p.HasResolved m.methodIndex ∧ ∀ index ∈ m.arguments, p.HasResolved index := by
  simp [bootstrapLines, ← exists_require_get, ← and_assoc]

@[simp] theorem succeeds_innerClassLine {c : InnerClass} :
    Succeeds (innerClassLine p c) ↔ p.HasClassName c.innerIndex := by
  simp [innerClassLine]

@[simp] theorem succeeds_enclosingLine {classIndex methodIndex : UInt16} :
    Succeeds (enclosingLine p classIndex methodIndex) ↔
      p.HasClassName classIndex ∧ (methodIndex ≠ 0 → p.HasNameAndType methodIndex) := by
  simp [enclosingLine, enclosingMethodText]

/-- Where a bootstrap method is in its table makes no difference. -/
theorem forall_mem_zipIdx {α : Type} {l : List α} {P : α → Prop} :
    (∀ a n, (a, n) ∈ l.zipIdx → P a) ↔ ∀ a ∈ l, P a := by
  constructor
  · intro h a ha
    obtain ⟨n, hn⟩ := List.mem_iff_getElem?.mp ha
    exact h a n (List.mk_mem_zipIdx_iff_getElem?.mpr hn)
  · intro h a n hmem
    exact h a (List.fst_mem_of_mem_zipIdx hmem)

@[simp] theorem succeeds_classAttributeLines :
    Succeeds (classAttributeLines p a) ↔ ClassAttributeListable p a := by
  cases a with
  | leaf nameIndex content =>
    cases content with
    | _ => simp [classAttributeLines, ClassAttributeListable, forall_mem_zipIdx]
  | code nameIndex block attributes => simp [classAttributeLines, ClassAttributeListable]

/-! ### Members and classes -/

theorem succeeds_memberLines {word : String} {holder : AccessFlag.Holder}
    {title : UInt16 → String → String → String} {m : Member}
    (hacyclic : ∀ index, p.Acyclic index) :
    Succeeds (memberLines p word holder title m) ↔ MemberListable p m := by
  rw [memberListable_iff]
  simp [memberLines, succeeds_memberAttributeLines hacyclic]

/-- The constants are listed before the members, so these are only come to if handles do not lead
back. -/
theorem succeeds_classLines {c : ClassFile} :
    Succeeds (classLines c) ↔ (∀ index, c.pool.Acyclic index) ∧ c.Listable := by
  rw [c.listable_iff]
  by_cases hacyclic : ∀ index, c.pool.Acyclic index
  · simp [classLines, succeeds_memberLines hacyclic, hacyclic]
  · simp [classLines, hacyclic]

end Listing

/-- A class can be listed just if handles do not lead back to where they have been, and everything
is there that its listing has to look up. -/
theorem ClassFile.listing_ok_iff_listable (c : ClassFile) :
    (∃ text, c.listing = .ok text) ↔ (∀ index, c.pool.Acyclic index) ∧ c.Listable :=
  calc (∃ text, c.listing = .ok text)
    _ ↔ Listing.Succeeds (Listing.unlines <$> Listing.classLines c) := by
      rw [Listing.exists_eq_ok, listing, bind_pure_comp]
    _ ↔ Listing.Succeeds (Listing.classLines c) := Listing.succeeds_map _
    _ ↔ (∀ index, c.pool.Acyclic index) ∧ c.Listable := Listing.succeeds_classLines

end JavaClass

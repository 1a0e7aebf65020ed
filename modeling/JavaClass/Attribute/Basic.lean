import JavaClass.Attribute.Kind
import JavaClass.Attribute.Table
import JavaClass.Instruction.Basic
import JavaClass.StackMap

/-!
# Attributes

What hangs on a class, a field, a method or its code. Only the code of a method has attributes of
its own, so an attribute is either a leaf or code (`Attribute`). The name is an index into the
constant pool; nothing here says that it is the name that the content should have.
-/

namespace JavaClass

/-- The content of an attribute that has no attributes of its own. -/
inductive Attribute.Content where
  | constantValue (valueIndex : UInt16)
  | stackMapTable (frames : List StackFrame)
  | exceptions (classIndices : List UInt16)
  | innerClasses (classes : List InnerClass)
  | enclosingMethod (classIndex methodIndex : UInt16)
  | synthetic
  | signature (signatureIndex : UInt16)
  | sourceFile (fileIndex : UInt16)
  | sourceDebugExtension (bytes : List UInt8)
  | lineNumberTable (lines : List LineNumber)
  | localVariableTable (entries : List LocalVariable)
  | localVariableTypeTable (entries : List LocalVariable)
  | deprecated
  | bootstrapMethods (methods : List BootstrapMethod)
  | methodParameters (parameters : List MethodParameter)
  | nestHost (hostIndex : UInt16)
  | nestMembers (classIndices : List UInt16)
  /-- The bytes of an attribute whose name has no meaning here. -/
  | unknown (bytes : List UInt8)
  deriving DecidableEq, Repr

namespace Attribute.Content

/-- The name that this content belongs to. -/
def kind? : Content → Option Kind
  | constantValue .. => some .constantValue
  | stackMapTable .. => some .stackMapTable
  | exceptions .. => some .exceptions
  | innerClasses .. => some .innerClasses
  | enclosingMethod .. => some .enclosingMethod
  | synthetic => some .synthetic
  | signature .. => some .signature
  | sourceFile .. => some .sourceFile
  | sourceDebugExtension .. => some .sourceDebugExtension
  | lineNumberTable .. => some .lineNumberTable
  | localVariableTable .. => some .localVariableTable
  | localVariableTypeTable .. => some .localVariableTypeTable
  | deprecated => some .deprecated
  | bootstrapMethods .. => some .bootstrapMethods
  | methodParameters .. => some .methodParameters
  | nestHost .. => some .nestHost
  | nestMembers .. => some .nestMembers
  | unknown .. => none

end Attribute.Content

/-- The parts of a method's code beside its attributes. -/
structure CodeBlock where
  maxStack : UInt16
  maxLocals : UInt16
  instructions : List Instruction
  handlers : List ExceptionHandler
  deriving DecidableEq, Repr

inductive Attribute where
  | leaf (nameIndex : UInt16) (content : Attribute.Content)
  | code (nameIndex : UInt16) (block : CodeBlock) (attributes : List Attribute)
  deriving Repr

namespace Attribute

def nameIndex : Attribute → UInt16
  | leaf nameIndex _ | code nameIndex .. => nameIndex

def kind? : Attribute → Option Kind
  | leaf _ content => content.kind?
  | code .. => some .code

/-! ### Equality -/

mutual

def beq : Attribute → Attribute → Bool
  | leaf n c, leaf n' c' => n == n' && c == c'
  | code n b as, code n' b' as' => n == n' && b == b' && beqAll as as'
  | _, _ => false

def beqAll : List Attribute → List Attribute → Bool
  | [], [] => true
  | a :: as, b :: bs => beq a b && beqAll as bs
  | _, _ => false

end

mutual

theorem eq_of_beq : ∀ {a b : Attribute}, beq a b = true → a = b
  | leaf .., leaf .., h => by simp_all [beq]
  | leaf .., code .., h | code .., leaf .., h => by simp [beq] at h
  | code _ _ as, code _ _ bs, h => by
    simp only [beq, Bool.and_eq_true, beq_iff_eq] at h
    rw [h.1.1, h.1.2, eq_of_beqAll h.2]

theorem eq_of_beqAll : ∀ {as bs : List Attribute}, beqAll as bs = true → as = bs
  | [], [], _ => rfl
  | [], _ :: _, h | _ :: _, [], h => by simp [beqAll] at h
  | a :: as, b :: bs, h => by
    simp only [beqAll, Bool.and_eq_true] at h
    rw [eq_of_beq h.1, eq_of_beqAll h.2]

end

mutual

theorem beq_self : ∀ a : Attribute, beq a a = true
  | leaf .. => by simp [beq]
  | code _ _ as => by simp [beq, beqAll_self as]

theorem beqAll_self : ∀ as : List Attribute, beqAll as as = true
  | [] => rfl
  | a :: as => by simp [beqAll, beq_self a, beqAll_self as]

end

instance : DecidableEq Attribute := fun a b =>
  decidable_of_iff (beq a b = true) ⟨eq_of_beq, fun h => h ▸ beq_self a⟩

end Attribute
end JavaClass

import JavaClass.Descriptor

/-!
# Types and their descriptors

A type is a tree (`FieldType`), with the descriptor that stands for it in a class file
(`FieldType.text`) and the form it has in a program (`FieldType.java`). From its descriptor, with
anything behind, the form in a program is read off again, and so it is for all the types of a method
(`types_of_text`).

No type starts with the parenthesis that ends the parameters, and the name of a class ends at the
first semicolon. So a name may hold parentheses and brackets, and where one type ends is never in
doubt.
-/

namespace JavaClass.Descriptor

/-- The types that have a letter of their own. -/
inductive BaseType where
  | byte | char | double | float | int | long | short | boolean
  deriving DecidableEq, Repr

namespace BaseType

def letter : BaseType → Char
  | byte => 'B'
  | char => 'C'
  | double => 'D'
  | float => 'F'
  | int => 'I'
  | long => 'J'
  | short => 'S'
  | boolean => 'Z'

def keyword : BaseType → String
  | byte => "byte"
  | char => "char"
  | double => "double"
  | float => "float"
  | int => "int"
  | long => "long"
  | short => "short"
  | boolean => "boolean"

end BaseType

/-- The type of a field or of a parameter. -/
inductive FieldType where
  | base (type : BaseType)
  /-- A class. Its name ends at a semicolon, so there is none in it. -/
  | object (name : List Char) (h : ';' ∉ name)
  | array (element : FieldType)
  deriving DecidableEq, Repr

namespace FieldType

/-- The descriptor. -/
def text : FieldType → List Char
  | base type => [type.letter]
  | object name _ => 'L' :: (name ++ [';'])
  | array element => '[' :: element.text

/-- The type in a program. -/
def java : FieldType → String
  | base type => type.keyword
  | object name _ => dotted name
  | array element => element.java ++ "[]"

end FieldType

/-- What a method gives back. -/
inductive ReturnType where
  | void
  | value (type : FieldType)
  deriving DecidableEq, Repr

namespace ReturnType

def text : ReturnType → List Char
  | void => ['V']
  | value type => type.text

def java : ReturnType → String
  | void => "void"
  | value type => type.java

end ReturnType

theorem typeWithin_letter (type : BaseType) (dimensions : String) (rest : List Char) :
    typeWithin dimensions (type.letter :: rest) = some (type.keyword ++ dimensions, rest) := by
  cases type <;> rfl

theorem typeWithin_object {name : List Char} (h : ';' ∉ name) (dimensions : String)
    (rest : List Char) :
    typeWithin dimensions ('L' :: (name ++ ';' :: rest)) =
      some (dotted name ++ dimensions, rest) := by
  have hname : ∀ c ∈ name, decide (c ≠ ';') = true :=
    fun c hc => decide_eq_true fun hsemicolon => h (hsemicolon ▸ hc)
  have hdrop : (name ++ ';' :: rest).dropWhile (· ≠ ';') = ';' :: rest := by
    rw [List.dropWhile_append_of_pos hname]
    rfl
  have htake : (name ++ ';' :: rest).takeWhile (· ≠ ';') = name := by
    rw [List.takeWhile_append_of_pos hname]
    exact List.append_nil name
  rw [typeWithin, hdrop, htake]

/-- The brackets that are put behind a type are all alike. -/
theorem brackets_comm {dimensions : String} (h : dimensions ++ "[]" = "[]" ++ dimensions) :
    dimensions ++ "[]" ++ "[]" = "[]" ++ (dimensions ++ "[]") := by
  rw [h, String.append_assoc, h]

/-- Brackets from outside come behind those that the type has itself. -/
theorem typeWithin_text (t : FieldType) (rest : List Char) {dimensions : String}
    (h : dimensions ++ "[]" = "[]" ++ dimensions) :
    typeWithin dimensions (t.text ++ rest) = some (t.java ++ dimensions, rest) := by
  induction t generalizing dimensions with
  | base type => exact typeWithin_letter type dimensions rest
  | object name hname =>
    rw [FieldType.text, List.cons_append, List.append_assoc]
    exact typeWithin_object hname dimensions rest
  | array element ih =>
    rw [FieldType.text, List.cons_append, typeWithin, ih (brackets_comm h), FieldType.java,
      String.append_assoc, ← h]

theorem fieldType?_text (t : FieldType) (rest : List Char) :
    fieldType? (t.text ++ rest) = some (t.java, rest) := by
  have hempty : "" ++ "[]" = "[]" ++ "" := rfl
  rw [fieldType?, typeWithin_text t rest hempty, String.append_empty]

theorem fieldType?_result (r : ReturnType) : fieldType? r.text = some (r.java, []) := by
  cases r with
  | void => rfl
  | value type =>
    have h := fieldType?_text type []
    rwa [List.append_nil] at h

/-- What starts with a type does not start with the parenthesis that ends the parameters. -/
theorem parameters?_of_fieldType? {type : String} {text rest : List Char}
    (h : fieldType? text = some (type, rest)) :
    parameters? text = (parameters? rest).map fun (types, after) => (type :: types, after) := by
  rw [parameters?]
  · split
    · next hnone => rw [h] at hnone; cases hnone
    · next hsome =>
      rw [h] at hsome
      cases hsome
      rfl
  · rintro after rfl
    cases h

theorem parameters?_flatMap {T : Type} {text : T → List Char} {java : T → String}
    (h : ∀ t rest, fieldType? (text t ++ rest) = some (java t, rest)) (ts : List T)
    (rest : List Char) :
    parameters? (ts.flatMap text ++ ')' :: rest) = some (ts.map java, rest) := by
  induction ts with
  | nil => rw [List.flatMap_nil, List.nil_append, parameters?, List.map_nil]
  | cons t ts ih =>
    rw [List.flatMap_cons, List.append_assoc, parameters?_of_fieldType? (h t _), ih, List.map_cons]
    rfl

theorem parameters?_texts (ts : List FieldType) (rest : List Char) :
    parameters? (ts.flatMap FieldType.text ++ ')' :: rest) =
      some (ts.map FieldType.java, rest) :=
  parameters?_flatMap fieldType?_text ts rest

/-- A type is read off its descriptor, whatever comes behind that, and the types of the parameters
and of the result are read off the descriptor of a method. -/
theorem types_of_text :
    (∀ (t : FieldType) (rest : List Char), fieldType? (t.text ++ rest) = some (t.java, rest)) ∧
      ∀ (ts : List FieldType) (r : ReturnType),
        methodTypes? ('(' :: (ts.flatMap FieldType.text ++ ')' :: r.text)) =
          some (ts.map FieldType.java, r.java) := by
  refine ⟨fieldType?_text, fun ts r => ?_⟩
  rw [methodTypes?, parameters?_texts]
  dsimp only
  rw [fieldType?_result]

example : methodTypes? "([[La/(b)[;J)Z".toList = some (["a.(b)[[][]", "long"], "boolean") := by
  decide +kernel

end JavaClass.Descriptor

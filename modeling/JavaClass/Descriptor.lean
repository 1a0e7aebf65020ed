/-!
# Descriptors

The type of a field or method in its stored form, turned into the form of a Java program. A type is
read off the start of a text, `fieldType?` also gives what follows it.
-/

namespace JavaClass.Descriptor

/-- The name that a letter stands for. -/
def baseType? : Char → Option String
  | 'B' => some "byte"
  | 'C' => some "char"
  | 'D' => some "double"
  | 'F' => some "float"
  | 'I' => some "int"
  | 'J' => some "long"
  | 'S' => some "short"
  | 'Z' => some "boolean"
  | 'V' => some "void"
  | _ => none

/-- The name of a class as it is written in a program. -/
def dotted (name : List Char) : String :=
  String.ofList (name.map fun c => if c = '/' then '.' else c)

/-- `dimensions` is what the arrays around the type add behind it. -/
def typeWithin (dimensions : String) : List Char → Option (String × List Char)
  | [] => none
  | '[' :: rest => typeWithin (dimensions ++ "[]") rest
  | 'L' :: rest =>
    match rest.dropWhile (· ≠ ';') with
    | [] => none
    | _ :: after => some (dotted (rest.takeWhile (· ≠ ';')) ++ dimensions, after)
  | c :: rest => (baseType? c).map fun name => (name ++ dimensions, rest)

def fieldType? (text : List Char) : Option (String × List Char) :=
  typeWithin "" text

theorem length_rest_lt {dimensions type : String} {text rest : List Char}
    (h : typeWithin dimensions text = some (type, rest)) : rest.length < text.length := by
  fun_induction typeWithin dimensions text with
  | case1 => simp at h
  | case2 _ _ ih => have := ih h; simp; omega
  | case3 => simp at h
  | case4 d text c after hdrop =>
    obtain ⟨_, rfl⟩ := by simpa using h
    have := (List.dropWhile_suffix (l := text) (· ≠ ';')).length_le
    simp only [hdrop, List.length_cons] at *
    omega
  | case5 d c text =>
    obtain ⟨_, _, _, rfl⟩ := by simpa using h
    simp

/-- The types up to the closing parenthesis, and what follows that. -/
def parameters? (text : List Char) : Option (List String × List Char) :=
  match text with
  | ')' :: rest => some ([], rest)
  | text =>
    match _h : fieldType? text with
    | none => none
    | some (type, rest) => (parameters? rest).map fun (types, after) => (type :: types, after)
termination_by text.length
decreasing_by exact length_rest_lt _h

/-- The types of the parameters and of the result. -/
def methodTypes? (text : List Char) : Option (List String × String) :=
  match text with
  | '(' :: rest =>
    match parameters? rest with
    | none => none
    | some (types, after) =>
      match fieldType? after with
      | some (result, []) => some (types, result)
      | _ => none
  | _ => none

example : methodTypes? "([[Ljava/lang/String;J)V".toList =
    some (["java.lang.String[][]", "long"], "void") := by decide +kernel

example : methodTypes? "()VV".toList = none := by decide +kernel

end JavaClass.Descriptor

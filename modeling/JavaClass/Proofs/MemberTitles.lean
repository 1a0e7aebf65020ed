import JavaClass.Listing.ClassFile
import JavaClass.Proofs.Descriptors
import Mathlib.Data.List.TakeWhile

/-!
# Titles of fields and methods

In front of a field or a method a listing shows its types, if its descriptor can be read, and
otherwise the descriptor. What can be read is told exactly (`fieldType?_eq_some_iff`,
`methodTypes?_eq_some_iff`), and from that when a title has a type in it (`titles_of_descriptor`).

More is taken for a type than there should be: `V`, which stands for the result of a method that has
none, is read as a type everywhere, also with brackets in front (`ReadType.void`). And what comes
behind the type of a field is dropped, though behind the result of a method there may be nothing.
So not every malformed descriptor is shown (`not_only_types_shown`).
-/

namespace JavaClass.Descriptor

/-- What is read as a type. -/
inductive ReadType where
  | field (type : FieldType)
  /-- `V` behind any number of brackets. -/
  | void (dimensions : Nat)
  deriving DecidableEq, Repr

namespace ReadType

def text : ReadType → List Char
  | field type => type.text
  | void dimensions => List.replicate dimensions '[' ++ ['V']

def java : ReadType → String
  | field type => type.java
  | void dimensions => "void" ++ String.join (List.replicate dimensions "[]")

/-- The type with one more bracket in front. -/
def array : ReadType → ReadType
  | field type => field (.array type)
  | void dimensions => void (dimensions + 1)

theorem text_array (t : ReadType) : t.array.text = '[' :: t.text := by
  cases t with
  | field type => rfl
  | void dimensions => rfl

theorem java_array (t : ReadType) : t.array.java = t.java ++ "[]" := by
  cases t with
  | field type => rfl
  | void dimensions =>
    rw [array, java, java, List.replicate_succ', String.join_append, String.append_assoc]
    simp

end ReadType

variable {text rest after : List Char} {type result : String} {types : List String}

theorem baseType?_eq_some {c : Char} {name : String} (h : baseType? c = some name) :
    (∃ type : BaseType, c = type.letter ∧ name = type.keyword) ∨ c = 'V' ∧ name = "void" := by
  unfold baseType? at h
  split at h <;> cases h
  · exact .inl ⟨.byte, rfl, rfl⟩
  · exact .inl ⟨.char, rfl, rfl⟩
  · exact .inl ⟨.double, rfl, rfl⟩
  · exact .inl ⟨.float, rfl, rfl⟩
  · exact .inl ⟨.int, rfl, rfl⟩
  · exact .inl ⟨.long, rfl, rfl⟩
  · exact .inl ⟨.short, rfl, rfl⟩
  · exact .inl ⟨.boolean, rfl, rfl⟩
  · exact .inr ⟨rfl, rfl⟩

/-- The name of a class ends at the first semicolon. -/
theorem split_of_dropWhile {c : Char} (h : text.dropWhile (· ≠ ';') = c :: after) :
    ';' ∉ text.takeWhile (· ≠ ';') ∧ text = text.takeWhile (· ≠ ';') ++ ';' :: after := by
  constructor
  · intro hmem
    have hne := List.mem_takeWhile_imp hmem
    simp at hne
  · have hc : c = ';' := by
      have hhead := List.head?_dropWhile_not (· ≠ ';') text
      rw [h] at hhead
      simpa using hhead
    subst hc
    rw [← h, List.takeWhile_append_dropWhile]

/-- What is read as a type, with brackets from outside behind it, is the text of one. -/
theorem exists_of_typeWithin {dimensions : String}
    (hdimensions : dimensions ++ "[]" = "[]" ++ dimensions)
    (h : typeWithin dimensions text = some (type, rest)) :
    ∃ t : ReadType, text = t.text ++ rest ∧ type = t.java ++ dimensions := by
  fun_induction typeWithin dimensions text with
  | case1 => cases h
  | case2 dimensions text ih =>
    obtain ⟨t, htext, htype⟩ := ih (brackets_comm hdimensions) h
    refine ⟨t.array, ?_, ?_⟩
    · rw [t.text_array, htext, List.cons_append]
    · rw [htype, t.java_array, String.append_assoc, hdimensions]
  | case3 => cases h
  | case4 dimensions text c after hdrop =>
    cases h
    obtain ⟨hname, htext⟩ := split_of_dropWhile hdrop
    refine ⟨.field (.object _ hname), ?_, rfl⟩
    rw [ReadType.text, FieldType.text, List.cons_append, List.append_assoc]
    exact congrArg ('L' :: ·) htext
  | case5 dimensions c text hbracket hclass =>
    obtain ⟨name, hname, heq⟩ := Option.map_eq_some_iff.mp h
    cases heq
    rcases baseType?_eq_some hname with ⟨base, rfl, rfl⟩ | ⟨rfl, rfl⟩
    · exact ⟨.field (.base base), rfl, rfl⟩
    · exact ⟨.void 0, rfl, rfl⟩

theorem typeWithin_read (t : ReadType) (rest : List Char) {dimensions : String}
    (hdimensions : dimensions ++ "[]" = "[]" ++ dimensions) :
    typeWithin dimensions (t.text ++ rest) = some (t.java ++ dimensions, rest) := by
  cases t with
  | field type => exact typeWithin_text type rest hdimensions
  | void n =>
    induction n generalizing dimensions with
    | zero => rfl
    | succ n ih =>
      show typeWithin dimensions ((ReadType.void n).array.text ++ rest) =
        some ((ReadType.void n).array.java ++ dimensions, rest)
      rw [ReadType.text_array, ReadType.java_array, List.cons_append, typeWithin,
        ih (brackets_comm hdimensions), String.append_assoc, hdimensions]

/-- A type is read off a text just if the text starts with it. -/
theorem fieldType?_eq_some_iff : fieldType? text = some (type, rest) ↔
    ∃ t : ReadType, text = t.text ++ rest ∧ type = t.java := by
  have hempty : "" ++ "[]" = "[]" ++ "" := rfl
  rw [fieldType?]
  constructor
  · intro h
    obtain ⟨t, htext, htype⟩ := exists_of_typeWithin hempty h
    exact ⟨t, htext, htype.trans String.append_empty⟩
  · rintro ⟨t, rfl, rfl⟩
    rw [typeWithin_read t rest hempty, String.append_empty]

theorem fieldType?_eq_none_iff :
    fieldType? text = none ↔ ∀ (t : ReadType) rest, text ≠ t.text ++ rest := by
  constructor
  · rintro h t rest rfl
    rw [fieldType?_eq_some_iff.mpr ⟨t, rfl, rfl⟩] at h
    cases h
  · intro h
    cases hread : fieldType? text with
    | none => rfl
    | some read =>
      obtain ⟨t, htext, -⟩ := fieldType?_eq_some_iff.mp hread
      exact absurd htext (h t read.2)

/-- The parameters that are read, up to the parenthesis that ends them. -/
theorem exists_of_parameters? (h : parameters? text = some (types, after)) :
    ∃ ts : List ReadType, text = ts.flatMap ReadType.text ++ ')' :: after ∧
      types = ts.map ReadType.java := by
  fun_induction parameters? text generalizing types with
  | case1 rest =>
    cases h
    exact ⟨[], rfl, rfl⟩
  | case2 => cases h
  | case3 text hend type rest hread ih =>
    obtain ⟨⟨types', after'⟩, hrest, heq⟩ := Option.map_eq_some_iff.mp h
    cases heq
    obtain ⟨t, htext, rfl⟩ := fieldType?_eq_some_iff.mp hread
    obtain ⟨ts, hts, rfl⟩ := ih hrest
    refine ⟨t :: ts, ?_, rfl⟩
    rw [htext, hts, List.flatMap_cons, List.append_assoc]

/-- The types of a method are read off a text just if these types and the parentheses are all of
it. -/
theorem methodTypes?_eq_some_iff : methodTypes? text = some (types, result) ↔
    ∃ (ts : List ReadType) (r : ReadType),
      text = '(' :: (ts.flatMap ReadType.text ++ ')' :: r.text) ∧
        types = ts.map ReadType.java ∧ result = r.java := by
  constructor
  · intro h
    unfold methodTypes? at h
    split at h
    · split at h
      · cases h
      · next parameters after hparameters =>
        split at h
        · next result' hresult =>
          cases h
          obtain ⟨ts, rfl, rfl⟩ := exists_of_parameters? hparameters
          obtain ⟨r, hr, rfl⟩ := fieldType?_eq_some_iff.mp hresult
          rw [List.append_nil] at hr
          exact ⟨ts, r, hr ▸ rfl, rfl, rfl⟩
        · cases h
    · cases h
  · rintro ⟨ts, r, rfl, rfl, rfl⟩
    have hparameters := parameters?_flatMap
      (fun (t : ReadType) rest => fieldType?_eq_some_iff.mpr ⟨t, rfl, rfl⟩) ts r.text
    have hresult : fieldType? r.text = some (r.java, []) :=
      fieldType?_eq_some_iff.mpr ⟨r, (List.append_nil _).symm, rfl⟩
    rw [methodTypes?, hparameters]
    dsimp only
    rw [hresult]

theorem methodTypes?_eq_none_iff : methodTypes? text = none ↔
    ∀ (ts : List ReadType) (r : ReadType),
      text ≠ '(' :: (ts.flatMap ReadType.text ++ ')' :: r.text) := by
  constructor
  · intro h ts r htext
    rw [methodTypes?_eq_some_iff.mpr ⟨ts, r, htext, rfl, rfl⟩] at h
    cases h
  · intro h
    cases hread : methodTypes? text with
    | none => rfl
    | some read =>
      obtain ⟨ts, r, htext, -⟩ := methodTypes?_eq_some_iff.mp hread
      exact absurd htext (h ts r)

end JavaClass.Descriptor

namespace JavaClass.Listing

open Descriptor

/-- The title of a field has a type in it if the descriptor starts with one, and otherwise the
descriptor. That of a method, if it is not the initializer of the class, has the types only if they
make up the descriptor, and otherwise the descriptor behind the name. In both, `V` counts as a type
wherever it is. -/
theorem titles_of_descriptor (bits : UInt16) (className name descriptor : String) :
    (∀ (t : ReadType) rest, descriptor.toList = t.text ++ rest →
      fieldTitle bits name descriptor =
        "  " ++ modifiers bits .ofField ++ t.java ++ " " ++ name ++ ";") ∧
    ((∀ (t : ReadType) rest, descriptor.toList ≠ t.text ++ rest) →
      fieldTitle bits name descriptor =
        "  " ++ modifiers bits .ofField ++ descriptor ++ " " ++ name ++ ";") ∧
    (∀ types result, methodTypes? descriptor.toList = some (types, result) ↔
      ∃ (ts : List ReadType) (r : ReadType),
        descriptor.toList = '(' :: (ts.flatMap ReadType.text ++ ')' :: r.text) ∧
          types = ts.map ReadType.java ∧ result = r.java) ∧
    (name ≠ "<clinit>" →
      (∀ (ts : List ReadType) (r : ReadType),
        descriptor.toList ≠ '(' :: (ts.flatMap ReadType.text ++ ')' :: r.text)) →
      methodTitle bits className name descriptor =
        "  " ++ modifiers bits .ofMethod ++ (name ++ descriptor) ++ ";") := by
  refine ⟨?_, ?_, fun _ _ => methodTypes?_eq_some_iff, ?_⟩
  · intro t rest hdescriptor
    rw [fieldTitle, fieldType?_eq_some_iff.mpr ⟨t, hdescriptor, rfl⟩]
  · intro hdescriptor
    rw [fieldTitle, fieldType?_eq_none_iff.mpr hdescriptor]
  · intro hname hdescriptor
    rw [methodTitle, if_neg hname, methodTypes?_eq_none_iff.mpr hdescriptor]

theorem titles_of_descriptor_malformed :
    fieldTitle 0 "x" "[VQ" = "  void[] x;" ∧ fieldTitle 0 "x" "[[Q" = "  [[Q x;" ∧
      methodTypes? "(J[V)V".toList = some (["long", "void[]"], "void") ∧
      methodTitle 0 "A" "m" "()VV" = "  m()VV;" := by
  obtain ⟨htype, -⟩ := titles_of_descriptor 0 "A" "x" "[VQ"
  obtain ⟨-, hnone, -⟩ := titles_of_descriptor 0 "A" "x" "[[Q"
  obtain ⟨-, -, hmethod, -⟩ := titles_of_descriptor 0 "A" "m" "(J[V)V"
  obtain ⟨-, -, -, htitle⟩ := titles_of_descriptor 0 "A" "m" "()VV"
  refine ⟨?_, ?_, ?_, ?_⟩
  · rw [htype (.void 1) ['Q'] (by decide)]
    decide +kernel
  · rw [hnone (fieldType?_eq_none_iff.mp (by decide))]
    decide +kernel
  · exact (hmethod _ _).mpr
      ⟨[.field (.base .long), .void 1], .void 0, by decide, by decide +kernel, by decide +kernel⟩
  · rw [htitle (by decide) (methodTypes?_eq_none_iff.mp (by decide +kernel))]
    decide +kernel

/-- What comes behind the type of a field is dropped, and `V` is taken for a type. -/
theorem not_only_types_shown :
    (¬ ∀ (bits : UInt16) (name descriptor : String),
      (∀ t : FieldType, descriptor.toList ≠ t.text) → fieldTitle bits name descriptor =
        "  " ++ modifiers bits .ofField ++ descriptor ++ " " ++ name ++ ";") ∧
    ¬ ∀ (descriptor : String) types result,
      methodTypes? descriptor.toList = some (types, result) →
        ∃ (ts : List FieldType) (r : ReturnType),
          descriptor.toList = '(' :: (ts.flatMap FieldType.text ++ ')' :: r.text) := by
  constructor
  · intro h
    have htitle := h 0 "x" "II" ?_
    · revert htitle
      decide +kernel
    · rintro t ht
      have hlist : ['I', 'I'] = t.text := ht
      cases t with
      | base type => cases type <;> cases hlist
      | object name hname => cases hlist
      | array element => cases hlist
  · intro h
    obtain ⟨ts, r, hdescriptor⟩ := h "(V)V" ["void"] "void" (by decide +kernel)
    have hlist : ['V', ')', 'V'] = ts.flatMap FieldType.text ++ ')' :: r.text :=
      List.tail_eq_of_cons_eq hdescriptor
    cases ts with
    | nil => cases hlist
    | cons t ts =>
      rw [List.flatMap_cons, List.append_assoc] at hlist
      cases t with
      | base type => cases type <;> cases hlist
      | object name hname => cases hlist
      | array element => cases hlist

end JavaClass.Listing

import JavaClass.Decimal.Shortest
import JavaClass.Listing.Basic
import JavaClass.Pool

/-!
# Constants in a listing

A constant is shown as it is stored, with the indices that it holds, or as the text that these stand
for. Only a method handle refers to a constant of any kind, which may be a handle as well. Nothing
looks for handles that lead back to where they have been: a text that needs itself has no end
(`handleText`), and so there is no listing then.
-/

namespace JavaClass.Listing

/-- The word in front of a constant that an instruction refers to. -/
def kindWord : Constant.Kind → String
  | .classInfo => "class"
  | .fieldRef => "Field"
  | .methodRef => "Method"
  | .interfaceMethodRef => "InterfaceMethod"
  | .integer => "int"
  | .float => "float"
  | .long => "long"
  | .double => "double"
  | kind => kind.name

def referenceWord (kind : UInt8) : String :=
  match kind.toNat with
  | 1 => "REF_getField"
  | 2 => "REF_getStatic"
  | 3 => "REF_putField"
  | 4 => "REF_putStatic"
  | 5 => "REF_invokeVirtual"
  | 6 => "REF_invokeStatic"
  | 7 => "REF_invokeSpecial"
  | 8 => "REF_newInvokeSpecial"
  | 9 => "REF_invokeInterface"
  | n => s!"REF_{n}"

/-- The names of constructors and initializers are quoted. -/
def memberName (name : String) : String :=
  if name.toList.head? = some '<' then "\"" ++ name ++ "\"" else name

def nameAndTypeText (p : Pool) (nameIndex descriptorIndex : UInt16) : Except Error String := do
  let name ← p.getText nameIndex
  let descriptor ← p.getText descriptorIndex
  return memberName name ++ ":" ++ descriptor

def getNameAndType (p : Pool) (index : UInt16) : Except Error String := do
  match ← p.get index with
  | .nameAndType nameIndex descriptorIndex => nameAndTypeText p nameIndex descriptorIndex
  | c => throw (.wrongConstantKind index .nameAndType c.kind)

def memberText (p : Pool) (classIndex nameAndTypeIndex : UInt16) : Except Error String := do
  let owner ← p.getClassName classIndex
  let member ← getNameAndType p nameAndTypeIndex
  return owner ++ "." ++ member

/-- The value of a constant that refers to no other. -/
def literal? : Constant → Option String
  | .integer bits => some s!"{bits.toInt32.toInt}"
  | .float bits => some (Decimal.text .single bits.toNat ++ "f")
  | .long high low => some s!"{(Constant.joinHalves high low).toInt64.toInt}l"
  | .double high low => some (Decimal.text .double (Constant.joinHalves high low).toNat ++ "d")
  | .utf8 bytes => some (Text.latin1 bytes)
  | _ => none

/-- What a constant stands for that is not a method handle. -/
def plainText (p : Pool) : Constant → Except Error String
  | .classInfo index | .string index | .methodType index => p.getText index
  | .fieldRef owner member | .methodRef owner member | .interfaceMethodRef owner member =>
    memberText p owner member
  | .nameAndType name descriptor => nameAndTypeText p name descriptor
  | .invokeDynamic bootstrap member => do
    return s!"#{bootstrap.toNat}:" ++ (← getNameAndType p member)
  | c => return (literal? c).getD ""

/-- What a method handle stands for: the kind of its reference, and what the constant stands for
that it refers to. There is no result if this goes on for ever. -/
def handleText (p : Pool) (kind : UInt8) (index : UInt16) : Option (Except Error String) :=
  match p.get index with
  | .error e => some (.error e)
  | .ok (.methodHandle nextKind nextIndex) => do
    -- `apply`, as a call in a term would keep its place in the file inside of the definition
    let text : Except Error String ← by
      apply handleText
      · exact p
      · exact nextKind
      · exact nextIndex
    return (referenceWord kind ++ " " ++ ·) <$> text
  | .ok c => some ((referenceWord kind ++ " " ++ ·) <$> plainText p c)
partial_fixpoint

/-- What a constant stands for. There is no result if handles lead around in a circle. -/
def constantText (p : Pool) : Constant → Option (Except Error String)
  | .methodHandle kind index => handleText p kind index
  | c => some (plainText p c)

/-- What a constant stands for, in a listing that cannot go without it. -/
def requireText (p : Pool) (c : Constant) : Except Obstacle String := do
  require (← await (constantText p c))

section

variable {p : Pool} {kind : UInt8} {index : UInt16} {c : Constant}

theorem constantText_of_kind (h : c.kind ≠ .methodHandle) :
    constantText p c = some (plainText p c) := by
  cases c with
  | methodHandle kind index => exact absurd rfl h
  | _ => rfl

theorem constantText_of_error {e : Error} (h : p.get index = .error e) :
    constantText p (.methodHandle kind index) = some (.error e) := by
  rw [constantText, handleText, h]

/-- The text of a handle is that of what it refers to, with a word in front. -/
theorem constantText_of_get (h : p.get index = .ok c) :
    constantText p (.methodHandle kind index) =
      (constantText p c).map ((referenceWord kind ++ " " ++ ·) <$> ·) := by
  rw [constantText, handleText, h]
  cases c with
  | methodHandle nextKind nextIndex => exact Option.map_eq_bind.symm
  | _ => rfl

end

/-- The indices that a constant holds. -/
def storedText : Constant → String
  | .classInfo index | .string index | .methodType index => s!"#{index.toNat}"
  | .fieldRef first second | .methodRef first second | .interfaceMethodRef first second =>
    s!"#{first.toNat}.#{second.toNat}"
  | .nameAndType first second | .invokeDynamic first second => s!"#{first.toNat}:#{second.toNat}"
  | .methodHandle kind index => s!"{kind.toNat}:#{index.toNat}"
  | c => (literal? c).getD ""

def poolLine (p : Pool) (index : Nat) (c : Constant) : Except Obstacle String := do
  let line := Text.padLeft 5 s!"#{index}" ++ " = " ++ Text.padRight 19 c.kind.name ++ storedText c
  let text ← await (constantText p c)
  return if (literal? c).isSome then line else withComment 42 line text.toOption

/-- What an instruction refers to, if it can be told. -/
def reference (p : Pool) (index : UInt16) : Except Obstacle (Option String) := do
  match p.get index with
  | .ok c =>
    let text ← await (constantText p c)
    return text.toOption.map fun text => kindWord c.kind ++ " " ++ text
  | .error _ => return none

end JavaClass.Listing

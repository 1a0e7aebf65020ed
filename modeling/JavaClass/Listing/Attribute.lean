import JavaClass.AccessFlags
import JavaClass.Attribute.Codec
import JavaClass.Descriptor
import JavaClass.Listing.Instruction

/-!
# Attributes in a listing

Which attributes are shown in full depends on what they are of: a member, code or a class. Of all
others the name and the length are shown.
-/

namespace JavaClass.Listing

/-- The keywords for access flags, each with a blank behind it. -/
def modifiers (bits : UInt16) (holder : AccessFlag.Holder) : String :=
  String.join ((AccessFlag.set bits (AccessFlag.keywords holder)).map (·.word ++ " "))

/-- The name of a class as it is written in a program. -/
def getDotted (p : Pool) (index : UInt16) : Except Error String := do
  return Descriptor.dotted (← p.getClassName index).toList

/-- The name of an attribute and the length of its payload. -/
def briefLines (p : Pool) (indent : String) (a : Attribute) : Except Obstacle (List String) := do
  let name ← require (p.getText a.nameIndex)
  return [indent ++ name ++ ": length = 0x" ++ Text.hex a.payloadLength]

def signatureLine (p : Pool) (indent : String) (index : UInt16) : String :=
  withComment 42 (indent ++ s!"Signature: #{index.toNat}") (p.getText index).toOption

def column (width : Nat) (n : UInt16) : String :=
  Text.padLeft width s!"{n.toNat}"

/-! ### Attributes of code -/

def caughtText (p : Pool) (h : ExceptionHandler) : Except Error String := do
  if h.catchType = 0 then
    return "any"
  return "Class " ++ (← p.getClassName h.catchType)

def handlerLine (p : Pool) (h : ExceptionHandler) : Except Obstacle String := do
  let caught ← require (caughtText p h)
  return "        " ++ column 5 h.startPc ++ " " ++ column 5 h.endPc ++ " " ++
    column 5 h.handlerPc ++ "   " ++ caught

def variableLine (p : Pool) (v : LocalVariable) : Except Obstacle String := do
  let name ← require (p.getText v.nameIndex)
  let type ← require (p.getText v.typeIndex)
  return "        " ++ column 5 v.startPc ++ "  " ++ column 6 v.length ++ "  " ++ column 4 v.slot ++
    "  " ++ Text.padLeft 5 name ++ "   " ++ type

def variableLines (p : Pool) (title : String) (entries : List LocalVariable) :
    Except Obstacle (List String) := do
  let lines ← entries.mapM (variableLine p)
  return ("      " ++ title ++ ":") :: "        Start  Length  Slot  Name   Signature" :: lines

def frameWord : StackFrame → String
  | .same .. => "same"
  | .sameOneItem .. => "same_locals_1_stack_item"
  | .sameOneItemExtended .. => "same_locals_1_stack_item_frame_extended"
  | .chop .. => "chop"
  | .sameExtended .. => "same_frame_extended"
  | .append .. => "append"
  | .full .. => "full_frame"

def frameLine (f : StackFrame) : Except Obstacle String := do
  let type ← require f.type
  return s!"        frame_type = {type.toNat} /* " ++ frameWord f ++ " */"

def codeAttributeLines (p : Pool) (a : Attribute) : Except Obstacle (List String) := do
  match a with
  | .leaf _ (.lineNumberTable lines) =>
    return "      LineNumberTable:" ::
      lines.map fun n => s!"        line {n.line.toNat}: {n.startPc.toNat}"
  | .leaf _ (.localVariableTable entries) => variableLines p "LocalVariableTable" entries
  | .leaf _ (.localVariableTypeTable entries) => variableLines p "LocalVariableTypeTable" entries
  | .leaf _ (.stackMapTable frames) =>
    let lines ← frames.mapM frameLine
    return s!"      StackMapTable: number_of_entries = {frames.length}" :: lines
  | a => briefLines p "      " a

/-! ### Attributes of fields and methods -/

def handlerLines (p : Pool) (handlers : List ExceptionHandler) : Except Obstacle (List String) := do
  if handlers.isEmpty then
    return []
  let lines ← handlers.mapM (handlerLine p)
  return "      Exception table:" :: "         from    to  target type" :: lines

def blockLines (p : Pool) (block : CodeBlock) (attributes : List Attribute) :
    Except Obstacle (List String) := do
  let code ← codeLines p block.instructions
  let handlers ← handlerLines p block.handlers
  let inner ← attributes.mapM (codeAttributeLines p)
  return ["    Code:", s!"      stack={block.maxStack.toNat}, locals={block.maxLocals.toNat}"] ++
    code ++ handlers ++ inner.flatten

def parameterName (p : Pool) (parameter : MethodParameter) : Except Error String :=
  if parameter.nameIndex = 0 then .ok "<no name>" else p.getText parameter.nameIndex

def parameterLine (p : Pool) (parameter : MethodParameter) : Except Obstacle String := do
  let name ← require (parameterName p parameter)
  let flags := AccessFlag.set parameter.accessFlags AccessFlag.parameter
  return "      " ++ Text.padRight 30 name ++ " " ++ " ".intercalate (flags.map (·.word))

def memberAttributeLines (p : Pool) (a : Attribute) : Except Obstacle (List String) := do
  match a with
  | .code _ block attributes => blockLines p block attributes
  | .leaf _ (.constantValue index) =>
    let c ← require (p.get index)
    let text ← requireText p c
    return ["    ConstantValue: " ++ kindWord c.kind ++ " " ++ text]
  | .leaf _ (.exceptions indices) =>
    let names ← require (indices.mapM (getDotted p))
    return ["    Exceptions:", "      throws " ++ ", ".intercalate names]
  | .leaf _ (.signature index) => return [signatureLine p "    " index]
  | .leaf _ (.methodParameters parameters) =>
    let lines ← parameters.mapM (parameterLine p)
    return "    MethodParameters:" :: "      Name                           Flags" :: lines
  | .leaf _ .deprecated => return ["    Deprecated: true"]
  | .leaf _ .synthetic => return ["    Synthetic: true"]
  | a => briefLines p "    " a

/-! ### Attributes of a class -/

def innerClassLine (p : Pool) (c : InnerClass) : Except Obstacle String := do
  let name ← require (p.getClassName c.innerIndex)
  return "  " ++ modifiers c.accessFlags .ofClass ++ s!"#{c.innerIndex.toNat}; // class " ++ name

def argumentLine (p : Pool) (index : UInt16) : Except Obstacle String := do
  let c ← require (p.get index)
  return s!"      #{index.toNat} " ++ (← requireText p c)

def bootstrapLines (p : Pool) (m : BootstrapMethod) (position : Nat) :
    Except Obstacle (List String) := do
  let handle ← require (p.get m.methodIndex)
  let text ← requireText p handle
  let arguments ← m.arguments.mapM (argumentLine p)
  return s!"  {position}: #{m.methodIndex.toNat} {text}" :: "    Method arguments:" :: arguments

def enclosingMethodText (p : Pool) (methodIndex : UInt16) : Except Error String := do
  if methodIndex = 0 then
    return ""
  return "." ++ (← getNameAndType p methodIndex)

def enclosingLine (p : Pool) (classIndex methodIndex : UInt16) : Except Obstacle String := do
  let owner ← require (p.getClassName classIndex)
  let method ← require (enclosingMethodText p methodIndex)
  return s!"EnclosingMethod: #{classIndex.toNat}.#{methodIndex.toNat} // " ++ owner ++ method

def classAttributeLines (p : Pool) (a : Attribute) : Except Obstacle (List String) := do
  match a with
  | .leaf _ (.sourceFile index) =>
    return ["SourceFile: \"" ++ (← require (p.getText index)) ++ "\""]
  | .leaf _ (.signature index) => return [signatureLine p "" index]
  | .leaf _ (.nestHost index) =>
    return ["NestHost: class " ++ (← require (p.getClassName index))]
  | .leaf _ (.nestMembers indices) =>
    let names ← indices.mapM fun index => require (p.getClassName index)
    return "NestMembers:" :: names.map ("  " ++ ·)
  | .leaf _ (.innerClasses classes) =>
    let lines ← classes.mapM (innerClassLine p)
    return "InnerClasses:" :: lines
  | .leaf _ (.enclosingMethod classIndex methodIndex) =>
    return [← enclosingLine p classIndex methodIndex]
  | .leaf _ (.bootstrapMethods methods) =>
    let lines ← methods.zipIdx.mapM fun (m, position) => bootstrapLines p m position
    return "BootstrapMethods:" :: lines.flatten
  | .leaf _ .deprecated => return ["Deprecated: true"]
  | .leaf _ .synthetic => return ["Synthetic: true"]
  | a => briefLines p "" a

end JavaClass.Listing

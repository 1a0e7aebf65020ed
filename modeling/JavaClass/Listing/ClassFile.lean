import JavaClass.ClassFile.Basic
import JavaClass.Listing.Attribute

/-!
# The listing of a class

A header, the constants, the members in braces and the attributes of the class.
-/

namespace JavaClass.Listing

/-- The bits of a set of flags and the names of those that mean something. -/
def flagsText (bits : UInt16) (holder : AccessFlag.Holder) : String :=
  let digits := "(0x" ++ Text.hexPadded 4 bits.toNat ++ ")"
  match AccessFlag.names bits holder with
  | [] => digits
  | names => digits ++ " " ++ ", ".intercalate names

/-- The last part of the name of a class. -/
def simpleName (name : String) : String :=
  String.ofList (name.toList.reverse.takeWhile (· ≠ '/')).reverse

def titleLine (bits : UInt16) (name : String) : String :=
  let visible := (AccessFlag.set bits [.accPublic, .accFinal]).map (·.word)
  let sort := if AccessFlag.accInterface.isSet bits then ["interface"]
    else (AccessFlag.set bits [.accAbstract]).map (·.word) ++ ["class"]
  " ".intercalate (visible ++ sort) ++ " " ++ Descriptor.dotted name.toList

def headerLines (c : ClassFile) (name : String) : List String :=
  let superclass := if c.superClass = 0 then none else (c.pool.getClassName c.superClass).toOption
  [titleLine c.accessFlags name,
    s!"  minor version: {c.minorVersion.toNat}",
    s!"  major version: {c.majorVersion.toNat}",
    "  flags: " ++ flagsText c.accessFlags .ofClass,
    withComment 42 s!"  this_class: #{c.thisClass.toNat}" (some name),
    withComment 42 s!"  super_class: #{c.superClass.toNat}" superclass,
    s!"  interfaces: {c.interfaces.length}, fields: {c.fields.length}, " ++
      s!"methods: {c.methods.length}, attributes: {c.attributes.length}"]

def poolLines (p : Pool) : Except Obstacle (List String) := do
  let lines ← p.indexed.mapM fun entry => poolLine p entry.1 entry.2
  return "Constant pool:" :: lines

/-- The type of a field in front of its name. A descriptor that is not a type is shown as it is. -/
def fieldTitle (bits : UInt16) (name descriptor : String) : String :=
  let type := match Descriptor.fieldType? descriptor.toList with
    | some (type, _) => type
    | none => descriptor
  "  " ++ modifiers bits .ofField ++ type ++ " " ++ name ++ ";"

/-- The name of a method with its types. A constructor goes by the name of its class. -/
def methodTitle (bits : UInt16) (className name descriptor : String) : String :=
  if name = "<clinit>" then "  static \x7b\x7d;"
  else
    let title := match Descriptor.methodTypes? descriptor.toList with
      | some (types, result) =>
        let subject := if name = "<init>" then className else result ++ " " ++ name
        subject ++ "(" ++ ", ".intercalate types ++ ")"
      | none => name ++ descriptor
    "  " ++ modifiers bits .ofMethod ++ title ++ ";"

/-- The title that a member gets, its descriptor, its flags and its attributes. -/
def memberLines (p : Pool) (word : String) (holder : AccessFlag.Holder)
    (title : UInt16 → String → String → String) (m : Member) : Except Obstacle (List String) := do
  let name ← requireFor s!"failed to resolve a {word} name" (p.getText m.nameIndex)
  let descriptor ←
    requireFor s!"failed to resolve a {word} descriptor" (p.getText m.descriptorIndex)
  let attributes ← m.attributes.mapM (memberAttributeLines p)
  return [title m.accessFlags name descriptor, "    descriptor: " ++ descriptor,
    "    flags: " ++ flagsText m.accessFlags holder] ++ attributes.flatten

def classLines (c : ClassFile) : Except Obstacle (List String) := do
  let name ← requireFor "failed to resolve the name of this_class" (c.pool.getClassName c.thisClass)
  let constants ← poolLines c.pool
  let fields ← c.fields.mapM (memberLines c.pool "field" .ofField fieldTitle)
  let methods ← c.methods.mapM
    (memberLines c.pool "method" .ofMethod fun bits => methodTitle bits (simpleName name))
  let attributes ← c.attributes.mapM (classAttributeLines c.pool)
  return headerLines c name ++ constants ++ ["\x7b"] ++
    [""].intercalate (fields ++ methods) ++ ["\x7d"] ++ attributes.flatten

end Listing

/-- The listing of a class, as a text. -/
def ClassFile.listing (c : ClassFile) : Except Listing.Obstacle String := do
  return Listing.unlines (← Listing.classLines c)

end JavaClass

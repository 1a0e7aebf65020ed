import JavaClass.Attribute.Codec
import JavaClass.ClassFile.Basic
import JavaClass.Constant.Codec

/-!
# Encoding of class files

A class file is read from front to back. Its constants are added to those that the cursor has
already, and the class gets all of them. What follows the class is left unread.
-/

namespace JavaClass

namespace Member

def decode (options : Options) : Decode Member :=
  return ⟨← Decode.u16, ← Decode.u16, ← Decode.u16, ← Decode.counted (Attribute.decode options)⟩

/-- Reads a member and reports its name. -/
def decodeReported (options : Options) (event : String → Event) : Decode Member := do
  let m ← decode options
  Decode.report (event (((← Decode.pool).getText m.nameIndex).toOption.getD ""))
  return m

def encode (m : Member) : Encode := do
  Encode.u16 m.accessFlags
  Encode.u16 m.nameIndex
  Encode.u16 m.descriptorIndex
  Encode.counted "& self.attributes.len()" Attribute.encode m.attributes

def encodedLength (m : Member) : Nat :=
  8 + totalSize Attribute.encodedLength m.attributes

end Member

namespace ClassFile

/-- The first four bytes of every class file. -/
def magic : UInt32 :=
  0xcafebabe

def decode (options : Options) : Decode ClassFile := do
  let found ← Decode.u32
  if found ≠ magic then
    throw (.badMagic found)
  let minorVersion ← Decode.u16
  let majorVersion ← Decode.u16
  Pool.decode
  let accessFlags ← Decode.u16
  let thisClass ← Decode.u16
  let superClass ← Decode.u16
  let interfaces ← Decode.counted Decode.u16
  let fields ← Decode.counted (Member.decodeReported options .readField)
  let methods ← Decode.counted (Member.decodeReported options .readMethod)
  let attributes ← Decode.counted (Attribute.decode options)
  let pool ← Decode.pool
  Decode.report (.readClass ((pool.getClassName thisClass).toOption.getD "") majorVersion
    minorVersion fields.length methods.length attributes.length (← Decode.offset))
  return { minorVersion, majorVersion, pool, accessFlags, thisClass, superClass, interfaces, fields,
           methods, attributes }

def encode (c : ClassFile) : Encode := do
  Encode.u32 magic
  Encode.u16 c.minorVersion
  Encode.u16 c.majorVersion
  c.pool.encode
  Encode.u16 c.accessFlags
  Encode.u16 c.thisClass
  Encode.u16 c.superClass
  Encode.counted "interfaces_count" Encode.u16 c.interfaces
  Encode.counted "fields_count" Member.encode c.fields
  Encode.counted "methods_count" Member.encode c.methods
  Encode.counted "attributes_count" Attribute.encode c.attributes

/-- The number of bytes a class file has. -/
def length (c : ClassFile) : Nat :=
  8 + c.pool.encodedLength + 8 + 2 * c.interfaces.length +
    2 + totalSize Member.encodedLength c.fields +
    2 + totalSize Member.encodedLength c.methods +
    2 + totalSize Attribute.encodedLength c.attributes

def toBytes (c : ClassFile) : Except Error (List UInt8) :=
  c.encode.run

/-- Reads a class file from the start of some bytes. -/
def ofBytes (options : Options) (bytes : List UInt8) : Except Error ClassFile :=
  match EStateM.run (decode options) { unread := bytes } with
  | .ok c _ => .ok c
  | .error e _ => .error e

end ClassFile
end JavaClass

import JavaClass.Attribute.Basic
import JavaClass.Pool

/-!
# Class files

Everything that a class file holds except what follows from the rest: the magic number and the
counts of its lists.
-/

namespace JavaClass

/-- A field or a method. -/
structure Member where
  accessFlags : UInt16
  nameIndex : UInt16
  descriptorIndex : UInt16
  attributes : List Attribute
  deriving DecidableEq, Repr

structure ClassFile where
  minorVersion : UInt16
  majorVersion : UInt16
  pool : Pool
  accessFlags : UInt16
  thisClass : UInt16
  /-- 0 if there is no superclass. -/
  superClass : UInt16
  interfaces : List UInt16
  fields : List Member
  methods : List Member
  attributes : List Attribute
  deriving DecidableEq

end JavaClass

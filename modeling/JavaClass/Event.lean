import JavaClass.Attribute.Kind
import JavaClass.Text.Number
import JavaClass.Text.Quoted

/-!
# Events

What reading and writing a class file has to report on its way. An event has a level, so that one
can choose how much of it to see, and a topic.
-/

namespace JavaClass

inductive Level where
  | error | warn | info | debug | trace
  deriving DecidableEq, Repr

namespace Level

def name : Level → String
  | error => "ERROR"
  | warn => "WARN"
  | info => "INFO"
  | debug => "DEBUG"
  | trace => "TRACE"

def severity : Level → Nat
  | error => 1
  | warn => 2
  | info => 3
  | debug => 4
  | trace => 5

/-- Is a message of this level shown when messages up to `limit` are? -/
def shownAt (level limit : Level) : Bool :=
  level.severity ≤ limit.severity

end Level

inductive Event where
  | readPool (entries : Nat) (count : UInt16)
  | nonzeroPadding (position offset : Nat)
  | keptUnknown (name : String) (length : UInt32)
  | readAttribute (kind : Attribute.Kind) (length : UInt32)
  | readCode (instructions : Nat) (length : UInt32)
  | readField (name : String)
  | readMethod (name : String)
  | readClass (name : String) (major minor : UInt16) (fields methods attributes length : Nat)
  | wroteClass (length : Nat)
  deriving DecidableEq, Repr

namespace Event

def level : Event → Level
  | readClass .. => .debug
  | _ => .trace

/-- The part of the program that an event comes from. -/
def topic : Event → String
  | nonzeroPadding .. => "raw_class_file::parser"
  | keptUnknown .. | readAttribute .. | readCode .. => "raw_class_file::attribute"
  | readPool .. | readField .. | readMethod .. | readClass .. | wroteClass .. =>
    "raw_class_file::class"

def message : Event → String
  | readPool entries count =>
    s!"read constant pool with {entries} entries for {count.toNat} indices"
  | nonzeroPadding position offset => s!"nonzero padding byte {position} at offset {offset}"
  | keptUnknown name length =>
    "keeping unknown attribute " ++ Text.quote name ++ s!" of {length.toNat} bytes"
  | readAttribute kind length => s!"read attribute {kind.name} of {length.toNat} bytes"
  | readCode instructions length =>
    s!"read {instructions} instructions in {length.toNat} bytes of code"
  | readField name => "read field " ++ Text.quote name
  | readMethod name => "read method " ++ Text.quote name
  | readClass name major minor fields methods attributes length =>
    "read class " ++ Text.quote name ++ s!" version {major.toNat}.{minor.toNat}: " ++
      s!"{fields} fields, {methods} methods, {attributes} attributes, {length} bytes"
  | wroteClass length => s!"wrote class file of {length} bytes"

end Event
end JavaClass

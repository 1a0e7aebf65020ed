import JavaClass.BigEndian
import JavaClass.Error

/-!
# Writing bytes

A `Sink` takes bytes, as many as it has room for. An `Encode` writes to it or fails; what was
written before the failure stays written. Every byte goes through `bytes`: when not all of them fit,
those that fit are written and the writing fails with `bufferFull`.
-/

namespace JavaClass

structure Sink where
  written : Array UInt8 := #[]
  /-- How many bytes still fit; `none` is no limit. -/
  room : Option Nat := none

abbrev Encode := EStateM Error Sink Unit

namespace Encode

def bytes (bs : List UInt8) : Encode := fun s =>
  match s.room with
  | none => .ok () { s with written := s.written ++ bs }
  | some room =>
    if bs.length ≤ room then
      .ok () { written := s.written ++ bs, room := some (room - bs.length) }
    else
      .error .bufferFull { written := s.written ++ bs.take room, room := some 0 }

def u8 (n : UInt8) : Encode := bytes (BigEndian.encode 1 n.toNat)

def u16 (n : UInt16) : Encode := bytes (BigEndian.encode 2 n.toNat)

def u32 (n : UInt32) : Encode := bytes (BigEndian.encode 4 n.toNat)

def i8 (n : Int8) : Encode := u8 n.toUInt8

def i16 (n : Int16) : Encode := u16 n.toUInt16

def i32 (n : Int32) : Encode := u32 n.toUInt32

/-- A count in `width` bytes, if it fits them. -/
def count (width : Nat) (what : String) (n : Nat) : Encode :=
  if n < BigEndian.bound width then bytes (BigEndian.encode width n)
  else throw (.countOverflow what n)

/-- The items one after the other. -/
def each {α : Type} (item : α → Encode) : List α → Encode
  | [] => pure ()
  | a :: as => do
    item a
    each item as

/-- A list with its length in front, as 16 bits. -/
def counted {α : Type} (what : String) (item : α → Encode) (as : List α) : Encode := do
  count 2 what as.length
  each item as

/-- The bytes that an encoder writes when nothing limits it. -/
def run (e : Encode) : Except Error (List UInt8) :=
  match EStateM.run e {} with
  | .ok _ s => .ok s.written.toList
  | .error err _ => .error err

end Encode
end JavaClass

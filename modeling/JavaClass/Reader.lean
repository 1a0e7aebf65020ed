import JavaClass.BigEndian
import JavaClass.Event
import JavaClass.Pool

/-!
# Reading bytes

A `Cursor` stands somewhere in a string of bytes and holds what reading needs to remember. A `Decode
α` reads an `α` at the cursor or fails; either way it leaves a cursor, so that reading can go on
after an error.

Every byte that is read goes through `bytes`. It takes all the bytes it is asked for or fails with
`unexpectedEnd`, and then it uses up what is left without counting it: the offset stays where it
was.
-/

namespace JavaClass

structure Cursor where
  unread : List UInt8
  /-- The number of bytes read so far. -/
  offset : Nat := 0
  /-- The offset of the first instruction of the code being read, from which the operands of a
  switch are aligned. -/
  codeStart : UInt64 := 0
  /-- The number of attributes that have been entered and not left. -/
  depth : Nat := 0
  pool : Pool := .empty
  /-- What there is to report, in order. -/
  events : Array Event := #[]

abbrev Decode (α : Type) := EStateM Error Cursor α

namespace Decode

/-- The next `n` bytes. -/
def bytes (n : Nat) : Decode (List UInt8) := fun c =>
  let (taken, rest) := c.unread.splitAt n
  if taken.length = n then
    .ok taken { c with unread := rest, offset := c.offset + n }
  else
    .error .unexpectedEnd { c with unread := [] }

/-- The next `width` bytes as a number. -/
def number (width : Nat) : Decode Nat := do
  return BigEndian.decode (← bytes width)

def u8 : Decode UInt8 := return (← number 1).toUInt8

def u16 : Decode UInt16 := return (← number 2).toUInt16

def u32 : Decode UInt32 := return (← number 4).toUInt32

def i8 : Decode Int8 := return (← u8).toInt8

def i16 : Decode Int16 := return (← u16).toInt16

def i32 : Decode Int32 := return (← u32).toInt32

/-- `n` items in a row. -/
def times {α : Type} (n : Nat) (item : Decode α) : Decode (List α) :=
  go n []
where
  go : Nat → List α → Decode (List α)
  | 0, taken => return taken.reverse
  | n + 1, taken => do go n ((← item) :: taken)

/-- A list with its length in front, as 16 bits. -/
def counted {α : Type} (item : Decode α) : Decode (List α) := do
  times (← u16).toNat item

def report (event : Event) : Decode Unit :=
  modify fun c => { c with events := c.events.push event }

/-- The constants that are there so far. -/
def pool : Decode Pool :=
  return (← get).pool

/-- The number of bytes read so far. -/
def offset : Decode Nat :=
  return (← get).offset

/-- The outcome of a look-up, as a step of reading. -/
def lift {α : Type} (r : Except Error α) : Decode α :=
  match r with
  | .ok a => pure a
  | .error e => throw e

def addConstant (constant : Constant) : Decode Unit :=
  modify fun c => { c with pool := c.pool.push constant }

/-- What reading comes to, and the cursor it leads to either way. -/
def outcome {α : Type} (d : Decode α) (c : Cursor) : Except Error α × Cursor :=
  match d c with
  | .ok a s => (.ok a, s)
  | .error e s => (.error e, s)

/-- Reads inside one more attribute. It is left again however the reading ends. -/
def nested {α : Type} (body : Decode α) : Decode α := fun c =>
  match body { c with depth := c.depth + 1 } with
  | .ok a c => .ok a { c with depth := c.depth - 1 }
  | .error e c => .error e { c with depth := c.depth - 1 }

end Decode
end JavaClass

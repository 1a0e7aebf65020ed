/-!
# Shortest decimals

A binary floating point number as the decimal with the fewest digits that lies closer to it than to
any other number of its format. Such decimals are looked for on the grids of multiples of a power of
ten, from coarse to fine. Of a grid only the two neighbours of the number matter, because if any
point of a grid is close enough, one of these is. Of two, the nearer is taken, and the larger if
both are as near.
-/

namespace JavaClass.Decimal

/-- The layout of a binary format: sign, exponent and fraction, from high bits to low ones. -/
structure Format where
  exponentBits : Nat
  fractionBits : Nat

def Format.single : Format := ⟨8, 23⟩

def Format.double : Format := ⟨11, 52⟩

/-- The positive number `value * 2 ^ scale`. What rounds to it lies from `low * 2 ^ scale` up to
`high * 2 ^ scale`, with the ends if `closed`. -/
structure Binary where
  value : Nat
  low : Nat
  high : Nat
  scale : Int
  closed : Bool

namespace Binary

/-- The multiples `k * 10 ^ exponent` are counted in units of `2 ^ scale`: `numerator * x` units are
compared with `denominator * k`. -/
def ratio (scale exponent : Int) : Nat × Nat :=
  (Nat.pow 10 (-exponent).toNat <<< scale.toNat, Nat.pow 10 exponent.toNat <<< (-scale).toNat)

/-- The neighbour of the number on the grid of `10 ^ exponent` that reads back as the number. -/
def onGrid? (x : Binary) (exponent : Int) : Option Nat :=
  let (numerator, denominator) := ratio x.scale exponent
  let value := x.value * numerator
  let below := value / denominator
  let above := below + 1
  let fitsBelow := 0 < below && (x.low * numerator < below * denominator ||
    (x.closed && x.low * numerator = below * denominator))
  let fitsAbove := above * denominator < x.high * numerator ||
    (x.closed && above * denominator = x.high * numerator)
  if fitsBelow && !(fitsAbove && above * denominator - value ≤ value - below * denominator) then
    some below
  else if fitsAbove then some above
  else none

/-- Looks at `grids` grids, from that of `10 ^ exponent` down to finer ones. -/
def search (x : Binary) : (grids : Nat) → (exponent : Int) → Nat × Int
  | 0, exponent => (0, exponent)
  | grids + 1, exponent =>
    match x.onGrid? exponent with
    | some digits => (digits, exponent)
    | none => x.search grids (exponent - 1)

/-- A power of ten above the number. The factor is a little more than the logarithm of two. -/
def ceiling (x : Binary) : Int :=
  (x.high.log2 + 1 + x.scale) * 30103 / 100000 + 2

/-- The digits, as a number, and the power of ten that they are multiplied by. The number itself is
a point of the grid of `10 ^ scale` or of that of one. -/
def shortest (x : Binary) : Nat × Int :=
  x.search ((x.ceiling - min x.scale 0).toNat + 1) x.ceiling

end Binary

/-- The number with the given fields. An exponent field of 0 has no hidden bit. Below a power of two
the numbers are twice as dense. -/
def Format.finite (f : Format) (exponent fraction : Nat) : Binary :=
  let hidden := 1 <<< f.fractionBits
  let mantissa := if exponent = 0 then 2 * fraction else hidden + fraction
  let scale : Int := exponent - (1 <<< (f.exponentBits - 1) - 1 + f.fractionBits : Nat)
  if mantissa = hidden ∧ exponent ≠ 0 then
    { value := 4 * mantissa, low := 4 * mantissa - 1, high := 4 * mantissa + 2,
      scale := scale - 2, closed := true }
  else if exponent = 0 then
    { value := mantissa, low := mantissa - 1, high := mantissa + 1, scale, closed := true }
  else
    { value := 2 * mantissa, low := 2 * mantissa - 1, high := 2 * mantissa + 1,
      scale := scale - 1, closed := mantissa % 2 = 0 }

/-- `digits * 10 ^ exponent` without an exponent. -/
def positional (digits : Nat) (exponent : Int) : String :=
  let text := Nat.toDigits 10 digits
  let places := (-exponent).toNat
  if exponent ≥ 0 then
    String.ofList (text ++ List.replicate exponent.toNat '0')
  else if places < text.length then
    String.ofList (text.take (text.length - places)) ++ "." ++
      String.ofList (text.drop (text.length - places))
  else
    "0." ++ String.ofList (List.replicate (places - text.length) '0' ++ text)

/-- The number that the bits stand for: a sign if it is negative, also if it is zero, and no point
if it is whole. -/
def text (f : Format) (bits : Nat) : String :=
  let fraction := bits % (1 <<< f.fractionBits)
  let exponent := bits >>> f.fractionBits % (1 <<< f.exponentBits)
  let sign := if bits.testBit (f.fractionBits + f.exponentBits) then "-" else ""
  if exponent = 1 <<< f.exponentBits - 1 then
    if fraction = 0 then sign ++ "inf" else "NaN"
  else if exponent = 0 ∧ fraction = 0 then
    sign ++ "0"
  else
    let (digits, power) := (f.finite exponent fraction).shortest
    sign ++ positional digits power

/-! ### What it looks like -/

example : text .double 0x3fb999999999999a = "0.1" := by decide +kernel

example : text .single 0x3dcccccd = "0.1" := by decide +kernel

-- a half at the last digit goes up
example : text .single 0x39800000 = "0.00024414063" := by decide +kernel

-- there is never an exponent, and no point in a whole number
example : text .double 0x44b52d02c7e14af6 = "100000000000000000000000" := by decide +kernel

example : text .double 0x8000000000000000 = "-0" := by decide +kernel

example : text .single 0xff800000 = "-inf" ∧ text .single 0xffc00000 = "NaN" := by decide +kernel

end JavaClass.Decimal

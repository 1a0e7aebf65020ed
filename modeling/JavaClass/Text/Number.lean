/-!
# Numbers as text

Hexadecimal digits, and padding of a text to a column. A text is as wide as it has code points.
-/

namespace JavaClass.Text

/-- Lowercase hexadecimal digits, without leading zeros. -/
def hex (n : Nat) : String :=
  String.ofList (Nat.toDigits 16 n)

/-- Lowercase hexadecimal digits, at least `width` of them. -/
def hexPadded (width n : Nat) : String :=
  let digits := Nat.toDigits 16 n
  String.ofList (List.replicate (width - digits.length) '0' ++ digits)

/-- Blanks on the left up to `width`. -/
def padLeft (width : Nat) (text : String) : String :=
  String.ofList (List.replicate (width - text.length) ' ') ++ text

/-- Blanks on the right up to `width`. -/
def padRight (width : Nat) (text : String) : String :=
  text ++ String.ofList (List.replicate (width - text.length) ' ')

end JavaClass.Text

import JavaClass.Text.Number
import JavaClass.Text.Printable

/-!
# Quoted text

Text in double quotes for a message: what would end the quote or cannot be seen is escaped.
-/

namespace JavaClass.Text

/-- One character inside quotes. -/
def escape (c : Char) : String :=
  if c = '\x00' then "\\0"
  else if c = '\t' then "\\t"
  else if c = '\n' then "\\n"
  else if c = '\r' then "\\r"
  else if c = '"' ∨ c = '\\' then "\\" ++ c.toString
  else if isPrintable c then c.toString
  else "\\u\x7b" ++ hex c.toNat ++ "\x7d"

def quote (text : String) : String :=
  "\"" ++ String.join (text.toList.map escape) ++ "\""

example : quote "it's\t\"\x01" = "\"it's\\t\\\"\\u\x7b1\x7d\"" := by decide +kernel

end JavaClass.Text

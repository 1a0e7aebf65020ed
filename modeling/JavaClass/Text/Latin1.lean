/-!
# Bytes as characters

One character per byte, with the code point the byte has as a number. Names in a class file are in
a variant of UTF-8, so this is what they say only as far as they are ASCII; it is meant for messages
and listings.
-/

namespace JavaClass.Text

def latin1 (bytes : List UInt8) : String :=
  String.ofList (bytes.map Char.ofUInt8)

end JavaClass.Text

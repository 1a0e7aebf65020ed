import JavaClass.Attribute.Codec
import JavaClass.Event

/-!
# Arguments

The words of the command line. They are taken one after the other, and the first that is wrong or
asks for nothing but the version or the help decides (`Stop`). After a word `--` all words are
files.
-/

namespace JavaClass.CommandLine

/-- What the command line asks for. -/
structure Settings where
  verbosity : Nat := 0
  keepUnknown : Bool := false
  maxDepth : Option Nat := none
  roundTrip : Bool := false
  output : Option String := none
  files : List String := []
  deriving DecidableEq, Repr

def Settings.options (s : Settings) : Options where
  unknown := if s.keepUnknown then .preserve else .reject
  maxDepth := s.maxDepth.getD 8

/-- The highest level of messages that are shown. -/
def Settings.level (s : Settings) : Level :=
  match s.verbosity with
  | 0 => .warn
  | 1 => .info
  | 2 => .debug
  | _ => .trace

/-- Why the files are not looked at. -/
inductive Stop where
  | version
  | help
  | invalid (reason : String)
  deriving DecidableEq, Repr

/-- An option that takes a value. -/
inductive Valued where
  | maxDepth | output
  deriving DecidableEq, Repr

def Valued.name : Valued → String
  | maxDepth => "--max-attribute-depth"
  | output => "--output"

/-- What has been understood so far. -/
structure Scan where
  settings : Settings := {}
  /-- The option whose value is the next word. -/
  pending : Option Valued := none
  /-- Are all words from here on files? -/
  onlyFiles : Bool := false
  deriving DecidableEq, Repr

namespace Scan

def repeated (name : String) : Except Stop Scan :=
  .error (.invalid ("the argument '" ++ name ++ "' cannot be used multiple times"))

def unexpected (word : String) : Except Stop Scan :=
  .error (.invalid ("unexpected argument '" ++ word ++ "' found"))

/-- A number of 64 bits in decimal digits, which may have a plus sign in front. -/
def number? (text : String) : Option Nat :=
  let digits := match text.toList with
    | '+' :: digits => digits
    | digits => digits
  if digits.isEmpty || digits.any (!·.isDigit) then none
  else
    let n := digits.foldl (fun n c => 10 * n + (c.toNat - 48)) 0
    if n ≤ 0xffffffffffffffff then some n else none

def setValue (s : Scan) (option : Valued) (value : String) : Except Stop Scan :=
  match option with
  | .maxDepth =>
    if s.settings.maxDepth.isSome then repeated option.name
    else match number? value with
      | some depth =>
        .ok { s with pending := none, settings := { s.settings with maxDepth := some depth } }
      | none => .error (.invalid ("invalid value '" ++ value ++ "' for '" ++ option.name ++ "'"))
  | .output =>
    if s.settings.output.isSome then repeated option.name
    else if value = "" then
      .error (.invalid ("a value is required for '" ++ option.name ++ "' but none was supplied"))
    else .ok { s with pending := none, settings := { s.settings with output := some value } }

def addFile (s : Scan) (path : String) : Except Stop Scan :=
  if path = "" then .error (.invalid "a value is required for '<FILES>...' but none was supplied")
  else .ok { s with settings := { s.settings with files := s.settings.files ++ [path] } }

/-- A word that starts with two hyphens; `value` is what follows an equals sign. -/
def longOption (s : Scan) (name : String) (value : Option String) : Except Stop Scan :=
  match name, value with
  | "--max-attribute-depth", some value => s.setValue .maxDepth value
  | "--max-attribute-depth", none => .ok { s with pending := some .maxDepth }
  | "--output", some value => s.setValue .output value
  | "--output", none => .ok { s with pending := some .output }
  | "--verbose", none =>
    .ok { s with settings := { s.settings with verbosity := s.settings.verbosity + 1 } }
  | "--keep-unknown-attributes", none =>
    if s.settings.keepUnknown then repeated name
    else .ok { s with settings := { s.settings with keepUnknown := true } }
  | "--roundtrip", none =>
    if s.settings.roundTrip then repeated name
    else .ok { s with settings := { s.settings with roundTrip := true } }
  | "--version", none => .error .version
  | "--help", none => .error .help
  | _, _ => unexpected name

/-- The letters behind a single hyphen. What follows an option that takes a value is its value. -/
def letters (s : Scan) : List Char → Except Stop Scan
  | [] => .ok s
  | 'v' :: rest =>
    { s with settings := { s.settings with verbosity := s.settings.verbosity + 1 } }.letters rest
  | 'V' :: _ => .error .version
  | 'h' :: _ => .error .help
  | ['o'] => .ok { s with pending := some .output }
  | 'o' :: '=' :: value => s.setValue .output (String.ofList value)
  | 'o' :: value => s.setValue .output (String.ofList value)
  | c :: _ => unexpected ("-" ++ c.toString)

/-- Takes the next word. A hyphen alone is a file. -/
def word (s : Scan) (text : String) : Except Stop Scan :=
  if s.onlyFiles then s.addFile text
  else match text.toList, s.pending with
    | '-' :: _ :: _, some option =>
      .error (.invalid ("a value is required for '" ++ option.name ++ "' but none was supplied"))
    | _, some option => s.setValue option text
    | ['-', '-'], none => .ok { s with onlyFiles := true }
    | '-' :: '-' :: rest, none =>
      let name := "--" ++ String.ofList (rest.takeWhile (· ≠ '='))
      match rest.dropWhile (· ≠ '=') with
      | [] => s.longOption name none
      | _ :: value => s.longOption name (some (String.ofList value))
    | '-' :: c :: rest, none => s.letters (c :: rest)
    | _, none => s.addFile text

def finish (s : Scan) : Except Stop Settings :=
  match s.pending with
  | some option =>
    .error (.invalid ("a value is required for '" ++ option.name ++ "' but none was supplied"))
  | none =>
    if s.settings.files.isEmpty then
      .error (.invalid "the following required arguments were not provided:\n  <FILES>...")
    else .ok s.settings

end Scan

def parse (words : List String) : Except Stop Settings := do
  (← words.foldlM Scan.word {}).finish

end JavaClass.CommandLine

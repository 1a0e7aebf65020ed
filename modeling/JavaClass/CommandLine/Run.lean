import JavaClass.ClassFile.Codec
import JavaClass.CommandLine.Arguments
import JavaClass.CommandLine.Host
import JavaClass.CommandLine.Path
import JavaClass.Listing.ClassFile

/-!
# The command

Every file is read, parsed and listed in the order of the arguments, and on demand written again: to
compare the bytes, or to keep them in a directory. The first file for which something fails ends the
run. A file that comes out different does not, but the run then ends with an error that names all
such files. If the listing of a file goes on for ever then so does the run, which never gets to
another file or to an exit code.
-/

namespace JavaClass.CommandLine

variable {m : Type → Type} [Monad m]

/-- What a run ends with if it fails: from what was stopped down to the cause. -/
abbrev Failed := List String

/-- Why a run does not come to its end. -/
inductive Halt where
  | failed (messages : Failed)
  /-- What it is about goes on for ever. -/
  | endless
  deriving DecidableEq, Repr

/-- A failure in print. The causes are numbered if there are several. -/
def Failed.text : Failed → String
  | [] => "Error\n"
  | [message] => "Error: " ++ message ++ "\n"
  | [message, cause] => "Error: " ++ message ++ "\n\nCaused by:\n    " ++ cause ++ "\n"
  | message :: causes =>
    let lines := causes.zipIdx.map fun (cause, n) => Text.padLeft 5 s!"{n}" ++ ": " ++ cause ++ "\n"
    "Error: " ++ message ++ "\n\nCaused by:\n" ++ String.join lines

def log (host : Host m) (limit level : Level) (topic message : String) : m Unit :=
  if level.shownAt limit then
    host.printError ("[" ++ level.name ++ " " ++ topic ++ "] " ++ message ++ "\n")
  else
    pure ()

/-- The topic of the messages of the command itself. -/
def topic : String :=
  "dukep"

def logEvent (host : Host m) (limit : Level) (event : Event) : m Unit :=
  log host limit event.level event.topic event.message

/-- The place of the first byte that is different, or the end of the shorter one. -/
def firstDifference (a b : List UInt8) : Option Nat :=
  go 0 a b
where
  go (n : Nat) : List UInt8 → List UInt8 → Option Nat
    | [], [] => none
    | a :: as, b :: bs => if a = b then go (n + 1) as bs else some n
    | _, _ => some n

/-- An operation on files, with what it is for in case it fails. -/
def attempt {α : Type} (context : String) (operation : m (Except FileFault α)) :
    ExceptT Halt m α := do
  match ← ExceptT.lift operation with
  | .ok a => return a
  | .error fault => throw (.failed [context, fault.message])

def parseFile (host : Host m) (settings : Settings) (path : String) (bytes : List UInt8) :
    ExceptT Halt m ClassFile := do
  let result := EStateM.run (ClassFile.decode settings.options) { unread := bytes }
  let events := match result with
    | .ok _ cursor | .error _ cursor => cursor.events.toList
  ExceptT.lift (events.forM (logEvent host settings.level))
  match result with
  | .ok c _ => return c
  | .error e _ => throw (.failed ["failed to parse class file " ++ Text.quote path, e.message])

/-- Puts the bytes of a file into the output directory, under the same name. -/
def keep (host : Host m) (settings : Settings) (output path : String) (bytes : List UInt8) :
    ExceptT Halt m Unit := do
  match Path.fileName? path with
  | none => throw (.failed [Text.quote path ++ " has no file name"])
  | some name =>
    let target := Path.join output name
    attempt ("failed to write " ++ Text.quote target) (host.writeFile target bytes)
    ExceptT.lift (log host settings.level .info topic ("wrote " ++ Text.quote target))

/-- Compares what was written with what was read. -/
def compare (host : Host m) (settings : Settings) (path : String) (found written : List UInt8) :
    m Bool := do
  match firstDifference found written with
  | none =>
    log host settings.level .info topic (Text.quote path ++ " round trips")
    return true
  | some offset =>
    log host settings.level .warn topic (Text.quote path ++
      " differs after writing it again, first at byte 0x" ++ Text.hex offset)
    return false

/-- Writes a class again as far as that is asked for. False if the bytes are different. -/
def writeAgain (host : Host m) (settings : Settings) (path : String) (bytes : List UInt8)
    (c : ClassFile) : ExceptT Halt m Bool := do
  if !settings.roundTrip && settings.output.isNone then
    return true
  match c.toBytes with
  | .error e => throw (.failed ["failed to write class file " ++ Text.quote path, e.message])
  | .ok written =>
    ExceptT.lift (logEvent host settings.level (.wroteClass c.length))
    let same ← if settings.roundTrip then ExceptT.lift (compare host settings path bytes written)
      else pure true
    match settings.output with
    | some output => keep host settings output path written
    | none => pure ()
    return same

/-- What it means for the run if a file cannot be listed. -/
def unlisted (path : String) : Listing.Obstacle → Halt
  | .failure failure =>
    .failed (("failed to print class file " ++ Text.quote path) :: failure.messages)
  | .endless => .endless

/-- Everything that is done for one file. False if it comes out different. -/
def processFile (host : Host m) (settings : Settings) (path : String) : ExceptT Halt m Bool := do
  let bytes ← attempt ("failed to read " ++ Text.quote path) (host.readFile path)
  let c ← parseFile host settings path bytes
  ExceptT.lift (log host settings.level .debug topic
    ("read " ++ Text.quote path ++ s!", {bytes.length} bytes"))
  match c.listing with
  | .error obstacle => throw (unlisted path obstacle)
  | .ok listing => ExceptT.lift (host.print listing)
  writeAgain host settings path bytes c

/-- The files that come out different. -/
def processFiles (host : Host m) (settings : Settings) (paths : List String) :
    ExceptT Halt m (List String) :=
  paths.foldlM (fun different path => do
    return if ← processFile host settings path then different else different ++ [path]) []

def process (host : Host m) (settings : Settings) : ExceptT Halt m Unit := do
  match settings.output with
  | some output =>
    attempt ("failed to create output directory " ++ Text.quote output)
      (host.makeDirectories output)
  | none => pure ()
  let different ← processFiles host settings settings.files
  if !different.isEmpty then
    let names := ", ".intercalate (different.map Text.quote)
    throw (.failed [s!"{different.length} class file(s) didn't round trip: [" ++ names ++ "]"])

def versionText : String :=
  "dukep 0.1.0\n"

def usageText : String :=
  "Usage: dukep [OPTIONS] <FILES>...\n"

def helpText : String :=
  "Prints class files like `javap -verbose` does\n\n" ++ usageText ++ "\n" ++
  "Arguments:\n" ++
  "  <FILES>...  The class files to print\n\n" ++
  "Options:\n" ++
  "  -v, --verbose...\n          Log more, can be given up to three times\n" ++
  "      --keep-unknown-attributes\n" ++
  "          Keep attributes with unknown names, instead of failing on them\n" ++
  "      --max-attribute-depth <MAX_ATTRIBUTE_DEPTH>\n" ++
  "          How deep attributes may be nested inside each other, counting the top level ones " ++
  "as 1 [default: 8]\n" ++
  "      --roundtrip\n" ++
  "          Write each class file again, and check that the same bytes come out\n" ++
  "  -o, --output <OUTPUT>\n          Directory to write the written class files to\n" ++
  "  -h, --help\n          Print help\n" ++
  "  -V, --version\n          Print version\n"

/-- Runs the command and gives its exit code. There is none if the run never ends. -/
def run (host : Host m) (words : List String) : m (Option UInt32) := do
  match parse words with
  | .error .version =>
    host.print versionText
    return some 0
  | .error .help =>
    host.print helpText
    return some 0
  | .error (.invalid reason) =>
    host.printError ("error: " ++ reason ++ "\n\n" ++ usageText)
    return some 2
  | .ok settings =>
    match ← (process host settings).run with
    | .ok () => return some 0
    | .error (.failed messages) =>
      host.printError messages.text
      return some 1
    | .error .endless => return none

end JavaClass.CommandLine

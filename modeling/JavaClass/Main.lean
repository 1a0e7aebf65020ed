import JavaClass.CommandLine.Run

/-!
# The program

The command with the files and the output of the system that it runs on.
-/

namespace JavaClass.CommandLine

/-- What the system says about a failed operation. -/
def FileFault.ofError : IO.Error → FileFault
  | .alreadyExists _ code details | .noFileOrDirectory _ code details
  | .inappropriateType _ code details | .invalidArgument _ code details
  | .permissionDenied _ code details | .resourceExhausted _ code details
  | .noSuchThing _ code details | .interrupted _ code details => ⟨details, code.toNat⟩
  | .resourceBusy code details | .resourceVanished code details
  | .unsupportedOperation code details | .hardwareFault code details
  | .unsatisfiedConstraints code details | .illegalOperation code details
  | .protocolError code details | .timeExpired code details
  | .otherError code details => ⟨details, code.toNat⟩
  | e => ⟨toString e, 0⟩

def guarded {α : Type} (operation : IO α) : IO (Except FileFault α) := do
  match ← operation.toBaseIO with
  | .ok a => return .ok a
  | .error e => return .error (.ofError e)

def systemHost : Host IO where
  makeDirectory path := guarded do
    try IO.FS.createDir path
    catch
      -- succeeds if it is a directory that is there
      | .alreadyExists .. => IO.FS.createDirAll path
      | e => throw e
  readFile path := guarded do return (← IO.FS.readBinFile path).toList
  writeFile path bytes := guarded (IO.FS.writeBinFile path ⟨bytes.toArray⟩)
  print text := IO.print text
  printError text := IO.eprint text

end JavaClass.CommandLine

/-- A run that never ends is out of stack at some time, and then the system ends it. The code for
that is only here to have one. -/
def main (words : List String) : IO UInt32 := do
  return (← JavaClass.CommandLine.run JavaClass.CommandLine.systemHost words).getD 134

import JavaClass.CommandLine.Path

/-!
# What a command needs around it

The files that a command reads and writes and the two texts that it prints, as a record of
operations over any monad: of a real system, or of a disk in memory.
-/

namespace JavaClass.CommandLine

/-- Why an operation on files failed. -/
structure FileFault where
  description : String
  code : Nat
  deriving DecidableEq, Repr

namespace FileFault

def notFound : FileFault := ⟨"No such file or directory", 2⟩
def alreadyExists : FileFault := ⟨"File exists", 17⟩
def notADirectory : FileFault := ⟨"Not a directory", 20⟩
def isADirectory : FileFault := ⟨"Is a directory", 21⟩
def nameTooLong : FileFault := ⟨"File name too long", 36⟩

def message (f : FileFault) : String :=
  f.description ++ s!" (os error {f.code})"

end FileFault

structure Host (m : Type → Type) where
  /-- Makes a directory in one that is there. One that is there already is left as it is. -/
  makeDirectory : String → m (Except FileFault Unit)
  readFile : String → m (Except FileFault (List UInt8))
  /-- Makes a file or replaces what is in it. -/
  writeFile : String → List UInt8 → m (Except FileFault Unit)
  print : String → m Unit
  /-- Prints to where errors and messages go. -/
  printError : String → m Unit

variable {m : Type → Type} [Monad m]

/-- Makes a directory in the one with the parts `outer`, last one first. If that is missing, it is
made before in the same way. -/
def Host.makeNested (host : Host m) (path : String) :
    (outer : List String) → m (Except FileFault Unit)
  | [] => host.makeDirectory path
  | part :: outer => do
    match ← host.makeDirectory path with
    | .ok () => return .ok ()
    | .error fault =>
      if fault.code ≠ FileFault.notFound.code then
        return .error fault
      match ← host.makeNested (Path.ofParts (part :: outer).reverse) outer with
      | .ok () => host.makeDirectory path
      | .error fault => return .error fault

/-- Makes a directory and all that lead to it, as far as they are missing. -/
def Host.makeDirectories (host : Host m) (path : String) : m (Except FileFault Unit) :=
  host.makeNested path (Path.outerParts path)

end JavaClass.CommandLine

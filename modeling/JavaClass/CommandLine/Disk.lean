import JavaClass.CommandLine.Host

/-!
# A disk in memory

Files and directories as a tree. A path is followed part by part, from the root or from the working
directory: what is not the last part has to be a directory that is there. A disk has the directories
that every system has, so that paths can lead out of the working directory.
-/

namespace JavaClass.CommandLine

inductive Node where
  | directory (entries : List (String × Node))
  | file (bytes : List UInt8)
  /-- Nothing comes out of it, and what is written to it is gone. -/
  | drain
  deriving Repr, Inhabited

namespace Node

def entries : Node → List (String × Node)
  | directory entries => entries
  | file _ | drain => []

def child? (n : Node) (name : String) : Option Node :=
  n.entries.lookup name

/-- The directory with something new under a name. -/
def put (n : Node) (name : String) (child : Node) : Node :=
  .directory ((name, child) :: n.entries.filter (·.1 ≠ name))

mutual

/-- Everything in a directory and in those inside of it, by the names that lead there after the
names `above`. -/
def inside (above : List String) : Node → List (List String × Node)
  | directory entries => insideAll above entries
  | file _ | drain => []

def insideAll (above : List String) : List (String × Node) → List (List String × Node)
  | [] => []
  | (name, n) :: entries =>
    (above ++ [name], n) :: (inside (above ++ [name]) n ++ insideAll above entries)

end

end Node

/-- A directory of a tree with the way back to the root: the directories above, from the nearest to
the root, each with the name that leads down from it. -/
structure Spot where
  here : Node
  above : List (String × Node)
  deriving Repr, Inhabited

namespace Spot

/-- The directory above the root is the root. -/
def up (s : Spot) : Spot :=
  match s.above with
  | [] => s
  | (_, n) :: above => ⟨n, above⟩

/-- The entry of that name, which is an empty directory if it is missing. -/
def down (s : Spot) (name : String) : Spot :=
  ⟨(s.here.child? name).getD (.directory []), (name, s.here) :: s.above⟩

def put (s : Spot) (name : String) (child : Node) : Spot :=
  { s with here := s.here.put name child }

/-- The whole tree. -/
def root (s : Spot) : Node :=
  s.above.foldl (fun lower (name, n) => n.put name lower) s.here

/-- Where the parts of a path lead to: the directory itself, or a name in it that may not be there.
-/
def follow (s : Spot) : List String → Except FileFault (Spot × Option String)
  | [] => .ok (s, none)
  | part :: parts =>
    if part.utf8ByteSize > 255 then .error .nameTooLong
    else if part = "" ∨ part = "." then s.follow parts
    else if part = ".." then s.up.follow parts
    else if parts = [] then .ok (s, some part)
    else match s.here.child? part with
      | some (.directory _) => (s.down part).follow parts
      | some _ => .error .notADirectory
      | none => .error .notFound

end Spot

structure Disk where
  root : Node
  deriving Repr

namespace Disk

/-- The directories next to the root of every system. -/
def topmost : List String :=
  ["bin", "boot", "dev", "etc", "home", "lib", "media", "mnt", "opt", "proc", "root", "run", "sbin",
    "srv", "sys", "tmp", "usr", "var"]

/-- The way to the working directory. Its own name is empty, so that no path leads down to it. -/
def wayToWorking : List String :=
  ["tmp", ""]

def top (d : Disk) : Spot :=
  ⟨d.root, []⟩

def working (d : Disk) : Spot :=
  wayToWorking.foldl .down d.top

/-- The disk with nothing in the working directory. -/
def fresh : Disk where
  root := (Disk.working ⟨((Disk.top ⟨.directory (topmost.map (·, .directory []))⟩).down "dev"
    |>.put "null" .drain).root⟩).root

instance : Inhabited Disk := ⟨fresh⟩

/-- The number of bytes at which a path is too long to be followed at all. -/
def pathLimit : Nat :=
  4096

/-- Where a path leads to, which consists of the given parts. -/
def locate (d : Disk) (path : String) (parts : List String) :
    Except FileFault (Spot × Option String) :=
  if path.utf8ByteSize ≥ pathLimit then .error .nameTooLong
  else (if Path.isAbsolute path then d.top else d.working).follow parts

/-- Slashes at the end of the path make no difference. -/
def makeDirectory (d : Disk) (path : String) : Except FileFault Disk := do
  match ← d.locate path ((Path.parts path).reverse.dropWhile (· = "")).reverse with
  | (_, none) => return d
  | (s, some name) =>
    match s.here.child? name with
    | some (.directory _) => return d
    | some _ => throw .alreadyExists
    | none => return ⟨(s.put name (.directory [])).root⟩

def readFile (d : Disk) (path : String) : Except FileFault (List UInt8) := do
  match ← d.locate path (Path.parts path) with
  | (_, none) => throw .isADirectory
  | (s, some name) =>
    match s.here.child? name with
    | some (.file bytes) => return bytes
    | some .drain => return []
    | some (.directory _) => throw .isADirectory
    | none => throw .notFound

def writeFile (d : Disk) (path : String) (bytes : List UInt8) : Except FileFault Disk := do
  match ← d.locate path (Path.parts path) with
  | (_, none) => throw .isADirectory
  | (s, some name) =>
    match s.here.child? name with
    | some (.directory _) => throw .isADirectory
    | some .drain => return d
    | _ => return ⟨(s.put name (.file bytes)).root⟩

/-- The disk with a file in the working directory, and with the directories that lead to it. -/
def addFile (d : Disk) (path : String) (bytes : List UInt8) : Disk where
  root :=
    let names := Path.components path
    ((names.dropLast.foldl .down d.working).put (names.getLastD "") (.file bytes)).root

/-- A disk that holds files in the working directory. -/
def ofFiles (files : List (String × List UInt8)) : Disk :=
  files.foldl (fun d (path, bytes) => d.addFile path bytes) fresh

/-- What the working directory holds, by the names that lead from it. -/
def contents (d : Disk) : List (List String × Node) :=
  d.working.here.inside []

end Disk

/-- A disk together with what has been printed. -/
structure Session where
  disk : Disk := .fresh
  printed : String := ""
  errors : String := ""
  deriving Repr

/-- The host that keeps everything in memory. -/
def Session.host : Host (StateM Session) where
  makeDirectory path := update fun d => d.makeDirectory path
  readFile path := return (← get).disk.readFile path
  writeFile path bytes := update fun d => d.writeFile path bytes
  print text := modify fun s => { s with printed := s.printed ++ text }
  printError text := modify fun s => { s with errors := s.errors ++ text }
where
  update (change : Disk → Except FileFault Disk) : StateM Session (Except FileFault Unit) :=
    modifyGet fun s =>
      match change s.disk with
      | .ok disk => (.ok (), { s with disk })
      | .error fault => (.error fault, s)

end JavaClass.CommandLine

/-!
# Paths of files

A path is a text in which slashes separate names. Empty parts and single dots stand for nothing, two
dots for the directory above.
-/

namespace JavaClass.Path

/-- The parts between the slashes. -/
def parts (path : String) : List String :=
  go path.toList [] []
where
  go : List Char → List Char → List String → List String
    | [], part, parts => (String.ofList part.reverse :: parts).reverse
    | c :: rest, part, parts =>
      if c = '/' then go rest [] (String.ofList part.reverse :: parts)
      else go rest (c :: part) parts

/-- Does the path start at the root and not at the working directory? -/
def isAbsolute (path : String) : Bool :=
  path.toList.head? = some '/'

/-- The parts that stand for something. -/
def components (path : String) : List String :=
  (parts path).filter fun part => part ≠ "" && part ≠ "."

/-- The path with the given parts. -/
def ofParts (parts : List String) : String :=
  if parts = [""] then "/" else "/".intercalate parts

/-- The parts of the directory that a path is in, from the last one to the first. -/
def outerParts (path : String) : List String :=
  ((parts path).reverse.dropWhile fun part => part = "" ∨ part = ".").tail

/-- The name of the file that a path leads to. A path that ends with a step upwards has none. -/
def fileName? (path : String) : Option String :=
  (components path).getLast?.filter (· ≠ "..")

/-- A file in a directory. -/
def join (directory name : String) : String :=
  if directory.toList.getLast? = some '/' then directory ++ name else directory ++ "/" ++ name

example : components "./a//b/." = ["a", "b"] ∧ fileName? "a/b/" = some "b" := by decide +kernel

example : outerParts "a/./b//c/" = ["", "b", ".", "a"] ∧ ofParts ["a", "b"] = "a/b" := by
  decide +kernel

example : fileName? "a/.." = none ∧ join "out/" "b" = "out/b" := by decide +kernel

end JavaClass.Path

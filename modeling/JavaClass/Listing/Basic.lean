import JavaClass.Error

/-!
# Listings

A listing is a list of lines. It cannot be made if the class refers to something that is not there,
and then there is nothing of it at all. Nor is there if the text of a constant has no end.
-/

namespace JavaClass.Listing

/-- What a listing failed with: the cause, and what it stopped, if that is said. -/
structure Failure where
  context : Option String := none
  cause : Error
  deriving DecidableEq, Repr

/-- From what was stopped down to the cause. -/
def Failure.messages (f : Failure) : List String :=
  f.context.toList ++ [f.cause.message]

/-- Why there is no listing of a class. -/
inductive Obstacle where
  | failure (failure : Failure)
  /-- Making the listing goes on for ever. -/
  | endless
  deriving DecidableEq, Repr

/-- A look-up that a listing needs. -/
def require {α : Type} (r : Except Error α) : Except Obstacle α :=
  r.mapError fun cause => .failure { cause }

/-- A look-up that a listing needs, with what it is needed for. -/
def requireFor {α : Type} (context : String) (r : Except Error α) : Except Obstacle α :=
  r.mapError fun cause => .failure { context := some context, cause }

/-- The result of something that may go on for ever. -/
def await {α : Type} : Option α → Except Obstacle α
  | some a => .ok a
  | none => .error .endless

/-- A line with a comment that starts at a column, if there is one. -/
def withComment (column : Nat) (line : String) (comment : Option String) : String :=
  match comment with
  | some comment => Text.padRight (column - 1) line ++ " // " ++ comment
  | none => line

/-- The lines as one text. -/
def unlines (lines : List String) : String :=
  String.join (lines.map (· ++ "\n"))

end JavaClass.Listing

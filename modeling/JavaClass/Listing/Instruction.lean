import JavaClass.Instruction.Basic
import JavaClass.Listing.Constant

/-!
# Instructions in a listing

An instruction is shown with its position in the code, to which the offsets of branches and switches
are added (`shownAt_of_instructionLines`).
-/

namespace JavaClass.Listing

/-- A place that a branch goes to. -/
def target (pc : Nat) (offset : Int) : String :=
  s!"{(pc : Int) + offset}"

/-- The operands, and the index of the constant that they refer to. A switch is shown in lines of
its own. -/
def operandText (pc : Nat) : Instruction → String × Option UInt16
  | .plain .. | .implicit .. | .tableSwitch .. | .lookupSwitch .. => ("", none)
  | .pushByte value => (s!" {value.toInt}", none)
  | .pushShort value => (s!" {value.toInt}", none)
  | .loadConstant index => (s!" #{index.toNat}", some index.toUInt16)
  | .loadConstantWide _ index | .constantRef _ index => (s!" #{index.toNat}", some index)
  | .localVariable _ index => (s!" {index.toNat}", none)
  | .increment index amount => (s!" {index.toNat}, {amount.toInt}", none)
  | .branch _ offset => (" " ++ target pc offset.toInt, none)
  | .branchWide _ offset => (" " ++ target pc offset.toInt, none)
  | .invokeInterface index count => (s!" #{index.toNat},  {count.toNat}", some index)
  | .invokeDynamic index => (s!" #{index.toNat},  0", some index)
  | .newArray element => (" " ++ element.name, none)
  | .multiNewArray index dimensions => (s!" #{index.toNat},  {dimensions.toNat}", some index)
  | .wideLocal op index => (s!" {op.mnemonic} {index.toNat}", none)
  | .wideIncrement index amount => (s!" iinc {index.toNat}, {amount.toInt}", none)

/-- One way out of a switch. -/
def caseLine (pc : Nat) (label : String) (offset : Int32) : String :=
  Text.padLeft 24 label ++ ": " ++ target pc offset.toInt

def switchLines (pc : Nat) (title : String) (cases : List (Int × Int32)) (fallback : Int32) :
    List String :=
  [title] ++ (cases.map fun (key, offset) => caseLine pc s!"{key}" offset) ++
    [caseLine pc "default" fallback, "            \x7d"]

def instructionLines (p : Pool) (pc : Nat) (i : Instruction) : Except Obstacle (List String) := do
  let position := Text.padLeft 10 s!"{pc}" ++ ": "
  match i with
  | .tableSwitch _ fallback low high offsets =>
    return switchLines pc (position ++ "tableswitch   \x7b // " ++ s!"{low.toInt} to {high.toInt}")
      (offsets.zipIdx.map fun (offset, n) => (low.toInt + n, offset)) fallback
  | .lookupSwitch _ fallback pairs =>
    return switchLines pc (position ++ "lookupswitch  \x7b // " ++ s!"{pairs.length}")
      (pairs.map fun (key, offset) => (key.toInt, offset)) fallback
  | i =>
    let (operands, index) := operandText pc i
    let comment ← index.elim (pure none) (reference p)
    return [withComment 46 (position ++ i.opcode.mnemonic ++ operands) comment]

/-- How far it is to the places that an instruction names. -/
def jumps : Instruction → List Int
  | .branch _ offset => [offset.toInt]
  | .branchWide _ offset => [offset.toInt]
  | .tableSwitch _ fallback _ _ offsets => offsets.map Int32.toInt ++ [fallback.toInt]
  | .lookupSwitch _ fallback pairs => pairs.map (·.2.toInt) ++ [fallback.toInt]
  | _ => []

/-- In the lines an instruction is shown as one at that position. -/
structure ShownAt (pc : Nat) (i : Instruction) (lines : List String) : Prop where
  /-- The position comes first, and then which instruction it is. -/
  position : ∃ rest more,
    lines = (Text.padLeft 10 s!"{pc}" ++ ": " ++ i.opcode.mnemonic ++ rest) :: more
  /-- The places that it names are the ends of lines, one after the other. -/
  targets : ∃ before labels after, labels.length = (jumps i).length ∧
    lines = before ++ List.zipWith (fun label jump => label ++ target pc jump) labels (jumps i) ++
      after

section

variable {p : Pool} {pc : Nat} {i : Instruction} {lines : List String}

theorem exists_withComment (column : Nat) (line : String) (comment : Option String) :
    ∃ rest, withComment column line comment = line ++ rest := by
  cases comment with
  | none => exact ⟨"", String.append_empty.symm⟩
  | some comment =>
    rw [withComment, Text.padRight, String.append_assoc, String.append_assoc]
    exact ⟨_, rfl⟩

/-- What is not a switch takes one line. It names a place only if it has no comment. -/
theorem shownAt_of_line {operands : String} {comment : Option String}
    (h : jumps i = [] ∨ comment = none ∧ ∃ jump, jumps i = [jump] ∧
      operands = " " ++ target pc jump) :
    ShownAt pc i
      [withComment 46 (Text.padLeft 10 s!"{pc}" ++ ": " ++ i.opcode.mnemonic ++ operands) comment]
    where
  position := by
    obtain ⟨rest, hrest⟩ := exists_withComment 46
      (Text.padLeft 10 s!"{pc}" ++ ": " ++ i.opcode.mnemonic ++ operands) comment
    exact ⟨operands ++ rest, [], by rw [hrest, String.append_assoc]⟩
  targets := by
    rcases h with h | ⟨rfl, jump, h, rfl⟩
    · exact ⟨_, [], [], by rw [h]; rfl, by rw [List.zipWith_nil_left, List.append_nil,
        List.append_nil]⟩
    · refine ⟨[], [Text.padLeft 10 s!"{pc}" ++ ": " ++ i.opcode.mnemonic ++ " "], [],
        by rw [h]; rfl, ?_⟩
      rw [h, withComment]
      exact congrArg (fun line => [line]) (String.append_assoc ..).symm

/-- A switch takes a line for each case, and one for the place that is left. -/
theorem shownAt_of_switchLines (rest : String) {title : String} {cases : List (Int × Int32)}
    {fallback : Int32}
    (htitle : title = Text.padLeft 10 s!"{pc}" ++ ": " ++ i.opcode.mnemonic ++ rest)
    (h : jumps i = cases.map (·.2.toInt) ++ [fallback.toInt]) :
    ShownAt pc i (switchLines pc title cases fallback) where
  position := ⟨rest, _, congrArg (· :: _) htitle⟩
  targets := by
    refine ⟨[title], cases.map (fun c => Text.padLeft 24 s!"{c.1}" ++ ": ") ++
      [Text.padLeft 24 "default" ++ ": "], ["            \x7d"], by simp [h], ?_⟩
    rw [h, List.zipWith_append (by simp), List.zipWith_map, List.zipWith_self]
    simp [switchLines, caseLine]

theorem exists_of_map_eq_ok {α β ε : Type} {x : Except ε α} {f : α → β} {b : β}
    (h : (do return f (← x)) = .ok b) : ∃ a, x = .ok a ∧ b = f a := by
  cases x with
  | error e => cases h
  | ok a =>
    cases h
    exact ⟨a, rfl, rfl⟩

/-- An instruction is shown at its position, and so are the places that it names, as far from there
as it says. -/
theorem shownAt_of_instructionLines (h : instructionLines p pc i = .ok lines) :
    ShownAt pc i lines := by
  cases i with
  | tableSwitch padding fallback low high offsets =>
    cases h
    have hword : "tableswitch   \x7b // " = Opcode.tableswitch.mnemonic ++ "   \x7b // " := rfl
    have hoffsets : offsets.map Int32.toInt = (offsets.zipIdx.map Prod.fst).map Int32.toInt := by
      rw [List.zipIdx_map_fst]
    refine shownAt_of_switchLines ("   \x7b // " ++ s!"{low.toInt} to {high.toInt}") ?_ ?_
    · rw [hword]
      simp only [String.append_assoc, Instruction.opcode]
    · rw [jumps, hoffsets, List.map_map, List.map_map]
      rfl
  | lookupSwitch padding fallback pairs =>
    cases h
    have hword : "lookupswitch  \x7b // " = Opcode.lookupswitch.mnemonic ++ "  \x7b // " := rfl
    refine shownAt_of_switchLines ("  \x7b // " ++ s!"{pairs.length}") ?_ ?_
    · rw [hword]
      simp only [String.append_assoc, Instruction.opcode]
    · rw [jumps, List.map_map]
      rfl
  | branch op offset =>
    obtain ⟨comment, hcomment, rfl⟩ := exists_of_map_eq_ok h
    cases hcomment
    exact shownAt_of_line (.inr ⟨rfl, _, rfl, rfl⟩)
  | branchWide op offset =>
    obtain ⟨comment, hcomment, rfl⟩ := exists_of_map_eq_ok h
    cases hcomment
    exact shownAt_of_line (.inr ⟨rfl, _, rfl, rfl⟩)
  | _ =>
    obtain ⟨comment, -, rfl⟩ := exists_of_map_eq_ok h
    exact shownAt_of_line (.inl rfl)

end

/-- All instructions of some code, each at the position where the ones before it end. -/
def codeLines (p : Pool) (code : List Instruction) : Except Obstacle (List String) := do
  let (_, lines) ← code.foldlM (fun (pc, lines) i => do
    return (pc + i.size, lines ++ (← instructionLines p pc i))) (0, #[])
  return lines.toList

end JavaClass.Listing

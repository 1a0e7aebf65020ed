import JavaClass.Error
import JavaClass.Size

/-!
# The constant pool

Constants are looked up by a 16 bit index that starts at one. A `long` or `double` at index `n`
makes index `n + 1` unusable, so a pool has a list of *slots* beside its entries: one for each
index, with the position of the constant among the entries, and an empty one for the second index of
a 64 bit number. No position is out of bounds (`position_lt`). The slots are determined by the
entries (`slots_eq`), so two pools are equal as soon as their entries are (`ext`).
-/

namespace JavaClass

namespace Constant

/-- The slots of a constant: its position and, for a wide one, an empty slot. -/
def slots (c : Constant) (position : Nat) : List (Option Nat) :=
  if c.isWide then [some position, none] else [some position]

/-- The slots of constants that are stored one after the other, from a position on. -/
def slotsFrom (position : Nat) : List Constant → List (Option Nat)
  | [] => []
  | c :: cs => c.slots position ++ slotsFrom (position + 1) cs

theorem length_slots (c : Constant) (position : Nat) : (c.slots position).length = c.width := by
  unfold slots width
  split
  · rfl
  · rfl

theorem length_slotsFrom (position : Nat) (cs : List Constant) :
    (slotsFrom position cs).length = totalSize width cs := by
  induction cs generalizing position with
  | nil => rfl
  | cons c cs ih => rw [slotsFrom, List.length_append, length_slots, ih, totalSize_cons]

theorem eq_of_mem_slots {c : Constant} {position other : Nat} (h : some other ∈ c.slots position) :
    other = position := by
  unfold slots at h
  split at h
  · simpa using h
  · simpa using h

theorem slotsFrom_append (position : Nat) (cs ds : List Constant) :
    slotsFrom position (cs ++ ds) =
      slotsFrom position cs ++ slotsFrom (position + cs.length) ds := by
  induction cs generalizing position with
  | nil => rfl
  | cons c cs ih =>
    rw [List.cons_append, slotsFrom, slotsFrom, ih, List.append_assoc, List.length_cons,
      Nat.add_right_comm, Nat.add_assoc]

end Constant

/-- What looking for a constant fails with. -/
inductive Error.IsLookup : Error → Prop
  | indexOutOfRange (index : UInt16) : IsLookup (.indexOutOfRange index)
  | unusableIndex (index : UInt16) : IsLookup (.unusableIndex index)
  | wrongConstantKind (index : UInt16) (expected actual : Constant.Kind) :
    IsLookup (.wrongConstantKind index expected actual)

structure Pool where
  entries : Array Constant
  /-- The position in `entries` of what is stored at each index, from index one on. -/
  slots : Array (Option Nat)
  slots_eq : slots.toList = Constant.slotsFrom 0 entries.toList
  position_lt : ∀ position, some position ∈ slots → position < entries.size

namespace Pool

def empty : Pool := ⟨#[], #[], rfl, nofun⟩

instance : Inhabited Pool := ⟨empty⟩

theorem ext {p q : Pool} (h : p.entries = q.entries) : p = q := by
  obtain ⟨pe, ps, hp, _⟩ := p
  obtain ⟨qe, qs, hq, _⟩ := q
  obtain rfl : pe = qe := h
  obtain rfl : ps = qs := Array.toList_inj.1 (hp.trans hq.symm)
  rfl

instance : DecidableEq Pool := fun p q =>
  decidable_of_iff (p.entries = q.entries) ⟨ext, fun h => h ▸ rfl⟩

/-- The pool with one more constant at its end. -/
def push (p : Pool) (c : Constant) : Pool :=
  let last := p.entries.size
  { entries := p.entries.push c
    slots := p.slots ++ c.slots last
    slots_eq := by simp [last, p.slots_eq, Constant.slotsFrom_append, Constant.slotsFrom]
    position_lt := by
      intro position h
      rw [Array.size_push]
      rw [← Array.mem_toList_iff, Array.toList_appendList] at h
      rcases List.mem_append.mp h with hslot | hslot
      · exact Nat.lt_succ_of_lt (p.position_lt position (Array.mem_toList_iff.mp hslot))
      · rw [Constant.eq_of_mem_slots hslot]
        exact Nat.lt_succ_self last }

/-- The index at which the next constant will be stored. It does not fit 16 bits once the pool is
full. -/
def nextIndex (p : Pool) : Nat :=
  p.slots.size + 1

/-- The number of constants. -/
def size (p : Pool) : Nat :=
  p.entries.size

/-- One more than the highest index, which is how the length of a pool is stored. -/
def count (p : Pool) : Nat :=
  p.slots.size + 1

def ofList (constants : List Constant) : Pool :=
  constants.foldl push empty

/-- The constants together with their indices. -/
def indexed (p : Pool) : List (Nat × Constant) :=
  (p.slots.attach.toList.zipIdx 1).filterMap fun
    | (⟨some position, h⟩, index) =>
      have := p.position_lt position h
      some (index, p.entries[position])
    | (⟨none, _⟩, _) => none

def get (p : Pool) (index : UInt16) : Except Error Constant :=
  if index = 0 then .error (.indexOutOfRange index)
  else match hslot : p.slots[index.toNat - 1]? with
    | none => .error (.indexOutOfRange index)
    | some none => .error (.unusableIndex index)
    | some (some position) =>
      have := p.position_lt position (Array.mem_of_getElem? hslot)
      .ok p.entries[position]

section

variable {p : Pool} {index : UInt16} {n position : Nat} {c : Constant}

theorem ne_zero_of_toNat (hindex : index.toNat = n + 1) : index ≠ 0 := by
  rintro rfl
  cases hindex

theorem get_of_slot (hindex : index.toNat = n + 1) (hslot : p.slots[n]? = some (some position))
    (hentry : p.entries[position]? = some c) : p.get index = .ok c := by
  obtain rfl : n = index.toNat - 1 := by omega
  rw [get, if_neg (ne_zero_of_toNat hindex)]
  split
  · next h => cases h.symm.trans hslot
  · next h => cases h.symm.trans hslot
  · next h =>
    cases h.symm.trans hslot
    exact congrArg Except.ok (Array.getElem?_eq_some_iff.mp hentry).2

theorem get_of_empty_slot (hindex : index.toNat = n + 1) (hslot : p.slots[n]? = some none) :
    p.get index = .error (.unusableIndex index) := by
  obtain rfl : n = index.toNat - 1 := by omega
  rw [get, if_neg (ne_zero_of_toNat hindex)]
  split
  · next h => cases h.symm.trans hslot
  · rfl
  · next h => cases h.symm.trans hslot

theorem get_of_no_slot (hindex : index.toNat = n + 1) (hslot : p.slots[n]? = none) :
    p.get index = .error (.indexOutOfRange index) := by
  obtain rfl : n = index.toNat - 1 := by omega
  rw [get, if_neg (ne_zero_of_toNat hindex)]
  split
  · rfl
  · next h => cases h.symm.trans hslot
  · next h => cases h.symm.trans hslot

/-- Where there is a constant, there is a slot with its position. -/
theorem exists_slot_of_get (h : p.get index = .ok c) :
    ∃ n position, index.toNat = n + 1 ∧ p.slots[n]? = some (some position) ∧
      p.entries[position]? = some c := by
  rw [get] at h
  split at h
  · cases h
  next hindex =>
  split at h
  · cases h
  · cases h
  next position hslot =>
  cases h
  have hne : index.toNat ≠ 0 := fun h => hindex (UInt16.toNat_inj.mp h)
  exact ⟨index.toNat - 1, position, by omega, hslot, Array.getElem?_eq_getElem _⟩

theorem isLookup_of_get {e : Error} (h : p.get index = .error e) : e.IsLookup := by
  rw [get] at h
  split at h
  · cases h
    exact .indexOutOfRange index
  split at h
  · cases h
    exact .indexOutOfRange index
  · cases h
    exact .unusableIndex index
  · cases h

end

def getUtf8 (p : Pool) (index : UInt16) : Except Error (List UInt8) := do
  match ← p.get index with
  | .utf8 bytes => return bytes
  | c => throw (.wrongConstantKind index .utf8 c.kind)

theorem isLookup_of_getUtf8 {p : Pool} {index : UInt16} {e : Error}
    (h : p.getUtf8 index = .error e) : e.IsLookup := by
  rw [getUtf8] at h
  cases hget : p.get index with
  | error e' =>
    rw [hget] at h
    cases h
    exact isLookup_of_get hget
  | ok c =>
    rw [hget] at h
    cases c with
    | utf8 bytes => cases h
    | _ =>
      cases h
      exact .wrongConstantKind index .utf8 _

/-- The text at an index, one character per byte. -/
def getText (p : Pool) (index : UInt16) : Except Error String := do
  return Text.latin1 (← p.getUtf8 index)

/-- The name of the class at an index. -/
def getClassName (p : Pool) (index : UInt16) : Except Error String := do
  match ← p.get index with
  | .classInfo nameIndex => p.getText nameIndex
  | c => throw (.wrongConstantKind index .classInfo c.kind)

end Pool
end JavaClass

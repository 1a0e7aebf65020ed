import JavaClass.Proofs.Lookups

/-!
# Chains of method handles

A method handle refers to a constant, which may be a handle as well, so one call for a text makes
another one inside of it. `Listing.Calls` says how many calls there are and what comes out of them.
A constant has a text just if its calls come to an end (`Listing.constantText_eq_some_iff`).

What several handles lead to is the end of a chain (`Pool.Chain`), and its text is at the end of the
text of all of them (`Listing.constantText_of_chain`). A constant has a text just if all that it
refers to is there (`Listing.succeeds_requireText`).
-/

namespace JavaClass

theorem Constant.exists_of_kind {c : Constant} (h : c.kind = .methodHandle) :
    ∃ kind index, c = .methodHandle kind index := by
  cases c with
  | methodHandle kind index => exact ⟨kind, index, rfl⟩
  | _ => cases h

namespace Listing

/-! ### Calls inside of each other -/

/-- To find the text of a constant takes a number of calls, each inside of the one before, and they
come to a text or an error. -/
inductive Calls (p : Pool) : Constant → Nat → Except Error String → Prop
  /-- What is no handle needs no other text. -/
  | last {c : Constant} (hkind : c.kind ≠ .methodHandle) : Calls p c 1 (plainText p c)
  | dangling {kind : UInt8} {index : UInt16} {e : Error} (hget : p.get index = .error e) :
    Calls p (.methodHandle kind index) 1 (.error e)
  | handle {kind : UInt8} {index : UInt16} {c : Constant} {n : Nat} {r : Except Error String}
    (hget : p.get index = .ok c) (hcalls : Calls p c n r) :
    Calls p (.methodHandle kind index) (n + 1) ((referenceWord kind ++ " " ++ ·) <$> r)

variable {p : Pool} {c : Constant} {kind : UInt8} {index : UInt16} {n n' : Nat}
  {r r' : Except Error String}

theorem Calls.unique (h : Calls p c n r) (h' : Calls p c n' r') : n = n' ∧ r = r' := by
  induction h generalizing n' r' with
  | last hkind =>
    cases h' with
    | last _ => exact ⟨rfl, rfl⟩
    | dangling _ => exact absurd rfl hkind
    | handle _ _ => exact absurd rfl hkind
  | dangling hget =>
    cases h' with
    | last hkind => exact absurd rfl hkind
    | dangling hget' =>
      cases hget.symm.trans hget'
      exact ⟨rfl, rfl⟩
    | handle hget' _ => cases hget.symm.trans hget'
  | handle hget hcalls ih =>
    cases h' with
    | last hkind => exact absurd rfl hkind
    | dangling hget' => cases hget.symm.trans hget'
    | handle hget' hcalls' =>
      cases hget.symm.trans hget'
      obtain ⟨rfl, rfl⟩ := ih hcalls'
      exact ⟨rfl, rfl⟩

theorem Calls.constantText_eq (h : Calls p c n r) : constantText p c = some r := by
  induction h with
  | last hkind => exact constantText_of_kind hkind
  | dangling hget => exact constantText_of_error hget
  | handle hget hcalls ih => rw [constantText_of_get hget, ih, Option.map_some]

/-- Every text of a handle is found through calls, as it is not there before those inside of it. -/
theorem exists_calls_of_handleText (h : handleText p kind index = some r) :
    ∃ n, Calls p (.methodHandle kind index) n r := by
  refine handleText.partial_correctness p
    (fun kind index r => ∃ n, Calls p (.methodHandle kind index) n r) ?_ kind index r h
  intro next ih kind index r h
  split at h
  · next e hget =>
    cases h
    exact ⟨1, .dangling hget⟩
  · next nextKind nextIndex hget =>
    obtain ⟨text, hnext, htext⟩ := Option.bind_eq_some_iff.mp h
    obtain ⟨n, hcalls⟩ := ih nextKind nextIndex text hnext
    cases htext
    exact ⟨n + 1, .handle hget hcalls⟩
  · next c hkind hget =>
    cases h
    refine ⟨2, .handle hget (.last fun hc => ?_)⟩
    obtain ⟨nextKind, nextIndex, rfl⟩ := Constant.exists_of_kind hc
    exact hkind _ _ rfl

theorem constantText_eq_some_iff : constantText p c = some r ↔ ∃ n, Calls p c n r := by
  constructor
  · intro h
    by_cases hkind : c.kind = .methodHandle
    · obtain ⟨kind, index, rfl⟩ := Constant.exists_of_kind hkind
      exact exists_calls_of_handleText h
    · cases (constantText_of_kind hkind).symm.trans h
      exact ⟨1, .last hkind⟩
  · rintro ⟨n, hcalls⟩
    exact hcalls.constantText_eq

end Listing

/-! ### Chains -/

namespace Pool

variable {p : Pool} {c last : Constant} {links : List (UInt8 × UInt16)}

/-- From a constant, method handles lead to one that is none. Each link is what a handle holds: the
kind of the reference, and an index. -/
inductive Chain (p : Pool) : Constant → List (UInt8 × UInt16) → Constant → Prop
  | last {c : Constant} (h : c.kind ≠ .methodHandle) : Chain p c [] c
  | handle {kind : UInt8} {index : UInt16} {c last : Constant} {links : List (UInt8 × UInt16)}
    (hget : p.get index = .ok c) (h : Chain p c links last) :
    Chain p (.methodHandle kind index) ((kind, index) :: links) last

theorem Chain.kind_last (h : p.Chain c links last) : last.kind ≠ .methodHandle := by
  induction h with
  | last hkind => exact hkind
  | handle hget h ih => exact ih

/-- What a constant refers to is there, behind any number of method handles. If these come back to
one of them then nothing is. -/
def Resolves (p : Pool) (c : Constant) : Prop :=
  ∃ links last, p.Chain c links last ∧ p.Refers last

/-- At the index there is a constant, and what that refers to is there as well. -/
def HasResolved (p : Pool) (index : UInt16) : Prop :=
  ∃ c, p.get index = .ok c ∧ p.Resolves c

end Pool

namespace Listing

variable {p : Pool} {c last : Constant} {links : List (UInt8 × UInt16)} {n : Nat} {text : String}

/-- The words for references, each with a blank behind it. -/
def linkWords (links : List (UInt8 × UInt16)) : String :=
  String.join (links.map fun link => referenceWord link.1 ++ " ")

theorem linkWords_cons (kind : UInt8) (index : UInt16) (links : List (UInt8 × UInt16)) :
    linkWords ((kind, index) :: links) = referenceWord kind ++ " " ++ linkWords links := by
  rw [linkWords, List.map_cons, String.join_cons]
  rfl

/-- What a constant stands for is what the chain from it ends with, behind the words of its links.
-/
theorem constantText_of_chain (h : p.Chain c links last) :
    constantText p c = some ((linkWords links ++ ·) <$> plainText p last) := by
  induction h with
  | last hkind =>
    rw [constantText_of_kind hkind]
    cases plainText p _ with
    | error e => rfl
    | ok text => exact congrArg (some ∘ Except.ok) String.empty_append.symm
  | handle hget h ih =>
    rw [constantText_of_get hget, ih, linkWords_cons, Option.map_some]
    cases plainText p _ with
    | error e => rfl
    | ok text => exact congrArg (some ∘ Except.ok) (String.append_assoc ..).symm

theorem Calls.exists_chain {r : Except Error String} (h : Calls p c n r) (hr : r = .ok text) :
    ∃ links last, p.Chain c links last := by
  induction h generalizing text with
  | last hkind => exact ⟨[], _, .last hkind⟩
  | dangling hget => cases hr
  | @handle kind index c n r hget hcalls ih =>
    cases r with
    | error e => cases hr
    | ok text =>
      obtain ⟨links, last, hchain⟩ := ih rfl
      exact ⟨(kind, index) :: links, last, .handle hget hchain⟩

theorem constantText_ok_iff_resolves :
    (∃ text, constantText p c = some (.ok text)) ↔ p.Resolves c := by
  constructor
  · rintro ⟨text, htext⟩
    obtain ⟨n, hcalls⟩ := constantText_eq_some_iff.mp htext
    obtain ⟨links, last, hchain⟩ := hcalls.exists_chain rfl
    refine ⟨links, last, hchain, (succeeds_plainText hchain.kind_last).mp ?_⟩
    rw [← succeeds_map, ← Option.some.inj ((constantText_of_chain hchain).symm.trans htext).symm]
    exact succeeds_ok text
  · rintro ⟨links, last, hchain, hlast⟩
    obtain ⟨text, htext⟩ := (succeeds_plainText hchain.kind_last).mpr hlast
    refine ⟨linkWords links ++ text, ?_⟩
    rw [constantText_of_chain hchain, htext]
    rfl

@[simp] theorem succeeds_requireText : Succeeds (requireText p c) ↔ p.Resolves c := by
  rw [← constantText_ok_iff_resolves, requireText]
  simp only [succeeds_bind, await_eq_ok, succeeds_require]
  constructor
  · rintro ⟨r, hr, text, rfl⟩
    exact ⟨text, hr⟩
  · rintro ⟨text, htext⟩
    exact ⟨_, htext, succeeds_ok text⟩

end Listing
end JavaClass

import JavaClass.Listing.Attribute

/-!
# What can be looked up

A listing is put together in steps that may fail (`Listing.Succeeds`). All of them have to succeed,
and mostly what one of them needs does not depend on what came out of the others. In the end each
needs something to be found in the pool: a text, or something that refers to texts
(`Pool.HasText`, `Pool.HasClassName`, `Pool.HasNameAndType`). What several steps fail with is what
one of them fails with (`Listing.FailsWith`).
-/

namespace JavaClass

namespace Listing

section

variable {ε α β : Type} {x : Except ε α} {f : α → Except ε β} {r : Except Error α}

/-- There is a result. -/
def Succeeds (x : Except ε α) : Prop :=
  ∃ a, x = .ok a

theorem bind_eq_ok {b : β} : x >>= f = .ok b ↔ ∃ a, x = .ok a ∧ f a = .ok b := by
  cases x with
  | error e => exact iff_of_false nofun fun ⟨_, h, _⟩ => nomatch h
  | ok a =>
    constructor
    · exact fun h => ⟨a, rfl, h⟩
    · rintro ⟨_, ⟨⟩, h⟩
      exact h

@[simp] theorem exists_eq_ok : (∃ a, x = .ok a) ↔ Succeeds x := .rfl

@[simp] theorem succeeds_ok (a : α) : Succeeds (.ok a : Except ε α) := ⟨a, rfl⟩

@[simp] theorem succeeds_pure (a : α) : Succeeds (pure a : Except ε α) := ⟨a, rfl⟩

@[simp] theorem not_succeeds_error (e : ε) : ¬ Succeeds (.error e : Except ε α) := nofun

@[simp] theorem not_succeeds_throw (e : ε) : ¬ Succeeds (throw e : Except ε α) := nofun

/-- Both steps have to succeed. If the second one needs the same whatever comes out of the first,
this splits into two conditions. -/
@[simp] theorem succeeds_bind : Succeeds (x >>= f) ↔ ∃ a, x = .ok a ∧ Succeeds (f a) := by
  simp only [Succeeds, bind_eq_ok]
  constructor
  · rintro ⟨b, a, hx, hf⟩
    exact ⟨a, hx, b, hf⟩
  · rintro ⟨a, hx, b, hf⟩
    exact ⟨b, a, hx, hf⟩

@[simp] theorem succeeds_map (g : α → β) : Succeeds (g <$> x) ↔ Succeeds x := by
  cases x with
  | error e => exact iff_of_false (not_succeeds_error e) (not_succeeds_error e)
  | ok a => exact iff_of_true (succeeds_ok (g a)) (succeeds_ok a)

@[simp] theorem succeeds_ite {c : Prop} [Decidable c] {x y : Except ε α} :
    Succeeds (if c then x else y) ↔ (c → Succeeds x) ∧ (¬ c → Succeeds y) := by
  split
  · next h => exact ⟨fun hx => ⟨fun _ => hx, fun hnot => absurd h hnot⟩, fun hboth => hboth.1 h⟩
  · next h => exact ⟨fun hy => ⟨fun hc => absurd hc h, fun _ => hy⟩, fun hboth => hboth.2 h⟩

@[simp] theorem succeeds_mapM {l : List α} {f : α → Except ε β} :
    Succeeds (l.mapM f) ↔ ∀ a ∈ l, Succeeds (f a) := by
  induction l with
  | nil => exact iff_of_true (succeeds_pure []) nofun
  | cons a l ih =>
    simp [List.mapM_cons, ih]

theorem succeeds_foldlM {f : β → α → Except ε β} (h : ∀ b a, Succeeds (f b a)) (l : List α)
    (b : β) : Succeeds (l.foldlM f b) := by
  induction l generalizing b with
  | nil => exact succeeds_pure b
  | cons a l ih =>
    obtain ⟨b', hstep⟩ := h b a
    rw [List.foldlM_cons, hstep]
    exact ih b'

/-- If there is no result then it is for such a reason. -/
def FailsWith (P : ε → Prop) (x : Except ε α) : Prop :=
  ∀ e, x = .error e → P e

section

variable {P : ε → Prop}

theorem failsWith_ok (a : α) : FailsWith P (.ok a) := nofun

theorem failsWith_error {e : ε} (h : P e) : FailsWith P (.error e : Except ε α) := by
  rintro _ ⟨⟩
  exact h

theorem Succeeds.failsWith (h : Succeeds x) : FailsWith P x := by
  obtain ⟨a, rfl⟩ := h
  exact failsWith_ok a

theorem FailsWith.bind (hx : FailsWith P x) (hf : ∀ a, FailsWith P (f a)) :
    FailsWith P (x >>= f) := by
  intro e he
  cases x with
  | error e' => cases he; exact hx _ rfl
  | ok a => exact hf a e he

theorem FailsWith.map (hx : FailsWith P x) (g : α → β) : FailsWith P (g <$> x) := by
  intro e he
  cases x with
  | error e' => cases he; exact hx _ rfl
  | ok a => cases he

theorem failsWith_mapM {l : List α} (h : ∀ a ∈ l, FailsWith P (f a)) : FailsWith P (l.mapM f) := by
  induction l with
  | nil => exact failsWith_ok []
  | cons a l ih =>
    obtain ⟨ha, hl⟩ := List.forall_mem_cons.mp h
    rw [List.mapM_cons]
    exact ha.bind fun b => (ih hl).bind fun bs => failsWith_ok (b :: bs)

end

theorem mapError_eq_ok {ε' : Type} {g : ε → ε'} {a : α} : x.mapError g = .ok a ↔ x = .ok a := by
  cases x with
  | error e => exact iff_of_false nofun nofun
  | ok a' =>
    constructor
    · rintro ⟨⟩
      rfl
    · rintro ⟨⟩
      rfl

theorem require_eq_ok {a : α} : require r = .ok a ↔ r = .ok a :=
  mapError_eq_ok

@[simp] theorem succeeds_require : Succeeds (require r) ↔ Succeeds r :=
  exists_congr fun _ => mapError_eq_ok

theorem await_eq_ok {o : Option α} {a : α} : await o = .ok a ↔ o = some a := by
  cases o with
  | none => exact iff_of_false nofun nofun
  | some a' =>
    constructor
    · rintro ⟨⟩
      rfl
    · rintro ⟨⟩
      rfl

@[simp] theorem succeeds_requireFor (context : String) :
    Succeeds (requireFor context r) ↔ Succeeds r :=
  exists_congr fun _ => mapError_eq_ok

end
end Listing

namespace Pool

/-- There is a text at the index. -/
def HasText (p : Pool) (index : UInt16) : Prop :=
  ∃ bytes, p.get index = .ok (.utf8 bytes)

/-- There is a class at the index, and it has a name. -/
def HasClassName (p : Pool) (index : UInt16) : Prop :=
  ∃ nameIndex, p.get index = .ok (.classInfo nameIndex) ∧ p.HasText nameIndex

/-- At the index there are the name and the type of a member. -/
def HasNameAndType (p : Pool) (index : UInt16) : Prop :=
  ∃ nameIndex descriptorIndex, p.get index = .ok (.nameAndType nameIndex descriptorIndex) ∧
    p.HasText nameIndex ∧ p.HasText descriptorIndex

/-- What the constant refers to is there, and of the right kind. A method handle has to be followed
first. -/
def Refers (p : Pool) : Constant → Prop
  | .classInfo index | .string index | .methodType index => p.HasText index
  | .fieldRef owner member | .methodRef owner member | .interfaceMethodRef owner member =>
    p.HasClassName owner ∧ p.HasNameAndType member
  | .nameAndType name descriptor => p.HasText name ∧ p.HasText descriptor
  | .invokeDynamic _ member => p.HasNameAndType member
  | .methodHandle .. => False
  | .integer .. | .float .. | .long .. | .double .. | .utf8 .. => True

end Pool

namespace Listing

variable {p : Pool} {index : UInt16}

@[simp] theorem succeeds_getUtf8 : Succeeds (p.getUtf8 index) ↔ p.HasText index := by
  rw [Pool.getUtf8, succeeds_bind]
  constructor
  · rintro ⟨c, hget, h⟩
    cases c with
    | utf8 bytes => exact ⟨bytes, hget⟩
    | _ => exact absurd h (not_succeeds_throw _)
  · rintro ⟨bytes, hget⟩
    exact ⟨_, hget, succeeds_pure _⟩

@[simp] theorem succeeds_getText : Succeeds (p.getText index) ↔ p.HasText index := by
  simp [Pool.getText]

@[simp] theorem succeeds_getClassName : Succeeds (p.getClassName index) ↔ p.HasClassName index := by
  rw [Pool.getClassName, succeeds_bind]
  constructor
  · rintro ⟨c, hget, h⟩
    cases c with
    | classInfo nameIndex => exact ⟨nameIndex, hget, succeeds_getText.mp h⟩
    | _ => exact absurd h (not_succeeds_throw _)
  · rintro ⟨nameIndex, hget, h⟩
    exact ⟨_, hget, succeeds_getText.mpr h⟩

@[simp] theorem succeeds_nameAndTypeText {name descriptor : UInt16} :
    Succeeds (nameAndTypeText p name descriptor) ↔ p.HasText name ∧ p.HasText descriptor := by
  simp [nameAndTypeText]

@[simp] theorem succeeds_getNameAndType :
    Succeeds (getNameAndType p index) ↔ p.HasNameAndType index := by
  rw [getNameAndType, succeeds_bind]
  constructor
  · rintro ⟨c, hget, h⟩
    cases c with
    | nameAndType name descriptor => exact ⟨name, descriptor, hget, succeeds_nameAndTypeText.mp h⟩
    | _ => exact absurd h (not_succeeds_throw _)
  · rintro ⟨name, descriptor, hget, h⟩
    exact ⟨_, hget, succeeds_nameAndTypeText.mpr h⟩

@[simp] theorem succeeds_memberText {owner member : UInt16} :
    Succeeds (memberText p owner member) ↔ p.HasClassName owner ∧ p.HasNameAndType member := by
  simp [memberText]

/-- If a constant is no handle then its text is there if what it refers to is. -/
theorem succeeds_plainText {c : Constant} (h : c.kind ≠ .methodHandle) :
    Succeeds (plainText p c) ↔ p.Refers c := by
  cases c with
  | methodHandle kind index => exact absurd rfl h
  | _ => simp [plainText, Pool.Refers]

end Listing
end JavaClass

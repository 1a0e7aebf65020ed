import JavaClass.Proofs.Congruence
import Mathlib.Logic.Relation

/-!
# Coming to the end of the bytes

Reading has two phases. At first the offset says which bytes are left: all but as many as it counts.
Once `bytes` has been asked for more than there are, nothing is left, and from then on the offset
stays where it is and nothing more is read. No failure leads back or anywhere else, be it in the
middle of an instruction or deep inside of attributes.

A `Point` is a cursor with the phase it is in. `Point.Step` is what can happen to a point: some
bytes are asked for, or something changes that is not about bytes. That all reading consists of such
steps is a `ClassFile.Law`, so what one step preserves holds everywhere.
-/

namespace JavaClass

open Decode

/-- A cursor, and whether the bytes have come to their end in what has been read before. -/
structure Point where
  cursor : Cursor
  ended : Bool

namespace Point

variable {α β : Type} {p q r : Point} {d : Decode α} {f : α → Decode β} {bytes : List UInt8}

/-- The point behind `d`, whatever comes of it. -/
def behind (p : Point) (d : Decode α) : Point :=
  match d p.cursor with
  | .ok _ s => ⟨s, p.ended⟩
  | .error e s => ⟨s, p.ended || e = .unexpectedEnd⟩

/-- The point behind several operations. -/
def behindAll (options : Options) (p : Point) (ops : List Operation) : Point :=
  ops.foldl (fun p op => p.behind (op.decode options)) p

theorem behind_of_ok {a : α} {s : Cursor} (h : d p.cursor = .ok a s) :
    p.behind d = ⟨s, p.ended⟩ := by
  rw [behind, h]

theorem behind_of_error {e : Error} {s : Cursor} (h : d p.cursor = .error e s) :
    p.behind d = ⟨s, p.ended || e = .unexpectedEnd⟩ := by
  rw [behind, h]

theorem cursor_behind (p : Point) (d : Decode α) :
    (p.behind d).cursor = (outcome d p.cursor).2 := by
  rw [behind, outcome]
  cases d p.cursor <;> rfl

theorem cursor_behindAll (options : Options) (p : Point) (ops : List Operation) :
    (p.behindAll options ops).cursor = Operation.runAll options p.cursor ops := by
  induction ops generalizing p with
  | nil => rfl
  | cons op ops ih =>
    have hop : (p.behind (op.decode options)).cursor = (op.run options p.cursor).2 :=
      p.cursor_behind _
    show (behindAll options (p.behind (op.decode options)) ops).cursor = _
    rw [ih, hop]
    rfl

/-! ### Steps -/

/-- Some bytes are asked for, or the unread bytes and the offset stay as they are. -/
inductive Step (p : Point) : Point → Prop
  | bytes (n : Nat) : Step p (p.behind (Decode.bytes n))
  | aside (s : Cursor) (hunread : s.unread = p.cursor.unread)
    (hoffset : s.offset = p.cursor.offset) : Step p ⟨s, p.ended⟩

/-- From one point to another in any number of steps. -/
abbrev Leads : Point → Point → Prop :=
  Relation.ReflTransGen Step

/-- Reading by steps, whatever comes of it. -/
def Stepwise (d : Decode α) : Prop :=
  ∀ p, Leads p (p.behind d)

theorem Stepwise.bind (h : Stepwise d) (hf : ∀ a, Stepwise (f a)) : Stepwise (d >>= f) := by
  intro p
  have hp := h p
  cases hd : d p.cursor with
  | ok a s =>
    rw [behind_of_ok hd] at hp
    have hbind : p.behind (d >>= f) = behind ⟨s, p.ended⟩ (f a) := by
      rw [behind, behind, bind_of_ok hd]
    rw [hbind]
    exact hp.trans (hf a _)
  | error e s =>
    rw [behind_of_error hd] at hp
    rw [behind_of_error (bind_of_error hd)]
    exact hp

/-- What is read next may depend on the cursor. -/
theorem Stepwise.get_bind {f : Cursor → Decode β} (h : ∀ c, Stepwise (f c)) :
    Stepwise (get >>= f) :=
  fun p => h p.cursor p

theorem Stepwise.modify {g : Cursor → Cursor} (hunread : ∀ c, (g c).unread = c.unread)
    (hoffset : ∀ c, (g c).offset = c.offset) : Stepwise (modify g) :=
  fun p => .single (.aside (g p.cursor) (hunread _) (hoffset _))

theorem Stepwise.nested (h : Stepwise d) : Stepwise (nested d) := by
  intro p
  have hentered : Leads p ⟨{ p.cursor with depth := p.cursor.depth + 1 }, p.ended⟩ :=
    .single (.aside _ rfl rfl)
  have hinside := h ⟨{ p.cursor with depth := p.cursor.depth + 1 }, p.ended⟩
  have hleft (s : Cursor) (ended : Bool) :
      Leads ⟨s, ended⟩ ⟨{ s with depth := s.depth - 1 }, ended⟩ :=
    .single (.aside _ rfl rfl)
  cases hd : d { p.cursor with depth := p.cursor.depth + 1 } with
  | ok a s =>
    rw [behind_of_ok hd] at hinside
    rw [behind_of_ok (nested_of_ok hd)]
    exact (hentered.trans hinside).trans (hleft s _)
  | error e s =>
    rw [behind_of_error hd] at hinside
    rw [behind_of_error (nested_of_error hd)]
    exact (hentered.trans hinside).trans (hleft s _)

/-- Where another error is found, nothing is read. -/
theorem Stepwise.throw {e : Error} (hnot : e ≠ .unexpectedEnd) :
    Stepwise (throw e : Decode α) := by
  intro p
  have hsame : p.behind (MonadExcept.throw e : Decode α) =
      ⟨p.cursor, p.ended || e = .unexpectedEnd⟩ := behind_of_error rfl
  rw [hsame, decide_eq_false hnot, Bool.or_false]

/-- The start of the code, the depth and the constants are set without reading anything. -/
def stepwiseLaw : ClassFile.Law where
  holds := Stepwise
  pure _ _ := .refl
  throw _ he := .throw fun h => he (h ▸ .unexpectedEnd)
  bind h hf := h.bind hf
  bytes n _ := .single (.bytes n)
  get_bind := .get_bind
  report _ := .modify (fun _ => rfl) fun _ => rfl
  tooDeep _ := .throw nofun
  setCodeStart _ := .modify (fun _ => rfl) fun _ => rfl
  nested h := h.nested
  addConstant _ := .modify (fun _ => rfl) fun _ => rfl

theorem leads_behindAll (options : Options) (p : Point) (ops : List Operation) :
    p.Leads (p.behindAll options ops) := by
  induction ops generalizing p with
  | nil => exact .refl
  | cons op ops ih => exact (stepwiseLaw.anyOperation options op p).trans (ih _)

/-! ### What a step preserves -/

theorem preserved_of_leads {P : Point → Prop} (hstep : ∀ {p q : Point}, P p → p.Step q → P q)
    (hp : P p) (h : p.Leads q) : P q := by
  induction h with
  | refl => exact hp
  | tail _ hlast ih => exact hstep ih hlast

/-- What has changed after a step: some bytes are behind, or the end has been come to. -/
theorem Step.cases (h : p.Step q) :
    (∃ n ≤ p.cursor.unread.length, q.cursor.unread = p.cursor.unread.drop n ∧
      q.cursor.offset = p.cursor.offset + n ∧ q.ended = p.ended) ∨
    q.cursor.unread = [] ∧ q.cursor.offset = p.cursor.offset ∧ q.ended = true := by
  cases h with
  | aside s hunread hoffset => exact .inl ⟨0, Nat.zero_le _, hunread, hoffset, rfl⟩
  | bytes n =>
    by_cases hn : n ≤ p.cursor.unread.length
    · rw [behind_of_ok (bytes_of_le hn)]
      exact .inl ⟨n, hn, rfl, rfl, rfl⟩
    · rw [behind_of_error (bytes_of_lt (Nat.lt_of_not_le hn)), decide_eq_true rfl, Bool.or_true]
      exact .inr ⟨rfl, rfl, rfl⟩

/-- The offset counts the bytes that have been read, and the others are left until the end has been
come to. -/
structure Accounts (bytes : List UInt8) (p : Point) : Prop where
  offset_le : p.cursor.offset ≤ bytes.length
  unread_eq : p.cursor.unread = if p.ended then [] else bytes.drop p.cursor.offset

theorem Accounts.step (h : p.Accounts bytes) (hstep : p.Step q) : q.Accounts bytes := by
  obtain ⟨n, hn, hunread, hoffset, hended⟩ | ⟨hunread, hoffset, hended⟩ := hstep.cases
  · have hlength := congrArg List.length h.unread_eq
    have hle := h.offset_le
    cases hp : p.ended with
    | false =>
      rw [hp, if_neg Bool.false_ne_true, List.length_drop] at hlength
      refine ⟨by omega, ?_⟩
      rw [hunread, hoffset, hended, hp, if_neg Bool.false_ne_true, h.unread_eq, hp,
        if_neg Bool.false_ne_true, List.drop_drop]
    | true =>
      -- no bytes are left, so none were asked for
      rw [hp, if_pos rfl, List.length_nil] at hlength
      refine ⟨by omega, ?_⟩
      rw [hunread, hended, hp, if_pos rfl, h.unread_eq, hp, if_pos rfl, List.drop_nil]
  · refine ⟨hoffset ▸ h.offset_le, ?_⟩
    rw [hunread, hended, if_pos rfl]

theorem Accounts.leads (h : p.Accounts bytes) (hleads : p.Leads q) : q.Accounts bytes :=
  preserved_of_leads Accounts.step h hleads

theorem Step.offset_le (h : p.Step q) : p.cursor.offset ≤ q.cursor.offset := by
  obtain ⟨n, -, -, hoffset, -⟩ | ⟨-, hoffset, -⟩ := h.cases
  · omega
  · omega

theorem offset_le_of_leads (h : p.Leads q) : p.cursor.offset ≤ q.cursor.offset :=
  preserved_of_leads (P := fun q => p.cursor.offset ≤ q.cursor.offset)
    (fun hle hstep => Nat.le_trans hle hstep.offset_le) (Nat.le_refl _) h

/-- There is nothing to read any more, and the offset is `n`. -/
structure Over (n : Nat) (p : Point) : Prop where
  ended : p.ended = true
  unread : p.cursor.unread = []
  offset : p.cursor.offset = n

theorem Over.step {n : Nat} (h : p.Over n) (hstep : p.Step q) : q.Over n := by
  obtain ⟨m, hm, hunread, hoffset, hended⟩ | ⟨hunread, hoffset, hended⟩ := hstep.cases
  · rw [h.unread] at hm hunread
    obtain rfl : m = 0 := Nat.le_zero.mp hm
    exact ⟨hended.trans h.ended, hunread, hoffset.trans h.offset⟩
  · exact ⟨hended, hunread, hoffset.trans h.offset⟩

theorem Over.leads {n : Nat} (h : p.Over n) (hleads : p.Leads q) : q.Over n :=
  preserved_of_leads Over.step h hleads

end Point

/-! ### Reading where nothing is left -/

namespace Decode

variable {α β : Type} {d : Decode α} {f : α → Decode β} {c : Cursor}

/-- Nothing comes of it but that the bytes have come to their end. -/
def Starves (d : Decode α) (c : Cursor) : Prop :=
  ∃ s, d c = .error .unexpectedEnd s

theorem Starves.outcome_eq (h : Starves d c) : (outcome d c).1 = .error .unexpectedEnd := by
  obtain ⟨s, hd⟩ := h
  rw [outcome_of_error hd]

theorem Starves.bind (h : Starves d c) : Starves (d >>= f) c := by
  obtain ⟨s, hd⟩ := h
  exact ⟨s, bind_of_error hd⟩

theorem starves_bytes (hc : c.unread = []) {n : Nat} (hn : 0 < n) : Starves (bytes n) c :=
  ⟨_, bytes_of_lt (by rwa [hc])⟩

theorem starves_u8 (hc : c.unread = []) : Starves u8 c :=
  (starves_bytes hc Nat.one_pos).bind.bind

theorem starves_u16 (hc : c.unread = []) : Starves u16 c :=
  (starves_bytes hc Nat.two_pos).bind.bind

theorem starves_u32 (hc : c.unread = []) : Starves u32 c :=
  (starves_bytes hc (Nat.succ_pos 3)).bind.bind

end Decode

namespace Operation

/-- Reads at least one byte or fails. -/
def Reads : Operation → Prop
  | addConstant _ | setCodeStart _ => False
  | bytes n => 0 < n
  | _ => True

theorem starves_of_reads (options : Options) {op : Operation} {c : Cursor} (h : op.Reads)
    (hc : c.unread = []) : Starves (op.decode options) c := by
  cases op with
  | addConstant k => exact h.elim
  | setCodeStart offset => exact h.elim
  | u8 => exact starves_u8 hc
  | u16 => exact starves_u16 hc
  | u32 => exact starves_u32 hc
  | i8 => exact (starves_u8 hc).bind
  | i16 => exact (starves_u16 hc).bind
  | i32 => exact (starves_u32 hc).bind
  | bytes n => exact starves_bytes hc h
  | readInstruction => exact (starves_u8 hc).bind
  | readAttribute =>
    show Starves (Attribute.decodeWithin options (options.maxDepth - c.depth)) c
    cases options.maxDepth - c.depth with
    | zero => exact (starves_u16 hc).bind
    | succ levels => exact (starves_u16 hc).bind
  | readClass => exact (starves_u32 hc).bind

/-- Between and inside of any operations on some bytes, the offset tells which bytes are left until
the end has been come to; then none are left, the offset stays, and what reads a byte fails. -/
theorem end_is_final (options : Options) (bytes : List UInt8) :
    (∀ (p : Point) (ops : List Operation), p.Leads (p.behindAll options ops) ∧
      (p.behindAll options ops).cursor = runAll options p.cursor ops) ∧
    (∀ p, Point.Leads ⟨{ unread := bytes }, false⟩ p →
      p.cursor.offset ≤ bytes.length ∧
      (p.ended = false → p.cursor.unread = bytes.drop p.cursor.offset) ∧
      (p.ended = true → p.cursor.unread = []) ∧
      ∀ q, p.Leads q → p.cursor.offset ≤ q.cursor.offset ∧
        (p.ended = true → q.ended = true ∧ q.cursor.offset = p.cursor.offset ∧
          ∀ op : Operation, op.Reads →
            (op.run options q.cursor).1 = .error .unexpectedEnd)) ∧
    ∀ levels nameIndex kind length c,
      c.offset ≤ (outcome (nested (Attribute.decodePayload (Attribute.decodeWithin options levels)
        nameIndex kind length)) c).2.offset := by
  refine ⟨?_, ?_, ?_⟩
  · intro p ops
    exact ⟨Point.leads_behindAll options p ops, p.cursor_behindAll options ops⟩
  · intro p hp
    have hstart : Point.Accounts bytes ⟨{ unread := bytes }, false⟩ := ⟨Nat.zero_le _, rfl⟩
    have haccounts := hstart.leads hp
    have hnone (hended : p.ended = true) : p.cursor.unread = [] := by
      rw [haccounts.unread_eq, if_pos hended]
    refine ⟨haccounts.offset_le, fun hended => ?_, hnone, fun q hq => ?_⟩
    · rw [haccounts.unread_eq, hended, if_neg Bool.false_ne_true]
    refine ⟨Point.offset_le_of_leads hq, fun hended => ?_⟩
    have hover : p.Over p.cursor.offset := ⟨hended, hnone hended, rfl⟩
    have hq := hover.leads hq
    exact ⟨hq.ended, hq.offset, fun op hop => (starves_of_reads options hop hq.unread).outcome_eq⟩
  · intro levels nameIndex kind length c
    have hpayload : Point.stepwiseLaw.holds (nested (Attribute.decodePayload
        (Attribute.decodeWithin options levels) nameIndex kind length)) :=
      Point.stepwiseLaw.nested (Point.stepwiseLaw.congruence.payload
        (Point.stepwiseLaw.congruence.within levels) nameIndex kind length)
    have hle := Point.offset_le_of_leads (hpayload ⟨c, false⟩)
    rwa [Point.cursor_behind] at hle

end Operation
end JavaClass

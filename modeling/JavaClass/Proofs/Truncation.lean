import JavaClass.Proofs.Congruence
import JavaClass.Proofs.RoundTrip

/-!
# Reading with more or fewer bytes

Reading looks at nothing behind the bytes that it uses up. So unless it runs into the end, it does the
same with more bytes behind (`Extends`), and the bytes of a class that are cut short anywhere always
run into the end: with any other outcome, all of them would have had that outcome as well
(`ClassFile.decode_stable`).
-/

namespace JavaClass

/-- The same cursor with more bytes behind. -/
def Cursor.followedBy (c : Cursor) (more : List UInt8) : Cursor :=
  { c with unread := c.unread ++ more }

/-- The same outcome with more bytes behind, unless the bytes have come to their end. -/
def Decode.Extends {α : Type} (more : List UInt8) :
    (r r' : EStateM.Result Error Cursor α) → Prop
  | .ok a s, r' => r' = .ok a (s.followedBy more)
  | .error e s, r' => e = .unexpectedEnd ∨ r' = .error e (s.followedBy more)

namespace Decode

variable {α β : Type} {more : List UInt8}

theorem extends_bind {d d' : Decode α} {f f' : α → Decode β} {c : Cursor}
    (h : Extends more (d c) (d' (c.followedBy more)))
    (hf : ∀ a c, Extends more (f a c) (f' a (c.followedBy more))) :
    Extends more ((d >>= f) c) ((d' >>= f') (c.followedBy more)) := by
  cases hd : d c with
  | ok a s =>
    rw [hd] at h
    rw [bind_of_ok hd, bind_of_ok h]
    exact hf a s
  | error e s =>
    rw [hd] at h
    rw [bind_of_error hd]
    rcases h with rfl | h
    · exact Or.inl rfl
    · rw [bind_of_error h]
      exact Or.inr rfl

theorem extends_bytes (n : Nat) (c : Cursor) :
    Extends more (bytes n c) (bytes n (c.followedBy more)) := by
  simp only [bytes, List.splitAt_eq]
  split
  · next hlength =>
    have hle : n ≤ c.unread.length := by
      rw [← hlength, List.length_take]
      exact Nat.min_le_right ..
    have htake : (c.followedBy more).unread.take n = c.unread.take n :=
      List.take_append_of_le_length hle
    have hdrop : (c.followedBy more).unread.drop n = c.unread.drop n ++ more :=
      List.drop_append_of_le_length hle
    rw [htake, hdrop, if_pos hlength]
    rfl
  · exact Or.inl rfl

/-- A depth that is left again does not depend on what comes behind. -/
theorem extends_nested {d d' : Decode α} (h : ∀ c, Extends more (d c) (d' (c.followedBy more)))
    (c : Cursor) : Extends more (nested d c) (nested d' (c.followedBy more)) := by
  have hc := h { c with depth := c.depth + 1 }
  have hfollowed : ({ c with depth := c.depth + 1 } : Cursor).followedBy more =
    { c.followedBy more with depth := (c.followedBy more).depth + 1 } := rfl
  rw [hfollowed] at hc
  cases hd : d { c with depth := c.depth + 1 } with
  | ok a s =>
    rw [hd] at hc
    rw [nested_of_ok hd, nested_of_ok hc]
    rfl
  | error e s =>
    rw [hd] at hc
    rw [nested_of_error hd]
    rcases hc with rfl | hc
    · exact Or.inl rfl
    · rw [nested_of_error hc]
      exact Or.inr rfl

/-- Runs with and without more bytes behind. -/
def extending (more : List UInt8) : Congruence where
  rel d d' := ∀ c, Extends more (d c) (d' (c.followedBy more))
  pure _ _ := rfl
  throw _ _ _ := Or.inr rfl
  bind h hf c := extends_bind (h c) hf
  bytes := extends_bytes
  pool _ := rfl
  report _ _ := rfl
  reportOffset event _ _ h c := h { c with events := c.events.push (event c.offset) }

theorem extends_get {f f' : Cursor → Decode α}
    (h : ∀ c, Extends more (f c c) (f' (c.followedBy more) (c.followedBy more))) :
    (extending more).rel (get >>= f) (get >>= f') := h

theorem extends_offset {f f' : Nat → Decode α} (h : ∀ n, (extending more).rel (f n) (f' n)) :
    (extending more).rel (offset >>= f) (offset >>= f') := fun c => h c.offset c

theorem extends_padding (op : Opcode) :
    (extending more).rel (Instruction.decodePadding op) (Instruction.decodePadding op) := by
  rw [Instruction.decodePadding_eq]
  exact extends_get fun c => (extending more).zeros op _ c

/-- Nothing that attributes and constants do beside reading depends on what comes behind. -/
def extendingClass (more : List UInt8) : ClassFile.Congruence where
  toCongruence := extending more
  tooDeep _ _ := Or.inr rfl
  code := (extending more).decodeCode extends_padding fun _ => rfl
  measured kind length _ _ h := by
    rw [Attribute.decodeMeasured_eq, Attribute.decodeMeasured_eq]
    exact extends_offset fun _ => (extending more).bind (extends_nested h) fun a =>
      extends_offset fun _ => (extending more).compared kind length a _
  depth h c := h c.depth c
  addConstant _ _ := rfl

end Decode

open Decode

namespace ClassFile

variable {options : Options} {bytes more : List UInt8} {c : ClassFile} {s : Cursor}

theorem decode_extends (options : Options) (bytes more : List UInt8) :
    Extends more (decode options { unread := bytes }) (decode options { unread := bytes ++ more }) :=
  (extendingClass more).classDecode { unread := bytes }

theorem offset_le_of_decode (h : decode options { unread := bytes } = .ok c s) :
    s.offset ≤ bytes.length := by
  have hpast := (past_of_decode h).2
  have hbytes : bytes = c.layout ++ s.unread := hpast.unread
  rw [hpast.offset, hbytes, List.length_append, Nat.zero_add]
  exact Nat.le_add_right ..

theorem decode_take (h : decode options { unread := bytes } = .ok c s) {n : Nat}
    (hn : n < s.offset) :
    ∃ s', decode options { unread := bytes.take n } = .error .unexpectedEnd s' := by
  have hextends := decode_extends options (bytes.take n) (bytes.drop n)
  rw [List.take_append_drop, h] at hextends
  cases htake : decode options { unread := bytes.take n } with
  | ok c' s' =>
    -- then all of the bytes would be read as this class, and no more of them used up
    rw [htake] at hextends
    cases hextends
    have hle := offset_le_of_decode htake
    have hoffset : (s'.followedBy (bytes.drop n)).offset = s'.offset := rfl
    rw [List.length_take] at hle
    omega
  | error e s' =>
    rw [htake] at hextends
    rcases hextends with rfl | hextends
    · exact ⟨s', rfl⟩
    · cases hextends

/-- More bytes behind change neither the outcome nor what is known at the end, unless reading came to
the end of the bytes. So the bytes of a class that are cut short always end too early, and no bytes
that are used up by a class start with fewer bytes that are. -/
theorem decode_stable (options : Options) (bytes more : List UInt8) :
    (∀ c s, decode options { unread := bytes } = .ok c s →
      decode options { unread := bytes ++ more } = .ok c (s.followedBy more)) ∧
    (∀ e s, decode options { unread := bytes } = .error e s → e ≠ .unexpectedEnd →
      decode options { unread := bytes ++ more } = .error e (s.followedBy more)) ∧
    (∀ c s, decode options { unread := bytes } = .ok c s → ∀ n < s.offset,
      ∃ s', decode options { unread := bytes.take n } = .error .unexpectedEnd s') ∧
    (∀ c s c' s', decode options { unread := bytes } = .ok c s → s.offset = bytes.length →
      decode options { unread := bytes ++ more } = .ok c' s' →
        s'.offset = (bytes ++ more).length → more = []) := by
  have hextends := decode_extends options bytes more
  refine ⟨fun c s h => ?_, fun e s h he => ?_, fun c s h n hn => decode_take h hn,
    fun c s c' s' h hs h' hs' => ?_⟩
  · rw [h] at hextends
    exact hextends
  · rw [h] at hextends
    rcases hextends with rfl | hextends
    · exact absurd rfl he
    · exact hextends
  · rw [h, h'] at hextends
    cases hextends
    have hoffset : (s.followedBy more).offset = s.offset := rfl
    rw [hoffset, hs, List.length_append] at hs'
    exact List.eq_nil_of_length_eq_zero (by omega)

end ClassFile
end JavaClass

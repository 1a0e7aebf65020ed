import JavaClass.Proofs.Congruence
import JavaClass.Proofs.ReadInstruction

/-!
# Reading at another place

Where some bytes start does not matter for what is read from them: only differences of offsets are
ever looked at. A length is compared with the number of bytes between two offsets, and a switch is
aligned to the start of its code. So attributes and classes are read alike whatever was read before
them and whatever code is thought to start where, since code sets its start before its first
instruction; and a single instruction is read alike unless it is a switch whose position is another
one modulo four (`decode_relocated`).

`Cursor.Shifted` relates the cursors of two runs at different places. That all reading keeps it is a
`Decode.Congruence` in two variants: outside of code nothing is known about positions, inside they
agree modulo four.
-/

namespace JavaClass

namespace Cursor

/-- The number of bytes between the start of the code and the cursor. -/
def position (c : Cursor) : UInt64 :=
  UInt64.ofNat c.offset - c.codeStart

/-- The next instruction is a switch. -/
def AtSwitch (c : Cursor) : Prop :=
  c.unread.head? = some Opcode.tableswitch.byte ∨ c.unread.head? = some Opcode.lookupswitch.byte

theorem position_advance (c : Cursor) (n : Nat) (bytes : List UInt8) :
    (position { c with unread := bytes, offset := c.offset + n }).toNat % 4 =
      (c.position.toNat + n) % 4 := by
  have hsum : UInt64.ofNat (c.offset + n) - c.codeStart = c.position + UInt64.ofNat n := by
    rw [UInt64.ofNat_add, position]
    grind
  show (UInt64.ofNat (c.offset + n) - c.codeStart).toNat % 4 = _
  rw [hsum, UInt64.toNat_add, UInt64.toNat_ofNat']
  omega

/-- The same bytes are left in the same surroundings, and each run has come as far from its own
base. Where `aligned` holds, so do the positions in the code, modulo four. -/
structure Shifted (base base' : Nat) (aligned : Prop) (c c' : Cursor) : Prop where
  unread : c'.unread = c.unread
  depth : c'.depth = c.depth
  pool : c'.pool = c.pool
  offset : ∃ n, c.offset = base + n ∧ c'.offset = base' + n
  position : aligned → c'.position.toNat % 4 = c.position.toNat % 4

namespace Shifted

variable {base base' : Nat} {aligned aligned' : Prop} {c c' : Cursor}

theorem mono (h : Shifted base base' aligned c c') (ha : aligned' → aligned) :
    Shifted base base' aligned' c c' :=
  ⟨h.unread, h.depth, h.pool, h.offset, fun ha' => h.position (ha ha')⟩

theorem paddingAt_eq (h : Shifted base base' aligned c c') (ha : aligned) :
    Instruction.paddingAt c'.position = Instruction.paddingAt c.position := by
  have hposition := h.position ha
  rw [Instruction.paddingAt, Instruction.paddingAt, UInt64.toNat_mod, UInt64.toNat_mod]
  have hfour : UInt64.toNat 4 = 4 := rfl
  rw [hfour, hposition]

/-- As many bytes further on. -/
theorem advance (h : Shifted base base' aligned c c') (n : Nat) (bytes : List UInt8) :
    Shifted base base' aligned { c with unread := bytes, offset := c.offset + n }
      { c' with unread := bytes, offset := c'.offset + n } where
  unread := rfl
  depth := h.depth
  pool := h.pool
  offset := by
    obtain ⟨m, hm, hm'⟩ := h.offset
    exact ⟨m + n, by rw [hm, Nat.add_assoc], by rw [hm', Nat.add_assoc]⟩
  position ha := by
    have hposition := h.position ha
    rw [position_advance, position_advance]
    omega

end Shifted
end Cursor

namespace Decode

variable {α β : Type} {R R' : Cursor → Cursor → Prop} {base base' : Nat} {aligned : Prop}

/-- The same comes of both runs, and they end at cursors that `R` relates. -/
inductive Alike (R : Cursor → Cursor → Prop) : (r r' : EStateM.Result Error Cursor α) → Prop
  | ok {s s' : Cursor} (a : α) (h : R s s') : Alike R (.ok a s) (.ok a s')
  | error {s s' : Cursor} (e : Error) (h : R s s') : Alike R (.error e s) (.error e s')

namespace Alike

variable {r r' : EStateM.Result Error Cursor α}

theorem mono (h : Alike R r r') (hR : ∀ s s', R s s' → R' s s') : Alike R' r r' := by
  cases h with
  | ok a h => exact .ok a (hR _ _ h)
  | error e h => exact .error e (hR _ _ h)

theorem bind {d d' : Decode α} {f f' : α → Decode β} {c c' : Cursor} (h : Alike R (d c) (d' c'))
    (hf : ∀ a s s', d c = .ok a s → R s s' → Alike R (f a s) (f' a s')) :
    Alike R ((d >>= f) c) ((d' >>= f') c') := by
  generalize hr : d c = r, hr' : d' c' = r' at h
  cases h with
  | ok a h =>
    rw [bind_of_ok hr, bind_of_ok hr']
    exact hf a _ _ hr h
  | error e h =>
    rw [bind_of_error hr, bind_of_error hr']
    exact .error e h

theorem nested {d d' : Decode α} {c c' : Cursor}
    (h : Alike (Cursor.Shifted base base' aligned) (d { c with depth := c.depth + 1 })
      (d' { c' with depth := c'.depth + 1 })) :
    Alike (Cursor.Shifted base base' aligned) (Decode.nested d c) (Decode.nested d' c') := by
  have hleft {s s' : Cursor} (h : s.Shifted base base' aligned s') :
      Cursor.Shifted base base' aligned { s with depth := s.depth - 1 }
        { s' with depth := s'.depth - 1 } :=
    ⟨h.unread, congrArg (· - 1) h.depth, h.pool, h.offset, h.position⟩
  generalize hr : d { c with depth := c.depth + 1 } = r,
    hr' : d' { c' with depth := c'.depth + 1 } = r' at h
  cases h with
  | ok a h =>
    rw [nested_of_ok hr, nested_of_ok hr']
    exact .ok a (hleft h)
  | error e h =>
    rw [nested_of_error hr, nested_of_error hr']
    exact .error e (hleft h)

end Alike
section

variable (base base' : Nat)

/-- Runs at two places. -/
def shifting (aligned : Prop) : Congruence where
  rel d d' := ∀ c c', c.Shifted base base' aligned c' →
    Alike (Cursor.Shifted base base' aligned) (d c) (d' c')
  pure a _ _ h := .ok a h
  throw e _ _ _ h := .error e h
  bind h hf c c' hc := (h c c' hc).bind fun a s s' _ => hf a s s'
  bytes n c c' h := by
    by_cases hn : n ≤ c.unread.length
    · rw [bytes_of_le hn, bytes_of_le (h.unread ▸ hn), h.unread]
      exact .ok _ (h.advance n _)
    · have hlt := Nat.lt_of_not_le hn
      rw [bytes_of_lt hlt, bytes_of_lt (h.unread ▸ hlt)]
      exact .error _ ⟨rfl, h.depth, h.pool, h.offset, h.position⟩
  pool c c' h := by
    show Alike _ (.ok c.pool c) (.ok c'.pool c')
    rw [h.pool]
    exact .ok _ h
  report _ c c' h := .ok () ⟨h.unread, h.depth, h.pool, h.offset, h.position⟩
  reportOffset event _ _ hd c c' h :=
    hd _ _ ⟨h.unread, h.depth, h.pool, h.offset, h.position⟩

theorem shifting_padding {aligned : Prop} (ha : aligned) (op : Opcode) :
    (shifting base base' aligned).rel (Instruction.decodePadding op)
      (Instruction.decodePadding op) := by
  rw [Instruction.decodePadding_eq]
  intro c c' h
  have hzeros := (shifting base base' aligned).zeros op (Instruction.paddingAt c.position) c c' h
  show Alike _ (Instruction.decodeZeros op (Instruction.paddingAt c.position) c)
    (Instruction.decodeZeros op (Instruction.paddingAt c'.position) c')
  rwa [h.paddingAt_eq ha]

/-- At the start of its own code the position is zero in both runs. -/
theorem shifting_start {β : Type} {aligned : Prop} {e e' : Decode β}
    (h : (shifting base base' True).rel e e') :
    (shifting base base' aligned).rel
      (do modify fun c => { c with codeStart := UInt64.ofNat c.offset }; e)
      (do modify fun c => { c with codeStart := UInt64.ofNat c.offset }; e') := by
  intro c c' hc
  have hzero (c : Cursor) :
      Cursor.position { c with codeStart := UInt64.ofNat c.offset } = 0 := UInt64.sub_self _
  have hstart : Cursor.Shifted base base' True { c with codeStart := UInt64.ofNat c.offset }
      { c' with codeStart := UInt64.ofNat c'.offset } :=
    ⟨hc.unread, hc.depth, hc.pool, hc.offset, fun _ => by rw [hzero, hzero]⟩
  have hcode := h _ _ hstart
  exact hcode.mono fun _ _ hs => hs.mono fun _ => trivial

theorem shifting_code (aligned : Prop) :
    (shifting base base' aligned).rel CodeBlock.decodeCode CodeBlock.decodeCode :=
  (shifting base base' aligned).decodeCode_of_start (shifting_padding base base' trivial)
    fun h => shifting_start base base' h

/-- A length is measured between two offsets, which have the same distance in both runs. -/
theorem shifting_measured {aligned : Prop} (kind : Attribute.Kind) (length : UInt32)
    {d d' : Decode Attribute} (h : (shifting base base' aligned).rel d d') :
    (shifting base base' aligned).rel (Attribute.decodeMeasured kind length d)
      (Attribute.decodeMeasured kind length d') := by
  rw [Attribute.decodeMeasured_eq, Attribute.decodeMeasured_eq]
  intro c c' hc
  have hnested : Alike (Cursor.Shifted base base' aligned) (nested d c) (nested d' c') :=
    .nested (h _ _ ⟨hc.unread, congrArg (· + 1) hc.depth, hc.pool, hc.offset, hc.position⟩)
  refine hnested.bind fun a s s' _ hs => ?_
  have hlength : s'.offset - c'.offset = s.offset - c.offset := by
    obtain ⟨n, hn, hn'⟩ := hc.offset
    obtain ⟨m, hm, hm'⟩ := hs.offset
    omega
  have hcompared := (shifting base base' aligned).compared kind length a
    (s.offset - c.offset) s s' hs
  show Alike _ (Attribute.decodeCompared kind length a (s.offset - c.offset) s)
    (Attribute.decodeCompared kind length a (s'.offset - c'.offset) s')
  rwa [hlength]

/-- Nothing that attributes and constants do beside reading depends on the place. -/
def shiftingClass (aligned : Prop) : ClassFile.Congruence where
  toCongruence := shifting base base' aligned
  tooDeep _ _ _ h := .error _ h
  code := shifting_code base base' aligned
  measured kind length _ _ h := shifting_measured base base' kind length h
  depth {_ f f'} h c c' hc := by
    show Alike _ (f c.depth c) (f' c'.depth c')
    rw [hc.depth]
    exact h c.depth c c' hc
  addConstant k _ _ h :=
    .ok () ⟨h.unread, h.depth, congrArg (·.push k) h.pool, h.offset, h.position⟩

theorem shifting_instruction {aligned : Prop} {c c' : Cursor}
    (h : c.Shifted base base' aligned c') (hswitch : c.AtSwitch → aligned) :
    Alike (Cursor.Shifted base base' aligned) (Instruction.decode c) (Instruction.decode c') := by
  have hbyte := (shifting base base' aligned).u8 c c' h
  refine hbyte.bind fun byte s s' hread hs => ?_
  obtain ⟨_, rfl, hpast⟩ := (reads_u8 c).sound hread
  have hhead : c.unread.head? = some byte := by
    rw [hpast.unread, Layout.u8_eq]
    rfl
  cases hop : Opcode.ofByte? byte with
  | none => exact .error _ hs
  | some op =>
    obtain rfl := Opcode.ofByte?_eq_some.mp hop
    have hpadding (hform : op.form = .tableSwitch ∨ op.form = .lookupSwitch) (op' : Opcode) :
        (shifting base base' aligned).rel (Instruction.decodePadding op')
          (Instruction.decodePadding op') := by
      refine shifting_padding base base' (hswitch ?_) op'
      rcases hform with hform | hform
      · obtain rfl : op = .tableswitch := Opcode.eq_of_form (by rw [hform]; rfl)
        exact .inl hhead
      · obtain rfl : op = .lookupswitch := Opcode.eq_of_form (by rw [hform]; rfl)
        exact .inr hhead
    exact (shifting base base' aligned).operands op hpadding s s' hs

end

/-- The same comes of `d` at both cursors, from as many bytes. -/
structure SameFrom (d : Decode α) (c c' : Cursor) : Prop where
  result : (outcome d c').1 = (outcome d c).1
  unread : (outcome d c').2.unread = (outcome d c).2.unread
  pool : (outcome d c').2.pool = (outcome d c).2.pool
  consumed : ∃ n, (outcome d c).2.offset = c.offset + n ∧ (outcome d c').2.offset = c'.offset + n

theorem Alike.sameFrom {d : Decode α} {c c' : Cursor}
    (h : Alike (Cursor.Shifted c.offset c'.offset aligned) (d c) (d c')) : SameFrom d c c' := by
  generalize hr : d c = r, hr' : d c' = r' at h
  cases h with
  | ok a h =>
    have hc := outcome_of_ok hr
    have hc' := outcome_of_ok hr'
    exact ⟨by rw [hc, hc'], by rw [hc, hc', h.unread], by rw [hc, hc', h.pool],
      by rw [hc, hc']; exact h.offset⟩
  | error e h =>
    have hc := outcome_of_error hr
    have hc' := outcome_of_error hr'
    exact ⟨by rw [hc, hc'], by rw [hc, hc', h.unread], by rw [hc, hc', h.pool],
      by rw [hc, hc']; exact h.offset⟩

/-- Attributes and classes are read in the same way wherever they are and whatever code is thought
to start where. So is an instruction, if it is not a switch or its position is the same modulo
four. -/
theorem decode_relocated (options : Options) (c : Cursor) (offset : Nat) (codeStart : UInt64)
    (events : Array Event) :
    let c' : Cursor := { c with offset, codeStart, events }
    SameFrom (Attribute.decode options) c c' ∧ SameFrom (ClassFile.decode options) c c' ∧
      ((c.AtSwitch → c'.position % 4 = c.position % 4) → SameFrom Instruction.decode c c') := by
  intro c'
  have hshifted (aligned : Prop) (ha : aligned → c'.position % 4 = c.position % 4) :
      c.Shifted c.offset c'.offset aligned c' := by
    refine ⟨rfl, rfl, rfl, ⟨0, rfl, rfl⟩, fun h => ?_⟩
    have hposition := congrArg UInt64.toNat (ha h)
    rw [UInt64.toNat_mod, UInt64.toNat_mod] at hposition
    exact hposition
  refine ⟨?_, ?_, fun hposition => ?_⟩
  · exact ((shiftingClass _ _ False).attributeDecode c c' (hshifted False nofun)).sameFrom
  · exact ((shiftingClass _ _ False).classDecode c c' (hshifted False nofun)).sameFrom
  · exact (shifting_instruction _ _ (hshifted c.AtSwitch hposition) id).sameFrom

end Decode
end JavaClass

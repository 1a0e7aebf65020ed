import JavaClass.Proofs.Encodable
import JavaClass.Proofs.Positions
import JavaClass.Proofs.Relocation

/-!
# Round trips of single instructions

An instruction that is read, wherever that is, is written as the very bytes it was read from
(`Instruction.exact_of_decode`). The form of a byte, the length of the operands, their reading and
their writing are all defined apart from each other, and here they are seen to agree. So nothing is
lost: `iload_0`, `iload 0` and `wide iload 0` are three instructions, and what has to be zero, in a
padding or elsewhere, is not free.

Conversely, a switch that can be written is read again wherever its padding is right, with one
exception (`Instruction.decode_written_switch`). Writing compares the number of offsets with the
range, so a table of no offsets passes if `low` is one more than `high`; reading refuses every range
that is empty.
-/

namespace JavaClass

open Decode

/-- The position may lie before the start of the code, too. -/
theorem Cursor.inCode_position (c : Cursor) : c.InCode c.position.toNat :=
  UInt64.ofNat_toNat.symm

namespace Instruction

variable {c c' : Cursor} {i : Instruction} {padding : UInt8} {fallback low high : Int32}
  {offsets : List Int32}

theorem past_of_decode (h : decode c = .ok i c') :
    (i.Fits ∧ i.Regular) ∧ c.Past Cursor.context i.layout c' := by
  obtain ⟨_, ⟨hfits, hregular, -, rfl⟩, hpast⟩ := (reads_decode c.inCode_position).sound h
  exact ⟨⟨hfits, hregular⟩, hpast⟩

theorem layout_eq_cons (i : Instruction) : i.layout = i.opcode.byte :: i.operands := by
  rw [layout, Layout.u8_eq, List.singleton_append]

/-- Where the form alone says how long the operands are, they are as long as that. -/
theorem operandLength_of_shape {n : Nat} (h : i.form.shape.operandLength? = some n) :
    i.operandLength = n := by
  cases i <;> cases h <;> rfl

/-! ### From bytes to an instruction -/

/-- An instruction that is read is written as the bytes it was read from, in any sink, and is as
long as these. No other bytes are read as this instruction, here or elsewhere. -/
theorem exact_of_decode (c c' : Cursor) (i : Instruction) (h : decode c = .ok i c') :
    ∃ byte operands, c.unread = byte :: operands ++ c'.unread ∧
      c'.offset = c.offset + (byte :: operands).length ∧
      i.encode = Encode.bytes (byte :: operands) ∧ i.size = (byte :: operands).length ∧
      i.operandBytes = .ok operands ∧ i.opcode.byte = byte ∧
      (∀ n, (Opcode.formOf byte).shape.operandLength? = some n → i.operandLength = n) ∧
      ∀ d d' bs, decode d = .ok i d' → d.unread = bs ++ d'.unread → bs = byte :: operands := by
  obtain ⟨⟨hfits, hregular⟩, hpast⟩ := past_of_decode h
  have hlength := i.length_layout
  have hencode := i.writes_encode.of_fits hfits
  have hoffset := hpast.offset
  have hunread := hpast.unread
  rw [layout_eq_cons] at hlength hencode hoffset hunread
  refine ⟨i.opcode.byte, i.operands, hunread, hoffset, hencode, hlength.symm, ?_, rfl, ?_, ?_⟩
  · exact i.writes_encodeOperands.run_eq_ok_iff.mpr ⟨hfits, rfl⟩
  · intro n hn
    have hform : Opcode.formOf i.opcode.byte = i.form := hregular.form_opcode
    rw [hform] at hn
    exact operandLength_of_shape hn
  · intro d d' bs hd hbs
    have hlayout := (past_of_decode hd).2.unread
    rw [hbs, layout_eq_cons] at hlayout
    exact List.append_cancel_right hlayout

/-- The code is thought to start three bytes further on. -/
def beforeStart : Cursor where
  unread := [0xab, 0, 0, 0, 0, 0, 7, 0, 0, 0, 1, 0xff, 0xff, 0xff, 0xff, 0, 0, 0, 9, 0xb1]
  offset := 5
  codeStart := 8

theorem exact_of_decode_beforeStart : ∃ c',
    decode beforeStart = .ok (lookupSwitch 2 7 [(-1, 9)]) c' ∧ c'.unread = [0xb1] ∧
      (lookupSwitch 2 7 [(-1, 9)]).encode = Encode.bytes (beforeStart.unread.take 19) ∧
      c'.offset = 24 := by
  have hread : ∃ c', decode beforeStart = .ok (lookupSwitch 2 7 [(-1, 9)]) c' ∧
      c'.unread = [0xb1] := ⟨_, rfl, rfl⟩
  obtain ⟨c', hread, hrest⟩ := hread
  obtain ⟨byte, operands, hunread, hoffset, hencode, hsize, -⟩ := exact_of_decode _ _ _ hread
  have hlength : (byte :: operands).length = 19 := hsize.symm
  have hbytes : beforeStart.unread.take 19 = byte :: operands := by
    rw [hunread, List.take_left' hlength]
  refine ⟨c', hread, hrest, ?_, ?_⟩
  · rw [hencode, hbytes]
  · rw [hoffset, hlength]
    rfl

/-! ### From a switch to bytes -/

theorem alignedAt_of_padding (hswitch : i.padding? = some padding)
    (haligned : padding.toNat = paddingAt (c.position + 1)) : i.AlignedAt c.position.toNat := by
  have hnext : c.position + 1 = UInt64.ofNat (c.position.toNat + 1) := by
    rw [UInt64.ofNat_add, UInt64.ofNat_toNat]
    rfl
  rw [hnext, paddingAt_ofNat] at haligned
  exact (alignedAt_iff hswitch).mpr haligned

/-- Among the switches that can be written, only a table of no offsets has an empty range. -/
theorem regular_switch_iff (hfits : i.Fits) (hswitch : i.padding? = some padding) :
    i.Regular ↔ ∀ fallback low high, i ≠ tableSwitch padding fallback low high [] := by
  cases i with
  | tableSwitch padding' fallback low high offsets =>
    cases hswitch
    have hrange : high.toInt - low.toInt + 1 = offsets.length := hfits
    rw [Regular, Int32.le_iff_toInt_le]
    constructor
    · rintro hle _ _ _ ⟨⟩
      rw [List.length_nil] at hrange
      omega
    · intro hne
      have hoffsets : offsets ≠ [] := by
        rintro rfl
        exact hne fallback low high rfl
      have := List.length_pos_iff.mpr hoffsets
      omega
  | lookupSwitch padding' fallback pairs =>
    refine iff_of_true trivial fun _ _ _ h => ?_
    cases h
  | _ => cases hswitch

theorem decodeTableSwitch_empty {position : Nat} {rest : List UInt8} (hc : c.InCode position)
    (hpadding : padding.toNat = (4 - position % 4) % 4) (hrange : high < low)
    (hunread : c.unread = (List.replicate padding.toNat 0 ++
      (Layout.i32 fallback ++ (Layout.i32 low ++ Layout.i32 high))) ++ rest) :
    ∃ c', decodeTableSwitch c =
      .error (.malformedInstruction Opcode.tableswitch.byte (.emptyRange low high)) c' := by
  simp only [List.append_assoc] at hunread
  obtain ⟨c₁, hread₁, hunread₁⟩ := (reads_decodePadding hc _).complete ⟨hpadding, rfl⟩ hunread
  obtain ⟨c₂, hread₂, hunread₂⟩ := (reads_i32 c₁).complete rfl hunread₁
  obtain ⟨c₃, hread₃, hunread₃⟩ := (reads_i32 c₂).complete rfl hunread₂
  obtain ⟨c₄, hread₄, -⟩ := (reads_i32 c₃).complete rfl hunread₃
  refine ⟨c₄, ?_⟩
  rw [decodeTableSwitch, bind_of_ok hread₁, bind_of_ok hread₂, bind_of_ok hread₃,
    bind_of_ok hread₄, if_pos hrange]
  rfl

/-- Where the padding is right, a switch that can be written is read again from what was written.
Only a table of no offsets is not. It is written if `low` is one more than `high`, and then
reading fails because the range is empty. -/
theorem decode_written_switch (i : Instruction) (padding : UInt8) (c : Cursor)
    (bs rest : List UInt8) (hswitch : i.padding? = some padding)
    (haligned : padding.toNat = paddingAt (c.position + 1)) (hwritten : i.encode.run = .ok bs)
    (hc : c.unread = bs ++ rest) :
    ((∀ fallback low high, i ≠ tableSwitch padding fallback low high []) →
      ∃ c', decode c = .ok i c' ∧ c'.unread = rest ∧ c'.offset = c.offset + bs.length) ∧
    ∀ fallback low high, i = tableSwitch padding fallback low high [] →
      low.toInt = high.toInt + 1 ∧ ∃ c', decode c =
        .error (.malformedInstruction Opcode.tableswitch.byte (.emptyRange low high)) c' := by
  obtain ⟨hfits, rfl⟩ := i.writes_encode.run_eq_ok_iff.mp hwritten
  have haligned := alignedAt_of_padding hswitch haligned
  constructor
  · intro hoffsets
    have hregular := (regular_switch_iff hfits hswitch).mpr hoffsets
    obtain ⟨c', hread, hrest, hpast⟩ :=
      (reads_decode c.inCode_position).exists_past ⟨hfits, hregular, haligned, rfl⟩ hc
    exact ⟨c', hread, hrest, hpast.offset⟩
  · rintro fallback low high rfl
    have hrange : high.toInt - low.toInt + 1 = 0 := hfits
    have hlt : high < low := Int32.lt_iff_toInt_lt.mpr (by omega)
    rw [layout, List.append_assoc] at hc
    obtain ⟨c₁, hread, hunread, hpast⟩ := (reads_u8 c).exists_past rfl hc
    have hoperands : operands (tableSwitch padding fallback low high []) =
        List.replicate padding.toNat 0 ++
          (Layout.i32 fallback ++ (Layout.i32 low ++ Layout.i32 high)) := by
      rw [operands, List.flatMap_nil, List.append_nil]
    rw [hoperands] at hunread
    obtain ⟨c', hfailed⟩ := decodeTableSwitch_empty (c.inCode_position.past hpast) haligned hlt
      hunread
    refine ⟨by omega, c', ?_⟩
    rw [decode, bind_of_ok hread]
    exact hfailed

/-- A table for the least of all numbers. -/
def leastTable : Instruction :=
  tableSwitch 2 7 Int32.minValue Int32.minValue [9]

/-- A table for no number, as at the start of some code. -/
def emptyTable : Instruction :=
  tableSwitch 3 16 1 0 []

theorem decode_written_switch_tables :
    (∃ c', decode { beforeStart with unread := leastTable.layout ++ [0xb1] } = .ok leastTable c' ∧
      c'.unread = [0xb1] ∧ c'.offset = 24) ∧
    ∃ c', decode { unread := emptyTable.layout ++ [0xb1] } =
      .error (.malformedInstruction Opcode.tableswitch.byte (.emptyRange 1 0)) c' := by
  have hleast : leastTable.encode.run = .ok leastTable.layout :=
    leastTable.writes_encode.run_eq_ok_iff.mpr ⟨by decide, rfl⟩
  have hempty : emptyTable.encode.run = .ok emptyTable.layout :=
    emptyTable.writes_encode.run_eq_ok_iff.mpr ⟨by decide, rfl⟩
  obtain ⟨hread, -⟩ := decode_written_switch leastTable 2
    { beforeStart with unread := leastTable.layout ++ [0xb1] } _ [0xb1] rfl rfl hleast rfl
  obtain ⟨-, hfailed⟩ := decode_written_switch emptyTable 3
    { unread := emptyTable.layout ++ [0xb1] } _ [0xb1] rfl rfl hempty rfl
  exact ⟨hread nofun, (hfailed _ _ _ rfl).2⟩

/-- Being written and standing where the padding is right is not enough for being read again. -/
theorem not_forall_decode_written : ¬ ∀ (i : Instruction) (padding : UInt8) (c : Cursor)
    (bs rest : List UInt8), i.padding? = some padding →
      padding.toNat = paddingAt (c.position + 1) → i.encode.run = .ok bs →
        c.unread = bs ++ rest → ∃ c', decode c = .ok i c' ∧ c'.unread = rest := by
  intro h
  have hwritten : emptyTable.encode.run = .ok emptyTable.layout := rfl
  obtain ⟨c', hread, -⟩ := h emptyTable 3 { unread := emptyTable.layout ++ [] } _ [] rfl rfl
    hwritten rfl
  cases hread

end Instruction
end JavaClass

import JavaClass.ClassFile.Codec
import JavaClass.Proofs.Reading
import JavaClass.Proofs.WellFormed
import Mathlib.Tactic.Simproc.ExistsAndEq

/-!
# Reading instructions

`Instruction.reads_decode`: at a position of the code, just those instructions are read that fit, are
regular, and are aligned there, each from its layout. The position comes in only through the padding
of a switch (`reads_decodePadding`), which is as long as the cursor says, whatever the bytes are.
-/

namespace JavaClass

open Decode

/-- The cursor stands at a position of the code, as far as 64 bits can tell. -/
def Cursor.InCode (c : Cursor) (position : Nat) : Prop :=
  UInt64.ofNat c.offset - c.codeStart = UInt64.ofNat position

theorem Cursor.InCode.past {c c' : Cursor} {position : Nat} {bs : List UInt8}
    (h : c.InCode position) (hpast : c.Past Cursor.context bs c') :
    c'.InCode (position + bs.length) := by
  have hstart : c'.codeStart = c.codeStart := congrArg (·.2.2) hpast.kept
  rw [InCode, hstart, hpast.offset, UInt64.ofNat_add, UInt64.ofNat_add, ← h]
  grind

/-! ### Opcodes and forms -/

/-- The one byte of this form, if there is only one. -/
def Opcode.Form.byte? : Form → Option UInt8
  | pushByte => some bipush.byte
  | pushShort => some sipush.byte
  | loadConstant => some ldc.byte
  | increment => some iinc.byte
  | invokeInterface => some invokeinterface.byte
  | invokeDynamic => some invokedynamic.byte
  | newArray => some newarray.byte
  | multiNewArray => some multianewarray.byte
  | tableSwitch => some tableswitch.byte
  | lookupSwitch => some lookupswitch.byte
  | wide => some Opcode.wide.byte
  | _ => none

theorem Opcode.byte_of_formOf (byte : UInt8) :
    (formOf byte).byte? = none ∨ (formOf byte).byte? = some byte := by
  have hall : ∀ n < 256, (formOf (UInt8.ofNat n)).byte? = none ∨
      (formOf (UInt8.ofNat n)).byte? = some (UInt8.ofNat n) := by decide +kernel
  have := hall byte.toNat byte.toNat_lt
  rwa [UInt8.ofNat_toNat] at this

theorem Opcode.eq_of_form {op op' : Opcode} (hop : op.form.byte? = some op'.byte) : op = op' := by
  obtain ⟨byte, h⟩ := op
  obtain ⟨byte', h'⟩ := op'
  have hbyte : byte = byte' := by
    rcases byte_of_formOf byte with hnone | hsome
    · rw [form, hnone] at hop
      cases hop
    · rw [form, hsome] at hop
      exact Option.some.inj hop
  subst hbyte
  rfl

theorem Opcode.ofByte?_eq_some {byte : UInt8} {op : Opcode} :
    ofByte? byte = some op ↔ op.byte = byte := by
  obtain ⟨b, h⟩ := op
  rw [ofByte?]
  split
  · rw [Option.some.injEq, mk.injEq, eq_comm]
  · next hb => exact ⟨nofun, by rintro rfl; exact absurd h hb⟩

namespace Instruction

/-- The form of the opcode that goes with these operands. -/
def form : Instruction → Opcode.Form
  | plain _ => .plain
  | implicit .. => .implicit
  | pushByte _ => .pushByte
  | pushShort _ => .pushShort
  | loadConstant _ => .loadConstant
  | loadConstantWide .. => .loadConstantWide
  | localVariable .. => .localVariable
  | increment .. => .increment
  | branch .. => .branch
  | branchWide .. => .branchWide
  | constantRef .. => .constantRef
  | invokeInterface .. => .invokeInterface
  | invokeDynamic _ => .invokeDynamic
  | newArray _ => .newArray
  | multiNewArray .. => .multiNewArray
  | tableSwitch .. => .tableSwitch
  | lookupSwitch .. => .lookupSwitch
  | wideLocal .. | wideIncrement .. => .wide

theorem form_of_implicitValue? {op : Opcode} {value : Opcode.ImplicitValue}
    (h : op.implicitValue? = some value) : op.form = .implicit := by
  rcases Decidable.em (op.form = .implicit) with hform | hform
  · exact hform
  · rw [Opcode.implicitValue?, if_pos hform] at h
    cases h

theorem Regular.form_opcode {i : Instruction} (h : i.Regular) : i.opcode.form = i.form := by
  cases i with
  | implicit op value => exact form_of_implicitValue? h
  | plain op => exact h
  | loadConstantWide op index => exact h
  | localVariable op index => exact h
  | branch op offset => exact h
  | branchWide op offset => exact h
  | constantRef op index => exact h
  | _ => rfl

/-! ### The operands of switches -/

theorem paddingAt_ofNat (position : Nat) :
    paddingAt (UInt64.ofNat position) = (4 - position % 4) % 4 := by
  have hmod : 2 ^ 64 % 4 = 0 := by decide
  rw [paddingAt, UInt64.toNat_mod, UInt64.toNat_ofNat']
  show (4 - position % 2 ^ 64 % 4) % 4 = _
  rw [Nat.mod_mod_of_dvd _ (Nat.dvd_of_mod_eq_zero hmod)]

/-- The padding is determined by the position, and all of it is zero. -/
theorem reads_decodePadding {c : Cursor} {position : Nat}
    (hc : c.InCode position) (op : Opcode) :
    ReadsAt Cursor.context c (decodePadding op) fun padding bs =>
      padding.toNat = (4 - position % 4) % 4 ∧ bs = List.replicate padding.toNat 0 := by
  have hpadding : paddingAt (UInt64.ofNat c.offset - c.codeStart) = (4 - position % 4) % 4 := by
    rw [hc, paddingAt_ofNat]
  refine ReadsAt.get_bind ?_
  show ReadsAt _ _ (Decode.times (paddingAt _) Decode.u8 >>= _) _
  rw [hpadding]
  generalize hn : (4 - position % 4) % 4 = n
  have hsmall : (UInt8.ofNat n).toNat = n := UInt8.toNat_ofNat_of_lt' (show n < 256 by omega)
  refine ((reads_times_of_forall reads_u8 n c).bind
    (S := fun zeros padding bs => (∀ b ∈ zeros, b = 0) ∧ padding = UInt8.ofNat n ∧ bs = [])
    fun zeros _ c _ _ => ?_).congr fun padding bs => ?_
  · split
    · next hzeros =>
      have hall : ∀ b ∈ zeros, b = 0 := by simpa using hzeros
      exact (ReadsAt.pure _).congr fun padding bs => by rw [and_iff_right hall]
    · next at_ hzeros =>
      have hsome : ¬ ∀ b ∈ zeros, b = 0 := by
        intro hall
        have : zeros.findIdx? (· ≠ 0) = none := by simpa using hall
        rw [this] at hzeros
        cases hzeros
      refine (ReadsAt.offset_bind ((reads_report _ c).bind fun _ _ c _ _ => .throw _)).congr
        fun padding bs => ?_
      simp [Then, hsome]
  · constructor
    · rintro ⟨zeros, _, _, ⟨hlength, rfl⟩, ⟨hall, rfl, rfl⟩, rfl⟩
      rw [hsmall, Layout.flatMap_u8, List.append_nil]
      exact ⟨rfl, List.eq_replicate_iff.mpr ⟨hlength, hall⟩⟩
    · rintro ⟨hlength, rfl⟩
      have hzeros : ∀ b ∈ List.replicate padding.toNat (0 : UInt8), b = 0 :=
        fun b hb => (List.mem_replicate.mp hb).2
      refine ⟨_, _, [], ⟨?_, rfl⟩, ⟨hzeros, ?_, rfl⟩, ?_⟩
      · rw [List.length_replicate, hlength]
      · rw [← hlength, UInt8.ofNat_toNat]
      · rw [Layout.flatMap_u8, List.append_nil]

/-! ### Operands -/

/-- Behind the opcode `op` at `position`, the operands of `i` are read from `bs`. -/
def ReadFrom (op : Opcode) (position : Nat) (i : Instruction) (bs : List UInt8) : Prop :=
  i.opcode = op ∧ i.Fits ∧ i.Regular ∧ i.AlignedAt position ∧ bs = i.operands

/-- Only operands of the right form come into question. -/
theorem readFrom_iff {op : Opcode} {position : Nat} {i : Instruction} {bs : List UInt8} :
    ReadFrom op position i bs ↔ i.form = op.form ∧ ReadFrom op position i bs := by
  refine (and_iff_right_of_imp ?_).symm
  rintro ⟨rfl, -, hregular, -⟩
  exact hregular.form_opcode.symm

theorem reads_decodeImplicit (op : Opcode) (c : Cursor) :
    ReadsAt Cursor.context c (decodeImplicit op) fun i bs =>
      ∃ value, i = implicit op value ∧ op.implicitValue? = some value ∧ bs = [] := by
  rw [decodeImplicit]
  split
  · next value hvalue =>
    exact (ReadsAt.pure (implicit op value)).congr fun i bs => by simp [hvalue]
  · next hnone => exact (ReadsAt.throw _).congr fun i bs => by simp [hnone]

/-- The last byte has to be zero. -/
theorem reads_decodeInvokeInterface (c : Cursor) :
    ReadsAt Cursor.context c decodeInvokeInterface fun i bs =>
      ∃ index count, i = invokeInterface index count ∧ bs = i.operands := by
  refine ((reads_u16 c).bind fun index _ c _ _ => (reads_u8 c).bind fun count _ c _ _ =>
    (reads_u8 c).bind fun last _ c _ _ => .check _ (.pure _)).congr fun i bs => ?_
  constructor
  · rintro ⟨index, _, _, rfl, ⟨count, _, _, rfl, ⟨last, _, _, rfl, ⟨hlast, rfl, rfl⟩, rfl⟩, rfl⟩, rfl⟩
    obtain rfl := Decidable.not_not.mp hlast
    exact ⟨index, count, rfl, by simp [operands]⟩
  · rintro ⟨index, count, rfl, rfl⟩
    simp [Then, operands]

theorem reads_decodeInvokeDynamic (c : Cursor) :
    ReadsAt Cursor.context c decodeInvokeDynamic fun i bs =>
      ∃ index, i = invokeDynamic index ∧ bs = i.operands := by
  refine ((reads_u16 c).bind fun index _ c _ _ => (reads_u16 c).bind fun last _ c _ _ =>
    .check _ (.pure _)).congr fun i bs => ?_
  constructor
  · rintro ⟨index, _, _, rfl, ⟨last, _, _, rfl, ⟨hlast, rfl, rfl⟩, rfl⟩, rfl⟩
    obtain rfl := Decidable.not_not.mp hlast
    exact ⟨index, rfl, by simp [operands]⟩
  · rintro ⟨index, rfl, rfl⟩
    simp [Then, operands]

theorem ofCode?_eq_some {n : UInt8} {t : ArrayType} : ArrayType.ofCode? n = some t ↔ t.code = n := by
  constructor
  · intro h
    simpa using List.find?_some h
  · rintro rfl
    cases t <;> rfl

theorem reads_decodeNewArray (c : Cursor) :
    ReadsAt Cursor.context c decodeNewArray fun i bs =>
      ∃ element, i = newArray element ∧ bs = Layout.u8 element.code := by
  refine ((reads_u8 c).bind (S := fun n i bs => ∃ element : ArrayType, element.code = n ∧
    i = newArray element ∧ bs = []) fun n _ c _ _ => ?_).congr fun i bs => ?_
  · split
    · next element helement =>
      refine (ReadsAt.pure (newArray element)).congr fun i bs => ?_
      constructor
      · rintro ⟨rfl, rfl⟩
        exact ⟨element, ofCode?_eq_some.mp helement, rfl, rfl⟩
      · rintro ⟨element', hcode, rfl, rfl⟩
        rw [← ofCode?_eq_some, helement, Option.some.injEq] at hcode
        rw [hcode]
        exact ⟨rfl, rfl⟩
    · next hnone =>
      refine (ReadsAt.throw _).congr fun i bs => iff_of_false not_false ?_
      rintro ⟨element, hcode, -⟩
      rw [← ofCode?_eq_some, hnone] at hcode
      cases hcode
  · constructor
    · rintro ⟨_, _, _, rfl, ⟨element, rfl, rfl, rfl⟩, rfl⟩
      exact ⟨element, rfl, List.append_nil _⟩
    · rintro ⟨element, rfl, rfl⟩
      exact ⟨_, _, [], rfl, ⟨element, rfl, rfl, rfl⟩, (List.append_nil _).symm⟩

theorem reads_decodeTableSwitch {c : Cursor} {position : Nat}
    (hc : c.InCode (position + 1)) :
    ReadsAt Cursor.context c decodeTableSwitch fun i bs =>
      ∃ padding fallback low high offsets, i = tableSwitch padding fallback low high offsets ∧
        i.Fits ∧ i.Regular ∧ i.AlignedAt position ∧ bs = i.operands := by
  refine ((reads_decodePadding hc _).bind fun padding _ c _ _ =>
    (reads_i32 c).bind fun fallback _ c _ _ => (reads_i32 c).bind fun low _ c _ _ =>
    (reads_i32 c).bind fun high _ c _ _ => .check _ ((reads_times_of_forall reads_i32 _ c).map
      (tableSwitch padding fallback low high))).congr fun i bs => ?_
  constructor
  · rintro ⟨padding, _, _, ⟨hpadding, rfl⟩, ⟨fallback, _, _, rfl, ⟨low, _, _, rfl,
      ⟨high, _, _, rfl, ⟨hrange, offsets, rfl, hlength, rfl⟩, rfl⟩, rfl⟩, rfl⟩, rfl⟩
    have hle : low ≤ high := Int32.not_lt.mp hrange
    refine ⟨padding, fallback, low, high, offsets, rfl, ?_, hle, hpadding, rfl⟩
    have := Int32.le_iff_toInt_le.mp hle
    rw [Fits, hlength, rangeSize]
    omega
  · rintro ⟨padding, fallback, low, high, offsets, rfl, hfits, hle, hpadding, rfl⟩
    have hlength : offsets.length = (rangeSize low high).toNat := by
      rw [rangeSize, hfits, Int.toNat_natCast]
    exact ⟨padding, _, _, ⟨hpadding, rfl⟩, ⟨fallback, _, _, rfl, ⟨low, _, _, rfl, ⟨high, _, _, rfl,
      ⟨Int32.not_lt.mpr hle, offsets, rfl, hlength, rfl⟩, rfl⟩, rfl⟩, rfl⟩, rfl⟩

private theorem ofNat_toNat_of_nonneg {n : Int32} (h : ¬ n < 0) :
    UInt32.ofNat n.toInt.toNat = n.toUInt32 := by
  have hle : 0 ≤ n := Int32.not_lt.mp h
  rw [Int32.toNat_toInt, ← Int32.toNat_toUInt32_of_le hle, UInt32.ofNat_toNat]

private theorem ofNat_nonneg {n : Nat} (h : n ≤ 0x7fffffff) :
    ¬ Int32.ofNat n < 0 ∧ (Int32.ofNat n).toInt.toNat = n := by
  have hint : (Int32.ofNat n).toInt = n := Int32.toInt_ofNat_of_lt (Nat.lt_succ_of_le h)
  refine ⟨Int32.not_lt.mpr (Int32.le_iff_toInt_le.mpr ?_), ?_⟩
  · rw [hint]
    exact Int.natCast_nonneg n
  · rw [hint, Int.toNat_natCast]

theorem reads_decodeLookupSwitch {c : Cursor} {position : Nat}
    (hc : c.InCode (position + 1)) :
    ReadsAt Cursor.context c decodeLookupSwitch fun i bs =>
      ∃ padding fallback pairs, i = lookupSwitch padding fallback pairs ∧
        i.Fits ∧ i.AlignedAt position ∧ bs = i.operands := by
  have hpair (c : Cursor) : ReadsAt Cursor.context c (do return (← Decode.i32, ← Decode.i32))
      fun pair bs => bs = Layout.i32 pair.1 ++ Layout.i32 pair.2 := by
    refine (reads_both reads_i32 reads_i32 Prod.mk c).congr fun pair bs => ?_
    constructor
    · rintro ⟨key, offset, rfl, rfl⟩
      rfl
    · exact fun h => ⟨pair.1, pair.2, rfl, h⟩
  refine ((reads_decodePadding hc _).bind fun padding _ c _ _ =>
    (reads_i32 c).bind fun fallback _ c _ _ => (reads_i32 c).bind fun count _ c _ _ =>
    .check _ ((reads_times_of_forall hpair _ c).map
      (lookupSwitch padding fallback))).congr fun i bs => ?_
  constructor
  · rintro ⟨padding, _, _, ⟨hpadding, rfl⟩, ⟨fallback, _, _, rfl, ⟨count, _, _, rfl,
      ⟨hcount, pairs, rfl, hlength, rfl⟩, rfl⟩, rfl⟩, rfl⟩
    have hstored : UInt32.ofNat pairs.length = count.toUInt32 := by
      rw [hlength, ofNat_toNat_of_nonneg hcount]
    refine ⟨padding, fallback, pairs, rfl, ?_, hpadding, ?_⟩
    · rw [Fits, hlength]
      exact Nat.le_of_lt_succ count.toNatClampNeg_lt
    · rw [operands, hstored]
      rfl
  · rintro ⟨padding, fallback, pairs, rfl, hfits, hpadding, rfl⟩
    obtain ⟨hcount, hlength⟩ := ofNat_nonneg hfits
    exact ⟨padding, _, _, ⟨hpadding, rfl⟩, ⟨fallback, _, _, rfl, ⟨Int32.ofNat pairs.length, _, _, rfl,
      ⟨hcount, pairs, rfl, hlength.symm, rfl⟩, rfl⟩, rfl⟩, rfl⟩

theorem reads_decodeWide (c : Cursor) :
    ReadsAt Cursor.context c decodeWide fun i bs =>
      i.form = .wide ∧ i.Regular ∧ bs = i.operands := by
  refine ((reads_u8 c).bind (S := fun byte i bs =>
      (∃ op index, op.byte = byte ∧ op.form = .localVariable ∧ i = wideLocal op index ∧
        bs = Layout.u16 index) ∨
      (∃ index amount, Opcode.iinc.byte = byte ∧ i = wideIncrement index amount ∧
        bs = Layout.u16 index ++ Layout.i16 amount)) fun byte _ c _ _ => ?_).congr fun i bs => ?_
  · split
    · next hnone =>
      -- no opcode has this byte
      have hbyte (op : Opcode) : op.byte ≠ byte := by
        intro h
        rw [← Opcode.ofByte?_eq_some, hnone] at h
        cases h
      exact (ReadsAt.throw _).congr fun i bs => by simp [hbyte]
    · next op hop =>
      have hbyte (op' : Opcode) : op'.byte = byte ↔ op' = op := by
        rw [← Opcode.ofByte?_eq_some, hop, Option.some.injEq, eq_comm]
      simp only [hbyte]
      split
      · next hform =>
        have hne : Opcode.iinc ≠ op := by
          rintro rfl
          cases hform
        refine ((reads_u16 c).map (wideLocal op)).congr fun i bs => ?_
        simp [hform, hne]
      · next hform =>
        obtain rfl : op = .iinc := Opcode.eq_of_form (by rw [hform]; rfl)
        refine (reads_both reads_u16 reads_i16 wideIncrement c).congr fun i bs => ?_
        simp [hform]
      · next hlocal hincrement =>
        have hne : Opcode.iinc ≠ op := by
          rintro rfl
          exact hincrement rfl
        refine (ReadsAt.throw _).congr fun i bs => iff_of_false not_false ?_
        rintro (⟨op', index, rfl, hform, -⟩ | ⟨index, amount, hop, -⟩)
        · exact hlocal hform
        · exact hne hop
  · constructor
    · rintro ⟨_, _, _, rfl, ⟨op, index, rfl, hform, rfl, rfl⟩ | ⟨index, amount, rfl, rfl, rfl⟩, rfl⟩
      · exact ⟨rfl, hform, rfl⟩
      · exact ⟨rfl, trivial, rfl⟩
    · rintro ⟨hform, hregular, rfl⟩
      cases i with
      | wideLocal op index =>
        exact ⟨_, _, _, rfl, Or.inl ⟨op, index, rfl, hregular, rfl, rfl⟩, rfl⟩
      | wideIncrement index amount =>
        exact ⟨_, _, _, rfl, Or.inr ⟨index, amount, rfl, rfl, rfl⟩, rfl⟩
      | _ => cases hform

theorem reads_decodeOperands {c : Cursor} {position : Nat}
    (hc : c.InCode (position + 1)) (op : Opcode) :
    ReadsAt Cursor.context c (decodeOperands op) (ReadFrom op position) := by
  rw [decodeOperands]
  split
  all_goals refine ReadsAt.congr ?_ fun _ _ => readFrom_iff.symm
  · next hform =>
    refine (ReadsAt.pure (plain op)).congr fun i bs => ?_
    cases i <;> simp [form, hform, ReadFrom, opcode, Fits, Regular, AlignedAt, operands]
    grind
  · next hform =>
    refine (reads_decodeImplicit op c).congr fun i bs => ?_
    cases i <;> simp [form, hform, ReadFrom, opcode, Fits, Regular, AlignedAt, operands]
    grind
  · next hform =>
    obtain rfl : op = .bipush := Opcode.eq_of_form (by rw [hform]; rfl)
    refine ((reads_i8 c).map pushByte).congr fun i bs => ?_
    cases i <;> simp [form, hform, ReadFrom, opcode, Fits, Regular, AlignedAt, operands]
  · next hform =>
    obtain rfl : op = .sipush := Opcode.eq_of_form (by rw [hform]; rfl)
    refine ((reads_i16 c).map pushShort).congr fun i bs => ?_
    cases i <;> simp [form, hform, ReadFrom, opcode, Fits, Regular, AlignedAt, operands]
  · next hform =>
    obtain rfl : op = .ldc := Opcode.eq_of_form (by rw [hform]; rfl)
    refine ((reads_u8 c).map loadConstant).congr fun i bs => ?_
    cases i <;> simp [form, hform, ReadFrom, opcode, Fits, Regular, AlignedAt, operands]
  · next hform =>
    refine ((reads_u16 c).map (loadConstantWide op)).congr fun i bs => ?_
    cases i <;> simp [form, hform, ReadFrom, opcode, Fits, Regular, AlignedAt, operands]
    grind
  · next hform =>
    refine ((reads_u8 c).map (localVariable op)).congr fun i bs => ?_
    cases i <;> simp [form, hform, ReadFrom, opcode, Fits, Regular, AlignedAt, operands]
    grind
  · next hform =>
    obtain rfl : op = .iinc := Opcode.eq_of_form (by rw [hform]; rfl)
    refine (reads_both reads_u8 reads_i8 increment c).congr fun i bs => ?_
    cases i <;> simp [form, hform, ReadFrom, opcode, Fits, Regular, AlignedAt, operands]
  · next hform =>
    refine ((reads_i16 c).map (branch op)).congr fun i bs => ?_
    cases i <;> simp [form, hform, ReadFrom, opcode, Fits, Regular, AlignedAt, operands]
    grind
  · next hform =>
    refine ((reads_i32 c).map (branchWide op)).congr fun i bs => ?_
    cases i <;> simp [form, hform, ReadFrom, opcode, Fits, Regular, AlignedAt, operands]
    grind
  · next hform =>
    refine ((reads_u16 c).map (constantRef op)).congr fun i bs => ?_
    cases i <;> simp [form, hform, ReadFrom, opcode, Fits, Regular, AlignedAt, operands]
    grind
  · next hform =>
    obtain rfl : op = .invokeinterface := Opcode.eq_of_form (by rw [hform]; rfl)
    refine (reads_decodeInvokeInterface c).congr fun i bs => ?_
    cases i <;> simp [form, hform, ReadFrom, opcode, Fits, Regular, AlignedAt]
  · next hform =>
    obtain rfl : op = .invokedynamic := Opcode.eq_of_form (by rw [hform]; rfl)
    refine (reads_decodeInvokeDynamic c).congr fun i bs => ?_
    cases i <;> simp [form, hform, ReadFrom, opcode, Fits, Regular, AlignedAt]
  · next hform =>
    obtain rfl : op = .newarray := Opcode.eq_of_form (by rw [hform]; rfl)
    refine (reads_decodeNewArray c).congr fun i bs => ?_
    cases i <;> simp [form, hform, ReadFrom, opcode, Fits, Regular, AlignedAt, operands]
  · next hform =>
    obtain rfl : op = .multianewarray := Opcode.eq_of_form (by rw [hform]; rfl)
    refine (reads_both reads_u16 reads_u8 multiNewArray c).congr fun i bs => ?_
    cases i <;> simp [form, hform, ReadFrom, opcode, Fits, Regular, AlignedAt, operands]
  · next hform =>
    obtain rfl : op = .tableswitch := Opcode.eq_of_form (by rw [hform]; rfl)
    refine (reads_decodeTableSwitch hc).congr fun i bs => ?_
    cases i <;> simp [form, hform, ReadFrom, opcode]
  · next hform =>
    obtain rfl : op = .lookupswitch := Opcode.eq_of_form (by rw [hform]; rfl)
    refine (reads_decodeLookupSwitch hc).congr fun i bs => ?_
    cases i <;> simp [form, hform, ReadFrom, opcode, Regular]
  · next hform =>
    obtain rfl : op = .wide := Opcode.eq_of_form (by rw [hform]; rfl)
    refine (reads_decodeWide c).congr fun i bs => ?_
    cases i <;> simp [form, hform, ReadFrom, opcode, Fits, AlignedAt]
  · next hform =>
    refine (ReadsAt.throw _).congr fun i bs => ?_
    cases i <;> simp [form, hform]

/-- The instruction that is read at a position of the code. -/
theorem reads_decode {c : Cursor} {position : Nat}
    (hc : c.InCode position) :
    ReadsAt Cursor.context c decode fun i bs =>
      i.Fits ∧ i.Regular ∧ i.AlignedAt position ∧ bs = i.layout := by
  refine ((reads_u8 c).bind (S := fun byte i bs => i.opcode.byte = byte ∧
    ReadFrom i.opcode position i bs) fun byte bs c₁ hbyte hpast => ?_).congr fun i bs => ?_
  · split
    · next op hop =>
      have hc₁ : c₁.InCode (position + 1) := by
        have := hc.past hpast
        rwa [hbyte, Layout.length_u8] at this
      refine (reads_decodeOperands hc₁ op).congr fun i bs => ?_
      rw [← Opcode.ofByte?_eq_some, hop, Option.some.injEq]
      constructor
      · intro h
        obtain rfl := h.1
        exact ⟨rfl, h⟩
      · rintro ⟨rfl, h⟩
        exact h
    · next hnone =>
      refine (ReadsAt.throw _).congr fun i bs => iff_of_false not_false ?_
      rintro ⟨h, -⟩
      rw [← Opcode.ofByte?_eq_some, hnone] at h
      cases h
  · simp [Then, ReadFrom, layout, and_assoc]

end Instruction
end JavaClass

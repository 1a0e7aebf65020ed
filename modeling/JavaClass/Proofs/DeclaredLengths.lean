import JavaClass.Proofs.Lengths
import JavaClass.Proofs.NestingDepth
import JavaClass.Proofs.Positions
import Mathlib.Data.List.Infix
import Mathlib.Order.Bounds.Basic

/-!
# Declared lengths

Two lengths are stored in front of the bytes that they are about, that of a payload and that of code.
The payload of a known name is read in the same way whatever its length is said to be, and compared
with it afterwards; only in `SourceDebugExtension` there is nothing else to say where it ends. Code
is read until as many bytes as declared are used up. If these end inside of an instruction, all of
that one is read, so the length that was found is the next of the `Instruction.boundaries`.

`Attribute.decode_overwritten` puts this together for an attribute that can be read, with another
number written over one of the two.
-/

namespace JavaClass

open Decode

/-- With other bytes at some place, where the first unread byte has place zero. -/
def Cursor.overwrite (c : Cursor) (place : Nat) (bytes : List UInt8) : Cursor :=
  { c with unread := c.unread.take place ++ (bytes ++ c.unread.drop (place + bytes.length)) }

theorem Cursor.unread_overwrite {c : Cursor} {place : Nat} {front old behind : List UInt8}
    (bytes : List UInt8) (hc : c.unread = front ++ (old ++ behind)) (hfront : front.length = place)
    (hlength : old.length = bytes.length) :
    (c.overwrite place bytes).unread = front ++ (bytes ++ behind) := by
  have hdrop : (old ++ behind).drop bytes.length = behind := List.drop_left' hlength
  rw [overwrite, hc, List.take_left' hfront, ← List.drop_drop, List.drop_left' hfront, hdrop]

/-- A number that takes four bytes. -/
theorem Layout.exists_u32 {n : Nat} (hn : n < BigEndian.bound 4) :
    ∃ m : UInt32, m.toNat = n ∧ BigEndian.encode 4 n = Layout.u32 m := by
  have hm : (UInt32.ofNat n).toNat = n := UInt32.toNat_ofNat_of_lt' hn
  exact ⟨UInt32.ofNat n, hm, by rw [Layout.u32, hm]⟩

theorem Layout.decode_u32 {n : UInt32} {place : Nat} {bytes front behind : List UInt8}
    (h : bytes = front ++ (Layout.u32 n ++ behind)) (hfront : front.length = place) :
    BigEndian.decode ((bytes.drop place).take 4) = n.toNat := by
  rw [h, List.drop_left' hfront, Layout.u32, BigEndian.decode_take_encode_append n.toNat_lt]

/-! ### Boundaries between instructions -/

namespace Instruction

variable {code before after : List Instruction} {i : Instruction} {n : Nat}

/-- Where an instruction starts or the code ends. -/
def boundaries (code : List Instruction) : List Nat :=
  code.inits.map codeLength

theorem mem_boundaries :
    n ∈ boundaries code ↔ ∃ before, before <+: code ∧ codeLength before = n := by
  rw [boundaries, List.mem_map]
  simp only [List.mem_inits]

theorem codeLength_mono (h : before <+: code) : codeLength before ≤ codeLength code := by
  obtain ⟨after, rfl⟩ := h
  rw [codeLength, codeLength, totalSize_append]
  exact Nat.le_add_right ..

theorem AlignedFrom.of_isPrefix {position : Nat} (h : before <+: code)
    (hcode : AlignedFrom position code) : AlignedFrom position before := by
  obtain ⟨rest, rfl⟩ := h
  rw [alignedFrom_iff] at hcode ⊢
  intro before' i after' hbefore
  exact hcode before' i (after' ++ rest) (by rw [hbefore, List.append_assoc, List.cons_append])

/-- What is inside of the code and not a boundary is inside of an instruction. -/
theorem exists_across (hn : n < codeLength code) (hboundary : n ∉ boundaries code) :
    ∃ before i after, code = before ++ i :: after ∧ codeLength before < n ∧
      n < codeLength before + i.size := by
  induction code generalizing n with
  | nil => exact absurd hn (Nat.not_lt_zero n)
  | cons j code ih =>
    have hpos : n ≠ 0 := by
      rintro rfl
      exact hboundary (mem_boundaries.mpr ⟨[], List.nil_prefix, rfl⟩)
    have hcons (code : List Instruction) : codeLength (j :: code) = j.size + codeLength code := rfl
    by_cases hfirst : n < j.size
    · refine ⟨[], j, code, rfl, Nat.pos_of_ne_zero hpos, ?_⟩
      show n < 0 + j.size
      omega
    · rw [hcons] at hn
      have hrest : n - j.size ∉ boundaries code := by
        intro hmem
        obtain ⟨before, hbefore, hlength⟩ := mem_boundaries.mp hmem
        refine hboundary (mem_boundaries.mpr ⟨j :: before, ?_, ?_⟩)
        · exact List.prefix_cons_inj j |>.mpr hbefore
        · rw [hcons]
          omega
      obtain ⟨before, i, after, rfl, hbefore, hn⟩ := ih (by omega) hrest
      refine ⟨j :: before, i, after, rfl, ?_, ?_⟩
      · rw [hcons]
        omega
      · rw [hcons]
        omega

theorem codeLength_concat : codeLength (before ++ [i]) = codeLength before + i.size := by
  rw [codeLength, totalSize_append]
  rfl

theorem isLeast_boundary (after : List Instruction) (hbefore : codeLength before < n)
    (hn : n < codeLength before + i.size) :
    IsLeast {m | m ∈ boundaries (before ++ i :: after) ∧ n < m} (codeLength before + i.size) := by
  have hupto : before ++ [i] <+: before ++ i :: after := ⟨after, (List.append_cons ..).symm⟩
  constructor
  · exact ⟨mem_boundaries.mpr ⟨_, hupto, codeLength_concat⟩, hn⟩
  · rintro m ⟨hm, hlt⟩
    obtain ⟨front, hfront, rfl⟩ := mem_boundaries.mp hm
    rcases List.prefix_or_prefix_of_prefix hfront hupto with hshort | hlong
    · rcases List.prefix_concat_iff.mp hshort with rfl | hshort
      · exact Nat.le_of_eq codeLength_concat.symm
      · have := codeLength_mono hshort
        omega
    · rw [← codeLength_concat]
      exact codeLength_mono hlong

end Instruction

namespace CodeBlock

open Instruction

variable {code before : List Instruction} {i : Instruction} {n : Nat} {c : Cursor}
  {declared : UInt32} {rest : List UInt8}

theorem covers_across (hbefore : codeLength before < n) (hn : n < codeLength before + i.size) :
    Covers n (before ++ [i]) (codeLength before + i.size - n) := by
  induction before generalizing n with
  | nil =>
    have hn : n < 0 + i.size := hn
    have hlt : ¬ i.size ≤ n := by omega
    refine ⟨hbefore, ?_⟩
    rw [if_neg hlt]
    exact ⟨rfl, congrArg (· - n) (Nat.zero_add _)⟩
  | cons j before ih =>
    have hcons : codeLength (j :: before) = j.size + codeLength before := rfl
    rw [hcons] at hbefore hn ⊢
    have hle : j.size ≤ n := by omega
    have hbeyond : j.size + codeLength before + i.size - n =
        codeLength before + i.size - (n - j.size) := by omega
    refine ⟨by omega, ?_⟩
    rw [if_pos hle, hbeyond]
    exact ih (by omega) (by omega)

/-- If what is left of the code ends inside of an instruction, all of that one is read. -/
theorem decodeInstructions_across {position : Nat} (hposition : c.InCode position)
    (hall : ∀ i ∈ code, i.Fits ∧ i.Regular) (haligned : AlignedFrom position code)
    (hc : c.unread = code.flatMap Instruction.layout ++ rest) (hlt : n < codeLength code)
    (hboundary : n ∉ boundaries code) :
    ∃ m, IsLeast {m | m ∈ boundaries code ∧ n < m} m ∧
      ∃ read s, decodeInstructions n 0 [] c = .ok (read, m - n) s := by
  obtain ⟨before, i, after, rfl, hbefore, hi⟩ := exists_across hlt hboundary
  have hupto : before ++ [i] <+: before ++ i :: after := ⟨after, (List.append_cons ..).symm⟩
  have hsplit : c.unread = (before ++ [i]).flatMap Instruction.layout ++
      (after.flatMap Instruction.layout ++ rest) := by
    rw [hc, List.append_cons, List.flatMap_append, List.append_assoc]
  obtain ⟨s, hread, -⟩ := (reads_decodeInstructions hposition []).complete
    (a := (before ++ [i], codeLength before + i.size - n))
    ⟨before ++ [i], rfl, covers_across hbefore hi, fun i hi => hall i (hupto.subset hi),
      AlignedFrom.of_isPrefix hupto haligned, rfl⟩ hsplit
  exact ⟨_, isLeast_boundary after hbefore hi, before ++ [i], s, hread⟩

theorem decodeCode_of_beyond {c₁ s : Cursor} {beyond : Nat} (hlength : u32 c = .ok declared c₁)
    (hread : decodeInstructions declared.toNat 0 []
      { c₁ with codeStart := UInt64.ofNat c₁.offset } = .ok (code, beyond) s)
    (hbeyond : beyond ≠ 0) :
    decodeCode c = .error (.codeLengthMismatch declared
      (UInt32.ofNat (min (declared.toNat + beyond) 0xffffffff))) s := by
  rw [decodeCode, bind_of_ok hlength]
  show (decodeInstructions declared.toNat 0 [] >>= _)
    { c₁ with codeStart := UInt64.ofNat c₁.offset } = _
  rw [bind_of_ok hread]
  show (if beyond ≠ 0 then _ else _ : Decode _) s = _
  rw [if_pos hbeyond]
  rfl

theorem decodeCode_across (hall : ∀ i ∈ code, i.Fits ∧ i.Regular) (haligned : AlignedFrom 0 code)
    (hcode : codeLength code ≤ 0xffffffff)
    (hc : c.unread = Layout.u32 declared ++ (code.flatMap Instruction.layout ++ rest))
    (hlt : declared.toNat < codeLength code) (hboundary : declared.toNat ∉ boundaries code) :
    ∃ decoded : UInt32, IsLeast {m | m ∈ boundaries code ∧ declared.toNat < m} decoded.toNat ∧
      ∃ s, decodeCode c = .error (.codeLengthMismatch declared decoded) s := by
  obtain ⟨c₁, hlength, hunread⟩ := (reads_u32 c).complete rfl hc
  obtain ⟨m, hleast, read, s, hread⟩ := decodeInstructions_across
    (c := { c₁ with codeStart := UInt64.ofNat c₁.offset }) (UInt64.sub_self _) hall haligned hunread
    hlt hboundary
  have ⟨⟨hm, hgt⟩, _⟩ := hleast
  -- a boundary is no further than the end of the code, so the minimum in the error is the boundary
  have hle : m ≤ 0xffffffff := by
    obtain ⟨before, hbefore, rfl⟩ := mem_boundaries.mp hm
    exact Nat.le_trans (codeLength_mono hbefore) hcode
  have hsum : min (declared.toNat + (m - declared.toNat)) 0xffffffff = m := by omega
  have hdecoded : (UInt32.ofNat m).toNat = m := UInt32.toNat_ofNat_of_lt' (Nat.lt_succ_of_le hle)
  refine ⟨UInt32.ofNat m, by rwa [hdecoded], s, ?_⟩
  rw [decodeCode_of_beyond hlength hread (by omega), hsum]

theorem decode_across {b : CodeBlock} (hfits : b.Fits) (hregular : b.Regular)
    (hc : c.unread = Layout.u16 b.maxStack ++ (Layout.u16 b.maxLocals ++
      (Layout.u32 declared ++ (b.instructions.flatMap Instruction.layout ++ rest))))
    (hlt : declared.toNat < codeLength b.instructions)
    (hboundary : declared.toNat ∉ boundaries b.instructions) :
    ∃ decoded : UInt32,
      IsLeast {m | m ∈ boundaries b.instructions ∧ declared.toNat < m} decoded.toNat ∧
        ∃ s, decode c = .error (.codeLengthMismatch declared decoded) s := by
  obtain ⟨c₁, hread₁, hunread₁⟩ := (reads_u16 c).complete rfl hc
  obtain ⟨c₂, hread₂, hunread₂⟩ := (reads_u16 c₁).complete rfl hunread₁
  obtain ⟨decoded, hleast, s, hread₃⟩ := decodeCode_across
    (fun i hi => ⟨hfits.instructions i hi, hregular.1 i hi⟩) hregular.2 hfits.length hunread₂ hlt
    hboundary
  refine ⟨decoded, hleast, s, ?_⟩
  rw [decode, bind_of_ok hread₁, bind_of_ok hread₂, bind_of_error hread₃]

end CodeBlock

namespace Attribute

variable {options : Options} {c : Cursor} {a : Attribute} {kind : Kind} {levels : Nat}
  {nameIndex : UInt16} {declared : UInt32} {rest : List UInt8}

/-- Behind a name that is known and the declared length, the payload is read. -/
theorem decode_of_header (hnamed : NamedFor options c.pool (c.depth + 1) nameIndex (some kind))
    (hc : c.unread = Layout.u16 nameIndex ++ (Layout.u32 declared ++ rest)) :
    ∃ levels s, options.maxDepth - c.depth = levels + 1 ∧ s.unread = rest ∧
      s.outerContext = c.outerContext ∧ decode options c =
        decodeMeasured kind declared
          (decodePayload (decodeWithin options levels) nameIndex kind declared) s := by
  obtain ⟨hname, hdepth⟩ := hnamed
  have hlevels : options.maxDepth - c.depth = options.maxDepth - c.depth - 1 + 1 := by omega
  obtain ⟨c₁, hread₁, hunread₁, hpast₁⟩ := (reads_u16 c).outer.exists_past rfl hc
  obtain ⟨c₂, hread₂, hunread₂, hpast₂⟩ := (reads_u32 c₁).outer.exists_past rfl hunread₁
  have hkept : c₂.outerContext = c.outerContext := hpast₂.kept.trans hpast₁.kept
  have hlift : lift (c₂.pool.getUtf8 nameIndex) c₂ = .ok kind.nameBytes c₂ := by
    rw [Cursor.pool_of_outerContext hkept, hname]
    rfl
  have hpool : pool c₂ = .ok c₂.pool c₂ := rfl
  refine ⟨_, c₂, hlevels, hunread₂, hkept, ?_⟩
  rw [decode_eq_decodeWithin rfl, hlevels, decodeWithin_eq, decodeNamed, bind_of_ok hread₁,
    bind_of_ok hread₂, bind_of_ok hpool, bind_of_ok hlift, Kind.ofName?_nameBytes]
  rfl

/-- With so many levels left, the payload at a depth. -/
theorem reads_payload {pool : Pool} {depth : Nat} (hlevels : options.maxDepth - depth = levels + 1)
    (hc : c.outerContext = (pool, depth + 1)) :
    ReadsAt Cursor.outerContext c
      (decodePayload (decodeWithin options levels) nameIndex kind declared)
      (PayloadFrom options pool (depth + 1) nameIndex kind declared) := by
  refine reads_decodePayload hc (fun c' hc' => ?_) nameIndex kind declared
  obtain ⟨hpool, hdepth⟩ := Prod.mk.inj hc'
  have hleft : levels = options.maxDepth - c'.depth := by omega
  have hreads := reads_decodeWithin hleft
  rwa [hpool, hdepth] at hreads

/-- After the payload, its length is compared. -/
theorem decodeMeasured_of_ok {payload : Decode Attribute} {s : Cursor}
    (h : payload { c with depth := c.depth + 1 } = .ok a s)
    (hlength : s.offset - c.offset ≠ declared.toNat) :
    ∃ s', decodeMeasured kind declared payload c =
      .error (.attributeLengthMismatch kind declared (s.offset - c.offset)) s' := by
  have hstart : offset c = .ok c.offset c := rfl
  refine ⟨{ s with depth := s.depth - 1 }, ?_⟩
  rw [decodeMeasured, bind_of_ok hstart, bind_of_ok (nested_of_ok h)]
  show (if s.offset - c.offset ≠ declared.toNat then _ else _ : Decode Attribute) _ = _
  rw [if_pos hlength]
  rfl

theorem decodeMeasured_of_error {payload : Decode Attribute} {e : Error} {s : Cursor}
    (h : payload { c with depth := c.depth + 1 } = .error e s) :
    ∃ s', decodeMeasured kind declared payload c = .error e s' := by
  have hstart : offset c = .ok c.offset c := rfl
  refine ⟨{ s with depth := s.depth - 1 }, ?_⟩
  rw [decodeMeasured, bind_of_ok hstart, bind_of_error (nested_of_error h)]

/-- The declared length has no influence on how the payload is read. -/
theorem decode_wrong_length (hregular : a.Fits ∧ a.Regular options c.pool (c.depth + 1))
    (hkind : a.kind? = some kind) (hne : kind ≠ .sourceDebugExtension)
    (hc : c.unread = Layout.u16 a.nameIndex ++ (Layout.u32 declared ++ (a.payload ++ rest)))
    (hlength : a.payload.length ≠ declared.toNat) :
    ∃ s, decode options c =
      .error (.attributeLengthMismatch kind declared a.payload.length) s := by
  obtain ⟨hnamed, hpayload, -⟩ := fits_and_regular_iff.mp hregular
  rw [hkind] at hnamed
  obtain ⟨levels, c₁, hlevels, hunread, hkept, hdecode⟩ := decode_of_header hnamed hc
  have hcontext : Cursor.outerContext { c₁ with depth := c₁.depth + 1 } =
      (c.pool, c.depth + 1) := by
    rw [Cursor.outerContext, Cursor.pool_of_outerContext hkept, Cursor.depth_of_outerContext hkept]
  obtain ⟨s, hread, -, hpast⟩ := (reads_payload hlevels hcontext).exists_past (a := a)
    ⟨⟨rfl, hkind, hpayload⟩, rfl, fun h => absurd h hne⟩ hunread
  have hactual : s.offset - c₁.offset = a.payload.length := by
    rw [hpast.offset]
    exact Nat.add_sub_cancel_left ..
  rw [hdecode, ← hactual]
  exact decodeMeasured_of_ok hread (by rwa [hactual])

theorem decode_wrong_codeLength {length : UInt32} {block : CodeBlock} {as : List Attribute}
    (hregular : (code nameIndex block as).Fits ∧
      (code nameIndex block as).Regular options c.pool (c.depth + 1))
    (hc : c.unread = Layout.u16 nameIndex ++ (Layout.u32 length ++
      (Layout.u16 block.maxStack ++ (Layout.u16 block.maxLocals ++
        (Layout.u32 declared ++ (block.instructions.flatMap Instruction.layout ++ rest))))))
    (hlt : declared.toNat < Instruction.codeLength block.instructions)
    (hboundary : declared.toNat ∉ Instruction.boundaries block.instructions) :
    ∃ decoded : UInt32, IsLeast
        {n | n ∈ Instruction.boundaries block.instructions ∧ declared.toNat < n} decoded.toNat ∧
      ∃ s, decode options c = .error (.codeLengthMismatch declared decoded) s := by
  obtain ⟨hnamed, ⟨⟨hfits, hblock⟩, -⟩, -⟩ := fits_and_regular_iff.mp hregular
  obtain ⟨levels, c₁, -, hunread, -, hdecode⟩ := decode_of_header hnamed hc
  obtain ⟨decoded, hleast, s, hread⟩ := CodeBlock.decode_across
    (c := { c₁ with depth := c₁.depth + 1 }) hfits hblock hunread hlt hboundary
  refine ⟨decoded, hleast, ?_⟩
  rw [hdecode]
  exact decodeMeasured_of_error (bind_of_error hread)

/-- With another length declared than that of the payload, or one of code that is shorter and ends
inside of an instruction, an attribute that can be read is no longer read. The error gives what was
declared, and next to it what was found: the length of the payload, or the next boundary between
instructions. -/
theorem decode_overwritten (options : Options) (c c' : Cursor) (a : Attribute) (kind : Kind)
    (h : decode options c = .ok a c') (hkind : a.kind? = some kind)
    (hne : kind ≠ .sourceDebugExtension) :
    (∃ length : UInt32, BigEndian.decode ((c.unread.drop 2).take 4) = length.toNat ∧
      ∀ declared, declared ≠ length → ∃ s, decode options (c.overwrite 2 (Layout.u32 declared)) =
        .error (.attributeLengthMismatch kind declared length.toNat) s) ∧
    ∀ nameIndex block as, a = code nameIndex block as →
      ∃ length : UInt32, BigEndian.decode ((c.unread.drop 10).take 4) = length.toNat ∧
        Instruction.codeLength block.instructions = length.toNat ∧
        ∀ declared < length, declared.toNat ∉ Instruction.boundaries block.instructions →
          ∃ decoded : UInt32, IsLeast
              {n | n ∈ Instruction.boundaries block.instructions ∧ declared.toNat < n}
              decoded.toNat ∧
            ∃ s, decode options (c.overwrite 10 (Layout.u32 declared)) =
              .error (.codeLengthMismatch declared decoded) s := by
  obtain ⟨_, ⟨hregular, rfl⟩, hpast⟩ := (reads_decode options c).sound h
  obtain ⟨length, hlength, hstored⟩ := Layout.exists_u32 (length_payload_lt hregular.1)
  have hunread : c.unread =
      Layout.u16 a.nameIndex ++ (Layout.u32 length ++ (a.payload ++ c'.unread)) := by
    rw [hpast.unread, layout, framed, hstored, List.append_assoc, List.append_assoc]
  constructor
  · refine ⟨length, Layout.decode_u32 hunread (Layout.length_u16 _), fun declared hdeclared => ?_⟩
    have hoverwritten := Cursor.unread_overwrite (Layout.u32 declared) hunread
      (Layout.length_u16 _) rfl
    have hwrong : a.payload.length ≠ declared.toNat := by
      rw [← hlength]
      exact fun heq => hdeclared (UInt32.toNat_inj.mp heq).symm
    rw [hlength]
    exact decode_wrong_length (c := c.overwrite 2 (Layout.u32 declared)) hregular hkind hne
      hoverwritten hwrong
  · rintro nameIndex block as rfl
    have hblock : block.Fits := (fits_code.mp hregular.1).1
    obtain ⟨codeLength, hcodeLength, hstored⟩ :=
      Layout.exists_u32 (Nat.lt_succ_of_le hblock.length)
    have hfront : (Layout.u16 nameIndex ++ (Layout.u32 length ++
        (Layout.u16 block.maxStack ++ Layout.u16 block.maxLocals))).length = 10 := by simp
    have hcode : c.unread = (Layout.u16 nameIndex ++ (Layout.u32 length ++
        (Layout.u16 block.maxStack ++ Layout.u16 block.maxLocals))) ++
          (Layout.u32 codeLength ++ (block.instructions.flatMap Instruction.layout ++
            (Layout.counted ExceptionHandler.layout block.handlers ++
              (Layout.counted layout as ++ c'.unread)))) := by
      rw [hunread, payload_code, CodeBlock.layout, CodeBlock.codeLayout, hstored]
      simp only [Attribute.nameIndex, List.append_assoc]
    refine ⟨codeLength, Layout.decode_u32 hcode hfront, hcodeLength.symm,
      fun declared hlt hboundary => ?_⟩
    have hoverwritten := Cursor.unread_overwrite (Layout.u32 declared) hcode hfront rfl
    simp only [List.append_assoc] at hoverwritten
    refine decode_wrong_codeLength (c := c.overwrite 10 (Layout.u32 declared)) hregular
      hoverwritten ?_ hboundary
    rw [← hcodeLength]
    exact UInt32.lt_iff_toNat_lt.mp hlt

def beforeSwitchCode : Cursor :=
  { beforeSwitch with unread := switchCode.layout }

/-- The fifth byte of the code is inside of the switch, which ends in front of the last one. -/
theorem decode_overwritten_switchCode :
    (∃ s, decode {} (beforeSwitchCode.overwrite 2 (Layout.u32 34)) =
      .error (.attributeLengthMismatch .code 34 33) s) ∧
    ∃ s, decode {} (beforeSwitchCode.overwrite 10 (Layout.u32 5)) =
      .error (.codeLengthMismatch 5 20) s := by
  have hfits : switchCode.Fits := by decide +kernel
  have hregular : switchCode.Regular {} beforeSwitchCode.pool (beforeSwitchCode.depth + 1) := by
    decide +kernel
  obtain ⟨c', hread, -⟩ := (reads_decode {} beforeSwitchCode).complete ⟨⟨hfits, hregular⟩, rfl⟩
    (List.append_nil _).symm
  obtain ⟨⟨length, hlength, hpayload⟩, hcode⟩ :=
    decode_overwritten _ _ _ _ .code hread rfl (by decide)
  obtain ⟨codeLength, -, hcodeLength, hinstructions⟩ := hcode 1 _ _ rfl
  constructor
  · obtain rfl : length = 33 := UInt32.toNat_inj.mp hlength.symm
    exact hpayload 34 (by decide)
  · obtain rfl : codeLength = 21 := UInt32.toNat_inj.mp hcodeLength.symm
    obtain ⟨decoded, hleast, hread⟩ := hinstructions 5 (by decide) (by decide)
    have hbefore : Instruction.codeLength [.implicit ⟨0x04, by decide⟩ .one] < 5 := by decide
    have hnext : IsLeast _ 20 := Instruction.isLeast_boundary (n := 5)
      (i := .tableSwitch 2 19 1 1 [19]) [.plain ⟨0x00, by decide⟩] hbefore (by decide)
    obtain rfl : decoded = 20 := UInt32.toNat_inj.mp (hleast.unique hnext)
    exact hread

end Attribute

end JavaClass

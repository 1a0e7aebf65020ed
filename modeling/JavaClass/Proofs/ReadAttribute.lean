import JavaClass.Proofs.ReadInstruction
import JavaClass.Proofs.ReadParts

/-!
# Reading code and attributes

`CodeBlock.reads_decode` and `Attribute.reads_decode`: just those are read that fit and are regular
at the depth of the cursor, each from its layout.

Instructions are read as long as one starts within the declared length (`Covers`), and the check
afterwards leaves those that end there. The recursion on attributes follows the levels that are left:
at level zero the next attribute would be nested too deep, so only an unknown one is read.
-/

namespace JavaClass

open Decode

namespace CodeBlock

/-! ### Instructions until the length is used up -/

/-- Of these instructions each starts in the next `left` bytes, and the last one reaches `beyond`
further than these. -/
def Covers : (left : Nat) → List Instruction → (beyond : Nat) → Prop
  | left, [], beyond => left = 0 ∧ beyond = 0
  | left, i :: code, beyond => 0 < left ∧
    if i.size ≤ left then Covers (left - i.size) code beyond
    else code = [] ∧ beyond = i.size - left

theorem covers_zero_iff {left : Nat} {code : List Instruction} :
    Covers left code 0 ↔ Instruction.codeLength code = left := by
  induction code generalizing left with
  | nil =>
    rw [Covers, and_iff_left rfl]
    exact eq_comm
  | cons i code ih =>
    have hpos := i.size_pos
    rw [Covers, Instruction.codeLength, totalSize_cons]
    split
    · next hle =>
      rw [ih, Instruction.codeLength]
      omega
    · next hlt => exact iff_of_false (by omega) (by omega)

/-- Bytes that are read already are skipped. -/
theorem decodeInstructions_eq (left inside : Nat) (code : List Instruction) :
    decodeInstructions left inside code =
      if inside ≤ left then decodeInstructions (left - inside) 0 code
      else return (code.reverse, inside - left) := by
  induction left generalizing inside with
  | zero =>
    cases inside with
    | zero => rfl
    | succ inside => rfl
  | succ left ih =>
    cases inside with
    | zero => rfl
    | succ inside =>
      rw [decodeInstructions, ih]
      simp only [Nat.add_le_add_iff_right, Nat.add_sub_add_right]

/-- What is read of the code, after the instructions `before`. -/
def CodeFrom (position left : Nat) (before : List Instruction) (result : List Instruction × Nat)
    (bs : List UInt8) : Prop :=
  ∃ code, result.1 = before.reverse ++ code ∧ Covers left code result.2 ∧
    (∀ i ∈ code, i.Fits ∧ i.Regular) ∧ Instruction.AlignedFrom position code ∧
      bs = code.flatMap Instruction.layout

theorem codeFrom_zero_iff {position : Nat} {before : List Instruction}
    {result : List Instruction × Nat} {bs : List UInt8} :
    CodeFrom position 0 before result bs ↔ result = (before.reverse, 0) ∧ bs = [] := by
  constructor
  · rintro ⟨code, hresult, hcovers, -, -, rfl⟩
    cases code with
    | nil => exact ⟨Prod.ext (by rw [hresult, List.append_nil]) hcovers.2, rfl⟩
    | cons i code => exact absurd hcovers.1 (Nat.lt_irrefl 0)
  · rintro ⟨rfl, rfl⟩
    exact ⟨[], (List.append_nil _).symm, ⟨rfl, rfl⟩, nofun, trivial, rfl⟩

/-- The first instruction, and what is read after it. -/
def CodeAfter (position left : Nat) (before : List Instruction) (i : Instruction)
    (result : List Instruction × Nat) (bs : List UInt8) : Prop :=
  if i.size ≤ left then
    CodeFrom (position + i.size) (left - i.size) (i :: before) result bs
  else
    result = ((i :: before).reverse, i.size - left) ∧ bs = []

theorem codeFrom_iff {position left : Nat} {before : List Instruction}
    {result : List Instruction × Nat} {bs : List UInt8} (hleft : 0 < left) :
    CodeFrom position left before result bs ↔
      ∃ i cs, (i.Fits ∧ i.Regular ∧ i.AlignedAt position) ∧
        CodeAfter position left before i result cs ∧ bs = i.layout ++ cs := by
  have happend (i : Instruction) (code : List Instruction) :
      (i :: before).reverse ++ code = before.reverse ++ i :: code := by simp
  constructor
  · rintro ⟨code, hresult, hcovers, hall, haligned, rfl⟩
    cases code with
    | nil => exact absurd hcovers.1 (Nat.ne_of_gt hleft)
    | cons i code =>
      obtain ⟨⟨hfits, hregular⟩, hall⟩ := List.forall_mem_cons.mp hall
      refine ⟨i, _, ⟨hfits, hregular, haligned.1⟩, ?_, List.flatMap_cons⟩
      have hrest := hcovers.2
      rw [CodeAfter]
      split at hrest
      · next hle =>
        rw [if_pos hle]
        exact ⟨code, by rw [hresult, happend], hrest, hall, haligned.2, rfl⟩
      · next hlt =>
        obtain ⟨rfl, hbeyond⟩ := hrest
        rw [if_neg hlt]
        exact ⟨Prod.ext (by rw [hresult, ← happend, List.append_nil]) hbeyond, rfl⟩
  · rintro ⟨i, cs, ⟨hfits, hregular, haligned⟩, hrest, rfl⟩
    rw [CodeAfter] at hrest
    split at hrest
    · next hle =>
      obtain ⟨code, hresult, hcovers, hall, hcode, rfl⟩ := hrest
      refine ⟨i :: code, by rw [hresult, happend], ⟨hleft, ?_⟩, ?_, ⟨haligned, hcode⟩, rfl⟩
      · rwa [if_pos hle]
      · exact List.forall_mem_cons.mpr ⟨⟨hfits, hregular⟩, hall⟩
    · next hlt =>
      obtain ⟨rfl, rfl⟩ := hrest
      refine ⟨[i], List.reverse_cons, ⟨hleft, ?_⟩, ?_, ⟨haligned, trivial⟩, rfl⟩
      · rw [if_neg hlt]
        exact ⟨rfl, rfl⟩
      · exact List.forall_mem_cons.mpr ⟨⟨hfits, hregular⟩, nofun⟩

theorem reads_decodeInstructions {left : Nat} : ∀ {c : Cursor} {position : Nat},
    c.InCode position → ∀ before : List Instruction,
      ReadsAt Cursor.context c (decodeInstructions left 0 before)
        (CodeFrom position left before) := by
  induction left using Nat.strongRecOn with
  | _ left ih =>
    intro c position hc before
    cases left with
    | zero =>
      exact (ReadsAt.pure (before.reverse, 0)).congr fun result bs => codeFrom_zero_iff.symm
    | succ left =>
      rw [decodeInstructions]
      refine ((Instruction.reads_decode hc).bind (S := CodeAfter position (left + 1) before)
        fun i bs c₁ hi hpast => ?_).congr fun result bs => ?_
      · have hsize : i.size = 1 + i.operandLength := rfl
        have hpos := hc.past hpast
        rw [hi.2.2.2, i.length_layout] at hpos
        unfold CodeAfter
        rw [decodeInstructions_eq]
        by_cases hle : i.operandLength ≤ left
        · have hle' : i.size ≤ left + 1 := by omega
          have hleft : left - i.operandLength = left + 1 - i.size := by omega
          simp only [if_pos hle, if_pos hle', hleft]
          exact ih _ (by omega) hpos (i :: before)
        · have hle' : ¬ i.size ≤ left + 1 := by omega
          have hbeyond : i.operandLength - left = i.size - (left + 1) := by omega
          simp only [if_neg hle, if_neg hle', hbeyond]
          exact .pure _
      · rw [codeFrom_iff left.succ_pos]
        constructor
        · rintro ⟨i, _, cs, ⟨hfits, hregular, haligned, rfl⟩, hrest, rfl⟩
          exact ⟨i, cs, ⟨hfits, hregular, haligned⟩, hrest, rfl⟩
        · rintro ⟨i, cs, ⟨hfits, hregular, haligned⟩, hrest, rfl⟩
          exact ⟨i, _, cs, ⟨hfits, hregular, haligned, rfl⟩, hrest, rfl⟩

/-- What the bytes of the code are read as stands at positions that start at zero. -/
theorem reads_decodeCode (c : Cursor) :
    ReadsAt Cursor.outerContext c decodeCode fun code bs =>
      (Instruction.codeLength code ≤ 0xffffffff ∧ (∀ i ∈ code, i.Fits ∧ i.Regular) ∧
        Instruction.AlignedFrom 0 code) ∧ bs = codeLayout code := by
  refine ((reads_u32 c).outer.bind (S := fun length code bs => CodeFrom 0 length.toNat [] (code, 0) bs)
    fun length _ c _ _ => ?_).congr fun code bs => ?_
  · refine ReadsAt.modify_bind ⟨rfl, rfl, rfl⟩ ?_
    have hc : Cursor.InCode { c with codeStart := UInt64.ofNat c.offset } 0 := UInt64.sub_self _
    refine ((reads_decodeInstructions hc []).outer.bind
      (S := fun result code bs => result = (code, 0) ∧ bs = [])
      fun result _ c _ _ => ?_).congr fun code bs => ?_
    · obtain ⟨code, beyond⟩ := result
      refine (ReadsAt.check _ ((reads_report _ c).outer.bind fun _ _ c _ _ => .pure _)).congr
        fun code bs => ?_
      simp only [Then, Prod.mk.injEq]
      grind
    · simp [Then]
  · refine (then_u32_iff (S := fun length code bs => CodeFrom 0 length [] (code, 0) bs)).trans ?_
    constructor
    · rintro ⟨_, hlength, _, ⟨_, rfl, hcovers, hall, haligned, rfl⟩, rfl⟩
      obtain rfl := covers_zero_iff.mp hcovers
      exact ⟨⟨hlength, hall, haligned⟩, rfl⟩
    · rintro ⟨⟨hlength, hall, haligned⟩, rfl⟩
      exact ⟨_, hlength, _, ⟨code, rfl, covers_zero_iff.mpr rfl, hall, haligned, rfl⟩, rfl⟩

theorem reads_decode (c : Cursor) :
    ReadsAt Cursor.outerContext c decode fun b bs => (b.Fits ∧ b.Regular) ∧ bs = b.layout := by
  refine ((reads_u16 c).outer.bind fun maxStack _ c _ _ =>
    (reads_u16 c).outer.bind fun maxLocals _ c _ _ => (reads_decodeCode c).bind fun code _ c _ _ =>
      (reads_counted_of_forall ExceptionHandler.reads_decode c).outer.map
        (mk maxStack maxLocals code)).congr fun b bs => ?_
  obtain ⟨maxStack, maxLocals, code, handlers⟩ := b
  constructor
  · rintro ⟨_, _, _, rfl, ⟨_, _, _, rfl, ⟨_, _, _, ⟨⟨hlength, hall, haligned⟩, rfl⟩,
      ⟨_, ⟨⟩, hhandlers, rfl⟩, rfl⟩, rfl⟩, rfl⟩
    exact ⟨⟨⟨hlength, fun i hi => (hall i hi).1, hhandlers⟩, fun i hi => (hall i hi).2, haligned⟩, rfl⟩
  · rintro ⟨⟨hfits, hregular, haligned⟩, rfl⟩
    exact ⟨_, _, _, rfl, ⟨_, _, _, rfl, ⟨_, _, _, ⟨⟨hfits.length,
      fun i hi => ⟨hfits.instructions i hi, hregular i hi⟩, haligned⟩, rfl⟩,
      ⟨_, rfl, hfits.handlers, rfl⟩, rfl⟩, rfl⟩, rfl⟩

end CodeBlock

namespace Attribute

/-! ### Payloads -/

namespace Content

/-- The content that belongs to a name. Only the content that is nothing but bytes depends on the
length that it is said to have. -/
def ReadFor (kind : Kind) (length : UInt32) (content : Content) (bs : List UInt8) : Prop :=
  content.kind? = some kind ∧ content.Fits ∧ bs = content.layout ∧
    (kind = .sourceDebugExtension → bs.length = length.toNat)

end Content

/-- What is left to ask of the payload when the name is right and the length is known. -/
def PayloadRegular (options : Options) (pool : Pool) (depth : Nat) : Attribute → Prop
  | leaf _ content => content.Fits
  | code _ block attributes => (block.Fits ∧ block.Regular) ∧ attributes.length ≤ 65535 ∧
    ∀ a ∈ attributes, a.Fits ∧ a.Regular options pool (depth + 1)

theorem fits_and_regular_iff {options : Options} {pool : Pool} {depth : Nat} {a : Attribute} :
    a.Fits ∧ a.Regular options pool depth ↔
      NamedFor options pool depth a.nameIndex a.kind? ∧ a.PayloadRegular options pool depth ∧
        a.payload.length ≤ 0xffffffff := by
  rw [length_payload]
  cases a with
  | leaf nameIndex content =>
    rw [fits_leaf, regular_leaf, PayloadRegular, payloadLength, Attribute.nameIndex, kind?]
    constructor
    · rintro ⟨⟨hfits, hlength⟩, hname⟩
      exact ⟨hname, hfits, hlength⟩
    · rintro ⟨hname, hfits, hlength⟩
      exact ⟨⟨hfits, hlength⟩, hname⟩
  | code nameIndex block as =>
    rw [fits_code, regular_code, PayloadRegular, Attribute.nameIndex, kind?]
    constructor
    · rintro ⟨⟨hblock, hcount, hfits, hlength⟩, hname, hregular, has⟩
      exact ⟨hname, ⟨⟨hblock, hregular⟩, hcount, fun a ha => ⟨hfits a ha, has a ha⟩⟩, hlength⟩
    · rintro ⟨hname, ⟨⟨hblock, hregular⟩, hcount, has⟩, hlength⟩
      exact ⟨⟨hblock, hcount, fun a ha => (has a ha).1, hlength⟩, hname, hregular,
        fun a ha => (has a ha).2⟩

variable {options : Options} {pool : Pool} {depth : Nat} {c : Cursor} {kind : Kind}
  {length : UInt32}

/-- A payload with the name index and the name that it is read for. -/
def PayloadFrom (options : Options) (pool : Pool) (depth : Nat) (nameIndex : UInt16) (kind : Kind)
    (length : UInt32) (a : Attribute) (bs : List UInt8) : Prop :=
  (a.nameIndex = nameIndex ∧ a.kind? = some kind ∧ a.PayloadRegular options pool depth) ∧
    bs = a.payload ∧ (kind = .sourceDebugExtension → bs.length = length.toNat)

theorem reads_leaf {content : Decode Content} (hkind : kind ≠ .code) (nameIndex : UInt16)
    (h : ReadsAt Cursor.context c content (Content.ReadFor kind length)) :
    ReadsAt Cursor.outerContext c (decodePayload.leaf nameIndex content)
      (PayloadFrom options pool depth nameIndex kind length) := by
  refine (h.outer.map (leaf nameIndex)).congr fun a bs => ?_
  constructor
  · rintro ⟨content, rfl, hname, hfits, rfl, hlength⟩
    exact ⟨⟨rfl, hname, hfits⟩, rfl, hlength⟩
  · rintro ⟨⟨rfl, hname, hregular⟩, rfl, hlength⟩
    cases a with
    | leaf nameIndex content => exact ⟨content, rfl, hname, hregular, rfl, hlength⟩
    | code nameIndex block as => exact absurd (Option.some.inj hname).symm hkind

/-- The number of parameters is a single byte. -/
theorem reads_methodParameters (c : Cursor) :
    ReadsAt Cursor.context c
      (do
        let count ← Decode.u8
        return Content.methodParameters (← Decode.times count.toNat MethodParameter.decode))
      fun content bs => ∃ parameters, content = .methodParameters parameters ∧ content.Fits ∧
        bs = content.layout := by
  refine ((reads_u8 c).bind fun count _ c _ _ =>
    (reads_times_of_forall MethodParameter.reads_decode count.toNat c).map
      Content.methodParameters).congr fun content bs => ?_
  refine (then_u8_iff (S := fun n content bs => ∃ parameters,
    content = Content.methodParameters parameters ∧ parameters.length = n ∧
      bs = parameters.flatMap MethodParameter.layout)).trans ?_
  constructor
  · rintro ⟨_, hlength, _, ⟨parameters, rfl, rfl, rfl⟩, rfl⟩
    exact ⟨parameters, rfl, hlength, rfl⟩
  · rintro ⟨parameters, rfl, hlength, rfl⟩
    exact ⟨_, hlength, _, ⟨parameters, rfl, rfl, rfl⟩, rfl⟩

/-- The attributes inside of code are read one level further down. -/
theorem reads_code {inner : Decode Attribute} (hc : c.outerContext = (pool, depth))
    (hinner : ∀ c', c'.outerContext = (pool, depth) → ReadsAt Cursor.outerContext c' inner
      fun a bs => (a.Fits ∧ a.Regular options pool (depth + 1)) ∧ bs = a.layout)
    (nameIndex : UInt16) (length : UInt32) :
    ReadsAt Cursor.outerContext c
      (do return code nameIndex (← CodeBlock.decode) (← Decode.counted inner))
      (PayloadFrom options pool depth nameIndex .code length) := by
  refine ((CodeBlock.reads_decode c).bind fun block _ c' _ hpast =>
    (ReadsAt.counted (reads_u16 c').outer fun c'' hc'' =>
      hinner c'' (hc''.trans (hpast.kept.trans hc))).map (code nameIndex block)).congr
        fun a bs => ?_
  constructor
  · rintro ⟨block, _, _, ⟨hblock, rfl⟩, ⟨as, rfl, ⟨hcount, has⟩, rfl⟩, rfl⟩
    exact ⟨⟨rfl, rfl, hblock, hcount, has⟩, (payload_code ..).symm, nofun⟩
  · rintro ⟨⟨rfl, hname, hregular⟩, rfl, -⟩
    cases a with
    | leaf nameIndex content => cases content <;> cases hname
    | code nameIndex block as =>
      obtain ⟨hblock, hcount, has⟩ := hregular
      exact ⟨block, _, _, ⟨hblock, rfl⟩, ⟨as, rfl, ⟨hcount, has⟩, rfl⟩, payload_code ..⟩

theorem reads_decodePayload {inner : Decode Attribute} (hc : c.outerContext = (pool, depth))
    (hinner : ∀ c', c'.outerContext = (pool, depth) → ReadsAt Cursor.outerContext c' inner
      fun a bs => (a.Fits ∧ a.Regular options pool (depth + 1)) ∧ bs = a.layout)
    (nameIndex : UInt16) (kind : Kind) (length : UInt32) :
    ReadsAt Cursor.outerContext c (decodePayload inner nameIndex kind length)
      (PayloadFrom options pool depth nameIndex kind length) := by
  have hu16s := reads_counted_of_forall reads_u16
  have hvariables := reads_counted_of_forall LocalVariable.reads_decode
  have hclasses := reads_counted_of_forall InnerClass.reads_decode
  have hlines := reads_counted_of_forall LineNumber.reads_decode
  cases kind with
  | code => exact reads_code hc hinner nameIndex length
  | constantValue =>
    refine reads_leaf (by decide) nameIndex ?_
    refine ((reads_u16 c).map Content.constantValue).congr fun content bs => ?_
    cases content <;> simp [Content.ReadFor, Content.kind?, Content.Fits, Content.layout]
  | stackMapTable =>
    refine reads_leaf (by decide) nameIndex ?_
    refine ((reads_counted StackFrame.reads_decode c).map Content.stackMapTable).congr
      fun content bs => ?_
    cases content <;> simp [Content.ReadFor, Content.kind?, Content.Fits, Content.layout]
  | exceptions =>
    refine reads_leaf (by decide) nameIndex ?_
    refine ((hu16s c).map Content.exceptions).congr fun content bs => ?_
    cases content <;> simp [Content.ReadFor, Content.kind?, Content.Fits, Content.layout]
  | innerClasses =>
    refine reads_leaf (by decide) nameIndex ?_
    refine ((hclasses c).map Content.innerClasses).congr fun content bs => ?_
    cases content <;> simp [Content.ReadFor, Content.kind?, Content.Fits, Content.layout]
  | enclosingMethod =>
    refine reads_leaf (by decide) nameIndex ?_
    refine (reads_both reads_u16 reads_u16 Content.enclosingMethod c).congr fun content bs => ?_
    cases content <;> simp [Content.ReadFor, Content.kind?, Content.Fits, Content.layout]
  | synthetic =>
    refine reads_leaf (by decide) nameIndex ?_
    refine (ReadsAt.pure Content.synthetic).congr fun content bs => ?_
    cases content <;> simp [Content.ReadFor, Content.kind?, Content.Fits, Content.layout]
  | signature =>
    refine reads_leaf (by decide) nameIndex ?_
    refine ((reads_u16 c).map Content.signature).congr fun content bs => ?_
    cases content <;> simp [Content.ReadFor, Content.kind?, Content.Fits, Content.layout]
  | sourceFile =>
    refine reads_leaf (by decide) nameIndex ?_
    refine ((reads_u16 c).map Content.sourceFile).congr fun content bs => ?_
    cases content <;> simp [Content.ReadFor, Content.kind?, Content.Fits, Content.layout]
  | sourceDebugExtension =>
    refine reads_leaf (by decide) nameIndex ?_
    refine ((reads_bytes length.toNat c).map Content.sourceDebugExtension).congr
      fun content bs => ?_
    cases content <;> simp [Content.ReadFor, Content.kind?, Content.Fits, Content.layout]
    grind
  | lineNumberTable =>
    refine reads_leaf (by decide) nameIndex ?_
    refine ((hlines c).map Content.lineNumberTable).congr fun content bs => ?_
    cases content <;> simp [Content.ReadFor, Content.kind?, Content.Fits, Content.layout]
  | localVariableTable =>
    refine reads_leaf (by decide) nameIndex ?_
    refine ((hvariables c).map Content.localVariableTable).congr fun content bs => ?_
    cases content <;> simp [Content.ReadFor, Content.kind?, Content.Fits, Content.layout]
  | localVariableTypeTable =>
    refine reads_leaf (by decide) nameIndex ?_
    refine ((hvariables c).map Content.localVariableTypeTable).congr fun content bs => ?_
    cases content <;> simp [Content.ReadFor, Content.kind?, Content.Fits, Content.layout]
  | deprecated =>
    refine reads_leaf (by decide) nameIndex ?_
    refine (ReadsAt.pure Content.deprecated).congr fun content bs => ?_
    cases content <;> simp [Content.ReadFor, Content.kind?, Content.Fits, Content.layout]
  | bootstrapMethods =>
    refine reads_leaf (by decide) nameIndex ?_
    refine ((reads_counted BootstrapMethod.reads_decode c).map Content.bootstrapMethods).congr
      fun content bs => ?_
    cases content <;> simp [Content.ReadFor, Content.kind?, Content.Fits, Content.layout]
  | methodParameters =>
    refine reads_leaf (by decide) nameIndex ?_
    refine (reads_methodParameters c).congr fun content bs => ?_
    cases content <;> simp [Content.ReadFor, Content.kind?, Content.Fits, Content.layout]
  | nestHost =>
    refine reads_leaf (by decide) nameIndex ?_
    refine ((reads_u16 c).map Content.nestHost).congr fun content bs => ?_
    cases content <;> simp [Content.ReadFor, Content.kind?, Content.Fits, Content.layout]
  | nestMembers =>
    refine reads_leaf (by decide) nameIndex ?_
    refine ((hu16s c).map Content.nestMembers).congr fun content bs => ?_
    cases content <;> simp [Content.ReadFor, Content.kind?, Content.Fits, Content.layout]

/-! ### Whole attributes -/

/-- The payload has to be as long as it says. -/
theorem reads_decodeMeasured {P : Attribute → Prop} {payload : Decode Attribute}
    (h : ReadsAt Cursor.outerContext { c with depth := c.depth + 1 } payload fun a bs =>
      P a ∧ bs = a.payload ∧ (kind = .sourceDebugExtension → bs.length = length.toNat)) :
    ReadsAt Cursor.outerContext c (decodeMeasured kind length payload) fun a bs =>
      P a ∧ bs = a.payload ∧ bs.length = length.toNat := by
  refine ReadsAt.offset_bind ?_
  refine (h.nested.bind (S := fun a a' bs => a.payload.length = length.toNat ∧ a' = a ∧ bs = [])
    fun a bs c₁ ha hpast => .offset_bind ?_).congr fun a bs => ?_
  · have hactual : c₁.offset - c.offset = a.payload.length := by
      rw [hpast.offset, ha.2.1, Nat.add_sub_cancel_left]
    rw [← hactual]
    refine (ReadsAt.check _ ((reads_report _ c₁).outer.bind fun _ _ c _ _ => .pure a)).congr ?_
    simp [Then]
  · constructor
    · rintro ⟨a, _, _, ⟨hpayload, rfl, -⟩, ⟨hlength, rfl, rfl⟩, rfl⟩
      rw [List.append_nil]
      exact ⟨hpayload, rfl, hlength⟩
    · rintro ⟨hpayload, rfl, hlength⟩
      exact ⟨a, _, [], ⟨hpayload, rfl, fun _ => hlength⟩, ⟨hlength, rfl, rfl⟩,
        (List.append_nil _).symm⟩

/-- What is read behind a name and a length: what `R` has for the name if it is known, and otherwise
as many bytes as the length says, if those are kept. -/
def NamedBy (policy : UnknownPolicy) (R : UInt16 → Kind → UInt32 → Attribute → List UInt8 → Prop)
    (name : List UInt8) (nameIndex : UInt16) (length : UInt32) (a : Attribute) (bs : List UInt8) :
    Prop :=
  (∃ kind, Kind.ofName? name = some kind ∧ R nameIndex kind length a bs) ∨
    (Kind.ofName? name = none ∧ policy = .preserve ∧ bs.length = length.toNat ∧
      a = leaf nameIndex (.unknown bs))

theorem reads_decodeNamed {policy : UnknownPolicy}
    {known : UInt16 → Kind → UInt32 → Decode Attribute}
    {R : UInt16 → Kind → UInt32 → Attribute → List UInt8 → Prop}
    (hknown : ∀ nameIndex kind length c', c'.outerContext = c.outerContext →
      ReadsAt Cursor.outerContext c' (known nameIndex kind length) (R nameIndex kind length)) :
    ReadsAt Cursor.outerContext c (decodeNamed policy known) fun a bs =>
      ∃ nameIndex length name cs, c.pool.getUtf8 nameIndex = .ok name ∧
        NamedBy policy R name nameIndex length a cs ∧
        bs = Layout.u16 nameIndex ++ (Layout.u32 length ++ cs) := by
  refine ((reads_u16 c).outer.bind fun nameIndex _ c₁ _ hpast₁ =>
    (reads_u32 c₁).outer.bind (S := fun length a cs => ∃ name, c.pool.getUtf8 nameIndex = .ok name ∧
      NamedBy policy R name nameIndex length a cs) fun length _ c₂ _ hpast₂ => .pool_bind ?_).congr
        fun a bs => ?_
  · have hc₂ : c₂.outerContext = c.outerContext := hpast₂.kept.trans hpast₁.kept
    have hpool : c₂.pool = c.pool := Cursor.pool_of_outerContext hc₂
    rw [hpool]
    refine ((reads_lift (c.pool.getUtf8 nameIndex) c₂).bind
      (S := fun name => NamedBy policy R name nameIndex length)
      fun name _ c₃ _ hpast₃ => ?_).congr fun a cs => ?_
    · split
      · next kind hkind =>
        refine (hknown nameIndex kind length c₃ (hpast₃.kept.trans hc₂)).congr fun a cs => ?_
        simp [NamedBy, hkind]
      · next hname =>
        exact (ReadsAt.throw _).congr fun a cs => by simp [NamedBy, hname]
      · next hname =>
        refine ((reads_report _ c₃).outer.bind fun _ _ c _ _ =>
          (reads_bytes length.toNat c).outer.map fun bytes => leaf nameIndex (.unknown bytes)).congr
            fun a cs => ?_
        simp [Then, NamedBy, hname]
        grind
    · simp [Then]
  · simp [Then]
    grind

/-- What is read for a known name, unless that would be nested too deep. -/
def Known (options : Options) (pool : Pool) (depth : Nat) (nameIndex : UInt16) (kind : Kind)
    (length : UInt32) (a : Attribute) (bs : List UInt8) : Prop :=
  depth < options.maxDepth ∧
    (a.nameIndex = nameIndex ∧ a.kind? = some kind ∧ a.PayloadRegular options pool (depth + 1)) ∧
      bs = a.payload ∧ bs.length = length.toNat

theorem eq_unknown_of_kind? {a : Attribute} (h : a.kind? = none) :
    ∃ bytes, a = leaf a.nameIndex (.unknown bytes) := by
  cases a with
  | leaf nameIndex content =>
    cases content with
    | unknown bytes => exact ⟨bytes, rfl⟩
    | _ => cases h
  | code nameIndex block as => cases h

/-- The two ways to read an attribute make up all that is regular. -/
theorem named_iff {a : Attribute} {bs : List UInt8} :
    (∃ nameIndex length name cs, pool.getUtf8 nameIndex = .ok name ∧
      NamedBy options.unknown (Known options pool depth) name nameIndex length a cs ∧
      bs = Layout.u16 nameIndex ++ (Layout.u32 length ++ cs)) ↔
    (a.Fits ∧ a.Regular options pool (depth + 1)) ∧ bs = a.layout := by
  rw [fits_and_regular_iff]
  constructor
  · rintro ⟨nameIndex, length, name, cs, hname, ⟨kind, hkind, hdepth, ⟨rfl, ha, hpayload⟩, rfl,
      hlength⟩ | ⟨hunknown, hpolicy, hlength, rfl⟩, rfl⟩
    · refine ⟨⟨?_, hpayload, ?_⟩, ?_⟩
      · rw [ha]
        exact ⟨by rw [hname, Kind.nameBytes_of_ofName? hkind], hdepth⟩
      · rw [hlength]
        exact Nat.le_of_lt_succ length.toNat_lt
      · rw [layout, framed, hlength, Layout.u32]
    · refine ⟨⟨⟨hpolicy, name, hname, hunknown⟩, trivial, ?_⟩, ?_⟩
      · show cs.length ≤ _
        rw [hlength]
        exact Nat.le_of_lt_succ length.toNat_lt
      · show _ = framed nameIndex cs
        rw [framed, hlength, Layout.u32]
  · rintro ⟨⟨hname, hpayload, hlength⟩, rfl⟩
    have hstored : (UInt32.ofNat a.payload.length).toNat = a.payload.length :=
      UInt32.toNat_ofNat_of_lt' (Nat.lt_succ_of_le hlength)
    have hlayout : a.layout = Layout.u16 a.nameIndex ++
        (Layout.u32 (UInt32.ofNat a.payload.length) ++ a.payload) := by
      rw [layout, framed, Layout.u32, hstored]
    cases hkind : a.kind? with
    | some kind =>
      rw [hkind] at hname
      obtain ⟨hname, hdepth⟩ := hname
      exact ⟨a.nameIndex, _, _, a.payload, hname, Or.inl ⟨kind, Kind.ofName?_nameBytes kind, hdepth,
        ⟨rfl, hkind, hpayload⟩, rfl, hstored.symm⟩, hlayout⟩
    | none =>
      rw [hkind] at hname
      obtain ⟨hpolicy, name, hname, hunknown⟩ := hname
      obtain ⟨bytes, ha⟩ := eq_unknown_of_kind? hkind
      have hbytes : a.payload = bytes := by
        rw [ha, payload, Content.layout]
      rw [hbytes] at hstored hlayout
      exact ⟨a.nameIndex, _, name, bytes, hname, Or.inr ⟨hunknown, hpolicy, hstored.symm, ha⟩,
        hlayout⟩

/-- As many levels are left as the cursor is away from the limit. -/
theorem reads_decodeWithin {levels : Nat} : ∀ {c : Cursor}, levels = options.maxDepth - c.depth →
    ReadsAt Cursor.outerContext c (decodeWithin options levels) fun a bs =>
      (a.Fits ∧ a.Regular options c.pool (c.depth + 1)) ∧ bs = a.layout := by
  induction levels with
  | zero =>
    intro c hc
    have hdepth : ¬ c.depth < options.maxDepth := by omega
    refine (reads_decodeNamed (R := Known options c.pool c.depth)
      fun nameIndex kind length c' _ => ?_).congr fun a bs => named_iff
    exact (ReadsAt.throw _).congr fun a bs => iff_of_false not_false fun h => hdepth h.1
  | succ levels ih =>
    intro c hc
    have hdepth : c.depth < options.maxDepth := by omega
    refine (reads_decodeNamed (R := Known options c.pool c.depth)
      fun nameIndex kind length c' hc' => ?_).congr fun a bs => named_iff
    have hpool : c'.pool = c.pool := Cursor.pool_of_outerContext hc'
    have hdepth' : c'.depth = c.depth := Cursor.depth_of_outerContext hc'
    have hinner (c'' : Cursor) (hc'' : c''.outerContext = (c.pool, c.depth + 1)) :
        ReadsAt Cursor.outerContext c'' (decodeWithin options levels) fun a bs =>
          (a.Fits ∧ a.Regular options c.pool (c.depth + 1 + 1)) ∧ bs = a.layout := by
      obtain ⟨hpool, hdepth⟩ := Prod.mk.inj hc''
      have := ih (c := c'') (by omega)
      rwa [hpool, hdepth] at this
    have hnested : Cursor.outerContext { c' with depth := c'.depth + 1 } =
        (c.pool, c.depth + 1) := by
      rw [Cursor.outerContext, hpool, hdepth']
    refine (reads_decodeMeasured (reads_decodePayload hnested hinner nameIndex kind length)).congr
      fun a bs => ?_
    exact (and_iff_right hdepth).symm

theorem reads_decode (options : Options) (c : Cursor) :
    ReadsAt Cursor.outerContext c (decode options) fun a bs =>
      (a.Fits ∧ a.Regular options c.pool (c.depth + 1)) ∧ bs = a.layout :=
  .get_bind (reads_decodeWithin rfl)

theorem reads_counted (options : Options) {c : Cursor} (hc : c.outerContext = (pool, depth)) :
    ReadsAt Cursor.outerContext c (Decode.counted (decode options)) fun as bs =>
      (as.length ≤ 65535 ∧ ∀ a ∈ as, a.Fits ∧ a.Regular options pool (depth + 1)) ∧
        bs = Layout.counted layout as := by
  refine .counted (reads_u16 c).outer fun c' hc' => ?_
  obtain ⟨hpool, hdepth⟩ := Prod.mk.inj (hc'.trans hc)
  have := reads_decode options c'
  rwa [hpool, hdepth] at this

end Attribute
end JavaClass

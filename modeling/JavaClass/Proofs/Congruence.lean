import JavaClass.Operation
import JavaClass.Proofs.Reading

/-!
# Relations between runs

Many facts about reading compare two runs: on more bytes, at another place, under other options.
Such a comparison is a relation between decoders that goes through `bind`. Which relation it is
matters for a few primitives only, the ones of `Decode.Congruence` and, where code, attributes or
constants come in, of `Attribute.Congruence` and `ClassFile.Congruence`. That every decoder is
related to itself follows from these, once and for all: `constant`, `instruction`,
`attributeDecode`, `classDecode`. A property of single runs is a relation too (`Decode.Law`,
`ClassFile.Law`).

Two errors are not about what has been read but about a limit that reading has come to. That
attributes are nested too deep is the only error which depends on the options, and it is found where
an attribute is entered and nowhere else; that the bytes have come to their end is found by `bytes`
alone. So a `Decode.Congruence` may treat both in a way of its own.
-/

namespace JavaClass

/-- The errors of reading that has come to a limit. -/
inductive Error.AtLimit : Error → Prop
  | nestedTooDeep (limit : Nat) : AtLimit (.nestedTooDeep limit)
  | unexpectedEnd : AtLimit .unexpectedEnd

/-- A padding of which it is known how long it has to be. -/
def Instruction.decodeZeros (op : Opcode) (padding : Nat) : Decode UInt8 := do
  let zeros ← Decode.times padding Decode.u8
  match zeros.findIdx? (· ≠ 0) with
  | none => return UInt8.ofNat padding
  | some position =>
    Decode.report (.nonzeroPadding position (← Decode.offset))
    throw (.malformedInstruction op.byte .paddingNotZero)

theorem Instruction.decodePadding_eq (op : Opcode) : decodePadding op = (do
    let c ← get
    decodeZeros op (paddingAt (UInt64.ofNat c.offset - c.codeStart))) := rfl

/-- The end of reading an attribute, when it is known how long the payload was. -/
def Attribute.decodeCompared (kind : Kind) (length : UInt32) (a : Attribute) (actual : Nat) :
    Decode Attribute := do
  if actual ≠ length.toNat then
    throw (.attributeLengthMismatch kind length actual)
  Decode.report (.readAttribute kind length)
  return a

theorem Attribute.decodeMeasured_eq (kind : Kind) (length : UInt32) (payload : Decode Attribute) :
    decodeMeasured kind length payload = (do
      let start ← Decode.offset
      let a ← Decode.nested payload
      decodeCompared kind length a ((← Decode.offset) - start)) := rfl

/-- A relation between decoders that goes through the primitives of reading. -/
structure Decode.Congruence where
  rel : {α : Type} → Decode α → Decode α → Prop
  protected pure : ∀ {α : Type} (a : α), rel (pure a) (pure a)
  protected throw : ∀ {α : Type} (e : Error), ¬ e.AtLimit → rel (throw e : Decode α) (throw e)
  protected bind : ∀ {α β : Type} {d d' : Decode α} {f f' : α → Decode β},
    rel d d' → (∀ a, rel (f a) (f' a)) → rel (d >>= f) (d' >>= f')
  protected bytes : ∀ n, rel (Decode.bytes n) (Decode.bytes n)
  protected pool : rel Decode.pool Decode.pool
  protected report : ∀ event, rel (Decode.report event) (Decode.report event)
  /-- The offset may be reported, whether or not it is the same in both runs. -/
  reportOffset : ∀ {α : Type} (event : Nat → Event) {d d' : Decode α}, rel d d' →
    rel (do Decode.report (event (← Decode.offset)); d)
      (do Decode.report (event (← Decode.offset)); d')

namespace Decode.Congruence

variable {K : Congruence} {α β γ : Type} {d d' : Decode α}

theorem map (g : α → β) (h : K.rel d d') :
    K.rel (do return g (← d)) (do return g (← d')) :=
  K.bind h fun a => K.pure (g a)

theorem both {e e' : Decode β} (g : α → β → γ) (h : K.rel d d') (h' : K.rel e e') :
    K.rel (do return g (← d) (← e)) (do return g (← d') (← e')) :=
  K.bind h fun a => K.map (g a) h'

theorem check {p : Prop} [Decidable p] (e : Error) (he : ¬ e.AtLimit) (h : K.rel d d') :
    K.rel (if p then throw e else d) (if p then throw e else d') := by
  split
  · exact K.throw e he
  · exact h

/-! ### Numbers and lists -/

theorem number (width : Nat) : K.rel (Decode.number width) (Decode.number width) :=
  K.map _ (K.bytes width)

protected theorem u8 : K.rel Decode.u8 Decode.u8 := K.map _ (number 1)

protected theorem u16 : K.rel Decode.u16 Decode.u16 := K.map _ (number 2)

protected theorem u32 : K.rel Decode.u32 Decode.u32 := K.map _ (number 4)

protected theorem i8 : K.rel Decode.i8 Decode.i8 := K.map _ K.u8

protected theorem i16 : K.rel Decode.i16 Decode.i16 := K.map _ K.u16

protected theorem i32 : K.rel Decode.i32 Decode.i32 := K.map _ K.u32

protected theorem times (n : Nat) (h : K.rel d d') :
    K.rel (Decode.times n d) (Decode.times n d') := by
  induction n with
  | zero => exact K.pure []
  | succ n ih =>
    rw [times_succ, times_succ]
    exact K.bind h fun a => K.map (a :: ·) ih

protected theorem counted (h : K.rel d d') : K.rel (Decode.counted d) (Decode.counted d') :=
  K.bind K.u16 fun n => K.times n.toNat h

protected theorem lift {r : Except Error α} (hr : ∀ e, r = .error e → ¬ e.AtLimit) :
    K.rel (Decode.lift r) (Decode.lift r) := by
  cases r with
  | ok a => exact K.pure a
  | error e => exact K.throw e (hr e rfl)

/-! ### Constants, frames and tables -/

theorem constant : K.rel Constant.decode Constant.decode := by
  refine K.bind K.u8 fun tag => ?_
  split
  · exact K.map _ (K.counted K.u8)
  · exact K.map _ K.u32
  · exact K.map _ K.u32
  · exact K.both _ K.u32 K.u32
  · exact K.both _ K.u32 K.u32
  · exact K.map _ K.u16
  · exact K.map _ K.u16
  · exact K.both _ K.u16 K.u16
  · exact K.both _ K.u16 K.u16
  · exact K.both _ K.u16 K.u16
  · exact K.both _ K.u16 K.u16
  · exact K.both _ K.u8 K.u16
  · exact K.map _ K.u16
  · exact K.both _ K.u16 K.u16
  · exact K.throw _ nofun

theorem verificationType : K.rel VerificationType.decode VerificationType.decode := by
  refine K.bind K.u8 fun tag => ?_
  split
  · exact K.pure _
  · exact K.pure _
  · exact K.pure _
  · exact K.pure _
  · exact K.pure _
  · exact K.pure _
  · exact K.pure _
  · exact K.map _ K.u16
  · exact K.map _ K.u16
  · exact K.throw _ nofun

theorem stackFrame : K.rel StackFrame.decode StackFrame.decode := by
  have htypes := K.counted K.verificationType
  refine K.bind K.u8 fun type => ?_
  split
  · exact K.pure _
  split
  · exact K.map _ K.verificationType
  split
  · exact K.throw _ nofun
  split
  · exact K.both _ K.u16 K.verificationType
  split
  · exact K.map _ K.u16
  split
  · exact K.map _ K.u16
  split
  · exact K.both _ K.u16 (K.times _ K.verificationType)
  · exact K.bind K.u16 fun _ => K.both _ htypes htypes

theorem exceptionHandler : K.rel ExceptionHandler.decode ExceptionHandler.decode :=
  K.bind K.u16 fun _ => K.bind K.u16 fun _ => K.both _ K.u16 K.u16

theorem lineNumber : K.rel LineNumber.decode LineNumber.decode :=
  K.both _ K.u16 K.u16

theorem localVariable : K.rel LocalVariable.decode LocalVariable.decode :=
  K.bind K.u16 fun _ => K.bind K.u16 fun _ => K.bind K.u16 fun _ => K.both _ K.u16 K.u16

theorem innerClass : K.rel InnerClass.decode InnerClass.decode :=
  K.bind K.u16 fun _ => K.bind K.u16 fun _ => K.both _ K.u16 K.u16

theorem bootstrapMethod : K.rel BootstrapMethod.decode BootstrapMethod.decode :=
  K.both _ K.u16 (K.counted K.u16)

theorem methodParameter : K.rel MethodParameter.decode MethodParameter.decode :=
  K.both _ K.u16 K.u16

/-! ### Instructions -/

section

open Instruction

/-- Once its length is known, a padding is read alike. -/
theorem zeros (op : Opcode) (padding : Nat) :
    K.rel (decodeZeros op padding) (decodeZeros op padding) := by
  refine K.bind (K.times _ K.u8) fun zeros => ?_
  split
  · exact K.pure _
  · exact K.reportOffset _ (K.throw _ nofun)

/-- Only switches have a padding. -/
theorem operands (op : Opcode)
    (hpadding : op.form = .tableSwitch ∨ op.form = .lookupSwitch →
      ∀ op, K.rel (decodePadding op) (decodePadding op)) :
    K.rel (decodeOperands op) (decodeOperands op) := by
  rw [decodeOperands]
  split
  · exact K.pure _
  · rw [decodeImplicit]
    split
    · exact K.pure _
    · exact K.throw _ nofun
  · exact K.map _ K.i8
  · exact K.map _ K.i16
  · exact K.map _ K.u8
  · exact K.map _ K.u16
  · exact K.map _ K.u8
  · exact K.both _ K.u8 K.i8
  · exact K.map _ K.i16
  · exact K.map _ K.i32
  · exact K.map _ K.u16
  · exact K.bind K.u16 fun _ => K.bind K.u8 fun _ => K.bind K.u8 fun _ =>
      K.check _ nofun (K.pure _)
  · exact K.bind K.u16 fun _ => K.bind K.u16 fun _ => K.check _ nofun (K.pure _)
  · refine K.bind K.u8 fun code => ?_
    split
    · exact K.pure _
    · exact K.throw _ nofun
  · exact K.both _ K.u16 K.u8
  · next hform =>
    exact K.bind (hpadding (.inl hform) _) fun _ => K.bind K.i32 fun _ => K.bind K.i32 fun _ =>
      K.bind K.i32 fun _ => K.check _ nofun (K.map _ (K.times _ K.i32))
  · next hform =>
    exact K.bind (hpadding (.inr hform) _) fun _ => K.bind K.i32 fun _ => K.bind K.i32 fun _ =>
      K.check _ nofun (K.map _ (K.times _ (K.both _ K.i32 K.i32)))
  · refine K.bind K.u8 fun byte => ?_
    split
    · exact K.throw _ nofun
    · split
      · exact K.map _ K.u16
      · exact K.both _ K.u16 K.i16
      · exact K.throw _ nofun
  · exact K.throw _ nofun

/-- Switches are read alike if their padding is. -/
theorem instruction (hpadding : ∀ op, K.rel (decodePadding op) (decodePadding op)) :
    K.rel Instruction.decode Instruction.decode := by
  refine K.bind K.u8 fun byte => ?_
  split
  · exact K.operands _ fun _ => hpadding
  · exact K.throw _ nofun

theorem instructions (h : K.rel Instruction.decode Instruction.decode) (left inside : Nat)
    (code : List Instruction) :
    K.rel (CodeBlock.decodeInstructions left inside code)
      (CodeBlock.decodeInstructions left inside code) := by
  induction left generalizing inside code with
  | zero => exact K.pure _
  | succ left ih =>
    cases inside with
    | zero => exact K.bind h fun i => ih i.operandLength (i :: code)
    | succ inside => exact ih inside code

/-- From the start of the code on, where positions are counted from, a finer relation may hold. -/
theorem decodeCode_of_start {K' : Congruence}
    (hpadding : ∀ op, K'.rel (decodePadding op) (decodePadding op))
    (hstart : ∀ {β : Type} {e e' : Decode β}, K'.rel e e' →
      K.rel (do modify fun c => { c with codeStart := UInt64.ofNat c.offset }; e)
        (do modify fun c => { c with codeStart := UInt64.ofNat c.offset }; e')) :
    K.rel CodeBlock.decodeCode CodeBlock.decodeCode :=
  K.bind K.u32 fun _ => hstart (K'.bind (K'.instructions (K'.instruction hpadding) _ _ _)
    fun _ => K'.check _ nofun (K'.bind (K'.report _) fun _ => K'.pure _))

/-- Code is read alike if positions in it are counted alike. -/
theorem decodeCode (hpadding : ∀ op, K.rel (decodePadding op) (decodePadding op))
    (hstart : K.rel (modify fun c => { c with codeStart := UInt64.ofNat c.offset } : Decode PUnit)
      (modify fun c => { c with codeStart := UInt64.ofNat c.offset })) :
    K.rel CodeBlock.decodeCode CodeBlock.decodeCode :=
  K.decodeCode_of_start hpadding fun h => K.bind hstart fun _ => h

end

/-! ### Payloads and pools -/

theorem codeBlock (hcode : K.rel CodeBlock.decodeCode CodeBlock.decodeCode) :
    K.rel CodeBlock.decode CodeBlock.decode :=
  K.bind K.u16 fun _ => K.bind K.u16 fun _ => K.both _ hcode (K.counted K.exceptionHandler)

section

open Attribute

/-- Only in code there are attributes again. -/
theorem leafPayload {inner inner' : Decode Attribute} {kind : Kind} (hkind : kind ≠ .code)
    (nameIndex : UInt16) (length : UInt32) :
    K.rel (decodePayload inner nameIndex kind length)
      (decodePayload inner' nameIndex kind length) := by
  have hleaf {content : Decode Content} (hcontent : K.rel content content) :
      K.rel (decodePayload.leaf nameIndex content) (decodePayload.leaf nameIndex content) :=
    K.map _ hcontent
  cases kind with
  | code => exact absurd rfl hkind
  | constantValue => exact hleaf (K.map _ K.u16)
  | stackMapTable => exact hleaf (K.map _ (K.counted K.stackFrame))
  | exceptions => exact hleaf (K.map _ (K.counted K.u16))
  | innerClasses => exact hleaf (K.map _ (K.counted K.innerClass))
  | enclosingMethod => exact hleaf (K.both _ K.u16 K.u16)
  | synthetic => exact hleaf (K.pure _)
  | signature => exact hleaf (K.map _ K.u16)
  | sourceFile => exact hleaf (K.map _ K.u16)
  | sourceDebugExtension => exact hleaf (K.map _ (K.bytes _))
  | lineNumberTable => exact hleaf (K.map _ (K.counted K.lineNumber))
  | localVariableTable => exact hleaf (K.map _ (K.counted K.localVariable))
  | localVariableTypeTable => exact hleaf (K.map _ (K.counted K.localVariable))
  | deprecated => exact hleaf (K.pure _)
  | bootstrapMethods => exact hleaf (K.map _ (K.counted K.bootstrapMethod))
  | methodParameters => exact hleaf (K.bind K.u8 fun _ => K.map _ (K.times _ K.methodParameter))
  | nestHost => exact hleaf (K.map _ K.u16)
  | nestMembers => exact hleaf (K.map _ (K.counted K.u16))

end

theorem compared (kind : Attribute.Kind) (length : UInt32) (a : Attribute) (actual : Nat) :
    K.rel (Attribute.decodeCompared kind length a actual)
      (Attribute.decodeCompared kind length a actual) :=
  K.check _ nofun (K.bind (K.report _) fun _ => K.pure a)

section

variable (hadd : ∀ k, K.rel (Decode.addConstant k) (Decode.addConstant k))
include hadd

theorem fill (indices : Nat) : K.rel (Pool.fill indices) (Pool.fill indices) := by
  induction indices using Nat.strongRecOn with
  | _ indices ih =>
    match indices with
    | 0 => exact K.pure true
    | 1 => exact K.bind K.constant fun k => K.bind (hadd k) fun _ => K.pure _
    | indices + 2 =>
      refine K.bind K.constant fun k => K.bind (hadd k) fun _ => ?_
      split
      · exact ih indices (by omega)
      · exact ih (indices + 1) (by omega)

theorem poolDecode : K.rel Pool.decode Pool.decode := by
  refine K.bind K.u16 fun count => K.check _ nofun (K.bind (K.fill hadd _) fun filled => ?_)
  cases filled with
  | true => exact K.bind K.pool fun pool => K.report _
  | false => exact K.throw _ nofun

end

end Decode.Congruence

/-- A property of single runs that goes through the primitives of reading. -/
structure Decode.Law where
  holds : {α : Type} → Decode α → Prop
  protected pure : ∀ {α : Type} (a : α), holds (pure a)
  protected throw : ∀ {α : Type} (e : Error), ¬ e.AtLimit → holds (throw e : Decode α)
  protected bind : ∀ {α β : Type} {d : Decode α} {f : α → Decode β},
    holds d → (∀ a, holds (f a)) → holds (d >>= f)
  protected bytes : ∀ n, holds (Decode.bytes n)
  /-- What is read may depend on the cursor. -/
  get_bind : ∀ {α : Type} {f : Cursor → Decode α}, (∀ c, holds (f c)) → holds (get >>= f)
  protected report : ∀ event, holds (Decode.report event)

namespace Decode.Law

variable (L : Law) {α : Type} {d : Decode α}

protected theorem offset : L.holds offset :=
  L.get_bind fun c => L.pure c.offset

theorem check {p : Prop} [Decidable p] (e : Error) (he : ¬ e.AtLimit) (h : L.holds d) :
    L.holds (if p then throw e else d) := by
  split
  · exact L.throw e he
  · exact h

def congruence : Congruence where
  rel d _ := L.holds d
  pure := L.pure
  throw := L.throw
  bind := L.bind
  bytes := L.bytes
  pool := L.get_bind fun c => L.pure c.pool
  report := L.report
  reportOffset event _ _ h := L.bind L.offset fun n => L.bind (L.report (event n)) fun _ => h

theorem padding (op : Opcode) : L.holds (Instruction.decodePadding op) := by
  rw [Instruction.decodePadding_eq]
  exact L.get_bind fun _ => L.congruence.zeros op _

protected theorem instruction : L.holds Instruction.decode :=
  L.congruence.instruction L.padding

end Decode.Law

/-- What a look-up in the pool complains of are indices. -/
theorem Error.IsLookup.not_atLimit {e : Error} (h : e.IsLookup) : ¬ e.AtLimit := by
  cases h with
  | indexOutOfRange | unusableIndex | wrongConstantKind => rintro ⟨⟩

theorem Pool.getUtf8_not_atLimit (p : Pool) (index : UInt16) (e : Error)
    (h : p.getUtf8 index = .error e) : ¬ e.AtLimit :=
  (isLookup_of_getUtf8 h).not_atLimit

/-! ### Attributes -/

/-- A relation that also goes through what attributes do beside reading. -/
structure Attribute.Congruence extends Decode.Congruence where
  protected tooDeep : ∀ limit, rel (MonadExcept.throw (.nestedTooDeep limit) : Decode Attribute)
    (MonadExcept.throw (.nestedTooDeep limit))
  protected code : rel CodeBlock.decodeCode CodeBlock.decodeCode
  protected measured : ∀ (kind : Kind) (length : UInt32) {d d' : Decode Attribute}, rel d d' →
    rel (decodeMeasured kind length d) (decodeMeasured kind length d')
  /-- The depth is the same in both runs. -/
  protected depth : ∀ {α : Type} {f f' : Nat → Decode α}, (∀ n, rel (f n) (f' n)) →
    rel (do f (← get).depth) (do f' (← get).depth)

namespace Attribute.Congruence

variable {K : Congruence} {options : Options}

theorem payload {inner inner' : Decode Attribute} (h : K.rel inner inner') (nameIndex : UInt16)
    (kind : Kind) (length : UInt32) :
    K.rel (decodePayload inner nameIndex kind length)
      (decodePayload inner' nameIndex kind length) := by
  by_cases hkind : kind = .code
  · subst hkind
    exact K.both _ (K.codeBlock K.code) (K.counted h)
  · exact K.leafPayload hkind nameIndex length

theorem named {known known' : UInt16 → Kind → UInt32 → Decode Attribute} (policy : UnknownPolicy)
    (h : ∀ nameIndex kind length,
      K.rel (known nameIndex kind length) (known' nameIndex kind length)) :
    K.rel (decodeNamed policy known) (decodeNamed policy known') := by
  refine K.bind K.u16 fun nameIndex => K.bind K.u32 fun length => K.bind K.pool fun pool =>
    K.bind (K.lift (pool.getUtf8_not_atLimit nameIndex)) fun name => ?_
  split
  · exact h nameIndex _ length
  · exact K.throw _ nofun
  · exact K.bind (K.report _) fun _ => K.map _ (K.bytes _)

theorem within (levels : Nat) :
    K.rel (decodeWithin options levels) (decodeWithin options levels) := by
  induction levels with
  | zero => exact K.named _ fun _ _ _ => K.tooDeep _
  | succ levels ih =>
    exact K.named _ fun nameIndex kind length =>
      K.measured kind length (K.payload ih nameIndex kind length)

theorem attributeDecode : K.rel (Attribute.decode options) (Attribute.decode options) :=
  K.depth fun _ => K.within _

theorem member : K.rel (Member.decode options) (Member.decode options) :=
  K.bind K.u16 fun _ => K.bind K.u16 fun _ => K.both _ K.u16 (K.counted K.attributeDecode)

theorem memberReported (event : String → Event) :
    K.rel (Member.decodeReported options event) (Member.decodeReported options event) :=
  K.bind K.member fun m => K.bind K.pool fun _ => K.bind (K.report _) fun _ => K.pure m

end Attribute.Congruence

/-! ### Class files -/

/-- A relation that also goes through the adding of a constant. -/
structure ClassFile.Congruence extends toAttributes : Attribute.Congruence where
  protected addConstant : ∀ k, rel (Decode.addConstant k) (Decode.addConstant k)

namespace ClassFile.Congruence

variable {K : Congruence} {options : Options}

theorem classDecode : K.rel (ClassFile.decode options) (ClassFile.decode options) := by
  refine K.bind K.u32 fun found => K.check _ nofun (K.bind K.u16 fun minor =>
    K.bind K.u16 fun major => K.bind (K.poolDecode K.addConstant) fun _ =>
    K.bind K.u16 fun accessFlags => K.bind K.u16 fun thisClass =>
    K.bind K.u16 fun superClass => K.bind (K.counted K.u16) fun interfaces =>
    K.bind (K.counted (K.memberReported _)) fun fields =>
    K.bind (K.counted (K.memberReported _)) fun methods =>
    K.bind (K.counted K.attributeDecode) fun attributes => K.bind K.pool fun pool => ?_)
  exact K.reportOffset _ (K.pure _)

end ClassFile.Congruence

/-! ### Properties of attributes and classes -/

/-- A property of single runs that also goes through what attributes do beside reading. -/
structure Attribute.Law extends Decode.Law where
  tooDeep : ∀ {α : Type} (limit : Nat), holds (MonadExcept.throw (.nestedTooDeep limit) : Decode α)
  setCodeStart : ∀ f : Cursor → UInt64,
    holds (modify fun c => { c with codeStart := f c } : Decode PUnit)
  protected nested : ∀ {α : Type} {d : Decode α}, holds d → holds (Decode.nested d)

def Attribute.Law.congruence (L : Law) : Congruence where
  toCongruence := L.toLaw.congruence
  tooDeep := L.tooDeep
  code := L.toLaw.congruence.decodeCode L.padding (L.setCodeStart _)
  measured kind length d _ h := by
    show L.holds (decodeMeasured kind length d)
    rw [decodeMeasured_eq]
    exact L.bind L.offset fun _ => L.bind (L.nested h) fun a => L.bind L.offset fun _ =>
      L.toLaw.congruence.compared kind length a _
  depth h := L.get_bind fun c => h c.depth

/-- A property of single runs that also goes through the adding of a constant. -/
structure ClassFile.Law extends toAttributes : Attribute.Law where
  protected addConstant : ∀ k, holds (Decode.addConstant k)

def ClassFile.Law.congruence (L : Law) : Congruence where
  toAttributes := L.toAttributes.congruence
  addConstant := L.addConstant

/-- Which operations a property holds of depends on the few that do more than `Decode.Law` says. -/
theorem Decode.Law.operation (L : Law) {options : Options} {op : Operation}
    (hadd : ∀ k, op = .addConstant k → L.holds (Decode.addConstant k))
    (hset : ∀ n, op = .setCodeStart n →
      L.holds (modify fun c => { c with codeStart := n } : Decode PUnit))
    (hattribute : op = .readAttribute → L.holds (Attribute.decode options))
    (hclass : op = .readClass → L.holds (ClassFile.decode options)) :
    L.holds (op.decode options) := by
  cases op with
  | addConstant k => exact L.get_bind fun c => L.bind (hadd k rfl) fun _ => L.pure _
  | setCodeStart offset => exact hset offset rfl
  | u8 => exact L.congruence.u8
  | u16 => exact L.congruence.u16
  | u32 => exact L.congruence.u32
  | i8 => exact L.congruence.i8
  | i16 => exact L.congruence.i16
  | i32 => exact L.congruence.i32
  | bytes n => exact L.bytes n
  | readInstruction => exact L.instruction
  | readAttribute => exact hattribute rfl
  | readClass => exact hclass rfl

theorem ClassFile.Law.anyOperation (L : Law) (options : Options) (op : Operation) :
    L.holds (op.decode options) :=
  L.toLaw.operation (fun k _ => L.addConstant k) (fun n _ => L.setCodeStart fun _ => n)
    (fun _ => L.congruence.attributeDecode) fun _ => L.congruence.classDecode

end JavaClass

import JavaClass.Proofs.Frame
import JavaClass.Proofs.Positions

/-!
# What an operation leaves behind

Whatever comes of an operation, of what the next ones depend on it changes three things at most:
there are bytes less, there may be more constants, and the start of the code may be another one
(`Operation.aftermath`). The first two are in `Frame`; here it is which code the start belongs to.

The start of the code is set by an operation of its own, and in code right before the first
instruction. Nothing sets it back, so after reading it belongs to the last code that was entered,
whether or not that has been read to its end (`Decode.SetsStart`). Code is entered where an
attribute of that name is read, there are levels left for it, and the length of the code is there:
that is `Attribute.StartsCode`, which also looks for code inside of code.
-/

namespace JavaClass

open Decode

namespace Decode

variable {α β : Type} {S S' : Cursor → Prop} {d : Decode α} {f : α → Decode β} {c s : Cursor}

/-- From `c`, reading leaves the start of the code as it is or sets it to that of one of `S`. -/
def SetsStart (S : Cursor → Prop) (d : Decode α) (c : Cursor) : Prop :=
  (outcome d c).2.codeStart = c.codeStart ∨
    ∃ start, S start ∧ (outcome d c).2.codeStart = start.codeStart

/-- Reading leaves the start of the code as it is. -/
abbrev KeepsStart (d : Decode α) : Prop :=
  Leaves (fun c s => s.codeStart = c.codeStart) d

theorem KeepsStart.setsStart (h : KeepsStart d) (c : Cursor) : SetsStart S d c :=
  .inl (h c)

namespace SetsStart

theorem mono (h : SetsStart S d c) (hS : ∀ start, S start → S' start) : SetsStart S' d c := by
  obtain hsame | ⟨start, hstart, hset⟩ := h
  · exact .inl hsame
  · exact .inr ⟨start, hS start hstart, hset⟩

theorem bind (h : SetsStart S d c) (hf : ∀ a s, d c = .ok a s → SetsStart S (f a) s) :
    SetsStart S (d >>= f) c := by
  cases hd : d c with
  | ok a s =>
    rw [SetsStart, outcome_of_ok hd] at h
    rw [SetsStart, outcome_bind_of_ok hd]
    obtain hsame | hset := hf a s hd
    · rw [hsame]
      exact h
    · exact .inr hset
  | error e s =>
    rw [SetsStart, outcome_of_error hd] at h
    rw [SetsStart, outcome_of_error (bind_of_error hd)]
    exact h

/-- The first step does not set the start. -/
theorem bind_keeps (h : KeepsStart d) (hf : ∀ a s, d c = .ok a s → SetsStart S (f a) s) :
    SetsStart S (d >>= f) c :=
  .bind (h.setsStart c) hf

/-- The second step does not set the start. -/
theorem then_keeps (h : SetsStart S d c) (hf : ∀ a, KeepsStart (f a)) :
    SetsStart S (d >>= f) c :=
  .bind h fun a s _ => (hf a).setsStart s

theorem check {p : Prop} [Decidable p] {e : Error} (h : ¬ p → SetsStart S d c) :
    SetsStart S (if p then throw e else d) c := by
  by_cases hp : p
  · rw [if_pos hp]
    exact .inl rfl
  · rw [if_neg hp]
    exact h hp

theorem nested (h : SetsStart S d { c with depth := c.depth + 1 }) :
    SetsStart S (nested d) c := by
  cases hd : d { c with depth := c.depth + 1 } with
  | ok a s =>
    rw [SetsStart, outcome_of_ok hd] at h
    rw [SetsStart, outcome_of_ok (nested_of_ok hd)]
    exact h
  | error e s =>
    rw [SetsStart, outcome_of_error hd] at h
    rw [SetsStart, outcome_of_error (nested_of_error hd)]
    exact h

end SetsStart

/-- While a counted list is read at `c`, one of its items is read at `place`. -/
def ItemAt (item : Decode α) (c place : Cursor) : Prop :=
  ∃ count c₁ run, u16 c = .ok count c₁ ∧ Chain item c₁ run place ∧ run.length < count.toNat

def keepsStart : Law :=
  leaving Cursor.frame_codeStart

theorem setsStart_times {item : Decode α} (n : Nat)
    (h : ∀ run place, Chain item c run place → run.length < n → SetsStart S item place) :
    SetsStart S (times n item) c := by
  induction n generalizing c with
  | zero => exact KeepsStart.setsStart (keepsStart.pure []) c
  | succ n ih =>
    rw [times_succ]
    refine .bind (h [] c (.nil c) (Nat.succ_pos n)) fun a s ha => ?_
    refine .then_keeps (ih fun run place hrun hlength => ?_) fun as => keepsStart.pure (a :: as)
    exact h ((c, a) :: run) place (.cons ha hrun) (Nat.succ_lt_succ hlength)

theorem setsStart_counted {item : Decode α}
    (h : ∀ place, ItemAt item c place → SetsStart S item place) :
    SetsStart S (counted item) c :=
  .bind_keeps keepsStart.congruence.u16 fun count c₁ hcount => setsStart_times count.toNat
    fun run place hrun hlength => h place ⟨count, c₁, run, hcount, hrun, hlength⟩

end Decode

/-! ### Code -/

namespace CodeBlock

/-- The start of the code that follows. -/
theorem setsStart_decodeCode (c : Cursor) :
    SetsStart (fun start => ∃ length c₁, u32 c = .ok length c₁ ∧
      start = { c₁ with codeStart := UInt64.ofNat c₁.offset }) decodeCode c := by
  refine .bind_keeps keepsStart.congruence.u32 fun length c₁ hlength => ?_
  have hset : SetsStart (fun start => ∃ length c₁, u32 c = .ok length c₁ ∧
      start = { c₁ with codeStart := UInt64.ofNat c₁.offset })
      (modify fun c => { c with codeStart := UInt64.ofNat c.offset } : Decode PUnit) c₁ :=
    .inr ⟨_, ⟨length, c₁, hlength, rfl⟩, rfl⟩
  have hinstructions (n : Nat) : KeepsStart (decodeInstructions n 0 []) :=
    keepsStart.congruence.instructions keepsStart.instruction n 0 []
  exact hset.then_keeps fun _ => keepsStart.bind (hinstructions _) fun _ =>
    keepsStart.check _ nofun (keepsStart.bind (keepsStart.report _) fun _ =>
      keepsStart.pure _)

end CodeBlock

namespace Attribute

variable {options : Options} {c : Cursor}

/-- At `c` there is an attribute with the name of code, and there are levels left for it. -/
structure EntersCode (options : Options) (c : Cursor) : Prop where
  named : ∃ index c₁, u16 c = .ok index c₁ ∧ c.pool.getUtf8 index = .ok Kind.code.nameBytes
  depth_lt : c.depth < options.maxDepth

/-- Reads code up to the attributes inside of it. -/
def enterBlock : Decode CodeBlock := do
  enter
  CodeBlock.decode

/-- While an attribute is read at `c`, the length of some code is read, and `start` is right before
its first instruction. -/
inductive StartsCode (options : Options) : Cursor → Cursor → Prop
  | self {c start : Cursor} {length : UInt32} (code : EntersCode options c)
    (entered : enterInstructions c = .ok length start) : StartsCode options c start
  | inside {c c₁ place start : Cursor} {block : CodeBlock} (code : EntersCode options c)
    (entered : enterBlock c = .ok block c₁) (item : ItemAt (decode options) c₁ place)
    (starts : StartsCode options place start) : StartsCode options c start

theorem setsStart_named {S : Cursor → Prop} {policy : UnknownPolicy}
    {known : UInt16 → Kind → UInt32 → Decode Attribute}
    (h : ∀ nameIndex c₁ length c₂ kind, u16 c = .ok nameIndex c₁ → u32 c₁ = .ok length c₂ →
      c.pool.getUtf8 nameIndex = .ok kind.nameBytes →
        SetsStart S (known nameIndex kind length) c₂) :
    SetsStart S (decodeNamed policy known) c := by
  refine .bind_keeps keepsStart.congruence.u16 fun nameIndex c₁ hindex => ?_
  refine .bind_keeps keepsStart.congruence.u32 fun length c₂ hlength => ?_
  refine .bind_keeps keepsStart.congruence.pool fun pool _ hpool => ?_
  cases hpool
  refine .bind_keeps (keepsStart.congruence.lift (c₂.pool.getUtf8_not_atLimit nameIndex))
    fun name _ hlift => ?_
  obtain ⟨hname, rfl⟩ := lift_eq_ok.mp hlift
  rw [(reads_u32 c₁).outer.pool_eq hlength, (reads_u16 c).outer.pool_eq hindex] at hname
  cases hkind : Kind.ofName? name with
  | some kind =>
    obtain rfl := Kind.nameBytes_of_ofName? hkind
    exact h nameIndex c₁ length _ kind hindex hlength hname
  | none =>
    cases policy with
    | reject =>
      have hrefused : KeepsStart
          (throw (.unknownAttribute (Text.latin1 name)) : Decode Attribute) :=
        keepsStart.throw _ nofun
      exact hrefused.setsStart _
    | preserve =>
      exact .bind_keeps (keepsStart.report _) fun _ _ _ =>
        .bind_keeps (keepsStart.bytes _) fun _ s _ => KeepsStart.setsStart (keepsStart.pure _) s

theorem setsStart_measured {S : Cursor → Prop} {payload : Decode Attribute} (kind : Kind)
    (length : UInt32) (h : SetsStart S payload { c with depth := c.depth + 1 }) :
    SetsStart S (decodeMeasured kind length payload) c := by
  rw [decodeMeasured_eq]
  refine .bind_keeps keepsStart.offset fun start _ hstart => ?_
  cases hstart
  exact .then_keeps (.nested h) fun a => keepsStart.bind keepsStart.offset fun _ =>
    keepsStart.congruence.compared kind length a _

/-- Only the payload of code sets the start, to its own first instruction or inside. -/
theorem setsStart_payload {S : Cursor → Prop} {inner : Decode Attribute} (nameIndex : UInt16)
    (kind : Kind) (length : UInt32)
    (hself : kind = .code → ∀ maxStack c₁ maxLocals c₂ length c₃, u16 c = .ok maxStack c₁ →
      u16 c₁ = .ok maxLocals c₂ → u32 c₂ = .ok length c₃ →
      S { c₃ with codeStart := UInt64.ofNat c₃.offset })
    (hinside : kind = .code → ∀ block c₁ place, CodeBlock.decode c = .ok block c₁ →
      ItemAt inner c₁ place → SetsStart S inner place) :
    SetsStart S (decodePayload inner nameIndex kind length) c := by
  by_cases hkind : kind = .code
  · subst hkind
    have hblock : SetsStart S CodeBlock.decode c := by
      refine .bind_keeps keepsStart.congruence.u16 fun maxStack c₁ h₁ => ?_
      refine .bind_keeps keepsStart.congruence.u16 fun maxLocals c₂ h₂ => ?_
      have hcode : SetsStart S CodeBlock.decodeCode c₂ := by
        refine (CodeBlock.setsStart_decodeCode c₂).mono ?_
        rintro _ ⟨length, c₃, h₃, rfl⟩
        exact hself rfl maxStack c₁ maxLocals c₂ length c₃ h₁ h₂ h₃
      have hhandlers : KeepsStart (Decode.counted ExceptionHandler.decode) :=
        keepsStart.congruence.counted keepsStart.congruence.exceptionHandler
      exact hcode.then_keeps fun code => keepsStart.bind hhandlers fun _ => keepsStart.pure _
    refine hblock.bind fun block c₁ hc₁ => ?_
    refine .then_keeps (setsStart_counted fun place hplace => ?_) fun as => keepsStart.pure _
    exact hinside rfl block c₁ place hc₁ hplace
  · have hleaf : keepsStart.congruence.rel (decodePayload inner nameIndex kind length)
        (decodePayload inner nameIndex kind length) :=
      keepsStart.congruence.leafPayload hkind nameIndex length
    exact KeepsStart.setsStart hleaf c

theorem setsStart_within {levels : Nat} (hlevels : levels = options.maxDepth - c.depth) :
    SetsStart (StartsCode options c) (decodeWithin options levels) c := by
  -- the attributes inside of code are read with one level less, each at a cursor of its own
  induction levels generalizing c with
  | zero =>
    refine setsStart_named fun _ _ _ c₂ _ _ _ _ => ?_
    exact KeepsStart.setsStart (fun _ => rfl) c₂
  | succ levels ih =>
    refine setsStart_named fun nameIndex c₁ length c₂ kind hindex hlength hname => ?_
    have hcode (hkind : kind = .code) : EntersCode options c :=
      ⟨⟨nameIndex, c₁, hindex, hkind ▸ hname⟩, by omega⟩
    have henter : enter c = .ok () { c₂ with depth := c₂.depth + 1 } :=
      bind_eq_ok.mpr ⟨nameIndex, c₁, hindex, bind_eq_ok.mpr ⟨length, c₂, hlength, rfl⟩⟩
    refine setsStart_measured kind length (setsStart_payload nameIndex kind length ?_ ?_)
    · intro hkind maxStack c₃ maxLocals c₄ codeLength c₅ h₃ h₄ h₅
      exact .self (hcode hkind) (bind_eq_ok.mpr ⟨(), _, henter, bind_eq_ok.mpr ⟨maxStack, c₃, h₃,
        bind_eq_ok.mpr ⟨maxLocals, c₄, h₄, bind_eq_ok.mpr ⟨codeLength, c₅, h₅, rfl⟩⟩⟩⟩)
    · rintro hkind block c₃ place hblock ⟨count, c₄, run, hcount, hrun, hrunLt⟩
      have hentered : enterBlock c = .ok block c₃ := bind_eq_ok.mpr ⟨(), _, henter, hblock⟩
      have hdepth₄ : c₄.depth = c.depth + 1 := by
        rw [(reads_u16 c₃).outer.depth.kept_eq hcount,
          (CodeBlock.reads_decode _).depth.kept_eq hblock,
          (reads_u32 c₁).outer.depth.kept_eq hlength, (reads_u16 c).outer.depth.kept_eq hindex]
      have hdepth : place.depth = c₄.depth := Cursor.depth_of_outerContext
        (hrun.kept fun _ _ _ => outerContext_of_ok (keeping.within levels))
      have hitem : ItemAt (decode options) c₃ place :=
        ⟨count, c₄, run, hcount, chain_decode (by omega) hrun, hrunLt⟩
      exact (ih (by omega)).mono fun start hstart => .inside (hcode hkind) hentered hitem hstart

theorem setsStart_decode (options : Options) (c : Cursor) :
    SetsStart (StartsCode options c) (decode options) c :=
  setsStart_within rfl

end Attribute

/-! ### Members and classes -/

namespace Member

variable {options : Options} {c : Cursor}

/-- Reads a member up to its attributes. -/
def enter : Decode Unit := do
  let _ ← Decode.u16
  let _ ← Decode.u16
  let _ ← Decode.u16
  return ()

/-- The same for the attributes of a member. -/
def StartsCode (options : Options) (c start : Cursor) : Prop :=
  ∃ c₁ place, enter c = .ok () c₁ ∧ ItemAt (Attribute.decode options) c₁ place ∧
    Attribute.StartsCode options place start

theorem setsStart_decodeReported (event : String → Event) :
    SetsStart (StartsCode options c) (decodeReported options event) c := by
  have hmember : SetsStart (StartsCode options c) (decode options) c := by
    refine .bind_keeps keepsStart.congruence.u16 fun accessFlags c₁ h₁ => ?_
    refine .bind_keeps keepsStart.congruence.u16 fun nameIndex c₂ h₂ => ?_
    refine .bind_keeps keepsStart.congruence.u16 fun descriptorIndex c₃ h₃ => ?_
    refine .then_keeps (setsStart_counted fun place hplace => ?_) fun _ => keepsStart.pure _
    have hentered : enter c = .ok () c₃ := bind_eq_ok.mpr ⟨accessFlags, c₁, h₁,
      bind_eq_ok.mpr ⟨nameIndex, c₂, h₂, bind_eq_ok.mpr ⟨descriptorIndex, c₃, h₃, rfl⟩⟩⟩
    refine (Attribute.setsStart_decode options place).mono fun start hstart => ?_
    exact ⟨c₃, place, hentered, hplace, hstart⟩
  exact hmember.then_keeps fun m => keepsStart.bind keepsStart.congruence.pool fun _ =>
    keepsStart.bind (keepsStart.report _) fun _ => keepsStart.pure m

end Member

namespace ClassFile

variable {options : Options} {c : Cursor}

/-- Reads a class up to its fields. -/
def enterFields : Decode Unit := do
  let found ← Decode.u32
  if found ≠ magic then
    throw (.badMagic found)
  let _ ← Decode.u16
  let _ ← Decode.u16
  Pool.decode
  let _ ← Decode.u16
  let _ ← Decode.u16
  let _ ← Decode.u16
  let _ ← Decode.counted Decode.u16
  return ()

/-- Reads a class up to its methods. -/
def enterMethods (options : Options) : Decode Unit := do
  enterFields
  let _ ← Decode.counted (Member.decodeReported options .readField)
  return ()

/-- Reads a class up to its attributes. -/
def enterAttributes (options : Options) : Decode Unit := do
  enterMethods options
  let _ ← Decode.counted (Member.decodeReported options .readMethod)
  return ()

/-- The same for everything in a class. -/
inductive StartsCode (options : Options) (c start : Cursor) : Prop
  | field {c₁ place : Cursor} (entered : enterFields c = .ok () c₁)
    (item : ItemAt (Member.decodeReported options .readField) c₁ place)
    (starts : Member.StartsCode options place start)
  | method {c₁ place : Cursor} (entered : enterMethods options c = .ok () c₁)
    (item : ItemAt (Member.decodeReported options .readMethod) c₁ place)
    (starts : Member.StartsCode options place start)
  | attribute {c₁ place : Cursor} (entered : enterAttributes options c = .ok () c₁)
    (item : ItemAt (Attribute.decode options) c₁ place)
    (starts : Attribute.StartsCode options place start)

theorem setsStart_decode (options : Options) (c : Cursor) :
    SetsStart (StartsCode options c) (decode options) c := by
  have hpool : KeepsStart Pool.decode := keepsStart.congruence.poolDecode fun _ _ => rfl
  refine .bind_keeps keepsStart.congruence.u32 fun found c₁ h₁ => .check fun hmagic => ?_
  refine .bind_keeps keepsStart.congruence.u16 fun minor c₂ h₂ => ?_
  refine .bind_keeps keepsStart.congruence.u16 fun major c₃ h₃ => ?_
  refine .bind_keeps hpool fun _ c₄ h₄ => ?_
  refine .bind_keeps keepsStart.congruence.u16 fun accessFlags c₅ h₅ => ?_
  refine .bind_keeps keepsStart.congruence.u16 fun thisClass c₆ h₆ => ?_
  refine .bind_keeps keepsStart.congruence.u16 fun superClass c₇ h₇ => ?_
  refine .bind_keeps (keepsStart.congruence.counted keepsStart.congruence.u16)
    fun interfaces c₈ h₈ => ?_
  have hfields : enterFields c = .ok () c₈ := bind_eq_ok.mpr ⟨found, c₁, h₁, check_eq_ok.mpr
    ⟨hmagic, bind_eq_ok.mpr ⟨minor, c₂, h₂, bind_eq_ok.mpr ⟨major, c₃, h₃, bind_eq_ok.mpr
    ⟨(), c₄, h₄, bind_eq_ok.mpr ⟨accessFlags, c₅, h₅, bind_eq_ok.mpr ⟨thisClass, c₆, h₆,
    bind_eq_ok.mpr ⟨superClass, c₇, h₇, bind_eq_ok.mpr ⟨interfaces, c₈, h₈, rfl⟩⟩⟩⟩⟩⟩⟩⟩⟩
  refine .bind (setsStart_counted fun place hplace => (Member.setsStart_decodeReported _).mono
    fun start hstart => .field hfields hplace hstart) fun fields c₉ h₉ => ?_
  have hmethods : enterMethods options c = .ok () c₉ :=
    bind_eq_ok.mpr ⟨(), c₈, hfields, bind_eq_ok.mpr ⟨fields, c₉, h₉, rfl⟩⟩
  refine .bind (setsStart_counted fun place hplace => (Member.setsStart_decodeReported _).mono
    fun start hstart => .method hmethods hplace hstart) fun methods c₁₀ h₁₀ => ?_
  have hattributes : enterAttributes options c = .ok () c₁₀ :=
    bind_eq_ok.mpr ⟨(), c₉, hmethods, bind_eq_ok.mpr ⟨methods, c₁₀, h₁₀, rfl⟩⟩
  refine .then_keeps (setsStart_counted fun place hplace =>
    (Attribute.setsStart_decode options place).mono
      fun start hstart => .attribute hattributes hplace hstart) fun attributes => ?_
  exact keepsStart.bind keepsStart.congruence.pool fun pool => keepsStart.bind keepsStart.offset
    fun _ => keepsStart.bind (keepsStart.report _) fun _ => keepsStart.pure _

end ClassFile

/-! ### Operations -/

namespace Operation

/-- While the operation is carried out at `c`, some code is entered at `start`. -/
def StartsCode (options : Options) : Operation → Cursor → Cursor → Prop
  | readAttribute => Attribute.StartsCode options
  | readClass => ClassFile.StartsCode options
  | _ => fun _ _ => False

theorem setsStart_decode (options : Options) (op : Operation) (c : Cursor)
    (hop : ∀ n, op ≠ setCodeStart n) :
    SetsStart (op.StartsCode options c) (op.decode options) c := by
  by_cases hattribute : op = readAttribute
  · subst hattribute
    exact Attribute.setsStart_decode options c
  by_cases hclass : op = readClass
  · subst hclass
    exact ClassFile.setsStart_decode options c
  have hkeeps : KeepsStart (op.decode options) :=
    keepsStart.operation (fun _ _ _ => rfl) (fun n h => absurd h (hop n))
      (fun h => absurd h hattribute) fun h => absurd h hclass
  exact hkeeps.setsStart c

/-- Only constants that are added, on their own or by a class, change the pool. -/
theorem pool_run (options : Options) (op : Operation) (c : Cursor) (hadd : ∀ k, op ≠ addConstant k)
    (hclass : op ≠ readClass) : (op.run options c).2.pool = c.pool := by
  have hkeeps : Leaves (fun c s => s.outerContext = c.outerContext) (op.decode options) :=
    keepingLaw.operation (fun k h => absurd h (hadd k))
      (fun n _ => keepingLaw.setCodeStart fun _ => n) (fun _ => keeping.attributeDecode)
      fun h => absurd h hclass
  exact Cursor.pool_of_outerContext (hkeeps c)

theorem grown_run (options : Options) (op : Operation) (c : Cursor) :
    c.Grown (op.run options c).2 :=
  growing.anyOperation options op c

theorem depth_runAll (options : Options) (c : Cursor) (ops : List Operation) :
    (runAll options c ops).depth = c.depth := by
  induction ops generalizing c with
  | nil => rfl
  | cons op ops ih => exact (ih _).trans (grown_run options op c).depth

/-- What an operation leaves behind, whatever comes of it: the depth and all constants are as
before, only a class or a constant adds to these, and the start of the code is as before unless it
was set, or some code was entered. -/
theorem aftermath (options : Options) :
    (∀ op c, (run options c op).2.depth = c.depth) ∧
    (∀ ops c, c.depth = 0 → (runAll options c ops).depth = 0 ∧
      Attribute.decode options (runAll options c ops) =
        Attribute.decodeWithin options options.maxDepth (runAll options c ops)) ∧
    (∀ op c, (∀ k, op ≠ addConstant k) → op ≠ readClass → (run options c op).2.pool = c.pool) ∧
    (∀ op c, (∃ ks, (run options c op).2.pool.entries.toList = c.pool.entries.toList ++ ks) ∧
      ∀ index : UInt16, index.toNat < c.pool.nextIndex →
        (run options c op).2.pool.get index = c.pool.get index) ∧
    (∀ k c, run options c (addConstant k) =
      (.ok c.pool.nextIndex, { c with pool := c.pool.push k })) ∧
    (∀ c k s, ClassFile.decode options c = .ok k s → ∃ ks rest,
      c.unread.drop 10 = ks.flatMap Constant.layout ++ rest ∧
        k.pool.entries.toList = c.pool.entries.toList ++ ks ∧ s.pool = k.pool) ∧
    (∀ n c, run options c (setCodeStart n) = (.ok (), { c with codeStart := n })) ∧
    ∀ op c, (∀ n, op ≠ setCodeStart n) → (run options c op).2.codeStart = c.codeStart ∨
      ∃ start, op.StartsCode options c start ∧
        (run options c op).2.codeStart = start.codeStart := by
  refine ⟨fun op c => (grown_run options op c).depth, fun ops c hc => ?_, pool_run options,
    fun op c => ?_, fun k c => rfl, fun c k s h => ?_, fun n c => rfl,
    fun op c hop => setsStart_decode options op c hop⟩
  · have hdepth : (runAll options c ops).depth = 0 := (depth_runAll options c ops).trans hc
    refine ⟨hdepth, ?_⟩
    show Attribute.decodeWithin options (options.maxDepth - (runAll options c ops).depth) _ = _
    rw [hdepth, Nat.sub_zero]
  · obtain ⟨ks, hks⟩ := (grown_run options op c).pool
    refine ⟨⟨ks, ?_⟩, fun index hindex => ?_⟩
    · rw [hks, Pool.entries_foldl_push]
    · rw [hks, Pool.get_foldl_push hindex]
  · obtain ⟨ks, rest, hrest, hks, hs⟩ := ClassFile.pool_of_decode h
    refine ⟨ks, rest, hrest, ?_, hs⟩
    rw [hks, Pool.entries_foldl_push]

end Operation
end JavaClass

import JavaClass.Listing.Instruction
import JavaClass.Proofs.ReadAttribute

/-!
# Positions in code

A position in code comes up three times: as the number of bytes between the first instruction and
the cursor, as the sum of the sizes of the instructions before it, and as the number that a listing
shows and adds the offsets of branches to. `Attribute.positions_of_decode` says that they are all
the same, for all code that is read, and that switches are aligned there.

To speak of the cursor at which an instruction was read, reading is followed step by step: `Chain`
for items in a row, `Attribute.ReadAt` for attributes inside of code, `Attribute.CodeRun` for the
code of one attribute. What is known of a single instruction comes from `Instruction.reads_decode`.
-/

namespace JavaClass

namespace Decode

variable {α : Type} {d d' : Decode α} {c c' : Cursor} {run : List (Cursor × α)} {as : List α}

/-- Items that are read by `d` one after the other, each at the cursor that it is paired with. -/
inductive Chain (d : Decode α) : Cursor → List (Cursor × α) → Cursor → Prop
  | nil (c : Cursor) : Chain d c [] c
  | cons {c c₁ c₂ : Cursor} {a : α} {run : List (Cursor × α)} (head : d c = .ok a c₁)
    (tail : Chain d c₁ run c₂) : Chain d c ((c, a) :: run) c₂

namespace Chain

/-- The same cursors are passed by another decoder if it does the same there. -/
theorem congr {P : Cursor → Prop} (hd : ∀ c, P c → d c = d' c)
    (hP : ∀ c a c', P c → d c = .ok a c' → P c') (hc : P c) (h : Chain d c run c') :
    Chain d' c run c' := by
  induction h with
  | nil c => exact .nil c
  | cons head tail ih =>
    have hhead := head
    rw [hd _ hc] at hhead
    exact .cons hhead (ih (hP _ _ _ hc head))

theorem kept {V : Type} {kept : Cursor → V} (h : Chain d c run c')
    (hd : ∀ c a s, d c = .ok a s → kept s = kept c) : kept c' = kept c := by
  induction h with
  | nil c => rfl
  | cons head tail ih => exact ih.trans (hd _ _ _ head)

theorem exists_of_mem (h : Chain d c run c') {place : Cursor} {a : α} (ha : (place, a) ∈ run) :
    ∃ next, d place = .ok a next := by
  induction h with
  | nil c => cases ha
  | cons head tail ih =>
    rcases List.mem_cons.mp ha with heq | ha
    · cases heq
      exact ⟨_, head⟩
    · exact ih ha

end Chain

theorem offset_of_u16 {n : UInt16} (h : u16 c = .ok n c') : c'.offset = c.offset + 2 := by
  obtain ⟨_, rfl, hpast⟩ := (reads_u16 c).sound h
  rw [hpast.offset, Layout.length_u16]

theorem offset_of_u32 {n : UInt32} (h : u32 c = .ok n c') : c'.offset = c.offset + 4 := by
  obtain ⟨_, rfl, hpast⟩ := (reads_u32 c).sound h
  rw [hpast.offset, Layout.length_u32]

theorem chain_of_times {n : Nat} (h : times n d c = .ok as c') :
    ∃ run, Chain d c run c' ∧ run.map Prod.snd = as := by
  induction n generalizing c as with
  | zero =>
    rw [times_zero] at h
    cases h
    exact ⟨[], .nil _, rfl⟩
  | succ n ih =>
    rw [times_succ] at h
    obtain ⟨a, c₁, ha, h⟩ := bind_eq_ok.mp h
    obtain ⟨rest, c₂, hrest, h⟩ := bind_eq_ok.mp h
    cases h
    obtain ⟨run, hrun, rfl⟩ := ih hrest
    exact ⟨(c, a) :: run, .cons ha hrun, rfl⟩

theorem chain_of_counted (h : counted d c = .ok as c') :
    ∃ n c₁ run, u16 c = .ok n c₁ ∧ Chain d c₁ run c' ∧ run.map Prod.snd = as := by
  obtain ⟨n, c₁, hn, h⟩ := bind_eq_ok.mp h
  obtain ⟨run, hrun, has⟩ := chain_of_times h
  exact ⟨n, c₁, run, hn, hrun, has⟩

end Decode

open Decode

/-! ### Instructions in a row -/

namespace Instruction

variable {c c' : Cursor} {i : Instruction} {position : Nat} {run : List (Cursor × Instruction)}

/-- The number of zeros in front of the operands of a switch. -/
def padding? : Instruction → Option UInt8
  | tableSwitch padding .. | lookupSwitch padding .. => some padding
  | _ => none

theorem alignedAt_iff {padding : UInt8} (hpadding : i.padding? = some padding) :
    i.AlignedAt position ↔ padding.toNat = (4 - (position + 1) % 4) % 4 := by
  cases i with
  | tableSwitch padding' fallback low high offsets =>
    cases hpadding
    rfl
  | lookupSwitch padding' fallback pairs =>
    cases hpadding
    rfl
  | _ => cases hpadding

theorem AlignedAt.padding {padding : UInt8} (h : i.AlignedAt position)
    (hpadding : i.padding? = some padding) :
    padding.toNat ≤ 3 ∧ (position + 1 + padding.toNat) % 4 = 0 := by
  have heq := (alignedAt_iff hpadding).mp h
  omega

/-- Reading an instruction leads past as many bytes as it has. -/
theorem decode_step (hc : c.InCode position) (h : decode c = .ok i c') :
    c'.offset = c.offset + i.size ∧ c'.InCode (position + i.size) ∧ i.AlignedAt position := by
  obtain ⟨bs, ⟨-, -, haligned, rfl⟩, hpast⟩ := (reads_decode hc).sound h
  have hoffset := hpast.offset
  have hposition := hc.past hpast
  rw [length_layout] at hoffset hposition
  exact ⟨hoffset, hposition, haligned⟩

theorem chain_offset (hc : c.InCode position) (h : Chain decode c run c') :
    c'.offset = c.offset + codeLength (run.map Prod.snd) := by
  induction h generalizing position with
  | nil c => rfl
  | @cons c c₁ c₂ i run head tail ih =>
    have hlength : codeLength (((c, i) :: run).map Prod.snd) =
        i.size + codeLength (run.map Prod.snd) := rfl
    obtain ⟨hoffset, hposition, -⟩ := decode_step hc head
    rw [ih hposition, hoffset, hlength, Nat.add_assoc]

/-- Each instruction is read where those before it end, and is aligned there. -/
theorem chain_positions (hc : c.InCode position) (h : Chain decode c run c') {n : Nat}
    {place : Cursor} (hn : run[n]? = some (place, i)) :
    place.offset = c.offset + codeLength ((run.map Prod.snd).take n) ∧
      i.AlignedAt (position + codeLength ((run.map Prod.snd).take n)) := by
  induction h generalizing position n with
  | nil c => cases hn
  | @cons c c₁ c₂ a run head tail ih =>
    obtain ⟨hoffset, hposition, haligned⟩ := decode_step hc head
    cases n with
    | zero =>
      cases hn
      exact ⟨rfl, haligned⟩
    | succ n =>
      have hlength : codeLength ((((c, a) :: run).map Prod.snd).take (n + 1)) =
          a.size + codeLength ((run.map Prod.snd).take n) := rfl
      obtain ⟨hplace, hrest⟩ := ih hposition hn
      rw [hlength, ← Nat.add_assoc, ← Nat.add_assoc]
      rw [hoffset] at hplace
      exact ⟨hplace, hrest⟩

end Instruction

/-- A listing counts the positions on while it goes through the code. -/
theorem Listing.codeLines_eq {start c c' : Cursor} {run : List (Cursor × Instruction)}
    {position : Nat} (p : Pool) (hc : c.InCode position)
    (hstart : c.offset = start.offset + position)
    (h : Chain Instruction.decode c run c') (lines : Array String) :
    (do
      let (_, lines) ← (run.map Prod.snd).foldlM (fun (pc, lines) i => do
        return (pc + i.size, lines ++ (← instructionLines p pc i))) (position, lines)
      return lines.toList) =
      (lines.toList ++ ·.flatten) <$> run.mapM fun (place, i) =>
        instructionLines p (place.offset - start.offset) i := by
  induction h generalizing position lines with
  | nil c => simp
  | @cons c c₁ c₂ i run head tail ih =>
    obtain ⟨hoffset, hposition, -⟩ := Instruction.decode_step hc head
    obtain rfl : position = c.offset - start.offset := by omega
    cases hshown : instructionLines p (c.offset - start.offset) i with
    | error obstacle =>
      simp only [List.map_cons, List.foldlM_cons, List.mapM_cons, hshown]
      rfl
    | ok shown =>
      simp only [List.map_cons, List.foldlM_cons, List.mapM_cons, hshown]
      refine (ih hposition (by omega) (lines ++ shown)).trans ?_
      simp only [Array.toList_appendList, List.append_assoc, bind_pure_comp]
      cases run.mapM fun x => instructionLines p (x.1.offset - start.offset) x.2 <;> rfl

namespace CodeBlock

variable {c c' : Cursor}

theorem chain_of_decodeInstructions {left inside : Nat} {before code : List Instruction}
    {beyond : Nat} (h : decodeInstructions left inside before c = .ok (code, beyond) c') :
    ∃ run, Chain Instruction.decode c run c' ∧ code = before.reverse ++ run.map Prod.snd := by
  induction left generalizing inside before c with
  | zero =>
    rw [decodeInstructions] at h
    cases h
    exact ⟨[], .nil _, (List.append_nil _).symm⟩
  | succ left ih =>
    cases inside with
    | succ inside => exact ih h
    | zero =>
      rw [decodeInstructions] at h
      obtain ⟨i, c₁, hi, h⟩ := bind_eq_ok.mp h
      obtain ⟨run, hrun, hcode⟩ := ih h
      refine ⟨(c, i) :: run, .cons hi hrun, ?_⟩
      rw [hcode, List.reverse_cons, List.append_assoc]
      rfl

/-- Code is read from behind its length, one instruction after the other. -/
theorem chain_of_decodeCode {code : List Instruction} (h : decodeCode c = .ok code c') :
    ∃ length c₁ stop run, u32 c = .ok length c₁ ∧
      Chain Instruction.decode { c₁ with codeStart := UInt64.ofNat c₁.offset } run stop ∧
      run.map Prod.snd = code ∧ Instruction.codeLength code = length.toNat := by
  obtain ⟨length, c₁, hlength, hcode⟩ := bind_eq_ok.mp h
  obtain ⟨_, start, hstart, hafter⟩ := bind_eq_ok.mp hcode
  obtain ⟨⟨read, beyond⟩, stop, hread, hchecked⟩ := bind_eq_ok.mp hafter
  obtain rfl : { c₁ with codeStart := UInt64.ofNat c₁.offset } = start := by cases hstart; rfl
  have hc : Cursor.InCode { c₁ with codeStart := UInt64.ofNat c₁.offset } 0 := UInt64.sub_self _
  obtain ⟨_, ⟨code', hcode', hcovers, -⟩, -⟩ := (reads_decodeInstructions hc []).sound hread
  obtain ⟨run, hrun, hmap⟩ := chain_of_decodeInstructions hread
  -- the last instruction ends where the code does, or reading fails
  obtain ⟨hbeyond, hreported⟩ := check_eq_ok.mp hchecked
  obtain rfl : beyond = 0 := Decidable.not_not.mp hbeyond
  obtain rfl : read = code := by cases hreported; rfl
  obtain rfl : read = code' := hcode'
  exact ⟨length, c₁, stop, run, hlength, hrun, hmap.symm, covers_zero_iff.mp hcovers⟩

end CodeBlock

namespace Attribute

variable {options : Options} {c c' : Cursor} {a : Attribute}

/-! ### Attributes inside of code -/

/-- An attribute itself, and what is inside of it at any depth. -/
inductive Contains : Attribute → Attribute → Prop
  | self (a : Attribute) : Contains a a
  | inside {nameIndex : UInt16} {block : CodeBlock} {as : List Attribute} {a b : Attribute}
    (mem : a ∈ as) (contains : Contains a b) : Contains (code nameIndex block as) b

/-- Reads the name and the length, and goes into the payload. -/
def enter : Decode Unit := do
  let _ ← Decode.u16
  let _ ← Decode.u32
  modify fun c => { c with depth := c.depth + 1 }

/-- Reads code up to its first instruction. Gives the length that stands in front of it. -/
def enterInstructions : Decode UInt32 := do
  enter
  let _ ← Decode.u16
  let _ ← Decode.u16
  let length ← Decode.u32
  modify fun c => { c with codeStart := UInt64.ofNat c.offset }
  return length

/-- Reads code up to the first attribute inside of it. Gives the number of these. -/
def enterAttributes : Decode UInt16 := do
  enter
  let _ ← CodeBlock.decode
  Decode.u16

/-- While the attribute at `c` is read, `b` is read at `d`. -/
inductive ReadAt (options : Options) : Cursor → Cursor → Attribute → Prop
  | self {c c' : Cursor} {a : Attribute} (read : decode options c = .ok a c') : ReadAt options c c a
  | inside {c c' c₁ c₂ place d : Cursor} {nameIndex count : UInt16} {block : CodeBlock}
    {run : List (Cursor × Attribute)} {a b : Attribute}
    (read : decode options c = .ok (code nameIndex block (run.map Prod.snd)) c')
    (entered : enterAttributes c = .ok count c₁) (chain : Chain (decode options) c₁ run c₂)
    (mem : (place, a) ∈ run) (readAt : ReadAt options place d b) : ReadAt options c d b

theorem ReadAt.decode {d : Cursor} {b : Attribute} (h : ReadAt options c d b) :
    ∃ d', Attribute.decode options d = .ok b d' := by
  induction h with
  | self read => exact ⟨_, read⟩
  | inside _ _ _ _ _ ih => exact ih

theorem decodeNamed_eq_ok {policy : UnknownPolicy}
    {known : UInt16 → Kind → UInt32 → Decode Attribute}
    (h : decodeNamed policy known c = .ok a c') :
    ∃ nameIndex c₁ length c₂, u16 c = .ok nameIndex c₁ ∧ u32 c₁ = .ok length c₂ ∧
      ((∃ kind, known nameIndex kind length c₂ = .ok a c') ∨
        ∃ bytes, a = leaf nameIndex (.unknown bytes)) := by
  obtain ⟨nameIndex, c₁, hname, hrest⟩ := bind_eq_ok.mp h
  obtain ⟨length, c₂, hlength, hrest⟩ := bind_eq_ok.mp hrest
  obtain ⟨pool, _, hpool, hrest⟩ := bind_eq_ok.mp hrest
  cases hpool
  obtain ⟨name, _, hlift, hnamed⟩ := bind_eq_ok.mp hrest
  obtain ⟨-, rfl⟩ := lift_eq_ok.mp hlift
  refine ⟨nameIndex, c₁, length, _, hname, hlength, ?_⟩
  cases hkind : Kind.ofName? name with
  | some kind =>
    rw [hkind] at hnamed
    exact .inl ⟨kind, hnamed⟩
  | none =>
    rw [hkind] at hnamed
    cases policy with
    | reject => cases hnamed
    | preserve =>
      obtain ⟨_, _, -, hbytes⟩ := bind_eq_ok.mp hnamed
      obtain ⟨bytes, _, -, hleaf⟩ := bind_eq_ok.mp hbytes
      cases hleaf
      exact .inr ⟨bytes, rfl⟩

theorem decodeMeasured_eq_ok {kind : Kind} {length : UInt32} {payload : Decode Attribute}
    (h : decodeMeasured kind length payload c = .ok a c') :
    ∃ c₁, payload { c with depth := c.depth + 1 } = .ok a c₁ := by
  obtain ⟨_, _, hstart, h⟩ := bind_eq_ok.mp h
  cases hstart
  obtain ⟨a', c₂, hnested, h⟩ := bind_eq_ok.mp h
  obtain ⟨_, _, -, h⟩ := bind_eq_ok.mp h
  obtain ⟨-, h⟩ := check_eq_ok.mp h
  cases h
  cases hpayload : payload { c with depth := c.depth + 1 } with
  | ok a₁ c₁ =>
    rw [nested_of_ok hpayload] at hnested
    cases hnested
    exact ⟨c₁, rfl⟩
  | error e c₁ =>
    rw [nested_of_error hpayload] at hnested
    cases hnested

theorem decodePayload_eq_ok {inner : Decode Attribute} {nameIndex nameIndex' : UInt16} {kind : Kind}
    {length : UInt32} {block : CodeBlock} {as : List Attribute}
    (h : decodePayload inner nameIndex' kind length c = .ok (code nameIndex block as) c') :
    ∃ c₁, CodeBlock.decode c = .ok block c₁ ∧ counted inner c₁ = .ok as c' := by
  cases kind with
  | code =>
    obtain ⟨block', c₁, hblock, h⟩ := bind_eq_ok.mp h
    obtain ⟨as', c₂, has, h⟩ := bind_eq_ok.mp h
    cases h
    exact ⟨c₁, hblock, has⟩
  | _ =>
    obtain ⟨content, c₁, -, h⟩ := bind_eq_ok.mp h
    cases h

/-- Attributes in a row are all read with the levels that are left at the first of them. -/
theorem chain_decode {levels : Nat} {run : List (Cursor × Attribute)}
    (hlevels : levels = options.maxDepth - c.depth)
    (h : Chain (decodeWithin options levels) c run c') : Chain (decode options) c run c' := by
  refine h.congr (P := fun d => d.depth = c.depth) (fun d hd => ?_) (fun d a d' hd ha => ?_) rfl
  · rw [hlevels, ← hd]
    rfl
  · have hleft : levels = options.maxDepth - d.depth := by omega
    rw [(reads_decodeWithin hleft).depth.kept_eq ha, hd]

/-- Inside of code the attributes are read in the same way as outside. -/
theorem decode_code_eq_ok {nameIndex : UInt16} {block : CodeBlock} {as : List Attribute}
    (h : decode options c = .ok (code nameIndex block as) c') :
    ∃ c₁ c₂ count c₃ run c₄, enter c = .ok () c₁ ∧ CodeBlock.decode c₁ = .ok block c₂ ∧
      u16 c₂ = .ok count c₃ ∧ Chain (decode options) c₃ run c₄ ∧ run.map Prod.snd = as := by
  have hwithin : decodeWithin options (options.maxDepth - c.depth) c =
      .ok (code nameIndex block as) c' := h
  cases hlevels : options.maxDepth - c.depth with
  | zero =>
    rw [hlevels] at hwithin
    obtain ⟨_, _, _, _, -, -, ⟨_, hknown⟩ | ⟨_, hleaf⟩⟩ := decodeNamed_eq_ok hwithin
    · cases hknown
    · cases hleaf
  | succ levels =>
    rw [hlevels] at hwithin
    obtain ⟨index, c₀, length, c₁, hindex, hlength, ⟨kind, hknown⟩ | ⟨_, hleaf⟩⟩ :=
      decodeNamed_eq_ok hwithin
    · obtain ⟨c₄, hpayload⟩ := decodeMeasured_eq_ok hknown
      obtain ⟨c₂, hblock, has⟩ := decodePayload_eq_ok hpayload
      obtain ⟨count, c₃, run, hcount, hrun, hmap⟩ := chain_of_counted has
      have henter : enter c = .ok () { c₁ with depth := c₁.depth + 1 } :=
        bind_eq_ok.mpr ⟨index, c₀, hindex, bind_eq_ok.mpr ⟨length, c₁, hlength, rfl⟩⟩
      have hdepth : c₃.depth = c.depth + 1 := by
        rw [(reads_u16 c₂).outer.depth.kept_eq hcount,
          (CodeBlock.reads_decode _).depth.kept_eq hblock,
          (reads_u32 c₀).outer.depth.kept_eq hlength, (reads_u16 c).outer.depth.kept_eq hindex]
      -- there is one level less inside, and one less is left there
      have hleft : levels = options.maxDepth - c₃.depth := by omega
      exact ⟨_, c₂, count, c₃, run, c₄, henter, hblock, hcount, chain_decode hleft hrun, hmap⟩
    · cases hleaf

theorem exists_readAt {b : Attribute} (h : decode options c = .ok a c') (hb : a.Contains b) :
    ∃ d, ReadAt options c d b := by
  induction hb generalizing c c' with
  | self a => exact ⟨c, .self h⟩
  | @inside nameIndex block as a b mem contains ih =>
    obtain ⟨c₁, c₂, count, c₃, run, c₄, henter, hblock, hcount, hrun, rfl⟩ := decode_code_eq_ok h
    obtain ⟨⟨place, _⟩, hmem, rfl⟩ := List.mem_map.mp mem
    obtain ⟨next, hnext⟩ := hrun.exists_of_mem hmem
    obtain ⟨d, hd⟩ := ih hnext
    have hentered : enterAttributes c = .ok count c₃ :=
      bind_eq_ok.mpr ⟨(), c₁, henter, bind_eq_ok.mpr ⟨block, c₂, hblock, hcount⟩⟩
    exact ⟨d, .inside h hentered hrun hmem hd⟩

theorem offset_of_enter (h : enter c = .ok () c') : c'.offset = c.offset + 6 := by
  obtain ⟨_, c₁, hname, h⟩ := bind_eq_ok.mp h
  obtain ⟨_, c₂, hlength, h⟩ := bind_eq_ok.mp h
  cases h
  have hoffset₁ := offset_of_u16 hname
  have hoffset₂ := offset_of_u32 hlength
  show c₂.offset = _
  omega

theorem offset_of_enterInstructions {length : UInt32} (h : enterInstructions c = .ok length c') :
    c'.offset = c.offset + 14 := by
  obtain ⟨_, c₁, henter, h⟩ := bind_eq_ok.mp h
  obtain ⟨_, c₂, hstack, h⟩ := bind_eq_ok.mp h
  obtain ⟨_, c₃, hlocals, h⟩ := bind_eq_ok.mp h
  obtain ⟨_, c₄, hlength, h⟩ := bind_eq_ok.mp h
  cases h
  have hoffset₁ := offset_of_enter henter
  have hoffset₂ := offset_of_u16 hstack
  have hoffset₃ := offset_of_u16 hlocals
  have hoffset₄ := offset_of_u32 hlength
  show c₄.offset = _
  omega

/-- The instructions of code that is read at `c`, each with the cursor that it is read at. -/
structure CodeRun (c : Cursor) (block : CodeBlock) (length : UInt32) (start stop : Cursor)
    (run : List (Cursor × Instruction)) : Prop where
  /-- The stored length comes first, and then the first instruction. -/
  entered : enterInstructions c = .ok length start
  chain : Chain Instruction.decode start run stop
  instructions : run.map Prod.snd = block.instructions

theorem exists_codeRun {nameIndex : UInt16} {block : CodeBlock} {as : List Attribute}
    (h : decode options c = .ok (code nameIndex block as) c') :
    ∃ length start stop run, CodeRun c block length start stop run ∧ start.InCode 0 ∧
      Instruction.codeLength block.instructions = length.toNat := by
  obtain ⟨c₁, _, _, _, _, _, henter, hblock, -⟩ := decode_code_eq_ok h
  obtain ⟨maxStack, c₂, hstack, hblock⟩ := bind_eq_ok.mp hblock
  obtain ⟨maxLocals, c₃, hlocals, hblock⟩ := bind_eq_ok.mp hblock
  obtain ⟨code, c₄, hcode, hblock⟩ := bind_eq_ok.mp hblock
  obtain ⟨handlers, c₅, -, hblock⟩ := bind_eq_ok.mp hblock
  cases hblock
  obtain ⟨length, c₄, stop, run, hlength, hrun, hmap, hall⟩ := CodeBlock.chain_of_decodeCode hcode
  refine ⟨length, _, stop, run, ⟨?_, hrun, hmap⟩, UInt64.sub_self _, hall⟩
  exact bind_eq_ok.mpr ⟨(), c₁, henter, bind_eq_ok.mpr ⟨maxStack, c₂, hstack,
    bind_eq_ok.mpr ⟨maxLocals, c₃, hlocals, bind_eq_ok.mpr ⟨length, c₄, hlength, rfl⟩⟩⟩⟩

/-- Of code that is read, wherever it is found in an attribute, each instruction is read where those
before it end, which is where a listing shows it and where a switch is aligned. All of them take up
the length that is stored. -/
theorem positions_of_decode (options : Options) (c c' : Cursor) (a : Attribute)
    (h : decode options c = .ok a c') :
    (∀ b, a.Contains b → ∃ d, ReadAt options c d b) ∧
    ∀ d nameIndex block as, ReadAt options c d (code nameIndex block as) →
      ∃ length start stop run, CodeRun d block length start stop run ∧
        start.offset = d.offset + 14 ∧
        Instruction.codeLength block.instructions = length.toNat ∧
        stop.offset = start.offset + length.toNat ∧
        (∀ n place i, run[n]? = some (place, i) →
          let position := Instruction.codeLength (block.instructions.take n)
          place.offset = start.offset + position ∧
            (∀ padding, i.padding? = some padding →
              padding.toNat ≤ 3 ∧ (position + 1 + padding.toNat) % 4 = 0) ∧
            ∀ pool lines,
              Listing.instructionLines pool (place.offset - start.offset) i = .ok lines →
                Listing.ShownAt position i lines) ∧
        ∀ pool, Listing.codeLines pool block.instructions =
          List.flatten <$> run.mapM fun (place, i) =>
            Listing.instructionLines pool (place.offset - start.offset) i := by
  refine ⟨fun b hb => exists_readAt h hb, ?_⟩
  intro d nameIndex block as hd
  obtain ⟨d', hdecode⟩ := hd.decode
  obtain ⟨length, start, stop, run, hcode, hstart, hlength⟩ := exists_codeRun hdecode
  refine ⟨length, start, stop, run, hcode, offset_of_enterInstructions hcode.entered, hlength,
    ?_, ?_, ?_⟩
  · rw [Instruction.chain_offset hstart hcode.chain, hcode.instructions, hlength]
  · intro n place i hn position
    obtain ⟨hplace, haligned⟩ := Instruction.chain_positions hstart hcode.chain hn
    rw [hcode.instructions] at hplace haligned
    rw [Nat.zero_add] at haligned
    refine ⟨hplace, fun padding hpadding => haligned.padding hpadding, ?_⟩
    intro pool lines hlines
    rw [hplace, Nat.add_sub_cancel_left] at hlines
    exact Listing.shownAt_of_instructionLines hlines
  · intro pool
    rw [← hcode.instructions]
    exact Listing.codeLines_eq pool hstart rfl hcode.chain #[]

/-- The code of `switch (1) { case 1: }`. -/
def switchCode : Attribute :=
  .code 1 ⟨1, 0, [.implicit ⟨0x04, by decide⟩ .one, .tableSwitch 2 19 1 1 [19],
    .plain ⟨0x00, by decide⟩], []⟩ []

def aroundSwitch : Attribute :=
  .code 1 ⟨0, 0, [.plain ⟨0x00, by decide⟩], []⟩ [switchCode]

/-- Something has been read already, and this is inside of an attribute. -/
def beforeSwitch : Cursor where
  unread := aroundSwitch.layout
  offset := 5
  codeStart := 3
  depth := 1
  pool := .ofList [.utf8 Kind.code.nameBytes]

theorem positions_of_decode_switchCode : ∃ d start place next,
    ReadAt {} beforeSwitch d switchCode ∧ enterInstructions d = .ok 21 start ∧
      Instruction.decode place = .ok (.tableSwitch 2 19 1 1 [19]) next ∧
      place.offset - start.offset = 1 := by
  have hfits : aroundSwitch.Fits := by decide +kernel
  have hregular : aroundSwitch.Regular {} beforeSwitch.pool (beforeSwitch.depth + 1) := by
    decide +kernel
  obtain ⟨c', hread, -⟩ := (reads_decode {} beforeSwitch).complete ⟨⟨hfits, hregular⟩, rfl⟩
    (List.append_nil _).symm
  obtain ⟨hinside, hpositions⟩ := positions_of_decode _ _ _ _ hread
  obtain ⟨d, hd⟩ := hinside _ (.inside (List.mem_cons_self ..) (.self switchCode))
  obtain ⟨length, start, stop, run, ⟨henter, hrun, hmap⟩, -, hlength, -, hplaces, -⟩ :=
    hpositions _ _ _ _ hd
  have hall : length.toNat = UInt32.toNat 21 := by
    rw [← hlength]
    decide
  obtain rfl := UInt32.toNat_inj.mp hall
  have hmem : run[1]?.map Prod.snd = some (.tableSwitch 2 19 1 1 [19]) := by
    rw [← List.getElem?_map, hmap]
    rfl
  obtain ⟨⟨place, i⟩, hn, rfl⟩ := Option.map_eq_some_iff.mp hmem
  obtain ⟨next, hnext⟩ := hrun.exists_of_mem (List.mem_of_getElem? hn)
  obtain ⟨hplace, -⟩ := hplaces 1 place _ hn
  refine ⟨d, start, place, next, hd, henter, hnext, ?_⟩
  rw [hplace, Nat.add_sub_cancel_left]
  rfl

end Attribute

end JavaClass

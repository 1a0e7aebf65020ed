import JavaClass.Proofs.ReadAttribute

/-!
# Reading class files

`ClassFile.reads_decode`: from a fresh cursor, just the well-formed classes are read, each from its
layout.

The constants are the one thing that changes what comes after them. So the pool is followed through
`Pool.fill` (`Pool.reads_fill`), and from there on the context stays as it is.
-/

namespace JavaClass

open Decode

/-! ### The pool -/

namespace Pool

theorem entries_foldl_push (p : Pool) (ks : List Constant) :
    (ks.foldl push p).entries.toList = p.entries.toList ++ ks := by
  induction ks generalizing p with
  | nil => exact (List.append_nil _).symm
  | cons k ks ih =>
    rw [List.foldl_cons, ih, push, Array.toList_push, List.append_assoc, List.singleton_append]

theorem entries_ofList (ks : List Constant) : (ofList ks).entries.toList = ks :=
  entries_foldl_push empty ks

theorem ofList_toList (p : Pool) : ofList p.entries.toList = p := by
  refine ext (Array.toList_inj.mp ?_)
  rw [entries_ofList]

theorem count_eq (p : Pool) : p.count = totalSize Constant.width p.entries.toList + 1 := by
  rw [count, ← Array.length_toList, p.slots_eq, Constant.length_slotsFrom]

/-- A constant is added if there are indices left for it. -/
theorem fill_succ (n : Nat) : fill (n + 1) = (do
    let k ← Constant.decode
    Decode.addConstant k
    if k.width ≤ n + 1 then fill (n + 1 - k.width) else return false) := by
  cases n with
  | zero =>
    rw [fill]
    refine bind_congr fun k => bind_congr fun _ => ?_
    rw [Constant.width]
    cases k.isWide with
    | false => rfl
    | true => rfl
  | succ n =>
    rw [fill]
    refine bind_congr fun k => bind_congr fun _ => ?_
    rw [Constant.width]
    cases k.isWide with
    | false => rfl
    | true => exact (if_pos (Nat.le_add_left 2 n)).symm

/-- Reading constants until `n` indices are used up gives the pool with these constants added. -/
theorem reads_fill (e : Error) (n : Nat) : ∀ c : Cursor,
    ReadsAt Cursor.depth c (do if ← fill n then Decode.pool else throw e) fun p bs =>
      ∃ ks, p = ks.foldl push c.pool ∧ (∀ k ∈ ks, k.Fits) ∧ totalSize Constant.width ks = n ∧
        bs = ks.flatMap Constant.layout := by
  induction n using Nat.strongRecOn with
  | _ n ih =>
    intro c
    cases n with
    | zero =>
      have hpool : ReadsAt Cursor.depth c (Decode.pool >>= pure) _ := .pool_bind (.pure c.pool)
      refine ReadsAt.congr (d := Decode.pool >>= pure) hpool fun p bs => ?_
      constructor
      · rintro ⟨rfl, rfl⟩
        exact ⟨[], rfl, nofun, rfl, rfl⟩
      · rintro ⟨ks, rfl, -, hwidth, rfl⟩
        cases ks with
        | nil => exact ⟨rfl, rfl⟩
        | cons k ks =>
          have := k.width_pos
          rw [totalSize_cons] at hwidth
          omega
    | succ n =>
      rw [fill_succ]
      simp only [bind_assoc]
      refine ((Constant.reads_decode c).outer.depth.bind_of_ok
        (S := fun k p bs => k.width ≤ n + 1 ∧ ∃ ks, p = ks.foldl push (c.pool.push k) ∧
          (∀ k ∈ ks, k.Fits) ∧ totalSize Constant.width ks = n + 1 - k.width ∧
            bs = ks.flatMap Constant.layout)
        fun k _ c₁ hd _ _ => ?_).congr fun p bs => ?_
      · refine ReadsAt.modify_bind ⟨rfl, rfl, rfl⟩ ?_
        have hpool : c₁.pool = c.pool := (Constant.reads_decode c).outer.pool_eq hd
        by_cases hwidth : k.width ≤ n + 1
        · have hpos := k.width_pos
          simp only [if_pos hwidth, ← hpool]
          refine (ih (n + 1 - k.width) (by omega) _).congr fun p bs => ?_
          rw [and_iff_right hwidth]
        · simp only [if_neg hwidth]
          exact (ReadsAt.throw e).congr fun p bs => by simp [hwidth]
      · constructor
        · rintro ⟨k, _, _, ⟨hk, rfl⟩, ⟨hwidth, ks, rfl, hks, htotal, rfl⟩, rfl⟩
          refine ⟨k :: ks, rfl, List.forall_mem_cons.mpr ⟨hk, hks⟩, ?_, rfl⟩
          rw [totalSize_cons]
          omega
        · rintro ⟨ks, rfl, hks, htotal, rfl⟩
          cases ks with
          | nil => cases htotal
          | cons k ks =>
            obtain ⟨hk, hks⟩ := List.forall_mem_cons.mp hks
            rw [totalSize_cons] at htotal
            exact ⟨k, _, _, ⟨hk, rfl⟩, ⟨by omega, ks, rfl, hks, by omega, rfl⟩, List.flatMap_cons⟩

/-- A pool that has been read is the one that is there afterwards. -/
theorem decode_then_pool : (do decode; Decode.pool) = (do
    let count ← Decode.u16
    if count = 0 then
      throw (.indexOutOfRange count)
    else
      let p ← (do if ← fill (count.toNat - 1) then Decode.pool else throw (.indexOutOfRange count))
      Decode.report (.readPool p.size count)
      return p) := by
  rw [decode]
  simp only [bind_assoc]
  refine bind_congr fun count => ?_
  split
  · rfl
  · simp only [bind_assoc]
    refine bind_congr fun filled => ?_
    cases filled with
    | false => rfl
    | true => rfl

theorem reads_decode {c : Cursor} (hc : c.pool = .empty) :
    ReadsAt Cursor.depth c (do decode; Decode.pool) fun p bs => p.Fits ∧ bs = p.layout := by
  rw [decode_then_pool]
  refine ((reads_u16 c).outer.depth.bind_of_ok (S := fun count p bs => count.toNat = p.count ∧
    (∀ k ∈ p.entries.toList, k.Fits) ∧ bs = p.entries.toList.flatMap Constant.layout)
      fun count _ c₁ hd _ _ => ?_).congr fun p bs => ?_
  · have hpool : c₁.pool = .empty := by
      rw [(reads_u16 c).outer.pool_eq hd, hc]
    have hfill (e : Error) := reads_fill e (count.toNat - 1) c₁
    rw [hpool] at hfill
    refine (ReadsAt.check _ ((hfill _).bind fun p _ c _ _ =>
      (reads_report _ c).outer.depth.bind fun _ _ c _ _ => .pure p)).congr fun p bs => ?_
    have hzero : count = 0 ↔ count.toNat = 0 := UInt16.toNat_inj.symm
    constructor
    · rintro ⟨hcount, _, _, _, ⟨ks, rfl, hks, hwidth, rfl⟩, ⟨_, _, _, rfl, ⟨rfl, rfl⟩, rfl⟩, rfl⟩
      have hentries : (ks.foldl push empty).entries.toList = ks := entries_ofList ks
      rw [count_eq, hentries, hwidth, List.append_nil, List.append_nil]
      rw [hzero] at hcount
      exact ⟨by omega, hks, rfl⟩
    · rintro ⟨hcount, hfits, rfl⟩
      have hwidth := p.count_eq
      refine ⟨?_, p, _, [], ⟨p.entries.toList, (ofList_toList p).symm, hfits, by omega, rfl⟩,
        ⟨(), [], [], rfl, ⟨rfl, rfl⟩, rfl⟩, (List.append_nil _).symm⟩
      rw [hzero]
      omega
  · refine (then_u16_iff (S := fun n (p : Pool) bs => n = p.count ∧
      (∀ k ∈ p.entries.toList, k.Fits) ∧ bs = p.entries.toList.flatMap Constant.layout)).trans ?_
    constructor
    · rintro ⟨_, hcount, _, ⟨rfl, hks, rfl⟩, rfl⟩
      exact ⟨⟨hcount, hks⟩, rfl⟩
    · rintro ⟨⟨hcount, hks⟩, rfl⟩
      exact ⟨_, hcount, _, ⟨rfl, hks, rfl⟩, rfl⟩

/-- What follows a pool that has been read finds it at the cursor. -/
theorem reads_decode_bind {α : Type} {c : Cursor} (hc : c.pool = .empty) {d : Decode α}
    {S : Pool → α → List UInt8 → Prop}
    (h : ∀ p c', c'.outerContext = (p, c.depth) → ReadsAt Cursor.depth c' d (S p)) :
    ReadsAt Cursor.depth c (do decode; d) (Then (fun p bs => p.Fits ∧ bs = p.layout) S) := by
  have hbind : (do decode; d) = (do let _ ← (do decode; Decode.pool); d) := by
    rw [bind_assoc]
    rfl
  rw [hbind]
  refine (reads_decode hc).bind_of_ok fun p bs c' hd _ hpast => h p c' ?_
  obtain ⟨_, c₁, -, hpool⟩ := bind_eq_ok.mp hd
  cases hpool
  rw [Cursor.outerContext]
  exact Prod.ext rfl hpast.kept

end Pool

/-! ### Members and classes -/

namespace Member

variable {options : Options} {pool : Pool} {c : Cursor}

theorem reads_decode (hc : c.outerContext = (pool, 0)) :
    ReadsAt Cursor.outerContext c (decode options) fun m bs =>
      (m.Fits ∧ m.Regular options pool) ∧ bs = m.layout := by
  refine ((reads_u16 c).outer.bind fun accessFlags _ c₁ _ h₁ =>
    (reads_u16 c₁).outer.bind fun nameIndex _ c₂ _ h₂ =>
      (reads_u16 c₂).outer.bind fun descriptorIndex _ c₃ _ h₃ =>
        (Attribute.reads_counted options (h₃.kept.trans (h₂.kept.trans (h₁.kept.trans hc)))).map
          (mk accessFlags nameIndex descriptorIndex)).congr fun m bs => ?_
  obtain ⟨accessFlags, nameIndex, descriptorIndex, attributes⟩ := m
  constructor
  · rintro ⟨_, _, _, rfl, ⟨_, _, _, rfl, ⟨_, _, _, rfl, ⟨_, ⟨⟩, ⟨hcount, has⟩, rfl⟩, rfl⟩, rfl⟩, rfl⟩
    exact ⟨⟨⟨hcount, fun a ha => (has a ha).1⟩, fun a ha => (has a ha).2⟩, rfl⟩
  · rintro ⟨⟨⟨hcount, hfits⟩, hregular⟩, rfl⟩
    exact ⟨_, _, _, rfl, ⟨_, _, _, rfl, ⟨_, _, _, rfl, ⟨_, rfl,
      ⟨hcount, fun a ha => ⟨hfits a ha, hregular a ha⟩⟩, rfl⟩, rfl⟩, rfl⟩, rfl⟩

theorem reads_decodeReported (event : String → Event) (hc : c.outerContext = (pool, 0)) :
    ReadsAt Cursor.outerContext c (decodeReported options event) fun m bs =>
      (m.Fits ∧ m.Regular options pool) ∧ bs = m.layout := by
  refine ((reads_decode hc).bind fun m _ c _ _ => .pool_bind ((reads_report _ c).outer.bind
    fun _ _ c _ _ => .pure m)).congr fun m bs => ?_
  simp [Then]

theorem reads_counted (event : String → Event) (hc : c.outerContext = (pool, 0)) :
    ReadsAt Cursor.outerContext c (Decode.counted (decodeReported options event)) fun ms bs =>
      (ms.length ≤ 65535 ∧ ∀ m ∈ ms, m.Fits ∧ m.Regular options pool) ∧
        bs = Layout.counted layout ms :=
  .counted (reads_u16 c).outer fun _ hc' => reads_decodeReported event (hc'.trans hc)

end Member

namespace ClassFile

/-- The part of reading that comes after the pool. -/
def decodeAfterPool (options : Options) (minorVersion majorVersion : UInt16) :
    Decode ClassFile := do
  let accessFlags ← Decode.u16
  let thisClass ← Decode.u16
  let superClass ← Decode.u16
  let interfaces ← Decode.counted Decode.u16
  let fields ← Decode.counted (Member.decodeReported options .readField)
  let methods ← Decode.counted (Member.decodeReported options .readMethod)
  let attributes ← Decode.counted (Attribute.decode options)
  let pool ← Decode.pool
  Decode.report (.readClass ((pool.getClassName thisClass).toOption.getD "") majorVersion
    minorVersion fields.length methods.length attributes.length (← Decode.offset))
  return { minorVersion, majorVersion, pool, accessFlags, thisClass, superClass, interfaces, fields,
           methods, attributes }

theorem decode_eq (options : Options) : decode options = (do
    let found ← Decode.u32
    if found ≠ magic then
      throw (.badMagic found)
    let minorVersion ← Decode.u16
    let majorVersion ← Decode.u16
    Pool.decode
    decodeAfterPool options minorVersion majorVersion) := rfl

/-- What is read after the pool. -/
def AfterPool (options : Options) (minorVersion majorVersion : UInt16) (pool : Pool)
    (k : ClassFile) (bs : List UInt8) : Prop :=
  (k.minorVersion = minorVersion ∧ k.majorVersion = majorVersion ∧ k.pool = pool) ∧
    (k.interfaces.length ≤ 65535 ∧
      (k.fields.length ≤ 65535 ∧ ∀ m ∈ k.fields, m.Fits ∧ m.Regular options pool) ∧
      (k.methods.length ≤ 65535 ∧ ∀ m ∈ k.methods, m.Fits ∧ m.Regular options pool) ∧
      k.attributes.length ≤ 65535 ∧ ∀ a ∈ k.attributes, a.Fits ∧ a.Regular options pool 1) ∧
    bs = Layout.u16 k.accessFlags ++ (Layout.u16 k.thisClass ++ (Layout.u16 k.superClass ++
      (Layout.counted Layout.u16 k.interfaces ++ (Layout.counted Member.layout k.fields ++
        (Layout.counted Member.layout k.methods ++
          Layout.counted Attribute.layout k.attributes)))))

theorem reads_decodeAfterPool {options : Options} {minor major : UInt16} {p : Pool} {c : Cursor}
    (hc : c.outerContext = (p, 0)) :
    ReadsAt Cursor.outerContext c (decodeAfterPool options minor major)
      (AfterPool options minor major p) := by
  refine ((reads_u16 c).outer.bind fun accessFlags _ c₁ _ h₁ =>
    (reads_u16 c₁).outer.bind fun thisClass _ c₂ _ h₂ =>
    (reads_u16 c₂).outer.bind fun superClass _ c₃ _ h₃ =>
    (reads_counted_of_forall reads_u16 c₃).outer.bind fun interfaces _ c₄ _ h₄ =>
    have hc₄ := h₄.kept.trans (h₃.kept.trans (h₂.kept.trans (h₁.kept.trans hc)))
    (Member.reads_counted .readField hc₄).bind fun fields _ c₅ _ h₅ =>
    have hc₅ := h₅.kept.trans hc₄
    (Member.reads_counted .readMethod hc₅).bind fun methods _ c₆ _ h₆ =>
    have hc₆ := h₆.kept.trans hc₅
    (Attribute.reads_counted options hc₆).bind (S := fun attributes k bs => k = mk minor major p
      accessFlags thisClass superClass interfaces fields methods attributes ∧ bs = [])
      fun attributes _ c₇ _ h₇ => .pool_bind (.offset_bind ?_)).congr fun k bs => ?_
  · have hc₇ : c₇.pool = p := congrArg (·.1) (h₇.kept.trans hc₆)
    rw [hc₇]
    exact ((reads_report _ c₇).outer.bind fun _ _ c _ _ => .pure _).congr (by simp [Then])
  · constructor
    · rintro ⟨_, _, _, rfl, ⟨_, _, _, rfl, ⟨_, _, _, rfl, ⟨_, _, _, ⟨hinterfaces, rfl⟩,
        ⟨_, _, _, ⟨hfields, rfl⟩, ⟨_, _, _, ⟨hmethods, rfl⟩, ⟨_, _, _, ⟨hattributes, rfl⟩,
          ⟨rfl, rfl⟩, rfl⟩, rfl⟩, rfl⟩, rfl⟩, rfl⟩, rfl⟩, rfl⟩
      refine ⟨⟨rfl, rfl, rfl⟩, ⟨hinterfaces, hfields, hmethods, hattributes⟩, ?_⟩
      rw [List.append_nil]
    · obtain ⟨_, _, _, accessFlags, thisClass, superClass, interfaces, fields, methods,
        attributes⟩ := k
      rintro ⟨⟨rfl, rfl, rfl⟩, ⟨hinterfaces, hfields, hmethods, hattributes⟩, rfl⟩
      refine ⟨_, _, _, rfl, ⟨_, _, _, rfl, ⟨_, _, _, rfl, ⟨_, _, _, ⟨hinterfaces, rfl⟩,
        ⟨_, _, _, ⟨hfields, rfl⟩, ⟨_, _, _, ⟨hmethods, rfl⟩, ⟨_, _, _, ⟨hattributes, rfl⟩,
          ⟨rfl, rfl⟩, rfl⟩, rfl⟩, rfl⟩, rfl⟩, rfl⟩, rfl⟩, ?_⟩
      rw [List.append_nil]

/-- The pool starts out empty and the cursor outside of all attributes. -/
theorem reads_decode (options : Options) {c : Cursor} (hpool : c.pool = .empty)
    (hdepth : c.depth = 0) :
    ReadsAt Cursor.depth c (decode options) fun k bs => k.WellFormed options ∧ bs = k.layout := by
  rw [decode_eq]
  refine ((reads_u32 c).outer.depth.bind_of_ok fun found _ c₁ hd₁ _ h₁ =>
    .check _ ((reads_u16 c₁).outer.depth.bind_of_ok fun minor _ c₂ hd₂ _ h₂ =>
      (reads_u16 c₂).outer.depth.bind_of_ok fun major _ c₃ hd₃ _ h₃ =>
        Pool.reads_decode_bind ?_ (S := AfterPool options minor major) fun p c₄ hc₄ =>
          (reads_decodeAfterPool ?_).depth)).congr fun k bs => ?_
  · rw [(reads_u16 c₂).outer.pool_eq hd₃, (reads_u16 c₁).outer.pool_eq hd₂,
      (reads_u32 c).outer.pool_eq hd₁, hpool]
  · rw [hc₄, h₃.kept, h₂.kept, h₁.kept, hdepth]
  · constructor
    · rintro ⟨found, _, _, rfl, ⟨hmagic, minor, _, _, rfl, ⟨major, _, _, rfl, ⟨p, _, _, ⟨hp, rfl⟩,
        ⟨⟨rfl, rfl, rfl⟩, ⟨hinterfaces, ⟨hfields, hfield⟩, ⟨hmethods, hmethod⟩, hattributes,
          hattribute⟩, rfl⟩, rfl⟩, rfl⟩, rfl⟩, rfl⟩
      obtain rfl := Decidable.not_not.mp hmagic
      refine ⟨⟨⟨hp, hinterfaces, ⟨hfields, fun m hm => (hfield m hm).1⟩,
        ⟨hmethods, fun m hm => (hmethod m hm).1⟩, hattributes, fun a ha => (hattribute a ha).1⟩,
        fun m hm => (hfield m hm).2, fun m hm => (hmethod m hm).2,
        fun a ha => (hattribute a ha).2⟩, rfl⟩
    · rintro ⟨⟨⟨hp, hinterfaces, ⟨hfields, hfield⟩, ⟨hmethods, hmethod⟩, hattributes, hattribute⟩,
        hfield', hmethod', hattribute'⟩, rfl⟩
      exact ⟨magic, _, _, rfl, ⟨not_not_intro rfl, k.minorVersion, _, _, rfl, ⟨k.majorVersion, _, _,
        rfl, ⟨k.pool, _, _, ⟨hp, rfl⟩, ⟨⟨rfl, rfl, rfl⟩, ⟨hinterfaces,
          ⟨hfields, fun m hm => ⟨hfield m hm, hfield' m hm⟩⟩,
          ⟨hmethods, fun m hm => ⟨hmethod m hm, hmethod' m hm⟩⟩, hattributes,
          fun a ha => ⟨hattribute a ha, hattribute' a ha⟩⟩, rfl⟩, rfl⟩, rfl⟩, rfl⟩, rfl⟩

end ClassFile
end JavaClass

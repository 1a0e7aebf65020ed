import JavaClass.Proofs.Congruence
import JavaClass.Proofs.ReadClass

/-!
# What reading leaves as it is

Reading that fails leaves the cursor in the middle of something, but not anything in it. However
deep inside of attributes it failed, the cursor is back at the depth it came from; constants may
have been added but none is changed; and beside attributes and constants there is nothing at all to
be seen of it but the bytes that are gone.

`Decode.Leaves R` says that `R` holds between the cursor that reading starts at and the one it ends
at, whatever comes of it. It is a `Decode.Law` for every `R` that the reading of bytes goes along
with (`Cursor.Frame`).
-/

namespace JavaClass

open Decode

/-- A relation between cursors that holds along any reading of bytes. -/
structure Cursor.Frame (R : Cursor → Cursor → Prop) : Prop where
  trans : ∀ {c c₁ c₂}, R c c₁ → R c₁ c₂ → R c c₂
  read : ∀ c unread offset events, R c { c with unread, offset, events }

/-- A frame that attributes are read in as well. -/
structure Attribute.Frame (R : Cursor → Cursor → Prop) : Prop extends Cursor.Frame R where
  codeStart : ∀ c codeStart, R c { c with codeStart }
  nested : ∀ {c s}, R { c with depth := c.depth + 1 } s → R c { s with depth := s.depth - 1 }

namespace Decode

variable {V α β : Type} {R : Cursor → Cursor → Prop} {d : Decode α} {f : α → Decode β}

/-- Whatever comes of `d`, it leads to a cursor that `R` relates to the one it started at. -/
def Leaves (R : Cursor → Cursor → Prop) (d : Decode α) : Prop :=
  ∀ c, R c (outcome d c).2

theorem Leaves.of_ok (h : Leaves R d) {c s : Cursor} {a : α} (hd : d c = .ok a s) : R c s := by
  have hc := h c
  rwa [outcome_of_ok hd] at hc

theorem Leaves.of_error (h : Leaves R d) {c s : Cursor} {e : Error} (hd : d c = .error e s) :
    R c s := by
  have hc := h c
  rwa [outcome_of_error hd] at hc

theorem Leaves.bind (hR : Cursor.Frame R) (h : Leaves R d) (hf : ∀ a, Leaves R (f a)) :
    Leaves R (d >>= f) := by
  intro c
  cases hd : d c with
  | ok a s =>
    rw [outcome_bind_of_ok hd]
    exact hR.trans (h.of_ok hd) (hf a s)
  | error e s =>
    rw [outcome_of_error (bind_of_error hd)]
    exact h.of_error hd

theorem leaves_bytes (hR : Cursor.Frame R) (n : Nat) : Leaves R (bytes n) := by
  intro c
  by_cases hn : n ≤ c.unread.length
  · rw [outcome_of_ok (bytes_of_le hn)]
    exact hR.read c _ _ _
  · rw [outcome_of_error (bytes_of_lt (Nat.lt_of_not_le hn))]
    exact hR.read c _ _ _

theorem Leaves.nested (hR : Attribute.Frame R) (h : Leaves R d) : Leaves R (nested d) := by
  intro c
  cases hd : d { c with depth := c.depth + 1 } with
  | ok a s =>
    rw [outcome_of_ok (nested_of_ok hd)]
    exact hR.nested (h.of_ok hd)
  | error e s =>
    rw [outcome_of_error (nested_of_error hd)]
    exact hR.nested (h.of_error hd)

def leaving (hR : Cursor.Frame R) : Law where
  holds := Leaves R
  pure _ c := hR.read c _ _ _
  throw _ _ c := hR.read c _ _ _
  bind := .bind hR
  bytes := leaves_bytes hR
  get_bind h c := h c c
  report _ c := hR.read c _ _ _

def leavingAttribute (hR : Attribute.Frame R) : Attribute.Law where
  toLaw := leaving hR.toFrame
  tooDeep _ c := hR.read c _ _ _
  setCodeStart f c := hR.codeStart c (f c)
  nested := .nested hR

end Decode

/-! ### What stays the same -/

/-- The context of an attribute is the same as before. -/
theorem Attribute.frame_outerContext : Frame fun c s => s.outerContext = c.outerContext where
  trans h h' := h'.trans h
  read _ _ _ _ := rfl
  codeStart _ _ := rfl
  nested {c s} h := by
    have hpool := Cursor.pool_of_outerContext h
    have hdepth := Cursor.depth_of_outerContext h
    exact Prod.ext hpool (congrArg (· - 1) hdepth)

def Decode.keepingLaw : Attribute.Law :=
  leavingAttribute Attribute.frame_outerContext

def Decode.keeping : Attribute.Congruence :=
  keepingLaw.congruence

theorem Decode.outerContext_of_ok {α : Type} {d : Decode α} {a : α} {c s : Cursor}
    (hd : keeping.rel d d) (h : d c = .ok a s) : s.outerContext = c.outerContext :=
  have hleaves : Leaves (fun c s => s.outerContext = c.outerContext) d := hd
  hleaves.of_ok h

theorem Cursor.frame_codeStart : Frame fun c s => s.codeStart = c.codeStart where
  trans h h' := h'.trans h
  read _ _ _ _ := rfl

/-! ### Constants that are added -/

namespace Pool

variable {p : Pool} {index : UInt16} {n position : Nat}

/-- Adding constants takes no other's place. -/
theorem slots_foldl_push (p : Pool) (ks : List Constant) :
    (ks.foldl push p).slots.toList =
      p.slots.toList ++ Constant.slotsFrom p.entries.toList.length ks := by
  rw [slots_eq, entries_foldl_push, Constant.slotsFrom_append, Nat.zero_add, p.slots_eq]

theorem getElem?_slots_foldl_push (hn : n < p.slots.size) (ks : List Constant) :
    (ks.foldl push p).slots[n]? = p.slots[n]? := by
  rw [← Array.getElem?_toList, slots_foldl_push, List.getElem?_append_left hn,
    Array.getElem?_toList]

theorem getElem?_entries_foldl_push (hposition : position < p.entries.size) (ks : List Constant) :
    (ks.foldl push p).entries[position]? = p.entries[position]? := by
  rw [← Array.getElem?_toList, entries_foldl_push, List.getElem?_append_left hposition,
    Array.getElem?_toList]

theorem get_foldl_push (hindex : index.toNat < p.nextIndex) (ks : List Constant) :
    (ks.foldl push p).get index = p.get index := by
  by_cases hzero : index = 0
  · rw [get, get, if_pos hzero, if_pos hzero]
  have hpos : index.toNat ≠ 0 := fun h => hzero (UInt16.toNat_inj.mp h)
  obtain ⟨n, hn⟩ := Nat.exists_eq_succ_of_ne_zero hpos
  have hslot : n < p.slots.size := by
    rw [nextIndex] at hindex
    omega
  have hslots := getElem?_slots_foldl_push hslot ks
  rw [Array.getElem?_eq_getElem hslot] at hslots
  cases hcontent : p.slots[n] with
  | none =>
    rw [hcontent] at hslots
    rw [get_of_empty_slot hn hslots, get_of_empty_slot hn]
    rw [Array.getElem?_eq_getElem hslot, hcontent]
  | some position =>
    rw [hcontent] at hslots
    have hposition := p.position_lt position (hcontent ▸ Array.getElem_mem hslot)
    have hentry := Array.getElem?_eq_getElem hposition
    rw [get_of_slot hn hslots ((getElem?_entries_foldl_push hposition ks).trans hentry),
      get_of_slot hn _ hentry]
    rw [Array.getElem?_eq_getElem hslot, hcontent]

end Pool

/-- At the same depth, with some more constants. -/
structure Cursor.Grown (c s : Cursor) : Prop where
  depth : s.depth = c.depth
  pool : ∃ ks : List Constant, s.pool = ks.foldl Pool.push c.pool

theorem Attribute.frame_grown : Frame Cursor.Grown where
  trans := by
    rintro c c₁ c₂ ⟨hdepth, ks, hks⟩ ⟨hdepth', ks', hks'⟩
    refine ⟨hdepth'.trans hdepth, ks ++ ks', ?_⟩
    rw [hks', hks, List.foldl_append]
  read _ _ _ _ := ⟨rfl, [], rfl⟩
  codeStart _ _ := ⟨rfl, [], rfl⟩
  nested h := ⟨congrArg (· - 1) h.depth, h.pool⟩

def Decode.growing : ClassFile.Law where
  toAttributes := leavingAttribute Attribute.frame_grown
  addConstant k _ := ⟨rfl, [k], rfl⟩

/-- The constants of a pool that has been read come from the bytes after its count. -/
theorem Pool.added_of_decode {c s : Cursor} (h : decode c = .ok () s) :
    ∃ (count : UInt16) (ks : List Constant),
      c.unread = Layout.u16 count ++ (ks.flatMap Constant.layout ++ s.unread) ∧
        s.pool = ks.foldl push c.pool := by
  have hpool : (do decode; Decode.pool) c = .ok s.pool s := bind_eq_ok.mpr ⟨(), s, h, rfl⟩
  rw [decode_then_pool] at hpool
  obtain ⟨count, c₁, hcount, hchecked⟩ := bind_eq_ok.mp hpool
  obtain ⟨-, hfilled⟩ := check_eq_ok.mp hchecked
  obtain ⟨p, c₂, hfill, hreported⟩ := bind_eq_ok.mp hfilled
  obtain ⟨_, c₃, hreport, hp⟩ := bind_eq_ok.mp hreported
  obtain ⟨hp, rfl⟩ : p = s.pool ∧ c₃ = s := by cases hp; exact ⟨rfl, rfl⟩
  have hunread : c₃.unread = c₂.unread := by cases hreport; rfl
  obtain ⟨_, rfl, hpast₁⟩ := (reads_u16 c).sound hcount
  obtain ⟨_, ⟨ks, hks, -, -, rfl⟩, hpast₂⟩ := (reads_fill _ _ _).sound hfill
  refine ⟨count, ks, ?_, ?_⟩
  · rw [hpast₁.unread, hpast₂.unread, hunread]
  · rw [← hp, hks, (reads_u16 c).outer.pool_eq hcount]

namespace ClassFile

variable {options : Options} {c s : Cursor} {k : ClassFile}

/-- Behind its constants, a class adds no others. -/
theorem pool_of_decodeAfterPool {minor major : UInt16}
    (h : decodeAfterPool options minor major c = .ok k s) :
    k.pool = c.pool ∧ s.pool = c.pool := by
  obtain ⟨accessFlags, c₁, h₁, h⟩ := bind_eq_ok.mp h
  obtain ⟨thisClass, c₂, h₂, h⟩ := bind_eq_ok.mp h
  obtain ⟨superClass, c₃, h₃, h⟩ := bind_eq_ok.mp h
  obtain ⟨interfaces, c₄, h₄, h⟩ := bind_eq_ok.mp h
  obtain ⟨fields, c₅, h₅, h⟩ := bind_eq_ok.mp h
  obtain ⟨methods, c₆, h₆, h⟩ := bind_eq_ok.mp h
  obtain ⟨attributes, c₇, h₇, h⟩ := bind_eq_ok.mp h
  have hpool : c₇.pool = c.pool := by
    refine Cursor.pool_of_outerContext ?_
    calc c₇.outerContext
      _ = c₆.outerContext := outerContext_of_ok (keeping.counted keeping.attributeDecode) h₇
      _ = c₅.outerContext := outerContext_of_ok (keeping.counted (keeping.memberReported _)) h₆
      _ = c₄.outerContext := outerContext_of_ok (keeping.counted (keeping.memberReported _)) h₅
      _ = c₃.outerContext := outerContext_of_ok (keeping.counted keeping.u16) h₄
      _ = c₂.outerContext := outerContext_of_ok keeping.u16 h₃
      _ = c₁.outerContext := outerContext_of_ok keeping.u16 h₂
      _ = c.outerContext := outerContext_of_ok keeping.u16 h₁
  have hlast : k.pool = c₇.pool ∧ s.pool = c₇.pool := by
    cases h
    exact ⟨rfl, rfl⟩
  rwa [hpool] at hlast

/-- A class has the constants that were there before and the ones that are read, which come after
the first ten bytes. -/
theorem pool_of_decode (h : decode options c = .ok k s) :
    ∃ (ks : List Constant) (rest : List UInt8),
      c.unread.drop 10 = ks.flatMap Constant.layout ++ rest ∧
        k.pool = ks.foldl Pool.push c.pool ∧ s.pool = k.pool := by
  rw [decode_eq] at h
  obtain ⟨found, c₁, hfound, h⟩ := bind_eq_ok.mp h
  obtain ⟨-, h⟩ := check_eq_ok.mp h
  obtain ⟨minor, c₂, hminor, h⟩ := bind_eq_ok.mp h
  obtain ⟨major, c₃, hmajor, h⟩ := bind_eq_ok.mp h
  obtain ⟨_, c₄, hpool, h⟩ := bind_eq_ok.mp h
  obtain ⟨hk, hs⟩ := pool_of_decodeAfterPool h
  obtain ⟨count, ks, hunread, hks⟩ := Pool.added_of_decode hpool
  obtain ⟨_, rfl, hpast₁⟩ := (reads_u32 c).sound hfound
  obtain ⟨_, rfl, hpast₂⟩ := (reads_u16 c₁).sound hminor
  obtain ⟨_, rfl, hpast₃⟩ := (reads_u16 c₂).sound hmajor
  refine ⟨ks, c₄.unread, ?_, ?_, hs.trans hk.symm⟩
  · rw [hpast₁.unread, hpast₂.unread, hpast₃.unread, hunread]
    rfl
  · rw [hk, hks, (reads_u16 c₂).outer.pool_eq hmajor, (reads_u16 c₁).outer.pool_eq hminor,
      (reads_u32 c).outer.pool_eq hfound]

end ClassFile
end JavaClass

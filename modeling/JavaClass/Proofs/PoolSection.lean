import JavaClass.Proofs.Encodable
import JavaClass.Proofs.PoolIndices

/-!
# The constants of a class

The count in front of the constants of a class is one more than the number of indices that they take
up. So reading takes constants until that many indices are taken, and not one more
(`Constant.filling`). The last of them may take one index too many, if it is wide; then the class is
refused where the constants end, and a count of zero is refused right away
(`ClassFile.decode_constants`).
-/

namespace JavaClass

open Decode

namespace Constant

variable {n : Nat} {ks : List Constant}

/-- The first constants, as many as it takes to fill some indices. -/
def filling : (indices : Nat) → List Constant → List Constant
  | 0, _ | _ + 1, [] => []
  | indices + 1, k :: ks => k :: filling (indices + 1 - k.width) ks

theorem filling_zero (ks : List Constant) : filling 0 ks = [] := by
  rw [filling]

theorem filling_eq_take (n : Nat) (ks : List Constant) :
    filling n ks = ks.take (filling n ks).length := by
  induction ks generalizing n with
  | nil => cases n <;> rfl
  | cons k ks ih =>
    cases n with
    | zero => rw [filling_zero]; rfl
    | succ n => rw [filling, List.length_cons, List.take_succ_cons, ← ih]

theorem filling_append_drop (n : Nat) (ks : List Constant) :
    filling n ks ++ ks.drop (filling n ks).length = ks := by
  have hsplit := List.take_append_drop (filling n ks).length ks
  rwa [← filling_eq_take] at hsplit

theorem le_totalSize_filling (h : n ≤ totalSize width ks) :
    n ≤ totalSize width (filling n ks) := by
  induction ks generalizing n with
  | nil => cases n with
    | zero => exact Nat.zero_le _
    | succ n => exact h
  | cons k ks ih =>
    cases n with
    | zero => exact Nat.zero_le _
    | succ n =>
      rw [totalSize_cons] at h
      have := ih (n := n + 1 - k.width) (by omega)
      rw [filling, totalSize_cons]
      omega

/-- With fewer constants not all of the indices are filled. -/
theorem totalSize_take_lt {j : Nat} (hj : j < (filling n ks).length) :
    totalSize width ((filling n ks).take j) < n := by
  induction ks generalizing n j with
  | nil => cases n <;> exact absurd hj (Nat.not_lt_zero j)
  | cons k ks ih =>
    cases n with
    | zero => exact absurd hj (Nat.not_lt_zero j)
    | succ n =>
      rw [filling] at hj ⊢
      cases j with
      | zero => exact Nat.succ_pos n
      | succ j =>
        have := ih (n := n + 1 - k.width) (Nat.lt_of_succ_lt_succ hj)
        rw [List.take_succ_cons, totalSize_cons]
        omega

/-- The last of them fits, or it is a wide one that starts at the last index. -/
theorem totalSize_filling_cases (h : n ≤ totalSize width ks) : totalSize width (filling n ks) = n ∨
    ∃ j, ∃ hj : j < ks.length, ks[j].isWide ∧ totalSize width (ks.take j) + 1 = n := by
  induction ks generalizing n with
  | nil =>
    rw [totalSize_nil, Nat.le_zero] at h
    exact .inl (by rw [h, filling_zero, totalSize_nil])
  | cons k ks ih =>
    cases n with
    | zero => exact .inl (by rw [filling_zero, totalSize_nil])
    | succ n =>
      rw [totalSize_cons] at h
      by_cases hk : k.width ≤ n + 1
      · obtain heq | ⟨j, hj, hwide, hplace⟩ := ih (n := n + 1 - k.width) (by omega)
        · rw [filling, totalSize_cons, heq]
          exact .inl (by omega)
        · refine .inr ⟨j + 1, Nat.succ_lt_succ hj, hwide, ?_⟩
          rw [List.take_succ_cons, totalSize_cons]
          omega
      · -- one index is left for a constant that takes up two
        cases hwide : k.isWide with
        | false => rw [width, hwide] at hk; exact absurd (Nat.succ_pos n) hk
        | true =>
          rw [width, if_pos hwide] at hk
          refine .inr ⟨0, Nat.succ_pos _, hwide, ?_⟩
          rw [List.take_zero, totalSize_nil]
          omega

theorem totalSize_filling_of_wide {j : Nat} (hj : j < ks.length) (hwide : ks[j].isWide)
    (hplace : totalSize width (ks.take j) + 1 = n) : totalSize width (filling n ks) = n + 1 := by
  subst hplace
  induction ks generalizing j with
  | nil => exact absurd hj (Nat.not_lt_zero j)
  | cons k ks ih =>
    cases j with
    | zero =>
      have hk : k.width = 2 := if_pos hwide
      rw [List.take_zero, totalSize_nil, filling, hk, filling_zero, totalSize_cons, hk,
        totalSize_nil]
    | succ j =>
      have := ih (Nat.lt_of_succ_lt_succ hj) hwide
      have hrest : k.width + totalSize width (ks.take j) + 1 - k.width =
          totalSize width (ks.take j) + 1 := by omega
      rw [List.take_succ_cons, totalSize_cons, filling, hrest, totalSize_cons, this]
      omega

end Constant

namespace Pool

variable {n : Nat} {ks : List Constant} {rest : List UInt8} {c : Cursor}

/-- Whether the indices are just filled is what comes of it. -/
theorem fill_eq (hfits : ∀ k ∈ ks, k.Fits) (henough : n ≤ totalSize Constant.width ks)
    (hc : c.unread = ks.flatMap Constant.layout ++ rest) :
    ∃ s, fill n c = .ok (decide (totalSize Constant.width (Constant.filling n ks) = n)) s ∧
      s.unread = (ks.drop (Constant.filling n ks).length).flatMap Constant.layout ++ rest ∧
      s.offset = c.offset + totalSize Constant.encodedLength (Constant.filling n ks) ∧
      s.context = ((Constant.filling n ks).foldl push c.pool, c.depth, c.codeStart) := by
  induction ks generalizing n c with
  | nil =>
    obtain rfl : n = 0 := Nat.le_zero.mp henough
    exact ⟨c, rfl, hc, rfl, rfl⟩
  | cons k ks ih =>
    cases n with
    | zero => exact ⟨c, rfl, hc, rfl, rfl⟩
    | succ n =>
      obtain ⟨hk, hks⟩ := List.forall_mem_cons.mp hfits
      rw [List.flatMap_cons, List.append_assoc] at hc
      obtain ⟨c₁, hd, hc₁, hpast⟩ := (Constant.reads_decode c).exists_past ⟨hk, rfl⟩ hc
      have hcontext : c₁.context = (c.pool, c.depth, c.codeStart) := hpast.kept
      obtain ⟨hpool, hrest⟩ := Prod.mk.inj hcontext
      have hoffset : c₁.offset = c.offset + k.encodedLength := by
        rw [hpast.offset, Constant.length_layout]
      have hfill : fill (n + 1) c = (if k.width ≤ n + 1 then fill (n + 1 - k.width)
          else return false) { c₁ with pool := c₁.pool.push k } := by
        rw [fill_succ, bind_of_ok hd]
        rfl
      rw [totalSize_cons] at henough
      rw [hfill, Constant.filling, totalSize_cons, totalSize_cons, ← Nat.add_assoc, ← hoffset,
        List.length_cons, List.drop_succ_cons, List.foldl_cons, ← hpool, ← hrest]
      by_cases hwidth : k.width ≤ n + 1
      · obtain ⟨s, hs, hunread, hsoffset, hscontext⟩ := ih (n := n + 1 - k.width) hks (by omega)
          (c := { c₁ with pool := c₁.pool.push k }) hc₁
        rw [if_pos hwidth, hs]
        refine ⟨s, ?_, hunread, hsoffset, hscontext⟩
        congr 1
        exact decide_eq_decide.mpr (by omega)
      · have hnone : n + 1 - k.width = 0 := by omega
        have hmore : k.width + totalSize Constant.width [] ≠ n + 1 := by
          rw [totalSize_nil]
          omega
        rw [if_neg hwidth, hnone, Constant.filling_zero, decide_eq_false hmore]
        exact ⟨_, rfl, hc₁, rfl, rfl⟩

section

variable {count : UInt16} {c₁ s : Cursor}

theorem decode_of_zero (hcount : u16 c = .ok 0 c₁) : decode c = .error (.indexOutOfRange 0) c₁ := by
  rw [decode, bind_of_ok hcount]
  rfl

theorem decode_of_overfull (hcount : u16 c = .ok count c₁) (hzero : count ≠ 0)
    (hfill : fill (count.toNat - 1) c₁ = .ok false s) :
    decode c = .error (.indexOutOfRange count) s := by
  rw [decode, bind_of_ok hcount, if_neg hzero]
  exact bind_of_ok hfill

theorem decode_of_filled (hcount : u16 c = .ok count c₁) (hzero : count ≠ 0)
    (hfill : fill (count.toNat - 1) c₁ = .ok true s) : decode c = .ok ()
      { s with events := s.events.push (.readPool s.pool.size count) } := by
  rw [decode, bind_of_ok hcount, if_neg hzero]
  exact bind_of_ok hfill

end

end Pool

namespace ClassFile

variable {options : Options} {c : Cursor}

/-- The constants come after the first eight bytes. -/
theorem decode_eq_of_head (options : Options) {minor major : UInt16} {tail : List UInt8}
    (hc : c.unread = Layout.u32 magic ++ (Layout.u16 minor ++ (Layout.u16 major ++ tail))) :
    ∃ c₁, decode options c = (do Pool.decode; decodeAfterPool options minor major) c₁ ∧
      c₁.unread = tail ∧ c₁.offset = c.offset + 8 ∧ c₁.context = c.context := by
  obtain ⟨c₁, hd₁, hc₁, hpast₁⟩ := (reads_u32 c).exists_past rfl hc
  obtain ⟨c₂, hd₂, hc₂, hpast₂⟩ := (reads_u16 c₁).exists_past rfl hc₁
  obtain ⟨c₃, hd₃, hc₃, hpast₃⟩ := (reads_u16 c₂).exists_past rfl hc₂
  refine ⟨c₃, ?_, hc₃, ?_, hpast₃.kept.trans (hpast₂.kept.trans hpast₁.kept)⟩
  · have hmagic : decode options c = (do
        let minorVersion ← Decode.u16
        let majorVersion ← Decode.u16
        Pool.decode
        decodeAfterPool options minorVersion majorVersion) c₁ := by
      rw [decode_eq, bind_of_ok hd₁]
      rfl
    rw [hmagic, bind_of_ok hd₂, bind_of_ok hd₃]
  · rw [hpast₃.offset, hpast₂.offset, hpast₁.offset, Layout.length_u32, Layout.length_u16,
      Layout.length_u16]

/-- The bytes in front of the constants. -/
def head (minor major count : UInt16) : List UInt8 :=
  Layout.u32 magic ++ (Layout.u16 minor ++ (Layout.u16 major ++ Layout.u16 count))

theorem length_head (minor major count : UInt16) : (head minor major count).length = 10 := by
  simp only [head, List.length_append, Layout.length_u32, Layout.length_u16]

/-- Where reading stops that takes the first constants: they are in the pool, each of them at the
index behind those of the ones before, and nothing else has been read. -/
structure StopsBehind (taken : List Constant) (bytes : List UInt8) (s : Cursor) : Prop where
  context : s.context = (Pool.ofList taken, 0, 0)
  offset : s.offset = 10 + totalSize Constant.encodedLength taken
  unread : s.unread = bytes.drop s.offset

theorem StopsBehind.pool {taken : List Constant} {bytes : List UInt8} {s : Cursor}
    (h : StopsBehind taken bytes s) : s.pool = Pool.ofList taken :=
  congrArg (·.1) h.context

theorem StopsBehind.report {taken : List Constant} {bytes : List UInt8} {s : Cursor}
    (h : StopsBehind taken bytes s) (events : Array Event) :
    StopsBehind taken bytes { s with events } :=
  ⟨h.context, h.offset, h.unread⟩

/-- The constants that are taken have the same indices among all that follow. -/
theorem StopsBehind.get {ks : List Constant} {n : Nat} {bytes : List UInt8} {s : Cursor}
    {count : UInt16} (h : StopsBehind (Constant.filling n ks) bytes s) (hn : n = count.toNat - 1)
    {j : Nat} (hj : j < (Constant.filling n ks).length) :
    ∃ index : UInt16, index.toNat = Pool.indexAt ks j ∧ index < count ∧
      s.pool.get index = .ok (Constant.filling n ks)[j] := by
  have hindex : Pool.indexAt (Constant.filling n ks) j = Pool.indexAt ks j := by
    rw [Pool.indexAt, Pool.indexAt, Constant.filling_eq_take, List.take_take,
      Nat.min_eq_left (Nat.le_of_lt hj)]
  have hlt : Pool.indexAt ks j < count.toNat := by
    have := Constant.totalSize_take_lt hj
    rw [← hindex, Pool.indexAt]
    omega
  have hsmall : (UInt16.ofNat (Pool.indexAt ks j)).toNat = Pool.indexAt ks j :=
    UInt16.toNat_ofNat_of_lt' (Nat.lt_trans hlt count.toNat_lt)
  refine ⟨_, hsmall, ?_, ?_⟩
  · rw [UInt16.lt_iff_toNat_lt, hsmall]
    exact hlt
  · rw [h.pool]
    exact Pool.get_indexAt hj (hsmall.trans hindex.symm)

/-- On the way to the constants and through them. -/
theorem exists_stopsBehind (options : Options) (minor major count : UInt16) {ks : List Constant}
    (rest : List UInt8) (hfits : ∀ k ∈ ks, k.Fits)
    (henough : count.toNat - 1 ≤ totalSize Constant.width ks) :
    let bytes := head minor major count ++ (ks.flatMap Constant.layout ++ rest)
    let taken := Constant.filling (count.toNat - 1) ks
    ∃ c₁ c₂ s,
      decode options { unread := bytes } = (do Pool.decode; decodeAfterPool options minor major) c₁ ∧
      u16 c₁ = .ok count c₂ ∧
      Pool.fill (count.toNat - 1) c₂ =
        .ok (decide (totalSize Constant.width taken = count.toNat - 1)) s ∧
      StopsBehind taken bytes s := by
  intro bytes taken
  have hbytes : bytes = Layout.u32 magic ++ (Layout.u16 minor ++ (Layout.u16 major ++
      (Layout.u16 count ++ (ks.flatMap Constant.layout ++ rest)))) := by
    simp only [bytes, head, List.append_assoc]
  obtain ⟨c₁, hdecode, hc₁, hoffset₁, hcontext₁⟩ :=
    decode_eq_of_head options (c := { unread := bytes }) hbytes
  obtain ⟨c₂, hcount, hc₂, hpast⟩ := (reads_u16 c₁).exists_past rfl hc₁
  obtain ⟨s, hfill, hunread, hoffset, hcontext⟩ := Pool.fill_eq hfits henough hc₂
  have hstart : (c₂.pool, c₂.depth, c₂.codeStart) = (.empty, 0, 0) := hpast.kept.trans hcontext₁
  obtain ⟨hpool, hinside⟩ := Prod.mk.inj hstart
  have hlength : s.offset = 10 + totalSize Constant.encodedLength taken := by
    rw [hoffset, hpast.offset, hoffset₁, Layout.length_u16]
  refine ⟨c₁, c₂, s, hdecode, hcount, hfill, ?_, hlength, ?_⟩
  · rw [hcontext, hpool, hinside]
    rfl
  · have hsplit : bytes = (head minor major count ++ taken.flatMap Constant.layout) ++ s.unread := by
      rw [hunread, List.append_assoc, ← List.append_assoc (taken.flatMap _), ← List.flatMap_append,
        Constant.filling_append_drop]
    rw [hsplit, List.drop_left']
    rw [List.length_append, length_head, Layout.length_flatMap Constant.length_layout, hlength]

/-- A wide constant at the last index takes one index too many. -/
theorem not_filled_of_wide {count : UInt16} {ks : List Constant}
    (h : ∃ j, ∃ hj : j < ks.length, ks[j].isWide ∧ Pool.indexAt ks j + 1 = count.toNat) :
    totalSize Constant.width (Constant.filling (count.toNat - 1) ks) ≠ count.toNat - 1 := by
  obtain ⟨j, hj, hwide, hindex⟩ := h
  have hplace : totalSize Constant.width (ks.take j) + 1 = count.toNat - 1 := by
    rw [Pool.indexAt] at hindex
    omega
  rw [Constant.totalSize_filling_of_wide hj hwide hplace]
  exact Nat.succ_ne_self _

theorem filled_or_wide {count : UInt16} {ks : List Constant}
    (henough : count.toNat - 1 ≤ totalSize Constant.width ks) :
    totalSize Constant.width (Constant.filling (count.toNat - 1) ks) = count.toNat - 1 ∨
      ∃ j, ∃ hj : j < ks.length, ks[j].isWide ∧ Pool.indexAt ks j + 1 = count.toNat := by
  obtain hfilled | ⟨j, hj, hwide, hplace⟩ := Constant.totalSize_filling_cases henough
  · exact .inl hfilled
  · refine .inr ⟨j, hj, hwide, ?_⟩
    rw [Pool.indexAt]
    omega

/-- If some constants come next that take up enough indices, a class takes the first of them, as few
as fill the count. It goes on behind them if they just fill it, and fails there if the last one is
wide and takes one index too many; with a count of zero it fails in front of them. -/
theorem decode_constants (options : Options) (minor major count : UInt16) (ks : List Constant)
    (encoded rest : List UInt8) (hencoded : (Encode.each Constant.encode ks).run = .ok encoded)
    (henough : count.toNat - 1 ≤ totalSize Constant.width ks) :
    let bytes := head minor major count ++ (encoded ++ rest)
    let taken := Constant.filling (count.toNat - 1) ks
    (taken = ks.take taken.length ∧ count.toNat - 1 ≤ totalSize Constant.width taken ∧
      ∀ j < taken.length, totalSize Constant.width (taken.take j) < count.toNat - 1) ∧
    ∃ s, StopsBehind taken bytes s ∧
      (∀ j (hj : j < taken.length), ∃ index : UInt16, index.toNat = Pool.indexAt ks j ∧
        index < count ∧ s.pool.get index = .ok taken[j]) ∧
      (count ≠ 0 → totalSize Constant.width taken = count.toNat - 1 →
        s.pool.count = count.toNat ∧
          decode options { unread := bytes } = decodeAfterPool options minor major s) ∧
      ((count = 0 ∨ ∃ j, ∃ hj : j < ks.length, ks[j].isWide ∧
          Pool.indexAt ks j + 1 = count.toNat) →
        decode options { unread := bytes } = .error (.indexOutOfRange count) s) ∧
      (totalSize Constant.width taken = count.toNat - 1 ∨ ∃ j, ∃ hj : j < ks.length,
        ks[j].isWide ∧ Pool.indexAt ks j + 1 = count.toNat) := by
  intro bytes taken
  obtain ⟨hfits, rfl⟩ :=
    (Encode.writes_each Constant.writes_encode ks).run_eq_ok_iff.mp hencoded
  refine ⟨⟨Constant.filling_eq_take .., Constant.le_totalSize_filling henough,
    fun j => Constant.totalSize_take_lt⟩, ?_⟩
  obtain ⟨c₁, c₂, s, hdecode, hcount, hfill, hstops⟩ :=
    exists_stopsBehind options minor major count rest hfits henough
  have hcases := filled_or_wide henough
  by_cases hzero : count = 0
  · subst hzero
    have hfull : EStateM.Result.ok true c₂ = .ok _ s := hfill
    have hs : s = c₂ := (EStateM.Result.ok.inj hfull).2.symm
    refine ⟨s, hstops, fun j => hstops.get rfl, fun h => absurd rfl h, fun _ => ?_, hcases⟩
    rw [hdecode, bind_of_error (Pool.decode_of_zero hcount), hs]
  by_cases hfilled : totalSize Constant.width taken = count.toNat - 1
  · rw [decide_eq_true hfilled] at hfill
    have hreported := hstops.report (s.events.push (.readPool s.pool.size count))
    refine ⟨_, hreported, fun j => hreported.get rfl, fun _ _ => ⟨?_, ?_⟩, fun h => ?_, hcases⟩
    · have hpos : count.toNat ≠ 0 := fun h => hzero (UInt16.toNat_inj.mp h)
      rw [hreported.pool, Pool.count_ofList, hfilled]
      exact Nat.add_sub_cancel' (Nat.one_le_iff_ne_zero.mpr hpos)
    · rw [hdecode, bind_of_ok (Pool.decode_of_filled hcount hzero hfill)]
    · exact absurd hfilled (not_filled_of_wide (h.resolve_left hzero))
  · rw [decide_eq_false hfilled] at hfill
    refine ⟨s, hstops, fun j => hstops.get rfl, fun _ h => absurd h hfilled, fun _ => ?_, hcases⟩
    rw [hdecode, bind_of_error (Pool.decode_of_overfull hcount hzero hfill)]

/-- Two indices are left, and the second constant takes one more. -/
theorem decode_constants_overfull :
    (Encode.each Constant.encode [.integer 7, .long 1 2, .utf8 [0x41]]).run =
      .ok [3, 0, 0, 0, 7, 5, 0, 0, 0, 1, 0, 0, 0, 2, 1, 0, 1, 0x41] ∧
    ∃ s, decode {} { unread := head 0 52 3 ++
        ([3, 0, 0, 0, 7, 5, 0, 0, 0, 1, 0, 0, 0, 2, 1, 0, 1, 0x41] ++ [9]) } =
          .error (.indexOutOfRange 3) s ∧
      s.unread = [1, 0, 1, 0x41, 9] ∧ s.pool = .ofList [.integer 7, .long 1 2] := by
  have hencoded : (Encode.each Constant.encode [.integer 7, .long 1 2, .utf8 [0x41]]).run =
      .ok [3, 0, 0, 0, 7, 5, 0, 0, 0, 1, 0, 0, 0, 2, 1, 0, 1, 0x41] := rfl
  obtain ⟨-, s, hstops, -, -, hover, -⟩ :=
    decode_constants {} 0 52 3 _ _ [9] hencoded (by decide)
  refine ⟨hencoded, s, hover (.inr ⟨1, by decide, rfl, rfl⟩), ?_, hstops.pool⟩
  rw [hstops.unread, hstops.offset]
  rfl

end ClassFile
end JavaClass

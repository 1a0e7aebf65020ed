import JavaClass.Proofs.Frame

/-!
# The indices of a pool

A constant is found at one more than the number of indices that those in front of it take up
(`Pool.indexAt`), whichever way it is looked for. The index behind a wide constant is there but
cannot be used, and there are no others (`Pool.indices_of_pushes`).

A pool is looked at through its slots, which are those of its constants one after the other, each
with the position of its constant. So what is said here about indices is first said about places in
that list, counted from zero.
-/

namespace JavaClass.Pool

variable {ks : List Constant} {index : UInt16} {j n position : Nat}

/-- The index of a constant, by its place among the constants of a pool. -/
def indexAt (ks : List Constant) (j : Nat) : Nat :=
  1 + totalSize Constant.width (ks.take j)

/-! ### Slots -/

theorem slots_ofList (ks : List Constant) :
    (ofList ks).slots.toList = Constant.slotsFrom 0 ks := by
  rw [slots_eq, entries_ofList]

theorem getElem?_slots_ofList (ks : List Constant) (n : Nat) :
    (ofList ks).slots[n]? = (Constant.slotsFrom 0 ks)[n]? := by
  rw [← Array.getElem?_toList, slots_ofList]

theorem getElem?_entries_ofList (hj : j < ks.length) : (ofList ks).entries[j]? = some ks[j] := by
  rw [← Array.getElem?_toList, entries_ofList, List.getElem?_eq_getElem hj]

/-- Where the slots of a constant start, they are followed by those of the next ones. -/
theorem getElem?_slotsFrom_add (hj : j < ks.length) (n : Nat) :
    (Constant.slotsFrom 0 ks)[totalSize Constant.width (ks.take j) + n]? =
      (ks[j].slots j ++ Constant.slotsFrom (j + 1) (ks.drop (j + 1)))[n]? := by
  have hsplit : Constant.slotsFrom 0 ks = Constant.slotsFrom 0 (ks.take j) ++
      (ks[j].slots j ++ Constant.slotsFrom (j + 1) (ks.drop (j + 1))) := by
    rw [← Constant.slotsFrom, ← List.drop_eq_getElem_cons hj]
    have hparts := Constant.slotsFrom_append 0 (ks.take j) (ks.drop j)
    rwa [List.take_append_drop, Nat.zero_add, List.length_take_of_le (Nat.le_of_lt hj)] at hparts
  rw [hsplit, ← Constant.length_slotsFrom 0, List.getElem?_append_right (Nat.le_add_right ..),
    Nat.add_sub_cancel_left]

theorem getElem?_slotsFrom_first (hj : j < ks.length) :
    (Constant.slotsFrom 0 ks)[totalSize Constant.width (ks.take j)]? = some (some j) := by
  have hfirst := getElem?_slotsFrom_add hj 0
  rw [Nat.add_zero] at hfirst
  rw [hfirst, Constant.slots]
  split
  · rfl
  · rfl

theorem getElem?_slotsFrom_second (hj : j < ks.length) (hwide : ks[j].isWide) :
    (Constant.slotsFrom 0 ks)[totalSize Constant.width (ks.take j) + 1]? = some none := by
  rw [getElem?_slotsFrom_add hj, Constant.slots, if_pos hwide]
  rfl

/-- Every slot is the first one of a constant or the second one of a wide constant. -/
theorem exists_of_lt_totalSize (hn : n < totalSize Constant.width ks) :
    ∃ j, ∃ hj : j < ks.length, n = totalSize Constant.width (ks.take j) ∨
      ks[j].isWide ∧ n = totalSize Constant.width (ks.take j) + 1 := by
  induction ks generalizing n with
  | nil => exact absurd hn (Nat.not_lt_zero n)
  | cons k ks ih =>
    rw [totalSize_cons] at hn
    by_cases hk : n < k.width
    · refine ⟨0, Nat.succ_pos _, ?_⟩
      rw [List.getElem_cons_zero, List.take_zero, totalSize_nil]
      cases hwide : k.isWide with
      | false =>
        rw [Constant.width, hwide, if_neg Bool.false_ne_true] at hk
        exact .inl (by omega)
      | true =>
        rw [Constant.width, if_pos hwide] at hk
        obtain rfl | rfl : n = 0 ∨ n = 1 := by omega
        · exact .inl rfl
        · exact .inr ⟨rfl, rfl⟩
    · obtain ⟨j, hj, hplace⟩ := ih (n := n - k.width) (by omega)
      refine ⟨j + 1, Nat.succ_lt_succ hj, ?_⟩
      rw [List.getElem_cons_succ, List.take_succ_cons, totalSize_cons]
      obtain hplace | ⟨hwide, hplace⟩ := hplace
      · exact .inl (by omega)
      · exact .inr ⟨hwide, by omega⟩

/-! ### Looking up -/

theorem count_ofList (ks : List Constant) : (ofList ks).count = 1 + totalSize Constant.width ks := by
  rw [count_eq, entries_ofList, Nat.add_comm]

theorem nextIndex_ofList (ks : List Constant) (j : Nat) :
    (ofList (ks.take j)).nextIndex = indexAt ks j :=
  count_ofList (ks.take j)

theorem get_indexAt (hj : j < ks.length) (hindex : index.toNat = indexAt ks j) :
    (ofList ks).get index = .ok ks[j] := by
  rw [indexAt, Nat.add_comm] at hindex
  refine get_of_slot hindex ?_ (getElem?_entries_ofList hj)
  rw [getElem?_slots_ofList, getElem?_slotsFrom_first hj]

theorem get_behind_wide (hj : j < ks.length) (hwide : ks[j].isWide)
    (hindex : index.toNat = indexAt ks j + 1) :
    (ofList ks).get index = .error (.unusableIndex index) := by
  rw [indexAt, Nat.add_comm 1] at hindex
  refine get_of_empty_slot hindex ?_
  rw [getElem?_slots_ofList, getElem?_slotsFrom_second hj hwide]

theorem get_of_count_le (hindex : index = 0 ∨ (ofList ks).count ≤ index.toNat) :
    (ofList ks).get index = .error (.indexOutOfRange index) := by
  obtain rfl | hle := hindex
  · rfl
  · rw [count] at hle
    obtain ⟨n, hn⟩ := Nat.exists_eq_add_of_le' (Nat.le_of_add_left_le hle)
    exact get_of_no_slot hn (Array.getElem?_eq_none_iff.mpr (by omega))

/-- There are three kinds of indices. -/
theorem index_cases (ks : List Constant) (index : UInt16) :
    (∃ j, ∃ _ : j < ks.length, index.toNat = indexAt ks j) ∨
    (∃ j, ∃ _ : j < ks.length, ks[j].isWide ∧ index.toNat = indexAt ks j + 1) ∨
    (index = 0 ∨ (ofList ks).count ≤ index.toNat) := by
  by_cases hzero : index = 0
  · exact .inr (.inr (.inl hzero))
  by_cases hcount : (ofList ks).count ≤ index.toNat
  · exact .inr (.inr (.inr hcount))
  have hpos : index.toNat ≠ 0 := fun h => hzero (UInt16.toNat_inj.mp h)
  rw [count_ofList] at hcount
  have hplace : index.toNat - 1 < totalSize Constant.width ks := by omega
  obtain ⟨j, hj, hplace | ⟨hwide, hplace⟩⟩ := exists_of_lt_totalSize hplace
  · refine .inl ⟨j, hj, ?_⟩
    rw [indexAt]
    omega
  · refine .inr (.inl ⟨j, hj, hwide, ?_⟩)
    rw [indexAt]
    omega

/-! ### The constants with their indices -/

/-- Every constant is looked up once, at its position, and comes with its index. -/
theorem filterMap_slotsFrom (constant? : Nat → Option Constant)
    (h : ∀ j (hj : j < ks.length), constant? (position + j) = some ks[j]) (n : Nat) :
    ((Constant.slotsFrom position ks).zipIdx n).filterMap
        (fun (slot, index) => slot.bind fun position => (constant? position).map (index, ·)) =
      ks.mapIdx fun j k => (n + totalSize Constant.width (ks.take j), k) := by
  induction ks generalizing n position with
  | nil => rfl
  | cons k ks ih =>
    have hfirst : constant? position = some k := h 0 (Nat.succ_pos _)
    have hrest : ∀ j (hj : j < ks.length), constant? (position + 1 + j) = some ks[j] := by
      intro j hj
      rw [Nat.add_assoc, Nat.add_comm 1]
      exact h (j + 1) (Nat.succ_lt_succ hj)
    have hslots : ((k.slots position).zipIdx n).filterMap
        (fun (slot, index) => slot.bind fun position => (constant? position).map (index, ·)) =
          [(n, k)] := by
      rw [Constant.slots]
      split
      · simp [hfirst]
      · simp [hfirst]
    rw [Constant.slotsFrom, List.zipIdx_append, List.filterMap_append, hslots,
      ih hrest, Constant.length_slots, List.mapIdx_cons, List.singleton_append]
    simp only [List.take_zero, totalSize_nil, Nat.add_zero, List.take_succ_cons, totalSize_cons,
      Nat.add_assoc]

/-- Nothing is left out because of its position, as these are not out of bounds. -/
theorem indexed_eq (p : Pool) : p.indexed = (p.slots.toList.zipIdx 1).filterMap
    fun (slot, index) => slot.bind fun position => p.entries[position]?.map (index, ·) := by
  have hslots : p.slots.toList = p.slots.attach.toList.map (·.1) := by simp
  rw [indexed, hslots, List.zipIdx_map, List.filterMap_map]
  congr 1
  funext ⟨⟨slot, h⟩, index⟩
  cases slot with
  | none => rfl
  | some position => simp [Array.getElem?_eq_getElem (p.position_lt position h)]

theorem mem_indexed_of_get {p : Pool} {c : Constant} (h : p.get index = .ok c) :
    (index.toNat, c) ∈ p.indexed := by
  obtain ⟨n, position, hindex, hslot, hentry⟩ := exists_slot_of_get h
  rw [← Array.getElem?_toList] at hslot
  rw [indexed_eq, hindex]
  refine List.mem_filterMap.mpr ⟨(some position, n + 1), ?_, by simp [hentry]⟩
  exact List.mk_mem_zipIdx_iff_le_and_getElem?_sub.mpr ⟨Nat.le_add_left 1 n, hslot⟩

theorem indexed_ofList (ks : List Constant) :
    (ofList ks).indexed = ks.mapIdx fun j k => (indexAt ks j, k) := by
  rw [indexed_eq, slots_ofList]
  refine filterMap_slotsFrom ((ofList ks).entries[·]?) (fun j hj => ?_) 1
  rw [Nat.zero_add]
  exact getElem?_entries_ofList hj

/-- A slot that is not empty holds the position of the constant whose index it has. -/
theorem position_of_slot (h : (ofList ks).slots[n]? = some (some position)) :
    position < (ofList ks).entries.size ∧ n + 1 = indexAt ks position := by
  refine ⟨(ofList ks).position_lt position (Array.mem_of_getElem? h), ?_⟩
  rw [getElem?_slots_ofList] at h
  obtain ⟨hn, -⟩ := List.getElem?_eq_some_iff.mp h
  rw [Constant.length_slotsFrom] at hn
  obtain ⟨j, hj, rfl | ⟨hwide, rfl⟩⟩ := exists_of_lt_totalSize hn
  · rw [getElem?_slotsFrom_first hj] at h
    cases h
    exact Nat.add_comm ..
  · rw [getElem?_slotsFrom_second hj hwide] at h
    cases h

theorem foldl_push_ofList (ks more : List Constant) :
    more.foldl push (ofList ks) = ofList (ks ++ more) :=
  List.foldl_append.symm

theorem get_of_more {r : Except Error Constant} (more : List Constant)
    (h : (ofList ks).get index = r) (hr : r ≠ .error (.indexOutOfRange index)) :
    (more.foldl push (ofList ks)).get index = r := by
  have hlt : index.toNat < (ofList ks).nextIndex := by
    refine Nat.lt_of_not_le fun hle => hr ?_
    rw [← h, get_of_count_le (.inr hle)]
  rw [get_foldl_push hlt, h]

/-- What a pool is after any constants have been added to an empty one. Each of them gets the index
behind those that the constants in front of it take up, and is found there and in the list of all;
the second index of a wide constant is unusable, and all other indices are out of range. More
constants change nothing of that but what is out of range. -/
theorem indices_of_pushes (ks : List Constant) :
    ks.foldl push empty = ofList ks ∧
    (∀ more, more.foldl push (ofList ks) = ofList (ks ++ more)) ∧
    (ofList ks).entries.toList = ks ∧
    (∀ j, (ofList (ks.take j)).nextIndex = indexAt ks j) ∧
    (ofList ks).count = 1 + totalSize Constant.width ks ∧
    (ofList ks).indexed = ks.mapIdx (fun j k => (indexAt ks j, k)) ∧
    (∀ (index : UInt16) j (hj : j < ks.length), index.toNat = indexAt ks j →
      (ofList ks).get index = .ok ks[j]) ∧
    (∀ (index : UInt16) j (hj : j < ks.length), ks[j].isWide → index.toNat = indexAt ks j + 1 →
      (ofList ks).get index = .error (.unusableIndex index)) ∧
    (∀ index : UInt16, (∀ j < ks.length, index.toNat ≠ indexAt ks j) →
      (∀ j (hj : j < ks.length), ks[j].isWide → index.toNat ≠ indexAt ks j + 1) →
        (ofList ks).get index = .error (.indexOutOfRange index)) ∧
    (∀ index : UInt16, (ofList ks).get index = .error (.indexOutOfRange index) ↔
      index = 0 ∨ (ofList ks).count ≤ index.toNat) ∧
    (∀ n position, (ofList ks).slots[n]? = some (some position) →
      position < (ofList ks).entries.size ∧ n + 1 = indexAt ks position) ∧
    (∀ (more : List Constant) (index : UInt16) r, (ofList ks).get index = r →
      r ≠ .error (.indexOutOfRange index) → (more.foldl push (ofList ks)).get index = r) ∧
    ∀ p q : Pool, p = q ↔ p.entries.toList = q.entries.toList := by
  refine ⟨rfl, foldl_push_ofList ks, entries_ofList ks, nextIndex_ofList ks, count_ofList ks,
    indexed_ofList ks, fun index j hj => get_indexAt hj, fun index j hj => get_behind_wide hj,
    fun index hno hnone => ?_, fun index => ⟨fun h => ?_, get_of_count_le⟩,
    fun n position => position_of_slot, fun more index r => get_of_more more,
    fun p q => ⟨fun h => h ▸ rfl, fun h => ?_⟩⟩
  · obtain ⟨j, hj, hindex⟩ | ⟨j, hj, hwide, hindex⟩ | hout := index_cases ks index
    · exact absurd hindex (hno j hj)
    · exact absurd hindex (hnone j hj hwide)
    · exact get_of_count_le hout
  · obtain ⟨j, hj, hindex⟩ | ⟨j, hj, hwide, hindex⟩ | hout := index_cases ks index
    · rw [get_indexAt hj hindex] at h
      cases h
    · rw [get_behind_wide hj hwide hindex] at h
      cases h
    · exact hout
  · exact ext (Array.toList_inj.mp h)

example : (ofList [.long 0 1, .utf8 []]).get 3 = .ok (.utf8 []) := rfl

end JavaClass.Pool

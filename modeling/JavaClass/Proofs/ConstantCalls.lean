import JavaClass.Proofs.ConstantChains
import JavaClass.Proofs.PoolIndices
import Mathlib.Data.List.Perm.Subperm

/-!
# Calls for the text of a constant

From a handle that does not lead back to where it has been there are not more calls inside of each
other than there are handles, and one for what is behind them (`Listing.calls_of_acyclic`). Each of
them is for a handle not visited before, so the handles that are left get fewer
(`Pool.Visits.length_le`). From a handle that does lead back the calls never come to an end, and
there is no text (`Listing.constantText_isSome_iff`).
-/

namespace JavaClass

namespace Listing

/-! ### What fails because of a look-up -/

section

variable {p : Pool} {index : UInt16}

theorem failsWith_get : FailsWith Error.IsLookup (p.get index) :=
  fun _ => Pool.isLookup_of_get

theorem failsWith_getUtf8 : FailsWith Error.IsLookup (p.getUtf8 index) :=
  fun _ => Pool.isLookup_of_getUtf8

theorem failsWith_getText : FailsWith Error.IsLookup (p.getText index) :=
  failsWith_getUtf8.bind fun _ => failsWith_ok _

theorem failsWith_getClassName : FailsWith Error.IsLookup (p.getClassName index) := by
  refine failsWith_get.bind fun c => ?_
  split
  · exact failsWith_getText
  · exact failsWith_error (.wrongConstantKind ..)

theorem failsWith_nameAndTypeText {name descriptor : UInt16} :
    FailsWith Error.IsLookup (nameAndTypeText p name descriptor) :=
  failsWith_getText.bind fun _ => failsWith_getText.bind fun _ => failsWith_ok _

theorem failsWith_getNameAndType : FailsWith Error.IsLookup (getNameAndType p index) := by
  refine failsWith_get.bind fun c => ?_
  split
  · exact failsWith_nameAndTypeText
  · exact failsWith_error (.wrongConstantKind ..)

theorem failsWith_memberText {owner member : UInt16} :
    FailsWith Error.IsLookup (memberText p owner member) :=
  failsWith_getClassName.bind fun _ => failsWith_getNameAndType.bind fun _ => failsWith_ok _

theorem failsWith_plainText {c : Constant} (h : c.kind ≠ .methodHandle) :
    FailsWith Error.IsLookup (plainText p c) := by
  cases c with
  | classInfo | string | methodType => exact failsWith_getText
  | fieldRef | methodRef | interfaceMethodRef => exact failsWith_memberText
  | nameAndType => exact failsWith_nameAndTypeText
  | invokeDynamic => exact failsWith_getNameAndType.bind fun _ => failsWith_ok _
  | methodHandle => exact absurd rfl h
  | integer | float | long | double | utf8 => exact failsWith_ok _

end

theorem Calls.failsWith {p : Pool} {c : Constant} {n : Nat} {r : Except Error String}
    (h : Calls p c n r) : FailsWith Error.IsLookup r := by
  induction h with
  | last hkind => exact failsWith_plainText hkind
  | dangling hget => exact failsWith_error (failsWith_get _ hget)
  | handle hget hcalls ih => exact ih.map _

end Listing

namespace Pool

/-! ### Handles on the way -/

variable {p : Pool} {start index next : UInt16} {path : List UInt16} {c : Constant}

def handleCount (p : Pool) : Nat :=
  p.entries.toList.countP (·.kind = .methodHandle)

theorem map_snd_indexed (p : Pool) : p.indexed.map Prod.snd = p.entries.toList := by
  have hindexed := indexed_ofList p.entries.toList
  rw [ofList_toList] at hindexed
  rw [hindexed]
  refine List.ext_getElem? fun n => ?_
  rw [List.getElem?_map, List.getElem?_mapIdx, Option.map_map]
  exact congrFun Option.map_id _

/-- There are at most as many indices of constants with some property as there are such constants.
-/
theorem length_le_countP {indices : List UInt16} {q : Constant → Bool} (hnodup : indices.Nodup)
    (h : ∀ index ∈ indices, ∃ c, p.get index = .ok c ∧ q c) :
    indices.length ≤ p.entries.toList.countP q := by
  have hnumbers : (indices.map UInt16.toNat).Nodup :=
    List.Pairwise.map UInt16.toNat (fun _ _ hne heq => hne (UInt16.toNat_inj.mp heq)) hnodup
  have hsubset : indices.map UInt16.toNat ⊆ (p.indexed.filter (q ·.2)).map Prod.fst := by
    intro n hn
    obtain ⟨index, hindex, rfl⟩ := List.mem_map.mp hn
    obtain ⟨c, hget, hc⟩ := h index hindex
    exact List.mem_map_of_mem (List.mem_filter.mpr ⟨mem_indexed_of_get hget, hc⟩)
  calc indices.length
    _ = (indices.map UInt16.toNat).length := (List.length_map _).symm
    _ ≤ ((p.indexed.filter (q ·.2)).map Prod.fst).length := (hnumbers.subperm hsubset).length_le
    _ = p.indexed.countP (q ·.2) := by rw [List.length_map, List.countP_eq_length_filter]
    _ = p.entries.toList.countP q := by rw [← map_snd_indexed, List.countP_map]; rfl

/-- From one index to another through method handles, with the indices of these, the last one first.
-/
inductive Visits (p : Pool) (start : UInt16) : List UInt16 → UInt16 → Prop
  | here : Visits p start [] start
  | step {path : List UInt16} {index next : UInt16} {kind : UInt8} (h : Visits p start path index)
    (hget : p.get index = .ok (.methodHandle kind next)) : Visits p start (index :: path) next

/-- From the index, method handles never lead back to one visited before. -/
def Acyclic (p : Pool) (start : UInt16) : Prop :=
  ∀ path index, p.Visits start path index → index ∉ path

namespace Visits

theorem nodup (h : p.Visits start path index) (hacyclic : p.Acyclic start) : path.Nodup := by
  induction h with
  | here => exact List.nodup_nil
  | step h hget ih => exact List.nodup_cons.mpr ⟨hacyclic _ _ h, ih⟩

theorem exists_of_mem (h : p.Visits start path index) {visited : UInt16} (hmem : visited ∈ path) :
    ∃ kind next, p.get visited = .ok (.methodHandle kind next) := by
  induction h with
  | here => cases hmem
  | step h hget ih =>
    rcases List.mem_cons.mp hmem with rfl | hmem
    · exact ⟨_, _, hget⟩
    · exact ih hmem

/-- All the handles on the way are different ones. -/
theorem length_le (h : p.Visits start path index) (hacyclic : p.Acyclic start) :
    path.length ≤ p.handleCount := by
  refine length_le_countP (h.nodup hacyclic) fun visited hmem => ?_
  obtain ⟨kind, next, hget⟩ := h.exists_of_mem hmem
  exact ⟨_, hget, rfl⟩

theorem length_lt (h : p.Visits start path index) (hacyclic : p.Acyclic start) {kind : UInt8}
    (hget : p.get index = .ok (.methodHandle kind next)) : path.length < p.handleCount :=
  (h.step hget).length_le hacyclic

end Visits
end Pool

namespace Listing

variable {p : Pool} {start index : UInt16} {path : List UInt16} {c : Constant}

/-- From handle to handle the calls that are left get fewer. -/
theorem Calls.exists_lt {n : Nat} {r : Except Error String} {d : Constant} (h : Calls p c n r)
    (hstart : p.get start = .ok c) (hvisits : p.Visits start path index)
    (hget : p.get index = .ok d) :
    ∃ m s, Calls p d m s ∧ ∀ visited ∈ path, ∀ e k t,
      p.get visited = .ok e → Calls p e k t → m < k := by
  induction hvisits generalizing d with
  | here =>
    cases hstart.symm.trans hget
    exact ⟨n, r, h, fun _ hmem => nomatch hmem⟩
  | step hvisits hhandle ih =>
    obtain ⟨m, s, hcalls, hfewer⟩ := ih hhandle
    cases hcalls with
    | last hkind => exact absurd rfl hkind
    | dangling hmissing => cases hmissing.symm.trans hget
    | @handle _ _ _ left s hget' hcalls =>
      cases hget'.symm.trans hget
      refine ⟨left, s, hcalls, List.forall_mem_cons.mpr ⟨fun e k t he hk => ?_,
        fun visited hmem e k t he hk => Nat.lt_of_succ_lt (hfewer visited hmem e k t he hk)⟩⟩
      cases hhandle.symm.trans he
      obtain ⟨rfl, -⟩ := hk.unique (.handle hget' hcalls)
      exact Nat.lt_succ_self left

/-- If the calls come to an end then handles do not lead back to where they have been. -/
theorem Calls.acyclic {n : Nat} {r : Except Error String} (h : Calls p c n r)
    (hstart : p.get start = .ok c) : p.Acyclic start := by
  intro path index hvisits hmem
  obtain ⟨kind, next, hget⟩ := hvisits.exists_of_mem hmem
  obtain ⟨m, s, hcalls, hfewer⟩ := h.exists_lt hstart hvisits hget
  exact Nat.lt_irrefl m (hfewer index hmem _ m s hget hcalls)

/-- From a constant on the way, at most as many calls are made as handles are left, and one more. -/
theorem exists_calls (hacyclic : p.Acyclic start) (hvisits : p.Visits start path index)
    (hget : p.get index = .ok c) {left : Nat} (hleft : p.handleCount ≤ path.length + left) :
    ∃ n r, Calls p c n r ∧ path.length + n ≤ p.handleCount + 1 := by
  have hlength := hvisits.length_le hacyclic
  induction left generalizing path index c with
  | zero =>
    -- all handles are on the way, so this is none
    have hkind : c.kind ≠ .methodHandle := by
      intro hkind
      obtain ⟨kind, next, rfl⟩ := Constant.exists_of_kind hkind
      have hlt := hvisits.length_lt hacyclic hget
      omega
    exact ⟨1, _, .last hkind, Nat.succ_le_succ hlength⟩
  | succ left ih =>
    by_cases hkind : c.kind = .methodHandle
    · obtain ⟨kind, next, rfl⟩ := Constant.exists_of_kind hkind
      have hlt := hvisits.length_lt hacyclic hget
      cases hreferred : p.get next with
      | error e => exact ⟨1, _, .dangling hreferred, Nat.succ_le_succ hlength⟩
      | ok referred =>
        have hfewer : p.handleCount ≤ (index :: path).length + left := by
          rw [List.length_cons]
          omega
        obtain ⟨n, r, hcalls, hn⟩ := ih (hvisits.step hget) hreferred hfewer hlt
        rw [List.length_cons] at hn
        exact ⟨n + 1, _, .handle hreferred hcalls, by omega⟩
    · exact ⟨1, _, .last hkind, Nat.succ_le_succ hlength⟩

theorem exists_calls_of_acyclic (hget : p.get index = .ok c) (hacyclic : p.Acyclic index) :
    ∃ n r, Calls p c n r ∧ n ≤ p.handleCount + 1 := by
  have hleft : p.handleCount ≤ ([] : List UInt16).length + p.handleCount := Nat.le_add_left ..
  obtain ⟨n, r, hcalls, hn⟩ := exists_calls hacyclic .here hget hleft
  rw [List.length_nil, Nat.zero_add] at hn
  exact ⟨n, r, hcalls, hn⟩

/-- There is a text of a constant, or an error instead of it, just if handles do not lead back to
where they have been. -/
theorem constantText_isSome_iff (hget : p.get index = .ok c) :
    (constantText p c).isSome ↔ p.Acyclic index := by
  constructor
  · intro h
    obtain ⟨r, hr⟩ := Option.isSome_iff_exists.mp h
    obtain ⟨n, hcalls⟩ := constantText_eq_some_iff.mp hr
    exact hcalls.acyclic hget
  · intro hacyclic
    obtain ⟨n, r, hcalls, -⟩ := exists_calls_of_acyclic hget hacyclic
    rw [hcalls.constantText_eq]
    rfl

/-- From the index of a constant on, if handles do not lead back to where they have been, there is
a certain number of calls, at most one more than there are handles, and they come to the text of the
constant, or to an error because something is not there. Whatever handles there are in front of a
constant, their words come in front of its text. -/
theorem calls_of_acyclic (p : Pool) :
    (∀ index c, p.get index = .ok c → p.Acyclic index →
      ∃ n ≤ p.handleCount + 1, ∃ r, constantText p c = some r ∧
        (∀ m s, Calls p c m s ↔ m = n ∧ s = r) ∧ ∀ e, r = .error e → e.IsLookup) ∧
    ∀ c links last, p.Chain c links last →
      constantText p last = some (plainText p last) ∧
        constantText p c = some ((linkWords links ++ ·) <$> plainText p last) := by
  constructor
  · intro index c hget hacyclic
    obtain ⟨n, r, hcalls, hn⟩ := exists_calls_of_acyclic hget hacyclic
    refine ⟨n, hn, r, hcalls.constantText_eq, fun m s => ⟨fun h => h.unique hcalls, ?_⟩,
      hcalls.failsWith⟩
    rintro ⟨rfl, rfl⟩
    exact hcalls
  · intro c links last hchain
    exact ⟨constantText_of_kind hchain.kind_last, constantText_of_chain hchain⟩

/-- At index one there is a number, which takes two indices. The handle at index three leads to
another one, behind which there is a string, and the handle at index four to where nothing can be.
-/
def gapped : Pool :=
  .ofList [.long 0 0, .methodHandle 6 6, .methodHandle 1 2, .utf8 [0x41], .methodHandle 5 7,
    .string 5]

theorem calls_of_acyclic_gapped :
    gapped.get 3 = .ok (.methodHandle 6 6) ∧ gapped.Acyclic 3 ∧
      gapped.Chain (.methodHandle 6 6) [(6, 6), (5, 7)] (.string 5) ∧
      (∀ m r, Calls gapped (.methodHandle 6 6) m r ↔
        m = 3 ∧ r = .ok "REF_invokeStatic REF_invokeVirtual A") ∧
      gapped.get 4 = .ok (.methodHandle 1 2) ∧ gapped.Acyclic 4 ∧
      ∀ m r, Calls gapped (.methodHandle 1 2) m r ↔ m = 1 ∧ r = .error (.unusableIndex 2) := by
  have hget : gapped.get 3 = .ok (.methodHandle 6 6) := rfl
  have hchain : gapped.Chain (.methodHandle 6 6) [(6, 6), (5, 7)] (.string 5) :=
    .handle rfl (.handle rfl (.last nofun))
  have hget' : gapped.get 4 = .ok (.methodHandle 1 2) := rfl
  have hcalls : Calls gapped (.methodHandle 6 6) 3 _ := .handle rfl (.handle rfl (.last nofun))
  have hcalls' : Calls gapped (.methodHandle 1 2) 1 (.error (.unusableIndex 2)) := .dangling rfl
  have hacyclic := hcalls.acyclic hget
  have hacyclic' := hcalls'.acyclic hget'
  obtain ⟨hresult, htext⟩ := calls_of_acyclic gapped
  have hline : constantText gapped (.methodHandle 6 6) =
      some (.ok "REF_invokeStatic REF_invokeVirtual A") :=
    (htext _ _ _ hchain).2
  obtain ⟨n, -, r, hr, hiff, -⟩ := hresult 3 _ hget hacyclic
  obtain ⟨n', -, r', -, hiff', -⟩ := hresult 4 _ hget' hacyclic'
  obtain rfl := Option.some.inj (hline.symm.trans hr)
  obtain ⟨rfl, -⟩ := (hiff 3 _).mp hcalls
  obtain ⟨rfl, rfl⟩ := (hiff' 1 _).mp hcalls'
  exact ⟨hget, hacyclic, hchain, hiff, hget', hacyclic', hiff'⟩

end Listing
end JavaClass

import JavaClass.CommandLine.Disk

/-!
# What is where on a disk

A disk is looked at by names from the root on: at each address there is a directory, a file with its
bytes, or nothing (`Disk.look`). With something else put at an address, all other addresses are as
before (`Spot.In.look?_put`).

A path leads to a name in a directory (`Disk.Leads`), by the way of directories that are there. As
long as no directory is gone, it leads to the same place (`Disk.Leads.mono`).
-/

namespace JavaClass.CommandLine

/-- What there is at an address, without what a directory holds. -/
inductive Entry where
  | directory
  | file (bytes : List UInt8)
  | drain
  deriving DecidableEq, Repr

namespace Node

variable {n m : Node} {name : String}

def entry : Node → Entry
  | directory _ => .directory
  | file bytes => .file bytes
  | drain => .drain

/-- What is found when one name after the other is followed. -/
def find? (n : Node) : List String → Option Node
  | [] => some n
  | name :: names => (n.child? name).bind (·.find? names)

def look? (n : Node) (names : List String) : Option Entry :=
  (n.find? names).map entry

theorem lookup_cons_eq (key : String) (n : Node) (entries : List (String × Node)) (name : String) :
    ((key, n) :: entries).lookup name = if name = key then some n else entries.lookup name := by
  rw [List.lookup_cons]
  by_cases h : name = key
  · rw [if_pos h, beq_iff_eq.mpr h]
  · rw [if_neg h, beq_eq_false_iff_ne.mpr h]

theorem lookup_filter_ne (entries : List (String × Node)) (name other : String) :
    (entries.filter (·.1 ≠ name)).lookup other =
      if other = name then none else entries.lookup other := by
  induction entries with
  | nil => exact (ite_self none).symm
  | cons e entries ih =>
    obtain ⟨key, n⟩ := e
    by_cases hkey : key = name
    · subst hkey
      rw [List.filter_cons_of_neg (by simp), ih, lookup_cons_eq]
      split
      · rfl
      · rfl
    · rw [List.filter_cons_of_pos (by simpa using hkey), lookup_cons_eq, lookup_cons_eq, ih]
      by_cases hother : other = key
      · rw [if_pos hother, if_pos hother, if_neg (hother ▸ hkey)]
      · rw [if_neg hother, if_neg hother]

theorem child?_put (n : Node) (name : String) (child : Node) (other : String) :
    (n.put name child).child? other = if other = name then some child else n.child? other := by
  show List.lookup other ((name, child) :: n.entries.filter (·.1 ≠ name)) = _
  rw [lookup_cons_eq, lookup_filter_ne]
  split
  · rfl
  · rfl

theorem entry_of_child? (h : n.child? name = some m) : n.entry = .directory := by
  cases n with
  | directory entries => rfl
  | file bytes => cases h
  | drain => cases h

theorem find?_append (n : Node) (as bs : List String) :
    n.find? (as ++ bs) = (n.find? as).bind (·.find? bs) := by
  induction as generalizing n with
  | nil => rfl
  | cons a as ih =>
    rw [List.cons_append, find?, find?, Option.bind_assoc]
    exact congrArg (Option.bind _) (funext ih)

theorem look?_append_of_find? {as : List String} (h : n.find? as = some m) (bs : List String) :
    n.look? (as ++ bs) = m.look? bs := by
  rw [look?, find?_append, h]
  rfl

theorem look?_cons (n : Node) (name : String) (names : List String) :
    n.look? (name :: names) = (n.child? name).bind (·.look? names) := by
  rw [look?, find?, Option.map_bind]
  rfl

/-- Only a directory has something inside. -/
theorem look?_cons_of_entry (h : n.entry ≠ .directory) (name : String) (names : List String) :
    n.look? (name :: names) = none := by
  rw [look?_cons]
  cases hchild : n.child? name with
  | none => rfl
  | some m => exact absurd (entry_of_child? hchild) h

end Node

namespace Spot

variable {root root' : Node} {s s' t : Spot} {name : String} {names parts : List String}
  {o : Option String}

/-- The names that lead from the root to the directory. -/
def address (s : Spot) : List String :=
  (s.above.map (·.1)).reverse

theorem address_down (s : Spot) (name : String) : (s.down name).address = s.address ++ [name] :=
  List.reverse_cons

theorem address_up (s : Spot) : s.up.address = s.address.dropLast := by
  obtain ⟨here, _ | ⟨⟨name, n⟩, above⟩⟩ := s
  · rfl
  · have haddress : address ⟨here, (name, n) :: above⟩ = (above.map (·.1)).reverse ++ [name] :=
      List.reverse_cons
    rw [haddress, List.dropLast_concat]
    rfl

/-- A directory of a tree, with the right way back. -/
inductive In (root : Node) : Spot → Prop
  | top (h : root.entry = .directory) : In root ⟨root, []⟩
  | down {s : Spot} {name : String} {n : Node} (h : In root s)
    (hchild : s.here.child? name = some n) (hn : n.entry = .directory) : In root ⟨n, (name, s.here) :: s.above⟩

theorem down_of_child? {n : Node} (hchild : s.here.child? name = some n) :
    s.down name = ⟨n, (name, s.here) :: s.above⟩ := by
  rw [Spot.down, hchild]
  rfl

namespace In

theorem entry (h : In root s) : s.here.entry = .directory := by
  cases h with
  | top h => exact h
  | down _ _ hn => exact hn

theorem find? (h : In root s) : root.find? s.address = some s.here := by
  induction h with
  | top h => rfl
  | @down s name n h hchild hn ih =>
    have haddress : (⟨n, (name, s.here) :: s.above⟩ : Spot).address = s.address ++ [name] :=
      List.reverse_cons
    rw [haddress, Node.find?_append, ih]
    exact congrArg (Option.bind · some) hchild

theorem look?_append (h : In root s) (names : List String) :
    root.look? (s.address ++ names) = s.here.look? names :=
  Node.look?_append_of_find? h.find? names

theorem up (h : In root s) : In root s.up := by
  cases h with
  | top h => exact .top h
  | down h hchild hn => exact h

/-- With another directory in the place of this one, there is something else inside of it. -/
theorem look?_root_append (h : In root s) {n : Node} (hn : n.entry = .directory)
    (names : List String) :
    (Spot.root ⟨n, s.above⟩).look? (s.address ++ names) = n.look? names := by
  induction h generalizing n names with
  | top h => rfl
  | @down s name m h hchild hm ih =>
    have haddress : (⟨m, (name, s.here) :: s.above⟩ : Spot).address = s.address ++ [name] :=
      List.reverse_cons
    have hput : (s.here.put name n).look? (name :: names) = n.look? names := by
      rw [Node.look?_cons, Node.child?_put, if_pos rfl]
      rfl
    rw [haddress, List.append_assoc, List.singleton_append, ← hput]
    exact ih rfl (name :: names)

/-- And outside of it nothing is different. -/
theorem look?_root_of_not_prefix (h : In root s) {n : Node} (hn : n.entry = .directory)
    (hnames : ¬ s.address <+: names) : (Spot.root ⟨n, s.above⟩).look? names = root.look? names := by
  induction h generalizing n names with
  | top h => exact absurd List.nil_prefix hnames
  | @down s name m h hchild hm ih =>
    have haddress : (⟨m, (name, s.here) :: s.above⟩ : Spot).address = s.address ++ [name] :=
      List.reverse_cons
    rw [haddress] at hnames
    show (Spot.root ⟨s.here.put name n, s.above⟩).look? names = _
    by_cases hprefix : s.address <+: names
    · obtain ⟨rest, rfl⟩ := hprefix
      rw [h.look?_root_append rfl, h.look?_append]
      cases rest with
      | nil => exact congrArg some h.entry.symm
      | cons other rest =>
        have hother : other ≠ name := by
          rintro rfl
          exact hnames ⟨rest, by rw [List.append_assoc]; rfl⟩
        rw [Node.look?_cons, Node.look?_cons, Node.child?_put, if_neg hother]
    · exact ih rfl hprefix

/-- What is there after something that has nothing inside of it has been put where nothing is, or
something that has nothing inside of it either. -/
theorem look?_put (h : In root s) {child : Node} (hchild : ∀ name, child.child? name = none)
    (hold : root.look? (s.address ++ [name]) ≠ some .directory) (names : List String) :
    (s.put name child).root.look? names =
      if names = s.address ++ [name] then some child.entry else root.look? names := by
  have hdirectory : (s.here.put name child).entry = .directory := rfl
  show (Spot.root ⟨s.here.put name child, s.above⟩).look? names = _
  by_cases hprefix : s.address <+: names
  · obtain ⟨rest, rfl⟩ := hprefix
    rw [h.look?_root_append hdirectory, h.look?_append]
    cases rest with
    | nil =>
      rw [if_neg (by simp)]
      exact congrArg some h.entry.symm
    | cons other rest =>
      rw [Node.look?_cons, Node.child?_put]
      by_cases hother : other = name
      · subst hother
        rw [if_pos rfl]
        cases rest with
        | nil => rw [if_pos rfl]; rfl
        | cons inner rest =>
          rw [if_neg (by simp), Node.look?_cons]
          have hnone : child.look? (inner :: rest) = none := by
            rw [Node.look?_cons, hchild]
            rfl
          refine hnone.trans ?_
          cases hm : s.here.child? other with
          | none => rfl
          | some m =>
            have hentry : m.entry ≠ .directory := by
              rw [h.look?_append, Node.look?_cons, hm] at hold
              exact fun hentry => hold (congrArg some hentry)
            exact (Node.look?_cons_of_entry hentry inner rest).symm
      · rw [if_neg hother, if_neg (by simpa using fun h => absurd h hother), Node.look?_cons]
  · rw [h.look?_root_of_not_prefix hdirectory hprefix, if_neg]
    rintro rfl
    exact hprefix (List.prefix_append ..)

/-- The directory that names lead to, if there is one. -/
theorem foldl_down (h : In root s) (hnames : root.look? (s.address ++ names) = some .directory) :
    In root (names.foldl .down s) := by
  induction names generalizing s with
  | nil => exact h
  | cons name names ih =>
    rw [h.look?_append, Node.look?_cons] at hnames
    cases hchild : s.here.child? name with
    | none => rw [hchild] at hnames; cases hnames
    | some n =>
      rw [hchild] at hnames
      have hn : n.entry = .directory := by
        by_cases hn : n.entry = .directory
        · exact hn
        · cases names with
          | nil => exact Option.some.inj hnames
          | cons name names =>
            have hnone := Node.look?_cons_of_entry hn name names
            exact nomatch hnone.symm.trans hnames
      have hdown : In root (s.down name) := by
        rw [down_of_child? hchild]
        exact h.down hchild hn
      refine ih hdown ?_
      rw [address_down, List.append_assoc, h.look?_append, List.singleton_append, Node.look?_cons,
        hchild]
      exact hnames

end In

/-! ### Following a path -/

/-- Is it the name of something, and not too long for one? -/
structure IsName (part : String) : Prop where
  length : part.utf8ByteSize ≤ 255
  empty : part ≠ ""
  dot : part ≠ "."
  dots : part ≠ ".."

/-- From a directory, the parts of a path lead to another one, or to a name in it. -/
inductive Leads : Spot → List String → Spot → Option String → Prop
  | done (s : Spot) : Leads s [] s none
  | skip {s t : Spot} {part : String} {parts : List String} {o : Option String}
    (hpart : part = "" ∨ part = ".") (h : Leads s parts t o) : Leads s (part :: parts) t o
  | up {s t : Spot} {parts : List String} {o : Option String} (h : Leads s.up parts t o) :
    Leads s (".." :: parts) t o
  | last {s : Spot} {part : String} (hpart : IsName part) : Leads s [part] s (some part)
  | down {s t : Spot} {part : String} {parts : List String} {o : Option String} {n : Node}
    (hpart : IsName part) (hparts : parts ≠ []) (hchild : s.here.child? part = some n)
    (hn : n.entry = .directory) (h : Leads (s.down part) parts t o) : Leads s (part :: parts) t o

theorem leads_of_follow (h : s.follow parts = .ok (t, o)) : Leads s parts t o := by
  induction parts generalizing s with
  | nil =>
    cases h
    exact .done _
  | cons part parts ih =>
    rw [follow] at h
    split at h
    · cases h
    next hlength =>
    split at h
    · next hskip => exact .skip hskip (ih h)
    next hskip =>
    split at h
    · next hup => exact hup ▸ .up (ih h)
    next hup =>
    have hpart : IsName part :=
      ⟨Nat.le_of_not_lt hlength, fun h => hskip (.inl h), fun h => hskip (.inr h), hup⟩
    split at h
    · next hlast =>
      cases h
      exact hlast ▸ .last hpart
    next hlast =>
    split at h
    · next entries hchild => exact .down hpart hlast hchild rfl (ih h)
    · cases h
    · cases h

theorem Leads.follow (h : Leads s parts t o) : s.follow parts = .ok (t, o) := by
  induction h with
  | done s => rfl
  | @skip s t part parts o hpart h ih =>
    have hlength : ¬ part.utf8ByteSize > 255 := by
      obtain rfl | rfl := hpart
      · decide
      · decide
    rw [Spot.follow, if_neg hlength, if_pos hpart, ih]
  | up h ih =>
    rw [Spot.follow, if_neg (by decide), if_neg (by decide), if_pos rfl, ih]
  | last hpart =>
    rw [Spot.follow, if_neg (Nat.not_lt.mpr hpart.length),
      if_neg (not_or.mpr ⟨hpart.empty, hpart.dot⟩), if_neg hpart.dots, if_pos rfl]
  | @down s t part parts o n hpart hparts hchild hn h ih =>
    rw [Spot.follow, if_neg (Nat.not_lt.mpr hpart.length),
      if_neg (not_or.mpr ⟨hpart.empty, hpart.dot⟩), if_neg hpart.dots, if_neg hparts, hchild]
    cases n with
    | directory entries => exact ih
    | file bytes => cases hn
    | drain => cases hn

namespace Leads

theorem mem (h : Leads s parts t o) (hs : In root s) : In root t := by
  induction h with
  | done s => exact hs
  | skip hpart h ih => exact ih hs
  | up h ih => exact ih hs.up
  | last hpart => exact hs
  | down hpart hparts hchild hn h ih =>
    refine ih ?_
    rw [down_of_child? hchild]
    exact hs.down hchild hn

/-- The name that a path leads to is its last part. -/
theorem getLast?_eq (h : Leads s parts t o) (ho : o = some name) :
    parts.getLast? = some name ∧ IsName name := by
  have hmore {part : String} {parts : List String}
      (h : parts.getLast? = some name ∧ IsName name) :
      (part :: parts).getLast? = some name ∧ IsName name := by
    refine ⟨?_, h.2⟩
    rw [List.getLast?_cons, h.1]
    rfl
  induction h with
  | done s => cases ho
  | skip hpart h ih => exact hmore (ih ho)
  | up h ih => exact hmore (ih ho)
  | last hpart =>
    cases ho
    exact ⟨rfl, hpart⟩
  | down hpart hparts hchild hn h ih => exact hmore (ih ho)

/-- In a tree that has the same directories, a path leads to the same place. -/
theorem mono
    (hdirectories : ∀ names, root.look? names = some .directory →
      root'.look? names = some .directory)
    (h : Leads s parts t o) (hs : In root s) (hs' : In root' s')
    (haddress : s'.address = s.address) :
    ∃ t', Leads s' parts t' o ∧ t'.address = t.address := by
  induction h generalizing s' with
  | done s => exact ⟨s', .done s', haddress⟩
  | skip hpart h ih =>
    obtain ⟨t', ht', haddress'⟩ := ih hs hs' haddress
    exact ⟨t', .skip hpart ht', haddress'⟩
  | up h ih =>
    obtain ⟨t', ht', haddress'⟩ := ih hs.up hs'.up (by rw [address_up, address_up, haddress])
    exact ⟨t', .up ht', haddress'⟩
  | last hpart => exact ⟨s', .last hpart, haddress⟩
  | @down s t part parts o n hpart hparts hchild hn h ih =>
    have hlook : root.look? (s.address ++ [part]) = some .directory := by
      rw [hs.look?_append, Node.look?_cons, hchild]
      exact congrArg some hn
    have hlook' := hdirectories _ hlook
    rw [← haddress, hs'.look?_append, Node.look?_cons] at hlook'
    obtain ⟨n', hchild', hn'⟩ := Option.bind_eq_some_iff.mp hlook'
    have hn' : n'.entry = .directory := Option.some.inj hn'
    have hdown : In root (s.down part) := by
      rw [down_of_child? hchild]
      exact hs.down hchild hn
    have hdown' : In root' (s'.down part) := by
      rw [down_of_child? hchild']
      exact hs'.down hchild' hn'
    obtain ⟨t', ht', haddress'⟩ := ih hdown hdown' (by rw [address_down, address_down, haddress])
    exact ⟨t', .down hpart hparts hchild' hn' ht', haddress'⟩

end Leads
end Spot

namespace Disk

variable {d d' : Disk} {path : String} {names names' : List String} {bytes : List UInt8}

def look (d : Disk) (names : List String) : Option Entry :=
  d.root.look? names

/-- Is the working directory there? -/
def HasWorking (d : Disk) : Prop :=
  d.look wayToWorking = some .directory

/-- A path leads to a name in a directory that is there. There need not be anything of that name. -/
def Leads (d : Disk) (path : String) (names : List String) : Prop :=
  ∃ s name, d.locate path (Path.parts path) = .ok (s, some name) ∧ s.address ++ [name] = names

/-- All directories are directories in the other disk as well. -/
def KeepsDirectories (d d' : Disk) : Prop :=
  ∀ names, d.look names = some .directory → d'.look names = some .directory

/-- Where paths start. -/
def start (d : Disk) (path : String) : Spot :=
  if Path.isAbsolute path then d.top else d.working

theorem HasWorking.mono (hd : d.HasWorking) (hkeeps : d.KeepsDirectories d') : d'.HasWorking :=
  hkeeps _ hd

theorem HasWorking.entry_root (hd : d.HasWorking) : d.root.entry = .directory := by
  by_cases h : d.root.entry = .directory
  · exact h
  · have hnone : d.look wayToWorking = none := Node.look?_cons_of_entry h ..
    exact nomatch hnone.symm.trans hd

theorem HasWorking.start_in (hd : d.HasWorking) (path : String) :
    Spot.In d.root (d.start path) := by
  have htop : Spot.In d.root d.top := .top hd.entry_root
  rw [start]
  split
  · exact htop
  · exact htop.foldl_down hd

theorem address_start (d d' : Disk) (path : String) :
    (d'.start path).address = (d.start path).address := by
  rw [start, start]
  split
  · rfl
  · rfl

theorem locate_eq_ok_iff {parts : List String} {s : Spot} {o : Option String} :
    d.locate path parts = .ok (s, o) ↔
      path.utf8ByteSize < pathLimit ∧ (d.start path).Leads parts s o := by
  rw [locate, start]
  split
  · next hlong => exact iff_of_false nofun fun h => absurd h.1 (Nat.not_lt.mpr hlong)
  · next hlong =>
    rw [and_iff_right (Nat.lt_of_not_le hlong)]
    exact ⟨Spot.leads_of_follow, Spot.Leads.follow⟩

theorem Leads.mono (hd : d.HasWorking) (hkeeps : d.KeepsDirectories d') (h : d.Leads path names) :
    d'.Leads path names := by
  obtain ⟨s, name, hlocate, rfl⟩ := h
  obtain ⟨hlength, hleads⟩ := locate_eq_ok_iff.mp hlocate
  obtain ⟨s', hleads', haddress⟩ := hleads.mono hkeeps (hd.start_in path)
    ((hd.mono hkeeps).start_in path) (address_start d d' path)
  exact ⟨s', name, locate_eq_ok_iff.mpr ⟨hlength, hleads'⟩, by rw [haddress]⟩

theorem Leads.unique (h : d.Leads path names) (h' : d.Leads path names') : names = names' := by
  obtain ⟨s, name, hlocate, rfl⟩ := h
  obtain ⟨s', name', hlocate', rfl⟩ := h'
  rw [hlocate] at hlocate'
  cases hlocate'
  rfl

/-- Where a path leads, in terms of the directory found there. -/
theorem look_of_locate (hd : d.HasWorking) {parts : List String} {s : Spot} {name : String}
    (h : d.locate path parts = .ok (s, some name)) :
    Spot.In d.root s ∧ d.look (s.address ++ [name]) = (s.here.child? name).map Node.entry := by
  have hs := (locate_eq_ok_iff.mp h).2.mem (hd.start_in path)
  refine ⟨hs, ?_⟩
  rw [look, hs.look?_append, Node.look?_cons]
  cases s.here.child? name with
  | none => rfl
  | some n => rfl

end Disk
end JavaClass.CommandLine

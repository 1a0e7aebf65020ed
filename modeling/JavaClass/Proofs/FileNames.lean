import JavaClass.Proofs.DiskView

/-!
# Names of files

A path that leads to a name in a directory has that name as its last part, and that is the name of
the file (`Disk.Leads.fileName?_eq`). In any directory there is a path with the name of a file
(`Path.fileName?_join`). Files with different names are at different addresses
(`Disk.Leads.fileName?_congr`).
-/

namespace JavaClass

namespace Path

variable {path directory name part : String}

theorem go_of_not_mem {cs : List Char} (h : '/' ∉ cs) (read : List Char) (before : List String) :
    parts.go cs read before = (String.ofList (read.reverse ++ cs) :: before).reverse := by
  induction cs generalizing read with
  | nil => rw [parts.go, List.append_nil]
  | cons c cs ih =>
    have hc : c ≠ '/' := fun hc => h (hc ▸ List.mem_cons_self)
    have hread : (c :: read).reverse ++ cs = read.reverse ++ c :: cs := by
      rw [List.reverse_cons, List.append_assoc, List.singleton_append]
    rw [parts.go, if_neg hc, ih (fun hcs => h (List.mem_cons_of_mem c hcs)), hread]

/-- Behind a slash the parts start anew. -/
theorem exists_go_append (cs rest read : List Char) (before : List String) :
    ∃ before', parts.go (cs ++ '/' :: rest) read before = parts.go rest [] before' := by
  induction cs generalizing read before with
  | nil => exact ⟨_, if_pos rfl⟩
  | cons c cs ih =>
    rw [List.cons_append, parts.go]
    split
    · exact ih [] _
    · exact ih (c :: read) before

theorem not_mem_of_mem_go {cs read : List Char} {before : List String} (hread : '/' ∉ read)
    (hbefore : ∀ part ∈ before, '/' ∉ part.toList) (h : part ∈ parts.go cs read before) :
    '/' ∉ part.toList := by
  have hnow : ∀ part ∈ String.ofList read.reverse :: before, '/' ∉ part.toList := by
    intro part hpart
    obtain rfl | hpart := List.mem_cons.mp hpart
    · rwa [String.toList_ofList, List.mem_reverse]
    · exact hbefore part hpart
  induction cs generalizing read before with
  | nil => exact hnow part (List.mem_reverse.mp h)
  | cons c cs ih =>
    rw [parts.go] at h
    split at h
    · refine ih List.not_mem_nil hnow h fun part hpart => ?_
      obtain rfl | hpart := List.mem_cons.mp hpart
      · exact List.not_mem_nil
      · exact hnow part hpart
    next hc =>
      have hread' : '/' ∉ c :: read := List.not_mem_cons_of_ne_of_not_mem (Ne.symm hc) hread
      refine ih hread' hbefore h fun part hpart => ?_
      obtain rfl | hpart := List.mem_cons.mp hpart
      · rwa [String.toList_ofList, List.mem_reverse]
      · exact hbefore part hpart

theorem not_mem_of_mem_parts (h : part ∈ parts path) : '/' ∉ part.toList :=
  not_mem_of_mem_go List.not_mem_nil (fun _ h => absurd h List.not_mem_nil) h

theorem exists_toList_join (directory name : String) :
    ∃ cs, (join directory name).toList = cs ++ '/' :: name.toList := by
  rw [join]
  split
  · next hslash =>
    obtain ⟨cs, hcs⟩ := List.getLast?_eq_some_iff.mp hslash
    exact ⟨cs, by rw [String.toList_append, hcs, List.append_assoc, List.singleton_append]⟩
  · refine ⟨directory.toList, ?_⟩
    rw [String.toList_append, String.toList_append, List.append_assoc]
    rfl

theorem getLast?_parts_join (h : '/' ∉ name.toList) :
    (parts (join directory name)).getLast? = some name := by
  obtain ⟨cs, hcs⟩ := exists_toList_join directory name
  obtain ⟨before, hbefore⟩ := exists_go_append cs name.toList [] []
  rw [parts, hcs, hbefore, go_of_not_mem h, List.reverse_cons, List.getLast?_concat]
  exact congrArg some String.ofList_toList

/-- A path has the name of its last part, if that is one. -/
theorem fileName?_of_getLast? (h : (parts path).getLast? = some name) (hempty : name ≠ "")
    (hdot : name ≠ ".") (hdots : name ≠ "..") : fileName? path = some name := by
  obtain ⟨before, hbefore⟩ := List.getLast?_eq_some_iff.mp h
  rw [fileName?, components, hbefore, List.filter_append, List.filter_cons_of_pos, List.filter_nil,
    List.getLast?_concat, Option.filter_some, if_pos (decide_eq_true hdots)]
  exact Bool.and_eq_true_iff.mpr ⟨decide_eq_true hempty, decide_eq_true hdot⟩

/-- The name of a file is one in any directory. -/
theorem fileName?_join (h : fileName? path = some name) (directory : String) :
    fileName? (join directory name) = some name := by
  obtain ⟨hlast, hdots⟩ := Option.filter_eq_some_iff.mp h
  obtain ⟨hmem, hpart⟩ := List.mem_filter.mp (List.mem_of_getLast? hlast)
  obtain ⟨hempty, hdot⟩ := Bool.and_eq_true_iff.mp hpart
  exact fileName?_of_getLast? (getLast?_parts_join (not_mem_of_mem_parts hmem))
    (of_decide_eq_true hempty) (of_decide_eq_true hdot) (of_decide_eq_true hdots)

end Path

namespace CommandLine.Disk

variable {d : Disk} {path other directory name : String} {names : List String}

theorem Leads.fileName?_eq (h : d.Leads path names) :
    ∃ name, names.getLast? = some name ∧ Path.fileName? path = some name := by
  obtain ⟨s, name, hlocate, rfl⟩ := h
  obtain ⟨hlast, hname⟩ := (locate_eq_ok_iff.mp hlocate).2.getLast?_eq rfl
  exact ⟨name, List.getLast?_concat,
    Path.fileName?_of_getLast? hlast hname.empty hname.dot hname.dots⟩

/-- Where two paths lead to the same place, the files have the same name. -/
theorem Leads.fileName?_congr (h : d.Leads path names) (h' : d.Leads other names) :
    Path.fileName? path = Path.fileName? other := by
  obtain ⟨name, hname, hpath⟩ := h.fileName?_eq
  obtain ⟨name', hname', hother⟩ := h'.fileName?_eq
  rw [hpath, hother, ← hname, ← hname']

end CommandLine.Disk
end JavaClass

import JavaClass.Proofs.DiskView

/-!
# What operations do to a disk

Reading a file only depends on what is at one address (`Disk.readFile_eq`). Writing one changes what
is there, and nothing else (`Disk.Room.writeFile`). Making a directory adds it where nothing was
(`Disk.addsDirectories_of_makeDirectory`).

After several files have been written to different places, each of them can be read, and all other
addresses are as they were (`Disk.Receives`).
-/

namespace JavaClass.CommandLine

namespace Disk

variable {d d' d'' : Disk} {path : String} {names : List String} {bytes : List UInt8}
  {entry : Entry} {files : List (String × List UInt8)}

/-- What there is when something with nothing inside of it has been put at an address. -/
def PutAt (d : Disk) (names : List String) (entry : Entry) (d' : Disk) : Prop :=
  ∀ other, d'.look other = if other = names then some entry else d.look other

theorem PutAt.keepsDirectories (h : d.PutAt names entry d')
    (hnames : d.look names ≠ some .directory) : d.KeepsDirectories d' := by
  intro other hother
  rw [h other, if_neg, hother]
  rintro rfl
  exact hnames hother

theorem KeepsDirectories.trans (h : d.KeepsDirectories d') (h' : d'.KeepsDirectories d'') :
    d.KeepsDirectories d'' :=
  fun names hnames => h' names (h names hnames)

theorem putAt_of_locate (hd : d.HasWorking) {parts : List String} {s : Spot} {name : String}
    (h : d.locate path parts = .ok (s, some name)) (child : Node)
    (hchild : ∀ name, child.child? name = none)
    (hold : d.look (s.address ++ [name]) ≠ some .directory) :
    d.PutAt (s.address ++ [name]) child.entry ⟨(s.put name child).root⟩ :=
  (look_of_locate hd h).1.look?_put hchild hold

/-! ### Files -/

/-- What is done with the name that a path leads to is only done if it leads to one. -/
theorem exists_leads {α : Type} {a : α} {f : Spot × Option String → Except FileFault α}
    (hf : ∀ s, f (s, none) = .error .isADirectory)
    (h : d.locate path (Path.parts path) >>= f = .ok a) : ∃ names, d.Leads path names := by
  cases hlocate : d.locate path (Path.parts path) with
  | error e =>
    rw [hlocate] at h
    cases h
  | ok r =>
    obtain ⟨s, _ | name⟩ := r
    · rw [hlocate] at h
      exact nomatch (hf s).symm.trans h
    · exact ⟨_, s, name, hlocate, rfl⟩

theorem leads_of_readFile (h : d.readFile path = .ok bytes) : ∃ names, d.Leads path names :=
  exists_leads (fun _ => rfl) h

theorem leads_of_writeFile (h : d.writeFile path bytes = .ok d') : ∃ names, d.Leads path names :=
  exists_leads (fun _ => rfl) h

theorem readFile_eq (hd : d.HasWorking) (h : d.Leads path names) : d.readFile path =
    match d.look names with
    | some (.file bytes) => .ok bytes
    | some .drain => .ok []
    | some .directory => .error .isADirectory
    | none => .error .notFound := by
  obtain ⟨s, name, hlocate, rfl⟩ := h
  rw [(look_of_locate hd hlocate).2, readFile, hlocate]
  dsimp only [bind, Except.bind]
  rcases s.here.child? name with _ | ⟨_ | _ | _⟩
  · rfl
  · rfl
  · rfl
  · rfl

/-- A file is read as before if there is the same at its address. -/
theorem readFile_of_look (hd : d.HasWorking) (hkeeps : d.KeepsDirectories d')
    (h : d.Leads path names) (hlook : d'.look names = d.look names) :
    d'.readFile path = d.readFile path := by
  rw [readFile_eq hd h, readFile_eq (hd.mono hkeeps) (h.mono hd hkeeps), hlook]

/-- The path leads to where a file is, or to where one can be made. -/
structure Room (d : Disk) (path : String) (names : List String) : Prop where
  leads : d.Leads path names
  directory : d.look names ≠ some .directory
  drain : d.look names ≠ some .drain

/-- Whatever is written there can be read again. -/
def Writable (d : Disk) (path : String) : Prop :=
  ∀ bytes, ∃ d', d.writeFile path bytes = .ok d' ∧ d'.readFile path = .ok bytes

theorem writeFile_of_locate {s : Spot} {name : String}
    (h : d.locate path (Path.parts path) = .ok (s, some name)) (bytes : List UInt8) :
    d.writeFile path bytes =
      match s.here.child? name with
      | some (.directory _) => .error .isADirectory
      | some .drain => .ok d
      | _ => .ok ⟨(s.put name (.file bytes)).root⟩ := by
  rw [writeFile, h]
  rfl

theorem writeFile_of_directory (hd : d.HasWorking) (h : d.Leads path names)
    (hlook : d.look names = some .directory) (bytes : List UInt8) :
    d.writeFile path bytes = .error .isADirectory := by
  obtain ⟨s, name, hlocate, rfl⟩ := h
  rw [(look_of_locate hd hlocate).2] at hlook
  obtain ⟨n, hchild, hn⟩ := Option.map_eq_some_iff.mp hlook
  rw [writeFile_of_locate hlocate, hchild]
  cases n with
  | directory entries => rfl
  | file bytes => cases hn
  | drain => cases hn

theorem writeFile_of_drain (hd : d.HasWorking) (h : d.Leads path names)
    (hlook : d.look names = some .drain) (bytes : List UInt8) : d.writeFile path bytes = .ok d := by
  obtain ⟨s, name, hlocate, rfl⟩ := h
  rw [(look_of_locate hd hlocate).2] at hlook
  obtain ⟨n, hchild, hn⟩ := Option.map_eq_some_iff.mp hlook
  rw [writeFile_of_locate hlocate, hchild]
  cases n with
  | directory entries => cases hn
  | file bytes => cases hn
  | drain => rfl

theorem Room.writeFile (hd : d.HasWorking) (h : d.Room path names) (bytes : List UInt8) :
    ∃ d', d.writeFile path bytes = .ok d' ∧ d.PutAt names (.file bytes) d' := by
  obtain ⟨⟨s, name, hlocate, rfl⟩, hdirectory, hdrain⟩ := h
  have hput := putAt_of_locate hd hlocate (.file bytes) (fun _ => rfl) hdirectory
  refine ⟨_, ?_, hput⟩
  rw [(look_of_locate hd hlocate).2] at hdirectory hdrain
  rw [writeFile_of_locate hlocate]
  cases hchild : s.here.child? name with
  | none => rfl
  | some n =>
    rw [hchild] at hdirectory hdrain
    cases n with
    | directory entries => exact absurd rfl hdirectory
    | file old => rfl
    | drain => exact absurd rfl hdrain

/-- What was written is gone, or there was room for it. -/
theorem writeFile_cases (hd : d.HasWorking) (h : d.writeFile path bytes = .ok d') :
    ∃ names, d.Leads path names ∧ (d.look names = some .drain ∧ d' = d ∨
      d.Room path names ∧ d.PutAt names (.file bytes) d') := by
  obtain ⟨names, hleads⟩ := leads_of_writeFile h
  refine ⟨names, hleads, ?_⟩
  by_cases hdrain : d.look names = some .drain
  · rw [writeFile_of_drain hd hleads hdrain] at h
    cases h
    exact .inl ⟨hdrain, rfl⟩
  have hdirectory : d.look names ≠ some .directory := by
    intro hdirectory
    rw [writeFile_of_directory hd hleads hdirectory] at h
    cases h
  have hroom : d.Room path names := ⟨hleads, hdirectory, hdrain⟩
  obtain ⟨d'', hwrite, hput⟩ := hroom.writeFile hd bytes
  rw [h] at hwrite
  cases hwrite
  exact .inr ⟨hroom, hput⟩

theorem Writable.exists_room (hd : d.HasWorking) (h : d.Writable path) :
    ∃ names, d.Room path names := by
  obtain ⟨d', hwrite, hread⟩ := h [0]
  obtain ⟨names, hleads, ⟨hdrain, rfl⟩ | ⟨hroom, -⟩⟩ := writeFile_cases hd hwrite
  · rw [readFile_eq hd hleads, hdrain] at hread
    cases hread
  · exact ⟨names, hroom⟩

/-! ### Directories -/

/-- There are more directories, and nothing else is different. -/
def AddsDirectories (d d' : Disk) : Prop :=
  ∀ names, d'.look names = d.look names ∨ d.look names = none ∧ d'.look names = some .directory

namespace AddsDirectories

theorem refl (d : Disk) : d.AddsDirectories d :=
  fun _ => .inl rfl

theorem trans (h : d.AddsDirectories d') (h' : d'.AddsDirectories d'') : d.AddsDirectories d'' := by
  intro names
  obtain hsame | ⟨hnone, hnew⟩ := h' names
  · rw [hsame]
    exact h names
  · obtain hsame | ⟨-, hdirectory⟩ := h names
    · exact .inr ⟨hsame ▸ hnone, hnew⟩
    · exact nomatch hnone.symm.trans hdirectory

theorem look_eq (h : d.AddsDirectories d') (hlook : d.look names = some entry) :
    d'.look names = some entry := by
  obtain hsame | ⟨hnone, -⟩ := h names
  · exact hsame.trans hlook
  · exact nomatch hnone.symm.trans hlook

theorem keepsDirectories (h : d.AddsDirectories d') : d.KeepsDirectories d' :=
  fun _ => h.look_eq

theorem readFile (hd : d.HasWorking) (h : d.AddsDirectories d')
    (hread : d.readFile path = .ok bytes) : d'.readFile path = .ok bytes := by
  obtain ⟨names, hleads⟩ := leads_of_readFile hread
  rw [← hread]
  refine readFile_of_look hd h.keepsDirectories hleads ?_
  rw [readFile_eq hd hleads] at hread
  cases hlook : d.look names with
  | none => rw [hlook] at hread; cases hread
  | some entry => exact h.look_eq hlook

end AddsDirectories

theorem PutAt.addsDirectories (hnames : d.look names = none) (h : d.PutAt names .directory d') :
    d.AddsDirectories d' := by
  intro other
  rw [h other]
  split
  · next hother => exact .inr ⟨hother ▸ hnames, rfl⟩
  · exact .inl rfl

theorem addsDirectories_of_makeDirectory (hd : d.HasWorking) (h : d.makeDirectory path = .ok d') :
    d.AddsDirectories d' := by
  rw [makeDirectory] at h
  cases hlocate : d.locate path ((Path.parts path).reverse.dropWhile (· = "")).reverse with
  | error e => rw [hlocate] at h; cases h
  | ok r =>
    rw [hlocate] at h
    obtain ⟨s, _ | name⟩ := r
    · cases h
      exact .refl d
    · dsimp only [bind, Except.bind] at h
      cases hchild : s.here.child? name with
      | none =>
        rw [hchild] at h
        cases h
        have hlook : d.look (s.address ++ [name]) = none := by
          rw [(look_of_locate hd hlocate).2, hchild]
          rfl
        exact PutAt.addsDirectories hlook
          (putAt_of_locate hd hlocate (.directory []) (fun _ => rfl) (hlook ▸ nofun))
      | some n =>
        rw [hchild] at h
        cases n with
        | directory entries =>
          cases h
          exact .refl d
        | file bytes => cases h
        | drain => cases h

/-! ### Several files -/

/-- After the files have been written, each can be read, and nothing else is different. -/
structure Receives (d : Disk) (files : List (String × List UInt8)) (d' : Disk) : Prop where
  keepsDirectories : d.KeepsDirectories d'
  leads : ∀ file ∈ files, ∃ names, d.Leads file.1 names
  readFile : ∀ file ∈ files, d'.readFile file.1 = .ok file.2
  look_eq : ∀ names, (∀ file ∈ files, ¬ d.Leads file.1 names) → d'.look names = d.look names

namespace Receives

theorem nil (d : Disk) : d.Receives [] d where
  keepsDirectories := fun _ => id
  leads := nofun
  readFile := nofun
  look_eq := fun _ _ => rfl

/-- What is not among the files is read as before. -/
theorem readFile_eq (hd : d.HasWorking) (h : d.Receives files d')
    (hread : d.readFile path = .ok bytes)
    (hother : ∀ names, d.Leads path names → ∀ file ∈ files, ¬ d.Leads file.1 names) :
    d'.readFile path = .ok bytes := by
  obtain ⟨names, hleads⟩ := leads_of_readFile hread
  rw [← hread]
  exact readFile_of_look hd h.keepsDirectories hleads (h.look_eq names (hother names hleads))

/-- One more file can be written, where none of the others is. -/
theorem writeFile (hd : d.HasWorking) (h : d.Receives files d') (hroom : d.Room path names)
    (hother : ∀ file ∈ files, ¬ d.Leads file.1 names) (bytes : List UInt8) :
    ∃ d'', d'.writeFile path bytes = .ok d'' ∧ d.Receives (files ++ [(path, bytes)]) d'' := by
  have hlook : d'.look names = d.look names := h.look_eq names hother
  have hd' : d'.HasWorking := hd.mono h.keepsDirectories
  have hroom' : d'.Room path names :=
    ⟨hroom.leads.mono hd h.keepsDirectories, hlook ▸ hroom.directory, hlook ▸ hroom.drain⟩
  obtain ⟨d'', hwrite, hput⟩ := hroom'.writeFile hd' bytes
  have hkeeps : d'.KeepsDirectories d'' := hput.keepsDirectories hroom'.directory
  have hnew : d''.readFile path = .ok bytes := by
    rw [Disk.readFile_eq (hd'.mono hkeeps) (hroom'.leads.mono hd' hkeeps), hput names, if_pos rfl]
  have hold : ∀ file ∈ files, d''.readFile file.1 = .ok file.2 := by
    intro file hfile
    obtain ⟨there, hthere⟩ := h.leads file hfile
    have hne : there ≠ names := fun heq => hother file hfile (heq ▸ hthere)
    rw [← h.readFile file hfile]
    exact readFile_of_look hd' hkeeps (hthere.mono hd h.keepsDirectories)
      ((hput there).trans (if_neg hne))
  refine ⟨d'', hwrite, h.keepsDirectories.trans hkeeps, List.forall_mem_append.mpr ⟨h.leads, ?_⟩,
    List.forall_mem_append.mpr ⟨hold, ?_⟩, fun there hthere => ?_⟩
  · exact List.forall_mem_singleton.mpr ⟨names, hroom.leads⟩
  · exact List.forall_mem_singleton.mpr hnew
  · obtain ⟨hfiles, hpath⟩ := List.forall_mem_append.mp hthere
    have hne : there ≠ names :=
      fun heq => List.forall_mem_singleton.mp hpath (heq ▸ hroom.leads)
    rw [hput there, if_neg hne, h.look_eq there hfiles]

end Receives
end Disk

/-! ### In a session -/

section

variable {s : Session} {d : Disk}

theorem run_update_ok (change : Disk → Except FileFault Disk) (h : change s.disk = .ok d) :
    (Session.host.update change).run s = (.ok (), { s with disk := d }) := by
  rw [Session.host.update, StateT.run_modifyGet, h]
  rfl

theorem run_update_error {fault : FileFault} (change : Disk → Except FileFault Disk)
    (h : change s.disk = .error fault) :
    (Session.host.update change).run s = (.error fault, s) := by
  rw [Session.host.update, StateT.run_modifyGet, h]
  rfl

end

/-- All that is done is to make directories. -/
def MakesDirectories {α : Type} (x : StateM Session α) : Prop :=
  ∀ s, s.disk.HasWorking → ∃ d, (x.run s).2 = { s with disk := d } ∧ s.disk.AddsDirectories d

namespace MakesDirectories

variable {α β : Type} {x : StateM Session α} {f : α → StateM Session β}

theorem pure (a : α) : MakesDirectories (Pure.pure a) :=
  fun s _ => ⟨s.disk, rfl, .refl s.disk⟩

theorem bind (hx : MakesDirectories x) (hf : ∀ a, MakesDirectories (f a)) :
    MakesDirectories (x >>= f) := by
  intro s hs
  obtain ⟨d, heq, hadds⟩ := hx s hs
  obtain ⟨d', heq', hadds'⟩ := hf (x.run s).1 { s with disk := d } (hs.mono hadds.keepsDirectories)
  refine ⟨d', ?_, hadds.trans hadds'⟩
  show ((f (x.run s).1).run (x.run s).2).2 = _
  rw [heq, heq']

theorem makeDirectory (path : String) : MakesDirectories (Session.host.makeDirectory path) := by
  intro s hs
  cases h : s.disk.makeDirectory path with
  | ok d =>
    have hrun := run_update_ok (fun d => d.makeDirectory path) h
    exact ⟨d, congrArg Prod.snd hrun, Disk.addsDirectories_of_makeDirectory hs h⟩
  | error fault =>
    have hrun := run_update_error (fun d => d.makeDirectory path) h
    exact ⟨s.disk, congrArg Prod.snd hrun, .refl s.disk⟩

theorem makeNested (path : String) (outer : List String) :
    MakesDirectories (Session.host.makeNested path outer) := by
  induction outer generalizing path with
  | nil => exact makeDirectory path
  | cons part outer ih =>
    refine (makeDirectory path).bind fun result => ?_
    cases result with
    | ok u => exact .pure _
    | error fault =>
      dsimp only
      split
      · exact .pure _
      · refine (ih (Path.ofParts (part :: outer).reverse)).bind fun result => ?_
        cases result with
        | ok u => exact makeDirectory path
        | error fault => exact .pure _

theorem makeDirectories (path : String) : MakesDirectories (Session.host.makeDirectories path) :=
  makeNested path (Path.outerParts path)

end MakesDirectories
end JavaClass.CommandLine

import JavaClass.Proofs.WholeRun

/-!
# What is kept of each file

A file is kept under its own name, whatever directory it is in. So if several files have the same
name, it is the last of them that is kept (`run_keeps_last`), and what was kept of the others is
lost. So is what is kept under the name of something that keeps nothing (`run_loses`).

Here a run is followed backwards, from its success to what has been done for each file on the disk
(`CopiesAll`). While that goes on only files change, and only where the copies are
(`Disk.Overwrites`).
-/

namespace JavaClass.CommandLine

namespace Disk

variable {d d₁ d' : Disk} {path : String} {names other : List String} {bytes : List UInt8}
  {places places' : List String}

/-- Nothing has changed but files, and only those that the paths lead to. -/
structure Overwrites (d : Disk) (places : List String) (d' : Disk) : Prop where
  directories : ∀ names, d'.look names = some .directory ↔ d.look names = some .directory
  drains : ∀ names, d'.look names = some .drain ↔ d.look names = some .drain
  look_eq : ∀ names, (∀ place ∈ places, ¬ d.Leads place names) → d'.look names = d.look names

theorem Overwrites.refl (d : Disk) (places : List String) : d.Overwrites places d :=
  ⟨fun _ => .rfl, fun _ => .rfl, fun _ _ => rfl⟩

theorem PutAt.look_iff {new entry : Entry} (h : d.PutAt names new d') (hnew : new ≠ entry)
    (hold : d.look names ≠ some entry) (other : List String) :
    d'.look other = some entry ↔ d.look other = some entry := by
  rw [h other]
  split
  · next hsame => exact iff_of_false (fun heq => hnew (Option.some.inj heq)) (hsame ▸ hold)
  · rfl

theorem PutAt.overwrites (hroom : d.Room path names) (h : d.PutAt names (.file bytes) d') :
    d.Overwrites [path] d' := by
  refine ⟨h.look_iff nofun hroom.directory, h.look_iff nofun hroom.drain, fun other hother => ?_⟩
  have hne : other ≠ names := by
    rintro rfl
    exact hother path List.mem_cons_self hroom.leads
  rw [h other, if_neg hne]

theorem overwrites_of_writeFile (hd : d.HasWorking) (h : d.writeFile path bytes = .ok d') :
    d.Overwrites [path] d' := by
  obtain ⟨names, -, ⟨-, rfl⟩ | ⟨hroom, hput⟩⟩ := writeFile_cases hd h
  · exact .refl d' _
  · exact hput.overwrites hroom

namespace Overwrites

theorem hasWorking (h : d.Overwrites places d') (hd : d.HasWorking) : d'.HasWorking :=
  (h.directories _).mpr hd

/-- Paths lead to where they did. -/
theorem leads_iff (h : d.Overwrites places d') (hd : d.HasWorking) :
    d'.Leads path names ↔ d.Leads path names :=
  ⟨fun hleads => hleads.mono (h.hasWorking hd) fun _ => (h.directories _).mp,
    fun hleads => hleads.mono hd fun _ => (h.directories _).mpr⟩

theorem trans (hd : d.HasWorking) (h : d.Overwrites places d₁) (h' : d₁.Overwrites places' d') :
    d.Overwrites (places ++ places') d' := by
  refine ⟨fun names => (h'.directories names).trans (h.directories names),
    fun names => (h'.drains names).trans (h.drains names), fun names hnames => ?_⟩
  obtain ⟨hfirst, hthen⟩ := List.forall_mem_append.mp hnames
  rw [h'.look_eq names fun place hplace => (not_congr (h.leads_iff hd)).mpr (hthen place hplace),
    h.look_eq names hfirst]

/-- What is somewhere else is read as before. -/
theorem readFile_eq (h : d.Overwrites places d') (hd : d.HasWorking) (hleads : d.Leads path names)
    (hother : ∀ place ∈ places, ¬ d.Leads place names) : d'.readFile path = d.readFile path :=
  readFile_of_look hd (fun _ => (h.directories _).mpr) hleads (h.look_eq names hother)

end Overwrites

/-- The path leads to something in the directory, which has there the name of the file. -/
def Inside (d : Disk) (directory path : String) : Prop :=
  ∃ names, d.Leads path names ∧ d.Leads (Path.join directory (baseName path)) names

theorem not_inside {directory : String} (h : d.Leads path names)
    (h' : d.Leads (Path.join directory (baseName path)) other) (hne : names ≠ other) :
    ¬ d.Inside directory path := by
  rintro ⟨there, hpath, hcopy⟩
  exact hne ((h.unique hpath).trans (hcopy.unique h'))

/-- The path leads to where nothing is kept. -/
def Drains (d : Disk) (path : String) : Prop :=
  ∃ names, d.Leads path names ∧ d.look names = some .drain

theorem Overwrites.drains_iff (h : d.Overwrites places d') (hd : d.HasWorking) :
    d'.Drains path ↔ d.Drains path :=
  exists_congr fun names => and_congr (h.leads_iff hd) (h.drains names)

theorem readFile_of_writeFile (hd : d.HasWorking) (h : d.writeFile path bytes = .ok d')
    (hdrains : ¬ d.Drains path) : d'.readFile path = .ok bytes := by
  obtain ⟨names, hleads, ⟨hdrain, -⟩ | ⟨hroom, hput⟩⟩ := writeFile_cases hd h
  · exact absurd ⟨names, hleads, hdrain⟩ hdrains
  · have hchanges := hput.overwrites hroom
    rw [readFile_eq (hchanges.hasWorking hd) ((hchanges.leads_iff hd).mpr hleads), hput names,
      if_pos rfl]

/-- A class can be read from a file, and it is written again as these bytes. -/
def Rewrites (options : Options) (d : Disk) (path : String) (written : List UInt8) : Prop :=
  ∃ bytes c, d.readFile path = .ok bytes ∧ ClassFile.ofBytes options bytes = .ok c ∧
    c.toBytes = .ok written

end Disk

/-! ### Backwards through a run -/

section

variable {α β : Type} {x : ExceptT Halt (StateM Session) α}
  {f : α → ExceptT Halt (StateM Session) β} {s s₁ s' : Session} {settings : Settings}
  {output path : String} {written : List UInt8}

namespace Runs

theorem unique {result result' : Except Halt α} (h : Runs x s result s')
    (h' : Runs x s result' s₁) : result = result' ∧ s' = s₁ :=
  Prod.mk.inj (h.symm.trans h')

theorem exists_of_bind {b : β} (h : Runs (x >>= f) s (.ok b) s') :
    ∃ a s₁, Runs x s (.ok a) s₁ ∧ Runs (f a) s₁ (.ok b) s' := by
  obtain ⟨result, s₁, hx⟩ : ∃ result s₁, Runs x s result s₁ := ⟨_, _, rfl⟩
  cases result with
  | error halt => exact nomatch (h.unique (bind_error hx)).1
  | ok a =>
    refine ⟨a, s₁, hx, ?_⟩
    obtain ⟨hresult, hs⟩ := h.unique (bind hx rfl)
    rw [hresult, hs]
    rfl

theorem of_attempt {a : α} {context : String} {operation : StateM Session (Except FileFault α)}
    (h : Runs (attempt context operation) s (.ok a) s') : operation.run s = (.ok a, s') := by
  rw [attempt] at h
  obtain ⟨result, s₁, hlift, h⟩ := exists_of_bind h
  have hrun : Runs (ExceptT.lift operation) s (.ok (operation.run s).1) (operation.run s).2 :=
    .lift rfl
  obtain ⟨hresult, rfl⟩ := hrun.unique hlift
  cases result with
  | error fault => exact nomatch (h.unique (.throw _ _)).1
  | ok a' =>
    obtain ⟨ha, rfl⟩ := h.unique (.pure a' _)
    cases ha
    exact Prod.ext (Except.ok.inj hresult) rfl

end Runs

theorem writeFile_of_run (h : (Session.host.writeFile path written).run s = (.ok (), s')) :
    s.disk.writeFile path written = .ok s'.disk := by
  have hupdate : (Session.host.update fun d => d.writeFile path written).run s = (.ok (), s') := h
  cases hd : s.disk.writeFile path written with
  | error fault =>
    rw [run_update_error _ hd] at hupdate
    cases hupdate
  | ok d =>
    rw [run_update_ok _ hd] at hupdate
    cases hupdate
    rfl

/-- If a file is kept then that is all that is done. -/
theorem writeFile_of_keepIfAsked {same result : Bool} (houtput : settings.output = some output)
    (h : Runs (keepIfAsked settings path written same) s (.ok result) s') :
    Path.fileName? path = some (baseName path) ∧
      s.disk.writeFile (Path.join output (baseName path)) written = .ok s'.disk := by
  rw [keepIfAsked, houtput] at h
  obtain ⟨_, s₁, hkeep, hpure⟩ := Runs.exists_of_bind h
  obtain ⟨-, rfl⟩ := hpure.unique (.pure same s₁)
  rw [keep] at hkeep
  cases hname : Path.fileName? path with
  | none =>
    rw [hname] at hkeep
    cases (hkeep.unique (.throw _ _)).1
  | some name =>
    have hbase : baseName path = name := by
      rw [baseName, hname]
      rfl
    rw [hname] at hkeep
    obtain ⟨⟨⟩, s₂, hwrite, hlog⟩ := Runs.exists_of_bind hkeep
    obtain ⟨-, rfl⟩ := hlog.unique (runs_log ..)
    have hdisk := writeFile_of_run (Runs.of_attempt hwrite)
    rw [hbase]
    exact ⟨rfl, hdisk⟩

/-- A file for which all went well could be written again, and that is all that was left to do. -/
theorem exists_keepIfAsked_of_processFile {same : Bool}
    (h : Runs (processFile Session.host settings path) s (.ok same) s') :
    ∃ written s₁ result, s.disk.Rewrites settings.options path written ∧ s₁.disk = s.disk ∧
      Runs (keepIfAsked settings path written result) s₁ (.ok same) s' := by
  rw [processFile] at h
  obtain ⟨bytes, s₁, hattempt, -⟩ := Runs.exists_of_bind h
  have hread : s.disk.readFile path = .ok bytes := (Prod.mk.inj (Runs.of_attempt hattempt)).1
  let b : Batch := ⟨settings, fun _ => bytes⟩
  have hnot {halt : Halt} : b.item path ≠ .error halt := by
    intro hitem
    obtain ⟨errors, hruns⟩ := Batch.runs_processFile_error (b := b) hread hitem
    exact nomatch (h.unique hruns).1
  obtain ⟨e, cursor, -, hitem⟩ | ⟨c, cursor, obstacle, -, -, hitem⟩ |
    ⟨c, cursor, text, hdecode, -, hitem⟩ := b.item_cases path
  · exact absurd hitem hnot
  · exact absurd hitem hnot
  · have hclass : ClassFile.ofBytes settings.options bytes = .ok c := by
      rw [ClassFile.ofBytes, EStateM.run, hdecode]
    have hspan : b.span path = c.length := by rw [Batch.span, hitem]
    obtain ⟨errors, hrest⟩ := Batch.exists_runs_processFile (b := b) hread (by rw [hitem]; rfl)
    obtain ⟨hresult, rfl⟩ := h.unique (hrest _ _ rfl)
    refine ⟨(b.contents path).take (b.span path), s.append (b.listing path) errors, !b.differs path,
      ⟨bytes, c, hread, hclass, ?_⟩, rfl, ?_⟩
    · rw [hspan]
      exact (written_of_decode hdecode).1
    · rw [hresult]
      rfl

/-- Files are read, and copied one after the other. -/
inductive CopiesAll (settings : Settings) (output : String) : Disk → List String → Disk → Prop
  | nil (d : Disk) : CopiesAll settings output d [] d
  | cons {d d₁ d' : Disk} {path : String} {paths : List String} {written : List UInt8}
    (hclass : d.Rewrites settings.options path written)
    (hname : Path.fileName? path = some (baseName path))
    (hwrite : d.writeFile (Path.join output (baseName path)) written = .ok d₁)
    (hrest : CopiesAll settings output d₁ paths d') :
    CopiesAll settings output d (path :: paths) d'

theorem copiesAll_of_processFrom {different paths result : List String}
    (houtput : settings.output = some output)
    (h : Runs (processFrom settings different paths) s (.ok result) s') :
    CopiesAll settings output s.disk paths s'.disk := by
  induction paths generalizing s different with
  | nil =>
    obtain ⟨-, rfl⟩ := h.unique (.pure different s)
    exact .nil _
  | cons path paths ih =>
    rw [processFrom_cons] at h
    obtain ⟨same, s₁, hfile, hrest⟩ := Runs.exists_of_bind h
    obtain ⟨written, s₂, _, hclass, hdisk, hkeep⟩ := exists_keepIfAsked_of_processFile hfile
    obtain ⟨hname, hwrite⟩ := writeFile_of_keepIfAsked houtput hkeep
    exact .cons hclass hname (hdisk ▸ hwrite) (ih hrest)

/-- The session when the output directory has been made. -/
def Session.made (s : Session) (output : String) : Session :=
  ((Session.host.makeDirectories output).run s).2

theorem process_of_output (houtput : settings.output = some output) :
    process Session.host settings = (do
      attempt ("failed to create output directory " ++ Text.quote output)
        (Session.host.makeDirectories output)
      let different ← processFrom settings [] settings.files
      if !different.isEmpty then
        throw (roundTripFailure different)) := by
  refine (process_with_files settings settings.files).trans ?_
  rw [houtput]

/-- If a run ends well then the output directory has been made, and all files have been copied. -/
theorem copiesAll_of_run {words : List String} (hwords : parse words = .ok settings)
    (houtput : settings.output = some output) (h : (run Session.host words).run s = (some 0, s')) :
    (Session.host.makeDirectories output).run s = (.ok (), s.made output) ∧
      CopiesAll settings output (s.made output).disk settings.files s'.disk := by
  obtain ⟨result, s₁, hprocess⟩ :
      ∃ result s₁, Runs (process Session.host settings) s result s₁ := ⟨_, _, rfl⟩
  cases result with
  | error halt =>
    obtain ⟨hcode, -⟩ := Prod.mk.inj (h.symm.trans (run_of_process_error hwords hprocess))
    exact absurd hcode.symm halt.exitCode_ne
  | ok u =>
    obtain ⟨-, rfl⟩ := Prod.mk.inj (h.symm.trans (run_of_process_ok hwords hprocess))
    rw [process_of_output houtput] at hprocess
    obtain ⟨_, s₂, hattempt, hfiles⟩ := Runs.exists_of_bind hprocess
    obtain ⟨different, s₃, hfiles, hend⟩ := Runs.exists_of_bind hfiles
    have hmake := Runs.of_attempt hattempt
    have hmade : s₂ = s.made output := by rw [Session.made, hmake]
    subst hmade
    cases different with
    | nil =>
      obtain ⟨-, rfl⟩ := hend.unique (.pure () s₃)
      exact ⟨hmake, copiesAll_of_processFrom houtput hfiles⟩
    | cons path different => exact nomatch (hend.unique (.throw _ s₃)).1

end

/-! ### The last file of a name -/

namespace CopiesAll

variable {settings : Settings} {output path : String} {d d' disk : Disk}
  {before paths later : List String}

theorem fileName?_eq (h : CopiesAll settings output d paths d') :
    ∀ path ∈ paths, Path.fileName? path = some (baseName path) := by
  induction h with
  | nil d => nofun
  | cons hclass hname hwrite hrest ih => exact List.forall_mem_cons.mpr ⟨hname, ih⟩

theorem overwrites (h : CopiesAll settings output d paths d') (hd : d.HasWorking) :
    d.Overwrites (paths.map fun path => Path.join output (baseName path)) d' := by
  induction h with
  | nil d => exact .refl d _
  | cons hclass hname hwrite hrest ih =>
    have hfirst := Disk.overwrites_of_writeFile hd hwrite
    exact hfirst.trans hd (ih (hfirst.hasWorking hd))

theorem exists_of_append (h : CopiesAll settings output d (before ++ paths) d') :
    ∃ d₁, CopiesAll settings output d before d₁ ∧ CopiesAll settings output d₁ paths d' := by
  induction before generalizing d with
  | nil => exact ⟨d, .nil d, h⟩
  | cons path before ih =>
    obtain _ | ⟨hclass, hname, hwrite, hrest⟩ := h
    obtain ⟨d₁, hbefore, hpaths⟩ := ih hrest
    exact ⟨d₁, .cons hclass hname hwrite hbefore, hpaths⟩

/-- Only files with the same name are copied to one place. -/
theorem fileName?_of_leads (h : CopiesAll settings output d paths d') {other place : String}
    (hother : other ∈ paths) {names : List String}
    (hcopy : disk.Leads (Path.join output (baseName other)) names)
    (hplace : disk.Leads place names) : Path.fileName? other = Path.fileName? place := by
  have hname := h.fileName?_eq other hother
  rw [← hcopy.fileName?_congr hplace, Path.fileName?_join hname, hname]

/-- A file that is not in the output directory is read as it was before the others were copied. -/
theorem readFile_of_apart (h : CopiesAll settings output d before d') (hd : d.HasWorking)
    (hapart : ¬ d.Inside output path) {bytes : List UInt8} (hread : d'.readFile path = .ok bytes) :
    d.readFile path = .ok bytes := by
  have hchanges := h.overwrites hd
  obtain ⟨names, hleads'⟩ := Disk.leads_of_readFile hread
  have hleads : d.Leads path names := (hchanges.leads_iff hd).mp hleads'
  rw [← hread]
  refine (hchanges.readFile_eq hd hleads fun place hplace hcopy => hapart ?_).symm
  obtain ⟨other, hother, rfl⟩ := List.mem_map.mp hplace
  have hsame : baseName other = baseName path := by
    rw [baseName, h.fileName?_of_leads hother hcopy hleads]
    rfl
  exact ⟨names, hleads, hsame ▸ hcopy⟩

/-- A copy is still there if only files with other names are copied after it. -/
theorem readFile_of_last (h : CopiesAll settings output d later d') (hd : d.HasWorking)
    (hname : Path.fileName? path = some (baseName path))
    (hlast : ∀ other ∈ later, Path.fileName? other ≠ Path.fileName? path) {written : List UInt8}
    (hread : d.readFile (Path.join output (baseName path)) = .ok written) :
    d'.readFile (Path.join output (baseName path)) = .ok written := by
  obtain ⟨names, hleads⟩ := Disk.leads_of_readFile hread
  rw [← hread]
  refine (h.overwrites hd).readFile_eq hd hleads fun place hplace hcopy => ?_
  obtain ⟨other, hother, rfl⟩ := List.mem_map.mp hplace
  refine hlast other hother ?_
  rw [h.fileName?_of_leads hother hcopy hleads, Path.fileName?_join hname, hname]

/-- The last file of a name has been copied as it was at first. -/
theorem keeps_last (h : CopiesAll settings output d (before ++ path :: later) d')
    (hd : d.HasWorking) (hapart : ¬ d.Inside output path)
    (hlast : ∀ other ∈ later, Path.fileName? other ≠ Path.fileName? path) :
    ∃ written, d.Rewrites settings.options path written ∧
      (¬ d.Drains (Path.join output (baseName path)) →
        d'.readFile (Path.join output (baseName path)) = .ok written) := by
  obtain ⟨d₁, hbefore, hrest⟩ := h.exists_of_append
  have hchanges := hbefore.overwrites hd
  have hd₁ := hchanges.hasWorking hd
  cases hrest with
  | @cons _ d₂ _ _ _ written hclass hname hwrite hlater =>
    have hd₂ := (Disk.overwrites_of_writeFile hd₁ hwrite).hasWorking hd₁
    obtain ⟨bytes, c, hread, hdecoded, hencoded⟩ := hclass
    have hfirst := hbefore.readFile_of_apart hd hapart hread
    refine ⟨written, ⟨bytes, c, hfirst, hdecoded, hencoded⟩, fun hdrains => ?_⟩
    have hdrains₁ := (not_congr (hchanges.drains_iff hd)).mpr hdrains
    exact hlater.readFile_of_last hd₂ hname hlast
      (Disk.readFile_of_writeFile hd₁ hwrite hdrains₁)

end CopiesAll

/-- If a run ends well, and none of the files is in the output directory, then the class of each
file is kept there in the end, unless a file after it has the same name, or the name is that of
something that keeps nothing. -/
theorem run_keeps_last {words : List String} {settings : Settings} {output : String}
    {s s' : Session} (hwords : parse words = .ok settings)
    (houtput : settings.output = some output) (hworking : s.disk.HasWorking)
    (hapart : ∀ path ∈ settings.files, ¬ (s.made output).disk.Inside output path)
    (hrun : (run Session.host words).run s = (some 0, s')) :
    (Session.host.makeDirectories output).run s = (.ok (), s.made output) ∧
      s.disk.AddsDirectories (s.made output).disk ∧
      ∀ before path later, settings.files = before ++ path :: later →
        (∀ other ∈ later, Path.fileName? other ≠ Path.fileName? path) →
        ∃ written, (s.made output).disk.Rewrites settings.options path written ∧
          (¬ (s.made output).disk.Drains (Path.join output (baseName path)) →
            s'.disk.readFile (Path.join output (baseName path)) = .ok written) := by
  obtain ⟨hmade, hcopies⟩ := copiesAll_of_run hwords houtput hrun
  obtain ⟨d, heq, hadds⟩ := MakesDirectories.makeDirectories output s hworking
  have hdisk : (s.made output).disk = d := by rw [Session.made, heq]
  have hadds : s.disk.AddsDirectories (s.made output).disk := hdisk ▸ hadds
  refine ⟨hmade, hadds, fun before path later hfiles hlast => ?_⟩
  have hpath : path ∈ settings.files := by
    rw [hfiles]
    exact List.mem_append_right before List.mem_cons_self
  rw [hfiles] at hcopies
  exact hcopies.keeps_last (hworking.mono hadds.keepsDirectories) (hapart path hpath) hlast

/-! ### What is lost -/

theorem rewrites_layout {d : Disk} {path : String} {c : ClassFile} {options : Options}
    (hc : c.WellFormed options) (hread : d.readFile path = .ok c.layout) :
    d.Rewrites options path c.layout := by
  obtain ⟨cursor, hdecode, -⟩ := ClassFile.decode_layout hc []
  rw [List.append_nil] at hdecode
  refine ⟨c.layout, c, hread, ?_, ClassFile.toBytes_eq_ok_iff.mpr ⟨hc.fits, rfl⟩⟩
  rw [ClassFile.ofBytes, EStateM.run, hdecode]

/-- Two files with the same name, which are not the same, and another one. -/
def sameName : Session where
  disk := .ofFiles [("a/A.class", Batch.nameOnly.layout),
    ("b/A.class", { Batch.nameOnly with minorVersion := 3 }.layout),
    ("C.class", Batch.nameOnly.layout)]

theorem apart_sameName : ∀ path ∈ ["a/A.class", "b/A.class", "C.class"],
    ¬ (sameName.made "out").disk.Inside "out" path := by
  refine List.forall_mem_cons.mpr ⟨?_, List.forall_mem_cons.mpr ⟨?_,
    List.forall_mem_singleton.mpr ?_⟩⟩
  · exact Disk.not_inside ⟨_, _, rfl, rfl⟩ ⟨_, _, rfl, rfl⟩ (by decide +kernel)
  · exact Disk.not_inside ⟨_, _, rfl, rfl⟩ ⟨_, _, rfl, rfl⟩ (by decide +kernel)
  · exact Disk.not_inside ⟨_, _, rfl, rfl⟩ ⟨_, _, rfl, rfl⟩ (by decide +kernel)

theorem exists_eq_of_fst {α β : Type} {r : α × β} {a : α} (h : r.1 = a) : ∃ b, r = (a, b) :=
  ⟨r.2, Prod.ext h rfl⟩

theorem run_keeps_last_sameName :
    let words := ["-o", "out", "a/A.class", "b/A.class", "C.class"]
    let settings : Settings :=
      { output := some "out", files := ["a/A.class", "b/A.class", "C.class"] }
    parse words = .ok settings ∧ ∃ s', (run Session.host words).run sameName = (some 0, s') ∧
      ∃ written, (sameName.made "out").disk.Rewrites settings.options "b/A.class" written ∧
        s'.disk.readFile "out/A.class" = .ok written := by
  intro words settings
  have hwords : parse words = .ok settings := rfl
  have hworking : sameName.disk.HasWorking := rfl
  have hplace : Path.join "out" (baseName "b/A.class") = "out/A.class" := by decide +kernel
  obtain ⟨s', hrun⟩ : ∃ s', (run Session.host words).run sameName = (some 0, s') :=
    exists_eq_of_fst (by decide +kernel)
  obtain ⟨-, -, hlast⟩ := run_keeps_last hwords rfl hworking apart_sameName hrun
  obtain ⟨written, hclass, hkept⟩ := hlast ["a/A.class"] "b/A.class" ["C.class"] rfl
    (List.forall_mem_singleton.mpr (by decide +kernel))
  rw [hplace] at hkept
  refine ⟨hwords, s', hrun, written, hclass, hkept ?_⟩
  rintro ⟨names, hleads, hdrain⟩
  obtain rfl := hleads.unique ⟨_, _, rfl, rfl⟩
  exact absurd hdrain (by decide +kernel)

/-- A run ends well, but the class of a file is not where it should have been kept, though all files
are different and none of them is in the output directory. -/
structure Loses (s : Session) (words : List String) (settings : Settings) (output path : String) :
    Prop where
  parses : parse words = .ok settings
  asked : settings.output = some output
  distinct : settings.files.Nodup
  apart : ∀ path ∈ settings.files, ¬ (s.made output).disk.Inside output path
  mem : path ∈ settings.files
  lost : ∃ s' written, (run Session.host words).run s = (some 0, s') ∧
    s.disk.Rewrites settings.options path written ∧
    s'.disk.readFile (Path.join output (baseName path)) ≠ .ok written

theorem lost_of_readFile {s : Session} {words : List String} {options : Options}
    {path copy : String} {c : ClassFile} (bytes : List UInt8)
    (hcode : ((run Session.host words).run s).1 = some 0) (hc : c.WellFormed options)
    (hread : s.disk.readFile path = .ok c.layout)
    (hcopy : (((run Session.host words).run s).2.disk.readFile copy).toOption = some bytes)
    (hbytes : bytes ≠ c.layout) :
    ∃ s' written, (run Session.host words).run s = (some 0, s') ∧
      s.disk.Rewrites options path written ∧ s'.disk.readFile copy ≠ .ok written := by
  refine ⟨_, c.layout, Prod.ext hcode rfl, rewrites_layout hc hread, fun hsame => hbytes ?_⟩
  rw [hsame] at hcopy
  exact (Option.some.inj hcopy).symm

/-- The class of a file is lost to another one of the same name, or because the file has the name of
what keeps nothing. -/
theorem run_loses :
    Loses sameName ["-o", "out", "a/A.class", "b/A.class", "C.class"]
        { output := some "out", files := ["a/A.class", "b/A.class", "C.class"] }
        "out" "a/A.class" ∧
      Loses { disk := .ofFiles [("null", Batch.nameOnly.layout)] } ["-o", "/dev", "null"]
        { output := some "/dev", files := ["null"] } "/dev" "null" := by
  have hclass : Batch.nameOnly.WellFormed {} := by decide +kernel
  constructor
  · refine ⟨rfl, rfl, by decide, apart_sameName, by decide, ?_⟩
    exact lost_of_readFile { Batch.nameOnly with minorVersion := 3 }.layout (by decide +kernel)
      hclass rfl (by decide +kernel) (by decide +kernel)
  · refine ⟨rfl, rfl, by decide, List.forall_mem_singleton.mpr ?_, by decide, ?_⟩
    · exact Disk.not_inside ⟨_, _, rfl, rfl⟩ ⟨_, _, rfl, rfl⟩ (by decide +kernel)
    · exact lost_of_readFile [] (by decide +kernel) hclass rfl (by decide +kernel)
        (by decide +kernel)

end JavaClass.CommandLine

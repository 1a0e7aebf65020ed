import JavaClass.Proofs.EndlessListings
import JavaClass.Proofs.FileNames
import JavaClass.Proofs.Verdict

/-!
# A run over all files

For each file there is something to show, the class in it and its listing, or there is a reason why
not (`Batch.item`). The first file without anything to show ends the run, or keeps it for ever if
its constants do (`Batch.item_eq_endless_iff`); up to there, files are listed and kept one after the
other, whether they come out the same or not.

A file before that is a step, which adds one listing and at most one file on the disk
(`Batch.Ready.runs_processFile`), and so several files add as many (`Batch.Ready.runs_processFrom`).
What a run ends with is put together in `Batch.Outcome` (`Batch.run_outcome`).
-/

namespace JavaClass.CommandLine

/-- What is asked for, and the bytes in the files. -/
structure Batch where
  settings : Settings
  contents : String → List UInt8

/-- The name of a file. -/
def baseName (path : String) : String :=
  (Path.fileName? path).getD ""

theorem fileName?_of_readFile {d : Disk} {path : String} {bytes : List UInt8}
    (h : d.readFile path = .ok bytes) :
    Path.fileName? path = some (baseName path) := by
  obtain ⟨names, hleads⟩ := Disk.leads_of_readFile h
  obtain ⟨name, -, hname⟩ := hleads.fileName?_eq
  rw [baseName, hname]
  rfl

namespace Batch

variable {b : Batch} {path : String} {halt : Halt}
  {d disk : Disk} {s s₁ s' : Session} {before later : List String}

/-- The class in a file and its listing, or why there is none. -/
def item (b : Batch) (path : String) : Except Halt (ClassFile × String) :=
  match ClassFile.ofBytes b.settings.options (b.contents path) with
  | .error e => .error (.failed ["failed to parse class file " ++ Text.quote path, e.message])
  | .ok c =>
    match c.listing with
    | .error obstacle => .error (unlisted path obstacle)
    | .ok text => .ok (c, text)

/-- The listing of a file. -/
def listing (b : Batch) (path : String) : String :=
  match b.item path with
  | .ok (_, text) => text
  | .error _ => ""

/-- The number of bytes that the class in a file takes up. -/
def span (b : Batch) (path : String) : Nat :=
  match b.item path with
  | .ok (c, _) => c.length
  | .error _ => 0

/-- Is there something behind the class? -/
def hasMore (b : Batch) (path : String) : Bool :=
  (b.contents path).length ≠ b.span path

/-- Does the file come out different, and is that asked for? -/
def differs (b : Batch) (path : String) : Bool :=
  b.settings.roundTrip && b.hasMore path

/-- What is kept of a file, and where. -/
def copy (b : Batch) (output path : String) : String × List UInt8 :=
  (Path.join output (baseName path), (b.contents path).take (b.span path))

/-- The position of the first file with nothing to show. -/
def stop (b : Batch) : Nat :=
  b.settings.files.findIdx fun path => !(b.item path).isOk

/-- The files before that. -/
def shown (b : Batch) : List String :=
  b.settings.files.take b.stop

/-- There is no class in the file, or no listing of it, or there is something to show. -/
theorem item_cases (b : Batch) (path : String) :
    (∃ e cursor,
      ClassFile.decode b.settings.options { unread := b.contents path } = .error e cursor ∧
        b.item path =
          .error (.failed ["failed to parse class file " ++ Text.quote path, e.message])) ∨
    (∃ c cursor obstacle,
      ClassFile.decode b.settings.options { unread := b.contents path } = .ok c cursor ∧
        c.listing = .error obstacle ∧ b.item path = .error (unlisted path obstacle)) ∨
    (∃ c cursor text,
      ClassFile.decode b.settings.options { unread := b.contents path } = .ok c cursor ∧
        c.listing = .ok text ∧ b.item path = .ok (c, text)) := by
  cases hdecode : (ClassFile.decode b.settings.options).run { unread := b.contents path } with
  | error e cursor =>
    refine .inl ⟨e, cursor, hdecode, ?_⟩
    rw [item, ClassFile.ofBytes, hdecode]
  | ok c cursor =>
    cases hlisting : c.listing with
    | error obstacle =>
      refine .inr (.inl ⟨c, cursor, obstacle, hdecode, hlisting, ?_⟩)
      rw [item, ClassFile.ofBytes, hdecode]
      dsimp only
      rw [hlisting]
    | ok text =>
      refine .inr (.inr ⟨c, cursor, text, hdecode, hlisting, ?_⟩)
      rw [item, ClassFile.ofBytes, hdecode]
      dsimp only
      rw [hlisting]

/-- A run stays at a file for ever just if its class has a name, and handles that lead back to where
they have been. -/
theorem item_eq_endless_iff : b.item path = .error .endless ↔
    ∃ c cursor, ClassFile.decode b.settings.options { unread := b.contents path } = .ok c cursor ∧
      c.pool.HasClassName c.thisClass ∧ ∃ index, ¬ c.pool.Acyclic index := by
  constructor
  · intro h
    obtain ⟨e, cursor, -, hitem⟩ | ⟨c, cursor, obstacle, hdecode, hlisting, hitem⟩ |
      ⟨c, cursor, text, -, -, hitem⟩ := b.item_cases path
    · cases h.symm.trans hitem
    · cases obstacle with
      | failure failure => cases h.symm.trans hitem
      | endless => exact ⟨c, cursor, hdecode, c.listing_endless_iff.mp hlisting⟩
    · cases h.symm.trans hitem
  · rintro ⟨c, cursor, hdecode, hcycle⟩
    have hlisting := c.listing_endless_iff.mpr hcycle
    rw [item, ClassFile.ofBytes, EStateM.run, hdecode]
    dsimp only
    rw [hlisting]
    rfl

theorem runs_processFile_error (hread : s.disk.readFile path = .ok (b.contents path))
    (h : b.item path = .error halt) :
    ∃ errors, Runs (processFile Session.host b.settings path) s (.error halt)
      (s.append "" errors) := by
  obtain ⟨e, cursor, hdecode, hitem⟩ | ⟨c, cursor, obstacle, hdecode, hlisting, hitem⟩ |
    ⟨c, cursor, text, -, -, hitem⟩ := b.item_cases path
  · rw [h] at hitem
    cases hitem
    exact ⟨_, .bind (runs_readFile hread _) (.bind_error (runs_parseFile_error s path hdecode))⟩
  · rw [h] at hitem
    cases hitem
    refine ⟨b.settings.readNotes path (b.contents path) cursor.events, ?_⟩
    refine .bind (runs_readFile hread _) (.bind (runs_parseFile_ok s path hdecode) ?_)
    refine .bind (runs_log ..) ?_
    rw [hlisting, Session.append_append]
    exact .bind_error (.throw _ _)
  · rw [h] at hitem
    cases hitem

/-- A file that has something to show is listed, and then kept if that is asked for. -/
theorem exists_runs_processFile (hread : s.disk.readFile path = .ok (b.contents path))
    (h : (b.item path).isOk) :
    ∃ errors, ∀ result s',
      Runs (keepIfAsked b.settings path ((b.contents path).take (b.span path))
        (!b.differs path)) (s.append (b.listing path) errors) result s' →
      Runs (processFile Session.host b.settings path) s result s' := by
  obtain ⟨e, cursor, -, hitem⟩ | ⟨c, cursor, obstacle, -, -, hitem⟩ |
    ⟨c, cursor, text, hdecode, hlisting, hitem⟩ := b.item_cases path
  · rw [hitem] at h
    cases h
  · rw [hitem] at h
    cases h
  · have hspan : b.span path = c.length := by rw [span, hitem]
    have htext : b.listing path = text := by rw [listing, hitem]
    obtain ⟨hwritten, hlength, -⟩ := written_of_decode hdecode
    rw [hspan, htext]
    obtain ⟨errors, hrest⟩ := exists_runs_writeAgain b.settings path (b.contents path) hwritten
      (s.append text (b.settings.readNotes path (b.contents path) cursor.events))
    refine ⟨b.settings.readNotes path (b.contents path) cursor.events ++ errors,
      fun result s' h => ?_⟩
    refine runs_processFile hread hdecode hlisting (hrest result s' ?_)
    rw [isNone_firstDifference_take hlength, Session.append_append, String.append_empty]
    rw [differs, hasMore, hspan, Bool.not_and, decide_not, Bool.not_not] at h
    exact h

/-! ### Files in the order of the arguments -/

/-- On the disk, all files can be read, and there is room to keep them. -/
structure Ready (b : Batch) (disk : Disk) : Prop where
  working : disk.HasWorking
  readable : ∀ path ∈ b.settings.files, disk.readFile path = .ok (b.contents path)
  distinct : b.settings.output.isSome → (b.settings.files.map Path.fileName?).Nodup
  writable : ∀ output, b.settings.output = some output →
    ∀ path ∈ b.settings.files, disk.Writable (Path.join output (baseName path))

/-- What has been kept of files, on a disk that was ready. -/
def Kept (b : Batch) (disk : Disk) (files : List String) (d : Disk) : Prop :=
  match b.settings.output with
  | none => d = disk
  | some output => disk.Receives (files.map (b.copy output)) d

theorem kept_nil (b : Batch) (disk : Disk) : b.Kept disk [] disk := by
  rw [Kept]
  split
  · rfl
  · exact .nil disk

namespace Ready

variable {output : String}

/-- What is kept of the files before is not where anything with the name of this file is. -/
theorem not_leads (h : b.Ready disk) (hfiles : b.settings.files = before ++ path :: later)
    (houtput : b.settings.output = some output) {place : String} {names : List String}
    (hplace : Path.fileName? place = Path.fileName? path) (hleads : disk.Leads place names) :
    ∀ file ∈ before.map (b.copy output), ¬ disk.Leads file.1 names := by
  intro file hfile hcopy
  obtain ⟨other, hother, rfl⟩ := List.mem_map.mp hfile
  have hname : Path.fileName? other = some (baseName other) := by
    refine fileName?_of_readFile (h.readable other ?_)
    rw [hfiles]
    exact List.mem_append_left _ hother
  -- at one address there would be one name, but the names are all different
  have hsame : Path.fileName? path = Path.fileName? other := by
    rw [← hplace, hleads.fileName?_congr hcopy, hname]
    exact Path.fileName?_join hname output
  have hdistinct := h.distinct (houtput ▸ rfl)
  rw [hfiles, List.map_append, List.map_cons, List.nodup_append] at hdistinct
  exact hdistinct.2.2 _ (List.mem_map_of_mem hother) _ List.mem_cons_self hsame.symm

theorem mem_files (hfiles : b.settings.files = before ++ path :: later) :
    path ∈ b.settings.files := by
  rw [hfiles]
  exact List.mem_append_right before List.mem_cons_self

/-- The next file is read as at first, whatever has been kept of the files before it. -/
theorem readFile (h : b.Ready disk) (hfiles : b.settings.files = before ++ path :: later)
    (hkept : b.Kept disk before d) : d.readFile path = .ok (b.contents path) := by
  have hread := h.readable path (mem_files hfiles)
  rw [Kept] at hkept
  split at hkept
  · exact hkept ▸ hread
  · next output houtput =>
    exact hkept.readFile_eq h.working hread fun names => h.not_leads hfiles houtput rfl

/-- There is room for the next file, whatever has been kept of the files before it. -/
theorem runs_keepIfAsked (h : b.Ready disk) (hfiles : b.settings.files = before ++ path :: later)
    (hkept : b.Kept disk before s.disk) (same : Bool) :
    ∃ d errors, Runs (keepIfAsked b.settings path ((b.contents path).take (b.span path)) same) s
      (.ok same) ({ s with disk := d }.append "" errors) ∧ b.Kept disk (before ++ [path]) d := by
  rw [Kept] at hkept
  cases houtput : b.settings.output with
  | none =>
    rw [houtput] at hkept
    refine ⟨s.disk, "", ?_, ?_⟩
    · rw [Session.append_empty]
      exact runs_keepIfAsked_none houtput path _ same s
    · rw [Kept, houtput]
      exact hkept
  | some output =>
    rw [houtput] at hkept
    have hname := fileName?_of_readFile (h.readable path (mem_files hfiles))
    obtain ⟨names, hroom⟩ :=
      (h.writable output houtput path (mem_files hfiles)).exists_room h.working
    have hapart := h.not_leads hfiles houtput ((Path.fileName?_join hname output).trans hname.symm)
      hroom.leads
    obtain ⟨d, hwrite, hreceives⟩ :=
      hkept.writeFile h.working hroom hapart ((b.contents path).take (b.span path))
    refine ⟨d, _, runs_keepIfAsked_some houtput hname hwrite same, ?_⟩
    rw [Kept, houtput]
    dsimp only
    rw [List.map_append]
    exact hreceives

/-- One file that has something to show. -/
theorem runs_processFile (h : b.Ready disk) (hfiles : b.settings.files = before ++ path :: later)
    (hkept : b.Kept disk before s.disk) (hitem : (b.item path).isOk) :
    ∃ d errors, Runs (processFile Session.host b.settings path) s (.ok (!b.differs path))
      ({ s with disk := d }.append (b.listing path) errors) ∧ b.Kept disk (before ++ [path]) d := by
  have hread := h.readFile hfiles hkept
  obtain ⟨errors, hrest⟩ := exists_runs_processFile hread hitem
  obtain ⟨d, errors', hruns, hkept'⟩ := h.runs_keepIfAsked hfiles
    (s := s.append (b.listing path) errors) hkept (!b.differs path)
  refine ⟨d, errors ++ errors', hrest _ _ ?_, hkept'⟩
  have hafter := Session.append_append { s with disk := d } (b.listing path) errors "" errors'
  rw [String.append_empty] at hafter
  rw [← hafter]
  exact hruns

/-- Any number of files that have something to show. -/
theorem runs_processFrom (h : b.Ready disk) {files : List String}
    (hfiles : b.settings.files = before ++ (files ++ later)) (hkept : b.Kept disk before s.disk)
    (hitems : ∀ path ∈ files, (b.item path).isOk) (different : List String) :
    ∃ d errors, Runs (processFrom b.settings different files) s
      (.ok (different ++ files.filter b.differs))
      ({ s with disk := d }.append (String.join (files.map b.listing)) errors) ∧
      b.Kept disk (before ++ files) d := by
  -- the files that are done grow by one, and what has been kept of them goes along
  induction files generalizing before s different with
  | nil =>
    refine ⟨s.disk, "", ?_, ?_⟩
    · rw [List.filter_nil, List.append_nil, List.map_nil, String.join_nil, Session.append_empty]
      exact .pure different s
    · rwa [List.append_nil]
  | cons path files ih =>
    obtain ⟨hitem, hitems⟩ := List.forall_mem_cons.mp hitems
    obtain ⟨d, errors, hruns, hkept⟩ := h.runs_processFile hfiles hkept hitem
    have hfiles' : b.settings.files = (before ++ [path]) ++ (files ++ later) := by
      rw [hfiles, List.append_assoc]
      rfl
    obtain ⟨d', errors', hruns', hkept'⟩ := ih
      (s := ({ s with disk := d } : Session).append (b.listing path) errors) hfiles' hkept hitems
      (if !b.differs path then different else different ++ [path])
    have hdifferent : (if !b.differs path then different else different ++ [path]) ++
        files.filter b.differs = different ++ (path :: files).filter b.differs := by
      rw [List.filter_cons]
      cases b.differs path with
      | true => exact List.append_assoc ..
      | false => rfl
    refine ⟨d', errors ++ errors', ?_, ?_⟩
    · rw [processFrom_cons, ← hdifferent, List.map_cons, String.join_cons, ← Session.append_append]
      exact .bind hruns hruns'
    · rwa [List.append_assoc] at hkept'

end Ready

/-! ### From the first file to the exit code -/

/-- All files can be read, and if they are to be kept, there is a directory with room for them once
it has been made. -/
structure Prepared (b : Batch) (s s₁ : Session) : Prop where
  working : s.disk.HasWorking
  readable : ∀ path ∈ b.settings.files, s.disk.readFile path = .ok (b.contents path)
  made : match b.settings.output with
    | none => s₁ = s
    | some output => (Session.host.makeDirectories output).run s = (.ok (), s₁) ∧
        (b.settings.files.map Path.fileName?).Nodup ∧
        ∀ path ∈ b.settings.files, s₁.disk.Writable (Path.join output (baseName path))

theorem Prepared.ready (h : b.Prepared s s₁) :
    b.Ready s₁.disk ∧ s.disk.AddsDirectories s₁.disk ∧ s₁ = { s with disk := s₁.disk } := by
  obtain ⟨hworking, hreadable, hmade⟩ := h
  split at hmade
  · next houtput =>
    subst hmade
    refine ⟨⟨hworking, hreadable, fun h => ?_, fun output h => ?_⟩, .refl _, rfl⟩
    · rw [houtput] at h
      cases h
    · rw [houtput] at h
      cases h
  · next output houtput =>
    obtain ⟨hrun, hdistinct, hwritable⟩ := hmade
    obtain ⟨d, heq, hadds⟩ := MakesDirectories.makeDirectories output s hworking
    rw [hrun] at heq
    dsimp only at heq
    subst heq
    refine ⟨⟨hworking.mono hadds.keepsDirectories, fun path hpath => ?_, fun _ => hdistinct,
      fun output' houtput' => ?_⟩, hadds, rfl⟩
    · exact hadds.readFile hworking (hreadable path hpath)
    · rw [houtput] at houtput'
      cases houtput'
      exact hwritable

theorem Prepared.runs_process (h : b.Prepared s s₁) (files : List String)
    {result : Except Halt Unit} (hfiles : Runs (do
      let different ← processFrom b.settings [] files
      if !different.isEmpty then
        throw (roundTripFailure different)) s₁ result s') :
    Runs (process Session.host { b.settings with files }) s result s' := by
  have hmade := h.made
  rw [process_with_files]
  split at hmade
  · next houtput =>
    rw [houtput]
    subst hmade
    exact hfiles
  · next output houtput =>
    rw [houtput]
    exact .bind (runs_attempt hmade.1) hfiles

/-! ### What comes out -/

theorem isOk_of_mem_shown (h : path ∈ b.shown) : (b.item path).isOk := by
  obtain ⟨i, hi, rfl⟩ := List.mem_take_iff_getElem.mp h
  have hshown : (!(b.item b.settings.files[i]).isOk) = false :=
    List.not_of_lt_findIdx (Nat.lt_of_lt_of_le hi (Nat.min_le_left ..))
  rwa [Bool.not_eq_eq_eq_not] at hshown

theorem exists_error_of_stop (h : b.stop < b.settings.files.length) :
    ∃ halt, b.item b.settings.files[b.stop] = .error halt := by
  have hstop : (!(b.item b.settings.files[b.stop]).isOk) = true := List.findIdx_getElem (w := h)
  cases hitem : b.item b.settings.files[b.stop] with
  | error halt => exact ⟨halt, rfl⟩
  | ok shown =>
    rw [hitem] at hstop
    cases hstop

/-- The files before the first one without anything to show. -/
theorem Prepared.runs_shown (h : b.Prepared s s₁) :
    ∃ d errors, Runs (processFrom b.settings [] b.shown) s₁ (.ok (b.shown.filter b.differs))
      ({ s with disk := d }.append (String.join (b.shown.map b.listing)) errors) ∧
      b.Kept s₁.disk b.shown d := by
  obtain ⟨hready, -, hs₁⟩ := h.ready
  have hfiles : b.settings.files = [] ++ (b.shown ++ b.settings.files.drop b.stop) :=
    (List.take_append_drop ..).symm
  obtain ⟨d, errors, hruns, hkept⟩ :=
    hready.runs_processFrom hfiles (kept_nil b s₁.disk) (fun _ => isOk_of_mem_shown) []
  have hdisk : ({ s₁ with disk := d } : Session) = { s with disk := d } := by
    rw [hs₁]
  rw [hdisk] at hruns
  exact ⟨d, errors, hruns, hkept⟩

theorem files_eq (h : b.stop < b.settings.files.length) :
    b.settings.files =
      b.shown ++ b.settings.files[b.stop] :: b.settings.files.drop (b.stop + 1) := by
  rw [← List.drop_eq_getElem_cons h, shown, List.take_append_drop]

/-- A file without anything to show ends the run, whatever files come after it. -/
theorem Prepared.runs_process_of_stop (h : b.Prepared s s₁)
    (hstop : b.stop < b.settings.files.length) :
    ∃ halt d errors, b.item b.settings.files[b.stop] = .error halt ∧
      b.Kept s₁.disk b.shown d ∧ ∀ later,
        Runs (process Session.host
          { b.settings with files := b.shown ++ b.settings.files[b.stop] :: later }) s
          (.error halt)
          ({ s with disk := d }.append (String.join (b.shown.map b.listing)) errors) := by
  obtain ⟨d, errors, hshown, hkept⟩ := h.runs_shown
  obtain ⟨halt, hhalt⟩ := exists_error_of_stop hstop
  have hread : (({ s with disk := d } : Session).append (String.join (b.shown.map b.listing))
      errors).disk.readFile b.settings.files[b.stop] = .ok (b.contents b.settings.files[b.stop]) :=
    h.ready.1.readFile (files_eq hstop) hkept
  obtain ⟨errors', hruns⟩ := runs_processFile_error hread hhalt
  rw [Session.append_append, String.append_empty] at hruns
  refine ⟨halt, d, errors ++ errors', hhalt, hkept, fun later => ?_⟩
  -- the files before are done, then this one fails, and the rest is not looked at
  refine h.runs_process (b.shown ++ b.settings.files[b.stop] :: later) (.bind_error ?_)
  rw [processFrom_append]
  refine .bind hshown ?_
  rw [processFrom_cons]
  exact .bind_error hruns

/-- If all files have something to show, they are all listed, and those that come out different are
named in the end. -/
theorem Prepared.runs_process_of_all (h : b.Prepared s s₁)
    (hstop : b.stop = b.settings.files.length) :
    ∃ d errors, b.Kept s₁.disk b.shown d ∧
      Runs (process Session.host b.settings) s
        (if b.settings.files.filter b.differs = [] then .ok ()
          else .error (roundTripFailure (b.settings.files.filter b.differs)))
        ({ s with disk := d }.append (String.join (b.shown.map b.listing)) errors) := by
  obtain ⟨d, errors, hshown, hkept⟩ := h.runs_shown
  have hall : b.shown = b.settings.files := by
    rw [shown, hstop, List.take_length]
  refine ⟨d, errors, hkept, h.runs_process b.settings.files ?_⟩
  rw [hall] at hshown ⊢
  refine .bind hshown ?_
  cases b.settings.files.filter b.differs with
  | nil => exact .pure () _
  | cons path different => exact .throw _ _

/-- How a run ends over files that can be read: what has been printed and what is on the disk, the
exit code, and what is said if a file had nothing to show or if some came out different. A run that
stays at a file for ever has no exit code. -/
structure Outcome (b : Batch) (s s₁ : Session) (code : Option UInt32)
    (s' : Session) : Prop where
  shown : ∀ path ∈ b.shown, (b.item path).isOk
  named : ∀ path ∈ b.settings.files, Path.fileName? path = some (baseName path)
  printed : s'.printed = s.printed ++ String.join (b.shown.map b.listing)
  kept : match b.settings.output with
    | none => s'.disk = s.disk
    | some output => s.disk.AddsDirectories s₁.disk ∧
        s₁.disk.Receives (b.shown.map (b.copy output)) s'.disk
  exitCode : code = some 0 ↔ b.stop = b.settings.files.length ∧
    (b.settings.roundTrip = false ∨ ∀ path ∈ b.settings.files, b.hasMore path = false)
  failure : ∀ h : b.stop < b.settings.files.length, ∃ halt errors,
    b.item b.settings.files[b.stop] = .error halt ∧ code = halt.exitCode ∧
      s'.errors = s.errors ++ errors ++ halt.text ∧
      (process Session.host b.settings).run.run s =
        (process Session.host
          { b.settings with files := b.settings.files.take (b.stop + 1) }).run.run s
  different : b.stop = b.settings.files.length → b.settings.roundTrip = true →
    b.settings.files.filter b.hasMore ≠ [] → code = some 1 ∧ ∃ errors,
      s'.errors = s.errors ++ errors ++
        (roundTripFailure (b.settings.files.filter b.hasMore)).text

theorem filter_differs (h : b.settings.roundTrip = true) :
    b.settings.files.filter b.differs = b.settings.files.filter b.hasMore :=
  List.filter_congr fun path _ => by rw [differs, h, Bool.true_and]

theorem filter_differs_eq_nil_iff : b.settings.files.filter b.differs = [] ↔
    b.settings.roundTrip = false ∨ ∀ path ∈ b.settings.files, b.hasMore path = false := by
  cases hasked : b.settings.roundTrip with
  | true =>
    rw [filter_differs hasked, List.filter_eq_nil_iff]
    simp only [Bool.not_eq_true, Bool.true_eq_false, false_or]
  | false =>
    refine iff_of_true (List.filter_eq_nil_iff.mpr fun path _ => ?_) (.inl rfl)
    rw [differs, hasked]
    exact Bool.false_ne_true

theorem Prepared.kept (h : b.Prepared s s₁) (hkept : b.Kept s₁.disk b.shown d) :
    match b.settings.output with
    | none => d = s.disk
    | some output => s.disk.AddsDirectories s₁.disk ∧
        s₁.disk.Receives (b.shown.map (b.copy output)) d := by
  have hmade := h.made
  rw [Kept] at hkept
  split
  · next houtput =>
    rw [houtput] at hmade hkept
    subst hmade
    exact hkept
  · next output houtput =>
    rw [houtput] at hkept
    exact ⟨h.ready.2.1, hkept⟩

/-- Over files that can be read, with room for them if they are to be kept, a run ends as it should.
-/
theorem run_outcome {words : List String} (hwords : parse words = .ok b.settings)
    (h : b.Prepared s s₁) :
    ∃ code s', (run Session.host words).run s = (code, s') ∧ b.Outcome s s₁ code s' := by
  have hshown : ∀ path ∈ b.shown, (b.item path).isOk := fun _ => isOk_of_mem_shown
  have hnamed : ∀ path ∈ b.settings.files, Path.fileName? path = some (baseName path) :=
    fun path hpath => fileName?_of_readFile (h.readable path hpath)
  by_cases hstop : b.stop < b.settings.files.length
  · obtain ⟨halt, d, errors, hhalt, hkept, hruns⟩ := h.runs_process_of_stop hstop
    have hrun := hruns (b.settings.files.drop (b.stop + 1))
    have halone := hruns []
    rw [← files_eq hstop] at hrun
    rw [shown, List.take_append_getElem hstop] at halone
    refine ⟨halt.exitCode, _, run_of_process_error hwords hrun, hshown, hnamed, ?_, h.kept hkept,
      ?_, ?_, ?_⟩
    · exact String.append_empty
    · exact iff_of_false halt.exitCode_ne fun h => Nat.ne_of_lt hstop h.1
    · exact fun _ => ⟨halt, errors, hhalt, rfl, rfl, hrun.trans halone.symm⟩
    · exact fun h => absurd h (Nat.ne_of_lt hstop)
  · have hall : b.stop = b.settings.files.length :=
      Nat.le_antisymm List.findIdx_le_length (Nat.le_of_not_lt hstop)
    obtain ⟨d, errors, hkept, hruns⟩ := h.runs_process_of_all hall
    by_cases hsame : b.settings.files.filter b.differs = []
    · rw [if_pos hsame] at hruns
      refine ⟨some 0, _, run_of_process_ok hwords hruns, hshown, hnamed, rfl, h.kept hkept, ?_, ?_,
        ?_⟩
      · exact iff_of_true rfl ⟨hall, filter_differs_eq_nil_iff.mp hsame⟩
      · exact fun h => absurd hall (Nat.ne_of_lt h)
      · exact fun _ hasked hmore => absurd (filter_differs hasked ▸ hsame) hmore
    · rw [if_neg hsame] at hruns
      refine ⟨some 1, _, run_of_process_error hwords hruns, hshown, hnamed, ?_, h.kept hkept, ?_,
        ?_, ?_⟩
      · exact String.append_empty
      · exact iff_of_false (by decide) fun h => hsame (filter_differs_eq_nil_iff.mpr h.2)
      · exact fun h => absurd hall (Nat.ne_of_lt h)
      · intro _ hasked _
        rw [← filter_differs hasked]
        exact ⟨rfl, errors, rfl⟩

/-- A class with nothing in it but its name. -/
def nameOnly : ClassFile where
  minorVersion := 0
  majorVersion := 52
  pool := .ofList [.utf8 [0x41], .classInfo 1]
  accessFlags := 0x21
  thisClass := 2
  superClass := 0
  interfaces := []
  fields := []
  methods := []
  attributes := []

/-- In the second file there is an attribute that nothing is known of. The first one comes out
different, but that is not what the run ends with. -/
def threeFiles : Batch where
  settings :=
    { roundTrip := true, output := some "out/new", files := ["A.class", "sub/B.class", "C.class"] }
  contents path :=
    if path = "A.class" then nameOnly.layout ++ [7]
    else if path = "sub/B.class" then ClassFile.switching.layout
    else nameOnly.layout

/-- The files on a disk with nothing else. -/
def threeFilesSession : Session where
  disk := .ofFiles (threeFiles.settings.files.map fun path => (path, threeFiles.contents path))

theorem forall_mem_threeFiles {P : String → Prop} (hA : P "A.class") (hB : P "sub/B.class")
    (hC : P "C.class") : ∀ path ∈ threeFiles.settings.files, P path :=
  List.forall_mem_cons.mpr ⟨hA, List.forall_mem_cons.mpr ⟨hB, List.forall_mem_singleton.mpr hC⟩⟩

theorem prepared_threeFiles : threeFiles.Prepared threeFilesSession
    ((Session.host.makeDirectories "out/new").run threeFilesSession).2 where
  working := rfl
  readable := forall_mem_threeFiles rfl rfl rfl
  made := ⟨rfl, by decide +kernel, forall_mem_threeFiles (fun _ => ⟨_, rfl, rfl⟩)
    (fun _ => ⟨_, rfl, rfl⟩) (fun _ => ⟨_, rfl, rfl⟩)⟩

theorem stop_threeFiles : threeFiles.stop = 1 := by
  decide +kernel

theorem shown_threeFiles : threeFiles.shown = ["A.class"] := by
  rw [shown, stop_threeFiles]
  rfl

theorem run_outcome_threeFiles :
    let words := ["--roundtrip", "-o", "out/new", "A.class", "sub/B.class", "C.class"]
    parse words = .ok threeFiles.settings ∧ ∃ s₁, threeFiles.Prepared threeFilesSession s₁ ∧
      ∃ s' errors, (run Session.host words).run threeFilesSession = (some 1, s') ∧
        s'.printed = threeFiles.listing "A.class" ∧
        s'.disk.readFile "out/new/A.class" = .ok nameOnly.layout ∧
        s'.errors = errors ++ ("Error: failed to parse class file \"sub/B.class\"\n\n" ++
          "Caused by:\n    unknown attribute \"A\"\n") := by
  intro words
  have hwords : parse words = .ok threeFiles.settings := rfl
  have hcopy : threeFiles.copy "out/new" "A.class" = ("out/new/A.class", nameOnly.layout) := by
    decide +kernel
  obtain ⟨code, s', hrun, houtcome⟩ := run_outcome hwords prepared_threeFiles
  have hprinted := houtcome.printed
  have hfresh : threeFilesSession.printed = "" := rfl
  rw [shown_threeFiles, List.map_singleton, String.join_cons, String.join_nil, String.append_empty,
    hfresh, String.empty_append] at hprinted
  have hkept := houtcome.kept.2
  rw [shown_threeFiles, List.map_singleton, hcopy] at hkept
  have hstop : threeFiles.stop < threeFiles.settings.files.length := by
    rw [stop_threeFiles]
    decide
  have hfile : threeFiles.settings.files[threeFiles.stop] = "sub/B.class" := by
    simp only [stop_threeFiles]
    rfl
  obtain ⟨halt, errors, hitem, hcode, herrors, -⟩ := houtcome.failure hstop
  rw [hfile] at hitem
  have hhalt : (match threeFiles.item "sub/B.class" with
      | .error halt => (halt.exitCode, halt.text)
      | .ok _ => (none, "")) = (some 1, "Error: failed to parse class file \"sub/B.class\"\n\n" ++
        "Caused by:\n    unknown attribute \"A\"\n") := by
    decide +kernel
  rw [hitem] at hhalt
  obtain ⟨hone, htext⟩ := Prod.mk.inj hhalt
  rw [hcode, hone] at hrun
  exact ⟨hwords, _, prepared_threeFiles, s', threeFilesSession.errors ++ errors, hrun, hprinted,
    hkept.readFile _ List.mem_cons_self, herrors.trans (congrArg (_ ++ ·) htext)⟩

end Batch
end JavaClass.CommandLine

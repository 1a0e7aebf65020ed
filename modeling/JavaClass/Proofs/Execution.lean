import JavaClass.CommandLine.Run
import JavaClass.Proofs.DiskChanges

/-!
# Following the command on a disk in memory

A part of the command leads from one session to another, with a result (`Runs`). All that a message
does is to come behind the others (`runs_log`), so what is done for a file is told by the texts that
it adds to a session: those about reading it and its listing (`runs_processFile`), and those about
writing it again (`runs_writeAgain_of_roundTrip`). In the end it may be kept (`keepIfAsked`).
-/

namespace JavaClass.CommandLine

variable {α β : Type} {x : ExceptT Halt (StateM Session) α}
  {f : α → ExceptT Halt (StateM Session) β} {s s₁ s' : Session} {settings : Settings}
  {path : String} {bytes written : List UInt8} {c : ClassFile} {halt : Halt}

/-- Running it in the first session gives the result, and leaves the other session. -/
def Runs (x : ExceptT Halt (StateM Session) α) (s : Session) (result : Except Halt α)
    (s' : Session) : Prop :=
  x.run.run s = (result, s')

namespace Runs

theorem pure (a : α) (s : Session) : Runs (Pure.pure a) s (.ok a) s := rfl

theorem throw (halt : Halt) (s : Session) :
    Runs (MonadExcept.throw halt : ExceptT Halt (StateM Session) α) s (.error halt) s := rfl

theorem lift {y : StateM Session α} {a : α} (h : y.run s = (a, s')) :
    Runs (ExceptT.lift y) s (.ok a) s' := by
  show (ExceptT.lift y).run.run s = _
  rw [ExceptT.run_lift, StateT.run_map, h]
  rfl

theorem bind {a : α} {result : Except Halt β} (hx : Runs x s (.ok a) s₁)
    (hf : Runs (f a) s₁ result s') : Runs (x >>= f) s result s' := by
  show (x >>= f).run.run s = _
  rw [ExceptT.run_bind, StateT.run_bind, hx]
  exact hf

theorem bind_error (hx : Runs x s (.error halt) s') : Runs (x >>= f) s (.error halt) s' := by
  show (x >>= f).run.run s = _
  rw [ExceptT.run_bind, StateT.run_bind, hx]
  rfl

end Runs

/-! ### Messages -/

/-- What is printed of a message. -/
def Settings.note (settings : Settings) (level : Level) (topic message : String) : String :=
  if level.shownAt settings.level then
    "[" ++ level.name ++ " " ++ topic ++ "] " ++ message ++ "\n"
  else ""

/-- What is printed of events. -/
def Settings.notes (settings : Settings) (events : List Event) : String :=
  String.join (events.map fun event => settings.note event.level event.topic event.message)

/-- The session with more text in front of its user. -/
def Session.append (s : Session) (printed errors : String) : Session :=
  { s with printed := s.printed ++ printed, errors := s.errors ++ errors }

theorem Session.append_append (s : Session) (p e p' e' : String) :
    (s.append p e).append p' e' = s.append (p ++ p') (e ++ e') := by
  rw [append, append, append, String.append_assoc, String.append_assoc]

theorem Session.append_empty (s : Session) : s.append "" "" = s := by
  rw [append, String.append_empty, String.append_empty]

theorem run_log (settings : Settings) (level : Level) (topic message : String) (s : Session) :
    (log Session.host settings.level level topic message).run s =
      ((), s.append "" (settings.note level topic message)) := by
  rw [log, Settings.note]
  split
  · rw [Session.append, String.append_empty]
    rfl
  · rw [Session.append_empty]
    rfl

theorem runs_log (settings : Settings) (level : Level) (topic message : String) (s : Session) :
    Runs (ExceptT.lift (log Session.host settings.level level topic message)) s (.ok ())
      (s.append "" (settings.note level topic message)) :=
  .lift (run_log ..)

theorem run_logEvents (settings : Settings) (events : List Event) (s : Session) :
    (events.forM (logEvent Session.host settings.level)).run s =
      ((), s.append "" (settings.notes events)) := by
  induction events generalizing s with
  | nil => exact congrArg ((), ·) s.append_empty.symm
  | cons event events ih =>
    have hnotes : settings.notes (event :: events) =
        settings.note event.level event.topic event.message ++ settings.notes events :=
      String.join_cons
    show ((logEvent Session.host settings.level event >>= fun _ =>
      events.forM (logEvent Session.host settings.level)) : StateM Session Unit).run s = _
    rw [StateT.run_bind, logEvent, run_log]
    refine (ih _).trans ?_
    rw [Session.append_append, hnotes]
    rfl

theorem runs_logEvent (settings : Settings) (event : Event) (s : Session) :
    Runs (ExceptT.lift (logEvent Session.host settings.level event)) s (.ok ())
      (s.append "" (settings.notes [event])) := by
  have hnotes : settings.notes [event] = settings.note event.level event.topic event.message := by
    rw [Settings.notes, List.map_singleton, String.join_cons, String.join_nil, String.append_empty]
  rw [hnotes]
  exact runs_log ..

/-! ### A file -/

theorem runs_attempt {a : α} {context : String} {operation : StateM Session (Except FileFault α)}
    (h : operation.run s = (.ok a, s')) : Runs (attempt context operation) s (.ok a) s' :=
  .bind (.lift h) (.pure a s')

theorem runs_readFile (h : s.disk.readFile path = .ok bytes) (context : String) :
    Runs (attempt context (Session.host.readFile path)) s (.ok bytes) s :=
  runs_attempt (congrArg (·, s) h)

theorem runs_writeFile {d : Disk} (h : s.disk.writeFile path bytes = .ok d) (context : String) :
    Runs (attempt context (Session.host.writeFile path bytes)) s (.ok ()) { s with disk := d } :=
  runs_attempt (run_update_ok (fun d => d.writeFile path bytes) h)

theorem runs_parseFile_ok {cursor : Cursor} (s : Session) (path : String)
    (h : (ClassFile.decode settings.options).run { unread := bytes } = .ok c cursor) :
    Runs (parseFile Session.host settings path bytes) s (.ok c)
      (s.append "" (settings.notes cursor.events.toList)) := by
  rw [parseFile, h]
  exact .bind (.lift (run_logEvents ..)) (.pure c _)

theorem runs_parseFile_error {cursor : Cursor} {e : Error} (s : Session) (path : String)
    (h : (ClassFile.decode settings.options).run { unread := bytes } = .error e cursor) :
    Runs (parseFile Session.host settings path bytes) s
      (.error (.failed ["failed to parse class file " ++ Text.quote path, e.message]))
      (s.append "" (settings.notes cursor.events.toList)) := by
  rw [parseFile, h]
  exact .bind (.lift (run_logEvents ..)) (.throw _ _)

/-- What is printed about reading a file. -/
def Settings.readNotes (settings : Settings) (path : String) (bytes : List UInt8)
    (events : Array Event) : String :=
  settings.notes events.toList ++
    settings.note .debug topic ("read " ++ Text.quote path ++ s!", {bytes.length} bytes")

theorem runs_print (text : String) (s : Session) :
    Runs (ExceptT.lift (Session.host.print text)) s (.ok ()) (s.append text "") := by
  refine .lift ?_
  rw [Session.append, String.append_empty]
  rfl

/-- A file is listed once it has been read, and then written again. -/
theorem runs_processFile {cursor : Cursor} {text : String} {result : Except Halt Bool}
    (hread : s.disk.readFile path = .ok bytes)
    (hdecode : (ClassFile.decode settings.options).run { unread := bytes } = .ok c cursor)
    (hlisting : c.listing = .ok text)
    (h : Runs (writeAgain Session.host settings path bytes c)
      (s.append text (settings.readNotes path bytes cursor.events)) result s') :
    Runs (processFile Session.host settings path) s result s' := by
  refine .bind (runs_readFile hread _) (.bind (runs_parseFile_ok s path hdecode) ?_)
  refine .bind (runs_log ..) ?_
  rw [hlisting, Session.append_append]
  refine .bind (runs_print ..) ?_
  rw [Session.append_append, String.empty_append, String.empty_append, String.append_empty]
  exact h

/-- What is printed about comparing what was written with what was read. -/
def Settings.verdict (settings : Settings) (path : String) : Option Nat → String
  | none => settings.note .info topic (Text.quote path ++ " round trips")
  | some offset => "[WARN dukep] " ++ (Text.quote path ++
      " differs after writing it again, first at byte 0x" ++ Text.hex offset) ++ "\n"

/-- There is no level at which warnings are not shown. -/
theorem Settings.note_warn (settings : Settings) (topic message : String) :
    settings.note .warn topic message = "[WARN " ++ topic ++ "] " ++ message ++ "\n" := by
  have hshown : Level.warn.shownAt settings.level = true := by
    rw [Settings.level]
    split
    · rfl
    · rfl
    · rfl
    · rfl
  rw [note, if_pos hshown]
  rfl

theorem runs_compare (settings : Settings) (path : String) (found written : List UInt8)
    (s : Session) :
    Runs (ExceptT.lift (compare Session.host settings path found written)) s
      (.ok (firstDifference found written).isNone)
      (s.append "" (settings.verdict path (firstDifference found written))) := by
  refine .lift ?_
  rw [compare]
  cases firstDifference found written with
  | none =>
    rw [StateT.run_bind, run_log]
    rfl
  | some offset =>
    rw [StateT.run_bind, run_log, Settings.note_warn]
    rfl

/-- What is left to do for a file after its bytes have been compared. -/
def keepIfAsked (settings : Settings) (path : String) (written : List UInt8) (same : Bool) :
    ExceptT Halt (StateM Session) Bool := do
  match settings.output with
  | some output => keep Session.host settings output path written
  | none => pure ()
  return same

theorem runs_writeAgain_of_roundTrip {result : Except Halt Bool}
    (hwritten : c.toBytes = .ok written) (hasked : settings.roundTrip = true)
    (h : Runs (keepIfAsked settings path written (firstDifference bytes written).isNone)
      (s.append "" (settings.notes [.wroteClass c.length] ++
        settings.verdict path (firstDifference bytes written))) result s') :
    Runs (writeAgain Session.host settings path bytes c) s result s' := by
  rw [writeAgain, hasked, Bool.not_true, Bool.false_and, if_neg Bool.false_ne_true, hwritten]
  refine .bind (runs_logEvent ..) (.bind (runs_compare settings path bytes written _) ?_)
  rw [Session.append_append, String.empty_append]
  exact h

/-- Whether or not files are compared, what is left to do comes after some messages. -/
theorem exists_runs_writeAgain (settings : Settings) (path : String) (bytes : List UInt8)
    (hwritten : c.toBytes = .ok written) (s : Session) :
    ∃ errors, ∀ result s',
      Runs (keepIfAsked settings path written
        (!settings.roundTrip || (firstDifference bytes written).isNone))
        (s.append "" errors) result s' →
      Runs (writeAgain Session.host settings path bytes c) s result s' := by
  cases hasked : settings.roundTrip with
  | true => exact ⟨_, fun _ _ => runs_writeAgain_of_roundTrip hwritten hasked⟩
  | false =>
    cases houtput : settings.output with
    | none =>
      refine ⟨"", fun result s' h => ?_⟩
      rw [keepIfAsked, houtput, s.append_empty] at h
      rw [writeAgain, hasked, houtput]
      exact h
    | some output =>
      refine ⟨settings.notes [.wroteClass c.length], fun result s' h => ?_⟩
      rw [keepIfAsked, houtput] at h
      rw [writeAgain, hasked, houtput, hwritten]
      exact .bind (runs_logEvent ..) (.bind (.pure true _) h)

theorem runs_keepIfAsked_none (h : settings.output = none) (path : String) (written : List UInt8)
    (same : Bool) (s : Session) : Runs (keepIfAsked settings path written same) s (.ok same) s := by
  rw [keepIfAsked, h]
  exact .pure same s

theorem runs_keepIfAsked_some {output name : String} {d : Disk} (h : settings.output = some output)
    (hname : Path.fileName? path = some name)
    (hwrite : s.disk.writeFile (Path.join output name) written = .ok d) (same : Bool) :
    Runs (keepIfAsked settings path written same) s (.ok same) ({ s with disk := d }.append ""
      (settings.note .info topic ("wrote " ++ Text.quote (Path.join output name)))) := by
  rw [keepIfAsked, h]
  refine .bind (a := ()) ?_ (.pure same _)
  rw [keep, hname]
  exact .bind (runs_writeFile hwrite _) (runs_log ..)

/-! ### Several files -/

/-- Goes on with more files, when some came out different already. -/
def processFrom (settings : Settings) (different paths : List String) :
    ExceptT Halt (StateM Session) (List String) :=
  paths.foldlM (fun different path => do
    return if ← processFile Session.host settings path then different else different ++ [path])
    different

theorem processFrom_cons (settings : Settings) (different : List String) (path : String)
    (paths : List String) : processFrom settings different (path :: paths) = (do
      let same ← processFile Session.host settings path
      processFrom settings (if same then different else different ++ [path]) paths) := by
  rw [processFrom, List.foldlM_cons]
  simp only [bind_assoc, pure_bind]
  rfl

theorem processFrom_append (settings : Settings) (different : List String)
    (before later : List String) : processFrom settings different (before ++ later) = (do
      processFrom settings (← processFrom settings different before) later) :=
  List.foldlM_append

/-- What a run ends with if files came out different. -/
def roundTripFailure (different : List String) : Halt :=
  .failed [s!"{different.length} class file(s) didn't round trip: [" ++
    ", ".intercalate (different.map Text.quote) ++ "]"]

/-- Which files there are makes no difference to what is done for one of them. -/
theorem processFile_with_files (settings : Settings) (files : List String) (path : String) :
    processFile Session.host { settings with files } path =
      processFile Session.host settings path := rfl

theorem process_with_files (settings : Settings) (files : List String) :
    process Session.host { settings with files } = (do
      match settings.output with
      | some output =>
        attempt ("failed to create output directory " ++ Text.quote output)
          (Session.host.makeDirectories output)
      | none => pure ()
      let different ← processFrom settings [] files
      if !different.isEmpty then
        throw (roundTripFailure different)) := by
  rw [process]
  simp only [processFiles, processFile_with_files]
  rfl

theorem run_of_process_ok {words : List String} (hwords : parse words = .ok settings)
    (h : Runs (process Session.host settings) s (.ok ()) s') :
    (run Session.host words).run s = (some 0, s') := by
  rw [run, hwords]
  show ((process Session.host settings).run >>= _).run s = _
  rw [StateT.run_bind, h]
  rfl

/-- The exit code, if the run comes to one. -/
def Halt.exitCode : Halt → Option UInt32
  | failed _ => some 1
  | endless => none

theorem Halt.exitCode_ne (halt : Halt) : halt.exitCode ≠ some 0 := by
  cases halt with
  | failed messages => exact fun h => absurd (Option.some.inj h) (by decide)
  | endless => exact nofun

/-- What is printed in the end. -/
def Halt.text : Halt → String
  | failed messages => messages.text
  | endless => ""

theorem run_of_process_error {words : List String} (hwords : parse words = .ok settings)
    (h : Runs (process Session.host settings) s (.error halt) s') :
    (run Session.host words).run s = (halt.exitCode, s'.append "" halt.text) := by
  rw [run, hwords]
  show ((process Session.host settings).run >>= _).run s = _
  rw [StateT.run_bind, h]
  cases halt with
  | failed messages =>
    rw [Session.append, String.append_empty]
    rfl
  | endless =>
    rw [Halt.text, Session.append_empty]
    rfl

end JavaClass.CommandLine

import JavaClass.Proofs.Execution
import JavaClass.Proofs.RoundTrip

/-!
# The verdict on a file

A file in which a class can be read holds the layout of the class and then what comes behind it. The
class is always written as that layout, so the only way in which a file can come out different is
that there is something behind (`CommandLine.firstDifference_append`), and the place of the
difference is where the class ends (`CommandLine.verdict_exact`).
-/

namespace JavaClass

namespace CommandLine

variable {settings : Settings} {bytes written : List UInt8} {c : ClassFile} {cursor : Cursor}
  {text : String}

theorem firstDifference_go_append (n : Nat) (a b : List UInt8) :
    firstDifference.go n (a ++ b) a = if b = [] then none else some (n + a.length) := by
  induction a generalizing n with
  | nil =>
    cases b with
    | nil => rfl
    | cons byte b => rfl
  | cons byte a ih =>
    rw [List.cons_append, firstDifference.go, if_pos rfl, ih, List.length_cons, Nat.add_right_comm]
    rfl

/-- If all that is different is that there is more, then the place is where the rest starts. -/
theorem firstDifference_append (a b : List UInt8) :
    firstDifference (a ++ b) a = if b = [] then none else some a.length := by
  rw [firstDifference, firstDifference_go_append, Nat.zero_add]

theorem firstDifference_take {n : Nat} (h : n ≤ bytes.length) :
    firstDifference bytes (bytes.take n) = if bytes.length = n then none else some n := by
  have hlength : (bytes.take n).length = n := List.length_take_of_le h
  have hrest : bytes.drop n = [] ↔ bytes.length = n := by
    rw [List.drop_eq_nil_iff]
    exact ⟨fun h' => Nat.le_antisymm h' h, Nat.le_of_eq⟩
  have hparts := firstDifference_append (bytes.take n) (bytes.drop n)
  rw [List.take_append_drop, hlength] at hparts
  rw [hparts]
  simp only [hrest]

theorem isNone_firstDifference_take {n : Nat} (h : n ≤ bytes.length) :
    (firstDifference bytes (bytes.take n)).isNone = decide (bytes.length = n) := by
  rw [firstDifference_take h]
  split
  · next hsame => exact (decide_eq_true hsame).symm
  · next hmore => exact (decide_eq_false hmore).symm

/-- What a class is written as is how the bytes start that it was read from. -/
theorem written_of_decode
    (h : ClassFile.decode settings.options { unread := bytes } = .ok c cursor) :
    c.toBytes = .ok (bytes.take c.length) ∧ c.length ≤ bytes.length ∧
      cursor.unread = bytes.drop c.length := by
  obtain ⟨hc, hpast⟩ := ClassFile.past_of_decode h
  have hbytes : bytes = c.layout ++ cursor.unread := hpast.unread
  have hlength : c.layout.length = c.length := ClassFile.length_layout c
  refine ⟨?_, ?_, ?_⟩
  · rw [hbytes, ← hlength, List.take_left]
    exact ClassFile.toBytes_eq_ok_iff.mpr ⟨hc.fits, rfl⟩
  · rw [hbytes, List.length_append, hlength]
    exact Nat.le_add_right ..
  · rw [hbytes, ← hlength, List.drop_left]

/-- A file in which a class can be read, and listed, is the same when it is written again just if
nothing comes behind the class. Else the place of the difference is the end of the class. That is
what is said about the file, after its listing, and whether it counts as different. -/
theorem verdict_exact
    (hdecode : ClassFile.decode settings.options { unread := bytes } = .ok c cursor)
    (hlisting : c.listing = .ok text) :
    ∃ written, c.toBytes = .ok written ∧
      (firstDifference bytes written = none ↔ bytes.length = c.length) ∧
      (bytes.length ≠ c.length → firstDifference bytes written = some c.length) ∧
      (c.length ≤ bytes.length ∧ written = bytes.take c.length ∧
        cursor.unread = bytes.drop c.length) ∧
      ∀ (s : Session) (path : String), s.disk.readFile path = .ok bytes →
        settings.roundTrip = true →
        let same := decide (bytes.length = c.length)
        let report := settings.readNotes path bytes cursor.events ++
          settings.notes [.wroteClass c.length] ++
          settings.verdict path (if same then none else some c.length)
        (processFile Session.host settings path).run.run s =
          (keepIfAsked settings path written same).run.run (s.append text report) := by
  obtain ⟨hwritten, hlength, hunread⟩ := written_of_decode hdecode
  have hplace := firstDifference_take hlength
  refine ⟨bytes.take c.length, hwritten, ?_, ?_, ⟨hlength, rfl, hunread⟩,
    fun s path hread hasked => ?_⟩
  · rw [hplace]
    split
    · next h => exact iff_of_true rfl h
    · next h => exact iff_of_false nofun h
  · intro h
    rw [hplace, if_neg h]
  · intro same report
    have hplace' : firstDifference bytes (bytes.take c.length) =
        if same then none else some c.length := by
      rw [hplace]
      simp only [same, decide_eq_true_eq]
    refine runs_processFile hread hdecode hlisting (runs_writeAgain_of_roundTrip hwritten hasked ?_)
    rw [Session.append_append, String.append_empty, isNone_firstDifference_take hlength, hplace',
      ← String.append_assoc]
    rfl

/-- One byte comes behind the class, which is 0x85 bytes long. -/
theorem verdict_exact_trailing :
    let settings : Settings := { keepUnknown := true, roundTrip := true }
    let bytes := ClassFile.switching.layout ++ [7]
    let s : Session := { disk := .ofFiles [("A.class", bytes)] }
    s.disk.readFile "A.class" = .ok bytes ∧
      ∃ cursor text, ClassFile.decode settings.options { unread := bytes } =
          .ok ClassFile.switching cursor ∧
        ClassFile.switching.listing = .ok text ∧
        (∃ written, ClassFile.switching.toBytes = .ok written ∧
          firstDifference bytes written = some 0x85) ∧
        ∃ log, Runs (processFile Session.host settings "A.class") s (.ok false)
          (s.append text (log ++
            "[WARN dukep] \"A.class\" differs after writing it again, first at byte 0x85\n")) := by
  intro settings bytes s
  have hread : s.disk.readFile "A.class" = .ok bytes := rfl
  have hwellFormed : ClassFile.switching.WellFormed settings.options := by decide +kernel
  obtain ⟨cursor, hdecode, -⟩ := ClassFile.decode_layout hwellFormed [7]
  obtain ⟨text, hlisting⟩ : ∃ text, ClassFile.switching.listing = .ok text := ⟨_, rfl⟩
  obtain ⟨written, hwritten, -, hplace, -, hrun⟩ := verdict_exact hdecode hlisting
  have hlength : (ClassFile.switching.layout ++ [7]).length ≠ ClassFile.switching.length := by
    decide +kernel
  have hverdict : settings.verdict "A.class" (some ClassFile.switching.length) =
      "[WARN dukep] \"A.class\" differs after writing it again, first at byte 0x85\n" := by
    decide +kernel
  have hfile := hrun s "A.class" hread rfl
  simp only [decide_eq_false hlength, Bool.false_eq_true, if_false, hverdict] at hfile
  exact ⟨hread, cursor, text, hdecode, hlisting, ⟨written, hwritten, hplace hlength⟩,
    _, hfile.trans (runs_keepIfAsked_none rfl "A.class" written false _)⟩

end CommandLine
end JavaClass

import JavaClass.Proofs.Encodable
import JavaClass.Proofs.ReadClass

/-!
# Round trips

Reading and writing are inverse to each other. What is read from some bytes is written as just the
bytes that were used up (`ClassFile.toBytes_of_decode`), and the classes that come back after being
written and read are just those that can be read at all: the well-formed ones
(`ClassFile.decode_image`).

Both rest on the same two facts, that the layout of a class is what it is written as
(`ClassFile.toBytes_eq_ok_iff`) and what it is read from (`ClassFile.reads_decode`).
-/

namespace JavaClass.ClassFile

open Decode

variable {options : Options} {bytes rest : List UInt8} {c : ClassFile} {s : Cursor}

/-- A class with one method: `switch (0) { case 0: }`, with a number of 64 bits in front of the names
and an attribute that nothing is known of. -/
def switching : ClassFile where
  minorVersion := 0
  majorVersion := 52
  pool := .ofList [.long 1 2, .utf8 Attribute.Kind.code.nameBytes, .utf8 [0x41],
    .utf8 Attribute.Kind.lineNumberTable.nameBytes, .classInfo 4]
  accessFlags := 0x21
  thisClass := 6
  superClass := 0
  interfaces := []
  fields := []
  methods := [⟨9, 4, 4, [.code 3
    ⟨1, 0, [.implicit ⟨0x03, by decide⟩ .zero, .tableSwitch 2 19 0 0 [19], .plain ⟨0xb1, by decide⟩], []⟩
    [.leaf 5 (.lineNumberTable [⟨0, 1⟩])]]⟩]
  attributes := [.leaf 4 (.unknown [1, 2, 3])]

/-! ### From bytes to a class -/

theorem reads_fresh (options : Options) (bytes : List UInt8) :
    ReadsAt Cursor.depth { unread := bytes } (decode options) fun c bs =>
      c.WellFormed options ∧ bs = c.layout :=
  reads_decode options rfl rfl

theorem past_of_decode (h : decode options { unread := bytes } = .ok c s) :
    c.WellFormed options ∧ Cursor.Past Cursor.depth { unread := bytes } c.layout s := by
  obtain ⟨_, ⟨hc, rfl⟩, hpast⟩ := (reads_fresh options bytes).sound h
  exact ⟨hc, hpast⟩

theorem decode_layout (h : c.WellFormed options) (rest : List UInt8) :
    ∃ s, decode options { unread := c.layout ++ rest } = .ok c s ∧ s.unread = rest :=
  (reads_fresh options _).complete ⟨h, rfl⟩ rfl

/-- A class that was read is written as the bytes it was read from. What comes behind them is left
to be read. -/
theorem toBytes_of_decode (options : Options) (bytes : List UInt8) (c : ClassFile) (s : Cursor)
    (h : decode options { unread := bytes } = .ok c s) :
    c.toBytes = .ok (bytes.take s.offset) ∧ s.offset = c.length ∧ s.offset ≤ bytes.length ∧
      s.unread = bytes.drop s.offset := by
  obtain ⟨hc, hpast⟩ := past_of_decode h
  have hbytes : bytes = c.layout ++ s.unread := hpast.unread
  have hoffset : s.offset = c.layout.length := by
    rw [hpast.offset, Nat.zero_add]
  refine ⟨?_, ?_, ?_, ?_⟩
  · rw [hoffset, hbytes, List.take_left]
    exact toBytes_eq_ok_iff.mpr ⟨hc.fits, rfl⟩
  · rw [hoffset, length_layout]
  · rw [hoffset, hbytes, List.length_append]
    exact Nat.le_add_right ..
  · rw [hoffset, hbytes, List.drop_left]

theorem toBytes_of_decode_switching : ∃ s,
    decode { unknown := .preserve } { unread := switching.layout ++ [7] } = .ok switching s ∧
      switching.toBytes = .ok ((switching.layout ++ [7]).take s.offset) ∧ s.offset = 133 := by
  have hregular : switching.WellFormed { unknown := .preserve } := by decide +kernel
  obtain ⟨s, hs, -⟩ := decode_layout hregular [7]
  obtain ⟨hbytes, hoffset, -⟩ := toBytes_of_decode _ _ _ _ hs
  refine ⟨s, hs, hbytes, ?_⟩
  rw [hoffset]
  rfl

/-! ### From a class to bytes -/

/-- The classes that can be read are the well-formed ones, and each of them can be written and is
read again from what is written, whatever comes behind. -/
theorem decode_image (options : Options) (c : ClassFile) :
    ((∃ bytes s, decode options { unread := bytes } = .ok c s) ↔ c.WellFormed options) ∧
      (c.WellFormed options ↔ ∃ bytes, c.toBytes = .ok bytes ∧ ∀ rest,
        ∃ s, decode options { unread := bytes ++ rest } = .ok c s ∧ s.unread = rest) := by
  have hread : (∃ bytes s, decode options { unread := bytes } = .ok c s) ↔ c.WellFormed options := by
    constructor
    · rintro ⟨bytes, s, h⟩
      exact (past_of_decode h).1
    · intro hc
      obtain ⟨s, h, -⟩ := decode_layout hc []
      exact ⟨_, s, h⟩
  refine ⟨hread, fun hc => ?_, fun ⟨bytes, _, hbytes⟩ => ?_⟩
  · exact ⟨c.layout, toBytes_eq_ok_iff.mpr ⟨hc.fits, rfl⟩, decode_layout hc⟩
  · obtain ⟨s, h, -⟩ := hbytes []
    exact hread.mp ⟨_, s, h⟩

end JavaClass.ClassFile

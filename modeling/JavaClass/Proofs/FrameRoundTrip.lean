import JavaClass.Proofs.Encodable
import JavaClass.Proofs.ReadParts

/-!
# Round trips of stack map frames

The frames that can be written are the ones that can be read, and each of them has one form in bytes
(`StackFrame.codec_bijective`). All kinds of frames share the first byte. What a frame puts into it
is a plain sum or difference (`StackFrame.typeNumber`), and there is such a byte just if this number
is among those of the frame's kind (`StackFrame.type_eq_ok_iff`), so it is never cut off. No number
belongs to two kinds (`StackFrame.Kind.eq_of_has`).
-/

namespace JavaClass.StackFrame

open Decode

inductive Kind where
  | same | sameOneItem | sameOneItemExtended | chop | sameExtended | append | full
  deriving DecidableEq, Repr

namespace Kind

/-- The least number that the first byte of such a frame can be. -/
def least : Kind → Nat
  | same => 0
  | sameOneItem => 64
  | sameOneItemExtended => 247
  | chop => 248
  | sameExtended => 251
  | append => 252
  | full => 255

/-- The greatest number that the first byte of such a frame can be. -/
def greatest : Kind → Nat
  | same => 63
  | sameOneItem => 127
  | sameOneItemExtended => 247
  | chop => 250
  | sameExtended => 251
  | append => 254
  | full => 255

/-- The number is among those that the first byte of such a frame can be. -/
def Has (kind : Kind) (n : Nat) : Prop :=
  kind.least ≤ n ∧ n ≤ kind.greatest

theorem eq_of_has {kind kind' : Kind} {n : Nat} (h : kind.Has n) (h' : kind'.Has n) :
    kind = kind' := by
  cases kind <;> cases kind' <;> grind [Has, least, greatest]

end Kind

def kind : StackFrame → Kind
  | same _ => .same
  | sameOneItem .. => .sameOneItem
  | sameOneItemExtended .. => .sameOneItemExtended
  | chop .. => .chop
  | sameExtended _ => .sameExtended
  | append .. => .append
  | full .. => .full

/-- What the first byte stands for, whether or not it is a byte. -/
def typeNumber : StackFrame → Int
  | same offsetDelta => offsetDelta.toNat
  | sameOneItem offsetDelta _ => offsetDelta.toNat + 64
  | sameOneItemExtended .. => 247
  | chop count _ => 251 - count.toNat
  | sameExtended _ => 251
  | append _ locals => 251 + locals.length
  | full .. => 255

variable {f : StackFrame} {t : UInt8} {c c' : Cursor} {bytes : List UInt8}

/-- The first byte is not cut off where the number of a frame fits into it. -/
theorem toNat_typeByte (h : f.HeadFits) : (f.typeByte.toNat : Int) = f.typeNumber := by
  cases f with
  | sameOneItem offsetDelta item =>
    have hle : offsetDelta.toNat ≤ 63 := UInt8.le_iff_toNat_le.mp h
    rw [typeByte, typeNumber, UInt8.toNat_add]
    simp
    omega
  | chop count offsetDelta =>
    have hle : count.toNat ≤ 3 := UInt8.le_iff_toNat_le.mp h.2
    rw [typeByte, typeNumber, UInt8.toNat_sub]
    simp
    omega
  | append offsetDelta locals =>
    have hle : locals.length ≤ 3 := h.2
    rw [typeByte, typeNumber, UInt8.toNat_add]
    simp
    omega
  | same offsetDelta => rfl
  | sameOneItemExtended offsetDelta item => rfl
  | sameExtended offsetDelta => rfl
  | full offsetDelta locals stack => rfl

theorem headFits_iff {n : Nat} (hn : (n : Int) = f.typeNumber) : f.HeadFits ↔ f.kind.Has n := by
  cases f <;> simp only [typeNumber] at hn <;>
    simp [kind, Kind.Has, Kind.least, Kind.greatest, HeadFits, UInt8.le_iff_toNat_le] <;> omega

theorem type_eq_ok_iff :
    f.type = .ok t ↔ (t.toNat : Int) = f.typeNumber ∧ f.kind.Has t.toNat := by
  rcases f.type_cases with ⟨hhead, htype⟩ | ⟨hhead, e, -, htype⟩
  · have hnumber := toNat_typeByte hhead
    rw [htype, Except.ok.injEq]
    constructor
    · rintro rfl
      exact ⟨hnumber, (headFits_iff hnumber).mp hhead⟩
    · rintro ⟨ht, -⟩
      exact UInt8.toNat_inj.mp (Int.ofNat_inj.mp (hnumber.trans ht.symm))
  · rw [htype]
    exact iff_of_false nofun fun ⟨ht, hhas⟩ => hhead ((headFits_iff ht).mpr hhas)

theorem run_encode_eq_ok_iff : f.encode.run = .ok bytes ↔ f.Fits ∧ bytes = f.layout :=
  f.writes_encode.run_eq_ok_iff

theorem past_of_decode (h : decode c = .ok f c') :
    f.Fits ∧ c.Past Cursor.context f.layout c' := by
  obtain ⟨_, ⟨hfits, rfl⟩, hpast⟩ := (reads_decode c).sound h
  exact ⟨hfits, hpast⟩

theorem exists_decode_of_written {rest : List UInt8} (h : f.encode.run = .ok bytes)
    (hc : c.unread = bytes ++ rest) :
    ∃ c', decode c = .ok f c' ∧ c'.unread = rest ∧ c'.offset = c.offset + bytes.length := by
  obtain ⟨c', hread, hrest, hpast⟩ :=
    (reads_decode c).exists_past (run_encode_eq_ok_iff.mp h) hc
  exact ⟨c', hread, hrest, hpast.offset⟩

/-- A frame can be written just if it can be read, from some bytes. What is written is read as the
frame again, whatever comes behind, and the bytes that a frame is read from are what is written, as
long as the frame says. The first byte is the number that the frame asks for, and which kind of
frame it is follows from that number. -/
theorem codec_bijective :
    (∀ f : StackFrame, (∃ bytes, f.encode.run = .ok bytes) ↔
      ∃ bytes c', decode { unread := bytes } = .ok f c') ∧
    (∀ (f : StackFrame) bytes, f.encode.run = .ok bytes → ∀ (c : Cursor) rest,
      c.unread = bytes ++ rest → ∃ c', decode c = .ok f c' ∧ c'.unread = rest ∧
        c'.offset = c.offset + bytes.length) ∧
    (∀ (c c' : Cursor) f, decode c = .ok f c' → ∃ bytes, c.unread = bytes ++ c'.unread ∧
      c'.offset = c.offset + bytes.length ∧ f.encode.run = .ok bytes ∧
      f.encodedLength = bytes.length) ∧
    (∀ (f : StackFrame) t, f.type = .ok t ↔
      (t.toNat : Int) = f.typeNumber ∧ f.kind.Has t.toNat) ∧
    ∀ (kind kind' : Kind) n, kind.Has n → kind'.Has n → kind = kind' := by
  refine ⟨fun f => ⟨?_, ?_⟩, ?_, ?_, fun _ _ => type_eq_ok_iff, fun _ _ _ => Kind.eq_of_has⟩
  · rintro ⟨bytes, hwritten⟩
    obtain ⟨c', hread, -⟩ := exists_decode_of_written (c := { unread := bytes }) hwritten
      (List.append_nil bytes).symm
    exact ⟨bytes, c', hread⟩
  · rintro ⟨bytes, c', hread⟩
    exact ⟨f.layout, run_encode_eq_ok_iff.mpr ⟨(past_of_decode hread).1, rfl⟩⟩
  · intro f bytes hwritten c rest hc
    exact exists_decode_of_written hwritten hc
  · intro c c' f hread
    obtain ⟨hfits, hpast⟩ := past_of_decode hread
    exact ⟨f.layout, hpast.unread, hpast.offset, run_encode_eq_ok_iff.mpr ⟨hfits, rfl⟩,
      f.length_layout.symm⟩

/-- A frame with two more local variables. -/
def twoMore : StackFrame :=
  .append 0xfbff [.object 0x4007, .long]

theorem codec_bijective_twoMore :
    twoMore.encode.run = .ok [0xfd, 0xfb, 0xff, 7, 0x40, 7, 4] ∧
      ∃ c', decode { unread := [0xfd, 0xfb, 0xff, 7, 0x40, 7, 4, 0xff] } = .ok twoMore c' ∧
        c'.unread = [0xff] ∧ c'.offset = 7 ∧ twoMore.encodedLength = 7 ∧ Kind.append.Has 0xfd := by
  obtain ⟨-, hread, hexact, htype, -⟩ := codec_bijective
  have hwritten : twoMore.encode.run = .ok [0xfd, 0xfb, 0xff, 7, 0x40, 7, 4] := rfl
  obtain ⟨c', hdecode, hrest, hoffset⟩ := hread twoMore _ hwritten
    { unread := [0xfd, 0xfb, 0xff, 7, 0x40, 7, 4, 0xff] } [0xff] rfl
  obtain ⟨bytes, -, hoffset', -, hlength⟩ := hexact _ _ _ hdecode
  have hlength' : twoMore.encodedLength = 7 := by
    rw [hlength]
    exact Nat.add_left_cancel (hoffset'.symm.trans hoffset)
  have htypeByte : twoMore.type = .ok 0xfd := rfl
  exact ⟨hwritten, c', hdecode, hrest, hoffset, hlength', ((htype _ _).mp htypeByte).2⟩

end JavaClass.StackFrame

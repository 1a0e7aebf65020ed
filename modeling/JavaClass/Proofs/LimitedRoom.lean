import JavaClass.Proofs.Encodable

/-!
# Writing with limited room

In a sink without a limit an encoder writes some bytes, and then it is done or has failed. With room
for fewer bytes it writes as many of these as fit and fails for want of room, whatever would have
come of it later; with room for all of them the limit makes no difference (`Writes.outcome_limited`,
and for classes `ClassFile.encode_limited`).

So it cannot be seen in how many pieces the bytes are handed over, nor that a payload is put together
in a sink of its own. An encoder that `Writes` is a single `bytes` and an ending.
-/

namespace JavaClass

namespace Encode

/-- The bytes that are in a sink after writing to it while it was empty, and what came of that. -/
def outcome (e : Encode) (room : Option Nat) : List UInt8 × Except Error Unit :=
  match e { room } with
  | .ok () s => (s.written.toList, .ok ())
  | .error err s => (s.written.toList, .error err)

/-- What an outcome turns into where there is room for some of the bytes only. -/
def limited (room : Nat) (o : List UInt8 × Except Error Unit) : List UInt8 × Except Error Unit :=
  if o.1.length ≤ room then o else (o.1.take room, .error .bufferFull)

/-- Succeeds or fails without writing anything. -/
def ending : Except Error Unit → Encode
  | .ok () => pure ()
  | .error err => throw err

variable {e : Encode} {fits : Prop} {out : List UInt8}

theorem throw_apply (err : Error) (s : Sink) : (throw err : Encode) s = .error err s := rfl

theorem outcome_bytes (bs : List UInt8) (r : Except Error Unit) :
    outcome (do bytes bs; ending r) none = (bs, r) := by
  cases r with
  | ok u => simp [outcome, bytes, ending, bind, EStateM.bind, pure, EStateM.pure]
  | error err => simp [outcome, bytes, ending, bind, EStateM.bind, throw_apply]

theorem outcome_bytes_limited (bs : List UInt8) (r : Except Error Unit) (room : Nat) :
    outcome (do bytes bs; ending r) (some room) = limited room (bs, r) := by
  by_cases hroom : bs.length ≤ room
  · cases r with
    | ok u => simp [outcome, bytes, ending, limited, hroom, bind, EStateM.bind, pure, EStateM.pure]
    | error err => simp [outcome, bytes, ending, limited, hroom, bind, EStateM.bind, throw_apply]
  · -- the ending is not reached
    simp [outcome, bytes, limited, hroom, bind, EStateM.bind]

theorem Writes.exists_ending (h : Writes e fits out) : ∃ bs r, e = (do bytes bs; ending r) := by
  by_cases hfits : fits
  · exact ⟨out, .ok (), (h.of_fits hfits).trans (bind_pure_unit).symm⟩
  · obtain ⟨pre, err, -, he⟩ := h.of_misfit hfits
    exact ⟨pre, .error err, he⟩

theorem Writes.outcome_limited (h : Writes e fits out) (room : Nat) :
    e.outcome (some room) = limited room (e.outcome none) := by
  obtain ⟨bs, r, rfl⟩ := h.exists_ending
  rw [outcome_bytes, outcome_bytes_limited]

/-- Limited writing succeeds where writing does and there is room for all the bytes. -/
theorem limited_snd_eq_ok_iff {room : Nat} {o : List UInt8 × Except Error Unit} :
    (limited room o).2 = .ok () ↔ o.2 = .ok () ∧ o.1.length ≤ room := by
  rw [limited]
  split
  · next hroom => exact (and_iff_left hroom).symm
  · next hroom => exact ⟨nofun, fun h => absurd h.2 hroom⟩

theorem run_eq_outcome (e : Encode) :
    e.run = (e.outcome none).2.map fun _ => (e.outcome none).1 := by
  rw [run, outcome, EStateM.run]
  cases e {} with
  | ok u s => rfl
  | error err s => rfl

theorem run_eq_ok_iff_outcome {bs : List UInt8} :
    e.run = .ok bs ↔ e.outcome none = (bs, .ok ()) := by
  rw [run_eq_outcome]
  obtain ⟨out, _ | u⟩ := e.outcome none <;> simp [Except.map]

end Encode

namespace ClassFile

open Encode

/-- With limited room, of what would be written of a class as much is written as fits. The outcome
is the same if that is all, and otherwise it is the room that is complained of. -/
theorem encode_limited (c : ClassFile) (room : Nat) :
    c.encode.outcome (some room) = limited room (c.encode.outcome none) ∧
      c.toBytes = (c.encode.outcome none).2.map (fun _ => (c.encode.outcome none).1) ∧
      ((c.encode.outcome (some room)).2 = .ok () ↔
        (∃ bytes, c.toBytes = .ok bytes) ∧ c.length ≤ room) := by
  have hlimited := c.writes_encode.outcome_limited room
  refine ⟨hlimited, run_eq_outcome c.encode, ?_⟩
  rw [hlimited, limited_snd_eq_ok_iff]
  have hlength (bytes : List UInt8) (h : c.toBytes = .ok bytes) :
      (c.encode.outcome none).1.length = c.length := by
    rw [run_eq_ok_iff_outcome.mp h, (toBytes_eq_ok_iff.mp h).2, length_layout]
  constructor
  · rintro ⟨hok, hroom⟩
    have hbytes : c.toBytes = .ok (c.encode.outcome none).1 :=
      run_eq_ok_iff_outcome.mpr (Prod.ext rfl hok)
    exact ⟨⟨_, hbytes⟩, hlength _ hbytes ▸ hroom⟩
  · rintro ⟨⟨bytes, hbytes⟩, hroom⟩
    rw [hlength bytes hbytes, run_eq_ok_iff_outcome.mp hbytes]
    exact ⟨rfl, hroom⟩

end ClassFile
end JavaClass

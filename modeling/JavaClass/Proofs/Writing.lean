import JavaClass.Proofs.Layout

/-!
# What writing comes to

Writing one string of bytes after another is writing them both at once (`Encode.bytes_append`), in a
sink of any size. So every encoder comes to one `bytes`, followed by a failure if some count did not
fit. `Encode.Writes e fits out` says so: where `fits` holds, `e` is the same as writing `out`, and
where it does not, `e` writes something and then fails because of a misfit.

`Writes` is closed under everything that encoders are built from, so each of them has one lemma about
it, and what the sink is like comes in only at the very end (`Writes.run_eq_ok_iff`).
-/

namespace JavaClass

/-- The errors for a count that does not fit its field or does not go with its range. -/
inductive Error.IsMisfit : Error → Prop
  | countOverflow (what : String) (count : Nat) : IsMisfit (.countOverflow what count)
  | offsetsOutsideRange {offsets : Nat} {low high : Int32}
    (h : Instruction.rangeSize low high ≠ offsets) :
    IsMisfit (.malformedInstruction Opcode.tableswitch.byte (.offsetsOutsideRange offsets low high))

namespace Encode

theorem bytes_nil : bytes [] = pure () := by
  funext s
  obtain ⟨written, _ | room⟩ := s <;> simp [bytes, pure, EStateM.pure]

private theorem append_append_list (written : Array UInt8) (as bs : List UInt8) :
    written ++ (as ++ bs) = written ++ as ++ bs :=
  Array.toList_inj.1 (by simp)

theorem bytes_append (as bs : List UInt8) :
    bytes (as ++ bs) = (do bytes as; bytes bs) := by
  funext s
  obtain ⟨written, _ | room⟩ := s
  · simp [bytes, bind, EStateM.bind, append_append_list]
  simp only [bytes, bind, EStateM.bind, List.length_append]
  by_cases ha : as.length ≤ room
  · have htake : (as ++ bs).take room = as ++ bs.take (room - as.length) := by
      rw [List.take_append, List.take_of_length_le ha]
    by_cases hb : bs.length ≤ room - as.length
    · have hab : as.length + bs.length ≤ room := by omega
      simp [ha, hb, hab, append_append_list, Nat.sub_sub]
    · have hab : ¬ as.length + bs.length ≤ room := by omega
      simp [ha, hb, hab, htake, append_append_list]
  · have hab : ¬ as.length + bs.length ≤ room := by omega
    simp [ha, hab, List.take_append_of_le_length (Nat.le_of_not_le ha)]

theorem run_bytes (bs : List UInt8) : (bytes bs).run = .ok bs := by
  simp [run, EStateM.run, bytes]

theorem run_bytes_throw (bs : List UInt8) (e : Error) :
    run (do bytes bs; throw e) = .error e := rfl

/-- Writes `out` if `fits`, and otherwise fails after writing something. -/
structure Writes (e : Encode) (fits : Prop) (out : List UInt8) : Prop where
  of_fits : fits → e = bytes out
  of_misfit : ¬ fits → ∃ pre err, err.IsMisfit ∧ e = (do bytes pre; throw err)

namespace Writes

variable {e e₁ e₂ : Encode} {f f₁ f₂ g : Prop} {out out₁ out₂ : List UInt8}

theorem congr (h : Writes e f out) (hf : f ↔ g) : Writes e g out := by
  rw [← hf]; exact h

protected theorem bytes (bs : List UInt8) : Writes (bytes bs) True bs :=
  ⟨fun _ => rfl, fun h => absurd trivial h⟩

protected theorem pure : Writes (pure ()) True [] :=
  ⟨fun _ => bytes_nil.symm, fun h => absurd trivial h⟩

protected theorem throw {err : Error} (h : err.IsMisfit) : Writes (throw err) False out :=
  ⟨False.elim, fun _ => ⟨[], err, h, by rw [bytes_nil, pure_bind]⟩⟩

theorem seq (h₁ : Writes e₁ f₁ out₁) (h₂ : Writes e₂ f₂ out₂) :
    Writes (do e₁; e₂) (f₁ ∧ f₂) (out₁ ++ out₂) := by
  refine ⟨fun ⟨hf₁, hf₂⟩ => ?_, fun hf => ?_⟩
  · rw [h₁.of_fits hf₁, h₂.of_fits hf₂, bytes_append]
  by_cases hf₁ : f₁
  · obtain ⟨pre, err, herr, he⟩ := h₂.of_misfit fun hf₂ => hf ⟨hf₁, hf₂⟩
    exact ⟨out₁ ++ pre, err, herr, by rw [h₁.of_fits hf₁, he, bytes_append, bind_assoc]⟩
  · -- what would follow the failure is never run
    obtain ⟨pre, err, herr, he⟩ := h₁.of_misfit hf₁
    refine ⟨pre, err, herr, ?_⟩
    rw [he, bind_assoc]
    rfl

/-- Bytes in front, which always fit. -/
theorem cons (h₁ : Writes e₁ True out₁) (h₂ : Writes e₂ f out₂) :
    Writes (do e₁; e₂) f (out₁ ++ out₂) :=
  (h₁.seq h₂).congr (by simp)

protected theorem ite {p : Prop} [Decidable p] {err : Error} (h : Writes e f out)
    (herr : err.IsMisfit) : Writes (if p then e else throw err) (p ∧ f) out := by
  split
  · next hp => exact h.congr (by simp [hp])
  · next hp => exact (Writes.throw herr).congr (by simp [hp])

theorem run_eq_ok_iff (h : Writes e f out) {bs : List UInt8} : e.run = .ok bs ↔ f ∧ bs = out := by
  by_cases hf : f
  · rw [h.of_fits hf, run_bytes, Except.ok.injEq]
    exact ⟨fun h => ⟨hf, h.symm⟩, fun h => h.2.symm⟩
  · obtain ⟨pre, err, -, he⟩ := h.of_misfit hf
    rw [he, run_bytes_throw]
    exact ⟨fun h => by simp at h, fun h => absurd h.1 hf⟩

theorem isMisfit_of_run (h : Writes e f out) {err : Error} (hrun : e.run = .error err) :
    err.IsMisfit := by
  by_cases hf : f
  · rw [h.of_fits hf, run_bytes] at hrun
    simp at hrun
  · obtain ⟨pre, err', herr, he⟩ := h.of_misfit hf
    rw [he, run_bytes_throw, Except.error.injEq] at hrun
    exact hrun ▸ herr

end Writes

/-! ### Numbers and lists -/

theorem writes_u8 (n : UInt8) : Writes (u8 n) True (Layout.u8 n) := .bytes _

theorem writes_u16 (n : UInt16) : Writes (u16 n) True (Layout.u16 n) := .bytes _

theorem writes_u32 (n : UInt32) : Writes (u32 n) True (Layout.u32 n) := .bytes _

theorem writes_i8 (n : Int8) : Writes (i8 n) True (Layout.i8 n) := .bytes _

theorem writes_i16 (n : Int16) : Writes (i16 n) True (Layout.i16 n) := .bytes _

theorem writes_i32 (n : Int32) : Writes (i32 n) True (Layout.i32 n) := .bytes _

theorem writes_count (width : Nat) (what : String) (n : Nat) :
    Writes (count width what n) (n < BigEndian.bound width) (BigEndian.encode width n) :=
  ((Writes.bytes _).ite (.countOverflow what n)).congr (by simp)

section

variable {α : Type} {item : α → Encode} {fits : α → Prop} {layout : α → List UInt8}

theorem writes_each (h : ∀ a, Writes (item a) (fits a) (layout a)) (as : List α) :
    Writes (each item as) (∀ a ∈ as, fits a) (as.flatMap layout) := by
  induction as with
  | nil => exact Writes.pure.congr (by simp)
  | cons a as ih => exact ((h a).seq ih).congr (by simp)

theorem writes_counted (what : String) (h : ∀ a, Writes (item a) (fits a) (layout a))
    (as : List α) :
    Writes (counted what item as) (as.length ≤ 65535 ∧ ∀ a ∈ as, fits a)
      (Layout.counted layout as) :=
  ((writes_count 2 what as.length).seq (writes_each h as)).congr
    (and_congr_left' Nat.lt_succ_iff)

/-- A list whose items always fit. -/
theorem writes_counted_of_forall (what : String) (h : ∀ a, Writes (item a) True (layout a))
    (as : List α) :
    Writes (counted what item as) (as.length ≤ 65535) (Layout.counted layout as) :=
  (writes_counted what h as).congr (by simp)

end

end Encode
end JavaClass

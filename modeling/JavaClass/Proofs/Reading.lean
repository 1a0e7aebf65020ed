import JavaClass.Proofs.Layout
import JavaClass.Reader

/-!
# What reading comes to

`Decode.ReadsAt kept c d R` says which values `d` reads at the cursor `c`, and from which bytes: `R`
relates a value to the bytes it is read from. It goes both ways. A value that is read is one that
`R` relates to the bytes it was read from, and whenever the unread bytes start with some that `R`
relates to a value, that value is read, whatever comes behind.

Reading leads past these bytes and no further, and what `kept` sees of the cursor stays as it is
(`Cursor.Past`). What reading depends on beside the bytes is the *context*. Only two things change
it: a constant that is added, and the code of a method, which has positions of its own.

`ReadsAt` is closed under everything that decoders are built from (`bind`, `times`, `counted`).
-/

namespace JavaClass

namespace Cursor

/-- What reading depends on, beside the bytes and where they start. -/
def context (c : Cursor) : Pool × Nat × UInt64 :=
  (c.pool, c.depth, c.codeStart)

/-- The context without what the code of a method sets for itself. -/
def outerContext (c : Cursor) : Pool × Nat :=
  (c.pool, c.depth)

variable {V W : Type} {kept : Cursor → V} {kept' : Cursor → W} {as bs : List UInt8}
  {c c₁ c₂ : Cursor}

/-- From `c`, reading `bs` leads to `c'`. -/
structure Past (kept : Cursor → V) (c : Cursor) (bs : List UInt8) (c' : Cursor) : Prop where
  unread : c.unread = bs ++ c'.unread
  offset : c'.offset = c.offset + bs.length
  kept : kept c' = kept c

namespace Past

theorem refl (c : Cursor) : Past kept c [] c :=
  ⟨rfl, rfl, rfl⟩

theorem trans (h₁ : Past kept c as c₁) (h₂ : Past kept c₁ bs c₂) : Past kept c (as ++ bs) c₂ where
  unread := by rw [h₁.unread, h₂.unread, List.append_assoc]
  offset := by rw [h₂.offset, h₁.offset, List.length_append, Nat.add_assoc]
  kept := h₂.kept.trans h₁.kept

theorem mono (h : Past kept c bs c₁) (hkept : kept c₁ = kept c → kept' c₁ = kept' c) :
    Past kept' c bs c₁ :=
  ⟨h.unread, h.offset, hkept h.kept⟩

end Past

theorem outerContext_of_context (h : c₁.context = c.context) : c₁.outerContext = c.outerContext :=
  congrArg (fun x => (x.1, x.2.1)) h

theorem pool_of_outerContext (h : c₁.outerContext = c.outerContext) : c₁.pool = c.pool :=
  congrArg (·.1) h

theorem depth_of_outerContext (h : c₁.outerContext = c.outerContext) : c₁.depth = c.depth :=
  congrArg (·.2) h

end Cursor

namespace Decode

variable {V W α β : Type} {kept : Cursor → V} {kept' : Cursor → W} {c : Cursor}

section

variable {d : Decode α} {f : α → Decode β} {c' : Cursor}

theorem bind_of_ok {a : α} (h : d c = .ok a c') : (d >>= f) c = f a c' := by
  show EStateM.bind d f c = _
  rw [EStateM.bind, h]

theorem bind_of_error {e : Error} (h : d c = .error e c') : (d >>= f) c = .error e c' := by
  show EStateM.bind d f c = _
  rw [EStateM.bind, h]

theorem outcome_of_ok {a : α} (h : d c = .ok a c') : outcome d c = (.ok a, c') := by
  rw [outcome, h]

theorem outcome_of_error {e : Error} (h : d c = .error e c') : outcome d c = (.error e, c') := by
  rw [outcome, h]

theorem outcome_bind_of_ok {a : α} (h : d c = .ok a c') :
    outcome (d >>= f) c = outcome (f a) c' := by
  rw [outcome, outcome, bind_of_ok h]

theorem bind_eq_ok {b : β} :
    (d >>= f) c = .ok b c' ↔ ∃ a c₁, d c = .ok a c₁ ∧ f a c₁ = .ok b c' := by
  cases hd : d c with
  | ok a c₁ =>
    rw [bind_of_ok hd]
    exact ⟨fun h => ⟨a, c₁, rfl, h⟩, by rintro ⟨_, _, ⟨⟩, h⟩; exact h⟩
  | error e c₁ =>
    rw [bind_of_error hd]
    exact ⟨nofun, by rintro ⟨_, _, ⟨⟩, _⟩⟩

theorem check_eq_ok {p : Prop} [Decidable p] {e : Error} {a : α} :
    (if p then throw e else d) c = .ok a c' ↔ ¬ p ∧ d c = .ok a c' := by
  split
  · next hp => exact ⟨nofun, fun h => absurd hp h.1⟩
  · next hp => exact (and_iff_right hp).symm

theorem lift_eq_ok {r : Except Error α} {a : α} : lift r c = .ok a c' ↔ r = .ok a ∧ c' = c := by
  cases r with
  | ok b =>
    constructor
    · rintro ⟨⟩
      exact ⟨rfl, rfl⟩
    · rintro ⟨⟨⟩, rfl⟩
      rfl
  | error e => exact ⟨nofun, nofun⟩

end

/-- The values that `d` reads at `c`, with the bytes they are read from. -/
structure ReadsAt (kept : Cursor → V) (c : Cursor) (d : Decode α) (R : α → List UInt8 → Prop) :
    Prop where
  sound : ∀ {a c'}, d c = .ok a c' → ∃ bs, R a bs ∧ c.Past kept bs c'
  complete : ∀ {a bs rest}, R a bs → c.unread = bs ++ rest →
    ∃ c', d c = .ok a c' ∧ c'.unread = rest

/-- What is read in two steps: first something that `R` knows, then what `S` knows once that is
there. -/
def Then {ι : Type} (R : α → List ι → Prop) (S : α → β → List ι → Prop) (b : β) (bs : List ι) :
    Prop :=
  ∃ a as cs, R a as ∧ S a b cs ∧ bs = as ++ cs

namespace ReadsAt

variable {d : Decode α} {f : α → Decode β} {R R' : α → List UInt8 → Prop}
  {S : α → β → List UInt8 → Prop}

theorem congr (h : ReadsAt kept c d R) (hR : ∀ a bs, R a bs ↔ R' a bs) : ReadsAt kept c d R' where
  sound hd := by
    obtain ⟨bs, ha, hpast⟩ := h.sound hd
    exact ⟨bs, (hR _ _).mp ha, hpast⟩
  complete ha := h.complete ((hR _ _).mpr ha)

theorem mono (h : ReadsAt kept c d R) (hkept : ∀ c', kept c' = kept c → kept' c' = kept' c) :
    ReadsAt kept' c d R where
  sound hd := by
    obtain ⟨bs, ha, hpast⟩ := h.sound hd
    exact ⟨bs, ha, hpast.mono (hkept _)⟩
  complete := h.complete

theorem outer (h : ReadsAt Cursor.context c d R) : ReadsAt Cursor.outerContext c d R :=
  h.mono fun _ => Cursor.outerContext_of_context

theorem kept_eq (h : ReadsAt kept c d R) {a : α} {c' : Cursor} (hd : d c = .ok a c') :
    kept c' = kept c := by
  obtain ⟨_, -, hpast⟩ := h.sound hd
  exact hpast.kept

theorem pool_eq (h : ReadsAt Cursor.outerContext c d R) {a : α} {c' : Cursor}
    (hd : d c = .ok a c') : c'.pool = c.pool :=
  Cursor.pool_of_outerContext (h.kept_eq hd)

/-- What is read when the bytes of some value come next: that value, and no other bytes. -/
theorem exists_past (h : ReadsAt kept c d R) {a : α} {bs rest : List UInt8} (ha : R a bs)
    (hc : c.unread = bs ++ rest) : ∃ c', d c = .ok a c' ∧ c'.unread = rest ∧ c.Past kept bs c' := by
  obtain ⟨c', hd, hc'⟩ := h.complete ha hc
  obtain ⟨bs', -, hpast⟩ := h.sound hd
  -- it is the same bytes that were read, since the same are left
  have hbs : bs' = bs := by
    have hunread := hpast.unread
    rw [hc, hc'] at hunread
    exact (List.append_cancel_right hunread).symm
  exact ⟨c', hd, hc', hbs ▸ hpast⟩

theorem depth (h : ReadsAt Cursor.outerContext c d R) : ReadsAt Cursor.depth c d R :=
  h.mono fun _ => Cursor.depth_of_outerContext

protected theorem pure (a : α) : ReadsAt kept c (pure a) fun b bs => b = a ∧ bs = [] where
  sound hd := by
    cases hd
    exact ⟨[], ⟨rfl, rfl⟩, .refl c⟩
  complete ha hc := by
    obtain ⟨rfl, rfl⟩ := ha
    exact ⟨c, rfl, hc⟩

protected theorem throw (e : Error) :
    ReadsAt kept c (throw e : Decode α) fun _ _ => False where
  sound hd := nomatch hd
  complete ha := ha.elim

/-- Nothing is read where a check fails. -/
theorem check {p : Prop} [Decidable p] (e : Error) (h : ReadsAt kept c d R) :
    ReadsAt kept c (if p then throw e else d) fun a bs => ¬ p ∧ R a bs := by
  split
  · next hp => exact (ReadsAt.throw e).congr fun a bs => by simp [hp]
  · next hp => exact h.congr fun a bs => by simp [hp]

theorem bind_of_ok (h : ReadsAt kept c d R)
    (hf : ∀ a bs c', d c = .ok a c' → R a bs → c.Past kept bs c' →
      ReadsAt kept c' (f a) (S a)) :
    ReadsAt kept c (d >>= f) (Then R S) where
  sound hd := by
    obtain ⟨a, c₁, hd, hfa⟩ := bind_eq_ok.mp hd
    obtain ⟨as, ha, hpast₁⟩ := h.sound hd
    obtain ⟨cs, hb, hpast₂⟩ := (hf a as c₁ hd ha hpast₁).sound hfa
    exact ⟨as ++ cs, ⟨a, as, cs, ha, hb, rfl⟩, hpast₁.trans hpast₂⟩
  complete := by
    rintro b _ rest ⟨a, as, cs, ha, hb, rfl⟩ hc
    rw [List.append_assoc] at hc
    obtain ⟨c₁, hd, hc₁, hpast⟩ := h.exists_past ha hc
    obtain ⟨c₂, hfa, hc₂⟩ := (hf a as c₁ hd ha hpast).complete hb hc₁
    exact ⟨c₂, bind_eq_ok.mpr ⟨a, c₁, hd, hfa⟩, hc₂⟩

theorem bind (h : ReadsAt kept c d R)
    (hf : ∀ a bs c', R a bs → c.Past kept bs c' → ReadsAt kept c' (f a) (S a)) :
    ReadsAt kept c (d >>= f) (Then R S) :=
  h.bind_of_ok fun a bs c' _ => hf a bs c'

/-- The result is changed after reading. -/
theorem map (h : ReadsAt kept c d R) (g : α → β) :
    ReadsAt kept c (do return g (← d)) fun b bs => ∃ a, b = g a ∧ R a bs := by
  refine (h.bind (S := fun a b cs => b = g a ∧ cs = []) fun a bs c' _ _ => .pure (g a)).congr ?_
  rintro b bs
  constructor
  · rintro ⟨a, as, cs, ha, ⟨hb, rfl⟩, rfl⟩
    exact ⟨a, hb, by rwa [List.append_nil]⟩
  · rintro ⟨a, hb, ha⟩
    exact ⟨a, bs, [], ha, ⟨hb, rfl⟩, (List.append_nil bs).symm⟩

end ReadsAt

/-! ### Bytes and numbers -/

theorem bytes_of_le {n : Nat} (h : n ≤ c.unread.length) :
    bytes n c = .ok (c.unread.take n)
      { c with unread := c.unread.drop n, offset := c.offset + n } := by
  have hlength : (c.unread.take n).length = n := List.length_take_of_le h
  simp only [bytes, List.splitAt_eq, if_pos hlength]

theorem bytes_of_lt {n : Nat} (h : c.unread.length < n) :
    bytes n c = .error .unexpectedEnd { c with unread := [] } := by
  have hlength : (c.unread.take n).length ≠ n := by
    rw [List.length_take]
    omega
  simp only [bytes, List.splitAt_eq, if_neg hlength]

theorem reads_bytes (n : Nat) (c : Cursor) :
    ReadsAt Cursor.context c (bytes n) fun taken bs => bs.length = n ∧ taken = bs where
  sound {taken c'} hd := by
    simp only [bytes, List.splitAt_eq] at hd
    split at hd
    · next hlength =>
      cases hd
      refine ⟨_, ⟨hlength, rfl⟩, ?_, ?_, rfl⟩
      · exact (List.take_append_drop n c.unread).symm
      · rw [hlength]
    · cases hd
  complete := by
    rintro taken _ rest ⟨rfl, rfl⟩ hc
    refine ⟨{ c with unread := rest, offset := c.offset + taken.length }, ?_, rfl⟩
    simp [bytes, List.splitAt_eq, hc]

theorem reads_number (width : Nat) (c : Cursor) :
    ReadsAt Cursor.context c (number width) fun n bs =>
      n < BigEndian.bound width ∧ bs = BigEndian.encode width n := by
  refine ((reads_bytes width c).map BigEndian.decode).congr fun n bs => ?_
  constructor
  · rintro ⟨_, rfl, rfl, rfl⟩
    exact ⟨BigEndian.decode_lt _, (BigEndian.encode_decode _).symm⟩
  · rintro ⟨hn, rfl⟩
    refine ⟨_, ?_, BigEndian.length_encode .., rfl⟩
    rw [BigEndian.decode_encode, Nat.mod_eq_of_lt hn]

theorem reads_u8 (c : Cursor) : ReadsAt Cursor.context c u8 fun n bs => bs = Layout.u8 n := by
  refine ((reads_number 1 c).map Nat.toUInt8).congr fun n bs => ?_
  constructor
  · rintro ⟨m, rfl, hm, rfl⟩
    rw [Layout.u8, Nat.toUInt8_eq, UInt8.toNat_ofNat_of_lt' hm]
  · rintro rfl
    exact ⟨n.toNat, UInt8.ofNat_toNat.symm, n.toNat_lt, rfl⟩

theorem reads_u16 (c : Cursor) : ReadsAt Cursor.context c u16 fun n bs => bs = Layout.u16 n := by
  refine ((reads_number 2 c).map Nat.toUInt16).congr fun n bs => ?_
  constructor
  · rintro ⟨m, rfl, hm, rfl⟩
    rw [Layout.u16, Nat.toUInt16_eq, UInt16.toNat_ofNat_of_lt' hm]
  · rintro rfl
    exact ⟨n.toNat, UInt16.ofNat_toNat.symm, n.toNat_lt, rfl⟩

theorem reads_u32 (c : Cursor) : ReadsAt Cursor.context c u32 fun n bs => bs = Layout.u32 n := by
  refine ((reads_number 4 c).map Nat.toUInt32).congr fun n bs => ?_
  constructor
  · rintro ⟨m, rfl, hm, rfl⟩
    rw [Layout.u32, Nat.toUInt32_eq, UInt32.toNat_ofNat_of_lt' hm]
  · rintro rfl
    exact ⟨n.toNat, UInt32.ofNat_toNat.symm, n.toNat_lt, rfl⟩

theorem reads_i8 (c : Cursor) : ReadsAt Cursor.context c i8 fun n bs => bs = Layout.i8 n := by
  refine ((reads_u8 c).map UInt8.toInt8).congr fun n bs => ⟨?_, fun h => ⟨n.toUInt8, ?_, h⟩⟩
  · rintro ⟨m, rfl, h⟩
    exact h
  · exact (Int8.toInt8_toUInt8 n).symm

theorem reads_i16 (c : Cursor) : ReadsAt Cursor.context c i16 fun n bs => bs = Layout.i16 n := by
  refine ((reads_u16 c).map UInt16.toInt16).congr fun n bs => ⟨?_, fun h => ⟨n.toUInt16, ?_, h⟩⟩
  · rintro ⟨m, rfl, h⟩
    exact h
  · exact (Int16.toInt16_toUInt16 n).symm

theorem reads_i32 (c : Cursor) : ReadsAt Cursor.context c i32 fun n bs => bs = Layout.i32 n := by
  refine ((reads_u32 c).map UInt32.toInt32).congr fun n bs => ⟨?_, fun h => ⟨n.toUInt32, ?_, h⟩⟩
  · rintro ⟨m, rfl, h⟩
    exact h
  · exact (Int32.toInt32_toUInt32 n).symm

/-- One after the other, each read without a condition. -/
theorem reads_both {γ : Type} {d₁ : Decode α} {d₂ : Decode β} {layout₁ : α → List UInt8}
    {layout₂ : β → List UInt8} (h₁ : ∀ c, ReadsAt Cursor.context c d₁ fun a bs => bs = layout₁ a)
    (h₂ : ∀ c, ReadsAt Cursor.context c d₂ fun b bs => bs = layout₂ b) (make : α → β → γ)
    (c : Cursor) :
    ReadsAt Cursor.context c (do return make (← d₁) (← d₂)) fun k bs =>
      ∃ a b, k = make a b ∧ bs = layout₁ a ++ layout₂ b := by
  refine ((h₁ c).bind fun a _ c _ _ => (h₂ c).map (make a)).congr fun k bs => ?_
  constructor
  · rintro ⟨a, _, _, rfl, ⟨b, rfl, rfl⟩, rfl⟩
    exact ⟨a, b, rfl, rfl⟩
  · rintro ⟨a, b, rfl, rfl⟩
    exact ⟨a, _, _, rfl, ⟨b, rfl, rfl⟩, rfl⟩

/-! ### Stored counts -/

section

variable {S : Nat → β → List UInt8 → Prop} {b : β} {bs : List UInt8}

private theorem then_number_iff {N : Type} {width : Nat} (toNat : N → Nat)
    (hlt : ∀ n, toNat n < BigEndian.bound width)
    (hstored : ∀ m < BigEndian.bound width, ∃ n, toNat n = m) :
    Then (fun n bs => bs = BigEndian.encode width (toNat n)) (fun n => S (toNat n)) b bs ↔
      ∃ m < BigEndian.bound width, ∃ cs, S m b cs ∧ bs = BigEndian.encode width m ++ cs := by
  constructor
  · rintro ⟨n, _, cs, rfl, hb, rfl⟩
    exact ⟨toNat n, hlt n, cs, hb, rfl⟩
  · rintro ⟨m, hm, cs, hb, rfl⟩
    obtain ⟨n, rfl⟩ := hstored m hm
    exact ⟨n, _, cs, rfl, hb, rfl⟩

/-- A count that comes first is any number that fits the bytes it is stored in. -/
theorem then_u8_iff : Then (fun n bs => bs = Layout.u8 n) (fun n => S n.toNat) b bs ↔
    ∃ n ≤ 255, ∃ cs, S n b cs ∧ bs = BigEndian.encode 1 n ++ cs := by
  simp only [← Nat.lt_succ_iff]
  exact then_number_iff UInt8.toNat UInt8.toNat_lt fun m hm =>
    ⟨UInt8.ofNat m, UInt8.toNat_ofNat_of_lt' hm⟩

theorem then_u16_iff : Then (fun n bs => bs = Layout.u16 n) (fun n => S n.toNat) b bs ↔
    ∃ n ≤ 65535, ∃ cs, S n b cs ∧ bs = BigEndian.encode 2 n ++ cs := by
  simp only [← Nat.lt_succ_iff]
  exact then_number_iff UInt16.toNat UInt16.toNat_lt fun m hm =>
    ⟨UInt16.ofNat m, UInt16.toNat_ofNat_of_lt' hm⟩

theorem then_u32_iff : Then (fun n bs => bs = Layout.u32 n) (fun n => S n.toNat) b bs ↔
    ∃ n ≤ 0xffffffff, ∃ cs, S n b cs ∧ bs = BigEndian.encode 4 n ++ cs := by
  simp only [← Nat.lt_succ_iff]
  exact then_number_iff UInt32.toNat UInt32.toNat_lt fun m hm =>
    ⟨UInt32.ofNat m, UInt32.toNat_ofNat_of_lt' hm⟩

end

/-! ### Looking around -/

theorem reads_report (event : Event) (c : Cursor) :
    ReadsAt Cursor.context c (report event) fun _ bs => bs = [] where
  sound hd := by
    cases hd
    exact ⟨[], rfl, rfl, rfl, rfl⟩
  complete := by
    rintro a _ rest rfl hc
    exact ⟨_, rfl, hc⟩

theorem reads_lift (r : Except Error α) (c : Cursor) :
    ReadsAt kept c (lift r) fun a bs => r = .ok a ∧ bs = [] := by
  cases r with
  | ok a => exact (ReadsAt.pure a).congr fun b bs => by rw [Except.ok.injEq, eq_comm]
  | error e => exact (ReadsAt.throw e).congr fun b bs => by simp

theorem ReadsAt.get_bind {f : Cursor → Decode β} {R : β → List UInt8 → Prop}
    (h : ReadsAt kept c (f c) R) : ReadsAt kept c (get >>= f) R :=
  ⟨h.sound, h.complete⟩

theorem ReadsAt.modify_bind {g : Cursor → Cursor} {f : Unit → Decode β}
    {R : β → List UInt8 → Prop} (hg : c.Past kept [] (g c)) (h : ReadsAt kept (g c) (f ()) R) :
    ReadsAt kept c (modify g >>= f) R where
  sound hd := by
    obtain ⟨bs, hb, hpast⟩ := h.sound hd
    exact ⟨bs, hb, hg.trans hpast⟩
  complete hb hc := h.complete hb (by rw [← hc, hg.unread, List.nil_append])

theorem ReadsAt.pool_bind {f : Pool → Decode β} {R : β → List UInt8 → Prop}
    (h : ReadsAt kept c (f c.pool) R) : ReadsAt kept c (pool >>= f) R :=
  ⟨h.sound, h.complete⟩

theorem ReadsAt.offset_bind {f : Nat → Decode β} {R : β → List UInt8 → Prop}
    (h : ReadsAt kept c (f c.offset) R) : ReadsAt kept c (offset >>= f) R :=
  ⟨h.sound, h.complete⟩

theorem nested_of_ok {d : Decode α} {a : α} {c' : Cursor}
    (h : d { c with depth := c.depth + 1 } = .ok a c') :
    nested d c = .ok a { c' with depth := c'.depth - 1 } := by
  rw [nested, h]

theorem nested_of_error {d : Decode α} {e : Error} {c' : Cursor}
    (h : d { c with depth := c.depth + 1 } = .error e c') :
    nested d c = .error e { c' with depth := c'.depth - 1 } := by
  rw [nested, h]

/-- Being inside of one more attribute is over when that has been read. -/
theorem ReadsAt.nested {d : Decode α} {R : α → List UInt8 → Prop}
    (h : ReadsAt Cursor.outerContext { c with depth := c.depth + 1 } d R) :
    ReadsAt Cursor.outerContext c (Decode.nested d) R where
  sound {a c'} hnested := by
    cases hd : d { c with depth := c.depth + 1 } with
    | ok a₁ c₁ =>
      rw [nested_of_ok hd] at hnested
      cases hnested
      obtain ⟨bs, ha, hpast⟩ := h.sound hd
      refine ⟨bs, ha, hpast.unread, hpast.offset, ?_⟩
      have hkept := Prod.mk.inj hpast.kept
      rw [Cursor.outerContext, Cursor.outerContext, hkept.1, hkept.2, Nat.add_sub_cancel]
    | error e c₁ =>
      rw [nested_of_error hd] at hnested
      cases hnested
  complete ha hc := by
    obtain ⟨c₁, hd, hc₁⟩ := h.complete ha hc
    exact ⟨_, nested_of_ok hd, hc₁⟩

/-! ### Lists -/

section

variable {item : Decode α} {P : α → Prop} {layout : α → List UInt8}

theorem go_eq (item : Decode α) (n : Nat) (taken : List α) :
    times.go item n taken = (do return taken.reverse ++ (← times.go item n [])) := by
  induction n generalizing taken with
  | zero => simp [times.go]
  | succ n ih =>
    simp only [times.go]
    rw [bind_assoc]
    refine bind_congr fun a => ?_
    rw [ih (a :: taken), ih [a], bind_assoc]
    simp

theorem times_zero (item : Decode α) : times 0 item = pure [] := rfl

theorem times_succ (n : Nat) (item : Decode α) :
    times (n + 1) item = (do let a ← item; let as ← times n item; return a :: as) := by
  show times.go item (n + 1) [] = _
  rw [times.go]
  refine bind_congr fun a => ?_
  rw [go_eq]
  rfl

/-- The items are all read in the same surroundings. -/
theorem ReadsAt.times
    (h : ∀ c', kept c' = kept c → ReadsAt kept c' item fun a bs => P a ∧ bs = layout a) (n : Nat) :
    ReadsAt kept c (times n item) fun as bs =>
      as.length = n ∧ (∀ a ∈ as, P a) ∧ bs = as.flatMap layout := by
  induction n generalizing c with
  | zero =>
    rw [times_zero]
    refine (ReadsAt.pure []).congr fun as bs => ?_
    constructor
    · rintro ⟨rfl, rfl⟩
      exact ⟨rfl, nofun, rfl⟩
    · rintro ⟨hlength, -, rfl⟩
      obtain rfl := List.eq_nil_of_length_eq_zero hlength
      exact ⟨rfl, rfl⟩
  | succ n ih =>
    rw [times_succ]
    refine ((h c rfl).bind fun a bs c₁ ha hpast =>
      (ih fun c' hc' => h c' (hc'.trans hpast.kept)).map (a :: ·)).congr fun as bs => ?_
    constructor
    · rintro ⟨a, _, _, ⟨ha, rfl⟩, ⟨as, rfl, hlength, has, rfl⟩, rfl⟩
      exact ⟨congrArg (· + 1) hlength, List.forall_mem_cons.mpr ⟨ha, has⟩, rfl⟩
    · rintro ⟨hlength, has, rfl⟩
      obtain ⟨a, as, rfl⟩ := List.exists_cons_of_length_eq_add_one hlength
      obtain ⟨ha, has⟩ := List.forall_mem_cons.mp has
      exact ⟨a, _, _, ⟨ha, rfl⟩, ⟨as, rfl, Nat.succ.inj hlength, has, rfl⟩, rfl⟩

theorem ReadsAt.counted (hu16 : ReadsAt kept c u16 fun n bs => bs = Layout.u16 n)
    (h : ∀ c', kept c' = kept c → ReadsAt kept c' item fun a bs => P a ∧ bs = layout a) :
    ReadsAt kept c (counted item) fun as bs =>
      (as.length ≤ 65535 ∧ ∀ a ∈ as, P a) ∧ bs = Layout.counted layout as := by
  refine (hu16.bind fun n bs c₁ hn hpast =>
    ReadsAt.times (fun c' hc' => h c' (hc'.trans hpast.kept)) n.toNat).congr fun as bs => ?_
  refine (then_u16_iff
    (S := fun n (as : List α) bs => as.length = n ∧ (∀ a ∈ as, P a) ∧ bs = as.flatMap layout)).trans ?_
  constructor
  · rintro ⟨_, hlength, _, ⟨rfl, has, rfl⟩, rfl⟩
    exact ⟨⟨hlength, has⟩, rfl⟩
  · rintro ⟨⟨hlength, has⟩, rfl⟩
    exact ⟨_, hlength, _, ⟨rfl, has, rfl⟩, rfl⟩

theorem reads_times (h : ∀ c, ReadsAt Cursor.context c item fun a bs => P a ∧ bs = layout a)
    (n : Nat) (c : Cursor) :
    ReadsAt Cursor.context c (Decode.times n item) fun as bs =>
      as.length = n ∧ (∀ a ∈ as, P a) ∧ bs = as.flatMap layout :=
  .times (fun c' _ => h c') n

theorem reads_counted (h : ∀ c, ReadsAt Cursor.context c item fun a bs => P a ∧ bs = layout a)
    (c : Cursor) :
    ReadsAt Cursor.context c (Decode.counted item) fun as bs =>
      (as.length ≤ 65535 ∧ ∀ a ∈ as, P a) ∧ bs = Layout.counted layout as :=
  .counted (reads_u16 c) fun c' _ => h c'

/-- A list whose items are read without a condition. -/
theorem reads_times_of_forall (h : ∀ c, ReadsAt Cursor.context c item fun a bs => bs = layout a)
    (n : Nat) (c : Cursor) :
    ReadsAt Cursor.context c (Decode.times n item) fun as bs =>
      as.length = n ∧ bs = as.flatMap layout := by
  have hitem : ∀ c, ReadsAt Cursor.context c item fun a bs => True ∧ bs = layout a :=
    fun c => (h c).congr (by simp)
  exact (reads_times hitem n c).congr (by simp)

theorem reads_counted_of_forall (h : ∀ c, ReadsAt Cursor.context c item fun a bs => bs = layout a)
    (c : Cursor) :
    ReadsAt Cursor.context c (Decode.counted item) fun as bs =>
      as.length ≤ 65535 ∧ bs = Layout.counted layout as := by
  have hitem : ∀ c, ReadsAt Cursor.context c item fun a bs => True ∧ bs = layout a :=
    fun c => (h c).congr (by simp)
  exact (reads_counted hitem c).congr (by simp)

end

end Decode
end JavaClass

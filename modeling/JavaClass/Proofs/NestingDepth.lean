import JavaClass.Proofs.Congruence
import JavaClass.Proofs.RoundTrip

/-!
# The limit on nesting

Of the options, `maxDepth` is there to bound the recursion and for nothing else. For all bytes there
is a number of levels, which the bytes themselves bound, such that with a lower limit it is the
limit that stops the reading, and with any other limit reading comes to the same, whether it
succeeds or not (`decode_threshold`).

How deep attributes are in a class that was read follows from what is regular
(`ClassFile.depth_le_of_decode`). The limit holds for all attributes whose names are known. One that
is unknown is returned before the limit is looked at, so it may be one level deeper.

A `Threshold` is a property of runs under all limits at once. It goes through `bind`, where the
higher of two thresholds counts. What is read beside attributes does not depend on the limit
(`Decode.Plain`). The bound comes from the bytes that a level takes: 6 in front of every payload,
and another 12 in code before the first attribute.
-/

namespace JavaClass

open Decode

/-- At this depth, with at least `used` of `total` bytes read. -/
structure Cursor.Used (total depth used : Nat) (c : Cursor) : Prop where
  depth_eq : c.depth = depth
  used_le : used + c.unread.length ≤ total

variable {α β : Type} {total depth used n : Nat} {c s : Cursor}

theorem Cursor.Used.read {d : Decode α} {R : α → List UInt8 → Prop} {a : α}
    (hc : c.Used total depth used) (h : ReadsAt Cursor.outerContext c d R) (hd : d c = .ok a s)
    (hn : ∀ bs, R a bs → n ≤ bs.length) : s.Used total depth (used + n) := by
  obtain ⟨bs, ha, hpast⟩ := h.sound hd
  have hlength := congrArg List.length hpast.unread
  have hle := hn bs ha
  have hused := hc.used_le
  rw [List.length_append] at hlength
  exact ⟨(Cursor.depth_of_outerContext hpast.kept).trans hc.depth_eq, by omega⟩

namespace Decode

/-! ### Beside attributes -/

/-- Reading that stays at its depth and does not complain of it. -/
structure Plain (d : Decode α) : Prop where
  stays : ∀ {c a s}, d c = .ok a s → s.depth = c.depth ∧ s.unread.length ≤ c.unread.length
  not_tooDeep : ∀ c limit s, d c ≠ .error (.nestedTooDeep limit) s

namespace Plain

variable {d : Decode α} {f : α → Decode β}

theorem used_of_ok {a : α} (h : Plain d) (hc : c.Used total depth used) (hd : d c = .ok a s) :
    s.Used total depth used := by
  obtain ⟨hdepth, hlength⟩ := h.stays hd
  have hused := hc.used_le
  exact ⟨hdepth.trans hc.depth_eq, by omega⟩

protected theorem pure (a : α) : Plain (pure a) where
  stays hd := by
    cases hd
    exact ⟨rfl, Nat.le_refl _⟩
  not_tooDeep := nofun

protected theorem bind (h : Plain d) (hf : ∀ a, Plain (f a)) : Plain (d >>= f) where
  stays {c b t} hb := by
    obtain ⟨a, s, hd, hfa⟩ := bind_eq_ok.mp hb
    obtain ⟨hdepth, hlength⟩ := h.stays hd
    obtain ⟨hdepth', hlength'⟩ := (hf a).stays hfa
    exact ⟨hdepth'.trans hdepth, Nat.le_trans hlength' hlength⟩
  not_tooDeep c limit t hbind := by
    cases hd : d c with
    | ok a s =>
      rw [bind_of_ok hd] at hbind
      exact (hf a).not_tooDeep s limit t hbind
    | error e s =>
      rw [bind_of_error hd] at hbind
      cases hbind
      exact h.not_tooDeep c limit t hd

protected theorem bytes (n : Nat) : Plain (bytes n) where
  stays {c taken s} hd := by
    obtain ⟨bs, -, hpast⟩ := (reads_bytes n c).sound hd
    have hlength := congrArg List.length hpast.unread
    rw [List.length_append] at hlength
    exact ⟨congrArg (·.2.1) hpast.kept, by omega⟩
  not_tooDeep c limit s hd := by
    simp only [Decode.bytes] at hd
    split at hd <;> cases hd

theorem get_bind {f : Cursor → Decode β} (h : ∀ c, Plain (f c)) : Plain (get >>= f) :=
  ⟨fun {c} => (h c).stays, fun c => (h c).not_tooDeep c⟩

/-- A change of the cursor that leaves its depth and what is unread. -/
theorem modify {g : Cursor → Cursor} (hdepth : ∀ c, (g c).depth = c.depth)
    (hunread : ∀ c, (g c).unread = c.unread) : Plain (modify g) where
  stays {c _ _} hd := by
    cases hd
    exact ⟨hdepth c, Nat.le_of_eq (congrArg List.length (hunread c))⟩
  not_tooDeep := nofun

end Plain

def plainLaw : Law where
  holds := Plain
  pure := .pure
  throw e he := ⟨nofun, by rintro c limit _ ⟨⟩; exact he (.nestedTooDeep limit)⟩
  bind := .bind
  bytes := .bytes
  get_bind := .get_bind
  report _ := .modify (fun _ => rfl) fun _ => rfl

def plain : Congruence :=
  plainLaw.congruence

theorem plain_codeBlock : Plain CodeBlock.decode :=
  plain.codeBlock (plain.decodeCode plainLaw.padding (.modify (fun _ => rfl) fun _ => rfl))

theorem plain_pool : Plain Pool.decode :=
  plain.poolDecode fun _ => .modify (fun _ => rfl) fun _ => rfl

end Decode

/-! ### Thresholds -/

/-- From some limit on it makes no difference what the limit is, and a lower one is exceeded. As
many levels as that take 18 bytes each. -/
def Threshold (bytes : Nat) (run : (limit : Nat) → EStateM.Result Error Cursor α) : Prop :=
  ∃ k result, 18 * k ≤ bytes ∧ (∀ limit s, result ≠ .error (.nestedTooDeep limit) s) ∧
    (∀ limit, k ≤ limit → run limit = result) ∧
      ∀ limit < k, ∃ s, run limit = .error (.nestedTooDeep limit) s

namespace Threshold

variable {d : Nat → Decode α} {f : Nat → α → Decode β}

theorem mono {m : Nat} {run : Nat → EStateM.Result Error Cursor α} (h : Threshold n run)
    (hle : n ≤ m) : Threshold m run := by
  obtain ⟨k, result, hk, hrest⟩ := h
  exact ⟨k, result, Nat.le_trans hk hle, hrest⟩

/-- What does not depend on the limit. -/
theorem plain {d : Decode α} (h : Plain d) : Threshold n fun _ => d c :=
  ⟨0, d c, Nat.zero_le n, h.not_tooDeep c, fun _ _ => rfl, nofun⟩

theorem bind (h : Threshold n fun limit => d limit c)
    (hf : ∀ limit a s, d limit c = .ok a s → Threshold n fun limit => f limit a s) :
    Threshold n fun limit => (d limit >>= f limit) c := by
  obtain ⟨k, result, hk, hresult, habove, hbelow⟩ := h
  have hexceeded (limit : Nat) (hlimit : limit < k) :
      ∃ s, (d limit >>= f limit) c = .error (.nestedTooDeep limit) s := by
    obtain ⟨s, hs⟩ := hbelow limit hlimit
    exact ⟨s, bind_of_error hs⟩
  cases result with
  | error e s =>
    refine ⟨k, .error e s, hk, ?_, fun limit hlimit => bind_of_error (habove limit hlimit),
      hexceeded⟩
    rintro limit s' ⟨⟩
    exact hresult limit s rfl
  | ok a s =>
    have hbind (limit : Nat) (hlimit : k ≤ limit) : (d limit >>= f limit) c = f limit a s :=
      bind_of_ok (habove limit hlimit)
    obtain ⟨k', result', hk', hresult', habove', hbelow'⟩ := hf k a s (habove k (Nat.le_refl k))
    -- a limit between both is not exceeded before the second step
    refine ⟨max k k', result', by omega, hresult', fun limit hlimit => ?_, fun limit hlimit => ?_⟩
    · exact (hbind limit (by omega)).trans (habove' limit (by omega))
    · by_cases hfirst : limit < k
      · exact hexceeded limit hfirst
      · obtain ⟨t, ht⟩ := hbelow' limit (by omega)
        exact ⟨t, (hbind limit (by omega)).trans ht⟩

/-- The first step does not depend on the limit. -/
theorem bind_plain {d : Decode α} (h : Plain d) (hc : c.Used total depth used)
    (hf : ∀ a s, s.Used total depth used → Threshold n fun limit => f limit a s) :
    Threshold n fun limit => (d >>= f limit) c :=
  .bind (.plain h) fun _ a s hd => hf a s (h.used_of_ok hc hd)

/-- The first step takes at least `m` bytes. -/
theorem bind_reads {d : Decode α} {R : α → List UInt8 → Prop} {m : Nat} (h : Plain d)
    (hreads : ReadsAt Cursor.outerContext c d R) (hm : ∀ a bs, R a bs → m ≤ bs.length)
    (hc : c.Used total depth used)
    (hf : ∀ a s, s.Used total depth (used + m) → Threshold n fun limit => f limit a s) :
    Threshold n fun limit => (d >>= f limit) c :=
  .bind (.plain h) fun _ a s hd => hf a s (hc.read hreads hd (hm a))

theorem check {p : Prop} [Decidable p] {e : Error} (he : ¬ e.AtLimit)
    (h : Threshold n fun limit => d limit c) :
    Threshold n fun limit => (if p then throw e else d limit : Decode α) c := by
  by_cases hp : p
  · simp only [if_pos hp]
    exact .plain (Decode.plain.throw e he)
  · simp only [if_neg hp]
    exact h

theorem bind_u16 {f : Nat → UInt16 → Decode β} (hc : c.Used total depth used)
    (hf : ∀ a s, s.Used total depth (used + 2) → Threshold n fun limit => f limit a s) :
    Threshold n fun limit => (u16 >>= f limit) c := by
  refine .bind_reads Decode.plain.u16 (reads_u16 c).outer (fun a bs hbs => ?_) hc hf
  exact Nat.le_of_eq (by rw [hbs, Layout.length_u16])

theorem bind_u32 {f : Nat → UInt32 → Decode β} (hc : c.Used total depth used)
    (hf : ∀ a s, s.Used total depth (used + 4) → Threshold n fun limit => f limit a s) :
    Threshold n fun limit => (u32 >>= f limit) c := by
  refine .bind_reads Decode.plain.u32 (reads_u32 c).outer (fun a bs hbs => ?_) hc hf
  exact Nat.le_of_eq (by rw [hbs, Layout.length_u32])

/-- A limit that is not above `depth` is exceeded. -/
theorem above (depth : Nat) {run run' : Nat → EStateM.Result Error Cursor α} (h : Threshold n run)
    (hn : 18 * (depth + 1) ≤ n) (habove' : ∀ limit, depth < limit → run' limit = run limit)
    (hbelow' : ∀ limit ≤ depth, ∃ s, run' limit = .error (.nestedTooDeep limit) s) :
    Threshold n run' := by
  obtain ⟨k, result, hk, hresult, habove, hbelow⟩ := h
  refine ⟨max k (depth + 1), result, by omega, hresult, fun limit hlimit => ?_,
    fun limit hlimit => ?_⟩
  · rw [habove' limit (by omega), habove limit (by omega)]
  · by_cases hdepth : limit ≤ depth
    · exact hbelow' limit hdepth
    · rw [habove' limit (by omega)]
      exact hbelow limit (by omega)

theorem nested (h : Threshold n fun limit => d limit { c with depth := c.depth + 1 }) :
    Threshold n fun limit => Decode.nested (d limit) c := by
  obtain ⟨k, result, hk, hresult, habove, hbelow⟩ := h
  have hexceeded (limit : Nat) (hlimit : limit < k) :
      ∃ s, Decode.nested (d limit) c = .error (.nestedTooDeep limit) s := by
    obtain ⟨s, hs⟩ := hbelow limit hlimit
    exact ⟨_, nested_of_error hs⟩
  cases result with
  | ok a s =>
    refine ⟨k, _, hk, ?_, fun limit hlimit => nested_of_ok (habove limit hlimit), hexceeded⟩
    rintro limit s' ⟨⟩
  | error e s =>
    refine ⟨k, _, hk, ?_, fun limit hlimit => nested_of_error (habove limit hlimit), hexceeded⟩
    rintro limit s' ⟨⟩
    exact hresult limit s rfl

section

variable {item : Nat → Decode α}
  (hitem : ∀ c, c.Used total depth used → Threshold n fun limit => item limit c)
  (hkeeps : ∀ limit c a s, c.Used total depth used → item limit c = .ok a s →
    s.Used total depth used)
include hitem hkeeps

theorem times (count : Nat) (hc : c.Used total depth used) :
    Threshold n fun limit => Decode.times count (item limit) c := by
  induction count generalizing c with
  | zero => exact .plain (Decode.plain.pure [])
  | succ count ih =>
    simp only [times_succ]
    exact .bind (hitem c hc) fun limit a s hs => .bind (ih (hkeeps limit c a s hc hs))
      fun _ as _ _ => .plain (Decode.plain.pure (a :: as))

theorem counted (hc : c.Used total depth used) :
    Threshold n fun limit => Decode.counted (item limit) c :=
  .bind_plain Decode.plain.u16 hc fun count _ hs => times hitem hkeeps count.toNat hs

end

end Threshold

/-! ### Attributes -/

namespace Attribute

variable {kind : Kind} {length : UInt32}

theorem threshold_named {policy : UnknownPolicy}
    {known : Nat → UInt16 → Kind → UInt32 → Decode Attribute} (hc : c.Used total depth used)
    (h : ∀ nameIndex kind length s, s.Used total depth (used + 6) →
      Threshold n fun limit => known limit nameIndex kind length s) :
    Threshold n fun limit => decodeNamed policy (known limit) c := by
  refine .bind_u16 hc fun nameIndex c₁ hc₁ => .bind_u32 hc₁ fun length c₂ hc₂ => ?_
  refine .bind_plain plain.pool hc₂ fun pool c₃ hc₃ => ?_
  refine .bind_plain (plain.lift (pool.getUtf8_not_atLimit nameIndex)) hc₃
    fun name c₄ hc₄ => ?_
  cases Kind.ofName? name with
  | some kind => exact h nameIndex kind length c₄ hc₄
  | none =>
    cases policy with
    | reject => exact .plain (plain.throw _ nofun)
    | preserve =>
      have hkept : Plain (do
          report (.keptUnknown (Text.latin1 name) length)
          return leaf nameIndex (.unknown (← bytes length.toNat))) :=
        .bind (plain.report _) fun _ => .bind (plain.bytes _) fun taken => .pure _
      exact .plain hkept

theorem threshold_measured {payload : Nat → Decode Attribute} (kind : Kind) (length : UInt32)
    (h : Threshold n fun limit => payload limit { c with depth := c.depth + 1 }) :
    Threshold n fun limit => decodeMeasured kind length (payload limit) c := by
  refine .bind (.plain plainLaw.offset) fun _ start c₁ hstart => ?_
  cases hstart
  refine .bind (.nested h) fun _ a s _ => .plain (.bind plainLaw.offset fun stop => ?_)
  exact plainLaw.check _ nofun (.bind (plain.report _) fun _ => .pure a)

theorem threshold_payload {inner : Nat → Decode Attribute} (hc : c.Used total depth used)
    (hinner : ∀ c, c.Used total depth (used + 12) → Threshold n fun limit => inner limit c)
    (hkeeps : ∀ limit c a s, c.Used total depth (used + 12) → inner limit c = .ok a s →
      s.Used total depth (used + 12)) (nameIndex : UInt16) (kind : Kind) (length : UInt32) :
    Threshold n fun limit => decodePayload (inner limit) nameIndex kind length c := by
  by_cases hkind : kind = .code
  · subst hkind
    have hblock (b : CodeBlock) (bs : List UInt8) (hbs : (b.Fits ∧ b.Regular) ∧ bs = b.layout) :
        10 ≤ bs.length := by
      rw [hbs.2, CodeBlock.length_layout, CodeBlock.encodedLength]
      omega
    refine .bind_reads plain_codeBlock (CodeBlock.reads_decode c) hblock hc fun block c₁ hc₁ => ?_
    have has : Threshold n fun limit => Decode.counted (inner limit) c₁ :=
      .bind_u16 hc₁ fun count c₂ hc₂ => .times hinner hkeeps count.toNat hc₂
    exact .bind has fun _ as _ _ => .plain (.pure (code nameIndex block as))
  · have hleaf : plain.rel (decodePayload (inner 0) nameIndex kind length)
        (decodePayload (inner 0) nameIndex kind length) := plain.leafPayload hkind nameIndex length
    have hsame (limit : Nat) : decodePayload (inner limit) nameIndex kind length =
        decodePayload (inner 0) nameIndex kind length := by
      cases kind with
      | code => exact absurd rfl hkind
      | _ => rfl
    simp only [hsame]
    exact .plain hleaf

/-- Where a known attribute is entered, the levels that are left are looked at. -/
def decodeKnown (options : Options) (levels : Nat) (nameIndex : UInt16) (kind : Kind)
    (length : UInt32) : Decode Attribute :=
  match levels with
  | 0 => throw (.nestedTooDeep options.maxDepth)
  | levels + 1 =>
    decodeMeasured kind length (decodePayload (decodeWithin options levels) nameIndex kind length)

theorem decodeWithin_eq (options : Options) (levels : Nat) :
    decodeWithin options levels = decodeNamed options.unknown (decodeKnown options levels) := by
  cases levels <;> rfl

theorem decode_eq_decodeWithin {options : Options} (hc : c.depth = depth) :
    decode options c = decodeWithin options (options.maxDepth - depth) c := by
  rw [← hc]
  rfl

theorem used_of_decode {options : Options} {a : Attribute} (hc : c.Used total depth used)
    (h : decode options c = .ok a s) : s.Used total depth used :=
  hc.read (reads_decode options c) h fun _ _ => Nat.zero_le _

/-- A level takes 18 bytes, of which only 6 have been read when it is entered. -/
theorem threshold_decode (policy : UnknownPolicy) (hc : c.Used total depth 0) :
    Threshold (18 * depth + total + 12) fun maxDepth =>
      decode { unknown := policy, maxDepth } c := by
  -- on the bytes and not on the levels, of which there is no fixed number
  induction total using Nat.strongRecOn generalizing depth c with
  | _ total ih =>
    simp only [decode_eq_decodeWithin hc.depth_eq, decodeWithin_eq]
    refine threshold_named hc fun nameIndex kind length c₁ hc₁ => ?_
    have hnested : Cursor.Used total (depth + 1) 6 { c₁ with depth := c₁.depth + 1 } :=
      ⟨congrArg (· + 1) hc₁.depth_eq, hc₁.used_le⟩
    have hinner (s : Cursor) (hs : s.Used total (depth + 1) 18) :
        Threshold (18 * depth + total + 12) fun maxDepth =>
          decodeWithin { unknown := policy, maxDepth } (maxDepth - (depth + 1)) s := by
      have hle := hs.used_le
      have hrest : s.Used (total - 18) (depth + 1) 0 := ⟨hs.depth_eq, by omega⟩
      have hthreshold := ih (total - 18) (by omega) hrest
      simp only [decode_eq_decodeWithin hs.depth_eq] at hthreshold
      exact hthreshold.mono (by omega)
    have hentered : Threshold (18 * depth + total + 12) fun maxDepth =>
        decodeMeasured kind length (decodePayload (decodeWithin { unknown := policy, maxDepth }
          (maxDepth - (depth + 1))) nameIndex kind length) c₁ := by
      refine threshold_measured kind length
        (threshold_payload hnested hinner (fun maxDepth s a t hs ha => ?_) nameIndex kind length)
      rw [← decode_eq_decodeWithin hs.depth_eq] at ha
      exact used_of_decode hs ha
    have hheader := hc₁.used_le
    refine hentered.above depth (by omega) (fun maxDepth habove => ?_)
      fun maxDepth hbelow => ?_
    · have hlevels : maxDepth - depth = maxDepth - (depth + 1) + 1 := by omega
      rw [hlevels]
      rfl
    · have hlevels : maxDepth - depth = 0 := by omega
      rw [hlevels]
      exact ⟨c₁, rfl⟩

theorem threshold_counted (policy : UnknownPolicy) (hc : c.Used total 0 0) :
    Threshold (total + 12) fun maxDepth =>
      Decode.counted (decode { unknown := policy, maxDepth }) c := by
  refine .counted (fun s hs => ?_) (fun _ _ _ _ hs ha => used_of_decode hs ha) hc
  exact (threshold_decode policy hs).mono (by omega)

end Attribute

/-! ### Members and classes -/

namespace Member

variable {event : String → Event}

theorem used_of_decodeReported {options : Options} {m : Member} (hc : c.Used total 0 used)
    (h : decodeReported options event c = .ok m s) : s.Used total 0 used :=
  hc.read (reads_decodeReported event (Prod.ext rfl hc.depth_eq)) h fun _ _ => Nat.zero_le _

theorem used_of_counted {options : Options} {ms : List Member} (hc : c.Used total 0 used)
    (h : Decode.counted (decodeReported options event) c = .ok ms s) : s.Used total 0 used :=
  hc.read (reads_counted event (Prod.ext rfl hc.depth_eq)) h fun _ _ => Nat.zero_le _

theorem threshold_decodeReported (policy : UnknownPolicy) (event : String → Event)
    (hc : c.Used total 0 0) :
    Threshold (total + 12) fun maxDepth =>
      decodeReported { unknown := policy, maxDepth } event c := by
  have hmember : Threshold (total + 12) fun maxDepth =>
      decode { unknown := policy, maxDepth } c := by
    refine .bind_plain plain.u16 hc fun accessFlags c₁ hc₁ => ?_
    refine .bind_plain plain.u16 hc₁ fun nameIndex c₂ hc₂ => ?_
    refine .bind_plain plain.u16 hc₂ fun descriptorIndex c₃ hc₃ => ?_
    exact .bind (Attribute.threshold_counted policy hc₃) fun _ attributes _ _ =>
      .plain (.pure (mk accessFlags nameIndex descriptorIndex attributes))
  exact .bind hmember fun _ m _ _ => .plain (.bind plain.pool fun p =>
    .bind (plain.report _) fun _ => .pure m)

theorem threshold_counted (policy : UnknownPolicy) (event : String → Event)
    (hc : c.Used total 0 0) :
    Threshold (total + 12) fun maxDepth =>
      Decode.counted (decodeReported { unknown := policy, maxDepth } event) c :=
  .counted (fun _ hs => threshold_decodeReported policy event hs)
    (fun _ _ _ _ hs hm => used_of_decodeReported hs hm) hc

end Member

namespace ClassFile

theorem threshold_decode (policy : UnknownPolicy) (hc : c.Used total 0 0) :
    Threshold (total + 12) fun maxDepth => decode { unknown := policy, maxDepth } c := by
  simp only [decode_eq]
  refine .bind_plain plain.u32 hc fun found c₁ hc₁ => .check nofun ?_
  refine .bind_plain plain.u16 hc₁ fun minor c₂ hc₂ => ?_
  refine .bind_plain plain.u16 hc₂ fun major c₃ hc₃ => ?_
  refine .bind_plain plain_pool hc₃ fun _ c₄ hc₄ => ?_
  refine .bind_plain plain.u16 hc₄ fun accessFlags c₅ hc₅ => ?_
  refine .bind_plain plain.u16 hc₅ fun thisClass c₆ hc₆ => ?_
  refine .bind_plain plain.u16 hc₆ fun superClass c₇ hc₇ => ?_
  refine .bind_plain (plain.counted plain.u16) hc₇ fun interfaces c₈ hc₈ => ?_
  refine .bind (Member.threshold_counted policy _ hc₈) fun _ fields c₉ hfields => ?_
  have hc₉ : c₉.Used total 0 0 := Member.used_of_counted hc₈ hfields
  refine .bind (Member.threshold_counted policy _ hc₉) fun _ methods c₁₀ hmethods => ?_
  have hc₁₀ : c₁₀.Used total 0 0 := Member.used_of_counted hc₉ hmethods
  refine .bind (Attribute.threshold_counted policy hc₁₀) fun _ attributes _ _ => .plain ?_
  exact .bind plain.pool fun pool => .bind plainLaw.offset fun offset => .bind (plain.report _)
    fun _ => .pure _

end ClassFile

/-- Outside of all attributes, the limit is a threshold: there is a number of levels, bounded by the
bytes, from which on the limit does not matter, and below it is the limit that is complained of. -/
theorem decode_threshold (policy : UnknownPolicy) (c : Cursor) (hc : c.depth = 0) :
    (Threshold (c.unread.length + 12) fun maxDepth =>
      Attribute.decode { unknown := policy, maxDepth } c) ∧
    Threshold (c.unread.length + 12) fun maxDepth =>
      ClassFile.decode { unknown := policy, maxDepth } c := by
  have hused : c.Used c.unread.length 0 0 := ⟨hc, Nat.le_of_eq (Nat.zero_add _)⟩
  refine ⟨?_, ClassFile.threshold_decode policy hused⟩
  exact (Attribute.threshold_decode policy hused).mono (by omega)

/-- Code in code. -/
def twofold : Attribute :=
  .code 1 ⟨0, 0, [], []⟩ [.code 1 ⟨0, 0, [], []⟩ [.leaf 2 .deprecated]]

def beforeTwofold : Cursor where
  unread := twofold.layout
  pool := .ofList [.utf8 Attribute.Kind.code.nameBytes, .utf8 Attribute.Kind.deprecated.nameBytes]

theorem decode_threshold_twofold :
    (∀ maxDepth, 3 ≤ maxDepth → ∃ s, Attribute.decode { maxDepth } beforeTwofold = .ok twofold s) ∧
      ∀ maxDepth < 3, ∃ s,
        Attribute.decode { maxDepth } beforeTwofold = .error (.nestedTooDeep maxDepth) s := by
  obtain ⟨⟨k, result, hk, -, habove, hbelow⟩, -⟩ := decode_threshold .reject beforeTwofold rfl
  have hlength : beforeTwofold.unread.length = 42 := rfl
  have hfits : twofold.Fits := by decide +kernel
  have hregular : twofold.Regular { maxDepth := 3 } beforeTwofold.pool 1 := by decide +kernel
  have hirregular : ¬ twofold.Regular { maxDepth := 2 } beforeTwofold.pool 1 := by decide +kernel
  obtain ⟨s, hread, -⟩ := (Attribute.reads_decode { maxDepth := 3 } beforeTwofold).complete
    ⟨⟨hfits, hregular⟩, rfl⟩ (List.append_nil _).symm
  obtain rfl : result = .ok twofold s := (habove 3 (by omega)).symm.trans hread
  have hk' : k = 3 := by
    by_cases hle : k ≤ 2
    · obtain ⟨_, ⟨⟨-, h⟩, -⟩, -⟩ :=
        (Attribute.reads_decode { maxDepth := 2 } beforeTwofold).sound (habove 2 hle)
      exact absurd h hirregular
    · omega
  rw [hk'] at habove hbelow
  exact ⟨fun maxDepth hle => ⟨s, habove maxDepth hle⟩, hbelow⟩

/-! ### How deep attributes are -/

theorem Attribute.Regular.namedFor {options : Options} {pool : Pool} {a : Attribute}
    (h : a.Regular options pool depth) : NamedFor options pool depth a.nameIndex a.kind? := by
  cases a with
  | leaf nameIndex content => exact regular_leaf.mp h
  | code nameIndex block as => exact (regular_code.mp h).1

namespace ClassFile

/-- The attributes of a class at any depth. -/
inductive HasAt (c : ClassFile) : (depth : Nat) → Attribute → Prop
  | ofClass {a : Attribute} (mem : a ∈ c.attributes) : HasAt c 1 a
  | ofField {m : Member} {a : Attribute} (field : m ∈ c.fields) (mem : a ∈ m.attributes) :
    HasAt c 1 a
  | ofMethod {m : Member} {a : Attribute} (method : m ∈ c.methods) (mem : a ∈ m.attributes) :
    HasAt c 1 a
  | inside {depth : Nat} {nameIndex : UInt16} {block : CodeBlock} {as : List Attribute}
    {a : Attribute} (hasAt : HasAt c depth (.code nameIndex block as)) (mem : a ∈ as) :
    HasAt c (depth + 1) a

/-- An attribute is regular where it is. Around one that is inside of code there is the code, which
the limit holds for. -/
theorem HasAt.regular {options : Options} {c : ClassFile} {a : Attribute} (h : c.HasAt depth a)
    (hc : c.WellFormed options) :
    a.Regular options c.pool depth ∧ depth ≤ options.maxDepth + 1 := by
  induction h with
  | ofClass mem => exact ⟨hc.attributes _ mem, Nat.le_add_left ..⟩
  | ofField field mem => exact ⟨hc.fields _ field _ mem, Nat.le_add_left ..⟩
  | ofMethod method mem => exact ⟨hc.methods _ method _ mem, Nat.le_add_left ..⟩
  | inside hasAt mem ih =>
    obtain ⟨⟨-, hdepth⟩, -, has⟩ := Attribute.regular_code.mp ih.1
    exact ⟨has _ mem, Nat.succ_le_succ hdepth⟩

/-- In a class that was read, no attribute of a known name is deeper than the limit allows, and if
unknown ones are refused, none is at all. One that is kept is at most one level deeper. -/
theorem depth_le_of_decode (options : Options) (bytes : List UInt8) (c : ClassFile) (s : Cursor)
    (h : decode options { unread := bytes } = .ok c s) (depth : Nat) (a : Attribute)
    (ha : c.HasAt depth a) :
    (a.kind? ≠ none → depth ≤ options.maxDepth) ∧
      (options.unknown = .reject → depth ≤ options.maxDepth) ∧ depth ≤ options.maxDepth + 1 := by
  obtain ⟨hc, -⟩ := past_of_decode h
  obtain ⟨hregular, hdepth⟩ := ha.regular hc
  have hname := hregular.namedFor
  cases hkind : a.kind? with
  | some kind =>
    rw [hkind] at hname
    have hle : depth ≤ options.maxDepth := hname.2
    exact ⟨fun _ => hle, fun _ => hle, hdepth⟩
  | none =>
    rw [hkind] at hname
    have hpolicy : options.unknown = .preserve := hname.1
    refine ⟨fun hne => absurd rfl hne, fun hreject => ?_, hdepth⟩
    rw [hpolicy] at hreject
    cases hreject

/-- A class with one method, which has one attribute. -/
def withMethodAttribute (a : Attribute) : ClassFile where
  minorVersion := 0
  majorVersion := 52
  pool := .ofList [.utf8 Attribute.Kind.code.nameBytes, .utf8 Attribute.Kind.deprecated.nameBytes,
    .utf8 [0x41], .classInfo 3]
  accessFlags := 0x21
  thisClass := 4
  superClass := 0
  interfaces := []
  fields := []
  methods := [⟨9, 3, 3, [a]⟩]
  attributes := []

theorem depth_le_of_decode_twofold : ∃ s,
    decode { maxDepth := 3 } { unread := (withMethodAttribute twofold).layout } =
        .ok (withMethodAttribute twofold) s ∧
      (withMethodAttribute twofold).HasAt 3 (.leaf 2 .deprecated) ∧
      3 ≤ Options.maxDepth { maxDepth := 3 } := by
  have hregular : (withMethodAttribute twofold).WellFormed { maxDepth := 3 } := by decide +kernel
  obtain ⟨s, hread, -⟩ := (reads_fresh { maxDepth := 3 } _).complete ⟨hregular, rfl⟩
    (List.append_nil _).symm
  have hdeprecated : (withMethodAttribute twofold).HasAt 3 (.leaf 2 .deprecated) :=
    .inside (.inside (.ofMethod (List.mem_singleton_self _) (List.mem_singleton_self _))
      (List.mem_singleton_self _)) (List.mem_singleton_self _)
  obtain ⟨hknown, -⟩ := depth_le_of_decode _ _ _ _ hread 3 _ hdeprecated
  exact ⟨s, hread, hdeprecated, hknown nofun⟩

/-- Code with an attribute in it that nothing is known of. -/
def aroundUnknown : Attribute :=
  .code 1 ⟨0, 0, [], []⟩ [.leaf 3 (.unknown [])]

/-- What is unknown is not counted. -/
theorem not_forall_depth_le : ¬ ∀ (options : Options) (bytes : List UInt8) (c : ClassFile)
    (s : Cursor), decode options { unread := bytes } = .ok c s →
      ∀ depth a, c.HasAt depth a → depth ≤ options.maxDepth := by
  intro h
  have hregular : (withMethodAttribute aroundUnknown).WellFormed
      { unknown := .preserve, maxDepth := 1 } := by decide +kernel
  obtain ⟨s, hread, -⟩ := (reads_fresh { unknown := .preserve, maxDepth := 1 } _).complete
    ⟨hregular, rfl⟩ (List.append_nil _).symm
  have hunknown : (withMethodAttribute aroundUnknown).HasAt 2 (.leaf 3 (.unknown [])) :=
    .inside (.ofMethod (List.mem_singleton_self _) (List.mem_singleton_self _))
      (List.mem_singleton_self _)
  have hle : 2 ≤ 1 := h _ _ _ _ hread 2 _ hunknown
  omega

end ClassFile
end JavaClass

import JavaClass.Proofs.RoundTrip

/-!
# Refusing what is unknown

Attributes of unknown name are kept or refused. Beside that, reading is the same under both
policies: what is read without refusing is also read while keeping, what holds nothing unknown is
read either way, and of several unknown names the first one in the file is reported
(`ClassFile.decode_refusing`).

`Decode.Refuses` compares a decoder that refuses with one that keeps. It goes along with the list of
names that were kept, so that the first of them is known at the end; like `Decode.ReadsAt` it is
closed under everything that decoders are built from.
-/

namespace JavaClass

namespace Decode

variable {α β : Type} {x : Pool × Nat}

/-- What comes of reading when the first of some names is refused, where it would come to `kept`
with all of them kept. -/
def FirstRefused (p : Pool) (refused kept : EStateM.Result Error Cursor α) : List UInt16 → Prop
  | [] => refused = kept
  | index :: _ => ∃ name s, p.getText index = .ok name ∧ refused = .error (.unknownAttribute name) s

/-- What comes of reading when nothing unknown is kept, next to what comes of it otherwise. -/
def RefusedFrom (x : Pool × Nat) (P : α → List UInt16 → Prop)
    (refused : EStateM.Result Error Cursor α) : (kept : EStateM.Result Error Cursor α) → Prop
  | .ok a s => s.outerContext = x ∧
    ∃ indices, P a indices ∧ FirstRefused x.1 refused (.ok a s) indices
  | .error e s => refused = .error e s ∨ ∃ name s', refused = .error (.unknownAttribute name) s'

/-- In the context `x`, `d` refuses the attributes of unknown name that `d'` keeps and does the same
otherwise. `P` relates what is read by `d'` to the names that are kept in it. -/
def Refuses (x : Pool × Nat) (P : α → List UInt16 → Prop) (d d' : Decode α) : Prop :=
  ∀ c, c.outerContext = x → RefusedFrom x P (d c) (d' c)

namespace Refuses

variable {d d' : Decode α} {f f' : α → Decode β} {P P' : α → List UInt16 → Prop}
  {Q : α → β → List UInt16 → Prop} {R : α → List UInt8 → Prop} {S : β → List UInt16 → Prop}

theorem mono (h : Refuses x P d d') (hP : ∀ a indices, P a indices → P' a indices) :
    Refuses x P' d d' := by
  intro c hc
  have hd := h c hc
  cases hd' : d' c with
  | ok a s =>
    rw [hd'] at hd
    obtain ⟨hs, indices, ha, hfirst⟩ := hd
    exact ⟨hs, indices, hP a indices ha, hfirst⟩
  | error e s =>
    rw [hd'] at hd
    exact hd

/-- Where no attribute is read, nothing is refused. -/
theorem same (h : ∀ c, c.outerContext = x → ReadsAt Cursor.outerContext c d R) :
    Refuses x (fun a indices => (∃ bs, R a bs) ∧ indices = []) d d := by
  intro c hc
  cases hd : d c with
  | ok a s =>
    obtain ⟨bs, ha, hpast⟩ := (h c hc).sound hd
    exact ⟨hpast.kept.trans hc, [], ⟨⟨bs, ha⟩, rfl⟩, rfl⟩
  | error e s => exact Or.inl rfl

theorem throw (e : Error) : Refuses x P (throw e) (throw e) :=
  fun _ _ => Or.inl rfl

theorem check {p : Prop} [Decidable p] (e : Error) (h : Refuses x P d d') :
    Refuses x P (if p then MonadExcept.throw e else d) (if p then MonadExcept.throw e else d') := by
  split
  · exact throw e
  · exact h

/-- The one attribute that is kept would be refused. -/
theorem refuse {index : UInt16} {name : String} (hname : x.1.getText index = .ok name)
    (h : ∀ c, c.outerContext = x → ReadsAt Cursor.outerContext c d R) :
    Refuses x (fun a indices => (∃ bs, R a bs) ∧ indices = [index])
      (MonadExcept.throw (.unknownAttribute name)) d := by
  intro c hc
  cases hd : d c with
  | ok a s =>
    obtain ⟨bs, ha, hpast⟩ := (h c hc).sound hd
    exact ⟨hpast.kept.trans hc, [index], ⟨⟨bs, ha⟩, rfl⟩, name, c, hname, rfl⟩
  | error e s => exact Or.inr ⟨name, c, rfl⟩

theorem bind (h : Refuses x P d d')
    (hf : ∀ a indices, P a indices → Refuses x (Q a) (f a) (f' a)) :
    Refuses x (Then P Q) (d >>= f) (d' >>= f') := by
  intro c hc
  have hd := h c hc
  cases hd' : d' c with
  | ok a s =>
    rw [hd'] at hd
    rw [bind_of_ok hd']
    obtain ⟨hs, indices, ha, hfirst⟩ := hd
    have hrest := hf a indices ha s hs
    cases indices with
    | nil =>
      rw [bind_of_ok hfirst]
      cases hfa : f' a s with
      | ok b t =>
        rw [hfa] at hrest
        obtain ⟨ht, indices, hb, hfirst⟩ := hrest
        exact ⟨ht, indices, ⟨a, [], indices, ha, hb, rfl⟩, hfirst⟩
      | error e t =>
        rw [hfa] at hrest
        exact hrest
    | cons index indices =>
      -- the second step is not reached when the first name is refused
      obtain ⟨name, s', hname, hrefused⟩ := hfirst
      rw [bind_of_error hrefused]
      cases hfa : f' a s with
      | ok b t =>
        rw [hfa] at hrest
        obtain ⟨ht, indices', hb, -⟩ := hrest
        exact ⟨ht, _, ⟨a, _, indices', ha, hb, rfl⟩, name, s', hname, rfl⟩
      | error e t => exact Or.inr ⟨name, s', rfl⟩
  | error e s =>
    rw [hd'] at hd
    rw [bind_of_error hd']
    rcases hd with hd | ⟨name, s', hd⟩
    · exact Or.inl (bind_of_error hd)
    · exact Or.inr ⟨name, s', bind_of_error hd⟩

/-- Nothing is refused in the first step. -/
theorem bind_same (h : ∀ c, c.outerContext = x → ReadsAt Cursor.outerContext c d R)
    (hf : ∀ a bs, R a bs → Refuses x S (f a) (f' a)) : Refuses x S (d >>= f) (d >>= f') := by
  refine ((same h).bind (Q := fun _ => S) fun a indices ha => ?_).mono ?_
  · obtain ⟨⟨bs, ha⟩, -⟩ := ha
    exact hf a bs ha
  · rintro b _ ⟨a, _, indices, ⟨-, rfl⟩, hb, rfl⟩
    exact hb

/-- The result is changed after reading. -/
theorem map (h : Refuses x P d d') (g : α → β) :
    Refuses x (fun b indices => ∃ a, b = g a ∧ P a indices) (do return g (← d))
      (do return g (← d')) := by
  refine (h.bind (Q := fun a b indices => (∃ bs, b = g a ∧ bs = []) ∧ indices = [])
    fun a indices _ => same fun c _ => .pure (g a)).mono ?_
  rintro b _ ⟨a, indices, _, ha, ⟨⟨-, hb, -⟩, rfl⟩, rfl⟩
  exact ⟨a, hb, by rwa [List.append_nil]⟩

theorem pool_bind {f f' : Pool → Decode β} (h : Refuses x S (f x.1) (f' x.1)) :
    Refuses x S (pool >>= f) (pool >>= f') := by
  intro c hc
  have hpool : c.pool = x.1 := congrArg (·.1) hc
  show RefusedFrom x S (f c.pool c) (f' c.pool c)
  rw [hpool]
  exact h c hc

theorem offset_bind {f f' : Nat → Decode β} (h : ∀ n, Refuses x S (f n) (f' n)) :
    Refuses x S (offset >>= f) (offset >>= f') :=
  fun c hc => h c.offset c hc

theorem nested {p : Pool} {depth : Nat} (h : Refuses (p, depth + 1) P d d') :
    Refuses (p, depth) P (nested d) (nested d') := by
  intro c hc
  obtain ⟨rfl, rfl⟩ := Prod.mk.inj hc
  have hd := h { c with depth := c.depth + 1 } rfl
  cases hd' : d' { c with depth := c.depth + 1 } with
  | ok a s =>
    rw [hd'] at hd
    rw [nested_of_ok hd']
    obtain ⟨hs, indices, ha, hfirst⟩ := hd
    obtain ⟨hpool, hdepth⟩ := Prod.mk.inj hs
    refine ⟨Prod.ext hpool ?_, indices, ha, ?_⟩
    · show s.depth - 1 = _
      rw [hdepth, Nat.add_sub_cancel]
    · cases indices with
      | nil => exact nested_of_ok hfirst
      | cons index indices =>
        obtain ⟨name, s', hname, hrefused⟩ := hfirst
        exact ⟨name, _, hname, nested_of_error hrefused⟩
  | error e s =>
    rw [hd'] at hd
    rw [nested_of_error hd']
    rcases hd with hd | ⟨name, s', hd⟩
    · exact Or.inl (nested_of_error hd)
    · exact Or.inr ⟨name, _, nested_of_error hd⟩

variable {names : α → List UInt16}

theorem times (h : Refuses x (fun a indices => indices = names a) d d') (n : Nat) :
    Refuses x (fun as indices => indices = as.flatMap names) (times n d) (times n d') := by
  induction n with
  | zero =>
    refine (same (R := fun as bs => as = [] ∧ bs = []) fun c _ => .pure []).mono ?_
    rintro _ _ ⟨⟨_, rfl, -⟩, rfl⟩
    rfl
  | succ n ih =>
    rw [times_succ, times_succ]
    refine (h.bind fun a _ _ => ih.map (a :: ·)).mono ?_
    rintro _ _ ⟨a, _, _, rfl, ⟨as, rfl, rfl⟩, rfl⟩
    rfl

theorem counted (h : Refuses x (fun a indices => indices = names a) d d') :
    Refuses x (fun as indices => indices = as.flatMap names) (counted d) (counted d') :=
  bind_same (fun c _ => (reads_u16 c).outer) fun n _ _ => h.times n.toNat

end Refuses

/-! ### In front of the attributes -/

/-- Both policies come to the same context, wherever they start. -/
def RefusesSomewhere (P : Pool × Nat → α → List UInt16 → Prop) (d d' : Decode α) : Prop :=
  ∀ c, ∃ x, RefusedFrom x (P x) (d c) (d' c)

namespace RefusesSomewhere

variable {d d' : Decode α} {f f' : α → Decode β} {P : Pool × Nat → α → List UInt16 → Prop}
  {Q : Pool × Nat → β → List UInt16 → Prop}

theorem of_forall (h : ∀ x, Refuses x (P x) d d') : RefusesSomewhere P d d' :=
  fun c => ⟨c.outerContext, h _ c rfl⟩

theorem bind (d : Decode α) (hf : ∀ a, RefusesSomewhere Q (f a) (f' a)) :
    RefusesSomewhere Q (d >>= f) (d >>= f') := by
  intro c
  cases hd : d c with
  | ok a s =>
    rw [bind_of_ok hd, bind_of_ok hd]
    exact hf a s
  | error e s =>
    rw [bind_of_error hd, bind_of_error hd]
    exact ⟨s.outerContext, Or.inl rfl⟩

theorem check {p : Prop} [Decidable p] (e : Error) (h : RefusesSomewhere P d d') :
    RefusesSomewhere P (if p then throw e else d) (if p then throw e else d') := by
  split
  · exact fun c => ⟨c.outerContext, Or.inl rfl⟩
  · exact h

end RefusesSomewhere

end Decode

open Decode

/-! ### Attributes -/

namespace Attribute

mutual

/-- The name indices of the attributes of unknown name, in the order of the file. -/
def unknowns : Attribute → List UInt16
  | leaf nameIndex (.unknown _) => [nameIndex]
  | leaf _ _ => []
  | code _ _ as => unknownsAll as

def unknownsAll : List Attribute → List UInt16
  | [] => []
  | a :: as => unknowns a ++ unknownsAll as

end

theorem unknownsAll_eq (as : List Attribute) : unknownsAll as = as.flatMap unknowns := by
  induction as with
  | nil => rfl
  | cons a as ih => rw [unknownsAll, ih, List.flatMap_cons]

theorem unknowns_of_kind? {a : Attribute} {kind : Kind} (h : a.kind? = some kind)
    (hkind : kind ≠ .code) : a.unknowns = [] := by
  cases a with
  | leaf nameIndex content =>
    cases content with
    | unknown bytes => cases h
    | _ => rfl
  | code nameIndex block as => exact absurd (Option.some.inj h).symm hkind

variable {p : Pool} {depth maxDepth : Nat}

theorem refuses_named {known known' : UInt16 → Kind → UInt32 → Decode Attribute}
    (h : ∀ nameIndex kind length, Refuses (p, depth) (fun a indices => indices = a.unknowns)
      (known nameIndex kind length) (known' nameIndex kind length)) :
    Refuses (p, depth) (fun a indices => indices = a.unknowns) (decodeNamed .reject known)
      (decodeNamed .preserve known') := by
  refine .bind_same (fun c _ => (reads_u16 c).outer) fun nameIndex _ _ =>
    .bind_same (fun c _ => (reads_u32 c).outer) fun length _ _ =>
    .pool_bind (.bind_same (fun c _ => reads_lift _ c) fun name _ hname => ?_)
  cases hkind : Kind.ofName? name with
  | some kind => exact h nameIndex kind length
  | none =>
    have htext : p.getText nameIndex = .ok (Text.latin1 name) := by
      rw [Pool.getText, hname.1]
      rfl
    refine (Refuses.refuse htext fun c _ => (reads_report _ c).outer.bind fun _ _ c _ _ =>
      (reads_bytes length.toNat c).outer.map fun bytes => leaf nameIndex (.unknown bytes)).mono ?_
    rintro _ _ ⟨⟨_, _, _, _, -, ⟨bytes, rfl, -⟩, -⟩, rfl⟩
    rfl

theorem refuses_measured {d d' : Decode Attribute} (kind : Kind) (length : UInt32)
    (h : Refuses (p, depth + 1) (fun a indices => indices = a.unknowns) d d') :
    Refuses (p, depth) (fun a indices => indices = a.unknowns) (decodeMeasured kind length d)
      (decodeMeasured kind length d') := by
  refine .offset_bind fun start => (h.nested.bind (Q := fun a b indices => b = a ∧ indices = [])
    fun a _ _ => .offset_bind fun stop => .check _ ?_).mono ?_
  · refine .bind_same (fun c _ => (reads_report _ c).outer) fun _ _ _ => ?_
    refine (Refuses.same fun c _ => .pure a).mono ?_
    rintro _ _ ⟨⟨_, rfl, -⟩, rfl⟩
    exact ⟨rfl, rfl⟩
  · rintro _ _ ⟨a, _, _, rfl, ⟨rfl, rfl⟩, rfl⟩
    exact List.append_nil _

theorem refuses_payload {inner inner' : Decode Attribute} {options : Options}
    (h : Refuses (p, depth) (fun a indices => indices = a.unknowns) inner inner')
    (hinner : ∀ c, c.outerContext = (p, depth) → ReadsAt Cursor.outerContext c inner'
      fun a bs => (a.Fits ∧ a.Regular options p (depth + 1)) ∧ bs = a.layout)
    (nameIndex : UInt16) (kind : Kind) (length : UInt32) :
    Refuses (p, depth) (fun a indices => indices = a.unknowns)
      (decodePayload inner nameIndex kind length) (decodePayload inner' nameIndex kind length) := by
  by_cases hkind : kind = .code
  · subst hkind
    refine .bind_same (fun c _ => CodeBlock.reads_decode c) fun block _ _ =>
      (h.counted.map (code nameIndex block)).mono ?_
    rintro _ _ ⟨as, rfl, rfl⟩
    rw [unknowns, unknownsAll_eq]
  · have hsame : decodePayload inner nameIndex kind length =
        decodePayload inner' nameIndex kind length := by
      cases kind with
      | code => exact absurd rfl hkind
      | _ => rfl
    rw [hsame]
    refine (Refuses.same fun c hc => reads_decodePayload hc hinner nameIndex kind length).mono ?_
    rintro a _ ⟨⟨_, ⟨-, hname, -⟩, -⟩, rfl⟩
    exact (unknowns_of_kind? hname hkind).symm

theorem refuses_within {levels : Nat} (hlevels : levels = maxDepth - depth) :
    Refuses (p, depth) (fun a indices => indices = a.unknowns)
      (decodeWithin { unknown := .reject, maxDepth } levels)
      (decodeWithin { unknown := .preserve, maxDepth } levels) := by
  induction levels generalizing depth with
  | zero => exact refuses_named fun _ _ _ => .throw _
  | succ levels ih =>
    have hlevels' : levels = maxDepth - (depth + 1) := by omega
    have hinner (c : Cursor) (hc : c.outerContext = (p, depth + 1)) :
        ReadsAt Cursor.outerContext c (decodeWithin { unknown := .preserve, maxDepth } levels)
          fun a bs => (a.Fits ∧ a.Regular { unknown := .preserve, maxDepth } p (depth + 1 + 1)) ∧
            bs = a.layout := by
      obtain ⟨hpool, hdepth⟩ := Prod.mk.inj hc
      rw [← hpool, ← hdepth]
      exact reads_decodeWithin (by rw [hdepth]; exact hlevels')
    exact refuses_named fun nameIndex kind length => refuses_measured kind length
      (refuses_payload (ih hlevels') hinner nameIndex kind length)

theorem refuses_decode (x : Pool × Nat) (maxDepth : Nat) :
    Refuses x (fun a indices => indices = a.unknowns)
      (decode { unknown := .reject, maxDepth }) (decode { unknown := .preserve, maxDepth }) := by
  rintro c rfl
  exact refuses_within rfl c rfl

end Attribute

/-! ### Members and classes -/

namespace Member

def unknowns (m : Member) : List UInt16 :=
  m.attributes.flatMap Attribute.unknowns

theorem refuses_decode (x : Pool × Nat) (maxDepth : Nat) :
    Refuses x (fun m indices => indices = m.unknowns)
      (decode { unknown := .reject, maxDepth }) (decode { unknown := .preserve, maxDepth }) := by
  refine .bind_same (fun c _ => (reads_u16 c).outer) fun accessFlags _ _ =>
    .bind_same (fun c _ => (reads_u16 c).outer) fun nameIndex _ _ =>
    .bind_same (fun c _ => (reads_u16 c).outer) fun descriptorIndex _ _ =>
    ((Attribute.refuses_decode x maxDepth).counted.map
      (mk accessFlags nameIndex descriptorIndex)).mono ?_
  rintro _ _ ⟨as, rfl, rfl⟩
  rfl

theorem refuses_decodeReported (x : Pool × Nat) (maxDepth : Nat) (event : String → Event) :
    Refuses x (fun m indices => indices = m.unknowns)
      (decodeReported { unknown := .reject, maxDepth } event)
      (decodeReported { unknown := .preserve, maxDepth } event) := by
  refine ((refuses_decode x maxDepth).bind (Q := fun m m' indices => m' = m ∧ indices = [])
    fun m _ _ => .pool_bind
      (.bind_same (fun c _ => (reads_report _ c).outer) fun _ _ _ => ?_)).mono ?_
  · refine (Refuses.same fun c _ => .pure m).mono ?_
    rintro _ _ ⟨⟨_, rfl, -⟩, rfl⟩
    exact ⟨rfl, rfl⟩
  · rintro _ _ ⟨m, _, _, rfl, ⟨rfl, rfl⟩, rfl⟩
    exact List.append_nil _

end Member

namespace ClassFile

/-- The name indices of all attributes of unknown name, in the order of the file. -/
def unknowns (k : ClassFile) : List UInt16 :=
  k.fields.flatMap Member.unknowns ++ (k.methods.flatMap Member.unknowns ++
    k.attributes.flatMap Attribute.unknowns)

theorem refuses_decodeAfterPool (x : Pool × Nat) (maxDepth : Nat) (minor major : UInt16) :
    Refuses x (fun k indices => k.pool = x.1 ∧ indices = k.unknowns)
      (decodeAfterPool { unknown := .reject, maxDepth } minor major)
      (decodeAfterPool { unknown := .preserve, maxDepth } minor major) := by
  have hmembers (event : String → Event) := (Member.refuses_decodeReported x maxDepth event).counted
  refine .bind_same (fun c _ => (reads_u16 c).outer) fun accessFlags _ _ =>
    .bind_same (fun c _ => (reads_u16 c).outer) fun thisClass _ _ =>
    .bind_same (fun c _ => (reads_u16 c).outer) fun superClass _ _ =>
    .bind_same (fun c _ => (reads_counted_of_forall reads_u16 c).outer) fun interfaces _ _ =>
    ((hmembers _).bind fun fields _ _ => (hmembers _).bind fun methods _ _ =>
      (Attribute.refuses_decode x maxDepth).counted.bind
        (Q := fun attributes k indices => k = mk minor major x.1 accessFlags thisClass superClass
          interfaces fields methods attributes ∧ indices = [])
        fun attributes _ _ => .pool_bind (.offset_bind fun offset => ?_)).mono ?_
  · refine .bind_same (fun c _ => (reads_report _ c).outer) fun _ _ _ => ?_
    refine (Refuses.same fun c _ => .pure _).mono ?_
    rintro _ _ ⟨⟨_, rfl, -⟩, rfl⟩
    exact ⟨rfl, rfl⟩
  · rintro _ _ ⟨fields, _, _, rfl, ⟨methods, _, _, rfl, ⟨attributes, _, _, rfl, ⟨rfl, rfl⟩, rfl⟩,
      rfl⟩, rfl⟩
    rw [List.append_nil]
    exact ⟨rfl, rfl⟩

theorem refuses_decode (maxDepth : Nat) :
    RefusesSomewhere (fun x k indices => k.pool = x.1 ∧ indices = k.unknowns)
      (decode { unknown := .reject, maxDepth }) (decode { unknown := .preserve, maxDepth }) := by
  rw [decode_eq, decode_eq]
  exact .bind _ fun found => .check _ (.bind _ fun minor => .bind _ fun major => .bind _ fun _ =>
    .of_forall fun x => refuses_decodeAfterPool x maxDepth minor major)

/-- What is read while unknown attributes are refused is read in the same way while they are kept,
and holds none. What holds none is read in the same way while they are refused, and of what holds
some the first one is reported. Refusing hides other errors only behind an unknown attribute. -/
theorem decode_refusing (maxDepth : Nat) (c : Cursor) :
    (∀ k s, decode { unknown := .reject, maxDepth } c = .ok k s →
      decode { unknown := .preserve, maxDepth } c = .ok k s ∧ k.unknowns = []) ∧
    (∀ k s, decode { unknown := .preserve, maxDepth } c = .ok k s → k.unknowns = [] →
      decode { unknown := .reject, maxDepth } c = .ok k s) ∧
    (∀ k s index indices, decode { unknown := .preserve, maxDepth } c = .ok k s →
      k.unknowns = index :: indices → ∃ name s', k.pool.getText index = .ok name ∧
        decode { unknown := .reject, maxDepth } c = .error (.unknownAttribute name) s') ∧
    (∀ e s, decode { unknown := .preserve, maxDepth } c = .error e s →
      decode { unknown := .reject, maxDepth } c = .error e s ∨
        ∃ name s', decode { unknown := .reject, maxDepth } c =
          .error (.unknownAttribute name) s') := by
  obtain ⟨x, hrefused⟩ := refuses_decode maxDepth c
  have hkept (k : ClassFile) (s : Cursor)
      (h : decode { unknown := .preserve, maxDepth } c = .ok k s) :
      FirstRefused k.pool (decode { unknown := .reject, maxDepth } c) (.ok k s) k.unknowns := by
    rw [h] at hrefused
    obtain ⟨-, _, ⟨hpool, rfl⟩, hfirst⟩ := hrefused
    rwa [hpool]
  refine ⟨fun k s h => ?_, fun k s h hnone => ?_, fun k s index indices h hsome => ?_,
    fun e s h => ?_⟩
  · cases hpreserve : decode { unknown := .preserve, maxDepth } c with
    | ok k' s' =>
      have hfirst := hkept k' s' hpreserve
      cases hunknowns : k'.unknowns with
      | nil =>
        rw [hunknowns, h] at hfirst
        cases hfirst
        exact ⟨rfl, hunknowns⟩
      | cons index indices =>
        rw [hunknowns, h] at hfirst
        obtain ⟨_, _, -, hrefused⟩ := hfirst
        cases hrefused
    | error e s' =>
      rw [hpreserve, h] at hrefused
      obtain hrefused | ⟨_, _, hrefused⟩ := hrefused <;> cases hrefused
  · have hfirst := hkept k s h
    rwa [hnone] at hfirst
  · have hfirst := hkept k s h
    rwa [hsome] at hfirst
  · rw [h] at hrefused
    exact hrefused

/-- The attribute `B` in the code of the method comes first, and then `A`. -/
def obscure : ClassFile where
  minorVersion := 0
  majorVersion := 52
  pool := .ofList [.utf8 Attribute.Kind.code.nameBytes, .utf8 [0x41], .utf8 [0x42], .classInfo 2]
  accessFlags := 0x21
  thisClass := 4
  superClass := 0
  interfaces := []
  fields := []
  methods := [⟨9, 2, 2, [.code 1 ⟨0, 0, [], []⟩ [.leaf 3 (.unknown [7])]]⟩]
  attributes := [.leaf 2 (.unknown [1, 2, 3])]

theorem decode_refusing_obscure : ∃ s,
    decode { unknown := .reject } { unread := obscure.layout } =
      .error (.unknownAttribute "B") s := by
  have hregular : obscure.WellFormed { unknown := .preserve } := by decide +kernel
  obtain ⟨s, hkept, -⟩ := decode_layout hregular []
  rw [List.append_nil] at hkept
  obtain ⟨-, -, hfirst, -⟩ := decode_refusing 8 { unread := obscure.layout }
  obtain ⟨name, s', hname, hrefused⟩ := hfirst obscure s 3 [2] hkept rfl
  have htext : obscure.pool.getText 3 = .ok "B" := rfl
  rw [htext] at hname
  cases hname
  exact ⟨s', hrefused⟩

end ClassFile

end JavaClass

import JavaClass.Proofs.Encodable

/-!
# What is left of a failed attribute

The payload of an attribute is put together in a sink of its own (`Attribute.encode_eq`), and that
is where all of its parts can fail, with those inside of them. So an attribute that cannot be
written leaves nothing behind, with one exception: a payload that is all there but too long for its
length is found out when its name is written already (`Attribute.encode_untorn`).

In a class there is something in front of each attribute (`ClassFile.AttributeAt`). That is written
first, and if the attribute fails it is all that has been written.
-/

namespace JavaClass

namespace Encode

theorem throw_bind (err : Error) (e : Encode) : (do throw err; e) = (throw err : Encode) := rfl

theorem run_eq_ok_of_toOption {e : Encode} {bs : List UInt8} (h : e.run.toOption = some bs) :
    e.run = .ok bs := by
  cases hrun : e.run with
  | error err => rw [hrun] at h; cases h
  | ok out =>
    rw [hrun] at h
    cases h
    rfl

theorem each_append {α : Type} (item : α → Encode) (as bs : List α) :
    each item (as ++ bs) = (do each item as; each item bs) := by
  induction as with
  | nil => rw [List.nil_append, each, pure_bind]
  | cons a as ih => rw [List.cons_append, each, each, ih, bind_assoc]

end Encode

open Encode

namespace Attribute

/-- What is written behind the name and the length. -/
def encodePayload : Attribute → Encode
  | leaf _ content => content.encode
  | code _ block attributes => do
    block.encode
    counted "attributes_count" encode attributes

theorem encode_eq (a : Attribute) : a.encode = encodeFramed a.nameIndex a.encodePayload := by
  cases a with
  | leaf nameIndex content => rw [encode, encodePayload, Attribute.nameIndex]
  | code nameIndex block attributes =>
    rw [encode, encodeAll_eq, encodePayload, Attribute.nameIndex, counted]

variable {nameIndex : UInt16} {payload : Encode} {bytes : List UInt8} {err : Error}

theorem encodeFramed_of_error (h : payload.run = .error err) :
    encodeFramed nameIndex payload = throw err := by
  rw [encodeFramed, h]

theorem encodeFramed_of_fits (h : payload.run = .ok bytes) (hfits : bytes.length ≤ 0xffffffff) :
    encodeFramed nameIndex payload = Encode.bytes (framed nameIndex bytes) := by
  have hcount : count 4 "attribute_length" bytes.length =
      Encode.bytes (BigEndian.encode 4 bytes.length) := if_pos (Nat.lt_succ_iff.mpr hfits)
  rw [encodeFramed, h]
  dsimp only
  rw [hcount, ← bytes_append, u16, ← bytes_append]
  rfl

/-- The name is written before the length turns out to be too large. -/
theorem encodeFramed_of_long (h : payload.run = .ok bytes) (hlong : 0xffffffff < bytes.length) :
    encodeFramed nameIndex payload = (do
      u16 nameIndex
      throw (.countOverflow "attribute_length" bytes.length)) := by
  have hcount : count 4 "attribute_length" bytes.length =
      throw (.countOverflow "attribute_length" bytes.length) :=
    if_neg (Nat.not_lt.mpr hlong)
  rw [encodeFramed, h]
  dsimp only
  rw [hcount, throw_bind]

end Attribute

/-! ### In front of an attribute -/

/-- What is written of a member in front of an attribute that comes after `before`. -/
def Member.encodeBefore (m : Member) (before : List Attribute) : Encode := do
  u16 m.accessFlags
  u16 m.nameIndex
  u16 m.descriptorIndex
  count 2 "& self.attributes.len()" m.attributes.length
  each Attribute.encode before

namespace ClassFile

/-- What is written of a class in front of its members. -/
def encodeHead (c : ClassFile) : Encode := do
  u32 magic
  u16 c.minorVersion
  u16 c.majorVersion
  c.pool.encode
  u16 c.accessFlags
  u16 c.thisClass
  u16 c.superClass
  counted "interfaces_count" u16 c.interfaces

/-- A place of an attribute in a class, with all that is written in front of it. -/
inductive AttributeAt (c : ClassFile) : Attribute → (front : Encode) → Prop
  | ofField {before after : List Member} {m : Member} {as bs : List Attribute} {a : Attribute}
    (fields : c.fields = before ++ m :: after) (attributes : m.attributes = as ++ a :: bs) :
    AttributeAt c a do
      c.encodeHead
      count 2 "fields_count" c.fields.length
      each Member.encode before
      m.encodeBefore as
  | ofMethod {before after : List Member} {m : Member} {as bs : List Attribute} {a : Attribute}
    (methods : c.methods = before ++ m :: after) (attributes : m.attributes = as ++ a :: bs) :
    AttributeAt c a do
      c.encodeHead
      counted "fields_count" Member.encode c.fields
      count 2 "methods_count" c.methods.length
      each Member.encode before
      m.encodeBefore as
  | ofClass {as bs : List Attribute} {a : Attribute} (attributes : c.attributes = as ++ a :: bs) :
    AttributeAt c a do
      c.encodeHead
      counted "fields_count" Member.encode c.fields
      counted "methods_count" Member.encode c.methods
      count 2 "attributes_count" c.attributes.length
      each Attribute.encode as

theorem encode_eq_head (c : ClassFile) : c.encode = (do
    c.encodeHead
    counted "fields_count" Member.encode c.fields
    counted "methods_count" Member.encode c.methods
    counted "attributes_count" Attribute.encode c.attributes) := by
  simp only [encode, encodeHead, bind_assoc]

section

variable {m : Member} {before after ms : List Member} {as bs : List Attribute} {a : Attribute}
  {c : ClassFile} {front : Encode}

theorem encode_member_eq (h : m.attributes = as ++ a :: bs) :
    m.encode = (do m.encodeBefore as; a.encode; each Attribute.encode bs) := by
  simp only [Member.encode, Member.encodeBefore, counted, h, each_append, each, bind_assoc]

theorem counted_members_eq (what : String) (hms : ms = before ++ m :: after)
    (hattributes : m.attributes = as ++ a :: bs) :
    counted what Member.encode ms = (do
      count 2 what ms.length
      each Member.encode before
      m.encodeBefore as
      a.encode
      each Attribute.encode bs
      each Member.encode after) := by
  have heach : each Member.encode ms = (do
      each Member.encode before
      m.encodeBefore as
      a.encode
      each Attribute.encode bs
      each Member.encode after) := by
    rw [hms, each_append, each, encode_member_eq hattributes]
    simp only [bind_assoc]
  rw [counted, heach]

/-- An attribute is written right behind what is in front of it. -/
theorem AttributeAt.exists_rest (h : c.AttributeAt a front) :
    ∃ rest, c.encode = (do front; a.encode; rest) := by
  rw [encode_eq_head]
  cases h with
  | @ofField before after m as bs _ hfields hattributes =>
    refine ⟨do each Attribute.encode bs
               each Member.encode after
               counted "methods_count" Member.encode c.methods
               counted "attributes_count" Attribute.encode c.attributes, ?_⟩
    rw [counted_members_eq _ hfields hattributes]
    simp only [bind_assoc]
  | @ofMethod before after m as bs _ hmethods hattributes =>
    refine ⟨do each Attribute.encode bs
               each Member.encode after
               counted "attributes_count" Attribute.encode c.attributes, ?_⟩
    rw [counted_members_eq _ hmethods hattributes]
    simp only [bind_assoc]
  | @ofClass as bs _ hattributes =>
    refine ⟨each Attribute.encode bs, ?_⟩
    simp only [counted, hattributes, each_append, each, bind_assoc]

end

/-- What is in front of an attribute is written as some bytes, or not at all. -/
theorem AttributeAt.writes {c : ClassFile} {a : Attribute} {front : Encode}
    (h : c.AttributeAt a front) : ∃ fits out, Writes front fits out := by
  have hhead : Writes c.encodeHead _ _ :=
    (writes_u32 magic).seq <| (writes_u16 _).seq <| (writes_u16 _).seq <|
      c.pool.writes_encode.seq <| (writes_u16 _).seq <| (writes_u16 _).seq <|
        (writes_u16 _).seq <| writes_counted _ writes_u16 _
  have hattributes (as : List Attribute) := writes_each Attribute.writes_encode as
  have hmembers (ms : List Member) := writes_each Member.writes_encode ms
  have hbefore (m : Member) (as : List Attribute) : Writes (m.encodeBefore as) _ _ :=
    (writes_u16 _).seq <| (writes_u16 _).seq <| (writes_u16 _).seq <|
      (writes_count 2 _ _).seq (hattributes as)
  have hcounted (what : String) (ms : List Member) :=
    writes_counted what Member.writes_encode ms
  cases h with
  | ofField _ _ =>
    exact ⟨_, _, hhead.seq <| (writes_count 2 _ _).seq <| (hmembers _).seq (hbefore _ _)⟩
  | ofMethod _ _ =>
    exact ⟨_, _, hhead.seq <| (hcounted _ _).seq <| (writes_count 2 _ _).seq <|
      (hmembers _).seq (hbefore _ _)⟩
  | ofClass _ =>
    exact ⟨_, _, hhead.seq <| (hcounted _ _).seq <| (hcounted _ _).seq <|
      (writes_count 2 _ _).seq (hattributes _)⟩

/-- What is in front of an attribute is written the same way to any sink. -/
theorem AttributeAt.eq_bytes {c : ClassFile} {a : Attribute} {front : Encode}
    (h : c.AttributeAt a front) {bytes : List UInt8} (hfront : front.run = .ok bytes) :
    front = Encode.bytes bytes := by
  obtain ⟨fits, out, hwrites⟩ := h.writes
  obtain ⟨hfits, rfl⟩ := hwrites.run_eq_ok_iff.mp hfront
  exact hwrites.of_fits hfits

end ClassFile

/-- If an attribute cannot be written then nothing of it is, except that its name is if the payload
is all there but too long. A class has then been written up to where the attribute is. -/
theorem Attribute.encode_untorn (a : Attribute) (written : Array UInt8) :
    (∀ err s, a.encode { written } = .error err s →
      (a.encodePayload.run = .error err ∧ s = { written }) ∨
        ∃ payload, a.encodePayload.run = .ok payload ∧ 0xffffffff < payload.length ∧
          err = .countOverflow "attribute_length" payload.length ∧
          s = { written := written ++ Layout.u16 a.nameIndex }) ∧
      ∀ (c : ClassFile) (front : Encode) (bytes : List UInt8) (err : Error),
        c.AttributeAt a front → front.run = .ok bytes → a.encodePayload.run = .error err →
          c.encode { written } = .error err { written := written ++ bytes } := by
  refine ⟨fun err s h => ?_, fun c front bytes err hat hfront hpayload => ?_⟩
  · rw [encode_eq] at h
    cases hpayload : a.encodePayload.run with
    | error err' =>
      rw [encodeFramed_of_error hpayload] at h
      cases h
      exact .inl ⟨rfl, rfl⟩
    | ok payload =>
      by_cases hfits : payload.length ≤ 0xffffffff
      · rw [encodeFramed_of_fits hpayload hfits] at h
        cases h
      · have hlong : 0xffffffff < payload.length := Nat.lt_of_not_le hfits
        rw [encodeFramed_of_long hpayload hlong] at h
        cases h
        exact .inr ⟨payload, rfl, hlong, rfl, rfl⟩
  · obtain ⟨rest, hrest⟩ := hat.exists_rest
    rw [hrest, hat.eq_bytes hfront, encode_eq, encodeFramed_of_error hpayload, throw_bind]
    rfl

theorem Opcode.zero_assigned : (0x00 : UInt8) ≤ 0xca ∨ 0xfe ≤ (0x00 : UInt8) := .inl (by decide)

/-- Code with code in it, where the second stack frame of that cannot be written. -/
def Attribute.misframed : Attribute :=
  .code 1 ⟨1, 1, [.plain ⟨0x00, Opcode.zero_assigned⟩], []⟩
    [.leaf 1 .deprecated, .code 1 ⟨0, 0, [], []⟩ [.leaf 1 (.stackMapTable [.same 63, .same 64])]]

/-- A class whose only method has this as its second attribute. -/
def ClassFile.misframed : ClassFile where
  minorVersion := 0
  majorVersion := 52
  pool := .ofList [.utf8 [0x41], .classInfo 1]
  accessFlags := 0x21
  thisClass := 2
  superClass := 0
  interfaces := []
  fields := []
  methods := [⟨9, 1, 1, [.leaf 1 .deprecated, .misframed]⟩]
  attributes := []

theorem Attribute.encode_untorn_misframed :
    let err := Error.countOverflow "offset_delta of a same frame" 64
    let before : Array UInt8 := #[7]
    let front := ClassFile.misframed.layout.take 43
    (∃ s, misframed.encode { written := before } = .error err s ∧ s = { written := before }) ∧
      ∃ encodeFront, ClassFile.misframed.AttributeAt misframed encodeFront ∧
        encodeFront.run = .ok front ∧ misframed.encodePayload.run = .error err ∧
        ClassFile.misframed.encode { written := before } =
          .error err { written := before ++ front } := by
  intro err before front
  have hpayload : misframed.encodePayload.run = .error err := rfl
  obtain ⟨s, hencode⟩ : ∃ s, misframed.encode { written := before } = .error err s := by
    rw [encode_eq, encodeFramed_of_error hpayload]
    exact ⟨_, rfl⟩
  obtain ⟨encodeFront, hat, hfront⟩ :
      ∃ e, ClassFile.misframed.AttributeAt misframed e ∧ e.run = .ok front :=
    ⟨_, @ClassFile.AttributeAt.ofMethod .misframed [] [] ⟨9, 1, 1, [.leaf 1 .deprecated, misframed]⟩
      [.leaf 1 .deprecated] [] misframed rfl rfl, run_eq_ok_of_toOption (by decide +kernel)⟩
  obtain ⟨hattribute, hclass⟩ := encode_untorn misframed before
  refine ⟨⟨s, hencode, ?_⟩, encodeFront, hat, hfront, hpayload,
    hclass _ _ _ _ hat hfront hpayload⟩
  obtain ⟨-, hs⟩ | ⟨payload, hok, -⟩ := hattribute err s hencode
  · exact hs
  · rw [hpayload] at hok
    cases hok

end JavaClass

import JavaClass.Listing.ClassFile
import JavaClass.Proofs.ConstantCalls

/-!
# Listings without an end

All constants of a class are listed, so making the listing goes on for ever if there are method
handles that lead back to where they have been, even if nothing else refers to them
(`ClassFile.listing_endless_iff`). Without such handles, all parts of a listing come to an end, be
it that something that they need is not there (`Listing.Ends`).
-/

namespace JavaClass

namespace Pool

variable {p : Pool} {index : UInt16} {kind : UInt8}

theorem acyclic_of_error {e : Error} (h : p.get index = .error e) : p.Acyclic index := by
  have hstay : ∀ path next, p.Visits index path next → path = [] ∧ next = index := by
    intro path next hvisits
    induction hvisits with
    | here => exact ⟨rfl, rfl⟩
    | step hvisits hget ih =>
      obtain ⟨-, rfl⟩ := ih
      cases h.symm.trans hget
  intro path next hvisits
  obtain ⟨rfl, -⟩ := hstay path next hvisits
  exact List.not_mem_nil

theorem not_acyclic_of_self (h : p.get index = .ok (.methodHandle kind index)) :
    ¬ p.Acyclic index :=
  fun hacyclic => hacyclic [index] index (.step .here h) (List.mem_cons_self ..)

end Pool

namespace Listing

/-! ### What comes to an end -/

/-- There is a result, or something that is needed for it is not there. -/
def Ends {α : Type} (x : Except Obstacle α) : Prop :=
  FailsWith (· ≠ .endless) x

section

variable {α : Type}

theorem ends_pure (a : α) : Ends (pure a) := failsWith_ok a

theorem ends_require (r : Except Error α) : Ends (require r) := by
  cases r with
  | error e => exact failsWith_error nofun
  | ok a => exact failsWith_ok a

theorem ends_requireFor (context : String) (r : Except Error α) : Ends (requireFor context r) := by
  cases r with
  | error e => exact failsWith_error nofun
  | ok a => exact failsWith_ok a

end

/-! ### The constants -/

section

variable {p : Pool} {c : Constant} {n : Nat}

@[simp] theorem succeeds_await {α : Type} {o : Option α} : Succeeds (await o) ↔ o.isSome := by
  cases o with
  | none => exact iff_of_false (not_succeeds_error _) nofun
  | some a => exact iff_of_true (succeeds_ok a) rfl

@[simp] theorem succeeds_poolLine : Succeeds (poolLine p n c) ↔ (constantText p c).isSome := by
  simp [poolLine]

theorem isSome_constantText (hacyclic : ∀ index, p.Acyclic index) (c : Constant) :
    (constantText p c).isSome := by
  by_cases hkind : c.kind = .methodHandle
  · obtain ⟨kind, index, rfl⟩ := Constant.exists_of_kind hkind
    cases hget : p.get index with
    | error e =>
      rw [constantText_of_error hget]
      rfl
    | ok d =>
      rw [constantText_of_get hget, Option.isSome_map]
      exact (constantText_isSome_iff hget).mpr (hacyclic index)
  · rw [constantText_of_kind hkind]
    rfl

/-- To list the constants takes no more than that handles do not come back. -/
@[simp] theorem succeeds_poolLines : Succeeds (poolLines p) ↔ ∀ index, p.Acyclic index := by
  have hlines : Succeeds (poolLines p) ↔ ∀ n c, (n, c) ∈ p.indexed → (constantText p c).isSome := by
    simp [poolLines]
  rw [hlines]
  constructor
  · intro h index
    cases hget : p.get index with
    | error e => exact Pool.acyclic_of_error hget
    | ok c => exact (constantText_isSome_iff hget).mp (h _ c (Pool.mem_indexed_of_get hget))
  · exact fun hacyclic n c _ => isSome_constantText hacyclic c

/-- A line for a constant needs nothing but the text. -/
theorem failsWith_poolLine : FailsWith (· = .endless) (poolLine p n c) := by
  rw [poolLine]
  cases constantText p c with
  | none => exact failsWith_error rfl
  | some text => exact failsWith_ok _

theorem poolLines_endless {index : UInt16} (h : ¬ p.Acyclic index) :
    poolLines p = .error .endless := by
  cases hlines : poolLines p with
  | ok lines => exact absurd (succeeds_poolLines.mp ⟨lines, hlines⟩ index) h
  | error obstacle =>
    have hfails : FailsWith (· = .endless) (poolLines p) :=
      (failsWith_mapM fun _ _ => failsWith_poolLine).bind fun _ => failsWith_ok _
    rw [hfails obstacle hlines]

end

/-! ### All that comes after the constants -/

section

variable {p : Pool}

variable (hacyclic : ∀ index, p.Acyclic index)

include hacyclic

theorem succeeds_reference (index : UInt16) : Succeeds (reference p index) := by
  rw [reference]
  split
  · next c hget => simp [isSome_constantText hacyclic c]
  · exact succeeds_pure _

theorem succeeds_instructionLines (pc : Nat) (i : Instruction) :
    Succeeds (instructionLines p pc i) := by
  have hcomment : ∀ index : Option UInt16, Succeeds (index.elim (pure none) (reference p)) := by
    rintro (_ | index)
    · exact succeeds_pure none
    · exact succeeds_reference hacyclic index
  cases i with
  | tableSwitch => exact succeeds_pure _
  | lookupSwitch => exact succeeds_pure _
  | _ => exact succeeds_bind.mpr ((hcomment _).imp fun comment h => ⟨h, succeeds_pure _⟩)

theorem succeeds_codeLines (code : List Instruction) : Succeeds (codeLines p code) := by
  refine succeeds_bind.mpr ((succeeds_foldlM ?_ code _).imp fun last h => ⟨h, succeeds_pure _⟩)
  rintro ⟨pc, before⟩ i
  exact succeeds_bind.mpr
    ((succeeds_instructionLines hacyclic pc i).imp fun lines h => ⟨h, succeeds_pure _⟩)

theorem ends_requireText (c : Constant) : Ends (requireText p c) := by
  obtain ⟨r, hr⟩ := Option.isSome_iff_exists.mp (isSome_constantText hacyclic c)
  rw [requireText, hr]
  exact ends_require r

omit hacyclic

theorem ends_briefLines (indent : String) (a : Attribute) : Ends (briefLines p indent a) :=
  (ends_require _).bind fun _ => ends_pure _

theorem ends_variableLine (v : LocalVariable) : Ends (variableLine p v) :=
  (ends_require _).bind fun _ => (ends_require _).bind fun _ => ends_pure _

theorem ends_variableLines (title : String) (entries : List LocalVariable) :
    Ends (variableLines p title entries) :=
  (failsWith_mapM fun v _ => ends_variableLine v).bind fun _ => ends_pure _

theorem ends_frameLine (f : StackFrame) : Ends (frameLine f) :=
  (ends_require _).bind fun _ => ends_pure _

theorem ends_codeAttributeLines (a : Attribute) : Ends (codeAttributeLines p a) := by
  unfold codeAttributeLines
  split
  · exact ends_pure _
  · exact ends_variableLines _ _
  · exact ends_variableLines _ _
  · exact (failsWith_mapM fun f _ => ends_frameLine f).bind fun _ => ends_pure _
  · exact ends_briefLines _ _

theorem ends_handlerLine (h : ExceptionHandler) : Ends (handlerLine p h) :=
  (ends_require _).bind fun _ => ends_pure _

theorem ends_handlerLines (handlers : List ExceptionHandler) : Ends (handlerLines p handlers) := by
  unfold handlerLines
  split
  · exact ends_pure []
  · exact (failsWith_mapM fun h _ => ends_handlerLine h).bind fun _ => ends_pure _

theorem ends_parameterLine (parameter : MethodParameter) : Ends (parameterLine p parameter) :=
  (ends_require _).bind fun _ => ends_pure _

theorem ends_innerClassLine (c : InnerClass) : Ends (innerClassLine p c) :=
  (ends_require _).bind fun _ => ends_pure _

theorem ends_enclosingLine (classIndex methodIndex : UInt16) :
    Ends (enclosingLine p classIndex methodIndex) :=
  (ends_require _).bind fun _ => (ends_require _).bind fun _ => ends_pure _

include hacyclic

theorem ends_blockLines (block : CodeBlock) (attributes : List Attribute) :
    Ends (blockLines p block attributes) :=
  (succeeds_codeLines hacyclic _).failsWith.bind fun _ => (ends_handlerLines _).bind fun _ =>
    (failsWith_mapM fun a _ => ends_codeAttributeLines a).bind fun _ => ends_pure _

theorem ends_memberAttributeLines (a : Attribute) : Ends (memberAttributeLines p a) := by
  unfold memberAttributeLines
  split
  · exact ends_blockLines hacyclic _ _
  · exact (ends_require _).bind fun _ => (ends_requireText hacyclic _).bind fun _ => ends_pure _
  · exact (ends_require _).bind fun _ => ends_pure _
  · exact ends_pure _
  · exact (failsWith_mapM fun parameter _ => ends_parameterLine parameter).bind fun _ => ends_pure _
  · exact ends_pure _
  · exact ends_pure _
  · exact ends_briefLines _ _

theorem ends_argumentLine (index : UInt16) : Ends (argumentLine p index) :=
  (ends_require _).bind fun _ => (ends_requireText hacyclic _).bind fun _ => ends_pure _

theorem ends_bootstrapLines (m : BootstrapMethod) (position : Nat) :
    Ends (bootstrapLines p m position) :=
  (ends_require _).bind fun _ => (ends_requireText hacyclic _).bind fun _ =>
    (failsWith_mapM fun index _ => ends_argumentLine hacyclic index).bind fun _ => ends_pure _

theorem ends_classAttributeLines (a : Attribute) : Ends (classAttributeLines p a) := by
  unfold classAttributeLines
  split
  · exact (ends_require _).bind fun _ => ends_pure _
  · exact ends_pure _
  · exact (ends_require _).bind fun _ => ends_pure _
  · exact (failsWith_mapM fun _ _ => ends_require _).bind fun _ => ends_pure _
  · exact (failsWith_mapM fun c _ => ends_innerClassLine c).bind fun _ => ends_pure _
  · exact (ends_enclosingLine _ _).bind fun _ => ends_pure _
  · exact (failsWith_mapM fun _ _ => ends_bootstrapLines hacyclic _ _).bind fun _ => ends_pure _
  · exact ends_pure _
  · exact ends_pure _
  · exact ends_briefLines _ _

theorem ends_memberLines (word : String) (holder : AccessFlag.Holder)
    (title : UInt16 → String → String → String) (m : Member) :
    Ends (memberLines p word holder title m) :=
  (ends_requireFor _ _).bind fun _ => (ends_requireFor _ _).bind fun _ =>
    (failsWith_mapM fun a _ => ends_memberAttributeLines hacyclic a).bind fun _ => ends_pure _

end

theorem ends_classLines {c : ClassFile} (hacyclic : ∀ index, c.pool.Acyclic index) :
    Ends (classLines c) :=
  (ends_requireFor _ _).bind fun _ => (succeeds_poolLines.mpr hacyclic).failsWith.bind fun _ =>
    (failsWith_mapM fun m _ => ends_memberLines hacyclic _ _ _ m).bind fun _ =>
      (failsWith_mapM fun m _ => ends_memberLines hacyclic _ _ _ m).bind fun _ =>
        (failsWith_mapM fun a _ => ends_classAttributeLines hacyclic a).bind fun _ => ends_pure _

end Listing

/-- Making a listing goes on for ever just if the class has a name, which comes first, and there are
handles that lead back to where they have been. -/
theorem ClassFile.listing_endless_iff (c : ClassFile) :
    c.listing = .error .endless ↔
      c.pool.HasClassName c.thisClass ∧ ∃ index, ¬ c.pool.Acyclic index := by
  constructor
  · intro h
    constructor
    · cases hname : c.pool.getClassName c.thisClass with
      | ok name => exact Listing.succeeds_getClassName.mp ⟨name, hname⟩
      | error e =>
        rw [listing, Listing.classLines, hname] at h
        cases h
    · by_contra hnone
      have hacyclic : ∀ index, c.pool.Acyclic index := fun index =>
        Classical.not_not.mp fun hcycle => hnone ⟨index, hcycle⟩
      have hends : Listing.Ends c.listing :=
        (Listing.ends_classLines hacyclic).bind fun _ => Listing.ends_pure _
      exact hends _ h rfl
  · rintro ⟨hname, index, hcycle⟩
    obtain ⟨name, hname⟩ := Listing.succeeds_getClassName.mpr hname
    rw [listing, Listing.classLines, hname, Listing.poolLines_endless hcycle]
    rfl

/-- A handle that refers to itself is enough. -/
theorem ClassFile.listing_endless_of_self {c : ClassFile} {index : UInt16} {kind : UInt8}
    (hname : c.pool.HasClassName c.thisClass)
    (hself : c.pool.get index = .ok (.methodHandle kind index)) : c.listing = .error .endless :=
  c.listing_endless_iff.mpr ⟨hname, index, Pool.not_acyclic_of_self hself⟩

end JavaClass

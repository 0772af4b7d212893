import SchemaTypings.Proofs.Decoding

/-!
Generated interfaces are unambiguous. Two schemas that have the same code under one name have the
same properties, but for what comments do not show, whatever the interfaces of the run and the
reference style, as long as the numbers among the values of enumerations are integers.
-/

namespace SchemaTypings

/-! ### The values of enumerations -/

mutual

/-- The values of the enumerations in a field, at any depth. -/
def Field.enumerated : Field → List Literal
  | ⟨_, kind, _, _, child, _, _, literals⟩ =>
    (if kind = .enumeration then literals else []) ++ enumeratedBelow child

def enumeratedBelow : Child Field → List Literal
  | .nothing => []
  | .element field => field.enumerated
  | .fields tree => enumeratedIn tree

/-- The values of the enumerations in a tree, at any depth. -/
def enumeratedIn : List Field → List Literal
  | [] => []
  | field :: rest => field.enumerated ++ enumeratedIn rest

end

theorem mem_enumeratedIn {tree : FieldTree} {f : Field} (h : f ∈ tree) {v : Literal}
    (hv : v ∈ f.enumerated) : v ∈ enumeratedIn tree := by
  induction tree with
  | nil => cases h
  | cons g rest ih =>
    rw [enumeratedIn, List.mem_append]
    rcases List.mem_cons.1 h with rfl | h
    · exact .inl hv
    · exact .inr (ih h)

/-- A sound field is so for what its values satisfy. -/
theorem Field.IsSound.of_enumerated {value value' : Literal → Prop} {f : Field}
    (h : f.IsSound value) (all : ∀ v ∈ f.enumerated, value v → value' v) : f.IsSound value' := by
  induction h with
  | @intro f name targets values _ _ elementIh fieldsIh =>
    obtain ⟨fName, kind, required, base, child, target, viaRef, literals⟩ := f
    rw [enumerated] at all
    refine .intro name targets ?_ ?_ ?_
    · rintro rfl
      obtain ⟨some, holds⟩ := values rfl
      exact ⟨some, fun v hv => all v (List.mem_append_left _ hv) (holds v hv)⟩
    · rintro e rfl
      exact elementIh e rfl fun v hv => all v (List.mem_append_right _ hv)
    · rintro tree rfl g hg
      exact fieldsIh tree rfl g hg fun v hv =>
        all v (List.mem_append_right _ (mem_enumeratedIn hg hv))

/-- The numbers among values are integers. -/
def AreIntegers (values : List Literal) : Prop :=
  ∀ v ∈ values, v.isNumber = true → v.integer?.isSome = true

instance (values : List Literal) : Decidable (AreIntegers values) :=
  inferInstanceAs (Decidable (∀ v ∈ values, v.isNumber = true → v.integer?.isSome = true))

theorem Literal.IsEnumerable.isExact {v : Literal} (h : v.IsEnumerable)
    (integer : v.isNumber = true → v.integer?.isSome = true) : v.IsExact := by
  cases v with
  | text s => exact .text s
  | int i => exact .int i
  | float x => cases integer rfl
  | _ => cases h

/-! ### Interfaces with the same code -/

namespace Generator

variable {fields fields' : List (Property TypeExpr)}

/-- Properties whose code can be read back are told by the code of an interface. -/
theorem commented_eq_of_interfaceText (name : Text)
    (h : ∀ p ∈ fields, p.name.isNameAndFeed = false ∧ p.type.IsMapped Literal.IsExact)
    (h' : ∀ p ∈ fields', p.name.isNameAndFeed = false ∧ p.type.IsMapped Literal.IsExact)
    (same : interfaceText name (fields.map Property.code) =
      interfaceText name (fields'.map Property.code)) :
    fields.map Property.commented = fields'.map Property.commented := by
  have text (fields : List (Property TypeExpr)) :
      interfaceText name (fields.map Property.code) = "export interface " ++ name ++ " \x7b" ++
        ((fields.map (TypeText.afterGap "\n  ")).flatten ++ "\n\x7d") := by
    rw [interfaceText, List.map_map, List.append_assoc]
    rfl
  rw [text, text] at same
  have body := List.append_cancel_left same
  obtain ⟨n, read⟩ := TypeText.exists_readProperties TypeText.separates_line (fun p hp => (h p hp).1)
    fun p hp => TypeText.readsType_of_isMapped (h p hp).2
  obtain ⟨n', read'⟩ := TypeText.exists_readProperties TypeText.separates_line
    (fun p hp => (h' p hp).1) fun p hp => TypeText.readsType_of_isMapped (h' p hp).2
  have first := read (max n n') (by omega) []
  have second := read' (max n n') (by omega) []
  rw [List.append_nil] at first second
  rw [body, second] at first
  exact (Prod.mk.inj (Option.some.inj first)).1.symm

/-- A declaration whose numeric values are integers has an interface, and the code of the interface
tells the properties. -/
theorem exists_exact_fields (style : Settings.RefStyle) {known : InterfaceNames}
    (spelled : known.AreSpelled) {text normalized : Text} {path : Option Text} {tree : FieldTree}
    (hn : (Declaration.normalize text).outcome = .ok normalized)
    (hm : (FieldTree.materialize normalized path).outcome = .ok tree)
    (integers : AreIntegers (enumeratedIn tree)) (name : Text) :
    ∃ fields, (styled style).model name tree known = .ok ⟨name, fields⟩ ∧
      (∀ p ∈ fields, p.name.isNameAndFeed = false ∧ p.type.IsMapped Literal.IsExact) ∧
      (styled style).single ⟨name, fields⟩ =
        .ok (interfaceText name (fields.map Property.code)) := by
  have whole : treeIsWhole tree = true := by
    obtain ⟨es, -, rfl⟩ := FieldTree.materialize_eq_ok.1 hm
    exact FieldTree.isWhole_declared es
  have sound : ∀ f ∈ tree, f.IsSound Literal.IsExact := by
    intro f hf
    refine (FieldTree.isSound_of_normalize hn hm f hf).of_enumerated fun v hv enumerable => ?_
    exact enumerable.isExact (integers v (mem_enumeratedIn hf hv))
  obtain ⟨fields, made, -, mapped, single⟩ := exists_fields spelled whole sound style name
  exact ⟨fields, made, mapped, single⟩

/-- Two declarations have interfaces under one name, and if these have the same code, they have the
same properties, as far as comments show what did not resolve. -/
theorem properties_eq_of_single_eq {style : Settings.RefStyle} {g : Generator}
    (created : create .typeScript { refStyle := .text style.label } = .ok g)
    {paths : List Text} {known : InterfaceNames} (named : (Batch.namesOf g paths).outcome = .ok known)
    {text normalized : Text} {path : Option Text} {tree : FieldTree}
    (hn : (Declaration.normalize text).outcome = .ok normalized)
    (hm : (FieldTree.materialize normalized path).outcome = .ok tree)
    (integers : AreIntegers (enumeratedIn tree))
    {text' normalized' : Text} {path' : Option Text} {tree' : FieldTree}
    (hn' : (Declaration.normalize text').outcome = .ok normalized')
    (hm' : (FieldTree.materialize normalized' path').outcome = .ok tree')
    (integers' : AreIntegers (enumeratedIn tree')) (name : Text) :
    ∃ i i' code code', (g.model name tree known = .ok i ∧ g.single i = .ok code) ∧
      (g.model name tree' known = .ok i' ∧ g.single i' = .ok code') ∧
      (code = code' → i.fields.map Property.commented = i'.fields.map Property.commented) := by
  cases (create_styled style).symm.trans created
  have spelled : known.AreSpelled := fun _ _ => Batch.isInterfaceName_of_namesOf rfl named
  obtain ⟨fields, made, mapped, single⟩ :=
    exists_exact_fields style spelled hn hm integers name
  obtain ⟨fields', made', mapped', single'⟩ :=
    exists_exact_fields style spelled hn' hm' integers' name
  exact ⟨_, _, _, _, ⟨made, single⟩, ⟨made', single'⟩,
    commented_eq_of_interfaceText name mapped mapped'⟩

/-! ### A sample -/

/-- The canonical text and the tree of a declaration, and the code of its interface. -/
def codeOf (g : Generator) (known : InterfaceNames) (name text : Text) :
    Except Error (Text × FieldTree × Text) := do
  let normalized ← (Declaration.normalize text).outcome.mapError Error.read
  let tree ← (FieldTree.materialize normalized none).outcome.mapError Error.read
  let i ← g.model name tree known
  pure (normalized, tree, ← g.single i)

/-- A declaration that names a schema of the run and one that is not, with a blank in its name. -/
def blankText (blank : Text) : Text :=
  "s = new Schema(\x7b a: 'b" ++ blank ++
    "c', e: [\x7b type: Number, enum: [1, 2] \x7d], u: \x7b type: ObjectId, ref: 'user' \x7d \x7d);"

theorem outcomes_of_codeOf {g : Generator} {known : InterfaceNames} {name text normalized code : Text}
    {tree : FieldTree} (h : codeOf g known name text = .ok (normalized, tree, code)) :
    (Declaration.normalize text).outcome = .ok normalized ∧
      (FieldTree.materialize normalized none).outcome = .ok tree ∧
      ∃ i, g.model name tree known = .ok i ∧ g.single i = .ok code := by
  rw [codeOf] at h
  obtain ⟨text, canonical, h⟩ := bind_eq_ok.1 h
  obtain ⟨fields, materialized, h⟩ := bind_eq_ok.1 h
  obtain ⟨i, made, h⟩ := bind_eq_ok.1 h
  obtain ⟨printed, single, h⟩ := bind_eq_ok.1 h
  cases h
  exact ⟨mapError_eq_ok.1 canonical, mapError_eq_ok.1 materialized, i, made, single⟩

/-- Whether two declarations have the same code, with none but integers among the values. -/
def agree (g : Generator) (paths : List Text) (name text text' : Text) : Bool :=
  match (Batch.namesOf g paths).outcome with
  | .ok known =>
    match codeOf g known name text, codeOf g known name text' with
    | .ok (_, tree, code), .ok (_, tree', code') =>
      decide (AreIntegers (enumeratedIn tree) ∧ AreIntegers (enumeratedIn tree') ∧ code = code')
    | _, _ => false
  | .error _ => false

theorem exists_of_agree {g : Generator} {paths : List Text} {name text text' : Text}
    (ran : agree g paths name text text' = true) :
    ∃ known normalized normalized' tree tree' code,
      (Batch.namesOf g paths).outcome = .ok known ∧
      codeOf g known name text = .ok (normalized, tree, code) ∧ AreIntegers (enumeratedIn tree) ∧
      codeOf g known name text' = .ok (normalized', tree', code) ∧
      AreIntegers (enumeratedIn tree') := by
  rw [agree] at ran
  split at ran
  · next known named =>
    split at ran
    · next normalized tree code normalized' tree' code' ok ok' =>
      obtain ⟨integers, integers', rfl⟩ := of_decide_eq_true ran
      exact ⟨known, normalized, normalized', tree, tree', code, named, ok, integers, ok', integers'⟩
    · cases ran
  · cases ran

theorem exists_blank :
    ∃ known normalized normalized' tree tree' code,
      (Batch.namesOf (styled .union) ["user.js"]).outcome = .ok known ∧
      codeOf (styled .union) known "I" (blankText " ") = .ok (normalized, tree, code) ∧
      AreIntegers (enumeratedIn tree) ∧
      codeOf (styled .union) known "I" (blankText "\\n") = .ok (normalized', tree', code) ∧
      AreIntegers (enumeratedIn tree') := by
  refine exists_of_agree ?_
  rw [blankText, blankText]
  repeat rw [Text.ofString_ofList]
  decide +kernel

theorem properties_eq_of_single_eq_blank :
    create .typeScript { refStyle := .text Settings.RefStyle.union.label } = .ok (styled .union) ∧
      ∃ known, (Batch.namesOf (styled .union) ["user.js"]).outcome = .ok known ∧
        ∃ normalized tree normalized' tree',
          ((Declaration.normalize (blankText " ")).outcome = .ok normalized ∧
            (FieldTree.materialize normalized none).outcome = .ok tree ∧
            AreIntegers (enumeratedIn tree)) ∧
          ((Declaration.normalize (blankText "\\n")).outcome = .ok normalized' ∧
            (FieldTree.materialize normalized' none).outcome = .ok tree' ∧
            AreIntegers (enumeratedIn tree')) ∧
          ∃ i i' code, ((styled .union).model "I" tree known = .ok i ∧
              (styled .union).single i = .ok code) ∧
            ((styled .union).model "I" tree' known = .ok i' ∧
              (styled .union).single i' = .ok code) ∧
            i.fields.map Property.commented = i'.fields.map Property.commented := by
  obtain ⟨known, normalized, normalized', tree, tree', code, named, ok, integers, ok', integers'⟩ :=
    exists_blank
  obtain ⟨hn, hm, j, made, single⟩ := outcomes_of_codeOf ok
  obtain ⟨hn', hm', j', made', single'⟩ := outcomes_of_codeOf ok'
  refine ⟨create_styled .union, known, named, normalized, tree, normalized', tree', ⟨hn, hm, integers⟩,
    ⟨hn', hm', integers'⟩, ?_⟩
  obtain ⟨i, i', _, _, ⟨model, printed⟩, ⟨model', printed'⟩, same⟩ :=
    properties_eq_of_single_eq (create_styled .union) named hn hm integers hn' hm' integers' "I"
  cases made.symm.trans model
  cases made'.symm.trans model'
  cases single.symm.trans printed
  cases single'.symm.trans printed'
  exact ⟨j, j', code, ⟨made, single⟩, ⟨made', single'⟩, same rfl⟩

end Generator

end SchemaTypings

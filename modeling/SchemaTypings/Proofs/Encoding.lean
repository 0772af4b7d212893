import SchemaTypings.Proofs.Extraction
import SchemaTypings.Proofs.Lines
import SchemaTypings.Proofs.Spans
import SchemaTypings.Text.Utf8

/-!
Generated code as bytes. The code of an interface has an encoding unless a text in the interface has
a surrogate: the name of a property, a value of an enumeration, or what a reference that did not
resolve refers to. No source that can be read has one, but a string in it may denote one by an
escape.
-/

namespace SchemaTypings

/-! ### Texts with an encoding -/

/-- No code point of the text is a surrogate. -/
def Text.IsEncodable (s : Text) : Prop := s.hasSurrogate = false

namespace CodePoint

variable {c : CodePoint}

theorem isSome_utf8? (c : CodePoint) : c.utf8?.isSome = !c.isSurrogate := by
  unfold utf8?
  dsimp only
  cases surrogate : c.isSurrogate with
  | true =>
    simp only [isSurrogate, Bool.and_eq_true, decide_eq_true_eq] at surrogate
    rw [if_neg (by omega), if_neg (by omega), if_pos rfl]
    rfl
  | false => split_ifs <;> first | rfl | contradiction

theorem hidden_of_isSurrogate (h : c.isSurrogate = true) : c.isVisible = false := by
  have last : '~'.toNat = 126 := rfl
  simp only [isSurrogate, Bool.and_eq_true, decide_eq_true_eq] at h
  simp only [isVisible, isBetween, Bool.and_eq_false_iff, decide_eq_false_iff_not]
  omega

theorem notBlank_of_isSurrogate (h : c.isSurrogate = true) : c.isBlank = false := by
  simp only [isSurrogate, Bool.and_eq_true, decide_eq_true_eq] at h
  have high (edge : Nat) (low : edge ≤ 0x4000) : ¬c.val < edge := by omega
  simp [isBlank, blankEdges, Edges.contains, high]

end CodePoint

namespace Text

variable {s t : Text}

theorem isSome_encode? (s : Text) : (Utf8.encode? s).isSome = true ↔ s.IsEncodable := by
  rw [Utf8.encode?, Option.isSome_map, IsEncodable]
  induction s with
  | nil => exact ⟨fun _ => rfl, fun _ => rfl⟩
  | cons c s ih =>
    have char := c.isSome_utf8?
    rw [hasSurrogate] at ih ⊢
    rw [List.mapM_cons, List.any_cons, Bool.or_eq_false_iff, ← ih]
    cases bytes : c.utf8? with
    | none => simp_all
    | some b => cases rest : s.mapM CodePoint.utf8? <;> simp_all

theorem isEncodable_iff : s.IsEncodable ↔ ∀ c : CodePoint, c.isSurrogate = true → c ∉ s := by
  rw [IsEncodable, hasSurrogate, List.any_eq_false]
  exact ⟨fun all c half mem => all c mem half, fun none c mem half => none c half mem⟩

theorem IsEncodable.subset (h : t.IsEncodable) (sub : s ⊆ t) : s.IsEncodable :=
  isEncodable_iff.2 fun c half mem => isEncodable_iff.1 h c half (sub mem)

theorem isEncodable_congr (h : ∀ c : CodePoint, c.isSurrogate = true → (c ∈ s ↔ c ∈ t)) :
    s.IsEncodable ↔ t.IsEncodable := by
  rw [isEncodable_iff, isEncodable_iff]
  exact forall₂_congr fun c half => not_congr (h c half)

theorem isEncodable_append : (s ++ t).IsEncodable ↔ s.IsEncodable ∧ t.IsEncodable := by
  rw [IsEncodable, hasSurrogate, List.any_append, Bool.or_eq_false_iff]
  rfl

theorem isEncodable_flatten {parts : List Text} :
    Text.IsEncodable parts.flatten ↔ ∀ s ∈ parts, s.IsEncodable := by
  induction parts with
  | nil => exact ⟨fun _ => nofun, fun _ => rfl⟩
  | cons s rest ih => rw [List.flatten_cons, isEncodable_append, ih, List.forall_mem_cons]

theorem isEncodable_of_visible (visible : s.all CodePoint.isVisible = true) : s.IsEncodable :=
  isEncodable_iff.2 fun _ half => not_mem_of_visible (CodePoint.hidden_of_isSurrogate half) visible

/-! ### Texts in code -/

theorem isEncodable_quoted : s.quoted.IsEncodable ↔ s.IsEncodable := by
  refine isEncodable_congr fun c half => ?_
  rw [mem_quoted_iff (CodePoint.hidden_of_isSurrogate half), and_iff_left_iff_imp]
  intro _
  simp only [CodePoint.isSurrogate, Bool.and_eq_true, decide_eq_true_eq] at half
  omega

theorem isEncodable_asKey : s.asKey.IsEncodable ↔ s.IsEncodable := by
  rw [asKey]
  split
  · exact Iff.rfl
  · exact isEncodable_quoted

/-- Only what is replaced gets lost. -/
theorem mem_replace_of_mem {old : Text} {c : CodePoint} (h : c ∈ s) (other : c ∉ old) (new : Text) :
    c ∈ replace old new s := by
  unfold replace
  split
  · exact h
  · next some =>
    fun_induction replace.go old some new s with
    | case1 => exact h
    | case2 d rest here ih =>
      obtain ⟨behind, eq⟩ := List.isPrefixOf_iff_prefix.1 here
      rw [← eq, List.drop_left] at ih ⊢
      rw [← eq] at h
      exact List.mem_append_right _ (ih ((List.mem_append.1 h).resolve_left other))
    | case3 d rest _ ih =>
      exact (List.mem_cons.1 h).elim (fun eq => eq ▸ List.mem_cons_self)
        fun h => List.mem_cons_of_mem d (ih h)

/-- Only separators get lost. -/
theorem exists_mem_splitWhere {p : CodePoint → Bool} {c : CodePoint} (h : c ∈ s)
    (plain : p c = false) : ∃ piece ∈ splitWhere p s, c ∈ piece := by
  induction s with
  | nil => cases h
  | cons d s ih =>
    rw [splitWhere]
    cases pieces : splitWhere p s with
    | nil => exact absurd pieces (splitWhere_ne_nil p s)
    | cons first others =>
      rw [pieces] at ih
      dsimp only
      rcases List.mem_cons.1 h with rfl | h
      · exact ⟨c :: first, by simp [plain], List.mem_cons_self⟩
      · obtain ⟨piece, mem, hc⟩ := ih h
        split
        · exact ⟨piece, List.mem_cons_of_mem _ mem, hc⟩
        · rcases List.mem_cons.1 mem with rfl | mem
          · exact ⟨d :: piece, List.mem_cons_self, List.mem_cons_of_mem d hc⟩
          · exact ⟨piece, List.mem_cons_of_mem _ mem, hc⟩

theorem isEncodable_asComment : s.asComment.IsEncodable ↔ s.IsEncodable := by
  refine isEncodable_congr fun c half => ?_
  have outside {mark : Text} (visible : mark.all CodePoint.isVisible = true) : c ∉ mark :=
    not_mem_of_visible (CodePoint.hidden_of_isSurrogate half) visible
  have space : c ∉ ofString " " := outside (by decide)
  constructor
  · intro h
    have joined := (mem_of_mem_replace h).resolve_left (outside (by decide))
    obtain ⟨word, hw, hc⟩ := (mem_join space _).1 joined
    exact (mem_of_mem_splitWhere (List.mem_filter.1 hw).1 hc).1
  · intro h
    refine mem_replace_of_mem ((mem_join space _).2 ?_) (outside (by decide)) _
    obtain ⟨word, hw, hc⟩ := exists_mem_splitWhere h (CodePoint.notBlank_of_isSurrogate half)
    exact ⟨word, List.mem_filter.2 ⟨hw, by simpa using List.ne_nil_of_mem hc⟩, hc⟩

end Text

theorem Literal.isEncodable_asType {v : Literal} (h : v.IsEnumerable)
    (texts : ∀ s, v = .text s → s.IsEncodable) : v.asType.IsEncodable := by
  refine Text.isEncodable_iff.2 fun c half => ?_
  refine not_mem_asType (CodePoint.hidden_of_isSurrogate half) h fun s eq => ?_
  exact Text.isEncodable_iff.1 (Text.isEncodable_quoted.2 (texts s eq)) c half

/-! ### Texts in types -/

/-- The text is the name of a type, one of its values, or the name of one of its properties. -/
def TypeExpr.Mentions (t : TypeExpr) (s : Text) : Prop :=
  t.name = .text s ∨ .text s ∈ t.literals ∨ ∃ p ∈ t.fields, p.name = s

/-- The text is the name of a property, or that of a property, a value or a name in its type. -/
def Interface.Mentions (i : Interface) (s : Text) : Prop :=
  ∃ p ∈ i.fields, p.name = s ∨ ∃ t : TypeExpr, t.OccursIn p.type ∧ t.Mentions s

/-- Every text that gets into the code of a type is without surrogates. -/
abbrev TypeExpr.IsEncodable : TypeExpr → Prop :=
  Holds Text.IsEncodable Text.IsEncodable (·.asType.IsEncodable)

namespace TypeExpr

variable {value : Literal → Prop} {t u : TypeExpr} {s : Text}

theorem IsEncodable.isEncodable_code (h : t.IsEncodable) : t.code.IsEncodable := by
  refine Text.isEncodable_iff.2 fun c half => ?_
  have none {s : Text} (encodable : s.IsEncodable) : c ∉ s :=
    Text.isEncodable_iff.1 encodable c half
  refine Holds.not_mem_code (CodePoint.hidden_of_isSurrogate half) h ?_ ?_ ?_
  · exact fun s encodable => none (Text.isEncodable_asKey.2 encodable)
  · exact fun s encodable => none (Text.isEncodable_asComment.2 encodable)
  · exact fun v => none

theorem isEncodable_propertyText (name : Text) (optional : Bool) (type : Text) :
    (propertyText name optional type).IsEncodable ↔ name.IsEncodable ∧ type.IsEncodable := by
  rw [← Text.isEncodable_asKey (s := name), ← Text.isEncodable_append]
  refine Text.isEncodable_congr fun c half => ?_
  rw [mem_propertyText_iff (CodePoint.hidden_of_isSurrogate half), List.mem_append]

theorem IsMapped.isEncodable (h : t.IsMapped Literal.IsEnumerable)
    (all : ∀ u : TypeExpr, u.OccursIn t → ∀ s, u.Mentions s → s.IsEncodable) : t.IsEncodable := by
  induction h with
  | base base => exact .base base
  | interface spelled => exact .interface spelled
  | choice base spelled => exact .choice base spelled
  | target s hints => exact .target s hints (all _ .self s (.inl rfl))
  | literals some values =>
    refine .literals some fun v hv => Literal.isEncodable_asType (values v hv) ?_
    rintro s rfl
    exact all _ .self s (.inr (.inl hv))
  | array _ ih => exact .array (ih fun u occurs => all u (.element rfl occurs))
  | object _ _ ih =>
    refine .object (fun p hp => ?_) fun p hp => ?_
    · exact all _ .self p.name (.inr (.inr ⟨p, hp, rfl⟩))
    · exact ih p hp fun u occurs => all u (.field hp occurs)

/-- What a type mentions is in its code. -/
theorem IsMapped.isEncodable_of_mentions (h : t.IsMapped value) (code : t.code.IsEncodable)
    (mentioned : t.Mentions s) : s.IsEncodable := by
  rcases mentioned with name | value | ⟨p, hp, rfl⟩
  · cases h with
    | base base =>
      refine Text.isEncodable_of_visible ?_
      cases base <;> cases name <;> decide
    | interface spelled =>
      cases name
      exact Text.isEncodable_of_visible spelled.all_isVisible
    | target target hints =>
      cases name
      rw [code_ofTarget, Text.isEncodable_append, Text.isEncodable_append] at code
      exact Text.isEncodable_asComment.1 code.1.2
    | choice | literals | array | object =>
      cases name
      rfl
  · cases h with
    | @literals literals =>
      rw [code_ofLiterals] at code
      have part : s.quoted <:+: Text.join " | " (literals.map Literal.asType) :=
        Text.infix_join (List.mem_map_of_mem (f := Literal.asType) value)
      exact Text.isEncodable_quoted.1 (code.subset part.subset)
    | _ => cases value
  · cases h with
    | object keys types =>
      have part := infix_code_objectOf (fun q hq => (types q hq).prints) hp
      exact ((isEncodable_propertyText ..).1 (code.subset part.subset)).1
    | _ => cases hp

end TypeExpr

namespace Generator

variable {name : Text} {fields : List (Property TypeExpr)}

theorem isEncodable_interfaceText (spelled : name.IsInterfaceName) :
    (interfaceText name (fields.map Property.code)).IsEncodable ↔
      ∀ p ∈ fields, p.name.IsEncodable ∧ p.type.code.IsEncodable := by
  have own (p : Property TypeExpr) :
      (line p.code).IsEncodable ↔ p.name.IsEncodable ∧ p.type.code.IsEncodable :=
    TypeExpr.isEncodable_propertyText ..
  have start : (Text.ofString "export interface ").IsEncodable := rfl
  have opening : (Text.ofString " \x7b").IsEncodable := rfl
  have close : (Text.ofString "\n\x7d").IsEncodable := rfl
  have named := Text.isEncodable_of_visible spelled.all_isVisible
  simp [interfaceText, Text.isEncodable_append, Text.isEncodable_flatten, own, start, opening,
    close, named]

/-- The code of an interface has an encoding exactly if all that the interface mentions has one. -/
theorem isEncodable_interfaceText_iff (spelled : name.IsInterfaceName)
    (mapped : ∀ p ∈ fields, p.type.IsMapped Literal.IsEnumerable) :
    (interfaceText name (fields.map Property.code)).IsEncodable ↔
      ∀ s, Interface.Mentions ⟨name, fields⟩ s → s.IsEncodable := by
  rw [isEncodable_interfaceText spelled]
  constructor
  · rintro all s ⟨p, hp, mentioned⟩
    obtain ⟨key, code⟩ := all p hp
    rcases mentioned with rfl | ⟨t, occurs, mentioned⟩
    · exact key
    · obtain ⟨inner, part⟩ := occurs.isMapped (mapped p hp)
      exact inner.isEncodable_of_mentions (code.subset part.subset) mentioned
  · intro all p hp
    refine ⟨all _ ⟨p, hp, .inl rfl⟩, ?_⟩
    refine TypeExpr.IsEncodable.isEncodable_code
      ((mapped p hp).isEncodable fun u occurs s mentioned => ?_)
    exact all s ⟨p, hp, .inr ⟨u, occurs, mentioned⟩⟩

end Generator

/-! ### The texts of a declaration -/

/-- The value is no text and no object, or it has no surrogate in its text or in its keys. -/
def Literal.isEncodable : Literal → Bool
  | .text s => !s.hasSurrogate
  | .object es => (Entries.keys es).all (!·.hasSurrogate)
  | _ => true

namespace Declaration

variable {text : Text} {ts : List Token}

theorem isEncodable_slice (h : text.IsEncodable) (start stop : Nat) :
    (slice text start stop).IsEncodable :=
  h.subset fun _ mem => List.drop_subset _ _ (List.take_subset _ _ mem)

/-- Of the tokens of a text only the strings can have a surrogate that the text does not have. -/
theorem vocabulary_of_tokenize (plain : text.IsEncodable) (tokens : tokenize text = .ok ts)
    (strings : ∀ t ∈ ts, t.kind = .string → t.value.IsEncodable) :
    Vocabulary Text.IsEncodable Text.IsEncodable Text.IsEncodable text ts := by
  have written (t : Token) (ht : t ∈ ts) (kind : t.kind = .name ∨ t.kind = .number) :
      t.value.IsEncodable := by
    have some : t.kind ≠ .eof := by rcases kind with h | h <;> simp [h]
    have written : t.kind.IsWritten t.value (Declaration.slice text t.pos t.stop) :=
      ((isRow_of_tokenize tokens).written List.length_nil.symm t ht some).2.2
    have slice : Declaration.slice text t.pos t.stop = t.value := by
      rcases kind with h | h <;> simpa [TokenKind.IsWritten, h] using written
    rw [← slice]
    exact isEncodable_slice plain ..
  refine ⟨fun t ht kind => written t ht (.inl kind), strings, ?_, ?_, isEncodable_slice plain⟩
  · rintro t ht (kind | kind | kind)
    · exact written t ht (.inl kind)
    · exact strings t ht kind
    · exact written t ht (.inr kind)
  · intro p q hp hq
    have point : (Text.ofString ".").IsEncodable := rfl
    exact Text.isEncodable_append.2 ⟨Text.isEncodable_append.2 ⟨hp, point⟩, hq⟩

theorem exists_tokens_of_normalize {normalized : Text}
    (h : (normalize text).outcome = .ok normalized) : ∃ ts, tokenize text = .ok ts := by
  rw [outcome_normalize] at h
  obtain ⟨raw, read, -⟩ := bind_eq_ok.1 h
  obtain ⟨-, ⟨ts, -, -, -, tokens, -⟩, -⟩ := exists_declares read
  exact ⟨ts, tokens⟩

end Declaration

theorem Raw.quotes_isEncodable : Quotes Text.IsEncodable Text.IsEncodable
    (fun keys => ∀ k ∈ keys, k.IsEncodable) Literal.isEncodable := by
  have tag (s : Text) (h : s.IsEncodable) (name : Text) :
      ((Entries.get? typeTags name).getD s).IsEncodable := by
    have tags : ∀ e ∈ typeTags, e.2.hasSurrogate = false := by decide
    cases get : Entries.get? typeTags name with
    | none => exact h
    | some t => exact tags _ (Entries.mem_of_get? get)
  have text {s : Text} (h : s.IsEncodable) : (Literal.text s).isEncodable = true := by
    rw [Literal.isEncodable, h]
    rfl
  refine ⟨fun s h => ⟨text (tag s h _), text h⟩, fun s h => ⟨text ?_, text h⟩, ?_, ?_⟩
  · rw [typeOfText]
    split
    · rfl
    · exact tag s h s
  · intro es all
    refine List.all_eq_true.2 fun k hk => ?_
    rw [all k hk]
    rfl
  · intro v noText noObject
    cases v with
    | text => cases noText
    | object es => exact absurd rfl (noObject es)
    | _ => rfl

namespace FieldTree

variable {text normalized : Text} {path : Option Text} {tree : FieldTree} {ts : List Token}

/-- A declaration whose strings have no surrogates has fields without surrogates. -/
theorem isEncodable_of_normalize (hn : (Declaration.normalize text).outcome = .ok normalized)
    (hm : (materialize normalized path).outcome = .ok tree) (plain : text.IsEncodable)
    (tokens : tokenize text = .ok ts)
    (strings : ∀ t ∈ ts, t.kind = .string → t.value.IsEncodable) :
    ∀ f ∈ tree, f.Holds Text.IsEncodable Text.IsEncodable (·.asType.IsEncodable) := by
  obtain ⟨fields, es, typed, -, respelled, rfl⟩ := exists_respelled hn hm
  rw [Declaration.outcome_read] at typed
  obtain ⟨raw, read, rfl⟩ := map_eq_ok.1 typed
  have speaks := Declaration.speaks_of_readRaw read fun us same => by
    cases tokens.symm.trans same
    exact Declaration.vocabulary_of_tokenize plain tokens strings
  have holds := speaks.mono (fun _ => id) (fun _ => id) fun _ keys => keys.2
  have quoted := holds.everywhere_quoteFields Raw.quotes_isEncodable
  have texts (s : Text) (h : (Literal.text s).isEncodable = true) : s.IsEncodable := by
    simpa [Literal.isEncodable, Text.IsEncodable] using h
  have keys (es : Entries Literal) (h : (Literal.object es).isEncodable = true) :
      ∀ k ∈ Entries.keys es, k.IsEncodable := by
    simpa [Literal.isEncodable, Text.IsEncodable] using h
  have again : (Literal.object es).everywhere Literal.isEncodable = true := by
    rw [← respelled]
    refine (Raw.Holds.everywhere_quoted Raw.quotes_isEncodable
      (Literal.reread_holds texts ⟨rfl, rfl, rfl⟩ (fun es h k hk => ?_) _ quoted)).2
    refine (keys es h k hk).subset ?_
    rw [Text.keyRead]
    split
    · exact List.dropLast_subset k
    · exact List.Subset.refl k
  have admits : Field.Admits Literal.isEncodable Text.IsEncodable Text.IsEncodable
      (·.asType.IsEncodable) := by
    refine ⟨keys, texts, fun v h enumerable => ?_, rfl⟩
    refine Literal.isEncodable_asType enumerable ?_
    rintro s rfl
    exact texts s h
  exact Field.holds_declaredTree admits es (admits.entries again) [] (by simp)

end FieldTree

/-! ### Converted sources -/

namespace Batch

variable {known : InterfaceNames} {source path : Text} {c : Conversion}

/-- The code of a converted source has an encoding exactly if all that its interface mentions has
one, and it has one if the strings in the declaration do. -/
theorem encodable_of_converted {paths : List Text}
    (named : (namesOf .standard paths).outcome = .ok known) (plain : source.hasSurrogate = false)
    (ran : (convert .standard known source path).outcome = .ok c)
    (converted : c.status = .converted) :
    ∃ d ts i, (Declaration.extract source).outcome = .ok (some d) ∧ tokenize d.text = .ok ts ∧
      c.model = some i ∧
      ((Utf8.encode? c.code).isSome = true ↔ ∀ s, i.Mentions s → s.hasSurrogate = false) ∧
      ((∀ t ∈ ts, t.kind = .string → t.value.hasSurrogate = false) →
        (Utf8.encode? c.code).isSome = true) := by
  obtain ⟨-, ⟨other, -⟩ | ⟨tree, name, i, result⟩⟩ := convert_cases ran
  · exact absurd converted other
  have spelled : known.AreSpelled := fun _ _ => isInterfaceName_of_namesOf rfl named
  have interface := isInterfaceName_of_chosenName spelled result.chosen
  obtain ⟨fields, rfl, -, mapped, code⟩ := result.exists_fields spelled result.isSound
  obtain ⟨d, normalized, found, canonical, materialized⟩ := result.canonical
  obtain ⟨ts, tokens⟩ := Declaration.exists_tokens_of_normalize canonical
  refine ⟨d, ts, _, found, tokens, result.model, ?_, fun strings => ?_⟩
  · rw [Text.isSome_encode?, code]
    exact Generator.isEncodable_interfaceText_iff interface fun p hp => (mapped p hp).2
  · obtain ⟨parts⟩ := Declaration.exists_parts found
    have part : d.text.IsEncodable := by
      rw [parts.text_eq_slice]
      exact Declaration.isEncodable_slice plain ..
    have sound := FieldTree.isEncodable_of_normalize canonical materialized part tokens strings
    obtain ⟨_, same, -, encodable, -⟩ := result.exists_fields spelled sound
    cases same
    rw [Text.isSome_encode?, code, Generator.isEncodable_interfaceText interface]
    exact fun p hp => (encodable p hp).imp_right TypeExpr.IsEncodable.isEncodable_code

/-- A schema with escapes in a name and in a value, of which one denotes a code point that has no
shorter escape, and with a reference that does not resolve. -/
def escapedSource : Text :=
  "const s = new Schema(\x7b 'caf\\u00e9': \x7b type: String, enum: ['\\u\x7b1F600\x7d'] \x7d, " ++
    "of: ['D*/'] \x7d);"

theorem encodable_of_converted_escaped :
    ∃ known c, (namesOf .standard ["a.js"]).outcome = .ok known ∧
      escapedSource.hasSurrogate = false ∧
      (convert .standard known escapedSource "a.js").outcome = .ok c ∧ c.status = .converted ∧
      ∃ d ts i, (Declaration.extract escapedSource).outcome = .ok (some d) ∧
        tokenize d.text = .ok ts ∧ c.model = some i ∧
        ((Utf8.encode? c.code).isSome = true ↔ ∀ s, i.Mentions s → s.hasSurrogate = false) ∧
        ((∀ t ∈ ts, t.kind = .string → t.value.hasSurrogate = false) →
          (Utf8.encode? c.code).isSome = true) := by
  have ran : ((namesOf .standard ["a.js"]).outcome.toOption.any fun known =>
      (convert .standard known escapedSource "a.js").outcome.toOption.any fun c =>
        decide (c.status = .converted)) = true := by
    rw [escapedSource, Text.ofString_ofList, Text.ofString_ofList, Text.ofString_ofList]
    decide +kernel
  obtain ⟨known, named, ran⟩ := exists_of_toOption_any ran
  obtain ⟨c, ok, converted⟩ := exists_of_toOption_any ran
  have converted := of_decide_eq_true converted
  have plain : escapedSource.hasSurrogate = false := by
    rw [escapedSource, Text.ofString_ofList, Text.ofString_ofList]
    decide +kernel
  exact ⟨known, c, named, plain, ok, converted,
    encodable_of_converted named plain ok converted⟩

/-- Nothing that is read has a surrogate, and yet the code cannot be written. -/
def Unwritable (source path : Text) : Prop :=
  source.hasSurrogate = false ∧ path.hasSurrogate = false ∧
    ∃ known c, (namesOf .standard [path]).outcome = .ok known ∧
      (convert .standard known source path).outcome = .ok c ∧ c.status = .converted ∧
      Utf8.encode? c.code = none

/-- The two halves of a pair are two code points of the name that they escape. -/
theorem unwritable_pair :
    Unwritable "const s = new Schema(\x7b '\\ud83d\\ude00': String \x7d);" "a.js" := by
  have ran : (let source : Text := "const s = new Schema(\x7b '\\ud83d\\ude00': String \x7d);"
      !source.hasSurrogate && !(Text.ofString "a.js").hasSurrogate &&
        (namesOf .standard ["a.js"]).outcome.toOption.any fun known =>
          (convert .standard known source "a.js").outcome.toOption.any fun c =>
            decide (c.status = .converted) && (Utf8.encode? c.code).isNone) = true := by
    decide +kernel
  simp only [Bool.and_eq_true, Bool.not_eq_true', Option.any_eq_true, decide_eq_true_eq,
    Option.isNone_iff_eq_none] at ran
  obtain ⟨⟨plain, path⟩, known, named, c, ok, converted, none⟩ := ran
  exact ⟨plain, path, known, c, ok_of_toOption named, ok_of_toOption ok, converted, none⟩

end Batch

end SchemaTypings

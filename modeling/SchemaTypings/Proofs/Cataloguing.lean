import SchemaTypings.Catalog
import SchemaTypings.Proofs.Equality
import SchemaTypings.Proofs.LowerCase

/-!
What a catalog answers after any sequence of registrations. A name is looked up among the aliases
first, so a language is found under its own name unless the name was also made an alias of a
language of another kind. An alias is always one of a language that is listed.
-/

namespace SchemaTypings

/-- A call that registers a language: its name, what is offered for it, and other names for it. -/
structure Registration (α : Type) where
  name : Text
  offered : Option α
  aliases : List Text

namespace Registration

variable {α β : Type} {calls : List (Registration α)} {name : Text}

/-- What a call offers under a name, in any letter case. -/
def offers? (call : Registration α) (name : Text) : Option α :=
  if call.name.lower = name.lower then call.offered else none

/-- The language that a call makes a name, in any letter case, an alias of. A call that offers
nothing fails, and makes none. -/
def target? (call : Registration α) (name : Text) : Option Text :=
  if call.offered.isSome && call.aliases.any fun a => a.lower = name.lower then some call.name
  else none

/-- The last of what calls give, where not all of them give something. -/
def lastOf (f : Registration α → Option β) (calls : List (Registration α)) : Option β :=
  (calls.filterMap f).getLast?

/-- What the calls last offered under a name. -/
def lastOffered (calls : List (Registration α)) (name : Text) : Option α :=
  lastOf (fun call => call.offers? name) calls

/-- The language that the calls last made a name an alias of. -/
def lastTarget (calls : List (Registration α)) (name : Text) : Option Text :=
  lastOf (fun call => call.target? name) calls

theorem lastOf_concat (f : Registration α → Option β) (calls : List (Registration α))
    (call : Registration α) : lastOf f (calls ++ [call]) = (f call).or (lastOf f calls) := by
  simp only [lastOf, List.filterMap_append, List.getLast?_append, List.filterMap_cons,
    List.filterMap_nil]
  cases f call <;> rfl

theorem isSome_lastOf_iff {f : Registration α → Option β} :
    (lastOf f calls).isSome ↔ ∃ call ∈ calls, (f call).isSome := by
  simp [lastOf, Option.isSome_iff_ne_none]

theorem exists_of_lastOf {f : Registration α → Option β} {b : β} (h : lastOf f calls = some b) :
    ∃ call ∈ calls, f call = some b :=
  List.mem_filterMap.1 (List.mem_of_getLast? h)

/-- What was last offered depends on the name only up to letter case. -/
theorem lastOffered_lower (calls : List (Registration α)) (name : Text) :
    lastOffered calls name.lower = lastOffered calls name := by
  simp only [lastOffered, offers?, Text.lower_lower]

theorem isSome_lastTarget {call : Registration α} (mem : call ∈ calls)
    (offered : call.offered.isSome) (aliased : name ∈ call.aliases) :
    (lastTarget calls name).isSome := by
  have named : (call.aliases.any fun a => a.lower = name.lower) = true :=
    List.any_eq_true.2 ⟨name, aliased, decide_eq_true rfl⟩
  exact isSome_lastOf_iff.2 ⟨call, mem, by rw [target?, offered, named]; rfl⟩

/-- An alias is of a language for which something was offered in the same call. -/
theorem isSome_lastOffered_of_lastTarget {target : Text} (h : lastTarget calls name = some target) :
    (lastOffered calls target).isSome := by
  obtain ⟨call, mem, given⟩ := exists_of_lastOf h
  rw [target?, Option.ite_none_right_eq_some, Bool.and_eq_true] at given
  obtain ⟨⟨offered, -⟩, same⟩ := given
  cases same
  exact isSome_lastOf_iff.2 ⟨call, mem, by rwa [offers?, if_pos rfl]⟩

end Registration

namespace Catalog

open Registration (lastOffered lastTarget)

variable {α : Type}

/-- The catalog after a call. A call that fails leaves it as it is. -/
def after (c : Catalog α) (call : Registration α) : Catalog α :=
  match c.register call.name call.offered call.aliases with
  | .ok c' => c'
  | .error _ => c

/-- The catalog after a sequence of calls, from the empty one. -/
def ofCalls (calls : List (Registration α)) : Catalog α := calls.foldl after empty

theorem ofCalls_concat (calls : List (Registration α)) (call : Registration α) :
    ofCalls (calls ++ [call]) = (ofCalls calls).after call := List.foldl_concat ..

example : builtIn = ofCalls [⟨"typescript", some .typeScript, ["ts"]⟩] := by rfl

/-! ### One call -/

theorem after_of_none (c : Catalog α) {call : Registration α} (nothing : call.offered = none) :
    c.after call = c := by
  rw [after, nothing]
  rfl

theorem after_of_some (c : Catalog α) {call : Registration α} {language : α}
    (given : call.offered = some language) :
    c.after call = ⟨c.languages.put call.name.lower language,
      call.aliases.foldl (fun acc a => acc.put a.lower call.name.lower) c.aliases⟩ := by
  rw [after, given]
  rfl

theorem get?_foldl_put (es : Entries Text) (aliases : List Text) (target key : Text) :
    (aliases.foldl (fun acc a => acc.put a.lower target) es).get? key =
      if aliases.any fun a => a.lower = key then some target else es.get? key := by
  induction aliases generalizing es with
  | nil => rfl
  | cons a aliases ih =>
    rw [List.foldl_cons, ih, Entries.get?_put, List.any_cons]
    by_cases now : a.lower = key <;> simp [now]

theorem get?_languages_after (c : Catalog α) (call : Registration α) (name : Text) :
    (c.after call).languages.get? name.lower =
      (call.offers? name).or (c.languages.get? name.lower) := by
  rw [Registration.offers?]
  cases given : call.offered with
  | none => rw [c.after_of_none given, ite_self, Option.none_or]
  | some language =>
    rw [c.after_of_some given, Entries.get?_put]
    split <;> rfl

theorem get?_aliases_after (c : Catalog α) (call : Registration α) (name : Text) :
    (c.after call).aliases.get? name.lower =
      ((call.target? name).map Text.lower).or (c.aliases.get? name.lower) := by
  rw [Registration.target?]
  cases given : call.offered with
  | none => rw [c.after_of_none given]; rfl
  | some language =>
    rw [c.after_of_some given, get?_foldl_put, Option.isSome_some, Bool.true_and]
    split <;> rfl

theorem lower_of_mem_keys_after {c : Catalog α} (h : ∀ L ∈ c.languages.keys, L.lower = L)
    (call : Registration α) : ∀ L ∈ (c.after call).languages.keys, L.lower = L := by
  cases given : call.offered with
  | none => rwa [c.after_of_none given]
  | some language =>
    intro L mem
    rw [c.after_of_some given, Entries.keys_put] at mem
    split at mem
    · exact h L mem
    · rcases List.mem_append.1 mem with mem | mem
      · exact h L mem
      · rw [List.mem_singleton.1 mem, Text.lower_lower]

/-! ### A sequence of calls -/

theorem get?_languages (calls : List (Registration α)) (name : Text) :
    (ofCalls calls).languages.get? name.lower = lastOffered calls name := by
  induction calls using List.reverseRecOn with
  | nil => rfl
  | append_singleton calls call ih =>
    rw [ofCalls_concat, get?_languages_after, ih, lastOffered, lastOffered,
      Registration.lastOf_concat]

theorem get?_aliases (calls : List (Registration α)) (name : Text) :
    (ofCalls calls).aliases.get? name.lower = (lastTarget calls name).map Text.lower := by
  induction calls using List.reverseRecOn with
  | nil => rfl
  | append_singleton calls call ih =>
    rw [ofCalls_concat, get?_aliases_after, ih, lastTarget, lastTarget,
      Registration.lastOf_concat, Option.map_or]

theorem lower_of_mem_keys (calls : List (Registration α)) :
    ∀ L ∈ (ofCalls calls).languages.keys, L.lower = L := by
  induction calls using List.reverseRecOn with
  | nil => exact fun L mem => absurd mem List.not_mem_nil
  | append_singleton calls call ih =>
    rw [ofCalls_concat]
    exact lower_of_mem_keys_after ih call

/-- The listed names are those, in lower case, under which something was offered. -/
theorem mem_names_iff {calls : List (Registration α)} {L : Text} :
    L ∈ (ofCalls calls).names ↔ L.lower = L ∧ (lastOffered calls L).isSome := by
  have listed : L ∈ (ofCalls calls).names ↔ L ∈ (ofCalls calls).languages.keys :=
    List.mem_mergeSort
  have filed : L ∈ (ofCalls calls).languages.keys ↔
      ((ofCalls calls).languages.get? L).isSome := by
    rw [Option.isSome_iff_ne_none, ne_eq, Entries.get?_eq_none_iff, not_not]
  rw [listed]
  constructor
  · intro mem
    have low := lower_of_mem_keys calls L mem
    rw [filed, ← low, get?_languages] at mem
    exact ⟨low, mem⟩
  · rintro ⟨low, offered⟩
    rwa [filed, ← low, get?_languages]

theorem keyOf_ofCalls (calls : List (Registration α)) (name : Text) :
    (ofCalls calls).keyOf name = ((lastTarget calls name).getD name).lower := by
  rw [keyOf, get?_aliases]
  cases lastTarget calls name <;> rfl

/-- A name is that of the language it was last made an alias of, if it was made one. -/
theorem find_eq_ok_iff {calls : List (Registration α)} {name : Text} {language : α} :
    (ofCalls calls).find name = .ok language ↔
      lastOffered calls ((lastTarget calls name).getD name) = some language := by
  rw [find, keyOf_ofCalls, get?_languages]
  cases lastOffered calls ((lastTarget calls name).getD name) <;> simp

/-- After any sequence of calls, something was offered for every listed language, and what was
offered last is found under its name unless the name was last made an alias of a language for
which something else was offered last. Every alias is one of a listed language, and is found. -/
theorem find_ofCalls (calls : List (Registration α)) :
    (∀ L ∈ (ofCalls calls).names, ∃ language, lastOffered calls L = some language ∧
      ((ofCalls calls).find L = .ok language ↔
        ∀ target, lastTarget calls L = some target → lastOffered calls target = some language)) ∧
    ∀ call ∈ calls, call.offered.isSome → ∀ a ∈ call.aliases,
      (ofCalls calls).keyOf a ∈ (ofCalls calls).names ∧
        ∃ language, (ofCalls calls).find a = .ok language := by
  constructor
  · intro L mem
    obtain ⟨language, last⟩ := Option.isSome_iff_exists.1 (mem_names_iff.1 mem).2
    refine ⟨language, last, ?_⟩
    rw [find_eq_ok_iff]
    cases lastTarget calls L with
    | none => simp [last]
    | some target => simp
  · intro call mem offered a aliased
    obtain ⟨target, last⟩ := Option.isSome_iff_exists.1
      (Registration.isSome_lastTarget mem offered aliased)
    have found := Registration.isSome_lastOffered_of_lastTarget last
    constructor
    · rw [keyOf_ofCalls, last, Option.getD_some, mem_names_iff, Text.lower_lower]
      exact ⟨rfl, by rwa [Registration.lastOffered_lower]⟩
    · simp only [find_eq_ok_iff, last, Option.getD_some]
      exact Option.isSome_iff_exists.1 found

/-- A language registered twice, with a call that fails in between. -/
def renewed : List (Registration Language) :=
  [⟨"TypeScript", some .plain, ["ts"]⟩, ⟨"docs", none, ["typescript"]⟩,
    ⟨"typescript", some .typeScript, ["TSX"]⟩]

theorem find_renewed :
    ("typescript" : Text) ∈ (ofCalls renewed).names ∧
    (ofCalls renewed).find "typescript" = .ok .typeScript ∧
    (⟨"TypeScript", some .plain, ["ts"]⟩ : Registration Language) ∈ renewed ∧
    (ofCalls renewed).keyOf "ts" ∈ (ofCalls renewed).names ∧
    ∃ language, (ofCalls renewed).find "ts" = .ok language := by
  have listed : ("typescript" : Text) ∈ (ofCalls renewed).names := mem_names_iff.2 ⟨rfl, rfl⟩
  have called : (⟨"TypeScript", some .plain, ["ts"]⟩ : Registration Language) ∈ renewed :=
    List.mem_cons_self
  obtain ⟨languages, aliases⟩ := find_ofCalls renewed
  obtain ⟨language, last, found⟩ := languages "typescript" listed
  have given : lastOffered renewed "typescript" = some .typeScript := rfl
  cases given.symm.trans last
  have own : lastTarget renewed "typescript" = none := rfl
  refine ⟨listed, found.2 fun target aliased => ?_, called,
    aliases _ called rfl "ts" List.mem_cons_self⟩
  rw [own] at aliased
  cases aliased

/-- A language whose name is given to another language as an alias. -/
def shadowed : List (Registration Language) :=
  [⟨"a", some .typeScript, []⟩, ⟨"b", some .plain, ["A"]⟩]

/-- A language that is listed need not be found under its name. -/
theorem find_shadowed :
    ("a" : Text) ∈ (ofCalls shadowed).names ∧ lastOffered shadowed "a" = some .typeScript ∧
    (ofCalls shadowed).find "a" = .ok .plain :=
  ⟨mem_names_iff.2 ⟨rfl, rfl⟩, rfl, rfl⟩

end Catalog

end SchemaTypings

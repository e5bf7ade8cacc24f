import Lectern.Import.Request
import Lectern.Proofs.Json.Record
import Lectern.Proofs.Json.RoundTrip

/-!
# Contexts and Their JSON Forms

A context is read back from the text that is written of it, whatever texts its conditions, its
attributes and its URL are. What is read is much more than what is written: fields may be missing,
null, in any order, or stand in an array, and unknown ones do not count. All the texts of a context
have one form, the one that is written, which is its own form.

The argument is one for both types of context. The document that is written of a record has the
fields of the record under their names, so they are found by them (`Json.fields?_ofMembers`), and
each is read as what it was written from.

## Main results

* `Dictionary.ofList_entries`: a dictionary from its own pairs.
* `ResolveContext.ofJson?_toJson`, `LoadContext.ofJson?_toJson`: contexts as values.
* `contexts_readBack`: contexts as texts, and their normal forms.
-/

namespace Lectern

/-! ### Dictionaries -/

/-- A key above all others goes to the end. -/
theorem insertPair_of_forall_lt {key value : Text} {entries : List (Text × Text)}
    (h : ∀ entry ∈ entries, entry.1 < key) :
    insertPair key value entries = entries ++ [(key, value)] := by
  induction entries with
  | nil => rfl
  | cons entry entries ih =>
    obtain ⟨hentry, hentries⟩ := List.forall_mem_cons.1 h
    have hnot : ¬ key < entry.1 := fun hlt => List.lt_irrefl _ (List.lt_trans hlt hentry)
    have hne : key ≠ entry.1 := fun heq => List.lt_irrefl _ (heq ▸ hentry)
    rw [insertPair, if_neg hnot, if_neg hne, ih hentries]
    rfl

namespace Dictionary

/-- Pairs that come in order behind those of a dictionary are added to its end. -/
theorem entries_foldl_insert {entries : List (Text × Text)} {dictionary : Dictionary}
    (h : (dictionary.entries ++ entries).Pairwise fun a b => a.1 < b.1) :
    (entries.foldl (fun dictionary (key, value) => dictionary.insert key value)
      dictionary).entries = dictionary.entries ++ entries := by
  induction entries generalizing dictionary with
  | nil => simp
  | cons entry entries ih =>
    have hentry : (dictionary.insert entry.1 entry.2).entries = dictionary.entries ++ [entry] :=
      insertPair_of_forall_lt fun other hother =>
        (List.pairwise_append.1 h).2.2 other hother entry List.mem_cons_self
    have hnext := @ih (dictionary.insert entry.1 entry.2) (by rw [hentry]; simpa using h)
    rw [List.foldl_cons, hnext, hentry, List.append_assoc]
    rfl

/-- **A dictionary** is that of its own pairs. -/
theorem ofList_entries (dictionary : Dictionary) : ofList dictionary.entries = dictionary := by
  have hentries := @entries_foldl_insert dictionary.entries .empty
    (by simpa [empty] using dictionary.ordered)
  cases dictionary
  exact Dictionary.mk.injEq .. ▸ hentries

end Dictionary

namespace Import

/-! ### Contexts as values -/

/-- Attributes are read back. -/
theorem readAttributes?_attributesJson (attributes : Dictionary) :
    readAttributes? (attributesJson attributes) = some attributes := by
  have hentries : ((attributes.entries.map fun entry => (entry.1, Json.ofText entry.2)).map
        fun member => ((some member.1 : Option Text), member.2)).mapM
      (fun member => do some (← member.1, ← member.2.text?)) = some attributes.entries := by
    rw [List.map_map, List.mapM_map]
    exact (mapM_eq_some_map fun _ _ => rfl).trans (congrArg some (List.map_id' _))
  rw [attributesJson, Json.ofMembers, readAttributes?]
  exact (congrArg (·.bind fun entries => some (Dictionary.ofList entries)) hentries).trans
    (congrArg some attributes.ofList_entries)

/-- A format is read back by its name. -/
theorem Format.ofJson?_toJson (format : Format) : Format.ofJson? format.toJson = some format := by
  cases format <;> decide

/-- **A context of a request to resolve** is read back from its document. -/
theorem ResolveContext.ofJson?_toJson (context : ResolveContext) :
    ofJson? context.toJson = some context := by
  have hfields : context.toJson.fields? fieldNames =
      some [some (.array (context.conditions.map .ofText)),
        some (attributesJson context.attributes),
        some (.ofOption .ofText context.parentUrl),
        some (.ofOption Format.toJson context.format)] :=
    Json.fields?_ofMembers (show fieldNames.Nodup by decide)
  have hparentUrl :=
    @Json.optional?_ofOption Text Json.ofText Json.text? (fun _ => rfl) rfl context.parentUrl
  have hformat := Json.optional?_ofOption Format.ofJson?_toJson rfl context.format
  rw [ofJson?, hfields]
  simp only [Option.bind_eq_bind, Option.bind_some, Json.required?, Json.texts?_map_ofText,
    readAttributes?_attributesJson, hparentUrl, hformat]

/-- **A context of a request to load** is read back from its document. -/
theorem LoadContext.ofJson?_toJson (context : LoadContext) :
    ofJson? context.toJson = some context := by
  have hfields : context.toJson.fields? fieldNames =
      some [some (.array (context.conditions.map .ofText)),
        some (attributesJson context.attributes),
        some (.ofOption Format.toJson context.format)] :=
    Json.fields?_ofMembers (show fieldNames.Nodup by decide)
  have hformat := Json.optional?_ofOption Format.ofJson?_toJson rfl context.format
  rw [ofJson?, hfields]
  simp only [Option.bind_eq_bind, Option.bind_some, Json.required?, Json.texts?_map_ofText,
    readAttributes?_attributesJson, hformat]

/-! ### Contexts as texts -/

/-- A context of a request to resolve is read back from its text. -/
theorem ResolveContext.parse?_serialize (context : ResolveContext) :
    parse? context.serialize = some context := by
  rw [parse?, serialize, Json.parse?_compact]
  exact ofJson?_toJson context

/-- A context of a request to load is read back from its text. -/
theorem LoadContext.parse?_serialize (context : LoadContext) :
    parse? context.serialize = some context := by
  rw [parse?, serialize, Json.parse?_compact]
  exact ofJson?_toJson context

/-- What is read back from its own form has that form as the **normal form** of all its texts. -/
theorem normalForm_of_readBack {α : Type} {parse? : Text → Option α} {serialize : α → Text}
    (h : ∀ x, parse? (serialize x) = some x) :
    (∀ s, ((parse? s).map serialize).bind parse? = parse? s) ∧
      ∀ s t, (parse? s).map serialize = (parse? t).map serialize ↔ parse? s = parse? t := by
  have hagain : ∀ s, ((parse? s).map serialize).bind parse? = parse? s := fun s => by
    cases hread : parse? s with
    | none => rfl
    | some x => exact h x
  refine ⟨hagain, fun s t => ⟨fun heq => ?_, fun heq => congrArg _ heq⟩⟩
  rw [← hagain s, ← hagain t, heq]

/-- **Contexts and their texts.** Each context of either type is read back from the text that is
written of it. What is written of whatever a text is read as is read as the same, and two texts have
the same form if and only if they are read as the same. -/
theorem contexts_readBack :
    (∀ context : ResolveContext, ResolveContext.parse? context.serialize = some context) ∧
      (∀ context : LoadContext, LoadContext.parse? context.serialize = some context) ∧
      (∀ s, ((ResolveContext.parse? s).map (·.serialize)).bind ResolveContext.parse? =
        ResolveContext.parse? s) ∧
      (∀ s t, (ResolveContext.parse? s).map (·.serialize) =
          (ResolveContext.parse? t).map (·.serialize) ↔
        ResolveContext.parse? s = ResolveContext.parse? t) ∧
      (∀ s, ((LoadContext.parse? s).map (·.serialize)).bind LoadContext.parse? =
        LoadContext.parse? s) ∧
      ∀ s t, (LoadContext.parse? s).map (·.serialize) = (LoadContext.parse? t).map (·.serialize) ↔
        LoadContext.parse? s = LoadContext.parse? t := by
  obtain ⟨hresolve, hresolveForm⟩ := normalForm_of_readBack ResolveContext.parse?_serialize
  obtain ⟨hload, hloadForm⟩ := normalForm_of_readBack LoadContext.parse?_serialize
  exact ⟨ResolveContext.parse?_serialize, LoadContext.parse?_serialize, hresolve, hresolveForm,
    hload, hloadForm⟩

/-- A text with an unknown field, an escaped letter and a missing field, and its normal form. -/
example : (LoadContext.parse?
      "\x7b \"format\": \"wasm\", \"more\": [1e9], \"conditions\": [\"\\u0061\"] \x7d".toList).map
        (·.serialize) =
    some ("\x7b\"conditions\":[\"a\"],".toList ++
      "\"importAttributes\":\x7b\x7d,\"format\":\"wasm\"\x7d".toList) := by
  decide +kernel

end Import

end Lectern

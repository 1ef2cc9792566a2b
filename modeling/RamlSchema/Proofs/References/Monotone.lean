import RamlSchema.Proofs.References.Graph
import RamlSchema.Proofs.References.Paths

/-!
# What more schemas change

More schemas, or the same in another order, may lead a reference elsewhere, and not even the step of
the search that finds something has to stay the same: a name that only letter case kept apart may
now be found exactly. What does not depend on the list as a whole is whether anything is found. It
comes down to a single schema with a name that the reference accepts (`Index.isSome_search_iff`),
and such a schema is still there in a longer or a reordered list.
-/

namespace RamlSchema.References

/-- A name that some step of a search takes for a reference. -/
def Reference.Accepts (reference : Reference) (name : String) : Prop :=
  name ∈ reference.names ∨
    Text.Case.lower name ∈
      ([reference.name, baseName reference.text].filter (!·.isEmpty)).map Text.Case.lower

namespace Index

variable {schemas others : List LoadedSchema} {reference : Reference}

theorem isSome_get?_ofSchemas_iff {name : String} :
    ((ofSchemas schemas).get? name).isSome = true ↔ ∃ schema ∈ schemas, name ∈ schema.keys := by
  rw [get?_ofSchemas, Option.isSome_map]
  exact isSome_firstWith?_iff

theorem isSome_findIgnoringCase_iff {candidates : List String} :
    ((ofSchemas schemas).findIgnoringCase candidates).isSome = true ↔
      ∃ schema ∈ schemas, ∃ name ∈ schema.keys,
        Text.Case.lower name ∈ (candidates.filter (!·.isEmpty)).map Text.Case.lower := by
  rw [findIgnoringCase, Option.isSome_map, List.find?_isSome]
  constructor
  · rintro ⟨⟨name, id⟩, hpair, hname⟩
    have hget := (nodupKeys_ofSchemas schemas).get?_eq_some_iff.mpr hpair
    obtain ⟨schema, hschema, hkey⟩ :=
      isSome_get?_ofSchemas_iff.mp (Option.isSome_iff_exists.mpr ⟨id, hget⟩)
    exact ⟨schema, hschema, name, hkey, by simpa using hname⟩
  · rintro ⟨schema, hschema, name, hkey, hname⟩
    obtain ⟨id, hget⟩ :=
      Option.isSome_iff_exists.mp (isSome_get?_ofSchemas_iff.mpr ⟨schema, hschema, hkey⟩)
    exact ⟨(name, id), Entries.mem_of_get?_eq_some hget, by simpa using hname⟩

/-- A search finds something exactly if some schema has a name that the reference accepts. -/
theorem isSome_search_iff :
    ((ofSchemas schemas).search reference).isSome = true ↔
      ∃ schema ∈ schemas, ∃ name ∈ schema.keys, reference.Accepts name := by
  rw [search, Option.isSome_or, Option.isSome_or, Option.isSome_or]
  simp only [Bool.or_eq_true, isSome_get?_ofSchemas_iff, isSome_findIgnoringCase_iff]
  simp only [Reference.Accepts, Reference.names, List.mem_cons, List.not_mem_nil, or_false]
  constructor
  · rintro (⟨schema, hschema, hname⟩ | ⟨schema, hschema, hname⟩ | ⟨schema, hschema, hname⟩ |
      ⟨schema, hschema, name, hname, hlower⟩)
    · exact ⟨schema, hschema, _, hname, .inl (.inl rfl)⟩
    · exact ⟨schema, hschema, _, hname, .inl (.inr (.inl rfl))⟩
    · exact ⟨schema, hschema, _, hname, .inl (.inr (.inr rfl))⟩
    · exact ⟨schema, hschema, name, hname, .inr hlower⟩
  · rintro ⟨schema, hschema, name, hname, (rfl | rfl | rfl) | hlower⟩
    · exact .inl ⟨schema, hschema, hname⟩
    · exact .inr (.inl ⟨schema, hschema, hname⟩)
    · exact .inr (.inr (.inl ⟨schema, hschema, hname⟩))
    · exact .inr (.inr (.inr ⟨schema, hschema, name, hname, hlower⟩))

theorem isSome_search_of_subset (hsubset : schemas ⊆ others)
    (hfound : ((ofSchemas schemas).search reference).isSome = true) :
    ((ofSchemas others).search reference).isSome = true := by
  obtain ⟨schema, hschema, hname⟩ := isSome_search_iff.mp hfound
  exact isSome_search_iff.mpr ⟨schema, hsubset hschema, hname⟩

theorem isNone_search_of_subset (hsubset : schemas ⊆ others)
    (hmissed : ((ofSchemas others).search reference).isNone = true) :
    ((ofSchemas schemas).search reference).isNone = true := by
  rw [← Option.not_isSome, Bool.not_eq_true'] at hmissed ⊢
  rw [Bool.eq_false_iff] at hmissed ⊢
  exact fun hfound => hmissed (isSome_search_of_subset hsubset hfound)

theorem isNone_search_of_perm (hperm : schemas.Perm others) (reference : Reference) :
    ((ofSchemas schemas).search reference).isNone =
      ((ofSchemas others).search reference).isNone := by
  rw [Bool.eq_iff_iff]
  exact ⟨isNone_search_of_subset hperm.symm.subset, isNone_search_of_subset hperm.subset⟩

end Index

/-! ### Misses -/

def Query.pair (query : Query) : String × String := (query.source, query.reference.text)

def missedIn (schemas : List LoadedSchema) (queries : List Query) : List Query :=
  queries.filter fun query => ((Index.ofSchemas schemas).search query.reference).isNone

/-- A fresh pass misses the queries of its list that find nothing there. -/
theorem misses_resolve_fresh (batchSize workers : Nat) (schemas : List LoadedSchema) :
    (({ batchSize, workers } : Resolver).resolve schemas).2.1.misses =
      missedIn schemas (queriesOf schemas) := by
  have houtcome := Resolver.outcome_resolve { batchSize, workers } schemas
  rw [answer_fresh] at houtcome
  exact congrArg Stats.misses houtcome

variable {schemas others : List LoadedSchema}

theorem missedIn_perm (hperm : schemas.Perm others) :
    (missedIn schemas (queriesOf schemas)).Perm (missedIn others (queriesOf others)) := by
  have hsame : missedIn schemas (queriesOf others) = missedIn others (queriesOf others) :=
    List.filter_congr fun query _ => Index.isNone_search_of_perm hperm query.reference
  rw [← hsame]
  exact (hperm.flatMap_right _).filter _

/-- What is missed in a longer list was missed before, or a new schema asks for it. -/
theorem missedIn_subperm {added : List LoadedSchema} (hperm : others.Perm (schemas ++ added)) :
    (missedIn others (queriesOf others)).Subperm
      (missedIn schemas (queriesOf schemas) ++ missedIn others (queriesOf added)) := by
  have hsubset : schemas ⊆ others := fun schema hschema =>
    hperm.mem_iff.mpr (List.mem_append_left added hschema)
  have hfewer : (missedIn others (queriesOf schemas)).Sublist
      (missedIn schemas (queriesOf schemas)) :=
    List.monotone_filter_right _ fun query => Index.isNone_search_of_subset hsubset
  have hsplit : (missedIn others (queriesOf others)).Perm
      (missedIn others (queriesOf schemas) ++ missedIn others (queriesOf added)) := by
    rw [missedIn, missedIn, missedIn, ← List.filter_append, ← queriesOf_append]
    exact (hperm.flatMap_right _).filter _
  exact hsplit.subperm.trans (hfewer.append_right _).subperm

/-- **More schemas resolve more.** A reference that is resolved in a list is resolved in every list
that has all its schemas, wherever they stand. So what a fresh pass misses does not depend on the
order of the schemas, and of the references of the old schemas more of them add none to it: what
is missed in a longer list was missed before, or a new schema asks for it. -/
theorem resolvability_is_monotone (schemas others : List LoadedSchema)
    (batchSize workers otherSize otherWorkers : Nat) :
    let missed := (({ batchSize, workers } : Resolver).resolve schemas).2.1.misses
    let otherMissed :=
      (({ batchSize := otherSize, workers := otherWorkers } : Resolver).resolve others).2.1.misses
    (schemas ⊆ others → ∀ reference target,
      (Index.ofSchemas schemas).search reference = some target →
        ∃ other, (Index.ofSchemas others).search reference = some other) ∧
    (schemas.Perm others → (missed.map Query.pair).Perm (otherMissed.map Query.pair)) ∧
    (schemas ⊆ others → ∀ schema ∈ schemas, ∀ reference ∈ schema.references,
      ⟨schema.id, reference⟩ ∈ otherMissed → ⟨schema.id, reference⟩ ∈ missed) ∧
    ∀ added, others.Perm (schemas ++ added) →
      (otherMissed.map Query.pair).Subperm
        (missed.map Query.pair ++ (missedIn others (queriesOf added)).map Query.pair) := by
  intro missed otherMissed
  have hmissed : missed = missedIn schemas (queriesOf schemas) :=
    misses_resolve_fresh batchSize workers schemas
  have hotherMissed : otherMissed = missedIn others (queriesOf others) :=
    misses_resolve_fresh otherSize otherWorkers others
  rw [hmissed, hotherMissed]
  refine ⟨?_, fun hperm => (missedIn_perm hperm).map _, ?_, ?_⟩
  · intro hsubset reference target hsearch
    exact Option.isSome_iff_exists.mp
      (Index.isSome_search_of_subset hsubset (Option.isSome_iff_exists.mpr ⟨target, hsearch⟩))
  · intro hsubset schema hschema reference hreference hquery
    exact List.mem_filter.mpr ⟨mem_queriesOf.mpr ⟨schema, hschema, rfl, hreference⟩,
      Index.isNone_search_of_subset hsubset (List.mem_filter.mp hquery).2⟩
  · intro added hperm
    rw [← List.map_append]
    obtain ⟨kept, hkept, hsublist⟩ := missedIn_subperm hperm
    exact ⟨kept.map Query.pair, hkept.map _, hsublist.map _⟩

/-- A reference that one schema of a list accepts, and one that none accepts. Another schema in
front of them takes over the first reference and leaves the second where it was. -/
theorem resolvability_is_monotone_rival :
    let upper : LoadedSchema := { id := "A", name := "Foo", relativePath := "Foo" }
    let lower : LoadedSchema := { id := "B", name := "foo", relativePath := "foo" }
    let source : LoadedSchema :=
      { id := "S", name := "S", relativePath := "S",
        references := [⟨"FOO", "FOO"⟩, ⟨"Gone", "Gone"⟩] }
    let missesOf := fun schemas => (({} : Resolver).resolve schemas).2.1.misses
    (Index.ofSchemas [upper, source]).search ⟨"FOO", "FOO"⟩ = some "A" ∧
    (∃ other, (Index.ofSchemas [lower, source, upper]).search ⟨"FOO", "FOO"⟩ = some other) ∧
    ((missesOf [upper, source]).map Query.pair).Perm
      ((missesOf [source, upper]).map Query.pair) ∧
    ⟨"S", ⟨"Gone", "Gone"⟩⟩ ∈ missesOf [upper, source] ∧
    ((missesOf [lower, source, upper]).map Query.pair).Subperm
      ((missesOf [upper, source]).map Query.pair ++ []) := by
  intro upper lower source missesOf
  have hfound : (Index.ofSchemas [upper, source]).search ⟨"FOO", "FOO"⟩ = some "A" := by
    decide +kernel
  obtain ⟨-, hreordered, -, -⟩ :=
    resolvability_is_monotone [upper, source] [source, upper] 50 4 50 4
  obtain ⟨hresolved, -, hmissed, hadded⟩ :=
    resolvability_is_monotone [upper, source] [lower, source, upper] 50 4 50 4
  have hperm : [lower, source, upper].Perm ([upper, source] ++ [lower]) := by decide +kernel
  have hsubset : [upper, source] ⊆ [lower, source, upper] := by decide +kernel
  have hsource : source ∈ [upper, source] := List.mem_cons_of_mem _ List.mem_cons_self
  have hgone : (⟨"Gone", "Gone"⟩ : Reference) ∈ source.references :=
    List.mem_cons_of_mem _ List.mem_cons_self
  exact ⟨hfound, hresolved hsubset _ _ hfound, hreordered (by decide +kernel),
    hmissed hsubset source hsource _ hgone (by decide +kernel), hadded [lower] hperm⟩

end RamlSchema.References

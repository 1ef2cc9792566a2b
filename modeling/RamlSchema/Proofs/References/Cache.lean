import RamlSchema.Proofs.References.Graph

/-!
# Kept results

A resolver keeps its results for a list whose names lead to the same schemas as before. That fixes
whether a reference is resolved and where the exact look-ups lead, but not where the last step of a
search leads, which takes the first name that differs in letter case only: the order of the names
has a say in it, and the results were found in an earlier order. So a pass agrees with a fresh one
exactly when its answers draw the same graph (`resolve_agrees_with_fresh_iff`).
-/

namespace RamlSchema.References

open Entries (SameLookups)

namespace Resolver

def afterAll (resolver : Resolver) (lists : List (List LoadedSchema)) : Resolver :=
  lists.foldl (fun resolver schemas => (resolver.resolve schemas).2.2) resolver

theorem batchSize_afterAll (resolver : Resolver) (lists : List (List LoadedSchema)) :
    (resolver.afterAll lists).batchSize = resolver.batchSize := by
  induction lists generalizing resolver with
  | nil => rfl
  | cons schemas lists ih => exact ih _

/-! ### Where kept results come from -/

/-- Every kept result was found in the index of a list of the history whose names lead to the same
schemas as the index in force. -/
structure Keeps (history : List (List LoadedSchema)) (resolver : Resolver) : Prop where
  index_mem : ∀ index, resolver.index? = some index →
    ∃ earlier ∈ history, index = Index.ofSchemas earlier
  cache_mem : ∀ index, resolver.index? = some index → ∀ pair ∈ resolver.cache,
    ∃ earlier ∈ history, SameLookups index (Index.ofSchemas earlier) ∧
      pair.2 = (Index.ofSchemas earlier).search pair.1.reference

/-- What is kept for a list was found under names that lead to the same schemas. -/
theorem Keeps.of_mem_keptFor {history : List (List LoadedSchema)} {resolver : Resolver}
    (hresolver : resolver.Keeps history) {schemas : List LoadedSchema}
    {pair : Query × Option String} (hpair : pair ∈ resolver.keptFor (Index.ofSchemas schemas)) :
    ∃ earlier ∈ history,
      SameLookups (Index.ofSchemas schemas) (Index.ofSchemas earlier) ∧
        pair.2 = (Index.ofSchemas earlier).search pair.1.reference := by
  unfold keptFor at hpair
  cases hindex : resolver.index? with
  | none => simp [hindex] at hpair
  | some index =>
    rw [hindex] at hpair
    obtain ⟨last, -, hlast⟩ := hresolver.index_mem index hindex
    by_cases hagrees : (Index.ofSchemas schemas).agrees index = true
    · simp only [hagrees, if_true] at hpair
      subst hlast
      have hsame := (Entries.agrees_iff (Index.nodupKeys_ofSchemas schemas)
        (Index.nodupKeys_ofSchemas last)).mp hagrees
      obtain ⟨earlier, hmem, hlookups, hfound⟩ := hresolver.cache_mem _ hindex pair hpair
      exact ⟨earlier, hmem, hsame.trans hlookups, hfound⟩
    · simp [hagrees] at hpair

theorem Keeps.resolve {history : List (List LoadedSchema)} {resolver : Resolver}
    (hresolver : resolver.Keeps history) (schemas : List LoadedSchema) :
    (resolver.resolve schemas).2.2.Keeps (history ++ [schemas]) := by
  have hindex : (resolver.resolve schemas).2.2.index? = some (Index.ofSchemas schemas) := rfl
  have hmem : schemas ∈ history ++ [schemas] := by simp
  constructor
  · intro index heq
    rw [hindex, Option.some.injEq] at heq
    exact ⟨schemas, hmem, heq.symm⟩
  · intro index heq pair hpair
    rw [hindex, Option.some.injEq] at heq
    subst heq
    rcases mem_cache_resolve hpair with hkept | hfound
    · obtain ⟨earlier, hearlier, hsame⟩ := hresolver.of_mem_keptFor hkept
      exact ⟨earlier, List.mem_append_left _ hearlier, hsame⟩
    · exact ⟨schemas, hmem, fun _ => rfl, hfound⟩

theorem Keeps.afterAll {history : List (List LoadedSchema)} {resolver : Resolver}
    (hresolver : resolver.Keeps history) (lists : List (List LoadedSchema)) :
    (resolver.afterAll lists).Keeps (history ++ lists) := by
  induction lists generalizing history resolver with
  | nil => simpa [Resolver.afterAll] using hresolver
  | cons schemas lists ih => simpa [Resolver.afterAll] using ih (hresolver.resolve schemas)

theorem keeps_of_index?_eq_none {resolver : Resolver} (hresolver : resolver.index? = none) :
    resolver.Keeps [] := by
  constructor <;> simp [hresolver]

/-- An answer is what a search finds in this list or in an earlier one with the same look-ups. -/
theorem Keeps.exists_answer_eq {history : List (List LoadedSchema)} {resolver : Resolver}
    (hresolver : resolver.Keeps history) (schemas : List LoadedSchema) (query : Query) :
    resolver.answer schemas query = (Index.ofSchemas schemas).search query.reference ∨
      ∃ earlier ∈ history,
        SameLookups (Index.ofSchemas schemas) (Index.ofSchemas earlier) ∧
          resolver.answer schemas query =
            (Index.ofSchemas earlier).search query.reference := by
  unfold answer Cache.answer
  cases hget : Entries.get? (resolver.keptFor (Index.ofSchemas schemas)) query with
  | none => exact Or.inl rfl
  | some target =>
    exact Or.inr (hresolver.of_mem_keptFor (Entries.mem_of_get?_eq_some hget))

/-- An answer differs from what a new search finds only where the exact look-ups fail, and then it
was found in an earlier list with the same names in another order. -/
theorem Keeps.of_answer_ne_search {history : List (List LoadedSchema)} {resolver : Resolver}
    (hresolver : resolver.Keeps history) {schemas : List LoadedSchema} {query : Query}
    (hne : resolver.answer schemas query ≠ (Index.ofSchemas schemas).search query.reference) :
    (Index.ofSchemas schemas).searchExactly query.reference = none ∧
      ∃ earlier ∈ history,
        SameLookups (Index.ofSchemas schemas) (Index.ofSchemas earlier) ∧
          Index.ofSchemas schemas ≠ Index.ofSchemas earlier ∧
          resolver.answer schemas query = (Index.ofSchemas earlier).search query.reference := by
  rcases hresolver.exists_answer_eq schemas query with hsearch | ⟨earlier, hmem, hsame, hfound⟩
  · exact absurd hsearch hne
  · refine ⟨?_, earlier, hmem, hsame, ?_, hfound⟩
    · by_contra hexact
      obtain ⟨target, htarget⟩ := Option.ne_none_iff_exists'.mp hexact
      refine hne (hfound.trans ?_)
      rw [Index.search_eq, Index.search_eq, ← Index.searchExactly_congr hsame, htarget,
        Option.some_or, Option.some_or]
    · intro heq
      exact hne (heq ▸ hfound)

/-- An answer is a miss exactly when a new search finds nothing. -/
theorem Keeps.isNone_answer {history : List (List LoadedSchema)} {resolver : Resolver}
    (hresolver : resolver.Keeps history) (schemas : List LoadedSchema) (query : Query) :
    (resolver.answer schemas query).isNone =
      ((Index.ofSchemas schemas).search query.reference).isNone := by
  rcases hresolver.exists_answer_eq schemas query with hsearch | ⟨earlier, -, hsame, hfound⟩
  · rw [hsearch]
  · have hsome := Index.isSome_search_congr (Index.nodupKeys_ofSchemas schemas)
      (Index.nodupKeys_ofSchemas earlier) hsame query.reference
    rw [hfound, ← Option.not_isSome, ← Option.not_isSome, hsome]

theorem Keeps.exists_schema_of_answer {history : List (List LoadedSchema)} {resolver : Resolver}
    (hresolver : resolver.Keeps history) {schemas : List LoadedSchema} {query : Query}
    {target : String} (hanswer : resolver.answer schemas query = some target) :
    ∃ schema ∈ schemas, schema.id = target := by
  rcases hresolver.exists_answer_eq schemas query with hsearch | ⟨earlier, -, hsame, hfound⟩
  · exact Index.exists_schema_of_search_eq_some (hsearch.symm.trans hanswer)
  · obtain ⟨key, hkey⟩ := Index.exists_get?_of_search_eq_some
      (Index.nodupKeys_ofSchemas earlier) (hfound.symm.trans hanswer)
    exact Index.exists_schema_of_get?_ofSchemas ((hsame key).trans hkey)

end Resolver

/-! ### Agreement of two passes -/

/-- Two records of one schema that are referred to by the same schemas, in whatever order. -/
def LoadedSchema.SameGraph (a b : LoadedSchema) : Prop :=
  { a with referencedBy := [] } = { b with referencedBy := [] } ∧
    ∀ source, source ∈ a.referencedBy ↔ source ∈ b.referencedBy

/-- Two passes over a list leave the same sets and the same counts, cache hits apart. -/
def SameResult (first second : List LoadedSchema × Stats × Resolver) : Prop :=
  List.Forall₂ LoadedSchema.SameGraph first.1 second.1 ∧
    { first.2.1 with cacheHits := 0 } = { second.2.1 with cacheHits := 0 }

theorem forall₂_assign_iff (edges others : List (String × String)) (schemas : List LoadedSchema) :
    List.Forall₂ LoadedSchema.SameGraph (assign edges schemas) (assign others schemas) ↔
      ∀ schema ∈ schemas, ∀ source,
        source ∈ sourcesOf edges schema.id ↔ source ∈ sourcesOf others schema.id := by
  induction schemas with
  | nil => simp [assign]
  | cons schema rest ih =>
    rw [assign, assign, List.forall₂_cons, ih, List.forall_mem_cons]
    refine and_congr_left fun hrest => ?_
    by_cases hany : rest.any (·.id == schema.id) = true
    · obtain ⟨later, hlater, hid⟩ := List.any_eq_true.mp hany
      have hsame := hrest later hlater
      rw [beq_iff_eq.mp hid] at hsame
      simp [LoadedSchema.SameGraph, hany, hsame]
    · simp [LoadedSchema.SameGraph, hany]

/-- A query is resolved, leads back to its own schema or finds nothing. -/
theorem resolved_add_selfReferences (answer : Query → Option String) (queries : List Query) :
    (countsOf answer queries).resolved + (countsOf answer queries).selfReferences +
      (countsOf answer queries).unresolved = (countsOf answer queries).total := by
  induction queries with
  | nil => rfl
  | cons query queries ih =>
    simp only [countsOf, List.countP_cons, List.length_cons] at ih ⊢
    cases hanswer : answer query with
    | none => simp; omega
    | some target => by_cases htarget : target = query.source <;> simp [htarget] <;> omega

/-- Answers that miss the same queries give the same counts up to the split between references to
other schemas and references of schemas to themselves. -/
theorem countsOf_congr_of_isNone {answer other : Query → Option String} {queries : List Query}
    (hnone : ∀ query ∈ queries, (answer query).isNone = (other query).isNone) :
    (countsOf answer queries).unresolved = (countsOf other queries).unresolved ∧
    (countsOf answer queries).misses = (countsOf other queries).misses ∧
    (countsOf answer queries).resolved + (countsOf answer queries).selfReferences =
      (countsOf other queries).resolved + (countsOf other queries).selfReferences := by
  have hunresolved : (countsOf answer queries).unresolved = (countsOf other queries).unresolved :=
    List.countP_congr fun query hquery => by rw [hnone query hquery]
  have hmisses : (countsOf answer queries).misses = (countsOf other queries).misses :=
    List.filter_congr hnone
  have htotal : (countsOf answer queries).total = (countsOf other queries).total := rfl
  have hanswer := resolved_add_selfReferences answer queries
  have hother := resolved_add_selfReferences other queries
  exact ⟨hunresolved, hmisses, by omega⟩

theorem countsOf_eq_iff {answer other : Query → Option String} {queries : List Query}
    (hnone : ∀ query ∈ queries, (answer query).isNone = (other query).isNone) :
    countsOf answer queries = countsOf other queries ↔
      (countsOf answer queries).selfReferences = (countsOf other queries).selfReferences := by
  refine ⟨congrArg Stats.selfReferences, fun hself => ?_⟩
  obtain ⟨hunresolved, hmisses, hrest⟩ := countsOf_congr_of_isNone hnone
  have hresolved : (countsOf answer queries).resolved = (countsOf other queries).resolved := by
    omega
  simp only [countsOf] at hmisses hunresolved hresolved hself ⊢
  rw [hmisses, hunresolved, hresolved, hself]

theorem stats_eq_iff_outcome_eq {a b : Stats} (hbatches : a.batches = b.batches) :
    { a with cacheHits := 0 } = { b with cacheHits := 0 } ↔ a.outcome = b.outcome := by
  simp [Stats.outcome, hbatches]

namespace Resolver

/-- By its answers a resolver leads from each schema to the same other schemas as new searches do,
and as often from a schema to itself. -/
structure AnswersLikeSearch (resolver : Resolver) (schemas : List LoadedSchema) : Prop where
  edges : ∀ source target, source ≠ target →
    ((∃ query ∈ queriesOf schemas,
        query.source = source ∧ resolver.answer schemas query = some target) ↔
      Refers schemas source target)
  loops :
    (queriesOf schemas).countP (fun query =>
        resolver.answer schemas query == some query.source) =
      (queriesOf schemas).countP (fun query =>
        (Index.ofSchemas schemas).search query.reference == some query.source)

theorem answersLikeSearch_of_forall {resolver : Resolver} {schemas : List LoadedSchema}
    (hanswer : ∀ query ∈ queriesOf schemas,
      resolver.answer schemas query = (Index.ofSchemas schemas).search query.reference) :
    resolver.AnswersLikeSearch schemas := by
  constructor
  · intro source target _
    rw [← exists_query_search_iff]
    refine exists_congr fun query => and_congr_right fun hquery => ?_
    rw [hanswer query hquery]
  · exact List.countP_congr fun query hquery => by rw [hanswer query hquery]

theorem Keeps.forall₂_sameGraph_iff {history : List (List LoadedSchema)} {resolver : Resolver}
    (hresolver : resolver.Keeps history) (schemas : List LoadedSchema) :
    List.Forall₂ LoadedSchema.SameGraph
        (assign (edgesOf (resolver.answer schemas) (queriesOf schemas)) schemas)
        (assign
          (edgesOf (fun query => (Index.ofSchemas schemas).search query.reference)
            (queriesOf schemas)) schemas) ↔
      ∀ source target, source ≠ target →
        ((∃ query ∈ queriesOf schemas,
            query.source = source ∧ resolver.answer schemas query = some target) ↔
          Refers schemas source target) := by
  rw [forall₂_assign_iff]
  simp only [mem_sourcesOf, mem_edgesOf, exists_query_search_iff]
  constructor
  · intro hsame source target hne
    constructor
    · rintro ⟨query, hquery, hsource, hanswer⟩
      obtain ⟨schema, hschema, rfl⟩ := hresolver.exists_schema_of_answer hanswer
      exact ((hsame schema hschema source).mp
        ⟨⟨hne, query, hquery, hsource, hanswer⟩, hne⟩).1.2
    · intro hrefers
      obtain ⟨schema, hschema, rfl⟩ := hrefers.exists_schema
      exact ((hsame schema hschema source).mpr ⟨⟨hne, hrefers⟩, hne⟩).1.2
  · intro hsame schema _ source
    refine and_congr_left fun hne => and_congr_right fun _ => ?_
    exact hsame source schema.id hne

/-- Passes agree as soon as the answers do. -/
theorem Keeps.sameResult_iff {history : List (List LoadedSchema)} {resolver fresh : Resolver}
    (hresolver : resolver.Keeps history) (hfresh : fresh.index? = none)
    (hsize : resolver.batchSize = fresh.batchSize) (schemas : List LoadedSchema) :
    SameResult (resolver.resolve schemas) (fresh.resolve schemas) ↔
      resolver.AnswersLikeSearch schemas := by
  have hsearch : fresh.answer schemas =
      fun query => (Index.ofSchemas schemas).search query.reference :=
    funext (answer_of_index?_eq_none hfresh schemas)
  have hbatches : (resolver.resolve schemas).2.1.batches =
      (fresh.resolve schemas).2.1.batches := by
    rw [batches_resolve, batches_resolve, hsize]
  have hnone : ∀ query ∈ queriesOf schemas, (resolver.answer schemas query).isNone =
      ((Index.ofSchemas schemas).search query.reference).isNone :=
    fun query _ => hresolver.isNone_answer schemas query
  unfold SameResult
  rw [stats_eq_iff_outcome_eq hbatches, outcome_resolve, outcome_resolve, schemas_resolve,
    schemas_resolve, hsearch, hresolver.forall₂_sameGraph_iff, countsOf_eq_iff hnone]
  exact ⟨fun ⟨hedges, hloops⟩ => ⟨hedges, hloops⟩, fun h => ⟨h.edges, h.loops⟩⟩

/-- **What is kept agrees with what would be found.** After any passes over any lists, a pass over a
list finds the same references without a target as a fresh one, and loses none. It leaves the same
graph and the same counts exactly when its answers lead from each schema to the same others, and as
often to itself, as new searches would; and so it does if no earlier list has had the same names in
another order. -/
theorem resolve_agrees_with_fresh_iff (batchSize workers : Nat)
    (history : List (List LoadedSchema)) (schemas : List LoadedSchema) :
    let fresh : Resolver := { batchSize, workers }
    let used := fresh.afterAll history
    let found := (used.resolve schemas).2.1
    let expected := (fresh.resolve schemas).2.1
    (SameResult (used.resolve schemas) (fresh.resolve schemas) ↔
      used.AnswersLikeSearch schemas) ∧
    (∀ query, used.answer schemas query ≠ (Index.ofSchemas schemas).search query.reference →
      (Index.ofSchemas schemas).searchExactly query.reference = none ∧
      ∃ earlier ∈ history,
        SameLookups (Index.ofSchemas schemas) (Index.ofSchemas earlier) ∧
        Index.ofSchemas schemas ≠ Index.ofSchemas earlier ∧
        used.answer schemas query = (Index.ofSchemas earlier).search query.reference) ∧
    ((∀ earlier ∈ history,
        SameLookups (Index.ofSchemas schemas) (Index.ofSchemas earlier) →
          Index.ofSchemas schemas = Index.ofSchemas earlier) →
      SameResult (used.resolve schemas) (fresh.resolve schemas)) ∧
    found.total = expected.total ∧ found.unresolved = expected.unresolved ∧
    found.misses = expected.misses ∧ found.batches = expected.batches ∧
    found.resolved + found.selfReferences = expected.resolved + expected.selfReferences := by
  intro fresh used found expected
  have hfresh : fresh.Keeps [] := keeps_of_index?_eq_none rfl
  have hkeeps : used.Keeps history := by
    simpa using hfresh.afterAll history
  have hsize : used.batchSize = fresh.batchSize := batchSize_afterAll fresh history
  have hiff := hkeeps.sameResult_iff rfl hsize schemas
  have hnone : ∀ query ∈ queriesOf schemas,
      (used.answer schemas query).isNone = (fresh.answer schemas query).isNone := by
    intro query _
    rw [hkeeps.isNone_answer, answer_of_index?_eq_none rfl]
  obtain ⟨hunresolved, hmisses, hrest⟩ := countsOf_congr_of_isNone hnone
  have hbatches : found.batches = expected.batches := by
    rw [batches_resolve, batches_resolve, hsize]
  rw [← outcome_resolve, ← outcome_resolve] at hunresolved hmisses hrest
  have htotal : found.total = expected.total :=
    (congrArg Stats.total (outcome_resolve used schemas)).trans
      (congrArg Stats.total (outcome_resolve fresh schemas)).symm
  refine ⟨hiff, fun query => hkeeps.of_answer_ne_search, fun horder => hiff.mpr ?_, htotal,
    hunresolved, hmisses, hbatches, hrest⟩
  refine answersLikeSearch_of_forall fun query _ => ?_
  by_contra hne
  obtain ⟨-, earlier, hmem, hlookups, hother, -⟩ := hkeeps.of_answer_ne_search hne
  exact hother (horder earlier hmem hlookups)

/-- Two schemas whose names differ in letter case only, and one that means either. In the other
order a fresh pass takes the reference to the other schema, and a resolver that has seen the first
order does not. -/
theorem resolve_differs_after_reordering :
    let upper : LoadedSchema := { id := "A", name := "Foo", relativePath := "Foo" }
    let lower : LoadedSchema := { id := "B", name := "foo", relativePath := "foo" }
    let source : LoadedSchema :=
      { id := "S", name := "S", relativePath := "S", references := [⟨"FOO", "FOO"⟩] }
    let fresh : Resolver := {}
    let used := fresh.afterAll [[upper, lower, source]]
    ((used.resolve [source, lower, upper]).1.map (·.referencedBy) = [[], [], ["S"]] ∧
      (fresh.resolve [source, lower, upper]).1.map (·.referencedBy) = [[], ["S"], []]) ∧
    ¬ SameResult (used.resolve [source, lower, upper])
      (fresh.resolve [source, lower, upper]) := by
  intro upper lower source fresh used
  have hused : (used.resolve [source, lower, upper]).1.map (·.referencedBy) =
      [[], [], ["S"]] := by decide +kernel
  have hfresh : (fresh.resolve [source, lower, upper]).1.map (·.referencedBy) =
      [[], ["S"], []] := by decide +kernel
  refine ⟨⟨hused, hfresh⟩, fun hsame => ?_⟩
  have hsets : List.Forall₂ (fun a b : List String => ∀ id, id ∈ a ↔ id ∈ b)
      [[], [], ["S"]] [[], ["S"], []] := by
    rw [← hused, ← hfresh, List.forall₂_map_left_iff, List.forall₂_map_right_iff]
    exact hsame.1.imp fun _ _ h => h.2
  simp at hsets

end Resolver

end RamlSchema.References

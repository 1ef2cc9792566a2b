import RamlSchema.Proofs.Entries
import RamlSchema.References.Resolver

/-!
# Batches add up

Work on a query changes no answer, neither to the query itself nor to another one: a result is kept
only if there was none, and then it is what the search gives anyway. So the answers are fixed before
the first query is looked at, and the edges and counts of any division into batches are those of all
queries together (`Resolver.schemas_resolve`, `Resolver.outcome_resolve`).
-/

namespace RamlSchema.References

/-! ### Answers -/

/-- The answer to a query: the kept one if there is one, and what a new search finds otherwise. -/
def Cache.answer (cache : Cache) (index : Index) (query : Query) : Option String :=
  (Entries.get? cache query).getD (index.search query.reference)

theorem Cache.answer_nil (index : Index) (query : Query) :
    Cache.answer [] index query = index.search query.reference := rfl

theorem Cache.answer_put (cache : Cache) (index : Index) (query other : Query) :
    Cache.answer (Entries.put cache query (cache.answer index query)) index other =
      cache.answer index other := by
  unfold Cache.answer
  rw [Entries.get?_put]
  by_cases hquery : query = other
  · subst hquery
    rw [if_pos rfl, Option.getD_some]
  · rw [if_neg hquery]

/-! ### Edges and counts -/

def queriesOf (schemas : List LoadedSchema) : List Query :=
  schemas.flatMap LoadedSchema.queries

theorem mem_queriesOf {schemas : List LoadedSchema} {query : Query} :
    query ∈ queriesOf schemas ↔
      ∃ schema ∈ schemas, schema.id = query.source ∧ query.reference ∈ schema.references := by
  obtain ⟨source, reference⟩ := query
  simp only [queriesOf, LoadedSchema.queries, List.mem_flatMap, List.mem_map, Query.mk.injEq]
  constructor
  · rintro ⟨schema, hschema, found, hfound, hid, rfl⟩
    exact ⟨schema, hschema, hid, hfound⟩
  · rintro ⟨schema, hschema, hid, hreference⟩
    exact ⟨schema, hschema, reference, hreference, hid, rfl⟩

def edgesOf (answer : Query → Option String) (queries : List Query) : List (String × String) :=
  queries.filterMap fun query =>
    (answer query).bind fun target =>
      if target = query.source then none else some (query.source, target)

def countsOf (answer : Query → Option String) (queries : List Query) : Stats where
  total := queries.length
  resolved := queries.countP fun query => (answer query).any (· != query.source)
  unresolved := queries.countP fun query => (answer query).isNone
  selfReferences := queries.countP fun query => answer query == some query.source
  misses := queries.filter fun query => (answer query).isNone

/-- What was counted apart from how the work was done. -/
def Stats.outcome (stats : Stats) : Stats := { stats with cacheHits := 0, batches := 0 }

theorem mem_edgesOf {answer : Query → Option String} {queries : List Query}
    {source target : String} :
    (source, target) ∈ edgesOf answer queries ↔
      source ≠ target ∧ ∃ query ∈ queries, query.source = source ∧ answer query = some target := by
  simp only [edgesOf, List.mem_filterMap, Option.bind_eq_some_iff]
  constructor
  · rintro ⟨query, hquery, found, hanswer, hedge⟩
    split at hedge
    · contradiction
    · rename_i hne
      obtain ⟨rfl, rfl⟩ := Prod.mk.inj (Option.some.inj hedge)
      exact ⟨Ne.symm hne, query, hquery, rfl, hanswer⟩
  · rintro ⟨hne, query, hquery, rfl, hanswer⟩
    exact ⟨query, hquery, target, hanswer, if_neg (Ne.symm hne)⟩

theorem edgesOf_append (answer : Query → Option String) (first second : List Query) :
    edgesOf answer (first ++ second) = edgesOf answer first ++ edgesOf answer second :=
  List.filterMap_append

theorem edgesOf_congr {answer other : Query → Option String} {queries : List Query}
    (h : ∀ query ∈ queries, answer query = other query) :
    edgesOf answer queries = edgesOf other queries := by
  refine List.filterMap_congr fun query hquery => ?_
  rw [h query hquery]

theorem Stats.add_assoc (a b c : Stats) : (a.add b).add c = a.add (b.add c) := by
  simp only [Stats.add, Nat.add_assoc, List.append_assoc]

theorem Stats.outcome_add (a b : Stats) : (a.add b).outcome = a.outcome.add b.outcome := rfl

theorem Stats.zero_add (stats : Stats) : Stats.add {} stats = stats := by
  simp [Stats.add]

theorem countsOf_append (answer : Query → Option String) (first second : List Query) :
    countsOf answer (first ++ second) = (countsOf answer first).add (countsOf answer second) := by
  simp [countsOf, Stats.add]

theorem countsOf_congr {answer other : Query → Option String} {queries : List Query}
    (h : ∀ query ∈ queries, answer query = other query) :
    countsOf answer queries = countsOf other queries := by
  have hresolved : queries.countP (fun query => (answer query).any (· != query.source)) =
      queries.countP (fun query => (other query).any (· != query.source)) :=
    List.countP_congr fun query hquery => by rw [h query hquery]
  have hunresolved : queries.countP (fun query => (answer query).isNone) =
      queries.countP (fun query => (other query).isNone) :=
    List.countP_congr fun query hquery => by rw [h query hquery]
  have hself : queries.countP (fun query => answer query == some query.source) =
      queries.countP (fun query => other query == some query.source) :=
    List.countP_congr fun query hquery => by rw [h query hquery]
  have hmisses : queries.filter (fun query => (answer query).isNone) =
      queries.filter (fun query => (other query).isNone) :=
    List.filter_congr fun query hquery => by rw [h query hquery]
  simp only [countsOf, hresolved, hunresolved, hself, hmisses]

namespace Batch

/-! ### One query -/

@[simp]
theorem cache_count (batch : Batch) (query : Query) (target : Option String) :
    (batch.count query target).cache = batch.cache := by
  unfold count
  cases target with
  | none => rfl
  | some target => by_cases htarget : target = query.source <;> simp [htarget]

theorem edges_count (batch : Batch) (query : Query) (answer : Query → Option String) :
    (batch.count query (answer query)).edges = batch.edges ++ edgesOf answer [query] := by
  unfold count edgesOf
  cases hanswer : answer query with
  | none => simp [hanswer]
  | some target => by_cases htarget : target = query.source <;> simp [hanswer, htarget]

theorem outcome_count (batch : Batch) (query : Query) (answer : Query → Option String) :
    (batch.count query (answer query)).stats.outcome =
      batch.stats.outcome.add { countsOf answer [query] with total := 0 } := by
  unfold count countsOf Stats.outcome Stats.add
  cases hanswer : answer query with
  | none => simp [hanswer]
  | some target => by_cases htarget : target = query.source <;> simp [hanswer, htarget]

/-- The state in which a query is counted: its answer is kept, and the query is numbered. -/
theorem resolve_eq_count (index : Index) (batch : Batch) (query : Query) :
    ∃ before : Batch,
      batch.resolve index query = before.count query (batch.cache.answer index query) ∧
      before.edges = batch.edges ∧
      before.stats.outcome = { batch.stats.outcome with total := batch.stats.total + 1 } ∧
      before.cache =
        if (Entries.get? batch.cache query).isSome then batch.cache
        else Entries.put batch.cache query (batch.cache.answer index query) := by
  unfold resolve Cache.answer
  cases hget : Entries.get? batch.cache query with
  | none => exact ⟨_, rfl, rfl, rfl, by simp⟩
  | some target => exact ⟨_, rfl, rfl, rfl, by simp⟩

theorem edges_resolve (index : Index) (batch : Batch) (query : Query) :
    (batch.resolve index query).edges =
      batch.edges ++ edgesOf (batch.cache.answer index) [query] := by
  obtain ⟨before, hresolve, hedges, -, -⟩ := resolve_eq_count index batch query
  rw [hresolve, edges_count, hedges]

theorem outcome_resolve (index : Index) (batch : Batch) (query : Query) :
    (batch.resolve index query).stats.outcome =
      batch.stats.outcome.add (countsOf (batch.cache.answer index) [query]) := by
  obtain ⟨before, hresolve, -, houtcome, -⟩ := resolve_eq_count index batch query
  rw [hresolve, outcome_count, houtcome]
  simp [Stats.add, Stats.outcome, countsOf]

theorem cache_resolve (index : Index) (batch : Batch) (query : Query) :
    (batch.resolve index query).cache =
      if (Entries.get? batch.cache query).isSome then batch.cache
      else Entries.put batch.cache query (batch.cache.answer index query) := by
  obtain ⟨before, hresolve, -, -, hcache⟩ := resolve_eq_count index batch query
  rw [hresolve, cache_count, hcache]

/-- Work on a query changes no answer. -/
theorem answer_resolve (index : Index) (batch : Batch) (query : Query) :
    (batch.resolve index query).cache.answer index = batch.cache.answer index := by
  rw [cache_resolve]
  split
  · rfl
  · funext other
    exact Cache.answer_put batch.cache index query other

/-- Every result that is kept was kept before, or a search has just found it. -/
theorem mem_cache_resolve {index : Index} {batch : Batch} {query : Query}
    {pair : Query × Option String} (hpair : pair ∈ (batch.resolve index query).cache) :
    pair ∈ batch.cache ∨ pair.2 = index.search pair.1.reference := by
  rw [cache_resolve] at hpair
  split at hpair
  · exact Or.inl hpair
  · rename_i hnone
    rcases Entries.eq_or_mem_of_mem_put hpair with rfl | hbefore
    · have hget : Entries.get? batch.cache query = none := by simpa using hnone
      exact Or.inr (by simp [Cache.answer, hget])
    · exact Or.inl hbefore

/-! ### All queries of a batch -/

theorem edges_foldl_resolve (index : Index) (queries : List Query) (batch : Batch) :
    (queries.foldl (Batch.resolve index) batch).edges =
      batch.edges ++ edgesOf (batch.cache.answer index) queries := by
  induction queries generalizing batch with
  | nil => simp [edgesOf]
  | cons query queries ih =>
    rw [List.foldl_cons, ih, edges_resolve, answer_resolve, List.append_assoc, ← edgesOf_append,
      List.singleton_append]

theorem outcome_foldl_resolve (index : Index) (queries : List Query) (batch : Batch) :
    (queries.foldl (Batch.resolve index) batch).stats.outcome =
      batch.stats.outcome.add (countsOf (batch.cache.answer index) queries) := by
  induction queries generalizing batch with
  | nil => simp [countsOf, Stats.add]
  | cons query queries ih =>
    rw [List.foldl_cons, ih, outcome_resolve, answer_resolve, Stats.add_assoc, ← countsOf_append,
      List.singleton_append]

theorem mem_cache_foldl_resolve {index : Index} {queries : List Query} {batch : Batch}
    {pair : Query × Option String}
    (hpair : pair ∈ (queries.foldl (Batch.resolve index) batch).cache) :
    pair ∈ batch.cache ∨ pair.2 = index.search pair.1.reference := by
  induction queries generalizing batch with
  | nil => exact Or.inl hpair
  | cons query queries ih =>
    rcases ih hpair with hbefore | hsearch
    · exact mem_cache_resolve hbefore
    · exact Or.inr hsearch

/-- A batch starts from all that is kept about its queries. -/
theorem get?_filter_of_mem (kept : Cache) {schemas : List LoadedSchema} {query : Query}
    (hquery : query ∈ queriesOf schemas) :
    Entries.get? (kept.filter fun (query, _) => (schemas.map (·.id)).contains query.source) query =
      Entries.get? kept query := by
  obtain ⟨schema, hschema, hid, -⟩ := mem_queriesOf.mp hquery
  have hsource : (schemas.map (·.id)).contains query.source = true := by
    rw [List.contains_iff_mem]
    exact List.mem_map.mpr ⟨schema, hschema, hid⟩
  have hget := Entries.get?_filter kept
    (fun query => (schemas.map (·.id)).contains query.source) query
  rwa [if_pos hsource] at hget

/-- What is kept for the schemas of a batch answers their queries like all that is kept. -/
theorem answer_filter (index : Index) (kept : Cache) (schemas : List LoadedSchema) :
    ∀ query ∈ queriesOf schemas,
      Cache.answer (kept.filter fun (query, _) => (schemas.map (·.id)).contains query.source) index
        query = kept.answer index query := by
  intro query hquery
  rw [Cache.answer, get?_filter_of_mem kept hquery, Cache.answer]

theorem edges_ofSchemas (index : Index) (kept : Cache) (schemas : List LoadedSchema) :
    (ofSchemas index kept schemas).edges = edgesOf (kept.answer index) (queriesOf schemas) := by
  rw [ofSchemas, edges_foldl_resolve, List.nil_append]
  exact edgesOf_congr (answer_filter index kept schemas)

theorem outcome_ofSchemas (index : Index) (kept : Cache) (schemas : List LoadedSchema) :
    (ofSchemas index kept schemas).stats.outcome =
      countsOf (kept.answer index) (queriesOf schemas) := by
  rw [ofSchemas, outcome_foldl_resolve]
  exact (Stats.zero_add _).trans (countsOf_congr (answer_filter index kept schemas))

theorem mem_cache_ofSchemas {index : Index} {kept : Cache} {schemas : List LoadedSchema}
    {pair : Query × Option String} (hpair : pair ∈ (ofSchemas index kept schemas).cache) :
    pair ∈ kept ∨ pair.2 = index.search pair.1.reference :=
  (mem_cache_foldl_resolve hpair).imp_left List.mem_of_mem_filter

end Batch

/-! ### All batches -/

theorem flatten_pieces {α : Type} (size : Nat) (xs : List α) : (pieces size xs).flatten = xs := by
  induction xs using pieces.induct size with
  | case1 => simp [pieces]
  | case2 x rest ih => rw [pieces, List.flatten_cons, ih, List.cons_append, List.take_append_drop]

theorem queriesOf_append (first second : List LoadedSchema) :
    queriesOf (first ++ second) = queriesOf first ++ queriesOf second := List.flatMap_append

theorem edges_batches (index : Index) (kept : Cache) (parts : List (List LoadedSchema)) :
    (parts.map (Batch.ofSchemas index kept)).flatMap (·.edges) =
      edgesOf (kept.answer index) (queriesOf parts.flatten) := by
  induction parts with
  | nil => rfl
  | cons part parts ih =>
    rw [List.map_cons, List.flatMap_cons, ih, Batch.edges_ofSchemas, List.flatten_cons,
      queriesOf_append, edgesOf_append]

theorem outcome_batches (index : Index) (kept : Cache) (parts : List (List LoadedSchema))
    (stats : Stats) :
    ((parts.map (Batch.ofSchemas index kept)).foldl
        (fun (stats : Stats) batch => stats.add batch.stats) stats).outcome =
      stats.outcome.add (countsOf (kept.answer index) (queriesOf parts.flatten)) := by
  induction parts generalizing stats with
  | nil => simp [queriesOf, countsOf, Stats.add]
  | cons part parts ih =>
    rw [List.map_cons, List.foldl_cons, ih, Stats.outcome_add, Batch.outcome_ofSchemas,
      Stats.add_assoc, ← countsOf_append, ← queriesOf_append, List.flatten_cons]

theorem mem_cache_batches {index : Index} {kept cache : Cache} {parts : List (List LoadedSchema)}
    {pair : Query × Option String}
    (hpair : pair ∈ (parts.map (Batch.ofSchemas index kept)).foldl
      (fun (cache : Cache) batch => cache.putAll batch.cache) cache) :
    pair ∈ cache ∨ pair ∈ kept ∨ pair.2 = index.search pair.1.reference := by
  induction parts generalizing cache with
  | nil => exact Or.inl hpair
  | cons part parts ih =>
    rcases ih hpair with hput | hrest
    · rcases Entries.mem_or_mem_of_mem_putAll hput with hpart | hcache
      · exact Or.inr (Batch.mem_cache_ofSchemas hpart)
      · exact Or.inl hcache
    · exact Or.inr hrest

namespace Resolver

/-! ### A whole pass -/

/-- The answers of a resolver to the queries of a list. -/
def answer (resolver : Resolver) (schemas : List LoadedSchema) : Query → Option String :=
  Cache.answer (resolver.keptFor (Index.ofSchemas schemas)) (Index.ofSchemas schemas)

/-- The schemas that a pass leaves are those of the list with the edges of all queries. -/
theorem schemas_resolve (resolver : Resolver) (schemas : List LoadedSchema) :
    (resolver.resolve schemas).1 =
      assign (edgesOf (resolver.answer schemas) (queriesOf schemas)) schemas := by
  have hedges := edges_batches (Index.ofSchemas schemas)
    (resolver.keptFor (Index.ofSchemas schemas)) (pieces resolver.batchSize schemas)
  rw [flatten_pieces] at hedges
  exact congrArg (assign · schemas) hedges

/-- The counts of a pass are those of all queries. -/
theorem outcome_resolve (resolver : Resolver) (schemas : List LoadedSchema) :
    (resolver.resolve schemas).2.1.outcome =
      countsOf (resolver.answer schemas) (queriesOf schemas) := by
  have hcounts := outcome_batches (Index.ofSchemas schemas)
    (resolver.keptFor (Index.ofSchemas schemas)) (pieces resolver.batchSize schemas) {}
  rw [flatten_pieces] at hcounts
  exact hcounts.trans (Stats.zero_add _)

theorem batches_resolve (resolver : Resolver) (schemas : List LoadedSchema) :
    (resolver.resolve schemas).2.1.batches = (pieces resolver.batchSize schemas).length := by
  simp [resolve]

/-- Every result that is kept after a pass was kept before it, or the pass has searched for it. -/
theorem mem_cache_resolve {resolver : Resolver} {schemas : List LoadedSchema}
    {pair : Query × Option String} (hpair : pair ∈ (resolver.resolve schemas).2.2.cache) :
    pair ∈ resolver.keptFor (Index.ofSchemas schemas) ∨
      pair.2 = (Index.ofSchemas schemas).search pair.1.reference := by
  rcases mem_cache_batches hpair with hnil | hkept
  · exact absurd hnil List.not_mem_nil
  · exact hkept

theorem answer_of_index?_eq_none {resolver : Resolver} (hresolver : resolver.index? = none)
    (schemas : List LoadedSchema) (query : Query) :
    resolver.answer schemas query = (Index.ofSchemas schemas).search query.reference := by
  simp [answer, keptFor, hresolver, Cache.answer_nil]

end Resolver

end RamlSchema.References

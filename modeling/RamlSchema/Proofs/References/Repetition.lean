import RamlSchema.Proofs.References.Cache

/-!
# A second pass

A pass keeps an answer to each of its queries. The batches cannot undo this for each other, even
where several schemas have one identifier: all of them start from the same kept results and the same
names, and so they give a query the same answer. What a pass enters into the schemas has no part in
the next one. So a second pass over the same schemas finds every query among the kept results, and
ends as the first one did without a search.
-/

namespace RamlSchema.References

open Entries (NodupKeys)

namespace Batch

variable {index : Index} {kept : Cache} {schemas : List LoadedSchema} {query : Query}

/-! ### What a batch keeps -/

/-- Work on a query keeps its answer, and what is kept of others stays. -/
theorem get?_cache_resolve (index : Index) (batch : Batch) (query other : Query) :
    Entries.get? (batch.resolve index query).cache other =
      if query = other then some (batch.cache.answer index query)
      else Entries.get? batch.cache other := by
  rw [cache_resolve]
  split
  case isTrue hkept =>
    obtain ⟨target, htarget⟩ := Option.isSome_iff_exists.mp hkept
    by_cases hquery : query = other
    · subst hquery
      rw [if_pos rfl, Cache.answer, htarget, Option.getD_some]
    · rw [if_neg hquery]
  case isFalse => exact Entries.get?_put ..

theorem get?_cache_foldl_resolve (index : Index) (queries : List Query) (batch : Batch)
    (other : Query) :
    Entries.get? (queries.foldl (Batch.resolve index) batch).cache other =
      if other ∈ queries then some (batch.cache.answer index other)
      else Entries.get? batch.cache other := by
  induction queries generalizing batch with
  | nil => simp
  | cons query queries ih =>
    rw [List.foldl_cons, ih, answer_resolve, get?_cache_resolve]
    by_cases hmem : other ∈ queries
    · simp [hmem]
    · by_cases hquery : query = other
      · simp [hquery]
      · simp [hmem, hquery, Ne.symm hquery]

theorem nodupKeys_cache_foldl_resolve (index : Index) (queries : List Query) {batch : Batch}
    (hbatch : NodupKeys batch.cache) :
    NodupKeys (queries.foldl (Batch.resolve index) batch).cache := by
  induction queries generalizing batch with
  | nil => exact hbatch
  | cons query queries ih =>
    refine ih ?_
    rw [cache_resolve]
    split
    · exact hbatch
    · exact hbatch.put _ _

theorem nodupKeys_cache_ofSchemas (index : Index) (hkept : NodupKeys kept)
    (schemas : List LoadedSchema) : NodupKeys (ofSchemas index kept schemas).cache :=
  nodupKeys_cache_foldl_resolve index _ (hkept.filter _)

/-- A batch keeps the answers to its own queries. -/
theorem get?_cache_ofSchemas (hquery : query ∈ queriesOf schemas) :
    Entries.get? (ofSchemas index kept schemas).cache query = some (kept.answer index query) := by
  rw [ofSchemas, get?_cache_foldl_resolve, ← queriesOf, if_pos hquery]
  exact congrArg some (answer_filter index kept schemas query hquery)

/-- A batch keeps nothing but answers. -/
theorem eq_answer_of_get?_cache_ofSchemas {target : Option String}
    (hget : Entries.get? (ofSchemas index kept schemas).cache query = some target) :
    target = kept.answer index query := by
  by_cases hquery : query ∈ queriesOf schemas
  · rw [get?_cache_ofSchemas hquery] at hget
    exact (Option.some_inj.mp hget).symm
  · rw [ofSchemas, get?_cache_foldl_resolve, ← queriesOf, if_neg hquery] at hget
    have hfilter := Entries.get?_filter kept
      (fun query => (schemas.map (·.id)).contains query.source) query
    rw [hget] at hfilter
    split at hfilter
    · rw [Cache.answer, ← hfilter, Option.getD_some]
    · cases hfilter

/-! ### Hits -/

@[simp]
theorem cacheHits_count (batch : Batch) (query : Query) (target : Option String) :
    (batch.count query target).stats.cacheHits = batch.stats.cacheHits := by
  unfold count
  cases target with
  | none => rfl
  | some target => by_cases htarget : target = query.source <;> simp [htarget]

theorem cacheHits_resolve_of_kept (index : Index) {batch : Batch}
    (hkept : (Entries.get? batch.cache query).isSome = true) :
    (batch.resolve index query).stats.cacheHits = batch.stats.cacheHits + 1 := by
  obtain ⟨target, htarget⟩ := Option.isSome_iff_exists.mp hkept
  simp [resolve, htarget]

theorem cacheHits_foldl_resolve_of_kept (index : Index) {queries : List Query} {batch : Batch}
    (hkept : ∀ query ∈ queries, (Entries.get? batch.cache query).isSome = true) :
    (queries.foldl (Batch.resolve index) batch).stats.cacheHits =
      batch.stats.cacheHits + queries.length := by
  induction queries generalizing batch with
  | nil => rfl
  | cons query queries ih =>
    have hquery := hkept query List.mem_cons_self
    have hrest : ∀ other ∈ queries,
        (Entries.get? (batch.resolve index query).cache other).isSome = true := by
      intro other hother
      rw [get?_cache_resolve]
      split
      · rfl
      · exact hkept other (List.mem_cons_of_mem _ hother)
    rw [List.foldl_cons, ih hrest, cacheHits_resolve_of_kept index hquery, List.length_cons]
    omega

theorem cacheHits_ofSchemas_of_kept (index : Index)
    (hkept : ∀ query ∈ queriesOf schemas, (Entries.get? kept query).isSome = true) :
    (ofSchemas index kept schemas).stats.cacheHits = (queriesOf schemas).length := by
  rw [ofSchemas, cacheHits_foldl_resolve_of_kept index, ← queriesOf]
  · exact Nat.zero_add _
  · intro query hquery
    rw [get?_filter_of_mem kept hquery]
    exact hkept query hquery

end Batch

/-! ### All batches -/

section Parts

variable {index : Index} {kept : Cache} {parts : List (List LoadedSchema)} {query : Query}

theorem nodupKeys_cache_batches (batches : List Batch) {cache : Cache} (hcache : NodupKeys cache) :
    NodupKeys (batches.foldl (fun (cache : Cache) batch => cache.putAll batch.cache) cache) := by
  induction batches generalizing cache with
  | nil => exact hcache
  | cons batch batches ih => exact ih (hcache.putAll batch.cache)

/-- The batches together keep the answers to all queries: a later one overwrites an answer only with
itself. -/
theorem get?_cache_batches (hkept : NodupKeys kept) {cache : Cache}
    (hquery : query ∈ queriesOf parts.flatten ∨
      Entries.get? cache query = some (kept.answer index query)) :
    Entries.get? ((parts.map (Batch.ofSchemas index kept)).foldl
        (fun (cache : Cache) batch => cache.putAll batch.cache) cache) query =
      some (kept.answer index query) := by
  induction parts generalizing cache with
  | nil => exact hquery.resolve_left (by simp [queriesOf])
  | cons part parts ih =>
    refine ih ?_
    rw [List.flatten_cons, queriesOf_append, List.mem_append, or_assoc, or_left_comm] at hquery
    refine hquery.imp_right fun hquery => ?_
    have hpart := Batch.nodupKeys_cache_ofSchemas index hkept part
    rw [Entries.get?_putAll_of_nodupKeys hpart]
    cases hget : Entries.get? (Batch.ofSchemas index kept part).cache query with
    | some target => rw [Batch.eq_answer_of_get?_cache_ofSchemas hget, Option.some_or]
    | none =>
      rw [Option.none_or]
      refine hquery.resolve_left fun hmem => ?_
      rw [Batch.get?_cache_ofSchemas hmem] at hget
      cases hget

theorem cacheHits_batches_of_kept (index : Index)
    (hkept : ∀ query ∈ queriesOf parts.flatten, (Entries.get? kept query).isSome = true)
    (stats : Stats) :
    ((parts.map (Batch.ofSchemas index kept)).foldl
        (fun (stats : Stats) batch => stats.add batch.stats) stats).cacheHits =
      stats.cacheHits + (queriesOf parts.flatten).length := by
  induction parts generalizing stats with
  | nil => rfl
  | cons part parts ih =>
    rw [List.flatten_cons, queriesOf_append] at hkept ⊢
    rw [List.forall_mem_append] at hkept
    rw [List.map_cons, List.foldl_cons, ih hkept.2, Stats.add,
      Batch.cacheHits_ofSchemas_of_kept index hkept.1, List.length_append, Nat.add_assoc]

end Parts

/-! ### What a pass enters has no part in the next -/

/-- The record without what an earlier pass has entered. -/
def LoadedSchema.unlinked (schema : LoadedSchema) : LoadedSchema :=
  { schema with referencedBy := [] }

theorem map_unlinked_assign (edges : List (String × String)) (schemas : List LoadedSchema) :
    (assign edges schemas).map LoadedSchema.unlinked = schemas.map LoadedSchema.unlinked := by
  induction schemas with
  | nil => rfl
  | cons schema rest ih => rw [assign, List.map_cons, List.map_cons, ih]; rfl

theorem assign_map_unlinked (edges : List (String × String)) (schemas : List LoadedSchema) :
    assign edges (schemas.map LoadedSchema.unlinked) = assign edges schemas := by
  induction schemas with
  | nil => rfl
  | cons schema rest ih => simp [assign, ih, LoadedSchema.unlinked, Function.comp_def]

theorem ofSchemas_map_unlinked (schemas : List LoadedSchema) :
    Index.ofSchemas (schemas.map LoadedSchema.unlinked) = Index.ofSchemas schemas :=
  List.foldl_map

theorem Batch.ofSchemas_map_unlinked (index : Index) (kept : Cache) (schemas : List LoadedSchema) :
    Batch.ofSchemas index kept (schemas.map LoadedSchema.unlinked) =
      Batch.ofSchemas index kept schemas := by
  have hids : (schemas.map LoadedSchema.unlinked).map (·.id) = schemas.map (·.id) := List.map_map
  have hqueries : (schemas.map LoadedSchema.unlinked).flatMap LoadedSchema.queries =
      schemas.flatMap LoadedSchema.queries := List.flatMap_map ..
  rw [Batch.ofSchemas, hids, hqueries, Batch.ofSchemas]

theorem pieces_map {α β : Type} (f : α → β) (size : Nat) (xs : List α) :
    pieces size (xs.map f) = (pieces size xs).map (List.map f) := by
  induction xs using pieces.induct size with
  | case1 => simp [pieces]
  | case2 x rest ih =>
    rw [List.map_drop] at ih
    rw [List.map_cons, pieces, ih, pieces, List.map_cons, List.map_cons, List.map_take]

namespace Resolver

theorem resolve_map_unlinked (resolver : Resolver) (schemas : List LoadedSchema) :
    resolver.resolve (schemas.map LoadedSchema.unlinked) = resolver.resolve schemas := by
  have hbatches : ∀ kept, (pieces resolver.batchSize (schemas.map LoadedSchema.unlinked)).map
        (Batch.ofSchemas (Index.ofSchemas schemas) kept) =
      (pieces resolver.batchSize schemas).map (Batch.ofSchemas (Index.ofSchemas schemas) kept) := by
    intro kept
    rw [pieces_map, List.map_map]
    exact List.map_congr_left fun part _ => Batch.ofSchemas_map_unlinked _ kept part
  simp only [resolve, ofSchemas_map_unlinked, hbatches, assign_map_unlinked]

/-- A pass over what an earlier one has left is a pass over the list itself. -/
theorem resolve_left_list (resolver earlier : Resolver) (schemas : List LoadedSchema) :
    resolver.resolve (earlier.resolve schemas).1 = resolver.resolve schemas := by
  rw [← resolve_map_unlinked, schemas_resolve, map_unlinked_assign, resolve_map_unlinked]

/-! ### Two passes -/

theorem nodupKeys_cache_resolve (resolver : Resolver) (schemas : List LoadedSchema) :
    NodupKeys (resolver.resolve schemas).2.2.cache :=
  nodupKeys_cache_batches _ Entries.nodupKeys_nil

theorem nodupKeys_cache_afterAll {resolver : Resolver} (hresolver : NodupKeys resolver.cache)
    (lists : List (List LoadedSchema)) : NodupKeys (resolver.afterAll lists).cache := by
  induction lists generalizing resolver with
  | nil => exact hresolver
  | cons schemas lists ih => exact ih (nodupKeys_cache_resolve resolver schemas)

variable {resolver : Resolver} {schemas : List LoadedSchema}

theorem nodupKeys_keptFor (hresolver : NodupKeys resolver.cache) (index : Index) :
    NodupKeys (resolver.keptFor index) := by
  unfold keptFor
  split
  · split
    · exact hresolver
    · exact Entries.nodupKeys_nil
  · exact Entries.nodupKeys_nil

/-- After a pass every query of the list is kept with the answer that it was given. -/
theorem get?_cache_resolve (hresolver : NodupKeys resolver.cache) {query : Query}
    (hquery : query ∈ queriesOf schemas) :
    Entries.get? (resolver.resolve schemas).2.2.cache query =
      some (resolver.answer schemas query) := by
  refine get?_cache_batches (nodupKeys_keptFor hresolver _) (.inl ?_)
  rwa [flatten_pieces]

/-- All that a pass keeps is in force for the same list. -/
theorem keptFor_resolve (resolver : Resolver) (schemas : List LoadedSchema) :
    (resolver.resolve schemas).2.2.keptFor (Index.ofSchemas schemas) =
      (resolver.resolve schemas).2.2.cache := by
  have hindex := Index.nodupKeys_ofSchemas schemas
  have hagrees : (Index.ofSchemas schemas).agrees (Index.ofSchemas schemas) = true :=
    (Entries.agrees_iff hindex hindex).mpr fun _ => rfl
  have hlast : (resolver.resolve schemas).2.2.index? = some (Index.ofSchemas schemas) := rfl
  simp only [keptFor, hlast, hagrees, if_true]

theorem answer_again (hresolver : NodupKeys resolver.cache) {query : Query}
    (hquery : query ∈ queriesOf schemas) :
    (resolver.resolve schemas).2.2.answer schemas query = resolver.answer schemas query := by
  rw [answer, keptFor_resolve, Cache.answer, get?_cache_resolve hresolver hquery, Option.getD_some]

theorem cacheHits_again (hresolver : NodupKeys resolver.cache) :
    ((resolver.resolve schemas).2.2.resolve schemas).2.1.cacheHits =
      (queriesOf schemas).length := by
  have hkept : ∀ query ∈ queriesOf (pieces resolver.batchSize schemas).flatten,
      (Entries.get? ((resolver.resolve schemas).2.2.keptFor (Index.ofSchemas schemas))
        query).isSome = true := by
    intro query hquery
    rw [flatten_pieces] at hquery
    rw [keptFor_resolve, get?_cache_resolve hresolver hquery, Option.isSome_some]
  have hhits := cacheHits_batches_of_kept (Index.ofSchemas schemas) hkept {}
  rw [flatten_pieces] at hhits
  exact hhits.trans (Nat.zero_add _)

/-- The counts of a pass are fixed by those of another one that agree in all but the hits. -/
theorem stats_eq_of_outcome_eq {a b : Stats} (houtcome : a.outcome = b.outcome)
    (hbatches : a.batches = b.batches) : a = { b with cacheHits := a.cacheHits } :=
  calc a = { a.outcome with cacheHits := a.cacheHits, batches := a.batches } := rfl
    _ = { b with cacheHits := a.cacheHits } := by rw [houtcome, hbatches]; rfl

theorem resolve_again (hresolver : NodupKeys resolver.cache) (schemas : List LoadedSchema) :
    let first := resolver.resolve schemas
    let second := first.2.2.resolve schemas
    second.1 = first.1 ∧
      second.2.1 = { first.2.1 with cacheHits := (queriesOf schemas).length } := by
  intro first second
  have hanswer : ∀ query ∈ queriesOf schemas,
      first.2.2.answer schemas query = resolver.answer schemas query :=
    fun query hquery => answer_again hresolver hquery
  have houtcome : second.2.1.outcome = first.2.1.outcome := by
    rw [outcome_resolve, outcome_resolve]
    exact countsOf_congr hanswer
  have hbatches : second.2.1.batches = first.2.1.batches := by
    rw [batches_resolve, batches_resolve]
    rfl
  constructor
  · rw [schemas_resolve, schemas_resolve]
    exact congrArg (assign · schemas) (edgesOf_congr hanswer)
  · rw [← cacheHits_again hresolver]
    exact stats_eq_of_outcome_eq houtcome hbatches

theorem length_queriesOf (schemas : List LoadedSchema) :
    (queriesOf schemas).length = (schemas.flatMap (·.references)).length := by
  simp [queriesOf, LoadedSchema.queries, List.length_flatMap]

/-- **Counts add up, and a repeated pass is free.** After any passes over any lists, a pass over a
list counts every reference of the list once: as resolved, as unresolved or as one of a schema to
itself; and it lists the unresolved ones. A further pass over what it leaves takes every answer from
what is kept, and leaves the same sets and, hits apart, the same counts. -/
theorem repeated_pass_is_free (batchSize workers : Nat) (history : List (List LoadedSchema))
    (schemas : List LoadedSchema) :
    let used := ({ batchSize, workers } : Resolver).afterAll history
    let first := used.resolve schemas
    let second := first.2.2.resolve first.1
    first.2.1.total = (schemas.flatMap (·.references)).length ∧
    first.2.1.resolved + first.2.1.unresolved + first.2.1.selfReferences = first.2.1.total ∧
    first.2.1.misses.length = first.2.1.unresolved ∧
    second.1 = first.1 ∧
    second.2.1 = { first.2.1 with cacheHits := first.2.1.total } := by
  intro used first second
  have hused : NodupKeys used.cache := nodupKeys_cache_afterAll Entries.nodupKeys_nil history
  have houtcome := outcome_resolve used schemas
  have htotal : first.2.1.total = (queriesOf schemas).length := congrArg Stats.total houtcome
  have hcounts := resolved_add_selfReferences (used.answer schemas) (queriesOf schemas)
  have hmisses : (countsOf (used.answer schemas) (queriesOf schemas)).misses.length =
      (countsOf (used.answer schemas) (queriesOf schemas)).unresolved :=
    List.countP_eq_length_filter.symm
  rw [← houtcome] at hcounts hmisses
  obtain ⟨hsame, hstats⟩ := resolve_again hused schemas
  have hsecond : second = first.2.2.resolve schemas := resolve_left_list first.2.2 used schemas
  refine ⟨htotal.trans (length_queriesOf schemas), ?_, hmisses, ?_, ?_⟩
  · rw [Nat.add_right_comm]
    exact hcounts
  · rw [hsecond]
    exact hsame
  · rw [hsecond, htotal]
    exact hstats

end Resolver

end RamlSchema.References

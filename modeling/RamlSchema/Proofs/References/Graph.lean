import RamlSchema.Proofs.References.Batch
import RamlSchema.Proofs.References.Index

/-!
# The graph of a list of schemas

What a fresh pass leaves is the plain graph: the last schema with an identifier is referred to by
exactly the other schemas whose references a search takes to that identifier. Neither the size of
the batches nor what the schemas said before has any part in it.
-/

namespace RamlSchema.References

/-- A schema called `source` has a reference that a search in the list takes to `target`. -/
def Refers (schemas : List LoadedSchema) (source target : String) : Prop :=
  ∃ schema ∈ schemas, schema.id = source ∧
    ∃ reference ∈ schema.references, (Index.ofSchemas schemas).search reference = some target

/-- `after` holds the schemas of the list and, on the last one with each identifier, the schemas
that refer to it. -/
structure IsGraphOf (schemas after : List LoadedSchema) : Prop where
  length_eq : after.length = schemas.length
  sources : ∀ before schema rest, schemas = before ++ schema :: rest →
    ∃ sources : List String,
      after[before.length]? = some { schema with referencedBy := sources } ∧ sources.Nodup ∧
      ∀ source, source ∈ sources ↔
        (∀ later ∈ rest, later.id ≠ schema.id) ∧ source ≠ schema.id ∧
          Refers schemas source schema.id

/-! ### Edges entered into the list -/

theorem mem_sourcesOf {edges : List (String × String)} {source target : String} :
    source ∈ sourcesOf edges target ↔ (source, target) ∈ edges ∧ source ≠ target := by
  simp only [sourcesOf, List.mem_eraseDups, List.mem_map, List.mem_filter, Bool.and_eq_true,
    beq_iff_eq, bne_iff_ne]
  constructor
  · rintro ⟨⟨first, second⟩, ⟨hedge, rfl, hne⟩, rfl⟩
    exact ⟨hedge, hne⟩
  · rintro ⟨hedge, hne⟩
    exact ⟨(source, target), ⟨hedge, rfl, hne⟩, rfl⟩

theorem nodup_sourcesOf (edges : List (String × String)) (target : String) :
    (sourcesOf edges target).Nodup := nodup_eraseDups _

theorem length_assign (edges : List (String × String)) (schemas : List LoadedSchema) :
    (assign edges schemas).length = schemas.length := by
  induction schemas with
  | nil => rfl
  | cons schema rest ih => simp [assign, ih]

/-- The set that a schema of the list is left with depends on the schemas behind it only. -/
theorem getElem?_assign (edges : List (String × String)) (before rest : List LoadedSchema)
    (schema : LoadedSchema) :
    (assign edges (before ++ schema :: rest))[before.length]? =
      some { schema with
        referencedBy :=
          if rest.any (·.id == schema.id) then [] else sourcesOf edges schema.id } := by
  induction before with
  | nil => rfl
  | cons first before ih => simpa [assign] using ih

theorem mem_referencedBy_assign {edges : List (String × String)} {rest : List LoadedSchema}
    {schema : LoadedSchema} {source : String} :
    source ∈ (if rest.any (·.id == schema.id) then [] else sourcesOf edges schema.id) ↔
      (∀ later ∈ rest, later.id ≠ schema.id) ∧ (source, schema.id) ∈ edges ∧
        source ≠ schema.id := by
  by_cases hlater : ∃ later ∈ rest, later.id = schema.id
  · have hany : rest.any (·.id == schema.id) = true := by simpa using hlater
    rw [if_pos hany]
    obtain ⟨later, hmem, hid⟩ := hlater
    exact ⟨fun h => absurd h List.not_mem_nil, fun h => absurd hid (h.1 later hmem)⟩
  · have hany : rest.any (·.id == schema.id) = false := by simpa using hlater
    have hlast : ∀ later ∈ rest, later.id ≠ schema.id := by simpa using hlater
    rw [hany, if_neg Bool.false_ne_true, mem_sourcesOf]
    exact ⟨fun h => ⟨hlast, h⟩, fun h => h.2⟩

theorem id_notMem_referencedBy_assign (edges : List (String × String))
    (schemas : List LoadedSchema) :
    ∀ schema ∈ assign edges schemas, schema.id ∉ schema.referencedBy := by
  induction schemas with
  | nil => simp [assign]
  | cons schema rest ih =>
    intro entered hentered
    rcases List.mem_cons.mp hentered with rfl | hrest
    · exact fun hid => (mem_referencedBy_assign.mp hid).2.2 rfl
    · exact ih entered hrest

/-! ### The graph of a fresh pass -/

theorem exists_query_search_iff {schemas : List LoadedSchema} {source target : String} :
    (∃ query ∈ queriesOf schemas,
        query.source = source ∧
          (Index.ofSchemas schemas).search query.reference = some target) ↔
      Refers schemas source target := by
  constructor
  · rintro ⟨query, hquery, rfl, hsearch⟩
    obtain ⟨schema, hschema, hid, hreference⟩ := mem_queriesOf.mp hquery
    exact ⟨schema, hschema, hid, query.reference, hreference, hsearch⟩
  · rintro ⟨schema, hschema, rfl, reference, hreference, hsearch⟩
    exact ⟨⟨schema.id, reference⟩, mem_queriesOf.mpr ⟨schema, hschema, rfl, hreference⟩, rfl,
      hsearch⟩

theorem Refers.exists_schema {schemas : List LoadedSchema} {source target : String}
    (h : Refers schemas source target) : ∃ schema ∈ schemas, schema.id = target := by
  obtain ⟨-, -, -, reference, -, hsearch⟩ := h
  exact Index.exists_schema_of_search_eq_some hsearch

theorem isGraphOf_assign (schemas : List LoadedSchema) :
    IsGraphOf schemas
      (assign
        (edgesOf (fun query => (Index.ofSchemas schemas).search query.reference)
          (queriesOf schemas)) schemas) := by
  set edges := edgesOf (fun query => (Index.ofSchemas schemas).search query.reference)
    (queriesOf schemas) with hedges
  refine ⟨length_assign edges schemas, ?_⟩
  intro before schema rest hsplit
  refine ⟨if rest.any (·.id == schema.id) then [] else sourcesOf edges schema.id, ?_, ?_, ?_⟩
  · rw [hsplit]
    exact getElem?_assign edges before rest schema
  · split
    · exact List.nodup_nil
    · exact nodup_sourcesOf edges schema.id
  · intro source
    rw [mem_referencedBy_assign, hedges, mem_edgesOf, exists_query_search_iff]
    tauto

/-- An unused resolver answers by searching, whatever the size of its batches. -/
theorem answer_fresh (batchSize workers : Nat) (schemas : List LoadedSchema) :
    ({ batchSize, workers } : Resolver).answer schemas =
      fun query => (Index.ofSchemas schemas).search query.reference := by
  funext query
  exact Resolver.answer_of_index?_eq_none rfl schemas query

theorem isGraphOf_resolve (batchSize workers : Nat) (schemas : List LoadedSchema) :
    IsGraphOf schemas (({ batchSize, workers } : Resolver).resolve schemas).1 := by
  rw [Resolver.schemas_resolve, answer_fresh]
  exact isGraphOf_assign schemas

/-- `final` is `schema` with the other schemas of the list that refer to it. -/
structure IsResolved (schemas : List LoadedSchema) (schema final : LoadedSchema) : Prop where
  id_eq : final.id = schema.id
  relativePath_eq : final.relativePath = schema.relativePath
  mem_referencedBy : ∀ source, source ∈ final.referencedBy ↔
    source ≠ schema.id ∧ Refers schemas source schema.id

section DistinctIds

variable {schemas after : List LoadedSchema} {schema final : LoadedSchema}
  (h : IsGraphOf schemas after) (hids : (schemas.map (·.id)).Nodup)
include h hids

/-- With distinct identifiers every schema is the last one with its own. -/
theorem IsGraphOf.getElem? {i : Nat} (hschema : schemas[i]? = some schema) :
    ∃ final, after[i]? = some final ∧ IsResolved schemas schema final := by
  obtain ⟨hi, rfl⟩ := List.getElem?_eq_some_iff.mp hschema
  have hsplit : schemas = schemas.take i ++ schemas[i] :: schemas.drop (i + 1) := by
    rw [List.getElem_cons_drop, List.take_append_drop]
  obtain ⟨sources, hafter, -, hsources⟩ := h.sources _ _ _ hsplit
  rw [List.length_take_of_le (Nat.le_of_lt hi)] at hafter
  refine ⟨_, hafter, rfl, rfl, fun source => (hsources source).trans (and_iff_right ?_)⟩
  rw [hsplit, List.map_append, List.map_cons] at hids
  intro later hlater hid
  exact (List.nodup_cons.mp hids.of_append_right).1 (List.mem_map.mpr ⟨later, hlater, hid⟩)

theorem IsGraphOf.exists_final (hschema : schema ∈ schemas) :
    ∃ final ∈ after, IsResolved schemas schema final := by
  obtain ⟨i, hi⟩ := List.mem_iff_getElem?.mp hschema
  obtain ⟨final, hfinal, hresolved⟩ := h.getElem? hids hi
  exact ⟨final, List.mem_of_getElem? hfinal, hresolved⟩

theorem IsGraphOf.exists_schema (hfinal : final ∈ after) :
    ∃ schema ∈ schemas, IsResolved schemas schema final := by
  obtain ⟨i, hi⟩ := List.mem_iff_getElem?.mp hfinal
  have hlength : i < schemas.length := by
    rw [← h.length_eq]
    exact (List.getElem?_eq_some_iff.mp hi).1
  have hschema := List.getElem?_eq_getElem hlength
  obtain ⟨final', hfinal', hresolved⟩ := h.getElem? hids hschema
  obtain rfl := Option.some.inj (hi.symm.trans hfinal')
  exact ⟨_, List.mem_of_getElem? hschema, hresolved⟩

end DistinctIds

/-- **A fresh pass leaves the plain graph.** For every list and every size of the batches: a name
leads to the first schema that has it; the last schema with an identifier is left with exactly the
other schemas that refer to it, and every other schema with nothing; the counts and the ordered
misses are those of all references taken one by one; no schema refers to itself. So the size of the
batches has no part in what comes out. -/
theorem resolve_fresh_eq_plain_graph (batchSize workers : Nat) (schemas : List LoadedSchema) :
    let index := Index.ofSchemas schemas
    let after := (({ batchSize, workers } : Resolver).resolve schemas).1
    let stats := (({ batchSize, workers } : Resolver).resolve schemas).2.1
    (∀ key, index.get? key =
      (schemas.find? fun schema => schema.keys.contains key).map (·.id)) ∧
    IsGraphOf schemas after ∧
    stats.total = (queriesOf schemas).length ∧
    stats.resolved = (queriesOf schemas).countP (fun query =>
      (index.search query.reference).any (· != query.source)) ∧
    stats.selfReferences = (queriesOf schemas).countP (fun query =>
      index.search query.reference == some query.source) ∧
    stats.unresolved = (queriesOf schemas).countP (fun query =>
      (index.search query.reference).isNone) ∧
    stats.misses = (queriesOf schemas).filter (fun query =>
      (index.search query.reference).isNone) ∧
    (∀ schema ∈ after, schema.id ∉ schema.referencedBy) ∧
    ∀ otherSize otherWorkers : Nat,
      let other : Resolver := { batchSize := otherSize, workers := otherWorkers }
      (other.resolve schemas).1 = after ∧
      (other.resolve schemas).2.1.outcome = stats.outcome := by
  have hschemas := fun size workers : Nat =>
    Resolver.schemas_resolve { batchSize := size, workers } schemas
  have hcounts := fun size workers : Nat =>
    Resolver.outcome_resolve { batchSize := size, workers } schemas
  simp only [answer_fresh] at hschemas hcounts
  have hstats := hcounts batchSize workers
  refine ⟨Index.get?_ofSchemas schemas, ?_, congrArg Stats.total hstats,
    congrArg Stats.resolved hstats, congrArg Stats.selfReferences hstats,
    congrArg Stats.unresolved hstats, congrArg Stats.misses hstats, ?_, ?_⟩
  · rw [hschemas]
    exact isGraphOf_assign schemas
  · rw [hschemas]
    exact id_notMem_referencedBy_assign _ schemas
  · intro otherSize otherWorkers
    exact ⟨(hschemas otherSize otherWorkers).trans (hschemas batchSize workers).symm,
      (hcounts otherSize otherWorkers).trans hstats.symm⟩

end RamlSchema.References

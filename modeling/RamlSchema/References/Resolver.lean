import RamlSchema.References.Index

/-!
# Resolution

The schemas that refer to each schema of a list. References are resolved in batches, and every
result is kept, so that a second pass over schemas with the same names finds it again. Batches and
kept results change how the work is done, but not what comes out of it.
-/

namespace RamlSchema.References

structure Query where
  source : String
  reference : Reference
  deriving DecidableEq, Repr

/-- The results that are kept, misses among them. -/
abbrev Cache := Entries Query (Option String)

structure Stats where
  total : Nat := 0
  resolved : Nat := 0
  unresolved : Nat := 0
  selfReferences : Nat := 0
  cacheHits : Nat := 0
  batches : Nat := 0
  misses : List Query := []
  deriving DecidableEq, Repr

/-- What the work on a batch gives: the cache, the counts, and the pairs of a schema and the one it
refers to. -/
structure Batch where
  cache : Cache := []
  stats : Stats := {}
  edges : List (String × String) := []

structure Resolver where
  batchSize : Nat := 50
  workers : Nat := 4
  cache : Cache := []
  index? : Option Index := none

def Stats.add (a b : Stats) : Stats :=
  { total := a.total + b.total
    resolved := a.resolved + b.resolved
    unresolved := a.unresolved + b.unresolved
    selfReferences := a.selfReferences + b.selfReferences
    cacheHits := a.cacheHits + b.cacheHits
    batches := a.batches + b.batches
    misses := a.misses ++ b.misses }

def LoadedSchema.queries (schema : LoadedSchema) : List Query :=
  schema.references.map fun reference => ⟨schema.id, reference⟩

/-- Counts the target of a query. A schema that refers to itself has found nothing new. -/
def Batch.count (batch : Batch) (query : Query) (target : Option String) : Batch :=
  let stats := batch.stats
  match target with
  | none =>
    { batch with
      stats :=
        { stats with unresolved := stats.unresolved + 1, misses := stats.misses ++ [query] } }
  | some target =>
    if target = query.source then
      { batch with stats := { stats with selfReferences := stats.selfReferences + 1 } }
    else
      { batch with
        stats := { stats with resolved := stats.resolved + 1 }
        edges := batch.edges ++ [(query.source, target)] }

/-- Resolves one query, by the cache if it knows the result. -/
def Batch.resolve (index : Index) (batch : Batch) (query : Query) : Batch :=
  let stats := { batch.stats with total := batch.stats.total + 1 }
  match batch.cache.get? query with
  | some target =>
    { batch with stats := { stats with cacheHits := stats.cacheHits + 1 } }.count query target
  | none =>
    let target := index.search query.reference
    { batch with stats, cache := batch.cache.put query target }.count query target

/-- Resolves the references of some schemas, starting from what is kept about those schemas. -/
def Batch.ofSchemas (index : Index) (kept : Cache) (schemas : List LoadedSchema) : Batch :=
  let ids := schemas.map (·.id)
  (schemas.flatMap LoadedSchema.queries).foldl (Batch.resolve index)
    { cache := kept.filter fun (query, _) => ids.contains query.source }

/-- A list cut into pieces of the given size, which counts as one if it is zero. -/
def pieces {α : Type} (size : Nat) (xs : List α) : List (List α) :=
  match xs with
  | [] => []
  | x :: rest => (x :: rest.take (size - 1)) :: pieces size (rest.drop (size - 1))
termination_by xs.length
decreasing_by
  rw [List.length_drop, List.length_cons]
  omega

def sourcesOf (edges : List (String × String)) (id : String) : List String :=
  ((edges.filter fun (source, target) => target == id && source != id).map Prod.fst).eraseDups

/-- Enters the edges. Of several schemas with one identifier the last one takes them all. -/
def assign (edges : List (String × String)) : List LoadedSchema → List LoadedSchema
  | [] => []
  | schema :: rest =>
    let referencedBy :=
      if rest.any (·.id == schema.id) then [] else sourcesOf edges schema.id
    { schema with referencedBy } :: assign edges rest

namespace Resolver

/-- The cache, if it was filled with the names that are in force now. -/
def keptFor (resolver : Resolver) (index : Index) : Cache :=
  match resolver.index? with
  | some old => if index.agrees old then resolver.cache else []
  | none => []

def resolve (resolver : Resolver) (schemas : List LoadedSchema) :
    List LoadedSchema × Stats × Resolver :=
  let index := Index.ofSchemas schemas
  let batches :=
    (pieces resolver.batchSize schemas).map (Batch.ofSchemas index (resolver.keptFor index))
  let stats := batches.foldl (fun (stats : Stats) batch => stats.add batch.stats) {}
  let cache := batches.foldl (fun (cache : Cache) batch => cache.putAll batch.cache) []
  (assign (batches.flatMap (·.edges)) schemas, { stats with batches := batches.length },
    { resolver with cache, index? := some index })

end Resolver

def Stats.toJson (stats : Stats) : Json :=
  .obj [("totalReferences", .nat stats.total), ("resolved", .nat stats.resolved),
    ("unresolved", .nat stats.unresolved), ("selfReferences", .nat stats.selfReferences),
    ("cacheHits", .nat stats.cacheHits), ("batches", .nat stats.batches),
    ("unresolvedRefs",
      .arr (stats.misses.map fun query =>
        .obj [("source", .str query.source), ("$ref", .str query.reference.text)]))]

end RamlSchema.References

import ManagedLayout.Proofs.Catalogue.Passes
import ManagedLayout.Proofs.Catalogue.SharedNames
import ManagedLayout.Proofs.NamePool

/-!
# No two layouts share a name

The name of a definition comes from a pool, which hands it out once. The name of an instantiation is
made from that of its definition and may be any text, also one that the pool has handed out, or
would; it gets a layout only if it is new. So the names of all layouts differ, however the names of
the dump are chosen.
-/

namespace ManagedLayout

namespace DefinitionNames.Records

variable {claims : List (Index .images × Index .typeDefinitions)} {names : DefinitionNames}

theorem entries_insert {image : Index .images} {definition : Index .typeDefinitions}
    {descriptor : DescriptorId} {spelling : String} {builtin? : Option TypeKind} :
    (names.insert image definition descriptor spelling builtin?).entries.toList =
      names.entries.toList ++ [⟨definition, image, names.given spelling, descriptor⟩] :=
  Array.toList_push

/-- The pool has the names of the entries. -/
theorem contains_pool_iff (records : names.Records claims) {name : String} :
    names.pool.contains name ↔ name ∈ names.entries.toList.map (·.name) := by
  induction records with
  | start => simp [DefinitionNames.empty]
  | again _ _ _ ih => exact ih
  | first records image unowned descriptor spelling builtin? ih =>
    rw [entries_insert, List.map_append, List.mem_append, ← ih, or_comm]
    exact NamePool.contains_request.trans (or_congr_left (by simp [given]))

theorem nodup_names (records : names.Records claims) :
    (names.entries.toList.map (·.name)).Nodup := by
  induction records with
  | start => exact .nil
  | again _ _ _ ih => exact ih
  | first records image unowned descriptor spelling builtin? ih =>
    rw [entries_insert, List.map_append, List.map_singleton, ← List.concat_eq_append]
    refine ih.concat ?_
    rw [← records.contains_pool_iff, Bool.not_eq_true]
    exact NamePool.contains_request_fst

end DefinitionNames.Records

namespace InstanceNames.Records

variable {metadata : Metadata} {definitions : DefinitionNames} {references : List TypeReference}
  {instances : InstanceNames} {entry : NamedInstance}

/-- An entry is added if its name is new. -/
theorem entries_insert : (instances.insert definitions entry).entries.toList =
    instances.entries.toList ++
      if definitions.pool.contains entry.name || instances.structNames.contains entry.name then []
      else [entry] := by
  unfold InstanceNames.insert
  split <;> simp

theorem contains_structNames_iff (records : instances.Records metadata definitions references)
    {name : String} :
    instances.structNames.contains name ↔ name ∈ instances.entries.toList.map (·.name) := by
  induction records with
  | start => simp [InstanceNames.empty]
  | skip _ _ ih => exact ih
  | name records uses unnamed isOpen ih =>
    rw [structNames_insert, entries_insert, List.map_append, List.mem_append, ← ih]
    apply or_congr_right
    split <;> simp_all

/-- The names of the entries differ from each other and from those in the pool. -/
theorem nodup_names (records : instances.Records metadata definitions references) :
    (instances.entries.toList.map (·.name)).Nodup ∧
      ∀ name ∈ instances.entries.toList.map (·.name), definitions.pool.contains name = false := by
  induction records with
  | start => simp [InstanceNames.empty]
  | skip _ _ ih => exact ih
  | name records uses unnamed isOpen ih =>
    rw [entries_insert]
    split
    next => rwa [List.append_nil]
    next untaken =>
      rw [Bool.or_eq_true, not_or, records.contains_structNames_iff, Bool.not_eq_true] at untaken
      rw [List.map_append, List.map_singleton, ← List.concat_eq_append]
      refine ⟨ih.1.concat untaken.2, ?_⟩
      simp only [List.concat_eq_append, List.mem_append, List.mem_singleton]
      rintro name (mem | rfl)
      · exact ih.2 name mem
      · exact untaken.1

end InstanceNames.Records

namespace BuildPlan.Lists

variable {plan : BuildPlan} {definitions instances : List StructRecord}

/-- Layouts are named like the entries that they are of. -/
theorem map_typeName {Entry : Type} {entries : List Entry} {name : Entry → String}
    {layouts : List StructRecord} {related : Entry → StructRecord → Prop}
    (areRelated : List.Forall₂ related entries layouts)
    (isName : ∀ entry layout, related entry layout → layout.typeName = name entry) :
    layouts.map (·.typeName) = entries.map name := by
  rw [← List.forall₂_eq_eq_eq, List.forall₂_map_left_iff, List.forall₂_map_right_iff]
  exact areRelated.flip.imp fun layout entry ↦ isName entry layout

theorem map_typeName_definitions (lists : plan.Lists definitions instances) :
    definitions.map (·.typeName) = plan.names.definitions.entries.toList.map (·.name) :=
  map_typeName lists.definitions fun _ _ ↦ And.left

/-- All entries of instantiations have a layout, or none has. -/
theorem map_typeName_instances (lists : plan.Lists definitions instances) :
    instances.map (·.typeName) = if plan.options.genericInstances then
      plan.names.instances.entries.toList.map (·.name) else [] := by
  have areInstances := lists.instances
  by_cases asked : plan.options.genericInstances
  · rw [if_pos asked] at areInstances ⊢
    exact map_typeName areInstances fun _ _ ↦ And.left
  · rw [if_neg asked] at areInstances ⊢
    rw [areInstances, List.map_nil]

end BuildPlan.Lists

namespace Catalogue

/-- **No two layouts share a name**, whatever names the dump declares and whether there are layouts
of instantiations or not. -/
theorem nodup_typeName {metadata : Metadata} {options : BuildOptions} {offsets : OffsetSource}
    {catalogue : Catalogue} (built : (buildWith metadata options offsets).result = .ok catalogue) :
    (catalogue.structs.map (·.typeName)).Nodup := by
  obtain ⟨plan, definitions, instances, -, -, listedBy⟩ := exists_listedBy built
  have ⟨definitionRecords, instanceRecords⟩ := listedBy.records
  have instancesDiffer := instanceRecords.nodup_names
  rw [listedBy.structs, List.map_append, listedBy.lists.map_typeName_definitions,
    listedBy.lists.map_typeName_instances]
  split
  next =>
    refine List.Nodup.append definitionRecords.nodup_names instancesDiffer.1 ?_
    intro name isDefinition isInstance
    have inPool := definitionRecords.contains_pool_iff.mpr isDefinition
    rw [instancesDiffer.2 name isInstance] at inPool
    exact nomatch inPool
  next => simpa using definitionRecords.nodup_names

end Catalogue

/-- A class in a namespace and one in a class, both spelled alike; a class that is named as the
second of them would be; and a class that is named like an instantiation of a generic one. -/
def Metadata.lookalikes : Metadata :=
  (Metadata.ofDefinitions
    [.named "N.M" "X", .named "N" "M",
      { TypeDefinition.named "" "X" with declaringType := ⟨0⟩ }, .named "N.M" "X_1",
      { TypeDefinition.named "" "Box`1" with genericContainer := ⟨0⟩ }, .named "" "Box<X>"]
    []
    [(.classType, .definition ⟨1⟩), (.classType, .definition ⟨0⟩), (.classType, .definition ⟨3⟩),
      (.genericInstance, .genericClass ⟨0⟩), (.genericInstance, .genericClass ⟨1⟩)]
    [(⟨4⟩, [⟨1⟩]), (⟨4⟩, [⟨2⟩])]).withParameters ["T"]

namespace Catalogue

set_option maxRecDepth 10000 in
/-- The suffix of the second class is taken from the one that has it by name, and the instantiation
that is spelled like a definition has no layout. -/
theorem lookalikes_nodup_typeName : ∃ catalogue,
    (buildWith .lookalikes .default Metadata.lookalikes.fieldOffset).result = .ok catalogue ∧
      catalogue.instanceName? ⟨0⟩ = some "Box<X>" ∧
      catalogue.structs.map (·.typeName) =
        ["N.M.X", "N.M", "N.M.X_1", "N.M.X_1_1", "Box<T>", "Box<X>", "Box<X_1>"] ∧
      (catalogue.structs.map (·.typeName)).Nodup := by
  have isShown :
      (buildWith .lookalikes .default Metadata.lookalikes.fieldOffset).result.toOption.map
        (fun catalogue ↦ (catalogue.instanceName? ⟨0⟩, catalogue.structs.map (·.typeName))) =
      some (some "Box<X>",
        ["N.M.X", "N.M", "N.M.X_1", "N.M.X_1_1", "Box<T>", "Box<X>", "Box<X_1>"]) := by
    decide +kernel
  obtain ⟨catalogue, built, shown⟩ := exists_of_shown isShown
  obtain ⟨isName, areNames⟩ := Prod.mk.inj shown
  exact ⟨catalogue, built, isName, areNames, nodup_typeName built⟩

end Catalogue

end ManagedLayout

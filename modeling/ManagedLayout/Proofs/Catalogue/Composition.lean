import ManagedLayout.Proofs.Catalogue.UniqueNames

/-!
# Which layouts a catalogue has

A catalogue has one layout for each definition that some image claims, in the order of the first
claims. Then, if they are asked for, there is one for each name of an instantiation that is not the
display name of a definition, in the order in which type references lead to these names. A claim or
a name that comes again adds nothing.
-/

namespace ManagedLayout

theorem eraseDups_concat {Element : Type} [DecidableEq Element] (elements : List Element)
    (element : Element) :
    (elements ++ [element]).eraseDups =
      elements.eraseDups ++ if element ∈ elements then [] else [element] := by
  rw [List.eraseDups_append]
  by_cases mem : element ∈ elements <;> simp [List.removeAll, mem, List.eraseDups_cons]

namespace Metadata

/-- The definitions that images claim, in the order of their first claims. -/
def claimedDefinitions (metadata : Metadata) : List (Index .typeDefinitions) :=
  (metadata.claims.map Prod.snd).eraseDups

/-- The first image that claims a definition. -/
def owner? (metadata : Metadata) (definition : Index .typeDefinitions) : Option (Index .images) :=
  (metadata.claims.find? (·.2 == definition)).map Prod.fst

end Metadata

namespace DefinitionNames.Records

variable {claims : List (Index .images × Index .typeDefinitions)} {names : DefinitionNames}

/-- A definition belongs to the first image that claims it. -/
theorem owners_eq (records : names.Records claims) (definition : Index .typeDefinitions) :
    names.owners[definition]? = (claims.find? (·.2 == definition)).map Prod.fst := by
  induction records with
  | start => simp [DefinitionNames.empty]
  | @again claims names records image claimed owned ih =>
    rw [List.find?_append]
    by_cases same : claimed = definition
    · subst same
      rw [ih, Option.isSome_map] at owned
      rw [Option.or_of_isSome owned, ih]
    · simp [same, ih]
  | @first claims names records image claimed unowned descriptor spelling builtin? ih =>
    rw [List.find?_append]
    by_cases same : claimed = definition
    · subst same
      rw [ih, Option.map_eq_none_iff] at unowned
      simp [DefinitionNames.insert, unowned]
    · simp [DefinitionNames.insert, getElem?_insert_eq, same, ih]

theorem isSome_owners (records : names.Records claims) (definition : Index .typeDefinitions) :
    names.owners[definition]?.isSome ↔ definition ∈ claims.map Prod.snd := by
  simp [records.owners_eq]

/-- There is one entry for each definition that is claimed, in the order of the first claims. -/
theorem map_definition (records : names.Records claims) :
    names.entries.toList.map (·.definition) = (claims.map Prod.snd).eraseDups := by
  induction records with
  | start => rfl
  | again records image owned ih =>
    rw [List.map_append, List.map_singleton, eraseDups_concat,
      if_pos ((records.isSome_owners _).mp owned), List.append_nil, ih]
  | first records image unowned descriptor spelling builtin? ih =>
    have notClaimed := (not_congr (records.isSome_owners _)).mp (by rw [unowned]; simp)
    rw [List.map_append, List.map_singleton, eraseDups_concat, if_neg notClaimed, entries_insert,
      List.map_append, ih, List.map_singleton]

/-- An entry has the display name and the image of its definition. -/
theorem entries_known (records : names.Records claims) :
    ∀ entry ∈ names.entries.toList, names.displayNames[entry.definition]? = some entry.name ∧
      names.owners[entry.definition]? = some entry.image := by
  induction records with
  | start => simp [DefinitionNames.empty]
  | again _ _ _ ih => exact ih
  | first records image unowned descriptor spelling builtin? ih =>
    intro entry mem
    rw [entries_insert, List.mem_append, List.mem_singleton] at mem
    rw [displayNames_insert]
    simp only [DefinitionNames.insert, getElem?_insert_eq]
    obtain mem | rfl := mem
    · have known := ih entry mem
      rw [if_neg, if_neg]
      · exact known
      all_goals
        rintro rfl
        simp [unowned] at known
    · simp

/-- A display name is that of an entry. -/
theorem exists_entry_of_displayNames (records : names.Records claims)
    {definition : Index .typeDefinitions} {name : String}
    (isName : names.displayNames[definition]? = some name) :
    ∃ entry ∈ names.entries.toList, entry.definition = definition ∧ entry.name = name := by
  induction records with
  | start => simp [DefinitionNames.empty] at isName
  | again _ _ _ ih => exact ih isName
  | first records image unowned descriptor spelling builtin? ih =>
    rw [displayNames_insert] at isName
    rw [entries_insert]
    split at isName
    next same => exact ⟨_, List.mem_concat_self, same, Option.some.inj isName⟩
    next =>
      obtain ⟨entry, mem, isEntry⟩ := ih isName
      exact ⟨entry, List.mem_append_left _ mem, isEntry⟩

end DefinitionNames.Records

/-- The generic classes with a name that these references use, in the order of the references. -/
def InstanceNames.namedClasses (instances : InstanceNames) (references : List TypeReference) :
    List (Index .genericClasses × String) :=
  (references.filterMap TypeReference.usedClass?).filterMap fun genericClass ↦
    instances.names[genericClass]?.map (genericClass, ·)

namespace InstanceNames.Records

variable {metadata : Metadata} {definitions : DefinitionNames} {references : List TypeReference}
  {instances : InstanceNames}

/-- A generic class that is used has a name, or it has no definition. -/
theorem settled (records : instances.Records metadata definitions references) :
    ∀ genericClass ∈ references.filterMap TypeReference.usedClass?,
      instances.names[genericClass]?.isSome ∨ metadata.openDefinition? genericClass = .ok none := by
  induction records with
  | start => simp
  | skip _ settled ih =>
    intro genericClass mem
    rw [List.filterMap_append, List.mem_append] at mem
    obtain mem | mem := mem
    · exact ih genericClass mem
    · exact settled genericClass (by simpa using mem)
  | name _ uses unnamed isOpen ih =>
    intro genericClass mem
    rw [List.filterMap_append, List.mem_append] at mem
    rw [names_insert]
    split
    next => simp
    next different =>
      obtain mem | mem := mem
      · exact ih genericClass mem
      · simp [uses, Ne.symm different] at mem

/-- A generic class that has a name is used. -/
theorem mem_of_names (records : instances.Records metadata definitions references)
    {genericClass : Index .genericClasses} (named : instances.names[genericClass]?.isSome) :
    genericClass ∈ references.filterMap TypeReference.usedClass? := by
  induction records with
  | start => simp [InstanceNames.empty] at named
  | skip _ _ ih =>
    rw [List.filterMap_append, List.mem_append]
    exact .inl (ih named)
  | name _ uses _ _ ih =>
    rw [List.filterMap_append, List.mem_append]
    rw [names_insert] at named
    split at named
    next same => simp [uses, same]
    next => exact .inl (ih named)

/-- Naming a generic class changes nothing for those that are used before it. -/
theorem names_insert_of_mem (records : instances.Records metadata definitions references)
    {entry : NamedInstance} (unnamed : instances.names[entry.genericClass]? = none)
    (isOpen : metadata.openDefinition? entry.genericClass = .ok (some entry.definition))
    {genericClass : Index .genericClasses}
    (mem : genericClass ∈ references.filterMap TypeReference.usedClass?) :
    (instances.insert definitions entry).names[genericClass]? = instances.names[genericClass]? := by
  rw [names_insert, if_neg]
  rintro rfl
  have isSettled := records.settled _ mem
  simp [unnamed, isOpen] at isSettled

theorem namedClasses_insert (records : instances.Records metadata definitions references)
    {reference : TypeReference} {entry : NamedInstance}
    (uses : reference.usedClass? = some entry.genericClass)
    (unnamed : instances.names[entry.genericClass]? = none)
    (isOpen : metadata.openDefinition? entry.genericClass = .ok (some entry.definition)) :
    (instances.insert definitions entry).namedClasses (references ++ [reference]) =
      instances.namedClasses references ++ [(entry.genericClass, entry.name)] := by
  have sameClasses :
      (instances.insert definitions entry).namedClasses references =
        instances.namedClasses references := by
    apply List.filterMap_congr
    intro genericClass mem
    rw [records.names_insert_of_mem unnamed isOpen mem]
  rw [← sameClasses, namedClasses, namedClasses, List.filterMap_append, List.filterMap_append]
  simp [uses, names_insert]

/-- A reference to a generic class that is named already adds no name. -/
theorem eraseDups_skip (records : instances.Records metadata definitions references)
    {reference : TypeReference} :
    ((instances.namedClasses (references ++ [reference])).map Prod.snd).eraseDups =
      ((instances.namedClasses references).map Prod.snd).eraseDups := by
  rw [namedClasses, List.filterMap_append, List.filterMap_append]
  cases isUsed : reference.usedClass? with
  | none => simp [namedClasses, isUsed]
  | some genericClass =>
    cases isName : instances.names[genericClass]? with
    | none => simp [namedClasses, isUsed, isName]
    | some name =>
      have isOld : (genericClass, name) ∈ instances.namedClasses references :=
        List.mem_filterMap.mpr
          ⟨genericClass, records.mem_of_names (by rw [isName]; rfl), by rw [isName]; rfl⟩
      have mem := List.mem_map_of_mem (f := Prod.snd) isOld
      simp only [List.filterMap_cons, isUsed, isName, List.filterMap_nil, Option.map_some,
        List.map_append, List.map_singleton]
      rw [eraseDups_concat]
      exact (congrArg _ (if_pos mem)).trans (List.append_nil _)

/-- There is one entry for each name that is no display name, in the order of the names. -/
theorem map_name (records : instances.Records metadata definitions references) :
    instances.entries.toList.map (·.name) =
      ((instances.namedClasses references).map Prod.snd).eraseDups.filter fun name ↦
        !definitions.pool.contains name := by
  induction records with
  | start => rfl
  | skip records _ ih => rw [records.eraseDups_skip, ih]
  | @name references instances records reference entry uses unnamed isOpen ih =>
    have isStruct : instances.structNames.contains entry.name ↔ _ :=
      records.contains_structNames_iff
    rw [ih, List.mem_filter, List.mem_eraseDups] at isStruct
    rw [records.namedClasses_insert uses unnamed isOpen, List.map_append, List.map_singleton,
      eraseDups_concat, List.filter_append, entries_insert, List.map_append, ih]
    congr 1
    by_cases inPool : definitions.pool.contains entry.name <;>
      by_cases isOld : entry.name ∈ (instances.namedClasses references).map Prod.snd <;> simp_all

/-- A name is in the pool, or that of an entry. -/
theorem taken_of_mem (records : instances.Records metadata definitions references)
    {pair : Index .genericClasses × String} (mem : pair ∈ instances.namedClasses references) :
    definitions.pool.contains pair.2 || instances.structNames.contains pair.2 := by
  rw [Bool.or_eq_true, records.contains_structNames_iff, records.map_name, List.mem_filter,
    List.mem_eraseDups]
  by_cases inPool : definitions.pool.contains pair.2
  · exact .inl inPool
  · exact .inr ⟨List.mem_map_of_mem mem, by simpa using inPool⟩

/-- An entry is of the first generic class that is used and has its name. -/
theorem entries_first (records : instances.Records metadata definitions references) :
    ∀ entry ∈ instances.entries.toList,
      metadata.openDefinition? entry.genericClass = .ok (some entry.definition) ∧
        (instances.namedClasses references).find? (·.2 == entry.name) =
          some (entry.genericClass, entry.name) := by
  induction records with
  | start => simp [InstanceNames.empty]
  | skip _ _ ih =>
    intro entry mem
    obtain ⟨isOpen, isFirst⟩ := ih entry mem
    rw [namedClasses] at isFirst
    rw [namedClasses, List.filterMap_append, List.filterMap_append, List.find?_append, isFirst,
      Option.some_or]
    exact ⟨isOpen, rfl⟩
  | name records uses unnamed isOpen ih =>
    intro entry mem
    rw [records.namedClasses_insert uses unnamed isOpen, List.find?_append]
    rw [entries_insert, List.mem_append] at mem
    obtain mem | mem := mem
    · obtain ⟨isOpen, isFirst⟩ := ih entry mem
      rw [isFirst, Option.some_or]
      exact ⟨isOpen, rfl⟩
    · split at mem
      next => exact absurd mem List.not_mem_nil
      next untaken =>
        obtain rfl := List.mem_singleton.mp mem
        refine ⟨isOpen, ?_⟩
        rw [List.find?_eq_none.mpr]
        · simp
        · intro pair isOld same
          have taken := records.taken_of_mem isOld
          rw [beq_iff_eq.mp same] at taken
          exact untaken taken

end InstanceNames.Records

namespace Catalogue

/-- Whether a name is the display name of a definition. -/
def displays (catalogue : Catalogue) (name : String) : Bool :=
  catalogue.displayNames.toList.any (·.2 == name)

/-- The generic classes with a name, in the order of the type references that use them. -/
def namedClasses (catalogue : Catalogue) (metadata : Metadata) :
    List (Index .genericClasses × String) :=
  metadata.usedClasses.filterMap fun genericClass ↦
    (catalogue.instanceName? genericClass).map (genericClass, ·)

/-- The names of generic classes that are no display names, in the order in which type references
lead to them. -/
def newNames (catalogue : Catalogue) (metadata : Metadata) : List String :=
  ((catalogue.namedClasses metadata).map Prod.snd).eraseDups.filter fun name ↦
    !catalogue.displays name

/-- The layout of a definition has its display name, and is in the image that claims it first. -/
def LaysOutDefinition (metadata : Metadata) (options : BuildOptions) (catalogue : Catalogue)
    (definition : Index .typeDefinitions) (layout : StructRecord) : Prop :=
  catalogue.displayName? definition = some layout.typeName ∧
    layout.imageName? = metadata.shownImage? options (metadata.owner? definition)

/-- The layout of an instantiation has its name, and is in the image that claims the definition
first. If generic classes share the name, the first one of them counts. -/
def LaysOutInstance (metadata : Metadata) (options : BuildOptions) (catalogue : Catalogue)
    (name : String) (layout : StructRecord) : Prop :=
  layout.typeName = name ∧ ∃ genericClass definition,
    (catalogue.namedClasses metadata).find? (·.2 == name) = some (genericClass, name) ∧
      metadata.openDefinition? genericClass = .ok (some definition) ∧
      layout.imageName? = metadata.shownImage? options (metadata.owner? definition)

/-- A catalogue has these layouts of definitions, and after them these of instantiations. -/
structure ComposedOf (metadata : Metadata) (options : BuildOptions) (catalogue : Catalogue)
    (definitions instances : List StructRecord) : Prop where
  structs : catalogue.structs = definitions ++ instances
  definitions : List.Forall₂ (LaysOutDefinition metadata options catalogue)
    metadata.claimedDefinitions definitions
  instances : if options.genericInstances then
      List.Forall₂ (LaysOutInstance metadata options catalogue) (catalogue.newNames metadata) instances
    else instances = []
  /-- Every generic class with a name is used by a type reference. -/
  used : ∀ genericClass, (catalogue.instanceName? genericClass).isSome →
    genericClass ∈ metadata.usedClasses

theorem displays_of_displayName? {catalogue : Catalogue} {definition : Index .typeDefinitions}
    {name : String} (isName : catalogue.displayName? definition = some name) :
    catalogue.displays name = true := by
  rw [displays, List.any_eq_true]
  exact ⟨_, Std.TreeMap.mem_toList_iff_getElem?_eq_some.mpr isName, beq_self_eq_true _⟩

section Tables

variable {metadata : Metadata} {catalogue : Catalogue} {names : BuildNames}

theorem namedClasses_eq (instanceNames : catalogue.instanceNames = names.instances.names) :
    catalogue.namedClasses metadata =
      names.instances.namedClasses metadata.registrations.types.types.toList := by
  unfold namedClasses instanceName?
  rw [instanceNames]
  rfl

variable (records : names.Records metadata)
  (displayNames : catalogue.displayNames = names.definitions.displayNames)

include records displayNames

theorem displayName_of_entry {entry : NamedDefinition}
    (isEntry : entry ∈ names.definitions.entries.toList) :
    catalogue.displayName? entry.definition = some entry.name := by
  rw [displayName?, displayNames]
  exact (records.definitions.entries_known entry isEntry).1

/-- Definitions have different display names. -/
theorem displayName_inj {first second : Index .typeDefinitions} {name : String}
    (isFirst : catalogue.displayName? first = some name)
    (isSecond : catalogue.displayName? second = some name) : first = second := by
  have records := records.definitions
  rw [displayName?, displayNames] at isFirst isSecond
  obtain ⟨entry, mem, rfl, isName⟩ := records.exists_entry_of_displayNames isFirst
  obtain ⟨other, otherMem, rfl, isOtherName⟩ := records.exists_entry_of_displayNames isSecond
  have differ := List.inj_on_of_nodup_map records.nodup_names
  rw [differ mem otherMem (isName.trans isOtherName.symm)]

/-- The pool has the display names. -/
theorem displays_eq (name : String) :
    catalogue.displays name = names.definitions.pool.contains name := by
  rw [Bool.eq_iff_iff, records.definitions.contains_pool_iff, displays, List.any_eq_true]
  constructor
  · rintro ⟨⟨definition, displayed⟩, mem, same⟩
    obtain rfl := beq_iff_eq.mp same
    rw [displayNames, Std.TreeMap.mem_toList_iff_getElem?_eq_some] at mem
    obtain ⟨entry, isEntry, -, rfl⟩ := records.definitions.exists_entry_of_displayNames mem
    exact List.mem_map_of_mem isEntry
  · intro mem
    obtain ⟨entry, isEntry, rfl⟩ := List.mem_map.mp mem
    have isName := displayName_of_entry records displayNames isEntry
    exact ⟨_, Std.TreeMap.mem_toList_iff_getElem?_eq_some.mpr isName, beq_self_eq_true _⟩

/-- The name of an instantiation that has an entry is new, and the entry is of the first generic
class of this name. -/
theorem isNew_of_entry (instanceNames : catalogue.instanceNames = names.instances.names)
    {entry : NamedInstance} (isEntry : entry ∈ names.instances.entries.toList) :
    catalogue.displays entry.name = false ∧
      (catalogue.namedClasses metadata).find? (·.2 == entry.name) =
        some (entry.genericClass, entry.name) ∧
      metadata.openDefinition? entry.genericClass = .ok (some entry.definition) := by
  obtain ⟨isOpen, isFirst⟩ := records.instances.entries_first entry isEntry
  rw [displays_eq records displayNames, namedClasses_eq instanceNames]
  exact ⟨records.instances.nodup_names.2 _ (List.mem_map_of_mem isEntry), isFirst, isOpen⟩

/-- The new names are those of the entries. -/
theorem newNames_eq (instanceNames : catalogue.instanceNames = names.instances.names) :
    catalogue.newNames metadata = names.instances.entries.toList.map (·.name) := by
  rw [newNames, records.instances.map_name, namedClasses_eq instanceNames]
  simp only [displays_eq records displayNames]

variable {ofDefinition : NamedDefinition → Prop} {ofInstance : NamedInstance → Prop} {name : String}
  (isOf : (∃ entry ∈ names.definitions.entries.toList, name = entry.name ∧ ofDefinition entry) ∨
    ∃ entry ∈ names.instances.entries.toList, name = entry.name ∧ ofInstance entry)

include isOf

/-- What has a new name is of an instantiation, of the first generic class of this name. -/
theorem exists_instance_of_displays (isNew : catalogue.displays name = false)
    (instanceNames : catalogue.instanceNames = names.instances.names) :
    ∃ entry ∈ names.instances.entries.toList, ofInstance entry ∧
      (catalogue.namedClasses metadata).find? (·.2 == name) = some (entry.genericClass, name) ∧
      metadata.openDefinition? entry.genericClass = .ok (some entry.definition) := by
  obtain ⟨entry, isEntry, rfl, -⟩ | ⟨entry, isEntry, rfl, isInstance⟩ := isOf
  · have displayed := displayName_of_entry records displayNames isEntry
    exact nomatch isNew.symm.trans (displays_of_displayName? displayed)
  · obtain ⟨-, isFirst, isOpen⟩ := isNew_of_entry records displayNames instanceNames isEntry
    exact ⟨entry, isEntry, isInstance, isFirst, isOpen⟩

/-- What has a display name is of that definition. -/
theorem exists_definition_of_displayName? {definition : Index .typeDefinitions}
    (isDisplayed : catalogue.displayName? definition = some name) :
    ∃ entry ∈ names.definitions.entries.toList, ofDefinition entry ∧
      entry.definition = definition := by
  obtain ⟨entry, isEntry, rfl, isDefinition⟩ | ⟨entry, isEntry, rfl, -⟩ := isOf
  · have displayed := displayName_of_entry records displayNames isEntry
    exact ⟨entry, isEntry, isDefinition,
      displayName_inj records displayNames displayed isDisplayed⟩
  · have isNew := records.instances.nodup_names.2 _ (List.mem_map_of_mem isEntry)
    rw [← displays_eq records displayNames, displays_of_displayName? isDisplayed] at isNew
    exact nomatch isNew

end Tables

section MadeBy

variable {plan : BuildPlan} {catalogue : Catalogue} {definitions instances : List StructRecord}
  {state : ResolutionState} (madeBy : catalogue.MadeBy plan definitions instances state)

include madeBy

/-- A layout is that of an entry, and has its name. -/
theorem MadeBy.exists_entry {layout : StructRecord} (mem : layout ∈ catalogue.structs) :
    (∃ entry ∈ plan.names.definitions.entries.toList, layout.typeName = entry.name ∧
        plan.MakesDefinition state entry layout) ∨
      ∃ entry ∈ plan.names.instances.entries.toList, layout.typeName = entry.name ∧
        ∃ record typeArguments?, plan.MakesInstance state entry layout record typeArguments? := by
  rw [madeBy.structs] at mem
  obtain mem | mem := List.mem_append.mp mem
  · obtain ⟨entry, isEntry, made⟩ := forall₂_exists_left madeBy.makes.definitions mem
    exact .inl ⟨entry, isEntry, made.typeName, made⟩
  · right
    cases asked : plan.options.genericInstances with
    | true =>
      obtain ⟨entry, isEntry, record, typeArguments?, made⟩ :=
        forall₂_exists_left (madeBy.makes.instances asked) mem
      exact ⟨entry, isEntry, made.typeName, record, typeArguments?, made⟩
    | false =>
      rw [madeBy.makes.unasked asked] at mem
      exact absurd mem List.not_mem_nil

theorem MadeBy.displayName_of_entry {entry : NamedDefinition} {layout : StructRecord}
    (isEntry : entry ∈ plan.names.definitions.entries.toList)
    (isName : layout.typeName = entry.name) :
    catalogue.displayName? entry.definition = some layout.typeName :=
  isName ▸ Catalogue.displayName_of_entry madeBy.records madeBy.displayNames isEntry

/-- What has a new name is made for an instantiation, of the first generic class of this name. -/
theorem MadeBy.exists_instance {layout : StructRecord} (mem : layout ∈ catalogue.structs)
    (isNew : catalogue.displays layout.typeName = false) :
    ∃ entry ∈ plan.names.instances.entries.toList,
      (∃ record typeArguments?, plan.MakesInstance state entry layout record typeArguments?) ∧
      (catalogue.namedClasses plan.linkage.metadata).find? (·.2 == layout.typeName) =
        some (entry.genericClass, layout.typeName) ∧
      plan.linkage.metadata.openDefinition? entry.genericClass = .ok (some entry.definition) :=
  exists_instance_of_displays madeBy.records madeBy.displayNames (madeBy.exists_entry mem)
    isNew madeBy.instanceNames

/-- A definition that an image claims has a layout. -/
theorem MadeBy.exists_layout_of_claimed {definition : Index .typeDefinitions}
    (claimed : plan.linkage.metadata.Claimed definition) :
    ∃ entry layout, layout ∈ catalogue.structs ∧ plan.MakesDefinition state entry layout ∧
      catalogue.displayName? definition = some layout.typeName := by
  obtain ⟨name, isName⟩ := Option.isSome_iff_exists.mp (madeBy.sound.claimed definition claimed)
  obtain ⟨entry, isEntry, rfl, -⟩ := madeBy.sound.definitions.displayNames definition name isName
  rw [← Array.mem_toList_iff] at isEntry
  obtain ⟨layout, mem, made⟩ := forall₂_exists_left madeBy.makes.definitions.flip isEntry
  refine ⟨entry, layout, ?_, made, madeBy.displayName_of_entry isEntry made.typeName⟩
  rw [madeBy.structs]
  exact List.mem_append_left _ mem

theorem MadeBy.mem_newNames_of_entry {entry : NamedInstance}
    (isEntry : entry ∈ plan.names.instances.entries.toList) :
    entry.name ∈ catalogue.newNames plan.linkage.metadata := by
  rw [newNames_eq madeBy.records madeBy.displayNames madeBy.instanceNames]
  exact List.mem_map_of_mem isEntry

end MadeBy

variable {plan : BuildPlan} {catalogue : Catalogue} {definitions instances : List StructRecord}

theorem ListedBy.composedOf (listedBy : catalogue.ListedBy plan definitions instances) :
    catalogue.ComposedOf plan.linkage.metadata plan.options definitions instances := by
  obtain ⟨definitionRecords, instanceRecords⟩ := listedBy.records
  have owner_eq (definition : Index .typeDefinitions) :
      plan.linkage.metadata.owner? definition = plan.names.definitions.owners[definition]? :=
    (definitionRecords.owners_eq definition).symm
  constructor
  case structs => exact listedBy.structs
  case definitions =>
    have laidOut := (List.forall₂_and_left _ _).mpr
      ⟨definitionRecords.entries_known, listedBy.lists.definitions⟩
    rw [Metadata.claimedDefinitions, ← definitionRecords.map_definition, List.forall₂_map_left_iff]
    apply laidOut.imp
    rintro entry layout ⟨⟨displayed, owned⟩, isName, isImage⟩
    rw [LaysOutDefinition, displayName?, listedBy.displayNames, isName, isImage, owner_eq, owned]
    exact ⟨displayed, rfl⟩
  case instances =>
    have areInstances := listedBy.lists.instances
    by_cases asked : plan.options.genericInstances
    · rw [if_pos asked] at areInstances ⊢
      have laidOut := (List.forall₂_and_left _ _).mpr
        ⟨instanceRecords.entries_first, areInstances⟩
      rw [newNames_eq listedBy.records listedBy.displayNames listedBy.instanceNames,
        List.forall₂_map_left_iff]
      apply laidOut.imp
      rintro entry layout ⟨⟨isOpen, isFirst⟩, isName, isImage⟩
      rw [← namedClasses_eq listedBy.instanceNames] at isFirst
      rw [← owner_eq] at isImage
      exact ⟨isName, entry.genericClass, entry.definition, isFirst, isOpen, isImage⟩
    · rwa [if_neg asked] at areInstances ⊢
  case used =>
    intro genericClass named
    rw [instanceName?, listedBy.instanceNames] at named
    exact instanceRecords.mem_of_names named

end Catalogue

namespace Linkage

open Resolve

variable {linkage : Linkage} {options : BuildOptions} {offsets : OffsetSource}
  {catalogue : Catalogue} {state after : ResolutionState}

/-- The layouts of the definitions are made right after the naming passes. -/
theorem exists_definitions_run
    (ran : (linkage.catalogue options offsets).run.run state = (.ok catalogue, after)) :
    ∃ names named definitions laidOut instances,
      linkage.namingPasses.run.run state = (.ok names, named) ∧
        (names.definitions.entries.toList.mapM
          (linkage.plan options offsets names).definitionLayout).run.run named =
            (.ok definitions, laidOut) ∧
        catalogue.structs = definitions ++ instances := by
  rw [catalogue_eq] at ran
  obtain ⟨names, named, ranNames, ran⟩ := run_bind_eq_ok_iff.mp ran
  obtain ⟨structs, _, ranLayouts, ran⟩ := run_bind_eq_ok_iff.mp ran
  obtain ⟨definitions, laidOut, ranDefinitions, ranLayouts⟩ := run_bind_eq_ok_iff.mp ranLayouts
  obtain ⟨_, _, _, ran⟩ := run_bind_eq_ok_iff.mp ran
  obtain ⟨_, _, _, ran⟩ := run_bind_eq_ok_iff.mp ran
  cases ran
  refine ⟨names, named, definitions, laidOut, ?_⟩
  split at ranLayouts
  all_goals
    obtain ⟨instances, _, _, ranLayouts⟩ := run_bind_eq_ok_iff.mp ranLayouts
    cases ranLayouts
    exact ⟨instances, ranNames, ranDefinitions, rfl⟩

/-- Whether there are layouts of instantiations makes no difference to those of the definitions. -/
theorem exists_same_definitions {other : BuildOptions} {otherCatalogue : Catalogue}
    {otherAfter : ResolutionState}
    (ran : (linkage.catalogue options offsets).run.run state = (.ok catalogue, after))
    (otherRan : (linkage.catalogue other offsets).run.run state = (.ok otherCatalogue, otherAfter))
    (sameImages : other.imageNames = options.imageNames) :
    ∃ definitions instances otherInstances,
      definitions.length = linkage.metadata.claimedDefinitions.length ∧
        catalogue.structs = definitions ++ instances ∧
        otherCatalogue.structs = definitions ++ otherInstances := by
  obtain ⟨names, named, definitions, laidOut, instances, ranNames, ranDefinitions, whole⟩ :=
    exists_definitions_run ran
  obtain ⟨_, _, _, _, otherInstances, otherNames, otherDefinitions, otherWhole⟩ :=
    exists_definitions_run otherRan
  cases ranNames.symm.trans otherNames
  have sameLayout : (linkage.plan other offsets names).definitionLayout =
      (linkage.plan options offsets names).definitionLayout := by
    funext entry
    simp only [BuildPlan.definitionLayout, BuildPlan.imageName?, plan, sameImages]
    rfl
  rw [sameLayout] at otherDefinitions
  cases ranDefinitions.symm.trans otherDefinitions
  refine ⟨definitions, instances, otherInstances, ?_, whole, otherWhole⟩
  have records := (linkage.yields_namingPasses state).of_run_eq_ok ranNames
  have listed := (Yields.mapM (linkage.plan options offsets names).yields_definitionLayout _
    named).of_run_eq_ok ranDefinitions
  rw [Metadata.claimedDefinitions, ← records.definitions.map_definition, List.length_map,
    listed.length_eq]

end Linkage

namespace Catalogue

/-- **Which layouts a catalogue has.** There is one for each definition that is claimed and one for
each new name of an instantiation, in this order, and no other. The layouts of the definitions are
the same as with those of the instantiations. -/
theorem exists_composedOf {metadata : Metadata} {options : BuildOptions} {offsets : OffsetSource}
    {catalogue : Catalogue} (built : (buildWith metadata options offsets).result = .ok catalogue) :
    ∃ definitions instances, catalogue.ComposedOf metadata options definitions instances ∧
      ∀ full, (buildWith metadata { options with genericInstances := true } offsets).result =
        .ok full → ∃ more, full.structs = definitions ++ more := by
  obtain ⟨linkage, linked, rfl, ran⟩ := exists_run built
  have ran := Resolve.run_eq_of_fst_eq ran
  obtain ⟨names, definitions, instances, listedBy⟩ :=
    (linkage.yields_catalogue options offsets .empty).of_run_eq_ok ran
  have composedOf := listedBy.composedOf
  refine ⟨definitions, instances, composedOf, ?_⟩
  intro full builtFull
  obtain ⟨_, linkedFull, -, ranFull⟩ := exists_run builtFull
  cases linked.symm.trans linkedFull
  obtain ⟨same, rest, more, length_same, whole, wholeFull⟩ :=
    Linkage.exists_same_definitions ran (Resolve.run_eq_of_fst_eq ranFull) rfl
  have parts := composedOf.structs.symm.trans whole
  have length_definitions := composedOf.definitions.length_eq.symm.trans length_same.symm
  obtain ⟨rfl, -⟩ := List.append_inj parts length_definitions
  exact ⟨more, wholeFull⟩

end Catalogue

/-- The clashing lists and classes, claimed by two images in the reverse order. Both claim the class
in the namespace and the one that is called like the namespace. -/
def Metadata.overlaps : Metadata :=
  { Metadata.clashes with
    declarations := { Metadata.clashes.declarations with
      images := .ofList [⟨"first.dll", ⟨4⟩, 3, 0, 0, 0⟩, ⟨"second.dll", ⟨0⟩, 6, 0, 0, 0⟩] } }

namespace Catalogue

set_option maxRecDepth 10000 in
/-- Of five instantiations two share a name, two others share another one, and one is called like its
definition. -/
theorem overlaps_exists_composedOf : ∃ catalogue definitions instances,
    (buildWith .overlaps .default Metadata.overlaps.fieldOffset).result = .ok catalogue ∧
      catalogue.structs.map (fun layout ↦ (layout.typeName, layout.imageName?)) =
        [("A.B.X<T>", some "first.dll"), ("A.B", some "first.dll"),
          ("A.B.X<U>", some "first.dll"), ("A.Foo", some "second.dll"),
          ("B.Foo", some "second.dll"), ("T", some "second.dll"),
          ("C.List<T>", some "second.dll"), ("C.List<Foo>", some "second.dll"),
          ("A.B.X<Foo>", some "first.dll")] ∧
      catalogue.ComposedOf .overlaps .default definitions instances ∧
      ∀ full, (buildWith .overlaps { BuildOptions.default with genericInstances := true }
        Metadata.overlaps.fieldOffset).result = .ok full →
          ∃ more, full.structs = definitions ++ more := by
  have isShown : (buildWith .overlaps .default Metadata.overlaps.fieldOffset).result.toOption.map
      (fun catalogue ↦ catalogue.structs.map fun layout ↦ (layout.typeName, layout.imageName?)) =
      some [("A.B.X<T>", some "first.dll"), ("A.B", some "first.dll"),
        ("A.B.X<U>", some "first.dll"), ("A.Foo", some "second.dll"),
        ("B.Foo", some "second.dll"), ("T", some "second.dll"),
        ("C.List<T>", some "second.dll"), ("C.List<Foo>", some "second.dll"),
        ("A.B.X<Foo>", some "first.dll")] := by
    decide +kernel
  obtain ⟨catalogue, built, shown⟩ := exists_of_shown isShown
  obtain ⟨definitions, instances, composedOf, same⟩ := exists_composedOf built
  exact ⟨catalogue, definitions, instances, built, shown, composedOf, same⟩

end Catalogue

end ManagedLayout

import ManagedLayout.Proofs.Catalogue.Members
import ManagedLayout.Proofs.Catalogue.Passes

/-!
# What a build leaves behind

A build that succeeds ends with tables of names that are in step with each other, with the call
sites filed by name, and with one layout for each entry of the tables. Whatever is said of a
catalogue follows from these tables and from the state of the resolution, in which everything is that
the names were made from.
-/

namespace ManagedLayout

/-- A layout refers to its parent and to the types of its fields as they are declared. -/
structure Layout.Refers (metadata : Metadata) (emits : String → Prop)
    (index : Index .typeDefinitions) (context : GenericContext) (definition : TypeDefinition)
    (fields : List FieldDefinition) (layout : StructRecord) : Prop where
  isDefinition : metadata.typeDefinition index = .ok definition
  isFields : metadata.declarations.fields.slice? definition.fieldStart
    definition.fieldCount.toUInt32 = some fields
  parent : definition.IsParent metadata emits context layout.parent?
  instanceFields : List.Forall₂ (FieldDefinition.IsTyped metadata emits context)
    (metadata.laidOut false fields) layout.fields
  staticFields : List.Forall₂ (FieldDefinition.IsTyped metadata emits context)
    (metadata.laidOut true fields) layout.staticFields

/-- A layout is in the namespace of a descriptor in the arena. -/
structure Layout.IsInNamespaceOf (state : ResolutionState) (id : DescriptorId)
    (layout : StructRecord) : Prop where
  stored : id.position < state.descriptors.size
  namespaceName : layout.namespaceName = state.rootNamespace id

theorem Layout.IsInNamespaceOf.mono {before after : ResolutionState} {id : DescriptorId}
    {layout : StructRecord} (isIn : layout.IsInNamespaceOf before id)
    (extend : before.Extends after) : layout.IsInNamespaceOf after id where
  stored := Nat.lt_of_lt_of_le isIn.stored extend.arena.size_le
  namespaceName := isIn.namespaceName.trans (extend.arena.rootNamespace_eq isIn.stored).symm

namespace BuildNames

/-- There is an entry of this name in the tables. -/
def Emits (names : BuildNames) (name : String) : Prop :=
  (∃ entry ∈ names.definitions.entries, entry.name = name) ∨
    ∃ entry ∈ names.instances.entries, entry.name = name

/-- The tables are in step with each other, and have what needs a name. -/
structure Sound (linkage : Linkage) (names : BuildNames) (state : ResolutionState) : Prop where
  definitions : names.definitions.Sound linkage state
  instances : names.instances.Sound linkage names.definitions state
  claimed : ∀ definition, linkage.metadata.Claimed definition →
    names.definitions.displayNames[definition]?.isSome
  used : ∀ genericClass definition, linkage.metadata.UsesClass genericClass →
    linkage.metadata.openDefinition? genericClass = .ok (some definition) →
    names.instances.names[genericClass]?.isSome

variable {linkage : Linkage} {names : BuildNames} {state after : ResolutionState}

theorem Sound.mono (sound : names.Sound linkage state) (faithful : state.Faithful linkage.metadata)
    (extend : state.Extends after) : names.Sound linkage after where
  __ := sound
  definitions := sound.definitions.mono faithful extend
  instances := sound.instances.mono faithful extend

/-- Every name in the tables is that of an entry. -/
theorem Sound.closed (sound : names.Sound linkage state) :
    names.Closed linkage.metadata names.Emits where
  displayNames definition name isName := by
    obtain ⟨entry, mem, -, isEntry⟩ := sound.definitions.displayNames definition name isName
    exact .inl ⟨entry, mem, isEntry⟩
  builtinNames kind name isName := .inl (sound.definitions.builtinNames kind name isName)
  structNames name isStruct := .inr (sound.instances.structNames name isStruct)
  instanceNames genericClass name isName := by
    obtain inPool | isStruct := sound.instances.names genericClass name isName
    · exact .inl (sound.definitions.pool name inPool)
    · exact .inr (sound.instances.structNames name isStruct)
  claimed := sound.claimed
  used := sound.used

end BuildNames

namespace BuildPlan

open Resolve Linkage

variable {plan : BuildPlan} {emits : String → Prop} {state : ResolutionState}

/-- The layout of a definition has its parent, and the call sites that are filed under its name. -/
structure MakesDefinition (plan : BuildPlan) (state : ResolutionState) (entry : NamedDefinition)
    (layout : StructRecord) : Prop where
  typeName : layout.typeName = entry.name
  isIn : layout.IsInNamespaceOf state entry.descriptor
  parent : ∃ definition, plan.linkage.metadata.typeDefinition entry.definition = .ok definition ∧
    ∀ baseNames, state.GivesNames baseNames → definition.HasParent plan.linkage.metadata baseNames
      plan.names.tables entry.definition .empty layout.parent?
  staticMethods : layout.staticMethods = (plan.names.callSites.getD entry.name #[]).toList

/-- The layout of an instantiation has the parent of its definition in the context of its arguments,
and those call sites of the definition that have its arguments. -/
structure MakesInstance (plan : BuildPlan) (state : ResolutionState) (entry : NamedInstance)
    (layout : StructRecord) (record : GenericClass) (typeArguments? : Option String) : Prop where
  typeName : layout.typeName = entry.name
  isIn : layout.IsInNamespaceOf state entry.descriptor
  isRecord : plan.linkage.metadata.genericClass entry.genericClass = .ok record
  parent : ∃ definition, plan.linkage.metadata.typeDefinition entry.definition = .ok definition ∧
    ∀ baseNames, state.GivesNames baseNames → definition.HasParent plan.linkage.metadata baseNames
      plan.names.tables entry.definition ⟨record.context.classArguments.present?, none⟩
      layout.parent?
  typeArguments : ∀ baseNames, state.GivesNames baseNames →
    Option.Rel (plan.linkage.metadata.SpellsArguments baseNames)
      record.context.classArguments.present? typeArguments?
  staticMethods : layout.staticMethods = plan.callSitesWith entry.definition typeArguments?

theorem MakesDefinition.mono {after : ResolutionState} {entry : NamedDefinition}
    {layout : StructRecord} (makes : plan.MakesDefinition state entry layout)
    (faithful : state.Faithful plan.linkage.metadata) (extend : state.Extends after) :
    plan.MakesDefinition after entry layout where
  __ := makes
  isIn := makes.isIn.mono extend
  parent := by
    obtain ⟨definition, isDefinition, hasParent⟩ := makes.parent
    exact ⟨definition, isDefinition, fun baseNames givesNames ↦
      hasParent baseNames (givesNames.of_extends faithful extend)⟩

theorem MakesInstance.mono {after : ResolutionState} {entry : NamedInstance}
    {layout : StructRecord} {record : GenericClass} {typeArguments? : Option String}
    (makes : plan.MakesInstance state entry layout record typeArguments?)
    (faithful : state.Faithful plan.linkage.metadata) (extend : state.Extends after) :
    plan.MakesInstance after entry layout record typeArguments? where
  __ := makes
  isIn := makes.isIn.mono extend
  parent := by
    obtain ⟨definition, isDefinition, hasParent⟩ := makes.parent
    exact ⟨definition, isDefinition, fun baseNames givesNames ↦
      hasParent baseNames (givesNames.of_extends faithful extend)⟩
  typeArguments baseNames givesNames :=
    makes.typeArguments baseNames (givesNames.of_extends faithful extend)

theorem keeps_definitionLayout (closed : plan.names.Closed plan.linkage.metadata emits)
    {entry : NamedDefinition} (stored : entry.descriptor.position < state.descriptors.size) :
    Keeps plan.linkage.metadata (plan.definitionLayout entry) state
      fun layout after ↦ plan.MakesDefinition after entry layout ∧ ∃ definition fields,
        layout.Refers plan.linkage.metadata emits entry.definition .empty definition fields := by
  apply Keeps.bind_lookup
  intro definition isDefinition
  apply Keeps.bind_lookup
  intro image _
  apply Keeps.bind_get
  apply Keeps.bind keeps_parentName?
  intro parent? named namedFaithful afterNamed namesParent
  apply Keeps.bind (keeps_splitFields closed)
  intro split _ _ afterFields ⟨fields, isFields, fits⟩
  apply Keeps.bind_lookup
  intro virtualMethods _
  apply Keeps.bind_lookup
  intro entries _
  apply Keeps.bind (Keeps.mapM_trivial (fun entry _ ↦ keeps_contextRecord entry) _ _)
  intro contextEntries _ _ afterEntries _
  apply Keeps.bind (keeps_methodContexts image _)
  intro methodContexts _ _ afterMethods _
  apply Keeps.pure
  have extend := ((afterFields.trans afterEntries).trans afterMethods).toExtends
  refine ⟨⟨rfl, .mono ⟨stored, rfl⟩ (afterNamed.toExtends.trans extend),
    ⟨definition, isDefinition, fun baseNames givesNames ↦ ?_⟩, rfl⟩,
    definition, fields, isDefinition, isFields, namesParent.isParent closed, fits.instanceFields,
    fits.staticFields⟩
  exact namesParent.hasParent (givesNames.of_extends namedFaithful extend)

theorem keeps_instanceLayout (closed : plan.names.Closed plan.linkage.metadata emits)
    {entry : NamedInstance} (stored : entry.descriptor.position < state.descriptors.size) :
    Keeps plan.linkage.metadata (plan.instanceLayout entry) state
      fun layout after ↦ ∃ record typeArguments?,
        plan.MakesInstance after entry layout record typeArguments? ∧ ∃ definition fields,
          layout.Refers plan.linkage.metadata emits entry.definition
            ⟨record.context.classArguments.present?, none⟩ definition fields := by
  apply Keeps.bind_lookup
  intro definition isDefinition
  apply Keeps.bind_lookup
  intro record isRecord
  apply Keeps.bind_get
  apply Keeps.bind keeps_parentName?
  intro parent? named namedFaithful afterNamed namesParent
  apply Keeps.bind (keeps_splitFields closed)
  intro split _ _ afterFields ⟨fields, isFields, fits⟩
  apply Keeps.bind (spells_instantiationText? _)
  intro typeArguments? after _ afterArguments spells
  apply Keeps.bind_lookup
  intro virtualMethods _
  apply Keeps.pure
  have extend := (afterFields.trans afterArguments).toExtends
  refine ⟨record, typeArguments?,
    ⟨rfl, .mono ⟨stored, rfl⟩ (afterNamed.toExtends.trans extend), isRecord,
      ⟨definition, isDefinition, fun baseNames givesNames ↦ ?_⟩, spells, rfl⟩,
    definition, fields, isDefinition, isFields, namesParent.isParent closed, fits.instanceFields,
    fits.staticFields⟩
  exact namesParent.hasParent (givesNames.of_extends namedFaithful extend)

/-- There is one layout for each entry, of its name, and it refers to others by names that are
emitted. -/
structure LaysOut (plan : BuildPlan) (emits : String → Prop)
    (definitions instances : List StructRecord) : Prop where
  definitions : List.Forall₂
    (fun entry layout ↦ layout.typeName = entry.name ∧ ∃ definition fields,
      layout.Refers plan.linkage.metadata emits entry.definition .empty definition fields)
    plan.names.definitions.entries.toList definitions
  instances : plan.options.genericInstances = true → List.Forall₂
    (fun entry layout ↦ layout.typeName = entry.name ∧ ∃ record,
      plan.linkage.metadata.genericClass entry.genericClass = .ok record ∧ ∃ definition fields,
        layout.Refers plan.linkage.metadata emits entry.definition
          ⟨record.context.classArguments.present?, none⟩ definition fields)
    plan.names.instances.entries.toList instances

/-- There is one layout for each entry, with its parent and its call sites. -/
structure Makes (plan : BuildPlan) (state : ResolutionState)
    (definitions instances : List StructRecord) : Prop where
  definitions : List.Forall₂ (plan.MakesDefinition state) plan.names.definitions.entries.toList
    definitions
  unasked : plan.options.genericInstances = false → instances = []
  instances : plan.options.genericInstances = true → List.Forall₂
    (fun entry layout ↦ ∃ record typeArguments?,
      plan.MakesInstance state entry layout record typeArguments?)
    plan.names.instances.entries.toList instances

theorem Makes.mono {after : ResolutionState} {definitions instances : List StructRecord}
    (makes : plan.Makes state definitions instances)
    (faithful : state.Faithful plan.linkage.metadata) (extend : state.Extends after) :
    plan.Makes after definitions instances where
  definitions := makes.definitions.imp fun _ _ made ↦ made.mono faithful extend
  unasked := makes.unasked
  instances asked := (makes.instances asked).imp fun _ _ ⟨record, typeArguments?, made⟩ ↦
    ⟨record, typeArguments?, made.mono faithful extend⟩

theorem keeps_layouts (plan : BuildPlan) (sound : plan.names.Sound plan.linkage state) :
    Keeps plan.linkage.metadata plan.layouts state
      fun layouts after ↦ ∃ definitions instances, layouts = definitions ++ instances ∧
        plan.LaysOut plan.names.Emits definitions instances ∧
        plan.Makes after definitions instances := by
  apply Keeps.of_faithful
  intro faithful
  have definitionsKept := Keeps.mapM_of_grows _
    (fun _ _ _ _ faithful grows ⟨makes, refers⟩ ↦ ⟨makes.mono faithful grows.toExtends, refers⟩)
    plan.names.definitions.entries.toList state fun entry mem after grows ↦
      keeps_definitionLayout sound.closed (Nat.lt_of_lt_of_le
        (sound.definitions.stored faithful (Array.mem_toList_iff.mp mem)) grows.arena.size_le)
  unfold layouts
  apply Keeps.bind definitionsKept
  intro definitions middle middleFaithful middleGrows areDefinitions
  have laidOut := areDefinitions.imp fun _ _ ⟨makes, refers⟩ ↦ And.intro makes.typeName refers
  split
  next asked =>
    have instancesKept := Keeps.mapM_of_grows _
      (fun _ _ _ _ faithful grows ⟨record, typeArguments?, makes, refers⟩ ↦
        ⟨record, typeArguments?, makes.mono faithful grows.toExtends, refers⟩)
      plan.names.instances.entries.toList middle fun entry mem after grows ↦
        keeps_instanceLayout sound.closed (Nat.lt_of_lt_of_le
          (sound.instances.stored faithful (Array.mem_toList_iff.mp mem))
          (middleGrows.trans grows).arena.size_le)
    apply Keeps.bind instancesKept
    intro instances _ _ grows areInstances
    apply Keeps.pure
    refine ⟨definitions, instances, rfl, ⟨laidOut, fun _ ↦ ?_⟩, ?_, fun unasked ↦ ?_, fun _ ↦ ?_⟩
    · exact areInstances.imp fun _ _ ⟨record, _, makes, refers⟩ ↦
        ⟨makes.typeName, record, makes.isRecord, refers⟩
    · exact areDefinitions.imp fun _ _ ⟨makes, _⟩ ↦ makes.mono middleFaithful grows.toExtends
    · exact nomatch asked.symm.trans unasked
    · exact areInstances.imp fun _ _ ⟨record, typeArguments?, makes, _⟩ ↦
        ⟨record, typeArguments?, makes⟩
  next unasked =>
    apply Keeps.pure
    refine ⟨definitions, [], rfl, ⟨laidOut, fun asked ↦ (unasked asked).elim⟩, ?_, fun _ ↦ rfl,
      fun asked ↦ (unasked asked).elim⟩
    exact areDefinitions.imp fun _ _ ⟨makes, _⟩ ↦ makes

end BuildPlan

/-- A catalogue has the names and the layouts that a build has made. -/
structure Catalogue.MadeBy (plan : BuildPlan) (catalogue : Catalogue)
    (definitions instances : List StructRecord) (state : ResolutionState) : Prop where
  structs : catalogue.structs = definitions ++ instances
  displayNames : catalogue.displayNames = plan.names.definitions.displayNames
  instanceNames : catalogue.instanceNames = plan.names.instances.names
  callSites : catalogue.callSites = plan.names.callSites
  records : plan.names.Records plan.linkage.metadata
  sound : plan.names.Sound plan.linkage state
  files : ∃ sites, plan.linkage.metadata.usageSites = .ok sites ∧
    Linkage.Files plan.linkage.metadata plan.names.definitions.displayNames sites
      plan.names.callSites state
  laysOut : plan.LaysOut plan.names.Emits definitions instances
  makes : plan.Makes state definitions instances

/-- What a computation yields from every state, it yields in faithful ones. -/
theorem Resolve.Keeps.and_yields {Result : Type} {metadata : Metadata}
    {computation : Resolve Result} {state : ResolutionState}
    {done : Result → ResolutionState → Prop} {holds : Result → Prop}
    (kept : Keeps metadata computation state done) (yields : Yields computation holds) :
    Keeps metadata computation state fun result after ↦ done result after ∧ holds result :=
  fun faithful ↦ ((kept faithful).and (yields state)).mono
    (fun _ _ ⟨⟨faithful, grows, isDone⟩, isHeld⟩ ↦ ⟨faithful, grows, isDone, isHeld⟩)
    fun _ _ ⟨kept, _⟩ ↦ kept

namespace Linkage

open Resolve

variable {linkage : Linkage} {options : BuildOptions} {offsets : OffsetSource}
  {state : ResolutionState}

theorem keeps_namingPasses :
    Keeps linkage.metadata linkage.namingPasses state fun names after ↦ names.Sound linkage after ∧
      ∃ sites, linkage.metadata.usageSites = .ok sites ∧
        Files linkage.metadata names.definitions.displayNames sites names.callSites after := by
  apply Keeps.bind (keeps_report _)
  intro _ _ _ _ _
  apply Keeps.bind keeps_nameDefinitions
  intro definitions named faithful _ ⟨definitionsSound, claimed⟩
  apply Keeps.bind (keeps_report _)
  intro _ indexed _ indexedGrows _
  apply Keeps.bind keeps_nameInstances
  intro instances _ instancesFaithful grows ⟨instancesSound, used⟩
  have definitionsSound := definitionsSound.mono faithful (indexedGrows.trans grows).toExtends
  apply Keeps.bind (keeps_report _)
  intro _ _ _ counted _
  apply Keeps.bind (keeps_groupCallSites definitions)
  intro callSites _ groupedFaithful grouped ⟨sites, areSites, files⟩
  apply Keeps.bind (keeps_report _)
  intro _ _ _ reported _
  apply Keeps.pure
  have sound : BuildNames.Sound linkage ⟨definitions, instances, callSites⟩ _ :=
    ⟨definitionsSound, instancesSound, claimed, used⟩
  have extend := ((counted.trans grouped).trans reported).toExtends
  exact ⟨sound.mono instancesFaithful extend, sites, areSites,
    files.mono groupedFaithful reported.toExtends⟩

theorem keeps_catalogue :
    Keeps linkage.metadata (linkage.catalogue options offsets) state
      fun catalogue after ↦ ∃ names definitions instances,
        catalogue.MadeBy (linkage.plan options offsets names) definitions instances after := by
  rw [catalogue_eq]
  apply Keeps.bind (keeps_namingPasses.and_yields linkage.yields_namingPasses)
  intro names _ faithful _ ⟨⟨sound, sites, areSites, files⟩, records⟩
  apply Keeps.bind ((linkage.plan options offsets names).keeps_layouts sound)
  intro _ _ laidOutFaithful laidOut ⟨definitions, instances, whole, laysOut, makes⟩
  apply Keeps.bind_get
  apply Keeps.bind (keeps_report _)
  intro _ _ _ last _
  apply Keeps.pure
  have extend := (laidOut.trans last).toExtends
  exact ⟨names, definitions, instances, whole, rfl, rfl, rfl, records,
    sound.mono faithful extend, ⟨sites, areSites, files.mono faithful extend⟩, laysOut,
    makes.mono laidOutFaithful last.toExtends⟩

end Linkage

namespace Catalogue

variable {metadata : Metadata} {options : BuildOptions} {offsets : OffsetSource}
  {catalogue : Catalogue}

/-- A build that succeeds makes the catalogue from the linked dump, in the state that it ends in. -/
theorem exists_run_madeBy (built : (buildWith metadata options offsets).result = .ok catalogue) :
    ∃ linkage names definitions instances state, Linkage.ofMetadata metadata = .ok linkage ∧
      linkage.metadata = metadata ∧
      (linkage.catalogue options offsets).run.run .empty = (.ok catalogue, state) ∧
      state.Faithful metadata ∧
      catalogue.MadeBy (linkage.plan options offsets names) definitions instances state := by
  obtain ⟨linkage, linked, same, ran⟩ := exists_run built
  have ran := Resolve.run_eq_of_fst_eq ran
  obtain ⟨faithful, -, names, definitions, instances, madeBy⟩ :=
    (linkage.keeps_catalogue ResolutionState.faithful_empty).of_run_eq_ok ran
  exact ⟨linkage, names, definitions, instances, _, linked, same, ran, same ▸ faithful, madeBy⟩

theorem exists_madeBy (built : (buildWith metadata options offsets).result = .ok catalogue) :
    ∃ linkage names definitions instances state, Linkage.ofMetadata metadata = .ok linkage ∧
      linkage.metadata = metadata ∧ state.Faithful metadata ∧
      catalogue.MadeBy (linkage.plan options offsets names) definitions instances state := by
  obtain ⟨linkage, names, definitions, instances, state, linked, same, -, faithful, madeBy⟩ :=
    exists_run_madeBy built
  exact ⟨linkage, names, definitions, instances, state, linked, same, faithful, madeBy⟩

end Catalogue

end ManagedLayout

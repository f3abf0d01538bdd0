import ManagedLayout.Catalogue.Members

/-!
# Building a catalogue

A build names the definitions, names the instantiations, groups the call sites, and then lays out
one struct for each definition and each instantiation. If any step fails, so does the build.
-/

namespace ManagedLayout

/-- For each definition, the methods that it declares, in their order. -/
def Metadata.methodsByDefinition (metadata : Metadata) :
    Std.TreeMap (Index .typeDefinitions) (Array (Index .methods)) :=
  metadata.declarations.methods.indexed.foldl (fun groups (index, method) ↦
    groups.insert method.declaringType ((groups.getD method.declaringType #[]).push index)) ∅

/-- What the layouts of a build depend on. -/
structure BuildPlan where
  linkage : Linkage
  options : BuildOptions
  offsets : OffsetSource
  names : BuildNames
  methods : Std.TreeMap (Index .typeDefinitions) (Array (Index .methods))

namespace BuildPlan

/-- The name of an image, if layouts have it. -/
def imageName? (plan : BuildPlan) (image? : Option Image) : Option String :=
  if plan.options.imageNames then image?.map (·.name) else none

/-- The layout of a definition. -/
def definitionLayout (plan : BuildPlan) (entry : NamedDefinition) : Resolve StructRecord := do
  let metadata := plan.linkage.metadata
  let definition ← metadata.typeDefinition entry.definition
  let image ← metadata.declarations.images.fetch entry.image
  let namespaceName := (← get).rootNamespace entry.descriptor
  let parent? ← plan.linkage.parentName? plan.names entry.definition definition .empty
  let split ←
    plan.linkage.splitFields plan.names plan.offsets entry.definition definition .empty
  let virtualMethods ← metadata.virtualMethods definition
  let entries ← plan.linkage.contextOfType image entry.definition
  let contextEntries ← entries.mapM plan.linkage.contextRecord
  let methodContexts ←
    plan.linkage.methodContexts image (plan.methods.getD entry.definition #[]).toList
  return {
    imageName? := plan.imageName? (some image)
    namespaceName
    typeName := entry.name
    isValueType := definition.isValueType
    isGeneric := definition.isGeneric
    parent?
    fields := split.instanceFields.toList
    staticFields := split.staticFields.toList
    staticMethods := (plan.names.callSites.getD entry.name #[]).toList
    virtualMethods
    contextEntries
    methodContexts }

/-- The call sites of a definition that use it with certain arguments. -/
def callSitesWith (plan : BuildPlan) (definition : Index .typeDefinitions)
    (typeArguments? : Option String) : List CallSite :=
  match plan.names.definitions.displayNames[definition]? with
  | some name =>
    (plan.names.callSites.getD name #[]).toList.filter fun site ↦
      site.typeArguments?.isSome && site.typeArguments? == typeArguments?
  | none => []

/-- The layout of an instantiation. -/
def instanceLayout (plan : BuildPlan) (entry : NamedInstance) : Resolve StructRecord := do
  let metadata := plan.linkage.metadata
  let definition ← metadata.typeDefinition entry.definition
  let genericClass ← metadata.genericClass entry.genericClass
  let classArguments? := genericClass.context.classArguments.present?
  let context : GenericContext := ⟨classArguments?, none⟩
  let namespaceName := (← get).rootNamespace entry.descriptor
  let parent? ← plan.linkage.parentName? plan.names entry.definition definition context
  let split ←
    plan.linkage.splitFields plan.names plan.offsets entry.definition definition context
  let typeArguments? ← plan.linkage.instantiationText? classArguments?
  let virtualMethods ← metadata.virtualMethods definition
  let owner? := plan.names.definitions.owners[entry.definition]?
  return {
    imageName? := plan.imageName? (owner?.bind metadata.declarations.images.get?)
    namespaceName
    typeName := entry.name
    isValueType := definition.isValueType
    isGeneric := true
    parent?
    fields := split.instanceFields.toList
    staticFields := split.staticFields.toList
    staticMethods := plan.callSitesWith entry.definition typeArguments?
    virtualMethods
    contextEntries := []
    methodContexts := [] }

/-- All layouts: those of the definitions, then those of the instantiations. -/
def layouts (plan : BuildPlan) : Resolve (List StructRecord) := do
  let definitions ← plan.names.definitions.entries.toList.mapM plan.definitionLayout
  let instances ←
    if plan.options.genericInstances then
      plan.names.instances.entries.toList.mapM plan.instanceLayout
    else pure []
  return definitions ++ instances

end BuildPlan

namespace Linkage

/-- Builds the catalogue of linked metadata. -/
def catalogue (linkage : Linkage) (options : BuildOptions) (offsets : OffsetSource) :
    Resolve Catalogue := do
  Resolve.report (.started linkage.metadata.version)
  let definitions ← linkage.nameDefinitions
  Resolve.report (.definitionsIndexed definitions.entries.size)
  let instances ← linkage.nameInstances definitions
  Resolve.report (.instancesNamed instances.names.size instances.entries.size)
  let callSites ← linkage.groupCallSites definitions
  Resolve.report (.usagesGrouped callSites.size)
  let structs ← BuildPlan.layouts {
    linkage
    options
    offsets
    names := { definitions, instances, callSites }
    methods := linkage.metadata.methodsByDefinition }
  Resolve.report (.synthesized structs.length (← get).resolvedCount)
  return {
    structs
    displayNames := definitions.displayNames
    instanceNames := instances.names
    callSites }

end Linkage

/-- What a build came to, and what it reported on the way, in order. -/
structure BuildReport where
  result : Except LayoutError Catalogue
  events : List Event

namespace Catalogue

/-- Builds the catalogue of a dump, with field offsets from any source. -/
def buildWith (metadata : Metadata) (options : BuildOptions) (offsets : OffsetSource) :
    BuildReport :=
  match Linkage.ofMetadata metadata with
  | .error error => ⟨.error error, []⟩
  | .ok linkage =>
    let (result, state) := (linkage.catalogue options offsets).run .empty
    ⟨result, state.events.toList⟩

/-- Builds the catalogue of a dump, with the field offsets that the dump has. -/
def build (metadata : Metadata) (options : BuildOptions) : BuildReport :=
  let report := buildWith metadata options metadata.fieldOffset
  { report with events := FieldOffsets.events metadata ++ report.events }

end Catalogue

end ManagedLayout

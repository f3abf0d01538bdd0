import ManagedLayout.Catalogue.Build
import ManagedLayout.Proofs.Agreement.Records

/-!
# Dumps that agree

A build does not read all of a dump, and what it reads can be written in more ways than one: a
reference is an index or an address, an encoded method index has a flag bit or has none. Two dumps
agree if a build reads the same in both of them. Records at the same place may differ in what is
read by following a reference only, as long as the reference leads to the same place.
-/

namespace ManagedLayout

/-- Whether the data of a type reference is a definition or a generic parameter. -/
def TypeData.isDeclaration : TypeData → Bool
  | definition _ | definitionHandle _ | parameter _ | parameterHandle _ => true
  | none | type _ | genericClass _ | array _ => false

/-- The data are equal, or each is a definition or a generic parameter. -/
def TypeData.Resembles (first second : TypeData) : Prop :=
  first = second ∨ first.isDeclaration = true ∧ second.isDeclaration = true

/-- The type references differ at most in how they refer to a definition or a generic parameter. -/
def TypeReference.Resembles (first second : TypeReference) : Prop :=
  ∃ data, first.data.Resembles data ∧ second = { first with data }

namespace TypeReference.Resembles

variable {first second : TypeReference}

theorem kind_eq (resembles : first.Resembles second) : second.kind = first.kind := by
  obtain ⟨data, -, rfl⟩ := resembles
  rfl

theorem isLiteral_eq (resembles : first.Resembles second) :
    second.isLiteral = first.isLiteral := by
  obtain ⟨data, -, rfl⟩ := resembles
  rfl

theorem isStatic_eq (resembles : first.Resembles second) : second.isStatic = first.isStatic := by
  obtain ⟨data, -, rfl⟩ := resembles
  rfl

/-- What does not read to which declaration a type reference refers cannot tell the references
apart. -/
theorem congr {Result : Type} {read : TypeReference → Result}
    (unread : ∀ (reference : TypeReference) (data : TypeData), data.isDeclaration = true →
      read { reference with data } = read { reference with data := .none })
    (resembles : first.Resembles second) : read first = read second := by
  obtain ⟨data, rfl | ⟨isDeclaration, otherIsDeclaration⟩, rfl⟩ := resembles
  · rfl
  · exact (unread first first.data isDeclaration).trans (unread first data otherIsDeclaration).symm

end TypeReference.Resembles

/-- The definitions differ at most in where their runtime generic context stands. -/
def TypeDefinition.Resembles (first second : TypeDefinition) : Prop :=
  ∃ contextStart contextCount, second = { first with contextStart, contextCount }

/-- The methods differ at most in where their runtime generic context stands. -/
def MethodDefinition.Resembles (first second : MethodDefinition) : Prop :=
  ∃ contextStart contextCount, second = { first with contextStart, contextCount }

/-- The generic classes differ at most in how they refer to their definition. -/
def GenericClass.Resembles (first second : GenericClass) : Prop :=
  ∃ definition type, second = { first with definition, type }

theorem TypeReference.Resembles.refl (reference : TypeReference) : reference.Resembles reference :=
  ⟨reference.data, .inl rfl, rfl⟩

theorem TypeDefinition.Resembles.refl (definition : TypeDefinition) :
    definition.Resembles definition :=
  ⟨definition.contextStart, definition.contextCount, rfl⟩

theorem MethodDefinition.Resembles.refl (method : MethodDefinition) : method.Resembles method :=
  ⟨method.contextStart, method.contextCount, rfl⟩

theorem GenericClass.Resembles.refl (record : GenericClass) : record.Resembles record :=
  ⟨record.definition, record.type, rfl⟩

/-- A build reads the same in both dumps, runtime generic contexts aside. -/
structure Metadata.Agrees (first second : Metadata) : Prop where
  typeDefinitions : first.declarations.typeDefinitions.Related TypeDefinition.Resembles
    second.declarations.typeDefinitions
  fields : first.declarations.fields = second.declarations.fields
  methods : first.declarations.methods.Related MethodDefinition.Resembles
    second.declarations.methods
  genericParameters : first.declarations.genericParameters = second.declarations.genericParameters
  genericContainers : first.declarations.genericContainers = second.declarations.genericContainers
  images : first.declarations.images = second.declarations.images
  types : first.registrations.types.types.Related TypeReference.Resembles
    second.registrations.types.types
  genericClasses : first.registrations.types.genericClasses.Related GenericClass.Resembles
    second.registrations.types.genericClasses
  genericInstantiations : first.registrations.types.genericInstantiations =
    second.registrations.types.genericInstantiations
  arrayTypes : first.registrations.types.arrayTypes = second.registrations.types.arrayTypes
  methodSpecs : first.registrations.types.methodSpecs = second.registrations.types.methodSpecs
  definitionOf : ∀ type, first.definitionOf type = second.definitionOf type
  parameterOf : ∀ type, first.parameterOf type = second.parameterOf type
  openDefinition? : ∀ genericClass, first.openDefinition? genericClass =
    second.openDefinition? genericClass
  vtableMethod : ∀ entry, first.vtableMethod entry = second.vtableMethod entry
  usageSites : first.usageSites = second.usageSites

theorem Metadata.Agrees.refl (metadata : Metadata) : metadata.Agrees metadata where
  typeDefinitions := .refl .refl _
  fields := rfl
  methods := .refl .refl _
  genericParameters := rfl
  genericContainers := rfl
  images := rfl
  types := .refl .refl _
  genericClasses := .refl .refl _
  genericInstantiations := rfl
  arrayTypes := rfl
  methodSpecs := rfl
  definitionOf _ := rfl
  parameterOf _ := rfl
  openDefinition? _ := rfl
  vtableMethod _ := rfl
  usageSites := rfl

/-- A build reads the same in both linkages. -/
structure Linkage.Agrees (first second : Linkage) : Prop where
  metadata : first.metadata.Agrees second.metadata
  definitionTypes : first.definitionTypes = second.definitionTypes
  contextOfType : ∀ image definition, first.contextOfType image definition =
    second.contextOfType image definition
  contextOfMethod : ∀ image method, first.contextOfMethod image method =
    second.contextOfMethod image method

namespace Metadata.Agrees

variable {first second : Metadata} (agrees : first.Agrees second)
include agrees

theorem typeDefinition (index : Index .typeDefinitions) :
    LookupsRelated TypeDefinition.Resembles (first.typeDefinition index)
      (second.typeDefinition index) :=
  agrees.typeDefinitions.fetch index

theorem method (index : Index .methods) :
    LookupsRelated MethodDefinition.Resembles (first.method index) (second.method index) :=
  agrees.methods.fetch index

theorem typeReference (index : Index .types) :
    LookupsRelated TypeReference.Resembles (first.typeReference index)
      (second.typeReference index) :=
  agrees.types.fetch index

theorem genericClass (index : Index .genericClasses) :
    LookupsRelated GenericClass.Resembles (first.genericClass index) (second.genericClass index) :=
  agrees.genericClasses.fetch index

theorem genericContainer (index : Index .genericContainers) :
    first.genericContainer index = second.genericContainer index := by
  rw [Metadata.genericContainer, agrees.genericContainers, Metadata.genericContainer]

theorem genericParameter (index : Index .genericParameters) :
    first.genericParameter index = second.genericParameter index := by
  rw [Metadata.genericParameter, agrees.genericParameters, Metadata.genericParameter]

theorem genericInstantiation (index : Index .genericInstantiations) :
    first.genericInstantiation index = second.genericInstantiation index := by
  rw [Metadata.genericInstantiation, agrees.genericInstantiations, Metadata.genericInstantiation]

theorem arrayType (index : Index .arrayTypes) : first.arrayType index = second.arrayType index := by
  rw [Metadata.arrayType, agrees.arrayTypes, Metadata.arrayType]

theorem methodSpec (index : Index .methodSpecs) :
    first.methodSpec index = second.methodSpec index := by
  rw [Metadata.methodSpec, agrees.methodSpecs, Metadata.methodSpec]

theorem parameterNames (count : Nat) (start : Index .genericParameters) :
    first.parameterNames count start = second.parameterNames count start := by
  induction count generalizing start with
  | zero => rfl
  | succ count ih =>
    rw [Metadata.parameterNames, Metadata.parameterNames, agrees.genericParameter start,
      ih (start.offset 1)]

theorem declaredParameters (definition : TypeDefinition) :
    first.declaredParameters definition = second.declaredParameters definition := by
  simp only [Metadata.declaredParameters, agrees.genericContainer, agrees.parameterNames]

theorem storedAs? (definition : Index .typeDefinitions) (mode : ResolveMode) :
    first.storedAs? definition mode = second.storedAs? definition mode := by
  cases mode with
  | name => rfl
  | value =>
    apply (agrees.typeDefinition definition).bind_eq
    rintro record _ ⟨start, count, rfl⟩
    rfl

theorem classArguments (index : Index .genericClasses) :
    first.classArguments index = second.classArguments index := by
  apply (agrees.genericClass index).bind_eq
  rintro record _ ⟨definition, type, rfl⟩
  simp only [agrees.genericInstantiation]

theorem specContext (index : Index .methodSpecs) :
    first.specContext index = second.specContext index := by
  simp only [Metadata.specContext, agrees.methodSpec, agrees.genericInstantiation]

theorem builtinKind? (index : Index .typeDefinitions) :
    first.builtinKind? index = second.builtinKind? index := by
  apply (agrees.typeDefinition index).bind_eq
  rintro definition _ ⟨start, count, rfl⟩
  dsimp only
  cases definition.ownType.present? with
  | none => rfl
  | some type =>
    apply (agrees.typeReference type).bind_eq
    rintro reference _ ⟨data, -, rfl⟩
    rfl

/-- What entries of virtual tables name differs at most in where runtime generic contexts stand. -/
theorem vtableRange (count : Nat) (start : Index .vtableMethods) :
    LookupsRelated (List.Forall₂ MethodDefinition.Resembles) (first.vtableRange count start)
      (second.vtableRange count start) := by
  induction count generalizing start with
  | zero => exact .found .nil
  | succ count ih =>
    apply (LookupsRelated.of_eq (agrees.vtableMethod start)).bind
    rintro index _ rfl
    apply (agrees.method index).bind
    intro method other resembles
    apply (ih (start.offset 1)).bind
    intro methods others resemble
    exact .found (.cons resembles resemble)

theorem virtualMethods (definition : TypeDefinition) :
    first.virtualMethods definition = second.virtualMethods definition := by
  apply (agrees.vtableRange _ _).bind_eq
  intro methods others resemble
  have sameSlots : methodsBySlot methods = methodsBySlot others := by
    refine List.rel_foldl (P := Eq) ?_ rfl resemble
    rintro slots _ rfl method _ ⟨start, count, rfl⟩
    rfl
  rw [sameSlots]

theorem methodsByDefinition : first.methodsByDefinition = second.methodsByDefinition := by
  refine List.rel_foldl (P := Eq) ?_ rfl agrees.methods.indexed
  rintro groups _ rfl ⟨index, method⟩ ⟨_, _⟩ ⟨rfl, start, count, rfl⟩
  rfl

theorem typesByDefinition :
    Linkage.typesByDefinition first = Linkage.typesByDefinition second := by
  apply forall₂_foldlM_eq _ agrees.types.indexed
  rintro types ⟨index, reference⟩ ⟨_, _⟩ ⟨rfl, data, -, rfl⟩
  simp only [Linkage.collectType, agrees.definitionOf]
  rfl

end Metadata.Agrees

namespace Linkage

/-- From 24.2 on, runtime generic contexts stand in the code modules. -/
theorem contextEntries_of_modules {first second : Linkage}
    (inModules : first.metadata.revision ≠ .legacy)
    (otherInModules : second.metadata.revision ≠ .legacy)
    (sameModules : first.modules = second.modules)
    (image : Image) (token : UInt32) (start otherStart : Index .contextEntries)
    (count otherCount : UInt32) :
    first.contextEntries image token start count =
      second.contextEntries image token otherStart otherCount := by
  unfold contextEntries
  rw [sameModules]
  generalize first.metadata.revision = revision at inModules ⊢
  generalize second.metadata.revision = other at otherInModules ⊢
  cases revision with
  | legacy => contradiction
  | tokenContexts | handles =>
    cases other with
    | legacy => contradiction
    | tokenContexts | handles => rfl

namespace Agrees

variable {first second : Linkage}

theorem typeForDefinition? (agrees : first.Agrees second) (definition : Index .typeDefinitions) :
    first.typeForDefinition? definition = second.typeForDefinition? definition := by
  apply (agrees.metadata.typeDefinition definition).bind_eq
  rintro record _ ⟨start, count, rfl⟩
  dsimp only
  cases record.ownType.present? with
  | none => exact congrArg (fun types ↦ pure types[definition]?) agrees.definitionTypes
  | some type =>
    apply (agrees.metadata.typeReference type).bind_eq
    intro _ _ _
    rfl

/-- Dumps that agree are linked alike if they find runtime generic contexts in the same modules. -/
theorem of_modules {first second : Metadata} (agrees : first.Agrees second)
    (inModules : first.revision ≠ .legacy) (otherInModules : second.revision ≠ .legacy)
    (sameModules : first.registrations.code.modules = second.registrations.code.modules)
    (types : Std.TreeMap (Index .typeDefinitions) (Index .types)) :
    Agrees ⟨first, types, modulesByName first⟩ ⟨second, types, modulesByName second⟩ where
  metadata := agrees
  definitionTypes := rfl
  contextOfType image definition := by
    apply (agrees.typeDefinition definition).bind_eq
    rintro record _ ⟨start, count, rfl⟩
    apply contextEntries_of_modules inModules otherInModules
    simp only [modulesByName, sameModules]
  contextOfMethod image method := by
    apply (agrees.method method).bind_eq
    rintro record _ ⟨start, count, rfl⟩
    apply contextEntries_of_modules inModules otherInModules
    simp only [modulesByName, sameModules]

end Agrees

end Linkage

end ManagedLayout

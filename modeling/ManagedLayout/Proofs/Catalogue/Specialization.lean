import ManagedLayout.Proofs.Catalogue.StaticMethods

/-!
# Instantiations are laid out like their definitions

The layout of an instantiation is made anew from the fields that the definition declares, in the
context of the arguments. The context decides which types the fields have, and nothing else: which
of them are left out, which belong to the type itself, how they are called and where they are is the
same as in the layout of the definition. `Metadata.placeFields` is what both have in common.

The namespace of an instantiation is that of its definition, and the layout of a definition has the
namespace of what stands for it. They are the same if a definition stands for itself.
-/

namespace ManagedLayout

namespace FieldLayout

/-- A field without its type. -/
def untyped (field : FieldLayout) : FieldLayout :=
  { field with typeName := "", isValueType := false, isCustomType := false, indirection := 0 }

/-- Fields have the same name and the same offset. -/
def SamePlace (field other : FieldLayout) : Prop :=
  field.name = other.name ∧ field.offset = other.offset

theorem untyped_eq_iff {field other : FieldLayout} :
    field.untyped = other.untyped ↔ field.SamePlace other := by
  simp [untyped, SamePlace]

theorem map_untyped_eq_iff {fields others : List FieldLayout} :
    fields.map untyped = others.map untyped ↔ List.Forall₂ SamePlace fields others := by
  rw [← List.forall₂_eq_eq_eq, List.forall₂_map_left_iff, List.forall₂_map_right_iff]
  simp only [untyped_eq_iff]

end FieldLayout

namespace FieldSplit

def untyped (split : FieldSplit) : FieldSplit :=
  { split with
    instanceFields := split.instanceFields.map FieldLayout.untyped
    staticFields := split.staticFields.map FieldLayout.untyped }

variable {split : FieldSplit}

theorem untyped_empty : FieldSplit.empty.untyped = .empty := by
  simp [untyped, empty]

/-- The fields of either kind, if it is known what both are without their types. -/
theorem map_untyped_of_untyped_eq {placed : FieldSplit} (isPlaced : split.untyped = placed) :
    split.instanceFields.toList.map FieldLayout.untyped = placed.instanceFields.toList ∧
      split.staticFields.toList.map FieldLayout.untyped = placed.staticFields.toList := by
  subst isPlaced
  simp [untyped]

theorem untyped_insert (isStatic : Bool) (field : FieldLayout) (pool : NamePool) :
    (split.insert isStatic field pool).untyped =
      split.untyped.insert isStatic field.untyped pool := by
  cases isStatic <;> simp [insert, untyped]

end FieldSplit

namespace Metadata

variable (metadata : Metadata) (offsets : OffsetSource) (index : Index .typeDefinitions)
  (definition : TypeDefinition)

/-- Adds a field without its type, unless it is a constant. -/
def placeField (split : FieldSplit) (field : FieldDefinition) (ordinal : Nat) : FieldSplit :=
  match metadata.typeReference field.type with
  | .error _ => split
  | .ok reference =>
    if reference.isLiteral then split
    else
      let (name, pool) := split.fieldName ordinal field.name
      let place : FieldPlace := {
        definition := index
        ordinal := UInt32.ofNat ordinal
        field := definition.fieldStart.offset (UInt32.ofNat ordinal)
        inValueType := definition.isValueType
        isStatic := reference.isStatic }
      split.insert reference.isStatic {
        typeName := ""
        name
        isValueType := false
        isCustomType := false
        offset := offsets place
        indirection := 0 } pool

/-- Fields without their types, with their places among those of the definition. -/
def placeEach (fields : List (FieldDefinition × Nat)) : FieldSplit :=
  fields.foldl
    (fun split (field, ordinal) ↦ metadata.placeField offsets index definition split field ordinal)
    .empty

/-- The fields of a definition without their types. No context and no state of the resolution has a
part in them. -/
def placeFields : FieldSplit :=
  match metadata.declarations.fields.slice? definition.fieldStart
      definition.fieldCount.toUInt32 with
  | none => .empty
  | some fields => metadata.placeEach offsets index definition fields.zipIdx

end Metadata

/-- What a layout has from the definition alone. -/
structure Layout.Follows (metadata : Metadata) (offsets : OffsetSource)
    (index : Index .typeDefinitions) (definition : TypeDefinition) (layout : StructRecord) :
    Prop where
  isDefinition : metadata.typeDefinition index = .ok definition
  isValueType : layout.isValueType = definition.isValueType
  fields : layout.fields.map FieldLayout.untyped =
    (metadata.placeFields offsets index definition).instanceFields.toList
  staticFields : layout.staticFields.map FieldLayout.untyped =
    (metadata.placeFields offsets index definition).staticFields.toList
  virtualMethods : metadata.virtualMethods definition = .ok layout.virtualMethods

/-- What the layout of an instantiation has in common with that of its definition. -/
structure Layout.AgreesWith (layout generic : StructRecord) : Prop where
  imageName? : layout.imageName? = generic.imageName?
  isValueType : layout.isValueType = generic.isValueType
  fields : List.Forall₂ FieldLayout.SamePlace layout.fields generic.fields
  staticFields : List.Forall₂ FieldLayout.SamePlace layout.staticFields generic.staticFields
  virtualMethods : layout.virtualMethods = generic.virtualMethods
  staticMethods : layout.staticMethods.Sublist generic.staticMethods

/-- Layouts that follow the same definition differ only in what depends on more than that. -/
theorem Layout.Follows.agreesWith {metadata : Metadata} {offsets : OffsetSource}
    {index : Index .typeDefinitions} {definition other : TypeDefinition}
    {layout generic : StructRecord} (follows : layout.Follows metadata offsets index definition)
    (genericFollows : generic.Follows metadata offsets index other)
    (sameImage : layout.imageName? = generic.imageName?)
    (staticMethods : layout.staticMethods.Sublist generic.staticMethods) :
    layout.AgreesWith generic := by
  obtain rfl := Except.ok.inj (follows.isDefinition.symm.trans genericFollows.isDefinition)
  constructor
  case imageName? => exact sameImage
  case isValueType => exact follows.isValueType.trans genericFollows.isValueType.symm
  case fields =>
    exact FieldLayout.map_untyped_eq_iff.mp (follows.fields.trans genericFollows.fields.symm)
  case staticFields =>
    exact FieldLayout.map_untyped_eq_iff.mp
      (follows.staticFields.trans genericFollows.staticFields.symm)
  case virtualMethods =>
    exact Except.ok.inj (follows.virtualMethods.symm.trans genericFollows.virtualMethods)
  case staticMethods => exact staticMethods

namespace Linkage

open Resolve

variable {linkage : Linkage} {names : BuildNames} {offsets : OffsetSource}
  {index : Index .typeDefinitions} {definition : TypeDefinition} {context : GenericContext}

theorem yields_addField (split : FieldSplit) (field : FieldDefinition) (ordinal : Nat) :
    Yields (linkage.addField names offsets index definition context split field ordinal)
      fun result ↦ result.untyped =
        linkage.metadata.placeField offsets index definition split.untyped field ordinal := by
  apply Yields.bind_lookup
  intro reference isReference
  unfold Metadata.placeField
  rw [isReference]
  split
  next isLiteral => exact .pure (if_pos isLiteral).symm
  next notLiteral =>
    -- What the type resolves to, and the state that this leaves behind, end up in the type only.
    apply Yields.bind_any
    intro usage
    apply Yields.bind_any
    intro state
    apply Yields.pure
    rw [FieldSplit.untyped_insert]
    exact (if_neg notLiteral).symm

/-- **The fields of a definition are placed without regard to the context**, which has a part in
their types only. -/
theorem yields_splitFields :
    Yields (linkage.splitFields names offsets index definition context) fun split ↦
      split.untyped = linkage.metadata.placeFields offsets index definition := by
  unfold splitFields Metadata.placeFields
  cases linkage.metadata.declarations.fields.slice? definition.fieldStart
    definition.fieldCount.toUInt32 with
  | none => exact .throw
  | some fields =>
    dsimp only
    apply Yields.foldlM (fun before (split : FieldSplit) ↦
      split.untyped = linkage.metadata.placeEach offsets index definition before)
    · rintro before ⟨field, ordinal⟩ split isPlaced
      rw [Metadata.placeEach, List.foldl_concat, ← Metadata.placeEach, ← isPlaced]
      exact yields_addField split field ordinal
    · exact FieldSplit.untyped_empty

end Linkage

namespace BuildPlan

open Resolve Linkage

variable (plan : BuildPlan)

/-- The layout of a definition follows it, and has every call site that is filed under its name. -/
structure FollowsDefinition (entry : NamedDefinition) (layout : StructRecord) : Prop where
  follows : ∃ definition,
    layout.Follows plan.linkage.metadata plan.offsets entry.definition definition ∧
      layout.isGeneric = definition.isGeneric
  staticMethods : layout.staticMethods = (plan.names.callSites.getD entry.name #[]).toList

/-- The layout of an instantiation follows the definition, and has some of its call sites. -/
structure FollowsInstance (entry : NamedInstance) (layout : StructRecord) : Prop where
  follows : ∃ definition,
    layout.Follows plan.linkage.metadata plan.offsets entry.definition definition
  isGeneric : layout.isGeneric = true
  staticMethods : ∃ typeArguments?,
    layout.staticMethods = plan.callSitesWith entry.definition typeArguments?

theorem yields_followsDefinition (entry : NamedDefinition) :
    Yields (plan.definitionLayout entry) (plan.FollowsDefinition entry) := by
  apply Yields.bind_lookup
  intro definition isDefinition
  iterate 3
    apply Yields.bind_any
    intro _
  apply Yields.bind yields_splitFields
  intro split isPlaced
  apply Yields.bind_lookup
  intro virtualMethods areMethods
  iterate 3
    apply Yields.bind_any
    intro _
  obtain ⟨areFields, areStatic⟩ := FieldSplit.map_untyped_of_untyped_eq isPlaced
  exact .pure ⟨⟨definition, ⟨isDefinition, rfl, areFields, areStatic, areMethods⟩, rfl⟩, rfl⟩

theorem yields_followsInstance (entry : NamedInstance) :
    Yields (plan.instanceLayout entry) (plan.FollowsInstance entry) := by
  apply Yields.bind_lookup
  intro definition isDefinition
  iterate 3
    apply Yields.bind_any
    intro _
  apply Yields.bind yields_splitFields
  intro split isPlaced
  apply Yields.bind_any
  intro typeArguments?
  apply Yields.bind_lookup
  intro virtualMethods areMethods
  obtain ⟨areFields, areStatic⟩ := FieldSplit.map_untyped_of_untyped_eq isPlaced
  exact .pure ⟨⟨definition, isDefinition, rfl, areFields, areStatic, areMethods⟩, rfl,
    typeArguments?, rfl⟩

/-- The call sites of an instantiation are some of those of its definition. -/
theorem callSitesWith_sublist {definition : Index .typeDefinitions} {name : String}
    (isName : plan.names.definitions.displayNames[definition]? = some name)
    (typeArguments? : Option String) :
    (plan.callSitesWith definition typeArguments?).Sublist
      (plan.names.callSites.getD name #[]).toList := by
  rw [callSitesWith, isName]
  exact List.filter_sublist

end BuildPlan

namespace Catalogue

/-- A catalogue is made of layouts that follow the definitions of their entries. -/
structure FollowsPlan (plan : BuildPlan) (catalogue : Catalogue) : Prop where
  displayNames : catalogue.displayNames = plan.names.definitions.displayNames
  instanceNames : catalogue.instanceNames = plan.names.instances.names
  records : plan.names.Records plan.linkage.metadata
  structs : ∀ layout ∈ catalogue.structs,
    (∃ entry ∈ plan.names.definitions.entries.toList, layout.typeName = entry.name ∧
      layout.imageName? = plan.linkage.metadata.shownImage? plan.options entry.image ∧
      plan.FollowsDefinition entry layout) ∨
    ∃ entry ∈ plan.names.instances.entries.toList, layout.typeName = entry.name ∧
      layout.imageName? = plan.linkage.metadata.shownImage? plan.options
        plan.names.definitions.owners[entry.definition]? ∧
      plan.FollowsInstance entry layout
  /-- Every definition that is named has a layout. -/
  entries : ∀ entry ∈ plan.names.definitions.entries.toList, ∃ layout ∈ catalogue.structs,
    layout.typeName = entry.name

/-- A layout of an instantiation, and one that has the display name of the definition. If generic
classes share the name of the instantiation, the first one of them counts. -/
structure Specializes (metadata : Metadata) (catalogue : Catalogue)
    (definition : Index .typeDefinitions) (layout generic : StructRecord) : Prop where
  isLayout : layout ∈ catalogue.structs
  isGenericLayout : generic ∈ catalogue.structs
  isNew : catalogue.displays layout.typeName = false
  isName : catalogue.displayName? definition = some generic.typeName
  isOpen : ∃ genericClass,
    (catalogue.namedClasses metadata).find? (·.2 == layout.typeName) =
      some (genericClass, layout.typeName) ∧
    metadata.openDefinition? genericClass = .ok (some definition)

/-- The layouts of an instantiation and of its definition are those of entries that have the
definition. -/
theorem Specializes.exists_entries {metadata : Metadata} {catalogue : Catalogue}
    {definition : Index .typeDefinitions} {layout generic : StructRecord}
    (specializes : catalogue.Specializes metadata definition layout generic) {names : BuildNames}
    (records : names.Records metadata)
    (displayNames : catalogue.displayNames = names.definitions.displayNames)
    (instanceNames : catalogue.instanceNames = names.instances.names)
    {ofDefinition : StructRecord → NamedDefinition → Prop}
    {ofInstance : StructRecord → NamedInstance → Prop}
    (isOf : ∀ layout ∈ catalogue.structs,
      (∃ entry ∈ names.definitions.entries.toList,
        layout.typeName = entry.name ∧ ofDefinition layout entry) ∨
      ∃ entry ∈ names.instances.entries.toList,
        layout.typeName = entry.name ∧ ofInstance layout entry) :
    (∃ entry ∈ names.instances.entries.toList, ofInstance layout entry ∧
        entry.definition = definition) ∧
      ∃ entry ∈ names.definitions.entries.toList, ofDefinition generic entry ∧
        entry.definition = definition := by
  obtain ⟨isLayout, isGenericLayout, isNew, isName, genericClass, isFirst, isOpen⟩ := specializes
  refine ⟨?_, exists_definition_of_displayName? records displayNames (isOf _ isGenericLayout)
    isName⟩
  obtain ⟨entry, isEntry, isInstance, isFirstEntry, isOpenEntry⟩ :=
    exists_instance_of_displays records displayNames (isOf _ isLayout) isNew instanceNames
  obtain rfl : genericClass = entry.genericClass :=
    (Prod.mk.inj (Option.some.inj (isFirst.symm.trans isFirstEntry))).1
  exact ⟨entry, isEntry, isInstance, Option.some.inj (Except.ok.inj (isOpenEntry.symm.trans isOpen))⟩

section FollowsPlan

variable {plan : BuildPlan} {catalogue : Catalogue} (followsPlan : catalogue.FollowsPlan plan)

include followsPlan

/-- A display name is that of a layout. -/
theorem FollowsPlan.exists_layout {definition : Index .typeDefinitions} {name : String}
    (isName : catalogue.displayName? definition = some name) :
    ∃ layout ∈ catalogue.structs, layout.typeName = name := by
  rw [displayName?, followsPlan.displayNames] at isName
  obtain ⟨entry, isEntry, -, rfl⟩ :=
    followsPlan.records.definitions.exists_entry_of_displayNames isName
  exact followsPlan.entries entry isEntry

/-- The layout of an instantiation agrees with that of its definition. -/
theorem FollowsPlan.agreesWith {definition : Index .typeDefinitions} {layout generic : StructRecord}
    (specializes : catalogue.Specializes plan.linkage.metadata definition layout generic) :
    layout.AgreesWith generic ∧ layout.isGeneric = true ∧ ∃ record,
      plan.linkage.metadata.typeDefinition definition = .ok record ∧
        generic.isGeneric = record.isGeneric := by
  obtain ⟨⟨_, -, ⟨isImage, ⟨other, follows⟩, isGeneric, typeArguments?, areCallSites⟩, rfl⟩,
    entry, isEntry, ⟨isEntryImage, ⟨record, genericFollows, genericity⟩, areFiled⟩,
    sameDefinition⟩ := specializes.exists_entries followsPlan.records followsPlan.displayNames
      followsPlan.instanceNames followsPlan.structs
  obtain ⟨displayed, owned⟩ := followsPlan.records.definitions.entries_known entry isEntry
  rw [sameDefinition] at displayed owned genericFollows
  -- One entry is of the definition by its display name, the other one by the generic class.
  refine ⟨follows.agreesWith genericFollows ?_ ?_, isGeneric, record, genericFollows.isDefinition,
    genericity⟩
  · rw [isImage, owned, isEntryImage]
  · rw [areCallSites, areFiled]
    exact plan.callSitesWith_sublist displayed typeArguments?

end FollowsPlan

section MadeBy

variable {plan : BuildPlan} {catalogue : Catalogue} {definitions instances : List StructRecord}
  {state : ResolutionState} (madeBy : catalogue.MadeBy plan definitions instances state)
  (faithful : state.Faithful plan.linkage.metadata)

include madeBy faithful

/-- The layout of an instantiation is in the namespace of that of its definition, if the definition
is what stands for it. -/
theorem MadeBy.namespaceName_eq {definition : Index .typeDefinitions}
    {layout generic : StructRecord} (addressable : plan.linkage.metadata.Addressable)
    (namesItself : plan.linkage.NamesItself definition)
    (specializes : catalogue.Specializes plan.linkage.metadata definition layout generic) :
    layout.namespaceName = generic.namespaceName := by
  obtain ⟨⟨entry, isEntry, ⟨record, typeArguments?, made⟩, rfl⟩,
    genericEntry, isGenericEntry, genericMade, sameDefinition⟩ :=
      specializes.exists_entries madeBy.records madeBy.displayNames madeBy.instanceNames
        fun _ ↦ madeBy.exists_entry
  rw [Array.mem_toList_iff] at isEntry isGenericEntry
  obtain ⟨type, reference, usage, openId, namedAs, isDescriptor⟩ :=
    madeBy.sound.instances.descriptors entry isEntry
  obtain ⟨genericUsage, standsFor, isGenericDescriptor⟩ :=
    madeBy.sound.definitions.descriptors genericEntry isGenericEntry
  rw [sameDefinition] at standsFor
  obtain ⟨id, rfl, done⟩ := standsFor.plain faithful namesItself
  obtain rfl : openId = id := by simpa [namedAs.done] using done
  calc layout.namespaceName
    _ = state.rootNamespace usage.descriptor := by rw [made.isIn.namespaceName, isDescriptor]
    _ = state.rootNamespace openId :=
      faithful.rootNamespace_eq (namedAs.addressed (.inl addressable)) namedAs.isKind
        namedAs.isData namedAs.isOpen namedAs.known namedAs.done
    _ = state.rootNamespace genericEntry.descriptor := congrArg _ isGenericDescriptor
    _ = generic.namespaceName := genericMade.isIn.namespaceName.symm

end MadeBy

/-- The generic classes that are listed have the names that they are listed with. -/
theorem instanceName?_of_mem_namedClasses {metadata : Metadata} {catalogue : Catalogue}
    {genericClass : Index .genericClasses} {name : String}
    (mem : (genericClass, name) ∈ catalogue.namedClasses metadata) :
    catalogue.instanceName? genericClass = some name := by
  obtain ⟨used, -, isPair⟩ := List.mem_filterMap.mp mem
  obtain ⟨named, isName, same⟩ := Option.map_eq_some_iff.mp isPair
  obtain ⟨rfl, rfl⟩ := Prod.mk.inj same
  exact isName

end Catalogue

namespace Linkage

open Resolve

theorem yields_followsPlan (linkage : Linkage) (options : BuildOptions) (offsets : OffsetSource) :
    Yields (linkage.catalogue options offsets) fun catalogue ↦ ∃ names,
      catalogue.FollowsPlan (linkage.plan options offsets names) := by
  have yieldsLayouts (plan : BuildPlan) := plan.yields_layouts_of
    (fun entry ↦ (plan.yields_definitionLayout entry).and (plan.yields_followsDefinition entry))
    (fun entry ↦ (plan.yields_instanceLayout entry).and (plan.yields_followsInstance entry))
  apply (yields_catalogue_of yieldsLayouts linkage options offsets).mono
  rintro catalogue ⟨names, records, displayNames, instanceNames, definitions, instances, structs,
    areDefinitions, areInstances⟩
  refine ⟨names, displayNames, instanceNames, records, ?_, ?_⟩
  · intro layout mem
    rw [structs] at mem
    obtain mem | mem := List.mem_append.mp mem
    · obtain ⟨entry, isEntry, ⟨isName, isImage⟩, follows⟩ := forall₂_exists_left areDefinitions mem
      exact .inl ⟨entry, isEntry, isName, isImage, follows⟩
    · split at areInstances
      next =>
        obtain ⟨entry, isEntry, ⟨isName, isImage⟩, follows⟩ := forall₂_exists_left areInstances mem
        exact .inr ⟨entry, isEntry, isName, isImage, follows⟩
      next =>
        rw [areInstances] at mem
        exact absurd mem List.not_mem_nil
  · intro entry isEntry
    obtain ⟨layout, mem, ⟨isName, -⟩, -⟩ := forall₂_exists_left areDefinitions.flip isEntry
    rw [structs]
    exact ⟨layout, List.mem_append_left _ mem, isName⟩

end Linkage

namespace Catalogue

/-- **Instantiations are laid out like their definitions.** Each has the same fields at the same
offsets, the same virtual methods and some of the call sites of the definition, whatever its
arguments are and wherever offsets come from. It counts as generic even if the definition has no
parameters. It is in the namespace of the definition, unless something else stands for that. -/
theorem agreesWith_of_specializes {metadata : Metadata} {options : BuildOptions}
    {offsets : OffsetSource} {catalogue : Catalogue}
    (built : (buildWith metadata options offsets).result = .ok catalogue) :
    (∀ layout ∈ catalogue.structs, catalogue.displays layout.typeName = false →
      ∃ definition generic, catalogue.Specializes metadata definition layout generic) ∧
    ∀ definition layout generic, catalogue.Specializes metadata definition layout generic →
      layout.AgreesWith generic ∧ layout.isGeneric = true ∧
      (∃ record, metadata.typeDefinition definition = .ok record ∧
        generic.isGeneric = record.isGeneric) ∧
      (metadata.Addressable → metadata.NamesItself definition →
        layout.namespaceName = generic.namespaceName) := by
  obtain ⟨linkage, linked, rfl, ran⟩ := exists_run built
  obtain ⟨names, followsPlan⟩ := (linkage.yields_followsPlan options offsets
    .empty).of_run_eq_ok (Resolve.run_eq_of_fst_eq ran)
  obtain ⟨_, _, _, _, _, linkedAgain, -, faithful, madeBy⟩ := exists_madeBy built
  cases linked.symm.trans linkedAgain
  constructor
  · intro layout mem isNew
    obtain ⟨entry, -, -, isFirst, isOpen⟩ := madeBy.exists_instance mem isNew
    have named := instanceName?_of_mem_namedClasses (List.mem_of_find?_eq_some isFirst)
    obtain ⟨name, isName⟩ := madeBy.exists_displayName_of_named named isOpen
    obtain ⟨generic, isGeneric, rfl⟩ := followsPlan.exists_layout isName
    exact ⟨entry.definition, generic, mem, isGeneric, isNew, isName, entry.genericClass, isFirst,
      isOpen⟩
  · intro definition layout generic specializes
    obtain ⟨agrees, isGeneric, genericity⟩ := followsPlan.agreesWith specializes
    refine ⟨agrees, isGeneric, genericity, fun addressable namesItself ↦ ?_⟩
    exact madeBy.namespaceName_eq faithful addressable (namesItself linkage linked) specializes

end Catalogue

/-- A generic class with a constant, two fields of one name and a static field; a class without
parameters; and a generic class whose own type is a class in another namespace. There is an
instantiation of each, and two calls of a method of the first class. -/
def Metadata.parcels : Metadata :=
  let dump := ((Metadata.ofDefinitions
    [{ TypeDefinition.named "Demo" "Box`1" with
        genericContainer := ⟨0⟩, fieldStart := ⟨0⟩, fieldCount := 4 },
      .named "Demo" "Foo",
      { TypeDefinition.named "Demo" "Bag`1" with genericContainer := ⟨1⟩, ownType := ⟨4⟩ },
      .named "Other" "Sack"]
    [⟨"limit", ⟨3⟩, 0⟩, ⟨"item", ⟨1⟩, 0⟩, ⟨"item", ⟨0⟩, 0⟩, ⟨"made", ⟨2⟩, 0⟩]
    [] [(⟨0⟩, [⟨0⟩]), (⟨1⟩, [⟨0⟩]), (⟨2⟩, [⟨0⟩])]).withParameters ["T", "U"]).withUsages
      [.named "Add" ⟨0⟩] [⟨⟨0⟩, ⟨0⟩, .absent⟩] [(0, 0x60000000), (1, 0xC0000000)]
  { dump with
    registrations := { dump.registrations with
      types := { dump.registrations.types with
        types := .ofList [⟨.none, 0, .int32, false, false, false⟩,
          ⟨.parameter ⟨0⟩, 0, .typeParameter, false, false, false⟩,
          ⟨.none, 0x10, .int32, false, false, false⟩, ⟨.none, 0x40, .int32, false, false, false⟩,
          ⟨.definition ⟨3⟩, 0, .classType, false, false, false⟩,
          ⟨.genericClass ⟨0⟩, 0, .genericInstance, false, false, false⟩,
          ⟨.genericClass ⟨1⟩, 0, .genericInstance, false, false, false⟩,
          ⟨.genericClass ⟨2⟩, 0, .genericInstance, false, false, false⟩]
        fieldOffsets? := some (.byType #[#[0, 16, 24, 4]]) } } }

namespace Catalogue

/-- The kind of a layout, and the places of its fields. -/
def shape (layout : StructRecord) : (String × Bool) × List (String × Int32) :=
  ((layout.namespaceName, layout.isGeneric),
    layout.fields.map fun field ↦ (field.name, field.offset))

/-- A layout and one of its definition are found by their names. -/
theorem exists_specializes_of_listed {metadata : Metadata} {catalogue : Catalogue}
    {definition : Index .typeDefinitions} {genericClass : Index .genericClasses}
    {listed : List (String × (String × Bool) × List (String × Int32))} {name genericName : String}
    {value genericValue : (String × Bool) × List (String × Int32)}
    (areListed : catalogue.structs.map (fun layout ↦ (layout.typeName, shape layout)) = listed)
    (isListed : (name, value) ∈ listed) (isGenericListed : (genericName, genericValue) ∈ listed)
    (isNew : catalogue.displays name = false)
    (isName : catalogue.displayName? definition = some genericName)
    (isFirst : (catalogue.namedClasses metadata).find? (·.2 == name) = some (genericClass, name))
    (isOpen : metadata.openDefinition? genericClass = .ok (some definition)) :
    ∃ layout generic, catalogue.Specializes metadata definition layout generic ∧
      shape layout = value ∧ shape generic = genericValue := by
  obtain ⟨layout, mem, rfl, isShape⟩ := exists_layout_of_listed areListed isListed
  obtain ⟨generic, genericMem, rfl, isGenericShape⟩ :=
    exists_layout_of_listed areListed isGenericListed
  exact ⟨layout, generic, ⟨mem, genericMem, isNew, isName, genericClass, isFirst, isOpen⟩, isShape,
    isGenericShape⟩

set_option maxRecDepth 10000 in
/-- The layouts of the classes, and those of their instantiations. -/
theorem exists_specializes_parcels : ∃ catalogue,
    (buildWith .parcels .default Metadata.parcels.fieldOffset).result = .ok catalogue ∧
      (∃ layout generic, catalogue.Specializes .parcels ⟨0⟩ layout generic ∧
        shape layout = (("Demo", true), [("item", 16), ("_2_item", 24)]) ∧
        shape generic = (("Demo", true), [("item", 16), ("_2_item", 24)])) ∧
      (∃ layout generic, catalogue.Specializes .parcels ⟨1⟩ layout generic ∧
        shape layout = (("Demo", true), []) ∧ shape generic = (("Demo", false), [])) ∧
      ∃ layout generic, catalogue.Specializes .parcels ⟨2⟩ layout generic ∧
        shape layout = (("Demo", true), []) ∧ shape generic = (("Other", true), []) := by
  have areNamed :
      (buildWith .parcels .default Metadata.parcels.fieldOffset).result.toOption.map
        (fun catalogue ↦ ([0, 1, 2].map fun position ↦ catalogue.displayName? ⟨position⟩,
          catalogue.namedClasses .parcels,
          ["Demo.Box<int>", "Demo.Foo<int>", "Demo.Bag<int>"].map catalogue.displays)) =
      some ([some "Demo.Box<T>", some "Demo.Foo", some "Other.Sack"],
        [(⟨0⟩, "Demo.Box<int>"), (⟨1⟩, "Demo.Foo<int>"), (⟨2⟩, "Demo.Bag<int>")],
        [false, false, false]) := by
    decide +kernel
  have areListed :
      (buildWith .parcels .default Metadata.parcels.fieldOffset).result.toOption.map
        (fun catalogue ↦ catalogue.structs.map fun layout ↦ (layout.typeName, shape layout)) =
      some [("Demo.Box<T>", ("Demo", true), [("item", 16), ("_2_item", 24)]),
        ("Demo.Foo", ("Demo", false), []), ("Other.Sack", ("Other", true), []),
        ("Other.Sack_1", ("Other", false), []),
        ("Demo.Box<int>", ("Demo", true), [("item", 16), ("_2_item", 24)]),
        ("Demo.Foo<int>", ("Demo", true), []), ("Demo.Bag<int>", ("Demo", true), [])] := by
    decide +kernel
  obtain ⟨catalogue, built, shown⟩ := exists_of_shown areNamed
  rw [built] at areListed
  have areListed := Option.some.inj areListed
  rw [Prod.mk.injEq, Prod.mk.injEq] at shown
  obtain ⟨areDisplayed, areClasses, areNew⟩ := shown
  simp only [List.map_cons, List.map_nil, List.cons.injEq, and_true] at areDisplayed areNew
  obtain ⟨isBox, isFoo, isSack⟩ := areDisplayed
  obtain ⟨newBox, newFoo, newBag⟩ := areNew
  refine ⟨catalogue, built, ?_, ?_, ?_⟩
  · exact exists_specializes_of_listed areListed (by simp) (by simp) newBox isBox
      (by rw [areClasses]; rfl) rfl
  · exact exists_specializes_of_listed areListed (by simp) (by simp) newFoo isFoo
      (by rw [areClasses]; rfl) rfl
  · exact exists_specializes_of_listed areListed (by simp) (by simp) newBag isSack
      (by rw [areClasses]; rfl) rfl

/-- The fields of the boxes of integers are where those of all boxes are, and both are in one
namespace. -/
theorem parcels_agreesWith_of_specializes : ∃ catalogue layout generic,
    (buildWith .parcels .default Metadata.parcels.fieldOffset).result = .ok catalogue ∧
      catalogue.Specializes .parcels ⟨0⟩ layout generic ∧
      shape layout = (("Demo", true), [("item", 16), ("_2_item", 24)]) ∧
      layout.AgreesWith generic ∧ layout.isGeneric = true ∧
      Metadata.parcels.Addressable ∧ Metadata.parcels.NamesItself ⟨0⟩ ∧
      layout.namespaceName = generic.namespaceName := by
  obtain ⟨catalogue, built, ⟨layout, generic, specializes, isShape, -⟩, -⟩ :=
    exists_specializes_parcels
  have addressable : Metadata.parcels.Addressable := by decide
  have namesItself : Metadata.parcels.NamesItself ⟨0⟩ := by
    intro linkage linked
    apply Linkage.namesItself_of_ownType linked addressable
    intro record type isRecord isOwn
    obtain rfl : _ = record := Except.ok.inj (Eq.trans rfl isRecord)
    exact nomatch isOwn
  obtain ⟨agrees, isGeneric, -, sameNamespace⟩ :=
    (agreesWith_of_specializes built).2 _ _ _ specializes
  exact ⟨catalogue, layout, generic, built, specializes, isShape, agrees, isGeneric, addressable,
    namesItself, sameNamespace addressable namesItself⟩

/-- Layouts of instantiations are generic if those of the definitions are. -/
def KeepsGenericity (metadata : Metadata) (catalogue : Catalogue) : Prop :=
  ∀ definition layout generic, catalogue.Specializes metadata definition layout generic →
    layout.isGeneric = generic.isGeneric

/-- Layouts of instantiations are in the namespaces of the definitions. -/
def KeepsNamespaces (metadata : Metadata) (catalogue : Catalogue) : Prop :=
  ∀ definition layout generic, catalogue.Specializes metadata definition layout generic →
    layout.namespaceName = generic.namespaceName

/-- The class without parameters has an instantiation, and the class whose own type is in another
namespace has one as well. -/
theorem parcels_not_keepsGenericity : ∃ catalogue,
    (buildWith .parcels .default Metadata.parcels.fieldOffset).result = .ok catalogue ∧
      ¬catalogue.KeepsGenericity .parcels ∧ ¬catalogue.KeepsNamespaces .parcels := by
  obtain ⟨catalogue, built, -, ⟨foo, genericFoo, isFoo, fooShape, genericFooShape⟩,
    bag, genericBag, isBag, bagShape, genericBagShape⟩ := exists_specializes_parcels
  simp only [shape, Prod.mk.injEq] at fooShape genericFooShape bagShape genericBagShape
  refine ⟨catalogue, built, ?_, ?_⟩
  · intro keeps
    have same := keeps _ _ _ isFoo
    rw [fooShape.1.2, genericFooShape.1.2] at same
    exact nomatch same
  · intro keeps
    have same := keeps _ _ _ isBag
    rw [bagShape.1.1, genericBagShape.1.1] at same
    exact absurd same (by decide)

end Catalogue

end ManagedLayout

import ManagedLayout.Proofs.Catalogue.Build

/-!
# Catalogues are closed

A build that makes layouts of instantiations leaves no name without a layout. Whatever a layout
refers to, as its parent or in the type of a field, is in the same catalogue, unless it is a
definition that no image claims.
-/

namespace ManagedLayout

namespace Catalogue

/-- There is a layout of this name. -/
def Emits (catalogue : Catalogue) (name : String) : Prop :=
  ∃ layout ∈ catalogue.structs, layout.typeName = name

/-- A name is that of a definition, or that of an instantiation of it, whose arguments are then the
context in which its members are resolved. -/
inductive Denotes (metadata : Metadata) (catalogue : Catalogue) (name : String) :
    Index .typeDefinitions → GenericContext → Prop
  | definition {definition : Index .typeDefinitions}
    (isName : catalogue.displayName? definition = some name) :
    Denotes metadata catalogue name definition .empty
  | instantiation {genericClass : Index .genericClasses} {definition : Index .typeDefinitions}
    {record : GenericClass} (isName : catalogue.instanceName? genericClass = some name)
    (isRecord : metadata.genericClass genericClass = .ok record)
    (isOpen : metadata.openDefinition? genericClass = .ok (some definition)) :
    Denotes metadata catalogue name definition ⟨record.context.classArguments.present?, none⟩

variable {plan : BuildPlan} {catalogue : Catalogue} {definitions instances : List StructRecord}
  {state : ResolutionState}

/-- The names of entries are those of layouts. -/
theorem MadeBy.emits_eq (madeBy : catalogue.MadeBy plan definitions instances state)
    (genericInstances : plan.options.genericInstances = true) :
    plan.names.Emits = catalogue.Emits := by
  have fromDefinitions := madeBy.laysOut.definitions
  have fromInstances := madeBy.laysOut.instances genericInstances
  funext name
  apply propext
  constructor
  · intro emits
    unfold Emits
    rw [madeBy.structs]
    obtain ⟨entry, mem, rfl⟩ | ⟨entry, mem, rfl⟩ := emits
    · obtain ⟨layout, isLayout, isName, -⟩ :=
        forall₂_exists_left fromDefinitions.flip (Array.mem_toList_iff.mpr mem)
      exact ⟨layout, List.mem_append_left _ isLayout, isName⟩
    · obtain ⟨layout, isLayout, isName, -⟩ :=
        forall₂_exists_left fromInstances.flip (Array.mem_toList_iff.mpr mem)
      exact ⟨layout, List.mem_append_right _ isLayout, isName⟩
  · intro ⟨layout, mem, isName⟩
    rw [madeBy.structs] at mem
    obtain mem | mem := List.mem_append.mp mem
    · obtain ⟨entry, isEntry, same, -⟩ := forall₂_exists_left fromDefinitions mem
      exact .inl ⟨entry, Array.mem_toList_iff.mp isEntry, same.symm.trans isName⟩
    · obtain ⟨entry, isEntry, same, -⟩ := forall₂_exists_left fromInstances mem
      exact .inr ⟨entry, Array.mem_toList_iff.mp isEntry, same.symm.trans isName⟩

/-- **Catalogues are closed.** A layout is that of a definition, or of an instantiation with its
arguments, and whatever it refers to, as the parent or in the type of a field, is a layout of the
same catalogue. Of definitions, only those that some image claims need have one. -/
theorem refers_of_mem_structs {metadata : Metadata} {options : BuildOptions}
    {offsets : OffsetSource} {layout : StructRecord}
    (built : (buildWith metadata options offsets).result = .ok catalogue)
    (genericInstances : options.genericInstances = true) (mem : layout ∈ catalogue.structs) :
    ∃ index context definition fields, catalogue.Denotes metadata layout.typeName index context ∧
      layout.Refers metadata catalogue.Emits index context definition fields := by
  obtain ⟨linkage, names, definitions, instances, state, -, rfl, -, madeBy⟩ := exists_madeBy built
  rw [← madeBy.emits_eq genericInstances]
  rw [madeBy.structs] at mem
  obtain mem | mem := List.mem_append.mp mem
  · obtain ⟨entry, isEntry, isName, definition, fields, refers⟩ :=
      forall₂_exists_left madeBy.laysOut.definitions mem
    have displayed := madeBy.sound.definitions.entries entry (Array.mem_toList_iff.mp isEntry)
    rw [← madeBy.displayNames, ← isName] at displayed
    exact ⟨entry.definition, .empty, definition, fields, .definition displayed, refers⟩
  · obtain ⟨entry, isEntry, isName, record, isRecord, definition, fields, refers⟩ :=
      forall₂_exists_left (madeBy.laysOut.instances genericInstances) mem
    obtain ⟨named, isOpen⟩ :=
      madeBy.sound.instances.entries entry (Array.mem_toList_iff.mp isEntry)
    rw [← madeBy.instanceNames, ← isName] at named
    exact ⟨entry.definition, _, definition, fields, .instantiation named isRecord isOpen, refers⟩

end Catalogue

/-- A class of which little more is known than the name. -/
def TypeDefinition.named (namespaceName name : String) : TypeDefinition where
  name
  namespaceName
  ownType := .absent
  declaringType := .absent
  parent := .absent
  elementType := .absent
  genericContainer := .absent
  flags := 0
  fieldStart := .absent
  vtableStart := .absent
  contextStart := .absent
  contextCount := 0
  fieldCount := 0
  vtableCount := 0
  bitfield := 0
  token := 0

/-- A dump with one image, which claims all definitions. -/
def Metadata.ofDefinitions (definitions : List TypeDefinition) (fields : List FieldDefinition)
    (types : List (TypeKind × TypeData))
    (classes : List (Index .typeDefinitions × List (Index .types))) : Metadata where
  version := ⟨24, 0⟩
  declarations := { Declarations.empty with
    typeDefinitions := .ofList definitions
    fields := .ofList fields
    images := .ofList [⟨"main.dll", ⟨0⟩, UInt32.ofNat definitions.length, 0, 0, 0⟩] }
  registrations := { Registrations.empty with
    types := { TypeRegistration.empty with
      types := .ofList (types.map fun (kind, data) ↦ ⟨data, 0, kind, false, false, false⟩)
      genericClasses := .ofList (classes.zipIdx.map fun ((definition, _), position) ↦
        ⟨definition, .absent, ⟨.ofPosition position, .absent⟩⟩)
      genericInstantiations := .ofList (classes.map fun (_, arguments) ↦ ⟨arguments.toArray⟩) } }

/-- A class with an array of boxes of integers, where a box is such a class. -/
def Metadata.boxes : Metadata :=
  .ofDefinitions
    [{ TypeDefinition.named "Demo" "Shelf" with fieldStart := ⟨0⟩, fieldCount := 1 },
      { TypeDefinition.named "Demo" "Box`1" with parent := ⟨1⟩ }]
    [⟨"boxes", ⟨3⟩, 0⟩]
    [(.int32, .none), (.classType, .definition ⟨0⟩), (.genericInstance, .genericClass ⟨0⟩),
      (.vector, .type ⟨2⟩)]
    [(⟨1⟩, [⟨0⟩])]

namespace Catalogue

/-- The names in the layouts of a catalogue. -/
def outline (catalogue : Catalogue) : List (String × Option String × List String) :=
  catalogue.structs.map fun layout ↦ (layout.typeName, layout.parent?, layout.fields.map (·.typeName))

/-- A build that shows what is expected has a catalogue. -/
theorem exists_of_shown {Shown : Type} {result : Except LayoutError Catalogue}
    {shown : Catalogue → Shown} {expected : Shown}
    (isShown : result.toOption.map shown = some expected) :
    ∃ catalogue, result = .ok catalogue ∧ shown catalogue = expected := by
  cases result with
  | error => exact nomatch isShown
  | ok catalogue => exact ⟨catalogue, rfl, Option.some.inj isShown⟩

/-- What is listed with the name of a layout is shown by a layout of that name. -/
theorem exists_layout_of_listed {catalogue : Catalogue} {Shown : Type}
    {shown : StructRecord → Shown} {listed : List (String × Shown)} {name : String} {value : Shown}
    (areListed : catalogue.structs.map (fun layout ↦ (layout.typeName, shown layout)) = listed)
    (isListed : (name, value) ∈ listed) :
    ∃ layout ∈ catalogue.structs, layout.typeName = name ∧ shown layout = value := by
  rw [← areListed] at isListed
  obtain ⟨layout, mem, isLayout⟩ := List.mem_map.mp isListed
  exact ⟨layout, mem, Prod.mk.inj isLayout⟩

set_option maxRecDepth 10000 in
/-- The shelf refers to the boxes on it, and they to the shelf. -/
theorem boxes_refers_of_mem_structs : ∃ catalogue layout,
    (buildWith .boxes .default Metadata.boxes.fieldOffset).result = .ok catalogue ∧
      layout ∈ catalogue.structs ∧ layout.typeName = "Demo.Shelf" ∧
      layout.fields.map (·.typeName) = ["Demo.Box<int>_array*"] ∧
      ∃ index context definition fields,
        catalogue.Denotes .boxes layout.typeName index context ∧
          layout.Refers .boxes catalogue.Emits index context definition fields := by
  have isOutline : (buildWith .boxes .default Metadata.boxes.fieldOffset).result.toOption.map
      outline = some [("Demo.Shelf", none, ["Demo.Box<int>_array*"]),
        ("Demo.Box", some "Demo.Shelf", []), ("Demo.Box<int>", some "Demo.Shelf", [])] := by
    decide +kernel
  obtain ⟨catalogue, built, outline⟩ := exists_of_shown isOutline
  have shelf : ("Demo.Shelf", none, ["Demo.Box<int>_array*"]) ∈ catalogue.outline := by
    rw [outline]
    exact List.mem_cons_self
  obtain ⟨layout, mem, isLayout⟩ := List.mem_map.mp shelf
  obtain ⟨isName, -, isTypes⟩ : layout.typeName = "Demo.Shelf" ∧ layout.parent? = none ∧
      layout.fields.map (·.typeName) = ["Demo.Box<int>_array*"] := by
    simpa using isLayout
  exact ⟨catalogue, layout, built, mem, isName, isTypes, refers_of_mem_structs built rfl mem⟩

end Catalogue

end ManagedLayout

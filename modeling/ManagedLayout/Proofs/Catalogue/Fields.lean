import ManagedLayout.Proofs.Catalogue.Specialization
import ManagedLayout.Proofs.NamePool

/-!
# The fields of a layout

A layout has every field that the definition declares, except for the constants: those of instances
and those of the type itself, both in the order of their declaration. Where a field is depends on its
place among all fields, the constants included. No two fields of a layout have one name, whatever
they are declared as, and a field is called as declared unless an earlier one is called so already.
-/

namespace ManagedLayout

/-- A field of a layout, and the declared field that it stands for. -/
structure LaidField where
  declared : FieldDefinition
  /-- The place of the field among those of its type, the constants included. -/
  ordinal : Nat
  isStatic : Bool
  layout : FieldLayout
  deriving DecidableEq, Repr

namespace LaidField

/-- What the offset of the field depends on. -/
def place (field : LaidField) (index : Index .typeDefinitions) (definition : TypeDefinition) :
    FieldPlace where
  definition := index
  ordinal := UInt32.ofNat field.ordinal
  field := definition.fieldStart.offset (UInt32.ofNat field.ordinal)
  inValueType := definition.isValueType
  isStatic := field.isStatic

/-- The name of a field whose declared name is taken, suffixes aside. -/
def markedName (field : LaidField) : String :=
  "_" ++ toString field.ordinal ++ "_" ++ field.declared.name

/-- The fields of instances, or those of the type itself. -/
def layouts (isStatic : Bool) (fields : List LaidField) : List FieldLayout :=
  (fields.filter (·.isStatic == isStatic)).map (·.layout)

def names (fields : List LaidField) : List String := fields.map (·.layout.name)

end LaidField

/-- Whether the type of a field says that it is a constant. -/
def Metadata.isConstant (metadata : Metadata) (field : FieldDefinition) : Bool :=
  match metadata.typeReference field.type with
  | .ok reference => reference.isLiteral
  | .error _ => false

/-- The declared fields, each with its ordinal, are laid out as these fields, in their order. -/
structure LaidOut (metadata : Metadata) (offsets : OffsetSource) (index : Index .typeDefinitions)
    (definition : TypeDefinition) (declared : List (FieldDefinition × Nat))
    (fields : List LaidField) : Prop where
  /-- The constants are left out, and nothing else. -/
  declared : fields.map (fun field ↦ (field.declared, field.ordinal)) =
    declared.filter fun pair ↦ !metadata.isConstant pair.1
  isStatic : ∀ field ∈ fields, ∃ reference,
    metadata.typeReference field.declared.type = .ok reference ∧
      field.isStatic = reference.isStatic
  offset : ∀ field ∈ fields, field.layout.offset = offsets (field.place index definition)
  distinct : (LaidField.names fields).Nodup
  unchanged : ∀ before field rest, fields = before ++ field :: rest →
    field.declared.name ∉ LaidField.names before → field.layout.name = field.declared.name
  changed : ∀ field ∈ fields, field.layout.name = field.declared.name ∨
    field.layout.name = field.markedName ∨
      ∃ suffix, field.layout.name = NamePool.suffixed field.markedName suffix

namespace LaidOut

variable {metadata : Metadata} {offsets : OffsetSource} {index : Index .typeDefinitions}
  {definition : TypeDefinition} {declared : List (FieldDefinition × Nat)} {fields : List LaidField}

theorem nil : LaidOut metadata offsets index definition [] [] := by
  constructor <;> simp [LaidField.names]

/-- A constant is passed over. -/
theorem skip (laidOut : LaidOut metadata offsets index definition declared fields)
    {field : FieldDefinition} (isConstant : metadata.isConstant field = true) (ordinal : Nat) :
    LaidOut metadata offsets index definition (declared ++ [(field, ordinal)]) fields where
  __ := laidOut
  declared := by simp [laidOut.declared, isConstant]

/-- One more field is laid out, under a name that is new. -/
theorem append (laidOut : LaidOut metadata offsets index definition declared fields)
    (field : LaidField) {reference : TypeReference}
    (isReference : metadata.typeReference field.declared.type = .ok reference)
    (notConstant : reference.isLiteral = false) (isStatic : field.isStatic = reference.isStatic)
    (offset : field.layout.offset = offsets (field.place index definition))
    (isNew : field.layout.name ∉ LaidField.names fields)
    (unchanged : field.declared.name ∉ LaidField.names fields →
      field.layout.name = field.declared.name)
    (changed : field.layout.name = field.declared.name ∨ field.layout.name = field.markedName ∨
      ∃ suffix, field.layout.name = NamePool.suffixed field.markedName suffix) :
    LaidOut metadata offsets index definition (declared ++ [(field.declared, field.ordinal)])
      (fields ++ [field]) := by
  have isVariable : metadata.isConstant field.declared = false := by
    simp [Metadata.isConstant, isReference, notConstant]
  constructor
  case declared => simp [laidOut.declared, isVariable]
  case isStatic =>
    exact List.forall_mem_append.mpr
      ⟨laidOut.isStatic, List.forall_mem_singleton.mpr ⟨reference, isReference, isStatic⟩⟩
  case offset =>
    exact List.forall_mem_append.mpr ⟨laidOut.offset, List.forall_mem_singleton.mpr offset⟩
  case distinct =>
    rw [LaidField.names, List.map_append, ← LaidField.names]
    exact List.nodup_append.mpr ⟨laidOut.distinct, List.nodup_singleton _, by
      rintro name mem other last rfl
      rw [List.mem_singleton.mp last] at mem
      exact isNew mem⟩
  case unchanged =>
    intro before other rest whole
    obtain rfl | ⟨rest, last, rfl⟩ := rest.eq_nil_or_concat
    · obtain ⟨rfl, same⟩ := List.append_inj' whole rfl
      obtain rfl := List.singleton_inj.mp same
      exact unchanged
    · rw [List.concat_eq_append, ← List.cons_append, ← List.append_assoc] at whole
      exact laidOut.unchanged before other rest (List.append_inj_left' whole rfl)
  case changed =>
    exact List.forall_mem_append.mpr ⟨laidOut.changed, List.forall_mem_singleton.mpr changed⟩

end LaidOut

namespace FieldSplit

/-- The fields of a layout so far are these, and only their names are taken. -/
structure Holds (split : FieldSplit) (fields : List LaidField) : Prop where
  instanceFields : split.instanceFields.toList = LaidField.layouts false fields
  staticFields : split.staticFields.toList = LaidField.layouts true fields
  taken : ∀ name, split.pool.contains name = true ↔ name ∈ LaidField.names fields

variable {split : FieldSplit} {fields : List LaidField}

theorem holds_empty : empty.Holds [] := by
  constructor <;> simp [empty, LaidField.layouts, LaidField.names]

theorem Holds.insert (holds : split.Holds fields) (field : LaidField) {pool : NamePool}
    (isPool : ∀ name, pool.contains name = true ↔
      name = field.layout.name ∨ split.pool.contains name = true) :
    (split.insert field.isStatic field.layout pool).Holds (fields ++ [field]) := by
  have taken (name : String) :
      pool.contains name = true ↔ name ∈ LaidField.names (fields ++ [field]) := by
    rw [isPool, holds.taken]
    simp [LaidField.names, or_comm]
  cases isStatic : field.isStatic with
  | true =>
    constructor
    · simpa [FieldSplit.insert, LaidField.layouts, isStatic] using holds.instanceFields
    · simpa [FieldSplit.insert, LaidField.layouts, isStatic] using holds.staticFields
    · exact taken
  | false =>
    constructor
    · simpa [FieldSplit.insert, LaidField.layouts, isStatic] using holds.instanceFields
    · simpa [FieldSplit.insert, LaidField.layouts, isStatic] using holds.staticFields
    · exact taken

/-- A field is called as declared, or else by its ordinal as well. -/
theorem fieldName_cases (split : FieldSplit) (ordinal : Nat) (name : String) :
    (split.fieldName ordinal name).1 = name ∨
      (split.fieldName ordinal name).1 = "_" ++ toString ordinal ++ "_" ++ name ∨
      ∃ suffix, (split.fieldName ordinal name).1 =
        NamePool.suffixed ("_" ++ toString ordinal ++ "_" ++ name) suffix := by
  unfold fieldName
  cases untaken : split.pool.contains name with
  | true => exact .inr NamePool.request_eq_or_suffixed
  | false => simp [NamePool.request, untaken]

/-- What is known of the fields of a definition so far, which are laid out in their order. -/
def Follows (metadata : Metadata) (offsets : OffsetSource) (index : Index .typeDefinitions)
    (definition : TypeDefinition) (declared : List (FieldDefinition × Nat)) (split : FieldSplit) :
    Prop :=
  ∃ fields, LaidOut metadata offsets index definition declared fields ∧ split.Holds fields

end FieldSplit

namespace Linkage

open Resolve

variable {linkage : Linkage} {names : BuildNames} {offsets : OffsetSource}
  {index : Index .typeDefinitions} {definition : TypeDefinition} {context : GenericContext}

/-- One more declared field is a constant and passed over, or laid out under a name that is new. -/
theorem yields_follows_addField {declared : List (FieldDefinition × Nat)} {split : FieldSplit}
    (follows : split.Follows linkage.metadata offsets index definition declared)
    (field : FieldDefinition) (ordinal : Nat) :
    Yields (linkage.addField names offsets index definition context split field ordinal)
      (FieldSplit.Follows linkage.metadata offsets index definition
        (declared ++ [(field, ordinal)])) := by
  obtain ⟨fields, laidOut, holds⟩ := follows
  apply Yields.bind_lookup
  intro reference isReference
  split
  next isLiteral =>
    have isConstant : linkage.metadata.isConstant field = true := by
      simp [Metadata.isConstant, isReference, isLiteral]
    exact .pure ⟨fields, laidOut.skip isConstant ordinal, holds⟩
  next notLiteral =>
    apply Yields.bind_any
    intro usage
    apply Yields.bind_any
    intro state
    have isNew : (split.fieldName ordinal field.name).1 ∉ LaidField.names fields := by
      rw [← holds.taken]
      simp [FieldSplit.fieldName, NamePool.contains_request_fst]
    let laid : LaidField := {
      declared := field
      ordinal
      isStatic := reference.isStatic
      layout := {
        typeName := names.fieldTypeName state usage
        name := (split.fieldName ordinal field.name).1
        isValueType := state.isValueType usage
        isCustomType := state.isCustomType usage
        offset := offsets {
          definition := index
          ordinal := UInt32.ofNat ordinal
          field := definition.fieldStart.offset (UInt32.ofNat ordinal)
          inValueType := definition.isValueType
          isStatic := reference.isStatic }
        indirection := UInt32.ofNat usage.indirection } }
    apply Yields.pure
    refine ⟨fields ++ [laid], ?_, holds.insert laid fun name ↦ NamePool.contains_request⟩
    apply laidOut.append laid isReference (Bool.eq_false_iff.mpr notLiteral) rfl rfl isNew
    case unchanged =>
      intro untaken
      rw [← holds.taken] at untaken
      simp [laid, FieldSplit.fieldName, NamePool.request, untaken]
    case changed => exact split.fieldName_cases ordinal field.name

end Linkage

/-- A layout has the fields that a definition declares, but for the constants. -/
structure Layout.HasFieldsOf (metadata : Metadata) (offsets : OffsetSource)
    (index : Index .typeDefinitions) (definition : TypeDefinition)
    (declared : List FieldDefinition) (laid : List LaidField) (layout : StructRecord) : Prop where
  isDefinition : metadata.typeDefinition index = .ok definition
  areDeclared : metadata.declarations.fields.slice? definition.fieldStart
    definition.fieldCount.toUInt32 = some declared
  laidOut : LaidOut metadata offsets index definition declared.zipIdx laid
  fields : layout.fields = LaidField.layouts false laid
  staticFields : layout.staticFields = LaidField.layouts true laid

namespace Layout.HasFieldsOf

variable {metadata : Metadata} {offsets : OffsetSource} {index : Index .typeDefinitions}
  {definition : TypeDefinition} {declared : List FieldDefinition} {laid : List LaidField}
  {layout : StructRecord}
  (hasFields : layout.HasFieldsOf metadata offsets index definition declared laid)

include hasFields

/-- The names of all fields of a layout differ. -/
theorem nodup_names : ((layout.fields ++ layout.staticFields).map (·.name)).Nodup := by
  have isSplit : (layout.fields ++ layout.staticFields).map (·.name) =
      LaidField.names (laid.filter (·.isStatic == false) ++
        laid.filter fun field ↦ !(field.isStatic == false)) := by
    rw [hasFields.fields, hasFields.staticFields]
    simp [LaidField.layouts, LaidField.names, Function.comp_def]
  have whole := List.filter_append_perm (·.isStatic == false) laid
  rw [isSplit]
  exact (whole.map _).nodup_iff.mpr hasFields.laidOut.distinct

/-- The ordinal of a field says where it stands among the declared ones. -/
theorem declared_of_mem {field : LaidField} (mem : field ∈ laid) :
    declared[field.ordinal]? = some field.declared ∧
      (field.place index definition).ordinal.toNat = field.ordinal := by
  have isDeclared : (field.declared, field.ordinal) ∈ declared.zipIdx := by
    have isLaid : (field.declared, field.ordinal) ∈
        laid.map fun field ↦ (field.declared, field.ordinal) := List.mem_map.mpr ⟨field, mem, rfl⟩
    rw [hasFields.laidOut.declared] at isLaid
    exact List.mem_of_mem_filter isLaid
  have found := List.mk_mem_zipIdx_iff_getElem?.mp isDeclared
  have inside := (List.getElem?_eq_some_iff.mp found).1
  rw [Table.length_of_slice? hasFields.areDeclared, UInt16.toNat_toUInt32] at inside
  have bounded : field.ordinal < UInt32.size := by
    have := definition.fieldCount.toNat_lt
    unfold UInt32.size
    omega
  exact ⟨found, UInt32.toNat_ofNat_of_lt' bounded⟩

end Layout.HasFieldsOf

namespace Linkage

open Resolve

variable {linkage : Linkage} {names : BuildNames} {offsets : OffsetSource}
  {index : Index .typeDefinitions} {definition : TypeDefinition} {context : GenericContext}

/-- The fields of a definition are laid out, whatever the context is. -/
theorem yields_follows_splitFields :
    Yields (linkage.splitFields names offsets index definition context) fun split ↦
      ∃ declared, linkage.metadata.declarations.fields.slice? definition.fieldStart
          definition.fieldCount.toUInt32 = some declared ∧
        split.Follows linkage.metadata offsets index definition declared.zipIdx := by
  unfold splitFields
  split
  next => exact .throw
  next declared areDeclared =>
    refine Yields.mono (Yields.foldlM
      (FieldSplit.Follows linkage.metadata offsets index definition) ?_ _ _ ?_) ?_
    · exact fun _ (field, ordinal) _ follows ↦ yields_follows_addField follows field ordinal
    · exact ⟨[], .nil, FieldSplit.holds_empty⟩
    · exact fun _ follows ↦ ⟨declared, areDeclared, follows⟩

end Linkage

/-- A layout has the fields of the definition at an index. -/
def Layout.HasFieldsAt (metadata : Metadata) (offsets : OffsetSource)
    (index : Index .typeDefinitions) (layout : StructRecord) : Prop :=
  ∃ definition declared laid, layout.HasFieldsOf metadata offsets index definition declared laid

namespace BuildPlan

open Resolve Linkage

variable (plan : BuildPlan)

theorem yields_hasFields_definition (entry : NamedDefinition) :
    Yields (plan.definitionLayout entry)
      (Layout.HasFieldsAt plan.linkage.metadata plan.offsets entry.definition) := by
  apply Yields.bind_lookup
  intro definition isDefinition
  iterate 3
    apply Yields.bind_any
    intro _
  apply Yields.bind yields_follows_splitFields
  intro split ⟨declared, areDeclared, laid, laidOut, holds⟩
  iterate 4
    apply Yields.bind_any
    intro _
  exact .pure ⟨definition, declared, laid, isDefinition, areDeclared, laidOut,
    holds.instanceFields, holds.staticFields⟩

theorem yields_hasFields_instance (entry : NamedInstance) :
    Yields (plan.instanceLayout entry)
      (Layout.HasFieldsAt plan.linkage.metadata plan.offsets entry.definition) := by
  apply Yields.bind_lookup
  intro definition isDefinition
  iterate 3
    apply Yields.bind_any
    intro _
  apply Yields.bind yields_follows_splitFields
  intro split ⟨declared, areDeclared, laid, laidOut, holds⟩
  iterate 2
    apply Yields.bind_any
    intro _
  exact .pure ⟨definition, declared, laid, isDefinition, areDeclared, laidOut,
    holds.instanceFields, holds.staticFields⟩

end BuildPlan

namespace Catalogue

/-- A layout is that of a definition, or of an instantiation of it. If generic classes share the
name of the instantiation, the first one of them counts. -/
inductive LaysOut (metadata : Metadata) (catalogue : Catalogue) (layout : StructRecord)
    (definition : Index .typeDefinitions) : Prop
  | definition (isName : catalogue.displayName? definition = some layout.typeName)
  | instantiation (isNew : catalogue.displays layout.typeName = false)
    {genericClass : Index .genericClasses}
    (isFirst : (catalogue.namedClasses metadata).find? (·.2 == layout.typeName) =
      some (genericClass, layout.typeName))
    (isOpen : metadata.openDefinition? genericClass = .ok (some definition))

/-- A layout is of one definition only. -/
theorem MadeBy.laysOut_unique {plan : BuildPlan} {catalogue : Catalogue}
    {definitions instances : List StructRecord} {state : ResolutionState}
    (madeBy : catalogue.MadeBy plan definitions instances state) {layout : StructRecord}
    {definition other : Index .typeDefinitions}
    (laysOut : catalogue.LaysOut plan.linkage.metadata layout definition)
    (laysOutOther : catalogue.LaysOut plan.linkage.metadata layout other) :
    definition = other := by
  cases laysOut with
  | definition isName =>
    cases laysOutOther with
    | definition isOtherName =>
      exact displayName_inj madeBy.records madeBy.displayNames isName isOtherName
    | instantiation isNew =>
      rw [displays_of_displayName? isName] at isNew
      exact nomatch isNew
  | instantiation isNew isFirst isOpen =>
    cases laysOutOther with
    | definition isName =>
      rw [displays_of_displayName? isName] at isNew
      exact nomatch isNew
    | instantiation _ isOtherFirst isOtherOpen =>
      obtain ⟨rfl, -⟩ := Prod.mk.inj (Option.some.inj (isFirst.symm.trans isOtherFirst))
      exact Option.some.inj (Except.ok.inj (isOpen.symm.trans isOtherOpen))

end Catalogue

namespace Linkage

open Resolve

/-- Each layout of a catalogue is of some definition, and what is said of the layouts that are made
for a definition holds of it. -/
theorem yields_laysOut {holds : BuildPlan → Index .typeDefinitions → StructRecord → Prop}
    (ofDefinition : ∀ (plan : BuildPlan) (entry : NamedDefinition),
      Yields (plan.definitionLayout entry) (holds plan entry.definition))
    (ofInstance : ∀ (plan : BuildPlan) (entry : NamedInstance),
      Yields (plan.instanceLayout entry) (holds plan entry.definition))
    (linkage : Linkage) (options : BuildOptions) (offsets : OffsetSource) :
    Yields (linkage.catalogue options offsets) fun catalogue ↦ ∃ names,
      ∀ layout ∈ catalogue.structs, ∃ index, catalogue.LaysOut linkage.metadata layout index ∧
        holds (linkage.plan options offsets names) index layout := by
  have yieldsLayouts (plan : BuildPlan) := plan.yields_layouts_of
    (fun entry ↦ (plan.yields_definitionLayout entry).and (ofDefinition plan entry))
    (fun entry ↦ (plan.yields_instanceLayout entry).and (ofInstance plan entry))
  apply (yields_catalogue_of yieldsLayouts linkage options offsets).mono
  rintro catalogue ⟨names, records, displayNames, instanceNames, definitions, instances, structs,
    areDefinitions, areInstances⟩
  refine ⟨names, fun layout mem ↦ ?_⟩
  rw [structs] at mem
  obtain mem | mem := List.mem_append.mp mem
  · obtain ⟨entry, isEntry, ⟨isName, -⟩, isHeld⟩ := forall₂_exists_left areDefinitions mem
    have displayed := Catalogue.displayName_of_entry records displayNames isEntry
    exact ⟨entry.definition, .definition (isName ▸ displayed), isHeld⟩
  · split at areInstances
    next =>
      obtain ⟨entry, isEntry, ⟨isName, -⟩, isHeld⟩ := forall₂_exists_left areInstances mem
      obtain ⟨isNew, isFirst, isOpen⟩ :=
        Catalogue.isNew_of_entry records displayNames instanceNames isEntry
      rw [← isName] at isNew isFirst
      exact ⟨entry.definition, .instantiation isNew isFirst isOpen, isHeld⟩
    next =>
      rw [areInstances] at mem
      exact absurd mem List.not_mem_nil

theorem yields_hasFields (linkage : Linkage) (options : BuildOptions) (offsets : OffsetSource) :
    Yields (linkage.catalogue options offsets) fun catalogue ↦ ∀ layout ∈ catalogue.structs,
      ∃ index, catalogue.LaysOut linkage.metadata layout index ∧
        layout.HasFieldsAt linkage.metadata offsets index :=
  (yields_laysOut BuildPlan.yields_hasFields_definition BuildPlan.yields_hasFields_instance linkage
    options offsets).mono fun _ ⟨_, hasFieldsAt⟩ ↦ hasFieldsAt

end Linkage

namespace Catalogue

/-- **The fields of layouts.** Each layout is of one definition, as such or instantiated, and has
its fields but for the constants, each at the offset that its place has. All have different names,
and keep the declared one unless an earlier field is called so. -/
theorem hasFieldsAt_of_mem_structs {metadata : Metadata} {options : BuildOptions}
    {offsets : OffsetSource} {catalogue : Catalogue}
    (built : (buildWith metadata options offsets).result = .ok catalogue) :
    ∀ layout ∈ catalogue.structs,
      (∃ index, catalogue.LaysOut metadata layout index) ∧
      ((layout.fields ++ layout.staticFields).map (·.name)).Nodup ∧
      ∀ index, catalogue.LaysOut metadata layout index → ∃ definition declared laid,
        layout.HasFieldsOf metadata offsets index definition declared laid ∧
          ∀ field ∈ laid, declared[field.ordinal]? = some field.declared ∧
            (field.place index definition).ordinal.toNat = field.ordinal := by
  obtain ⟨linkage, linked, rfl, ran⟩ := exists_run built
  have hasFieldsAt := (linkage.yields_hasFields options offsets .empty).of_run_eq_ok
    (Resolve.run_eq_of_fst_eq ran)
  obtain ⟨_, _, _, _, _, linkedAgain, -, -, madeBy⟩ := exists_madeBy built
  cases linked.symm.trans linkedAgain
  intro layout mem
  obtain ⟨index, laysOut, definition, declared, laid, hasFields⟩ := hasFieldsAt layout mem
  refine ⟨⟨index, laysOut⟩, hasFields.nodup_names, ?_⟩
  intro other laysOutOther
  obtain rfl := madeBy.laysOut_unique laysOut laysOutOther
  exact ⟨definition, declared, laid, hasFields, fun _ ↦ hasFields.declared_of_mem⟩

end Catalogue

/-- The boxes have four fields, three of which are called alike. One of these is a constant, the
last one is static, and the name that it would have instead is taken as well. -/
def Metadata.crates : Metadata :=
  { Metadata.parcels with
    declarations := { Metadata.parcels.declarations with
      fields := .ofList [⟨"item", ⟨1⟩, 0⟩, ⟨"_3_item", ⟨0⟩, 0⟩, ⟨"item", ⟨3⟩, 0⟩,
        ⟨"item", ⟨2⟩, 0⟩] } }

namespace Catalogue

/-- The names and offsets of the fields of instances, and those of the static ones. -/
def places (layout : StructRecord) : List (String × Int32) × List (String × Int32) :=
  (layout.fields.map fun field ↦ (field.name, field.offset),
    layout.staticFields.map fun field ↦ (field.name, field.offset))

set_option maxRecDepth 10000 in
/-- The fields of the boxes of integers. -/
theorem crates_hasFieldsAt_of_mem_structs : ∃ catalogue layout definition declared laid,
    (buildWith .crates .default Metadata.crates.fieldOffset).result = .ok catalogue ∧
      layout ∈ catalogue.structs ∧ layout.typeName = "Demo.Box<int>" ∧
      places layout = ([("item", 0), ("_3_item", 16)], [("_3_item_1", 4)]) ∧
      layout.HasFieldsOf .crates Metadata.crates.fieldOffset ⟨0⟩ definition declared laid := by
  have isNamed :
      (buildWith .crates .default Metadata.crates.fieldOffset).result.toOption.map
        (fun catalogue ↦ ((catalogue.namedClasses .crates).find? (·.2 == "Demo.Box<int>"),
          catalogue.displays "Demo.Box<int>")) =
      some (some (⟨0⟩, "Demo.Box<int>"), false) := by
    decide +kernel
  have areListed :
      (buildWith .crates .default Metadata.crates.fieldOffset).result.toOption.map
        (fun catalogue ↦ catalogue.structs.map fun layout ↦ (layout.typeName, places layout)) =
      some [("Demo.Box<T>", [("item", 0), ("_3_item", 16)], [("_3_item_1", 4)]),
        ("Demo.Foo", [], []), ("Other.Sack", [], []), ("Other.Sack_1", [], []),
        ("Demo.Box<int>", [("item", 0), ("_3_item", 16)], [("_3_item_1", 4)]),
        ("Demo.Foo<int>", [], []), ("Demo.Bag<int>", [], [])] := by
    decide +kernel
  obtain ⟨catalogue, built, shown⟩ := exists_of_shown isNamed
  rw [built] at areListed
  obtain ⟨isFirst, isNew⟩ := Prod.mk.inj shown
  obtain ⟨layout, mem, isName, arePlaces⟩ :=
    exists_layout_of_listed (Option.some.inj areListed) (List.mem_of_getElem? (i := 4) rfl)
  rw [← isName] at isFirst isNew
  have isOpen : Metadata.crates.openDefinition? ⟨0⟩ = .ok (some ⟨0⟩) := rfl
  obtain ⟨-, -, hasFields⟩ := hasFieldsAt_of_mem_structs built layout mem
  obtain ⟨definition, declared, laid, hasFields, -⟩ :=
    hasFields ⟨0⟩ (.instantiation isNew isFirst isOpen)
  exact ⟨catalogue, layout, definition, declared, laid, built, mem, isName, arePlaces, hasFields⟩

end Catalogue

end ManagedLayout

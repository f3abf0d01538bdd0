import ManagedLayout.Proofs.Catalogue.Composition

/-!
# Which parents layouts have

The parent of a layout is a name, and it is the name of the declared parent. A definition is told
from the one that it derives from by its index. But an instantiation is only referred to by a text:
if it is the layout itself, once its parameters stand for the arguments of the layout, then the
layout is its own parent. And the root of all classes is left out only where it is declared as a
built-in type, not where it is declared as a definition.
-/

namespace ManagedLayout

/-- What a definition derives from, arrays and pointers aside. Value types and enumerations derive
from nothing. -/
def TypeDefinition.DerivesFrom (metadata : Metadata) (context : GenericContext)
    (definition : TypeDefinition) (tree : TypeTree) : Prop :=
  (definition.isValueType || definition.isEnum) = false ∧ ∃ type declared,
    definition.parent.present? = some type ∧
      metadata.Expands ⟨type, context, .name⟩ declared ∧ declared.core = tree

section HasParent

variable {metadata : Metadata} {baseNames : Index .typeDefinitions → String} {tables : NameTables}
  {index : Index .typeDefinitions} {context : GenericContext} {definition : TypeDefinition}
  {parent? : Option String}

/-- A definition derives from one type at most. -/
theorem TypeDefinition.DerivesFrom.unique {tree other : TypeTree}
    (first : definition.DerivesFrom metadata context tree)
    (second : definition.DerivesFrom metadata context other) : tree = other := by
  obtain ⟨-, type, declared, isType, expands, rfl⟩ := first
  obtain ⟨-, otherType, otherDeclared, isOtherType, otherExpands, rfl⟩ := second
  obtain rfl := Option.some.inj (isType.symm.trans isOtherType)
  rw [expands.unique otherExpands]

theorem TypeDefinition.HasParent.eq_none
    (hasParent : definition.HasParent metadata baseNames tables index context parent?)
    (isValue : definition.isValueType || definition.isEnum) : parent? = none := by
  rwa [HasParent, if_pos isValue] at hasParent

theorem TypeDefinition.HasParent.eq_parent? {tree : TypeTree}
    (hasParent : definition.HasParent metadata baseNames tables index context parent?)
    (derives : definition.DerivesFrom metadata context tree) :
    parent? = tables.parent? metadata baseNames index tree := by
  obtain ⟨notValue, type, declared, isType, expands, rfl⟩ := derives
  rw [HasParent, notValue, if_neg Bool.false_ne_true, isType] at hasParent
  obtain ⟨other, otherExpands, isParent⟩ := hasParent
  rwa [expands.unique otherExpands]

theorem TypeDefinition.HasParent.eq_some_iff {name : String}
    (hasParent : definition.HasParent metadata baseNames tables index context parent?) :
    parent? = some name ↔ ∃ tree, definition.DerivesFrom metadata context tree ∧
      tables.parent? metadata baseNames index tree = some name := by
  constructor
  · rintro rfl
    cases isValue : definition.isValueType || definition.isEnum with
    | true => exact nomatch hasParent.eq_none isValue
    | false =>
      rw [HasParent, isValue, if_neg Bool.false_ne_true] at hasParent
      split at hasParent
      next => exact nomatch hasParent
      next type isType =>
        obtain ⟨declared, expands, isParent⟩ := hasParent
        exact ⟨_, ⟨isValue, type, declared, isType, expands, rfl⟩, isParent.symm⟩
  · intro ⟨tree, derives, isParent⟩
    rw [hasParent.eq_parent? derives, isParent]

end HasParent

namespace NameTables

/-- Whether what a type is referred to by is made of spellings, as it has no display name. -/
def LacksDisplayName (tables : NameTables) : TypeTree → Prop
  | .definition definition _ => tables.displayName? definition = none
  | .instantiation .. => True
  | _ => False

/-- Definitions have different display names, and no layout of an instantiation has one of them. -/
structure Distinct (tables : NameTables) : Prop where
  displayNames : ∀ first second name, tables.displayName? first = some name →
    tables.displayName? second = some name → first = second
  instances : ∀ definition name, tables.displayName? definition = some name →
    tables.hasInstance name = false

variable {tables : NameTables} {metadata : Metadata}
  {baseNames : Index .typeDefinitions → String} {index : Index .typeDefinitions} {tree : TypeTree}
  {name : String}

/-- A display name is referred to by the definition that has it, or by accident. -/
theorem Distinct.parent?_eq_displayName_iff (distinct : tables.Distinct)
    {root : Index .typeDefinitions} (isName : tables.displayName? root = some name) :
    tables.parent? metadata baseNames index tree = some name ↔
      (root ≠ index ∧ ∃ declaring?, tree = .definition root declaring?) ∨
        (tables.LacksDisplayName tree ∧
          tables.parent? metadata baseNames index tree = some name) := by
  constructor
  · intro isParent
    cases tree with
    | instantiation => exact .inr ⟨trivial, isParent⟩
    | builtin | parameter | pointer | array => cases isParent
    | definition definition declaring? =>
      cases displayed : tables.displayName? definition with
      | none => exact .inr ⟨displayed, isParent⟩
      | some other =>
        by_cases isOwn : definition = index
        · rw [parent?, if_pos isOwn] at isParent
          cases isParent
        · rw [parent?, if_neg isOwn, reference?, displayed, Option.getD_some,
            Option.some_inj] at isParent
          subst isParent
          obtain rfl := distinct.displayNames _ _ _ displayed isName
          exact .inl ⟨isOwn, declaring?, rfl⟩
  · rintro (⟨notOwn, declaring?, rfl⟩ | ⟨-, isParent⟩)
    · rw [parent?, if_neg notOwn, reference?, isName, Option.getD_some]
    · exact isParent

/-- The name of a layout is not referred to by any other definition with a display name. -/
theorem Distinct.lacksDisplayName (distinct : tables.Distinct)
    (isOwn : tables.displayName? index = some name ∨ tables.hasInstance name = true)
    (isParent : tables.parent? metadata baseNames index tree = some name) :
    tables.LacksDisplayName tree := by
  obtain isName | isInstance := isOwn
  · obtain ⟨notOwn, -⟩ | ⟨lacks, -⟩ := (distinct.parent?_eq_displayName_iff isName).mp isParent
    · exact absurd rfl notOwn
    · exact lacks
  · cases tree with
    | instantiation => exact trivial
    | builtin | parameter | pointer | array => cases isParent
    | definition definition declaring? =>
      cases displayed : tables.displayName? definition with
      | none => exact displayed
      | some other =>
        obtain ⟨-, same⟩ := Option.ite_none_left_eq_some.mp isParent
        rw [reference?, displayed, Option.getD_some, Option.some_inj] at same
        rw [same] at displayed
        exact absurd isInstance (Bool.eq_false_iff.mp (distinct.instances _ _ displayed))

end NameTables

namespace Catalogue

/-- The names by which the layouts of a catalogue refer to types. -/
def tables (metadata : Metadata) (catalogue : Catalogue) : NameTables where
  displayName? := catalogue.displayName?
  instanceName? := catalogue.instanceName?
  hasInstance := (catalogue.newNames metadata).contains

/-- What the parent of a layout is. -/
structure Derives (metadata : Metadata) (catalogue : Catalogue)
    (baseNames : Index .typeDefinitions → String) (index : Index .typeDefinitions)
    (context : GenericContext) (definition : TypeDefinition) (layout : StructRecord) : Prop where
  denotes : catalogue.Denotes metadata layout.typeName index context
  isDefinition : metadata.typeDefinition index = .ok definition
  /-- It is what the declared parent is referred to by. -/
  parent : ∀ name, layout.parent? = some name ↔
    ∃ tree, definition.DerivesFrom metadata context tree ∧
      (catalogue.tables metadata).parent? metadata baseNames index tree = some name
  valueType : definition.isValueType || definition.isEnum → layout.parent? = none
  /-- The root of all classes is no parent if it is declared as a built-in type. -/
  builtin : ∀ kind, definition.DerivesFrom metadata context (.builtin kind) → layout.parent? = none
  /-- It is a certain definition, such as the root, only if that is declared, or if the declared
  parent has no display name and is spelled like the definition. -/
  displayName : ∀ root name, catalogue.displayName? root = some name →
    (layout.parent? = some name ↔ ∃ tree, definition.DerivesFrom metadata context tree ∧
      ((root ≠ index ∧ ∃ declaring?, tree = .definition root declaring?) ∨
        ((catalogue.tables metadata).LacksDisplayName tree ∧
          (catalogue.tables metadata).parent? metadata baseNames index tree = some name)))
  /-- It is the layout itself only if the declared parent has no display name. -/
  ownParent : layout.parent? = some layout.typeName →
    ∃ tree, definition.DerivesFrom metadata context tree ∧
      (catalogue.tables metadata).LacksDisplayName tree
  /-- An instantiation that derives from one with the same arguments is its own parent. -/
  becomesItself : ∀ genericClass arguments other declaring? others,
    catalogue.displays layout.typeName = false →
    catalogue.instanceName? genericClass = some layout.typeName →
    metadata.Instantiates genericClass index arguments → metadata.NamesItself index →
    definition.DerivesFrom metadata context (.instantiation other index declaring? others) →
    TypeTree.angledSpelling metadata baseNames others =
      TypeTree.angledSpelling metadata baseNames arguments →
      layout.parent? = some layout.typeName

section MadeBy

variable {plan : BuildPlan} {catalogue : Catalogue} {definitions instances : List StructRecord}
  {state : ResolutionState} (madeBy : catalogue.MadeBy plan definitions instances state)

include madeBy

theorem MadeBy.tables_eq : catalogue.tables plan.linkage.metadata = plan.names.tables := by
  have hasInstance : (catalogue.newNames plan.linkage.metadata).contains =
      plan.names.instances.structNames.contains := by
    funext name
    rw [Bool.eq_iff_iff, madeBy.records.instances.contains_structNames_iff, List.contains_iff_mem,
      newNames_eq madeBy.records madeBy.displayNames madeBy.instanceNames]
  rw [tables, hasInstance]
  unfold displayName? instanceName?
  rw [madeBy.displayNames, madeBy.instanceNames]
  rfl

theorem MadeBy.distinct : (catalogue.tables plan.linkage.metadata).Distinct where
  displayNames _ _ _ := displayName_inj madeBy.records madeBy.displayNames
  instances definition name isName := by
    simp [tables, newNames, displays_of_displayName? isName]

variable {baseNames : Index .typeDefinitions → String}
  (faithful : state.Faithful plan.linkage.metadata) (givesNames : state.GivesNames baseNames)
  (linked : Linkage.ofMetadata plan.linkage.metadata = .ok plan.linkage)

include faithful givesNames linked

/-- An instantiation of the same definition, with the same arguments, is referred to as the layout
is. -/
theorem MadeBy.reference?_eq {genericClass other : Index .genericClasses}
    {index : Index .typeDefinitions} {arguments others : List TypeTree}
    {declaring? : Option TypeTree} {name : String} (isNew : catalogue.displays name = false)
    (isName : catalogue.instanceName? genericClass = some name)
    (instantiates : plan.linkage.metadata.Instantiates genericClass index arguments)
    (namesItself : plan.linkage.metadata.NamesItself index)
    (same : TypeTree.angledSpelling plan.linkage.metadata baseNames others =
      TypeTree.angledSpelling plan.linkage.metadata baseNames arguments) :
    (catalogue.tables plan.linkage.metadata).reference? plan.linkage.metadata baseNames
      (.instantiation other index declaring? others) = some name := by
  obtain ⟨displayed, isDisplayed⟩ := madeBy.exists_displayName instantiates
  have isShown := isDisplayed
  rw [displayName?, madeBy.displayNames] at isShown
  obtain ⟨after, -, isText⟩ := madeBy.sound.displayName_eq faithful givesNames
    (namesItself plan.linkage linked) isShown
  have occurs := Text.occursIn_append (state.definitionOwner index).toList (baseNames index ++
    angled (plan.linkage.metadata.ownParameters index)).toList after.toList
  rw [← String.toList_append, ← String.toList_append, ← isText] at occurs
  -- The definition is shown in its display name, and so the name has the arguments in its place.
  have isClosed : (catalogue.tables plan.linkage.metadata).closedName? plan.linkage.metadata
      baseNames index others = some name := by
    have isOwn := isName
    rw [madeBy.instanceName_eq faithful givesNames instantiates, Option.some_inj, instanceText,
      isDisplayed, Option.bind_some] at isOwn
    obtain ⟨closed, closes⟩ : ∃ closed, Text.replaced?
        (baseNames index ++ angled (plan.linkage.metadata.ownParameters index))
        (baseNames index ++ TypeTree.angledSpelling plan.linkage.metadata baseNames arguments)
        displayed = some closed := ⟨_, if_pos occurs⟩
    unfold TypeTree.angledSpelling at closes same
    rw [closes, Option.getD_some] at isOwn
    have displayName?_eq : (catalogue.tables plan.linkage.metadata).displayName? index =
        some displayed := isDisplayed
    rw [NameTables.closedName?, displayName?_eq, Option.bind_some, same, closes, isOwn]
  have hasInstance : (catalogue.tables plan.linkage.metadata).hasInstance name = true := by
    rw [instanceName?, madeBy.instanceNames] at isName
    rw [displays_eq madeBy.records madeBy.displayNames] at isNew
    obtain inPool | isStruct := madeBy.sound.instances.names _ _ isName
    · exact absurd inPool (Bool.eq_false_iff.mp isNew)
    · rwa [madeBy.tables_eq]
  rw [NameTables.reference?, isClosed, Option.filter_some_pos hasInstance, Option.getD_some]

/-- A layout derives from what its definition derives from. -/
theorem MadeBy.derives {index : Index .typeDefinitions} {context : GenericContext}
    {definition : TypeDefinition} {layout : StructRecord}
    (denotes : catalogue.Denotes plan.linkage.metadata layout.typeName index context)
    (isDefinition : plan.linkage.metadata.typeDefinition index = .ok definition)
    (hasParent : definition.HasParent plan.linkage.metadata baseNames plan.names.tables index
      context layout.parent?)
    (isOwn : catalogue.displayName? index = some layout.typeName ∨
      plan.names.tables.hasInstance layout.typeName = true) :
    catalogue.Derives plan.linkage.metadata baseNames index context definition layout := by
  rw [← madeBy.tables_eq] at hasParent isOwn
  constructor
  case denotes => exact denotes
  case isDefinition => exact isDefinition
  case parent => exact fun name ↦ hasParent.eq_some_iff
  case valueType => exact hasParent.eq_none
  case builtin => exact fun kind derives ↦ hasParent.eq_parent? derives
  case displayName =>
    intro root name isName
    rw [hasParent.eq_some_iff]
    exact exists_congr fun tree ↦ and_congr_right fun _ ↦
      madeBy.distinct.parent?_eq_displayName_iff isName
  case ownParent =>
    intro isParent
    obtain ⟨tree, derives, isName⟩ := hasParent.eq_some_iff.mp isParent
    exact ⟨tree, derives, madeBy.distinct.lacksDisplayName isOwn isName⟩
  case becomesItself =>
    intro genericClass arguments other declaring? others isNew isName instantiates namesItself
      derives same
    rw [hasParent.eq_parent? derives]
    exact madeBy.reference?_eq faithful givesNames linked isNew isName instantiates namesItself same

end MadeBy

/-- **Parents are the declared ones, by name.** A layout is never the child of a definition other
than the declared parent, but it is its own if an instantiation becomes the layout itself. -/
theorem exists_derives {metadata : Metadata} {options : BuildOptions} {offsets : OffsetSource}
    {catalogue : Catalogue} (built : (buildWith metadata options offsets).result = .ok catalogue) :
    ∃ baseNames, metadata.AdmitsBaseNames baseNames ∧
      ∀ layout ∈ catalogue.structs, ∃ index context definition,
        catalogue.Derives metadata baseNames index context definition layout := by
  obtain ⟨linkage, names, definitions, instances, state, linked, rfl, faithful, madeBy⟩ :=
    exists_madeBy built
  have givesNames := state.givesNames_givenName linkage.metadata
  refine ⟨state.givenName linkage.metadata, fun _ _ ↦ faithful.givenName_eq, ?_⟩
  intro layout mem
  obtain ⟨entry, isEntry, isName, made⟩ | ⟨entry, isEntry, isName, record, _, made⟩ :=
    madeBy.exists_entry mem
  · obtain ⟨definition, isDefinition, hasParent⟩ := made.parent
    have displayed := madeBy.displayName_of_entry isEntry isName
    exact ⟨entry.definition, .empty, definition, madeBy.derives faithful givesNames linked
      (.definition displayed) isDefinition (hasParent _ givesNames) (.inl displayed)⟩
  · obtain ⟨definition, isDefinition, hasParent⟩ := made.parent
    obtain ⟨named, isOpen⟩ :=
      madeBy.sound.instances.entries entry (Array.mem_toList_iff.mp isEntry)
    rw [← madeBy.instanceNames, ← isName] at named
    have isStruct : (linkage.plan options offsets names).names.tables.hasInstance layout.typeName =
        true := by
      rw [← madeBy.tables_eq, isName]
      exact List.contains_iff_mem.mpr (madeBy.mem_newNames_of_entry isEntry)
    exact ⟨entry.definition, _, definition, madeBy.derives faithful givesNames linked
      (.instantiation named made.isRecord isOpen) isDefinition (hasParent _ givesNames)
      (.inr isStruct)⟩

end Catalogue

/-- The root of all classes; a class that derives from it, as a definition; and a generic class that
derives from the instantiation of itself with its parameter. -/
def Metadata.loops : Metadata :=
  (Metadata.ofDefinitions
    [.named "System" "Object", { TypeDefinition.named "Demo" "Circle" with parent := ⟨0⟩ },
      { TypeDefinition.named "Demo" "Node`1" with genericContainer := ⟨0⟩, parent := ⟨3⟩ }]
    []
    [(.classType, .definition ⟨0⟩), (.int32, .none), (.typeParameter, .parameter ⟨0⟩),
      (.genericInstance, .genericClass ⟨0⟩), (.genericInstance, .genericClass ⟨1⟩)]
    [(⟨2⟩, [⟨2⟩]), (⟨2⟩, [⟨1⟩])]).withParameters ["T"]

namespace Catalogue

set_option maxRecDepth 10000 in
/-- The layouts, with their parents. -/
theorem exists_catalogue_loops : ∃ catalogue,
    (buildWith .loops .default Metadata.loops.fieldOffset).result = .ok catalogue ∧
      catalogue.displayName? ⟨0⟩ = some "System.Object" ∧
      catalogue.structs.map (fun layout ↦ (layout.typeName, layout.parent?)) =
        [("System.Object", none), ("Demo.Circle", some "System.Object"),
          ("Demo.Node<T>", some "Demo.Node<T>"), ("Demo.Node<int>", some "Demo.Node<int>")] := by
  have isShown : (buildWith .loops .default Metadata.loops.fieldOffset).result.toOption.map
      (fun catalogue ↦ (catalogue.displayName? ⟨0⟩,
        catalogue.structs.map fun layout ↦ (layout.typeName, layout.parent?))) =
      some (some "System.Object", [("System.Object", none), ("Demo.Circle", some "System.Object"),
        ("Demo.Node<T>", some "Demo.Node<T>"), ("Demo.Node<int>", some "Demo.Node<int>")]) := by
    decide +kernel
  obtain ⟨catalogue, built, shown⟩ := exists_of_shown isShown
  exact ⟨catalogue, built, Prod.mk.inj shown⟩

/-- The node of integers becomes its own parent, as its parameter stands for integers. -/
theorem loops_exists_derives : ∃ catalogue baseNames,
    (buildWith .loops .default Metadata.loops.fieldOffset).result = .ok catalogue ∧
      Metadata.loops.AdmitsBaseNames baseNames ∧
      ("Demo.Node<int>", some "Demo.Node<int>") ∈
        catalogue.structs.map (fun layout ↦ (layout.typeName, layout.parent?)) ∧
      ∀ layout ∈ catalogue.structs, ∃ index context definition,
        catalogue.Derives .loops baseNames index context definition layout := by
  obtain ⟨catalogue, built, -, areParents⟩ := exists_catalogue_loops
  obtain ⟨baseNames, areNames, derives⟩ := exists_derives built
  refine ⟨catalogue, baseNames, built, areNames, ?_, derives⟩
  rw [areParents]
  simp

/-- No layout is its own parent. -/
def NoOwnParents (catalogue : Catalogue) : Prop :=
  ∀ layout ∈ catalogue.structs, layout.parent? ≠ some layout.typeName

/-- No layout derives from a definition. -/
def NoChildren (catalogue : Catalogue) (definition : Index .typeDefinitions) : Prop :=
  ∀ layout ∈ catalogue.structs, ∀ name, catalogue.displayName? definition = some name →
    layout.parent? ≠ some name

/-- A layout is its own parent, and another one derives from the root of all classes. -/
theorem loops_not_noOwnParents : ∃ catalogue,
    (buildWith .loops .default Metadata.loops.fieldOffset).result = .ok catalogue ∧
      ¬catalogue.NoOwnParents ∧
      Metadata.loops.typeDefinition ⟨0⟩ = .ok (.named "System" "Object") ∧
      ¬catalogue.NoChildren ⟨0⟩ := by
  obtain ⟨catalogue, built, isRoot, areParents⟩ := exists_catalogue_loops
  refine ⟨catalogue, built, ?_, rfl, ?_⟩
  · intro noOwnParents
    obtain ⟨layout, mem, isName, isParent⟩ := exists_layout_of_listed areParents
      (List.mem_of_getLast? rfl)
    exact noOwnParents layout mem (isName ▸ isParent)
  · intro noChildren
    obtain ⟨layout, mem, -, isParent⟩ := exists_layout_of_listed areParents
      (List.mem_cons_of_mem _ List.mem_cons_self)
    exact noChildren layout mem _ isRoot isParent

end Catalogue

end ManagedLayout

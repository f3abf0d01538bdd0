import ManagedLayout.Proofs.Catalogue.References
import ManagedLayout.Proofs.Resolution.TreeSpelling

/-!
# By which name a type is referred to

Layouts refer to each other by names. A definition has its display name. An instantiation has the
name that is made of its arguments, if a layout has that name, and else the name of its generic
class, in which parameters of the context stand for themselves. What has no name is spelled out.
-/

namespace ManagedLayout

/-- The names by which types can be referred to. -/
structure NameTables where
  displayName? : Index .typeDefinitions → Option String
  instanceName? : Index .genericClasses → Option String
  /-- Whether there is a layout of an instantiation with this name. -/
  hasInstance : String → Bool

/-- The name that is made of the display name of a definition and of arguments. -/
def NameTables.closedName? (tables : NameTables) (metadata : Metadata)
    (baseNames : Index .typeDefinitions → String) (definition : Index .typeDefinitions)
    (arguments : List TypeTree) : Option String :=
  (tables.displayName? definition).bind <| Text.replaced?
    (baseNames definition ++ angled (metadata.ownParameters definition))
    (baseNames definition ++ angled (arguments.map (TypeTree.spelling metadata baseNames)))

/-- The name by which a declared type is referred to. -/
def NameTables.reference? (tables : NameTables) (metadata : Metadata)
    (baseNames : Index .typeDefinitions → String) (tree : TypeTree) : Option String :=
  match tree with
  | .definition definition _ =>
    some ((tables.displayName? definition).getD (tree.fullName metadata baseNames))
  | .instantiation genericClass definition _ arguments =>
    let closed? := tables.closedName? metadata baseNames definition arguments
    some ((closed?.filter tables.hasInstance).getD
      ((tables.instanceName? genericClass).getD (tree.fullName metadata baseNames)))
  | .builtin _ | .parameter _ | .pointer _ | .array .. => none

/-- The name of a parent: that of a declared type, but a definition is not its own parent. -/
def NameTables.parent? (tables : NameTables) (metadata : Metadata)
    (baseNames : Index .typeDefinitions → String) (index : Index .typeDefinitions)
    (tree : TypeTree) : Option String :=
  match tree with
  | .definition definition _ =>
    if definition = index then none else tables.reference? metadata baseNames tree
  | _ => tables.reference? metadata baseNames tree

/-- The parent of a layout is the declared one, by its name. Value types and enumerations have
none. -/
def TypeDefinition.HasParent (metadata : Metadata) (baseNames : Index .typeDefinitions → String)
    (tables : NameTables) (index : Index .typeDefinitions) (context : GenericContext)
    (definition : TypeDefinition) (parent? : Option String) : Prop :=
  if definition.isValueType || definition.isEnum then parent? = none
  else
    match definition.parent.present? with
    | none => parent? = none
    | some type => ∃ tree, metadata.Expands ⟨type, context, .name⟩ tree ∧
        parent? = tables.parent? metadata baseNames index tree.core

/-- The parent of a layout, if it has one, is the declared one, by the name by which it is referred
to. -/
def TypeDefinition.IsParent (metadata : Metadata) (emits : String → Prop) (context : GenericContext)
    (definition : TypeDefinition) (parent? : Option String) : Prop :=
  ∀ name ∈ parent?, ∃ type tree, definition.parent.present? = some type ∧
    metadata.Expands ⟨type, context, .name⟩ tree ∧ tree.core.isDeclared ∧
    tree.core.Names metadata emits name

namespace BuildNames

/-- The names that the passes have given. -/
def tables (names : BuildNames) : NameTables where
  displayName? definition := names.definitions.displayNames[definition]?
  instanceName? genericClass := names.instances.names[genericClass]?
  hasInstance := names.instances.structNames.contains

variable {names : BuildNames} {metadata : Metadata} {state : ResolutionState} {usage : Usage}
  {baseNames : Index .typeDefinitions → String}

/-- The name with the arguments is made of spellings in the arena. -/
theorem closedName?_eq {genericClass : Index .genericClasses}
    {definition : Index .typeDefinitions} {declaring? : Option TypeTree}
    {arguments : List TypeTree} {id : DescriptorId} (faithful : state.Faithful metadata)
    (givesNames : state.GivesNames baseNames) (stored : id.position < state.descriptors.size)
    (isTree : state.descriptorTree id =
      .instantiation genericClass definition declaring? arguments) :
    state.instanceName? names.definitions.displayNames id definition =
      names.tables.closedName? metadata baseNames definition arguments := by
  have found := Array.getElem?_eq_getElem stored
  generalize state.descriptors[id.position] = descriptor at found
  have isKind := ResolutionState.kind_of_descriptorTree_instantiation found isTree
  obtain ⟨openId, _, _, declared⟩ := faithful.declaredBy_instantiation found isKind
  have isText := (faithful.spelled_instantiation givesNames stored isTree).2
  have isOpenText := (faithful.spelled_definition givesNames declared.done).2
  simp only [ResolutionState.instanceName?, ResolutionState.builtDefinition?_eq declared.done,
    Option.bind_eq_bind, Option.bind_some, isText, isOpenText, NameTables.closedName?, tables]

/-- A usage of a declared type is named as the type is. -/
theorem structName_eq (faithful : state.Faithful metadata) (givesNames : state.GivesNames baseNames)
    (stored : usage.descriptor.position < state.descriptors.size)
    (isDeclared : (state.descriptorTree usage.descriptor).isDeclared) :
    names.tables.reference? metadata baseNames (state.descriptorTree usage.descriptor) =
      some (names.structName state usage) := by
  have isText := faithful.descriptorText_eq givesNames stored
  have found := Array.getElem?_eq_getElem stored
  generalize state.descriptors[usage.descriptor.position] = descriptor at found
  cases isTree : state.descriptorTree usage.descriptor with
  | definition definition declaring? =>
    have isKind := ResolutionState.kind_of_descriptorTree_definition found isTree
    rw [isTree] at isText
    simp only [structName, ResolutionState.descriptor_eq found, isKind, isText,
      NameTables.reference?, tables, Std.TreeMap.getD_eq_getD_getElem?]
  | instantiation genericClass definition declaring? arguments =>
    have isKind := ResolutionState.kind_of_descriptorTree_instantiation found isTree
    rw [isTree] at isText
    have hasInstance : names.instances.structNames.contains = names.tables.hasInstance := rfl
    simp only [structName, ResolutionState.descriptor_eq found, isKind, isText, hasInstance,
      closedName?_eq faithful givesNames stored isTree, NameTables.reference?]
    generalize Option.filter names.tables.hasInstance _ = closed?
    cases closed? with
    | some name => rfl
    | none => simp only [tables, Std.TreeMap.getD_eq_getD_getElem?, Option.getD_none]
  | builtin | parameter | pointer | array =>
    rw [isTree] at isDeclared
    exact absurd isDeclared Bool.false_ne_true

/-- The name of a parent, by the usage that the declared one is resolved to. -/
def parentOf? (names : BuildNames) (state : ResolutionState) (index : Index .typeDefinitions)
    (usage : Usage) : Option String :=
  match state.descriptorTree usage.descriptor with
  | .definition definition _ =>
    if definition = index then none else some (names.structName state usage)
  | .instantiation .. => some (names.structName state usage)
  | .builtin _ | .parameter _ | .pointer _ | .array .. => none

theorem parentOf?_eq {index : Index .typeDefinitions} (faithful : state.Faithful metadata)
    (givesNames : state.GivesNames baseNames)
    (stored : usage.descriptor.position < state.descriptors.size) :
    names.parentOf? state index usage =
      names.tables.parent? metadata baseNames index (state.descriptorTree usage.descriptor) := by
  have isName := names.structName_eq faithful givesNames stored
  unfold parentOf?
  generalize state.descriptorTree usage.descriptor = tree at isName
  cases tree with
  | definition definition declaring? =>
    dsimp only
    rw [NameTables.parent?, isName rfl]
  | instantiation => exact (isName rfl).symm
  | builtin | parameter | pointer | array => rfl

theorem Closed.names_parentOf? {emits : String → Prop} {index : Index .typeDefinitions}
    {name : String} (closed : names.Closed metadata emits) (faithful : state.Faithful metadata)
    (stored : usage.descriptor.position < state.descriptors.size)
    (isParent : names.parentOf? state index usage = some name) :
    (state.descriptorTree usage.descriptor).isDeclared ∧
      (state.descriptorTree usage.descriptor).Names metadata emits name := by
  have isNames := closed.names_structName faithful stored
  unfold parentOf? at isParent
  generalize state.descriptorTree usage.descriptor = tree at isNames isParent
  cases tree with
  | definition definition declaring? =>
    obtain ⟨-, isName⟩ := Option.ite_none_left_eq_some.mp isParent
    exact ⟨rfl, Option.some.inj isName ▸ isNames⟩
  | instantiation => exact ⟨rfl, Option.some.inj isParent ▸ isNames⟩
  | builtin | parameter | pointer | array => cases isParent

end BuildNames

/-- The parent was named by the usage that the declared one was resolved to. -/
def TypeDefinition.NamesParent (metadata : Metadata) (names : BuildNames)
    (index : Index .typeDefinitions) (context : GenericContext) (definition : TypeDefinition)
    (parent? : Option String) (state : ResolutionState) : Prop :=
  if definition.isValueType || definition.isEnum then parent? = none
  else
    match definition.parent.present? with
    | none => parent? = none
    | some type => ∃ named usage, ResolutionState.Faithful metadata named ∧ named.Extends state ∧
        named.usages[metadata.normal ⟨type, context, .name⟩]? = some (.done usage) ∧
        parent? = names.parentOf? named index usage

namespace TypeDefinition.NamesParent

variable {metadata : Metadata} {names : BuildNames} {index : Index .typeDefinitions}
  {context : GenericContext} {definition : TypeDefinition} {parent? : Option String}
  {state : ResolutionState}

theorem hasParent {baseNames : Index .typeDefinitions → String}
    (namesParent : definition.NamesParent metadata names index context parent? state)
    (givesNames : state.GivesNames baseNames) :
    definition.HasParent metadata baseNames names.tables index context parent? := by
  unfold NamesParent at namesParent
  unfold HasParent
  by_cases isValue : definition.isValueType || definition.isEnum
  · rwa [if_pos isValue] at namesParent ⊢
  · rw [if_neg isValue] at namesParent ⊢
    cases isType : definition.parent.present? with
    | none => rwa [isType] at namesParent
    | some type =>
      rw [isType] at namesParent
      obtain ⟨named, usage, faithful, extend, done, rfl⟩ := namesParent
      have known := faithful.usages _ usage done
      refine ⟨named.usageTree usage, Metadata.expands_normal.mp known.expands, ?_⟩
      rw [ResolutionState.core_usageTree]
      exact names.parentOf?_eq faithful (givesNames.of_extends faithful extend) known.stored

theorem isParent {emits : String → Prop}
    (namesParent : definition.NamesParent metadata names index context parent? state)
    (closed : names.Closed metadata emits) :
    definition.IsParent metadata emits context parent? := by
  rintro name ⟨⟩
  unfold NamesParent at namesParent
  split at namesParent
  next => cases namesParent
  next =>
    split at namesParent
    next => cases namesParent
    next type isType =>
      obtain ⟨named, usage, faithful, -, done, isParent⟩ := namesParent
      have known := faithful.usages _ usage done
      refine ⟨type, named.usageTree usage, isType, Metadata.expands_normal.mp known.expands, ?_⟩
      rw [ResolutionState.core_usageTree]
      exact closed.names_parentOf? faithful known.stored isParent.symm

end TypeDefinition.NamesParent

end ManagedLayout

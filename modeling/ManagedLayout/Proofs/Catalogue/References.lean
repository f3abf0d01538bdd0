import ManagedLayout.Catalogue.Members
import ManagedLayout.Proofs.Catalogue.InstanceNames

/-!
# The names by which layouts are referred to

A parent, or the type of a field, is the name of a layout, with the arrays and pointers of the type
behind it. Which name that is depends on what is left of the type without them. The names come from
the tables of the earlier passes, and each of them leads to a layout.
-/

namespace ManagedLayout

namespace TypeTree

/-- How many arrays are around what a type is made of. -/
def arrayLevels : TypeTree → Nat
  | pointer pointee => pointee.arrayLevels
  | array _ element => element.arrayLevels + 1
  | _ => 0

/-- How many pointers are around the outermost array, or around the type if it is no array. -/
def outerPointers : TypeTree → Nat
  | pointer pointee => pointee.outerPointers + 1
  | _ => 0

/-- Whether a value of the type, apart from the declared pointers, is itself a pointer. -/
def isReference (metadata : Metadata) : TypeTree → Bool
  | builtin _ => false
  | parameter _ | array .. => true
  | definition index _ | instantiation _ index _ _ =>
    match metadata.typeDefinition index with
    | .ok record => !record.isValueType
    | .error _ => true
  | pointer pointee => pointee.isReference metadata

/-- The C type of a field of a type that is referred to by a name. -/
def fieldType (metadata : Metadata) (tree : TypeTree) (name : String) : String :=
  name ++ String.join (List.replicate tree.arrayLevels "_array") ++
    asterisks (tree.outerPointers + (tree.isReference metadata).toNat)

/-- Whether a type is a definition, or an instantiation of one. -/
def isDeclared : TypeTree → Bool
  | definition .. | instantiation .. => true
  | _ => false

/-- A name is one by which a type without arrays and pointers is referred to, where `emits` tells
the names of layouts. -/
def Names (metadata : Metadata) (emits : String → Prop) (name : String) : TypeTree → Prop
  | builtin kind => emits name ∨ ∃ spelling, kind.builtin? = some spelling ∧ name = spelling.keyword
  | parameter _ => name = "Il2CppObject"
  | definition index _ => metadata.Claimed index → emits name
  | instantiation .. => emits name
  | pointer _ | array .. => False

/-- The C type of a field is as its type says. -/
def IsTypeName (metadata : Metadata) (emits : String → Prop) (tree : TypeTree)
    (typeName : String) : Prop :=
  match tree.core, tree.arrayLevels with
  | builtin kind, 0 =>
    ∃ spelling, kind.builtin? = some spelling ∧ typeName = tree.fieldType metadata spelling.cType
  | core, _ => ∃ name, core.Names metadata emits name ∧ typeName = tree.fieldType metadata name

/-- Unless a type is built in and no array, the C type is made of a name by which it is referred
to. -/
theorem isTypeName_fieldType {metadata : Metadata} {emits : String → Prop} {tree : TypeTree}
    {name : String} (names : tree.core.Names metadata emits name)
    (named : tree.arrayLevels = 0 → ∀ kind, tree.core ≠ builtin kind) :
    tree.IsTypeName metadata emits (tree.fieldType metadata name) := by
  unfold IsTypeName
  split
  next kind isCore noArrays => exact absurd isCore (named noArrays kind)
  next => exact ⟨name, names, rfl⟩

theorem isTypeName_fieldType_builtin {metadata : Metadata} {emits : String → Prop}
    {tree : TypeTree} {kind : TypeKind} {spelling : TypeKind.Builtin}
    (isCore : tree.core = builtin kind) (noArrays : tree.arrayLevels = 0)
    (isSpelling : kind.builtin? = some spelling) :
    tree.IsTypeName metadata emits (tree.fieldType metadata spelling.cType) := by
  simp only [IsTypeName, isCore, noArrays]
  exact ⟨spelling, isSpelling, rfl⟩

@[simp]
theorem arrayLevels_pointers (tree : TypeTree) (count : Nat) :
    (tree.pointers count).arrayLevels = tree.arrayLevels := by
  induction count with
  | zero => rfl
  | succ count ih => exact ih

theorem outerPointers_pointers (tree : TypeTree) (count : Nat) :
    (tree.pointers count).outerPointers = tree.outerPointers + count := by
  induction count with
  | zero => rfl
  | succ count ih => exact congrArg Nat.succ ih

theorem isReference_pointers (metadata : Metadata) (tree : TypeTree) (count : Nat) :
    (tree.pointers count).isReference metadata = tree.isReference metadata := by
  induction count with
  | zero => rfl
  | succ count ih => exact ih

end TypeTree

namespace Usage

variable {usage : Usage} {tree : TypeTree} {metadata : Metadata}

theorem arrayLevels_around (bare : tree.arrayLevels = 0) :
    (usage.around tree).arrayLevels = usage.arrays.length := by
  have arrayLevels_foldl (levels : List ArrayLevel) : ∀ element : TypeTree,
      (levels.foldl
        (fun element level ↦ .array level.shape (element.pointers level.elementIndirection))
        element).arrayLevels = element.arrayLevels + levels.length := by
    induction levels with
    | nil => exact fun _ ↦ rfl
    | cons level rest ih =>
      intro element
      rw [List.foldl_cons, ih, TypeTree.arrayLevels, TypeTree.arrayLevels_pointers,
        List.length_cons]
      omega
  rw [around, TypeTree.arrayLevels_pointers, arrayLevels_foldl, bare, Nat.zero_add]

/-- An array is around everything, or nothing is. -/
theorem around_of_isArray (isArray : usage.isArray) (tree : TypeTree) :
    ∃ shape element, usage.around tree = (TypeTree.array shape element).pointers usage.indirection := by
  obtain ⟨descriptor, indirection, arrays⟩ := usage
  obtain rfl | ⟨inner, outer, rfl⟩ := arrays.eq_nil_or_concat'
  · simp [Usage.isArray] at isArray
  · exact ⟨outer.shape, _, by rw [around, List.foldl_append]; rfl⟩

theorem around_of_not_isArray (notArray : usage.isArray = false) :
    usage.around tree = tree.pointers usage.indirection := by
  have noArrays : usage.arrays = [] := by simpa [isArray] using notArray
  rw [around, noArrays, List.foldl_nil]

end Usage

namespace ResolutionState

variable {state : ResolutionState} {metadata : Metadata} {id : DescriptorId}
  {descriptor : Descriptor} {definition : Index .typeDefinitions}
  {genericClass : Index .genericClasses}

@[simp]
theorem arrayLevels_descriptorTree : (state.descriptorTree id).arrayLevels = 0 := by
  rw [descriptorTree]
  split <;> rfl

@[simp]
theorem outerPointers_descriptorTree : (state.descriptorTree id).outerPointers = 0 := by
  rw [descriptorTree]
  split <;> rfl

theorem exists_descriptorTree_definition
    (found : state.descriptors[id.position]? = some descriptor)
    (isDefinition : descriptor.kind = .definition definition) :
    ∃ declaring?, state.descriptorTree id = .definition definition declaring? := by
  rw [descriptorTree, descriptor_eq found]
  simp only [isDefinition]
  exact ⟨_, rfl⟩

theorem exists_descriptorTree_instantiation
    (found : state.descriptors[id.position]? = some descriptor)
    (isInstantiation : descriptor.kind = .instantiation genericClass definition) :
    ∃ declaring? arguments,
      state.descriptorTree id = .instantiation genericClass definition declaring? arguments := by
  rw [descriptorTree, descriptor_eq found]
  simp only [isInstantiation]
  exact ⟨_, _, rfl⟩

/-- A definition is a value type if its record says so. -/
theorem Faithful.isReference_definition (faithful : state.Faithful metadata)
    (found : state.descriptors[id.position]? = some descriptor)
    (isDefinition : descriptor.kind = .definition definition) :
    (state.descriptorTree id).isReference metadata = !descriptor.isValueType := by
  obtain ⟨record, declared⟩ := faithful.declaredBy_definition found isDefinition
  obtain ⟨declaring?, isTree⟩ := exists_descriptorTree_definition found isDefinition
  simp only [isTree, TypeTree.isReference, declared.isRecord, declared.isValueType_eq]

theorem Faithful.isReference_instantiation (faithful : state.Faithful metadata)
    (found : state.descriptors[id.position]? = some descriptor)
    (isInstantiation : descriptor.kind = .instantiation genericClass definition) :
    (state.descriptorTree id).isReference metadata = !descriptor.isValueType := by
  obtain ⟨_, _, record, declared⟩ := faithful.declaredBy_instantiation found isInstantiation
  obtain ⟨declaring?, arguments, isTree⟩ :=
    exists_descriptorTree_instantiation found isInstantiation
  simp only [isTree, TypeTree.isReference, declared.isRecord, declared.isValueType_eq]

end ResolutionState

namespace BuildNames

/-- Every name in the tables is that of a layout, and what needs a name has one. -/
structure Closed (metadata : Metadata) (emits : String → Prop) (names : BuildNames) : Prop where
  displayNames : ∀ (definition : Index .typeDefinitions) name,
    names.definitions.displayNames[definition]? = some name → emits name
  builtinNames : ∀ (kind : TypeKind) name,
    names.definitions.builtinNames[kind]? = some name → emits name
  structNames : ∀ name, names.instances.structNames.contains name → emits name
  instanceNames : ∀ (genericClass : Index .genericClasses) name,
    names.instances.names[genericClass]? = some name → emits name
  claimed : ∀ definition, metadata.Claimed definition →
    names.definitions.displayNames[definition]?.isSome
  used : ∀ genericClass definition, metadata.UsesClass genericClass →
    metadata.openDefinition? genericClass = .ok (some definition) →
    names.instances.names[genericClass]?.isSome

variable {names : BuildNames} {metadata : Metadata} {emits : String → Prop}
  {state : ResolutionState} {usage : Usage}

/-- The name that a usage is referred to by fits its type. -/
theorem Closed.names_structName (closed : names.Closed metadata emits)
    (faithful : state.Faithful metadata)
    (stored : usage.descriptor.position < state.descriptors.size) :
    (state.descriptorTree usage.descriptor).Names metadata emits (names.structName state usage) := by
  have found := Array.getElem?_eq_getElem stored
  have describes := faithful.descriptors usage.descriptor _ found
  generalize state.descriptors[usage.descriptor.position] = descriptor at found describes
  simp only [structName, ResolutionState.descriptor_eq found]
  cases isKind : descriptor.kind with
  | builtin kind =>
    simp only [ResolutionState.Describes, isKind] at describes
    obtain ⟨spelling, isSpelling, rfl⟩ := describes
    dsimp only
    rw [ResolutionState.descriptorTree_builtin found isKind, Std.TreeMap.getD_eq_getD_getElem?]
    cases isName : names.definitions.builtinNames[kind]? with
    | none => exact .inr ⟨spelling, isSpelling, rfl⟩
    | some name => exact .inl (closed.builtinNames kind name isName)
  | parameter parameter =>
    rw [ResolutionState.descriptorTree_parameter found isKind]
    rfl
  | definition definition =>
    obtain ⟨declaring?, isTree⟩ := ResolutionState.exists_descriptorTree_definition found isKind
    dsimp only
    rw [isTree, Std.TreeMap.getD_eq_getD_getElem?]
    intro isClaimed
    obtain ⟨name, isName⟩ := Option.isSome_iff_exists.mp (closed.claimed definition isClaimed)
    rw [isName]
    exact closed.displayNames definition name isName
  | instantiation genericClass definition =>
    simp only [ResolutionState.Describes, isKind] at describes
    obtain ⟨used, isOpen, -⟩ := describes
    obtain ⟨declaring?, arguments, isTree⟩ :=
      ResolutionState.exists_descriptorTree_instantiation found isKind
    dsimp only
    rw [isTree]
    split
    next name isName => exact closed.structNames name (Option.filter_eq_some_iff.mp isName).2
    next =>
      obtain ⟨name, isName⟩ :=
        Option.isSome_iff_exists.mp (closed.used genericClass definition used isOpen)
      rw [Std.TreeMap.getD_eq_getD_getElem?, isName]
      exact closed.instanceNames genericClass name isName

/-- The C type of an array is a pointer to what its elements are made of. -/
theorem fieldTypeName_of_isArray (isArray : usage.isArray) (metadata : Metadata) :
    names.fieldTypeName state usage =
      (state.usageTree usage).fieldType metadata (names.structName state usage) := by
  have levels : (state.usageTree usage).arrayLevels = usage.arrays.length :=
    Usage.arrayLevels_around ResolutionState.arrayLevels_descriptorTree
  obtain ⟨shape, element, isTree⟩ :=
    Usage.around_of_isArray isArray (state.descriptorTree usage.descriptor)
  rw [TypeTree.fieldType, levels, ResolutionState.usageTree, isTree,
    TypeTree.outerPointers_pointers, TypeTree.isReference_pointers]
  simp [fieldTypeName, isArray, TypeTree.outerPointers, TypeTree.isReference, asterisks_succ,
    String.append_assoc]

/-- Without arrays, the C type has the declared pointers, and one more if values are references. -/
theorem fieldType_of_not_isArray (notArray : usage.isArray = false) (name : String) :
    (state.usageTree usage).fieldType metadata name =
      name ++ (if (state.descriptorTree usage.descriptor).isReference metadata then "*" else "") ++
        asterisks usage.indirection := by
  rw [TypeTree.fieldType, ResolutionState.usageTree, Usage.around_of_not_isArray notArray,
    TypeTree.outerPointers_pointers, TypeTree.isReference_pointers, TypeTree.arrayLevels_pointers,
    ResolutionState.arrayLevels_descriptorTree, ResolutionState.outerPointers_descriptorTree]
  cases (state.descriptorTree usage.descriptor).isReference metadata <;>
    simp [asterisks_succ, String.append_assoc]

theorem isTypeName_of_not_isArray {name : String} (notArray : usage.isArray = false)
    (named : (state.descriptorTree usage.descriptor).Names metadata emits name)
    (notBuiltin : ∀ kind, state.descriptorTree usage.descriptor ≠ .builtin kind) :
    (state.usageTree usage).IsTypeName metadata emits
      (name ++ (if (state.descriptorTree usage.descriptor).isReference metadata then "*" else "") ++
        asterisks usage.indirection) := by
  rw [← fieldType_of_not_isArray notArray]
  rw [← ResolutionState.core_usageTree] at named notBuiltin
  exact TypeTree.isTypeName_fieldType named fun _ ↦ notBuiltin

theorem isTypeName_of_builtin {kind : TypeKind} {spelling : TypeKind.Builtin}
    (notArray : usage.isArray = false)
    (isBuiltin : state.descriptorTree usage.descriptor = .builtin kind)
    (isSpelling : kind.builtin? = some spelling) :
    (state.usageTree usage).IsTypeName metadata emits
      (spelling.cType ++ asterisks usage.indirection) := by
  have noArrays : usage.arrays.length = 0 := by
    simpa [Usage.isArray] using notArray
  have levels : (state.usageTree usage).arrayLevels = usage.arrays.length :=
    Usage.arrayLevels_around ResolutionState.arrayLevels_descriptorTree
  have isCore := ResolutionState.core_usageTree.trans isBuiltin
  have isFieldType : (state.usageTree usage).fieldType metadata spelling.cType =
      spelling.cType ++ asterisks usage.indirection := by
    rw [fieldType_of_not_isArray notArray, isBuiltin]
    simp [TypeTree.isReference]
  rw [← isFieldType]
  exact TypeTree.isTypeName_fieldType_builtin isCore (levels.trans noArrays) isSpelling

/-- The C type of a field is as the type of the field says. -/
theorem Closed.isTypeName_fieldTypeName (closed : names.Closed metadata emits)
    (faithful : state.Faithful metadata)
    (stored : usage.descriptor.position < state.descriptors.size) :
    (state.usageTree usage).IsTypeName metadata emits (names.fieldTypeName state usage) := by
  have named := closed.names_structName faithful stored
  cases isArray : usage.isArray with
  | true =>
    rw [fieldTypeName_of_isArray isArray metadata]
    rw [← ResolutionState.core_usageTree] at named
    apply TypeTree.isTypeName_fieldType named
    intro noArrays
    rw [ResolutionState.usageTree,
      Usage.arrayLevels_around ResolutionState.arrayLevels_descriptorTree] at noArrays
    simp [Usage.isArray, List.eq_nil_of_length_eq_zero noArrays] at isArray
  | false =>
    have found := Array.getElem?_eq_getElem stored
    have describes := faithful.descriptors usage.descriptor _ found
    generalize state.descriptors[usage.descriptor.position] = descriptor at found describes
    simp only [fieldTypeName, isArray, ResolutionState.descriptor_eq found]
    cases isKind : descriptor.kind with
    | builtin kind =>
      simp only [ResolutionState.Describes, isKind] at describes
      obtain ⟨spelling, isSpelling, -⟩ := describes
      have isTree := ResolutionState.descriptorTree_builtin found isKind
      simpa [isSpelling] using isTypeName_of_builtin isArray isTree isSpelling
    | parameter parameter =>
      have isTree := ResolutionState.descriptorTree_parameter found isKind
      have isName : (state.descriptorTree usage.descriptor).Names metadata emits "Il2CppObject" := by
        rw [isTree]
        rfl
      have isTypeName := isTypeName_of_not_isArray isArray isName (by simp [isTree])
      rwa [isTree] at isTypeName
    | definition definition =>
      obtain ⟨declaring?, isTree⟩ := ResolutionState.exists_descriptorTree_definition found isKind
      have isTypeName := isTypeName_of_not_isArray isArray named (by simp [isTree])
      rw [faithful.isReference_definition found isKind] at isTypeName
      cases isValueType : descriptor.isValueType <;> simpa [isValueType] using isTypeName
    | instantiation genericClass definition =>
      obtain ⟨declaring?, arguments, isTree⟩ :=
        ResolutionState.exists_descriptorTree_instantiation found isKind
      have isTypeName := isTypeName_of_not_isArray isArray named (by simp [isTree])
      rw [faithful.isReference_instantiation found isKind] at isTypeName
      cases isValueType : descriptor.isValueType <;> simpa [isValueType] using isTypeName

end BuildNames

end ManagedLayout

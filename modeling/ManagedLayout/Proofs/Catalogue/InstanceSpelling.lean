import ManagedLayout.Proofs.Catalogue.Build
import ManagedLayout.Proofs.Resolution.TreeSpelling
import ManagedLayout.Proofs.Text.Replace

/-!
# Spellings of instantiations

The name of an instantiation is made of the display name of its definition and of the spellings of
its arguments. From the tables of a build, and the state in which they were made, it is read back
what the arguments are, and what the display name shows of the definition.
-/

namespace ManagedLayout

/-- What a generic class that is used stands for: a definition and the types of its arguments. -/
structure Metadata.Instantiates (metadata : Metadata) (genericClass : Index .genericClasses)
    (definition : Index .typeDefinitions) (arguments : List TypeTree) : Prop where
  used : metadata.UsesClass genericClass
  isOpen : metadata.openDefinition? genericClass = .ok (some definition)
  expands : ∃ types, metadata.classArguments genericClass = .ok types ∧
    List.Forall₂ (fun type tree ↦ metadata.Expands ⟨type, .empty, .name⟩ tree) types arguments

namespace Metadata

variable {metadata : Metadata} {genericClass : Index .genericClasses}
  {definition other : Index .typeDefinitions} {arguments otherArguments : List TypeTree}

/-- A generic class stands for one definition with one list of arguments. -/
theorem Instantiates.unique (first : metadata.Instantiates genericClass definition arguments)
    (second : metadata.Instantiates genericClass other otherArguments) :
    definition = other ∧ arguments = otherArguments := by
  have same := Except.ok.inj (first.isOpen.symm.trans second.isOpen)
  refine ⟨Option.some.inj same, ?_⟩
  obtain ⟨types, areTypes, expand⟩ := first.expands
  obtain ⟨otherTypes, areOtherTypes, otherExpand⟩ := second.expands
  obtain rfl := Except.ok.inj (areTypes.symm.trans areOtherTypes)
  exact expands_right_unique expand otherExpand

/-- What a generic class stands for is found by expanding its arguments. -/
theorem Instantiates.of_trees {reference : TypeReference} {types : List (Index .types)}
    (type : Index .types) (layers : Nat) (isReference : metadata.typeReference type = .ok reference)
    (isKind : reference.kind = .genericInstance)
    (isData : reference.data = .genericClass genericClass)
    (isOpen : metadata.openDefinition? genericClass = .ok (some definition))
    (areTypes : metadata.classArguments genericClass = .ok types)
    (areTrees : (types.mapM fun type ↦ metadata.treeWithin layers ⟨type, .empty, .name⟩) =
      .ok arguments) : metadata.Instantiates genericClass definition arguments where
  used := ⟨type, reference, isReference, isKind, isData⟩
  isOpen := isOpen
  expands := ⟨types, areTypes, (lookup_mapM_eq_ok.mp areTrees).imp fun _ _ isTree ↦ ⟨layers, isTree⟩⟩

/-- A class or value type expands to its definition. -/
theorem Expands.exists_eq_definition {type : Index .types} {reference : TypeReference}
    {tree : TypeTree} (expands : metadata.Expands ⟨type, .empty, .name⟩ tree)
    (isReference : metadata.typeReference type = .ok reference)
    (isKind : reference.kind = .classType ∨ reference.kind = .valueType)
    (isDefinition : metadata.definitionOf type = .ok definition) :
    ∃ declaring?, tree = .definition definition declaring? := by
  obtain ⟨layer, layers, isLayer, assembled⟩ := expands.exists_layer
  rw [layer_of_recipe (RecipeCase.recipe_eq isReference (.definition isKind isDefinition rfl))]
    at isLayer
  simp only [recipeLayer, lookup_bind_eq_ok, lookup_pure_eq_ok] at isLayer
  obtain ⟨declaring?, -, rfl⟩ := isLayer
  simp only [TypeLayer.tree, lookup_bind_eq_ok, lookup_pure_eq_ok] at assembled
  obtain ⟨declaringTree?, -, rfl⟩ := assembled
  exact ⟨declaringTree?, rfl⟩

/-- A type reference that uses a generic class expands to what the class stands for. -/
theorem Expands.instantiates {type : Index .types} {reference : TypeReference} {tree : TypeTree}
    (expands : metadata.Expands ⟨type, .empty, .name⟩ tree)
    (isReference : metadata.typeReference type = .ok reference)
    (isKind : reference.kind = .genericInstance)
    (isData : reference.data = .genericClass genericClass)
    (isOpen : metadata.openDefinition? genericClass = .ok (some definition)) :
    ∃ declaring? arguments, tree = .instantiation genericClass definition declaring? arguments ∧
      metadata.Instantiates genericClass definition arguments := by
  obtain ⟨layer, layers, isLayer, assembled⟩ := expands.exists_layer
  rw [layer_of_recipe (RecipeCase.recipe_eq isReference (.instantiation isKind isData isOpen rfl))]
    at isLayer
  simp only [recipeLayer, lookup_bind_eq_ok, lookup_pure_eq_ok] at isLayer
  obtain ⟨declaring?, -, types, areTypes, rfl⟩ := isLayer
  simp only [TypeLayer.tree, lookup_bind_eq_ok, lookup_pure_eq_ok] at assembled
  obtain ⟨declaringTree?, -, arguments, areArguments, rfl⟩ := assembled
  rw [lookup_mapM_eq_ok, List.forall₂_map_left_iff] at areArguments
  exact ⟨declaringTree?, arguments, rfl, ⟨type, reference, isReference, isKind, isData⟩, isOpen,
    types, areTypes, areArguments.imp fun _ _ expanded ↦ ⟨layers, expanded⟩⟩

end Metadata

/-- The name of an instantiation: the display name of its definition with the arguments in place of
the parameters, or, if the definition is not shown there, the name of its own. -/
def instanceText (displayName? : Option String) (owner base : String)
    (parameters arguments : List String) : String :=
  (displayName?.bind
    (Text.replaced? (base ++ angled parameters) (base ++ angled arguments))).getD
      (owner ++ (base ++ angled arguments))

section InstanceText

variable {displayName? : Option String} {owner base before after : String}
  {parameters arguments first second : List String}

/-- Instantiations of one definition have the same name if their arguments are spelled alike. -/
theorem instanceText_inj :
    instanceText displayName? owner base parameters first =
        instanceText displayName? owner base parameters second ↔
      angled first = angled second := by
  constructor
  · intro same
    have plain (same : owner ++ (base ++ angled first) = owner ++ (base ++ angled second)) :
        angled first = angled second :=
      String.append_right_inj base |>.mp (String.append_right_inj owner |>.mp same)
    unfold instanceText at same
    cases displayName? with
    | none => exact plain same
    | some name =>
      rw [Option.bind_some, Option.bind_some] at same
      by_cases occurs : Text.occursIn (base ++ angled parameters).toList name.toList
      · have isShown (arguments : List String) : ∃ result, Text.replaced?
            (base ++ angled parameters) (base ++ angled arguments) name = some result :=
          ⟨_, if_pos occurs⟩
        obtain ⟨firstName, isFirst⟩ := isShown first
        obtain ⟨secondName, isSecond⟩ := isShown second
        rw [isFirst, isSecond] at same
        have sameName : firstName = secondName := same
        rw [← Option.some_inj, ← isFirst, ← isSecond, Text.replaced?_inj occurs] at sameName
        exact String.append_right_inj base |>.mp sameName
      · simp only [Text.replaced?, if_neg occurs, Option.getD_none] at same
        exact plain same
  · intro same
    rw [instanceText, instanceText, same]

/-- With its parameters for arguments, a definition that is shown has its display name. -/
theorem instanceText_parameters :
    instanceText (some (before ++ (base ++ angled parameters) ++ after)) owner base parameters
        parameters = before ++ (base ++ angled parameters) ++ after := by
  have occurs := Text.occursIn_append before.toList (base ++ angled parameters).toList after.toList
  rw [← String.toList_append, ← String.toList_append] at occurs
  rw [instanceText, Option.bind_some, Text.replaced?_self occurs, Option.getD_some]

theorem exists_angled_eq (some_parameters : parameters ≠ []) :
    ∃ rest, (angled parameters).toList = '<' :: rest := by
  simp [angled, some_parameters]

/-- A display name with one pair of brackets is that of an instantiation with other arguments in
them. -/
theorem instanceText_of_bracket (inBefore : '<' ∉ before.toList) (inBase : '<' ∉ base.toList)
    (inAfter : '<' ∉ after.toList) (some_parameters : parameters ≠ []) :
    instanceText (some (before ++ (base ++ angled parameters) ++ after)) owner base parameters
        arguments = before ++ (base ++ angled arguments) ++ after := by
  obtain ⟨rest, isAngled⟩ := exists_angled_eq some_parameters
  have isPattern : (base ++ angled parameters).toList = base.toList ++ '<' :: rest := by
    rw [String.toList_append, isAngled]
  rw [instanceText, Option.bind_some,
    Text.replaced?_of_mark isPattern inBase inBefore inAfter, Option.getD_some]

end InstanceText

namespace ResolutionState

variable {state : ResolutionState} {metadata : Metadata} {id : DescriptorId}
  {definition : Index .typeDefinitions} {declaring? : Option TypeTree}

/-- What is declared has no arrays and pointers around it. -/
theorem eq_plain_of_isDeclared {usage : Usage}
    (isDeclared : (state.usageTree usage).isDeclared) : usage = .plain usage.descriptor := by
  have bare : (state.usageTree usage).arrayLevels = 0 ∧
      (state.usageTree usage).outerPointers = 0 := by
    cases isTree : state.usageTree usage with
    | definition => exact ⟨rfl, rfl⟩
    | instantiation => exact ⟨rfl, rfl⟩
    | _ => simp [isTree, TypeTree.isDeclared] at isDeclared
  rw [usageTree] at bare
  have isEmpty : usage.arrays = [] := by
    rw [← List.length_eq_zero_iff, ← Usage.arrayLevels_around arrayLevels_descriptorTree]
    exact bare.1
  have noPointers : usage.indirection = 0 := by
    rw [Usage.around_of_not_isArray (by simp [Usage.isArray, isEmpty]),
      TypeTree.outerPointers_pointers] at bare
    omega
  obtain ⟨descriptor, indirection, arrays⟩ := usage
  obtain rfl : indirection = 0 := noPointers
  obtain rfl : arrays = [] := isEmpty
  rfl

/-- The descriptor of a definition is the one that was made of it. -/
theorem Faithful.done_of_descriptorTree (faithful : state.Faithful metadata)
    (stored : id.position < state.descriptors.size)
    (isTree : state.descriptorTree id = .definition definition declaring?) :
    state.definitions[definition]? = some (.done id) := by
  have found := Array.getElem?_eq_getElem stored
  generalize state.descriptors[id.position] = descriptor at found
  have isKind := kind_of_descriptorTree_definition found isTree
  obtain ⟨record, declared⟩ := faithful.declaredBy_definition found isKind
  exact declared.done

/-- What a type reference that uses a generic class has been resolved to is spelled as the
definition, but with the arguments. -/
theorem Faithful.exists_spelled {type : Index .types} {reference : TypeReference}
    {genericClass : Index .genericClasses} {usage : Usage}
    {baseNames : Index .typeDefinitions → String} (faithful : state.Faithful metadata)
    (isReference : metadata.typeReference type = .ok reference)
    (isKind : reference.kind = .genericInstance)
    (isData : reference.data = .genericClass genericClass)
    (isOpen : metadata.openDefinition? genericClass = .ok (some definition))
    (known : state.usages[metadata.normal ⟨type, .empty, .name⟩]? = some (.done usage))
    (givesNames : state.GivesNames baseNames) :
    ∃ arguments, metadata.Instantiates genericClass definition arguments ∧
      usage = .plain usage.descriptor ∧
      state.ownerText usage.descriptor true = state.definitionOwner definition ∧
      state.bareText usage.descriptor = baseNames definition ++
        angled (arguments.map (TypeTree.spelling metadata baseNames)) := by
  have ⟨stored, expands, _⟩ := faithful.usages _ usage known
  obtain ⟨declaring?, arguments, isTree, instantiates⟩ :=
    (Metadata.expands_normal.mp expands).instantiates isReference isKind isData isOpen
  have isPlain := state.eq_plain_of_isDeclared (congrArg TypeTree.isDeclared isTree)
  rw [isPlain, usageTree_plain] at isTree
  exact ⟨arguments, instantiates, isPlain, faithful.spelled_instantiation givesNames stored isTree⟩

/-- What a type reference that uses a generic class has been resolved to is in the namespace of the
definition. -/
theorem Faithful.rootNamespace_eq {type : Index .types} {reference : TypeReference}
    {genericClass : Index .genericClasses} {usage : Usage} {openId : DescriptorId}
    (faithful : state.Faithful metadata)
    (isReference : metadata.typeReference type = .ok reference)
    (isKind : reference.kind = .genericInstance)
    (isData : reference.data = .genericClass genericClass)
    (isOpen : metadata.openDefinition? genericClass = .ok (some definition))
    (known : state.usages[metadata.normal ⟨type, .empty, .name⟩]? = some (.done usage))
    (done : state.definitions[definition]? = some (.done openId)) :
    state.rootNamespace usage.descriptor = state.rootNamespace openId := by
  have ⟨stored, expands, _⟩ := faithful.usages _ usage known
  obtain ⟨declaring?, arguments, isTree, -⟩ :=
    (Metadata.expands_normal.mp expands).instantiates isReference isKind isData isOpen
  have isPlain := state.eq_plain_of_isDeclared (congrArg TypeTree.isDeclared isTree)
  rw [isPlain, usageTree_plain] at isTree
  have found := Array.getElem?_eq_getElem stored
  generalize state.descriptors[usage.descriptor.position] = descriptor at found
  obtain ⟨ownId, openDescriptor, record, declared⟩ := faithful.declaredBy_instantiation found
    (kind_of_descriptorTree_instantiation found isTree)
  obtain rfl : ownId = openId := by simpa [declared.done] using done
  exact declared.rootNamespace_eq found

end ResolutionState

/-- A type reference is built in, or refers to a definition as a class or value type. -/
def Metadata.RefersTo (metadata : Metadata) (type : Index .types)
    (definition : Index .typeDefinitions) : Prop :=
  ∀ reference, metadata.typeReference type = .ok reference →
    reference.kind.isBuiltin = true ∨ (reference.kind = .classType ∨ reference.kind = .valueType) ∧
      metadata.definitionOf type = .ok definition

/-- What stands for a definition refers to the definition itself. -/
def Linkage.NamesItself (linkage : Linkage) (definition : Index .typeDefinitions) : Prop :=
  ∀ type, linkage.typeForDefinition? definition = .ok (some type) →
    linkage.metadata.RefersTo type definition

namespace Linkage

variable {linkage : Linkage} {state : ResolutionState} {definition : Index .typeDefinitions}
  {usage : Usage}

/-- The first type reference that stands for a definition refers to it. -/
theorem definitionOf_of_typesByDefinition {metadata : Metadata} {type : Index .types}
    {types : Std.TreeMap (Index .typeDefinitions) (Index .types)}
    (areTypes : typesByDefinition metadata = .ok types) (isType : types[definition]? = some type) :
    ∃ reference, (type, reference) ∈ metadata.registrations.types.types.indexed ∧
      reference.namesDefinition ∧ metadata.definitionOf type = .ok definition := by
  -- The induction is on the type references, whatever has been collected before them.
  have collected (pairs : List (Index .types × TypeReference)) :
      ∀ before : Std.TreeMap (Index .typeDefinitions) (Index .types),
        pairs.foldlM (collectType metadata) before = .ok types →
          before[definition]? = some type ∨ ∃ reference, (type, reference) ∈ pairs ∧
            reference.namesDefinition ∧ metadata.definitionOf type = .ok definition := by
    induction pairs with
    | nil =>
      intro before areTypes
      obtain rfl := lookup_pure_eq_ok.mp areTypes
      exact .inl isType
    | cons pair rest ih =>
      intro before areTypes
      obtain ⟨candidate, reference⟩ := pair
      rw [List.foldlM_cons, lookup_bind_eq_ok] at areTypes
      obtain ⟨middle, isMiddle, areTypes⟩ := areTypes
      obtain found | ⟨listed, mem, refers⟩ := ih middle areTypes
      · unfold collectType at isMiddle
        split at isMiddle
        next named =>
          obtain ⟨other, isOther, inserted⟩ := lookup_bind_eq_ok.mp isMiddle
          obtain rfl := lookup_pure_eq_ok.mp inserted
          rw [Std.TreeMap.getElem?_insertIfNew] at found
          split at found
          next isNew =>
            obtain rfl := Option.some.inj found
            obtain rfl := Std.LawfulEqCmp.compare_eq_iff_eq.mp isNew.1
            exact .inr ⟨reference, List.mem_cons_self, named, isOther⟩
          next => exact .inl found
        next =>
          obtain rfl := lookup_pure_eq_ok.mp isMiddle
          exact .inl found
      · exact .inr ⟨listed, List.mem_cons_of_mem _ mem, refers⟩
  exact (collected _ ∅ areTypes).resolve_left (by simp)

/-- A definition names itself, unless its record names a type reference that refers to something
else. -/
theorem namesItself_of_ownType {metadata : Metadata} (linked : ofMetadata metadata = .ok linkage)
    (addressable : metadata.Addressable)
    (ownType : ∀ record type, metadata.typeDefinition definition = .ok record →
      record.ownType.present? = some type → metadata.RefersTo type definition) :
    linkage.NamesItself definition := by
  obtain ⟨types, areTypes, isLinkage⟩ := lookup_bind_eq_ok.mp linked
  obtain rfl := lookup_pure_eq_ok.mp isLinkage
  intro type isType
  obtain ⟨record, isRecord, isType⟩ := lookup_bind_eq_ok.mp isType
  split at isType
  next own isOwn =>
    obtain ⟨_, _, isType⟩ := lookup_bind_eq_ok.mp isType
    obtain rfl := Option.some.inj (lookup_pure_eq_ok.mp isType)
    exact ownType record own isRecord isOwn
  next =>
    intro reference isReference
    obtain ⟨listed, mem, named, isDefinition⟩ :=
      definitionOf_of_typesByDefinition areTypes (lookup_pure_eq_ok.mp isType)
    have isListed := Table.fetch_eq_ok_iff.mpr (Table.get?_of_mem_indexed addressable mem)
    obtain rfl : reference = listed := Except.ok.inj (isReference.symm.trans isListed)
    right
    simp only [TypeReference.namesDefinition, Bool.and_eq_true, Bool.or_eq_true, beq_iff_eq] at named
    exact ⟨named.2, isDefinition⟩

/-- A definition that names itself is used as its own descriptor. -/
theorem StandsFor.plain (standsFor : linkage.StandsFor definition .name usage state)
    (faithful : state.Faithful linkage.metadata) (namesItself : linkage.NamesItself definition) :
    ∃ id, usage = .plain id ∧ state.definitions[definition]? = some (.done id) := by
  obtain isPlain | ⟨type, reference, isType, isReference, notBuiltin, known⟩ := standsFor
  · exact isPlain
  · obtain isBuiltin | ⟨isKind, isDefinition⟩ := namesItself type isType reference isReference
    · exact absurd isBuiltin (by simp [notBuiltin])
    · obtain ⟨stored, expands, -⟩ := faithful.usages _ usage known
      obtain ⟨declaring?, isTree⟩ := (Metadata.expands_normal.mp expands).exists_eq_definition
        isReference isKind isDefinition
      have isPlain := state.eq_plain_of_isDeclared (congrArg TypeTree.isDeclared isTree)
      refine ⟨usage.descriptor, isPlain, ?_⟩
      rw [isPlain, ResolutionState.usageTree_plain] at isTree
      exact faithful.done_of_descriptorTree stored isTree

end Linkage

theorem isDigit_of_mem_toString {number : Nat} {char : Char}
    (mem : char ∈ (toString number).toList) : char.isDigit := by
  rw [Nat.toString_eq_ofList_toDigits, String.toList_ofList] at mem
  exact Nat.isDigit_of_mem_toDigits (by decide) (by decide) mem

namespace BuildNames

variable {linkage : Linkage} {names : BuildNames} {state : ResolutionState}
  {baseNames : Index .typeDefinitions → String} {genericClass : Index .genericClasses}
  {definition : Index .typeDefinitions} {arguments : List TypeTree} {name : String}

/-- A generic class that has a name stands for a definition with arguments. -/
theorem Sound.exists_instantiates (sound : names.Sound linkage state)
    (faithful : state.Faithful linkage.metadata)
    (found : linkage.metadata.Addressable ∨ linkage.metadata.UsesClass genericClass)
    (isName : names.instances.names[genericClass]? = some name) :
    ∃ definition arguments, linkage.metadata.Instantiates genericClass definition arguments := by
  obtain ⟨type, reference, definition, usage, openId, namedAs⟩ :=
    sound.instances.spelled genericClass name isName
  have ⟨_, expands, _⟩ := faithful.usages _ usage namedAs.known
  obtain ⟨_, arguments, -, instantiates⟩ := (Metadata.expands_normal.mp expands).instantiates
    (namedAs.addressed found) namedAs.isKind namedAs.isData namedAs.isOpen
  exact ⟨definition, arguments, instantiates⟩

/-- The name of an instantiation is made of the display name of its definition and of the spellings
of its arguments. -/
theorem Sound.instanceName_eq (sound : names.Sound linkage state)
    (faithful : state.Faithful linkage.metadata) (givesNames : state.GivesNames baseNames)
    (instantiates : linkage.metadata.Instantiates genericClass definition arguments)
    (isName : names.instances.names[genericClass]? = some name) :
    name = instanceText names.definitions.displayNames[definition]?
      (state.definitionOwner definition) (baseNames definition)
      (linkage.metadata.ownParameters definition)
      (arguments.map (TypeTree.spelling linkage.metadata baseNames)) := by
  obtain ⟨type, reference, ownDefinition, usage, openId, namedAs⟩ :=
    sound.instances.spelled genericClass name isName
  obtain ⟨ownArguments, ownInstantiates, isPlain, isOwner, isText⟩ := faithful.exists_spelled
    (namedAs.addressed (.inr instantiates.used)) namedAs.isKind namedAs.isData namedAs.isOpen
    namedAs.known givesNames
  obtain ⟨rfl, rfl⟩ := instantiates.unique ownInstantiates
  obtain ⟨-, isOpenText⟩ := faithful.spelled_definition givesNames namedAs.done
  have usageText : state.usageText usage true =
      state.ownerText usage.descriptor true ++ state.bareText usage.descriptor := by
    rw [isPlain]
    exact String.append_empty
  have isBuilt := ResolutionState.builtDefinition?_eq namedAs.done
  rw [namedAs.isName, usageText, isOwner, ResolutionState.instanceName?_eq _ isBuilt, isOpenText,
    isText, instanceText]

/-- The display name of a definition that names itself shows it with its parameters. -/
theorem Sound.displayName_eq (sound : names.Sound linkage state)
    (faithful : state.Faithful linkage.metadata) (givesNames : state.GivesNames baseNames)
    (namesItself : linkage.NamesItself definition)
    (isName : names.definitions.displayNames[definition]? = some name) :
    ∃ after : String, '<' ∉ after.toList ∧ name = state.definitionOwner definition ++
      (baseNames definition ++ angled (linkage.metadata.ownParameters definition)) ++ after := by
  obtain ⟨usage, standsFor, spelled⟩ := sound.definitions.spelled definition name isName
  obtain ⟨id, rfl, done⟩ := standsFor.plain faithful namesItself
  obtain ⟨isOwner, isText⟩ := faithful.spelled_definition givesNames done
  have usageText : state.usageText (.plain id) true =
      state.ownerText id true ++ state.bareText id := String.append_empty
  rw [usageText, isOwner, isText] at spelled
  obtain rfl | ⟨suffix, rfl⟩ := spelled
  · exact ⟨"", by simp, String.append_empty.symm⟩
  · refine ⟨"_" ++ toString suffix, ?_, by rw [NamePool.suffixed, String.append_assoc]⟩
    intro mem
    rw [String.toList_append, List.mem_append] at mem
    obtain isMark | isDigit := mem
    · exact absurd isMark (by decide)
    · exact absurd (isDigit_of_mem_toString isDigit) (by decide)

end BuildNames

end ManagedLayout

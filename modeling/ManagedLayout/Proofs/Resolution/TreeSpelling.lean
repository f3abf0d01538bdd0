import ManagedLayout.Proofs.Resolution.Expansion
import ManagedLayout.Proofs.Resolution.Outline
import ManagedLayout.Proofs.Resolution.Spelling

/-!
# Spellings of types

The spelling of a usage is determined by the type that the usage stands for, and by the names that
the definitions have got. Without a namespace it is the spelling of an outline.
-/

namespace ManagedLayout

/-- The number of commas in the brackets of an array. -/
def ArrayShape.commas : ArrayShape → Nat
  | vector => 0
  | ranked rank => rank.toNat - 1

namespace Outline

/-- More arrays and pointers around what is spelled. -/
def marked (outline : Outline) (more : List Mark) : Outline :=
  match outline with
  | named path arguments marks => named path arguments (marks ++ more)

@[simp]
theorem marked_nil (outline : Outline) : outline.marked [] = outline := by
  cases outline
  simp [marked]

@[simp]
theorem marked_marked (outline : Outline) (first second : List Mark) :
    (outline.marked first).marked second = outline.marked (first ++ second) := by
  cases outline
  simp [marked]

theorem text_marked (outline : Outline) (marks : List Mark) :
    (outline.marked marks).text = outline.text ++ String.join (marks.map Mark.text) := by
  cases outline
  simp [marked, text, String.append_assoc]

end Outline

namespace Metadata

/-- The names of the parameters that a definition declares, if it declares any. -/
def ownParameters (metadata : Metadata) (index : Index .typeDefinitions) : List String :=
  match metadata.typeDefinition index with
  | .ok record => (metadata.declaredParameters record).toOption.getD []
  | .error _ => []

/-- What stands in front of the name of a definition that no type declares. -/
def namespacePrefix (metadata : Metadata) (index : Index .typeDefinitions) : String :=
  match metadata.typeDefinition index with
  | .ok record => if record.namespaceName.isEmpty then "" else record.namespaceName ++ "."
  | .error _ => ""

end Metadata

namespace TypeTree

/-- The name of a type behind those of its declaring types, and behind the namespace if the name is
qualified. -/
def path (metadata : Metadata) (baseNames : Index .typeDefinitions → String) (qualified : Bool) :
    TypeTree → String
  | builtin kind => (kind.builtin?.map (·.keyword)).getD ""
  | parameter index =>
    match metadata.genericParameter index with
    | .ok record => record.name
    | .error _ => ""
  | definition index none | instantiation _ index none _ =>
    (if qualified then metadata.namespacePrefix index else "") ++ baseNames index
  | definition index (some declaring) | instantiation _ index (some declaring) _ =>
    declaring.path metadata baseNames qualified ++ "." ++ baseNames index
  | pointer _ | array .. => ""

/-- An instantiation has the name of its definition. -/
theorem path_instantiation (metadata : Metadata) (baseNames : Index .typeDefinitions → String)
    (qualified : Bool) (genericClass : Index .genericClasses) (index : Index .typeDefinitions)
    (declaring? : Option TypeTree) (arguments : List TypeTree) :
    (instantiation genericClass index declaring? arguments).path metadata baseNames qualified =
      (definition index declaring?).path metadata baseNames qualified := by
  cases declaring? <;> simp only [path]

/-- What the spelling of a type shows. -/
def outline (metadata : Metadata) (baseNames : Index .typeDefinitions → String) :
    TypeTree → Outline
  | builtin kind => .leaf ((builtin kind).path metadata baseNames false)
  | parameter index => .leaf ((parameter index).path metadata baseNames false)
  | definition index declaring? =>
    .named ((definition index declaring?).path metadata baseNames false)
      ((metadata.ownParameters index).map .leaf) []
  | instantiation genericClass index declaring? arguments =>
    .named ((instantiation genericClass index declaring? arguments).path metadata baseNames false)
      (arguments.map (outline metadata baseNames)) []
  | pointer pointee => (pointee.outline metadata baseNames).marked [.pointer]
  | array shape element => (element.outline metadata baseNames).marked [.array shape.commas]

/-- The spelling of a type, without its namespace. -/
def spelling (metadata : Metadata) (baseNames : Index .typeDefinitions → String) (tree : TypeTree) :
    String :=
  (tree.outline metadata baseNames).text

/-- The name of a declared type with its arguments, behind its namespace. -/
def fullName (metadata : Metadata) (baseNames : Index .typeDefinitions → String) (tree : TypeTree) :
    String :=
  tree.path metadata baseNames true ++
    angled ((tree.outline metadata baseNames).arguments.map Outline.text)

theorem outline_pointers (metadata : Metadata) (baseNames : Index .typeDefinitions → String)
    (tree : TypeTree) (count : Nat) :
    (tree.pointers count).outline metadata baseNames =
      (tree.outline metadata baseNames).marked (List.replicate count .pointer) := by
  induction count with
  | zero => simp [pointers]
  | succ count ih =>
    rw [pointers, outline, ih, Outline.marked_marked, List.replicate_succ']

end TypeTree

/-- What declares a definition, if anything does. -/
def Metadata.DeclaredIn (metadata : Metadata) (definition : Index .typeDefinitions)
    (declaring? : Option TypeTree) : Prop :=
  ∃ part?, metadata.declaringUsage? definition = .ok part? ∧
    Option.Rel (fun part declaring ↦ ∃ tree, metadata.Expands part tree ∧ tree.core = declaring)
      part? declaring?

namespace Usage

/-- The arrays and pointers around a descriptor, as they are written. -/
def marks (usage : Usage) : List Mark :=
  usage.arrays.flatMap
      (fun level ↦ List.replicate level.elementIndirection .pointer ++ [.array level.shape.commas])
    ++ List.replicate usage.indirection .pointer

theorem outline_around (metadata : Metadata) (baseNames : Index .typeDefinitions → String)
    (usage : Usage) (tree : TypeTree) :
    (usage.around tree).outline metadata baseNames =
      (tree.outline metadata baseNames).marked usage.marks := by
  have outline_foldl (levels : List ArrayLevel) : ∀ element : TypeTree,
      (levels.foldl
        (fun element level ↦ .array level.shape (element.pointers level.elementIndirection))
        element).outline metadata baseNames =
          (element.outline metadata baseNames).marked (levels.flatMap fun level ↦
            List.replicate level.elementIndirection .pointer ++ [.array level.shape.commas]) := by
    induction levels with
    | nil => simp
    | cons level rest ih =>
      intro element
      rw [List.foldl_cons, ih, TypeTree.outline, TypeTree.outline_pointers, Outline.marked_marked,
        Outline.marked_marked, List.flatMap_cons, List.append_assoc]
  rw [around, TypeTree.outline_pointers, outline_foldl, Outline.marked_marked, marks]

theorem join_pointers (count : Nat) :
    String.join ((List.replicate count Mark.pointer).map Mark.text) = asterisks count := by
  induction count with
  | zero => rfl
  | succ count ih =>
    rw [List.replicate_succ, List.map_cons, String.join_cons, ih, asterisks_succ]
    rfl

theorem text_array (shape : ArrayShape) : (Mark.array shape.commas).text = shape.text := by
  cases shape with
  | vector => rfl
  | ranked => rfl

theorem suffix_eq (usage : Usage) : usage.suffix = String.join (usage.marks.map Mark.text) := by
  have suffix_foldl (levels : List ArrayLevel) : ∀ done : String,
      levels.foldl
          (fun done level ↦ done ++ asterisks level.elementIndirection ++ level.shape.text) done =
        done ++ String.join ((levels.flatMap fun level ↦
          List.replicate level.elementIndirection .pointer ++
            [.array level.shape.commas]).map Mark.text) := by
    induction levels with
    | nil => simp
    | cons level rest ih =>
      intro done
      rw [List.foldl_cons, ih, List.flatMap_cons, List.map_append, String.join_append,
        List.map_append, String.join_append, join_pointers]
      simp [text_array, String.append_assoc]
  rw [suffix, suffix_foldl, marks, List.map_append, String.join_append, join_pointers,
    String.empty_append]

end Usage

namespace ResolutionState

/-- These are the names that the definitions have got. -/
def GivesNames (state : ResolutionState) (baseNames : Index .typeDefinitions → String) : Prop :=
  ∀ (definition : Index .typeDefinitions) id, state.definitions[definition]? = some (.done id) →
    baseNames definition = (state.descriptor id).name

variable {state : ResolutionState} {metadata : Metadata} {id : DescriptorId}
  {baseNames : Index .typeDefinitions → String}

/-- The names that definitions have got do not change. -/
theorem GivesNames.of_extends {before after : ResolutionState}
    (givesNames : after.GivesNames baseNames) (faithful : before.Faithful metadata)
    (extend : before.Extends after) : before.GivesNames baseNames := by
  intro definition id done
  have stored := (faithful.definitions definition id done).stored
  rw [givesNames definition id (extend.definitions definition id done),
    extend.arena.descriptor_eq stored]

/-- The declaring types of a declared type are spelled in front of its name. -/
theorem DeclaredBy.ownerText_eq {descriptor openDescriptor : Descriptor}
    {definition : Index .typeDefinitions} {openId : DescriptorId} {record : TypeDefinition}
    (declared : state.DeclaredBy metadata id descriptor definition openId openDescriptor record)
    (found : state.descriptors[id.position]? = some descriptor) (qualified : Bool) :
    state.ownerText id qualified = match descriptor.declaringType? with
      | some declaring =>
        state.ownerText declaring qualified ++ (state.descriptor declaring).name ++ "."
      | none => if qualified then metadata.namespacePrefix definition else "" := by
  have sameNamespace : descriptor.namespaceName = record.namespaceName := by
    rw [declared.eq]
    exact declared.fits.namespaceName
  rw [ownerText, descriptor_eq found]
  cases isDeclaring : descriptor.declaringType? with
  | some declaring =>
    simp only [declared.declaring_earlier declaring isDeclaring, ↓reduceDIte]
  | none =>
    simp only [Metadata.namespacePrefix, declared.isRecord, sameNamespace]
    cases qualified <;> cases record.namespaceName.isEmpty <;> rfl

/-- An instantiation is in the namespace of its definition. -/
theorem DeclaredBy.rootNamespace_eq {descriptor openDescriptor : Descriptor}
    {definition : Index .typeDefinitions} {openId : DescriptorId} {record : TypeDefinition}
    (declared : state.DeclaredBy metadata id descriptor definition openId openDescriptor record)
    (found : state.descriptors[id.position]? = some descriptor) :
    state.rootNamespace id = state.rootNamespace openId := by
  rw [rootNamespace, rootNamespace, descriptor_eq found, descriptor_eq declared.found,
    declared.declaringType?_eq]
  cases isDeclaring : openDescriptor.declaringType? with
  | none =>
    rw [declared.eq]
  | some declaring =>
    have openEarlier := declared.fits.declaring_earlier declaring isDeclaring
    have earlier := Nat.lt_of_lt_of_le openEarlier declared.notLater
    simp only [earlier, openEarlier, ↓reduceDIte]

/-- Nothing stands in front of the name of what is not declared. -/
theorem ownerText_named {kind : DescriptorKind} {name : String}
    (found : state.descriptors[id.position]? = some (.named kind name)) (qualified : Bool) :
    state.ownerText id qualified ++ (state.descriptor id).name = name := by
  rw [ownerText, descriptor_eq found]
  cases qualified <;> simp [Descriptor.named]

/-- A declared type has the name of its definition behind those of its declaring types. -/
theorem DeclaredBy.path_eq {descriptor openDescriptor : Descriptor}
    {definition : Index .typeDefinitions} {openId : DescriptorId} {record : TypeDefinition}
    {qualified : Bool}
    (declared : state.DeclaredBy metadata id descriptor definition openId openDescriptor record)
    (givesNames : state.GivesNames baseNames)
    (found : state.descriptors[id.position]? = some descriptor)
    (declaringPath : ∀ declaring ∈ descriptor.declaringType?,
      (state.descriptorTree declaring).path metadata baseNames qualified =
        state.ownerText declaring qualified ++ (state.descriptor declaring).name) :
    (TypeTree.definition definition (descriptor.declaringType?.map state.descriptorTree)).path
        metadata baseNames qualified =
      state.ownerText id qualified ++ (state.descriptor id).name := by
  have isName : baseNames definition = (state.descriptor id).name := by
    rw [givesNames definition openId declared.done, descriptor_eq declared.found,
      descriptor_eq found, declared.name_eq]
  rw [declared.ownerText_eq found, ← isName]
  cases isDeclaring : descriptor.declaringType? with
  | none => rfl
  | some declaring => rw [Option.map_some, TypeTree.path, declaringPath declaring isDeclaring]

/-- The name of a descriptor in a state is that of the type that it stands for. -/
theorem Faithful.path_descriptorTree (faithful : state.Faithful metadata)
    (givesNames : state.GivesNames baseNames) (stored : id.position < state.descriptors.size)
    (qualified : Bool) :
    (state.descriptorTree id).path metadata baseNames qualified =
      state.ownerText id qualified ++ (state.descriptor id).name := by
  induction id using DescriptorId.induction with
  | step id ih =>
    have found := Array.getElem?_eq_getElem stored
    have describes := faithful.descriptors id _ found
    generalize state.descriptors[id.position] = descriptor at found describes
    have declaringPath (earlier : ∀ declaring ∈ descriptor.declaringType?,
        declaring.position < id.position) : ∀ declaring ∈ descriptor.declaringType?,
          (state.descriptorTree declaring).path metadata baseNames qualified =
            state.ownerText declaring qualified ++ (state.descriptor declaring).name := by
      intro declaring isDeclaring
      have isEarlier := earlier declaring isDeclaring
      exact ih declaring isEarlier (Nat.lt_trans isEarlier stored)
    cases isKind : descriptor.kind with
    | builtin kind =>
      simp only [Describes, isKind] at describes
      obtain ⟨spelling, isSpelling, rfl⟩ := describes
      rw [descriptorTree_builtin found isKind, ownerText_named found, TypeTree.path, isSpelling]
      rfl
    | parameter parameter =>
      simp only [Describes, isKind] at describes
      obtain ⟨record, isRecord, rfl⟩ := describes
      rw [descriptorTree_parameter found isKind, ownerText_named found]
      simp only [TypeTree.path, isRecord]
    | definition definition =>
      obtain ⟨record, declared⟩ := faithful.declaredBy_definition found isKind
      have earlier := declared.declaring_earlier
      rw [descriptorTree_definition found isKind earlier]
      exact declared.path_eq givesNames found (declaringPath earlier)
    | instantiation genericClass definition =>
      obtain ⟨openId, openDescriptor, record, declared⟩ :=
        faithful.declaredBy_instantiation found isKind
      have earlier := declared.declaring_earlier
      rw [descriptorTree_instantiation found isKind earlier
        (faithful.arguments_earlier found isKind), TypeTree.path_instantiation]
      exact declared.path_eq givesNames found (declaringPath earlier)

theorem ownParameters_eq {definition : Index .typeDefinitions} {record : TypeDefinition}
    {names : List String} (isRecord : metadata.typeDefinition definition = .ok record)
    (isNames : metadata.declaredParameters record = .ok names) :
    metadata.ownParameters definition = names := by
  simp only [Metadata.ownParameters, isRecord, isNames]
  rfl

/-- Arrays and pointers are written behind the descriptor that they are around. -/
theorem text_usageTree {usage : Usage} {arguments : List Outline}
    (isOutline : (state.descriptorTree usage.descriptor).outline metadata baseNames =
      .named ((state.descriptorTree usage.descriptor).path metadata baseNames false) arguments [])
    (isPath : (state.descriptorTree usage.descriptor).path metadata baseNames false =
      state.ownerText usage.descriptor false ++ (state.descriptor usage.descriptor).name)
    (isTexts : state.argumentTexts usage.descriptor = arguments.map Outline.text) :
    (state.usageTree usage).spelling metadata baseNames =
      state.ownerText usage.descriptor false ++ (state.descriptor usage.descriptor).name ++
        angled (state.argumentTexts usage.descriptor) ++ usage.suffix := by
  calc (state.usageTree usage).spelling metadata baseNames
      = (state.descriptorTree usage.descriptor).spelling metadata baseNames ++ usage.suffix := by
        rw [TypeTree.spelling, usageTree, Usage.outline_around, Outline.text_marked,
          Usage.suffix_eq, TypeTree.spelling]
    _ = (state.descriptorTree usage.descriptor).path metadata baseNames false ++
          angled (arguments.map Outline.text) ++ usage.suffix := by
        rw [TypeTree.spelling, isOutline, Outline.text, List.map_nil, String.join_nil,
          String.append_empty]
    _ = _ := by rw [isPath, isTexts]

/-- The outline of a descriptor in a state shows its name and the spellings of its arguments. -/
theorem Faithful.outline_descriptorTree (faithful : state.Faithful metadata)
    (givesNames : state.GivesNames baseNames) (stored : id.position < state.descriptors.size) :
    ∃ arguments, (state.descriptorTree id).outline metadata baseNames =
        .named ((state.descriptorTree id).path metadata baseNames false) arguments [] ∧
      state.argumentTexts id = arguments.map Outline.text := by
  induction id using DescriptorId.induction with
  | step id ih =>
    have found := Array.getElem?_eq_getElem stored
    have describes := faithful.descriptors id _ found
    generalize state.descriptors[id.position] = descriptor at found describes
    rw [argumentTexts, descriptor_eq found]
    cases isKind : descriptor.kind with
    | builtin kind =>
      rw [descriptorTree_builtin found isKind, TypeTree.outline]
      exact ⟨[], rfl, rfl⟩
    | parameter parameter =>
      rw [descriptorTree_parameter found isKind, TypeTree.outline]
      exact ⟨[], rfl, rfl⟩
    | definition definition =>
      obtain ⟨record, declared⟩ := faithful.declaredBy_definition found isKind
      have isNames := ownParameters_eq declared.isRecord declared.fits.parameterNames
      rw [descriptorTree_definition found isKind declared.declaring_earlier]
      refine ⟨descriptor.parameterNames.map .leaf, ?_, ?_⟩
      · rw [TypeTree.outline, isNames]
      · simp [Function.comp_def]
    | instantiation genericClass definition =>
      obtain ⟨openId, openDescriptor, record, declared⟩ :=
        faithful.declaredBy_instantiation found isKind
      have argumentsEarlier := faithful.arguments_earlier found isKind
      rw [descriptorTree_instantiation found isKind declared.declaring_earlier argumentsEarlier]
      rw [TypeTree.outline]
      refine ⟨_, rfl, ?_⟩
      rw [List.map_map, List.map_map]
      apply List.map_congr_left
      intro argument mem
      have earlier := argumentsEarlier argument mem
      have argumentStored := Nat.lt_trans earlier stored
      obtain ⟨arguments, isOutline, isTexts⟩ := ih argument.descriptor earlier argumentStored
      have isPath := faithful.path_descriptorTree givesNames argumentStored false
      simp only [earlier, ↓reduceDIte, Function.comp_apply]
      exact (text_usageTree isOutline isPath isTexts).symm

/-- A usage is spelled as its type. -/
theorem Faithful.usageText_eq {usage : Usage} (faithful : state.Faithful metadata)
    (givesNames : state.GivesNames baseNames)
    (stored : usage.descriptor.position < state.descriptors.size) :
    state.usageText usage false = (state.usageTree usage).spelling metadata baseNames := by
  obtain ⟨arguments, isOutline, isTexts⟩ := faithful.outline_descriptorTree givesNames stored
  have isPath := faithful.path_descriptorTree givesNames stored false
  rw [text_usageTree isOutline isPath isTexts, usageText, descriptorText, if_pos rfl, bareText,
    ← String.append_assoc]

section Spelled

variable {openId : DescriptorId} {definition : Index .typeDefinitions}
  {genericClass : Index .genericClasses} {declaring? : Option TypeTree} {arguments : List TypeTree}

/-- What stands in front of the name of a definition that has been worked on. -/
def definitionOwner (state : ResolutionState) (definition : Index .typeDefinitions) : String :=
  ((state.builtDefinition? definition).map (state.ownerText · true)).getD ""

theorem builtDefinition?_eq (done : state.definitions[definition]? = some (.done openId)) :
    state.builtDefinition? definition = some openId := by
  rw [builtDefinition?, done]

/-- The descriptor of a definition is spelled with its parameters. -/
theorem Faithful.spelled_definition (faithful : state.Faithful metadata)
    (givesNames : state.GivesNames baseNames)
    (done : state.definitions[definition]? = some (.done id)) :
    state.ownerText id true = state.definitionOwner definition ∧
      state.bareText id = baseNames definition ++ angled (metadata.ownParameters definition) := by
  obtain ⟨descriptor, found, isDefinition⟩ := faithful.definitions definition id done
  obtain ⟨record, declared⟩ := faithful.declaredBy_definition found isDefinition
  have isOwner : state.ownerText id true = state.definitionOwner definition := by
    rw [definitionOwner, builtDefinition?_eq done]
    rfl
  refine ⟨isOwner, ?_⟩
  rw [bareText, givesNames definition id done, argumentTexts, descriptor_eq found,
    ownParameters_eq declared.isRecord declared.fits.parameterNames]
  simp only [isDefinition]

/-- The descriptor of an instantiation is spelled as its definition, but with its arguments. -/
theorem Faithful.spelled_instantiation (faithful : state.Faithful metadata)
    (givesNames : state.GivesNames baseNames) (stored : id.position < state.descriptors.size)
    (isTree : state.descriptorTree id =
      .instantiation genericClass definition declaring? arguments) :
    state.ownerText id true = state.definitionOwner definition ∧
      state.bareText id = baseNames definition ++
        angled (arguments.map (TypeTree.spelling metadata baseNames)) := by
  have found := Array.getElem?_eq_getElem stored
  generalize state.descriptors[id.position] = descriptor at found
  have isKind := kind_of_descriptorTree_instantiation found isTree
  obtain ⟨openId, openDescriptor, record, declared⟩ := faithful.declaredBy_instantiation found isKind
  obtain ⟨openRecord, openDeclared⟩ :=
    faithful.declaredBy_definition declared.found declared.isDefinition
  have sameName : (state.descriptor id).name = baseNames definition := by
    rw [givesNames definition openId declared.done, descriptor_eq declared.found,
      descriptor_eq found, declared.name_eq]
  obtain ⟨shown, isOutline, isTexts⟩ := faithful.outline_descriptorTree givesNames stored
  obtain rfl : arguments.map (TypeTree.outline metadata baseNames) = shown := by
    rw [isTree, TypeTree.outline] at isOutline
    exact (Outline.named.inj isOutline).2.1
  constructor
  · rw [definitionOwner, builtDefinition?_eq declared.done, declared.ownerText_eq found,
      Option.map_some, Option.getD_some, openDeclared.ownerText_eq declared.found,
      declared.declaringType?_eq]
  · rw [bareText, sameName, isTexts, List.map_map]
    rfl

end Spelled

/-- A descriptor is spelled as its type. -/
theorem Faithful.descriptorText_eq (faithful : state.Faithful metadata)
    (givesNames : state.GivesNames baseNames) (stored : id.position < state.descriptors.size) :
    state.descriptorText id true true = (state.descriptorTree id).fullName metadata baseNames := by
  obtain ⟨arguments, isOutline, isTexts⟩ := faithful.outline_descriptorTree givesNames stored
  have isPath := faithful.path_descriptorTree givesNames stored true
  rw [descriptorText, if_pos rfl, bareText, isTexts, TypeTree.fullName, isPath, isOutline,
    Outline.arguments, String.append_assoc]

/-- The descriptor of a definition stands for the definition, in what declares it. -/
theorem Faithful.exists_declaredIn {definition : Index .typeDefinitions}
    (faithful : state.Faithful metadata)
    (done : state.definitions[definition]? = some (.done id)) :
    ∃ declaring?, metadata.DeclaredIn definition declaring? ∧
      state.descriptorTree id = .definition definition declaring? := by
  obtain ⟨part?, isPart, assembled⟩ := faithful.definition_tree done
  simp only [TypeLayer.tree, lookup_bind_eq_ok, lookup_pure_eq_ok] at assembled
  obtain ⟨declaring?, areDeclaring, isTree⟩ := assembled
  refine ⟨declaring?, ⟨part?, isPart, ?_⟩, isTree.symm⟩
  obtain ⟨rfl, rfl⟩ | ⟨part, declaring, rfl, rfl, isDeclaring⟩ :=
    lookup_optionMapM_eq_ok.mp areDeclaring
  · exact .none
  · obtain ⟨tree, isRemembered, rfl⟩ := lookup_map_eq_ok.mp isDeclaring
    obtain ⟨usage, known, rfl⟩ := remembered_eq_ok.mp isRemembered
    have expands := Metadata.expands_normal.mp (faithful.usages _ usage known).expands
    exact .some ⟨_, expands, rfl⟩

end ResolutionState

end ManagedLayout

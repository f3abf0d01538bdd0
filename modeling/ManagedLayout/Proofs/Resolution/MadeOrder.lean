import ManagedLayout.Proofs.Resolution.IssuedNames
import ManagedLayout.Proofs.Resolution.Recipe

/-!
# The order in which definitions are made

A definition is made when it is first needed, after the types that declare it. The tree of a
descriptor shows which definitions that takes, and in which order. Whoever asks for the descriptor
first makes those of them that have not been made before.
-/

namespace ManagedLayout

namespace TypeTree

/-- The definitions that a type is made of, in the order in which they are needed. -/
def definitions : TypeTree → List (Index .typeDefinitions)
  | builtin _ | parameter _ => []
  | definition index none => [index]
  | definition index (some declaring) => declaring.definitions ++ [index]
  | instantiation _ index none arguments => [index] ++ (arguments.map definitions).flatten
  | instantiation _ index (some declaring) arguments =>
    declaring.definitions ++ [index] ++ (arguments.map definitions).flatten
  | pointer tree | array _ tree => tree.definitions

variable {index : Index .typeDefinitions} {declaring? : Option TypeTree}

theorem definitions_definition :
    (definition index declaring?).definitions =
      declaring?.toList.flatMap definitions ++ [index] := by
  cases declaring? <;> simp [definitions]

/-- The arguments of an instantiation come after its definition. -/
theorem definitions_instantiation (genericClass : Index .genericClasses)
    (arguments : List TypeTree) :
    (instantiation genericClass index declaring? arguments).definitions =
      (definition index declaring?).definitions ++ arguments.flatMap definitions := by
  cases declaring? <;> simp [definitions, List.flatMap_def]

theorem definitions_core (tree : TypeTree) : tree.core.definitions = tree.definitions := by
  induction tree using core.induct with
  | case1 tree ih | case2 _ tree ih => rw [core, ih, definitions]
  | case3 tree notPointer notArray => rw [core] <;> assumption

end TypeTree

section AppendNew

variable {Element : Type} [DecidableEq Element]

/-- The list with those elements behind it that it does not have. -/
def appendNew (elements more : List Element) : List Element :=
  more.foldl (fun elements element ↦ if element ∈ elements then elements else elements ++ [element])
    elements

theorem appendNew_append (elements first second : List Element) :
    appendNew elements (first ++ second) = appendNew (appendNew elements first) second :=
  List.foldl_append

theorem appendNew_singleton {elements : List Element} {element : Element}
    (isNew : element ∉ elements) : appendNew elements [element] = elements ++ [element] :=
  if_neg isNew

theorem appendNew_of_subset {elements more : List Element} (subset : more ⊆ elements) :
    appendNew elements more = elements := by
  induction more with
  | nil => rfl
  | cons element rest ih =>
    obtain ⟨mem, subset⟩ := List.cons_subset.mp subset
    rw [appendNew, List.foldl_cons, if_pos mem]
    exact ih subset

end AppendNew

namespace ResolutionState

variable {before middle after state : ResolutionState} {metadata : Metadata} {id : DescriptorId}
  {definition : Index .typeDefinitions}

/-- The definitions that have been made, in the order of the arena. -/
def made (state : ResolutionState) : List (Index .typeDefinitions) :=
  state.namings.map (·.definition)

theorem getElem?_push_last (state : ResolutionState) (descriptor : Descriptor) :
    (state.push descriptor).2.descriptors[(state.push descriptor).1.position]? = some descriptor :=
  Array.getElem?_push_size

theorem made_push (descriptor : Descriptor) :
    (state.push descriptor).2.made =
      state.made ++ (descriptor.naming?.map (·.definition)).toList := by
  rw [made, namings_push, List.map_append]
  cases descriptor.naming? <;> rfl

theorem made_eq (sameDescriptors : after.descriptors = before.descriptors) :
    after.made = before.made := by
  rw [made, namings, sameDescriptors]
  rfl

theorem Faithful.mem_made (faithful : state.Faithful metadata) :
    definition ∈ state.made ↔ ∃ id, state.definitions[definition]? = some (.done id) := by
  simp only [made, namings, List.mem_map, List.mem_filterMap]
  constructor
  · rintro ⟨naming, ⟨descriptor, stored, isNaming⟩, rfl⟩
    obtain ⟨position, found⟩ := Array.getElem?_of_mem (Array.mem_toList_iff.mp stored)
    have describes := faithful.descriptors ⟨position⟩ descriptor found
    cases isKind : descriptor.kind with
    | definition definition =>
      simp only [Descriptor.naming?, isKind, Option.some.injEq] at isNaming
      simp only [Describes, isKind] at describes
      rw [← isNaming]
      exact ⟨_, describes.1⟩
    | _ => simp [Descriptor.naming?, isKind] at isNaming
  · rintro ⟨id, done⟩
    obtain ⟨descriptor, stored, isDefinition⟩ := faithful.definitions definition id done
    refine ⟨⟨definition, descriptor.scope, descriptor.name⟩, ⟨descriptor, ?_, ?_⟩, rfl⟩
    · exact Array.mem_toList_iff.mpr (Array.mem_of_getElem? stored)
    · rw [Descriptor.naming?, isDefinition]

/-- The definitions that a descriptor is made of have been made. -/
theorem Faithful.definitions_subset (faithful : state.Faithful metadata)
    (stored : id.position < state.descriptors.size) :
    (state.descriptorTree id).definitions ⊆ state.made := by
  induction id using DescriptorId.induction with
  | step id ih =>
    have found := Array.getElem?_eq_getElem stored
    generalize state.descriptors[id.position] = descriptor at found
    have declared (definition : Index .typeDefinitions) (mem : definition ∈ state.made)
        (earlier : ∀ declaring ∈ descriptor.declaringType?, declaring.position < id.position) :
        (TypeTree.definition definition
          (descriptor.declaringType?.map state.descriptorTree)).definitions ⊆ state.made := by
      intro needed isNeeded
      rw [TypeTree.definitions_definition, List.mem_append, List.mem_singleton] at isNeeded
      obtain isNeeded | rfl := isNeeded
      · obtain ⟨tree, isTree, isNeeded⟩ := List.mem_flatMap.mp isNeeded
        obtain ⟨declaring, isDeclaring, rfl⟩ :=
          Option.map_eq_some_iff.mp (Option.mem_toList.mp isTree)
        have isEarlier := earlier declaring isDeclaring
        exact ih declaring isEarlier (Nat.lt_trans isEarlier stored) isNeeded
      · exact mem
    cases isKind : descriptor.kind with
    | builtin kind =>
      rw [descriptorTree_builtin found isKind, TypeTree.definitions]
      exact List.nil_subset _
    | parameter parameter =>
      rw [descriptorTree_parameter found isKind, TypeTree.definitions]
      exact List.nil_subset _
    | definition definition =>
      obtain ⟨record, isDeclared⟩ := faithful.declaredBy_definition found isKind
      rw [descriptorTree_definition found isKind isDeclared.declaring_earlier]
      exact declared definition (faithful.mem_made.mpr ⟨_, isDeclared.done⟩)
        isDeclared.declaring_earlier
    | instantiation genericClass definition =>
      obtain ⟨openId, openDescriptor, record, isDeclared⟩ :=
        faithful.declaredBy_instantiation found isKind
      have argumentsEarlier := faithful.arguments_earlier found isKind
      rw [descriptorTree_instantiation found isKind isDeclared.declaring_earlier argumentsEarlier,
        TypeTree.definitions_instantiation]
      refine List.append_subset.mpr ⟨?_, fun needed isNeeded ↦ ?_⟩
      · exact declared definition (faithful.mem_made.mpr ⟨_, isDeclared.done⟩)
          isDeclared.declaring_earlier
      · obtain ⟨tree, isTree, isNeeded⟩ := List.mem_flatMap.mp isNeeded
        obtain ⟨argument, isArgument, rfl⟩ := List.mem_map.mp isTree
        have isEarlier := argumentsEarlier argument isArgument
        rw [← TypeTree.definitions_core, core_usageTree] at isNeeded
        exact ih argument.descriptor isEarlier (Nat.lt_trans isEarlier stored) isNeeded

/-- A tree depends on the arena only. -/
theorem descriptorTree_eq_of_same (same : after.descriptors = before.descriptors)
    (id : DescriptorId) : after.descriptorTree id = before.descriptorTree id := by
  induction id using DescriptorId.induction with
  | step id ih =>
    have sameDescriptor : after.descriptor id = before.descriptor id := by
      simp only [descriptor, same]
    rw [descriptorTree, descriptorTree, sameDescriptor]
    simp +contextual only [ih]

/-- The definitions that the descriptors are made of have been made, one after the other, unless
they had been before. -/
def Adds (before : ResolutionState) (ids : List DescriptorId) (after : ResolutionState) : Prop :=
  after.made = appendNew before.made (ids.flatMap fun id ↦ (after.descriptorTree id).definitions)

theorem Faithful.adds_of_stored {ids : List DescriptorId} (faithful : state.Faithful metadata)
    (stored : ∀ id ∈ ids, id.position < state.descriptors.size) : state.Adds ids state := by
  refine (appendNew_of_subset fun needed isNeeded ↦ ?_).symm
  obtain ⟨id, mem, isNeeded⟩ := List.mem_flatMap.mp isNeeded
  exact faithful.definitions_subset (stored id mem) isNeeded

/-- A change that leaves the arena as it is. -/
theorem Adds.frame {otherBefore otherAfter : ResolutionState} {ids : List DescriptorId}
    (adds : before.Adds ids after) (sameBefore : before.descriptors = otherBefore.descriptors)
    (sameAfter : otherAfter.descriptors = after.descriptors) : otherBefore.Adds ids otherAfter := by
  simp only [Adds, made_eq sameAfter, ← made_eq sameBefore, descriptorTree_eq_of_same sameAfter]
  exact adds

theorem Adds.append {ids more : List DescriptorId} (first : before.Adds ids middle)
    (second : middle.Adds more after) (grows : middle.ArenaGrows after)
    (stored : ∀ id ∈ ids, id.position < middle.descriptors.size) :
    before.Adds (ids ++ more) after := by
  have sameTrees : (ids.flatMap fun id ↦ (after.descriptorTree id).definitions) =
      ids.flatMap fun id ↦ (middle.descriptorTree id).definitions :=
    List.flatMap_congr fun id mem ↦ by rw [grows.descriptorTree_eq (stored id mem)]
  rw [Adds, List.flatMap_append, appendNew_append, sameTrees, ← first]
  exact second

/-- What has been made stays where it is when the arena grows by other things. -/
theorem Adds.grow {ids : List DescriptorId} (adds : before.Adds ids middle)
    (grows : middle.ArenaGrows after) (stored : ∀ id ∈ ids, id.position < middle.descriptors.size)
    (same : after.made = middle.made) : before.Adds ids after := by
  have appended : before.Adds (ids ++ []) after := adds.append same grows stored
  rwa [List.append_nil] at appended

/-- A built-in type or a parameter is made of no definition. -/
theorem adds_push_named {kind : DescriptorKind} (name : String)
    (isKind : (∃ builtin, kind = .builtin builtin) ∨ ∃ parameter, kind = .parameter parameter) :
    state.Adds [(state.push (.named kind name)).1] (state.push (.named kind name)).2 := by
  have found := state.getElem?_push_last (.named kind name)
  rw [Adds, List.flatMap_singleton, made_push]
  obtain ⟨builtin, rfl⟩ | ⟨parameter, rfl⟩ := isKind
  · rw [descriptorTree_builtin found rfl, TypeTree.definitions]
    exact List.append_nil _
  · rw [descriptorTree_parameter found rfl, TypeTree.definitions]
    exact List.append_nil _

/-- A definition that is new comes after its declaring type. -/
theorem Adds.push_definition {descriptor : Descriptor}
    (adds : before.Adds descriptor.declaringType?.toList middle)
    (stored : ∀ declaring ∈ descriptor.declaringType?,
      declaring.position < middle.descriptors.size)
    (isDefinition : descriptor.kind = .definition definition) (isNew : definition ∉ middle.made) :
    before.Adds [(middle.push descriptor).1] (middle.push descriptor).2 := by
  have found := middle.getElem?_push_last descriptor
  have sameTrees : (descriptor.declaringType?.map (middle.push descriptor).2.descriptorTree) =
      descriptor.declaringType?.map middle.descriptorTree :=
    Option.map_congr fun declaring isDeclaring ↦
      (ArenaGrows.push descriptor).descriptorTree_eq (stored declaring isDeclaring)
  have isNaming : descriptor.naming?.map (·.definition) = some definition := by
    rw [Descriptor.naming?, isDefinition]
    rfl
  rw [Adds, List.flatMap_singleton, descriptorTree_definition found isDefinition stored,
    TypeTree.definitions_definition, appendNew_append, sameTrees, made_push, isNaming,
    Option.toList_some, ← appendNew_singleton isNew, adds]
  cases descriptor.declaringType? <;> rfl

/-- An instantiation is made of its definition and its arguments. -/
theorem Adds.push_instantiation {genericClass : Index .genericClasses} {openId : DescriptorId}
    {openDescriptor descriptor : Descriptor} {usages : List Usage}
    (adds : before.Adds (openId :: usages.map (·.descriptor)) middle)
    (faithful : middle.Faithful metadata)
    (found : middle.descriptors[openId.position]? = some openDescriptor)
    (isDefinition : openDescriptor.kind = .definition definition)
    (stored : ∀ usage ∈ usages, usage.descriptor.position < middle.descriptors.size)
    (isDescriptor : descriptor = { openDescriptor with
      kind := .instantiation genericClass definition
      typeArguments := usages
      parameterNames := [] }) :
    before.Adds [(middle.push descriptor).1] (middle.push descriptor).2 := by
  have isInstantiation : descriptor.kind = .instantiation genericClass definition := by
    rw [isDescriptor]
  have declaringType? : descriptor.declaringType? = openDescriptor.declaringType? := by
    rw [isDescriptor]
  have typeArguments : descriptor.typeArguments = usages := by rw [isDescriptor]
  have grows : middle.ArenaGrows (middle.push descriptor).2 := .push descriptor
  have foundLast := middle.getElem?_push_last descriptor
  have openStored := (Array.getElem?_eq_some_iff.mp found).1
  obtain ⟨record, declared⟩ := faithful.declaredBy_definition found isDefinition
  have earlier : ∀ declaring ∈ descriptor.declaringType?,
      declaring.position < (middle.push descriptor).1.position := by
    intro declaring isDeclaring
    rw [declaringType?] at isDeclaring
    exact Nat.lt_trans (declared.declaring_earlier declaring isDeclaring) openStored
  have nothingMade : (middle.push descriptor).2.made = middle.made := by
    simp [made_push, Descriptor.naming?, isInstantiation]
  have addsAfter := adds.grow grows (by simpa using ⟨openStored, stored⟩) nothingMade
  have sameDefinitions : ((middle.push descriptor).2.descriptorTree
        (middle.push descriptor).1).definitions =
      (openId :: usages.map (·.descriptor)).flatMap fun id ↦
        ((middle.push descriptor).2.descriptorTree id).definitions := by
    rw [descriptorTree_instantiation foundLast isInstantiation earlier (by rwa [typeArguments]),
      TypeTree.definitions_instantiation, List.flatMap_cons,
      descriptorTree_definition (grows.getElem?_eq_some found) isDefinition
        declared.declaring_earlier, declaringType?, typeArguments]
    simp only [List.flatMap_map, ← TypeTree.definitions_core (usageTree _ _), core_usageTree]
  rwa [Adds, List.flatMap_singleton, sameDefinitions]

end ResolutionState

namespace Resolve

variable {Result Other : Type} {metadata : Metadata} {state : ResolutionState}

/-- A computation that has a result makes the definitions that the descriptors of its result are
made of. -/
def Makes (metadata : Metadata) (computation : Resolve Result)
    (ids : Result → List DescriptorId) (state : ResolutionState) : Prop :=
  state.Faithful metadata →
    Ensures computation state (fun result after ↦ state.Adds (ids result) after) fun _ _ ↦ True

/-- The recursive call: it makes the definitions that its result is made of. -/
def MakesParts (metadata : Metadata) (resolveParts : ResolveParts) : Prop :=
  ∀ type context mode state, Keeps metadata (resolveParts type context mode) state
    fun usage after ↦ usage.descriptor.position < after.descriptors.size ∧
      state.Adds [usage.descriptor] after

theorem Keeps.makes {computation : Resolve Result} {ids : Result → List DescriptorId}
    {done : Result → ResolutionState → Prop}
    (kept : Keeps metadata computation state
      fun result after ↦ done result after ∧ state.Adds (ids result) after) :
    Makes metadata computation ids state :=
  fun faithful ↦ (kept faithful).mono (fun _ _ ⟨_, _, _, adds⟩ ↦ adds) fun _ _ _ ↦ trivial

theorem Keeps.and_makes {computation : Resolve Result} {ids : Result → List DescriptorId}
    {done : Result → ResolutionState → Prop} (kept : Keeps metadata computation state done)
    (makes : Makes metadata computation ids state) :
    Keeps metadata computation state
      fun result after ↦ done result after ∧ state.Adds (ids result) after :=
  fun faithful ↦ ((kept faithful).and (makes faithful)).mono
    (fun _ _ ⟨⟨faithful, grows, isDone⟩, adds⟩ ↦ ⟨faithful, grows, isDone, adds⟩)
    fun _ _ ⟨kept, _⟩ ↦ kept

namespace Makes

variable {ids : Result → List DescriptorId}

theorem throw {error : LayoutError} :
    Makes metadata (MonadExcept.throw error : Resolve Result) ids state := fun _ ↦ trivial

/-- What is known already is not made again. -/
theorem pure {result : Result}
    (stored : state.Faithful metadata → ∀ id ∈ ids result, id.position < state.descriptors.size) :
    Makes metadata (Pure.pure result) ids state :=
  fun faithful ↦ faithful.adds_of_stored (stored faithful)

theorem bind_lookup {lookup : Except LayoutError Other} {next : Other → Resolve Result}
    (makes : ∀ found, lookup = .ok found → Makes metadata (next found) ids state) :
    Makes metadata (liftM lookup >>= next) ids state := by
  cases lookup with
  | error => exact .throw
  | ok found => exact makes found rfl

/-- A change of the result that leaves its descriptors as they are. -/
theorem bind_pure {computation : Resolve Other} {change : Other → Result}
    (makes : Makes metadata computation (fun result ↦ ids (change result)) state) :
    Makes metadata (do return change (← computation)) ids state :=
  fun faithful ↦ ensures_bind.mpr (makes faithful)

end Makes

theorem makes_builtin (kind : TypeKind) :
    Makes metadata (builtin kind) (fun id ↦ [id]) state := by
  intro faithful
  refine ensures_bind.mpr (ensures_get.mpr ?_)
  split
  next id found =>
    have stored := (faithful.builtins kind id found).stored
    exact faithful.adds_of_stored (by simpa using stored)
  next =>
    refine ensures_bind.mpr (ensures_modifyGet.mpr ?_)
    exact (ResolutionState.adds_push_named _ (.inl ⟨kind, rfl⟩)).frame rfl rfl

theorem makes_parameter (index : Index .genericParameters) :
    Makes metadata (parameter metadata index) (fun id ↦ [id]) state := by
  intro faithful
  refine ensures_bind.mpr (ensures_get.mpr ?_)
  split
  next id found =>
    have stored := (faithful.parameters index id found).stored
    exact faithful.adds_of_stored (by simpa using stored)
  next =>
    rw [ensures_bind, ensures_lookup]
    refine ⟨fun record _ ↦ ensures_bind.mpr (ensures_modifyGet.mpr ?_), fun _ _ ↦ trivial⟩
    exact (ResolutionState.adds_push_named _ (.inr ⟨index, rfl⟩)).frame rfl rfl

theorem makes_usageOnce {key : UsageKey} {compute : Resolve Usage}
    (fresh : state.usages[key]? = none)
    (makes : ∀ state, Makes metadata compute (fun usage ↦ [usage.descriptor]) state) :
    Makes metadata (usageOnce key compute) (fun usage ↦ [usage.descriptor]) state := by
  intro faithful
  simp only [usageOnce, ensures_bind, ensures_modify, ensures_tryCatch, ensures_throw, ensures_pure]
  exact (makes _ (faithful.begin_usage fresh).1).mono (fun _ _ adds ↦ adds.frame rfl rfl)
    fun _ _ _ ↦ trivial

theorem makes_definitionOnce {definition : Index .typeDefinitions} {compute : Resolve DescriptorId}
    (fresh : state.definitions[definition]? = none)
    (makes : ∀ state : ResolutionState, state.definitions[definition]? = some .underway →
      Makes metadata compute (fun id ↦ [id]) state) :
    Makes metadata (definitionOnce definition compute) (fun id ↦ [id]) state := by
  intro faithful
  simp only [definitionOnce, ensures_bind, ensures_modify, ensures_tryCatch, ensures_throw,
    ensures_pure]
  refine (makes _ ?_ (faithful.begin_definition fresh).1).mono (fun _ _ adds ↦ adds.frame rfl rfl)
    fun _ _ _ ↦ trivial
  exact Std.TreeMap.getElem?_insert_self

end Resolve

namespace Linkage

open Resolve ResolutionState

variable {linkage : Linkage} {resolveParts : ResolveParts} {state : ResolutionState}

theorem makes_declaringDescriptor? (makes : MakesParts linkage.metadata resolveParts)
    (record : TypeDefinition) :
    Keeps linkage.metadata (record.declaringDescriptor? resolveParts) state
      fun declaring? after ↦
        (∀ declaring ∈ declaring?, declaring.position < after.descriptors.size) ∧
          state.Adds declaring?.toList after := by
  unfold TypeDefinition.declaringDescriptor?
  cases record.declaringType.present? with
  | none => exact .pure ⟨by simp, rfl⟩
  | some declaring =>
    refine .map (.bind (makes declaring .empty .name state) fun usage after _ _ ⟨stored, adds⟩ ↦ ?_)
    exact .pure ⟨by simpa using stored, adds⟩

theorem makes_buildDefinition (makes : MakesParts linkage.metadata resolveParts)
    {definition : Index .typeDefinitions}
    (underway : state.definitions[definition]? = some .underway) :
    Makes linkage.metadata (linkage.buildDefinition resolveParts definition) (fun id ↦ [id])
      state := by
  unfold buildDefinition
  refine .bind_lookup fun record _ faithful ↦ ?_
  refine (makes_declaringDescriptor? makes record).ensures_bind faithful (fun _ _ _ _ ↦ trivial)
    fun declaring? middle faithful grows ⟨stored, adds⟩ ↦ ?_
  refine ensures_bind.mpr (ensures_modifyGet.mpr (ensures_bind.mpr (ensures_lookup.mpr ?_)))
  refine ⟨fun parameterNames _ ↦ ensures_modifyGet.mpr ?_, fun _ _ ↦ trivial⟩
  have isNew : definition ∉ middle.made := by
    intro isMade
    -- Only what is done has been made, and the definition stays underway meanwhile.
    obtain ⟨id, done⟩ := faithful.mem_made.mp isMade
    have stillUnderway := (grows.definitionsUnderway definition).mpr underway
    exact nomatch done.symm.trans stillUnderway
  exact Adds.push_definition (adds.frame rfl rfl) stored rfl isNew

theorem makes_describeWith (makes : MakesParts linkage.metadata resolveParts)
    (definition : Index .typeDefinitions) :
    Makes linkage.metadata (linkage.describeWith resolveParts definition) (fun id ↦ [id])
      state := by
  unfold Makes describeWith
  rw [ensures_bind, ensures_get]
  split
  next id done =>
    refine Makes.pure fun faithful ↦ ?_
    simpa using (faithful.definitions definition id done).stored
  next => exact fun _ ↦ trivial
  next fresh =>
    exact makes_definitionOnce fresh fun _ underway ↦ makes_buildDefinition makes underway

theorem makes_arguments (makes : MakesParts linkage.metadata resolveParts)
    (context : GenericContext) (types : List (Index .types)) :
    Keeps linkage.metadata (types.mapM fun type ↦ resolveParts type context .name) state
      fun usages after ↦
        (∀ usage ∈ usages, usage.descriptor.position < after.descriptors.size) ∧
          state.Adds (usages.map (·.descriptor)) after := by
  induction types generalizing state with
  | nil => exact .pure ⟨by simp, rfl⟩
  | cons type rest ih =>
    rw [List.mapM_cons]
    refine .bind (makes type context .name state) fun usage middle _ _ ⟨stored, adds⟩ ↦ ?_
    refine .bind ih fun usages after _ grows ⟨restStored, restAdds⟩ ↦ .pure ⟨?_, ?_⟩
    · refine List.forall_mem_cons.mpr ⟨?_, restStored⟩
      exact Nat.lt_of_lt_of_le stored grows.arena.size_le
    · exact adds.append restAdds grows.arena (by simpa using stored)

theorem makes_buildInstantiation (remembers : Remembers linkage.metadata resolveParts)
    (makes : MakesParts linkage.metadata resolveParts) (genericClass : Index .genericClasses)
    (definition : Index .typeDefinitions) (context : GenericContext) :
    Makes linkage.metadata
      (linkage.buildInstantiation resolveParts genericClass definition context) (fun id ↦ [id])
      state := by
  intro faithful
  refine ((keeps_describeWith remembers definition).and_makes
    (makes_describeWith makes definition)).ensures_bind faithful (fun _ _ _ _ ↦ trivial)
      fun openId middle faithful _ ⟨done, adds⟩ ↦ ?_
  refine ensures_bind.mpr (ensures_lookup.mpr ⟨fun arguments _ ↦ ?_, fun _ _ ↦ trivial⟩)
  refine (makes_arguments makes context arguments).ensures_bind faithful (fun _ _ _ _ ↦ trivial)
    fun usages last lastFaithful grows ⟨stored, argumentsAdds⟩ ↦ ?_
  obtain ⟨openDescriptor, found, isDefinition⟩ := faithful.definitions definition openId done
  have foundLast := grows.arena.getElem?_eq_some found
  rw [ensures_bind, ensures_get, foundLast, Option.getD_some]
  have openStored := (Array.getElem?_eq_some_iff.mp found).1
  have addsAll := adds.append argumentsAdds grows.arena (by simpa using openStored)
  exact ensures_modifyGet.mpr
    (Adds.push_instantiation addsAll lastFaithful foundLast isDefinition stored rfl)

/-- Whatever recipe is followed, what the parts make is all that is made, but for a definition that
is new. -/
theorem makes_follow (remembers : Remembers linkage.metadata resolveParts)
    (makes : MakesParts linkage.metadata resolveParts) (recipe : Recipe) :
    Makes linkage.metadata (linkage.follow resolveParts recipe) (fun usage ↦ [usage.descriptor])
      state := by
  cases recipe with
  | builtin kind => exact .bind_pure (makes_builtin kind)
  | parameter parameter => exact .bind_pure (makes_parameter parameter)
  | replaced part => exact (makes part.type part.context part.mode state).makes
  | pointer part | array _ part =>
    exact .bind_pure (makes part.type part.context part.mode state).makes
  | definition definition => exact .bind_pure (makes_describeWith makes definition)
  | undefined genericClass =>
    intro faithful
    refine ensures_bind.mpr (ensures_modify.mpr ?_)
    have makesObject (state : ResolutionState) :
        Makes linkage.metadata (do return Usage.plain (← builtin .object))
          (fun usage ↦ [usage.descriptor]) state :=
      .bind_pure (makes_builtin .object)
    refine (makesObject _ ?_).mono (fun _ _ adds ↦ adds.frame rfl rfl) fun _ _ _ ↦ trivial
    exact ((keeps_report (.undefinedGenericClass genericClass)).after faithful).1
  | instantiation genericClass definition context =>
    exact .bind_pure (makes_buildInstantiation remembers makes genericClass definition context)

/-- What is in the memory is not made again. -/
theorem makes_remembered {metadata : Metadata} {key : UsageKey} {compute : Resolve Usage}
    {error : LayoutError}
    (makes : state.usages[key]? = none →
      Makes metadata compute (fun usage ↦ [usage.descriptor]) state) :
    Makes metadata
      (do
        match (← get).usages[key]? with
        | some (.done usage) => return usage
        | some .underway => throw error
        | none => compute) (fun usage ↦ [usage.descriptor]) state := by
  unfold Makes
  rw [ensures_bind, ensures_get]
  split
  next usage done =>
    refine Makes.pure fun faithful ↦ ?_
    simpa using (faithful.usages key usage done).stored
  next => exact fun _ ↦ trivial
  next fresh => exact makes fresh

theorem makes_resolveWithin (room : Nat) :
    MakesParts linkage.metadata (linkage.resolveWithin room) := by
  -- What else the parts have to leave behind follows from the memory.
  have of_makes (room : Nat) (makes : ∀ type context mode state,
      Makes linkage.metadata (linkage.resolveWithin room type context mode)
        (fun usage ↦ [usage.descriptor]) state) :
      MakesParts linkage.metadata (linkage.resolveWithin room) := by
    intro type context mode state
    refine ((remembers_resolveWithin room type context mode state).and_makes
      (makes type context mode state)).mono fun usage after faithful _ ⟨done, adds⟩ ↦ ?_
    exact ⟨(faithful.usages _ usage done).stored, adds⟩
  induction room with
  | zero =>
    refine of_makes 0 fun type context mode state ↦ ?_
    unfold resolveWithin
    exact .bind_lookup fun reference _ ↦ makes_remembered fun _ ↦ .throw
  | succ room ih =>
    refine of_makes (room + 1) fun type context mode state ↦ ?_
    unfold resolveWithin
    refine .bind_lookup fun reference isReference ↦ makes_remembered fun fresh ↦ ?_
    refine makes_usageOnce fresh fun state ↦ ?_
    rw [expand_eq ⟨_, _, _⟩ isReference]
    exact .bind_lookup fun recipe _ ↦ makes_follow (remembers_resolveWithin room) ih recipe

/-- A definition is made together with what its usage is made of. -/
theorem makes_definitionUsage (definition : Index .typeDefinitions) (mode : ResolveMode) :
    Makes linkage.metadata (linkage.definitionUsage definition mode)
      (fun usage ↦ [usage.descriptor]) state := by
  have makes : MakesParts linkage.metadata linkage.resolve := makes_resolveWithin maxNesting
  refine .bind_lookup fun type? _ ↦ ?_
  cases type? with
  | none => exact .bind_pure (makes_describeWith makes definition)
  | some type =>
    refine .bind_lookup fun reference _ ↦ ?_
    split
    · exact .bind_pure (makes_describeWith makes definition)
    · exact (makes type .empty mode state).makes

end Linkage

end ManagedLayout

import ManagedLayout.Proofs.Resolution.Expansion
import ManagedLayout.Proofs.Resolution.Nesting

/-!
# The limit on nesting

When a resolution gives up because types are nested too deep. The limit counts the levels that are
worked on in one call, so that it depends on what has been resolved by earlier calls, and on the
order of the parts of a type: a type may be nested deeper than the limit and be resolved all the
same. A type that is not nested deeper than the limit is always resolved.
-/

namespace ManagedLayout

namespace ResolutionState

variable {metadata : Metadata} {state before after : ResolutionState} {key part : UsageKey}

/-- The usages that are done. -/
def resolved (metadata : Metadata) (state : ResolutionState) : Set UsageKey :=
  {key | ∃ usage, state.usages[metadata.normal key]? = some (.done usage)}

/-- What a resolved usage is made of is resolved as well. -/
theorem Faithful.components_subset (faithful : state.Faithful metadata) {keys : List UsageKey}
    (areResolved : ∀ key ∈ keys, key ∈ state.resolved metadata) :
    metadata.components keys ⊆ state.resolved metadata := by
  rintro other ⟨key, mem, component⟩
  have isResolved := areResolved key mem
  clear areResolved mem
  induction component with
  | self same =>
    obtain ⟨usage, done⟩ := isResolved
    exact ⟨usage, by rwa [same]⟩
  | part isLayer mem _ ih =>
    obtain ⟨usage, done⟩ := isResolved
    refine ih ((faithful.usages _ usage done).parts _ ?_ _ mem)
    rwa [Metadata.layer_normal]

/-- Nothing that expands to so many layers is underway. -/
structure Clear (metadata : Metadata) (state : ResolutionState) (layers : Nat) : Prop where
  usages : ∀ key, metadata.Within layers key →
    state.usages[metadata.normal key]? ≠ some .underway
  definitions : ∀ (definition : Index .typeDefinitions) declaring? fewer, fewer < layers →
    metadata.declaringUsage? definition = .ok declaring? →
    (∀ part ∈ declaring?, metadata.Within fewer part) →
    state.definitions[definition]? ≠ some .underway

/-- A usage has an expansion, in which nothing is underway. -/
def Ready (metadata : Metadata) (state : ResolutionState) (key : UsageKey) : Prop :=
  ∃ depth, metadata.IsDepth depth key ∧ state.Clear metadata depth

theorem Clear.mono {layers fewer : Nat} (clear : state.Clear metadata layers)
    (enough : fewer ≤ layers) : state.Clear metadata fewer where
  usages key within := clear.usages key (within.mono enough)
  definitions definition declaring? room few :=
    clear.definitions definition declaring? room (Nat.lt_of_lt_of_le few enough)

theorem Ready.of_grows (grows : before.Grows after) (ready : before.Ready metadata key) :
    after.Ready metadata key := by
  obtain ⟨depth, isDepth, clear⟩ := ready
  refine ⟨depth, isDepth, ?_, ?_⟩
  · intro key within
    rw [Ne, grows.usagesUnderway]
    exact clear.usages key within
  · intro definition declaring? fewer few isDeclaring within
    rw [Ne, grows.definitionsUnderway]
    exact clear.definitions definition declaring? fewer few isDeclaring within

/-- While a usage is worked on, its parts are ready. -/
theorem Clear.ready_part {normal : UsageKey} {layers count : Nat} {layer : TypeLayer}
    (clear : state.Clear metadata (layers + 1)) (isNormal : metadata.normal key = normal)
    (isLayer : metadata.layer key = .ok layer) (mem : part ∈ layer.parts)
    (within : metadata.Within layers part) :
    { state with
        usages := state.usages.insert normal .underway
        resolvedCount := count }.Ready metadata part := by
  obtain ⟨depth, few, isDepth⟩ := within.exists_depth
  refine ⟨depth, isDepth, fun other otherWithin ↦ ?_,
    (clear.mono (Nat.le_succ_of_le few)).definitions⟩
  rw [getElem?_insert_eq]
  split
  next same =>
    -- The usage is made of the part, so that it has at least one more layer.
    cases depth with
    | zero => simp at otherWithin
    | succ fewer =>
      obtain ⟨found, isFound, partsWithin⟩ :=
        Metadata.within_succ.mp
          (Metadata.within_of_normal_eq (isNormal.trans same).symm otherWithin)
      obtain rfl := Except.ok.inj (isLayer.symm.trans isFound)
      exact absurd (partsWithin part mem) (isDepth.2 fewer (Nat.lt_succ_self fewer))
  next => exact (clear.mono (Nat.le_succ_of_le few)).usages other otherWithin

/-- While a definition is worked on, its declaring type is ready. -/
theorem Ready.begin_definition {definition : Index .typeDefinitions}
    {declaring? : Option UsageKey} (ready : state.Ready metadata part)
    (isDeclaring : metadata.declaringUsage? definition = .ok declaring?) (mem : part ∈ declaring?) :
    { state with definitions := state.definitions.insert definition .underway }.Ready
      metadata part := by
  obtain ⟨depth, isDepth, clear⟩ := ready
  refine ⟨depth, isDepth, clear.usages, fun other found? fewer few isFound within ↦ ?_⟩
  rw [getElem?_insert_eq]
  split
  next same =>
    subst same
    obtain rfl := Except.ok.inj (isDeclaring.symm.trans isFound)
    exact absurd (within part mem) (isDepth.2 fewer few)
  next => exact clear.definitions other found? fewer few isFound within

/-- Nothing is underway that a layer needs. -/
structure Prepared (metadata : Metadata) (state : ResolutionState) (layer : TypeLayer) : Prop where
  parts : ∀ part ∈ layer.parts, state.Ready metadata part
  definitions : ∀ (definition : Index .typeDefinitions) declaring?,
    metadata.declaringUsage? definition = .ok declaring? →
    (∀ part ∈ declaring?, part ∈ layer.parts) → state.definitions[definition]? ≠ some .underway

/-- While a usage is worked on, nothing is underway that its layer needs. -/
theorem Clear.prepared {normal : UsageKey} {layers count : Nat} {layer : TypeLayer}
    (clear : state.Clear metadata (layers + 1)) (isNormal : metadata.normal key = normal)
    (isLayer : metadata.layer key = .ok layer)
    (within : ∀ part ∈ layer.parts, metadata.Within layers part) :
    { state with
        usages := state.usages.insert normal .underway
        resolvedCount := count }.Prepared metadata layer where
  parts part mem := clear.ready_part isNormal isLayer mem (within part mem)
  definitions definition declaring? isDeclaring mem :=
    clear.definitions definition declaring? layers (Nat.lt_succ_self layers) isDeclaring
      fun part isPart ↦ within part (mem part isPart)

end ResolutionState

namespace Metadata

/-- Parts that are resolved already are not too deep. -/
theorem not_someTooNested {metadata : Metadata} {room : Nat} {resolved : Set UsageKey}
    {keys : List UsageKey} (areResolved : ∀ key ∈ keys, key ∈ resolved) :
    ¬metadata.SomeTooNested (metadata.TooNested room) resolved keys := by
  induction keys generalizing resolved with
  | nil => exact fun impossible ↦ impossible
  | cons key keys ih =>
    rintro (tooNested | someTooNested)
    · exact tooNested.notMem (areResolved key (by simp))
    · exact ih (fun other mem ↦ .inl (areResolved other (by simp [mem]))) someTooNested

end Metadata

/-- A usage with an expansion has a type reference. -/
theorem Metadata.IsDepth.exists_reference {metadata : Metadata} {depth : Nat} {key : UsageKey}
    (isDepth : metadata.IsDepth depth key) :
    ∃ reference, metadata.typeReference key.type = .ok reference := by
  cases depth with
  | zero => exact absurd isDepth.1 Metadata.not_within_zero
  | succ layers =>
    obtain ⟨layer, isLayer, -⟩ := Metadata.within_succ.mp isDepth.1
    exact Metadata.exists_reference_of_layer isLayer

namespace Resolve

variable {Result Other : Type} {metadata : Metadata} {state : ResolutionState} {room : Nat}
  {parts rest : List UsageKey}

/-- The computation resolves some usages, one after the other, unless one of them is too deep. -/
def Settles (metadata : Metadata) (computation : Resolve Result) (state : ResolutionState)
    (room : Nat) (parts : List UsageKey) : Prop :=
  Ensures computation state
    (fun _ after ↦
      ¬metadata.SomeTooNested (metadata.TooNested room) (state.resolved metadata) parts ∧
        after.resolved metadata = state.resolved metadata ∪ metadata.components parts)
    (fun error _ ↦ (∃ type, error = .tooDeep type maxNesting) ∧
      metadata.SomeTooNested (metadata.TooNested room) (state.resolved metadata) parts)

namespace Settles

/-- A computation that does not fail, and leaves the usages as they are. -/
theorem of_same {computation : Resolve Result}
    (same : Ensures computation state (fun _ after ↦ after.usages = state.usages) fun _ _ ↦ False) :
    Settles metadata computation state room [] := by
  refine same.mono (fun _ after same ↦ ?_) fun _ _ impossible ↦ impossible.elim
  simp [Metadata.SomeTooNested, ResolutionState.resolved, same]

theorem pure {result : Result} : Settles metadata (Pure.pure result) state room [] :=
  of_same rfl

theorem map {computation : Resolve Other} {change : Other → Result}
    (settles : Settles metadata computation state room parts) :
    Settles metadata (change <$> computation) state room parts := by
  unfold Settles
  rw [ensures_map]
  exact settles

theorem bind_pure {computation : Resolve Other} {change : Other → Result}
    (settles : Settles metadata computation state room parts) :
    Settles metadata (do return change (← computation)) state room parts := by
  rw [bind_pure_comp]
  exact settles.map

theorem bind {first : Resolve Other} {next : Other → Resolve Result}
    {middle : Other → ResolutionState → Prop}
    (settles : Settles metadata first state room parts) (faithful : state.Faithful metadata)
    (kept : Keeps metadata first state middle)
    (nextSettles : ∀ result after, after.Faithful metadata → state.Grows after →
      middle result after → Settles metadata (next result) after room rest) :
    Settles metadata (first >>= next) state room (parts ++ rest) := by
  unfold Settles
  rw [ensures_bind]
  simp only [Metadata.someTooNested_append, Metadata.components_append]
  refine ((kept faithful).and settles).mono ?_ fun error after ⟨_, tooDeep, nested⟩ ↦
    ⟨tooDeep, .inl nested⟩
  rintro result after ⟨⟨faithful, grows, holds⟩, notNested, resolved⟩
  refine (nextSettles result after faithful grows holds).mono ?_ ?_
  · rintro _ last ⟨restNotNested, lastResolved⟩
    rw [resolved] at restNotNested lastResolved
    exact ⟨not_or.mpr ⟨notNested, restNotNested⟩, by rw [lastResolved, Set.union_assoc]⟩
  · rintro _ last ⟨tooDeep, nested⟩
    rw [resolved] at nested
    exact ⟨tooDeep, .inr nested⟩

/-- The same if nothing is resolved afterwards. -/
theorem bind_last {first : Resolve Other} {next : Other → Resolve Result}
    {middle : Other → ResolutionState → Prop}
    (settles : Settles metadata first state room parts) (faithful : state.Faithful metadata)
    (kept : Keeps metadata first state middle)
    (nextSettles : ∀ result after, after.Faithful metadata → state.Grows after →
      middle result after → Settles metadata (next result) after room []) :
    Settles metadata (first >>= next) state room parts := by
  simpa using settles.bind faithful kept nextSettles

theorem bind_lookup {lookup : Except LayoutError Other} {found : Other}
    {next : Other → Resolve Result} (isFound : lookup = .ok found)
    (nextSettles : Settles metadata (next found) state room parts) :
    Settles metadata (liftM lookup >>= next) state room parts := by
  unfold Settles
  rw [ensures_bind, ensures_lookup, isFound]
  exact ⟨fun _ same ↦ Except.ok.inj same ▸ nextSettles, fun _ impossible ↦ nomatch impossible⟩

/-- Usages that are resolved already need not be resolved. -/
theorem of_resolved {result : Result} (faithful : state.Faithful metadata)
    (areResolved : ∀ part ∈ parts, part ∈ state.resolved metadata) :
    Settles metadata (Pure.pure result) state room parts :=
  ⟨Metadata.not_someTooNested areResolved,
    (Set.union_eq_self_of_subset_right (faithful.components_subset areResolved)).symm⟩

end Settles

/-- Only a usage that is not known is worked on. -/
theorem settles_remembered {key normal : UsageKey} {compute : Resolve Usage} {error : LayoutError}
    (isNormal : metadata.normal key = normal) (faithful : state.Faithful metadata)
    (notUnderway : state.usages[normal]? ≠ some .underway)
    (settles : state.usages[normal]? = none → Settles metadata compute state room [key]) :
    Settles metadata
      (do
        match (← get).usages[normal]? with
        | some (.done usage) => return usage
        | some .underway => throw error
        | none => compute) state room [key] := by
  unfold Settles
  rw [ensures_bind, ensures_get]
  split
  next usage done =>
    refine Settles.of_resolved faithful fun part mem ↦ ?_
    obtain rfl := List.mem_singleton.mp mem
    exact ⟨usage, isNormal ▸ done⟩
  next underway => exact absurd underway notUnderway
  next fresh => exact settles fresh

/-- The recursive call: it resolves the usage that it is called for, with so much room in it. -/
def SettlesParts (metadata : Metadata) (room : Nat) (resolveParts : ResolveParts) : Prop :=
  ∀ part (state : ResolutionState), state.Faithful metadata → state.Ready metadata part →
    Settles metadata (resolveParts part.type part.context part.mode) state room [part]

theorem settles_builtin (kind : TypeKind) : Settles metadata (builtin kind) state room [] := by
  refine .of_same ?_
  unfold builtin
  rw [ensures_bind, ensures_get]
  split <;> rfl

theorem settles_parameter {index : Index .genericParameters} {record : GenericParameter}
    (isRecord : metadata.genericParameter index = .ok record) :
    Settles metadata (parameter metadata index) state room [] := by
  refine .of_same ?_
  unfold parameter
  rw [ensures_bind, ensures_get, isRecord]
  split <;> rfl

theorem settles_definitionOnce {definition : Index .typeDefinitions} {compute : Resolve DescriptorId}
    (settles : Settles metadata compute
      { state with definitions := state.definitions.insert definition .underway } room parts) :
    Settles metadata (definitionOnce definition compute) state room parts := by
  unfold Settles
  simp only [definitionOnce, ensures_bind, ensures_modify, ensures_tryCatch, ensures_throw,
    ensures_pure]
  exact settles

/-- Work on a usage needs one level of room more than its parts. -/
theorem settles_usageOnce {key normal : UsageKey} {layer : TypeLayer} {compute : Resolve Usage}
    (isNormal : metadata.normal key = normal) (isLayer : metadata.layer key = .ok layer)
    (fresh : state.usages[normal]? = none)
    (settles : Settles metadata compute
      { state with
        usages := state.usages.insert normal .underway
        resolvedCount := state.resolvedCount + 1 } room layer.parts) :
    Settles metadata (usageOnce normal compute) state (room + 1) [key] := by
  subst isNormal
  have notResolved : key ∉ state.resolved metadata := by
    simp [ResolutionState.resolved, fresh]
  have sameResolved : ({ state with
      usages := state.usages.insert (metadata.normal key) .underway
      resolvedCount := state.resolvedCount + 1 } : ResolutionState).resolved metadata =
        state.resolved metadata := by
    ext other
    simp only [ResolutionState.resolved, Set.mem_ofPred_eq, getElem?_insert_eq]
    split
    next same => simp [← same, fresh]
    next => rfl
  have nested_iff : metadata.SomeTooNested (metadata.TooNested (room + 1))
      (state.resolved metadata) [key] ↔
        metadata.SomeTooNested (metadata.TooNested room) (state.resolved metadata) layer.parts := by
    simp [Metadata.SomeTooNested, Metadata.TooNested, notResolved, isLayer]
  unfold Settles at settles ⊢
  simp only [usageOnce, ensures_bind, ensures_modify, ensures_tryCatch, ensures_throw, ensures_pure]
  rw [sameResolved] at settles
  rw [nested_iff]
  refine settles.mono ?_ fun error after tooDeep ↦ tooDeep
  rintro usage after ⟨notNested, resolved⟩
  refine ⟨notNested, ?_⟩
  rw [Metadata.components_singleton isLayer, Set.union_left_comm, ← resolved]
  ext other
  simp only [ResolutionState.resolved, Set.mem_ofPred_eq, Set.mem_union, getElem?_insert_eq]
  split
  next same => simp [same]
  next different => simp [Ne.symm different]

end Resolve

namespace Linkage

open Resolve

variable {linkage : Linkage} {resolveParts : ResolveParts} {state : ResolutionState} {room : Nat}

theorem settles_declaringDescriptor? (settles : SettlesParts linkage.metadata room resolveParts)
    (remembers : Remembers linkage.metadata resolveParts) {record : TypeDefinition}
    {declaring? : Option UsageKey}
    (isDeclaring : record.declaringType.present?.map (⟨·, .empty, .name⟩) = declaring?)
    (faithful : state.Faithful linkage.metadata)
    (ready : ∀ part ∈ declaring?, state.Ready linkage.metadata part) :
    Settles linkage.metadata (record.declaringDescriptor? resolveParts) state room
      declaring?.toList := by
  unfold TypeDefinition.declaringDescriptor?
  subst isDeclaring
  generalize record.declaringType.present? = type? at ready ⊢
  cases type? with
  | none => exact .pure
  | some type =>
    have typeSettles := settles ⟨type, .empty, .name⟩ state faithful (ready _ rfl)
    exact .map (typeSettles.bind_last faithful (remembers type .empty .name state)
      fun _ _ _ _ _ ↦ .pure)

theorem settles_buildDefinition (settles : SettlesParts linkage.metadata room resolveParts)
    (remembers : Remembers linkage.metadata resolveParts) {definition : Index .typeDefinitions}
    {declaring? : Option UsageKey}
    (isDeclaring : linkage.metadata.declaringUsage? definition = .ok declaring?)
    (faithful : state.Faithful linkage.metadata)
    (ready : ∀ part ∈ declaring?, state.Ready linkage.metadata part) :
    Settles linkage.metadata (linkage.buildDefinition resolveParts definition) state room
      declaring?.toList := by
  simp only [Metadata.declaringUsage?, lookup_bind_eq_ok, lookup_pure_eq_ok] at isDeclaring
  obtain ⟨record, isRecord, parameterNames, areNames, isDeclaring⟩ := isDeclaring
  unfold buildDefinition
  refine .bind_lookup isRecord ?_
  refine (settles_declaringDescriptor? settles remembers isDeclaring faithful ready).bind_last
    faithful (keeps_declaringDescriptor? remembers record) fun declaringType? after _ _ _ ↦ ?_
  refine .of_same ?_
  simp only [ensures_bind, areNames]
  rfl

/-- The descriptor of a definition is there as soon as its declaring type is resolved. -/
theorem settles_describeWith (settles : SettlesParts linkage.metadata room resolveParts)
    (remembers : Remembers linkage.metadata resolveParts) {definition : Index .typeDefinitions}
    {declaring? : Option UsageKey}
    (isDeclaring : linkage.metadata.declaringUsage? definition = .ok declaring?)
    (notUnderway : state.definitions[definition]? ≠ some .underway)
    (faithful : state.Faithful linkage.metadata)
    (ready : ∀ part ∈ declaring?, state.Ready linkage.metadata part) :
    Settles linkage.metadata (linkage.describeWith resolveParts definition) state room
      declaring?.toList := by
  unfold describeWith Settles
  rw [ensures_bind, ensures_get]
  split
  next id done =>
    refine Settles.of_resolved faithful fun part mem ↦ ?_
    obtain ⟨found?, isFound, assembled⟩ := faithful.definition_tree done
    obtain rfl := Except.ok.inj (isDeclaring.symm.trans isFound)
    obtain ⟨tree, remembered⟩ := TypeLayer.expand_of_mem_parts assembled mem
    obtain ⟨usage, done, -⟩ := ResolutionState.remembered_eq_ok.mp remembered
    exact ⟨usage, done⟩
  next underway => exact absurd underway notUnderway
  next fresh =>
    refine settles_definitionOnce (settles_buildDefinition settles remembers isDeclaring ?_ ?_)
    · exact (faithful.begin_definition fresh).1
    · exact fun part mem ↦ (ready part mem).begin_definition isDeclaring mem

theorem settles_arguments (settles : SettlesParts linkage.metadata room resolveParts)
    (remembers : Remembers linkage.metadata resolveParts) {types : List (Index .types)}
    {context : GenericContext} (faithful : state.Faithful linkage.metadata)
    (ready : ∀ type ∈ types, state.Ready linkage.metadata ⟨type, context, .name⟩) :
    Settles linkage.metadata (types.mapM fun type ↦ resolveParts type context .name) state room
      (types.map (⟨·, context, .name⟩)) := by
  induction types generalizing state with
  | nil => exact .pure
  | cons type rest ih =>
    rw [List.mapM_cons, List.map_cons]
    refine (settles ⟨type, context, .name⟩ state faithful (ready type (by simp))).bind faithful
      (remembers type context .name state) fun usage middle faithful grows _ ↦ ?_
    have restReady : ∀ type ∈ rest, middle.Ready linkage.metadata ⟨type, context, .name⟩ :=
      fun type mem ↦ (ready type (by simp [mem])).of_grows grows
    exact (ih faithful restReady).bind_last faithful (keeps_arguments remembers rest context)
      fun _ _ _ _ _ ↦ .pure

theorem settles_buildInstantiation (settles : SettlesParts linkage.metadata room resolveParts)
    (remembers : Remembers linkage.metadata resolveParts) {genericClass : Index .genericClasses}
    {definition : Index .typeDefinitions} {declaring? : Option UsageKey}
    {arguments : List (Index .types)} {context : GenericContext}
    (isDeclaring : linkage.metadata.declaringUsage? definition = .ok declaring?)
    (areArguments : linkage.metadata.classArguments genericClass = .ok arguments)
    (notUnderway : state.definitions[definition]? ≠ some .underway)
    (faithful : state.Faithful linkage.metadata)
    (ready : ∀ part ∈ declaring?.toList ++ arguments.map (⟨·, context, .name⟩),
      state.Ready linkage.metadata part) :
    Settles linkage.metadata
      (linkage.buildInstantiation resolveParts genericClass definition context) state room
      (declaring?.toList ++ arguments.map (⟨·, context, .name⟩)) := by
  unfold buildInstantiation
  have declaringReady : ∀ part ∈ declaring?, state.Ready linkage.metadata part :=
    fun part mem ↦ ready part (by simp [Option.mem_def.mp mem])
  refine (settles_describeWith settles remembers isDeclaring notUnderway faithful
    declaringReady).bind faithful (keeps_describeWith remembers definition)
    fun openId middle faithful grows _ ↦ .bind_lookup areArguments ?_
  have argumentsReady :
      ∀ type ∈ arguments, middle.Ready linkage.metadata ⟨type, context, .name⟩ :=
    fun type mem ↦ (ready _ (by simp [mem])).of_grows grows
  exact (settles_arguments settles remembers faithful argumentsReady).bind_last faithful
    (keeps_arguments remembers arguments context) fun _ _ _ _ _ ↦ .of_same rfl

/-- Following a recipe resolves the parts of its layer, one after the other. -/
theorem settles_follow (settles : SettlesParts linkage.metadata room resolveParts)
    (remembers : Remembers linkage.metadata resolveParts) {recipe : Recipe} {layer : TypeLayer}
    (isLayer : linkage.metadata.recipeLayer recipe = .ok layer)
    (faithful : state.Faithful linkage.metadata)
    (prepared : state.Prepared linkage.metadata layer) :
    Settles linkage.metadata (linkage.follow resolveParts recipe) state room layer.parts := by
  cases recipe with
  | builtin kind =>
    obtain rfl := lookup_pure_eq_ok.mp isLayer
    exact (settles_builtin kind).bind_pure
  | parameter parameter =>
    obtain ⟨record, isRecord, isLayer⟩ := lookup_bind_eq_ok.mp isLayer
    obtain rfl := lookup_pure_eq_ok.mp isLayer
    exact (settles_parameter isRecord).bind_pure
  | replaced part =>
    obtain rfl := lookup_pure_eq_ok.mp isLayer
    exact settles part state faithful (prepared.parts _ (List.mem_singleton_self _))
  | pointer part | array _ part =>
    obtain rfl := lookup_pure_eq_ok.mp isLayer
    exact (settles part state faithful (prepared.parts _ (List.mem_singleton_self _))).bind_pure
  | definition definition =>
    obtain ⟨declaring?, isDeclaring, isLayer⟩ := lookup_bind_eq_ok.mp isLayer
    obtain rfl := lookup_pure_eq_ok.mp isLayer
    have notUnderway :=
      prepared.definitions definition declaring? isDeclaring (by simp [TypeLayer.parts])
    have ready : ∀ part ∈ declaring?, state.Ready linkage.metadata part :=
      fun part mem ↦ prepared.parts part (by simpa [TypeLayer.parts] using mem)
    exact (settles_describeWith settles remembers isDeclaring notUnderway faithful ready).bind_pure
  | undefined genericClass =>
    obtain rfl := lookup_pure_eq_ok.mp isLayer
    exact Settles.bind_last (.of_same rfl) faithful (keeps_report _)
      fun _ _ _ _ _ ↦ (settles_builtin .object).bind_pure
  | instantiation genericClass definition context =>
    simp only [Metadata.recipeLayer, lookup_bind_eq_ok, lookup_pure_eq_ok] at isLayer
    obtain ⟨declaring?, isDeclaring, arguments, areArguments, rfl⟩ := isLayer
    have notUnderway : state.definitions[definition]? ≠ some .underway :=
      prepared.definitions definition declaring? isDeclaring fun part mem ↦ by
        simp [TypeLayer.parts, Option.mem_def.mp mem]
    exact (settles_buildInstantiation settles remembers isDeclaring areArguments notUnderway faithful
      prepared.parts).bind_pure

theorem settles_expand (settles : SettlesParts linkage.metadata room resolveParts)
    (remembers : Remembers linkage.metadata resolveParts) {key : UsageKey}
    {reference : TypeReference} {layer : TypeLayer}
    (isReference : linkage.metadata.typeReference key.type = .ok reference)
    (isLayer : linkage.metadata.layer key = .ok layer)
    (faithful : state.Faithful linkage.metadata)
    (prepared : state.Prepared linkage.metadata layer) :
    Settles linkage.metadata
      (linkage.expand resolveParts key.type reference key.context key.mode) state room
      layer.parts := by
  obtain ⟨recipe, isRecipe, isLayer⟩ := lookup_bind_eq_ok.mp isLayer
  rw [expand_eq key isReference]
  exact .bind_lookup isRecipe (settles_follow settles remembers isLayer faithful prepared)

/-- The recursion resolves what has an expansion, unless that is too deep. -/
theorem settlesParts_resolveWithin (room : Nat) :
    SettlesParts linkage.metadata room (linkage.resolveWithin room) := by
  induction room with
  | zero =>
    rintro ⟨type, context, mode⟩ state faithful ⟨depth, isDepth, clear⟩
    obtain ⟨reference, isReference⟩ := isDepth.exists_reference
    have isNormal := Metadata.normal_eq isReference
    have notUnderway := clear.usages _ isDepth.1
    rw [isNormal] at notUnderway
    unfold resolveWithin
    refine .bind_lookup isReference ?_
    refine settles_remembered isNormal faithful notUnderway fun fresh ↦ ?_
    refine ⟨⟨type.raw, rfl⟩, .inl ?_⟩
    rintro ⟨usage, done⟩
    rw [isNormal, fresh] at done
    simp at done
  | succ room ih =>
    rintro ⟨type, context, mode⟩ state faithful ⟨depth, isDepth, clear⟩
    obtain ⟨reference, isReference⟩ := isDepth.exists_reference
    have isNormal := Metadata.normal_eq isReference
    have notUnderway := clear.usages _ isDepth.1
    rw [isNormal] at notUnderway
    unfold resolveWithin
    refine .bind_lookup isReference ?_
    refine settles_remembered isNormal faithful notUnderway fun fresh ↦ ?_
    cases depth with
    | zero => exact absurd isDepth.1 Metadata.not_within_zero
    | succ layers =>
      obtain ⟨layer, isLayer, partsWithin⟩ := Metadata.within_succ.mp isDepth.1
      have normalLayer := Metadata.layer_normal.trans isLayer
      rw [isNormal] at normalLayer
      refine settles_usageOnce isNormal isLayer fresh ?_
      refine settles_expand ih (remembers_resolveWithin room) ?_ normalLayer ?_
        (clear.prepared isNormal isLayer partsWithin)
      · exact isReference
      · exact (faithful.begin_usage fresh).1

/-- Between calls, whatever has an expansion is ready to be resolved. -/
theorem Reachable.ready (reachable : linkage.Reachable state) {key : UsageKey} {tree : TypeTree}
    (expands : linkage.metadata.Expands key tree) : state.Ready linkage.metadata key := by
  obtain ⟨layers, expanded⟩ := expands
  have ⟨depth, _, isDepth⟩ := Metadata.Within.exists_depth ⟨tree, expanded⟩
  refine ⟨depth, isDepth, fun other _ ↦ ?_, fun definition _ _ _ _ _ ↦ ?_⟩
  · rw [Ne, reachable.idle.usagesUnderway]
    simp [ResolutionState.empty]
  · rw [Ne, reachable.idle.definitionsUnderway]
    simp [ResolutionState.empty]

/-- Between calls, a call resolves what has an expansion, unless that is too deep. -/
theorem Reachable.settles (reachable : linkage.Reachable state) {type : Index .types}
    {context : GenericContext} {mode : ResolveMode} {tree : TypeTree}
    (expands : linkage.metadata.Expands ⟨type, context, mode⟩ tree) :
    Settles linkage.metadata (linkage.resolve type context mode) state maxNesting
      [⟨type, context, mode⟩] :=
  settlesParts_resolveWithin maxNesting _ state reachable.faithful (reachable.ready expands)

/-- A call for what has an expansion is too deep, or resolves it. -/
theorem Reachable.tooDeep_or_ok (reachable : linkage.Reachable state) {type : Index .types}
    {context : GenericContext} {mode : ResolveMode} {tree : TypeTree}
    (expands : linkage.metadata.Expands ⟨type, context, mode⟩ tree) :
    linkage.metadata.TooNested maxNesting (state.resolved linkage.metadata)
        ⟨type, context, mode⟩ ∧
      (∃ deepest, ((linkage.resolve type context mode).run.run state).1 =
        .error (.tooDeep deepest maxNesting)) ∨
    ¬linkage.metadata.TooNested maxNesting (state.resolved linkage.metadata)
        ⟨type, context, mode⟩ ∧
      ∃ usage, ((linkage.resolve type context mode).run.run state).1 = .ok usage := by
  have settles := reachable.settles expands
  unfold Settles Ensures at settles
  simp only [Metadata.SomeTooNested, or_false] at settles
  split at settles
  next usage after resolved => exact .inr ⟨settles.1, usage, by rw [resolved]⟩
  next error after failed =>
    obtain ⟨⟨deepest, rfl⟩, nested⟩ := settles
    exact .inl ⟨nested, deepest, by rw [failed]⟩

/-- **When the limit is met.** A type that has an expansion is resolved, unless it takes more than
`maxNesting` levels that no call before has resolved; then, and only then, it is too deep. -/
theorem resolve_tooDeep_iff {type : Index .types} {context : GenericContext} {mode : ResolveMode}
    {tree : TypeTree} (reachable : linkage.Reachable state)
    (expands : linkage.metadata.Expands ⟨type, context, mode⟩ tree) :
    (linkage.metadata.TooNested maxNesting (state.resolved linkage.metadata) ⟨type, context, mode⟩ ↔
        ∃ deepest, ((linkage.resolve type context mode).run.run state).1 =
          .error (.tooDeep deepest maxNesting)) ∧
      (¬linkage.metadata.TooNested maxNesting (state.resolved linkage.metadata)
          ⟨type, context, mode⟩ ↔
        ∃ usage, ((linkage.resolve type context mode).run.run state).1 = .ok usage) := by
  obtain ⟨nested, deepest, failed⟩ | ⟨notNested, usage, resolved⟩ :=
    reachable.tooDeep_or_ok expands
  · rw [failed]
    simp [nested]
  · rw [resolved]
    simp [notNested]

/-- What is not too deep is resolved. -/
theorem Reachable.resolve_ok (reachable : linkage.Reachable state) {type : Index .types}
    {context : GenericContext} {mode : ResolveMode} {layers : Nat}
    (within : linkage.metadata.Within layers ⟨type, context, mode⟩)
    (notNested : ¬linkage.metadata.TooNested maxNesting (state.resolved linkage.metadata)
      ⟨type, context, mode⟩) :
    ∃ usage, ((linkage.resolve type context mode).run.run state).1 = .ok usage := by
  obtain ⟨tree, expanded⟩ := within
  obtain ⟨nested, -⟩ | ⟨-, resolved⟩ := reachable.tooDeep_or_ok ⟨layers, expanded⟩
  · exact absurd nested notNested
  · exact resolved

/-- A type that is not nested deeper than the limit is resolved, whatever has been resolved
before. -/
theorem resolve_ok_of_within {type : Index .types} {context : GenericContext} {mode : ResolveMode}
    (reachable : linkage.Reachable state)
    (within : linkage.metadata.Within maxNesting ⟨type, context, mode⟩) :
    ∃ usage, ((linkage.resolve type context mode).run.run state).1 = .ok usage :=
  reachable.resolve_ok within (within.not_tooNested _)

section PointerChain

/-- An integer, and pointers around it, each around the one before. -/
def pointerChain (count : Nat) : Linkage :=
  .ofTypes ((.int32, .none) ::
    (List.range count).map fun position ↦ (.pointer, .type (.ofPosition position)))

/-- The usage of one of the pointers. -/
def pointerKey (position : Nat) : UsageKey := ⟨.ofPosition position, .empty, .name⟩

variable {count position : Nat}

theorem pointerChain_layer_zero :
    (pointerChain count).metadata.layer (pointerKey 0) = .ok (.builtin .int32) := rfl

theorem pointerChain_layer_succ (small : count < Index.absentWord.toNat)
    (inside : position < count) :
    (pointerChain count).metadata.layer (pointerKey (position + 1)) =
      .ok (.pointer (pointerKey position)) := by
  have isReference : (pointerChain count).metadata.typeReference (.ofPosition (position + 1)) =
      .ok ⟨.type (.ofPosition position), 0, .pointer, false, false, false⟩ := by
    rw [Metadata.typeReference, Table.fetch_eq_ok_iff, Table.get?_ofPosition (by omega)]
    simp [pointerChain, ofTypes, Table.ofList, inside]
  exact Metadata.layer_of_recipe (Metadata.RecipeCase.recipe_eq isReference (.pointer rfl rfl))

/-- Each pointer is nested one level deeper than the one before. -/
theorem pointerChain_isDepth (small : count < Index.absentWord.toNat) (inside : position ≤ count) :
    (pointerChain count).metadata.IsDepth (position + 1) (pointerKey position) := by
  induction position with
  | zero =>
    refine ⟨Metadata.within_succ.mpr ⟨_, pointerChain_layer_zero, by simp [TypeLayer.parts]⟩, ?_⟩
    intro layers few
    obtain rfl : layers = 0 := by omega
    exact Metadata.not_within_zero
  | succ position ih =>
    have isLayer := pointerChain_layer_succ small inside
    obtain ⟨within, notWithin⟩ := ih (by omega)
    refine ⟨Metadata.within_succ.mpr ⟨_, isLayer, by simpa [TypeLayer.parts] using within⟩, ?_⟩
    intro layers few
    cases layers with
    | zero => exact Metadata.not_within_zero
    | succ layers =>
      rw [Metadata.within_succ]
      rintro ⟨layer, found, partsWithin⟩
      obtain rfl := Except.ok.inj (isLayer.symm.trans found)
      exact notWithin layers (by omega) (partsWithin _ (by simp [TypeLayer.parts]))

/-- A pointer to a resolved type is not too deep. -/
theorem pointerChain_not_tooNested (small : count < Index.absentWord.toNat)
    {room : Nat} {resolved : Set UsageKey} (inside : position < count)
    (isResolved : pointerKey position ∈ resolved) :
    ¬(pointerChain count).metadata.TooNested (room + 1) resolved (pointerKey (position + 1)) := by
  rintro ⟨-, layer, found, nested⟩
  obtain rfl := Except.ok.inj ((pointerChain_layer_succ small inside).symm.trans found)
  refine Metadata.not_someTooNested (fun key mem ↦ ?_) nested
  obtain rfl := List.mem_singleton.mp mem
  exact isResolved

/-- A pointer is too deep if there are as many levels of it as there is room for, and none is
resolved. -/
theorem pointerChain_tooNested (small : count < Index.absentWord.toNat) {room : Nat}
    {resolved : Set UsageKey} (none_resolved : ∀ position, pointerKey position ∉ resolved)
    (deep : room ≤ position) (inside : position ≤ count) :
    (pointerChain count).metadata.TooNested room resolved (pointerKey position) := by
  induction room generalizing position with
  | zero => exact none_resolved position
  | succ room ih =>
    obtain ⟨position, rfl⟩ : ∃ inner, position = inner + 1 := ⟨position - 1, by omega⟩
    exact ⟨none_resolved _, _, pointerChain_layer_succ small inside, .inl (ih (by omega) (by omega))⟩

/-- Pointers are resolved to any depth if they are resolved one after the other. -/
theorem pointerChain_exists_resolved (small : count < Index.absentWord.toNat)
    (inside : position ≤ count) :
    ∃ state usage, (pointerChain count).Reachable state ∧
      (((pointerChain count).resolve (.ofPosition position) .empty .name).run.run state).1 =
        .ok usage := by
  induction position with
  | zero =>
    have within := (pointerChain_isDepth small inside).1
    obtain ⟨usage, resolved⟩ := resolve_ok_of_within .fresh (within.mono (by decide))
    exact ⟨.empty, usage, .fresh, resolved⟩
  | succ position ih =>
    obtain ⟨state, usage, reachable, resolved⟩ := ih (by omega)
    obtain ⟨-, -, done⟩ := (remembers_resolve _ _ _ state reachable.faithful).of_run_eq_ok
      (run_eq_of_fst_eq resolved)
    have next := reachable.call (.resolve (.ofPosition position) .empty .name)
    obtain ⟨usage, resolved⟩ := next.resolve_ok (pointerChain_isDepth small inside).1
      (pointerChain_not_tooNested small inside ⟨_, done⟩)
    exact ⟨_, usage, next, resolved⟩

/-- Three hundred pointers around each other, which is deeper than the limit, can be resolved. -/
theorem pointerChain_resolve_ok :
    ∃ state usage tree, (pointerChain 300).Reachable state ∧
      (pointerChain 300).metadata.Expands (pointerKey 300) tree ∧
      ¬(pointerChain 300).metadata.Within maxNesting (pointerKey 300) ∧
      (((pointerChain 300).resolve (.ofPosition 300) .empty .name).run.run state).1 = .ok usage := by
  have small : 300 < Index.absentWord.toNat := by decide
  obtain ⟨⟨tree, expanded⟩, notWithin⟩ := pointerChain_isDepth small (Nat.le_refl 300)
  obtain ⟨state, usage, reachable, resolved⟩ :=
    pointerChain_exists_resolved small (Nat.le_refl 300)
  exact ⟨state, usage, tree, reachable, ⟨_, expanded⟩, notWithin maxNesting (by decide), resolved⟩

/-- In a resolution that has just begun they are too deep, and once what they point to is resolved,
they are not. -/
theorem pointerChain_resolve_tooDeep_iff :
    ((pointerChain 300).metadata.TooNested maxNesting
        (ResolutionState.empty.resolved (pointerChain 300).metadata) (pointerKey 300) ∧
      ∃ deepest, (((pointerChain 300).resolve (.ofPosition 300) .empty .name).run.run .empty).1 =
        .error (.tooDeep deepest maxNesting)) ∧
    ∃ state, (pointerChain 300).Reachable state ∧
      ¬(pointerChain 300).metadata.TooNested maxNesting
          (state.resolved (pointerChain 300).metadata) (pointerKey 300) ∧
      ∃ usage, (((pointerChain 300).resolve (.ofPosition 300) .empty .name).run.run state).1 =
        .ok usage := by
  have small : 300 < Index.absentWord.toNat := by decide
  obtain ⟨⟨tree, expanded⟩, -⟩ := pointerChain_isDepth small (Nat.le_refl 300)
  have nested : (pointerChain 300).metadata.TooNested maxNesting
      (ResolutionState.empty.resolved (pointerChain 300).metadata) (pointerKey 300) :=
    pointerChain_tooNested small
      (by simp [ResolutionState.resolved, ResolutionState.empty]) (by decide) (Nat.le_refl 300)
  obtain ⟨state, usage, reachable, resolved⟩ :=
    pointerChain_exists_resolved small (Nat.le_refl 300)
  exact ⟨⟨nested, (resolve_tooDeep_iff .fresh ⟨_, expanded⟩).1.mp nested⟩, state, reachable,
    (resolve_tooDeep_iff reachable ⟨_, expanded⟩).2.mpr ⟨usage, resolved⟩, usage, resolved⟩

end PointerChain

end Linkage

end ManagedLayout

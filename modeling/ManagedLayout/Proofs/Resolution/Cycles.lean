import ManagedLayout.Proofs.Resolution.Expansion
import ManagedLayout.Proofs.Resolution.Nesting
import ManagedLayout.Proofs.Resolution.Recipe
import Mathlib.Logic.Relation

/-!
# Cycles of type references

Working on a usage or on a definition asks for other ones, which makes a graph of tasks. A resolution
knows only which tasks are underway at the moment, and which are done. This is enough to tell whether
the expansion of a type ends: a task that is met while it is underway lies on a cycle of the graph,
and from a task that is done no cycle can be reached.
-/

namespace ManagedLayout

open Relation

/-- What is worked on: the usage of a type reference, or the descriptor of a definition. -/
inductive Task where
  | usage (key : UsageKey)
  | definition (definition : Index .typeDefinitions)
  deriving DecidableEq, Repr

/-- The error that names a task as its own part. -/
def Task.repeated : Task → LayoutError
  | usage key => .nonTerminating .types key.type.raw
  | definition index => .nonTerminating .typeDefinitions index.raw

namespace Metadata

/-- The task of resolving a type reference, without a context that it cannot depend on. -/
def task (metadata : Metadata) (key : UsageKey) : Task := .usage (metadata.normal key)

/-- The tasks that following a recipe may ask for, in order. -/
def recipeCalls (metadata : Metadata) : Recipe → List Task
  | .builtin _ | .parameter _ | .undefined _ => []
  | .replaced part | .pointer part | .array _ part => [metadata.task part]
  | .definition definition => [.definition definition]
  | .instantiation genericClass definition context =>
    .definition definition ::
      match metadata.classArguments genericClass with
      | .ok arguments => arguments.map fun argument ↦ metadata.task ⟨argument, context, .name⟩
      | .error _ => []

/-- The tasks that working on a task may ask for, in order. -/
def calls (metadata : Metadata) : Task → List Task
  | .usage key =>
    match metadata.recipe key with
    | .ok recipe => metadata.recipeCalls recipe
    | .error _ => []
  | .definition definition =>
    match metadata.typeDefinition definition with
    | .ok record =>
      record.declaringType.present?.toList.map fun declaring ↦
        metadata.task ⟨declaring, .empty, .name⟩
    | .error _ => []

/-- Working on a task may ask for the other one. -/
def LeadsTo (metadata : Metadata) (task other : Task) : Prop := other ∈ metadata.calls task

/-- No task that can be reached from this one leads back to itself. -/
def Acyclic (metadata : Metadata) (task : Task) : Prop :=
  ∀ other, ReflTransGen metadata.LeadsTo task other → ¬TransGen metadata.LeadsTo other other

/-- From the task, the one that the error names as its own part can be reached, and is one. -/
def LeadsToCycle (metadata : Metadata) (task : Task) (error : LayoutError) : Prop :=
  ∃ other : Task, other.repeated = error ∧ ReflTransGen metadata.LeadsTo task other ∧
    TransGen metadata.LeadsTo other other

variable {metadata : Metadata} {key : UsageKey} {task other : Task} {error : LayoutError}

theorem calls_usage {recipe : Recipe} (isRecipe : metadata.recipe key = .ok recipe) :
    metadata.calls (.usage key) = metadata.recipeCalls recipe := by
  rw [calls, isRecipe]

theorem calls_definition {definition : Index .typeDefinitions} {record : TypeDefinition}
    {declaring : Index .types} (isRecord : metadata.typeDefinition definition = .ok record)
    (isDeclaring : record.declaringType.present? = some declaring) :
    metadata.LeadsTo (.definition definition) (metadata.task ⟨declaring, .empty, .name⟩) := by
  simp [LeadsTo, calls, isRecord, isDeclaring]

theorem LeadsToCycle.head (calls : metadata.LeadsTo task other)
    (leads : metadata.LeadsToCycle other error) : metadata.LeadsToCycle task error := by
  obtain ⟨repeated, isError, reach, cycle⟩ := leads
  exact ⟨repeated, isError, .head calls reach, cycle⟩

section Acyclic

/-- Where every path ends there is no cycle. -/
theorem acyclic_of_acc (acc : Acc (flip metadata.LeadsTo) task) : metadata.Acyclic task := by
  -- Not only the task itself, but whatever it leads to must be off every cycle.
  induction acc with
  | intro task _ ih =>
    intro other reach cycle
    obtain rfl | ⟨next, step, rest⟩ := reach.cases_head
    · -- A cycle through the task itself is one through what it calls.
      obtain ⟨next, step, back⟩ := TransGen.head'_iff.mp cycle
      exact ih next step task back cycle
    · exact ih next step other rest cycle

theorem acc_definition {definition : Index .typeDefinitions} {declaring? : Option UsageKey}
    (isDeclaring : metadata.declaringUsage? definition = .ok declaring?)
    (ends : ∀ part ∈ declaring?, Acc (flip metadata.LeadsTo) (metadata.task part)) :
    Acc (flip metadata.LeadsTo) (.definition definition) := by
  refine .intro _ fun next step ↦ ?_
  simp only [declaringUsage?, lookup_bind_eq_ok, lookup_pure_eq_ok] at isDeclaring
  obtain ⟨record, isRecord, -, -, rfl⟩ := isDeclaring
  have mem : next ∈ metadata.calls (.definition definition) := step
  rw [calls, isRecord] at mem
  obtain ⟨declaring, isPresent, rfl⟩ := List.mem_map.mp mem
  exact ends _ (by simp_all)

/-- Every path from a usage ends if every path from its parts does. -/
theorem acc_of_layer {layer : TypeLayer} (isLayer : metadata.layer key = .ok layer)
    (ends : ∀ part ∈ layer.parts, Acc (flip metadata.LeadsTo) (metadata.task part)) :
    Acc (flip metadata.LeadsTo) (.usage key) := by
  refine .intro _ fun next step ↦ ?_
  obtain ⟨recipe, isRecipe, isLayer⟩ := lookup_bind_eq_ok.mp isLayer
  have mem : next ∈ metadata.recipeCalls recipe := calls_usage isRecipe ▸ step
  cases recipe with
  | builtin | parameter | undefined => simp [recipeCalls] at mem
  | replaced part | pointer part | array _ part =>
    obtain rfl := lookup_pure_eq_ok.mp isLayer
    obtain rfl := List.mem_singleton.mp mem
    exact ends part (List.mem_singleton_self part)
  | definition definition =>
    obtain ⟨declaring?, isDeclaring, isLayer⟩ := lookup_bind_eq_ok.mp isLayer
    obtain rfl := lookup_pure_eq_ok.mp isLayer
    obtain rfl := List.mem_singleton.mp mem
    exact acc_definition isDeclaring fun part isPart ↦ ends part (by simp_all [TypeLayer.parts])
  | instantiation genericClass definition context =>
    simp only [recipeLayer, lookup_bind_eq_ok, lookup_pure_eq_ok] at isLayer
    obtain ⟨declaring?, isDeclaring, arguments, areArguments, rfl⟩ := isLayer
    rw [recipeCalls, areArguments] at mem
    obtain rfl | isArgument := List.mem_cons.mp mem
    · exact acc_definition isDeclaring fun part isPart ↦ ends part (by simp_all [TypeLayer.parts])
    · obtain ⟨argument, fromArguments, rfl⟩ := List.mem_map.mp isArgument
      exact ends _ (by simp [TypeLayer.parts, fromArguments])

/-- From a usage that expands, every path ends. -/
theorem Within.acc {layers : Nat} (within : metadata.Within layers key) :
    Acc (flip metadata.LeadsTo) (metadata.task key) := by
  induction layers generalizing key with
  | zero => exact absurd within not_within_zero
  | succ layers ih =>
    obtain ⟨layer, isLayer, partsWithin⟩ := within_succ.mp within
    exact acc_of_layer (layer_normal.trans isLayer) fun part mem ↦ ih (partsWithin part mem)

end Acyclic

end Metadata

/-- The lookup does not fail because something has no end. -/
structure IsDirect {Found : Type} (lookup : Except LayoutError Found) : Prop where
  ne_nonTerminating : ∀ table index, lookup ≠ .error (.nonTerminating table index)

namespace IsDirect

variable {Found Other : Type} {metadata : Metadata}

theorem pure (found : Found) : IsDirect (Pure.pure found) := ⟨fun _ _ ↦ nofun⟩

theorem throw {error : LayoutError} (different : ∀ table index, error ≠ .nonTerminating table index) :
    IsDirect (MonadExcept.throw error : Except LayoutError Found) := by
  refine ⟨?_⟩
  rintro table index ⟨⟩
  exact different table index rfl

theorem bind {lookup : Except LayoutError Other} {next : Other → Except LayoutError Found}
    (direct : IsDirect lookup) (nextDirect : ∀ found, IsDirect (next found)) :
    IsDirect (lookup >>= next) := by
  cases lookup with
  | error error =>
    refine ⟨?_⟩
    rintro table index ⟨⟩
    exact direct.ne_nonTerminating table index rfl
  | ok found => exact nextDirect found

theorem fetch {kind : TableKind} {Record : Type} (table : Table kind Record) (index : Index kind) :
    IsDirect (table.fetch index) := by
  unfold Table.fetch
  split
  · exact .pure _
  · exact .throw nofun

theorem indexOfHandle (table : TableKind) (handle : UInt64) (offset stride : MemoryLayout → UInt64)
    (size : Nat) : IsDirect (metadata.indexOfHandle table handle offset stride size) := by
  unfold Metadata.indexOfHandle
  split
  · dsimp only
    split
    · exact .pure _
    · exact .throw nofun
  · exact .throw nofun

theorem definitionOf (type : Index .types) : IsDirect (metadata.definitionOf type) := by
  refine .bind (.fetch ..) fun reference ↦ ?_
  split
  · exact .bind (.fetch ..) fun _ ↦ .pure _
  · exact .indexOfHandle ..
  · exact .throw nofun

theorem parameterOf (type : Index .types) : IsDirect (metadata.parameterOf type) := by
  refine .bind (.fetch ..) fun reference ↦ ?_
  split
  · exact .bind (.fetch ..) fun _ ↦ .pure _
  · exact .indexOfHandle ..
  · exact .throw nofun

theorem openDefinition? (genericClass : Index .genericClasses) :
    IsDirect (metadata.openDefinition? genericClass) := by
  refine .bind (.fetch ..) fun record ↦ ?_
  split
  · split
    · exact .bind (.definitionOf _) fun _ ↦ .pure _
    · exact .pure _
  all_goals
    split
    · exact .bind (.fetch ..) fun _ ↦ .pure _
    · exact .pure _

theorem storedAs? (definition : Index .typeDefinitions) (mode : ResolveMode) :
    IsDirect (metadata.storedAs? definition mode) := by
  unfold Metadata.storedAs?
  split
  · exact .pure _
  · exact .bind (.fetch ..) fun _ ↦ .pure _

theorem classArguments (genericClass : Index .genericClasses) :
    IsDirect (metadata.classArguments genericClass) := by
  refine .bind (.fetch ..) fun record ↦ ?_
  split
  · exact .bind (.fetch ..) fun _ ↦ .pure _
  · exact .pure _

theorem parameterNames (count : Nat) (start : Index .genericParameters) :
    IsDirect (metadata.parameterNames count start) := by
  induction count generalizing start with
  | zero => exact .pure _
  | succ count ih => exact .bind (.fetch ..) fun _ ↦ .bind (ih _) fun _ ↦ .pure _

theorem declaredParameters (record : TypeDefinition) :
    IsDirect (metadata.declaredParameters record) := by
  unfold Metadata.declaredParameters
  split
  · exact .pure _
  · exact .bind (.fetch ..) fun _ ↦ .parameterNames ..

theorem recipeOf (definition : Index .typeDefinitions) (mode : ResolveMode) (otherwise : Recipe) :
    IsDirect (metadata.recipeOf definition mode otherwise) := by
  refine .bind (.storedAs? ..) fun stored? ↦ ?_
  split <;> exact .pure _

theorem argumentFor (arguments : Index .genericInstantiations)
    (parameter : Index .genericParameters) : IsDirect (metadata.argumentFor arguments parameter) := by
  refine .bind (.fetch ..) fun record ↦ .bind (.fetch ..) fun instantiation ↦ ?_
  split
  · exact .pure _
  · exact .throw nofun

theorem parameterRecipe (type : Index .types) (arguments? : Option (Index .genericInstantiations))
    (mode : ResolveMode) : IsDirect (metadata.parameterRecipe type arguments? mode) := by
  refine .bind (.parameterOf type) fun parameter ↦ ?_
  split
  · exact .pure _
  · exact .bind (.argumentFor ..) fun _ ↦ .pure _

theorem recipe (key : UsageKey) : IsDirect (metadata.recipe key) := by
  refine .bind (.fetch ..) fun reference ↦ ?_
  split
  · exact .pure _
  · exact .pure _
  · exact .bind (.fetch ..) fun _ ↦ .pure _
  · refine .bind (.openDefinition? _) fun definition? ↦ ?_
    split
    · exact .pure _
    · exact .recipeOf ..
  iterate 4 next => exact .throw nofun
  · exact .parameterRecipe ..
  · exact .parameterRecipe ..
  iterate 2 next => exact .bind (.definitionOf _) fun _ ↦ .recipeOf ..
  · split
    · exact .pure _
    · exact .throw nofun

end IsDirect

namespace ResolutionState

variable {metadata : Metadata} {before after state : ResolutionState} {task other : Task}

/-- The task is being worked on. -/
def IsUnderway (state : ResolutionState) : Task → Prop
  | .usage key => state.usages[key]? = some .underway
  | .definition definition => state.definitions[definition]? = some .underway

theorem Grows.isUnderway_iff (grows : before.Grows after) (task : Task) :
    after.IsUnderway task ↔ before.IsUnderway task := by
  cases task with
  | usage key => exact grows.usagesUnderway key
  | definition definition => exact grows.definitionsUnderway definition

/-- Whatever is underway is the task itself, or has led to it. -/
def WorksOn (metadata : Metadata) (state : ResolutionState) (task : Task) : Prop :=
  ∀ other, state.IsUnderway other → ReflTransGen metadata.LeadsTo other task

/-- Whatever is underway has led to the task, which is asked for now. -/
def AsksFor (metadata : Metadata) (state : ResolutionState) (task : Task) : Prop :=
  ∀ other, state.IsUnderway other → TransGen metadata.LeadsTo other task

theorem WorksOn.of_grows (grows : before.Grows after) (worksOn : before.WorksOn metadata task) :
    after.WorksOn metadata task :=
  fun other isUnderway ↦ worksOn other ((grows.isUnderway_iff other).mp isUnderway)

theorem WorksOn.asksFor (worksOn : state.WorksOn metadata task)
    (calls : metadata.LeadsTo task other) : state.AsksFor metadata other :=
  fun earlier isUnderway ↦ .tail' (worksOn earlier isUnderway) calls

/-- What is begun is worked on. -/
theorem AsksFor.begin (asksFor : before.AsksFor metadata task)
    (begun : ∀ other, after.IsUnderway other → other = task ∨ before.IsUnderway other) :
    after.WorksOn metadata task := by
  intro other isUnderway
  obtain rfl | isUnderway := begun other isUnderway
  · exact .refl
  · exact (asksFor other isUnderway).to_reflTransGen

end ResolutionState

namespace Resolve

variable {Result Other : Type} {metadata : Metadata} {state : ResolutionState}
  {task other : Task}

/-- If the computation says that something has no end, then it is on a cycle, to which the task
leads. -/
def Blames (metadata : Metadata) (task : Task) (computation : Resolve Result)
    (state : ResolutionState) : Prop :=
  Ensures computation state (fun _ _ ↦ True)
    fun error _ ↦ ∀ table index, error = .nonTerminating table index →
      metadata.LeadsToCycle task error

theorem Blames.bind_lookup {lookup : Except LayoutError Other} {next : Other → Resolve Result}
    (direct : IsDirect lookup)
    (nextBlames : ∀ found, lookup = .ok found → Blames metadata task (next found) state) :
    Blames metadata task (liftM lookup >>= next) state := by
  refine ensures_bind.mpr (ensures_lookup.mpr ⟨nextBlames, ?_⟩)
  rintro error isError table index rfl
  exact absurd isError (direct.ne_nonTerminating table index)

/-- A task that has led to itself is on a cycle. -/
theorem blames_repeated (asksFor : state.AsksFor metadata task) (isUnderway : state.IsUnderway task) :
    Blames metadata task (throw task.repeated : Resolve Result) state := by
  refine ensures_throw.mpr fun table index _ ↦ ?_
  exact ⟨task, rfl, .refl, asksFor task isUnderway⟩

/-- A computation that is part of the work on a task. -/
def Works (metadata : Metadata) (task : Task) (computation : Resolve Result)
    (state : ResolutionState) : Prop :=
  state.Faithful metadata → state.WorksOn metadata task → Blames metadata task computation state

namespace Works

theorem of_never_fails {computation : Resolve Result}
    (safe : Ensures computation state (fun _ _ ↦ True) fun _ _ ↦ False) :
    Works metadata task computation state :=
  fun _ _ ↦ safe.mono (fun _ _ _ ↦ trivial) fun _ _ impossible ↦ impossible.elim

theorem pure {result : Result} : Works metadata task (Pure.pure result) state :=
  of_never_fails trivial

theorem bind {first : Resolve Other} {next : Other → Resolve Result}
    {middle : Other → ResolutionState → Prop} (works : Works metadata task first state)
    (kept : Keeps metadata first state middle)
    (nextWorks : ∀ result after, Works metadata task (next result) after) :
    Works metadata task (first >>= next) state := by
  intro faithful worksOn
  refine ensures_bind.mpr (((kept faithful).and (works faithful worksOn)).mono ?_
    fun _ _ ⟨_, blames⟩ ↦ blames)
  rintro result after ⟨⟨faithful, grows, -⟩, -⟩
  exact nextWorks result after faithful (worksOn.of_grows grows)

theorem map {computation : Resolve Other} {change : Other → Result}
    (works : Works metadata task computation state) :
    Works metadata task (change <$> computation) state :=
  fun faithful worksOn ↦ ensures_map.mpr (works faithful worksOn)

theorem bind_pure {computation : Resolve Other} {change : Other → Result}
    (works : Works metadata task computation state) :
    Works metadata task (do return change (← computation)) state := by
  rw [bind_pure_comp]
  exact works.map

/-- A computation that cannot fail comes last. -/
theorem bind_never_fails {first : Resolve Other} {next : Other → Resolve Result}
    (works : Works metadata task first state)
    (safe : ∀ result after, Ensures (next result) after (fun _ _ ↦ True) fun _ _ ↦ False) :
    Works metadata task (first >>= next) state := by
  intro faithful worksOn
  refine ensures_bind.mpr ((works faithful worksOn).mono (fun result after _ ↦ ?_)
    fun _ _ blames ↦ blames)
  exact (safe result after).mono (fun _ _ _ ↦ trivial) fun _ _ impossible ↦ impossible.elim

theorem bind_lookup {lookup : Except LayoutError Other} {next : Other → Resolve Result}
    (direct : IsDirect lookup)
    (nextWorks : ∀ found, lookup = .ok found → Works metadata task (next found) state) :
    Works metadata task (liftM lookup >>= next) state :=
  fun faithful worksOn ↦
    .bind_lookup direct fun found isFound ↦ nextWorks found isFound faithful worksOn

theorem mapM {compute : Other → Resolve Result} {sources : List Other}
    {holds : Other → Result → ResolutionState → Prop}
    (kept : ∀ source state, Keeps metadata (compute source) state (holds source))
    (works : ∀ source ∈ sources, ∀ state, Works metadata task (compute source) state) :
    Works metadata task (sources.mapM compute) state := by
  induction sources generalizing state with
  | nil => exact .pure
  | cons source rest ih =>
    rw [List.mapM_cons]
    refine .bind (works source (by simp) state) (kept source state) fun result after ↦ ?_
    refine .bind_never_fails (ih fun source mem ↦ works source (by simp [mem])) fun _ _ ↦ ?_
    exact ensures_pure.mpr trivial

/-- Another task is called. -/
theorem call {computation : Resolve Result} (calls : metadata.LeadsTo task other)
    (blames : state.Faithful metadata → state.AsksFor metadata other →
      Blames metadata other computation state) :
    Works metadata task computation state :=
  fun faithful worksOn ↦ (blames faithful (worksOn.asksFor calls)).mono (fun _ _ _ ↦ trivial)
    fun _ _ leads table index isError ↦ (leads table index isError).head calls

end Works

/-- A task is asked for: it may turn out to be underway. -/
def BlamesParts (metadata : Metadata) (resolveParts : ResolveParts) : Prop :=
  ∀ key (state : ResolutionState), state.Faithful metadata →
    state.AsksFor metadata (metadata.task key) →
    Blames metadata (metadata.task key) (resolveParts key.type key.context key.mode) state

theorem never_fails_builtin (kind : TypeKind) :
    Ensures (builtin kind) state (fun _ _ ↦ True) fun _ _ ↦ False := by
  unfold builtin
  rw [ensures_bind, ensures_get]
  split <;> trivial

theorem works_parameter (index : Index .genericParameters) :
    Works metadata task (parameter metadata index) state := by
  intro faithful worksOn
  unfold parameter
  refine ensures_bind.mpr (ensures_get.mpr ?_)
  split
  next => trivial
  next =>
    exact Works.bind_lookup (.fetch ..) (fun _ _ ↦ .of_never_fails trivial) faithful worksOn

end Resolve

namespace Linkage

open Resolve

variable {linkage : Linkage} {resolveParts : ResolveParts} {state : ResolutionState}

theorem works_declaringDescriptor? (blames : BlamesParts linkage.metadata resolveParts)
    {definition : Index .typeDefinitions} {record : TypeDefinition}
    (isRecord : linkage.metadata.typeDefinition definition = .ok record) :
    Works linkage.metadata (.definition definition) (record.declaringDescriptor? resolveParts)
      state := by
  unfold TypeDefinition.declaringDescriptor?
  cases isDeclaring : record.declaringType.present? with
  | none => exact .pure
  | some declaring =>
    have calls := Metadata.calls_definition isRecord isDeclaring
    exact .map (.bind_pure (.call calls (blames ⟨declaring, .empty, .name⟩ state)))

theorem works_buildDefinition (blames : BlamesParts linkage.metadata resolveParts)
    (remembers : Remembers linkage.metadata resolveParts) (definition : Index .typeDefinitions) :
    Works linkage.metadata (.definition definition)
      (linkage.buildDefinition resolveParts definition) state := by
  refine .bind_lookup (.fetch ..) fun record isRecord ↦ ?_
  refine .bind (works_declaringDescriptor? blames isRecord)
    (keeps_declaringDescriptor? remembers record) fun declaringType? middle ↦ ?_
  refine .bind (.of_never_fails trivial) (keeps_uniqueName _ _) fun name last ↦ ?_
  exact .bind_lookup (.declaredParameters record) fun _ _ ↦ .of_never_fails trivial

theorem blames_describeWith (blames : BlamesParts linkage.metadata resolveParts)
    (remembers : Remembers linkage.metadata resolveParts) (definition : Index .typeDefinitions)
    (faithful : state.Faithful linkage.metadata)
    (asksFor : state.AsksFor linkage.metadata (.definition definition)) :
    Blames linkage.metadata (.definition definition) (linkage.describeWith resolveParts definition)
      state := by
  refine ensures_bind.mpr (ensures_get.mpr ?_)
  split
  next => trivial
  next isUnderway => exact blames_repeated asksFor isUnderway
  next fresh =>
    have begun := (faithful.begin_definition fresh).1
    -- What is underway with the new mark has led to the definition before, or is the definition.
    have worksOn : ({ state with
        definitions := state.definitions.insert definition .underway } : ResolutionState).WorksOn
          linkage.metadata (.definition definition) := by
      refine asksFor.begin fun other isUnderway ↦ ?_
      cases other with
      | usage key => exact .inr isUnderway
      | definition other =>
        obtain old | ⟨rfl, -⟩ := getElem?_of_insert isUnderway
        · exact .inr old
        · exact .inl rfl
    simp only [definitionOnce, ensures_bind, ensures_modify, ensures_tryCatch,
      ensures_throw, ensures_pure]
    exact works_buildDefinition blames remembers definition begun worksOn

theorem works_buildInstantiation (blames : BlamesParts linkage.metadata resolveParts)
    (remembers : Remembers linkage.metadata resolveParts) {task : Task}
    {genericClass : Index .genericClasses} {definition : Index .typeDefinitions}
    {context : GenericContext}
    (calls : ∀ other,
      other ∈ linkage.metadata.recipeCalls (.instantiation genericClass definition context) →
        linkage.metadata.LeadsTo task other) :
    Works linkage.metadata task
      (linkage.buildInstantiation resolveParts genericClass definition context) state := by
  refine .bind (.call (calls _ (by simp [Metadata.recipeCalls]))
      (blames_describeWith blames remembers definition))
    (keeps_describeWith remembers definition) fun openId middle ↦ ?_
  refine .bind_lookup (.classArguments genericClass) fun arguments areArguments ↦ ?_
  refine .bind_never_fails (.mapM (fun argument state ↦ remembers argument context .name state)
    fun argument mem state ↦ ?_) fun _ _ ↦ trivial
  refine .call (calls _ ?_) (blames ⟨argument, context, .name⟩ state)
  rw [Metadata.recipeCalls, areArguments]
  exact List.mem_cons_of_mem _ (List.mem_map_of_mem mem)

/-- What a recipe asks for is called by the usage that it is for. -/
theorem works_follow (blames : BlamesParts linkage.metadata resolveParts)
    (remembers : Remembers linkage.metadata resolveParts) {key : UsageKey} {recipe : Recipe}
    (isRecipe : linkage.metadata.recipe key = .ok recipe) :
    Works linkage.metadata (.usage key) (linkage.follow resolveParts recipe) state := by
  have calls (other : Task) (mem : other ∈ linkage.metadata.recipeCalls recipe) :
      linkage.metadata.LeadsTo (.usage key) other := by
    rwa [Metadata.LeadsTo, Metadata.calls_usage isRecipe]
  cases recipe with
  | builtin kind => exact .bind_pure (.of_never_fails (never_fails_builtin kind))
  | parameter parameter => exact .bind_pure (works_parameter parameter)
  | replaced part => exact .call (calls _ (List.mem_singleton_self _)) (blames part state)
  | pointer part | array _ part =>
    exact .bind_pure (.call (calls _ (List.mem_singleton_self _)) (blames part state))
  | definition definition =>
    exact .bind_pure (.call (calls _ (List.mem_singleton_self _))
      (blames_describeWith blames remembers definition))
  | undefined genericClass =>
    refine .bind (.of_never_fails trivial) (keeps_report _) fun _ middle ↦ ?_
    exact .bind_pure (.of_never_fails (never_fails_builtin .object))
  | instantiation genericClass definition context =>
    exact .bind_pure (works_buildInstantiation blames remembers calls)

theorem works_expand (blames : BlamesParts linkage.metadata resolveParts)
    (remembers : Remembers linkage.metadata resolveParts) (key : UsageKey)
    {reference : TypeReference}
    (isReference : linkage.metadata.typeReference key.type = .ok reference) :
    Works linkage.metadata (.usage key)
      (linkage.expand resolveParts key.type reference key.context key.mode) state := by
  rw [expand_eq key isReference]
  exact .bind_lookup (.recipe key) fun _ isRecipe ↦ works_follow blames remembers isRecipe

/-- Only a usage that is not known is worked on. -/
theorem blames_remembered {metadata : Metadata} {key : UsageKey} {compute : Resolve Usage}
    (asksFor : state.AsksFor metadata (.usage key))
    (blames : state.usages[key]? = none → Blames metadata (.usage key) compute state) :
    Blames metadata (.usage key)
      (do
        match (← get).usages[key]? with
        | some (.done usage) => return usage
        | some .underway => throw (.nonTerminating .types key.type.raw)
        | none => compute) state := by
  refine ensures_bind.mpr (ensures_get.mpr ?_)
  split
  next => trivial
  next isUnderway => exact blames_repeated asksFor isUnderway
  next fresh => exact blames fresh

theorem blames_usageOnce {metadata : Metadata} {key : UsageKey} {compute : Resolve Usage}
    (fresh : state.usages[key]? = none)
    (works : ∀ state, Works metadata (.usage key) compute state)
    (faithful : state.Faithful metadata) (asksFor : state.AsksFor metadata (.usage key)) :
    Blames metadata (.usage key) (usageOnce key compute) state := by
  simp only [Blames, usageOnce, ensures_bind, ensures_modify, ensures_tryCatch, ensures_throw,
    ensures_pure]
  refine works _ (faithful.begin_usage fresh).1 (asksFor.begin fun other isUnderway ↦ ?_)
  cases other with
  | definition definition => exact .inr isUnderway
  | usage other =>
    obtain old | ⟨rfl, -⟩ := getElem?_of_insert isUnderway
    · exact .inr old
    · exact .inl rfl

/-- If a usage is said to have no end, then what is named as its own part is. -/
theorem blames_resolveWithin (room : Nat) :
    BlamesParts linkage.metadata (linkage.resolveWithin room) := by
  induction room with
  | zero =>
    -- Without room the error is that of the limit, which blames nothing.
    rintro ⟨type, context, mode⟩ state faithful asksFor
    unfold resolveWithin
    refine .bind_lookup (.fetch ..) fun reference isReference ↦ ?_
    rw [Metadata.task, Metadata.normal_eq isReference] at asksFor ⊢
    refine blames_remembered asksFor fun _ ↦ ensures_throw.mpr ?_
    rintro _ _ ⟨⟩
  | succ room ih =>
    rintro ⟨type, context, mode⟩ state faithful asksFor
    unfold resolveWithin
    refine .bind_lookup (.fetch ..) fun reference isReference ↦ ?_
    rw [Metadata.task, Metadata.normal_eq isReference] at asksFor ⊢
    refine blames_remembered asksFor fun fresh ↦ ?_
    exact blames_usageOnce fresh
      (fun state ↦ works_expand ih (remembers_resolveWithin room) ⟨_, _, _⟩ isReference) faithful
      asksFor

variable {type : Index .types} {context : GenericContext} {mode : ResolveMode} {usage : Usage}

/-- No cycle can be reached from a usage that is resolved. -/
theorem Reachable.acyclic (reachable : linkage.Reachable state)
    (resolved : ((linkage.resolve type context mode).run.run state).1 = .ok usage) :
    linkage.metadata.Acyclic (linkage.metadata.task ⟨type, context, mode⟩) := by
  have run := run_eq_of_fst_eq resolved
  obtain ⟨faithful, -, done⟩ :=
    (remembers_resolve type context mode state reachable.faithful).of_run_eq_ok run
  obtain ⟨layers, expanded⟩ := Metadata.expands_normal.mp (faithful.usages _ usage done).expands
  exact Metadata.acyclic_of_acc (Metadata.Within.acc ⟨_, expanded⟩)

/-- Between calls nothing is underway that could have led to a task. -/
theorem Reachable.asksFor (reachable : linkage.Reachable state) (task : Task) :
    state.AsksFor linkage.metadata task := by
  intro other isUnderway
  rw [reachable.idle.isUnderway_iff] at isUnderway
  cases other <;> simp [ResolutionState.IsUnderway, ResolutionState.empty] at isUnderway

/-- **Cycles are met exactly.** Whatever has been resolved before, or has failed, no cycle can be
reached from a usage that is resolved; and if the call says that something is a part of itself, then
it is, and can be reached from the usage. -/
theorem resolve_meets_cycles (reachable : linkage.Reachable state) (type : Index .types)
    (context : GenericContext) (mode : ResolveMode) :
    (∀ usage, ((linkage.resolve type context mode).run.run state).1 = .ok usage →
      linkage.metadata.Acyclic (linkage.metadata.task ⟨type, context, mode⟩)) ∧
    ∀ table index,
      ((linkage.resolve type context mode).run.run state).1 = .error (.nonTerminating table index) →
        linkage.metadata.LeadsToCycle (linkage.metadata.task ⟨type, context, mode⟩)
          (.nonTerminating table index) := by
  refine ⟨fun usage ↦ reachable.acyclic, fun table index failed ↦ ?_⟩
  have blames : Blames linkage.metadata _ (linkage.resolve type context mode) state :=
    blames_resolveWithin maxNesting ⟨type, context, mode⟩ state reachable.faithful
      (reachable.asksFor _)
  rw [Blames, Ensures, run_eq_of_fst_eq failed] at blames
  exact blames table index rfl

/-- The pointer to an integer, after an attempt at the array of itself; and the array of itself. -/
theorem samples_meets_cycles :
    samples.Reachable (samples.stateAfter .empty (.resolve ⟨3⟩ .empty .name)) ∧
      samples.metadata.Acyclic (samples.metadata.task ⟨⟨1⟩, .empty, .name⟩) ∧
      samples.metadata.LeadsToCycle (samples.metadata.task ⟨⟨3⟩, .empty, .name⟩)
        (.nonTerminating .types 3) := by
  have reachable : samples.Reachable (samples.stateAfter .empty (.resolve ⟨3⟩ .empty .name)) :=
    .call .fresh _
  refine ⟨reachable, ?_, ?_⟩
  · exact (resolve_meets_cycles reachable ⟨1⟩ .empty .name).1 ⟨⟨0⟩, 1, []⟩ (by decide +kernel)
  · exact (resolve_meets_cycles reachable ⟨3⟩ .empty .name).2 .types 3 (by decide +kernel)

end Linkage

end ManagedLayout

import ManagedLayout.Proofs.NamePool
import ManagedLayout.Proofs.Resolution.Unwinding

/-!
# Names that are given out

The descriptor of a definition gets a name that is unique in its owner. The name is given out before
the generic parameters of the definition are looked up: where these are missing there is no
descriptor, but the name stays given out. A name is abandoned then, and a call abandons at most one,
since it fails. All other names that have been given out are those of descriptors.
-/

namespace ManagedLayout

/-- A name that was given out for a definition, and where it is unique. -/
structure Naming where
  definition : Index .typeDefinitions
  scope : NameScope
  name : String
  deriving DecidableEq, Repr

/-- The names of a scope. -/
def Naming.namesIn (scope : NameScope) (namings : List Naming) : List String :=
  (namings.filter (·.scope = scope)).map (·.name)

@[simp]
theorem Naming.namesIn_append (scope : NameScope) (first second : List Naming) :
    namesIn scope (first ++ second) = namesIn scope first ++ namesIn scope second := by
  simp [namesIn]

theorem Naming.namesIn_singleton (scope : NameScope) (naming : Naming) :
    namesIn scope [naming] = if naming.scope = scope then [naming.name] else [] := by
  rw [namesIn, List.filter_singleton]
  split <;> simp_all

/-- What the name of a descriptor is unique in. -/
def Descriptor.scope (descriptor : Descriptor) : NameScope :=
  match descriptor.declaringType? with
  | some declaring => .inType declaring
  | none => .inNamespace descriptor.namespaceName

/-- The naming of a descriptor that is one of a definition. -/
def Descriptor.naming? (descriptor : Descriptor) : Option Naming :=
  match descriptor.kind with
  | .definition definition => some ⟨definition, descriptor.scope, descriptor.name⟩
  | .builtin _ | .parameter _ | .instantiation .. => none

/-- A name that was given out for a definition whose parameters cannot be looked up. -/
def Metadata.Abandons (metadata : Metadata) (naming : Naming) (error : LayoutError) : Prop :=
  ∃ record, metadata.typeDefinition naming.definition = .ok record ∧
    metadata.declaredParameters record = .error error ∧
    (naming.name = baseName record.name ∨
      ∃ suffix, naming.name = NamePool.suffixed (baseName record.name) suffix)

namespace ResolutionState

variable {before after state : ResolutionState} {metadata : Metadata} {abandoned : List Naming}

/-- The namings of the descriptors of definitions, in the order of the arena. -/
def namings (state : ResolutionState) : List Naming :=
  state.descriptors.toList.filterMap Descriptor.naming?

/-- The names that have been given out in a scope. -/
def issuedNames (state : ResolutionState) (scope : NameScope) : List String :=
  (state.names.getD scope .empty).issued.toList

/-- The names that have been given out are those of the descriptors of definitions and the abandoned
ones, in each scope. -/
def GivesOut (state : ResolutionState) (abandoned : List Naming) : Prop :=
  ∀ scope, (state.issuedNames scope).Perm (Naming.namesIn scope (state.namings ++ abandoned))

theorem namings_push (descriptor : Descriptor) :
    (state.push descriptor).2.namings = state.namings ++ descriptor.naming?.toList := by
  simp only [namings, push, Array.toList_push, List.filterMap_append]
  cases named : descriptor.naming? <;> simp [named]

theorem GivesOut.of_eq (givesOut : before.GivesOut abandoned) (names : after.names = before.names)
    (namings : after.namings = before.namings) : after.GivesOut abandoned := by
  intro scope
  rw [issuedNames, names, namings]
  exact givesOut scope

/-- The name that is given out next is not that of a descriptor yet. -/
theorem GivesOut.request (givesOut : state.GivesOut abandoned)
    (definition : Index .typeDefinitions) (scope : NameScope) (name : String) :
    { state with
        names := state.names.insert scope ((state.names.getD scope .empty).request name).2
      }.GivesOut (abandoned ++
        [Naming.mk definition scope ((state.names.getD scope .empty).request name).1]) := by
  intro other
  have issued := givesOut other
  change List.Perm _ (Naming.namesIn other (state.namings ++ _))
  rw [← List.append_assoc, Naming.namesIn_append _ (_ ++ abandoned), Naming.namesIn_singleton]
  simp only [issuedNames, Std.TreeMap.getD_insert, Std.LawfulEqCmp.compare_eq_iff_eq] at issued ⊢
  by_cases same : scope = other
  · subst same
    rw [if_pos rfl, if_pos rfl]
    refine (NamePool.issued_request _ name).trans ((issued.cons _).trans ?_)
    exact (List.perm_append_singleton _ _).symm
  · rw [if_neg same, if_neg same, List.append_nil]
    exact issued

/-- An abandoned name becomes that of a descriptor. -/
theorem GivesOut.push {descriptor : Descriptor} {naming : Naming}
    (givesOut : state.GivesOut (abandoned ++ [naming])) (named : descriptor.naming? = some naming) :
    (state.push descriptor).2.GivesOut abandoned := by
  intro scope
  refine (givesOut scope).trans (List.Perm.map _ (List.Perm.filter _ ?_))
  rw [namings_push, named, List.append_assoc]
  exact List.perm_append_comm.append_left _

end ResolutionState

namespace Resolve

variable {Result Other : Type} {metadata : Metadata} {state : ResolutionState}

/-- The computation abandons no name, or else one, and fails because of that. -/
def Accounts (metadata : Metadata) (computation : Resolve Result) (state : ResolutionState) : Prop :=
  ∀ abandoned, state.GivesOut abandoned → Ensures computation state
    (fun _ after ↦ after.GivesOut abandoned)
    fun error after ↦ after.GivesOut abandoned ∨
      ∃ naming, metadata.Abandons naming error ∧ after.GivesOut (abandoned ++ [naming])

namespace Accounts

/-- A computation that gives out no name, and makes no descriptor of a definition. -/
theorem of_same {computation : Resolve Result}
    (same : Ensures computation state
      (fun _ after ↦ after.names = state.names ∧ after.namings = state.namings)
      fun _ after ↦ after.names = state.names ∧ after.namings = state.namings) :
    Accounts metadata computation state :=
  fun _ givesOut ↦ same.mono (fun _ _ ⟨names, namings⟩ ↦ givesOut.of_eq names namings)
    fun _ _ ⟨names, namings⟩ ↦ .inl (givesOut.of_eq names namings)

theorem pure {result : Result} : Accounts metadata (Pure.pure result) state :=
  of_same ⟨rfl, rfl⟩

theorem throw {error : LayoutError} :
    Accounts metadata (MonadExcept.throw error : Resolve Result) state :=
  of_same ⟨rfl, rfl⟩

theorem bind {first : Resolve Other} {next : Other → Resolve Result}
    (accounts : Accounts metadata first state)
    (nextAccounts : ∀ result after, Accounts metadata (next result) after) :
    Accounts metadata (first >>= next) state :=
  fun abandoned givesOut ↦ ensures_bind.mpr ((accounts abandoned givesOut).mono
    (fun result after givesOut ↦ nextAccounts result after abandoned givesOut)
    fun _ _ givesOut ↦ givesOut)

theorem bind_lookup {lookup : Except LayoutError Other} {next : Other → Resolve Result}
    (accounts : ∀ found, lookup = .ok found → Accounts metadata (next found) state) :
    Accounts metadata (liftM lookup >>= next) state := by
  cases lookup with
  | error => exact .throw
  | ok found => exact accounts found rfl

theorem bind_pure {computation : Resolve Other} {change : Other → Result}
    (accounts : Accounts metadata computation state) :
    Accounts metadata (do return change (← computation)) state :=
  accounts.bind fun _ _ ↦ .pure

theorem map {computation : Resolve Other} {change : Other → Result}
    (accounts : Accounts metadata computation state) :
    Accounts metadata (change <$> computation) state := by
  rw [← bind_pure_comp]
  exact accounts.bind_pure

theorem mapM {compute : Other → Resolve Result}
    (accounts : ∀ source state, Accounts metadata (compute source) state) (sources : List Other) :
    Accounts metadata (sources.mapM compute) state := by
  induction sources generalizing state with
  | nil => exact .pure
  | cons source rest ih =>
    rw [List.mapM_cons]
    exact .bind (accounts source state) fun _ _ ↦ .bind_pure ih

end Accounts

/-- A descriptor of something else than a definition. -/
theorem accounts_push {descriptor : Descriptor} (unnamed : descriptor.naming? = none) :
    Accounts metadata (push descriptor) state := by
  refine .of_same (ensures_modifyGet.mpr ⟨rfl, ?_⟩)
  rw [ResolutionState.namings_push, unnamed]
  exact List.append_nil _

theorem accounts_builtin (kind : TypeKind) : Accounts metadata (builtin kind) state := by
  intro abandoned givesOut
  refine ensures_bind.mpr (ensures_get.mpr ?_)
  split
  next => exact Accounts.pure abandoned givesOut
  next =>
    refine Accounts.bind (accounts_push rfl) (fun descriptor after ↦ ?_) abandoned givesOut
    exact .bind (.of_same (ensures_modify.mpr ⟨rfl, rfl⟩)) fun _ _ ↦ .pure

theorem accounts_parameter (index : Index .genericParameters) :
    Accounts metadata (parameter metadata index) state := by
  intro abandoned givesOut
  refine ensures_bind.mpr (ensures_get.mpr ?_)
  split
  next => exact Accounts.pure abandoned givesOut
  next =>
    refine Accounts.bind_lookup (fun record _ ↦ ?_) abandoned givesOut
    refine .bind (accounts_push rfl) fun descriptor after ↦ ?_
    exact .bind (.of_same (ensures_modify.mpr ⟨rfl, rfl⟩)) fun _ _ ↦ .pure

theorem accounts_usageOnce {key : UsageKey} {compute : Resolve Usage}
    (accounts : ∀ state, Accounts metadata compute state) :
    Accounts metadata (usageOnce key compute) state := by
  intro abandoned givesOut
  simp only [usageOnce, ensures_bind, ensures_modify, ensures_tryCatch, ensures_throw, ensures_pure]
  exact accounts _ abandoned givesOut

theorem accounts_definitionOnce {definition : Index .typeDefinitions}
    {compute : Resolve DescriptorId} (accounts : ∀ state, Accounts metadata compute state) :
    Accounts metadata (definitionOnce definition compute) state := by
  intro abandoned givesOut
  simp only [definitionOnce, ensures_bind, ensures_modify, ensures_tryCatch, ensures_throw,
    ensures_pure]
  exact accounts _ abandoned givesOut

end Resolve

namespace Linkage

open Resolve

variable {linkage : Linkage} {resolveParts : ResolveParts} {state after : ResolutionState}

/-- The recursive call: it abandons at most one name. -/
def AccountsParts (metadata : Metadata) (resolveParts : ResolveParts) : Prop :=
  ∀ type context mode state, Accounts metadata (resolveParts type context mode) state

theorem accounts_declaringDescriptor? (accounts : AccountsParts linkage.metadata resolveParts)
    (record : TypeDefinition) :
    Accounts linkage.metadata (record.declaringDescriptor? resolveParts) state := by
  unfold TypeDefinition.declaringDescriptor?
  cases record.declaringType.present? with
  | none => exact .pure
  | some declaring => exact .map (.bind_pure (accounts declaring .empty .name state))

/-- The name is given out first. It is abandoned if the parameters cannot be looked up. -/
theorem accounts_buildDefinition (accounts : AccountsParts linkage.metadata resolveParts)
    (definition : Index .typeDefinitions) :
    Accounts linkage.metadata (linkage.buildDefinition resolveParts definition) state := by
  refine .bind_lookup fun record isRecord ↦ ?_
  refine .bind (accounts_declaringDescriptor? accounts record) fun declaringType? middle ↦ ?_
  intro abandoned givesOut
  refine ensures_bind.mpr (ensures_modifyGet.mpr (ensures_bind.mpr (ensures_lookup.mpr ?_)))
  -- Between the name and the descriptor stands the lookup of the parameters.
  have given := givesOut.request definition
    (match declaringType? with
      | some declaring => .inType declaring
      | none => .inNamespace record.namespaceName)
    (baseName record.name)
  refine ⟨fun parameterNames _ ↦ ensures_modifyGet.mpr (given.push ?_), fun error missing ↦ ?_⟩
  · cases declaringType? <;> rfl
  · exact .inr ⟨_, ⟨record, isRecord, missing, NamePool.request_eq_or_suffixed⟩, given⟩

theorem accounts_describeWith (accounts : AccountsParts linkage.metadata resolveParts)
    (definition : Index .typeDefinitions) :
    Accounts linkage.metadata (linkage.describeWith resolveParts definition) state := by
  intro abandoned givesOut
  refine ensures_bind.mpr (ensures_get.mpr ?_)
  split
  next => exact Accounts.pure abandoned givesOut
  next => exact Accounts.throw abandoned givesOut
  next =>
    exact accounts_definitionOnce (fun _ ↦ accounts_buildDefinition accounts definition) abandoned
      givesOut

theorem accounts_buildInstantiation (accounts : AccountsParts linkage.metadata resolveParts)
    (genericClass : Index .genericClasses) (definition : Index .typeDefinitions)
    (context : GenericContext) :
    Accounts linkage.metadata
      (linkage.buildInstantiation resolveParts genericClass definition context) state := by
  refine .bind (accounts_describeWith accounts definition) fun openId middle ↦ ?_
  refine .bind_lookup fun arguments _ ↦ ?_
  refine .bind (.mapM (fun argument state ↦ accounts argument context .name state) arguments)
    fun typeArguments last ↦ ?_
  exact fun abandoned givesOut ↦
    ensures_bind.mpr (ensures_get.mpr (accounts_push rfl abandoned givesOut))

theorem accounts_follow (accounts : AccountsParts linkage.metadata resolveParts) (recipe : Recipe) :
    Accounts linkage.metadata (linkage.follow resolveParts recipe) state := by
  cases recipe with
  | builtin kind => exact .bind_pure (accounts_builtin kind)
  | parameter parameter => exact .bind_pure (accounts_parameter parameter)
  | replaced part => exact accounts part.type part.context part.mode state
  | pointer part | array _ part =>
    exact .bind_pure (accounts part.type part.context part.mode state)
  | definition definition => exact .bind_pure (accounts_describeWith accounts definition)
  | undefined genericClass =>
    refine .bind (.of_same (ensures_modify.mpr ⟨rfl, rfl⟩)) fun _ middle ↦ ?_
    exact .bind_pure (accounts_builtin .object)
  | instantiation genericClass definition context =>
    exact .bind_pure (accounts_buildInstantiation accounts genericClass definition context)

theorem accounts_expand (accounts : AccountsParts linkage.metadata resolveParts) (key : UsageKey)
    {reference : TypeReference}
    (isReference : linkage.metadata.typeReference key.type = .ok reference) :
    Accounts linkage.metadata
      (linkage.expand resolveParts key.type reference key.context key.mode) state := by
  rw [expand_eq key isReference]
  exact .bind_lookup fun recipe _ ↦ accounts_follow accounts recipe

theorem accounts_remembered {metadata : Metadata} {key : UsageKey} {compute : Resolve Usage}
    {error : LayoutError} (accounts : Accounts metadata compute state) :
    Accounts metadata
      (do
        match (← get).usages[key]? with
        | some (.done usage) => return usage
        | some .underway => throw error
        | none => compute) state := by
  intro abandoned givesOut
  refine ensures_bind.mpr (ensures_get.mpr ?_)
  split
  next => exact Accounts.pure abandoned givesOut
  next => exact Accounts.throw abandoned givesOut
  next => exact accounts abandoned givesOut

theorem accounts_resolveWithin (room : Nat) :
    AccountsParts linkage.metadata (linkage.resolveWithin room) := by
  induction room with
  | zero =>
    intro type context mode state
    unfold resolveWithin
    exact .bind_lookup fun _ _ ↦ accounts_remembered .throw
  | succ room ih =>
    intro type context mode state
    unfold resolveWithin
    refine .bind_lookup fun reference isReference ↦ accounts_remembered ?_
    exact accounts_usageOnce fun _ ↦ accounts_expand ih ⟨_, _, _⟩ isReference

theorem accounts_answer (call : Call) : Accounts linkage.metadata (linkage.answer call) state := by
  have accounts : AccountsParts linkage.metadata linkage.resolve := accounts_resolveWithin maxNesting
  cases call with
  | resolve type context mode => exact accounts type context mode state
  | describe definition => exact accounts_describeWith accounts definition
  | definitionUsage definition mode =>
    refine .bind_lookup fun type? _ ↦ ?_
    cases type? with
    | none => exact .bind_pure (accounts_describeWith accounts definition)
    | some type =>
      refine .bind_lookup fun reference _ ↦ ?_
      split
      · exact .bind_pure (accounts_describeWith accounts definition)
      · exact accounts type .empty mode state
  | instantiationText index =>
    refine .bind_lookup fun instantiation _ ↦ .bind_pure (.mapM (fun argument state ↦ ?_) _)
    refine .bind (accounts argument .empty .name state) fun usage after ↦ ?_
    exact .of_same (ensures_bind.mpr (ensures_get.mpr ⟨rfl, rfl⟩))

/-- A call that has a result abandons no name. One that fails may abandon one, for a definition whose
parameters cannot be looked up, and then fails because of that. -/
theorem givesOut_stateAfter (linkage : Linkage) {abandoned : List Naming}
    (givesOut : state.GivesOut abandoned) (call : Call) :
    (∀ result, ((linkage.answer call).run.run state).1 = .ok result →
      (linkage.stateAfter state call).GivesOut abandoned) ∧
    ∀ error, ((linkage.answer call).run.run state).1 = .error error →
      (linkage.stateAfter state call).GivesOut abandoned ∨
        ∃ naming, linkage.metadata.Abandons naming error ∧
          (linkage.stateAfter state call).GivesOut (abandoned ++ [naming]) := by
  have accounts : Ensures (linkage.answer call) state _ _ :=
    accounts_answer call abandoned givesOut
  rw [stateAfter_eq]
  constructor
  · intro result ran
    rwa [Ensures, run_eq_of_fst_eq ran] at accounts
  · intro error failed
    rwa [Ensures, run_eq_of_fst_eq failed] at accounts

theorem Reachable.exists_abandoned (reachable : linkage.Reachable state) :
    ∃ abandoned, state.GivesOut abandoned ∧
      ∀ naming ∈ abandoned, ∃ error, linkage.metadata.Abandons naming error := by
  induction reachable with
  | fresh => exact ⟨[], fun _ ↦ .refl _, by simp⟩
  | @call state _ call ih =>
    obtain ⟨abandoned, givesOut, abandons⟩ := ih
    obtain ⟨onResult, onError⟩ := givesOut_stateAfter linkage givesOut call
    cases ran : ((linkage.answer call).run.run state).1 with
    | ok result => exact ⟨abandoned, onResult result ran, abandons⟩
    | error error =>
      obtain givesOut | ⟨naming, isAbandoned, givesOut⟩ := onError error ran
      · exact ⟨abandoned, givesOut, abandons⟩
      · refine ⟨_, givesOut, fun other mem ↦ ?_⟩
        obtain mem | mem := List.mem_append.mp mem
        · exact abandons other mem
        · obtain rfl := List.mem_singleton.mp mem
          exact ⟨error, isAbandoned⟩

/-- There is at most one descriptor for each definition. -/
theorem nodup_namings {metadata : Metadata} (faithful : state.Faithful metadata) :
    (state.namings.map (·.definition)).Nodup := by
  have isDone (position : Nat) (inside : position < state.descriptors.toList.length)
      (naming : Naming) (named : state.descriptors.toList[position].naming? = some naming) :
      state.definitions[naming.definition]? = some (.done ⟨position⟩) := by
    have stored : state.descriptors[position]? = some state.descriptors.toList[position] := by
      rw [← Array.getElem?_toList, List.getElem?_eq_getElem inside]
    have describes := faithful.descriptors ⟨position⟩ _ stored
    unfold Descriptor.naming? at named
    unfold ResolutionState.Describes at describes
    split at named
    next isDefinition =>
      rw [isDefinition] at describes
      obtain rfl := Option.some.inj named
      exact describes.1
    all_goals exact nomatch named
  rw [List.Nodup, List.pairwise_map, ResolutionState.namings, List.pairwise_filterMap,
    List.pairwise_iff_getElem]
  intro first second isFirst isSecond before naming named other otherNamed same
  have done := isDone first isFirst naming named
  rw [same, isDone second isSecond other otherNamed] at done
  simp at done
  omega

/-- **What names are given out.** There is at most one descriptor for each definition. The names
that have been given out in a scope are those of the descriptors of definitions that have this scope,
and abandoned ones: one for each time that a definition could not be made because its parameters
could not be looked up. A call that has a result abandons no name, and a call that fails at most the
one that it fails with. -/
theorem names_accounted (reachable : linkage.Reachable state) :
    (state.namings.map (·.definition)).Nodup ∧
      (∃ abandoned, state.GivesOut abandoned ∧
        ∀ naming ∈ abandoned, ∃ error, linkage.metadata.Abandons naming error) ∧
      ∀ abandoned, state.GivesOut abandoned → ∀ call,
        (∀ result, ((linkage.answer call).run.run state).1 = .ok result →
          (linkage.stateAfter state call).GivesOut abandoned) ∧
        ∀ error, ((linkage.answer call).run.run state).1 = .error error →
          (linkage.stateAfter state call).GivesOut abandoned ∨
            ∃ naming, linkage.metadata.Abandons naming error ∧
              (linkage.stateAfter state call).GivesOut (abandoned ++ [naming]) :=
  ⟨nodup_namings reachable.faithful, reachable.exists_abandoned,
    fun _ givesOut call ↦ givesOut_stateAfter linkage givesOut call⟩

/-- Two definitions of one name, the first of which has a generic container that is missing. -/
def homonyms : Linkage where
  metadata := {
    version := ⟨24, 0⟩
    declarations := { Declarations.empty with
      typeDefinitions := .ofList [homonym ⟨0⟩, homonym .absent] }
    registrations := .empty }
  definitionTypes := ∅
  modules := ∅
where
  homonym (genericContainer : Index .genericContainers) : TypeDefinition := {
    name := "Foo"
    namespaceName := "Demo"
    ownType := .absent
    declaringType := .absent
    parent := .absent
    elementType := .absent
    genericContainer
    flags := 0
    fieldStart := .absent
    vtableStart := .absent
    contextStart := .absent
    contextCount := 0
    fieldCount := 0
    vtableCount := 0
    bitfield := 0
    token := 0 }

/-- The first definition has been asked for twice. -/
def homonymsAsked : ResolutionState :=
  homonyms.stateAfter (homonyms.stateAfter .empty (.describe ⟨0⟩)) (.describe ⟨0⟩)

theorem reachable_homonymsAsked : homonyms.Reachable homonymsAsked := .call (.call .fresh _) _

/-- The two names in the namespace are those that the first definition has abandoned. -/
theorem homonyms_accounted :
    homonyms.Reachable homonymsAsked ∧
      homonymsAsked.issuedNames (.inNamespace "Demo") = ["Foo", "Foo_1"] ∧
      ∃ abandoned, homonymsAsked.GivesOut abandoned ∧
        ∀ naming ∈ abandoned, ∃ error, homonyms.metadata.Abandons naming error :=
  ⟨reachable_homonymsAsked, by decide +kernel, (names_accounted reachable_homonymsAsked).2.1⟩

/-- A definition that is asked for twice, and cannot be made, takes two names, so that another
definition does not get its own. -/
theorem homonyms_not_givesOut :
    Linkage.ofMetadata homonyms.metadata = .ok homonyms ∧ homonyms.Reachable homonymsAsked ∧
      ¬homonymsAsked.GivesOut [] ∧
      (homonyms.stateAfter homonymsAsked (.describe ⟨1⟩)).namings =
        [⟨⟨1⟩, .inNamespace "Demo", "Foo_2"⟩] ∧
      (homonyms.stateAfter .empty (.describe ⟨1⟩)).namings =
        [⟨⟨1⟩, .inNamespace "Demo", "Foo"⟩] := by
  refine ⟨rfl, reachable_homonymsAsked, fun givesOut ↦ ?_, by decide +kernel, by decide +kernel⟩
  have counted := (givesOut (.inNamespace "Demo")).length_eq
  have isCount : (homonymsAsked.issuedNames (.inNamespace "Demo")).length = 2 ∧
      (Naming.namesIn (.inNamespace "Demo") (homonymsAsked.namings ++ [])).length = 0 := by
    decide +kernel
  omega

end Linkage

end ManagedLayout

import ManagedLayout.Proofs.Resolution.IssuedNames

/-!
# The order of names

Of definitions with the same name in the same owner, the one that is made first gets the name as it
is, and the others get numbers that go up in the order in which they are made. This holds of every
state that calls lead to, also after calls that have failed.
-/

namespace ManagedLayout

namespace NamePool

variable {pool : NamePool} {name other : String}

/-- A name with a number behind it, or, for zero, without one. -/
def numbered (name : String) : Nat → String
  | 0 => name
  | number + 1 => suffixed name (number + 1)

theorem numbered_of_pos {number : Nat} (positive : 1 ≤ number) :
    numbered name number = suffixed name number := by
  obtain ⟨smaller, rfl⟩ : ∃ smaller, number = smaller + 1 := ⟨number - 1, by omega⟩
  rfl

theorem numbered_injective (name : String) : Function.Injective (numbered name) := by
  intro first second same
  cases first with
  | zero =>
    cases second with
    | zero => rfl
    | succ second => exact absurd same.symm (suffixed_ne name _)
  | succ first =>
    cases second with
    | zero => exact absurd same (suffixed_ne name _)
    | succ second => exact suffixed_injective name same

/-- The least number that the pool could still put behind a name. -/
def next (pool : NamePool) (name : String) : Nat :=
  if pool.contains name then pool.nextSuffix.getD name 1 else 0

/-- Suffixes start at one. -/
def Positive (pool : NamePool) : Prop :=
  ∀ (name : String) suffix, pool.nextSuffix[name]? = some suffix → 1 ≤ suffix

theorem positive_empty : empty.Positive := by simp [Positive, empty]

theorem Positive.one_le (positive : pool.Positive) (name : String) :
    1 ≤ pool.nextSuffix.getD name 1 := by
  rw [Std.TreeMap.getD_eq_getD_getElem?]
  cases isSuffix : pool.nextSuffix[name]? with
  | none => exact Nat.le_refl 1
  | some suffix => exact positive name suffix isSuffix

theorem Positive.request (positive : pool.Positive) (name : String) :
    (pool.request name).2.Positive := by
  intro other suffix isSuffix
  cases taken : pool.contains name with
  | false =>
    rw [request_of_new taken] at isSuffix
    exact positive other suffix isSuffix
  | true =>
    obtain ⟨number, _, _, _, isRequest⟩ := exists_request_of_taken taken
    rw [isRequest] at isSuffix
    obtain isOld | ⟨rfl, rfl⟩ := getElem?_of_insert isSuffix
    · exact positive other suffix isOld
    · omega

/-- The number that a name gets is one that the pool could put behind it, and a later one is
greater. -/
theorem exists_numbered_request (positive : pool.Positive) (name : String) :
    ∃ number, pool.next name ≤ number ∧ (pool.request name).1 = numbered name number ∧
      number < (pool.request name).2.next name := by
  have contained : (pool.request name).2.contains name = true := by
    cases taken : pool.contains name with
    | false => exact contains_request.mpr (.inl (by rw [request_of_new taken]))
    | true => exact contains_request.mpr (.inr taken)
  unfold next
  rw [if_pos contained]
  cases taken : pool.contains name with
  | false =>
    have positiveAfter := (positive.request name).one_le name
    refine ⟨0, Nat.le_refl 0, by rw [request_of_new taken]; rfl, positiveAfter⟩
  | true =>
    obtain ⟨number, _, _, probes, isRequest⟩ := exists_request_of_taken taken
    have notLess := probes.start_le
    have isPositive := Nat.le_trans (positive.one_le name) notLess
    refine ⟨number, notLess, by rw [isRequest, numbered_of_pos isPositive], ?_⟩
    rw [isRequest]
    simp

/-- A request never makes a number possible again. -/
theorem next_le_next_request (name other : String) :
    pool.next other ≤ (pool.request name).2.next other := by
  unfold next
  cases contained : pool.contains other with
  | false => exact Nat.zero_le _
  | true =>
    rw [if_pos rfl, if_pos (contains_request.mpr (.inr contained))]
    cases taken : pool.contains name with
    | false => rw [request_of_new taken]
    | true =>
      obtain ⟨number, _, _, probes, isRequest⟩ := exists_request_of_taken taken
      rw [isRequest, Std.TreeMap.getD_insert]
      split
      next same =>
        obtain rfl := Std.LawfulEqOrd.eq_of_compare same
        exact Nat.le_succ_of_le probes.start_le
      next => exact Nat.le_refl _

end NamePool

namespace Metadata

/-- The name of a definition without the parameter count. -/
def baseName? (metadata : Metadata) (definition : Index .typeDefinitions) : Option String :=
  match metadata.typeDefinition definition with
  | .ok record => some (baseName record.name)
  | .error _ => none

/-- The two definitions have the same name in the same owner. -/
def Rivals (metadata : Metadata) (first second : Naming) : Prop :=
  first.scope = second.scope ∧ ∃ name, metadata.baseName? first.definition = some name ∧
    metadata.baseName? second.definition = some name

/-- The first definition has got a lower number behind its name than the second one, or none. -/
def NumberedBefore (metadata : Metadata) (first second : Naming) : Prop :=
  ∃ name less more, metadata.baseName? first.definition = some name ∧ less < more ∧
    first.name = NamePool.numbered name less ∧ second.name = NamePool.numbered name more

theorem Rivals.symm {metadata : Metadata} {first second : Naming}
    (rivals : metadata.Rivals first second) : metadata.Rivals second first := by
  obtain ⟨sameScope, name, isFirst, isSecond⟩ := rivals
  exact ⟨sameScope.symm, name, isSecond, isFirst⟩

theorem NumberedBefore.asymm {metadata : Metadata} {first second : Naming}
    (rivals : metadata.Rivals first second) (before : metadata.NumberedBefore first second) :
    ¬metadata.NumberedBefore second first := by
  obtain ⟨-, name, isFirst, isSecond⟩ := rivals
  obtain ⟨_, less, more, isName, inOrder, isLess, isMore⟩ := before
  obtain rfl := Option.some.inj (isName.symm.trans isFirst)
  rintro ⟨_, otherLess, otherMore, otherName, otherOrder, otherIsLess, otherIsMore⟩
  obtain rfl := Option.some.inj (otherName.symm.trans isSecond)
  obtain rfl := NamePool.numbered_injective _ (isLess.symm.trans otherIsMore)
  obtain rfl := NamePool.numbered_injective _ (isMore.symm.trans otherIsLess)
  omega

end Metadata

namespace ResolutionState

variable {before after state : ResolutionState} {metadata : Metadata}

/-- The names that have been given out in a scope. -/
def poolOf (state : ResolutionState) (scope : NameScope) : NamePool := state.names.getD scope .empty

/-- Definitions of the same name have got their numbers in the order of the arena, and the numbers
that are still to come are greater. -/
structure Numbers (metadata : Metadata) (state : ResolutionState) : Prop where
  positive : ∀ scope, (state.poolOf scope).Positive
  numbered : ∀ naming ∈ state.namings, ∃ name number,
    metadata.baseName? naming.definition = some name ∧
      naming.name = NamePool.numbered name number ∧ number < (state.poolOf naming.scope).next name
  ordered : state.namings.Pairwise fun first second ↦
    metadata.Rivals first second → metadata.NumberedBefore first second

theorem numbers_empty : empty.Numbers metadata where
  positive scope := by simpa [poolOf, empty] using NamePool.positive_empty
  numbered := by simp [namings, empty]
  ordered := by simp [namings, empty]

theorem Numbers.of_eq (numbers : before.Numbers metadata) (names : after.names = before.names)
    (namings : after.namings = before.namings) : after.Numbers metadata where
  positive scope := by
    rw [poolOf, names]
    exact numbers.positive scope
  numbered := by
    rw [namings]
    simp only [poolOf, names]
    exact numbers.numbered
  ordered := namings ▸ numbers.ordered

/-- The state after a name has been given out. -/
def afterName (state : ResolutionState) (scope : NameScope) (name : String) : ResolutionState :=
  { state with names := state.names.insert scope ((state.poolOf scope).request name).2 }

theorem poolOf_afterName (scope other : NameScope) (name : String) :
    (state.afterName scope name).poolOf other =
      if scope = other then ((state.poolOf scope).request name).2 else state.poolOf other := by
  simp only [poolOf, afterName, Std.TreeMap.getD_insert, Std.LawfulEqCmp.compare_eq_iff_eq]

/-- To give out a name changes nothing for those that have been given out. -/
theorem Numbers.afterName (numbers : state.Numbers metadata) (scope : NameScope) (name : String) :
    (state.afterName scope name).Numbers metadata where
  positive other := by
    rw [poolOf_afterName]
    split
    · exact (numbers.positive scope).request name
    · exact numbers.positive other
  numbered naming mem := by
    obtain ⟨base, number, isBase, isNumber, below⟩ := numbers.numbered naming mem
    refine ⟨base, number, isBase, isNumber, ?_⟩
    rw [poolOf_afterName]
    split
    next same =>
      subst same
      exact Nat.lt_of_lt_of_le below (NamePool.next_le_next_request name base)
    next => exact below
  ordered := numbers.ordered

/-- The definition that a name has been given out for comes after all others of that name. -/
theorem Numbers.push {descriptor : Descriptor} {name : String} (naming : Naming)
    (numbers : state.Numbers metadata) (named : descriptor.naming? = some naming)
    (isBase : metadata.baseName? naming.definition = some name)
    (isName : naming.name = ((state.poolOf naming.scope).request name).1) :
    ((state.afterName naming.scope name).push descriptor).2.Numbers metadata := by
  obtain ⟨number, notLess, isNumber, below⟩ :=
    NamePool.exists_numbered_request (numbers.positive naming.scope) name
  have after := numbers.afterName naming.scope name
  have namings : ((state.afterName naming.scope name).push descriptor).2.namings =
      state.namings ++ [naming] := by
    rw [namings_push, named]
    rfl
  refine ⟨after.positive, ?_, ?_⟩
  · intro other mem
    rw [namings] at mem
    obtain mem | isLast := List.mem_append.mp mem
    · exact after.numbered other mem
    · obtain rfl := List.mem_singleton.mp isLast
      refine ⟨name, number, isBase, isName.trans isNumber, ?_⟩
      change number < ((state.afterName other.scope name).poolOf other.scope).next name
      rwa [poolOf_afterName, if_pos rfl]
  · rw [namings, List.pairwise_append]
    refine ⟨numbers.ordered, List.pairwise_singleton _ _, ?_⟩
    rintro other mem last isLast ⟨sameScope, base, isOther, isLastBase⟩
    obtain rfl := List.mem_singleton.mp isLast
    obtain rfl := Option.some.inj (isBase.symm.trans isLastBase)
    obtain ⟨base, less, isBase, isLess, lessBelow⟩ := numbers.numbered other mem
    obtain rfl := Option.some.inj (isOther.symm.trans isBase)
    rw [sameScope] at lessBelow
    have isLater := Nat.lt_of_lt_of_le lessBelow notLess
    exact ⟨_, less, number, isOther, isLater, isLess, isName.trans isNumber⟩

end ResolutionState

namespace Resolve

/-- The recursive call: it maintains what holds of the state. -/
def MaintainsParts (invariant : ResolutionState → Prop) (resolveParts : ResolveParts) : Prop :=
  ∀ type context mode, Maintains invariant (resolveParts type context mode)

variable {metadata : Metadata}

/-- A change of neither the names nor the arena. -/
theorem numbers_changed {change : ResolutionState → ResolutionState}
    (names : ∀ state, (change state).names = state.names)
    (descriptors : ∀ state, (change state).descriptors = state.descriptors) :
    Maintains (ResolutionState.Numbers metadata) (modify change) :=
  .changed fun state numbers ↦ numbers.of_eq (names state)
    (by simp only [ResolutionState.namings, descriptors])

theorem numbers_push {descriptor : Descriptor} (unnamed : descriptor.naming? = none) :
    Maintains (ResolutionState.Numbers metadata) (push descriptor) := by
  intro state numbers
  refine ensures_modifyGet.mpr (numbers.of_eq rfl ?_)
  rw [ResolutionState.namings_push, unnamed]
  exact List.append_nil _

theorem numbers_builtin (kind : TypeKind) :
    Maintains (ResolutionState.Numbers metadata) (builtin kind) := by
  refine .bind_get fun state ↦ ?_
  split
  next => exact .pure
  next =>
    exact .bind (numbers_push rfl) fun _ ↦ .bind (numbers_changed (fun _ ↦ rfl) fun _ ↦ rfl)
      fun _ ↦ .pure

theorem numbers_parameter (index : Index .genericParameters) :
    Maintains (ResolutionState.Numbers metadata) (parameter metadata index) := by
  refine .bind_get fun state ↦ ?_
  split
  next => exact .pure
  next =>
    refine .bind_lookup fun record ↦ .bind (numbers_push rfl) fun _ ↦ ?_
    exact .bind (numbers_changed (fun _ ↦ rfl) fun _ ↦ rfl) fun _ ↦ .pure

theorem numbers_usageOnce {key : UsageKey} {compute : Resolve Usage}
    (maintains : Maintains (ResolutionState.Numbers metadata) compute) :
    Maintains (ResolutionState.Numbers metadata) (usageOnce key compute) := by
  intro state numbers
  simp only [usageOnce, ensures_bind, ensures_modify, ensures_tryCatch, ensures_throw, ensures_pure]
  refine (maintains _ ?_).mono ?_ ?_
  · exact numbers.of_eq rfl rfl
  · exact fun _ _ numbers ↦ numbers.of_eq rfl rfl
  · exact fun _ _ numbers ↦ numbers.of_eq rfl rfl

theorem numbers_definitionOnce {definition : Index .typeDefinitions}
    {compute : Resolve DescriptorId}
    (maintains : Maintains (ResolutionState.Numbers metadata) compute) :
    Maintains (ResolutionState.Numbers metadata) (definitionOnce definition compute) := by
  intro state numbers
  simp only [definitionOnce, ensures_bind, ensures_modify, ensures_tryCatch, ensures_throw,
    ensures_pure]
  refine (maintains _ ?_).mono ?_ ?_
  · exact numbers.of_eq rfl rfl
  · exact fun _ _ numbers ↦ numbers.of_eq rfl rfl
  · exact fun _ _ numbers ↦ numbers.of_eq rfl rfl

end Resolve

namespace Linkage

open Resolve ResolutionState

variable {linkage : Linkage} {resolveParts : ResolveParts} {state : ResolutionState}

/-- The name is given out, and then the descriptor is made, unless the parameters cannot be looked
up. -/
theorem numbers_buildDefinition
    (maintains : MaintainsParts (Numbers linkage.metadata) resolveParts)
    (definition : Index .typeDefinitions) :
    Maintains (Numbers linkage.metadata) (linkage.buildDefinition resolveParts definition) := by
  unfold buildDefinition
  intro state numbers
  rw [ensures_bind, ensures_lookup]
  refine ⟨fun record isRecord ↦ ?_, fun _ _ ↦ numbers⟩
  have isBase : linkage.metadata.baseName? definition = some (baseName record.name) := by
    simp only [Metadata.baseName?, isRecord]
  have declaring : Maintains (Numbers linkage.metadata)
      (record.declaringDescriptor? resolveParts) := by
    unfold TypeDefinition.declaringDescriptor?
    cases record.declaringType.present? with
    | none => exact .pure
    | some declaring => exact .map (.bind_pure (maintains declaring .empty .name))
  refine ensures_bind.mpr ((declaring state numbers).mono ?_ fun _ _ numbers ↦ numbers)
  intro declaringType? middle numbers
  refine ensures_bind.mpr (ensures_modifyGet.mpr (ensures_bind.mpr (ensures_lookup.mpr ?_)))
  refine ⟨fun parameterNames _ ↦ ensures_modifyGet.mpr ?_, fun _ _ ↦ numbers.afterName _ _⟩
  cases declaringType? with
  | none => exact numbers.push ⟨definition, .inNamespace record.namespaceName, _⟩ rfl isBase rfl
  | some declaring => exact numbers.push ⟨definition, .inType declaring, _⟩ rfl isBase rfl

theorem numbers_describeWith (maintains : MaintainsParts (Numbers linkage.metadata) resolveParts)
    (definition : Index .typeDefinitions) :
    Maintains (Numbers linkage.metadata) (linkage.describeWith resolveParts definition) := by
  refine .bind_get fun state ↦ ?_
  split
  next => exact .pure
  next => exact .throw
  next => exact numbers_definitionOnce (numbers_buildDefinition maintains definition)

theorem numbers_buildInstantiation
    (maintains : MaintainsParts (Numbers linkage.metadata) resolveParts)
    (genericClass : Index .genericClasses) (definition : Index .typeDefinitions)
    (context : GenericContext) :
    Maintains (Numbers linkage.metadata)
      (linkage.buildInstantiation resolveParts genericClass definition context) := by
  refine .bind (numbers_describeWith maintains definition) fun openId ↦ ?_
  refine .bind_lookup fun arguments ↦ ?_
  refine .bind (.mapM (fun argument ↦ maintains argument context .name) arguments) fun _ ↦ ?_
  exact .bind_get fun _ ↦ numbers_push rfl

theorem numbers_follow (maintains : MaintainsParts (Numbers linkage.metadata) resolveParts)
    (recipe : Recipe) :
    Maintains (Numbers linkage.metadata) (linkage.follow resolveParts recipe) := by
  cases recipe with
  | builtin kind => exact .bind_pure (numbers_builtin kind)
  | parameter parameter => exact .bind_pure (numbers_parameter parameter)
  | replaced part => exact maintains part.type part.context part.mode
  | pointer part | array _ part => exact .bind_pure (maintains part.type part.context part.mode)
  | definition definition => exact .bind_pure (numbers_describeWith maintains definition)
  | undefined genericClass =>
    refine .bind (numbers_changed (fun _ ↦ rfl) fun _ ↦ rfl) fun _ ↦ ?_
    exact .bind_pure (numbers_builtin .object)
  | instantiation genericClass definition context =>
    exact .bind_pure (numbers_buildInstantiation maintains genericClass definition context)

theorem numbers_resolveWithin (room : Nat) :
    MaintainsParts (Numbers linkage.metadata) (linkage.resolveWithin room) := by
  induction room with
  | zero =>
    intro type context mode
    unfold resolveWithin
    refine .bind_lookup fun reference ↦ .bind_get fun state ↦ ?_
    split
    next => exact .pure
    next => exact .throw
    next => exact .throw
  | succ room ih =>
    intro type context mode state numbers
    unfold resolveWithin
    rw [ensures_bind, ensures_lookup]
    refine ⟨fun reference isReference ↦ ?_, fun _ _ ↦ numbers⟩
    rw [ensures_bind, ensures_get]
    split
    next => exact numbers
    next => exact numbers
    next =>
      refine numbers_usageOnce ?_ state numbers
      rw [expand_eq ⟨_, _, _⟩ isReference]
      exact .bind_lookup fun recipe ↦ numbers_follow ih recipe

/-- A call keeps the numbers in order, whether it fails or not. -/
theorem numbers_answer (call : Call) :
    Maintains (Numbers linkage.metadata) (linkage.answer call) := by
  have maintains : MaintainsParts (Numbers linkage.metadata) linkage.resolve :=
    numbers_resolveWithin maxNesting
  cases call with
  | resolve type context mode => exact maintains type context mode
  | describe definition => exact numbers_describeWith maintains definition
  | definitionUsage definition mode =>
    refine .bind_lookup fun type? ↦ ?_
    cases type? with
    | none => exact .bind_pure (numbers_describeWith maintains definition)
    | some type =>
      refine .bind_lookup fun reference ↦ ?_
      split
      · exact .bind_pure (numbers_describeWith maintains definition)
      · exact maintains type .empty mode
  | instantiationText index =>
    refine .bind_lookup fun instantiation ↦ .bind_pure (.mapM (fun argument ↦ ?_) _)
    exact .bind (maintains argument .empty .name) fun _ ↦ .bind_get fun _ ↦ .pure

end Linkage

end ManagedLayout

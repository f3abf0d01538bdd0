import ManagedLayout.Proofs.Resolution.WellFormed

/-!
# Spellings never leave the arena

A spelling follows the references between descriptors as they are. The functions here look every
descriptor up in the arena, fail where there is none, and fail if they have to follow more references
in a row than they are allowed. In a well-formed arena they never do: the references from a
descriptor lead to places before it, and there are only so many of these.
-/

namespace ManagedLayout

/-- A list is gone through without a failure if no element of it fails. -/
theorem mapM_eq_some_map {Source Result : Type} {find : Source → Option Result}
    {result : Source → Result} {sources : List Source}
    (found : ∀ source ∈ sources, find source = some (result source)) :
    sources.mapM find = some (sources.map result) := by
  induction sources with
  | nil => rfl
  | cons source rest ih =>
    have foundRest := ih fun other mem ↦ found other (List.mem_cons_of_mem _ mem)
    rw [List.mapM_cons, found source List.mem_cons_self, foundRest]
    rfl

namespace ResolutionState

/-- The descriptor at a place of the arena, if there is one. -/
def descriptor? (state : ResolutionState) (id : DescriptorId) : Option Descriptor :=
  state.descriptors[id.position]?

/-- What stands in front of the name of a descriptor, after at most so many references. -/
def ownerText? (state : ResolutionState) (qualified : Bool) :
    (references : Nat) → DescriptorId → Option String
  | 0, _ => none
  | references + 1, id => do
    let descriptor ← state.descriptor? id
    match descriptor.declaringType? with
    | some declaring =>
      let owner ← state.ownerText? qualified references declaring
      return owner ++ (← state.descriptor? declaring).name ++ "."
    | none =>
      return if qualified && !descriptor.namespaceName.isEmpty then descriptor.namespaceName ++ "."
        else ""

/-- The spellings of the arguments of a descriptor, after at most so many references. -/
def argumentTexts? (state : ResolutionState) :
    (references : Nat) → DescriptorId → Option (List String)
  | 0, _ => none
  | references + 1, id => do
    let descriptor ← state.descriptor? id
    match descriptor.kind with
    | .instantiation .. =>
      descriptor.typeArguments.mapM fun argument ↦ do
        let owner ← state.ownerText? false references argument.descriptor
        let name := (← state.descriptor? argument.descriptor).name
        let arguments ← state.argumentTexts? references argument.descriptor
        return owner ++ name ++ angled arguments ++ argument.suffix
    | .definition _ => return descriptor.parameterNames
    | .builtin _ | .parameter _ => return []

/-- The last part of the name of a descriptor. -/
def bareText? (state : ResolutionState) (references : Nat) (id : DescriptorId) : Option String := do
  return (← state.descriptor? id).name ++ angled (← state.argumentTexts? references id)

/-- The name of a descriptor. -/
def descriptorText? (state : ResolutionState) (references : Nat) (id : DescriptorId)
    (qualified withArguments : Bool) : Option String := do
  let owner ← state.ownerText? qualified references id
  if withArguments then return owner ++ (← state.bareText? references id)
  else return owner ++ (← state.descriptor? id).name

/-- The spelling of a usage. -/
def usageText? (state : ResolutionState) (references : Nat) (usage : Usage) (qualified : Bool) :
    Option String := do
  return (← state.descriptorText? references usage.descriptor qualified true) ++ usage.suffix

/-- The namespace of the outermost declaring type, after at most so many references. -/
def rootNamespace? (state : ResolutionState) : (references : Nat) → DescriptorId → Option String
  | 0, _ => none
  | references + 1, id => do
    let descriptor ← state.descriptor? id
    match descriptor.declaringType? with
    | some declaring => state.rootNamespace? references declaring
    | none => return descriptor.namespaceName

/-- What can be read of a descriptor is read without leaving the arena, and without following more
references in a row than there are descriptors. -/
structure Readable (state : ResolutionState) (references : Nat) (id : DescriptorId) : Prop where
  ownerText : ∀ qualified,
    state.ownerText? qualified references id = some (state.ownerText id qualified)
  bareText : state.bareText? references id = some (state.bareText id)
  descriptorText : ∀ qualified withArguments,
    state.descriptorText? references id qualified withArguments =
      some (state.descriptorText id qualified withArguments)
  rootNamespace : state.rootNamespace? references id = some (state.rootNamespace id)

namespace WellFormed

variable {state : ResolutionState} {id : DescriptorId} {references : Nat}

theorem descriptor?_eq (stored : state.Stores id) :
    state.descriptor? id = some (state.descriptor id) := by
  rw [descriptor?, descriptor, Array.getElem?_eq_getElem stored]
  rfl

theorem declaring_earlier (wellFormed : state.WellFormed) (stored : state.Stores id) :
    ∀ declaring ∈ (state.descriptor id).declaringType?, declaring.position < id.position :=
  wellFormed.declaringTypes id _ (descriptor?_eq stored)

theorem argument_earlier (wellFormed : state.WellFormed) (stored : state.Stores id) :
    ∀ argument ∈ (state.descriptor id).typeArguments,
      argument.descriptor.position < id.position :=
  wellFormed.typeArguments id _ (descriptor?_eq stored)

/-- An earlier place is in the arena, and there are fewer references from there. -/
theorem stores_earlier {earlier : DescriptorId} (isEarlier : earlier.position < id.position)
    (stored : state.Stores id) : state.Stores earlier :=
  Nat.lt_trans isEarlier stored

theorem ownerText?_eq (wellFormed : state.WellFormed) (qualified : Bool) (stored : state.Stores id)
    (enough : id.position < references) :
    state.ownerText? qualified references id = some (state.ownerText id qualified) := by
  induction references generalizing id with
  | zero => exact absurd enough (Nat.not_lt_zero _)
  | succ references ih =>
    rw [ownerText?, descriptor?_eq stored, Option.bind_eq_bind, Option.bind_some, ownerText]
    cases isDeclaring : (state.descriptor id).declaringType? with
    | none => rfl
    | some declaring =>
      have earlier := wellFormed.declaring_earlier stored declaring isDeclaring
      have declaringStored := stores_earlier earlier stored
      simp only [ih declaringStored (by omega), descriptor?_eq declaringStored, dif_pos earlier]
      rfl

theorem argumentTexts?_eq (wellFormed : state.WellFormed) (stored : state.Stores id)
    (enough : id.position < references) :
    state.argumentTexts? references id = some (state.argumentTexts id) := by
  induction references generalizing id with
  | zero => exact absurd enough (Nat.not_lt_zero _)
  | succ references ih =>
    rw [argumentTexts?, descriptor?_eq stored, Option.bind_eq_bind, Option.bind_some, argumentTexts]
    cases isKind : (state.descriptor id).kind with
    | builtin | parameter | definition => rfl
    | instantiation =>
      dsimp only
      apply mapM_eq_some_map
      intro argument mem
      have earlier := wellFormed.argument_earlier stored argument mem
      have argumentStored := stores_earlier earlier stored
      simp only [wellFormed.ownerText?_eq false argumentStored (by omega : _ < references),
        descriptor?_eq argumentStored, ih argumentStored (by omega), dif_pos earlier]
      rfl

theorem rootNamespace?_eq (wellFormed : state.WellFormed) (stored : state.Stores id)
    (enough : id.position < references) :
    state.rootNamespace? references id = some (state.rootNamespace id) := by
  induction references generalizing id with
  | zero => exact absurd enough (Nat.not_lt_zero _)
  | succ references ih =>
    rw [rootNamespace?, descriptor?_eq stored, Option.bind_eq_bind, Option.bind_some, rootNamespace]
    cases isDeclaring : (state.descriptor id).declaringType? with
    | none => rfl
    | some declaring =>
      have earlier := wellFormed.declaring_earlier stored declaring isDeclaring
      simp only [ih (stores_earlier earlier stored) (by omega), dif_pos earlier]

/-- Whatever is in the arena can be read. -/
theorem readable (wellFormed : state.WellFormed) (stored : state.Stores id)
    (enough : id.position < references) : state.Readable references id := by
  have bareText : state.bareText? references id = some (state.bareText id) := by
    rw [bareText?, descriptor?_eq stored, wellFormed.argumentTexts?_eq stored enough]
    rfl
  constructor
  case ownerText => exact fun qualified ↦ wellFormed.ownerText?_eq qualified stored enough
  case bareText => exact bareText
  case descriptorText =>
    intro qualified withArguments
    rw [descriptorText?, wellFormed.ownerText?_eq qualified stored enough, bareText,
      descriptor?_eq stored]
    cases withArguments <;> rfl
  case rootNamespace => exact wellFormed.rootNamespace?_eq stored enough

end WellFormed

theorem Readable.usageText {state : ResolutionState} {references : Nat} {usage : Usage}
    (readable : state.Readable references usage.descriptor) (qualified : Bool) :
    state.usageText? references usage qualified = some (state.usageText usage qualified) := by
  rw [usageText?, readable.descriptorText qualified true]
  rfl

end ResolutionState

namespace Linkage

open Resolve

variable {linkage : Linkage} {state after : ResolutionState}

/-- The place of the descriptor that a call has as its result, if it has one. -/
def Call.place? : (call : Call) → call.Answer → Option DescriptorId
  | .resolve .., usage | .definitionUsage .., usage => some (Usage.descriptor usage)
  | .describe _, id => some id
  | .instantiationText _, _ => none

/-- The result of a call is in the arena that the call leaves behind. -/
theorem stores_answer (faithful : state.Faithful linkage.metadata) (call : Call)
    {answer : call.Answer}
    (answered : (linkage.answer call).run.run state = (.ok answer, after)) :
    ∀ id ∈ call.place? answer, after.Stores id := by
  rintro id isPlace
  cases call with
  | resolve type context mode =>
    obtain rfl := Option.some.inj isPlace
    obtain ⟨faithful, -, done⟩ :=
      (remembers_resolve type context mode state faithful).of_run_eq_ok answered
    exact (faithful.usages _ answer done).stored
  | describe definition =>
    obtain rfl := Option.some.inj isPlace
    obtain ⟨faithful, -, done⟩ := (keeps_describe definition faithful).of_run_eq_ok answered
    exact (faithful.definitions definition answer done).stored
  | definitionUsage definition mode =>
    obtain rfl := Option.some.inj isPlace
    obtain ⟨faithful, -, standsFor⟩ :=
      (keeps_definitionUsage definition mode faithful).of_run_eq_ok answered
    exact standsFor.stored faithful
  | instantiationText => exact nomatch isPlace

/-- **The arena is well formed.** Whatever calls have been made, and whether they failed or not, all
places of descriptors that are remembered or referred to are in the arena, references lead to places
before, and what can have one descriptor only is looked up under it. The result of a call is in the
arena, and stays there. So whatever is handed out can be spelled: this follows at most as many
references in a row as there are descriptors, and never leaves the arena. -/
theorem arena_wellFormed (reachable : linkage.Reachable state) :
    state.WellFormed ∧
      (∀ call answer after, (linkage.answer call).run.run state = (.ok answer, after) →
        ∀ id ∈ call.place? answer, after.Stores id) ∧
      (∀ call id, state.Stores id → (linkage.stateAfter state call).Stores id) ∧
      (∀ id, state.Stores id → ∀ references ≥ state.descriptors.size,
        state.Readable references id) ∧
      ∀ usage, state.Stores usage.descriptor → ∀ references ≥ state.descriptors.size, ∀ qualified,
        state.usageText? references usage qualified = some (state.usageText usage qualified) := by
  have wellFormed := reachable.faithful.wellFormed reachable.indexed
  have readable (id : DescriptorId) (stored : state.Stores id) (references : Nat)
      (enough : references ≥ state.descriptors.size) : state.Readable references id :=
    wellFormed.readable stored (Nat.lt_of_lt_of_le stored enough)
  refine ⟨wellFormed, ?_, ?_, readable, ?_⟩
  · intro call answer after answered
    exact stores_answer reachable.faithful call answered
  · intro call id stored
    have grows := (stateAfter_faithful reachable.faithful call).2
    exact Nat.lt_of_lt_of_le stored grows.arena.size_le
  · intro usage stored references enough qualified
    exact (readable usage.descriptor stored references enough).usageText qualified

/-- The array of the inner class, after an attempt at the array of itself. Of the seven descriptors
two are declared by the outer class, of which there is one descriptor, and two have arguments. -/
theorem triples_arena_wellFormed :
    let state := triples.stateAfter (triples.stateAfter .empty (.resolve ⟨9⟩ .empty .name))
      (.resolve ⟨8⟩ ⟨some ⟨1⟩, none⟩ .value)
    triples.Reachable state ∧ state.WellFormed ∧ state.descriptors.size = 7 ∧
      (∀ id, state.Shows id (.definition ⟨0⟩) ↔ id = ⟨0⟩) ∧ state.Stores ⟨6⟩ ∧
      (state.descriptor ⟨6⟩).declaringType? = some ⟨0⟩ ∧
      (state.descriptor ⟨6⟩).typeArguments = [.plain ⟨5⟩] ∧
      state.usageText? 7 ⟨⟨6⟩, 0, [⟨.vector, 0⟩]⟩ true =
        some "Demo.Triple.Cell<Triple<int[], Color, M>>[]" := by
  intro state
  have reachable : triples.Reachable state := .call (.call .fresh _) _
  have isSize : state.descriptors.size = 7 := by decide +kernel
  have isOuter : state.definitions[(⟨0⟩ : Index .typeDefinitions)]? = some (.done ⟨0⟩) := by
    decide +kernel
  obtain ⟨wellFormed, -, -, -, spelled⟩ := arena_wellFormed reachable
  have unique (id : DescriptorId) : state.Shows id (.definition ⟨0⟩) ↔ id = ⟨0⟩ := by
    rw [wellFormed.definitions, isOuter]
    simp [eq_comm]
  have stored : state.Stores ⟨6⟩ := by
    rw [ResolutionState.Stores, isSize]
    decide
  have isText : state.usageText ⟨⟨6⟩, 0, [⟨.vector, 0⟩]⟩ true =
      "Demo.Triple.Cell<Triple<int[], Color, M>>[]" := by
    decide +kernel
  refine ⟨reachable, wellFormed, isSize, unique, stored, by decide +kernel, by decide +kernel, ?_⟩
  rw [spelled ⟨⟨6⟩, 0, [⟨.vector, 0⟩]⟩ stored 7 (by rw [isSize]), isText]

end Linkage

end ManagedLayout

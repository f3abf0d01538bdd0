import ManagedLayout.Proofs.Resolution.Steps

/-!
# Resolutions compute expansions

A resolution starts with nothing in its memory, and is then asked for usages, descriptors and
spellings, one after the other. Some of these calls fail, and leave behind what they found out
before. Whatever has been asked for before, a usage that is resolved stands for the expansion of its
type reference.
-/

namespace ManagedLayout

namespace Linkage

open Resolve

variable {linkage : Linkage} {state after : ResolutionState}

/-- What a resolution can be asked for. -/
inductive Call where
  | resolve (type : Index .types) (context : GenericContext) (mode : ResolveMode)
  | describe (definition : Index .typeDefinitions)
  | definitionUsage (definition : Index .typeDefinitions) (mode : ResolveMode)
  | instantiationText (index : Index .genericInstantiations)
  deriving DecidableEq, Repr

/-- The state after a call, whatever came of it. -/
def stateAfter (linkage : Linkage) (state : ResolutionState) : Call → ResolutionState
  | .resolve type context mode => ((linkage.resolve type context mode).run.run state).2
  | .describe definition => ((linkage.describe definition).run.run state).2
  | .definitionUsage definition mode => ((linkage.definitionUsage definition mode).run.run state).2
  | .instantiationText index => ((linkage.instantiationText index).run.run state).2

/-- The states that calls lead to. -/
inductive Reachable (linkage : Linkage) : ResolutionState → Prop where
  | fresh : Reachable linkage .empty
  | call {state : ResolutionState} (reachable : Reachable linkage state) (call : Call) :
    Reachable linkage (linkage.stateAfter state call)

theorem remembers_resolve : Remembers linkage.metadata linkage.resolve :=
  remembers_resolveWithin maxNesting

theorem keeps_describe (definition : Index .typeDefinitions) :
    Keeps linkage.metadata (linkage.describe definition) state
      fun id after ↦ after.definitions[definition]? = some (.done id) :=
  keeps_describeWith remembers_resolve definition

/-- A usage is what a definition is used as: that of the type reference for it, or its descriptor
if there is none or if that is built in. -/
def StandsFor (linkage : Linkage) (definition : Index .typeDefinitions) (mode : ResolveMode)
    (usage : Usage) (state : ResolutionState) : Prop :=
  (∃ id, usage = .plain id ∧ state.definitions[definition]? = some (.done id)) ∨
    ∃ type reference, linkage.typeForDefinition? definition = .ok (some type) ∧
      linkage.metadata.typeReference type = .ok reference ∧ reference.kind.isBuiltin = false ∧
      state.usages[linkage.metadata.normal ⟨type, .empty, mode⟩]? = some (.done usage)

theorem StandsFor.mono {definition : Index .typeDefinitions} {mode : ResolveMode} {usage : Usage}
    (extend : state.Extends after) (standsFor : linkage.StandsFor definition mode usage state) :
    linkage.StandsFor definition mode usage after := by
  obtain ⟨id, isPlain, done⟩ | ⟨type, reference, isType, isReference, notBuiltin, done⟩ := standsFor
  · exact .inl ⟨id, isPlain, extend.definitions definition id done⟩
  · exact .inr ⟨type, reference, isType, isReference, notBuiltin, extend.usages _ usage done⟩

theorem StandsFor.stored {definition : Index .typeDefinitions} {mode : ResolveMode} {usage : Usage}
    (standsFor : linkage.StandsFor definition mode usage state)
    (faithful : state.Faithful linkage.metadata) :
    usage.descriptor.position < state.descriptors.size := by
  obtain ⟨id, rfl, done⟩ | ⟨_, _, _, _, _, done⟩ := standsFor
  · exact (faithful.definitions definition id done).stored
  · exact (faithful.usages _ usage done).stored

theorem keeps_definitionUsage (definition : Index .typeDefinitions) (mode : ResolveMode) :
    Keeps linkage.metadata (linkage.definitionUsage definition mode) state
      (linkage.StandsFor definition mode) := by
  have plain : Keeps linkage.metadata
      (do return Usage.plain (← linkage.describe definition)) state
      (linkage.StandsFor definition mode) :=
    .bind (keeps_describe definition) fun id after _ _ done ↦ .pure (.inl ⟨id, rfl, done⟩)
  apply Keeps.bind_lookup
  intro type? isType
  cases type? with
  | none => exact plain
  | some type =>
    apply Keeps.bind_lookup
    intro reference isReference
    split
    next => exact plain
    next notBuiltin =>
      apply (remembers_resolve type .empty mode state).mono
      intro usage after _ _ done
      exact .inr ⟨type, reference, isType, isReference, by simpa using notBuiltin, done⟩

theorem keeps_instantiationText (index : Index .genericInstantiations) :
    Keeps linkage.metadata (linkage.instantiationText index) state fun _ _ ↦ True := by
  apply Keeps.bind_lookup
  intro instantiation _
  have texts : Keeps linkage.metadata
      (instantiation.arguments.toList.mapM fun argument ↦ do
        let usage ← linkage.resolve argument .empty .name
        return (← get).usageText usage false) state fun _ _ ↦ True := by
    apply Keeps.mapM_trivial
    intro argument state
    apply Keeps.bind (remembers_resolve argument .empty .name state)
    intro _ _ _ _ _
    exact .bind_get (.pure trivial)
  exact .bind texts fun _ _ _ _ _ ↦ .pure trivial

/-- A call keeps the state faithful, and finishes whatever it begins. -/
theorem stateAfter_faithful (faithful : state.Faithful linkage.metadata) (call : Call) :
    (linkage.stateAfter state call).Faithful linkage.metadata ∧
      state.Grows (linkage.stateAfter state call) := by
  cases call with
  | resolve type context mode => exact (remembers_resolve type context mode state).after faithful
  | describe definition => exact (keeps_describe definition).after faithful
  | definitionUsage definition mode => exact (keeps_definitionUsage definition mode).after faithful
  | instantiationText index => exact (keeps_instantiationText index).after faithful

theorem Reachable.faithful (reachable : linkage.Reachable state) :
    state.Faithful linkage.metadata := by
  induction reachable with
  | fresh => exact ResolutionState.faithful_empty
  | call _ call ih => exact (stateAfter_faithful ih call).1

/-- Between calls nothing is underway. -/
theorem Reachable.idle (reachable : linkage.Reachable state) :
    ResolutionState.empty.Grows state := by
  induction reachable with
  | fresh => exact .refl
  | call reachable call ih => exact ih.trans (stateAfter_faithful reachable.faithful call).2

/-- The type references of a dump that has nothing else. -/
def ofTypes (types : List (TypeKind × TypeData)) : Linkage where
  metadata := {
    version := ⟨24, 0⟩
    declarations := .empty
    registrations := { Registrations.empty with
      types := { TypeRegistration.empty with
        types := .ofList (types.map fun (kind, data) ↦ ⟨data, 0, kind, false, false, false⟩) } } }
  definitionTypes := ∅
  modules := ∅

/-- An integer, a pointer to it, an array of such pointers, and an array of itself. -/
def samples : Linkage :=
  .ofTypes [(.int32, .none), (.pointer, .type ⟨0⟩), (.vector, .type ⟨1⟩), (.vector, .type ⟨3⟩)]

/-- A generic class of an array of `T`, of `T`, and of the parameter `M` of a method; the enumeration
that stands for `T`; an array of a generic class that is declared inside of the first one, and has it
for an argument; and an array of itself. -/
def triples : Linkage where
  metadata := {
    version := ⟨24, 0⟩
    declarations := { Declarations.empty with
      typeDefinitions := .ofList [definition "Triple`3" 0 .absent .absent,
        definition "Color" 3 ⟨0⟩ .absent, definition "Cell`1" 0 .absent ⟨6⟩]
      genericParameters := .ofList [⟨⟨0⟩, "T", 0, 0⟩, ⟨⟨1⟩, "M", 0, 0⟩] }
    registrations := { Registrations.empty with
      types := { TypeRegistration.empty with
        types := .ofList [⟨.none, 0, .int32, false, false, false⟩,
          ⟨.parameter ⟨0⟩, 0, .typeParameter, false, false, false⟩,
          ⟨.type ⟨1⟩, 0, .vector, false, false, false⟩,
          ⟨.definition ⟨1⟩, 0, .valueType, false, false, false⟩,
          ⟨.parameter ⟨1⟩, 0, .methodParameter, false, false, false⟩,
          ⟨.genericClass ⟨0⟩, 0, .genericInstance, false, false, false⟩,
          ⟨.definition ⟨0⟩, 0, .classType, false, false, false⟩,
          ⟨.genericClass ⟨1⟩, 0, .genericInstance, false, false, false⟩,
          ⟨.type ⟨7⟩, 0, .vector, false, false, false⟩,
          ⟨.type ⟨9⟩, 0, .vector, false, false, false⟩]
        genericClasses := .ofList [⟨⟨0⟩, .absent, ⟨⟨0⟩, .absent⟩⟩, ⟨⟨2⟩, .absent, ⟨⟨2⟩, .absent⟩⟩]
        genericInstantiations := .ofList [⟨#[⟨2⟩, ⟨1⟩, ⟨4⟩]⟩, ⟨#[⟨3⟩]⟩, ⟨#[⟨5⟩]⟩] } } }
  definitionTypes := ∅
  modules := ∅
where
  definition (name : String) (bitfield : UInt32) (elementType declaringType : Index .types) :
      TypeDefinition := {
    name
    namespaceName := "Demo"
    ownType := .absent
    declaringType
    parent := .absent
    elementType
    genericContainer := .absent
    flags := 0
    fieldStart := .absent
    vtableStart := .absent
    contextStart := .absent
    contextCount := 0
    fieldCount := 0
    vtableCount := 0
    bitfield
    token := 0 }

end Linkage

end ManagedLayout

import ManagedLayout.Event
import ManagedLayout.NamePool
import ManagedLayout.Resolution.Descriptor

/-!
# The state of a resolution

Resolution is a computation over a state that grows: the arena of descriptors, what has been
resolved already, what is being resolved, and the names given out. A resolution that fails leaves
behind what it found out before it failed.
-/

namespace ManagedLayout

/-- What the result of resolving a type reference depends on. -/
structure UsageKey where
  type : Index .types
  context : GenericContext
  mode : ResolveMode
  deriving DecidableEq, Repr

namespace UsageKey

instance : Ord UsageKey :=
  ⟨compareLex (compareOn type) (compareLex (compareOn context) (compareOn mode))⟩

instance : Std.TransOrd UsageKey :=
  inferInstanceAs (Std.TransCmp
    (compareLex (compareOn type) (compareLex (compareOn context) (compareOn mode))))

instance : Std.LawfulEqOrd UsageKey :=
  lawfulEqCmp_compareLex fun
    | ⟨_, _, _⟩, ⟨_, _, _⟩, sameType, same => by
      have sameContextAndMode := compareLex_eq_eq.mp same
      cases Std.LawfulEqOrd.eq_of_compare sameType
      cases Std.LawfulEqOrd.eq_of_compare sameContextAndMode.1
      cases Std.LawfulEqOrd.eq_of_compare sameContextAndMode.2
      rfl

end UsageKey

/-- What is known about a record: it is being worked on, or done. -/
inductive Progress (Result : Type) where
  | underway
  | done (result : Result)
  deriving DecidableEq, Repr

structure ResolutionState where
  descriptors : Array Descriptor
  usages : Std.TreeMap UsageKey (Progress Usage)
  definitions : Std.TreeMap (Index .typeDefinitions) (Progress DescriptorId)
  parameters : Std.TreeMap (Index .genericParameters) DescriptorId
  builtins : Std.TreeMap TypeKind DescriptorId
  names : Std.TreeMap NameScope NamePool
  /-- How many usages have been worked on, and not just looked up. -/
  resolvedCount : Nat
  /-- What was reported, in order. -/
  events : Array Event

namespace ResolutionState

def empty : ResolutionState := ⟨#[], ∅, ∅, ∅, ∅, ∅, 0, #[]⟩

instance : Inhabited ResolutionState := ⟨empty⟩

/-- Appends a descriptor to the arena. -/
def push (state : ResolutionState) (descriptor : Descriptor) : DescriptorId × ResolutionState :=
  (⟨state.descriptors.size⟩,
    { state with descriptors := state.descriptors.push descriptor })

/-- The descriptor of a definition, if it is done. -/
def builtDefinition? (state : ResolutionState) (definition : Index .typeDefinitions) :
    Option DescriptorId :=
  match state.definitions[definition]? with
  | some (.done descriptor) => some descriptor
  | _ => none

end ResolutionState

/-- A computation that may fail, but keeps the state that it reached. -/
abbrev Resolve (Result : Type) : Type := ExceptT LayoutError (StateM ResolutionState) Result

namespace Resolve

/-- Reports an event. -/
def report (event : Event) : Resolve Unit :=
  modify fun state ↦ { state with events := state.events.push event }

/-- Appends a descriptor to the arena. -/
def push (descriptor : Descriptor) : Resolve DescriptorId :=
  modifyGet fun state ↦ state.push descriptor

/-- A name that is unique in a scope. -/
def uniqueName (scope : NameScope) (name : String) : Resolve String :=
  modifyGet fun state ↦
    let (unique, pool) := (state.names.getD scope .empty).request name
    (unique, { state with names := state.names.insert scope pool })

end Resolve

end ManagedLayout

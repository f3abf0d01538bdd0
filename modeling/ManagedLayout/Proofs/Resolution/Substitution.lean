import ManagedLayout.Proofs.Resolution.Expansion
import ManagedLayout.Proofs.Resolution.Retry

/-!
# Resolution in a context is substitution

In a context, the class parameters that a type refers to are replaced by their arguments. A sketch of
a type has a hole for each of them: what is left of the type if the arguments are not known yet.
Filled with the parameters themselves, a sketch is the type as it is without a context, and filled
with the arguments, the type as it is in the context. Arguments have no context of their own, and are
resolved in the mode that is in force where the hole is.

Not every class parameter of a type is a hole of it. What declares a definition, and what an
enumeration is stored as, are resolved without a context, as are the parameters of methods here.
-/

namespace ManagedLayout

namespace TypeSketch

/-- A parameter that stands for itself, in whichever mode. -/
def itself (parameter : Index .genericParameters) (_ : ResolveMode) : TypeTree :=
  .parameter parameter

end TypeSketch

/-- Whether nothing that the layer is made of is resolved in the context of the layer. -/
def TypeLayer.isWhole : TypeLayer → Bool
  | builtin _ | parameter _ | replaced _ | definition _ _ => true
  | instantiation .. | pointer _ | array _ _ => false

/-- Whether the recipe asks for nothing in the context that it is for. -/
def Recipe.isWhole : Recipe → Bool
  | builtin _ | parameter _ | replaced _ | definition _ | undefined _ => true
  | instantiation .. | pointer _ | array _ _ => false

namespace Metadata

section Layers

variable {metadata : Metadata} {type : Index .types} {mode : ResolveMode}
  {arguments : Index .genericInstantiations}

end Layers

end Metadata

namespace ResolutionState

variable {state : ResolutionState} {metadata : Metadata}
  {arguments : Index .genericInstantiations} {type : Index .types} {mode : ResolveMode}

end ResolutionState

namespace Linkage

open Resolve

variable {linkage : Linkage} {state after other otherAfter : ResolutionState}

/-- A usage that is remembered is looked up, and the state stays as it is. -/
theorem run_resolve_of_done {type : Index .types} {context : GenericContext} {mode : ResolveMode}
    {usage : Usage} (faithful : state.Faithful linkage.metadata)
    (done : state.usages[linkage.metadata.normal ⟨type, context, mode⟩]? = some (.done usage)) :
    (linkage.resolve type context mode).run.run state = (.ok usage, state) := by
  obtain ⟨reference, isReference⟩ := exists_typeReference_of_done faithful done
  exact returns_iff.mp (returns_resolveWithin isReference done)

end Linkage

end ManagedLayout

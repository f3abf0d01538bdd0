import ManagedLayout.Catalogue.Definitions
import ManagedLayout.Reference.Usage

/-!
# Places in code that use the methods of a type

The usage sites of a dump are grouped by the display name of the type that declares the method.
-/

namespace ManagedLayout

namespace Linkage

/-- The name under which the call sites of a definition are found: its display name, or its spelling
if no image claims it. -/
def callSiteKey (linkage : Linkage) (definitions : DefinitionNames)
    (definition : Index .typeDefinitions) : Resolve String := do
  match definitions.displayNames[definition]? with
  | some name => return name
  | none =>
    let descriptor ← linkage.describe definition
    return (← get).descriptorText descriptor true true

/-- The spelling of the arguments of an instantiation that may be absent. -/
def instantiationText? (linkage : Linkage) :
    Option (Index .genericInstantiations) → Resolve (Option String)
  | some index => return some (← linkage.instantiationText index)
  | none => return none

/-- The call site of a usage site, and the name under which it is found. -/
def callSite (linkage : Linkage) (definitions : DefinitionNames) (site : UsageSite) :
    Resolve (String × CallSite) := do
  match site.target with
  | .definition index =>
    let method ← linkage.metadata.method index
    let key ← linkage.callSiteKey definitions method.declaringType
    return (key, ⟨site.address, none, method.name⟩)
  | .instantiation index =>
    let context ← linkage.metadata.specContext index
    let spec ← linkage.metadata.methodSpec index
    let method ← linkage.metadata.method spec.method
    let key ← linkage.callSiteKey definitions method.declaringType
    let methodArguments? ← linkage.instantiationText? context.methodArguments?
    let typeArguments? ← linkage.instantiationText? context.classArguments?
    return (key, ⟨site.address, typeArguments?, method.name ++ methodArguments?.getD ""⟩)

/-- The call sites of all types. -/
def groupCallSites (linkage : Linkage) (definitions : DefinitionNames) :
    Resolve (Std.TreeMap String (Array CallSite)) := do
  if linkage.metadata.version.listsUsages then
    let sites ← linkage.metadata.usageSites
    sites.foldlM (fun groups site ↦ do
      let (key, callSite) ← linkage.callSite definitions site
      return groups.insert key ((groups.getD key #[]).push callSite)) ∅
  else
    Resolve.report (.noUsageTable linkage.metadata.version)
    return ∅

end Linkage

end ManagedLayout

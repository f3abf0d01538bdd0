import ManagedLayout.Reference.Basic
import Std.Data.TreeMap

/-!
# Places in code that use methods

Between versions 16 and 27 a dump lists the places in code that hold a reference to a method. Each
list entry names a place by its position among the usage addresses; of several entries for one place
the last one counts, for methods and for instantiations separately.
-/

namespace ManagedLayout

/-- A place in code that uses a method. -/
structure UsageSite where
  /-- The address of the place, relative to the image base. -/
  address : UInt64
  target : MethodReference
  deriving DecidableEq, Repr

namespace Metadata

/-- The uses with one kind of target, in the order of their places. -/
def usagesOf (metadata : Metadata) (usage : UInt32) (target : UInt32 → MethodReference) :
    List (UInt32 × MethodReference) :=
  let targets : Std.TreeMap UInt32 MethodReference :=
    metadata.declarations.usagePairs.foldl (fun targets pair ↦
      let encoded := EncodedMethod.ofWord metadata.revision pair.source
      if encoded.usage = usage then targets.insert pair.destination (target encoded.index)
      else targets) ∅
  targets.toList

/-- The site of a use: its place must have an address, not below the image base. -/
def usageSite (metadata : Metadata) (destination : UInt32) (target : MethodReference) :
    Except LayoutError UsageSite :=
  match metadata.registrations.types.usageAddresses[destination.toNat]? with
  | none => .error (.outOfRange .usageAddresses destination)
  | some address =>
    if metadata.registrations.imageBase ≤ address then
      .ok ⟨address - metadata.registrations.imageBase, target⟩
    else .error (.badHandle .usageAddresses address)

/-- The sites that use methods, then those that use instantiations, each in the order of their
places. Versions without a usage table have none. -/
def usageSites (metadata : Metadata) : Except LayoutError (List UsageSite) :=
  if metadata.version.listsUsages then
    (metadata.usagesOf EncodedMethod.definitionUsage (.definition ⟨·⟩)
        ++ metadata.usagesOf EncodedMethod.instantiationUsage (.instantiation ⟨·⟩)).mapM
      fun (destination, target) ↦ metadata.usageSite destination target
  else .ok []

end Metadata

end ManagedLayout

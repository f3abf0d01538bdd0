import ManagedLayout.Catalogue.Basic
import ManagedLayout.Resolution.Spelling

/-!
# The names of definitions

Every definition that an image claims gets a display name, its qualified spelling made unique.
Images are gone through in order, and the first image to claim a definition owns it.
-/

namespace ManagedLayout

/-- A definition with its name. -/
structure NamedDefinition where
  definition : Index .typeDefinitions
  image : Index .images
  name : String
  descriptor : DescriptorId
  deriving DecidableEq, Repr

/-- The definitions named so far. -/
structure DefinitionNames where
  /-- In the order in which they were claimed. -/
  entries : Array NamedDefinition
  pool : NamePool
  displayNames : Std.TreeMap (Index .typeDefinitions) String
  owners : Std.TreeMap (Index .typeDefinitions) (Index .images)
  /-- The names of the definitions behind the built-in kinds. -/
  builtinNames : Std.TreeMap TypeKind String

namespace DefinitionNames

def empty : DefinitionNames := ⟨#[], .empty, ∅, ∅, ∅⟩

/-- Names a definition by its spelling. The first definition behind a built-in kind names that. -/
def insert (names : DefinitionNames) (image : Index .images)
    (definition : Index .typeDefinitions) (descriptor : DescriptorId) (spelling : String)
    (builtin? : Option TypeKind) : DefinitionNames :=
  let (name, pool) := names.pool.request spelling
  { entries := names.entries.push ⟨definition, image, name, descriptor⟩
    pool
    displayNames := names.displayNames.insert definition name
    owners := names.owners.insert definition image
    builtinNames := match builtin? with
      | some kind => names.builtinNames.insertIfNew kind name
      | none => names.builtinNames }

end DefinitionNames

namespace Metadata

/-- The built-in kind that a definition stands for: that of the type reference for the definition,
or the one whose name it has in the namespace `System`. -/
def builtinKind? (metadata : Metadata) (index : Index .typeDefinitions) :
    Except LayoutError (Option TypeKind) := do
  let definition ← metadata.typeDefinition index
  let own ← match definition.ownType.present? with
    | some type => do pure (some (← metadata.typeReference type).kind)
    | none => pure none
  match own.filter TypeKind.isBuiltin with
  | some kind => return some kind
  | none =>
    if definition.namespaceName == "System" && !definition.declaringType.isPresent then
      return TypeKind.ofDefinitionName? definition.name
    else return none

end Metadata

namespace Linkage

/-- An image claims a definition. -/
def claim (linkage : Linkage) (image : Index .images) (definition : Index .typeDefinitions)
    (names : DefinitionNames) : Resolve DefinitionNames := do
  match names.owners[definition]? with
  | some owner =>
    Resolve.report (.claimedTwice definition owner image)
    return names
  | none =>
    let usage ← linkage.definitionUsage definition .name
    let spelling := (← get).usageText usage true
    let builtin? ← linkage.metadata.builtinKind? definition
    return names.insert image definition usage.descriptor spelling builtin?

/-- An image claims `count` consecutive definitions. -/
def claimRange (linkage : Linkage) (image : Index .images) :
    (count : Nat) → Index .typeDefinitions → DefinitionNames → Resolve DefinitionNames
  | 0, _, names => pure names
  | count + 1, definition, names => do
    linkage.claimRange image count (definition.offset 1) (← linkage.claim image definition names)

/-- The definitions that the images claim, with their names. -/
def nameDefinitions (linkage : Linkage) : Resolve DefinitionNames :=
  linkage.metadata.declarations.images.indexed.foldlM
    (fun names (index, image) ↦
      linkage.claimRange index image.typeCount.toNat image.typeStart names)
    .empty

end Linkage

end ManagedLayout

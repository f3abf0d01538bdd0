import ManagedLayout.Reference.Basic
import Std.Data.TreeMap

/-!
# Linked metadata

Some references can only be followed backwards: from a definition to a type that stands for it, and
from a token to the entries of a runtime generic context. A `Linkage` is a dump together with the
lookups for these. It exists only if every class and value type of the dump has a definition.
-/

namespace ManagedLayout

/-- The context entries of a code module, by token. -/
structure ModuleContexts where
  entries : Table .moduleContextEntries ContextEntry
  ranges : Std.TreeMap UInt32 EntryRange

/-- The context entries of a code module; of several ranges for a token the last one counts. -/
def CodeModule.contexts (code : CodeModule) : ModuleContexts where
  entries := code.contextEntries
  ranges := code.contextRanges.foldl (fun ranges pair ↦ ranges.insert pair.token pair.range) ∅

/-- A dump with its backward lookups. -/
structure Linkage where
  metadata : Metadata
  /-- For a definition, the first class or value type that refers to it. -/
  definitionTypes : Std.TreeMap (Index .typeDefinitions) (Index .types)
  /-- For the name of an image, the context entries of its code module. -/
  modules : Std.TreeMap String ModuleContexts

/-- Whether a type reference stands for its definition as such. -/
def TypeReference.namesDefinition (reference : TypeReference) : Bool :=
  !reference.isByReference && (reference.kind == .classType || reference.kind == .valueType)

namespace Linkage

/-- Adds a type reference that stands for a definition, unless there is one already. -/
def collectType (metadata : Metadata)
    (types : Std.TreeMap (Index .typeDefinitions) (Index .types))
    (pair : Index .types × TypeReference) :
    Except LayoutError (Std.TreeMap (Index .typeDefinitions) (Index .types)) :=
  if pair.2.namesDefinition then do
    return types.insertIfNew (← metadata.definitionOf pair.1) pair.1
  else return types

/-- For each definition, the first type reference that stands for it. -/
def typesByDefinition (metadata : Metadata) :
    Except LayoutError (Std.TreeMap (Index .typeDefinitions) (Index .types)) :=
  metadata.registrations.types.types.indexed.foldlM (collectType metadata) ∅

/-- For each image name, the context entries of the last code module of that name. -/
def modulesByName (metadata : Metadata) : Std.TreeMap String ModuleContexts :=
  metadata.registrations.code.modules.foldl
    (fun modules code ↦ modules.insert code.name code.contexts) ∅

/-- Links a dump. -/
def ofMetadata (metadata : Metadata) : Except LayoutError Linkage := do
  return ⟨metadata, ← typesByDefinition metadata, modulesByName metadata⟩

/-- A type reference that stands for a definition: the one that the definition names, or else the
first one that refers to it. -/
def typeForDefinition? (linkage : Linkage) (definition : Index .typeDefinitions) :
    Except LayoutError (Option (Index .types)) := do
  let record ← linkage.metadata.typeDefinition definition
  match record.ownType.present? with
  | some type => do
    let _ ← linkage.metadata.typeReference type
    return some type
  | none => return linkage.definitionTypes[definition]?

/-- The context entries of a record of an image. Before 24.2 they are a range of one table; from
then on they are the range that the code module of the image has for the token of the record. -/
def contextEntries (linkage : Linkage) (image : Image) (token : UInt32)
    (start : Index .contextEntries) (count : UInt32) : Except LayoutError (List ContextEntry) :=
  match linkage.metadata.revision with
  | .legacy =>
    match linkage.metadata.declarations.contextEntries.slice? start count with
    | some entries => .ok entries
    | none => .error (.outOfRange .contextEntries start.raw)
  | .tokenContexts | .handles =>
    match linkage.modules[image.name]? with
    | none => .error (.missingModule image.name)
    | some contexts =>
      match contexts.ranges[token]? with
      | none => .ok []
      | some range =>
        match contexts.entries.slice? ⟨range.start⟩ range.length with
        | some entries => .ok entries
        | none => .error (.outOfRange .moduleContextEntries range.start)

/-- The runtime generic context of a definition. -/
def contextOfType (linkage : Linkage) (image : Image) (definition : Index .typeDefinitions) :
    Except LayoutError (List ContextEntry) := do
  let record ← linkage.metadata.typeDefinition definition
  linkage.contextEntries image record.token record.contextStart record.contextCount

/-- The runtime generic context of a method. -/
def contextOfMethod (linkage : Linkage) (image : Image) (method : Index .methods) :
    Except LayoutError (List ContextEntry) := do
  let record ← linkage.metadata.method method
  linkage.contextEntries image record.token record.contextStart record.contextCount

end Linkage

end ManagedLayout

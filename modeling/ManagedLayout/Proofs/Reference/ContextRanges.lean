import ManagedLayout.Proofs.LastEntries
import ManagedLayout.Proofs.TableRanges
import ManagedLayout.Reference.Linkage

/-!
# Runtime generic contexts as ranges of tables

The runtime generic context of a definition or a method is a range of a table. Before 24.2 the record
says itself which range; from then on it has a token only, and the code module of the image has a range
for the token. Of several modules with the name of the image, and of several ranges for a token, the
last one counts. The context is what stands in the range. There is none only if the range leaves its
table, or if there is no module with the name of the image.
-/

namespace ManagedLayout

/-- What has a runtime generic context. -/
inductive ContextOwner where
  | definition (index : Index .typeDefinitions)
  | method (index : Index .methods)
  deriving DecidableEq, Repr

/-- What a record says about its runtime generic context: a token, and a range of one table. -/
structure ContextKey where
  token : UInt32
  start : Index .contextEntries
  count : UInt32
  deriving DecidableEq, Repr

/-- A range of a table of context entries. -/
structure ContextRange where
  kind : TableKind
  table : Table kind ContextEntry
  start : Index kind
  count : UInt32

/-- What the record of a definition or a method says about its context. -/
def Metadata.contextKey (metadata : Metadata) : ContextOwner → Except LayoutError ContextKey
  | .definition index => do
    let record ← metadata.typeDefinition index
    return ⟨record.token, record.contextStart, record.contextCount⟩
  | .method index => do
    let record ← metadata.method index
    return ⟨record.token, record.contextStart, record.contextCount⟩

/-- The runtime generic context of a definition or a method. -/
def Linkage.contextOf (linkage : Linkage) (image : Image) :
    ContextOwner → Except LayoutError (List ContextEntry)
  | .definition index => linkage.contextOfType image index
  | .method index => linkage.contextOfMethod image index

/-- This is the code module of the image: the last one that has its name. -/
def Metadata.HasModule (metadata : Metadata) (image : Image) (code : CodeModule) : Prop :=
  ∃ before after, metadata.registrations.code.modules = before ++ code :: after ∧
    code.name = image.name ∧ ∀ other ∈ after, other.name ≠ image.name

/-- This is the range of the module for the token: the last one. -/
def CodeModule.HasRange (code : CodeModule) (token : UInt32) (range : EntryRange) : Prop :=
  ∃ before after, code.contextRanges = before ++ ⟨token, range⟩ :: after ∧
    ∀ other ∈ after, other.token ≠ token

/-- The range in which the context of a record stands. -/
inductive Metadata.HasContextRange (metadata : Metadata) (image : Image) (key : ContextKey) :
    ContextRange → Prop
  | stated (isEarly : metadata.version < ⟨24, 2⟩) :
    HasContextRange metadata image key
      ⟨.contextEntries, metadata.declarations.contextEntries, key.start, key.count⟩
  | registered {code : CodeModule} {range : EntryRange} (isLate : ⟨24, 2⟩ ≤ metadata.version)
    (isModule : metadata.HasModule image code) (isRange : code.HasRange key.token range) :
    HasContextRange metadata image key
      ⟨.moduleContextEntries, code.contextEntries, ⟨range.start⟩, range.length⟩
  /-- A token that the module has no range for stands for the empty one. -/
  | unregistered {code : CodeModule} (isLate : ⟨24, 2⟩ ≤ metadata.version)
    (isModule : metadata.HasModule image code)
    (noRange : ∀ pair ∈ code.contextRanges, pair.token ≠ key.token) :
    HasContextRange metadata image key
      ⟨.moduleContextEntries, code.contextEntries, .absent, 0⟩

/-- No code module has the name of the image, in a version that needs one. -/
structure Metadata.LacksModule (metadata : Metadata) (image : Image) : Prop where
  isLate : ⟨24, 2⟩ ≤ metadata.version
  noModule : ∀ code ∈ metadata.registrations.code.modules, code.name ≠ image.name

namespace ContextRange

variable {range : ContextRange} {entries : List ContextEntry} {error : LayoutError}

/-- What stands in a range. -/
def read (range : ContextRange) : Except LayoutError (List ContextEntry) :=
  match range.table.slice? range.start range.count with
  | some entries => .ok entries
  | none => .error (.outOfRange range.kind range.start.raw)

theorem read_eq_ok_iff :
    range.read = .ok entries ↔ range.table.IsRange range.start range.count entries := by
  rw [← Table.slice?_eq_some_iff, read]
  cases range.table.slice? range.start range.count <;> simp

theorem read_eq_error_iff :
    range.read = .error error ↔ range.table.Leaves range.start range.count ∧
      error = .outOfRange range.kind range.start.raw := by
  rw [← Table.slice?_eq_none_iff, read]
  cases range.table.slice? range.start range.count <;> simp [eq_comm]

end ContextRange

section Modules

variable {metadata : Metadata} {image : Image} {code : CodeModule} {token : UInt32}
  {range : EntryRange}

theorem CodeModule.ranges_eq_treeOf (code : CodeModule) : code.contexts.ranges =
    treeOf (code.contextRanges.map fun pair ↦ (pair.token, pair.range)) := by
  rw [treeOf, List.foldl_map]
  rfl

theorem CodeModule.HasRange.getElem?_ranges (hasRange : code.HasRange token range) :
    code.contexts.ranges[token]? = some range := by
  obtain ⟨before, after, split, others⟩ := hasRange
  rw [code.ranges_eq_treeOf, getElem?_treeOf, isLast_map_iff]
  exact ⟨before, _, after, split, rfl, rfl, others⟩

theorem CodeModule.hasRange_of_getElem? (found : code.contexts.ranges[token]? = some range) :
    code.HasRange token range := by
  rw [code.ranges_eq_treeOf, getElem?_treeOf, isLast_map_iff] at found
  obtain ⟨before, ⟨_, _⟩, after, split, rfl, rfl, others⟩ := found
  exact ⟨before, after, split, others⟩

theorem CodeModule.getElem?_ranges_eq_none :
    code.contexts.ranges[token]? = none ↔ ∀ pair ∈ code.contextRanges, pair.token ≠ token := by
  rw [code.ranges_eq_treeOf, getElem?_treeOf_eq_none]
  simp

theorem Linkage.modulesByName_eq_treeOf (metadata : Metadata) : modulesByName metadata =
    treeOf (metadata.registrations.code.modules.map fun code ↦ (code.name, code.contexts)) := by
  rw [treeOf, List.foldl_map]
  rfl

theorem Metadata.HasModule.getElem?_modules (hasModule : metadata.HasModule image code) :
    (Linkage.modulesByName metadata)[image.name]? = some code.contexts := by
  obtain ⟨before, after, split, isNamed, others⟩ := hasModule
  rw [Linkage.modulesByName_eq_treeOf, getElem?_treeOf, isLast_map_iff]
  exact ⟨before, code, after, split, isNamed, rfl, others⟩

theorem Metadata.hasModule_of_getElem? {contexts : ModuleContexts}
    (found : (Linkage.modulesByName metadata)[image.name]? = some contexts) :
    ∃ code, metadata.HasModule image code ∧ code.contexts = contexts := by
  rw [Linkage.modulesByName_eq_treeOf, getElem?_treeOf, isLast_map_iff] at found
  obtain ⟨before, code, after, split, isNamed, isContexts, others⟩ := found
  exact ⟨code, ⟨before, after, split, isNamed, others⟩, isContexts⟩

theorem Linkage.getElem?_modules_eq_none :
    (modulesByName metadata)[image.name]? = none ↔
      ∀ code ∈ metadata.registrations.code.modules, code.name ≠ image.name := by
  rw [modulesByName_eq_treeOf, getElem?_treeOf_eq_none]
  simp

end Modules

/-- Every record has a range for its context, unless the code module of the image is missing. -/
theorem Metadata.exists_hasContextRange_or_lacksModule (metadata : Metadata) (image : Image)
    (key : ContextKey) :
    (∃ range, metadata.HasContextRange image key range) ∨ metadata.LacksModule image := by
  by_cases isEarly : metadata.version < ⟨24, 2⟩
  · exact .inl ⟨_, .stated isEarly⟩
  · cases isModule : (Linkage.modulesByName metadata)[image.name]? with
    | none => exact .inr ⟨isEarly, Linkage.getElem?_modules_eq_none.mp isModule⟩
    | some contexts =>
      obtain ⟨code, hasModule, -⟩ := hasModule_of_getElem? isModule
      cases isRange : code.contexts.ranges[key.token]? with
      | none =>
        exact .inl ⟨_, .unregistered isEarly hasModule
          (CodeModule.getElem?_ranges_eq_none.mp isRange)⟩
      | some range =>
        exact .inl ⟨_, .registered isEarly hasModule (CodeModule.hasRange_of_getElem? isRange)⟩

namespace Linkage

variable {metadata : Metadata} {linkage : Linkage} {image : Image} {key : ContextKey}

theorem modules_eq_of_ofMetadata (linked : ofMetadata metadata = .ok linkage) :
    linkage.metadata = metadata ∧ linkage.modules = modulesByName metadata := by
  obtain ⟨types, -, isLinkage⟩ := lookup_bind_eq_ok.mp linked
  obtain rfl := lookup_pure_eq_ok.mp isLinkage
  exact ⟨rfl, rfl⟩

/-- From 24.2 on, the entries of a record are those that a code module has for the token. -/
theorem contextEntries_eq_of_late (isLate : ⟨24, 2⟩ ≤ linkage.metadata.version) (token : UInt32)
    (start : Index .contextEntries) (count : UInt32) :
    linkage.contextEntries image token start count =
      match linkage.modules[image.name]? with
      | none => .error (.missingModule image.name)
      | some contexts =>
        match contexts.ranges[token]? with
        | none => .ok []
        | some range =>
          ContextRange.read ⟨.moduleContextEntries, contexts.entries, ⟨range.start⟩, range.length⟩ := by
  unfold contextEntries
  have notLegacy := Metadata.revision_ne_legacy isLate
  generalize linkage.metadata.revision = revision at notLegacy ⊢
  cases revision with
  | legacy => exact absurd rfl notLegacy
  | tokenContexts | handles => rfl

section Linked

variable (linked : ofMetadata metadata = .ok linkage)
include linked

/-- The entries of a record are what stands in its range. -/
theorem contextEntries_eq_read {range : ContextRange}
    (hasRange : metadata.HasContextRange image key range) :
    linkage.contextEntries image key.token key.start key.count = range.read := by
  obtain ⟨rfl, areModules⟩ := modules_eq_of_ofMetadata linked
  cases hasRange with
  | stated isEarly =>
    rw [contextEntries, Metadata.revision_eq_legacy isEarly]
    rfl
  | registered isLate hasModule hasRange =>
    rw [contextEntries_eq_of_late isLate, areModules, hasModule.getElem?_modules]
    dsimp only
    rw [hasRange.getElem?_ranges]
    rfl
  | unregistered isLate hasModule noRange =>
    rw [contextEntries_eq_of_late isLate, areModules, hasModule.getElem?_modules]
    dsimp only
    rw [CodeModule.getElem?_ranges_eq_none.mpr noRange, ContextRange.read, Table.slice?_zero]

theorem contextEntries_of_lacksModule (lacksModule : metadata.LacksModule image) :
    linkage.contextEntries image key.token key.start key.count =
      .error (.missingModule image.name) := by
  obtain ⟨rfl, areModules⟩ := modules_eq_of_ofMetadata linked
  rw [contextEntries_eq_of_late lacksModule.isLate, areModules,
    getElem?_modules_eq_none.mpr lacksModule.noModule]

theorem contextOf_eq_contextEntries {owner : ContextOwner}
    (isKey : metadata.contextKey owner = .ok key) (image : Image) :
    linkage.contextOf image owner =
      linkage.contextEntries image key.token key.start key.count := by
  obtain ⟨rfl, -⟩ := modules_eq_of_ofMetadata linked
  cases owner with
  | definition index | method index =>
    obtain ⟨record, isRecord, isKey⟩ := lookup_bind_eq_ok.mp isKey
    obtain rfl := lookup_pure_eq_ok.mp isKey
    simp only [contextOf, contextOfType, contextOfMethod, isRecord, lookup_ok_bind]

theorem contextOf_eq_ok_iff {owner : ContextOwner} (isKey : metadata.contextKey owner = .ok key)
    {entries : List ContextEntry} :
    linkage.contextOf image owner = .ok entries ↔
      ∃ range, metadata.HasContextRange image key range ∧
        range.table.IsRange range.start range.count entries := by
  rw [contextOf_eq_contextEntries linked isKey]
  constructor
  · intro areEntries
    obtain ⟨range, hasRange⟩ | lacksModule :=
      metadata.exists_hasContextRange_or_lacksModule image key
    · rw [contextEntries_eq_read linked hasRange] at areEntries
      exact ⟨range, hasRange, ContextRange.read_eq_ok_iff.mp areEntries⟩
    · rw [contextEntries_of_lacksModule linked lacksModule] at areEntries
      exact nomatch areEntries
  · rintro ⟨range, hasRange, isRange⟩
    rw [contextEntries_eq_read linked hasRange]
    exact ContextRange.read_eq_ok_iff.mpr isRange

theorem contextOf_eq_error_iff {owner : ContextOwner} (isKey : metadata.contextKey owner = .ok key)
    {error : LayoutError} :
    linkage.contextOf image owner = .error error ↔
      (∃ range, metadata.HasContextRange image key range ∧
        range.table.Leaves range.start range.count ∧
        error = .outOfRange range.kind range.start.raw) ∨
      metadata.LacksModule image ∧ error = .missingModule image.name := by
  rw [contextOf_eq_contextEntries linked isKey]
  constructor
  · intro failed
    obtain ⟨range, hasRange⟩ | lacksModule :=
      metadata.exists_hasContextRange_or_lacksModule image key
    · rw [contextEntries_eq_read linked hasRange] at failed
      exact .inl ⟨range, hasRange, ContextRange.read_eq_error_iff.mp failed⟩
    · rw [contextEntries_of_lacksModule linked lacksModule] at failed
      exact .inr ⟨lacksModule, (Except.error.inj failed).symm⟩
  · rintro (⟨range, hasRange, outside⟩ | ⟨lacksModule, rfl⟩)
    · rw [contextEntries_eq_read linked hasRange]
      exact ContextRange.read_eq_error_iff.mpr outside
    · exact contextEntries_of_lacksModule linked lacksModule

/-- **The runtime generic context of a definition or a method is what stands in its range.** It is a
contiguous part of the table, of the length asked for, and empty if nothing is asked for. It cannot
be read if the range leaves its table or the code module of the image is missing, and only then. From
24.2 on it does not depend on the range that the record states. -/
theorem contextOf_iff_hasContextRange {owner : ContextOwner}
    (isKey : metadata.contextKey owner = .ok key) (image : Image) :
    (∀ entries, linkage.contextOf image owner = .ok entries ↔
      ∃ range, metadata.HasContextRange image key range ∧
        range.table.IsRange range.start range.count entries) ∧
    (∀ error, linkage.contextOf image owner = .error error ↔
      (∃ range, metadata.HasContextRange image key range ∧
        range.table.Leaves range.start range.count ∧
        error = .outOfRange range.kind range.start.raw) ∨
      metadata.LacksModule image ∧ error = .missingModule image.name) ∧
    (∀ range, metadata.HasContextRange image key range → range.count = 0 →
      linkage.contextOf image owner = .ok []) ∧
    (⟨24, 2⟩ ≤ metadata.version → ∀ start count,
      linkage.contextEntries image key.token start count = linkage.contextOf image owner) := by
  refine ⟨fun entries ↦ contextOf_eq_ok_iff linked isKey,
    fun error ↦ contextOf_eq_error_iff linked isKey, ?_, ?_⟩
  · rintro ⟨kind, table, start, _⟩ hasRange rfl
    exact (contextOf_eq_ok_iff linked isKey).mpr ⟨_, hasRange, Table.isRange_nil⟩
  · intro isLate start count
    rw [contextOf_eq_contextEntries linked isKey]
    obtain ⟨rfl, -⟩ := modules_eq_of_ofMetadata linked
    rw [contextEntries_eq_of_late isLate, contextEntries_eq_of_late isLate]

end Linked

end Linkage

/-- A dump with two code modules of one name, of which the second one has two ranges for the token of
the first method, and none for that of the second method. -/
def Metadata.tokens : Metadata where
  version := ⟨24, 2⟩
  declarations := { Declarations.empty with
    methods := .ofList [⟨"Sort", ⟨0⟩, .absent, 0x06000001, 0, 0, ⟨5⟩, 3⟩,
      ⟨"Swap", ⟨0⟩, .absent, 0x06000002, 0, 0, .absent, 9⟩] }
  registrations := { Registrations.empty with
    code := ⟨[⟨"main.dll", [⟨0x06000001, ⟨0, 1⟩⟩, ⟨0x06000002, ⟨0, 1⟩⟩], .ofList [⟨.type, 9⟩]⟩,
      ⟨"main.dll", [⟨0x06000001, ⟨0, 1⟩⟩, ⟨0x06000001, ⟨1, 2⟩⟩],
        .ofList [⟨.type, 4⟩, ⟨.method, 7⟩, ⟨.classType, 2⟩]⟩]⟩ }

namespace Linkage

/-- The last range in the last module counts for the first method, and what the records state does
not. -/
theorem tokens_contextOf_iff_hasContextRange :
    ∃ linkage, ofMetadata .tokens = .ok linkage ∧
      Metadata.tokens.contextKey (.method ⟨0⟩) = .ok ⟨0x06000001, ⟨5⟩, 3⟩ ∧
      linkage.contextOf ⟨"main.dll", ⟨0⟩, 0, 0, 0, 0⟩ (.method ⟨0⟩) =
        .ok [⟨.method, 7⟩, ⟨.classType, 2⟩] ∧
      linkage.contextOf ⟨"core.dll", ⟨0⟩, 0, 0, 0, 0⟩ (.method ⟨0⟩) =
        .error (.missingModule "core.dll") ∧
      Metadata.tokens.contextKey (.method ⟨1⟩) = .ok ⟨0x06000002, .absent, 9⟩ ∧
      linkage.contextOf ⟨"main.dll", ⟨0⟩, 0, 0, 0, 0⟩ (.method ⟨1⟩) = .ok [] := by
  have linked : ofMetadata .tokens = .ok ⟨.tokens, ∅, modulesByName .tokens⟩ := rfl
  have isLate : ⟨24, 2⟩ ≤ Metadata.tokens.version := by decide
  have hasModule : Metadata.tokens.HasModule ⟨"main.dll", ⟨0⟩, 0, 0, 0, 0⟩ _ :=
    ⟨[_], [], rfl, rfl, by simp⟩
  have isKey : Metadata.tokens.contextKey (.method ⟨0⟩) = .ok ⟨0x06000001, ⟨5⟩, 3⟩ := rfl
  have isOtherKey : Metadata.tokens.contextKey (.method ⟨1⟩) = .ok ⟨0x06000002, .absent, 9⟩ := rfl
  have first := contextOf_iff_hasContextRange linked isKey
  have second := contextOf_iff_hasContextRange linked isOtherKey
  refine ⟨_, linked, isKey, ?_, ?_, isOtherKey, ?_⟩
  · exact ((first _).1 _).mpr ⟨_, .registered isLate hasModule ⟨[_], [], rfl, by simp⟩,
      rfl, [⟨.type, 4⟩], [], rfl, fun _ ↦ ⟨by decide, rfl⟩⟩
  · exact ((first _).2.1 _).mpr (.inr ⟨⟨isLate, by decide⟩, rfl⟩)
  · exact (second _).2.2.1 _ (.unregistered isLate hasModule (by decide)) rfl

end Linkage

end ManagedLayout

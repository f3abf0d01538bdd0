import ManagedLayout.Catalogue.Definitions
import ManagedLayout.Proofs.Resolution.Expansion
import ManagedLayout.Proofs.Resolution.Spelling

/-!
# What is known about the names of definitions

The pass that names the definitions keeps its tables in step with each other: whatever has a display
name is an entry of that name, and so is every name that was given out. At the end every definition
that an image claims has a name.
-/

namespace ManagedLayout

/-- Some image claims a definition. -/
def Metadata.Claimed (metadata : Metadata) (definition : Index .typeDefinitions) : Prop :=
  ∃ image ∈ metadata.declarations.images.toList, ∃ position < image.typeCount.toNat,
    definition = image.typeStart.offset (UInt32.ofNat position)

namespace DefinitionNames

/-- The tables of the definitions named so far fit each other. -/
structure Sound (linkage : Linkage) (names : DefinitionNames) (state : ResolutionState) : Prop where
  entries : ∀ entry ∈ names.entries, names.displayNames[entry.definition]? = some entry.name
  displayNames : ∀ (definition : Index .typeDefinitions) name,
    names.displayNames[definition]? = some name →
      ∃ entry ∈ names.entries, entry.definition = definition ∧ entry.name = name
  owners : ∀ definition : Index .typeDefinitions,
    names.owners[definition]?.isSome = names.displayNames[definition]?.isSome
  pool : ∀ name, names.pool.contains name → ∃ entry ∈ names.entries, entry.name = name
  builtinNames : ∀ (kind : TypeKind) name, names.builtinNames[kind]? = some name →
    ∃ entry ∈ names.entries, entry.name = name
  spelled : ∀ (definition : Index .typeDefinitions) name,
    names.displayNames[definition]? = some name →
      ∃ usage, linkage.StandsFor definition .name usage state ∧
        (name = state.usageText usage true ∨
          ∃ suffix, name = NamePool.suffixed (state.usageText usage true) suffix)
  descriptors : ∀ entry ∈ names.entries, ∃ usage,
    linkage.StandsFor entry.definition .name usage state ∧ usage.descriptor = entry.descriptor

variable {linkage : Linkage} {names : DefinitionNames} {state after : ResolutionState}

theorem sound_empty : empty.Sound linkage state := by
  constructor <;> simp [empty]

theorem Sound.mono (sound : names.Sound linkage state) (faithful : state.Faithful linkage.metadata)
    (extend : state.Extends after) : names.Sound linkage after where
  __ := sound
  spelled definition name isName := by
    obtain ⟨usage, standsFor, spelled⟩ := sound.spelled definition name isName
    refine ⟨usage, standsFor.mono extend, ?_⟩
    rwa [extend.arena.usageText_eq (standsFor.stored faithful)]
  descriptors entry mem := by
    obtain ⟨usage, standsFor, isDescriptor⟩ := sound.descriptors entry mem
    exact ⟨usage, standsFor.mono extend, isDescriptor⟩

theorem Sound.stored (sound : names.Sound linkage state) (faithful : state.Faithful linkage.metadata)
    {entry : NamedDefinition} (mem : entry ∈ names.entries) :
    entry.descriptor.position < state.descriptors.size := by
  obtain ⟨usage, standsFor, isDescriptor⟩ := sound.descriptors entry mem
  exact isDescriptor ▸ standsFor.stored faithful

section Insert

variable {image : Index .images} {definition : Index .typeDefinitions} {descriptor : DescriptorId}
  {spelling : String} {builtin? : Option TypeKind} {entry : NamedDefinition}

/-- The name that a definition is given. -/
def given (names : DefinitionNames) (spelling : String) : String := (names.pool.request spelling).1

theorem mem_entries_insert :
    entry ∈ (names.insert image definition descriptor spelling builtin?).entries ↔
      entry ∈ names.entries ∨ entry = ⟨definition, image, names.given spelling, descriptor⟩ :=
  Array.mem_push

theorem displayNames_insert (other : Index .typeDefinitions) :
    (names.insert image definition descriptor spelling builtin?).displayNames[other]? =
      if definition = other then some (names.given spelling) else names.displayNames[other]? :=
  getElem?_insert_eq

/-- A kind has the name that it has had before, or the one that is given. -/
theorem builtinNames_insert {kind : TypeKind} {name : String}
    (isName : (names.insert image definition descriptor spelling builtin?).builtinNames[kind]? =
      some name) :
    names.builtinNames[kind]? = some name ∨ name = names.given spelling := by
  cases builtin? with
  | none => exact .inl isName
  | some inserted =>
    simp only [DefinitionNames.insert, Std.TreeMap.getElem?_insertIfNew] at isName
    split at isName
    next => exact .inr (Option.some.inj isName).symm
    next => exact .inl isName

theorem exists_entry_insert_old {name : String} (has : ∃ entry ∈ names.entries, entry.name = name) :
    ∃ entry ∈ (names.insert image definition descriptor spelling builtin?).entries,
      entry.name = name := by
  obtain ⟨entry, mem, isName⟩ := has
  exact ⟨entry, mem_entries_insert.mpr (.inl mem), isName⟩

theorem exists_entry_insert :
    ∃ entry ∈ (names.insert image definition descriptor spelling builtin?).entries,
      entry.definition = definition ∧ entry.name = names.given spelling :=
  ⟨_, mem_entries_insert.mpr (.inr rfl), rfl, rfl⟩

theorem exists_entry_insert_given :
    ∃ entry ∈ (names.insert image definition descriptor spelling builtin?).entries,
      entry.name = names.given spelling := by
  obtain ⟨entry, mem, -, isName⟩ := names.exists_entry_insert
  exact ⟨entry, mem, isName⟩

/-- A definition that nobody owns is named, and the tables stay in step. -/
theorem Sound.insert {usage : Usage} (sound : names.Sound linkage state)
    (unowned : names.owners[definition]? = none)
    (standsFor : linkage.StandsFor definition .name usage state) :
    (names.insert image definition usage.descriptor (state.usageText usage true) builtin?).Sound
      linkage state := by
  have unnamed : names.displayNames[definition]? = none := by
    rw [← Option.isNone_iff_eq_none, ← Option.not_isSome, ← sound.owners, unowned]
    rfl
  constructor
  case entries =>
    intro entry mem
    rw [displayNames_insert]
    obtain mem | rfl := mem_entries_insert.mp mem
    · have isName := sound.entries entry mem
      rw [if_neg, isName]
      rintro rfl
      simp [unnamed] at isName
    · rw [if_pos rfl]
  case displayNames =>
    intro other name isName
    rw [displayNames_insert] at isName
    split at isName
    next same =>
      subst same
      obtain rfl := Option.some.inj isName
      exact exists_entry_insert
    next =>
      obtain ⟨entry, mem, isEntry⟩ := sound.displayNames other name isName
      exact ⟨entry, mem_entries_insert.mpr (.inl mem), isEntry⟩
  case owners =>
    intro other
    rw [displayNames_insert]
    simp only [DefinitionNames.insert, getElem?_insert_eq]
    split
    · rfl
    · exact sound.owners other
  case pool =>
    intro name isIssued
    obtain rfl | isIssued := NamePool.contains_request.mp isIssued
    · exact exists_entry_insert_given
    · exact exists_entry_insert_old (sound.pool name isIssued)
  case builtinNames =>
    intro kind name isName
    obtain isOld | rfl := builtinNames_insert isName
    · exact exists_entry_insert_old (sound.builtinNames kind name isOld)
    · exact exists_entry_insert_given
  case spelled =>
    intro other name isName
    rw [displayNames_insert] at isName
    split at isName
    next same =>
      subst same
      obtain rfl := Option.some.inj isName
      exact ⟨usage, standsFor, NamePool.request_eq_or_suffixed⟩
    next => exact sound.spelled other name isName
  case descriptors =>
    intro entry mem
    obtain mem | rfl := mem_entries_insert.mp mem
    · exact sound.descriptors entry mem
    · exact ⟨usage, standsFor, rfl⟩

end Insert

/-- Whatever is named in the first tables is named in the second ones. -/
def Covers (names more : DefinitionNames) : Prop :=
  ∀ definition : Index .typeDefinitions,
    names.displayNames[definition]?.isSome → more.displayNames[definition]?.isSome

theorem Covers.trans {more most : DefinitionNames} (first : names.Covers more)
    (second : more.Covers most) : names.Covers most :=
  fun definition named ↦ second definition (first definition named)

theorem covers_insert {image : Index .images} {definition : Index .typeDefinitions}
    {descriptor : DescriptorId} {spelling : String} {builtin? : Option TypeKind} :
    names.Covers (names.insert image definition descriptor spelling builtin?) := by
  intro other named
  rw [displayNames_insert]
  split
  · rfl
  · exact named

/-- The tables are in step, and name whatever one of these images claims. -/
def Complete (linkage : Linkage) (images : List (Index .images × Image)) (names : DefinitionNames)
    (state : ResolutionState) : Prop :=
  names.Sound linkage state ∧ ∀ pair ∈ images, ∀ position < pair.2.typeCount.toNat,
    names.displayNames[pair.2.typeStart.offset (UInt32.ofNat position)]?.isSome

end DefinitionNames

namespace Linkage

open Resolve

variable {linkage : Linkage} {names : DefinitionNames} {state : ResolutionState}

theorem keeps_claim (image : Index .images) (definition : Index .typeDefinitions)
    (sound : names.Sound linkage state) :
    Keeps linkage.metadata (linkage.claim image definition names) state
      fun result after ↦ result.Sound linkage after ∧ names.Covers result ∧
        result.displayNames[definition]?.isSome := by
  apply Keeps.of_faithful
  intro faithful
  unfold claim
  split
  next owner isOwner =>
    have named : names.displayNames[definition]?.isSome := by
      rw [← sound.owners, isOwner]
      rfl
    apply Keeps.bind (keeps_report _)
    intro _ after _ grows _
    exact .pure ⟨sound.mono faithful grows.toExtends, fun _ named ↦ named, named⟩
  next unowned =>
    apply Keeps.bind (keeps_definitionUsage definition .name)
    intro usage after _ grows standsFor
    apply Keeps.bind_get
    apply Keeps.bind_lookup
    intro builtin? _
    refine .pure ⟨(sound.mono faithful grows.toExtends).insert unowned standsFor,
      DefinitionNames.covers_insert, ?_⟩
    rw [DefinitionNames.displayNames_insert, if_pos rfl]
    rfl

theorem keeps_claimRange (image : Index .images) (count : Nat) (start : Index .typeDefinitions)
    (sound : names.Sound linkage state) :
    Keeps linkage.metadata (linkage.claimRange image count start names) state
      fun result after ↦ result.Sound linkage after ∧ names.Covers result ∧
        ∀ position < count, result.displayNames[start.offset (UInt32.ofNat position)]?.isSome := by
  induction count generalizing start names state with
  | zero => exact .pure ⟨sound, fun _ named ↦ named, by simp⟩
  | succ count ih =>
    unfold claimRange
    apply Keeps.bind (keeps_claim image start sound)
    intro next middle _ _ ⟨nextSound, covers, named⟩
    apply (ih (start.offset 1) nextSound).mono
    intro result after _ _ ⟨sound, coversMore, restNamed⟩
    refine ⟨sound, covers.trans coversMore, fun position inside ↦ ?_⟩
    cases position with
    | zero =>
      rw [show start.offset (UInt32.ofNat 0) = start from start.offset_zero]
      exact coversMore start named
    | succ position =>
      have restNamed := restNamed position (by omega)
      rwa [show start.offset (UInt32.ofNat (position + 1)) =
        (start.offset 1).offset (UInt32.ofNat position) by
          simp [Index.offset, UInt32.add_assoc, UInt32.add_comm]]

/-- Every definition that an image claims is named. -/
theorem keeps_nameDefinitions :
    Keeps linkage.metadata linkage.nameDefinitions state
      fun names after ↦ names.Sound linkage after ∧
        ∀ definition, linkage.metadata.Claimed definition →
          names.displayNames[definition]?.isSome := by
  have start : DefinitionNames.Complete linkage [] .empty state :=
    ⟨DefinitionNames.sound_empty, by simp⟩
  apply (Keeps.foldlM (DefinitionNames.Complete linkage) ?_ .empty start).mono
  · intro names after _ _ ⟨sound, named⟩
    refine ⟨sound, ?_⟩
    rintro definition ⟨image, mem, position, inside, rfl⟩
    obtain ⟨index, mem⟩ := Table.exists_mem_indexed mem
    exact named (index, image) mem position inside
  · intro before ⟨index, image⟩ _ _ names state ⟨sound, named⟩
    apply (keeps_claimRange index image.typeCount.toNat image.typeStart sound).mono
    intro result after _ _ ⟨resultSound, covers, imageNamed⟩
    refine ⟨resultSound, fun pair mem position inside ↦ ?_⟩
    obtain mem | mem := List.mem_append.mp mem
    · exact covers _ (named pair mem position inside)
    · obtain rfl := List.mem_singleton.mp mem
      exact imageNamed position inside

end Linkage

end ManagedLayout

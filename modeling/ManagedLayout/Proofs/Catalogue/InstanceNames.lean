import ManagedLayout.Catalogue.Instances
import ManagedLayout.Proofs.Catalogue.DefinitionNames

/-!
# What is known about the names of instantiations

The pass that names the generic classes keeps its tables in step with each other: a name is either
that of a definition or that of an entry. At the end every generic class that a type reference uses
has a name, unless it has no definition.
-/

namespace ManagedLayout

namespace ResolutionState

variable {before after : ResolutionState} {id openId : DescriptorId}
  {definition : Index .typeDefinitions}

/-- The name is made of how the definition and the instantiation are spelled. -/
theorem instanceName?_eq {state : ResolutionState}
    (displayNames : Std.TreeMap (Index .typeDefinitions) String)
    (isBuilt : state.builtDefinition? definition = some openId) :
    state.instanceName? displayNames id definition =
      displayNames[definition]?.bind
        (Text.replaced? (state.bareText openId) (state.bareText id)) := by
  rw [instanceName?, isBuilt]
  rfl

theorem Extends.instanceName?_eq {displayNames : Std.TreeMap (Index .typeDefinitions) String}
    (extend : before.Extends after) (stored : id.position < before.descriptors.size)
    (openStored : openId.position < before.descriptors.size)
    (done : before.definitions[definition]? = some (.done openId)) :
    after.instanceName? displayNames id definition =
      before.instanceName? displayNames id definition := by
  have built : before.builtDefinition? definition = some openId := by
    simp [builtDefinition?, done]
  have builtAfter : after.builtDefinition? definition = some openId := by
    simp [builtDefinition?, extend.definitions definition openId done]
  rw [ResolutionState.instanceName?_eq displayNames built,
    ResolutionState.instanceName?_eq displayNames builtAfter, extend.arena.bareText_eq stored,
    extend.arena.bareText_eq openStored]

end ResolutionState

/-- Every type reference has an index. -/
def Metadata.Addressable (metadata : Metadata) : Prop :=
  metadata.registrations.types.types.size ≤ Index.absentWord.toNat

instance (metadata : Metadata) : Decidable metadata.Addressable :=
  inferInstanceAs (Decidable (_ ≤ _))

/-- How a generic class got its name, from a type reference that uses it. The reference is found at
its index, unless no index leads to a reference that uses the class. -/
structure NamedAs (linkage : Linkage) (definitions : DefinitionNames)
    (genericClass : Index .genericClasses) (name : String) (state : ResolutionState)
    (type : Index .types) (reference : TypeReference) (definition : Index .typeDefinitions)
    (usage : Usage) (openId : DescriptorId) : Prop where
  addressed : linkage.metadata.Addressable ∨ linkage.metadata.UsesClass genericClass →
    linkage.metadata.typeReference type = .ok reference
  isKind : reference.kind = .genericInstance
  isData : reference.data = .genericClass genericClass
  isOpen : linkage.metadata.openDefinition? genericClass = .ok (some definition)
  displayed : definitions.displayNames.contains definition
  known : state.usages[linkage.metadata.normal ⟨type, .empty, .name⟩]? = some (.done usage)
  done : state.definitions[definition]? = some (.done openId)
  isName : name = (state.instanceName? definitions.displayNames usage.descriptor definition).getD
    (state.usageText usage true)

theorem NamedAs.mono {linkage : Linkage} {definitions : DefinitionNames}
    {genericClass : Index .genericClasses} {name : String} {state after : ResolutionState}
    {type : Index .types} {reference : TypeReference} {definition : Index .typeDefinitions}
    {usage : Usage} {openId : DescriptorId}
    (namedAs : NamedAs linkage definitions genericClass name state type reference definition usage
      openId)
    (faithful : state.Faithful linkage.metadata) (extend : state.Extends after) :
    NamedAs linkage definitions genericClass name after type reference definition usage openId where
  __ := namedAs
  known := extend.usages _ usage namedAs.known
  done := extend.definitions definition openId namedAs.done
  isName := by
    have stored := (faithful.usages _ usage namedAs.known).stored
    have openStored := (faithful.definitions definition openId namedAs.done).stored
    rw [extend.instanceName?_eq stored openStored namedAs.done, extend.arena.usageText_eq stored]
    exact namedAs.isName

namespace InstanceNames

/-- The tables of the generic classes named so far fit each other, and those of the definitions. -/
structure Sound (linkage : Linkage) (definitions : DefinitionNames) (instances : InstanceNames)
    (state : ResolutionState) : Prop where
  entries : ∀ entry ∈ instances.entries, instances.names[entry.genericClass]? = some entry.name ∧
    linkage.metadata.openDefinition? entry.genericClass = .ok (some entry.definition)
  structNames : ∀ name, instances.structNames.contains name →
    ∃ entry ∈ instances.entries, entry.name = name
  names : ∀ (genericClass : Index .genericClasses) name,
    instances.names[genericClass]? = some name →
      definitions.pool.contains name ∨ instances.structNames.contains name
  spelled : ∀ (genericClass : Index .genericClasses) name,
    instances.names[genericClass]? = some name →
      ∃ type reference definition usage openId,
        NamedAs linkage definitions genericClass name state type reference definition usage openId
  descriptors : ∀ entry ∈ instances.entries, ∃ type reference usage openId,
    NamedAs linkage definitions entry.genericClass entry.name state type reference entry.definition
      usage openId ∧ usage.descriptor = entry.descriptor

/-- The generic class that a type reference uses has a name, if it has a definition. -/
def Names (linkage : Linkage) (instances : InstanceNames) (reference : TypeReference) : Prop :=
  ∀ genericClass definition, reference.kind = .genericInstance →
    reference.data = .genericClass genericClass →
    linkage.metadata.openDefinition? genericClass = .ok (some definition) →
    instances.names[genericClass]?.isSome

/-- The tables are in step, and name whatever one of these type references uses. -/
def Complete (linkage : Linkage) (definitions : DefinitionNames)
    (references : List (Index .types × TypeReference)) (instances : InstanceNames)
    (state : ResolutionState) : Prop :=
  instances.Sound linkage definitions state ∧ ∀ pair ∈ references, instances.Names linkage pair.2

variable {linkage : Linkage} {definitions : DefinitionNames} {instances : InstanceNames}
  {state after : ResolutionState} {entry : NamedInstance}

theorem sound_empty : empty.Sound linkage definitions state := by
  constructor <;> simp [empty]

theorem Sound.mono (sound : instances.Sound linkage definitions state)
    (faithful : state.Faithful linkage.metadata) (extend : state.Extends after) :
    instances.Sound linkage definitions after where
  __ := sound
  spelled genericClass name isName := by
    obtain ⟨type, reference, definition, usage, openId, namedAs⟩ :=
      sound.spelled genericClass name isName
    exact ⟨type, reference, definition, usage, openId, namedAs.mono faithful extend⟩
  descriptors entry mem := by
    obtain ⟨type, reference, usage, openId, namedAs, isDescriptor⟩ := sound.descriptors entry mem
    exact ⟨type, reference, usage, openId, namedAs.mono faithful extend, isDescriptor⟩

theorem Sound.stored (sound : instances.Sound linkage definitions state)
    (faithful : state.Faithful linkage.metadata) (mem : entry ∈ instances.entries) :
    entry.descriptor.position < state.descriptors.size := by
  obtain ⟨_, _, usage, _, namedAs, isDescriptor⟩ := sound.descriptors entry mem
  exact isDescriptor ▸ (faithful.usages _ usage namedAs.known).stored

theorem names_insert (genericClass : Index .genericClasses) :
    (instances.insert definitions entry).names[genericClass]? =
      if entry.genericClass = genericClass then some entry.name
      else instances.names[genericClass]? := by
  unfold insert
  split <;> exact getElem?_insert_eq

/-- An entry is added under a new name only. -/
theorem mem_entries_insert {other : NamedInstance} :
    other ∈ (instances.insert definitions entry).entries ↔
      other ∈ instances.entries ∨ other = entry ∧
        ¬(definitions.pool.contains entry.name || instances.structNames.contains entry.name) := by
  unfold insert
  split
  next taken => simp [taken]
  next untaken => simp [untaken]

theorem structNames_insert {name : String} :
    (instances.insert definitions entry).structNames.contains name ↔
      instances.structNames.contains name ∨ name = entry.name ∧
        ¬(definitions.pool.contains entry.name || instances.structNames.contains entry.name) := by
  unfold insert
  split
  next taken => simp [taken]
  next untaken =>
    rw [Std.TreeSet.contains_insert, Bool.or_eq_true, beq_iff_eq,
      Std.LawfulEqCmp.compare_eq_iff_eq, or_comm]
    exact or_congr_right ⟨fun same ↦ ⟨same.symm, untaken⟩, fun ⟨same, _⟩ ↦ same.symm⟩

/-- A generic class without a name is named, and the tables stay in step. -/
theorem Sound.insert {type : Index .types} {reference : TypeReference} {usage : Usage}
    {openId : DescriptorId} (sound : instances.Sound linkage definitions state)
    (unnamed : instances.names[entry.genericClass]? = none)
    (namedAs : NamedAs linkage definitions entry.genericClass entry.name state type reference
      entry.definition usage openId) (isDescriptor : usage.descriptor = entry.descriptor) :
    (instances.insert definitions entry).Sound linkage definitions state := by
  have old_names {genericClass : Index .genericClasses} {name : String}
      (isName : instances.names[genericClass]? = some name) :
      (instances.insert definitions entry).names[genericClass]? = some name := by
    rw [names_insert, if_neg, isName]
    intro same
    rw [← same, unnamed] at isName
    exact nomatch isName
  constructor
  · intro other mem
    obtain mem | ⟨rfl, -⟩ := mem_entries_insert.mp mem
    · have isEntry := sound.entries other mem
      exact ⟨old_names isEntry.1, isEntry.2⟩
    · exact ⟨by rw [names_insert, if_pos rfl], namedAs.isOpen⟩
  · intro name isStruct
    obtain isStruct | ⟨rfl, untaken⟩ := structNames_insert.mp isStruct
    · have ⟨other, mem, isName⟩ := sound.structNames name isStruct
      exact ⟨other, mem_entries_insert.mpr (.inl mem), isName⟩
    · exact ⟨entry, mem_entries_insert.mpr (.inr ⟨rfl, untaken⟩), rfl⟩
  · intro genericClass name isName
    rw [names_insert] at isName
    split at isName
    next =>
      obtain rfl := Option.some.inj isName
      by_cases taken : definitions.pool.contains entry.name || instances.structNames.contains entry.name
      · obtain isDefinition | isStruct := Bool.or_eq_true _ _ |>.mp taken
        · exact .inl isDefinition
        · exact .inr (structNames_insert.mpr (.inl isStruct))
      · exact .inr (structNames_insert.mpr (.inr ⟨rfl, taken⟩))
    next =>
      obtain isDefinition | isStruct := sound.names genericClass name isName
      · exact .inl isDefinition
      · exact .inr (structNames_insert.mpr (.inl isStruct))
  · intro genericClass name isName
    rw [names_insert] at isName
    split at isName
    next same =>
      obtain rfl := Option.some.inj isName
      subst same
      exact ⟨type, reference, entry.definition, usage, openId, namedAs⟩
    next => exact sound.spelled genericClass name isName
  · intro other mem
    obtain mem | ⟨rfl, -⟩ := mem_entries_insert.mp mem
    · exact sound.descriptors other mem
    · exact ⟨type, reference, usage, openId, namedAs, isDescriptor⟩

/-- Whatever is named in the first tables is named in the second ones. -/
def Covers (instances more : InstanceNames) : Prop :=
  ∀ genericClass : Index .genericClasses,
    instances.names[genericClass]?.isSome → more.names[genericClass]?.isSome

theorem names_of_isSome {reference : TypeReference} {genericClass : Index .genericClasses}
    (isData : reference.data = .genericClass genericClass)
    (named : instances.names[genericClass]?.isSome) : instances.Names linkage reference := by
  intro other definition _ isOther _
  obtain rfl := TypeData.genericClass.inj (isData.symm.trans isOther)
  exact named

theorem covers_insert : instances.Covers (instances.insert definitions entry) := by
  intro genericClass named
  rw [names_insert]
  split
  · rfl
  · exact named

end InstanceNames

namespace Linkage

open Resolve

variable {linkage : Linkage} {definitions : DefinitionNames} {instances : InstanceNames}
  {state : ResolutionState}

/-- A generic class without a name is named by a type reference that uses it. -/
theorem keeps_addInstance {type : Index .types} {reference : TypeReference}
    {genericClass : Index .genericClasses} {definition : Index .typeDefinitions}
    (addressed : linkage.metadata.Addressable ∨ linkage.metadata.UsesClass genericClass →
      linkage.metadata.typeReference type = .ok reference)
    (isKind : reference.kind = .genericInstance)
    (isData : reference.data = .genericClass genericClass)
    (isOpen : linkage.metadata.openDefinition? genericClass = .ok (some definition))
    (displayed : definitions.displayNames.contains definition)
    (sound : instances.Sound linkage definitions state)
    (unnamed : instances.names[genericClass]? = none) :
    Keeps linkage.metadata
      (linkage.addInstance definitions instances genericClass definition type) state
      fun result after ↦ result.Sound linkage definitions after ∧ instances.Covers result ∧
        result.names[genericClass]?.isSome := by
  apply Keeps.of_faithful
  intro faithful
  apply Keeps.bind (remembers_resolve type .empty .name state)
  intro usage middle _ grows known
  apply Keeps.bind (keeps_describe definition)
  intro openId last lastFaithful growsMore done
  apply Keeps.bind_get
  apply Keeps.bind (keeps_report _)
  intro _ after _ growsMost _
  apply Keeps.pure
  have namedAs : NamedAs linkage definitions genericClass
      ((last.instanceName? definitions.displayNames usage.descriptor definition).getD
        (last.usageText usage true))
      last type reference definition usage openId :=
    { addressed, isKind, isData, isOpen, displayed, done, isName := rfl
      known := growsMore.usages _ usage known }
  have lastSound := sound.mono faithful (grows.trans growsMore).toExtends
  refine ⟨(lastSound.mono lastFaithful growsMost.toExtends).insert unnamed
    (namedAs.mono lastFaithful growsMost.toExtends) rfl, InstanceNames.covers_insert, ?_⟩
  rw [InstanceNames.names_insert, if_pos rfl]
  rfl

/-- A type reference that uses a generic class gets it a name, if it has a definition. -/
theorem keeps_nameInstance {type : Index .types} {reference : TypeReference}
    (addressed : linkage.metadata.typeReference type = .ok reference ∨
      ¬linkage.metadata.Addressable ∧ ∀ genericClass definition,
        linkage.metadata.UsesClass genericClass →
        linkage.metadata.openDefinition? genericClass = .ok (some definition) →
        instances.names[genericClass]?.isSome)
    (sound : instances.Sound linkage definitions state) :
    Keeps linkage.metadata (linkage.nameInstance definitions instances type reference) state
      fun result after ↦ result.Sound linkage definitions after ∧ instances.Covers result ∧
        result.Names linkage reference := by
  -- What is known before a step that changes nothing is known after it.
  have unchanged (names : instances.Names linkage reference) :
      Keeps linkage.metadata (pure instances) state fun result after ↦
        result.Sound linkage definitions after ∧ instances.Covers result ∧
          result.Names linkage reference :=
    .pure ⟨sound, fun _ named ↦ named, names⟩
  unfold nameInstance
  split
  next genericClass isKind isData =>
    rw [Std.TreeMap.contains_eq_isSome_getElem?]
    split
    next named => exact unchanged (InstanceNames.names_of_isSome isData named)
    next unnamed =>
      apply Keeps.bind_lookup
      intro definition? isOpen
      cases definition? with
      | none =>
        apply unchanged
        intro other definition _ isOther otherOpen
        obtain rfl := TypeData.genericClass.inj (isData.symm.trans isOther)
        exact nomatch isOpen.symm.trans otherOpen
      | some definition =>
        dsimp only
        split
        next displayed =>
          have noName : instances.names[genericClass]? = none := by simpa using unnamed
          have isAddressed
              (found : linkage.metadata.Addressable ∨ linkage.metadata.UsesClass genericClass) :
              linkage.metadata.typeReference type = .ok reference := by
            obtain isAddressed | ⟨tooMany, allNamed⟩ := addressed
            · exact isAddressed
            · have used := found.resolve_left tooMany
              exact absurd (allNamed genericClass definition used isOpen) unnamed
          apply (keeps_addInstance isAddressed isKind isData isOpen displayed sound noName).mono
          intro result after _ _ ⟨resultSound, covers, named⟩
          exact ⟨resultSound, covers, InstanceNames.names_of_isSome isData named⟩
        next => exact .throw
  next => exact .throw
  next otherKind =>
    apply unchanged
    intro genericClass definition isKind isData
    exact (otherKind genericClass isKind isData).elim

/-- Every generic class with a definition that a type reference uses is named. -/
theorem keeps_nameInstances :
    Keeps linkage.metadata (linkage.nameInstances definitions) state
      fun instances after ↦ instances.Sound linkage definitions after ∧
        ∀ genericClass definition, linkage.metadata.UsesClass genericClass →
          linkage.metadata.openDefinition? genericClass = .ok (some definition) →
          instances.names[genericClass]?.isSome := by
  have start : InstanceNames.Complete linkage definitions [] .empty state :=
    ⟨InstanceNames.sound_empty, by simp⟩
  apply (Keeps.foldlM (InstanceNames.Complete linkage definitions) ?_ .empty start).mono
  · intro instances after _ _ ⟨sound, named⟩
    refine ⟨sound, ?_⟩
    intro genericClass definition ⟨type, reference, isReference, isKind, isData⟩ isOpen
    have listed := Table.getElem?_indexed_of_get? (Table.fetch_eq_ok_iff.mp isReference)
    exact named (type, reference) (List.mem_of_getElem? listed.2) genericClass definition isKind
      isData isOpen
  · intro before ⟨type, reference⟩ rest split instances state ⟨sound, named⟩
    have addressed : linkage.metadata.typeReference type = .ok reference ∨
        ¬linkage.metadata.Addressable ∧ ∀ genericClass definition,
          linkage.metadata.UsesClass genericClass →
          linkage.metadata.openDefinition? genericClass = .ok (some definition) →
          instances.names[genericClass]?.isSome := by
      obtain found | ⟨tooMany, allBefore⟩ := Table.get?_of_indexed split
      · exact .inl (Table.fetch_eq_ok_iff.mpr found)
      · right
        refine ⟨tooMany, ?_⟩
        intro genericClass definition ⟨other, otherReference, isOther, isKind, isData⟩ isOpen
        have mem := allBefore other otherReference (Table.fetch_eq_ok_iff.mp isOther)
        exact named (other, otherReference) mem genericClass definition isKind isData isOpen
    apply (keeps_nameInstance addressed sound).mono
    intro result after _ _ ⟨resultSound, covers, referenceNamed⟩
    refine ⟨resultSound, ?_⟩
    intro pair pairMem
    obtain pairMem | pairMem := List.mem_append.mp pairMem
    · intro genericClass definition isKind isData isOpen
      exact covers genericClass (named pair pairMem genericClass definition isKind isData isOpen)
    · obtain rfl := List.mem_singleton.mp pairMem
      exact referenceNamed

end Linkage

end ManagedLayout

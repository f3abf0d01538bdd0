import ManagedLayout.Proofs.Lookup
import ManagedLayout.Reference.Linkage

/-!
# From a definition back to a type

A type reference leads to its definition. The way back, from a definition to a type reference that
stands for it, is a table that is made when a dump is linked. Making it takes one pass over all type
references, and fails with the first one whose definition is bad. What is looked up in the table is
what a search through the type references, in their order, would come upon first.
-/

namespace ManagedLayout

namespace Table

variable {kind : TableKind} {Record : Type} {table : Table kind Record}
  {holds : Index kind × Record → Bool}

/-- A search through the listed records comes upon the first one, by its position. -/
theorem find?_indexed_eq_some {pair : Index kind × Record}
    (isFirst : table.indexed.find? holds = some pair) :
    ∃ position record, table.records[position]? = some record ∧
      pair = (.ofPosition position, record) ∧ holds pair = true ∧
      ∀ earlier < position, ∀ other, table.records[earlier]? = some other →
        holds (.ofPosition earlier, other) = false := by
  obtain ⟨isHeld, position, inside, isPair, before⟩ := List.find?_eq_some_iff_getElem.mp isFirst
  have listed : table.indexed[position]? = some pair := by
    rw [List.getElem?_eq_getElem inside, isPair]
  rw [getElem?_indexed, Option.map_eq_some_iff] at listed
  obtain ⟨record, isRecord, rfl⟩ := listed
  refine ⟨position, record, isRecord, rfl, isHeld, ?_⟩
  intro earlier isEarlier other isOther
  have notHeld := before earlier isEarlier
  have otherListed : table.indexed[earlier]? = some (.ofPosition earlier, other) := by
    rw [getElem?_indexed, isOther, Option.map_some]
  obtain ⟨_, same⟩ := List.getElem?_eq_some_iff.mp otherListed
  simpa [same] using notHeld

theorem find?_indexed_eq_none (none : table.indexed.find? holds = none) {position : Nat}
    {record : Record} (isRecord : table.records[position]? = some record) :
    holds (.ofPosition position, record) = false := by
  have listed : table.indexed[position]? = some (.ofPosition position, record) := by
    rw [getElem?_indexed, isRecord, Option.map_some]
  simpa using List.find?_eq_none.mp none _ (List.mem_of_getElem? listed)

end Table

namespace Metadata

/-- At this position of their table is a type reference that stands for a definition as such. -/
def NamesAt (metadata : Metadata) (position : Nat) : Prop :=
  ∃ reference, metadata.registrations.types.types.records[position]? = some reference ∧
    reference.namesDefinition = true

/-- The type reference at this position stands for this definition. -/
def StandsAt (metadata : Metadata) (definition : Index .typeDefinitions) (position : Nat) : Prop :=
  metadata.NamesAt position ∧ metadata.definitionOf (.ofPosition position) = .ok definition

/-- What a search for a type reference that stands for a definition comes to. -/
inductive FindsType (metadata : Metadata) (definition : Index .typeDefinitions)
    (record : TypeDefinition) : Except LayoutError (Option (Index .types)) → Prop
  /-- The definition says itself which one it is. -/
  | own {type : Index .types} {reference : TypeReference}
    (isOwn : record.ownType.present? = some type)
    (found : metadata.typeReference type = .ok reference) :
    FindsType metadata definition record (.ok (some type))
  | missing {type : Index .types} (isOwn : record.ownType.present? = some type)
    (notFound : metadata.registrations.types.types.get? type = none) :
    FindsType metadata definition record (.error (.outOfRange .types type.raw))
  /-- No type reference before this one stands for the definition. -/
  | first {position : Nat} (noOwn : record.ownType.present? = none)
    (stands : metadata.StandsAt definition position)
    (isFirst : ∀ earlier < position, ¬metadata.StandsAt definition earlier) :
    FindsType metadata definition record (.ok (some (.ofPosition position)))
  | nowhere (noOwn : record.ownType.present? = none)
    (noOther : ∀ position, ¬metadata.StandsAt definition position) :
    FindsType metadata definition record (.ok none)

/-- Whether a listed type reference should stand for a definition, but leads to none. -/
def isBroken (metadata : Metadata) (pair : Index .types × TypeReference) : Bool :=
  pair.2.namesDefinition && (metadata.definitionOf pair.1).toOption.isNone

/-- Whether a listed type reference stands for a definition. -/
def standsFor (metadata : Metadata) (definition : Index .typeDefinitions)
    (pair : Index .types × TypeReference) : Bool :=
  pair.2.namesDefinition && (metadata.definitionOf pair.1).toOption == some definition

variable {metadata : Metadata}

theorem toOption_eq_some_iff {Error Result : Type} {lookup : Except Error Result} {result : Result} :
    lookup.toOption = some result ↔ lookup = .ok result := by
  cases lookup <;> simp [Except.toOption]

theorem isBroken_iff {pair : Index .types × TypeReference} :
    metadata.isBroken pair = true ↔ pair.2.namesDefinition = true ∧
      ∃ error, metadata.definitionOf pair.1 = .error error := by
  unfold isBroken
  cases metadata.definitionOf pair.1 <;> simp [Except.toOption]

theorem standsFor_iff {definition : Index .typeDefinitions} {pair : Index .types × TypeReference} :
    metadata.standsFor definition pair = true ↔ pair.2.namesDefinition = true ∧
      metadata.definitionOf pair.1 = .ok definition := by
  rw [standsFor, Bool.and_eq_true, beq_iff_eq, toOption_eq_some_iff]

theorem isBroken_eq_false_iff {position : Nat} {reference : TypeReference} :
    metadata.isBroken (.ofPosition position, reference) = false ↔
      (reference.namesDefinition = true →
        ∃ definition, metadata.definitionOf (.ofPosition position) = .ok definition) := by
  rw [← Bool.not_eq_true, isBroken_iff]
  cases metadata.definitionOf (.ofPosition position) <;> simp

end Metadata

namespace Linkage

variable {metadata : Metadata} {pairs : List (Index .types × TypeReference)}

/-- A type reference is passed over, or it is put into the table, unless it is broken. -/
theorem collectType_cases (metadata : Metadata)
    (types : Std.TreeMap (Index .typeDefinitions) (Index .types))
    (pair : Index .types × TypeReference) :
    (pair.2.namesDefinition = false ∧ collectType metadata types pair = .ok types) ∨
      (∃ definition, pair.2.namesDefinition = true ∧
        metadata.definitionOf pair.1 = .ok definition ∧
        collectType metadata types pair = .ok (types.insertIfNew definition pair.1)) ∨
      ∃ error, pair.2.namesDefinition = true ∧ metadata.definitionOf pair.1 = .error error ∧
        collectType metadata types pair = .error error := by
  unfold collectType
  cases named : pair.2.namesDefinition with
  | false => exact .inl ⟨rfl, rfl⟩
  | true =>
    cases isDefinition : metadata.definitionOf pair.1 with
    | ok definition => exact .inr (.inl ⟨definition, rfl, rfl, rfl⟩)
    | error error => exact .inr (.inr ⟨error, rfl, rfl, rfl⟩)

/-- If no type reference is broken, the table has the first one for each definition. -/
theorem exists_collected (sound : pairs.find? metadata.isBroken = none)
    (types : Std.TreeMap (Index .typeDefinitions) (Index .types)) :
    ∃ collected, pairs.foldlM (collectType metadata) types = .ok collected ∧
      ∀ definition : Index .typeDefinitions, collected[definition]? =
        types[definition]?.or ((pairs.find? (metadata.standsFor definition)).map Prod.fst) := by
  induction pairs generalizing types with
  | nil => exact ⟨types, rfl, by simp⟩
  | cons pair rest ih =>
    have notBroken : ¬metadata.isBroken pair = true := by
      intro isBroken
      rw [List.find?_cons_of_pos isBroken] at sound
      exact nomatch sound
    rw [List.find?_cons_of_neg notBroken] at sound
    obtain ⟨unnamed, passed⟩ | ⟨found, named, isFound, taken⟩ | ⟨error, named, failed, -⟩ :=
      collectType_cases metadata types pair
    · obtain ⟨collected, areCollected, areFirst⟩ := ih sound types
      refine ⟨collected, by rw [List.foldlM_cons, passed, lookup_ok_bind, areCollected], ?_⟩
      intro definition
      rw [areFirst, List.find?_cons_of_neg]
      simp [Metadata.standsFor, unnamed]
    · obtain ⟨collected, areCollected, areFirst⟩ := ih sound (types.insertIfNew found pair.1)
      refine ⟨collected, by rw [List.foldlM_cons, taken, lookup_ok_bind, areCollected], ?_⟩
      intro definition
      simp only [areFirst, Std.TreeMap.getElem?_insertIfNew, Std.LawfulEqCmp.compare_eq_iff_eq,
        Std.TreeMap.mem_iff_isSome_getElem?]
      by_cases same : found = definition
      · subst same
        rw [List.find?_cons_of_pos (Metadata.standsFor_iff.mpr ⟨named, isFound⟩)]
        cases types[found]? <;> simp
      · rw [List.find?_cons_of_neg (by simp [Metadata.standsFor_iff, isFound, same])]
        simp [same]
    · exact absurd (Metadata.isBroken_iff.mpr ⟨named, error, failed⟩) notBroken

/-- The first type reference that is broken fails. -/
theorem exists_failed {pair : Index .types × TypeReference}
    (isFirst : pairs.find? metadata.isBroken = some pair)
    (types : Std.TreeMap (Index .typeDefinitions) (Index .types)) :
    ∃ error, metadata.definitionOf pair.1 = .error error ∧
      pairs.foldlM (collectType metadata) types = .error error := by
  induction pairs generalizing types with
  | nil => exact nomatch isFirst
  | cons head rest ih =>
    rw [List.foldlM_cons]
    obtain ⟨unnamed, passed⟩ | ⟨found, named, isFound, taken⟩ | ⟨error, named, failed, stopped⟩ :=
      collectType_cases metadata types head
    · rw [passed, lookup_ok_bind]
      rw [List.find?_cons_of_neg (by simp [Metadata.isBroken, unnamed])] at isFirst
      exact ih isFirst types
    · rw [taken, lookup_ok_bind]
      rw [List.find?_cons_of_neg (by simp [Metadata.isBroken_iff, isFound])] at isFirst
      exact ih isFirst _
    · rw [List.find?_cons_of_pos (Metadata.isBroken_iff.mpr ⟨named, error, failed⟩)] at isFirst
      obtain rfl := Option.some.inj isFirst
      exact ⟨error, failed, by rw [stopped]; rfl⟩

/-- A definition is looked up as the first type reference that stands for it. -/
def LooksUp (metadata : Metadata) (types : Std.TreeMap (Index .typeDefinitions) (Index .types))
    (definition : Index .typeDefinitions) : Prop :=
  (∃ position, types[definition]? = some (.ofPosition position) ∧
    metadata.StandsAt definition position ∧
    ∀ earlier < position, ¬metadata.StandsAt definition earlier) ∨
  (types[definition]? = none ∧ ∀ position, ¬metadata.StandsAt definition position)

theorem looksUp_of_find? {types : Std.TreeMap (Index .typeDefinitions) (Index .types)}
    {definition : Index .typeDefinitions}
    (isFirst : types[definition]? = (metadata.registrations.types.types.indexed.find?
      (metadata.standsFor definition)).map Prod.fst) : LooksUp metadata types definition := by
  cases found : metadata.registrations.types.types.indexed.find? (metadata.standsFor definition) with
  | none =>
    right
    refine ⟨by rw [isFirst, found, Option.map_none], ?_⟩
    rintro position ⟨⟨reference, isReference, named⟩, isDefinition⟩
    have passed := Table.find?_indexed_eq_none found isReference
    rw [← Bool.not_eq_true, Metadata.standsFor_iff] at passed
    exact passed ⟨named, isDefinition⟩
  | some pair =>
    obtain ⟨position, reference, isReference, rfl, stands, passed⟩ :=
      Table.find?_indexed_eq_some found
    obtain ⟨named, isDefinition⟩ := Metadata.standsFor_iff.mp stands
    refine .inl ⟨position, by rw [isFirst, found, Option.map_some],
      ⟨⟨reference, isReference, named⟩, isDefinition⟩, ?_⟩
    rintro earlier isEarlier ⟨⟨other, isOther, otherNamed⟩, otherDefinition⟩
    have notStands := passed earlier isEarlier other isOther
    rw [← Bool.not_eq_true, Metadata.standsFor_iff] at notStands
    exact notStands ⟨otherNamed, otherDefinition⟩

/-- Either each type reference that should stand for a definition leads to one, and the table has
the first ones, or the first that does not is what fails. -/
theorem typesByDefinition_cases (metadata : Metadata) :
    (∃ types, typesByDefinition metadata = .ok types ∧
      (∀ position, metadata.NamesAt position →
        ∃ definition, metadata.definitionOf (.ofPosition position) = .ok definition) ∧
      ∀ definition, LooksUp metadata types definition) ∨
    ∃ position error, typesByDefinition metadata = .error error ∧ metadata.NamesAt position ∧
      metadata.definitionOf (.ofPosition position) = .error error ∧
      ∀ earlier < position, metadata.NamesAt earlier →
        ∃ definition, metadata.definitionOf (.ofPosition earlier) = .ok definition := by
  unfold typesByDefinition
  cases broken : metadata.registrations.types.types.indexed.find? metadata.isBroken with
  | none =>
    obtain ⟨types, collected, areFirst⟩ := exists_collected broken ∅
    refine .inl ⟨types, collected, ?_, fun definition ↦ looksUp_of_find? ?_⟩
    · rintro position ⟨reference, isReference, named⟩
      exact Metadata.isBroken_eq_false_iff.mp (Table.find?_indexed_eq_none broken isReference) named
    · simpa using areFirst definition
  | some pair =>
    obtain ⟨error, failed, collected⟩ := exists_failed broken ∅
    obtain ⟨position, reference, isReference, rfl, isBroken, passed⟩ :=
      Table.find?_indexed_eq_some broken
    refine .inr ⟨position, error, collected,
      ⟨reference, isReference, (Metadata.isBroken_iff.mp isBroken).1⟩, failed, ?_⟩
    rintro earlier isEarlier ⟨other, isOther, named⟩
    exact Metadata.isBroken_eq_false_iff.mp (passed earlier isEarlier other isOther) named

theorem ofMetadata_eq_ok_iff {linkage : Linkage} :
    ofMetadata metadata = .ok linkage ↔ ∃ types, typesByDefinition metadata = .ok types ∧
      linkage = ⟨metadata, types, modulesByName metadata⟩ := by
  rw [ofMetadata, lookup_bind_eq_ok]
  simp only [lookup_pure_eq_ok, @eq_comm _ linkage]

theorem ofMetadata_eq_error_iff {error : LayoutError} :
    ofMetadata metadata = .error error ↔ typesByDefinition metadata = .error error := by
  rw [ofMetadata]
  cases typesByDefinition metadata <;> simp [bind, Except.bind, pure, Except.pure]

theorem findsType_typeForDefinition? {linkage : Linkage} {definition : Index .typeDefinitions}
    {record : TypeDefinition} (isOf : linkage.metadata = metadata)
    (isRecord : metadata.typeDefinition definition = .ok record)
    (looksUp : LooksUp metadata linkage.definitionTypes definition) :
    metadata.FindsType definition record (linkage.typeForDefinition? definition) := by
  subst isOf
  rw [typeForDefinition?, isRecord, lookup_ok_bind]
  cases isOwn : record.ownType.present? with
  | some type =>
    cases found : linkage.metadata.registrations.types.types.get? type with
    | some reference =>
      have isReference := Table.fetch_eq_ok_iff.mpr found
      simp only [Metadata.typeReference, isReference, lookup_ok_bind]
      exact .own isOwn isReference
    | none =>
      simp only [Metadata.typeReference, Table.fetch, found]
      exact .missing isOwn found
  | none =>
    obtain ⟨position, isType, stands, isFirst⟩ | ⟨isNone, noOther⟩ := looksUp
    · simp only [isType]
      exact .first isOwn stands isFirst
    · simp only [isNone]
      exact .nowhere isOwn noOther

/-- **The way back to a type.** A dump is linked exactly if every type reference that should stand for
a definition leads to one, and otherwise the first one that does not is what fails. In a linked dump
the type for a definition is the one that the definition names, or else the first type reference that
stands for it. -/
theorem ofMetadata_findsType (metadata : Metadata) :
    ((∃ linkage, ofMetadata metadata = .ok linkage) ↔
      ∀ position, metadata.NamesAt position →
        ∃ definition, metadata.definitionOf (.ofPosition position) = .ok definition) ∧
    (∀ error, ofMetadata metadata = .error error ↔ ∃ position, metadata.NamesAt position ∧
      metadata.definitionOf (.ofPosition position) = .error error ∧
      ∀ earlier < position, metadata.NamesAt earlier →
        ∃ definition, metadata.definitionOf (.ofPosition earlier) = .ok definition) ∧
    ∀ linkage, ofMetadata metadata = .ok linkage →
      ∀ definition record, metadata.typeDefinition definition = .ok record →
        metadata.FindsType definition record (linkage.typeForDefinition? definition) := by
  obtain ⟨types, areTypes, allSound, looksUp⟩ | ⟨position, error, stopped, named, failed, before⟩ :=
    typesByDefinition_cases metadata
  · have linked := ofMetadata_eq_ok_iff.mpr ⟨types, areTypes, rfl⟩
    refine ⟨⟨fun _ ↦ allSound, fun _ ↦ ⟨_, linked⟩⟩, fun error ↦ ⟨fun failed ↦ ?_, ?_⟩, ?_⟩
    · exact nomatch linked.symm.trans failed
    · rintro ⟨position, named, failed, -⟩
      obtain ⟨definition, isDefinition⟩ := allSound position named
      exact nomatch isDefinition.symm.trans failed
    · intro linkage isLinkage definition record isRecord
      obtain rfl := Except.ok.inj (linked.symm.trans isLinkage)
      exact findsType_typeForDefinition? rfl isRecord (looksUp definition)
  · have stopped := ofMetadata_eq_error_iff.mpr stopped
    refine ⟨⟨?_, fun allSound ↦ ?_⟩, fun other ↦ ⟨?_, ?_⟩, ?_⟩
    · rintro ⟨linkage, linked⟩
      exact nomatch linked.symm.trans stopped
    · obtain ⟨definition, isDefinition⟩ := allSound position named
      exact nomatch isDefinition.symm.trans failed
    · intro otherStopped
      cases stopped.symm.trans otherStopped
      exact ⟨position, named, failed, before⟩
    · rintro ⟨otherPosition, otherNamed, otherFailed, otherBefore⟩
      obtain isLess | rfl | isGreater := Nat.lt_trichotomy position otherPosition
      · obtain ⟨definition, isDefinition⟩ := otherBefore position isLess named
        exact nomatch isDefinition.symm.trans failed
      · cases failed.symm.trans otherFailed
        exact stopped
      · obtain ⟨definition, isDefinition⟩ := before otherPosition isGreater otherNamed
        exact nomatch isDefinition.symm.trans otherFailed
    · intro linkage linked
      exact nomatch linked.symm.trans stopped

end Linkage

/-- Three definitions, of which the second one names a type. The first one is referred to by
reference, by address and by index, in this order. -/
def Metadata.aliases : Metadata where
  version := ⟨27, 1⟩
  declarations := { Declarations.empty with
    typeDefinitions := .ofList [aliased .absent, aliased ⟨0⟩, aliased .absent]
    layout? := some ⟨0x4000, 0x100, 88, 0x800, 16⟩ }
  registrations := { Registrations.empty with
    types := { TypeRegistration.empty with
      types := .ofList [⟨.definition ⟨0⟩, 0, .classType, true, false, false⟩,
        ⟨.definitionHandle 0x4158, 0, .valueType, false, false, true⟩,
        ⟨.definitionHandle 0x4100, 0, .classType, false, false, false⟩,
        ⟨.definition ⟨0⟩, 0, .classType, false, false, false⟩] } }
where
  aliased (ownType : Index .types) : TypeDefinition := {
    name := "Alias"
    namespaceName := ""
    ownType
    declaringType := .absent
    parent := .absent
    elementType := .absent
    genericContainer := .absent
    flags := 0
    fieldStart := .absent
    vtableStart := .absent
    contextStart := .absent
    contextCount := 0
    fieldCount := 0
    vtableCount := 0
    bitfield := 0
    token := 0 }

namespace Linkage

/-- The reference by address counts, and the type that a definition names goes before one that refers
to it. -/
theorem aliases_findsType : ∃ linkage, ofMetadata .aliases = .ok linkage ∧
    linkage.typeForDefinition? ⟨0⟩ = .ok (some ⟨2⟩) ∧
    linkage.typeForDefinition? ⟨1⟩ = .ok (some ⟨0⟩) ∧
    linkage.typeForDefinition? ⟨2⟩ = .ok none ∧
    Metadata.aliases.FindsType ⟨0⟩ (Metadata.aliases.aliased .absent) (.ok (some ⟨2⟩)) := by
  have areFound : (ofMetadata .aliases).toOption.map (fun linkage ↦
      [0, 1, 2].map fun position ↦ (linkage.typeForDefinition? ⟨position⟩).toOption) =
        some [some (some ⟨2⟩), some (some ⟨0⟩), some none] := by
    decide +kernel
  obtain ⟨linkage, isLinkage, areFound⟩ := Option.map_eq_some_iff.mp areFound
  have linked := Metadata.toOption_eq_some_iff.mp isLinkage
  simp only [List.map_cons, List.map_nil, List.cons.injEq, Metadata.toOption_eq_some_iff,
    and_true] at areFound
  obtain ⟨first, second, third⟩ := areFound
  refine ⟨linkage, linked, first, second, third, ?_⟩
  have finds := (ofMetadata_findsType .aliases).2.2 linkage linked ⟨0⟩ _ rfl
  rwa [first] at finds

end Linkage

end ManagedLayout

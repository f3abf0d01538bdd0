import ManagedLayout.Proofs.Catalogue.SharedNames
import ManagedLayout.Proofs.Catalogue.StaticMethods
import ManagedLayout.Proofs.Resolution.Substitution
import ManagedLayout.Proofs.Resolution.Unwinding

/-!
# Names show the arguments by which call sites are selected

The arguments of an instantiation are spelled twice. The name of a generic class spells the usages in
the descriptor that was made for it; the call sites of its layout are selected by a text for which
the types of the arguments are resolved anew. Types that are done are only looked up, and what is
spelled of a descriptor does not change. So both texts are the same, at whatever time and in whatever
order the types were resolved first.
-/

namespace ManagedLayout

/-- A generic class has arguments, and this is the instantiation that lists them. -/
def Metadata.Applies (metadata : Metadata) (genericClass : Index .genericClasses)
    (index : Index .genericInstantiations) : Prop :=
  ∃ record instantiation, metadata.genericClass genericClass = .ok record ∧
    record.context.classArguments.present? = some index ∧
    metadata.genericInstantiation index = .ok instantiation ∧ instantiation.arguments ≠ #[]

namespace Metadata

variable {metadata : Metadata} {genericClass : Index .genericClasses}
  {index : Index .genericInstantiations} {definition : Index .typeDefinitions}
  {arguments : List TypeTree}

theorem Applies.classArguments_eq (applies : metadata.Applies genericClass index) :
    ∃ instantiation, metadata.genericInstantiation index = .ok instantiation ∧
      metadata.classArguments genericClass = .ok instantiation.arguments.toList ∧
      instantiation.arguments.toList ≠ [] := by
  obtain ⟨record, instantiation, isRecord, isIndex, isInstantiation, notEmpty⟩ := applies
  refine ⟨instantiation, isInstantiation, ?_, by simpa using notEmpty⟩
  rw [classArguments, isRecord, lookup_ok_bind, isIndex]
  simp only [isInstantiation, lookup_ok_bind, lookup_pure_eq_ok]

/-- The arguments of a generic class are those of its instantiation. -/
theorem Applies.hasArguments (applies : metadata.Applies genericClass index)
    (instantiates : metadata.Instantiates genericClass definition arguments) :
    metadata.HasArguments index arguments ∧ arguments ≠ [] := by
  obtain ⟨instantiation, isInstantiation, areTypes, notEmpty⟩ := applies.classArguments_eq
  obtain ⟨types, areOwnTypes, expand⟩ := instantiates.expands
  obtain rfl := Except.ok.inj (areTypes.symm.trans areOwnTypes)
  refine ⟨⟨instantiation, isInstantiation, expand⟩, ?_⟩
  rintro rfl
  exact notEmpty (List.forall₂_nil_right_iff.mp expand)

end Metadata

namespace Linkage

open Resolve

/-- The arguments of an instantiation are spelled like this in every state from here on, which stays
as it is, and they were wherever they have been spelled before. -/
structure Renders (linkage : Linkage) (state : ResolutionState)
    (index : Index .genericInstantiations) (text : String) : Prop where
  later : ∀ after, state.Extends after → Returns (linkage.instantiationText index) after text
  earlier : ∀ before after other, before.Faithful linkage.metadata →
    (linkage.instantiationText index).run.run before = (.ok other, after) → after.Extends state →
      other = text

section Renders

variable {linkage : Linkage} {state : ResolutionState} {index : Index .genericInstantiations}
  {text : String} {baseNames : Index .typeDefinitions → String} {type : Index .types}
  {reference : TypeReference} {genericClass : Index .genericClasses}
  {definition : Index .typeDefinitions} {usage : Usage}
  (faithful : state.Faithful linkage.metadata)

include faithful

/-- What is spelled without a change of the state is spelled like this at any time. -/
theorem renders_of_returns (returns : Returns (linkage.instantiationText index) state text) :
    linkage.Renders state index text where
  later := (lasts_instantiationText index faithful).of_run_eq_ok (returns_iff.mp returns)
  earlier before after other beforeFaithful ran extend := by
    have lasts := (lasts_instantiationText index beforeFaithful).of_run_eq_ok ran
    have same := (returns_iff.mp (lasts state extend)).symm.trans (returns_iff.mp returns)
    exact Except.ok.inj (Prod.mk.inj same).1

theorem Renders.spellsArguments (renders : linkage.Renders state index text)
    (givesNames : state.GivesNames baseNames) :
    linkage.metadata.SpellsArguments baseNames index text := by
  have ran := returns_iff.mp (renders.later state .refl)
  obtain ⟨-, -, spells⟩ := (spells_instantiationText index faithful).of_run_eq_ok ran
  exact spells baseNames givesNames

variable (isReference : linkage.metadata.typeReference type = .ok reference)
  (isKind : reference.kind = .genericInstance) (isData : reference.data = .genericClass genericClass)
  (isOpen : linkage.metadata.openDefinition? genericClass = .ok (some definition))
  (known : state.usages[linkage.metadata.normal ⟨type, .empty, .name⟩]? = some (.done usage))

include isReference isKind isData isOpen known

/-- Once an instantiation is done, its arguments are done as well. -/
theorem arguments_done {types : List (Index .types)}
    (areTypes : linkage.metadata.classArguments genericClass = .ok types) :
    ∀ argument ∈ types, ∃ found,
      state.usages[linkage.metadata.normal ⟨argument, .empty, .name⟩]? = some (.done found) := by
  intro argument mem
  have ⟨_, expands, parts⟩ := faithful.usages _ usage known
  obtain ⟨layer, _, isLayer, -⟩ := expands.exists_layer
  have isWhole := isLayer
  rw [Metadata.layer_normal, Metadata.layer_of_recipe
    (Metadata.RecipeCase.recipe_eq isReference (.instantiation isKind isData isOpen rfl))] at isWhole
  simp only [Metadata.recipeLayer, areTypes, lookup_ok_bind, lookup_bind_eq_ok,
    lookup_pure_eq_ok] at isWhole
  obtain ⟨declaring?, -, rfl⟩ := isWhole
  exact parts _ isLayer _ (List.mem_append_right _ (List.mem_map_of_mem mem))

theorem exists_renders (applies : linkage.metadata.Applies genericClass index) :
    ∃ text, linkage.Renders state index text := by
  obtain ⟨instantiation, isInstantiation, areTypes, -⟩ := applies.classArguments_eq
  have each : ∀ argument ∈ instantiation.arguments.toList, ∃ text, Returns
      (do
        let usage ← linkage.resolve argument .empty .name
        return (← get).usageText usage false) state text := by
    intro argument mem
    obtain ⟨found, done⟩ :=
      arguments_done faithful isReference isKind isData isOpen known areTypes argument mem
    exact ⟨_, (returns_iff.mpr (run_resolve_of_done faithful done)).bind ⟨rfl, rfl⟩⟩
  obtain ⟨texts, returns⟩ := exists_returns_mapM each
  refine ⟨"<" ++ ", ".intercalate texts ++ ">", renders_of_returns faithful ?_⟩
  rw [instantiationText, isInstantiation]
  exact returns.bind ⟨rfl, rfl⟩

/-- **Both spellings agree.** The descriptor of an instantiation is spelled by the base name of the
definition, with the arguments as they are spelled anew. -/
theorem Renders.bareText_eq (renders : linkage.Renders state index text)
    (applies : linkage.metadata.Applies genericClass index)
    (givesNames : state.GivesNames baseNames) :
    state.bareText usage.descriptor = baseNames definition ++ text := by
  obtain ⟨arguments, instantiates, -, -, isText⟩ :=
    faithful.exists_spelled isReference isKind isData isOpen known givesNames
  obtain ⟨others, hasOthers, rfl⟩ := renders.spellsArguments faithful givesNames
  obtain ⟨hasArguments, notEmpty⟩ := applies.hasArguments instantiates
  obtain rfl := hasArguments.unique hasOthers
  rw [isText, TypeTree.listSpelling_eq_angled notEmpty, TypeTree.angledSpelling]

end Renders

end Linkage

namespace Catalogue

/-- The name of a generic class shows its arguments as they are spelled for its call sites. -/
structure ShowsArguments (catalogue : Catalogue) (linkage : Linkage) (state : ResolutionState)
    (genericClass : Index .genericClasses) (index : Index .genericInstantiations)
    (name : String) (definition : Index .typeDefinitions) (displayName : String)
    (id : DescriptorId) (text : String) : Prop where
  isOpen : linkage.metadata.openDefinition? genericClass = .ok (some definition)
  isDisplayed : catalogue.displayName? definition = some displayName
  isBuilt : state.builtDefinition? definition = some id
  /-- The definition is spelled by its base name, with the parameters that it declares. -/
  isBare : state.bareText id =
    (state.descriptor id).name ++ angled (linkage.metadata.ownParameters definition)
  renders : linkage.Renders state index text
  /-- Wherever the definition is spelled in its display name, the arguments take the place of the
  parameters. -/
  replaces : state.bareText id ≠ "" → (state.bareText id).toList <:+: displayName.toList →
    Text.Replaces (state.bareText id).toList ((state.descriptor id).name ++ text).toList
      displayName.toList name.toList
  /-- If it is not spelled there, then the name is that of a type reference that uses the class. -/
  spells : ¬(state.bareText id).toList <:+: displayName.toList →
    ∃ type reference usage, linkage.metadata.typeReference type = .ok reference ∧
      reference.kind = .genericInstance ∧ reference.data = .genericClass genericClass ∧
      Resolve.Returns (linkage.resolve type .empty .name) state usage ∧
      name = state.usageText usage true
  /-- The layout of the class has the call sites of the definition with these arguments. -/
  selects : ∀ layout ∈ catalogue.structs, layout.typeName = name →
    catalogue.displays name = false →
    (catalogue.namedClasses linkage.metadata).find? (·.2 == name) = some (genericClass, name) →
      layout.staticMethods = (catalogue.staticMethods displayName).filter
        (·.typeArguments? == some text)

section MadeBy

variable {plan : BuildPlan} {catalogue : Catalogue} {definitions instances : List StructRecord}
  {state : ResolutionState} {genericClass : Index .genericClasses}
  {index : Index .genericInstantiations} {definition : Index .typeDefinitions}
  {name displayName text : String}
  (madeBy : catalogue.MadeBy plan definitions instances state)
  (faithful : state.Faithful plan.linkage.metadata)

include madeBy faithful

/-- The call sites of a layout are selected by the arguments as they are spelled at any time. -/
theorem MadeBy.staticMethods_eq {layout : StructRecord}
    (applies : plan.linkage.metadata.Applies genericClass index)
    (isOpen : plan.linkage.metadata.openDefinition? genericClass = .ok (some definition))
    (isDisplayed : catalogue.displayName? definition = some displayName)
    (renders : plan.linkage.Renders state index text) (mem : layout ∈ catalogue.structs)
    (isNew : catalogue.displays layout.typeName = false)
    (isFirst : (catalogue.namedClasses plan.linkage.metadata).find? (·.2 == layout.typeName) =
      some (genericClass, layout.typeName)) :
    layout.staticMethods =
      (catalogue.staticMethods displayName).filter (·.typeArguments? == some text) := by
  obtain ⟨entry, isEntry, ⟨record, typeArguments?, made⟩, entryFirst, entryOpen⟩ :=
    madeBy.exists_instance mem isNew
  obtain rfl := (Prod.mk.inj (Option.some.inj (isFirst.symm.trans entryFirst))).1
  obtain rfl := Option.some.inj (Except.ok.inj (isOpen.symm.trans entryOpen))
  obtain ⟨ownRecord, _, isRecord, isIndex, -⟩ := applies
  obtain rfl := Except.ok.inj (isRecord.symm.trans made.isRecord)
  have givesNames := state.givesNames_givenName plan.linkage.metadata
  have spells := made.typeArguments _ givesNames
  rw [isIndex] at spells
  obtain ⟨own, rfl, spellsOwn⟩ : ∃ own, typeArguments? = some own ∧
      plan.linkage.metadata.SpellsArguments _ index own := by
    cases spells with
    | some spells => exact ⟨_, rfl, spells⟩
  obtain rfl := spellsOwn.unique (renders.spellsArguments faithful givesNames)
  rw [displayName?, madeBy.displayNames] at isDisplayed
  rw [made.staticMethods, BuildPlan.callSitesWith, isDisplayed, staticMethods, madeBy.callSites]
  apply List.filter_congr
  intro callSite _
  cases callSite.typeArguments? <;> simp

theorem MadeBy.exists_showsArguments (isName : catalogue.instanceName? genericClass = some name)
    (found : plan.linkage.metadata.Addressable ∨ plan.linkage.metadata.UsesClass genericClass)
    (applies : plan.linkage.metadata.Applies genericClass index) :
    ∃ definition displayName id text, catalogue.ShowsArguments plan.linkage state genericClass index
      name definition displayName id text := by
  have isEntryName := isName
  rw [instanceName?, madeBy.instanceNames] at isEntryName
  obtain ⟨type, reference, definition, usage, id, namedAs⟩ :=
    madeBy.sound.instances.spelled genericClass name isEntryName
  have isReference := namedAs.addressed found
  obtain ⟨-, isKind, isData, isOpen, -, known, done, isText⟩ := namedAs
  obtain ⟨displayName, isDisplayed⟩ := madeBy.exists_displayName_of_named isName isOpen
  obtain ⟨text, renders⟩ :=
    Linkage.exists_renders faithful isReference isKind isData isOpen known applies
  have givesNames := state.givesNames_givenName plan.linkage.metadata
  have isBase := givesNames definition id done
  have isBare := (faithful.spelled_definition givesNames done).2
  have isInstance :=
    renders.bareText_eq faithful isReference isKind isData isOpen known applies givesNames
  rw [isBase] at isBare isInstance
  have isBuilt := ResolutionState.builtDefinition?_eq done
  have isOwnName := isDisplayed
  rw [displayName?, madeBy.displayNames] at isOwnName
  rw [ResolutionState.instanceName?_eq _ isBuilt, isOwnName, Option.bind_some, Text.replaced?]
    at isText
  refine ⟨definition, displayName, id, text, ?_⟩
  constructor
  case isOpen => exact isOpen
  case isDisplayed => exact isDisplayed
  case isBuilt => exact isBuilt
  case isBare => exact isBare
  case renders => exact renders
  case replaces =>
    intro notEmpty occurs
    rw [if_pos (Text.occursIn_iff.mpr occurs), Option.getD_some] at isText
    rw [isText, String.toList_ofList, isInstance]
    exact Text.replaces_replaceAll (by simpa using notEmpty)
  case spells =>
    intro absent
    rw [if_neg (by rwa [Text.occursIn_iff]), Option.getD_none] at isText
    exact ⟨type, reference, usage, isReference, isKind, isData,
      Resolve.returns_iff.mpr (Linkage.run_resolve_of_done faithful known), isText⟩
  case selects =>
    rintro layout mem rfl isNew isFirst
    exact madeBy.staticMethods_eq faithful applies isOpen isDisplayed renders mem isNew isFirst

end MadeBy

/-- **Names agree with selections.** The name of a generic class with arguments is made of the
display name of its definition and of the spelling of the arguments, and the call sites of its layout
are those with this spelling. A type reference uses every generic class that has a name; it must have
an index, as it does unless there are too many type references. -/
theorem exists_showsArguments_of_buildWith {metadata : Metadata} {options : BuildOptions}
    {offsets : OffsetSource} {catalogue : Catalogue}
    (built : (buildWith metadata options offsets).result = .ok catalogue) :
    ∃ linkage state, Linkage.ofMetadata metadata = .ok linkage ∧
      (linkage.catalogue options offsets).run.run .empty = (.ok catalogue, state) ∧
      ∀ genericClass index name, catalogue.instanceName? genericClass = some name →
        metadata.Addressable ∨ metadata.UsesClass genericClass →
        metadata.Applies genericClass index →
          ∃ definition displayName id text, catalogue.ShowsArguments linkage state genericClass
            index name definition displayName id text := by
  obtain ⟨linkage, names, definitions, instances, state, linked, rfl, ran, faithful, madeBy⟩ :=
    exists_run_madeBy built
  refine ⟨linkage, state, linked, ran, fun genericClass index name isName found applies ↦ ?_⟩
  exact madeBy.exists_showsArguments faithful isName found applies

end Catalogue

/-- A cache in a namespace that is spelled like it, and a call of the method of a cache of keys. -/
def Metadata.caches : Metadata :=
  ((Metadata.ofDefinitions
    [.named "Game" "Key", { TypeDefinition.named "Cache<T>" "Cache`1" with genericContainer := ⟨0⟩ }]
    [] [(.classType, .definition ⟨0⟩), (.genericInstance, .genericClass ⟨0⟩)]
    [(⟨1⟩, [⟨0⟩])]).withParameters ["T"]).withUsages [.named "Clear" ⟨1⟩] [⟨⟨0⟩, ⟨0⟩, .absent⟩]
      [(0, 0xC0000000)]

namespace Catalogue

set_option maxRecDepth 10000 in
/-- The display name has the arguments in two places, and the call site has them as well. -/
theorem caches_exists_showsArguments : ∃ catalogue linkage state id,
    (buildWith .caches .default Metadata.caches.fieldOffset).result = .ok catalogue ∧
      catalogue.ShowsArguments linkage state ⟨0⟩ ⟨0⟩ "Cache<Key>.Cache<Key>" ⟨1⟩
        "Cache<T>.Cache<T>" id "<Key>" ∧
      (state.bareText id).toList <:+: "Cache<T>.Cache<T>".toList ∧
      ∃ layout ∈ catalogue.structs, layout.typeName = "Cache<Key>.Cache<Key>" ∧
        layout.staticMethods = [⟨16, some "<Key>", "Clear"⟩] := by
  have areNamed : (buildWith .caches .default Metadata.caches.fieldOffset).result.toOption.map
      (fun catalogue ↦ (catalogue.instanceName? ⟨0⟩, catalogue.displayName? ⟨1⟩,
        catalogue.displays "Cache<Key>.Cache<Key>", catalogue.namedClasses .caches)) =
      some (some "Cache<Key>.Cache<Key>", some "Cache<T>.Cache<T>", false,
        [(⟨0⟩, "Cache<Key>.Cache<Key>")]) := by
    decide +kernel
  have areListed : (buildWith .caches .default Metadata.caches.fieldOffset).result.toOption.map
      (fun catalogue ↦ catalogue.structs.map fun layout ↦ (layout.typeName, layout.staticMethods)) =
      some [("Game.Key", []), ("Cache<T>.Cache<T>", [⟨16, some "<Key>", "Clear"⟩]),
        ("Cache<Key>.Cache<Key>", [⟨16, some "<Key>", "Clear"⟩])] := by
    decide +kernel
  have isSpelled : (Linkage.ofMetadata .caches).toOption.map (fun linkage ↦
      let state := ((linkage.catalogue .default Metadata.caches.fieldOffset).run.run .empty).2
      (state.builtDefinition? ⟨1⟩).map state.bareText) = some (some "Cache<T>") := by
    decide +kernel
  obtain ⟨catalogue, built, shown⟩ := exists_of_shown areNamed
  rw [built] at areListed
  simp only [Prod.mk.injEq] at shown
  obtain ⟨isName, isDisplayed, isNew, areClasses⟩ := shown
  obtain ⟨linkage, state, linked, ran, showsArguments⟩ := exists_showsArguments_of_buildWith built
  obtain ⟨definition, displayName, id, text, shows⟩ :=
    showsArguments ⟨0⟩ ⟨0⟩ _ isName (.inl (by decide)) ⟨_, _, rfl, rfl, rfl, by decide⟩
  obtain ⟨layout, mem, isLayout, areMethods⟩ :=
    exists_layout_of_listed (Option.some.inj areListed) (List.mem_of_getLast? rfl)
  have sameMetadata := Linkage.metadata_of_ofMetadata linked
  have isOpen := shows.isOpen
  rw [sameMetadata] at isOpen
  obtain rfl : ⟨1⟩ = definition := Option.some.inj (Except.ok.inj isOpen)
  obtain rfl := Option.some.inj (shows.isDisplayed.symm.trans isDisplayed)
  obtain rfl : text = "<Key>" := by
    have selected := shows.selects layout mem isLayout isNew (by rw [sameMetadata, areClasses]; rfl)
    have isMethod : ⟨16, some "<Key>", "Clear"⟩ ∈ layout.staticMethods := by simp [areMethods]
    rw [selected, List.mem_filter, beq_iff_eq] at isMethod
    exact (Option.some.inj isMethod.2).symm
  have isBare : state.bareText id = "Cache<T>" := by
    rw [linked] at isSpelled
    have bareText := Option.some.inj isSpelled
    simp only [ran, shows.isBuilt] at bareText
    exact Option.some.inj bareText
  refine ⟨catalogue, linkage, state, id, built, shows, ?_, layout, mem, isLayout, areMethods⟩
  rw [isBare]
  exact ⟨[], ".Cache<T>".toList, by decide⟩

end Catalogue

end ManagedLayout

import ManagedLayout.Proofs.Catalogue.Composition

/-!
# Which call sites layouts have

Call sites are filed under texts. The layout of a definition has what is filed under its display
name: the call sites of the definition, in the order of the usage sites, and those of every
definition that has no display name and is spelled in this way. Of these the layout of an
instantiation has the ones whose class arguments are spelled like its own.
-/

namespace ManagedLayout

/-- A call site with class arguments is that of an instantiated method. -/
theorem Metadata.Calls.exists_spec {metadata : Metadata}
    {baseNames : Index .typeDefinitions → String} {site : UsageSite}
    {owner : Index .typeDefinitions} {callSite : CallSite} {text : String}
    (calls : metadata.Calls baseNames site owner callSite)
    (hasText : callSite.typeArguments? = some text) :
    ∃ spec context classArguments, site.target = .instantiation spec ∧
      metadata.specContext spec = .ok context ∧ context.classArguments? = some classArguments ∧
      metadata.SpellsArguments baseNames classArguments text := by
  cases calls with
  | method => exact nomatch hasText
  | @instantiation _ spec context _ _ _ _ isContext _ _ classSpelled _ =>
    obtain rfl := hasText
    obtain ⟨classArguments, isClass, spells⟩ := optionRel_exists_left classSpelled
    exact ⟨spec, context, classArguments, rfl, isContext, isClass, spells⟩

namespace FiledCallSite

variable {metadata : Metadata} {baseNames : Index .typeDefinitions → String}
  {displayNames : Std.TreeMap (Index .typeDefinitions) String} {site : UsageSite}
  {filed : FiledCallSite}

/-- A definition with a display name is not spelled instead. -/
theorem Matches.spelling?_eq_none (isFiled : filed.Matches metadata baseNames displayNames site)
    {name : String} (displayed : displayNames[filed.definition]? = some name) :
    filed.spelling? = none := by
  have spelled := isFiled.spelling
  rw [displayed] at spelled
  exact spelled

/-- Under a display name are the call sites of the definition that has it, and of those that are
spelled so. -/
theorem Matches.key?_eq_iff (isFiled : filed.Matches metadata baseNames displayNames site)
    {definition : Index .typeDefinitions} {name : String}
    (isName : displayNames[definition]? = some name)
    (differ : ∀ other, displayNames[other]? = some name → other = definition) :
    filed.key? displayNames = some name ↔
      filed.definition = definition ∨ filed.spelling? = some name := by
  unfold key?
  -- A call site has one of both keys: the display name of its definition, or else the spelling.
  cases displayed : displayNames[filed.definition]? with
  | some other =>
    rw [Option.some_or, Option.some_inj, isFiled.spelling?_eq_none displayed]
    constructor
    · rintro rfl
      exact .inl (differ _ displayed)
    · rintro (rfl | isSpelled)
      · exact Option.some.inj (displayed.symm.trans isName)
      · exact nomatch isSpelled
  | none =>
    rw [Option.none_or]
    constructor
    · exact .inr
    · rintro (rfl | isSpelled)
      · exact nomatch displayed.symm.trans isName
      · exact isSpelled

end FiledCallSite

namespace TypeTree

variable {metadata : Metadata} {baseNames : Index .typeDefinitions → String}
  {types others : List TypeTree}

theorem listSpelling_eq_angled (some_types : types ≠ []) :
    listSpelling metadata baseNames types = angledSpelling metadata baseNames types := by
  simp [listSpelling, angledSpelling, angled, some_types]

/-- Types are spelled alike exactly if they have the same outlines, one by one. -/
theorem listSpelling_inj (arePlain : ArePlain metadata baseNames types)
    (othersPlain : ArePlain metadata baseNames others) (some_types : types ≠ [])
    (some_others : others ≠ []) :
    listSpelling metadata baseNames types = listSpelling metadata baseNames others ↔
      types.map (outline metadata baseNames) = others.map (outline metadata baseNames) := by
  rw [listSpelling_eq_angled some_types, listSpelling_eq_angled some_others, angledSpelling_eq,
    angledSpelling_eq]
  exact Outline.angled_inj arePlain.outlines othersPlain.outlines

end TypeTree

/-- What is called is a method of the definition, or an instantiation of one. -/
def Metadata.DeclaresTarget (metadata : Metadata) (definition : Index .typeDefinitions) :
    MethodReference → Prop
  | .definition index => ∃ method, metadata.method index = .ok method ∧
      method.declaringType = definition
  | .instantiation index => ∃ spec method, metadata.methodSpec index = .ok spec ∧
      metadata.method spec.method = .ok method ∧ method.declaringType = definition

namespace Catalogue

/-- Each usage site is filed, and the layout of a definition has what is filed by the definition or
under its name. -/
structure CallsByName (metadata : Metadata) (catalogue : Catalogue)
    (baseNames : Index .typeDefinitions → String) (sites : List UsageSite)
    (filed : List FiledCallSite) : Prop where
  areSites : metadata.usageSites = .ok sites
  areFiled : List.Forall₂ (fun site filed ↦
    filed.Matches metadata baseNames catalogue.displayNames site) sites filed
  definitions : ∀ definition, metadata.Claimed definition → ∃ layout ∈ catalogue.structs,
    catalogue.displayName? definition = some layout.typeName ∧
      layout.staticMethods = (filed.filter fun callSite ↦ callSite.definition = definition ∨
        callSite.spelling? = some layout.typeName).map (·.callSite)

/-- A call site is that of an instantiated method, with class arguments that are spelled like
`others`. The method is one of `definition`, unless its owner has no display name. -/
structure CallsWith (metadata : Metadata) (catalogue : Catalogue)
    (baseNames : Index .typeDefinitions → String) (definition : Index .typeDefinitions)
    (others : List TypeTree) (site : UsageSite) (callSite : CallSite) (spec : Index .methodSpecs)
    (owner : Index .typeDefinitions) (context : GenericContext)
    (classArguments : Index .genericInstantiations) (arguments : List TypeTree) : Prop where
  target : site.target = .instantiation spec
  calls : metadata.Calls baseNames site owner callSite
  isOwner : (catalogue.displayName? owner).isSome → owner = definition
  isContext : metadata.specContext spec = .ok context
  isInstantiation : context.classArguments? = some classArguments
  hasArguments : metadata.HasArguments classArguments arguments
  spelledAlike : TypeTree.listSpelling metadata baseNames arguments =
    TypeTree.listSpelling metadata baseNames others

/-- The layouts of instantiations have call sites with class arguments that are spelled like their
own. -/
structure CallsBySpelling (metadata : Metadata) (catalogue : Catalogue)
    (baseNames : Index .typeDefinitions → String) (sites : List UsageSite) : Prop where
  areSites : metadata.usageSites = .ok sites
  /-- Arguments are spelled alike if they have the same outlines, one by one. -/
  sameArguments : ∀ arguments others, TypeTree.ArePlain metadata baseNames arguments →
    TypeTree.ArePlain metadata baseNames others → arguments ≠ [] → others ≠ [] →
      (TypeTree.listSpelling metadata baseNames arguments =
          TypeTree.listSpelling metadata baseNames others ↔
        arguments.map (TypeTree.outline metadata baseNames) =
          others.map (TypeTree.outline metadata baseNames))
  instances : ∀ layout ∈ catalogue.structs, catalogue.displays layout.typeName = false →
    ∃ genericClass definition record,
      (catalogue.namedClasses metadata).find? (·.2 == layout.typeName) =
        some (genericClass, layout.typeName) ∧
      metadata.openDefinition? genericClass = .ok (some definition) ∧
      metadata.genericClass genericClass = .ok record ∧
      ∀ callSite ∈ layout.staticMethods, ∃ ownArguments others,
        record.context.classArguments.present? = some ownArguments ∧
          metadata.HasArguments ownArguments others ∧
          ∃ site ∈ sites, ∃ spec owner context classArguments arguments,
            catalogue.CallsWith metadata baseNames definition others site callSite spec owner context
              classArguments arguments

section MadeBy

variable {plan : BuildPlan} {catalogue : Catalogue} {definitions instances : List StructRecord}
  {state : ResolutionState} {baseNames : Index .typeDefinitions → String} {sites : List UsageSite}
  {filed : List FiledCallSite} (madeBy : catalogue.MadeBy plan definitions instances state)
  (areFiled : List.Forall₂ (fun site filed ↦ filed.Matches plan.linkage.metadata baseNames
    plan.names.definitions.displayNames site) sites filed)
  (grouped : ∀ key, (plan.names.callSites.getD key #[]).toList =
    (filed.filter (·.key? plan.names.definitions.displayNames == some key)).map (·.callSite))

include madeBy areFiled grouped

/-- What is filed under the display name of a definition. -/
theorem MadeBy.callSites_eq {definition : Index .typeDefinitions} {name : String}
    (isName : catalogue.displayName? definition = some name) :
    (plan.names.callSites.getD name #[]).toList =
      (filed.filter fun callSite ↦ callSite.definition = definition ∨
        callSite.spelling? = some name).map (·.callSite) := by
  rw [grouped]
  congr 1
  apply List.filter_congr
  intro callSite mem
  obtain ⟨site, -, isMatch⟩ := forall₂_exists_left areFiled mem
  have differ (other : Index .typeDefinitions)
      (isOther : catalogue.displayName? other = some name) : other = definition :=
    displayName_inj madeBy.records madeBy.displayNames isOther isName
  rw [displayName?, madeBy.displayNames] at isName
  unfold displayName? at differ
  rw [madeBy.displayNames] at differ
  rw [Bool.eq_iff_iff, beq_iff_eq, isMatch.key?_eq_iff isName differ, decide_eq_true_iff]

theorem MadeBy.definition_staticMethods {definition : Index .typeDefinitions}
    (claimed : plan.linkage.metadata.Claimed definition) : ∃ layout ∈ catalogue.structs,
      catalogue.displayName? definition = some layout.typeName ∧
        layout.staticMethods = (filed.filter fun callSite ↦ callSite.definition = definition ∨
          callSite.spelling? = some layout.typeName).map (·.callSite) := by
  obtain ⟨entry, layout, mem, made, displayed⟩ := madeBy.exists_layout_of_claimed claimed
  refine ⟨layout, mem, displayed, ?_⟩
  rw [made.staticMethods, ← made.typeName]
  exact madeBy.callSites_eq areFiled grouped displayed

/-- The layout of an instantiation has those call sites of its definition that have its
arguments. -/
theorem MadeBy.instance_staticMethods {entry : NamedInstance} {layout : StructRecord}
    {record : GenericClass} {typeArguments? : Option String}
    (isEntry : entry ∈ plan.names.instances.entries.toList)
    (made : plan.MakesInstance state entry layout record typeArguments?) :
    ∃ name, catalogue.displayName? entry.definition = some name ∧
      layout.staticMethods = ((filed.filter fun callSite ↦
          callSite.definition = entry.definition ∨ callSite.spelling? = some name).map
            (·.callSite)).filter fun callSite ↦
              callSite.typeArguments?.isSome && callSite.typeArguments? == typeArguments? := by
  obtain ⟨named, isOpen⟩ := madeBy.sound.instances.entries entry (Array.mem_toList_iff.mp isEntry)
  rw [← madeBy.instanceNames] at named
  obtain ⟨name, isName⟩ := madeBy.exists_displayName_of_named named isOpen
  refine ⟨name, isName, ?_⟩
  have isDisplayed := isName
  rw [displayName?, madeBy.displayNames] at isDisplayed
  rw [made.staticMethods, BuildPlan.callSitesWith, isDisplayed]
  exact congrArg _ (madeBy.callSites_eq areFiled grouped isName)

theorem MadeBy.exists_callsWith {entry : NamedInstance} {layout : StructRecord}
    {record : GenericClass} {typeArguments? : Option String} {callSite : CallSite}
    (isEntry : entry ∈ plan.names.instances.entries.toList)
    (made : plan.MakesInstance state entry layout record typeArguments?)
    (spells : Option.Rel (plan.linkage.metadata.SpellsArguments baseNames)
      record.context.classArguments.present? typeArguments?)
    (mem : callSite ∈ layout.staticMethods) :
    ∃ ownArguments others, record.context.classArguments.present? = some ownArguments ∧
      plan.linkage.metadata.HasArguments ownArguments others ∧
      ∃ site ∈ sites, ∃ spec owner context classArguments arguments,
        catalogue.CallsWith plan.linkage.metadata baseNames entry.definition others site callSite
          spec owner context classArguments arguments := by
  obtain ⟨name, isName, areMethods⟩ := madeBy.instance_staticMethods areFiled grouped isEntry made
  rw [areMethods, List.mem_filter, List.mem_map, Bool.and_eq_true, beq_iff_eq,
    Option.isSome_iff_exists] at mem
  obtain ⟨⟨next, nextMem, rfl⟩, ⟨text, hasText⟩, sameText⟩ := mem
  obtain ⟨nextFiled, belongs⟩ := List.mem_filter.mp nextMem
  rw [decide_eq_true_iff] at belongs
  obtain ⟨site, isSite, isMatch⟩ := forall₂_exists_left areFiled nextFiled
  rw [← sameText, hasText] at spells
  obtain ⟨ownArguments, isOwn, others, hasOthers, rfl⟩ := optionRel_exists_left spells
  refine ⟨ownArguments, others, isOwn, hasOthers, site, isSite, ?_⟩
  -- What has a display name is filed by that alone, and no other definition has this one.
  have isOwner (displayed : (catalogue.displayName? next.definition).isSome) :
      next.definition = entry.definition := by
    obtain same | isSpelled := belongs
    · exact same
    · obtain ⟨other, isOther⟩ := Option.isSome_iff_exists.mp displayed
      rw [displayName?, madeBy.displayNames] at isOther
      exact absurd (isSpelled.symm.trans (isMatch.spelling?_eq_none isOther)) (Option.some_ne_none _)
  obtain ⟨spec, context, classArguments, target, isContext, isClass, arguments, hasArguments,
    sameSpelling⟩ := isMatch.calls.exists_spec hasText
  exact ⟨spec, next.definition, context, classArguments, arguments, target, isMatch.calls,
    isOwner, isContext, isClass, hasArguments, sameSpelling.symm⟩

end MadeBy

/-- **Call sites are filed by name.** The layout of a definition has the call sites of its methods,
once each and in the order of the usage sites. Others are among them only if their definition has no
display name and is spelled like this one. -/
theorem exists_callsByName {metadata : Metadata} {options : BuildOptions} {offsets : OffsetSource}
    {catalogue : Catalogue} (built : (buildWith metadata options offsets).result = .ok catalogue) :
    ∃ baseNames sites filed, metadata.AdmitsBaseNames baseNames ∧
      catalogue.CallsByName metadata baseNames sites filed := by
  obtain ⟨linkage, names, definitions, instances, state, -, rfl, faithful, madeBy⟩ :=
    exists_madeBy built
  have givesNames := state.givesNames_givenName linkage.metadata
  obtain ⟨sites, areSites, filed, areFiled, grouped⟩ := madeBy.files
  refine ⟨_, sites, filed, fun _ _ ↦ faithful.givenName_eq, areSites, ?_, ?_⟩
  · rw [madeBy.displayNames]
    exact areFiled _ givesNames
  · intro definition claimed
    exact madeBy.definition_staticMethods (areFiled _ givesNames) grouped claimed

end Catalogue

/-- A method of which little more is known than the name. -/
def MethodDefinition.named (name : String) (declaringType : Index .typeDefinitions) :
    MethodDefinition where
  name
  declaringType
  genericContainer := .absent
  token := 0
  flags := 0
  slot := 0
  contextStart := .absent
  contextCount := 0

/-- A dump with these methods, instantiated methods and usages: the place and the encoded method of
each. The addresses of the places are multiples of 16. -/
def Metadata.withUsages (metadata : Metadata) (methods : List MethodDefinition)
    (methodSpecs : List MethodSpec) (usages : List (UInt32 × UInt32)) : Metadata :=
  { metadata with
    declarations := { metadata.declarations with
      methods := .ofList methods
      usagePairs := usages.map fun (destination, source) ↦ ⟨destination, source⟩ }
    registrations := { metadata.registrations with
      types := { metadata.registrations.types with
        methodSpecs := .ofList methodSpecs
        usageAddresses := (usages.zipIdx.map fun (_, position) ↦
          UInt64.ofNat (16 * (position + 1))).toArray } } }

/-- A class in a namespace, and one in a class that is called like the namespace. No image claims the
second one. -/
def Metadata.namesakes : Metadata :=
  let dump := (Metadata.ofDefinitions
    [.named "A" "Foo", .named "" "A", { TypeDefinition.named "" "Foo" with declaringType := ⟨0⟩ }]
    [] [(.classType, .definition ⟨1⟩)] []).withUsages [.named "Own" ⟨0⟩, .named "Foreign" ⟨2⟩] []
      [(0, 0x60000000), (1, 0x60000001)]
  { dump with
    declarations := { dump.declarations with
      images := .ofList [⟨"main.dll", ⟨0⟩, 2, 0, 0, 0⟩] } }

namespace Catalogue

set_option maxRecDepth 10000 in
/-- The layouts, with their call sites. -/
theorem exists_catalogue_namesakes : ∃ catalogue,
    (buildWith .namesakes .default Metadata.namesakes.fieldOffset).result = .ok catalogue ∧
      catalogue.displayName? ⟨0⟩ = some "A.Foo" ∧
      catalogue.structs.map (fun layout ↦ (layout.typeName, layout.staticMethods)) =
        [("A.Foo", [⟨16, none, "Own"⟩, ⟨32, none, "Foreign"⟩]), ("A", [])] := by
  have isShown : (buildWith .namesakes .default Metadata.namesakes.fieldOffset).result.toOption.map
      (fun catalogue ↦ (catalogue.displayName? ⟨0⟩,
        catalogue.structs.map fun layout ↦ (layout.typeName, layout.staticMethods))) =
      some (some "A.Foo",
        [("A.Foo", [⟨16, none, "Own"⟩, ⟨32, none, "Foreign"⟩]), ("A", [])]) := by
    decide +kernel
  obtain ⟨catalogue, built, shown⟩ := exists_of_shown isShown
  exact ⟨catalogue, built, Prod.mk.inj shown⟩

/-- The layout of the class in the namespace has a call site of the class that is not claimed. -/
theorem namesakes_exists_callsByName : ∃ catalogue baseNames sites filed,
    (buildWith .namesakes .default Metadata.namesakes.fieldOffset).result = .ok catalogue ∧
      Metadata.namesakes.AdmitsBaseNames baseNames ∧
      catalogue.CallsByName .namesakes baseNames sites filed ∧
      ∃ layout ∈ catalogue.structs, layout.typeName = "A.Foo" ∧
        layout.staticMethods = [⟨16, none, "Own"⟩, ⟨32, none, "Foreign"⟩] := by
  obtain ⟨catalogue, built, -, areMethods⟩ := exists_catalogue_namesakes
  obtain ⟨baseNames, sites, filed, areNames, callsByName⟩ := exists_callsByName built
  refine ⟨catalogue, baseNames, sites, filed, built, areNames, callsByName, ?_⟩
  exact exists_layout_of_listed areMethods List.mem_cons_self

/-- The layouts of definitions have call sites of their own methods only. -/
def CallsOwnMethods (metadata : Metadata) (catalogue : Catalogue) : Prop :=
  ∀ layout ∈ catalogue.structs, ∀ definition sites,
    catalogue.displayName? definition = some layout.typeName → metadata.usageSites = .ok sites →
      ∀ callSite ∈ layout.staticMethods, ∃ site ∈ sites, site.address = callSite.address ∧
        metadata.DeclaresTarget definition site.target

/-- The method that is called at the second place is declared by another class. -/
theorem namesakes_not_callsOwnMethods : ∃ catalogue,
    (buildWith .namesakes .default Metadata.namesakes.fieldOffset).result = .ok catalogue ∧
      Metadata.namesakes.Claimed ⟨0⟩ ∧ ¬catalogue.CallsOwnMethods .namesakes := by
  obtain ⟨catalogue, built, isName, areMethods⟩ := exists_catalogue_namesakes
  refine ⟨catalogue, built, ⟨_, List.mem_cons_self, 0, by decide, rfl⟩, ?_⟩
  intro callsOwn
  obtain ⟨layout, mem, isLayout, areCalls⟩ :=
    exists_layout_of_listed areMethods List.mem_cons_self
  have areSites : Metadata.namesakes.usageSites =
      .ok [⟨16, .definition ⟨0⟩⟩, ⟨32, .definition ⟨1⟩⟩] := rfl
  obtain ⟨site, isSite, sameAddress, declares⟩ :=
    callsOwn layout mem ⟨0⟩ _ (isLayout ▸ isName) areSites ⟨32, none, "Foreign"⟩
      (by simp [areCalls])
  obtain rfl | rfl : site = ⟨16, .definition ⟨0⟩⟩ ∨ site = ⟨32, .definition ⟨1⟩⟩ := by
    simpa using isSite
  · exact absurd sameAddress (by decide)
  · obtain ⟨method, isMethod, isOwner⟩ := declares
    obtain rfl : MethodDefinition.named "Foreign" ⟨2⟩ = method := Except.ok.inj isMethod
    exact absurd isOwner (by decide)

/-- **Call sites go to instantiations by the spelling of arguments.** The layout of an instantiation
has only call sites whose class arguments are spelled like its own, of methods of its definition or
of a definition without a display name. -/
theorem exists_callsBySpelling {metadata : Metadata} {options : BuildOptions}
    {offsets : OffsetSource} {catalogue : Catalogue}
    (built : (buildWith metadata options offsets).result = .ok catalogue) :
    ∃ baseNames sites, metadata.AdmitsBaseNames baseNames ∧
      catalogue.CallsBySpelling metadata baseNames sites := by
  obtain ⟨linkage, names, definitions, instances, state, -, rfl, faithful, madeBy⟩ :=
    exists_madeBy built
  have givesNames := state.givesNames_givenName linkage.metadata
  obtain ⟨sites, areSites, filed, areFiled, grouped⟩ := madeBy.files
  refine ⟨_, sites, fun _ _ ↦ faithful.givenName_eq, areSites, ?_, ?_⟩
  · intro arguments others arePlain othersPlain some_arguments some_others
    exact TypeTree.listSpelling_inj arePlain othersPlain some_arguments some_others
  · intro layout mem isNew
    obtain ⟨entry, isEntry, ⟨record, typeArguments?, made⟩, isFirst, isOpen⟩ :=
      madeBy.exists_instance mem isNew
    refine ⟨entry.genericClass, entry.definition, record, isFirst, isOpen, made.isRecord, ?_⟩
    intro callSite isMethod
    exact madeBy.exists_callsWith (areFiled _ givesNames) grouped isEntry made
      (made.typeArguments _ givesNames) isMethod

end Catalogue

/-- Lists of two classes that have the same name, and a call of a method of each. The second list is
used by no type reference. -/
def Metadata.alikeLists : Metadata :=
  ((Metadata.ofDefinitions
    [.named "A" "Foo", .named "B" "Foo",
      { TypeDefinition.named "C" "List`1" with genericContainer := ⟨0⟩ }]
    []
    [(.classType, .definition ⟨0⟩), (.classType, .definition ⟨1⟩),
      (.genericInstance, .genericClass ⟨0⟩)]
    [(⟨2⟩, [⟨0⟩]), (⟨2⟩, [⟨1⟩])]).withParameters ["T"]).withUsages [.named "Add" ⟨2⟩]
      [⟨⟨0⟩, ⟨0⟩, .absent⟩, ⟨⟨0⟩, ⟨1⟩, .absent⟩] [(0, 0xC0000000), (1, 0xC0000001)]

namespace Catalogue

set_option maxRecDepth 10000 in
/-- The names of instantiations, and the layouts with their call sites. -/
theorem exists_catalogue_alikeLists : ∃ catalogue,
    (buildWith .alikeLists .default Metadata.alikeLists.fieldOffset).result = .ok catalogue ∧
      catalogue.namedClasses .alikeLists = [(⟨0⟩, "C.List<Foo>")] ∧
      catalogue.displays "C.List<Foo>" = false ∧
      catalogue.structs.map (fun layout ↦ (layout.typeName, layout.staticMethods)) =
        [("A.Foo", []), ("B.Foo", []),
          ("C.List<T>", [⟨16, some "<Foo>", "Add"⟩, ⟨32, some "<Foo>", "Add"⟩]),
          ("C.List<Foo>", [⟨16, some "<Foo>", "Add"⟩, ⟨32, some "<Foo>", "Add"⟩])] := by
  have isShown :
      (buildWith .alikeLists .default Metadata.alikeLists.fieldOffset).result.toOption.map
        (fun catalogue ↦ (catalogue.namedClasses .alikeLists, catalogue.displays "C.List<Foo>",
          catalogue.structs.map fun layout ↦ (layout.typeName, layout.staticMethods))) =
      some ([(⟨0⟩, "C.List<Foo>")], false,
        [("A.Foo", []), ("B.Foo", []),
          ("C.List<T>", [⟨16, some "<Foo>", "Add"⟩, ⟨32, some "<Foo>", "Add"⟩]),
          ("C.List<Foo>", [⟨16, some "<Foo>", "Add"⟩, ⟨32, some "<Foo>", "Add"⟩])]) := by
    decide +kernel
  obtain ⟨catalogue, built, shown⟩ := exists_of_shown isShown
  rw [Prod.mk.injEq, Prod.mk.injEq] at shown
  exact ⟨catalogue, built, shown⟩

/-- The first list has a layout with the call sites of both. -/
theorem alikeLists_exists_callsBySpelling : ∃ catalogue baseNames sites,
    (buildWith .alikeLists .default Metadata.alikeLists.fieldOffset).result = .ok catalogue ∧
      Metadata.alikeLists.AdmitsBaseNames baseNames ∧
      catalogue.CallsBySpelling .alikeLists baseNames sites ∧
      catalogue.displays "C.List<Foo>" = false ∧
      ∃ layout ∈ catalogue.structs, layout.typeName = "C.List<Foo>" ∧
        layout.staticMethods = [⟨16, some "<Foo>", "Add"⟩, ⟨32, some "<Foo>", "Add"⟩] := by
  obtain ⟨catalogue, built, -, isNew, areMethods⟩ := exists_catalogue_alikeLists
  obtain ⟨baseNames, sites, areNames, callsBySpelling⟩ := exists_callsBySpelling built
  refine ⟨catalogue, baseNames, sites, built, areNames, callsBySpelling, isNew, ?_⟩
  exact exists_layout_of_listed areMethods (List.mem_of_getLast? rfl)

/-- The layouts of instantiations have call sites of methods of their definition, with their own
arguments, only. -/
def CallsOwnArguments (metadata : Metadata) (catalogue : Catalogue) : Prop :=
  ∀ layout ∈ catalogue.structs, ∀ genericClass definition arguments sites,
    catalogue.displays layout.typeName = false →
    (catalogue.namedClasses metadata).find? (·.2 == layout.typeName) =
      some (genericClass, layout.typeName) →
    metadata.Instantiates genericClass definition arguments → metadata.usageSites = .ok sites →
      ∀ callSite ∈ layout.staticMethods, ∃ site ∈ sites, site.address = callSite.address ∧
        metadata.DeclaresTarget definition site.target ∧ ∃ spec record instantiation,
          site.target = .instantiation spec ∧ metadata.methodSpec spec = .ok record ∧
          record.classArguments.present? = some instantiation ∧
          metadata.HasArguments instantiation arguments

/-- What is called at the second place is the method of the second list. -/
theorem alikeLists_not_callsOwnArguments : ∃ catalogue,
    (buildWith .alikeLists .default Metadata.alikeLists.fieldOffset).result = .ok catalogue ∧
      ¬catalogue.CallsOwnArguments .alikeLists := by
  obtain ⟨catalogue, built, areNamed, isNew, areMethods⟩ := exists_catalogue_alikeLists
  refine ⟨catalogue, built, ?_⟩
  intro callsOwn
  obtain ⟨layout, mem, isLayout, areCalls⟩ :=
    exists_layout_of_listed areMethods (List.mem_of_getLast? rfl)
  have areSites : Metadata.alikeLists.usageSites =
      .ok [⟨16, .instantiation ⟨0⟩⟩, ⟨32, .instantiation ⟨1⟩⟩] := rfl
  have instantiates : Metadata.alikeLists.Instantiates ⟨0⟩ ⟨2⟩ [.definition ⟨0⟩ none] :=
    .of_trees ⟨2⟩ 1 rfl rfl rfl rfl rfl rfl
  have isFirst : (catalogue.namedClasses .alikeLists).find? (·.2 == layout.typeName) =
      some (⟨0⟩, layout.typeName) := by
    rw [areNamed, isLayout]
    rfl
  obtain ⟨site, isSite, sameAddress, -, spec, record, instantiation, isTarget, isRecord,
      isInstantiation, hasArguments⟩ :=
    callsOwn layout mem ⟨0⟩ ⟨2⟩ _ _ (isLayout ▸ isNew) isFirst instantiates areSites
      ⟨32, some "<Foo>", "Add"⟩ (by simp [areCalls])
  obtain rfl | rfl : site = ⟨16, .instantiation ⟨0⟩⟩ ∨ site = ⟨32, .instantiation ⟨1⟩⟩ := by
    simpa using isSite
  · exact absurd sameAddress (by decide)
  · obtain rfl := MethodReference.instantiation.inj isTarget
    obtain rfl := Except.ok.inj isRecord
    obtain rfl := Option.some.inj isInstantiation
    have ofSecond : Metadata.alikeLists.HasArguments ⟨1⟩ [.definition ⟨1⟩ none] :=
      ⟨⟨#[⟨1⟩]⟩, rfl, .cons ⟨1, rfl⟩ .nil⟩
    have same := hasArguments.unique ofSecond
    simp at same

end Catalogue

end ManagedLayout

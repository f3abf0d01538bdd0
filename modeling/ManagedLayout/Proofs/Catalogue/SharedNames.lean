import ManagedLayout.Proofs.Catalogue.Closed
import ManagedLayout.Proofs.Catalogue.InstanceSpelling

/-!
# When instantiations share a name

The name of an instantiation shows its definition and the spellings of its arguments. Arguments are
spelled without their namespaces, and so instantiations share a name, and with it a layout, exactly
if their arguments are spelled alike.
-/

namespace ManagedLayout

/-- Each definition has the name in its record, or that with a suffix. -/
def Metadata.AdmitsBaseNames (metadata : Metadata) (baseNames : Index .typeDefinitions → String) :
    Prop :=
  ∀ definition record, metadata.typeDefinition definition = .ok record →
    baseNames definition = baseName record.name ∨
      ∃ suffix, baseNames definition = NamePool.suffixed (baseName record.name) suffix

/-- A definition is used as itself, in every linkage of the dump. -/
def Metadata.NamesItself (metadata : Metadata) (definition : Index .typeDefinitions) : Prop :=
  ∀ linkage, Linkage.ofMetadata metadata = .ok linkage → linkage.NamesItself definition

namespace ResolutionState

/-- The name that a definition has got, or would have without others to tell it from. -/
def givenName (state : ResolutionState) (metadata : Metadata)
    (definition : Index .typeDefinitions) : String :=
  match state.builtDefinition? definition, metadata.typeDefinition definition with
  | some id, _ => (state.descriptor id).name
  | none, .ok record => baseName record.name
  | none, .error _ => ""

theorem givesNames_givenName (state : ResolutionState) (metadata : Metadata) :
    state.GivesNames (state.givenName metadata) := by
  intro definition id done
  rw [givenName, builtDefinition?_eq done]

theorem Faithful.givenName_eq {state : ResolutionState} {metadata : Metadata}
    {definition : Index .typeDefinitions} {record : TypeDefinition}
    (faithful : state.Faithful metadata) (isRecord : metadata.typeDefinition definition = .ok record) :
    state.givenName metadata definition = baseName record.name ∨
      ∃ suffix, state.givenName metadata definition =
        NamePool.suffixed (baseName record.name) suffix := by
  cases isBuilt : state.builtDefinition? definition with
  | none =>
    left
    simp only [givenName, isBuilt, isRecord]
  | some id =>
    have done : state.definitions[definition]? = some (.done id) := by
      unfold builtDefinition? at isBuilt
      split at isBuilt <;> simp_all
    obtain ⟨descriptor, found, isDefinition⟩ := faithful.definitions definition id done
    obtain ⟨other, declared⟩ := faithful.declaredBy_definition found isDefinition
    obtain rfl := Except.ok.inj (isRecord.symm.trans declared.isRecord)
    have isName : state.givenName metadata definition = descriptor.name := by
      simp only [givenName, isBuilt, descriptor_eq found]
    rw [isName]
    exact declared.fits.name

end ResolutionState

namespace TypeTree

/-- The spellings of some types, between angle brackets. -/
def angledSpelling (metadata : Metadata) (baseNames : Index .typeDefinitions → String)
    (types : List TypeTree) : String :=
  angled (types.map (spelling metadata baseNames))

/-- No name in these types has a character by which the parts of a spelling are told apart. -/
def ArePlain (metadata : Metadata) (baseNames : Index .typeDefinitions → String)
    (types : List TypeTree) : Prop :=
  ∀ type ∈ types, (type.outline metadata baseNames).Plain

variable {metadata : Metadata} {baseNames : Index .typeDefinitions → String}
  {types : List TypeTree}

theorem angledSpelling_eq : angledSpelling metadata baseNames types =
    angled ((types.map (outline metadata baseNames)).map Outline.text) := by
  rw [angledSpelling, List.map_map]
  rfl

theorem ArePlain.outlines (arePlain : ArePlain metadata baseNames types) :
    ∀ argument ∈ types.map (outline metadata baseNames), argument.Plain := by
  intro argument mem
  obtain ⟨type, isType, rfl⟩ := List.mem_map.mp mem
  exact arePlain type isType

end TypeTree

namespace Catalogue

/-- A display name has the parameters of its definition between these two parts. -/
structure Brackets (metadata : Metadata) (catalogue : Catalogue)
    (definition : Index .typeDefinitions) (before after : String) : Prop where
  namesItself : metadata.NamesItself definition
  some_parameters : metadata.ownParameters definition ≠ []
  isName : catalogue.displayName? definition =
    some (before ++ angled (metadata.ownParameters definition) ++ after)
  inBefore : '<' ∉ before.toList
  inAfter : '<' ∉ after.toList

/-- The names of instantiations show how the arguments are spelled, and nothing else of them. -/
structure NamesBySpelling (metadata : Metadata) (catalogue : Catalogue)
    (baseNames owners : Index .typeDefinitions → String) : Prop where
  /-- A definition is spelled by the name in its record, or by that with a suffix. -/
  baseName : ∀ definition record, metadata.typeDefinition definition = .ok record →
    baseNames definition = baseName record.name ∨
      ∃ suffix, baseNames definition = NamePool.suffixed (ManagedLayout.baseName record.name) suffix
  /-- A generic class that has a name stands for a definition with arguments. -/
  instantiates : metadata.Addressable → ∀ genericClass name,
    catalogue.instanceName? genericClass = some name →
      ∃ definition arguments, metadata.Instantiates genericClass definition arguments
  /-- A generic class that stands for a definition with arguments has a name made of both. -/
  instanceName : ∀ genericClass definition arguments,
    metadata.Instantiates genericClass definition arguments →
      catalogue.instanceName? genericClass =
        some (instanceText (catalogue.displayName? definition) (owners definition)
          (baseNames definition) (metadata.ownParameters definition)
          (arguments.map (TypeTree.spelling metadata baseNames)))
  /-- Instantiations of one definition share a name if their arguments are spelled alike. -/
  sameDefinition : ∀ first second definition arguments others,
    metadata.Instantiates first definition arguments →
    metadata.Instantiates second definition others →
      (catalogue.instanceName? first = catalogue.instanceName? second ↔
        TypeTree.angledSpelling metadata baseNames arguments =
          TypeTree.angledSpelling metadata baseNames others)
  /-- They are spelled alike if they have the same outlines. -/
  sameArguments : ∀ arguments others, TypeTree.ArePlain metadata baseNames arguments →
    TypeTree.ArePlain metadata baseNames others →
      (TypeTree.angledSpelling metadata baseNames arguments =
          TypeTree.angledSpelling metadata baseNames others ↔
        arguments.map (TypeTree.outline metadata baseNames) =
          others.map (TypeTree.outline metadata baseNames))
  /-- An instantiation has the display name of its definition if its arguments are spelled as the
  parameters. -/
  ownDefinition : ∀ genericClass definition arguments,
    metadata.Instantiates genericClass definition arguments → metadata.NamesItself definition →
      (catalogue.instanceName? genericClass = catalogue.displayName? definition ↔
        TypeTree.angledSpelling metadata baseNames arguments =
          angled (metadata.ownParameters definition))
  /-- Instantiations of two definitions share a name if the display names differ in the parameters
  only, and the arguments have the same outlines. -/
  otherDefinition : ∀ first second definition other before after otherBefore otherAfter arguments
    others, metadata.Instantiates first definition arguments →
    metadata.Instantiates second other others →
    catalogue.Brackets metadata definition before after →
    catalogue.Brackets metadata other otherBefore otherAfter →
    TypeTree.ArePlain metadata baseNames arguments →
    TypeTree.ArePlain metadata baseNames others → arguments ≠ [] →
      (catalogue.instanceName? first = catalogue.instanceName? second ↔
        before = otherBefore ∧ after = otherAfter ∧
          arguments.map (TypeTree.outline metadata baseNames) =
            others.map (TypeTree.outline metadata baseNames))
  /-- An instantiation has the display name of some definition if that differs from the one of its
  own definition in the parameters only, and the arguments are spelled as its parameters. -/
  displayName : ∀ genericClass definition other before after otherBefore otherAfter arguments,
    metadata.Instantiates genericClass definition arguments →
    catalogue.Brackets metadata definition before after →
    catalogue.Brackets metadata other otherBefore otherAfter →
    TypeTree.ArePlain metadata baseNames arguments →
    (∀ name ∈ metadata.ownParameters other, (Outline.leaf name).Plain) → arguments ≠ [] →
      (catalogue.instanceName? genericClass = catalogue.displayName? other ↔
        before = otherBefore ∧ after = otherAfter ∧
          arguments.map (TypeTree.outline metadata baseNames) =
            (metadata.ownParameters other).map .leaf)

section MadeBy

variable {plan : BuildPlan} {catalogue : Catalogue} {definitions instances : List StructRecord}
  {state : ResolutionState} {baseNames : Index .typeDefinitions → String}
  {genericClass otherClass : Index .genericClasses} {definition other : Index .typeDefinitions}
  {arguments others : List TypeTree} {before after otherBefore otherAfter : String}
  (madeBy : catalogue.MadeBy plan definitions instances state)
  (faithful : state.Faithful plan.linkage.metadata) (givesNames : state.GivesNames baseNames)

include madeBy

/-- The definition of a generic class that has a name has a display name. -/
theorem MadeBy.exists_displayName_of_named {name : String}
    (isName : catalogue.instanceName? genericClass = some name)
    (isOpen : plan.linkage.metadata.openDefinition? genericClass = .ok (some definition)) :
    ∃ displayed, catalogue.displayName? definition = some displayed := by
  rw [instanceName?, madeBy.instanceNames] at isName
  obtain ⟨_, _, other, _, _, namedAs⟩ := madeBy.sound.instances.spelled genericClass name isName
  obtain rfl : definition = other :=
    Option.some.inj (Except.ok.inj (isOpen.symm.trans namedAs.isOpen))
  have displayed := namedAs.displayed
  rw [Std.TreeMap.contains_eq_isSome_getElem?, ← madeBy.displayNames] at displayed
  exact Option.isSome_iff_exists.mp displayed

theorem MadeBy.exists_displayName
    (instantiates : plan.linkage.metadata.Instantiates genericClass definition arguments) :
    ∃ name, catalogue.displayName? definition = some name := by
  have named := madeBy.sound.used genericClass definition instantiates.used instantiates.isOpen
  rw [← madeBy.instanceNames] at named
  obtain ⟨name, isName⟩ := Option.isSome_iff_exists.mp named
  exact madeBy.exists_displayName_of_named isName instantiates.isOpen

include faithful

theorem MadeBy.exists_instantiates (addressable : plan.linkage.metadata.Addressable) {name : String}
    (isName : catalogue.instanceName? genericClass = some name) :
    ∃ definition arguments,
      plan.linkage.metadata.Instantiates genericClass definition arguments := by
  rw [instanceName?, madeBy.instanceNames] at isName
  exact madeBy.sound.exists_instantiates faithful (.inl addressable) isName

include givesNames

theorem MadeBy.instanceName_eq
    (instantiates : plan.linkage.metadata.Instantiates genericClass definition arguments) :
    catalogue.instanceName? genericClass =
      some (instanceText (catalogue.displayName? definition) (state.definitionOwner definition)
        (baseNames definition) (plan.linkage.metadata.ownParameters definition)
        (arguments.map (TypeTree.spelling plan.linkage.metadata baseNames))) := by
  have named := madeBy.sound.used genericClass definition instantiates.used instantiates.isOpen
  obtain ⟨name, isName⟩ := Option.isSome_iff_exists.mp named
  have isText := madeBy.sound.instanceName_eq faithful givesNames instantiates isName
  rw [instanceName?, displayName?, madeBy.instanceNames, madeBy.displayNames, isName, isText]

theorem MadeBy.instanceName_eq_iff
    (instantiates : plan.linkage.metadata.Instantiates genericClass definition arguments)
    (otherInstantiates : plan.linkage.metadata.Instantiates otherClass definition others) :
    catalogue.instanceName? genericClass = catalogue.instanceName? otherClass ↔
      TypeTree.angledSpelling plan.linkage.metadata baseNames arguments =
        TypeTree.angledSpelling plan.linkage.metadata baseNames others := by
  rw [madeBy.instanceName_eq faithful givesNames instantiates,
    madeBy.instanceName_eq faithful givesNames otherInstantiates, Option.some_inj, instanceText_inj,
    TypeTree.angledSpelling, TypeTree.angledSpelling]

theorem MadeBy.instanceName_eq_displayName_iff
    (instantiates : plan.linkage.metadata.Instantiates genericClass definition arguments)
    (namesItself : plan.linkage.NamesItself definition) :
    catalogue.instanceName? genericClass = catalogue.displayName? definition ↔
      TypeTree.angledSpelling plan.linkage.metadata baseNames arguments =
        angled (plan.linkage.metadata.ownParameters definition) := by
  obtain ⟨name, isName⟩ := madeBy.exists_displayName instantiates
  -- The display name is that of an instantiation with the parameters for arguments.
  have isOwn : instanceText (some name) (state.definitionOwner definition) (baseNames definition)
      (plan.linkage.metadata.ownParameters definition)
      (plan.linkage.metadata.ownParameters definition) = name := by
    have isDisplayed := isName
    rw [displayName?, madeBy.displayNames] at isDisplayed
    obtain ⟨after, -, rfl⟩ :=
      madeBy.sound.displayName_eq faithful givesNames namesItself isDisplayed
    exact instanceText_parameters
  rw [madeBy.instanceName_eq faithful givesNames instantiates, isName, Option.some_inj]
  nth_rewrite 2 [← isOwn]
  exact instanceText_inj

variable (linked : Linkage.ofMetadata plan.linkage.metadata = .ok plan.linkage)

include linked

/-- An instantiation has the arguments where the display name of its definition has the
parameters. -/
theorem MadeBy.instanceName_of_brackets
    (brackets : catalogue.Brackets plan.linkage.metadata definition before after)
    (instantiates : plan.linkage.metadata.Instantiates genericClass definition arguments) :
    catalogue.instanceName? genericClass = some
      (before ++ TypeTree.angledSpelling plan.linkage.metadata baseNames arguments ++ after) := by
  have isName := brackets.isName
  rw [displayName?, madeBy.displayNames] at isName
  obtain ⟨tail, inTail, same⟩ := madeBy.sound.displayName_eq faithful givesNames
    (brackets.namesItself plan.linkage linked) isName
  -- The brackets around the parameters are the only ones, in either form of the display name.
  have counts := congrArg (fun name : String ↦ name.toList.count '<') same
  simp only [String.toList_append, List.count_append, List.count_eq_zero_of_not_mem inTail,
    List.count_eq_zero_of_not_mem brackets.inBefore,
    List.count_eq_zero_of_not_mem brackets.inAfter] at counts
  have inOwner : '<' ∉ (state.definitionOwner definition).toList :=
    List.count_eq_zero.mp (by omega)
  have inBase : '<' ∉ (baseNames definition).toList := List.count_eq_zero.mp (by omega)
  obtain ⟨rest, isAngled⟩ := exists_angled_eq brackets.some_parameters
  have sameChars := congrArg String.toList same
  simp only [String.toList_append, isAngled, List.append_assoc, List.cons_append] at sameChars
  rw [← List.append_assoc] at sameChars
  obtain ⟨sameBefore, sameRest⟩ := Outline.opened_append_inj brackets.inBefore
    (by simp [inOwner, inBase]) sameChars
  have sameAfter := String.toList_inj.mp (List.append_cancel_left (List.cons.inj sameRest).2)
  rw [← String.toList_append, String.toList_inj] at sameBefore
  subst sameBefore sameAfter
  rw [madeBy.instanceName_eq faithful givesNames instantiates, brackets.isName, same,
    instanceText_of_bracket inOwner inBase inTail brackets.some_parameters]
  simp only [TypeTree.angledSpelling, String.append_assoc]

theorem MadeBy.instanceName_eq_iff_of_brackets
    (instantiates : plan.linkage.metadata.Instantiates genericClass definition arguments)
    (otherInstantiates : plan.linkage.metadata.Instantiates otherClass other others)
    (brackets : catalogue.Brackets plan.linkage.metadata definition before after)
    (otherBrackets : catalogue.Brackets plan.linkage.metadata other otherBefore otherAfter)
    (arePlain : TypeTree.ArePlain plan.linkage.metadata baseNames arguments)
    (othersPlain : TypeTree.ArePlain plan.linkage.metadata baseNames others)
    (some_arguments : arguments ≠ []) :
    catalogue.instanceName? genericClass = catalogue.instanceName? otherClass ↔
      before = otherBefore ∧ after = otherAfter ∧
        arguments.map (TypeTree.outline plan.linkage.metadata baseNames) =
          others.map (TypeTree.outline plan.linkage.metadata baseNames) := by
  rw [madeBy.instanceName_of_brackets faithful givesNames linked brackets instantiates,
    madeBy.instanceName_of_brackets faithful givesNames linked otherBrackets otherInstantiates,
    Option.some_inj, TypeTree.angledSpelling_eq, TypeTree.angledSpelling_eq]
  exact Outline.bracketed_inj arePlain.outlines othersPlain.outlines
    (by simpa using some_arguments) brackets.inBefore brackets.inAfter otherBrackets.inBefore
    otherBrackets.inAfter

theorem MadeBy.instanceName_eq_displayName_iff_of_brackets
    (instantiates : plan.linkage.metadata.Instantiates genericClass definition arguments)
    (brackets : catalogue.Brackets plan.linkage.metadata definition before after)
    (otherBrackets : catalogue.Brackets plan.linkage.metadata other otherBefore otherAfter)
    (arePlain : TypeTree.ArePlain plan.linkage.metadata baseNames arguments)
    (parametersPlain : ∀ name ∈ plan.linkage.metadata.ownParameters other,
      (Outline.leaf name).Plain)
    (some_arguments : arguments ≠ []) :
    catalogue.instanceName? genericClass = catalogue.displayName? other ↔
      before = otherBefore ∧ after = otherAfter ∧
        arguments.map (TypeTree.outline plan.linkage.metadata baseNames) =
          (plan.linkage.metadata.ownParameters other).map .leaf := by
  have leaves : angled (plan.linkage.metadata.ownParameters other) =
      angled (((plan.linkage.metadata.ownParameters other).map .leaf).map Outline.text) := by
    simp [Function.comp_def]
  have leavesPlain : ∀ argument ∈ (plan.linkage.metadata.ownParameters other).map Outline.leaf,
      argument.Plain := by
    simpa using parametersPlain
  rw [madeBy.instanceName_of_brackets faithful givesNames linked brackets instantiates,
    otherBrackets.isName, Option.some_inj, TypeTree.angledSpelling_eq, leaves]
  exact Outline.bracketed_inj arePlain.outlines leavesPlain
    (by simpa using some_arguments) brackets.inBefore brackets.inAfter otherBrackets.inBefore
    otherBrackets.inAfter

end MadeBy

/-- **Names of instantiations show spellings.** Whatever is built, two instantiations of a definition
share a name exactly if their arguments are spelled alike, and instantiations of two definitions only
if the display names of these differ in nothing but the parameters. -/
theorem exists_namesBySpelling {metadata : Metadata} {options : BuildOptions}
    {offsets : OffsetSource} {catalogue : Catalogue}
    (built : (buildWith metadata options offsets).result = .ok catalogue) :
    ∃ baseNames owners, catalogue.NamesBySpelling metadata baseNames owners := by
  obtain ⟨linkage, names, definitions, instances, state, linked, rfl, faithful, madeBy⟩ :=
    exists_madeBy built
  have givesNames := state.givesNames_givenName linkage.metadata
  refine ⟨state.givenName linkage.metadata, state.definitionOwner, ?_⟩
  constructor
  case baseName => exact fun definition record ↦ faithful.givenName_eq
  case instantiates =>
    exact fun addressable genericClass name ↦ madeBy.exists_instantiates faithful addressable
  case instanceName =>
    intro genericClass definition arguments instantiates
    exact madeBy.instanceName_eq faithful givesNames instantiates
  case sameDefinition =>
    intro first second definition arguments others instantiates otherInstantiates
    exact madeBy.instanceName_eq_iff faithful givesNames instantiates otherInstantiates
  case sameArguments =>
    intro arguments others arePlain othersPlain
    rw [TypeTree.angledSpelling_eq, TypeTree.angledSpelling_eq]
    exact Outline.angled_inj arePlain.outlines othersPlain.outlines
  case ownDefinition =>
    intro genericClass definition arguments instantiates namesItself
    exact madeBy.instanceName_eq_displayName_iff faithful givesNames instantiates
      (namesItself linkage linked)
  case otherDefinition =>
    intro first second definition other before after otherBefore otherAfter arguments others
      instantiates otherInstantiates brackets otherBrackets arePlain othersPlain some_arguments
    exact madeBy.instanceName_eq_iff_of_brackets faithful givesNames linked instantiates
      otherInstantiates brackets otherBrackets arePlain othersPlain some_arguments
  case displayName =>
    intro genericClass definition other before after otherBefore otherAfter arguments instantiates
      brackets otherBrackets arePlain parametersPlain some_arguments
    exact madeBy.instanceName_eq_displayName_iff_of_brackets faithful givesNames linked instantiates
      brackets otherBrackets arePlain parametersPlain some_arguments

end Catalogue

/-- A dump with generic containers for one parameter each. -/
def Metadata.withParameters (metadata : Metadata) (names : List String) : Metadata :=
  { metadata with
    declarations := { metadata.declarations with
      genericContainers := .ofList (names.zipIdx.map fun (_, position) ↦
        ⟨0, 1, false, .ofPosition position⟩)
      genericParameters := .ofList (names.zipIdx.map fun (name, position) ↦
        ⟨.ofPosition position, name, 0, 0⟩) } }

/-- Lists of two classes that have the same name, and of one that is named like the parameter; and
two generic classes of the same name, one in a namespace and one in a class. -/
def Metadata.clashes : Metadata :=
  (Metadata.ofDefinitions
    [.named "A" "Foo", .named "B" "Foo", .named "" "T",
      { TypeDefinition.named "C" "List`1" with genericContainer := ⟨0⟩ },
      { TypeDefinition.named "A.B" "X`1" with genericContainer := ⟨1⟩ }, .named "A" "B",
      { TypeDefinition.named "" "X`1" with genericContainer := ⟨2⟩, declaringType := ⟨3⟩ }]
    []
    [(.classType, .definition ⟨0⟩), (.classType, .definition ⟨1⟩), (.classType, .definition ⟨2⟩),
      (.classType, .definition ⟨5⟩), (.genericInstance, .genericClass ⟨0⟩),
      (.genericInstance, .genericClass ⟨1⟩), (.genericInstance, .genericClass ⟨2⟩),
      (.genericInstance, .genericClass ⟨3⟩), (.genericInstance, .genericClass ⟨4⟩)]
    [(⟨3⟩, [⟨0⟩]), (⟨3⟩, [⟨1⟩]), (⟨3⟩, [⟨2⟩]), (⟨4⟩, [⟨0⟩]), (⟨6⟩, [⟨0⟩])]).withParameters
      ["T", "T", "U"]

namespace Catalogue

set_option maxRecDepth 10000 in
/-- The names of the instantiations, and the display names of the generic definitions. -/
theorem exists_catalogue_clashes : ∃ catalogue,
    (buildWith .clashes .default Metadata.clashes.fieldOffset).result = .ok catalogue ∧
      [0, 1, 2, 3, 4].map (fun position ↦ catalogue.instanceName? ⟨position⟩) =
        [some "C.List<Foo>", some "C.List<Foo>", some "C.List<T>", some "A.B.X<Foo>",
          some "A.B.X<Foo>"] ∧
      [3, 4, 6].map (fun position ↦ catalogue.displayName? ⟨position⟩) =
        [some "C.List<T>", some "A.B.X<T>", some "A.B.X<U>"] := by
  have isShown : (buildWith .clashes .default Metadata.clashes.fieldOffset).result.toOption.map
      (fun catalogue ↦ ([0, 1, 2, 3, 4].map fun position ↦ catalogue.instanceName? ⟨position⟩,
        [3, 4, 6].map fun position ↦ catalogue.displayName? ⟨position⟩)) =
      some ([some "C.List<Foo>", some "C.List<Foo>", some "C.List<T>", some "A.B.X<Foo>",
        some "A.B.X<Foo>"], [some "C.List<T>", some "A.B.X<T>", some "A.B.X<U>"]) := by
    decide +kernel
  obtain ⟨catalogue, built, shown⟩ := exists_of_shown isShown
  exact ⟨catalogue, built, Prod.mk.inj shown⟩

/-- The two generic classes of the same name have display names that differ in the parameter only. -/
theorem clashes_exists_namesBySpelling : ∃ catalogue baseNames owners,
    (buildWith .clashes .default Metadata.clashes.fieldOffset).result = .ok catalogue ∧
      catalogue.NamesBySpelling .clashes baseNames owners ∧
      catalogue.Brackets .clashes ⟨4⟩ "A.B.X" "" ∧ catalogue.Brackets .clashes ⟨6⟩ "A.B.X" "" := by
  obtain ⟨catalogue, built, -, areDisplayed⟩ := exists_catalogue_clashes
  obtain ⟨-, inNamespace, nested⟩ : catalogue.displayName? ⟨3⟩ = some "C.List<T>" ∧
      catalogue.displayName? ⟨4⟩ = some "A.B.X<T>" ∧
      catalogue.displayName? ⟨6⟩ = some "A.B.X<U>" := by
    simpa using areDisplayed
  have namesItself (definition : Index .typeDefinitions) :
      Metadata.clashes.NamesItself definition := by
    intro linkage linked
    apply Linkage.namesItself_of_ownType linked (by decide)
    intro record type isRecord isOwn
    have noOwnType : ∀ record ∈ Metadata.clashes.declarations.typeDefinitions.toList,
        record.ownType.present? = none := by decide +kernel
    have mem := Table.mem_toList_of_get? (Table.fetch_eq_ok_iff.mp isRecord)
    exact nomatch isOwn.symm.trans (noOwnType record mem)
  obtain ⟨baseNames, owners, bySpelling⟩ := exists_namesBySpelling built
  refine ⟨catalogue, baseNames, owners, built, bySpelling, ?_, ?_⟩
  · exact ⟨namesItself ⟨4⟩, by decide +kernel, inNamespace, by decide, by decide⟩
  · exact ⟨namesItself ⟨6⟩, by decide +kernel, nested, by decide, by decide⟩

/-- Instantiations of this name are the same type. -/
def TellsType (metadata : Metadata) (catalogue : Catalogue) (name : String) : Prop :=
  ∀ first second definition other arguments others,
    catalogue.instanceName? first = some name → catalogue.instanceName? second = some name →
    metadata.Instantiates first definition arguments → metadata.Instantiates second other others →
      definition = other ∧ arguments = others

/-- A name tells neither the arguments nor the definition, and the display name of a definition does
not tell that the arguments are its parameters. -/
theorem clashes_not_tellsType : ∃ catalogue,
    (buildWith .clashes .default Metadata.clashes.fieldOffset).result = .ok catalogue ∧
      ¬catalogue.TellsType .clashes "C.List<Foo>" ∧ ¬catalogue.TellsType .clashes "A.B.X<Foo>" ∧
      catalogue.instanceName? ⟨2⟩ = some "C.List<T>" ∧
      catalogue.displayName? ⟨3⟩ = some "C.List<T>" ∧
      Metadata.clashes.Instantiates ⟨2⟩ ⟨3⟩ [.definition ⟨2⟩ none] := by
  obtain ⟨catalogue, built, areNames, areDisplayed⟩ := exists_catalogue_clashes
  have displayed : catalogue.displayName? ⟨3⟩ = some "C.List<T>" := (List.cons.inj areDisplayed).1
  obtain ⟨ofFirst, ofSecond, ofNamesake, ofNamespace, ofNested⟩ :
      catalogue.instanceName? ⟨0⟩ = some "C.List<Foo>" ∧
        catalogue.instanceName? ⟨1⟩ = some "C.List<Foo>" ∧
        catalogue.instanceName? ⟨2⟩ = some "C.List<T>" ∧
        catalogue.instanceName? ⟨3⟩ = some "A.B.X<Foo>" ∧
        catalogue.instanceName? ⟨4⟩ = some "A.B.X<Foo>" := by
    simpa using areNames
  have first : Metadata.clashes.Instantiates ⟨0⟩ ⟨3⟩ [.definition ⟨0⟩ none] :=
    .of_trees ⟨4⟩ 1 rfl rfl rfl rfl rfl rfl
  have second : Metadata.clashes.Instantiates ⟨1⟩ ⟨3⟩ [.definition ⟨1⟩ none] :=
    .of_trees ⟨5⟩ 1 rfl rfl rfl rfl rfl rfl
  have namesake : Metadata.clashes.Instantiates ⟨2⟩ ⟨3⟩ [.definition ⟨2⟩ none] :=
    .of_trees ⟨6⟩ 1 rfl rfl rfl rfl rfl rfl
  have inNamespace : Metadata.clashes.Instantiates ⟨3⟩ ⟨4⟩ [.definition ⟨0⟩ none] :=
    .of_trees ⟨7⟩ 1 rfl rfl rfl rfl rfl rfl
  have nested : Metadata.clashes.Instantiates ⟨4⟩ ⟨6⟩ [.definition ⟨0⟩ none] :=
    .of_trees ⟨8⟩ 1 rfl rfl rfl rfl rfl rfl
  refine ⟨catalogue, built, ?_, ?_, ofNamesake, displayed, namesake⟩
  · intro tells
    have same := (tells _ _ _ _ _ _ ofFirst ofSecond first second).2
    simp at same
  · intro tells
    have same := (tells _ _ _ _ _ _ ofNamespace ofNested inNamespace nested).1
    exact absurd same (by decide)

end Catalogue

end ManagedLayout

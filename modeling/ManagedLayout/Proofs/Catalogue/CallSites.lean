import ManagedLayout.Catalogue.CallSites
import ManagedLayout.Proofs.Resolution.TreeSpelling

/-!
# Where call sites are filed

Each usage site of a dump leads to one call site, of the definition that declares the method. It is
filed under the display name of this definition, or under its spelling if it has no display name. So
what is found under a text are the call sites of all definitions that share the text, in the order
of the usage sites.
-/

namespace ManagedLayout

/-- The spellings of some types in a list, between angle brackets also if there are none. -/
def TypeTree.listSpelling (metadata : Metadata) (baseNames : Index .typeDefinitions → String)
    (types : List TypeTree) : String :=
  "<" ++ ", ".intercalate (types.map (spelling metadata baseNames)) ++ ">"

namespace Metadata

/-- The types that an instantiation has for arguments. -/
def HasArguments (metadata : Metadata) (index : Index .genericInstantiations)
    (arguments : List TypeTree) : Prop :=
  ∃ instantiation, metadata.genericInstantiation index = .ok instantiation ∧
    List.Forall₂ (fun type tree ↦ metadata.Expands ⟨type, .empty, .name⟩ tree)
      instantiation.arguments.toList arguments

/-- An instantiation has one list of arguments. -/
theorem HasArguments.unique {metadata : Metadata} {index : Index .genericInstantiations}
    {arguments others : List TypeTree} (first : metadata.HasArguments index arguments)
    (second : metadata.HasArguments index others) : arguments = others := by
  obtain ⟨instantiation, isInstantiation, expand⟩ := first
  obtain ⟨other, isOther, otherExpand⟩ := second
  obtain rfl := Except.ok.inj (isInstantiation.symm.trans isOther)
  exact expands_right_unique expand otherExpand

/-- How the arguments of an instantiation are spelled. -/
def SpellsArguments (metadata : Metadata) (baseNames : Index .typeDefinitions → String)
    (index : Index .genericInstantiations) (text : String) : Prop :=
  ∃ arguments, metadata.HasArguments index arguments ∧
    text = TypeTree.listSpelling metadata baseNames arguments

/-- The arguments of an instantiation are spelled in one way. -/
theorem SpellsArguments.unique {metadata : Metadata}
    {baseNames : Index .typeDefinitions → String} {index : Index .genericInstantiations}
    {text other : String} (first : metadata.SpellsArguments baseNames index text)
    (second : metadata.SpellsArguments baseNames index other) : text = other := by
  obtain ⟨arguments, hasArguments, rfl⟩ := first
  obtain ⟨others, hasOthers, rfl⟩ := second
  rw [hasArguments.unique hasOthers]

/-- A usage site is a call site of the definition that declares the method. -/
inductive Calls (metadata : Metadata) (baseNames : Index .typeDefinitions → String) :
    UsageSite → Index .typeDefinitions → CallSite → Prop
  | method {address : UInt64} {index : Index .methods} {method : MethodDefinition}
    (isMethod : metadata.method index = .ok method) :
    Calls metadata baseNames ⟨address, .definition index⟩ method.declaringType
      ⟨address, none, method.name⟩
  | instantiation {address : UInt64} {index : Index .methodSpecs} {context : GenericContext}
    {spec : MethodSpec} {method : MethodDefinition} {classText? methodText? : Option String}
    (isContext : metadata.specContext index = .ok context)
    (isSpec : metadata.methodSpec index = .ok spec)
    (isMethod : metadata.method spec.method = .ok method)
    (classArguments :
      Option.Rel (metadata.SpellsArguments baseNames) context.classArguments? classText?)
    (methodArguments :
      Option.Rel (metadata.SpellsArguments baseNames) context.methodArguments? methodText?) :
    Calls metadata baseNames ⟨address, .instantiation index⟩ method.declaringType
      ⟨address, classText?, method.name ++ methodText?.getD ""⟩

/-- What stands in for the display name of a definition: nothing if it has one, else its
spelling. -/
def SpelledInstead (metadata : Metadata) (baseNames : Index .typeDefinitions → String)
    (displayName? : Option String) (definition : Index .typeDefinitions)
    (spelling? : Option String) : Prop :=
  match displayName? with
  | some _ => spelling? = none
  | none => ∃ declaring?, metadata.DeclaredIn definition declaring? ∧
      spelling? = some ((TypeTree.definition definition declaring?).fullName metadata baseNames)

end Metadata

/-- A call site, and what it is filed by. -/
structure FiledCallSite where
  definition : Index .typeDefinitions
  /-- The spelling of the definition, if it has no display name. -/
  spelling? : Option String
  callSite : CallSite

namespace FiledCallSite

/-- The text under which a call site is filed. -/
def key? (filed : FiledCallSite)
    (displayNames : Std.TreeMap (Index .typeDefinitions) String) : Option String :=
  displayNames[filed.definition]?.or filed.spelling?

/-- A call site is filed as the usage site says. -/
structure Matches (metadata : Metadata) (baseNames : Index .typeDefinitions → String)
    (displayNames : Std.TreeMap (Index .typeDefinitions) String) (site : UsageSite)
    (filed : FiledCallSite) : Prop where
  calls : metadata.Calls baseNames site filed.definition filed.callSite
  spelling : metadata.SpelledInstead baseNames displayNames[filed.definition]? filed.definition
    filed.spelling?

end FiledCallSite

namespace Linkage

open Resolve

variable {linkage : Linkage} {state : ResolutionState}

/-- A text is the spelling of a type, by the names that the definitions have got. -/
def SpellsType (metadata : Metadata) (type : Index .types) (text : String)
    (state : ResolutionState) : Prop :=
  ∃ tree, metadata.Expands ⟨type, .empty, .name⟩ tree ∧
    ∀ baseNames, state.GivesNames baseNames → text = tree.spelling metadata baseNames

theorem spells_resolve (type : Index .types) (state : ResolutionState) :
    Keeps linkage.metadata (do
      let usage ← linkage.resolve type .empty .name
      return (← get).usageText usage false) state (SpellsType linkage.metadata type) := by
  apply Keeps.bind (remembers_resolve type .empty .name state)
  intro usage after faithful _ done
  apply Keeps.bind_get
  apply Keeps.pure
  have known := faithful.usages _ usage done
  exact ⟨_, Metadata.expands_normal.mp known.expands,
    fun _ givesNames ↦ faithful.usageText_eq givesNames known.stored⟩

theorem spells_instantiationText (index : Index .genericInstantiations) :
    Keeps linkage.metadata (linkage.instantiationText index) state fun text after ↦
      ∀ baseNames, after.GivesNames baseNames →
        linkage.metadata.SpellsArguments baseNames index text := by
  apply Keeps.bind_lookup
  intro instantiation isInstantiation
  have lasting (type : Index .types) (text : String) (before after : ResolutionState)
      (faithful : before.Faithful linkage.metadata) (grows : before.Grows after)
      (spells : SpellsType linkage.metadata type text before) :
      SpellsType linkage.metadata type text after := by
    obtain ⟨tree, expands, isText⟩ := spells
    exact ⟨tree, expands, fun baseNames givesNames ↦
      isText baseNames (givesNames.of_extends faithful grows.toExtends)⟩
  apply Keeps.bind (.mapM _ lasting spells_resolve instantiation.arguments.toList state)
  intro texts after _ _ areTexts
  apply Keeps.pure
  intro baseNames givesNames
  obtain ⟨trees, expand, rfl⟩ : ∃ trees,
      List.Forall₂ (fun type tree ↦ linkage.metadata.Expands ⟨type, .empty, .name⟩ tree)
        instantiation.arguments.toList trees ∧
      texts = trees.map (TypeTree.spelling linkage.metadata baseNames) := by
    generalize instantiation.arguments.toList = types at areTexts
    induction areTexts with
    | nil => exact ⟨[], .nil, rfl⟩
    | cons spells _ ih =>
      obtain ⟨tree, expands, isText⟩ := spells
      obtain ⟨trees, expand, rfl⟩ := ih
      exact ⟨tree :: trees, .cons expands expand, by rw [isText baseNames givesNames, List.map_cons]⟩
  exact ⟨trees, ⟨instantiation, isInstantiation, expand⟩, rfl⟩

theorem spells_instantiationText? (index? : Option (Index .genericInstantiations)) :
    Keeps linkage.metadata (linkage.instantiationText? index?) state fun text? after ↦
      ∀ baseNames, after.GivesNames baseNames →
        Option.Rel (linkage.metadata.SpellsArguments baseNames) index? text? := by
  cases index? with
  | none => exact .pure fun _ _ ↦ .none
  | some index =>
    apply Keeps.bind (spells_instantiationText index)
    intro text after _ _ spells
    exact .pure fun baseNames givesNames ↦ .some (spells baseNames givesNames)

theorem keeps_callSiteKey (definitions : DefinitionNames) (definition : Index .typeDefinitions) :
    Keeps linkage.metadata (linkage.callSiteKey definitions definition) state fun key after ↦
      ∃ spelling?, definitions.displayNames[definition]?.or spelling? = some key ∧
        ∀ baseNames, after.GivesNames baseNames → linkage.metadata.SpelledInstead baseNames
          definitions.displayNames[definition]? definition spelling? := by
  unfold callSiteKey
  split
  next name isName =>
    rw [isName]
    exact .pure ⟨none, rfl, fun _ _ ↦ rfl⟩
  next isName =>
    rw [isName]
    apply Keeps.bind (keeps_describe definition)
    intro id after faithful _ done
    apply Keeps.bind_get
    apply Keeps.pure
    refine ⟨_, rfl, ?_⟩
    intro baseNames givesNames
    obtain ⟨declaring?, declaredIn, isTree⟩ := faithful.exists_declaredIn done
    have stored := (faithful.definitions definition id done).stored
    rw [faithful.descriptorText_eq givesNames stored, isTree]
    exact ⟨declaring?, declaredIn, rfl⟩

theorem keeps_callSite (definitions : DefinitionNames) (site : UsageSite) :
    Keeps linkage.metadata (linkage.callSite definitions site) state fun result after ↦
      ∃ filed : FiledCallSite, filed.key? definitions.displayNames = some result.1 ∧
        filed.callSite = result.2 ∧ ∀ baseNames, after.GivesNames baseNames →
          filed.Matches linkage.metadata baseNames definitions.displayNames site := by
  obtain ⟨address, index | index⟩ := site
  · apply Keeps.bind_lookup
    intro method isMethod
    apply Keeps.bind (keeps_callSiteKey definitions method.declaringType)
    intro key after _ _ ⟨spelling?, isKey, spelled⟩
    apply Keeps.pure
    exact ⟨⟨method.declaringType, spelling?, _⟩, isKey, rfl,
      fun baseNames givesNames ↦ ⟨.method isMethod, spelled baseNames givesNames⟩⟩
  · apply Keeps.bind_lookup
    intro context isContext
    apply Keeps.bind_lookup
    intro spec isSpec
    apply Keeps.bind_lookup
    intro method isMethod
    apply Keeps.bind (keeps_callSiteKey definitions method.declaringType)
    intro key keyed keyedFaithful _ ⟨spelling?, isKey, spelled⟩
    apply Keeps.bind (spells_instantiationText? context.methodArguments?)
    intro methodText? middle faithful grows methodSpelled
    apply Keeps.bind (spells_instantiationText? context.classArguments?)
    intro classText? after _ growsMore classSpelled
    apply Keeps.pure
    refine ⟨⟨method.declaringType, spelling?, _⟩, isKey, rfl, fun baseNames givesNames ↦ ?_⟩
    -- The names that are given last are those by which the key and the method were spelled before.
    have givenBefore := givesNames.of_extends faithful growsMore.toExtends
    exact ⟨.instantiation isContext isSpec isMethod (classSpelled baseNames givesNames)
        (methodSpelled baseNames givenBefore),
      spelled baseNames (givenBefore.of_extends keyedFaithful grows.toExtends)⟩

/-- Under each text stand the call sites that are filed by it, in the order of the usage sites. -/
def Files (metadata : Metadata) (displayNames : Std.TreeMap (Index .typeDefinitions) String)
    (sites : List UsageSite) (groups : Std.TreeMap String (Array CallSite))
    (state : ResolutionState) : Prop :=
  ∃ filed : List FiledCallSite,
    (∀ baseNames, state.GivesNames baseNames → List.Forall₂
      (fun site filed ↦ filed.Matches metadata baseNames displayNames site) sites filed) ∧
    ∀ key, (groups.getD key #[]).toList =
      (filed.filter (·.key? displayNames == some key)).map (·.callSite)

theorem files_nil {metadata : Metadata}
    {displayNames : Std.TreeMap (Index .typeDefinitions) String} :
    Files metadata displayNames [] ∅ state :=
  ⟨[], fun _ _ ↦ .nil, fun _ ↦ by simp⟩

theorem Files.mono {metadata : Metadata}
    {displayNames : Std.TreeMap (Index .typeDefinitions) String} {sites : List UsageSite}
    {groups : Std.TreeMap String (Array CallSite)} {after : ResolutionState}
    (files : Files metadata displayNames sites groups state) (faithful : state.Faithful metadata)
    (extend : state.Extends after) : Files metadata displayNames sites groups after := by
  obtain ⟨filed, matched, grouped⟩ := files
  exact ⟨filed, fun baseNames givesNames ↦
    matched baseNames (givesNames.of_extends faithful extend), grouped⟩

theorem Files.insert {metadata : Metadata}
    {displayNames : Std.TreeMap (Index .typeDefinitions) String} {sites : List UsageSite}
    {site : UsageSite} {groups : Std.TreeMap String (Array CallSite)} {after : ResolutionState}
    {next : FiledCallSite} {key : String} (files : Files metadata displayNames sites groups state)
    (faithful : state.Faithful metadata) (extend : state.Extends after)
    (isKey : next.key? displayNames = some key)
    (matched : ∀ baseNames, after.GivesNames baseNames →
      next.Matches metadata baseNames displayNames site) :
    Files metadata displayNames (sites ++ [site])
      (groups.insert key ((groups.getD key #[]).push next.callSite)) after := by
  obtain ⟨filed, allMatched, grouped⟩ := files
  refine ⟨filed ++ [next], ?_, ?_⟩
  · intro baseNames givesNames
    have givenBefore := givesNames.of_extends faithful extend
    exact List.rel_append (allMatched baseNames givenBefore) (.cons (matched baseNames givesNames) .nil)
  · intro other
    rw [Std.TreeMap.getD_insert, List.filter_append, List.map_append, ← grouped,
      List.filter_singleton, isKey]
    by_cases same : key = other
    · subst same
      simp
    · have different : (key == other) = false := beq_false_of_ne same
      simp [same, different]

theorem keeps_groupCallSites (definitions : DefinitionNames) :
    Keeps linkage.metadata (linkage.groupCallSites definitions) state fun groups after ↦
      ∃ sites, linkage.metadata.usageSites = .ok sites ∧
        Files linkage.metadata definitions.displayNames sites groups after := by
  unfold groupCallSites
  split
  next =>
    apply Keeps.bind_lookup
    intro sites areSites
    apply (Keeps.foldlM (Files linkage.metadata definitions.displayNames) ?_ ∅ files_nil).mono
    · exact fun _ _ _ _ files ↦ ⟨sites, areSites, files⟩
    · intro before site _ _ groups state files
      apply Keeps.of_faithful
      intro faithful
      apply Keeps.bind (keeps_callSite definitions site)
      rintro ⟨key, _⟩ after - grows ⟨next, isKey, rfl, matched⟩
      exact .pure (files.insert faithful grows.toExtends isKey matched)
  next unlisted =>
    apply Keeps.bind (keeps_report _)
    intro _ _ _ _ _
    exact .pure ⟨[], if_neg unlisted, files_nil⟩

end Linkage

end ManagedLayout

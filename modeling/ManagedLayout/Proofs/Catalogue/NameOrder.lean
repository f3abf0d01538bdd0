import ManagedLayout.Proofs.Catalogue.Closed
import ManagedLayout.Proofs.Catalogue.Composition
import ManagedLayout.Proofs.Catalogue.Invariants
import ManagedLayout.Proofs.Resolution.MadeOrder
import ManagedLayout.Proofs.Resolution.NameOrder
import ManagedLayout.Proofs.Resolution.TreeSpelling

/-!
# Which definition gets the lower number

Definitions with the same name in the same owner get numbers in the order in which they are made. A
build goes through the claims of the images in order, but a claimed definition brings with it what
its own usage is made of. A definition that declares another one is made ahead of its turn if the
other one is claimed first, and then gets the lower number.
-/

namespace ManagedLayout

theorem appendNew_nil {Element : Type} [DecidableEq Element] (elements : List Element) :
    appendNew [] elements = elements.eraseDups := by
  induction elements using List.reverseRecOn with
  | nil => rfl
  | append_singleton elements element ih =>
    rw [appendNew_append, ih, eraseDups_concat]
    by_cases mem : element ∈ elements
    · rw [if_pos mem, List.append_nil]
      exact appendNew_of_subset (by simpa using mem)
    · rw [if_neg mem]
      exact appendNew_singleton (by simpa using mem)

namespace Linkage

open Resolve

/-- The type that a definition is used as: that of the type reference for it, or the definition
itself if there is none or if that is built in. -/
inductive UsedAs (linkage : Linkage) (definition : Index .typeDefinitions) : TypeTree → Prop where
  | reference {type : Index .types} {reference : TypeReference} {tree : TypeTree}
    (isType : linkage.typeForDefinition? definition = .ok (some type))
    (isReference : linkage.metadata.typeReference type = .ok reference)
    (notBuiltin : reference.kind.isBuiltin = false)
    (expands : linkage.metadata.Expands ⟨type, .empty, .name⟩ tree) :
    UsedAs linkage definition tree
  | builtin {type : Index .types} {reference : TypeReference} {declaring? : Option TypeTree}
    (isType : linkage.typeForDefinition? definition = .ok (some type))
    (isReference : linkage.metadata.typeReference type = .ok reference)
    (isBuiltin : reference.kind.isBuiltin = true)
    (declaredIn : linkage.metadata.DeclaredIn definition declaring?) :
    UsedAs linkage definition (.definition definition declaring?)
  | unreferenced {declaring? : Option TypeTree}
    (isType : linkage.typeForDefinition? definition = .ok none)
    (declaredIn : linkage.metadata.DeclaredIn definition declaring?) :
    UsedAs linkage definition (.definition definition declaring?)

variable {linkage : Linkage} {state : ResolutionState}

theorem keeps_usedAs (definition : Index .typeDefinitions) :
    Keeps linkage.metadata (linkage.definitionUsage definition .name) state
      fun usage after ↦ linkage.UsedAs definition (after.usageTree usage) := by
  have itself (usedAs : ∀ declaring?, linkage.metadata.DeclaredIn definition declaring? →
      linkage.UsedAs definition (.definition definition declaring?)) :
      Keeps linkage.metadata (do return Usage.plain (← linkage.describe definition)) state
        fun usage after ↦ linkage.UsedAs definition (after.usageTree usage) := by
    refine .bind (keeps_describe definition) fun id after faithful _ done ↦ .pure ?_
    obtain ⟨declaring?, declaredIn, isTree⟩ := faithful.exists_declaredIn done
    rw [ResolutionState.usageTree_plain, isTree]
    exact usedAs declaring? declaredIn
  refine .bind_lookup fun type? isType ↦ ?_
  cases type? with
  | none => exact itself fun _ declaredIn ↦ .unreferenced isType declaredIn
  | some type =>
    refine .bind_lookup fun reference isReference ↦ ?_
    split
    next isBuiltin =>
      exact itself fun _ declaredIn ↦ .builtin isType isReference isBuiltin declaredIn
    next notBuiltin =>
      refine (remembers_resolve type .empty .name state).mono fun usage after faithful _ done ↦ ?_
      have expands := Metadata.expands_normal.mp (faithful.usages _ usage done).expands
      exact .reference isType isReference (by simpa using notBuiltin) expands

/-- The claimed definitions have been made, and what they are used as, in the order of the
claims. -/
def MadeFor (linkage : Linkage) (claims : List (Index .images × Index .typeDefinitions))
    (state : ResolutionState) : Prop :=
  ∃ trees, List.Forall₂ linkage.UsedAs (claims.map Prod.snd).eraseDups trees ∧
    state.made = (trees.flatMap TypeTree.definitions).eraseDups

theorem keeps_madeFor_claim {claims : List (Index .images × Index .typeDefinitions)}
    {names : DefinitionNames} (records : names.Records claims)
    (madeFor : linkage.MadeFor claims state) (image : Index .images)
    (definition : Index .typeDefinitions) :
    Keeps linkage.metadata (linkage.claim image definition names) state
      fun _ after ↦ linkage.MadeFor (claims ++ [(image, definition)]) after := by
  obtain ⟨trees, usedAs, isMade⟩ := madeFor
  have claimed_iff := records.isSome_owners definition
  unfold claim MadeFor
  rw [List.map_append, List.map_singleton, eraseDups_concat]
  split
  next owner isOwner =>
    rw [if_pos (claimed_iff.mp (by rw [isOwner]; rfl)), List.append_nil]
    have makesNothing : Makes linkage.metadata (report (.claimedTwice definition owner image))
        (fun _ ↦ []) state := fun _ ↦ rfl
    refine .bind ((keeps_report _).and_makes makesNothing) fun _ after _ _ ⟨_, same⟩ ↦ ?_
    exact .pure ⟨trees, usedAs, same.trans isMade⟩
  next unowned =>
    rw [if_neg ((not_congr claimed_iff).mp (by rw [unowned]; simp))]
    refine .bind ((keeps_usedAs definition).and_makes (makes_definitionUsage definition .name)) ?_
    intro usage after _ _ ⟨isUsed, adds⟩
    refine .bind_get (.bind_lookup fun builtin? _ ↦ .pure ?_)
    refine ⟨trees ++ [after.usageTree usage], List.rel_append usedAs (.cons isUsed .nil), ?_⟩
    rw [List.flatMap_append, List.flatMap_singleton, ← appendNew_nil, appendNew_append,
      appendNew_nil, ← isMade, ← TypeTree.definitions_core, ResolutionState.core_usageTree]
    rwa [ResolutionState.Adds, List.flatMap_singleton] at adds

theorem keeps_madeFor_claimRange (image : Index .images) (count : Nat)
    (start : Index .typeDefinitions) {claims : List (Index .images × Index .typeDefinitions)}
    {names : DefinitionNames} (records : names.Records claims)
    (madeFor : linkage.MadeFor claims state) :
    Keeps linkage.metadata (linkage.claimRange image count start names) state
      fun _ after ↦ linkage.MadeFor (claims ++ Image.claimsFrom image count start) after := by
  induction count generalizing start claims names state with
  | zero => exact .pure (by simpa [Image.claimsFrom] using madeFor)
  | succ count ih =>
    rw [Image.claimsFrom_succ, List.append_cons]
    refine .bind ((keeps_madeFor_claim records madeFor image start).and_yields
      (yields_claim records image start)) ?_
    rintro next middle - - ⟨madeNext, recordsNext⟩
    exact ih (start.offset 1) recordsNext madeNext

/-- The definitions that these images claim have been made. -/
def MadeForImages (linkage : Linkage) (images : List (Index .images × Image))
    (names : DefinitionNames) (state : ResolutionState) : Prop :=
  let claims := images.flatMap fun pair ↦
    Image.claimsFrom pair.1 pair.2.typeCount.toNat pair.2.typeStart
  names.Records claims ∧ linkage.MadeFor claims state

theorem keeps_madeFor_nameDefinitions (isEmpty : state.made = []) :
    Keeps linkage.metadata linkage.nameDefinitions state
      fun _ after ↦ linkage.MadeFor linkage.metadata.claims after := by
  have start : linkage.MadeForImages [] .empty state := ⟨.start, [], .nil, isEmpty⟩
  refine (Keeps.foldlM linkage.MadeForImages ?_ .empty start).mono
    fun _ _ _ _ ⟨_, madeFor⟩ ↦ madeFor
  intro before ⟨index, image⟩ _ _ names state ⟨records, madeFor⟩
  unfold MadeForImages
  rw [List.flatMap_append, List.flatMap_singleton]
  refine ((keeps_madeFor_claimRange index _ _ records madeFor).and_yields
    (yields_claimRange index _ _ records)).mono ?_
  exact fun _ _ _ _ ⟨madeFor, records⟩ ↦ ⟨records, madeFor⟩

end Linkage

namespace ResolutionState

variable {before after state : ResolutionState} {metadata : Metadata}

/-- Of two definitions of a name, the one that has been made first has the lower number. -/
theorem Numbers.numberedBefore_iff (numbers : state.Numbers metadata)
    (distinct : state.made.Nodup) {first second : Naming} (isFirst : first ∈ state.namings)
    (isSecond : second ∈ state.namings) (rivals : metadata.Rivals first second) :
    metadata.NumberedBefore first second ↔
      state.made.idxOf first.definition < state.made.idxOf second.definition := by
  have idxOf_eq (position : Nat) (inside : position < state.namings.length) :
      state.made.idxOf state.namings[position].definition = position := by
    have madeInside : position < state.made.length := by simpa [made] using inside
    have isMade : state.made[position] = state.namings[position].definition := by simp [made]
    rw [← isMade]
    exact distinct.idxOf_getElem position madeInside
  obtain ⟨position, inside, rfl⟩ := List.getElem_of_mem isFirst
  obtain ⟨other, otherInside, rfl⟩ := List.getElem_of_mem isSecond
  have ordered := List.pairwise_iff_getElem.mp numbers.ordered
  rw [idxOf_eq, idxOf_eq]
  obtain isBefore | rfl | isAfter := Nat.lt_trichotomy position other
  · exact iff_of_true (ordered position other inside otherInside isBefore rivals) isBefore
  · exact iff_of_false (fun before ↦ before.asymm rivals before) (Nat.lt_irrefl _)
  · have otherBefore := ordered other position otherInside inside isAfter rivals.symm
    exact iff_of_false (fun before ↦ before.asymm rivals otherBefore) (Nat.not_lt_of_lt isAfter)

theorem ArenaGrows.made_prefix (grows : before.ArenaGrows after) : before.made <+: after.made :=
  (List.IsPrefix.filterMap _ grows).map _

end ResolutionState

namespace Linkage

open Resolve

variable {linkage : Linkage} {options : BuildOptions} {offsets : OffsetSource}
  {catalogue : Catalogue} {state : ResolutionState}

theorem stable_numbers (linkage : Linkage) :
    linkage.Stable (ResolutionState.Numbers linkage.metadata) where
  report _ := numbers_changed (fun _ ↦ rfl) fun _ ↦ rfl
  answer := numbers_answer

/-- A build first makes what the claimed definitions are used as. -/
theorem exists_made_prefix
    (ran : (linkage.catalogue options offsets).run.run .empty = (.ok catalogue, state)) :
    state.Faithful linkage.metadata ∧
      ∃ trees, List.Forall₂ linkage.UsedAs linkage.metadata.claimedDefinitions trees ∧
        (trees.flatMap TypeTree.definitions).eraseDups <+: state.made := by
  have emptyFaithful : ResolutionState.empty.Faithful linkage.metadata :=
    ResolutionState.faithful_empty
  rw [catalogue_eq_afterDefinitions] at ran
  obtain ⟨_, started, ranReport, ranAll⟩ := run_bind_eq_ok_iff.mp ran
  obtain ⟨definitions, named, ranNames, ranRest⟩ := run_bind_eq_ok_iff.mp ranAll
  obtain ⟨startedFaithful, -, -⟩ := (keeps_report _ emptyFaithful).of_run_eq_ok ranReport
  cases ranReport
  obtain ⟨namedFaithful, -, trees, usedAs, isMade⟩ :=
    (keeps_madeFor_nameDefinitions rfl startedFaithful).of_run_eq_ok ranNames
  obtain ⟨faithful, grows⟩ := ((linkage.stable_arenaGrows named).afterDefinitions options offsets
    definitions named ⟨namedFaithful, .refl⟩).of_run_eq_ok ranRest
  exact ⟨faithful, trees, usedAs, isMade ▸ grows.made_prefix⟩

end Linkage

namespace Catalogue

/-- **Which definition gets the lower number.** A build goes through the definitions that images
claim, in the order of the claims, and makes what each of them is used as: first the types that
declare it, then itself, then its arguments. Of two definitions with the same name in the same owner,
the one that is made first gets the lower number. So the one that has been needed after some of the
claims comes before the one that has not. -/
theorem exists_numbered_as_made {metadata : Metadata} {options : BuildOptions}
    {offsets : OffsetSource} {catalogue : Catalogue}
    (built : (buildWith metadata options offsets).result = .ok catalogue) :
    ∃ linkage state trees, Linkage.ofMetadata metadata = .ok linkage ∧
      (linkage.catalogue options offsets).run.run .empty = (.ok catalogue, state) ∧
      List.Forall₂ linkage.UsedAs metadata.claimedDefinitions trees ∧
      (trees.flatMap TypeTree.definitions).eraseDups <+: state.made ∧
      ∀ first ∈ state.namings, ∀ second ∈ state.namings, metadata.Rivals first second →
        (metadata.NumberedBefore first second ↔
          state.made.idxOf first.definition < state.made.idxOf second.definition) ∧
        ∀ earlier later, trees = earlier ++ later →
          first.definition ∈ earlier.flatMap TypeTree.definitions →
          second.definition ∉ earlier.flatMap TypeTree.definitions →
          metadata.NumberedBefore first second := by
  obtain ⟨linkage, linked, rfl, ran⟩ := exists_run built
  have ran := Resolve.run_eq_of_fst_eq ran
  obtain ⟨faithful, trees, usedAs, isPrefix⟩ := Linkage.exists_made_prefix ran
  have numbers := (linkage.stable_numbers.catalogue options offsets .empty
    ResolutionState.numbers_empty).of_run_eq_ok ran
  refine ⟨linkage, _, trees, linked, ran, usedAs, isPrefix, ?_⟩
  intro first isFirst second isSecond rivals
  have before_iff :=
    numbers.numberedBefore_iff (Linkage.nodup_namings faithful) isFirst isSecond rivals
  refine ⟨before_iff, ?_⟩
  rintro earlier later rfl firstNeeded secondNotNeeded
  rw [List.flatMap_append, List.eraseDups_append] at isPrefix
  have inside_iff := ((List.prefix_append _ _).trans isPrefix).mem_iff_idxOf_lt_length
  have firstInside := (inside_iff first.definition).mp (List.mem_eraseDups.mpr firstNeeded)
  have secondOutside :=
    (not_congr (inside_iff second.definition)).mp (mt List.mem_eraseDups.mp secondNotNeeded)
  exact before_iff.mpr (by omega)

end Catalogue

/-- Two classes of one name, the second of which declares the class that is claimed first. -/
def Metadata.nestlings : Metadata :=
  .ofDefinitions
    [{ TypeDefinition.named "" "Inner" with declaringType := ⟨0⟩ }, .named "Demo" "Foo",
      .named "Demo" "Foo"]
    [] [(.classType, .definition ⟨2⟩)] []

namespace Catalogue

/-- The declaring class is made first, then the class in it, and then the other one. -/
theorem exists_catalogue_nestlings : ∃ linkage catalogue state,
    Linkage.ofMetadata .nestlings = .ok linkage ∧
      (linkage.catalogue .default Metadata.nestlings.fieldOffset).run.run .empty =
        (.ok catalogue, state) ∧
      catalogue.structs.map (·.typeName) = ["Demo.Foo.Inner", "Demo.Foo_1", "Demo.Foo"] ∧
      state.namings = [⟨⟨2⟩, .inNamespace "Demo", "Foo"⟩, ⟨⟨0⟩, .inType ⟨0⟩, "Inner"⟩,
        ⟨⟨1⟩, .inNamespace "Demo", "Foo_1"⟩] := by
  have isShown : (Linkage.ofMetadata .nestlings).toOption.map (fun linkage ↦
      let outcome := (linkage.catalogue .default Metadata.nestlings.fieldOffset).run.run .empty
      (outcome.1.toOption.map fun catalogue ↦ catalogue.structs.map (·.typeName),
        outcome.2.namings)) =
      some (some ["Demo.Foo.Inner", "Demo.Foo_1", "Demo.Foo"],
        [⟨⟨2⟩, .inNamespace "Demo", "Foo"⟩, ⟨⟨0⟩, .inType ⟨0⟩, "Inner"⟩,
          ⟨⟨1⟩, .inNamespace "Demo", "Foo_1"⟩]) := by
    decide +kernel
  cases linked : Linkage.ofMetadata .nestlings with
  | error error =>
    rw [linked] at isShown
    exact nomatch isShown
  | ok linkage =>
    rw [linked] at isShown
    obtain ⟨areNames, areNamings⟩ := Prod.mk.inj (Option.some.inj isShown)
    obtain ⟨catalogue, ran, names⟩ := exists_of_shown areNames
    exact ⟨linkage, catalogue, _, rfl, Resolve.run_eq_of_fst_eq ran, names, areNamings⟩

/-- The class that is claimed last gets the name without a number. -/
theorem nestlings_exists_numbered_as_made : ∃ catalogue linkage trees,
    (buildWith .nestlings .default Metadata.nestlings.fieldOffset).result = .ok catalogue ∧
      Linkage.ofMetadata .nestlings = .ok linkage ∧
      List.Forall₂ linkage.UsedAs [⟨0⟩, ⟨1⟩, ⟨2⟩] trees ∧
      (trees.flatMap TypeTree.definitions).eraseDups <+: [⟨2⟩, ⟨0⟩, ⟨1⟩] ∧
      Metadata.nestlings.NumberedBefore ⟨⟨2⟩, .inNamespace "Demo", "Foo"⟩
        ⟨⟨1⟩, .inNamespace "Demo", "Foo_1"⟩ := by
  obtain ⟨linkage, catalogue, state, linked, ran, -, areNamings⟩ := exists_catalogue_nestlings
  have built : (buildWith .nestlings .default Metadata.nestlings.fieldOffset).result =
      .ok catalogue := by
    unfold buildWith
    rw [linked]
    exact congrArg Prod.fst ran
  obtain ⟨_, _, trees, otherLinked, otherRan, usedAs, isPrefix, numbered⟩ :=
    exists_numbered_as_made built
  cases linked.symm.trans otherLinked
  cases ran.symm.trans otherRan
  have isMade : state.made = [⟨2⟩, ⟨0⟩, ⟨1⟩] := by
    rw [ResolutionState.made, areNamings]
    rfl
  have areClaimed : Metadata.nestlings.claimedDefinitions = [⟨0⟩, ⟨1⟩, ⟨2⟩] := by decide +kernel
  rw [areClaimed] at usedAs
  rw [isMade] at isPrefix numbered
  refine ⟨catalogue, linkage, trees, built, linked, usedAs, isPrefix,
    (numbered _ ?_ _ ?_ ?_).1.mpr ?_⟩
  · simp [areNamings]
  · simp [areNamings]
  · exact ⟨rfl, "Foo", by decide +kernel, by decide +kernel⟩
  · decide

end Catalogue

/-- Of two claimed definitions with the same name in the same owner, the one that is claimed first
has the lower number. -/
def ResolutionState.NumbersByClaims (state : ResolutionState) (metadata : Metadata) : Prop :=
  ∀ first ∈ state.namings, ∀ second ∈ state.namings, metadata.Rivals first second →
    second.definition ∈ metadata.claimedDefinitions →
    metadata.claimedDefinitions.idxOf first.definition <
      metadata.claimedDefinitions.idxOf second.definition →
    metadata.NumberedBefore first second

namespace Catalogue

/-- The first class that is claimed under the name gets a number, and the second one none. -/
theorem nestlings_not_numbersByClaims : ∃ linkage catalogue state,
    Linkage.ofMetadata .nestlings = .ok linkage ∧
      (linkage.catalogue .default Metadata.nestlings.fieldOffset).run.run .empty =
        (.ok catalogue, state) ∧
      catalogue.structs.map (·.typeName) = ["Demo.Foo.Inner", "Demo.Foo_1", "Demo.Foo"] ∧
      ¬state.NumbersByClaims .nestlings := by
  obtain ⟨linkage, catalogue, state, linked, ran, names, areNamings⟩ := exists_catalogue_nestlings
  refine ⟨linkage, catalogue, state, linked, ran, names, fun numbersByClaims ↦ ?_⟩
  have rivals : Metadata.nestlings.Rivals ⟨⟨1⟩, .inNamespace "Demo", "Foo_1"⟩
      ⟨⟨2⟩, .inNamespace "Demo", "Foo"⟩ :=
    ⟨rfl, "Foo", by decide +kernel, by decide +kernel⟩
  obtain ⟨name, less, more, isName, inOrder, -, isMore⟩ := numbersByClaims _ (by simp [areNamings])
    _ (by simp [areNamings]) rivals (by decide +kernel) (by decide +kernel)
  have isFoo : Metadata.nestlings.baseName? ⟨1⟩ = some "Foo" := by decide +kernel
  obtain rfl := Option.some.inj (isFoo.symm.trans isName)
  have isZero : 0 = more := NamePool.numbered_injective "Foo" isMore
  omega

end Catalogue

end ManagedLayout

import ManagedLayout.Proofs.LastEntries
import ManagedLayout.Reference.Usage

/-!
# The places in code that use methods

A list of uses names places in any order, and may name one of them more than once. The sites come
out in the order of their places, once for the methods and once for their instantiations, and of
several uses of a place the last one of its kind counts. If a place has no address or one below the
image base, there are no sites at all, and the first such place in this order is reported.
-/

namespace ManagedLayout

/-- Whether a pair is about a method or an instantiation of one. -/
def UsagePair.usesMethod (revision : Revision) (pair : UsagePair) : Bool :=
  let usage := (EncodedMethod.ofWord revision pair.source).usage
  usage == EncodedMethod.definitionUsage || usage == EncodedMethod.instantiationUsage

namespace Metadata

/-- The uses of one kind, in the order of the table: the place and the target of each. -/
def usesOf (metadata : Metadata) (usage : UInt32) (target : UInt32 → MethodReference) :
    List (UInt32 × MethodReference) :=
  metadata.declarations.usagePairs.filterMap fun pair ↦
    let encoded := EncodedMethod.ofWord metadata.revision pair.source
    if encoded.usage = usage then some (pair.destination, target encoded.index) else none

/-- The uses of methods. -/
def definitionUses (metadata : Metadata) : List (UInt32 × MethodReference) :=
  metadata.usesOf EncodedMethod.definitionUsage (.definition ⟨·⟩)

/-- The uses of instantiated methods. -/
def instantiationUses (metadata : Metadata) : List (UInt32 × MethodReference) :=
  metadata.usesOf EncodedMethod.instantiationUsage (.instantiation ⟨·⟩)

/-- A dump with other uses. -/
def withUsagePairs (metadata : Metadata) (pairs : List UsagePair) : Metadata :=
  { metadata with declarations := { metadata.declarations with usagePairs := pairs } }

/-- A place has an address, which is not below the image base. -/
def HasPlace (metadata : Metadata) (place : UInt32) : Prop :=
  ∃ address, metadata.registrations.types.usageAddresses[place.toNat]? = some address ∧
    metadata.registrations.imageBase ≤ address

/-- What is wrong with a place. -/
inductive Misplaced (metadata : Metadata) (place : UInt32) : LayoutError → Prop
  | outside (missing : metadata.registrations.types.usageAddresses.size ≤ place.toNat) :
    Misplaced metadata place (.outOfRange .usageAddresses place)
  | below {address : UInt64}
    (found : metadata.registrations.types.usageAddresses[place.toNat]? = some address)
    (isBelow : address < metadata.registrations.imageBase) :
    Misplaced metadata place (.badHandle .usageAddresses address)

/-- A site is that of a use: it has the target, and how far the address is from the image base. -/
structure IsSiteOf (metadata : Metadata) (use : UInt32 × MethodReference) (site : UsageSite) :
    Prop where
  target : site.target = use.2
  address : ∃ address,
    metadata.registrations.types.usageAddresses[use.1.toNat]? = some address ∧
      metadata.registrations.imageBase.toNat + site.address.toNat = address.toNat

variable {metadata : Metadata}

theorem usageSite_eq_ok_iff {use : UInt32 × MethodReference} {site : UsageSite} :
    metadata.usageSite use.1 use.2 = .ok site ↔ metadata.IsSiteOf use site := by
  unfold usageSite
  constructor
  · intro found
    split at found
    next => exact nomatch found
    next address isAddress =>
      split at found
      next isAbove =>
        obtain rfl := Except.ok.inj found
        refine ⟨rfl, address, isAddress, ?_⟩
        rw [UInt64.toNat_sub_of_le _ _ isAbove]
        exact Nat.add_sub_of_le (UInt64.le_iff_toNat_le.mp isAbove)
      next => exact nomatch found
  · rintro ⟨target, address, isAddress, sum⟩
    have isAbove : metadata.registrations.imageBase ≤ address :=
      UInt64.le_iff_toNat_le.mpr (by omega)
    rw [isAddress]
    simp only [if_pos isAbove, Except.ok.injEq]
    cases site with
    | mk distance _ =>
      obtain rfl := target
      congr
      rw [← UInt64.toNat_inj, UInt64.toNat_sub_of_le _ _ isAbove]
      exact Nat.sub_eq_of_eq_add' sum.symm

theorem exists_usageSite_iff {place : UInt32} {target : MethodReference} :
    (∃ site, metadata.usageSite place target = .ok site) ↔ metadata.HasPlace place := by
  unfold usageSite HasPlace
  cases metadata.registrations.types.usageAddresses[place.toNat]? with
  | none => simp
  | some address =>
    by_cases isAbove : metadata.registrations.imageBase ≤ address <;> simp [isAbove]

theorem misplaced_of_usageSite {place : UInt32} {target : MethodReference} {error : LayoutError}
    (failed : metadata.usageSite place target = .error error) : metadata.Misplaced place error := by
  unfold usageSite at failed
  split at failed
  next missing =>
    obtain rfl := Except.error.inj failed
    exact .outside (Array.getElem?_eq_none_iff.mp missing)
  next address found =>
    split at failed
    next => exact nomatch failed
    next notAbove =>
      obtain rfl := Except.error.inj failed
      exact .below found (UInt64.not_le.mp notAbove)

theorem usagesOf_eq (usage : UInt32) (target : UInt32 → MethodReference) :
    metadata.usagesOf usage target = (treeOf (metadata.usesOf usage target)).toList := by
  rw [usagesOf, treeOf, usesOf, List.foldl_filterMap]
  congr
  funext tree pair
  grind

/-- The uses of one kind are listed by their places; the last one of each place counts. -/
theorem listsLast_usagesOf (usage : UInt32) (target : UInt32 → MethodReference) :
    ListsLast (metadata.usesOf usage target) (metadata.usagesOf usage target) := by
  rw [usagesOf_eq]
  exact listsLast_treeOf _

/-- Only the uses of methods and of their instantiations count. -/
theorem usesOf_withUsagePairs {pairs : List UsagePair} {usage : UInt32}
    (isMethod : usage = EncodedMethod.definitionUsage ∨ usage = EncodedMethod.instantiationUsage)
    (same : pairs.filter (·.usesMethod metadata.revision) =
      metadata.declarations.usagePairs.filter (·.usesMethod metadata.revision))
    (target : UInt32 → MethodReference) :
    (metadata.withUsagePairs pairs).usesOf usage target = metadata.usesOf usage target := by
  let use? (pair : UsagePair) : Option (UInt32 × MethodReference) :=
    let encoded := EncodedMethod.ofWord metadata.revision pair.source
    if encoded.usage = usage then some (pair.destination, target encoded.index) else none
  -- A pair that is passed over is not of this kind, so it does not matter whether it is there.
  have ofFiltered (list : List UsagePair) :
      (list.filter (·.usesMethod metadata.revision)).filterMap use? = list.filterMap use? := by
    rw [List.filterMap_filter]
    congr
    funext pair
    simp only [UsagePair.usesMethod, use?]
    grind
  calc
    pairs.filterMap use? = (pairs.filter (·.usesMethod metadata.revision)).filterMap use? :=
      (ofFiltered pairs).symm
    _ = metadata.declarations.usagePairs.filterMap use? := by rw [same, ofFiltered]

theorem usagesOf_withUsagePairs {pairs : List UsagePair} {usage : UInt32}
    (isMethod : usage = EncodedMethod.definitionUsage ∨ usage = EncodedMethod.instantiationUsage)
    (same : pairs.filter (·.usesMethod metadata.revision) =
      metadata.declarations.usagePairs.filter (·.usesMethod metadata.revision))
    (target : UInt32 → MethodReference) :
    (metadata.withUsagePairs pairs).usagesOf usage target = metadata.usagesOf usage target := by
  rw [usagesOf_eq, usagesOf_eq, usesOf_withUsagePairs isMethod same]

/-- The uses that come to sites, in the order of the sites. -/
def siteUses (metadata : Metadata) : List (UInt32 × MethodReference) :=
  metadata.usagesOf EncodedMethod.definitionUsage (.definition ⟨·⟩) ++
    metadata.usagesOf EncodedMethod.instantiationUsage (.instantiation ⟨·⟩)

theorem siteUses_withUsagePairs {pairs : List UsagePair}
    (same : pairs.filter (·.usesMethod metadata.revision) =
      metadata.declarations.usagePairs.filter (·.usesMethod metadata.revision)) :
    (metadata.withUsagePairs pairs).siteUses = metadata.siteUses := by
  rw [siteUses, usagesOf_withUsagePairs (.inl rfl) same, usagesOf_withUsagePairs (.inr rfl) same]
  rfl

theorem usageSites_eq_mapM (lists : metadata.version.listsUsages = true) :
    metadata.usageSites = metadata.siteUses.mapM fun use ↦ metadata.usageSite use.1 use.2 := by
  rw [usageSites, if_pos lists]
  rfl

theorem exists_use_iff {usage place : UInt32} {target : UInt32 → MethodReference} :
    (∃ use ∈ metadata.usesOf usage target, use.1 = place) ↔
      ∃ pair ∈ metadata.declarations.usagePairs,
        (EncodedMethod.ofWord metadata.revision pair.source).usage = usage ∧
          pair.destination = place := by
  simp [usesOf]

/-- The places of the uses that come to sites are those of the pairs about methods. -/
theorem exists_siteUse_iff {place : UInt32} :
    (∃ use ∈ metadata.siteUses, use.1 = place) ↔
      ∃ pair ∈ metadata.declarations.usagePairs, pair.usesMethod metadata.revision = true ∧
        pair.destination = place := by
  have ofKind (usage : UInt32) (target : UInt32 → MethodReference) :
      (∃ use ∈ metadata.usagesOf usage target, use.1 = place) ↔
        ∃ pair ∈ metadata.declarations.usagePairs,
          (EncodedMethod.ofWord metadata.revision pair.source).usage = usage ∧
            pair.destination = place :=
    (metadata.listsLast_usagesOf usage target).exists_listed_iff.trans exists_use_iff
  simp only [siteUses, List.mem_append, or_and_right, exists_or, ofKind, UsagePair.usesMethod]
  simp only [Bool.or_eq_true, beq_iff_eq, or_and_right, and_or_left, exists_or]

section Listed

variable (lists : metadata.version.listsUsages = true)

include lists

/-- If every place has an address, each use comes to a site. -/
theorem exists_usageSites_of_hasPlace
    (allPlaced : ∀ pair ∈ metadata.declarations.usagePairs,
      pair.usesMethod metadata.revision = true → metadata.HasPlace pair.destination) :
    ∃ sites, metadata.usageSites = .ok sites ∧
      List.Forall₂ metadata.IsSiteOf metadata.siteUses sites := by
  have allFound : ∀ use ∈ metadata.siteUses, ∃ site,
      metadata.usageSite use.1 use.2 = .ok site := by
    intro use mem
    obtain ⟨pair, isPair, usesMethod, same⟩ := exists_siteUse_iff.mp ⟨use, mem, rfl⟩
    exact exists_usageSite_iff.mpr (same ▸ allPlaced pair isPair usesMethod)
  obtain ⟨sites, areSites⟩ := exists_mapM_eq_ok allFound
  refine ⟨sites, (usageSites_eq_mapM lists).trans areSites, ?_⟩
  exact (lookup_mapM_eq_ok.mp areSites).imp fun _ _ ↦ usageSite_eq_ok_iff.mp

/-- If some place has none, the first use of such a place is reported. -/
theorem exists_misplaced_of_not_hasPlace
    (notPlaced : ∃ pair ∈ metadata.declarations.usagePairs,
      pair.usesMethod metadata.revision = true ∧ ¬metadata.HasPlace pair.destination) :
    ∃ before use after error, metadata.siteUses = before ++ use :: after ∧
      (∀ other ∈ before, metadata.HasPlace other.1) ∧ metadata.Misplaced use.1 error ∧
      metadata.usageSites = .error error := by
  obtain ⟨pair, isPair, usesMethod, notPlaced⟩ := notPlaced
  obtain ⟨use, mem, same⟩ := exists_siteUse_iff.mpr ⟨pair, isPair, usesMethod, rfl⟩
  have areResults := usageSites_eq_mapM lists
  cases result : metadata.usageSites with
  | ok sites =>
    obtain ⟨site, isSite⟩ := lookup_mapM_mem (areResults.symm.trans result) mem
    exact absurd (same ▸ exists_usageSite_iff.mp ⟨site, isSite⟩) notPlaced
  | error error =>
    obtain ⟨before, first, after, split, placed, failed⟩ :=
      exists_of_mapM_eq_error (areResults.symm.trans result)
    exact ⟨before, first, after, error, split,
      fun other mem ↦ exists_usageSite_iff.mp (placed other mem), misplaced_of_usageSite failed, rfl⟩

theorem usageSites_withUsagePairs {pairs : List UsagePair}
    (same : pairs.filter (·.usesMethod metadata.revision) =
      metadata.declarations.usagePairs.filter (·.usesMethod metadata.revision)) :
    (metadata.withUsagePairs pairs).usageSites = metadata.usageSites := by
  have areResults := (metadata.withUsagePairs pairs).usageSites_eq_mapM lists
  rw [siteUses_withUsagePairs same] at areResults
  exact areResults.trans (usageSites_eq_mapM lists).symm

end Listed

/-- **The sites of a dump that lists uses.** The uses of methods are listed before those of
instantiations, either of them by their places, and the last use of each place counts. If all places
have an address that is not below the image base, each use comes to one site; otherwise the first one
that is misplaced is reported. Pairs of other kinds do not matter. -/
theorem exists_uses_usageSites (metadata : Metadata) (isLate : ⟨16, 0⟩ < metadata.version)
    (isEarly : metadata.version < ⟨27, 0⟩) :
    ∃ definitions instantiations,
      ListsLast metadata.definitionUses definitions ∧
      ListsLast metadata.instantiationUses instantiations ∧
      ((∀ pair ∈ metadata.declarations.usagePairs, pair.usesMethod metadata.revision = true →
          metadata.HasPlace pair.destination) →
        ∃ sites, metadata.usageSites = .ok sites ∧
          List.Forall₂ metadata.IsSiteOf (definitions ++ instantiations) sites) ∧
      ((∃ pair ∈ metadata.declarations.usagePairs, pair.usesMethod metadata.revision = true ∧
          ¬metadata.HasPlace pair.destination) →
        ∃ before use after error, definitions ++ instantiations = before ++ use :: after ∧
          (∀ other ∈ before, metadata.HasPlace other.1) ∧ metadata.Misplaced use.1 error ∧
          metadata.usageSites = .error error) ∧
      ∀ pairs, pairs.filter (·.usesMethod metadata.revision) =
          metadata.declarations.usagePairs.filter (·.usesMethod metadata.revision) →
        (metadata.withUsagePairs pairs).usageSites = metadata.usageSites := by
  have lists : metadata.version.listsUsages = true := by simp [Version.listsUsages, isLate, isEarly]
  exact ⟨_, _, metadata.listsLast_usagesOf EncodedMethod.definitionUsage (.definition ⟨·⟩),
    metadata.listsLast_usagesOf EncodedMethod.instantiationUsage (.instantiation ⟨·⟩),
    exists_usageSites_of_hasPlace lists, exists_misplaced_of_not_hasPlace lists,
    fun _ ↦ usageSites_withUsagePairs lists⟩

/-- A dump with uses of two places, one of which is named three times, and a pair of another
kind. -/
def scattered : Metadata where
  version := ⟨24, 1⟩
  declarations := { Declarations.empty with
    usagePairs := [⟨2, 0x60000001⟩, ⟨0, 0xA0000000⟩, ⟨2, 0xC0000003⟩, ⟨1, 0x60000000⟩,
      ⟨2, 0x60000005⟩] }
  registrations := { Registrations.empty with
    types := { TypeRegistration.empty with usageAddresses := #[0x10000, 0x10400, 0x10800] }
    imageBase := 0x10000 }

theorem scattered_exists_uses_usageSites :
    ∃ definitions instantiations,
      ListsLast scattered.definitionUses definitions ∧
      ListsLast scattered.instantiationUses instantiations ∧
      List.Forall₂ scattered.IsSiteOf (definitions ++ instantiations)
        [⟨0x400, .definition ⟨0⟩⟩, ⟨0x800, .definition ⟨5⟩⟩, ⟨0x800, .instantiation ⟨3⟩⟩] := by
  have areSites : scattered.usageSites =
      .ok [⟨0x400, .definition ⟨0⟩⟩, ⟨0x800, .definition ⟨5⟩⟩, ⟨0x800, .instantiation ⟨3⟩⟩] := by
    decide +kernel
  obtain ⟨definitions, instantiations, listsDefinitions, listsInstantiations, placed, misplaced,
    -⟩ := exists_uses_usageSites scattered (by decide) (by decide)
  have allPlaced : ∀ pair ∈ scattered.declarations.usagePairs,
      pair.usesMethod scattered.revision = true → scattered.HasPlace pair.destination := by
    by_contra notAll
    push Not at notAll
    obtain ⟨_, _, _, _, -, -, -, failed⟩ := misplaced notAll
    rw [areSites] at failed
    exact nomatch failed
  obtain ⟨sites, areTheSites, areSitesOf⟩ := placed allPlaced
  rw [areSites] at areTheSites
  obtain rfl := Except.ok.inj areTheSites
  exact ⟨definitions, instantiations, listsDefinitions, listsInstantiations, areSitesOf⟩

/-- If the image base is above all places, the first place of a method is reported, which is not that
of the first pair. -/
example : { scattered with registrations.imageBase := 0x20000 }.usageSites =
    .error (.badHandle .usageAddresses 0x10400) := by
  decide +kernel

end Metadata

end ManagedLayout

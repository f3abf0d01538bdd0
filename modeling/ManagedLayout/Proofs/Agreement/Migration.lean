import ManagedLayout.Proofs.Agreement.Build
import ManagedLayout.Proofs.Catalogue.Closed
import Mathlib.Tactic.IntervalCases

/-!
# Migration to version 27

From version 27 on, encoded method indices have a flag bit, generic classes refer to their
definitions by types, and no dump lists the places in code that use a method. A dump of version 24.2
or later is rewritten for a version from 27 on by moving the indices in the virtual tables and by
finding a type for the definition of each generic class. If it lists no use of a method, and no
index is too large to be moved, the build of the new dump has the same result.
-/

namespace ManagedLayout

namespace EncodedMethod

/-- An encoded method index as it is written from version 27 on. The index is moved to make room for
the flag. -/
def withFlag (word : UInt32) (flag : Bool) : UInt32 :=
  word &&& 0xE0000000 ||| (word &&& 0x1FFFFFFF) <<< (1 : UInt32) ||| flag.toUInt32

variable {word : UInt32}

theorem getElem_of_small (small : word &&& 0x1FFFFFFF < 0x10000000) :
    word.toBitVec[28] = false := by
  have isSmall : (word &&& 0x1FFFFFFF).toNat < 2 ^ 28 := small
  have inMask : (0x1FFFFFFF : UInt32).toNat.testBit 28 = true := by decide
  have cleared := Nat.testBit_lt_two_pow isSmall
  rw [UInt32.toNat_and, Nat.testBit_and, inMask, Bool.and_true] at cleared
  exact cleared

theorem usage_withFlag (flag : Bool) (small : word &&& 0x1FFFFFFF < 0x10000000) :
    withFlag word flag >>> 29 = word >>> 29 := by
  -- Bit 28 is the only one that moves into the usage.
  have cleared := getElem_of_small small
  unfold withFlag
  apply UInt32.toBitVec_inj.mp
  apply BitVec.eq_of_getLsbD_eq
  intro position inside
  cases flag <;> interval_cases position <;> simp [cleared]

theorem index_withFlag (flag : Bool) (small : word &&& 0x1FFFFFFF < 0x10000000) :
    (withFlag word flag &&& 0x1FFFFFFE) >>> 1 = word &&& 0x1FFFFFFF := by
  -- Bit 28 is the only one of the index that does not come back.
  have cleared := getElem_of_small small
  unfold withFlag
  apply UInt32.toBitVec_inj.mp
  apply BitVec.eq_of_getLsbD_eq
  intro position inside
  cases flag <;> interval_cases position <;> simp [cleared]

/-- The flag aside, the word means the same as before. -/
theorem ofWord_withFlag {revision : Revision} (flag : Bool)
    (small : word &&& 0x1FFFFFFF < 0x10000000) (noFlag : revision ≠ .handles) :
    ofWord .handles (withFlag word flag) = ofWord revision word := by
  cases revision with
  | legacy | tokenContexts =>
    simp only [ofWord, usage_withFlag flag small, index_withFlag flag small]
  | handles => contradiction

end EncodedMethod

/-- Whether the data of a type reference is an address. -/
def TypeData.isHandle : TypeData → Bool
  | definitionHandle _ | parameterHandle _ => true
  | none | definition _ | type _ | parameter _ | genericClass _ | array _ => false

/-- The generic class refers to its definition by a type as well, or does not refer to one. -/
def GenericClass.RefersByType (metadata : Metadata) (record other : GenericClass) : Prop :=
  ∃ type, other = { record with type } ∧
    match record.definition.present? with
    | some definition => metadata.definitionOf type = .ok definition
    | none => type = .absent

namespace Metadata

/-- The dump in another version, with other virtual tables and generic classes. -/
def rewritten (metadata : Metadata) (version : Version)
    (vtableMethods : Table .vtableMethods UInt32)
    (genericClasses : Table .genericClasses GenericClass) : Metadata where
  version
  declarations := { metadata.declarations with vtableMethods }
  registrations := { metadata.registrations with
    types := { metadata.registrations.types with genericClasses } }

/-- A dump of a version from 24.2 on, before 27, is rewritten for a version from 27 on. -/
structure Migrates (metadata : Metadata) (version : Version)
    (vtableMethods : Table .vtableMethods UInt32)
    (genericClasses : Table .genericClasses GenericClass) : Prop where
  notBefore : ⟨24, 2⟩ ≤ metadata.version
  before : metadata.version < ⟨27, 0⟩
  after : ⟨27, 0⟩ ≤ version
  /-- No type refers by address. -/
  byIndex : ∀ reference ∈ metadata.registrations.types.types.toList,
    reference.data.isHandle = false
  /-- No entry of the usage table is for a method or an instantiation of one. -/
  unused : ∀ pair ∈ metadata.declarations.usagePairs,
    (EncodedMethod.ofWord metadata.revision pair.source).usage ≠ EncodedMethod.definitionUsage ∧
      (EncodedMethod.ofWord metadata.revision pair.source).usage ≠ EncodedMethod.instantiationUsage
  /-- Every encoded method index gets some flag. It must not be too large to be moved. -/
  vtableMethods : metadata.declarations.vtableMethods.Related
    (fun word other ↦ word &&& 0x1FFFFFFF < 0x10000000 ∧
      ∃ flag, other = EncodedMethod.withFlag word flag) vtableMethods
  genericClasses : metadata.registrations.types.genericClasses.Related
    (GenericClass.RefersByType metadata) genericClasses

theorem usagesOf_eq_nil {metadata : Metadata} {usage : UInt32} (target : UInt32 → MethodReference)
    (unused : ∀ pair ∈ metadata.declarations.usagePairs,
      (EncodedMethod.ofWord metadata.revision pair.source).usage ≠ usage) :
    metadata.usagesOf usage target = [] := by
  unfold usagesOf
  dsimp only
  generalize metadata.declarations.usagePairs = pairs at unused ⊢
  induction pairs with
  | nil => rfl
  | cons pair rest ih =>
    rw [List.foldl_cons, if_neg (unused pair List.mem_cons_self)]
    exact ih fun other mem ↦ unused other (List.mem_cons_of_mem pair mem)

namespace Migrates

variable {metadata : Metadata} {version : Version} {vtableMethods : Table .vtableMethods UInt32}
  {genericClasses : Table .genericClasses GenericClass}
  (migrates : metadata.Migrates version vtableMethods genericClasses)
include migrates

theorem revision_eq : metadata.revision = .tokenContexts := by
  have noHandles : ¬(⟨27, 0⟩ : Version) ≤ metadata.version := not_not_intro migrates.before
  rw [revision, Version.revision, if_neg noHandles, if_pos migrates.notBefore]

theorem revision_rewritten :
    (metadata.rewritten version vtableMethods genericClasses).revision = .handles :=
  if_pos migrates.after

theorem bind_typeReference_eq {Found : Type} {next other : TypeReference → Except LayoutError Found}
    (type : Index .types)
    (same : ∀ reference, reference.data.isHandle = false → next reference = other reference) :
    metadata.typeReference type >>= next = metadata.typeReference type >>= other := by
  cases isReference : metadata.typeReference type with
  | error error => rfl
  | ok reference =>
    have found := Table.mem_toList_of_get? (Table.fetch_eq_ok_iff.mp isReference)
    exact same reference (migrates.byIndex reference found)

theorem definitionOf_eq (type : Index .types) :
    metadata.definitionOf type =
      (metadata.rewritten version vtableMethods genericClasses).definitionOf type := by
  apply migrates.bind_typeReference_eq
  rintro ⟨data, _, _, _, _, _⟩ noHandle
  cases data with
  | definitionHandle | parameterHandle => contradiction
  | none | definition | type | parameter | genericClass | array => rfl

theorem parameterOf_eq (type : Index .types) :
    metadata.parameterOf type =
      (metadata.rewritten version vtableMethods genericClasses).parameterOf type := by
  apply migrates.bind_typeReference_eq
  rintro ⟨data, _, _, _, _, _⟩ noHandle
  cases data with
  | definitionHandle | parameterHandle => contradiction
  | none | definition | type | parameter | genericClass | array => rfl

/-- Without addresses, a type that refers to a definition does so by the index of a record. -/
theorem exists_typeDefinition {type : Index .types} {definition : Index .typeDefinitions}
    (isDefinition : metadata.definitionOf type = .ok definition) :
    type.present? = some type ∧ ∃ record, metadata.typeDefinition definition = .ok record := by
  obtain ⟨reference, isReference, found⟩ := lookup_bind_eq_ok.mp isDefinition
  have isRecord := Table.fetch_eq_ok_iff.mp isReference
  constructor
  · rw [Index.present?_eq_some_iff]
    refine ⟨rfl, ?_⟩
    rintro rfl
    rw [Table.get?_absent] at isRecord
    exact nomatch isRecord
  · have noHandle := migrates.byIndex reference (Table.mem_toList_of_get? isRecord)
    cases isData : reference.data with
    | definition index =>
      rw [isData] at found
      obtain ⟨record, isRecord, same⟩ := lookup_bind_eq_ok.mp found
      obtain rfl := lookup_pure_eq_ok.mp same
      exact ⟨record, isRecord⟩
    | definitionHandle =>
      rw [isData] at noHandle
      exact nomatch noHandle
    | none | type | parameter | parameterHandle | genericClass | array =>
      rw [isData] at found
      exact (lookup_throw_ne_ok found).elim

theorem openDefinition?_eq (index : Index .genericClasses) :
    metadata.openDefinition? index =
      (metadata.rewritten version vtableMethods genericClasses).openDefinition? index := by
  apply (migrates.genericClasses.fetch index).bind_eq
  rintro record _ ⟨type, rfl, sameDefinition⟩
  rw [migrates.revision_eq, migrates.revision_rewritten]
  dsimp only
  cases isPresent : record.definition.present? with
  | none =>
    rw [isPresent] at sameDefinition
    subst sameDefinition
    rfl
  | some definition =>
    rw [isPresent] at sameDefinition
    obtain ⟨typeIsPresent, found, isFound⟩ := migrates.exists_typeDefinition sameDefinition
    dsimp only
    rw [typeIsPresent, isFound]
    dsimp only
    rw [← migrates.definitionOf_eq, sameDefinition]
    rfl

theorem vtableMethod_eq (entry : Index .vtableMethods) :
    metadata.vtableMethod entry =
      (metadata.rewritten version vtableMethods genericClasses).vtableMethod entry := by
  apply (migrates.vtableMethods.fetch entry).bind_eq
  rintro word _ ⟨small, flag, rfl⟩
  have noFlag : metadata.revision ≠ .handles := by
    rw [migrates.revision_eq]
    nofun
  rw [migrates.revision_rewritten, EncodedMethod.ofWord_withFlag flag small noFlag]
  rfl

theorem usageSites_eq :
    metadata.usageSites = (metadata.rewritten version vtableMethods genericClasses).usageSites := by
  have unlisted : ¬version.listsUsages = true := by
    simp only [Version.listsUsages, decide_eq_true_eq, not_and]
    exact fun _ ↦ migrates.after
  have noSites : (metadata.rewritten version vtableMethods genericClasses).usageSites = .ok [] :=
    usageSites_of_unlisted unlisted
  rw [noSites, usageSites, usagesOf_eq_nil _ fun pair mem ↦ (migrates.unused pair mem).1,
    usagesOf_eq_nil _ fun pair mem ↦ (migrates.unused pair mem).2]
  split <;> rfl

theorem agrees : metadata.Agrees (metadata.rewritten version vtableMethods genericClasses) :=
  { Agrees.refl metadata with
    genericClasses := migrates.genericClasses.mono fun record _ ⟨type, isOther, _⟩ ↦
      ⟨record.definition, type, isOther⟩
    definitionOf := migrates.definitionOf_eq
    parameterOf := migrates.parameterOf_eq
    openDefinition? := migrates.openDefinition?_eq
    vtableMethod := migrates.vtableMethod_eq
    usageSites := migrates.usageSites_eq }

end Migrates

end Metadata

namespace Catalogue

/-- **Migration to version 27.** The build of a dump that is rewritten for a version from 27 on has
the same result as before: the same catalogue, or the same error. -/
theorem result_rewritten {metadata : Metadata} {version : Version}
    {vtableMethods : Table .vtableMethods UInt32}
    {genericClasses : Table .genericClasses GenericClass}
    (migrates : metadata.Migrates version vtableMethods genericClasses) (options : BuildOptions)
    (offsets : OffsetSource) :
    (buildWith metadata options offsets).result =
      (buildWith (metadata.rewritten version vtableMethods genericClasses) options
        offsets).result := by
  apply result_eq_of_agrees
  apply Linkage.Agrees.of_modules migrates.agrees
  · rw [migrates.revision_eq]
    nofun
  · rw [migrates.revision_rewritten]
    nofun
  · rfl

end Catalogue

/-- The shelf and its boxes, in a version that finds runtime generic contexts by token. The shelf
overrides two virtual methods, and there is a type for the definition of the boxes. -/
def Metadata.shelves : Metadata :=
  let shelf : TypeDefinition := { TypeDefinition.named "Demo" "Shelf" with
    fieldStart := ⟨0⟩, fieldCount := 1, vtableStart := ⟨0⟩, vtableCount := 2 }
  let box : TypeDefinition := { TypeDefinition.named "Demo" "Box`1" with parent := ⟨1⟩ }
  let dump := Metadata.ofDefinitions [shelf, box] [⟨"boxes", ⟨3⟩, 0⟩]
    [(.int32, .none), (.classType, .definition ⟨0⟩), (.genericInstance, .genericClass ⟨0⟩),
      (.vector, .type ⟨2⟩), (.classType, .definition ⟨1⟩)]
    [(⟨1⟩, [⟨0⟩])]
  { dump with
    version := ⟨24, 5⟩
    declarations := { dump.declarations with
      methods := .ofList [⟨"Open", ⟨0⟩, .absent, 0, 0, 4, .absent, 0⟩,
        ⟨"Close", ⟨0⟩, .absent, 0, 0, 3, .absent, 0⟩]
      vtableMethods := .ofList [0x60000000, 0x60000001]
      usagePairs := [⟨0, 0x20000000⟩] }
    registrations := { dump.registrations with code := ⟨[⟨"main.dll", [], .empty⟩]⟩ } }

namespace Catalogue

set_option maxRecDepth 10000 in
/-- The words for the two methods get different flags. -/
theorem shelves_result_rewritten :
    Metadata.shelves.Migrates ⟨29, 0⟩ (.ofList [0x60000001, 0x60000002])
        (.ofList [⟨⟨1⟩, ⟨4⟩, ⟨⟨0⟩, .absent⟩⟩]) ∧
      ∃ catalogue,
        (buildWith .shelves .default Metadata.shelves.fieldOffset).result = .ok catalogue ∧
        catalogue.structs.map (fun layout ↦ (layout.typeName, layout.virtualMethods)) =
          [("Demo.Shelf", ["_3_Close", "_4_Open"]), ("Demo.Box", []), ("Demo.Box<int>", [])] ∧
        (buildWith (Metadata.shelves.rewritten ⟨29, 0⟩ (.ofList [0x60000001, 0x60000002])
            (.ofList [⟨⟨1⟩, ⟨4⟩, ⟨⟨0⟩, .absent⟩⟩])) .default Metadata.shelves.fieldOffset).result =
          .ok catalogue := by
  have isShown :
      (buildWith .shelves .default Metadata.shelves.fieldOffset).result.toOption.map
        (fun catalogue ↦
          catalogue.structs.map fun layout ↦ (layout.typeName, layout.virtualMethods)) =
      some [("Demo.Shelf", ["_3_Close", "_4_Open"]), ("Demo.Box", []), ("Demo.Box<int>", [])] := by
    decide +kernel
  have migrates : Metadata.shelves.Migrates ⟨29, 0⟩ (.ofList [0x60000001, 0x60000002])
      (.ofList [⟨⟨1⟩, ⟨4⟩, ⟨⟨0⟩, .absent⟩⟩]) := {
    notBefore := by decide
    before := by decide
    after := by decide
    byIndex := by decide
    unused := by decide
    vtableMethods := .cons ⟨by decide, true, by decide⟩ (.cons ⟨by decide, false, by decide⟩ .nil)
    genericClasses := .cons ⟨⟨4⟩, rfl, by rfl⟩ .nil }
  obtain ⟨catalogue, built, shown⟩ := exists_of_shown isShown
  exact ⟨migrates, catalogue, built, shown, (result_rewritten migrates _ _).symm.trans built⟩

end Catalogue

end ManagedLayout

import ManagedLayout.Proofs.Catalogue.Fields
import ManagedLayout.Proofs.Catalogue.InstanceSpelling
import ManagedLayout.Proofs.Catalogue.StaticMethods
import ManagedLayout.Proofs.LastEntries

/-!
# Virtual methods

The virtual table of a definition is a range of encoded methods, in no particular order, and may have
several methods for one slot. A layout has one virtual method for each slot that occurs, the last one
in the table, and has them in the order of the slots. If an entry of the table leads nowhere there is
no catalogue.
-/

namespace ManagedLayout

namespace Metadata

/-- An entry of the virtual tables names a method, directly or by an instantiation of it. -/
inductive NamesMethod (metadata : Metadata) (entry : Index .vtableMethods)
    (method : MethodDefinition) : Prop
  | direct {word : UInt32} (isWord : metadata.declarations.vtableMethods.get? entry = some word)
    (isDirect : (EncodedMethod.ofWord metadata.revision word).usage ≠
      EncodedMethod.instantiationUsage)
    (isMethod : metadata.declarations.methods.get?
      ⟨(EncodedMethod.ofWord metadata.revision word).index⟩ = some method)
  | instantiation {word : UInt32} {spec : MethodSpec}
    (isWord : metadata.declarations.vtableMethods.get? entry = some word)
    (isIndirect : (EncodedMethod.ofWord metadata.revision word).usage =
      EncodedMethod.instantiationUsage)
    (isSpec : metadata.registrations.types.methodSpecs.get?
      ⟨(EncodedMethod.ofWord metadata.revision word).index⟩ = some spec)
    (isMethod : metadata.declarations.methods.get? spec.method = some method)

/-- An entry of the virtual tables does not exist, or leads to a record that does not. -/
inductive Dangles (metadata : Metadata) (entry : Index .vtableMethods) : Prop
  | word (missing : metadata.declarations.vtableMethods.get? entry = none)
  | method {word : UInt32} (isWord : metadata.declarations.vtableMethods.get? entry = some word)
    (isDirect : (EncodedMethod.ofWord metadata.revision word).usage ≠
      EncodedMethod.instantiationUsage)
    (missing : metadata.declarations.methods.get?
      ⟨(EncodedMethod.ofWord metadata.revision word).index⟩ = none)
  | spec {word : UInt32} (isWord : metadata.declarations.vtableMethods.get? entry = some word)
    (isIndirect : (EncodedMethod.ofWord metadata.revision word).usage =
      EncodedMethod.instantiationUsage)
    (missing : metadata.registrations.types.methodSpecs.get?
      ⟨(EncodedMethod.ofWord metadata.revision word).index⟩ = none)
  | specMethod {word : UInt32} {spec : MethodSpec}
    (isWord : metadata.declarations.vtableMethods.get? entry = some word)
    (isIndirect : (EncodedMethod.ofWord metadata.revision word).usage =
      EncodedMethod.instantiationUsage)
    (isSpec : metadata.registrations.types.methodSpecs.get?
      ⟨(EncodedMethod.ofWord metadata.revision word).index⟩ = some spec)
    (missing : metadata.declarations.methods.get? spec.method = none)

variable {metadata : Metadata} {entry : Index .vtableMethods} {method : MethodDefinition}

theorem Dangles.not_namesMethod (dangles : metadata.Dangles entry) :
    ¬metadata.NamesMethod entry method := by
  intro names
  cases dangles <;> cases names <;> simp_all

theorem namesMethod_of_vtableMethod {index : Index .methods}
    (isIndex : metadata.vtableMethod entry = .ok index) (isMethod : metadata.method index = .ok method) :
    metadata.NamesMethod entry method := by
  obtain ⟨word, isWord, isIndex⟩ := lookup_bind_eq_ok.mp isIndex
  have isWord := Table.fetch_eq_ok_iff.mp isWord
  have isMethod := Table.fetch_eq_ok_iff.mp isMethod
  dsimp only at isIndex
  split at isIndex
  next isIndirect =>
    obtain ⟨spec, isSpec, isIndex⟩ := lookup_bind_eq_ok.mp isIndex
    rw [pure_bind] at isIndex
    obtain ⟨_, -, same⟩ := lookup_bind_eq_ok.mp isIndex
    obtain rfl := lookup_pure_eq_ok.mp same
    exact .instantiation isWord isIndirect (Table.fetch_eq_ok_iff.mp isSpec) isMethod
  next isDirect =>
    rw [pure_bind] at isIndex
    obtain ⟨_, -, same⟩ := lookup_bind_eq_ok.mp isIndex
    obtain rfl := lookup_pure_eq_ok.mp same
    exact .direct isWord isDirect isMethod

/-- The methods that the entries of a range name, in their order. -/
def NamesMethods (metadata : Metadata) (start : Index .vtableMethods) (count : Nat)
    (methods : List MethodDefinition) : Prop :=
  List.Forall₂ (fun position ↦ metadata.NamesMethod (start.offset (UInt32.ofNat position)))
    (List.range count) methods

theorem namesMethods_of_vtableRange {count : Nat} {start : Index .vtableMethods}
    {methods : List MethodDefinition} (areMethods : metadata.vtableRange count start = .ok methods) :
    metadata.NamesMethods start count methods := by
  induction count generalizing start methods with
  | zero =>
    obtain rfl := Except.ok.inj areMethods
    exact .nil
  | succ count ih =>
    obtain ⟨index, isIndex, areMethods⟩ := lookup_bind_eq_ok.mp areMethods
    obtain ⟨method, isMethod, areMethods⟩ := lookup_bind_eq_ok.mp areMethods
    obtain ⟨rest, areRest, whole⟩ := lookup_bind_eq_ok.mp areMethods
    obtain rfl := lookup_pure_eq_ok.mp whole
    rw [NamesMethods, List.range_succ_eq_map]
    refine .cons ?_ (List.forall₂_map_left_iff.mpr ((ih areRest).imp ?_))
    · have isNamed := namesMethod_of_vtableMethod isIndex isMethod
      rwa [← start.offset_zero] at isNamed
    · intro position method isNamed
      rwa [Index.offset_one_offset] at isNamed

end Metadata

/-- The text of a virtual method: its slot and its name. -/
def slotText (slot : UInt16 × String) : String := "_" ++ toString slot.1.toNat ++ "_" ++ slot.2

/-- The digits of the slot end at the first mark that is none, whatever the name is. -/
theorem slotText_injective : Function.Injective slotText := by
  rintro ⟨slot, name⟩ ⟨other, otherName⟩ same
  have ofDigits (number : Nat) (rest : List Char) :
      ((toString number).toList ++ '_' :: rest).takeWhile Char.isDigit =
        (toString number).toList := by
    rw [List.takeWhile_append_of_pos fun _ ↦ isDigit_of_mem_toString,
      List.takeWhile_cons_of_neg (by decide), List.append_nil]
  have sameText : (toString slot.toNat).toList ++ '_' :: name.toList =
      (toString other.toNat).toList ++ '_' :: otherName.toList := by
    simpa [slotText, String.ext_iff] using same
  have sameDigits := congrArg (List.takeWhile Char.isDigit) sameText
  rw [ofDigits, ofDigits] at sameDigits
  have sameSlot : slot = other :=
    UInt16.toNat_inj.mp (Nat.repr_inj.mp (String.toList_inj.mp sameDigits))
  rw [sameDigits] at sameText
  have sameName := String.toList_inj.mp (List.cons.inj (List.append_cancel_left sameText)).2
  rw [sameSlot, sameName]

/-- The methods of a virtual table by slots: the last one of each slot, in the order of the slots. -/
structure GroupsBySlot (methods : List MethodDefinition) (names : List String) : Prop where
  slots : ∃ slots, ListsLast (methods.map fun method ↦ (method.slot, method.name)) slots ∧
    names = slots.map slotText
  distinct : names.Nodup

theorem groupsBySlot_methodsBySlot (methods : List MethodDefinition) :
    GroupsBySlot methods ((methodsBySlot methods).toList.map slotText) := by
  have lists : ListsLast (methods.map fun method ↦ (method.slot, method.name))
      (methodsBySlot methods).toList := by
    have sameTree : methodsBySlot methods =
        treeOf (methods.map fun method ↦ (method.slot, method.name)) := by
      rw [treeOf, List.foldl_map]
      rfl
    rw [sameTree]
    exact listsLast_treeOf _
  exact ⟨⟨_, lists, rfl⟩, lists.nodup.map slotText_injective⟩

/-- A layout has the methods that the virtual table of a definition names. -/
structure Layout.HasVirtualMethodsOf (metadata : Metadata) (index : Index .typeDefinitions)
    (definition : TypeDefinition) (methods : List MethodDefinition) (layout : StructRecord) :
    Prop where
  isDefinition : metadata.typeDefinition index = .ok definition
  areNamed : metadata.NamesMethods definition.vtableStart definition.vtableCount.toNat methods
  grouped : GroupsBySlot methods layout.virtualMethods

/-- A layout has the virtual methods of the definition at an index. -/
def Layout.HasVirtualMethodsAt (metadata : Metadata) (index : Index .typeDefinitions)
    (layout : StructRecord) : Prop :=
  ∃ definition methods, layout.HasVirtualMethodsOf metadata index definition methods

/-- If an entry of the table of a definition dangles, no layout has its methods. -/
theorem Layout.HasVirtualMethodsOf.not_dangles {metadata : Metadata}
    {index : Index .typeDefinitions} {definition : TypeDefinition}
    {methods : List MethodDefinition} {layout : StructRecord}
    (hasMethods : layout.HasVirtualMethodsOf metadata index definition methods) {position : Nat}
    (inside : position < definition.vtableCount.toNat) :
    ¬metadata.Dangles (definition.vtableStart.offset (UInt32.ofNat position)) := by
  intro dangles
  obtain ⟨method, -, names⟩ := forall₂_exists_left hasMethods.areNamed.flip
    (List.mem_range.mpr inside)
  exact dangles.not_namesMethod names

theorem Metadata.exists_methods_of_virtualMethods {metadata : Metadata}
    {definition : TypeDefinition} {names : List String}
    (areMethods : metadata.virtualMethods definition = .ok names) :
    ∃ methods, metadata.NamesMethods definition.vtableStart definition.vtableCount.toNat methods ∧
      GroupsBySlot methods names := by
  obtain ⟨methods, isRange, areNames⟩ := lookup_bind_eq_ok.mp areMethods
  obtain rfl := lookup_pure_eq_ok.mp areNames
  exact ⟨methods, namesMethods_of_vtableRange isRange, groupsBySlot_methodsBySlot methods⟩

namespace BuildPlan

open Resolve

variable (plan : BuildPlan)

theorem yields_hasVirtualMethods_definition (entry : NamedDefinition) :
    Yields (plan.definitionLayout entry)
      (Layout.HasVirtualMethodsAt plan.linkage.metadata entry.definition) := by
  apply Yields.bind_lookup
  intro definition isDefinition
  iterate 4
    apply Yields.bind_any
    intro _
  apply Yields.bind_lookup
  intro virtualMethods areMethods
  obtain ⟨methods, areNamed, grouped⟩ := Metadata.exists_methods_of_virtualMethods areMethods
  iterate 3
    apply Yields.bind_any
    intro _
  exact .pure ⟨definition, methods, isDefinition, areNamed, grouped⟩

theorem yields_hasVirtualMethods_instance (entry : NamedInstance) :
    Yields (plan.instanceLayout entry)
      (Layout.HasVirtualMethodsAt plan.linkage.metadata entry.definition) := by
  apply Yields.bind_lookup
  intro definition isDefinition
  iterate 5
    apply Yields.bind_any
    intro _
  apply Yields.bind_lookup
  intro virtualMethods areMethods
  obtain ⟨methods, areNamed, grouped⟩ := Metadata.exists_methods_of_virtualMethods areMethods
  exact .pure ⟨definition, methods, isDefinition, areNamed, grouped⟩

end BuildPlan

namespace Catalogue

variable {metadata : Metadata} {options : BuildOptions} {offsets : OffsetSource}
  {catalogue : Catalogue}

theorem exists_hasVirtualMethodsAt
    (built : (buildWith metadata options offsets).result = .ok catalogue) {layout : StructRecord}
    (mem : layout ∈ catalogue.structs) :
    ∃ index, catalogue.LaysOut metadata layout index ∧
      layout.HasVirtualMethodsAt metadata index := by
  obtain ⟨linkage, -, rfl, ran⟩ := exists_run built
  have yields := linkage.yields_laysOut BuildPlan.yields_hasVirtualMethods_definition
    BuildPlan.yields_hasVirtualMethods_instance options offsets .empty
  obtain ⟨_, hasMethods⟩ := yields.of_run_eq_ok (Resolve.run_eq_of_fst_eq ran)
  exact hasMethods layout mem

/-- The layouts of a definition have its virtual methods. -/
theorem hasVirtualMethodsAt_of_laysOut
    (built : (buildWith metadata options offsets).result = .ok catalogue) {layout : StructRecord}
    (mem : layout ∈ catalogue.structs) {index : Index .typeDefinitions}
    (laysOut : catalogue.LaysOut metadata layout index) :
    layout.HasVirtualMethodsAt metadata index := by
  obtain ⟨other, laysOutOther, hasMethods⟩ := exists_hasVirtualMethodsAt built mem
  obtain ⟨_, _, _, _, _, -, rfl, -, madeBy⟩ := exists_madeBy built
  rwa [madeBy.laysOut_unique laysOut laysOutOther]

/-- A definition that an image claims has a layout, and so no entry of its table dangles. -/
theorem not_dangles_of_claimed
    (built : (buildWith metadata options offsets).result = .ok catalogue)
    {index : Index .typeDefinitions} {definition : TypeDefinition} {position : Nat}
    (claimed : metadata.Claimed index)
    (isDefinition : metadata.typeDefinition index = .ok definition)
    (inside : position < definition.vtableCount.toNat) :
    ¬metadata.Dangles (definition.vtableStart.offset (UInt32.ofNat position)) := by
  obtain ⟨_, _, _, _, _, -, rfl, -, madeBy⟩ := exists_madeBy built
  obtain ⟨_, layout, mem, -, displayed⟩ := madeBy.exists_layout_of_claimed claimed
  obtain ⟨found, methods, hasMethods⟩ :=
    hasVirtualMethodsAt_of_laysOut built mem (.definition displayed)
  obtain rfl := Except.ok.inj (isDefinition.symm.trans hasMethods.isDefinition)
  exact hasMethods.not_dangles inside

/-- **Virtual methods.** A layout is of some definition, and has one virtual method for each slot of
the methods that the table of this definition names: the last one, in the order of the slots, all of
them different. There are no layouts at all if an entry dangles in the table of a definition that an
image claims. -/
theorem virtualMethods_of_buildWith (metadata : Metadata) (options : BuildOptions)
    (offsets : OffsetSource) :
    (∀ catalogue, (buildWith metadata options offsets).result = .ok catalogue →
      ∀ layout ∈ catalogue.structs, (∃ index, catalogue.LaysOut metadata layout index) ∧
        ∀ index, catalogue.LaysOut metadata layout index → ∃ definition methods,
          layout.HasVirtualMethodsOf metadata index definition methods) ∧
    ∀ index definition position, metadata.Claimed index →
      metadata.typeDefinition index = .ok definition →
      position < definition.vtableCount.toNat →
      metadata.Dangles (definition.vtableStart.offset (UInt32.ofNat position)) →
      ∃ error, (buildWith metadata options offsets).result = .error error := by
  constructor
  · intro catalogue built layout mem
    obtain ⟨index, laysOut, -⟩ := exists_hasVirtualMethodsAt built mem
    exact ⟨⟨index, laysOut⟩, fun _ ↦ hasVirtualMethodsAt_of_laysOut built mem⟩
  · intro index definition position claimed isDefinition inside dangles
    cases built : (buildWith metadata options offsets).result with
    | error error => exact ⟨error, rfl⟩
    | ok catalogue => exact absurd dangles (not_dangles_of_claimed built claimed isDefinition inside)

end Catalogue

/-- A box with a virtual table of four entries. One of them is an instantiated method, and two are
for one slot. There is a box of integers. -/
def Metadata.dispatches : Metadata :=
  let dump := (Metadata.ofDefinitions
    [{ TypeDefinition.named "Demo" "Box`1" with vtableStart := ⟨1⟩, vtableCount := 4 }] []
    [(.int32, .none), (.genericInstance, .genericClass ⟨0⟩)] [(⟨0⟩, [⟨0⟩])]).withUsages
      [{ MethodDefinition.named "Add" ⟨0⟩ with slot := 10 },
        { MethodDefinition.named "Add" ⟨0⟩ with slot := 3 },
        { MethodDefinition.named "Map" ⟨0⟩ with slot := 9 },
        { MethodDefinition.named "Text" ⟨0⟩ with slot := 3 }] [⟨⟨2⟩, .absent, .absent⟩] []
  { dump with
    declarations := { dump.declarations with
      vtableMethods := .ofList [0, 0x60000000, 0xC0000000, 0x60000003, 0x60000001] } }

/-- The same box, but the instantiated method is gone. -/
def Metadata.misdispatches : Metadata :=
  { Metadata.dispatches with
    registrations := { Metadata.dispatches.registrations with
      types := { Metadata.dispatches.registrations.types with methodSpecs := .empty } } }

namespace Catalogue

set_option maxRecDepth 10000 in
/-- The boxes of integers have the virtual methods of the box. Without the instantiated method there
is no catalogue. -/
theorem dispatches_virtualMethods_of_buildWith :
    (∃ catalogue layout definition methods,
      (buildWith .dispatches .default Metadata.dispatches.fieldOffset).result = .ok catalogue ∧
        layout ∈ catalogue.structs ∧ layout.typeName = "Demo.Box<int>" ∧
        layout.virtualMethods = ["_3_Add", "_9_Map", "_10_Add"] ∧
        layout.HasVirtualMethodsOf .dispatches ⟨0⟩ definition methods) ∧
    ∃ error, (buildWith .misdispatches .default Metadata.misdispatches.fieldOffset).result =
      .error error := by
  have isNamed :
      (buildWith .dispatches .default Metadata.dispatches.fieldOffset).result.toOption.map
        (fun catalogue ↦ ((catalogue.namedClasses .dispatches).find? (·.2 == "Demo.Box<int>"),
          catalogue.displays "Demo.Box<int>")) =
      some (some (⟨0⟩, "Demo.Box<int>"), false) := by
    decide +kernel
  have areListed :
      (buildWith .dispatches .default Metadata.dispatches.fieldOffset).result.toOption.map
        (fun catalogue ↦ catalogue.structs.map fun layout ↦
          (layout.typeName, layout.virtualMethods)) =
      some [("Demo.Box", ["_3_Add", "_9_Map", "_10_Add"]),
        ("Demo.Box<int>", ["_3_Add", "_9_Map", "_10_Add"])] := by
    decide +kernel
  constructor
  · obtain ⟨catalogue, built, shown⟩ := exists_of_shown isNamed
    rw [built] at areListed
    obtain ⟨isFirst, isNew⟩ := Prod.mk.inj shown
    obtain ⟨layout, mem, isName, areMethods⟩ :=
      exists_layout_of_listed (Option.some.inj areListed) (List.mem_of_getElem? (i := 1) rfl)
    rw [← isName] at isFirst isNew
    have isOpen : Metadata.dispatches.openDefinition? ⟨0⟩ = .ok (some ⟨0⟩) := rfl
    obtain ⟨-, hasMethods⟩ :=
      (virtualMethods_of_buildWith .dispatches .default _).1 catalogue built layout mem
    obtain ⟨definition, methods, hasMethods⟩ := hasMethods ⟨0⟩ (.instantiation isNew isFirst isOpen)
    exact ⟨catalogue, layout, definition, methods, built, mem, isName, areMethods, hasMethods⟩
  · have claimed : Metadata.misdispatches.Claimed ⟨0⟩ :=
      ⟨_, List.mem_of_getElem? (i := 0) rfl, 0, by decide, rfl⟩
    have dangles : Metadata.misdispatches.Dangles ⟨2⟩ := .spec rfl rfl rfl
    exact (virtualMethods_of_buildWith .misdispatches .default _).2 ⟨0⟩ _ 1 claimed rfl (by decide)
      dangles

end Catalogue

end ManagedLayout

import ManagedLayout.Proofs.Lookup
import ManagedLayout.Reference.Basic

/-!
# Addresses of records

From version 27 on, a type may refer to its definition or generic parameter by the address at which the
record stood in memory. The records of a table stand one behind the other, from some offset behind the
base address on, so that an address is that of one record at most, and a record has one address. The
sum that makes an address is one of natural numbers: where it does not fit 64 bits, the record has no
address at all. Whatever is not the address of a record of the table is refused.
-/

namespace ManagedLayout

/-- The tables whose records types may refer to by address. -/
inductive AddressedTable where
  | definitions
  | parameters
  deriving DecidableEq, Repr

namespace AddressedTable

def kind : AddressedTable → TableKind
  | definitions => .typeDefinitions
  | parameters => .genericParameters

/-- What a type reference has that refers to a record by address. -/
def reference : AddressedTable → UInt64 → TypeData
  | definitions => .definitionHandle
  | parameters => .parameterHandle

/-- How far behind the base address the table started. -/
def offset : AddressedTable → MemoryLayout → UInt64
  | definitions => MemoryLayout.typeDefinitionsOffset
  | parameters => MemoryLayout.genericParametersOffset

/-- How many bytes a record of the table had. -/
def stride : AddressedTable → MemoryLayout → UInt64
  | definitions => MemoryLayout.typeDefinitionSize
  | parameters => MemoryLayout.genericParameterSize

/-- How many records the table has. -/
def size : AddressedTable → Declarations → Nat
  | definitions, declarations => declarations.typeDefinitions.size
  | parameters, declarations => declarations.genericParameters.size

/-- The index of the record that a type refers to. -/
def referent (metadata : Metadata) (type : Index .types) :
    (table : AddressedTable) → Except LayoutError (Index table.kind)
  | definitions => metadata.definitionOf type
  | parameters => metadata.parameterOf type

end AddressedTable

/-- The address lies on the grid of the records exactly if a whole number of records is between it
and the start of the table. -/
theorem eq_add_mul_iff {address start stride position : Nat} (positive : 0 < stride) :
    address = start + position * stride ↔
      start ≤ address ∧ (address - start) % stride = 0 ∧ (address - start) / stride = position := by
  constructor
  · rintro rfl
    rw [Nat.add_sub_cancel_left]
    exact ⟨Nat.le_add_right .., Nat.mul_mod_left .., Nat.mul_div_cancel _ positive⟩
  · rintro ⟨behind, aligned, rfl⟩
    rw [Nat.div_mul_cancel (Nat.dvd_of_mod_eq_zero aligned), Nat.add_sub_cancel' behind]

theorem Index.position_inj {kind : TableKind} {index other : Index kind} :
    index.position = other.position ↔ index = other := by
  rw [position, position, UInt32.toNat_inj]
  cases index
  cases other
  simp

/-- A position that fits the word size is that of one index. -/
theorem Index.ofPosition_eq_iff {kind : TableKind} {position : Nat} {index : Index kind}
    (fits : position < UInt32.size) : ofPosition position = index ↔ position = index.position := by
  rw [← position_inj]
  exact Eq.congr_left (Nat.mod_eq_of_lt fits)

namespace Metadata

variable {metadata : Metadata}

/-- A handle is translated into the index of the record whose address it is. -/
theorem indexOfHandle_eq_ok_iff {table : TableKind} {handle : UInt64}
    {offset stride : MemoryLayout → UInt64} {size : Nat} {index : Index table} :
    metadata.indexOfHandle table handle offset stride size = .ok index ↔
      metadata.revision = .handles ∧ index.position < size ∧
        ∃ layout, metadata.declarations.layout? = some layout ∧ stride layout ≠ 0 ∧
          handle.toNat = layout.address.toNat + (offset layout).toNat +
            index.position * (stride layout).toNat := by
  unfold indexOfHandle
  split
  next layout isHandles isLayout =>
    have nonzero : (stride layout).toNat ≠ 0 ↔ stride layout ≠ 0 := by
      rw [Ne, Ne, ← UInt64.toNat_inj]
      rfl
    simp only [isHandles, isLayout, Option.some.injEq, exists_eq_left', true_and]
    rw [← nonzero]
    split
    next isAddress =>
      obtain ⟨behind, nonzero, aligned, fits, inside⟩ := isAddress
      rw [Except.ok.injEq, Index.ofPosition_eq_iff fits, eq_add_mul_iff (Nat.pos_of_ne_zero nonzero)]
      constructor
      · rintro isPosition
        exact ⟨isPosition ▸ inside, nonzero, behind, aligned, isPosition⟩
      · exact fun isAddress ↦ isAddress.2.2.2.2
    next noAddress =>
      refine iff_of_false (by simp) ?_
      rintro ⟨inside, nonzero, isSum⟩
      rw [eq_add_mul_iff (Nat.pos_of_ne_zero nonzero)] at isSum
      obtain ⟨behind, aligned, isPosition⟩ := isSum
      rw [← isPosition] at inside
      exact noAddress ⟨behind, nonzero, aligned, isPosition ▸ index.raw.toNat_lt, inside⟩
  next noLayout =>
    refine iff_of_false (by simp) ?_
    rintro ⟨isHandles, -, layout, isLayout, -⟩
    exact noLayout layout isHandles isLayout

theorem error_of_indexOfHandle {table : TableKind} {handle : UInt64}
    {offset stride : MemoryLayout → UInt64} {size : Nat} {error : LayoutError}
    (failed : metadata.indexOfHandle table handle offset stride size = .error error) :
    error = .badHandle table handle := by
  unfold indexOfHandle at failed
  split at failed
  next =>
    dsimp only at failed
    split at failed
    next => exact nomatch failed
    next => exact (Except.error.inj failed).symm
  next => exact (Except.error.inj failed).symm

/-- The handle is the address of the record at an index of the table. -/
structure IsAddress (metadata : Metadata) (table : AddressedTable) (handle : UInt64)
    (index : Index table.kind) : Prop where
  version : ⟨27, 0⟩ ≤ metadata.version
  inside : index.position < table.size metadata.declarations
  isSum : ∃ layout, metadata.declarations.layout? = some layout ∧ table.stride layout ≠ 0 ∧
    handle.toNat = layout.address.toNat + (table.offset layout).toNat +
      index.position * (table.stride layout).toNat

variable {table : AddressedTable} {handle : UInt64} {index : Index table.kind}

theorem indexOfHandle_eq_ok_iff_isAddress :
    metadata.indexOfHandle table.kind handle table.offset table.stride
      (table.size metadata.declarations) = .ok index ↔ metadata.IsAddress table handle index := by
  rw [indexOfHandle_eq_ok_iff]
  constructor
  · rintro ⟨isHandles, inside, isSum⟩
    have version : ⟨27, 0⟩ ≤ metadata.version := fun before ↦ revision_ne_handles before isHandles
    exact ⟨version, inside, isSum⟩
  · rintro ⟨version, inside, isSum⟩
    exact ⟨revision_eq_handles version, inside, isSum⟩

/-- In one memory a record has one address, and an address is that of one record. -/
theorem IsAddress.index_eq_iff {other : Metadata} {otherHandle : UInt64}
    {otherIndex : Index table.kind}
    (sameLayout : other.declarations.layout? = metadata.declarations.layout?)
    (isAddress : metadata.IsAddress table handle index)
    (isOther : other.IsAddress table otherHandle otherIndex) :
    index = otherIndex ↔ handle = otherHandle := by
  obtain ⟨layout, isLayout, nonzero, isSum⟩ := isAddress.isSum
  obtain ⟨otherLayout, isOtherLayout, -, isOtherSum⟩ := isOther.isSum
  obtain rfl := Option.some.inj (isLayout.symm.trans (sameLayout.symm.trans isOtherLayout))
  constructor
  · rintro rfl
    exact UInt64.toNat_inj.mp (isSum.trans isOtherSum.symm)
  · rintro rfl
    have positive : 0 < (table.stride layout).toNat :=
      Nat.pos_of_ne_zero fun isZero ↦ nonzero (UInt64.toNat_inj.mp isZero)
    have same := Nat.add_left_cancel (isSum.symm.trans isOtherSum)
    exact Index.position_inj.mp (Nat.eq_of_mul_eq_mul_right positive same)

/-- The type refers to a record of the table by address. -/
def RefersByAddress (metadata : Metadata) (table : AddressedTable) (type : Index .types)
    (handle : UInt64) : Prop :=
  ∃ reference, metadata.typeReference type = .ok reference ∧
    reference.data = table.reference handle

theorem RefersByAddress.referent_eq {type : Index .types}
    (refers : metadata.RefersByAddress table type handle) :
    table.referent metadata type = metadata.indexOfHandle table.kind handle table.offset
      table.stride (table.size metadata.declarations) := by
  obtain ⟨reference, isReference, isData⟩ := refers
  cases table with
  | definitions =>
    simp only [AddressedTable.referent, definitionOf, isReference, isData, lookup_ok_bind,
      AddressedTable.reference]
    rfl
  | parameters =>
    simp only [AddressedTable.referent, parameterOf, isReference, isData, lookup_ok_bind,
      AddressedTable.reference]
    rfl

/-- **Addresses are translated exactly.** What a type refers to by address is the record whose address
it is, as a sum of natural numbers, and whatever is not the address of a record is refused as such. In
one memory, different addresses are those of different records. -/
theorem referent_eq_ok_iff_isAddress {type : Index .types}
    (refers : metadata.RefersByAddress table type handle) :
    (∀ index, table.referent metadata type = .ok index ↔ metadata.IsAddress table handle index) ∧
    (∀ error, table.referent metadata type = .error error ↔
      error = .badHandle table.kind handle ∧ ∀ index, ¬metadata.IsAddress table handle index) ∧
    ∀ (other : Metadata) otherType otherHandle index otherIndex,
      other.declarations.layout? = metadata.declarations.layout? →
      other.RefersByAddress table otherType otherHandle →
      table.referent metadata type = .ok index → table.referent other otherType = .ok otherIndex →
      (index = otherIndex ↔ handle = otherHandle) := by
  have found (index : Index table.kind) :
      table.referent metadata type = .ok index ↔ metadata.IsAddress table handle index := by
    rw [refers.referent_eq, indexOfHandle_eq_ok_iff_isAddress]
  refine ⟨found, fun error ↦ ?_, ?_⟩
  · cases isReferent : table.referent metadata type with
    | ok index =>
      refine iff_of_false (by simp) fun refused ↦ ?_
      exact refused.2 index ((found index).mp isReferent)
    | error other =>
      have isOther : other = .badHandle table.kind handle := by
        rw [refers.referent_eq] at isReferent
        exact error_of_indexOfHandle isReferent
      have noAddress (index : Index table.kind) : ¬metadata.IsAddress table handle index := by
        rw [← found, isReferent]
        nofun
      rw [Except.error.injEq, eq_comm, isOther, and_iff_left noAddress]
  · intro other otherType otherHandle index otherIndex sameLayout otherRefers isIndex isOther
    rw [otherRefers.referent_eq, indexOfHandle_eq_ok_iff_isAddress] at isOther
    exact ((found index).mp isIndex).index_eq_iff sameLayout isOther

/-- A memory at the very end of the address space: there are addresses for two parameters of three. -/
def edges : Metadata where
  version := ⟨29, 0⟩
  declarations := { Declarations.empty with
    genericParameters := .ofList [⟨.absent, "T", 0, 0⟩, ⟨.absent, "U", 1, 0⟩, ⟨.absent, "V", 2, 0⟩]
    layout? := some ⟨0xFFFFFFFFFFFFF000, 0x100, 88, 0x800, 0x400⟩ }
  registrations := { Registrations.empty with
    types := { TypeRegistration.empty with
      types := .ofList [⟨.parameterHandle 0xFFFFFFFFFFFFFC00, 0, .typeParameter, false, false, false⟩,
        ⟨.parameterHandle 0, 0, .typeParameter, false, false, false⟩] } }

/-- The third parameter has no address, and in particular not the one that its sum wraps around
to. -/
theorem edges_referent_eq_ok_iff_isAddress :
    edges.RefersByAddress .parameters ⟨0⟩ 0xFFFFFFFFFFFFFC00 ∧ edges.parameterOf ⟨0⟩ = .ok ⟨1⟩ ∧
      edges.RefersByAddress .parameters ⟨1⟩ 0 ∧
      edges.parameterOf ⟨1⟩ = .error (.badHandle .genericParameters 0) := by
  have second : edges.RefersByAddress .parameters ⟨0⟩ 0xFFFFFFFFFFFFFC00 := ⟨_, rfl, rfl⟩
  have third : edges.RefersByAddress .parameters ⟨1⟩ 0 := ⟨_, rfl, rfl⟩
  have version : ⟨27, 0⟩ ≤ edges.version := by decide
  refine ⟨second, ?_, third, ?_⟩
  · apply ((referent_eq_ok_iff_isAddress second).1 ⟨1⟩).mpr
    exact ⟨version, by decide, _, rfl, by decide, by decide⟩
  · apply ((referent_eq_ok_iff_isAddress third).2.1 _).mpr
    refine ⟨rfl, fun index isAddress ↦ ?_⟩
    obtain ⟨layout, isLayout, -, isSum⟩ := isAddress.isSum
    obtain rfl := Option.some.inj isLayout
    have noBase : (0xFFFFFFFFFFFFF000 : UInt64).toNat ≠ 0 := by decide
    exact noBase (Nat.eq_zero_of_add_eq_zero (Nat.add_assoc .. ▸ isSum.symm)).1

end Metadata

end ManagedLayout

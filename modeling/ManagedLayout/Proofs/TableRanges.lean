import ManagedLayout.Proofs.Lookup

/-!
# Ranges of tables

A range is taken out of a table at once, or gone through index by index. Taken at once it is a
contiguous part of the table, of the length asked for; a range that leaves the table is refused. Going
through it wraps around at the word size, and passes the index that refers to no record. In a table
with fewer records than there are indices both ways come to the same: somewhere on the way out of the
table there is an index without a record.
-/

namespace ManagedLayout.Table

variable {kind : TableKind} {Record : Type} {table : Table kind Record} {start : Index kind}
  {count : UInt32} {records : List Record}

/-- A range that is not empty starts nowhere, or ends behind the last record. -/
def Leaves (table : Table kind Record) (start : Index kind) (count : UInt32) : Prop :=
  count ≠ 0 ∧ (start = .absent ∨ table.size < start.position + count.toNat)

/-- The records are as many as the range asks for, and stand in the table one after the other, from
the start of the range on. Where an empty range starts does not matter. -/
structure IsRange (table : Table kind Record) (start : Index kind) (count : UInt32)
    (records : List Record) : Prop where
  length : records.length = count.toNat
  isPart : ∃ before after, table.toList = before ++ records ++ after ∧
    (count ≠ 0 → start ≠ .absent ∧ before.length = start.position)

theorem isRange_nil : table.IsRange start 0 [] :=
  ⟨rfl, [], table.toList, rfl, fun nonempty ↦ absurd rfl nonempty⟩

/-- A range that is not empty lies inside the table, and its records are those of the table behind
the start. -/
theorem IsRange.of_nonempty (isRange : table.IsRange start count records) (nonempty : count ≠ 0) :
    start ≠ .absent ∧ start.position + count.toNat ≤ table.size ∧
      ∀ position < count.toNat, table.records[start.position + position]? = records[position]? := by
  obtain ⟨before, after, whole, placed⟩ := isRange.isPart
  obtain ⟨isPresent, atStart⟩ := placed nonempty
  refine ⟨isPresent, ?_, fun position inside ↦ ?_⟩
  · have size := congrArg List.length whole
    rw [List.length_append, List.length_append, isRange.length, atStart] at size
    rw [Table.size, ← Array.length_toList, ← Table.toList, size]
    exact Nat.le_add_right ..
  · rw [← Array.getElem?_toList, ← Table.toList, whole, ← atStart, List.append_assoc,
      List.getElem?_append_right (Nat.le_add_right ..), Nat.add_sub_cancel_left,
      List.getElem?_append_left (isRange.length ▸ inside)]

theorem IsRange.not_leaves (isRange : table.IsRange start count records) :
    ¬table.Leaves start count := by
  rintro ⟨nonempty, isAbsent | behind⟩
  · exact (isRange.of_nonempty nonempty).1 isAbsent
  · exact Nat.not_le.mpr behind (isRange.of_nonempty nonempty).2.1

theorem IsRange.unique {others : List Record} (isRange : table.IsRange start count records)
    (otherRange : table.IsRange start count others) : records = others := by
  by_cases isEmpty : count = 0
  · subst isEmpty
    rw [List.eq_nil_of_length_eq_zero isRange.length, List.eq_nil_of_length_eq_zero otherRange.length]
  · refine List.ext_getElem? fun position ↦ ?_
    by_cases inside : position < count.toNat
    · rw [← (isRange.of_nonempty isEmpty).2.2 position inside,
        (otherRange.of_nonempty isEmpty).2.2 position inside]
    · rw [List.getElem?_eq_none (by simpa [isRange.length] using inside),
        List.getElem?_eq_none (by simpa [otherRange.length] using inside)]

theorem slice?_eq_none_iff : table.slice? start count = none ↔ table.Leaves start count := by
  simp only [slice?, Leaves, Index.isPresent, Index.absent]
  cases start with
  | mk raw => grind [Index.position]

theorem isRange_of_slice? (isSlice : table.slice? start count = some records) :
    table.IsRange start count records := by
  refine ⟨length_of_slice? isSlice, ?_⟩
  unfold slice? at isSlice
  split at isSlice
  next isEmpty =>
    obtain rfl := Option.some.inj isSlice
    exact ⟨[], table.toList, rfl, fun nonempty ↦ absurd isEmpty nonempty⟩
  next nonempty =>
    split at isSlice
    next inside =>
      obtain ⟨isPresent, fits⟩ := inside
      obtain rfl := Option.some.inj isSlice
      have isPresent : start ≠ .absent := by
        rintro rfl
        exact absurd isPresent (by simp [Index.absent_not_isPresent])
      refine ⟨table.toList.take start.position,
        table.toList.drop (start.position + count.toNat), ?_, fun _ ↦ ⟨isPresent, ?_⟩⟩
      · rw [Array.toList_extract, List.extract_eq_take_drop, Nat.add_sub_cancel_left,
          List.append_assoc, ← List.drop_drop]
        simp only [toList, List.take_append_drop]
      · rw [List.length_take, Nat.min_eq_left]
        exact Nat.le_trans (Nat.le_add_right ..) fits
    next => exact nomatch isSlice

/-- What is taken out of a table is the part of it that the range describes. -/
theorem slice?_eq_some_iff :
    table.slice? start count = some records ↔ table.IsRange start count records := by
  constructor
  · exact isRange_of_slice?
  · intro isRange
    cases isSlice : table.slice? start count with
    | none => exact absurd (slice?_eq_none_iff.mp isSlice) isRange.not_leaves
    | some others => rw [isRange.unique (isRange_of_slice? isSlice)]

/-- Every index of the range has a record. -/
def HasRange (table : Table kind Record) (start : Index kind) (count : UInt32) : Prop :=
  ∀ step < count, (table.get? (start.offset step)).isSome

theorem hasRange_of_forall_lt (found : ∀ position < count.toNat,
    (table.get? (start.offset (UInt32.ofNat position))).isSome) : table.HasRange start count := by
  intro step isStep
  have isFound := found step.toNat (UInt32.lt_iff_toNat_lt.mp isStep)
  rwa [UInt32.ofNat_toNat] at isFound

section Addressable

variable (addressable : table.size < UInt32.size)
include addressable

/-- Inside the table a step does not wrap around, nor does it come to the index of no record. -/
theorem IsRange.get?_offset (isRange : table.IsRange start count records) {step : UInt32}
    (isStep : step < count) : table.get? (start.offset step) = records[step.toNat]? := by
  have isStep := UInt32.lt_iff_toNat_lt.mp isStep
  have nonempty : count ≠ 0 := by
    rintro rfl
    exact absurd isStep (Nat.not_lt_zero _)
  obtain ⟨-, inside, areRecords⟩ := isRange.of_nonempty nonempty
  have isLast : Index.absentWord.toNat + 1 = UInt32.size := rfl
  have isOffset : start.offset step = .ofPosition (start.position + step.toNat) := by
    simp [Index.offset, Index.ofPosition, Index.position]
  rw [isOffset, get?_ofPosition (by omega), areRecords _ isStep]

/-- On the way out of the table there is an index without a record: the one behind the last record,
or the start itself if that is not in the table. -/
theorem Leaves.exists_get?_eq_none (leaves : table.Leaves start count) :
    ∃ step < count, table.get? (start.offset step) = none := by
  obtain ⟨nonempty, outside⟩ := leaves
  have isNonempty : 0 < count.toNat :=
    Nat.pos_iff_ne_zero.mpr fun isZero ↦ nonempty (UInt32.toNat_inj.mp isZero)
  have wordSize : UInt32.size = 2 ^ 32 := rfl
  have isWord : start.position < UInt32.size := start.raw.toNat_lt
  have behind : table.size < start.position + count.toNat := by
    obtain rfl | behind := outside
    · have isLast : (Index.absent : Index kind).position + 1 = UInt32.size := rfl
      omega
    · exact behind
  have isDistance :
      (UInt32.ofNat (table.size - start.position)).toNat = table.size - start.position :=
    Nat.mod_eq_of_lt (by omega)
  refine ⟨.ofNat (table.size - start.position), ?_, ?_⟩
  · rw [UInt32.lt_iff_toNat_lt, isDistance]
    omega
  · have isReached : (start.offset (.ofNat (table.size - start.position))).position =
        start.position + (table.size - start.position) := by
      rw [Index.position, Index.offset, UInt32.toNat_add, isDistance, ← Index.position]
      exact Nat.mod_eq_of_lt (by omega)
    rw [get?]
    split
    · rw [Array.getElem?_eq_none_iff, isReached]
      exact Nat.sub_le_iff_le_add'.mp (Nat.le_refl _)
    · rfl

/-- A range leaves the table if some index of it has no record. -/
theorem leaves_iff_not_hasRange : table.Leaves start count ↔ ¬table.HasRange start count := by
  constructor
  · intro leaves hasRange
    obtain ⟨step, isStep, isNone⟩ := leaves.exists_get?_eq_none addressable
    simpa [isNone] using hasRange step isStep
  · intro notHasRange
    rw [← slice?_eq_none_iff]
    cases isSlice : table.slice? start count with
    | none => rfl
    | some records =>
      have isRange := slice?_eq_some_iff.mp isSlice
      refine absurd (fun step isStep ↦ ?_) notHasRange
      rw [isRange.get?_offset addressable isStep, isSome_getElem?, isRange.length]
      exact UInt32.lt_iff_toNat_lt.mp isStep

/-- What is taken out of a table at once is what is found index by index. -/
theorem slice?_eq_some_iff_get?_offset :
    table.slice? start count = some records ↔ records.length = count.toNat ∧
      ∀ step < count, table.get? (start.offset step) = records[step.toNat]? := by
  constructor
  · intro isSlice
    have isRange := slice?_eq_some_iff.mp isSlice
    exact ⟨isRange.length, fun step ↦ isRange.get?_offset addressable⟩
  · rintro ⟨length, areFound⟩
    cases isSlice : table.slice? start count with
    | none =>
      have hasRange : table.HasRange start count := by
        intro step isStep
        rw [areFound step isStep, isSome_getElem?, length]
        exact UInt32.lt_iff_toNat_lt.mp isStep
      have leaves := slice?_eq_none_iff.mp isSlice
      exact absurd hasRange ((leaves_iff_not_hasRange addressable).mp leaves)
    | some others =>
      have isRange := slice?_eq_some_iff.mp isSlice
      have same : others = records := by
        refine List.ext_getElem (isRange.length.trans length.symm) fun position inside isInside ↦ ?_
        have isPosition : (UInt32.ofNat position).toNat = position :=
          Nat.mod_eq_of_lt (Nat.lt_trans (isRange.length ▸ inside) count.toNat_lt)
        have isStep : UInt32.ofNat position < count := by
          rwa [UInt32.lt_iff_toNat_lt, isPosition, ← isRange.length]
        have sameRecord := (isRange.get?_offset addressable isStep).symm.trans (areFound _ isStep)
        rwa [isPosition, List.getElem?_eq_getElem inside, List.getElem?_eq_getElem isInside,
          Option.some.injEq] at sameRecord
      rw [same]

end Addressable

end ManagedLayout.Table

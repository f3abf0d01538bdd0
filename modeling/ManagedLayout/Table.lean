import ManagedLayout.Index

/-!
# Tables

A table is a sequence of records, addressed by the indices of its own kind. Records can be read
one by one (`get?`) or as a contiguous range (`slice?`).
-/

namespace ManagedLayout

/-- The records of the table `kind`, in file order. -/
structure Table (kind : TableKind) (Record : Type) where
  records : Array Record
  deriving DecidableEq, Repr

namespace Table

variable {kind : TableKind} {Record : Type}

def empty : Table kind Record := ⟨#[]⟩

instance : Inhabited (Table kind Record) := ⟨empty⟩

def ofList (records : List Record) : Table kind Record := ⟨records.toArray⟩

def toList (table : Table kind Record) : List Record := table.records.toList

def size (table : Table kind Record) : Nat := table.records.size

/-- The record at an index; none if the index is absent or past the end. -/
def get? (table : Table kind Record) (index : Index kind) : Option Record :=
  if index.isPresent then table.records[index.position]? else none

/-- The `count` records from `start` on, if all of them exist. The empty range exists wherever it
starts, also at the absent index, since that is how a dump marks a record without entries. -/
def slice? (table : Table kind Record) (start : Index kind) (count : UInt32) :
    Option (List Record) :=
  if count = 0 then some []
  else if start.isPresent ∧ start.position + count.toNat ≤ table.size then
    some (table.records.extract start.position (start.position + count.toNat)).toList
  else none

/-- Appends a record, and says at which index it then stands. -/
def push (table : Table kind Record) (record : Record) : Table kind Record × Index kind :=
  (⟨table.records.push record⟩, Index.ofPosition table.size)

/-- Replaces the record at an index that has one. -/
def set (table : Table kind Record) (index : Index kind) (record : Record) : Table kind Record :=
  ⟨table.records.setIfInBounds index.position record⟩

/-- The records, each with the index that addresses it. -/
def indexed (table : Table kind Record) : List (Index kind × Record) :=
  table.toList.zipIdx.map fun (record, position) ↦ (Index.ofPosition position, record)

@[simp] theorem toList_ofList (records : List Record) :
    (ofList records : Table kind Record).toList = records := by
  simp [ofList, toList]

@[simp] theorem ofList_toList (table : Table kind Record) : ofList table.toList = table := by
  simp [ofList, toList]

theorem toList_push (table : Table kind Record) (record : Record) :
    (table.push record).1.toList = table.toList ++ [record] := by
  simp [push, toList]

@[simp] theorem get?_absent (table : Table kind Record) : table.get? Index.absent = none := by
  simp [get?, Index.absent_not_isPresent]

@[simp] theorem slice?_zero (table : Table kind Record) (start : Index kind) :
    table.slice? start 0 = some [] := by
  simp [slice?]

theorem length_of_slice? {table : Table kind Record} {start : Index kind} {count : UInt32}
    {records : List Record} (isSlice : table.slice? start count = some records) :
    records.length = count.toNat := by
  unfold slice? at isSlice
  split at isSlice
  next isZero =>
    obtain rfl := Option.some.inj isSlice
    simp [isZero]
  next =>
    split at isSlice
    next inside =>
      obtain rfl := Option.some.inj isSlice
      have fits : start.position + count.toNat ≤ table.records.size := inside.2
      rw [Array.length_toList, Array.size_extract]
      omega
    next => exact nomatch isSlice

end Table

end ManagedLayout

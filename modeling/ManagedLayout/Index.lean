import ManagedLayout.Order

/-!
# Table indices

A metadata dump is a set of tables whose records refer to each other by position. An `Index`
is such a reference, tagged with the table that it points into, so that indices of different
tables cannot be mixed up. One 32-bit word, all ones, stands for "no record"; it is never the
position of one.
-/

namespace ManagedLayout

/-- The tables, and the parts of tables, that an index or an address can point into. -/
inductive TableKind where
  | typeDefinitions
  | fields
  | methods
  | genericContainers
  | genericParameters
  | images
  | vtableMethods
  | contextEntries
  | types
  | genericClasses
  | genericInstantiations
  | arrayTypes
  | methodSpecs
  | moduleContextEntries
  | usageAddresses
  | instantiationArguments
  deriving DecidableEq, Repr

/-- The name that messages give a table. -/
def TableKind.label : TableKind → String
  | typeDefinitions => "type definitions"
  | fields => "fields"
  | methods => "methods"
  | genericContainers => "generic containers"
  | genericParameters => "generic parameters"
  | images => "images"
  | vtableMethods => "vtable methods"
  | contextEntries => "rgctx entries"
  | types => "types"
  | genericClasses => "generic classes"
  | genericInstantiations => "generic instantiations"
  | arrayTypes => "array types"
  | methodSpecs => "method specs"
  | moduleContextEntries => "code gen module rgctxs"
  | usageAddresses => "metadata usages"
  | instantiationArguments => "generic instantiation arguments"

/-- A reference into the table `kind`. -/
structure Index (kind : TableKind) where
  raw : UInt32
  deriving DecidableEq, Repr

namespace Index

variable {kind : TableKind}

/-- The word that refers to no record. -/
def absentWord : UInt32 := 0xFFFFFFFF

/-- The reference to no record. -/
def absent : Index kind := ⟨absentWord⟩

instance : Inhabited (Index kind) := ⟨absent⟩

def isPresent (index : Index kind) : Bool := index.raw != absentWord

/-- The index itself, unless it refers to no record. -/
def present? (index : Index kind) : Option (Index kind) :=
  if index.isPresent then some index else none

/-- The position in the table that a present index stands for. -/
def position (index : Index kind) : Nat := index.raw.toNat

/-- The index `count` records further on, modulo the word size. -/
def offset (index : Index kind) (count : UInt32) : Index kind := ⟨index.raw + count⟩

/-- The index of a position, modulo the word size. -/
def ofPosition (position : Nat) : Index kind := ⟨UInt32.ofNat position⟩

/-- The number that stands for an index in text: its word, or -1 for none. -/
def number (index : Index kind) : Int := if index.isPresent then index.raw.toNat else -1

/-- The decimal text of an index, `-1` for none. -/
def text (index : Index kind) : String := toString index.number

/-- The text of an index as a reference, `#7` or `#none`. -/
def reference (index : Index kind) : String :=
  if index.isPresent then "#" ++ toString index.raw.toNat else "#none"

instance : Ord (Index kind) := ⟨compareOn raw⟩

instance : Std.TransOrd (Index kind) := inferInstanceAs (Std.TransCmp (compareOn raw))

instance : Std.LawfulEqOrd (Index kind) := lawfulEqCmp_compareOn fun _ _ ↦ congrArg mk

theorem absent_not_isPresent : (absent : Index kind).isPresent = false := by
  simp [absent, isPresent]

theorem present?_eq_some_iff {index found : Index kind} :
    index.present? = some found ↔ index = found ∧ index ≠ absent := by
  cases index with
  | mk raw => simp [present?, isPresent, absent]; grind

@[simp] theorem offset_zero (index : Index kind) : index.offset 0 = index := by
  simp [offset]

/-- One record further on, and then some more. -/
theorem offset_one_offset (index : Index kind) (position : Nat) :
    (index.offset 1).offset (UInt32.ofNat position) =
      index.offset (UInt32.ofNat (position + 1)) := by
  simp [offset, UInt32.add_assoc, UInt32.add_comm]

end Index

end ManagedLayout

import ManagedLayout.Proofs.Lookup

/-!
# Lookups in related tables

Two tables are related if their records are, one by one. A lookup in one of them fails exactly if it
fails in the other, and otherwise finds a related record. What follows the lookup cannot tell the
tables apart if it does not read that in which related records differ.
-/

namespace ManagedLayout

/-- Two lookups fail in the same way, or find records that are related. -/
inductive LookupsRelated {Source Target : Type} (related : Source → Target → Prop) :
    Except LayoutError Source → Except LayoutError Target → Prop
  | found {source : Source} {target : Target} (isRelated : related source target) :
    LookupsRelated related (.ok source) (.ok target)
  | failed (error : LayoutError) : LookupsRelated related (.error error) (.error error)

namespace LookupsRelated

variable {Source Target Result : Type} {related : Source → Target → Prop}
  {first : Except LayoutError Source} {second : Except LayoutError Target}

theorem of_eq {first second : Except LayoutError Source} (same : first = second) :
    LookupsRelated Eq first second := by
  subst same
  cases first with
  | ok source => exact .found rfl
  | error error => exact .failed error

theorem bind {Other Result : Type} {relatedResults : Result → Other → Prop}
    {next : Source → Except LayoutError Result} {otherNext : Target → Except LayoutError Other}
    (lookups : LookupsRelated related first second)
    (nextRelated : ∀ source target, related source target →
      LookupsRelated relatedResults (next source) (otherNext target)) :
    LookupsRelated relatedResults (first >>= next) (second >>= otherNext) := by
  cases lookups with
  | found isRelated => exact nextRelated _ _ isRelated
  | failed error => exact .failed error

/-- What follows related lookups is the same if it does not depend on where the records differ. -/
theorem bind_eq {next : Source → Except LayoutError Result}
    {otherNext : Target → Except LayoutError Result} (lookups : LookupsRelated related first second)
    (same : ∀ source target, related source target → next source = otherNext target) :
    first >>= next = second >>= otherNext := by
  cases lookups with
  | found isRelated => exact same _ _ isRelated
  | failed error => rfl

end LookupsRelated

section Lists

variable {Source Target : Type} {related : Source → Target → Prop} {sources : List Source}
  {targets : List Target}

theorem forall₂_getElem? (all : List.Forall₂ related sources targets) (position : Nat) :
    Option.Rel related sources[position]? targets[position]? := by
  induction all generalizing position with
  | nil => exact .none
  | cons head _ ih =>
    cases position with
    | zero => exact .some head
    | succ position => exact ih position

theorem forall₂_zipIdx (all : List.Forall₂ related sources targets) (start : Nat) :
    List.Forall₂ (fun pair other ↦ pair.2 = other.2 ∧ related pair.1 other.1) (sources.zipIdx start)
      (targets.zipIdx start) := by
  induction all generalizing start with
  | nil => exact .nil
  | cons head _ ih => exact .cons ⟨rfl, head⟩ (ih (start + 1))

theorem forall₂_foldlM_eq {Result : Type} {step : Result → Source → Except LayoutError Result}
    {otherStep : Result → Target → Except LayoutError Result}
    (same : ∀ result source target, related source target →
      step result source = otherStep result target)
    (all : List.Forall₂ related sources targets) (initial : Result) :
    sources.foldlM step initial = targets.foldlM otherStep initial := by
  induction all generalizing initial with
  | nil => rfl
  | cons head _ ih => simp only [List.foldlM_cons, same _ _ _ head, ih]

end Lists

namespace Table

variable {kind : TableKind} {Source Target : Type} {related : Source → Target → Prop}

/-- The table with every record changed. -/
def map (change : Source → Target) (table : Table kind Source) : Table kind Target :=
  ⟨table.records.map change⟩

theorem toList_map (change : Source → Target) (table : Table kind Source) :
    (table.map change).toList = table.toList.map change :=
  Array.toList_map ..

/-- Two tables have related records at the same places. -/
def Related (related : Source → Target → Prop) (first : Table kind Source)
    (second : Table kind Target) : Prop :=
  List.Forall₂ related first.toList second.toList

namespace Related

variable {first : Table kind Source} {second : Table kind Target}

theorem refl {related : Source → Source → Prop} (isRelated : ∀ record, related record record)
    (table : Table kind Source) : table.Related related table :=
  List.forall₂_same.mpr fun record _ ↦ isRelated record

theorem map {change : Source → Target}
    (isRelated : ∀ record, related record (change record)) {table : Table kind Source} :
    table.Related related (table.map change) := by
  unfold Related
  rw [toList_map, List.forall₂_map_right_iff]
  exact List.forall₂_same.mpr fun record _ ↦ isRelated record

theorem mono {weaker : Source → Target → Prop} (tables : first.Related related second)
    (implies : ∀ record other, related record other → weaker record other) :
    first.Related weaker second :=
  List.Forall₂.imp implies tables

theorem fetch (tables : first.Related related second) (index : Index kind) :
    LookupsRelated related (first.fetch index) (second.fetch index) := by
  have sameRecords : Option.Rel related (first.get? index) (second.get? index) := by
    unfold get?
    split
    next =>
      rw [← Array.getElem?_toList, ← Array.getElem?_toList]
      exact forall₂_getElem? tables index.position
    next => exact .none
  unfold Table.fetch
  generalize first.get? index = record? at sameRecords ⊢
  generalize second.get? index = other? at sameRecords ⊢
  cases sameRecords with
  | none => exact .failed _
  | some isRelated => exact .found isRelated

theorem indexed (tables : first.Related related second) :
    List.Forall₂ (fun pair other ↦ pair.1 = other.1 ∧ related pair.2 other.2) first.indexed
      second.indexed := by
  unfold Table.indexed
  rw [List.forall₂_map_left_iff, List.forall₂_map_right_iff]
  apply List.Forall₂.imp _ (forall₂_zipIdx tables 0)
  rintro ⟨record, position⟩ ⟨other, _⟩ ⟨rfl, isRelated⟩
  exact ⟨rfl, isRelated⟩

end Related

end Table

end ManagedLayout

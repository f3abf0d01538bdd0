import ManagedLayout.Proofs.Lookup
import Mathlib.Data.List.Induction
import Std.Data.TreeMap

/-!
# Tables of which the last entry counts

Some tables of a dump may have several entries for one key, and a later entry takes the place of an
earlier one. What such a table comes to is the list of its last entries, in ascending order of their
keys. A search tree that takes up the entries one after the other lists just these.
-/

namespace ManagedLayout

variable {Key Value Other : Type}

/-- The last entry of a key has this value. -/
def IsLast (entries : List (Key × Value)) (key : Key) (value : Value) : Prop :=
  ∃ before after, entries = before ++ (key, value) :: after ∧ ∀ entry ∈ after, entry.1 ≠ key

/-- A list has the last entry of each key, and is in ascending order of the keys. -/
structure ListsLast [LT Key] (entries listed : List (Key × Value)) : Prop where
  ascending : listed.Pairwise fun left right ↦ left.1 < right.1
  last : ∀ key value, (key, value) ∈ listed ↔ IsLast entries key value

theorem not_isLast_nil {key : Key} {value : Value} : ¬IsLast [] key value := by
  rintro ⟨before, after, split, -⟩
  simp at split

/-- An entry behind all others takes the place of those that have its key. -/
theorem isLast_concat {entries : List (Key × Value)} {entry : Key × Value} {key : Key}
    {value : Value} :
    IsLast (entries ++ [entry]) key value ↔
      entry = (key, value) ∨ entry.1 ≠ key ∧ IsLast entries key value := by
  constructor
  · rintro ⟨before, after, split, others⟩
    obtain rfl | ⟨after, final, rfl⟩ := List.eq_nil_or_concat' after
    · obtain ⟨-, same⟩ := List.append_inj' split rfl
      exact .inl (List.singleton_inj.mp same)
    · rw [← List.cons_append, ← List.append_assoc] at split
      obtain ⟨rfl, same⟩ := List.append_inj' split rfl
      obtain rfl := List.singleton_inj.mp same
      refine .inr ⟨others _ (by simp), before, after, rfl, ?_⟩
      exact fun other mem ↦ others other (List.mem_append_left _ mem)
  · rintro (rfl | ⟨different, before, after, rfl, others⟩)
    · exact ⟨entries, [], rfl, by simp⟩
    · refine ⟨before, after ++ [entry], by simp, ?_⟩
      intro other mem
      obtain mem | mem := List.mem_append.mp mem
      · exact others other mem
      · rwa [List.mem_singleton.mp mem]

/-- A key has a last entry if it has one at all. -/
theorem exists_isLast_iff {entries : List (Key × Value)} {key : Key} :
    (∃ value, IsLast entries key value) ↔ ∃ entry ∈ entries, entry.1 = key := by
  induction entries using List.reverseRecOn with
  | nil => simp [not_isLast_nil]
  | append_singleton entries entry ih =>
    obtain ⟨other, value⟩ := entry
    simp only [isLast_concat, List.mem_append, List.mem_singleton, or_and_right, exists_or, ← ih]
    by_cases same : other = key <;> simp [same]

/-- The last entry of a key, where each entry comes from an element of another list. -/
theorem isLast_map_iff {sources : List Other} {keyOf : Other → Key} {valueOf : Other → Value}
    {key : Key} {value : Value} :
    IsLast (sources.map fun source ↦ (keyOf source, valueOf source)) key value ↔
      ∃ before source after, sources = before ++ source :: after ∧ keyOf source = key ∧
        valueOf source = value ∧ ∀ other ∈ after, keyOf other ≠ key := by
  constructor
  · rintro ⟨front, back, split, others⟩
    obtain ⟨before, rest, rfl, rfl, isRest⟩ := List.map_eq_append_iff.mp split
    obtain ⟨source, after, rfl, isEntry, rfl⟩ := List.map_eq_cons_iff.mp isRest
    obtain ⟨isKey, isValue⟩ := Prod.mk.inj isEntry
    exact ⟨before, source, after, rfl, isKey, isValue,
      fun other mem ↦ others _ (List.mem_map_of_mem mem)⟩
  · rintro ⟨before, source, after, rfl, rfl, rfl, others⟩
    refine ⟨before.map fun source ↦ (keyOf source, valueOf source),
      after.map fun source ↦ (keyOf source, valueOf source), by simp, ?_⟩
    simpa using others

/-- A key is listed if it has an entry. -/
theorem ListsLast.exists_listed_iff [LT Key] {entries listed : List (Key × Value)} {key : Key}
    (lists : ListsLast entries listed) :
    (∃ entry ∈ listed, entry.1 = key) ↔ ∃ entry ∈ entries, entry.1 = key := by
  refine Iff.trans ?_ exists_isLast_iff
  constructor
  · rintro ⟨⟨_, value⟩, mem, rfl⟩
    exact ⟨value, (lists.last _ value).mp mem⟩
  · rintro ⟨value, isLast⟩
    exact ⟨(key, value), (lists.last key value).mpr isLast, rfl⟩

theorem ListsLast.nodup [LT Key] [Std.Irrefl fun left right : Key ↦ left < right]
    {entries listed : List (Key × Value)} (lists : ListsLast entries listed) : listed.Nodup :=
  lists.ascending.imp fun isLess same ↦ Std.ne_of_lt isLess (congrArg Prod.fst same)

section Trees

variable [Ord Key]

/-- The tree that takes up entries one after the other. -/
def treeOf (entries : List (Key × Value)) : Std.TreeMap Key Value :=
  entries.foldl (fun tree entry ↦ tree.insert entry.1 entry.2) ∅

theorem treeOf_concat (entries : List (Key × Value)) (entry : Key × Value) :
    treeOf (entries ++ [entry]) = (treeOf entries).insert entry.1 entry.2 := by
  rw [treeOf, List.foldl_concat]
  rfl

variable [DecidableEq Key] [Std.TransOrd Key] [Std.LawfulEqOrd Key]

theorem getElem?_treeOf (entries : List (Key × Value)) (key : Key) (value : Value) :
    (treeOf entries)[key]? = some value ↔ IsLast entries key value := by
  induction entries using List.reverseRecOn with
  | nil => simp [treeOf, not_isLast_nil]
  | append_singleton entries entry ih =>
    rw [treeOf_concat, getElem?_insert_eq, isLast_concat, ← ih]
    obtain ⟨other, found⟩ := entry
    by_cases same : other = key <;> simp [same]

/-- Nothing is found at a key without entries. -/
theorem getElem?_treeOf_eq_none (entries : List (Key × Value)) (key : Key) :
    (treeOf entries)[key]? = none ↔ ∀ entry ∈ entries, entry.1 ≠ key := by
  rw [Option.eq_none_iff_forall_ne_some]
  simp only [ne_eq, getElem?_treeOf]
  rw [← not_exists, exists_isLast_iff]
  push Not
  rfl

variable [LE Key] [LT Key] [Std.LawfulOrderOrd Key] [Std.LawfulOrderLT Key]

theorem listsLast_treeOf (entries : List (Key × Value)) :
    ListsLast entries (treeOf entries).toList where
  ascending := (treeOf entries).ordered_keys_toList.imp Std.compare_eq_lt.mp
  last key value := by
    rw [Std.TreeMap.mem_toList_iff_getElem?_eq_some, getElem?_treeOf]

end Trees

end ManagedLayout

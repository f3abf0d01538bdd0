import ManagedLayout.Error
import Mathlib.Data.List.Forall2

/-!
# Lookups that succeed

A chain of lookups succeeds exactly if each of its links does. These are the forms in which later
modules take chains of lookups apart.
-/

namespace ManagedLayout

variable {Error Source Result : Type}

@[simp]
theorem lookup_bind_eq_ok {first : Except Error Source} {next : Source → Except Error Result}
    {result : Result} :
    first >>= next = .ok result ↔ ∃ found, first = .ok found ∧ next found = .ok result := by
  cases first <;> simp [bind, Except.bind]

@[simp]
theorem lookup_ok_bind {found : Source} {next : Source → Except Error Result} :
    Except.ok found >>= next = next found := rfl

@[simp]
theorem lookup_map_eq_ok {first : Except Error Source} {change : Source → Result}
    {result : Result} :
    change <$> first = .ok result ↔ ∃ found, first = .ok found ∧ change found = result := by
  cases first <;> simp [Functor.map, Except.map]

@[simp]
theorem lookup_pure_eq_ok {found result : Result} :
    (pure found : Except Error Result) = .ok result ↔ found = result := by
  simp [pure, Except.pure]

@[simp]
theorem lookup_throw_ne_ok {error : Error} {result : Result} :
    (throw error : Except Error Result) ≠ .ok result := by
  simp [throw, throwThe, MonadExceptOf.throw]

/-- Every element of a list has a result, in the order of the list. -/
theorem lookup_mapM_eq_ok {find : Source → Except Error Result} {sources : List Source}
    {results : List Result} :
    sources.mapM find = .ok results ↔
      List.Forall₂ (fun source result ↦ find source = .ok result) sources results := by
  induction sources generalizing results with
  | nil => cases results <;> simp
  | cons source rest ih =>
    simp only [List.mapM_cons, lookup_bind_eq_ok, lookup_pure_eq_ok, ih, List.forall₂_cons_left_iff]
    grind

theorem lookup_optionMapM_eq_ok {find : Source → Except Error Result} {source? : Option Source}
    {result? : Option Result} :
    source?.mapM find = .ok result? ↔
      (source? = none ∧ result? = none) ∨
        ∃ source result, source? = some source ∧ result? = some result ∧ find source = .ok result := by
  cases source? with
  | none =>
    simp only [Option.mapM_none, lookup_pure_eq_ok]
    grind
  | some source =>
    simp only [Option.mapM_some, lookup_map_eq_ok]
    grind

theorem optionRel_mono {stronger weaker : Source → Result → Prop}
    (implies : ∀ source result, stronger source result → weaker source result)
    {source? : Option Source} {result? : Option Result}
    (related : Option.Rel stronger source? result?) : Option.Rel weaker source? result? := by
  cases related with
  | none => exact .none
  | some related => exact .some (implies _ _ related)

theorem optionRel_exists_left {related : Source → Result → Prop} {source? : Option Source}
    {result : Result} (areRelated : Option.Rel related source? (some result)) :
    ∃ source, source? = some source ∧ related source result := by
  cases areRelated with
  | some isRelated => exact ⟨_, rfl, isRelated⟩

/-- What is related to a list element by element comes from somewhere in the list. -/
theorem forall₂_exists_left {related : Source → Result → Prop} {sources : List Source}
    {results : List Result} {result : Result} (all : List.Forall₂ related sources results)
    (mem : result ∈ results) : ∃ source ∈ sources, related source result := by
  induction all with
  | nil => simp at mem
  | cons head _ ih =>
    obtain rfl | mem := List.mem_cons.mp mem
    · exact ⟨_, by simp, head⟩
    · obtain ⟨source, fromRest, holds⟩ := ih mem
      exact ⟨source, by simp [fromRest], holds⟩

section Tables

variable {kind : TableKind} {Record : Type}

/-- A position below the word for "no record" is that of its index. -/
theorem Index.position_ofPosition {position : Nat} (small : position < absentWord.toNat) :
    (ofPosition position : Index kind).position = position ∧
      (ofPosition position : Index kind).isPresent = true := by
  have isPosition : (UInt32.ofNat position).toNat = position :=
    Nat.mod_eq_of_lt (Nat.lt_trans small absentWord.toNat_lt)
  refine ⟨isPosition, ?_⟩
  rw [isPresent, bne_iff_ne]
  intro absent
  rw [ofPosition, ← UInt32.toNat_inj, isPosition] at absent
  omega

theorem Table.get?_ofPosition {position : Nat} (small : position < Index.absentWord.toNat)
    (table : Table kind Record) : table.get? (.ofPosition position) = table.records[position]? := by
  obtain ⟨samePosition, isPresent⟩ := Index.position_ofPosition small
  rw [Table.get?, isPresent, if_pos rfl, samePosition]

theorem Table.mem_toList_of_get? {table : Table kind Record} {index : Index kind} {record : Record}
    (found : table.get? index = some record) : record ∈ table.toList := by
  unfold Table.get? at found
  split at found
  next => exact Array.mem_toList_iff.mpr (Array.mem_of_getElem? found)
  next => exact nomatch found

theorem Table.exists_mem_indexed {table : Table kind Record} {record : Record}
    (mem : record ∈ table.toList) : ∃ index, (index, record) ∈ table.indexed := by
  obtain ⟨position, inside, rfl⟩ := List.mem_iff_getElem.mp mem
  refine ⟨.ofPosition position, List.mem_map.mpr ⟨(table.toList[position], position), ?_, rfl⟩⟩
  rw [List.mem_zipIdx_iff_getElem?]
  exact List.getElem?_eq_getElem inside

theorem Table.getElem?_indexed (table : Table kind Record) (position : Nat) :
    table.indexed[position]? =
      table.records[position]?.map fun record ↦ (Index.ofPosition position, record) := by
  simp [indexed, toList, Function.comp_def]

/-- A record that is found at an index is listed with it. -/
theorem Table.getElem?_indexed_of_get? {table : Table kind Record} {index : Index kind}
    {record : Record} (found : table.get? index = some record) :
    index.position < Index.absentWord.toNat ∧
      table.indexed[index.position]? = some (index, record) := by
  unfold Table.get? at found
  split at found
  next isPresent =>
    constructor
    · have different : index.raw.toNat ≠ Index.absentWord.toNat := by
        rw [Ne, UInt32.toNat_inj]
        exact bne_iff_ne.mp isPresent
      have bound := index.raw.toNat_lt
      have isLast : Index.absentWord.toNat = 2 ^ 32 - 1 := rfl
      rw [Index.position]
      omega
    · rw [getElem?_indexed, found]
      simp [Index.ofPosition, Index.position]
  next => exact nomatch found

/-- If there are no more records than indices, a listed record is found at its index. -/
theorem Table.get?_of_mem_indexed {table : Table kind Record} {index : Index kind} {record : Record}
    (addressable : table.size ≤ Index.absentWord.toNat) (mem : (index, record) ∈ table.indexed) :
    table.get? index = some record := by
  obtain ⟨⟨found, position⟩, isFound, same⟩ := List.mem_map.mp mem
  obtain ⟨rfl, rfl⟩ := Prod.mk.inj same
  have isRecord := List.mem_zipIdx_iff_getElem?.mp isFound
  have inside : position < table.size := (List.getElem?_eq_some_iff.mp isRecord).1
  rw [Table.get?_ofPosition (by omega)]
  simpa [toList] using isRecord

/-- A listed record is found at its index, unless there are more records than indices, and all that
are found at theirs are listed before it. -/
theorem Table.get?_of_indexed {table : Table kind Record} {index : Index kind} {record : Record}
    {before rest : List (Index kind × Record)}
    (split : table.indexed = before ++ (index, record) :: rest) :
    table.get? index = some record ∨ ¬table.size ≤ Index.absentWord.toNat ∧
      ∀ other otherRecord, table.get? other = some otherRecord → (other, otherRecord) ∈ before := by
  have listed : table.indexed[before.length]? = some (index, record) := by
    rw [split]
    simp
  obtain ⟨found, isFound, same⟩ := Option.map_eq_some_iff.mp
    ((table.getElem?_indexed before.length).symm.trans listed)
  obtain ⟨rfl, rfl⟩ := Prod.mk.inj same
  by_cases small : before.length < Index.absentWord.toNat
  · left
    rw [Table.get?_ofPosition small, isFound]
  · right
    have inside : before.length < table.size := (Array.getElem?_eq_some_iff.mp isFound).1
    refine ⟨by omega, ?_⟩
    intro other otherRecord otherFound
    obtain ⟨otherSmall, otherListed⟩ := Table.getElem?_indexed_of_get? otherFound
    rw [split, List.getElem?_append_left (by omega)] at otherListed
    exact List.mem_of_getElem? otherListed

end Tables

section Keys

variable {Key Value : Type} [DecidableEq Key] [Ord Key] [Std.TransOrd Key] [Std.LawfulEqOrd Key]
  {entries : Std.TreeMap Key Value} {key other : Key} {value found : Value}

theorem getElem?_insert_eq :
    (entries.insert key value)[other]? = if key = other then some value else entries[other]? := by
  simp only [Std.TreeMap.getElem?_insert, Std.LawfulEqCmp.compare_eq_iff_eq]

theorem getElem?_erase_eq :
    (entries.erase key)[other]? = if key = other then none else entries[other]? := by
  simp only [Std.TreeMap.getElem?_erase, Std.LawfulEqCmp.compare_eq_iff_eq]

/-- What is found after an insertion has been there before, or is what was inserted. -/
theorem getElem?_of_insert (isFound : (entries.insert key value)[other]? = some found) :
    entries[other]? = some found ∨ other = key ∧ found = value := by
  rw [getElem?_insert_eq] at isFound
  grind

end Keys

section Parts

variable {find other : Source → Except Error Result} {source : Source}

theorem lookup_mapM_mono {sources : List Source} {results : List Result}
    (found : sources.mapM find = .ok results)
    (agree : ∀ source ∈ sources, ∀ result, find source = .ok result → other source = .ok result) :
    sources.mapM other = .ok results := by
  rw [lookup_mapM_eq_ok] at found ⊢
  induction found with
  | nil => exact .nil
  | cons head _ ih =>
    exact .cons (agree _ (by simp) _ head) (ih fun source mem ↦ agree source (by simp [mem]))

theorem lookup_optionMapM_mono {source? : Option Source} {result? : Option Result}
    (found : source?.mapM find = .ok result?)
    (agree : ∀ source ∈ source?, ∀ result, find source = .ok result → other source = .ok result) :
    source?.mapM other = .ok result? := by
  rw [lookup_optionMapM_eq_ok] at found ⊢
  obtain none | ⟨source, result, rfl, rfl, head⟩ := found
  · exact .inl none
  · exact .inr ⟨source, result, rfl, rfl, agree source rfl result head⟩

theorem lookup_mapM_mem {sources : List Source} {results : List Result}
    (found : sources.mapM find = .ok results) (mem : source ∈ sources) :
    ∃ result, find source = .ok result := by
  rw [lookup_mapM_eq_ok] at found
  induction found with
  | nil => simp at mem
  | cons head _ ih =>
    obtain rfl | mem := List.mem_cons.mp mem
    · exact ⟨_, head⟩
    · exact ih mem

theorem exists_mapM_eq_ok {sources : List Source}
    (found : ∀ source ∈ sources, ∃ result, find source = .ok result) :
    ∃ results, sources.mapM find = .ok results := by
  induction sources with
  | nil => exact ⟨[], rfl⟩
  | cons source rest ih =>
    obtain ⟨result, isResult⟩ := found source (by simp)
    obtain ⟨results, areResults⟩ := ih fun source mem ↦ found source (by simp [mem])
    exact ⟨result :: results, by rw [List.mapM_cons, isResult, lookup_ok_bind, areResults]; rfl⟩

/-- A list of lookups fails with the first one that does. -/
theorem exists_of_mapM_eq_error {find : Source → Except Error Result} {sources : List Source}
    {error : Error} (failed : sources.mapM find = .error error) :
    ∃ before source after, sources = before ++ source :: after ∧
      (∀ other ∈ before, ∃ result, find other = .ok result) ∧ find source = .error error := by
  induction sources with
  | nil => exact nomatch failed
  | cons first rest ih =>
    rw [List.mapM_cons] at failed
    cases found : find first with
    | error firstError =>
      rw [found] at failed
      cases failed
      exact ⟨[], first, rest, rfl, by simp, found⟩
    | ok result =>
      rw [found, lookup_ok_bind] at failed
      cases others : rest.mapM find with
      | error restError =>
        rw [others] at failed
        cases failed
        obtain ⟨before, source, after, rfl, fine, sourceFailed⟩ := ih others
        exact ⟨first :: before, source, after, rfl, by simpa [found] using fine, sourceFailed⟩
      | ok results =>
        rw [others] at failed
        exact nomatch failed

theorem lookup_optionMapM_mem {source? : Option Source} {result? : Option Result}
    (found : source?.mapM find = .ok result?) (mem : source ∈ source?) :
    ∃ result, find source = .ok result := by
  rw [lookup_optionMapM_eq_ok] at found
  grind

end Parts

end ManagedLayout

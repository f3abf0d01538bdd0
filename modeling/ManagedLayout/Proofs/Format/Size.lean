import ManagedLayout.Format.Choice
import ManagedLayout.Format.Collection
import ManagedLayout.Format.Record
import ManagedLayout.Format.Scalar
import ManagedLayout.Proofs.Json.Size
import ManagedLayout.Proofs.Lookup

/-!
# The size of values read from JSON

What is read from a JSON value has no longer lists and texts than the JSON value itself, whose size
fits 64 bits if that of its text does. Only what stands for a missing field is not read from
anything, and has to be storable by itself. Formats are put together from formats that read storable
values from such JSON values, and do so again.
-/

namespace ManagedLayout

namespace Json

/-- The size of the value fits 64 bits. -/
def IsSmall (json : Json) : Prop := json.size < UInt64.size

namespace IsSmall

theorem length_lt {items : List Json} (isSmall : (array items).IsSmall) :
    items.length < UInt64.size := Nat.lt_trans (length_lt_size_array items) isSmall

theorem items {items : List Json} (isSmall : (array items).IsSmall) :
    ∀ item ∈ items, item.IsSmall :=
  fun _ mem ↦ Nat.lt_trans (size_lt_size_array mem) isSmall

theorem members {members : List (String × Json)} (isSmall : (object members).IsSmall) :
    ∀ member ∈ members, member.2.IsSmall :=
  fun _ mem ↦ Nat.lt_trans (size_lt_size_object mem) isSmall

end IsSmall

end Json

/-- What is read from a small JSON value is storable. -/
class Format.ReadsStorable {Value : Type} (format : Format Value)
    (storable : outParam (Value → Prop)) : Prop where
  ofJson : ∀ {json value}, json.IsSmall → format.ofJson json = .ok value → storable value

/-- What is read for a field from a small JSON value is storable, and so is what stands for a
missing one. -/
class Field.ReadsStorable {Value : Type} (field : Field Value)
    (storable : outParam (Value → Prop)) : Prop where
  ofJson : ∀ {json value}, json.IsSmall → field.format.ofJson json = .ok value → storable value
  missing? : ∀ value ∈ field.missing?, storable value

/-- What is read from small members, or from small items, is storable. -/
class Fields.ReadsStorable {Values : Type} (fields : Fields Values)
    (storable : outParam (Values → Prop)) : Prop where
  ofMembers : ∀ {members values}, (∀ member ∈ members, member.2.IsSmall) →
    fields.ofMembers members = .ok values → storable values
  ofItems : ∀ {items values rest}, (∀ item ∈ items, item.IsSmall) →
    fields.ofItems items = .ok (values, rest) → storable values

/-- What is read from a small payload is storable. -/
class Cases.ReadsStorable {Values : Type} (cases : Cases Values)
    (storable : outParam (Values → Prop)) : Prop where
  ofNamed : ∀ {name json? values}, (∀ json ∈ json?, json.IsSmall) →
    cases.ofNamed name json? = .ok values → storable values

namespace Format

variable {Value : Type}

/-- Where every value is storable, nothing has to be known about the format. -/
instance (priority := low) (format : Format Value) : format.ReadsStorable fun _ ↦ True :=
  ⟨fun _ _ ↦ trivial⟩

instance : text.ReadsStorable fun value ↦ value.utf8ByteSize < UInt64.size where
  ofJson {json value} isSmall read := by
    cases json with
    | string text =>
      obtain rfl := Except.ok.inj read
      exact Nat.lt_of_succ_lt isSmall
    | _ => nomatch read

section

variable (format : Format Value) {storable : Value → Prop}
  [reads : format.ReadsStorable storable]

/-- There is one value for each item, and all of them are storable. -/
theorem storable_of_ofJsonMany {items : List Json} {values : List Value}
    (areSmall : ∀ item ∈ items, item.IsSmall) (read : format.ofJsonMany items = .ok values) :
    values.length = items.length ∧ ∀ value ∈ values, storable value := by
  induction items generalizing values with
  | nil =>
    obtain rfl := Except.ok.inj read
    exact ⟨rfl, nofun⟩
  | cons item items ih =>
    obtain ⟨isSmall, areSmall⟩ := List.forall_mem_cons.mp areSmall
    obtain ⟨value, isRead, read⟩ := lookup_bind_eq_ok.mp read
    obtain ⟨others, areRead, same⟩ := lookup_bind_eq_ok.mp read
    obtain rfl := Except.ok.inj same
    obtain ⟨sameLength, areStorable⟩ := ih areSmall areRead
    exact ⟨congrArg Nat.succ sameLength,
      List.forall_mem_cons.mpr ⟨reads.ofJson isSmall isRead, areStorable⟩⟩

instance : format.list.ReadsStorable fun values ↦
    values.length < UInt64.size ∧ ∀ value ∈ values, storable value where
  ofJson {json values} isSmall read := by
    cases json with
    | array items =>
      obtain ⟨sameLength, areStorable⟩ := format.storable_of_ofJsonMany isSmall.items read
      exact ⟨sameLength ▸ isSmall.length_lt, areStorable⟩
    | _ => nomatch read

instance : format.optional.ReadsStorable fun value? ↦ ∀ value ∈ value?, storable value where
  ofJson {json value?} isSmall read := by
    by_cases isNull : json = .null
    · subst isNull
      obtain rfl := Except.ok.inj read
      exact nofun
    · simp only [optional, lookup_bind_eq_ok] at read
      obtain ⟨value, isRead, same⟩ := read
      obtain rfl := Except.ok.inj same
      simpa using reads.ofJson isSmall isRead

theorem readsStorable_map {Other : Type} {build : Value → Other} {parts : Other → Value}
    (parts_build : ∀ value, parts (build value) = value) :
    (format.map build parts).ReadsStorable fun value ↦ storable (parts value) where
  ofJson isSmall read := by
    obtain ⟨value, isRead, same⟩ := lookup_bind_eq_ok.mp read
    obtain rfl := Except.ok.inj same
    rw [parts_build]
    exact reads.ofJson isSmall isRead

instance : format.array.ReadsStorable fun values ↦
    values.size < UInt64.size ∧ ∀ value ∈ values, storable value where
  ofJson isSmall read := by
    have asList := format.list.readsStorable_map fun values : List Value ↦ values.toList_toArray
    simpa using asList.ofJson isSmall read

instance {kind : TableKind} : (table format : Format (Table kind Value)).ReadsStorable fun table ↦
    table.size < UInt64.size ∧ ∀ value ∈ table.toList, storable value :=
  format.list.readsStorable_map Table.toList_ofList

end

end Format

/-! ### Records -/

section

variable {Value Values : Type}

namespace Field

variable {field : Field Value} {storable : Value → Prop}

/-- A field that every record has. -/
instance {name : String} {format : Format Value} [reads : format.ReadsStorable storable] :
    (required name format).ReadsStorable storable where
  ofJson := reads.ofJson
  missing? := nofun

theorem ReadsStorable.defaulted {name : String} {format : Format Value} {value : Value}
    [reads : format.ReadsStorable storable] (isStorable : storable value) :
    (defaulted name format value).ReadsStorable storable where
  ofJson := reads.ofJson
  missing? := by simpa [Field.defaulted] using isStorable

/-- Where every value is storable, nothing has to be known about the field. -/
instance (priority := low) (field : Field Value) : field.ReadsStorable fun _ ↦ True :=
  ⟨fun _ _ ↦ trivial, fun _ _ ↦ trivial⟩

instance {name : String} :
    (defaulted name Format.text "").ReadsStorable fun value ↦ value.utf8ByteSize < UInt64.size :=
  .defaulted (by decide)

instance {name : String} {format : Format Value} [format.ReadsStorable storable] :
    (defaulted name format.list []).ReadsStorable fun values ↦
      values.length < UInt64.size ∧ ∀ value ∈ values, storable value :=
  .defaulted (by simp)

instance {name : String} {format : Format Value} [format.ReadsStorable storable] :
    (defaulted name format.optional none).ReadsStorable fun value? ↦
      ∀ value ∈ value?, storable value :=
  .defaulted (by simp)

instance {name : String} {format : Format Value} [format.ReadsStorable storable] :
    (defaulted name format.array #[]).ReadsStorable fun values ↦
      values.size < UInt64.size ∧ ∀ value ∈ values, storable value :=
  .defaulted (by simp)

instance {name : String} {kind : TableKind} {format : Format Value}
    [format.ReadsStorable storable] :
    (defaulted name (Format.table format : Format (Table kind Value)) .empty).ReadsStorable
      fun table ↦ table.size < UInt64.size ∧ ∀ value ∈ table.toList, storable value :=
  .defaulted (by simp [Table.empty, Table.size, Table.toList])

variable [reads : field.ReadsStorable storable]

theorem storable_of_ofMembers {members : List (String × Json)} {value : Value}
    (areSmall : ∀ member ∈ members, member.2.IsSmall) (read : field.ofMembers members = .ok value) :
    storable value := by
  unfold ofMembers at read
  split at read
  next =>
    split at read
    next stands =>
      obtain rfl := Except.ok.inj read
      exact reads.missing? _ stands
    next => nomatch read
  next json position others found =>
    have isMember : ∃ member ∈ members, member.2 = json := by
      have mem : (json, position) ∈ field.occurrences members := found ▸ List.mem_cons_self
      simp only [occurrences, List.mem_map, List.mem_filter] at mem
      obtain ⟨⟨member, _⟩, ⟨mem, -⟩, same⟩ := mem
      exact ⟨member, List.fst_mem_of_mem_zipIdx mem, (Prod.mk.inj same).1⟩
    obtain ⟨member, mem, rfl⟩ := isMember
    split at read
    next => nomatch read
    next value isRead =>
      obtain rfl := Except.ok.inj read
      exact reads.ofJson (areSmall member mem) isRead
    next => nomatch read

theorem storable_of_ofItems {items rest : List Json} {value : Value}
    (areSmall : ∀ item ∈ items, item.IsSmall) (read : field.ofItems items = .ok (value, rest)) :
    storable value ∧ ∀ item ∈ rest, item.IsSmall := by
  cases items with
  | nil =>
    simp only [ofItems] at read
    split at read
    next stands =>
      obtain ⟨rfl, rfl⟩ := Prod.mk.inj (Except.ok.inj read)
      exact ⟨reads.missing? _ stands, nofun⟩
    next => nomatch read
  | cons item items =>
    obtain ⟨isSmall, areSmall⟩ := List.forall_mem_cons.mp areSmall
    obtain ⟨value, isRead, same⟩ := lookup_bind_eq_ok.mp read
    obtain ⟨rfl, rfl⟩ := Prod.mk.inj (Except.ok.inj same)
    exact ⟨reads.ofJson isSmall isRead, areSmall⟩

end Field

theorem Fields.both_eq_ok_iff {Left Right : Type} {left : Except (Fault × Nat) Left}
    {right : Except (Fault × Nat) Right} {values : Left × Right} :
    both left right = .ok values ↔ left = .ok values.1 ∧ right = .ok values.2 := by
  cases left <;> cases right <;> simp [both, Prod.ext_iff]

instance : Fields.none.ReadsStorable fun _ ↦ True where
  ofMembers _ _ := trivial
  ofItems _ _ := trivial

instance {field : Field Value} {fields : Fields Values} {storable : Value → Prop}
    {areStorable : Values → Prop} [field.ReadsStorable storable]
    [reads : fields.ReadsStorable areStorable] :
    (Fields.cons field fields).ReadsStorable fun values ↦
      storable values.1 ∧ areStorable values.2 where
  ofMembers areSmall read := by
    obtain ⟨isFirst, areOthers⟩ := Fields.both_eq_ok_iff.mp read
    exact ⟨field.storable_of_ofMembers areSmall isFirst, reads.ofMembers areSmall areOthers⟩
  ofItems areSmall read := by
    obtain ⟨⟨value, items⟩, first, read⟩ := lookup_bind_eq_ok.mp read
    obtain ⟨⟨values, rest⟩, others, same⟩ := lookup_bind_eq_ok.mp read
    obtain ⟨rfl, rfl⟩ := Prod.mk.inj (Except.ok.inj same)
    obtain ⟨isStorable, areSmall⟩ := field.storable_of_ofItems areSmall first
    exact ⟨isStorable, reads.ofItems areSmall others⟩

/-- Records are storable if their parts are. -/
theorem Format.ReadsStorable.record {fields : Fields Values} {areStorable : Values → Prop}
    [reads : fields.ReadsStorable areStorable] {build : Values → Value} {values : Value → Values}
    {storable : Value → Prop} (isStorable : ∀ parts, areStorable parts → storable (build parts)) :
    (Format.record fields build values).ReadsStorable storable where
  ofJson {json value} isSmall read := by
    simp only [Format.record] at read
    split at read
    next members =>
      split at read
      next parts isRead =>
        obtain rfl := Except.ok.inj read
        exact isStorable _ (reads.ofMembers isSmall.members isRead)
      next => nomatch read
    next items =>
      split at read
      next parts isRead =>
        obtain rfl := Except.ok.inj read
        exact isStorable _ (reads.ofItems isSmall.items isRead)
      next => nomatch read
      next => nomatch read
    next => nomatch read

/-! ### Choices -/

instance Cases.readsStorable_none : Cases.none.ReadsStorable nofun where
  ofNamed {_ _ values} := nomatch values

instance {name : String} {format : Format Value} {cases : Cases Values}
    {storable : Value → Prop} {areStorable : Values → Prop}
    [reads : format.ReadsStorable storable] [readsCases : cases.ReadsStorable areStorable] :
    (Cases.payload name format cases).ReadsStorable (Sum.elim storable areStorable) where
  ofNamed {found json? values} areSmall read := by
    simp only [Cases.payload] at read
    split at read
    next =>
      split at read
      next json =>
        obtain ⟨value, isRead, same⟩ := lookup_bind_eq_ok.mp read
        obtain rfl := Except.ok.inj same
        exact reads.ofJson (areSmall json rfl) isRead
      next => nomatch read
    next =>
      obtain ⟨values, isRead, same⟩ := lookup_bind_eq_ok.mp read
      obtain rfl := Except.ok.inj same
      exact readsCases.ofNamed areSmall isRead

/-- Choices are storable if their payloads are. -/
theorem Format.ReadsStorable.choice {cases : Cases Values} {areStorable : Values → Prop}
    [reads : cases.ReadsStorable areStorable] {build : Values → Value} {values : Value → Values}
    {storable : Value → Prop} (isStorable : ∀ parts, areStorable parts → storable (build parts)) :
    (Format.choice cases build values).ReadsStorable storable where
  ofJson {json value} isSmall read := by
    simp only [Format.choice] at read
    split at read
    next name =>
      obtain ⟨parts, isRead, same⟩ := lookup_bind_eq_ok.mp read
      obtain rfl := Except.ok.inj same
      exact isStorable parts (reads.ofNamed (by simp) isRead)
    next name payload =>
      obtain ⟨parts, isRead, same⟩ := lookup_bind_eq_ok.mp read
      obtain rfl := Except.ok.inj same
      refine isStorable parts (reads.ofNamed ?_ isRead)
      simpa using isSmall.members (name, payload) List.mem_cons_self
    next => nomatch read

end

end ManagedLayout

import ManagedLayout.Format.Choice
import ManagedLayout.Format.Collection
import ManagedLayout.Format.Record
import ManagedLayout.Format.Scalar
import ManagedLayout.Proofs.Json.Order
import ManagedLayout.Proofs.Json.Text
import ManagedLayout.Proofs.Text.WrittenVersion

/-!
# Reading the JSON form of a value

A format is lossless if it reads back every value from what it writes for it, also when the members
of objects were rearranged in between. What it writes has no decimals, so that its text can be read
back as well. Formats are put together from lossless formats, and are lossless again.

What a record leaves out when it is written has to be what stands for a missing field when it is
read. Beyond that, no two fields of a record may have the same name, and nothing that stands in an
optional value may be written as `null`.
-/

namespace ManagedLayout

open Json (IsRearrangement keys)

/-- Every value is written without decimals, and read back from its JSON form, whatever the order
of members. -/
class Format.Lossless {Value : Type} (format : Format Value) : Prop where
  isPlain : ∀ value, (format.toJson value).IsPlain
  ofJson_view : ∀ {view : Json → Json}, IsRearrangement view →
    ∀ value, format.ofJson (view (format.toJson value)) = .ok value

/-- No value is written as `null`. -/
class Format.NeverNull {Value : Type} (format : Format Value) : Prop where
  toJson_ne_null : ∀ value, format.toJson value ≠ .null

/-- A value that is left out is the one that stands for a missing value. -/
class Field.Lossless {Value : Type} (field : Field Value) : Prop where
  format : field.format.Lossless
  missing?_eq : ∀ value, field.isOmitted value = true → field.missing? = some value

/-- The members of the fields have the given names, in this order, up to those left out. If the
names differ, the fields are read back from their members, whatever the order of these and the
members with other names. -/
class Fields.Lossless {Values : Type} (fields : Fields Values) (names : outParam (List String)) :
    Prop where
  isPlain : ∀ values, ∀ member ∈ fields.toMembers values, member.2.IsPlain
  keys_sublist : ∀ values, (keys (fields.toMembers values)).Sublist names
  ofMembers_eq : names.Nodup → ∀ {view : Json → Json}, IsRearrangement view →
    ∀ values members, (keys members).Nodup →
      (∀ name ∈ names, ∀ json, (name, json) ∈ members ↔
        (name, json) ∈ (fields.toMembers values).map (Prod.map id view)) →
      fields.ofMembers members = .ok values

/-- The cases have the given names. If the names differ, values are read back from the name and the
payload of their case. -/
class Cases.Lossless {Values : Type} (cases : Cases Values) (names : outParam (List String)) :
    Prop where
  isPlain : ∀ values, ∀ payload ∈ (cases.toNamed values).2, payload.IsPlain
  name_mem : ∀ values, (cases.toNamed values).1 ∈ names
  ofNamed_eq : names.Nodup → ∀ {view : Json → Json}, IsRearrangement view →
    ∀ values, cases.ofNamed (cases.toNamed values).1 ((cases.toNamed values).2.map view) =
      .ok values

namespace Format

variable {Value : Type}

/-! ### Single values -/

theorem lossless_natural {width : Nat} {toNat : Value → Nat} {ofNat : Nat → Value}
    (ofNat_toNat : ∀ value, ofNat (toNat value) = value)
    (toNat_lt : ∀ value, toNat value < Nat.pow 256 width) :
    (natural width toNat ofNat).Lossless where
  isPlain _ := .integer _
  ofJson_view isRearrangement value := by
    have fits : (toNat value : Int) < Nat.pow 256 width := Int.ofNat_lt.mpr (toNat_lt value)
    simp only [natural, Json.ofNat, Json.ofInt, isRearrangement.number]
    rw [if_pos ⟨Int.natCast_nonneg _, fits⟩, Int.toNat_natCast, ofNat_toNat]

instance : uint8.Lossless := lossless_natural (fun _ ↦ UInt8.ofNat_toNat) UInt8.toNat_lt

instance : uint16.Lossless := lossless_natural (fun _ ↦ UInt16.ofNat_toNat) UInt16.toNat_lt

instance : uint32.Lossless := lossless_natural (fun _ ↦ UInt32.ofNat_toNat) UInt32.toNat_lt

instance : uint64.Lossless := lossless_natural (fun _ ↦ UInt64.ofNat_toNat) UInt64.toNat_lt

instance : int32.Lossless where
  isPlain _ := .integer _
  ofJson_view isRearrangement value := by
    simp only [int32, Json.ofInt, isRearrangement.number]
    rw [if_pos ⟨value.minValue_le_toInt, value.toInt_le⟩, Int32.ofInt_toInt]

instance : flag.Lossless where
  isPlain := .bool
  ofJson_view isRearrangement value := by simp [flag, isRearrangement.bool]

instance : text.Lossless where
  isPlain := .string
  ofJson_view isRearrangement value := by simp [text, isRearrangement.string]

instance : text.NeverNull where
  toJson_ne_null := nofun

/-- The absent index is written as -1, and every other one as its word. -/
instance {kind : TableKind} : (index : Format (Index kind)).Lossless where
  isPlain _ := .integer _
  ofJson_view isRearrangement value := by
    obtain ⟨raw⟩ := value
    simp only [index, Json.ofInt, isRearrangement.number, Index.number]
    split
    next isPresent =>
      have notMinusOne : (raw.toNat : Int) ≠ -1 := by omega
      have fits : (raw.toNat : Int) < UInt32.size := Int.ofNat_lt.mpr raw.toNat_lt
      rw [if_neg notMinusOne, if_pos ⟨Int.natCast_nonneg _, fits⟩, Int.toNat_natCast,
        UInt32.ofNat_toNat]
    next isAbsent =>
      obtain rfl : raw = Index.absentWord := by simpa [Index.isPresent] using isAbsent
      rfl

instance : version.Lossless where
  isPlain _ := .string _
  ofJson_view isRearrangement value := by
    simp [version, isRearrangement.string, versionOfText, Version.ofText?_text]

/-! ### Lists and optional values -/

section

variable {format : Format Value} [lossless : format.Lossless]

theorem ofJsonMany_view {view : Json → Json} (isRearrangement : IsRearrangement view)
    (values : List Value) :
    format.ofJsonMany ((values.map format.toJson).map view) = .ok values := by
  induction values with
  | nil => rfl
  | cons value values ih =>
    simp only [List.map_cons, ofJsonMany, lossless.ofJson_view isRearrangement, ih]
    rfl

instance : format.list.Lossless where
  isPlain values := .array (List.forall_mem_map.mpr fun value _ ↦ lossless.isPlain value)
  ofJson_view isRearrangement values := by
    simp only [list, isRearrangement.array]
    exact ofJsonMany_view isRearrangement values

instance [neverNull : format.NeverNull] : format.optional.Lossless where
  isPlain
    | none => .null
    | some value => lossless.isPlain value
  ofJson_view {view} isRearrangement value? := by
    cases value? with
    | none => simp only [optional, (isRearrangement.null_iff _).mpr]
    | some value =>
      have notNull : view (format.toJson value) ≠ .null := fun isNull ↦
        neverNull.toJson_ne_null value ((isRearrangement.null_iff _).mp isNull)
      simp only [optional, lossless.ofJson_view isRearrangement]
      rfl

theorem lossless_map {Other : Type} (build : Value → Other) (parts : Other → Value)
    (build_parts : ∀ value, build (parts value) = value) :
    (format.map build parts).Lossless where
  isPlain value := lossless.isPlain (parts value)
  ofJson_view isRearrangement value := by
    simp only [map, lossless.ofJson_view isRearrangement]
    exact congrArg Except.ok (build_parts value)

instance : format.array.Lossless := format.list.lossless_map _ _ fun _ ↦ Array.toArray_toList

instance {kind : TableKind} : (table format : Format (Table kind Value)).Lossless :=
  format.list.lossless_map _ _ Table.ofList_toList

end

/-- A value of an enumeration is read by its name. -/
theorem lossless_enumeration [DecidableEq Value] {all : List Value} {name : Value → String}
    (mem_all : ∀ value, value ∈ all) (distinct : (all.map name).Nodup) :
    (enumeration all name).Lossless where
  isPlain _ := .string _
  ofJson_view isRearrangement value := by
    have isFound : (all.find? (name · == name value)).isSome = true :=
      List.find?_isSome.mpr ⟨value, mem_all value, by simp⟩
    obtain ⟨found, isFound⟩ := Option.isSome_iff_exists.mp isFound
    obtain rfl : found = value :=
      List.inj_on_of_nodup_map distinct (List.mem_of_find?_eq_some isFound) (mem_all value)
        (by simpa using List.find?_some isFound)
    simp only [enumeration, isRearrangement.string, isFound]

end Format

/-! ### Records -/

section

variable {Value Values : Type}

namespace Field

variable {field : Field Value} {members : List (String × Json)}

theorem filter_zipIdx_eq_nil (isMissing : field.name ∉ keys members) (start : Nat) :
    ((members.zipIdx start).filter fun (member, _) ↦ member.1 == field.name) = [] := by
  rw [List.filter_eq_nil_iff]
  rintro ⟨member, position⟩ mem isNamed
  have sameName : member.1 = field.name := by simpa using isNamed
  exact isMissing (sameName ▸ List.mem_map_of_mem (List.fst_mem_of_mem_zipIdx mem))

theorem occurrences_eq_nil (isMissing : field.name ∉ keys members) :
    field.occurrences members = [] := by
  rw [occurrences, filter_zipIdx_eq_nil isMissing, List.map_nil]

theorem occurrences_eq_singleton (distinct : (keys members).Nodup) {json : Json}
    (mem : (field.name, json) ∈ members) :
    ∃ position, field.occurrences members = [(json, position)] := by
  obtain ⟨front, back, rfl⟩ := List.append_of_mem mem
  simp only [keys, List.map_append, List.map_cons, List.nodup_middle, List.nodup_cons,
    List.mem_append, not_or] at distinct
  obtain ⟨⟨notInFront, notInBack⟩, -⟩ := distinct
  refine ⟨front.length, ?_⟩
  simp [occurrences, List.zipIdx_append, filter_zipIdx_eq_nil notInFront,
    filter_zipIdx_eq_nil notInBack]

theorem keys_sublist (value : Value) : (keys (field.toMembers value)).Sublist [field.name] := by
  unfold toMembers
  split
  · exact List.nil_sublist _
  · exact .refl _

theorem isPlain_of_mem [lossless : field.Lossless] (value : Value) :
    ∀ member ∈ field.toMembers value, member.2.IsPlain := by
  unfold toMembers
  split
  · nofun
  · simpa using lossless.format.isPlain value

/-- A field is read back from its member, or from the lack of one if it was left out. -/
theorem ofMembers_eq [lossless : field.Lossless] {view : Json → Json}
    (isRearrangement : IsRearrangement view) {value : Value} (distinct : (keys members).Nodup)
    (same : ∀ json, (field.name, json) ∈ members ↔
      (field.name, json) ∈ (field.toMembers value).map (Prod.map id view)) :
    field.ofMembers members = .ok value := by
  by_cases isOmitted : field.isOmitted value = true
  · have isMissing : field.name ∉ keys members := by
      rw [keys, List.mem_map]
      rintro ⟨⟨_, json⟩, mem, rfl⟩
      simpa [toMembers, isOmitted] using (same json).mp mem
    simp only [ofMembers, occurrences_eq_nil isMissing, lossless.missing?_eq value isOmitted]
  · have mem : (field.name, view (field.format.toJson value)) ∈ members :=
      (same _).mpr (by simp [toMembers, isOmitted])
    obtain ⟨position, single⟩ := occurrences_eq_singleton distinct mem
    simp only [ofMembers, single, lossless.format.ofJson_view isRearrangement]

end Field

instance {name : String} {format : Format Value} [lossless : format.Lossless] :
    (Field.required name format).Lossless := ⟨lossless, nofun⟩

instance {name : String} {format : Format Value} {value : Value} [lossless : format.Lossless] :
    (Field.defaulted name format value).Lossless := ⟨lossless, nofun⟩

instance : Fields.none.Lossless [] where
  isPlain _ := nofun
  keys_sublist _ := .refl _
  ofMembers_eq _ _ _ _ _ _ _ := rfl

instance {field : Field Value} {fields : Fields Values} {names : List String}
    [lossless : field.Lossless] [losslessFields : fields.Lossless names] :
    (Fields.cons field fields).Lossless (field.name :: names) where
  isPlain values := by
    rw [Fields.cons, List.forall_mem_append]
    exact ⟨field.isPlain_of_mem values.1, losslessFields.isPlain values.2⟩
  keys_sublist values := by
    rw [Fields.cons, keys, List.map_append]
    exact (field.keys_sublist values.1).append (losslessFields.keys_sublist values.2)
  ofMembers_eq distinct {view} isRearrangement values members distinctKeys same := by
    obtain ⟨isOther, distinct⟩ := List.nodup_cons.mp distinct
    have own : field.ofMembers members = .ok values.1 :=
      field.ofMembers_eq isRearrangement distinctKeys fun json ↦ by
        rw [same _ List.mem_cons_self, Fields.cons, List.map_append, List.mem_append, or_iff_left]
        exact fun mem ↦
          isOther ((losslessFields.keys_sublist _).subset (Json.key_mem_of_mem_map mem))
    have others : fields.ofMembers members = .ok values.2 :=
      losslessFields.ofMembers_eq distinct isRearrangement _ _ distinctKeys fun name mem json ↦ by
        rw [same _ (List.mem_cons_of_mem _ mem), Fields.cons, List.map_append, List.mem_append,
          or_iff_right]
        intro own
        have sameName : name = field.name :=
          List.mem_singleton.mp ((field.keys_sublist _).subset (Json.key_mem_of_mem_map own))
        exact isOther (sameName ▸ mem)
    simp only [Fields.cons, own, others, Fields.both]

/-- Records are read back if their fields are. -/
theorem Format.Lossless.record {fields : Fields Values} {names : List String}
    [lossless : fields.Lossless names] {build : Values → Value} {values : Value → Values}
    (build_values : ∀ value, build (values value) = value) (distinct : names.Nodup) :
    (Format.record fields build values).Lossless where
  isPlain value := .object (lossless.isPlain (values value))
  ofJson_view {view} isRearrangement value := by
    have distinctKeys := distinct.sublist (lossless.keys_sublist (values value))
    obtain ⟨members, same, perm⟩ := isRearrangement.object _ distinctKeys
    rw [← Json.keys_map _ view, ← (Json.keys_perm perm).nodup_iff] at distinctKeys
    have read : fields.ofMembers members = .ok (values value) :=
      lossless.ofMembers_eq distinct isRearrangement _ _ distinctKeys fun _ _ _ ↦ perm.mem_iff
    simp only [Format.record, same, read, build_values]

instance {fields : Fields Values} {build : Values → Value} {values : Value → Values} :
    (Format.record fields build values).NeverNull where
  toJson_ne_null := nofun

/-! ### Choices -/

instance : Cases.none.Lossless [] where
  isPlain := nofun
  name_mem := nofun
  ofNamed_eq _ _ _ := nofun

instance {name : String} {format : Format Value} {cases : Cases Values} {names : List String}
    [lossless : format.Lossless] [losslessCases : cases.Lossless names] :
    (Cases.payload name format cases).Lossless (name :: names) where
  isPlain
    | .inl value => by simpa [Cases.payload] using lossless.isPlain value
    | .inr values => losslessCases.isPlain values
  name_mem
    | .inl _ => List.mem_cons_self
    | .inr values => List.mem_cons_of_mem _ (losslessCases.name_mem values)
  ofNamed_eq distinct {view} isRearrangement
    | .inl value => by
      simp only [Cases.payload, if_pos, Option.map_some, lossless.ofJson_view isRearrangement]
      rfl
    | .inr values => by
      have isOther : (cases.toNamed values).1 ≠ name := fun same ↦
        (List.nodup_cons.mp distinct).1 (same ▸ losslessCases.name_mem values)
      have read := losslessCases.ofNamed_eq distinct.of_cons isRearrangement values
      simp only [Cases.payload, if_neg isOther, read]
      rfl

instance {name : String} {cases : Cases Values} {names : List String}
    [losslessCases : cases.Lossless names] : (Cases.plain name cases).Lossless (name :: names) where
  isPlain
    | .inl () => nofun
    | .inr values => losslessCases.isPlain values
  name_mem
    | .inl _ => List.mem_cons_self
    | .inr values => List.mem_cons_of_mem _ (losslessCases.name_mem values)
  ofNamed_eq distinct {view} isRearrangement
    | .inl () => by simp only [Cases.plain, if_pos, Option.map_none]
    | .inr values => by
      have isOther : (cases.toNamed values).1 ≠ name := fun same ↦
        (List.nodup_cons.mp distinct).1 (same ▸ losslessCases.name_mem values)
      have read := losslessCases.ofNamed_eq distinct.of_cons isRearrangement values
      simp only [Cases.plain, if_neg isOther, read]
      rfl

/-- Choices are read back if their payloads are. -/
theorem Format.Lossless.choice {cases : Cases Values} {names : List String}
    [lossless : cases.Lossless names] {build : Values → Value} {values : Value → Values}
    (build_values : ∀ value, build (values value) = value) (distinct : names.Nodup) :
    (Format.choice cases build values).Lossless where
  isPlain value := by
    have isPlain := lossless.isPlain (values value)
    simp only [Format.choice]
    cases named : cases.toNamed (values value) with
    | mk name payload? =>
      rw [named] at isPlain
      cases payload? with
      | none => exact .string name
      | some payload => exact .object (by simpa using isPlain)
  ofJson_view isRearrangement value := by
    have read := lossless.ofNamed_eq distinct isRearrangement (values value)
    simp only [Format.choice]
    cases named : cases.toNamed (values value) with
    | mk name payload? =>
      rw [named] at read
      cases payload? with
      | none =>
        simp only [Option.map_none] at read
        simp only [isRearrangement.string, read]
        exact congrArg Except.ok (build_values value)
      | some payload =>
        obtain ⟨members, same, perm⟩ := isRearrangement.object [(name, payload)] (by simp [keys])
        obtain rfl := List.perm_singleton.mp perm
        simp only [Option.map_some] at read
        simp only [same, Prod.map, id, read]
        exact congrArg Except.ok (build_values value)

instance {cases : Cases Values} {build : Values → Value} {values : Value → Values} :
    (Format.choice cases build values).NeverNull where
  toJson_ne_null value := by
    simp only [Format.choice]
    split <;> nofun

end

end ManagedLayout

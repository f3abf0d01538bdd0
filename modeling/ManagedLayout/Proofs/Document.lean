import ManagedLayout.Document
import ManagedLayout.Proofs.Format.Json
import Mathlib.Data.List.Basic

/-!
# Reading a document

A document is read back from its text, with everything that was left out of it. Since an entry of a
runtime generic context also keeps its kind there, the records of a build follow from the text of
their document.
-/

namespace ManagedLayout

/-! ### Lossless formats -/

instance {name : String} {Value : Type} {format : Format Value} [format.Lossless]
    [format.NeverNull] : (Field.ifPresent name format).Lossless where
  format := inferInstanceAs format.optional.Lossless
  missing?_eq _ isNone := congrArg some (Option.isNone_iff_eq_none.mp isNone).symm

instance {name : String} {Value : Type} {format : Format Value} [format.Lossless] :
    (Field.ifAny name format).Lossless where
  format := inferInstanceAs format.list.Lossless
  missing?_eq _ isEmpty := congrArg some (List.isEmpty_iff.mp isEmpty).symm

instance : FieldLayout.format.Lossless := .record (fun _ ↦ rfl) (by decide)

instance : CallSite.format.Lossless := .record (fun _ ↦ rfl) (by decide)

instance : virtualMethodFormat.Lossless := .record (fun _ ↦ rfl) (by decide)

theorem ContextInfoKind.mem_all (kind : ContextInfoKind) : kind ∈ all := by cases kind <;> decide

instance : ContextInfoKind.format.Lossless :=
  Format.lossless_enumeration ContextInfoKind.mem_all (by decide)

instance : ContextInfo.format.Lossless := .record (fun _ ↦ rfl) (by decide)

instance : methodContextFormat.Lossless := .record (fun _ ↦ rfl) (by decide)

instance : StructInfo.format.Lossless := .record (fun _ ↦ rfl) (by decide)

instance : Document.format.Lossless :=
  (Format.list StructInfo.format).lossless_map Document.mk Document.structs fun _ ↦ rfl

/-! ### Records of a document -/

/-- The name of an entry and the kind that it has come from one entry only. -/
theorem ContextRecord.info_injective : Function.Injective ContextRecord.info := by
  rintro ⟨name⟩ ⟨other⟩ same <;> simp_all [info]

theorem MethodContext.map_injective {Entry Other : Type} {form : Entry → Other}
    (injective : Function.Injective form) : Function.Injective (MethodContext.map form) := by
  intro context other same
  cases context
  cases other
  simpa only [map, MethodContext.mk.injEq, injective.list_map.eq_iff] using same

/-- Layouts differ after a change of form if they did before, and the form keeps entries apart. -/
theorem Layout.map_injective {Entry Other : Type} {form : Entry → Other}
    (injective : Function.Injective form) : Function.Injective (Layout.map form) := by
  intro layout other same
  cases layout
  cases other
  simpa only [map, Layout.mk.injEq, injective.list_map.eq_iff,
    (MethodContext.map_injective injective).list_map.eq_iff] using same

namespace Document

theorem ofRecords_injective : Function.Injective ofRecords := fun _ _ same ↦
  (Layout.map_injective ContextRecord.info_injective).list_map (Document.mk.inj same)

theorem ofJson_view_toJson {view : Json → Json} (isRearrangement : Json.IsRearrangement view)
    (document : Document) : ofJson (view document.toJson) = .ok document :=
  have lossless : format.Lossless := inferInstance
  lossless.ofJson_view isRearrangement document

theorem ofText?_text (document : Document) : Json.ofText? document.text = some document.toJson :=
  have lossless : format.Lossless := inferInstance
  Json.ofText?_pretty (lossless.isPlain document)

theorem canonical_toJson_injective : Function.Injective (Json.canonical ∘ toJson) := by
  intro document other same
  have read := ofJson_view_toJson Json.isRearrangement_canonical
  apply Except.ok.inj
  calc .ok document
    _ = ofJson document.toJson.canonical := (read document).symm
    _ = ofJson other.toJson.canonical := congrArg ofJson same
    _ = .ok other := read other

theorem text_injective : Function.Injective text := by
  intro document other same
  have written : some document.toJson = some other.toJson :=
    calc some document.toJson
      _ = Json.ofText? document.text := (ofText?_text document).symm
      _ = Json.ofText? other.text := congrArg Json.ofText? same
      _ = some other.toJson := ofText?_text other
  exact canonical_toJson_injective (congrArg Json.canonical (Option.some.inj written))

/-- **Documents lose nothing.** A document is read back from its text, and from its JSON value with
the members of objects in the order written or in that of their keys. Different records of a build
have documents with different texts and different values. -/
theorem nothing_lost :
    (∀ document : Document, Json.ofText? document.text = some document.toJson ∧
      ofJson document.toJson = .ok document ∧ ofJson document.toJson.canonical = .ok document) ∧
    ∀ records others : List StructRecord,
      ((ofRecords records).text = (ofRecords others).text ↔ records = others) ∧
      ((ofRecords records).toJson.canonical = (ofRecords others).toJson.canonical ↔
        records = others) := by
  refine ⟨fun document ↦ ⟨ofText?_text document,
    ofJson_view_toJson Json.isRearrangement_id document,
    ofJson_view_toJson Json.isRearrangement_canonical document⟩, fun records others ↦ ?_⟩
  exact ⟨(text_injective.comp ofRecords_injective).eq_iff,
    (canonical_toJson_injective.comp ofRecords_injective).eq_iff⟩

end Document

end ManagedLayout

import ManagedLayout.Catalogue.Build
import ManagedLayout.Proofs.Catalogue.CallSites
import ManagedLayout.Proofs.Catalogue.ReferenceNames

/-!
# The members of layouts

Each step of a layout keeps the state of the resolution faithful. The fields of a layout are those
that the definition declares, in their order, and their C types and the parent are names by which
their types are referred to.
-/

namespace ManagedLayout

/-- The fields among these that layouts have, either those of instances or those of the type. -/
def Metadata.laidOut (metadata : Metadata) (isStatic : Bool) (fields : List FieldDefinition) :
    List FieldDefinition :=
  fields.filter fun field ↦
    match metadata.typeReference field.type with
    | .ok reference => !reference.isLiteral && reference.isStatic == isStatic
    | .error _ => false

/-- A field of a layout has the C type that its declaration says. -/
def FieldDefinition.IsTyped (metadata : Metadata) (emits : String → Prop) (context : GenericContext)
    (field : FieldDefinition) (layout : FieldLayout) : Prop :=
  ∃ tree, metadata.Expands ⟨field.type, context, .value⟩ tree ∧
    tree.IsTypeName metadata emits layout.typeName

namespace FieldSplit

/-- The fields of a layout so far are those declared so far. -/
structure Fits (metadata : Metadata) (emits : String → Prop) (context : GenericContext)
    (fields : List FieldDefinition) (split : FieldSplit) : Prop where
  instanceFields : List.Forall₂ (FieldDefinition.IsTyped metadata emits context)
    (metadata.laidOut false fields) split.instanceFields.toList
  staticFields : List.Forall₂ (FieldDefinition.IsTyped metadata emits context)
    (metadata.laidOut true fields) split.staticFields.toList

variable {metadata : Metadata} {emits : String → Prop} {context : GenericContext}
  {fields : List FieldDefinition} {split : FieldSplit} {field : FieldDefinition}
  {reference : TypeReference}

theorem fits_empty : empty.Fits metadata emits context [] := ⟨.nil, .nil⟩

/-- A constant has no place in a layout. -/
theorem Fits.skip (fits : split.Fits metadata emits context fields)
    (isReference : metadata.typeReference field.type = .ok reference)
    (isLiteral : reference.isLiteral) : split.Fits metadata emits context (fields ++ [field]) := by
  have noPlace (isStatic : Bool) :
      metadata.laidOut isStatic (fields ++ [field]) = metadata.laidOut isStatic fields := by
    simp [Metadata.laidOut, isReference, isLiteral]
  constructor
  · rw [noPlace]
    exact fits.instanceFields
  · rw [noPlace]
    exact fits.staticFields

theorem Fits.insert {layout : FieldLayout} {pool : NamePool}
    (fits : split.Fits metadata emits context fields)
    (isReference : metadata.typeReference field.type = .ok reference)
    (notLiteral : reference.isLiteral = false) (typed : field.IsTyped metadata emits context layout) :
    (split.insert reference.isStatic layout pool).Fits metadata emits context
      (fields ++ [field]) := by
  have place (isStatic : Bool) : metadata.laidOut isStatic (fields ++ [field]) =
      metadata.laidOut isStatic fields ++ if reference.isStatic = isStatic then [field] else [] := by
    simp [Metadata.laidOut, isReference, notLiteral, List.filter_cons]
  have last := List.Forall₂.cons typed .nil
  cases isStatic : reference.isStatic with
  | true =>
    constructor
    · rw [place, isStatic]
      simpa [FieldSplit.insert] using fits.instanceFields
    · rw [place, isStatic]
      simpa [FieldSplit.insert] using List.rel_append fits.staticFields last
  | false =>
    constructor
    · rw [place, isStatic]
      simpa [FieldSplit.insert] using List.rel_append fits.instanceFields last
    · rw [place, isStatic]
      simpa [FieldSplit.insert] using fits.staticFields

end FieldSplit

namespace Linkage

open Resolve

variable {linkage : Linkage} {state : ResolutionState}

section Contexts

theorem keeps_contextRecord (entry : ContextEntry) :
    Keeps linkage.metadata (linkage.contextRecord entry) state fun _ _ ↦ True := by
  unfold contextRecord
  split
  iterate 2
    · apply Keeps.bind (remembers_resolve _ .empty .name state)
      intro _ _ _ _ _
      exact .bind_get (.pure trivial)
  · apply Keeps.bind_lookup
    intro context _
    apply Keeps.bind_lookup
    intro spec _
    apply Keeps.bind_lookup
    intro method _
    apply Keeps.bind (keeps_describe method.declaringType)
    intro _ _ _ _ _
    apply Keeps.bind_get
    apply Keeps.bind (spells_instantiationText? context.classArguments?)
    intro _ _ _ _ _
    exact .bind (spells_instantiationText? context.methodArguments?) fun _ _ _ _ _ ↦ .pure trivial
  · exact .throw

theorem keeps_methodContexts (image : Image) (methods : List (Index .methods)) :
    Keeps linkage.metadata (linkage.methodContexts image methods) state fun _ _ ↦ True := by
  apply Keeps.filterMapM_trivial
  intro method state
  apply Keeps.bind_lookup
  intro entries _
  split
  · exact .pure trivial
  · apply Keeps.bind_lookup
    intro record _
    apply Keeps.bind (Keeps.mapM_trivial (fun entry _ ↦ keeps_contextRecord entry) entries state)
    intro _ _ _ _ _
    exact .pure trivial

end Contexts

section Fields

variable {names : BuildNames} {emits : String → Prop} {definition : TypeDefinition}
  {index : Index .typeDefinitions} {context : GenericContext}

theorem keeps_addField {offsets : OffsetSource} {split : FieldSplit} {fields : List FieldDefinition}
    (closed : names.Closed linkage.metadata emits)
    (fits : split.Fits linkage.metadata emits context fields) (field : FieldDefinition)
    (ordinal : Nat) :
    Keeps linkage.metadata
      (linkage.addField names offsets index definition context split field ordinal) state
      fun result _ ↦ result.Fits linkage.metadata emits context (fields ++ [field]) := by
  apply Keeps.bind_lookup
  intro reference isReference
  split
  next isLiteral => exact .pure (fits.skip isReference isLiteral)
  next notLiteral =>
    apply Keeps.bind (remembers_resolve field.type context .value state)
    intro usage after faithful _ done
    apply Keeps.bind_get
    apply Keeps.pure
    have known := faithful.usages _ usage done
    apply fits.insert isReference (by simpa using notLiteral)
    exact ⟨after.usageTree usage, Metadata.expands_normal.mp known.expands,
      closed.isTypeName_fieldTypeName faithful known.stored⟩

/-- The fields of a layout are those that the definition declares, in their order. -/
theorem keeps_splitFields {offsets : OffsetSource} (closed : names.Closed linkage.metadata emits) :
    Keeps linkage.metadata (linkage.splitFields names offsets index definition context) state
      fun split _ ↦ ∃ fields, linkage.metadata.declarations.fields.slice? definition.fieldStart
          definition.fieldCount.toUInt32 = some fields ∧
        split.Fits linkage.metadata emits context fields := by
  unfold splitFields
  split
  next => exact .throw
  next fields isFields =>
    have start : FieldSplit.empty.Fits linkage.metadata emits context
        (([] : List (FieldDefinition × Nat)).map Prod.fst) := FieldSplit.fits_empty
    apply (Keeps.foldlM
      (fun before split _ ↦ split.Fits linkage.metadata emits context (before.map Prod.fst))
      ?_ _ start).mono
    · intro split _ _ _ fits
      rw [List.zipIdx_map_fst] at fits
      exact ⟨fields, isFields, fits⟩
    · intro before ⟨field, ordinal⟩ _ _ split state fits
      rw [List.map_append]
      exact keeps_addField closed fits field ordinal

/-- The parent of a layout is named by the usage of the declared one. -/
theorem keeps_parentName? :
    Keeps linkage.metadata (linkage.parentName? names index definition context) state
      (definition.NamesParent linkage.metadata names index context) := by
  unfold parentName? TypeDefinition.NamesParent
  split
  next => exact .pure rfl
  next =>
    cases isParent : definition.parent.present? with
    | none => exact .pure rfl
    | some parent =>
      apply Keeps.bind (remembers_resolve parent context .name state)
      intro usage after faithful _ done
      apply Keeps.bind_get
      have namedBy {parent? : Option String} {last : ResolutionState} (extend : after.Extends last)
          (isName : parent? = names.parentOf? after index usage) :
          ∃ named usage, ResolutionState.Faithful linkage.metadata named ∧ named.Extends last ∧
            named.usages[linkage.metadata.normal ⟨parent, context, .name⟩]? = some (.done usage) ∧
            parent? = names.parentOf? named index usage :=
        ⟨after, usage, faithful, extend, done, isName⟩
      have stored := (faithful.usages _ usage done).stored
      have found := Array.getElem?_eq_getElem stored
      generalize after.descriptors[usage.descriptor.position] = descriptor at found
      rw [ResolutionState.descriptor_eq found]
      split
      next isKind =>
        refine .pure (namedBy .refl ?_)
        rw [BuildNames.parentOf?, ResolutionState.descriptorTree_builtin found isKind]
      next other isKind =>
        obtain ⟨declaring?, isTree⟩ :=
          ResolutionState.exists_descriptorTree_definition found isKind
        split
        next isOwn =>
          apply Keeps.bind (keeps_report _)
          intro _ _ _ reported _
          refine .pure (namedBy reported.toExtends ?_)
          rw [BuildNames.parentOf?, isTree]
          exact (if_pos isOwn).symm
        next notOwn =>
          refine .pure (namedBy .refl ?_)
          rw [BuildNames.parentOf?, isTree]
          exact (if_neg notOwn).symm
      next isKind =>
        obtain ⟨declaring?, arguments, isTree⟩ :=
          ResolutionState.exists_descriptorTree_instantiation found isKind
        refine .pure (namedBy .refl ?_)
        rw [BuildNames.parentOf?, isTree]
      next kind notObject isKind =>
        apply Keeps.bind (keeps_report _)
        intro _ _ _ reported _
        refine .pure (namedBy reported.toExtends ?_)
        rw [BuildNames.parentOf?, ResolutionState.descriptorTree_builtin found isKind]
      next parameter isKind =>
        apply Keeps.bind (keeps_report _)
        intro _ _ _ reported _
        refine .pure (namedBy reported.toExtends ?_)
        rw [BuildNames.parentOf?, ResolutionState.descriptorTree_parameter found isKind]

end Fields

end Linkage

end ManagedLayout

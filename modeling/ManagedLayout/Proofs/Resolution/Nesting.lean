import ManagedLayout.Proofs.Resolution.Memory
import Mathlib.Data.Set.Basic
import Mathlib.Order.Nat

/-!
# Nesting of type references

How deep the references that a usage is made of are nested in each other, and how deep they are
nested for a resolution that has resolved some of them already. A resolution counts only the levels
that it has to work on; `TooNested` says when these are too many. The parts of a type are worked on
in order, so that what is in the parts before counts as resolved.
-/

namespace ManagedLayout

namespace TypeLayer

/-- A layer has a tree if all of its parts have. -/
theorem exists_tree {expand : UsageKey → Except LayoutError TypeTree} {layer : TypeLayer}
    (expands : ∀ part ∈ layer.parts, ∃ tree, expand part = .ok tree) :
    ∃ tree, layer.tree expand = .ok tree := by
  have declaring_exists (declaring? : Option UsageKey)
      (mem : ∀ part ∈ declaring?, part ∈ layer.parts) :
      ∃ tree?, (declaring?.mapM fun part ↦ TypeTree.core <$> expand part) = .ok tree? := by
    cases declaring? with
    | none => exact ⟨none, rfl⟩
    | some part =>
      obtain ⟨tree, expanded⟩ := expands part (mem part rfl)
      refine ⟨some tree.core, lookup_optionMapM_eq_ok.mpr (.inr ⟨_, _, rfl, rfl, ?_⟩)⟩
      exact lookup_map_eq_ok.mpr ⟨tree, expanded, rfl⟩
  cases layer with
  | builtin | parameter => exact ⟨_, rfl⟩
  | replaced part => exact expands part (by simp [parts])
  | pointer part | array _ part =>
    obtain ⟨tree, expanded⟩ := expands part (by simp [parts])
    exact ⟨_, by rw [TypeLayer.tree, expanded]; rfl⟩
  | definition _ declaring? =>
    obtain ⟨tree?, expanded⟩ := declaring_exists declaring? (by simp [parts])
    exact ⟨_, by rw [TypeLayer.tree, expanded]; rfl⟩
  | instantiation _ _ declaring? arguments =>
    obtain ⟨tree?, expanded⟩ := declaring_exists declaring? fun part mem ↦ by
      simp [parts, Option.mem_def.mp mem]
    obtain ⟨trees, expandedArguments⟩ :=
      exists_mapM_eq_ok fun (part : UsageKey) (mem : part ∈ arguments) ↦
        expands part (by simp [parts, mem])
    exact ⟨_, by rw [TypeLayer.tree, expanded, lookup_ok_bind, expandedArguments]; rfl⟩

end TypeLayer

namespace Metadata

variable {metadata : Metadata} {key other : UsageKey}

/-- The usage expands to at most so many layers on top of each other. -/
def Within (metadata : Metadata) (layers : Nat) (key : UsageKey) : Prop :=
  ∃ tree, metadata.treeWithin layers key = .ok tree

@[simp]
theorem not_within_zero : ¬metadata.Within 0 key := by
  simp [Within, treeWithin]

theorem within_succ {layers : Nat} :
    metadata.Within (layers + 1) key ↔
      ∃ layer, metadata.layer key = .ok layer ∧ ∀ part ∈ layer.parts, metadata.Within layers part := by
  simp only [Within, treeWithin, lookup_bind_eq_ok]
  constructor
  · rintro ⟨tree, layer, isLayer, assembled⟩
    exact ⟨layer, isLayer, fun part ↦ TypeLayer.expand_of_mem_parts assembled⟩
  · rintro ⟨layer, isLayer, expands⟩
    obtain ⟨tree, assembled⟩ := TypeLayer.exists_tree expands
    exact ⟨tree, layer, isLayer, assembled⟩

theorem Within.mono {layers more : Nat} (within : metadata.Within layers key)
    (enough : layers ≤ more) : metadata.Within more key := by
  obtain ⟨tree, expanded⟩ := within
  exact ⟨tree, treeWithin_mono enough expanded⟩

theorem within_of_normal_eq {layers : Nat} (same : metadata.normal key = metadata.normal other)
    (within : metadata.Within layers key) : metadata.Within layers other := by
  cases layers with
  | zero => simp at within
  | succ layers =>
    rw [within_succ, ← layer_normal] at within ⊢
    rwa [← same]

/-- The usage expands to so many layers on top of each other, and no fewer. -/
def IsDepth (metadata : Metadata) (depth : Nat) (key : UsageKey) : Prop :=
  metadata.Within depth key ∧ ∀ layers < depth, ¬metadata.Within layers key

theorem Within.exists_depth {layers : Nat} (within : metadata.Within layers key) :
    ∃ depth ≤ layers, metadata.IsDepth depth key := by
  classical
  have exists_within : ∃ layers, metadata.Within layers key := ⟨layers, within⟩
  exact ⟨Nat.find exists_within, Nat.find_min' exists_within within, Nat.find_spec exists_within,
    fun _ ↦ Nat.find_min exists_within⟩

/-- What a usage is made of, itself included. -/
inductive Component (metadata : Metadata) : UsageKey → UsageKey → Prop where
  | self {key other : UsageKey} (same : metadata.normal other = metadata.normal key) :
    Component metadata key other
  | part {key part other : UsageKey} {layer : TypeLayer} (isLayer : metadata.layer key = .ok layer)
    (mem : part ∈ layer.parts) (component : Component metadata part other) :
    Component metadata key other

/-- What some of the usages are made of. -/
def components (metadata : Metadata) (keys : List UsageKey) : Set UsageKey :=
  {other | ∃ key ∈ keys, metadata.Component key other}

@[simp]
theorem components_nil : metadata.components [] = ∅ := by
  simp [components]

theorem components_cons (key : UsageKey) (keys : List UsageKey) :
    metadata.components (key :: keys) = metadata.components [key] ∪ metadata.components keys := by
  ext other
  simp [components]

@[simp]
theorem components_append {keys more : List UsageKey} :
    metadata.components (keys ++ more) = metadata.components keys ∪ metadata.components more := by
  ext other
  simp [components, or_and_right, exists_or]

/-- What a usage is made of is itself, and what its parts are made of. -/
theorem components_singleton {layer : TypeLayer} (isLayer : metadata.layer key = .ok layer) :
    metadata.components [key] =
      {other | metadata.normal other = metadata.normal key} ∪ metadata.components layer.parts := by
  ext other
  simp only [components, List.mem_singleton, exists_eq_left, Set.mem_ofPred_eq, Set.mem_union]
  constructor
  · intro component
    cases component with
    | self same => exact .inl same
    | part isOther mem component =>
      obtain rfl := Except.ok.inj (isLayer.symm.trans isOther)
      exact .inr ⟨_, mem, component⟩
  · rintro (same | ⟨part, mem, component⟩)
    · exact .self same
    · exact .part isLayer mem component

/-- Whether any of the parts is too deep, if the ones before it are resolved first. -/
def SomeTooNested (metadata : Metadata) (tooNested : Set UsageKey → UsageKey → Prop) :
    (resolved : Set UsageKey) → List UsageKey → Prop
  | _, [] => False
  | resolved, part :: rest =>
    tooNested resolved part ∨
      metadata.SomeTooNested tooNested (resolved ∪ metadata.components [part]) rest

/-- With some usages resolved already, resolving a usage means to work on more usages inside each
other than there is room for. -/
def TooNested (metadata : Metadata) : (room : Nat) → (resolved : Set UsageKey) → UsageKey → Prop
  | 0, resolved, key => key ∉ resolved
  | room + 1, resolved, key =>
    key ∉ resolved ∧ ∃ layer, metadata.layer key = .ok layer ∧
      metadata.SomeTooNested (metadata.TooNested room) resolved layer.parts

theorem someTooNested_append {tooNested : Set UsageKey → UsageKey → Prop}
    {resolved : Set UsageKey} {keys more : List UsageKey} :
    metadata.SomeTooNested tooNested resolved (keys ++ more) ↔
      metadata.SomeTooNested tooNested resolved keys ∨
        metadata.SomeTooNested tooNested (resolved ∪ metadata.components keys) more := by
  induction keys generalizing resolved with
  | nil => simp [SomeTooNested]
  | cons key keys ih =>
    rw [List.cons_append, SomeTooNested, SomeTooNested, ih, components_cons key keys, Set.union_assoc,
      or_assoc]

theorem TooNested.notMem {room : Nat} {resolved : Set UsageKey}
    (tooNested : metadata.TooNested room resolved key) : key ∉ resolved := by
  cases room with
  | zero => exact tooNested
  | succ room => exact tooNested.1

/-- What expands to few layers is never too deep. -/
theorem Within.not_tooNested {room : Nat} (within : metadata.Within room key)
    (resolved : Set UsageKey) : ¬metadata.TooNested room resolved key := by
  induction room generalizing key resolved with
  | zero => simp at within
  | succ room ih =>
    rintro ⟨-, layer, isLayer, someTooNested⟩
    obtain ⟨other, isOther, partsWithin⟩ := within_succ.mp within
    obtain rfl := Except.ok.inj (isLayer.symm.trans isOther)
    generalize layer.parts = parts at someTooNested partsWithin
    induction parts generalizing resolved with
    | nil => exact someTooNested
    | cons part rest ihParts =>
      obtain tooNested | someTooNested := someTooNested
      · exact ih (partsWithin part (by simp)) resolved tooNested
      · exact ihParts _ someTooNested fun part mem ↦ partsWithin part (by simp [mem])

end Metadata

end ManagedLayout

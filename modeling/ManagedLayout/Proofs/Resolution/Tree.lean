import ManagedLayout.Proofs.Resolution.Recipe

/-!
# Expansion of type references

What a type reference stands for, written out as a tree, and without any memory of what has been
expanded before. One layer of a tree says what a usage is made of directly; `Metadata.treeWithin`
puts layers on top of each other, at most as many as it is allowed. More layers than needed do not
change a tree, so that a usage has at most one.
-/

namespace ManagedLayout

/-- A type, written out. -/
inductive TypeTree where
  | builtin (kind : TypeKind)
  /-- A generic parameter that stands for itself. -/
  | parameter (parameter : Index .genericParameters)
  | definition (definition : Index .typeDefinitions) (declaring? : Option TypeTree)
  | instantiation (genericClass : Index .genericClasses) (definition : Index .typeDefinitions)
    (declaring? : Option TypeTree) (arguments : List TypeTree)
  | pointer (pointee : TypeTree)
  | array (shape : ArrayShape) (element : TypeTree)

namespace TypeTree

instance : Inhabited TypeTree := ⟨builtin .object⟩

/-- What is left of a type without the arrays and pointers around it. -/
def core : TypeTree → TypeTree
  | pointer pointee => pointee.core
  | array _ element => element.core
  | tree => tree

/-- As many pointers around a type. -/
def pointers (tree : TypeTree) : Nat → TypeTree
  | 0 => tree
  | count + 1 => pointer (tree.pointers count)

@[simp]
theorem core_pointers (tree : TypeTree) (count : Nat) : (tree.pointers count).core = tree.core := by
  induction count with
  | zero => rfl
  | succ count ih => exact ih

end TypeTree

/-- One layer of a type: what a usage is, in terms of the usages that it is made of. -/
inductive TypeLayer where
  | builtin (kind : TypeKind)
  | parameter (parameter : Index .genericParameters)
  /-- The usage stands for another one: a parameter for its argument, an enumeration for its integer
  type. -/
  | replaced (part : UsageKey)
  | definition (definition : Index .typeDefinitions) (declaring? : Option UsageKey)
  | instantiation (genericClass : Index .genericClasses) (definition : Index .typeDefinitions)
    (declaring? : Option UsageKey) (arguments : List UsageKey)
  | pointer (pointee : UsageKey)
  | array (shape : ArrayShape) (element : UsageKey)

namespace TypeLayer

/-- The usages that a layer is made of, in the order in which they are resolved. -/
def parts : TypeLayer → List UsageKey
  | builtin _ | parameter _ => []
  | replaced part | pointer part | array _ part => [part]
  | definition _ declaring? => declaring?.toList
  | instantiation _ _ declaring? arguments => declaring?.toList ++ arguments

/-- The tree of a layer, given those of its parts. A declaring type counts without the arrays and
pointers around it. -/
def tree (expand : UsageKey → Except LayoutError TypeTree) : TypeLayer → Except LayoutError TypeTree
  | builtin kind => .ok (.builtin kind)
  | parameter index => .ok (.parameter index)
  | replaced part => expand part
  | definition index declaring? => do
    return .definition index (← declaring?.mapM fun part ↦ TypeTree.core <$> expand part)
  | instantiation genericClass index declaring? arguments => do
    let declaring? ← declaring?.mapM fun part ↦ TypeTree.core <$> expand part
    return .instantiation genericClass index declaring? (← arguments.mapM expand)
  | pointer part => return .pointer (← expand part)
  | array shape part => return .array shape (← expand part)

end TypeLayer

namespace Metadata

/-- The usage of the declaring type of a definition, which names it without a context. -/
def declaringUsage? (metadata : Metadata) (definition : Index .typeDefinitions) :
    Except LayoutError (Option UsageKey) := do
  let record ← metadata.typeDefinition definition
  let _ ← metadata.declaredParameters record
  return record.declaringType.present?.map (⟨·, .empty, .name⟩)

/-- The outermost layer of a usage with such a recipe. -/
def recipeLayer (metadata : Metadata) : Recipe → Except LayoutError TypeLayer
  | .builtin kind => return .builtin kind
  | .parameter parameter => do
    let _ ← metadata.genericParameter parameter
    return .parameter parameter
  | .replaced part => return .replaced part
  | .pointer part => return .pointer part
  | .array shape part => return .array shape part
  | .definition definition => return .definition definition (← metadata.declaringUsage? definition)
  | .undefined _ => return .builtin .object
  | .instantiation genericClass definition context => do
    let declaring? ← metadata.declaringUsage? definition
    let arguments ← metadata.classArguments genericClass
    return .instantiation genericClass definition declaring? (arguments.map (⟨·, context, .name⟩))

/-- The outermost layer of a usage. -/
def layer (metadata : Metadata) (key : UsageKey) : Except LayoutError TypeLayer := do
  metadata.recipeLayer (← metadata.recipe key)

theorem layer_of_recipe {metadata : Metadata} {key : UsageKey} {recipe : Recipe}
    (isRecipe : metadata.recipe key = .ok recipe) :
    metadata.layer key = metadata.recipeLayer recipe := by
  rw [layer, isRecipe, lookup_ok_bind]

theorem exists_reference_of_layer {metadata : Metadata} {key : UsageKey} {layer : TypeLayer}
    (isLayer : metadata.layer key = .ok layer) :
    ∃ reference, metadata.typeReference key.type = .ok reference := by
  obtain ⟨recipe, isRecipe, -⟩ := lookup_bind_eq_ok.mp isLayer
  obtain ⟨reference, isReference, -⟩ := lookup_bind_eq_ok.mp isRecipe
  exact ⟨reference, isReference⟩

/-- The tree of a usage that needs at most so many layers on top of each other. -/
def treeWithin (metadata : Metadata) : (layers : Nat) → UsageKey → Except LayoutError TypeTree
  | 0, key => .error (.tooDeep key.type.raw 0)
  | layers + 1, key => do (← metadata.layer key).tree (metadata.treeWithin layers)

/-- The usage has an expansion, and it is this tree. -/
def Expands (metadata : Metadata) (key : UsageKey) (tree : TypeTree) : Prop :=
  ∃ layers, metadata.treeWithin layers key = .ok tree

/-- The usage that the result for a usage is kept under: without its context, if the kind of the
type cannot depend on that. -/
def normal (metadata : Metadata) (key : UsageKey) : UsageKey :=
  match metadata.typeReference key.type with
  | .ok reference => if reference.kind.dependsOnContext then key else { key with context := .empty }
  | .error _ => key

end Metadata

namespace TypeLayer

variable {expand other : UsageKey → Except LayoutError TypeTree} {layer : TypeLayer}
  {tree : TypeTree}

/-- The tree of a layer depends on the trees of its parts only. -/
theorem tree_mono (assembled : layer.tree expand = .ok tree)
    (agree : ∀ part ∈ layer.parts, ∀ found, expand part = .ok found → other part = .ok found) :
    layer.tree other = .ok tree := by
  have core_mono {declaring? : Option UsageKey} (mem : ∀ part ∈ declaring?, part ∈ layer.parts) :
      ∀ part ∈ declaring?, ∀ found, TypeTree.core <$> expand part = .ok found →
        TypeTree.core <$> other part = .ok found := by
    intro part isDeclaring found expanded
    rw [lookup_map_eq_ok] at expanded ⊢
    obtain ⟨partTree, expanded, rfl⟩ := expanded
    exact ⟨partTree, agree part (mem part isDeclaring) partTree expanded, rfl⟩
  cases layer with
  | builtin | parameter => exact assembled
  | replaced part => exact agree part (by simp [parts]) _ assembled
  | pointer part | array _ part =>
    simp only [TypeLayer.tree, lookup_bind_eq_ok, lookup_pure_eq_ok] at assembled ⊢
    obtain ⟨found, expanded, rfl⟩ := assembled
    exact ⟨found, agree part (by simp [parts]) _ expanded, rfl⟩
  | definition _ declaring? =>
    simp only [TypeLayer.tree, lookup_bind_eq_ok, lookup_pure_eq_ok] at assembled ⊢
    obtain ⟨declaringTree?, expanded, rfl⟩ := assembled
    exact ⟨declaringTree?, lookup_optionMapM_mono expanded (core_mono (by simp [parts])), rfl⟩
  | instantiation _ _ declaring? arguments =>
    simp only [TypeLayer.tree, lookup_bind_eq_ok, lookup_pure_eq_ok] at assembled ⊢
    obtain ⟨declaringTree?, expanded, argumentTrees, expandedArguments, rfl⟩ := assembled
    refine ⟨declaringTree?, lookup_optionMapM_mono expanded (core_mono ?_), argumentTrees,
      lookup_mapM_mono expandedArguments ?_, rfl⟩
    · intro part mem
      simp [parts, Option.mem_def.mp mem]
    · intro part mem
      exact agree part (by simp [parts, mem])

/-- A layer has a tree only if all of its parts have. -/
theorem expand_of_mem_parts (assembled : layer.tree expand = .ok tree) {part : UsageKey}
    (mem : part ∈ layer.parts) : ∃ found, expand part = .ok found := by
  have of_core {declaring? : Option UsageKey} {found? : Option TypeTree}
      (expanded : (declaring?.mapM fun part ↦ TypeTree.core <$> expand part) = .ok found?)
      (isDeclaring : part ∈ declaring?) : ∃ found, expand part = .ok found := by
    obtain ⟨_, expanded⟩ := lookup_optionMapM_mem expanded isDeclaring
    obtain ⟨found, expanded, _⟩ := lookup_map_eq_ok.mp expanded
    exact ⟨found, expanded⟩
  cases layer with
  | builtin | parameter => simp [parts] at mem
  | replaced =>
    obtain rfl := List.mem_singleton.mp mem
    exact ⟨tree, assembled⟩
  | pointer | array =>
    obtain rfl := List.mem_singleton.mp mem
    simp only [TypeLayer.tree, lookup_bind_eq_ok] at assembled
    obtain ⟨found, expanded, _⟩ := assembled
    exact ⟨found, expanded⟩
  | definition _ declaring? =>
    simp only [TypeLayer.tree, lookup_bind_eq_ok] at assembled
    obtain ⟨_, expanded, _⟩ := assembled
    exact of_core expanded (by simpa [parts] using mem)
  | instantiation _ _ declaring? arguments =>
    simp only [TypeLayer.tree, lookup_bind_eq_ok] at assembled
    obtain ⟨_, expanded, _, expandedArguments, _⟩ := assembled
    obtain isDeclaring | isArgument := List.mem_append.mp mem
    · exact of_core expanded (by simpa using isDeclaring)
    · exact lookup_mapM_mem expandedArguments isArgument

end TypeLayer

namespace Metadata

variable {metadata : Metadata} {key : UsageKey} {tree other : TypeTree}

theorem treeWithin_mono {layers more : Nat} (enough : layers ≤ more)
    (expanded : metadata.treeWithin layers key = .ok tree) :
    metadata.treeWithin more key = .ok tree := by
  induction layers generalizing more key tree with
  | zero => simp [treeWithin] at expanded
  | succ layers ih =>
    obtain ⟨more, rfl⟩ : ∃ count, more = count + 1 := ⟨more - 1, by omega⟩
    simp only [treeWithin, lookup_bind_eq_ok] at expanded ⊢
    obtain ⟨layer, found, assembled⟩ := expanded
    exact ⟨layer, found, TypeLayer.tree_mono assembled fun _ _ _ ↦ ih (by omega)⟩

/-- A usage has at most one expansion. -/
theorem Expands.unique (first : metadata.Expands key tree) (second : metadata.Expands key other) :
    tree = other := by
  obtain ⟨layers, first⟩ := first
  obtain ⟨more, second⟩ := second
  have first := treeWithin_mono (Nat.le_max_left layers more) first
  have second := treeWithin_mono (Nat.le_max_right layers more) second
  exact Except.ok.inj (first.symm.trans second)

/-- Each list of types expands to one list of trees. -/
theorem expands_right_unique {types : List (Index .types)} {trees others : List TypeTree}
    (first : List.Forall₂ (fun type tree ↦ metadata.Expands ⟨type, .empty, .name⟩ tree) types trees)
    (second :
      List.Forall₂ (fun type tree ↦ metadata.Expands ⟨type, .empty, .name⟩ tree) types others) :
    trees = others := by
  have atMostOne : Relator.RightUnique
      fun type tree ↦ metadata.Expands ⟨type, .empty, .name⟩ tree :=
    fun _ _ _ left right ↦ left.unique right
  exact List.right_unique_forall₂' atMostOne first second

/-- Layers may be put on expansions of any depth. -/
theorem expands_of_layer {layer : TypeLayer} {expand : UsageKey → Except LayoutError TypeTree}
    (found : metadata.layer key = .ok layer) (assembled : layer.tree expand = .ok tree)
    (expands : ∀ part ∈ layer.parts, ∀ partTree, expand part = .ok partTree →
      metadata.Expands part partTree) :
    metadata.Expands key tree := by
  have bounded : ∀ parts : List UsageKey, (∀ part ∈ parts, part ∈ layer.parts) → ∃ layers,
      ∀ part ∈ parts, ∀ partTree, expand part = .ok partTree →
        metadata.treeWithin layers part = .ok partTree := by
    intro parts
    induction parts with
    | nil => exact fun _ ↦ ⟨0, by simp⟩
    | cons part rest ih =>
      intro subset
      obtain ⟨layers, bounded⟩ := ih fun part mem ↦ subset part (by simp [mem])
      have ⟨more, covers⟩ : ∃ more, ∀ partTree, expand part = .ok partTree →
          metadata.treeWithin more part = .ok partTree := by
        cases expanded : expand part with
        | error => exact ⟨0, by simp⟩
        | ok partTree =>
          obtain ⟨more, found⟩ := expands part (subset part (by simp)) partTree expanded
          refine ⟨more, ?_⟩
          rintro _ ⟨⟩
          exact found
      refine ⟨max layers more, fun found mem partTree expanded ↦ ?_⟩
      obtain rfl | mem := List.mem_cons.mp mem
      · exact treeWithin_mono (Nat.le_max_right ..) (covers partTree expanded)
      · exact treeWithin_mono (Nat.le_max_left ..) (bounded found mem partTree expanded)
  obtain ⟨layers, bounded⟩ := bounded layer.parts fun _ mem ↦ mem
  refine ⟨layers + 1, ?_⟩
  simp only [treeWithin, lookup_bind_eq_ok]
  exact ⟨layer, found, TypeLayer.tree_mono assembled bounded⟩

theorem normal_eq {reference : TypeReference}
    (isReference : metadata.typeReference key.type = .ok reference) :
    metadata.normal key =
      ⟨key.type, if reference.kind.dependsOnContext then key.context else .empty, key.mode⟩ := by
  simp only [normal, isReference]
  split <;> rfl

/-- A context that the kind of the type cannot depend on makes no difference. -/
theorem recipe_normal : metadata.recipe (metadata.normal key) = metadata.recipe key := by
  unfold normal
  split
  next reference found =>
    split
    · rfl
    next independent =>
      simp only [recipe, found, bind, Except.bind]
      cases kind : reference.kind <;> simp_all [TypeKind.dependsOnContext]
  · rfl

theorem layer_normal : metadata.layer (metadata.normal key) = metadata.layer key := by
  rw [layer, layer, recipe_normal]

/-- A usage that expands has an outermost layer, whose parts expand. -/
theorem Expands.exists_layer (expands : metadata.Expands key tree) :
    ∃ layer layers, metadata.layer key = .ok layer ∧
      layer.tree (metadata.treeWithin layers) = .ok tree := by
  obtain ⟨layers, expanded⟩ := expands
  cases layers with
  | zero => exact nomatch expanded
  | succ layers =>
    obtain ⟨layer, isLayer, assembled⟩ := lookup_bind_eq_ok.mp expanded
    exact ⟨layer, layers, isLayer, assembled⟩

theorem expands_normal : metadata.Expands (metadata.normal key) tree ↔ metadata.Expands key tree := by
  refine exists_congr fun layers ↦ ?_
  cases layers with
  | zero => simp [treeWithin]
  | succ layers => simp only [treeWithin, layer_normal]

end Metadata

end ManagedLayout

import ManagedLayout.Proofs.Resolution.Tree
import ManagedLayout.Resolution.Spelling

/-!
# Types in the arena

The tree that a usage stands for is read back from the arena: the tree of the descriptor, and the
arrays and pointers around it. It is made of descriptors that stand before each other, so that it
stays the same when the arena grows.
-/

namespace ManagedLayout

namespace Usage

/-- The type of a usage, given that of its descriptor. -/
def around (usage : Usage) (tree : TypeTree) : TypeTree :=
  (usage.arrays.foldl
      (fun element level ↦ .array level.shape (element.pointers level.elementIndirection)) tree
    ).pointers usage.indirection

variable {usage : Usage} {tree : TypeTree}

@[simp]
theorem around_arrayOf (shape : ArrayShape) :
    (usage.arrayOf shape).around tree = .array shape (usage.around tree) := by
  simp [around, arrayOf, TypeTree.pointers]

@[simp]
theorem core_around : (usage.around tree).core = tree.core := by
  have core_foldl (levels : List ArrayLevel) : ∀ element : TypeTree,
      (levels.foldl
        (fun element level ↦ .array level.shape (element.pointers level.elementIndirection))
        element).core = element.core := by
    induction levels with
    | nil => exact fun _ ↦ rfl
    | cons level rest ih =>
      intro element
      rw [List.foldl_cons, ih]
      exact TypeTree.core_pointers ..
  rw [around, TypeTree.core_pointers, core_foldl]

end Usage

namespace ResolutionState

/-- The type that a descriptor stands for. What does not stand before it in the arena is no part of
it. -/
def descriptorTree (state : ResolutionState) (id : DescriptorId) : TypeTree :=
  let descriptor := state.descriptor id
  let declaring? := descriptor.declaringType?.map fun declaring ↦
    if _earlier : declaring.position < id.position then state.descriptorTree declaring
    else default
  match descriptor.kind with
  | .builtin kind => .builtin kind
  | .parameter parameter => .parameter parameter
  | .definition definition => .definition definition declaring?
  | .instantiation genericClass definition =>
    .instantiation genericClass definition declaring? <| descriptor.typeArguments.map fun argument ↦
      if _earlier : argument.descriptor.position < id.position then
        argument.around (state.descriptorTree argument.descriptor)
      else default
termination_by id.position

/-- The type that a usage stands for. -/
def usageTree (state : ResolutionState) (usage : Usage) : TypeTree :=
  usage.around (state.descriptorTree usage.descriptor)

variable {state before after : ResolutionState} {id : DescriptorId}

theorem descriptor_eq {descriptor : Descriptor}
    (found : state.descriptors[id.position]? = some descriptor) :
    state.descriptor id = descriptor := by
  simp [ResolutionState.descriptor, found]

section Read

variable {descriptor : Descriptor} {definition : Index .typeDefinitions}
  {genericClass : Index .genericClasses}

theorem descriptorTree_builtin {kind : TypeKind}
    (found : state.descriptors[id.position]? = some descriptor)
    (isBuiltin : descriptor.kind = .builtin kind) : state.descriptorTree id = .builtin kind := by
  rw [descriptorTree, descriptor_eq found]
  simp only [isBuiltin]

theorem descriptorTree_parameter {parameter : Index .genericParameters}
    (found : state.descriptors[id.position]? = some descriptor)
    (isParameter : descriptor.kind = .parameter parameter) :
    state.descriptorTree id = .parameter parameter := by
  rw [descriptorTree, descriptor_eq found]
  simp only [isParameter]

private theorem declaring_map
    (declaringEarlier : ∀ declaring ∈ descriptor.declaringType?, declaring.position < id.position) :
    (descriptor.declaringType?.map fun declaring ↦
        if _earlier : declaring.position < id.position then state.descriptorTree declaring
        else default) =
      descriptor.declaringType?.map state.descriptorTree := by
  refine Option.map_congr fun declaring mem ↦ ?_
  rw [dif_pos (declaringEarlier declaring mem)]

theorem descriptorTree_definition (found : state.descriptors[id.position]? = some descriptor)
    (isDefinition : descriptor.kind = .definition definition)
    (declaringEarlier : ∀ declaring ∈ descriptor.declaringType?, declaring.position < id.position) :
    state.descriptorTree id =
      .definition definition (descriptor.declaringType?.map state.descriptorTree) := by
  rw [descriptorTree, descriptor_eq found]
  simp only [isDefinition, declaring_map declaringEarlier]

theorem descriptorTree_instantiation (found : state.descriptors[id.position]? = some descriptor)
    (isInstantiation : descriptor.kind = .instantiation genericClass definition)
    (declaringEarlier : ∀ declaring ∈ descriptor.declaringType?, declaring.position < id.position)
    (argumentsEarlier : ∀ argument ∈ descriptor.typeArguments,
      argument.descriptor.position < id.position) :
    state.descriptorTree id =
      .instantiation genericClass definition (descriptor.declaringType?.map state.descriptorTree)
        (descriptor.typeArguments.map state.usageTree) := by
  have arguments : (descriptor.typeArguments.map fun argument ↦
        if _earlier : argument.descriptor.position < id.position then
          argument.around (state.descriptorTree argument.descriptor)
        else default) =
      descriptor.typeArguments.map state.usageTree := by
    refine List.map_congr_left fun argument mem ↦ ?_
    rw [dif_pos (argumentsEarlier argument mem), usageTree]
  rw [descriptorTree, descriptor_eq found]
  simp only [isInstantiation, declaring_map declaringEarlier, arguments]

theorem kind_of_descriptorTree_definition {declaring? : Option TypeTree}
    (found : state.descriptors[id.position]? = some descriptor)
    (isTree : state.descriptorTree id = .definition definition declaring?) :
    descriptor.kind = .definition definition := by
  rw [descriptorTree, descriptor_eq found] at isTree
  cases isKind : descriptor.kind with
  | definition => simp_all
  | _ => simp [isKind] at isTree

theorem kind_of_descriptorTree_instantiation {declaring? : Option TypeTree}
    {arguments : List TypeTree} (found : state.descriptors[id.position]? = some descriptor)
    (isTree : state.descriptorTree id =
      .instantiation genericClass definition declaring? arguments) :
    descriptor.kind = .instantiation genericClass definition := by
  rw [descriptorTree, descriptor_eq found] at isTree
  cases isKind : descriptor.kind with
  | instantiation => simp_all
  | _ => simp [isKind] at isTree

end Read

/-- A descriptor is no array or pointer. -/
@[simp]
theorem core_descriptorTree : (state.descriptorTree id).core = state.descriptorTree id := by
  rw [descriptorTree]
  split <;> rfl

@[simp]
theorem usageTree_plain : state.usageTree (.plain id) = state.descriptorTree id := rfl

@[simp]
theorem usageTree_arrayOf {usage : Usage} {shape : ArrayShape} :
    state.usageTree (usage.arrayOf shape) = .array shape (state.usageTree usage) :=
  Usage.around_arrayOf shape

@[simp]
theorem core_usageTree {usage : Usage} :
    (state.usageTree usage).core = state.descriptorTree usage.descriptor := by
  simp [usageTree]

/-- The descriptors of one state stand in the other one as well, at the same positions. -/
def ArenaGrows (before after : ResolutionState) : Prop :=
  before.descriptors.toList <+: after.descriptors.toList

namespace ArenaGrows

theorem refl : state.ArenaGrows state := List.prefix_rfl

theorem trans {middle : ResolutionState} (first : before.ArenaGrows middle)
    (second : middle.ArenaGrows after) : before.ArenaGrows after := List.IsPrefix.trans first second

theorem push (descriptor : Descriptor) : state.ArenaGrows (state.push descriptor).2 := by
  simp [ArenaGrows, ResolutionState.push]

theorem size_le (grows : before.ArenaGrows after) :
    before.descriptors.size ≤ after.descriptors.size := by
  simpa using List.IsPrefix.length_le grows

theorem getElem?_eq_some {descriptor : Descriptor} (grows : before.ArenaGrows after)
    (found : before.descriptors[id.position]? = some descriptor) :
    after.descriptors[id.position]? = some descriptor := by
  rw [← Array.getElem?_toList] at found ⊢
  obtain ⟨rest, extended⟩ := grows
  rw [← extended]
  exact List.getElem?_append_left (List.getElem?_eq_some_iff.mp found).1 ▸ found

theorem descriptor_eq (grows : before.ArenaGrows after)
    (stored : id.position < before.descriptors.size) :
    after.descriptor id = before.descriptor id := by
  have found := Array.getElem?_eq_getElem stored
  simp only [ResolutionState.descriptor, grows.getElem?_eq_some found, found]

/-- What is in the arena does not depend on what comes to it later. -/
theorem descriptorTree_eq (grows : before.ArenaGrows after)
    (stored : id.position < before.descriptors.size) :
    after.descriptorTree id = before.descriptorTree id := by
  -- A tree is made of the trees of descriptors at smaller positions.
  induction id using DescriptorId.induction with
  | step id ih =>
    have earlier (other : DescriptorId) (isEarlier : other.position < id.position) :
        after.descriptorTree other = before.descriptorTree other :=
      ih other isEarlier (by omega)
    rw [descriptorTree, descriptorTree, grows.descriptor_eq stored]
    simp +contextual only [earlier]

theorem usageTree_eq {usage : Usage} (grows : before.ArenaGrows after)
    (stored : usage.descriptor.position < before.descriptors.size) :
    after.usageTree usage = before.usageTree usage := by
  rw [usageTree, usageTree, grows.descriptorTree_eq stored]

end ArenaGrows

end ResolutionState

end ManagedLayout

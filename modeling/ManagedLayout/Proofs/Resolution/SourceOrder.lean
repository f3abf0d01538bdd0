import ManagedLayout.Proofs.Resolution.TreeSpelling

/-!
# Suffixes read as source code

The arrays and pointers around a type are written behind it from the inside to the outside. Source
code is read in another order: an asterisk is around everything before it, but of several brackets in
a row the first ones belong to the outermost array. What is read is therefore what is meant only if
the brackets between two asterisks are the same from either end. It is never something that another
usage is meant to be: the order is turned around in the same way for all of them.
-/

namespace ManagedLayout

/-- An array or a pointer around a type. -/
inductive Wrapper where
  | pointer
  | array (shape : ArrayShape)
  deriving DecidableEq, Repr

namespace Wrapper

/-- How a wrapper is written. -/
def mark : Wrapper → Mark
  | pointer => .pointer
  | array shape => .array shape.commas

/-- A type with a wrapper around it. -/
def around : Wrapper → TypeTree → TypeTree
  | pointer => .pointer
  | array shape => .array shape

/-- An array with ranks has more than one dimension, so that its brackets are not empty. -/
def Apparent : Wrapper → Prop
  | array (.ranked rank) => 2 ≤ rank
  | pointer | array .vector => True

instance : DecidablePred Apparent
  | pointer | array .vector => isTrue trivial
  | array (.ranked rank) => inferInstanceAs (Decidable (2 ≤ rank))

end Wrapper

/-- What a mark stands for in source code. Empty brackets are those of a vector. -/
def Mark.wrapper : Mark → Wrapper
  | pointer => .pointer
  | array 0 => .array .vector
  | array (commas + 1) => .array (.ranked (.ofNat (commas + 2)))

theorem Wrapper.Apparent.wrapper_mark {wrapper : Wrapper} (apparent : wrapper.Apparent) :
    wrapper.mark.wrapper = wrapper := by
  match wrapper with
  | .pointer | .array .vector => rfl
  | .array (.ranked rank) =>
    have atLeast : 2 ≤ rank.toNat := UInt8.le_iff_toNat_le.mp apparent
    obtain ⟨more, isMore⟩ : ∃ more, rank.toNat = more + 2 := ⟨rank.toNat - 2, by omega⟩
    have isCommas : (ArrayShape.ranked rank).commas = more + 1 := by simp [ArrayShape.commas, isMore]
    rw [mark, isCommas, Mark.wrapper, ← isMore, UInt8.ofNat_toNat]

/-! ## The nest of a type -/

namespace TypeTree

/-- The arrays and pointers around a type, innermost first. -/
def nest : TypeTree → List Wrapper
  | pointer pointee => pointee.nest ++ [.pointer]
  | array shape element => element.nest ++ [.array shape]
  | builtin _ | parameter _ | definition .. | instantiation .. => []

/-- A type with a nest of arrays and pointers around it. -/
def within (tree : TypeTree) (nest : List Wrapper) : TypeTree :=
  nest.foldl (fun inner wrapper ↦ wrapper.around inner) tree

theorem core_within_nest (tree : TypeTree) : tree.core.within tree.nest = tree := by
  induction tree using nest.induct with
  | case1 pointee ih => simpa [core, nest, within, Wrapper.around] using ih
  | case2 shape element ih => simpa [core, nest, within, Wrapper.around] using ih
  | case3 | case4 | case5 | case6 => rfl

/-- A type is determined by what is inside its nest, and by the nest. -/
theorem eq_of_nest_eq {first second : TypeTree} (sameCore : first.core = second.core)
    (sameNest : first.nest = second.nest) : first = second := by
  rw [← core_within_nest first, sameCore, sameNest, core_within_nest]

theorem nest_pointers (tree : TypeTree) (count : Nat) :
    (tree.pointers count).nest = tree.nest ++ List.replicate count .pointer := by
  induction count with
  | zero => simp [pointers]
  | succ count ih => rw [pointers, nest, ih, List.append_assoc, List.replicate_succ']

end TypeTree

namespace Usage

/-- The arrays and pointers around a descriptor, innermost first. -/
def nest (usage : Usage) : List Wrapper :=
  usage.arrays.flatMap
      (fun level ↦ List.replicate level.elementIndirection .pointer ++ [.array level.shape])
    ++ List.replicate usage.indirection .pointer

theorem marks_eq (usage : Usage) : usage.marks = usage.nest.map Wrapper.mark := by
  simp [marks, nest, List.map_flatMap, Wrapper.mark]

theorem nest_around (usage : Usage) (tree : TypeTree) :
    (usage.around tree).nest = tree.nest ++ usage.nest := by
  have nest_foldl (levels : List ArrayLevel) : ∀ element : TypeTree,
      (levels.foldl
        (fun element level ↦ .array level.shape (element.pointers level.elementIndirection))
        element).nest =
          element.nest ++ levels.flatMap fun level ↦
            List.replicate level.elementIndirection .pointer ++ [.array level.shape] := by
    induction levels with
    | nil => simp
    | cons level rest ih =>
      intro element
      rw [List.foldl_cons, ih, TypeTree.nest, TypeTree.nest_pointers, List.flatMap_cons,
        List.append_assoc, List.append_assoc, List.append_assoc]
  rw [around, TypeTree.nest_pointers, nest_foldl, List.append_assoc, nest]

end Usage

namespace ResolutionState

variable {state : ResolutionState}

theorem nest_descriptorTree (id : DescriptorId) : (state.descriptorTree id).nest = [] := by
  rw [descriptorTree]
  split <;> rfl

/-- The nest of what a usage stands for is the one that the usage has. -/
theorem nest_usageTree (usage : Usage) : (state.usageTree usage).nest = usage.nest := by
  rw [usageTree, Usage.nest_around, nest_descriptorTree, List.nil_append]

end ResolutionState

/-! ## Reading -/

/-- The marks that a text is made of, and nothing else. With an opening bracket behind it, the reader
has come across so many commas. -/
def readMarks : (commas? : Option Nat) → List Char → Option (List Mark)
  | none, [] => some []
  | none, '*' :: rest => (.pointer :: ·) <$> readMarks none rest
  | none, '[' :: rest => readMarks (some 0) rest
  | some commas, ',' :: rest => readMarks (some (commas + 1)) rest
  | some commas, ']' :: rest => (.array commas :: ·) <$> readMarks none rest
  | _, _ => none

/-- The order in which source code means what is written: between two asterisks the last brackets are
the innermost. -/
def sourceOrder (written : List Wrapper) : List Wrapper :=
  [Wrapper.pointer].intercalate ((written.splitOn .pointer).map List.reverse)

/-- The nest that a suffix stands for in source code, innermost first. -/
def readNest (suffix : String) : Option (List Wrapper) :=
  (readMarks none suffix.toList).map fun marks ↦ sourceOrder (marks.map Mark.wrapper)

theorem readMarks_commas (before commas : Nat) (rest : List Char) :
    readMarks (some before) (List.replicate commas ',' ++ ']' :: rest) =
      (.array (before + commas) :: ·) <$> readMarks none rest := by
  induction commas generalizing before with
  | zero => rfl
  | succ commas ih =>
    rw [List.replicate_succ, List.cons_append, readMarks, ih, Nat.add_right_comm, Nat.add_assoc]

/-- What is read are the marks that are written. -/
theorem readMarks_marks (marks : List Mark) :
    readMarks none (marks.flatMap fun mark ↦ mark.text.toList) = some marks := by
  induction marks with
  | nil => rfl
  | cons mark marks ih =>
    rw [List.flatMap_cons]
    cases mark with
    | pointer => rw [Outline.chars_pointer, readMarks, ih, Option.map_eq_map, Option.map_some]
    | array commas =>
      rw [Outline.chars_array, readMarks, readMarks_commas, ih, Nat.zero_add, Option.map_eq_map,
        Option.map_some]

/-! ## The order of brackets -/

/-- Between two asterisks there is none. -/
theorem not_mem_of_mem_splitOn {written run : List Wrapper} (mem : run ∈ written.splitOn .pointer) :
    .pointer ∉ run := by
  induction written generalizing run with
  | nil =>
    obtain rfl := List.mem_singleton.mp mem
    exact List.not_mem_nil
  | cons wrapper written ih =>
    rw [List.splitOn, List.splitOnP_cons_eq_if_modifyHead] at mem
    obtain ⟨first, others, isSplit⟩ :=
      List.exists_cons_of_ne_nil (List.splitOn_ne_nil .pointer written)
    have inFirst := @ih first (by rw [isSplit]; exact List.mem_cons_self)
    rw [List.splitOn] at isSplit
    split at mem
    · obtain rfl | mem := List.mem_cons.mp mem
      · exact List.not_mem_nil
      · exact ih mem
    next notPointer =>
      rw [isSplit, List.modifyHead_cons] at mem
      obtain rfl | mem := List.mem_cons.mp mem
      · simpa [inFirst] using fun same ↦ notPointer (by simp [← same])
      · exact ih (by rw [List.splitOn, isSplit]; exact List.mem_cons_of_mem _ mem)

/-- The asterisks stay where they are, and the brackets between them are turned around. -/
theorem splitOn_sourceOrder (written : List Wrapper) :
    (sourceOrder written).splitOn .pointer = (written.splitOn .pointer).map List.reverse := by
  refine List.splitOn_intercalate _ ?_ (by simp)
  intro _ mem
  obtain ⟨run, isRun, rfl⟩ := List.mem_map.mp mem
  rw [List.mem_reverse]
  exact not_mem_of_mem_splitOn isRun

theorem sourceOrder_sourceOrder (written : List Wrapper) :
    sourceOrder (sourceOrder written) = written := by
  rw [sourceOrder, splitOn_sourceOrder, List.map_map]
  simp [List.intercalate_splitOn]

theorem sourceOrder_injective : Function.Injective sourceOrder :=
  Function.LeftInverse.injective sourceOrder_sourceOrder

theorem sourceOrder_eq_self_iff {written : List Wrapper} :
    sourceOrder written = written ↔ ∀ run ∈ written.splitOn .pointer, run.reverse = run := by
  have same_iff := @List.map_inj_left _ _ (written.splitOn .pointer) List.reverse id
  rw [List.map_id] at same_iff
  constructor
  · intro same
    rw [← splitOn_sourceOrder, same] at same_iff
    exact same_iff.mp rfl
  · intro same
    rw [sourceOrder, same_iff.mpr same, List.intercalate_splitOn]

/-! ## What is read -/

namespace Usage

variable {usage other : Usage}

theorem wrapper_marks (apparent : ∀ wrapper ∈ usage.nest, wrapper.Apparent) :
    usage.marks.map Mark.wrapper = usage.nest := by
  rw [marks_eq, List.map_map]
  calc usage.nest.map (Mark.wrapper ∘ Wrapper.mark)
      = usage.nest.map id := List.map_congr_left fun wrapper mem ↦ (apparent wrapper mem).wrapper_mark
    _ = usage.nest := List.map_id _

/-- A suffix is read in source order. -/
theorem readNest_suffix (apparent : ∀ wrapper ∈ usage.nest, wrapper.Apparent) :
    readNest usage.suffix = some (sourceOrder usage.nest) := by
  have isText : usage.suffix.toList = usage.marks.flatMap fun mark ↦ mark.text.toList := by
    rw [suffix_eq]
    simp [List.flatMap_map]
  rw [readNest, isText, readMarks_marks, Option.map_some, wrapper_marks apparent]

end Usage

namespace ResolutionState

/-- What stands behind the text of the descriptor is read, as source code, as the arrays and pointers
that are around it. -/
def ReadsAsMeant (state : ResolutionState) (usage : Usage) : Prop :=
  ∀ qualified suffix, state.usageText usage qualified =
    state.descriptorText usage.descriptor qualified true ++ suffix →
      readNest suffix = some (state.usageTree usage).nest

/-- **Suffixes are read inside out between asterisks.** The suffix of a usage is read as the nest of
what the usage stands for, but with the arrays turned around that have no pointer between them. So it
is read as it is meant exactly if those make the same sequence from either end, and usages of one
descriptor that are written alike stand for the same type. -/
theorem readsAsMeant_iff (state : ResolutionState) (usage : Usage)
    (apparent : ∀ wrapper ∈ (state.usageTree usage).nest, wrapper.Apparent) :
    (∃ suffix, (∀ qualified, state.usageText usage qualified =
        state.descriptorText usage.descriptor qualified true ++ suffix) ∧
      readNest suffix = some (sourceOrder (state.usageTree usage).nest)) ∧
    (state.ReadsAsMeant usage ↔
      ∀ run ∈ (state.usageTree usage).nest.splitOn .pointer, run.reverse = run) ∧
    ∀ qualified other, other.descriptor = usage.descriptor →
      (∀ wrapper ∈ (state.usageTree other).nest, wrapper.Apparent) →
      state.usageText other qualified = state.usageText usage qualified →
        state.usageTree other = state.usageTree usage := by
  simp only [nest_usageTree] at apparent ⊢
  have isRead := Usage.readNest_suffix apparent
  refine ⟨⟨usage.suffix, fun _ ↦ rfl, isRead⟩, ?_, ?_⟩
  · rw [← sourceOrder_eq_self_iff]
    constructor
    · intro readsAsMeant
      have isMeant := readsAsMeant true usage.suffix rfl
      rw [isRead, nest_usageTree] at isMeant
      exact Option.some.inj isMeant
    · intro same qualified suffix isText
      have isSuffix : usage.suffix = suffix := (String.append_right_inj _).mp isText
      rw [← isSuffix, isRead, same, nest_usageTree]
  · intro qualified other sameDescriptor otherApparent sameText
    rw [usageText, usageText, sameDescriptor, String.append_right_inj] at sameText
    have otherRead := Usage.readNest_suffix otherApparent
    rw [sameText, isRead] at otherRead
    have sameNest := sourceOrder_injective (Option.some.inj otherRead)
    refine TypeTree.eq_of_nest_eq ?_ ?_
    · rw [core_usageTree, core_usageTree, sameDescriptor]
    · rw [nest_usageTree, nest_usageTree, sameNest]

end ResolutionState

namespace Linkage

open Resolve

/-- An integer, an array of integers with two dimensions, an array of those with one dimension, a
pointer to that, and an array of such pointers. -/
def grids : Linkage where
  metadata := {
    version := ⟨24, 0⟩
    declarations := .empty
    registrations := { Registrations.empty with
      types := { TypeRegistration.empty with
        arrayTypes := .ofList [⟨⟨0⟩, 2⟩]
        types := .ofList [reference .int32 .none, reference .array (.array ⟨0⟩),
          reference .vector (.type ⟨1⟩), reference .pointer (.type ⟨2⟩),
          reference .vector (.type ⟨3⟩)] } } }
  definitionTypes := ∅
  modules := ∅
where
  reference (kind : TypeKind) (data : TypeData) : TypeReference := ⟨data, 0, kind, false, false, false⟩

/-- The pointer keeps its place, and the arrays inside of it are read in the other order. -/
theorem grids_readsAsMeant_iff : ∃ usage after,
    (grids.resolve ⟨4⟩ .empty .value).run.run .empty = (.ok usage, after) ∧
      (∀ wrapper ∈ (after.usageTree usage).nest, wrapper.Apparent) ∧
      (∃ suffix, (∀ qualified, after.usageText usage qualified =
          after.descriptorText usage.descriptor qualified true ++ suffix) ∧
        readNest suffix = some [.array .vector, .array (.ranked 2), .pointer, .array .vector]) ∧
      ¬after.ReadsAsMeant usage := by
  have found : ((grids.resolve ⟨4⟩ .empty .value).run.run .empty).1 =
      .ok ⟨⟨0⟩, 0, [⟨.ranked 2, 0⟩, ⟨.vector, 0⟩, ⟨.vector, 1⟩]⟩ := by
    decide +kernel
  have apparent : ∀ wrapper ∈ ((((grids.resolve ⟨4⟩ .empty .value).run.run .empty).2).usageTree
      ⟨⟨0⟩, 0, [⟨.ranked 2, 0⟩, ⟨.vector, 0⟩, ⟨.vector, 1⟩]⟩).nest, wrapper.Apparent := by
    rw [ResolutionState.nest_usageTree]
    decide
  obtain ⟨isRead, meant_iff, -⟩ := ResolutionState.readsAsMeant_iff _ _ apparent
  refine ⟨_, _, run_eq_of_fst_eq found, apparent, ?_, ?_⟩
  · rw [ResolutionState.nest_usageTree] at isRead
    exact isRead
  · rw [meant_iff, ResolutionState.nest_usageTree]
    decide

/-- An array of grids is written as source code would write a grid of arrays. -/
theorem grids_not_readsAsMeant : ∃ usage after,
    (grids.resolve ⟨2⟩ .empty .value).run.run .empty = (.ok usage, after) ∧
      (∀ wrapper ∈ (after.usageTree usage).nest, wrapper.Apparent) ∧
      (after.usageTree usage).nest = [.array (.ranked 2), .array .vector] ∧
      after.usageText usage true = "int[,][]" ∧
      readNest "[,][]" = some [.array .vector, .array (.ranked 2)] ∧
      readNest "[][,]" = some [.array (.ranked 2), .array .vector] ∧
      ¬after.ReadsAsMeant usage := by
  have found : ((grids.resolve ⟨2⟩ .empty .value).run.run .empty).1 =
      .ok ⟨⟨0⟩, 0, [⟨.ranked 2, 0⟩, ⟨.vector, 0⟩]⟩ := by
    decide +kernel
  have isText : ((grids.resolve ⟨2⟩ .empty .value).run.run .empty).2.usageText
      ⟨⟨0⟩, 0, [⟨.ranked 2, 0⟩, ⟨.vector, 0⟩]⟩ true = "int[,][]" := by
    decide +kernel
  have isRead : readNest "[,][]" = some [.array .vector, .array (.ranked 2)] := by decide +kernel
  have isMeant : readNest "[][,]" = some [.array (.ranked 2), .array .vector] := by decide +kernel
  refine ⟨_, _, run_eq_of_fst_eq found, ?_, ?_, isText, isRead, isMeant, ?_⟩
  · rw [ResolutionState.nest_usageTree]
    decide
  · rw [ResolutionState.nest_usageTree]
    rfl
  · intro readsAsMeant
    have asMeant := readsAsMeant true "[,][]" rfl
    rw [isRead, ResolutionState.nest_usageTree] at asMeant
    exact absurd asMeant (by decide)

end Linkage

end ManagedLayout

import Mathlib.Data.List.Basic
import ManagedLayout.Text.Replace

/-!
# Replacements

Every occurrence of a pattern is replaced, from left to right. Where these are does not depend on what
the pattern is replaced by. A replacement can therefore be read back from the result, and a pattern
replaced by itself leaves the text as it is.
-/

namespace ManagedLayout.Text

variable {pattern replacement first second text : List Char}

/-- What is left between the occurrences of a pattern, each with a replacement in front of it. -/
def joined (replacement : List Char) (pieces : List (List Char)) : List Char :=
  pieces.flatMap (replacement ++ ·)

theorem length_joined (replacement : List Char) (pieces : List (List Char)) :
    (joined replacement pieces).length =
      pieces.length * replacement.length + pieces.flatten.length := by
  induction pieces with
  | nil => simp [joined]
  | cons piece rest ih =>
    have split : joined replacement (piece :: rest) =
        replacement ++ piece ++ joined replacement rest := rfl
    calc (joined replacement (piece :: rest)).length
        = replacement.length + piece.length + (joined replacement rest).length := by
          rw [split, List.length_append, List.length_append]
      _ = replacement.length + piece.length +
            (rest.length * replacement.length + rest.flatten.length) := by rw [ih]
      _ = (piece :: rest).length * replacement.length + (piece :: rest).flatten.length := by
          rw [List.length_cons, List.flatten_cons, List.length_append, Nat.succ_mul]
          omega

/-- A replacement can be read back from the result, if there is an occurrence. -/
theorem joined_injective {pieces : List (List Char)} (occurs : pieces ≠ [])
    (same : joined first pieces = joined second pieces) : first = second := by
  have lengths := congrArg List.length same
  rw [length_joined, length_joined] at lengths
  have sameLength : first.length = second.length := by
    have positive := List.length_pos_iff.mpr occurs
    exact Nat.eq_of_mul_eq_mul_left positive (by omega)
  cases pieces with
  | nil => exact absurd rfl occurs
  | cons piece rest =>
    have heads : first ++ (piece ++ joined first rest) = second ++ (piece ++ joined second rest) := by
      simpa [joined] using same
    exact (List.append_inj heads sameLength).1

theorem exists_replaceFrom_eq (pattern : List Char) (skip : Nat) (text : List Char) :
    ∃ start pieces, (∀ replacement,
        replaceFrom pattern replacement skip text = start ++ joined replacement pieces) ∧
      (skip = 0 → pattern ≠ [] → occursIn pattern text → pieces ≠ []) := by
  induction text generalizing skip with
  | nil =>
    refine ⟨[], [], fun _ ↦ by cases skip <;> rfl, ?_⟩
    intro _ notEmpty occurs
    exact absurd (List.isEmpty_iff.mp occurs) notEmpty
  | cons char rest ih =>
    cases skip with
    | succ skip =>
      obtain ⟨start, pieces, replaced, -⟩ := ih skip
      exact ⟨start, pieces, replaced, by simp⟩
    | zero =>
      by_cases here : pattern.isPrefixOf (char :: rest)
      · obtain ⟨start, pieces, replaced, -⟩ := ih (pattern.length - 1)
        refine ⟨[], start :: pieces, fun replacement ↦ ?_, by simp⟩
        rw [replaceFrom, if_pos here, replaced]
        simp [joined]
      · obtain ⟨start, pieces, replaced, occurs⟩ := ih 0
        refine ⟨char :: start, pieces, fun replacement ↦ ?_, ?_⟩
        · rw [replaceFrom, if_neg here, replaced]
          rfl
        · intro _ notEmpty found
          rw [occursIn, Bool.or_eq_true] at found
          exact occurs rfl notEmpty (found.resolve_left here)

/-- A pattern occurs at the same places, whatever it is replaced by. -/
theorem exists_replaceAll_eq (pattern text : List Char) :
    ∃ start pieces,
      (∀ replacement, replaceAll pattern replacement text = start ++ joined replacement pieces) ∧
        (occursIn pattern text → pieces ≠ []) := by
  cases pattern with
  | nil =>
    refine ⟨[], text.map ([·]) ++ [[]], fun replacement ↦ ?_, by simp⟩
    rw [replaceAll, if_pos List.isEmpty_nil]
    induction text with
    | nil => simp [joined]
    | cons char rest ih =>
      simp only [List.flatMap_cons, List.map_cons, List.cons_append, List.nil_append, joined] at ih ⊢
      simp [ih]
  | cons char rest =>
    obtain ⟨start, pieces, replaced, occurs⟩ := exists_replaceFrom_eq (char :: rest) 0 text
    exact ⟨start, pieces, replaced, occurs rfl (List.cons_ne_nil char rest)⟩

theorem replaceAll_injective (occurs : occursIn pattern text)
    (same : replaceAll pattern first text = replaceAll pattern second text) : first = second := by
  obtain ⟨start, pieces, replaced, some⟩ := exists_replaceAll_eq pattern text
  rw [replaced, replaced] at same
  exact joined_injective (some occurs) (List.append_cancel_left same)

theorem replaceFrom_append (pattern replacement skipped rest : List Char) :
    replaceFrom pattern replacement skipped.length (skipped ++ rest) =
      replaceFrom pattern replacement 0 rest := by
  induction skipped with
  | nil => rfl
  | cons char skipped ih => exact ih

theorem replaceFrom_self (notEmpty : pattern ≠ []) (skip : Nat) :
    replaceFrom pattern pattern skip text = text.drop skip := by
  induction text generalizing skip with
  | nil => cases skip <;> rfl
  | cons char rest ih =>
    cases skip with
    | succ skip => exact ih skip
    | zero =>
      rw [replaceFrom]
      split
      next here =>
        obtain ⟨after, whole⟩ := List.isPrefixOf_iff_prefix.mp here
        rw [ih]
        cases pattern with
        | nil => exact absurd rfl notEmpty
        | cons patternChar patternRest =>
          obtain ⟨rfl, rfl⟩ := List.cons.inj whole
          simp
      next => rw [ih, List.drop_zero, List.drop_zero]

/-- A pattern that is replaced by itself leaves the text as it is. -/
theorem replaceAll_self : replaceAll pattern pattern text = text := by
  unfold replaceAll
  split
  next isEmpty =>
    obtain rfl := List.isEmpty_iff.mp isEmpty
    simp
  next notEmpty => exact replaceFrom_self (by simpa using notEmpty) 0

section Mark

variable {mark : Char} {head tail before after : List Char}

/-- A pattern with a mark occurs at no place that is too far in front of every mark. -/
theorem not_isPrefixOf_of_mark (inBefore : mark ∉ before) (far : head.length < before.length) :
    ¬(head ++ mark :: tail).isPrefixOf (before ++ after) := by
  intro here
  have pattern : head ++ [mark] <+: before ++ after := by
    apply List.IsPrefix.trans _ (List.isPrefixOf_iff_prefix.mp here)
    exact ⟨tail, by simp⟩
  have short : head ++ [mark] <+: before := by
    apply List.prefix_of_prefix_length_le pattern (List.prefix_append before after)
    simpa using Nat.succ_le_of_lt far
  exact inBefore (short.subset (by simp))

theorem replaceFrom_of_not_mem (inText : mark ∉ text) (replacement : List Char) :
    replaceFrom (head ++ mark :: tail) replacement 0 text = text := by
  induction text with
  | nil => rfl
  | cons char rest ih =>
    have notHere : ¬(head ++ mark :: tail).isPrefixOf (char :: rest) := by
      intro here
      have inPattern : mark ∈ head ++ mark :: tail := by simp
      exact inText ((List.isPrefixOf_iff_prefix.mp here).subset inPattern)
    rw [replaceFrom, if_neg notHere, ih (by simp_all)]

/-- An occurrence that has the first mark of the text, with no mark behind it, is the only one. -/
theorem replaceAll_of_mark (inHead : mark ∉ head) (inBefore : mark ∉ before)
    (inAfter : mark ∉ after) (replacement : List Char) :
    replaceAll (head ++ mark :: tail) replacement (before ++ (head ++ mark :: tail) ++ after) =
      before ++ replacement ++ after := by
  have notEmpty : ¬(head ++ mark :: tail).isEmpty := by simp
  rw [replaceAll, if_neg notEmpty]
  induction before with
  | nil =>
    obtain ⟨char, rest, isCons⟩ := List.exists_cons_of_ne_nil (by simp : head ++ mark :: tail ≠ [])
    have here : (head ++ mark :: tail).isPrefixOf (char :: (rest ++ after)) := by
      rw [isCons, List.isPrefixOf_iff_prefix, ← List.cons_append]
      exact List.prefix_append _ _
    calc replaceFrom (head ++ mark :: tail) replacement 0 ([] ++ (head ++ mark :: tail) ++ after)
        = replacement ++ replaceFrom (head ++ mark :: tail) replacement rest.length
            (rest ++ after) := by
          rw [List.nil_append, isCons, List.cons_append, replaceFrom, ← isCons, if_pos here, isCons,
            List.length_cons, Nat.add_sub_cancel]
      _ = replacement ++ after := by
          rw [replaceFrom_append, replaceFrom_of_not_mem inAfter]
      _ = [] ++ replacement ++ after := by rw [List.nil_append]
  | cons char before ih =>
    have notHere : ¬(head ++ mark :: tail).isPrefixOf
        (char :: (before ++ (head ++ mark :: tail) ++ after)) := by
      have split : char :: (before ++ (head ++ mark :: tail) ++ after) =
          (char :: before ++ head) ++ (mark :: tail ++ after) := by
        simp
      rw [split]
      apply not_isPrefixOf_of_mark
      · simp_all
      · rw [List.length_append, List.length_cons]
        omega
    rw [List.cons_append, List.cons_append, replaceFrom, if_neg notHere, ih (by simp_all)]
    rfl

end Mark

/-- Every occurrence of a pattern is replaced: the first one, and then those behind it. -/
inductive Replaces (pattern replacement : List Char) : (text result : List Char) → Prop
  | unchanged {text : List Char} (absent : ¬pattern <:+: text) :
    Replaces pattern replacement text text
  | occurrence (before : List Char) {rest result : List Char}
    (first : ∀ start after, before ++ pattern ++ rest = start ++ pattern ++ after →
      before.length ≤ start.length)
    (replaces : Replaces pattern replacement rest result) :
    Replaces pattern replacement (before ++ pattern ++ rest) (before ++ replacement ++ result)

/-- In front of a text at which the pattern does not begin there may be one more character. -/
theorem Replaces.cons {char : Char} {result : List Char}
    (replaces : Replaces pattern replacement text result) (notHere : ¬pattern <+: char :: text) :
    Replaces pattern replacement (char :: text) (char :: result) := by
  cases replaces with
  | unchanged absent =>
    apply Replaces.unchanged
    rw [List.infix_cons_iff]
    exact not_or.mpr ⟨notHere, absent⟩
  | occurrence before first replaces =>
    apply Replaces.occurrence (char :: before) ?_ replaces
    intro start after same
    cases start with
    | nil => exact absurd ⟨after, same.symm⟩ notHere
    | cons other start => exact Nat.succ_le_succ (first start after (List.cons.inj same).2)

theorem replaces_replaceFrom (notEmpty : pattern ≠ []) (text : List Char) :
    Replaces pattern replacement text (replaceFrom pattern replacement 0 text) := by
  -- What is behind an occurrence is shorter by the whole occurrence, not by one character.
  induction length : text.length using Nat.strongRecOn generalizing text with
  | ind length ih =>
    subst length
    cases text with
    | nil => exact .unchanged (by simpa using notEmpty)
    | cons char rest =>
      rw [replaceFrom]
      split
      next here =>
        obtain ⟨after, whole⟩ := List.isPrefixOf_iff_prefix.mp here
        obtain ⟨head, tail, rfl⟩ := List.exists_cons_of_ne_nil notEmpty
        rw [List.cons_append] at whole
        obtain ⟨rfl, rfl⟩ := List.cons.inj whole
        have shorter : after.length < (head :: (tail ++ after)).length := by
          simp only [List.length_cons, List.length_append]
          omega
        have replaces := ih after.length shorter after rfl
        rw [List.length_cons, Nat.add_sub_cancel, replaceFrom_append]
        exact .occurrence [] (fun _ _ _ ↦ Nat.zero_le _) replaces
      next notHere =>
        rw [List.isPrefixOf_iff_prefix] at notHere
        exact (ih rest.length (Nat.lt_succ_self _) rest rfl).cons notHere

theorem replaces_replaceAll (notEmpty : pattern ≠ []) :
    Replaces pattern replacement text (replaceAll pattern replacement text) := by
  rw [replaceAll, if_neg (by simpa using notEmpty)]
  exact replaces_replaceFrom notEmpty text

/-- Occurrences do not overlap. -/
example : replaceAll "aa".toList "b".toList "aaaaa".toList = "bba".toList := by decide

theorem occursIn_iff : occursIn pattern text ↔ pattern <:+: text := by
  induction text with
  | nil => simp [occursIn]
  | cons char rest ih =>
    rw [occursIn, Bool.or_eq_true, ih, List.isPrefixOf_iff_prefix, List.infix_cons_iff]

theorem occursIn_append (before pattern after : List Char) :
    occursIn pattern (before ++ pattern ++ after) := occursIn_iff.mpr ⟨before, after, rfl⟩

section Replaced

variable {pattern first second text : String}

/-- Different replacements have different results. -/
theorem replaced?_inj (occurs : occursIn pattern.toList text.toList) :
    replaced? pattern first text = replaced? pattern second text ↔ first = second := by
  constructor
  · intro same
    rw [replaced?, replaced?, if_pos occurs, if_pos occurs, Option.some_inj,
      String.ofList_inj] at same
    exact String.toList_inj.mp (replaceAll_injective occurs same)
  · rintro rfl
    rfl

theorem replaced?_self (occurs : occursIn pattern.toList text.toList) :
    replaced? pattern pattern text = some text := by
  rw [replaced?, if_pos occurs, replaceAll_self, String.ofList_toList]

/-- An occurrence that has the first mark of the text, with no mark behind it, is replaced, and
nothing else. -/
theorem replaced?_of_mark {mark : Char} {head tail : List Char} {before after : String}
    (isPattern : pattern.toList = head ++ mark :: tail) (inHead : mark ∉ head)
    (inBefore : mark ∉ before.toList) (inAfter : mark ∉ after.toList) (replacement : String) :
    replaced? pattern replacement (before ++ pattern ++ after) =
      some (before ++ replacement ++ after) := by
  have occurs := occursIn_append before.toList pattern.toList after.toList
  rw [← String.toList_append, ← String.toList_append] at occurs
  rw [replaced?, if_pos occurs, String.toList_append, String.toList_append, isPattern,
    replaceAll_of_mark inHead inBefore inAfter, String.ofList_append, String.ofList_append,
    String.ofList_toList, String.ofList_toList, String.ofList_toList]

end Replaced

end ManagedLayout.Text

import ManagedLayout.Resolution.Spelling

/-!
# Outlines of spellings

What a spelling without a namespace shows of a type: a name with those of the declaring types,
arguments, and arrays and pointers. It shows neither the namespace nor what the name stands for. As
long as no name has a character by which the parts of a spelling are told apart, a spelling shows
its outline, and nothing else.
-/

namespace ManagedLayout

/-- An array or a pointer, as it is written behind a type. -/
inductive Mark where
  | pointer
  | array (commas : Nat)
  deriving DecidableEq, Repr

/-- What a spelling shows of a type. -/
inductive Outline where
  | named (path : String) (arguments : List Outline) (marks : List Mark)

def Mark.text : Mark → String
  | pointer => "*"
  | array commas => "[" ++ String.ofList (List.replicate commas ',') ++ "]"

namespace Outline

/-- A name alone. -/
def leaf (path : String) : Outline := named path [] []

/-- The arguments of the name. -/
def arguments : Outline → List Outline
  | named _ arguments _ => arguments

/-- The spelling of an outline. -/
def text : Outline → String
  | named path arguments marks =>
    path ++ angled (arguments.map text) ++ String.join (marks.map Mark.text)

/-- What holds of an outline if it holds of its arguments holds of all outlines. -/
@[elab_as_elim]
theorem ind {motive : Outline → Prop}
    (named : ∀ path arguments marks, (∀ argument ∈ arguments, motive argument) →
      motive (.named path arguments marks)) : ∀ outline, motive outline
  | .named path arguments marks => named path arguments marks fun argument _ ↦ ind named argument

/-- The characters by which the parts of a spelling are told apart. -/
def delimiters : List Char := ['<', '>', ',', '*', '[']

/-- No name has a character by which the parts of a spelling are told apart. -/
inductive Plain : Outline → Prop
  | named {path : String} {arguments : List Outline} {marks : List Mark}
    (isPlain : ∀ char ∈ path.toList, char ∉ delimiters)
    (arePlain : ∀ argument ∈ arguments, Plain argument) : Plain (.named path arguments marks)

@[simp]
theorem text_leaf (path : String) : (leaf path).text = path := by
  simp [leaf, text, angled]

/-- The spelling of an outline, character by character. -/
def chars (outline : Outline) : List Char := outline.text.toList

/-- The spelling of the arguments that come after one, up to the closing bracket. -/
def closing (arguments : List Outline) (rest : List Char) : List Char :=
  arguments.flatMap (fun argument ↦ ',' :: ' ' :: argument.chars) ++ '>' :: rest

theorem chars_named (path : String) (arguments : List Outline) (marks : List Mark) :
    (named path arguments marks).chars =
      path.toList ++ ((angled (arguments.map text)).toList ++
        marks.flatMap fun mark ↦ mark.text.toList) := by
  simp [chars, text, List.flatMap_map, List.append_assoc]

theorem chars_angled (argument : Outline) (arguments : List Outline) (rest : List Char) :
    (angled ((argument :: arguments).map text)).toList ++ rest =
      '<' :: (argument.chars ++ closing arguments rest) := by
  have joined : (", ".intercalate ((argument :: arguments).map text)).toList ++ '>' :: rest =
      argument.chars ++ closing arguments rest := by
    induction arguments generalizing argument with
    | nil => simp [closing, chars]
    | cons next arguments ih =>
      rw [List.map_cons, List.map_cons, String.intercalate_cons_cons, ← List.map_cons,
        String.toList_append, String.toList_append, List.append_assoc, ih next]
      simp [closing, chars]
  rw [← joined]
  simp [angled]

/-- A text that is empty, or starts with one of these characters. -/
def StartsWith (allowed : List Char) (rest : List Char) : Prop := ∀ char ∈ rest.head?, char ∈ allowed

/-- A text without certain characters ends where the first of them comes. -/
theorem plain_append_inj {ends first second firstRest secondRest : List Char}
    (firstPlain : ∀ char ∈ first, char ∉ ends) (secondPlain : ∀ char ∈ second, char ∉ ends)
    (firstEnds : StartsWith ends firstRest) (secondEnds : StartsWith ends secondRest)
    (same : first ++ firstRest = second ++ secondRest) :
    first = second ∧ firstRest = secondRest := by
  induction first generalizing second with
  | nil =>
    cases second with
    | nil => exact ⟨rfl, same⟩
    | cons char second =>
      have starts := firstEnds char (by rw [← List.nil_append firstRest, same]; rfl)
      exact absurd starts (secondPlain char List.mem_cons_self)
  | cons char first ih =>
    cases second with
    | nil =>
      have starts := secondEnds char (by rw [← List.nil_append secondRest, ← same]; rfl)
      exact absurd starts (firstPlain char List.mem_cons_self)
    | cons other second =>
      obtain ⟨rfl, sameTail⟩ := List.cons.inj same
      obtain ⟨rfl, sameRest⟩ := ih (fun char mem ↦ firstPlain char (List.mem_cons_of_mem _ mem))
        (fun char mem ↦ secondPlain char (List.mem_cons_of_mem _ mem)) sameTail
      exact ⟨rfl, sameRest⟩

theorem commas_append_inj {first second : Nat} {firstRest secondRest : List Char}
    (same : List.replicate first ',' ++ ']' :: firstRest =
      List.replicate second ',' ++ ']' :: secondRest) :
    first = second ∧ firstRest = secondRest := by
  induction first generalizing second with
  | zero =>
    cases second with
    | zero => exact ⟨rfl, (List.cons.inj same).2⟩
    | succ second => exact absurd (List.cons.inj same).1 (by decide)
  | succ first ih =>
    cases second with
    | zero => exact absurd (List.cons.inj same).1 (by decide)
    | succ second =>
      obtain ⟨rfl, sameRest⟩ := ih (List.cons.inj same).2
      exact ⟨rfl, sameRest⟩

/-- The characters that can come behind an argument. -/
def stops : List Char := [',', '>']

theorem chars_pointer (rest : List Char) : Mark.pointer.text.toList ++ rest = '*' :: rest := rfl

theorem chars_array (commas : Nat) (rest : List Char) :
    (Mark.array commas).text.toList ++ rest =
      '[' :: (List.replicate commas ',' ++ ']' :: rest) := by
  simp [Mark.text]

/-- A mark starts with a character that cannot come behind an argument. -/
theorem exists_chars_mark (mark : Mark) (rest : List Char) :
    ∃ char ∈ ['*', '['], ∃ tail, mark.text.toList ++ rest = char :: tail := by
  cases mark with
  | pointer => exact ⟨'*', by decide, rest, chars_pointer rest⟩
  | array commas => exact ⟨'[', by decide, _, chars_array commas rest⟩

/-- A mark ends where it says. -/
theorem mark_append_inj {first second : Mark} {firstRest secondRest : List Char}
    (same : first.text.toList ++ firstRest = second.text.toList ++ secondRest) :
    first = second ∧ firstRest = secondRest := by
  cases first with
  | pointer =>
    cases second with
    | pointer =>
      rw [chars_pointer, chars_pointer] at same
      exact ⟨rfl, (List.cons.inj same).2⟩
    | array =>
      rw [chars_pointer, chars_array] at same
      exact absurd (List.cons.inj same).1 (by decide)
  | array commas =>
    cases second with
    | pointer =>
      rw [chars_array, chars_pointer] at same
      exact absurd (List.cons.inj same).1 (by decide)
    | array =>
      rw [chars_array, chars_array] at same
      obtain ⟨rfl, sameRest⟩ := commas_append_inj (List.cons.inj same).2
      exact ⟨rfl, sameRest⟩

theorem marks_append_inj {first second : List Mark} {firstRest secondRest : List Char}
    (firstEnds : StartsWith stops firstRest) (secondEnds : StartsWith stops secondRest)
    (same : (first.flatMap fun mark ↦ mark.text.toList) ++ firstRest =
      (second.flatMap fun mark ↦ mark.text.toList) ++ secondRest) :
    first = second ∧ firstRest = secondRest := by
  have ended {mark : Mark} {marks : List Mark} {rest text : List Char}
      (ends : StartsWith stops text)
      (isText : text = ((mark :: marks).flatMap fun mark ↦ mark.text.toList) ++ rest) : False := by
    rw [List.flatMap_cons, List.append_assoc] at isText
    obtain ⟨char, isMark, tail, whole⟩ := exists_chars_mark mark
      ((marks.flatMap fun mark ↦ mark.text.toList) ++ rest)
    have isStop : char ∈ stops := ends char (by rw [isText, whole]; rfl)
    have apart : ∀ char ∈ ['*', '['], char ∉ stops := by simp [stops]
    exact apart char isMark isStop
  induction first generalizing second with
  | nil =>
    cases second with
    | nil => exact ⟨rfl, same⟩
    | cons => exact (ended firstEnds same).elim
  | cons mark first ih =>
    cases second with
    | nil => exact (ended secondEnds same.symm).elim
    | cons other second =>
      rw [List.flatMap_cons, List.flatMap_cons, List.append_assoc, List.append_assoc] at same
      obtain ⟨rfl, sameTail⟩ := mark_append_inj same
      obtain ⟨rfl, sameRest⟩ := ih sameTail
      exact ⟨rfl, sameRest⟩

theorem closing_startsWith (arguments : List Outline) (rest : List Char) :
    StartsWith stops (closing arguments rest) := by
  intro char isHead
  cases arguments with
  | nil =>
    obtain rfl := Option.some.inj isHead
    decide
  | cons =>
    obtain rfl := Option.some.inj isHead
    decide

/-- What comes behind the arguments of a name is a mark, or what comes behind the type. -/
theorem marks_startsWith (marks : List Mark) {rest : List Char} (ends : StartsWith stops rest) :
    StartsWith ('*' :: '[' :: stops) ((marks.flatMap fun mark ↦ mark.text.toList) ++ rest) := by
  intro char isHead
  cases marks with
  | nil => exact List.mem_cons_of_mem _ (List.mem_cons_of_mem _ (ends char isHead))
  | cons mark marks =>
    rw [List.flatMap_cons, List.append_assoc] at isHead
    obtain ⟨head, isMark, tail, whole⟩ := exists_chars_mark mark
      ((marks.flatMap fun mark ↦ mark.text.toList) ++ rest)
    rw [whole] at isHead
    obtain rfl := Option.some.inj isHead
    exact List.mem_append_left stops isMark

theorem angled_startsWith (arguments : List Outline) (marks : List Mark) {rest : List Char}
    (ends : StartsWith stops rest) :
    StartsWith delimiters ((angled (arguments.map text)).toList ++
      ((marks.flatMap fun mark ↦ mark.text.toList) ++ rest)) := by
  intro char isHead
  cases arguments with
  | nil =>
    have among : '*' :: '[' :: stops ⊆ delimiters := by decide
    exact among (marks_startsWith marks ends char isHead)
  | cons argument arguments =>
    rw [chars_angled] at isHead
    obtain rfl := Option.some.inj isHead
    decide

theorem not_opening (marks : List Mark) {rest : List Char} (ends : StartsWith stops rest) :
    '<' ∉ ((marks.flatMap fun mark ↦ mark.text.toList) ++ rest).head? := by
  intro isHead
  exact absurd (marks_startsWith marks ends '<' isHead) (by decide)

/-- An argument ends where the next one starts, or where the arguments end. -/
def ReadsBack (outline : Outline) : Prop :=
  ∀ other : Outline, other.Plain → ∀ rest otherRest, StartsWith stops rest →
    StartsWith stops otherRest → outline.chars ++ rest = other.chars ++ otherRest →
      outline = other ∧ rest = otherRest

theorem closing_inj {first second : List Outline} {firstRest secondRest : List Char}
    (readsBack : ∀ argument ∈ first, ReadsBack argument)
    (secondPlain : ∀ argument ∈ second, argument.Plain)
    (same : closing first firstRest = closing second secondRest) :
    first = second ∧ firstRest = secondRest := by
  induction first generalizing second with
  | nil =>
    cases second with
    | nil => exact ⟨rfl, (List.cons.inj same).2⟩
    | cons => exact absurd (List.cons.inj same).1 (by decide)
  | cons argument first ih =>
    cases second with
    | nil => exact absurd (List.cons.inj same).1 (by decide)
    | cons other second =>
      have sameTail : argument.chars ++ closing first firstRest =
          other.chars ++ closing second secondRest := by
        simpa [closing] using same
      obtain ⟨rfl, sameClosing⟩ := readsBack argument List.mem_cons_self other
        (secondPlain other List.mem_cons_self) _ _ (closing_startsWith _ _)
        (closing_startsWith _ _) sameTail
      obtain ⟨rfl, sameRest⟩ :=
        ih (fun argument mem ↦ readsBack argument (List.mem_cons_of_mem _ mem))
          (fun argument mem ↦ secondPlain argument (List.mem_cons_of_mem _ mem)) sameClosing
      exact ⟨rfl, sameRest⟩

/-- Arguments in brackets are read back as well, if what comes behind is no opening bracket. -/
theorem angled_append_inj {first second : List Outline} {firstRest secondRest : List Char}
    (readsBack : ∀ argument ∈ first, ReadsBack argument)
    (secondPlain : ∀ argument ∈ second, argument.Plain)
    (firstEnds : '<' ∉ firstRest.head?) (secondEnds : '<' ∉ secondRest.head?)
    (same : (angled (first.map text)).toList ++ firstRest =
      (angled (second.map text)).toList ++ secondRest) :
    first = second ∧ firstRest = secondRest := by
  cases first with
  | nil =>
    cases second with
    | nil => exact ⟨rfl, same⟩
    | cons argument second =>
      rw [chars_angled] at same
      have opens : firstRest = '<' :: (argument.chars ++ closing second secondRest) := same
      exact absurd (by rw [opens]; rfl) firstEnds
  | cons argument first =>
    rw [chars_angled] at same
    cases second with
    | nil =>
      have opens : secondRest = '<' :: (argument.chars ++ closing first firstRest) := same.symm
      exact absurd (by rw [opens]; rfl) secondEnds
    | cons other second =>
      rw [chars_angled] at same
      have sameClosing : closing (argument :: first) firstRest =
          closing (other :: second) secondRest := by
        simpa [closing] using (List.cons.inj same).2
      exact closing_inj readsBack secondPlain sameClosing

/-- A spelling without special characters in names shows its outline. -/
theorem Plain.readsBack {outline : Outline} (isPlain : outline.Plain) : outline.ReadsBack := by
  induction outline using ind with
  | named path arguments marks ih =>
    cases isPlain with
    | named isPlain arePlain =>
      intro other otherPlain rest otherRest ends otherEnds same
      cases otherPlain with
      | @named otherPath otherArguments otherMarks otherIsPlain otherArePlain =>
        rw [chars_named, chars_named, List.append_assoc, List.append_assoc, List.append_assoc,
          List.append_assoc] at same
        obtain ⟨samePath, sameTail⟩ := plain_append_inj isPlain otherIsPlain
          (angled_startsWith arguments marks ends)
          (angled_startsWith otherArguments otherMarks otherEnds) same
        obtain rfl := String.toList_inj.mp samePath
        obtain ⟨rfl, sameMarks⟩ := angled_append_inj
          (fun argument mem ↦ ih argument mem (arePlain argument mem)) otherArePlain
          (not_opening marks ends) (not_opening otherMarks otherEnds) sameTail
        obtain ⟨rfl, sameRest⟩ := marks_append_inj ends otherEnds sameMarks
        exact ⟨rfl, sameRest⟩

section Angled

variable {first second : List Outline}

/-- Arguments in brackets show what the arguments are. -/
theorem angled_inj (firstPlain : ∀ argument ∈ first, argument.Plain)
    (secondPlain : ∀ argument ∈ second, argument.Plain) :
    angled (first.map text) = angled (second.map text) ↔ first = second := by
  constructor
  · intro same
    have sameChars : (angled (first.map text)).toList ++ [] =
        (angled (second.map text)).toList ++ [] := by rw [same]
    exact (angled_append_inj (fun argument mem ↦ (firstPlain argument mem).readsBack) secondPlain
      (by simp) (by simp) sameChars).1
  · rintro rfl
    rfl

theorem opened_append_inj {before otherBefore rest otherRest : List Char} (inBefore : '<' ∉ before)
    (inOtherBefore : '<' ∉ otherBefore)
    (same : before ++ '<' :: rest = otherBefore ++ '<' :: otherRest) :
    before = otherBefore ∧ '<' :: rest = '<' :: otherRest := by
  have isPlain {text : List Char} (notIn : '<' ∉ text) : ∀ char ∈ text, char ∉ ['<'] := by
    intro char mem isMark
    obtain rfl := List.mem_singleton.mp isMark
    exact notIn mem
  have starts (text : List Char) : StartsWith ['<'] ('<' :: text) := by simp [StartsWith]
  exact plain_append_inj (isPlain inBefore) (isPlain inOtherBefore) (starts _) (starts _) same

/-- So they do with other text around them, if this has no opening bracket. -/
theorem bracketed_inj {before after otherBefore otherAfter : String}
    (firstPlain : ∀ argument ∈ first, argument.Plain)
    (secondPlain : ∀ argument ∈ second, argument.Plain) (some_arguments : first ≠ [])
    (inBefore : '<' ∉ before.toList) (inAfter : '<' ∉ after.toList)
    (inOtherBefore : '<' ∉ otherBefore.toList) (inOtherAfter : '<' ∉ otherAfter.toList) :
    before ++ angled (first.map text) ++ after =
        otherBefore ++ angled (second.map text) ++ otherAfter ↔
      before = otherBefore ∧ after = otherAfter ∧ first = second := by
  constructor
  · intro same
    have sameChars := congrArg String.toList same
    rw [String.toList_append, String.toList_append, String.toList_append, String.toList_append,
      List.append_assoc, List.append_assoc] at sameChars
    obtain ⟨argument, arguments, rfl⟩ := List.exists_cons_of_ne_nil some_arguments
    have sameArguments := sameChars
    rw [chars_angled] at sameChars
    cases second with
    | nil =>
      have opens : '<' ∈ otherBefore.toList ++ otherAfter.toList := by
        have isPlain : (angled ([].map text)).toList = [] := rfl
        rw [isPlain, List.nil_append] at sameChars
        rw [← sameChars]
        simp
      exact absurd (List.mem_append.mp opens) (by simp [inOtherBefore, inOtherAfter])
    | cons other others =>
      rw [chars_angled] at sameChars
      obtain ⟨sameBefore, -⟩ := opened_append_inj inBefore inOtherBefore sameChars
      rw [sameBefore, List.append_cancel_left_eq] at sameArguments
      obtain ⟨sameOutlines, sameAfter⟩ := angled_append_inj
        (fun argument mem ↦ (firstPlain argument mem).readsBack) secondPlain
        (fun isHead ↦ inAfter (List.mem_of_mem_head? isHead))
        (fun isHead ↦ inOtherAfter (List.mem_of_mem_head? isHead)) sameArguments
      exact ⟨String.toList_inj.mp sameBefore, String.toList_inj.mp sameAfter, sameOutlines⟩
  · rintro ⟨rfl, rfl, rfl⟩
    rfl

end Angled

end Outline

end ManagedLayout

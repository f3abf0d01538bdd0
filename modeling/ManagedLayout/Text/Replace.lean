/-!
# Replacing a part of a text

Every occurrence of a pattern is replaced, from left to right; occurrences do not overlap. The empty
pattern occurs in front of every character and at the end.
-/

namespace ManagedLayout.Text

/-- Whether a pattern occurs somewhere in a sequence of characters. -/
def occursIn (pattern : List Char) : List Char → Bool
  | [] => pattern.isEmpty
  | char :: rest => pattern.isPrefixOf (char :: rest) || occursIn pattern rest

/-- Replaces the occurrences of a pattern that is not empty, after `skip` characters that belong to
an occurrence which has been replaced. -/
def replaceFrom (pattern replacement : List Char) : (skip : Nat) → List Char → List Char
  | _, [] => []
  | skip + 1, _ :: rest => replaceFrom pattern replacement skip rest
  | 0, char :: rest =>
    if pattern.isPrefixOf (char :: rest) then
      replacement ++ replaceFrom pattern replacement (pattern.length - 1) rest
    else char :: replaceFrom pattern replacement 0 rest

/-- Replaces every occurrence of a pattern. -/
def replaceAll (pattern replacement text : List Char) : List Char :=
  if pattern.isEmpty then replacement ++ text.flatMap fun char ↦ char :: replacement
  else replaceFrom pattern replacement 0 text

/-- The text with every occurrence of a pattern replaced; none if there is no occurrence. -/
def replaced? (pattern replacement text : String) : Option String :=
  if occursIn pattern.toList text.toList then
    some (String.ofList (replaceAll pattern.toList replacement.toList text.toList))
  else none

end ManagedLayout.Text

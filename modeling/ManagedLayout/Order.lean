import Std.Data.TreeMap
import Std.Data.TreeSet

/-!
# Orders of keys

What a build finds out is kept in search trees, and the keys of a search tree need an order. All
orders here are orders of a part of the key, which no two keys share.
-/

namespace ManagedLayout

/-- Keys that are alike in an order by a part of them are the same, if the part tells them apart. -/
theorem lawfulEqCmp_compareOn {Key Part : Type} [Ord Part] [Std.LawfulEqOrd Part]
    {part : Key → Part} (injective : ∀ left right, part left = part right → left = right) :
    Std.LawfulEqCmp (compareOn part) where
  compare_self := Std.ReflOrd.compare_self
  eq_of_compare alike := injective _ _ (Std.LawfulEqOrd.eq_of_compare alike)

/-- The same of an order by two parts, the first of which decides if it can. -/
theorem lawfulEqCmp_compareLex {Key : Type} {first second : Key → Key → Ordering}
    [Std.ReflCmp first] [Std.ReflCmp second]
    (injective : ∀ left right, first left right = .eq → second left right = .eq → left = right) :
    Std.LawfulEqCmp (compareLex first second) where
  compare_self := Std.ReflCmp.compare_self
  eq_of_compare alike :=
    have both := compareLex_eq_eq.mp alike
    injective _ _ both.1 both.2

end ManagedLayout

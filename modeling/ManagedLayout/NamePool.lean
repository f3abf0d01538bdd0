import Std.Data.TreeMap
import Std.Data.TreeSet

/-!
# Unique names

A name pool hands out names that differ from each other. The first request for a name gets it
unchanged; a later one gets the name with the least suffix `_1`, `_2`, … that makes it new. Names
are compared character by character.
-/

namespace ManagedLayout

/-- The names handed out so far. -/
structure NamePool where
  issued : Std.TreeSet String
  /-- For a name that was asked for again, the least suffix that has not been tried. -/
  nextSuffix : Std.TreeMap String Nat

namespace NamePool

def empty : NamePool := ⟨∅, ∅⟩

instance : Inhabited NamePool := ⟨empty⟩

def contains (pool : NamePool) (name : String) : Bool := pool.issued.contains name

/-- How many names have been handed out. -/
def size (pool : NamePool) : Nat := pool.issued.size

def isEmpty (pool : NamePool) : Bool := pool.issued.isEmpty

/-- A name with a number behind it. -/
def suffixed (name : String) (suffix : Nat) : String := name ++ "_" ++ toString suffix

/-- The least suffix, not below `suffix`, that makes `name` new. One of `tries + 1` consecutive
suffixes is free as soon as `tries` is at least the number of issued names. -/
def firstFree (pool : NamePool) (name : String) : (tries : Nat) → (suffix : Nat) → Nat
  | 0, suffix => suffix
  | tries + 1, suffix =>
    if pool.contains (suffixed name suffix) then firstFree pool name tries (suffix + 1) else suffix

/-- Hands out the name asked for, or that name with a suffix. -/
def request (pool : NamePool) (name : String) : String × NamePool :=
  if pool.contains name then
    let suffix := pool.firstFree name pool.size (pool.nextSuffix.getD name 1)
    let unique := suffixed name suffix
    (unique, ⟨pool.issued.insert unique, pool.nextSuffix.insert name (suffix + 1)⟩)
  else
    (name, { pool with issued := pool.issued.insert name })

variable {pool : NamePool} {name other : String}

@[simp]
theorem contains_empty : empty.contains name = false := Std.TreeSet.contains_emptyc

/-- A name that is handed out is the one asked for, or that one with a suffix. -/
theorem request_eq_or_suffixed :
    (pool.request name).1 = name ∨ ∃ suffix, (pool.request name).1 = suffixed name suffix := by
  unfold request
  split
  · exact .inr ⟨_, rfl⟩
  · exact .inl rfl

/-- After a request the pool has the name that was handed out, and those that it had before. -/
theorem contains_request :
    (pool.request name).2.contains other = true ↔
      other = (pool.request name).1 ∨ pool.contains other = true := by
  have insert_iff (inserted : String) :
      (pool.issued.insert inserted).contains other = true ↔
        other = inserted ∨ pool.contains other = true := by
    rw [Std.TreeSet.contains_insert, Bool.or_eq_true, beq_iff_eq,
      Std.LawfulEqCmp.compare_eq_iff_eq, eq_comm]
    rfl
  unfold request
  split
  · exact insert_iff _
  · exact insert_iff _

end NamePool

end ManagedLayout

import ManagedLayout.Json.Basic
import Mathlib.Data.List.Nodup

/-!
# The order of members

A JSON text keeps the members of an object in the order written; a program that loads it may keep
them in another. A view of values is a rearrangement if it changes nothing else, as long as no
object has a key twice. The canonical form of values is one.
-/

open scoped List

namespace ManagedLayout.Json

/-- The keys of an object, in the order written. -/
def keys (members : List (String × Json)) : List String := members.map Prod.fst

theorem keys_map (members : List (String × Json)) (view : Json → Json) :
    keys (members.map (Prod.map id view)) = keys members := by
  simp [keys]

theorem keys_perm {members others : List (String × Json)} (perm : members.Perm others) :
    (keys members).Perm (keys others) := perm.map Prod.fst

theorem key_mem_of_mem_map {members : List (String × Json)} {view : Json → Json} {key : String}
    {value : Json} (mem : (key, value) ∈ members.map (Prod.map id view)) : key ∈ keys members :=
  keys_map members view ▸ List.mem_map_of_mem mem

/-- The view changes at most the order of members, in objects in which no key occurs twice. -/
structure IsRearrangement (view : Json → Json) : Prop where
  null_iff : ∀ value, view value = null ↔ value = null
  bool : ∀ value, view (bool value) = .bool value
  number : ∀ value, view (number value) = .number value
  string : ∀ value, view (string value) = .string value
  array : ∀ items, view (array items) = .array (items.map view)
  object : ∀ members, (keys members).Nodup → ∃ others,
    view (object members) = .object others ∧ others.Perm (members.map (Prod.map id view))

theorem isRearrangement_id : IsRearrangement id where
  null_iff _ := Iff.rfl
  bool _ := rfl
  number _ := rfl
  string _ := rfl
  array items := by simp
  object members _ := ⟨members, rfl, by simp⟩

theorem canonicalItems_eq_map (items : List Json) : canonicalItems items = items.map canonical := by
  induction items with
  | nil => rfl
  | cons item items ih => rw [canonicalItems, ih, List.map_cons]

/-- A member with a new key goes somewhere between the others. -/
theorem insertMember_perm {key : String} (value : Json) {members : List (String × Json)}
    (isNew : key ∉ keys members) :
    (insertMember key value members).Perm ((key, value) :: members) := by
  induction members with
  | nil => exact .refl _
  | cons member members ih =>
    obtain ⟨other, old⟩ := member
    obtain ⟨isOther, isNew⟩ := not_or.mp (List.mem_cons.not.mp isNew)
    rw [insertMember, if_neg isOther]
    split
    · exact .refl _
    · exact ((ih isNew).cons _).trans (.swap _ _ _)

/-- Members with keys of their own are all kept. -/
theorem canonicalMembers_perm (members done : List (String × Json))
    (distinct : (keys (members ++ done)).Nodup) :
    (canonicalMembers members done).Perm (members.map (Prod.map id canonical) ++ done) := by
  induction members generalizing done with
  | nil => exact .refl _
  | cons member members ih =>
    obtain ⟨key, value⟩ := member
    have isNew : key ∉ keys done := by simp_all [keys]
    have inserted := insertMember_perm value.canonical isNew
    have moved : (members ++ insertMember key value.canonical done).Perm
        ((key, value.canonical) :: (members ++ done)) :=
      (inserted.append_left members).trans List.perm_middle
    have stillDistinct : (keys (members ++ insertMember key value.canonical done)).Nodup :=
      (keys_perm moved).nodup_iff.mpr distinct
    calc canonicalMembers ((key, value) :: members) done
      _ = canonicalMembers members (insertMember key value.canonical done) := by
        rw [canonicalMembers]
      _ ~ members.map (Prod.map id canonical) ++ insertMember key value.canonical done :=
        ih _ stillDistinct
      _ ~ members.map (Prod.map id canonical) ++ (key, value.canonical) :: done :=
        inserted.append_left _
      _ ~ (key, value.canonical) :: (members.map (Prod.map id canonical) ++ done) :=
        List.perm_middle

theorem isRearrangement_canonical : IsRearrangement canonical where
  null_iff value := by cases value <;> simp [canonical]
  bool _ := by simp [canonical]
  number _ := by simp [canonical]
  string _ := by simp [canonical]
  array items := by rw [canonical, canonicalItems_eq_map]
  object members distinct := by
    refine ⟨_, canonical.eq_2 members, ?_⟩
    simpa using canonicalMembers_perm members [] (by simpa using distinct)

end ManagedLayout.Json

import ManagedLayout.NamePool
import ManagedLayout.Proofs.Lookup
import Mathlib.Data.List.Induction
import Mathlib.Data.List.Nodup
import Mathlib.Data.List.Perm.Subperm
import Std.Data.String.ToNat

/-!
# Which names a pool hands out

A name that has not been handed out before is handed out as it is. Any other name gets the least
number that makes it new. Not all numbers are tried for that, but those that are passed over are
taken: a number is remembered only when all numbers below it are, and no name is ever given back.
One of the numbers is free, since there are more of them to try than names have been issued.
-/

namespace ManagedLayout.NamePool

variable {pool : NamePool} {name : String} {start tries found : Nat} {issued : List String}

theorem suffixed_injective (name : String) : Function.Injective (suffixed name) := by
  intro first second same
  exact Nat.repr_inj.mp ((String.append_right_inj _).mp same)

theorem suffixed_ne (name : String) (suffix : Nat) : suffixed name suffix ≠ name := by
  intro same
  have lengths := congrArg String.length same
  rw [suffixed, String.length_append, String.length_append] at lengths
  have mark : "_".length = 1 := rfl
  omega

/-- Among more suffixes than there are issued names, one gives a name that is not issued. -/
theorem exists_free (pool : NamePool) (name : String) (suffix : Nat) :
    ∃ position ≤ pool.size, pool.contains (suffixed name (suffix + position)) = false := by
  by_contra! allTaken
  let candidates := (List.range (pool.size + 1)).map fun position ↦ suffixed name (suffix + position)
  have distinct : candidates.Nodup := by
    apply List.nodup_range.map
    intro first second same
    exact Nat.add_left_cancel (suffixed_injective name same)
  have issued : candidates ⊆ pool.issued.toList := by
    intro candidate mem
    obtain ⟨position, inRange, rfl⟩ := List.mem_map.mp mem
    have taken := allTaken position (Nat.le_of_lt_succ (List.mem_range.mp inRange))
    rw [ne_eq, Bool.not_eq_false] at taken
    exact Std.TreeSet.mem_toList.mpr taken
  have atMost := (distinct.subperm issued).length_le
  simp only [candidates, List.length_map, List.length_range, Std.TreeSet.length_toList] at atMost
  exact absurd atMost (by simp [size])

/-- Numbers are tried one after the other, from `start` on. After so many tries the name with the
number `found` is the first one that is new. -/
inductive Probes (pool : NamePool) (name : String) : (start tries found : Nat) → Prop
  | last {start : Nat} (free : pool.contains (suffixed name start) = false) :
    Probes pool name start 1 start
  | next {start tries found : Nat} (taken : pool.contains (suffixed name start) = true)
    (rest : Probes pool name (start + 1) tries found) : Probes pool name start (tries + 1) found

namespace Probes

theorem free (probes : pool.Probes name start tries found) :
    pool.contains (suffixed name found) = false := by
  induction probes with
  | last free => exact free
  | next _ _ ih => exact ih

theorem start_le (probes : pool.Probes name start tries found) : start ≤ found := by
  induction probes with
  | last => exact Nat.le_refl _
  | next _ _ ih => exact Nat.le_of_succ_le ih

theorem taken (probes : pool.Probes name start tries found) {number : Nat} (notBefore : start ≤ number)
    (before : number < found) : pool.contains (suffixed name number) = true := by
  induction probes with
  | last => omega
  | next taken _ ih =>
    obtain rfl | later := Nat.eq_or_lt_of_le notBefore
    · exact taken
    · exact ih later before

end Probes

/-- If one of the suffixes to be tried is free, the search finds the first one that is. -/
theorem exists_probes_firstFree {suffix position : Nat} (inside : position ≤ tries)
    (free : pool.contains (suffixed name (suffix + position)) = false) :
    ∃ count ≤ tries + 1, pool.Probes name suffix count (pool.firstFree name tries suffix) := by
  induction tries generalizing suffix position with
  | zero =>
    obtain rfl := Nat.le_zero.mp inside
    exact ⟨1, Nat.le_refl _, .last free⟩
  | succ tries ih =>
    unfold firstFree
    split
    next taken =>
      cases position with
      | zero => exact absurd taken (by simpa using free)
      | succ position =>
        have freeLater : pool.contains (suffixed name (suffix + 1 + position)) = false := by
          rwa [Nat.add_right_comm suffix 1 position]
        obtain ⟨count, few, probes⟩ := ih (Nat.le_of_succ_le_succ inside) freeLater
        exact ⟨count + 1, Nat.succ_le_succ few, .next taken probes⟩
    next untaken => exact ⟨1, by omega, .last (by simpa using untaken)⟩

/-- A name that is new is handed out as it is. -/
theorem request_of_new (isNew : pool.contains name = false) :
    pool.request name = (name, { pool with issued := pool.issued.insert name }) := by
  rw [request, if_neg (by simp [isNew])]

/-- For a name that is taken, numbers are tried from the remembered one on, at most as many as there
are issued names, and one more. -/
theorem exists_request_of_taken (taken : pool.contains name = true) :
    ∃ number, ∃ tries ≤ pool.size + 1,
      pool.Probes name (pool.nextSuffix.getD name 1) tries number ∧
        pool.request name = (suffixed name number,
          ⟨pool.issued.insert (suffixed name number), pool.nextSuffix.insert name (number + 1)⟩) := by
  obtain ⟨position, inside, free⟩ := pool.exists_free name (pool.nextSuffix.getD name 1)
  obtain ⟨tries, few, probes⟩ := exists_probes_firstFree inside free
  exact ⟨_, tries, few, probes, by rw [request, if_pos taken]⟩

/-- A name that is handed out has not been handed out before. -/
theorem contains_request_fst : pool.contains (pool.request name).1 = false := by
  cases taken : pool.contains name with
  | false => rwa [request_of_new taken]
  | true =>
    obtain ⟨number, _, _, probes, isRequest⟩ := exists_request_of_taken taken
    rw [isRequest]
    exact probes.free

theorem mem_issued : name ∈ pool.issued.toList ↔ pool.contains name = true :=
  Std.TreeSet.mem_toList

theorem nodup_issued (pool : NamePool) : pool.issued.toList.Nodup := by
  refine Std.TreeSet.distinct_toList.imp ?_
  rintro name _ different rfl
  exact different Std.ReflCmp.compare_self

/-- A request adds the name that it gives out to those that are issued. -/
theorem issued_request (pool : NamePool) (name : String) :
    (pool.request name).2.issued.toList.Perm ((pool.request name).1 :: pool.issued.toList) := by
  have isNew : ((pool.request name).1 :: pool.issued.toList).Nodup := by
    refine List.nodup_cons.mpr ⟨?_, pool.nodup_issued⟩
    rw [mem_issued, contains_request_fst]
    exact nofun
  refine (List.perm_ext_iff_of_nodup (nodup_issued _) isNew).mpr fun other ↦ ?_
  rw [mem_issued, contains_request, List.mem_cons, mem_issued]

theorem size_request (pool : NamePool) (name : String) :
    (pool.request name).2.size = pool.size + 1 := by
  have lengths := (pool.issued_request name).length_eq
  rwa [List.length_cons, Std.TreeSet.length_toList, Std.TreeSet.length_toList] at lengths

/-- What a request comes to after these names have been handed out: the name that is asked for, or
the same name with the least number that makes it new. -/
inductive Answers (pool : NamePool) (issued : List String) (name : String) : String → Prop
  | unchanged (isNew : name ∉ issued) : Answers pool issued name name
  | numbered {number tries : Nat} (taken : name ∈ issued) (positive : 1 ≤ number)
    (isNew : suffixed name number ∉ issued)
    (least : ∀ smaller, 1 ≤ smaller → smaller < number → suffixed name smaller ∈ issued)
    (probes : pool.Probes name (pool.nextSuffix.getD name 1) tries number)
    (few : tries ≤ pool.size + 1) : Answers pool issued name (suffixed name number)

/-- Of a name these numbers are taken: all from 1 on that are below the next one. -/
structure Exhausts (issued : List String) (name : String) (next : Nat) : Prop where
  positive : 1 ≤ next
  taken : ∀ number, 1 ≤ number → number < next → suffixed name number ∈ issued

namespace Exhausts

variable {next : Nat}

theorem one : Exhausts issued name 1 := ⟨Nat.le_refl _, by omega⟩

theorem append (exhausts : Exhausts issued name next) (more : List String) :
    Exhausts (issued ++ more) name next where
  positive := exhausts.positive
  taken number isPositive before :=
    List.mem_append_left more (exhausts.taken number isPositive before)

/-- A name of which numbers are taken is itself among the issued names, so that there are not more
of the numbers than of the names. -/
theorem le_length (exhausts : Exhausts issued name next) (taken : name ∈ issued) :
    next ≤ issued.length := by
  let numbered := (List.range (next - 1)).map fun position ↦ suffixed name (position + 1)
  have distinct : (name :: numbered).Nodup := by
    refine List.nodup_cons.mpr ⟨?_, List.nodup_range.map ?_⟩
    · intro mem
      obtain ⟨position, -, same⟩ := List.mem_map.mp mem
      exact suffixed_ne name _ same
    · intro first second same
      exact Nat.add_right_cancel (suffixed_injective name same)
  have areIssued : name :: numbered ⊆ issued := by
    refine List.cons_subset.mpr ⟨taken, ?_⟩
    intro candidate mem
    obtain ⟨position, inRange, rfl⟩ := List.mem_map.mp mem
    have inside := List.mem_range.mp inRange
    exact exhausts.taken (position + 1) (by omega) (by omega)
  have atMost := (distinct.subperm areIssued).length_le
  simp only [numbered, List.length_cons, List.length_map, List.length_range] at atMost
  omega

end Exhausts

/-- These names have been handed out, and what is remembered of a name is true of them. -/
structure Issues (pool : NamePool) (issued : List String) : Prop where
  contains_iff : ∀ name, pool.contains name = true ↔ name ∈ issued
  distinct : issued.Nodup
  size : pool.size = issued.length
  remembered : ∀ (name : String) next, pool.nextSuffix[name]? = some next →
    name ∈ issued ∧ Exhausts issued name next

namespace Issues

theorem fresh : empty.Issues [] := by
  constructor
  case contains_iff => simp
  case distinct => exact List.nodup_nil
  case size => rfl
  case remembered => simp [empty]

variable (issues : pool.Issues issued)

include issues

theorem exhausts_next (name : String) : Exhausts issued name (pool.nextSuffix.getD name 1) := by
  rw [Std.TreeMap.getD_eq_getD_getElem?]
  cases remembered : pool.nextSuffix[name]? with
  | none => exact .one
  | some next => exact (issues.remembered name next remembered).2

/-- The numbers that are tried, and those that are passed over, are taken. -/
theorem exhausts_found (probes : pool.Probes name (pool.nextSuffix.getD name 1) tries found) :
    Exhausts issued name found where
  positive := Nat.le_trans (issues.exhausts_next name).positive probes.start_le
  taken number isPositive before := by
    by_cases passed : number < pool.nextSuffix.getD name 1
    · exact (issues.exhausts_next name).taken number isPositive passed
    · exact (issues.contains_iff _).mp (probes.taken (Nat.le_of_not_lt passed) before)

theorem answers (name : String) : pool.Answers issued name (pool.request name).1 := by
  cases taken : pool.contains name with
  | false =>
    rw [request_of_new taken]
    apply Answers.unchanged
    rw [← issues.contains_iff, taken]
    exact nofun
  | true =>
    obtain ⟨number, tries, few, probes, isRequest⟩ := exists_request_of_taken taken
    have exhausts := issues.exhausts_found probes
    rw [isRequest]
    apply Answers.numbered ((issues.contains_iff name).mp taken) exhausts.positive ?_ exhausts.taken
      probes few
    rw [← issues.contains_iff, probes.free]
    exact nofun

/-- After one more request, one more name has been handed out. -/
theorem request (name : String) :
    (pool.request name).2.Issues (issued ++ [(pool.request name).1]) := by
  have isNew : (pool.request name).1 ∉ issued := by
    rw [← issues.contains_iff, contains_request_fst]
    exact nofun
  constructor
  case contains_iff =>
    intro other
    rw [contains_request, issues.contains_iff, List.mem_append, List.mem_singleton, or_comm]
  case distinct =>
    refine List.nodup_append.mpr ⟨issues.distinct, List.nodup_singleton _, ?_⟩
    rintro other mem _ last rfl
    rw [List.mem_singleton.mp last] at mem
    exact isNew mem
  case size => rw [size_request, issues.size, List.length_append, List.length_singleton]
  case remembered =>
    intro other next isNext
    cases taken : pool.contains name with
    | false =>
      rw [request_of_new taken] at isNext ⊢
      obtain ⟨mem, exhausts⟩ := issues.remembered other next isNext
      exact ⟨List.mem_append_left _ mem, exhausts.append _⟩
    | true =>
      obtain ⟨number, tries, -, probes, isRequest⟩ := exists_request_of_taken taken
      rw [isRequest] at isNext ⊢
      obtain isNext | ⟨rfl, rfl⟩ := getElem?_of_insert isNext
      · obtain ⟨mem, exhausts⟩ := issues.remembered other next isNext
        exact ⟨List.mem_append_left _ mem, exhausts.append _⟩
      · have exhausts := issues.exhausts_found probes
        refine ⟨List.mem_append_left _ ((issues.contains_iff _).mp taken), Nat.le_add_left _ _, ?_⟩
        intro other isPositive notAfter
        obtain before | rfl := Nat.lt_or_eq_of_le (Nat.le_of_lt_succ notAfter)
        · exact List.mem_append_left _ (exhausts.taken other isPositive before)
        · simp

end Issues

/-- The names that a fresh pool hands out for these requests, in their order, and the pool
afterwards. -/
def requestAll (requests : List String) : List String × NamePool :=
  requests.foldl (fun (issued, pool) name ↦
    let (unique, next) := pool.request name
    (issued ++ [unique], next)) ([], empty)

theorem requestAll_append (requests : List String) (name : String) :
    requestAll (requests ++ [name]) =
      ((requestAll requests).1 ++ [((requestAll requests).2.request name).1],
        ((requestAll requests).2.request name).2) := by
  rw [requestAll, List.foldl_append]
  rfl

theorem issues_requestAll (requests : List String) :
    (requestAll requests).2.Issues (requestAll requests).1 := by
  induction requests using List.reverseRecOn with
  | nil => exact .fresh
  | append_singleton requests name ih =>
    rw [requestAll_append]
    exact ih.request name

theorem length_requestAll (requests : List String) :
    (requestAll requests).1.length = requests.length := by
  induction requests using List.reverseRecOn with
  | nil => rfl
  | append_singleton requests name ih => simp [requestAll_append, ih]

/-- What has been handed out before stays so. -/
theorem exists_requestAll_append (requests more : List String) :
    ∃ later, (requestAll (requests ++ more)).1 = (requestAll requests).1 ++ later := by
  induction more using List.reverseRecOn with
  | nil => exact ⟨[], by simp⟩
  | append_singleton more name ih =>
    obtain ⟨later, isIssued⟩ := ih
    rw [← List.append_assoc, requestAll_append, isIssued, List.append_assoc]
    exact ⟨_, rfl⟩

/-- **Names are unique.** The names that are handed out all differ, and each is the one asked for, or
that with the least number that is new. The search for it tries at most one number more than names
have been handed out. Afterwards the pool has these names and no others. Unless there are more
requests than words, all numbers fit a word. -/
theorem answers_requestAll {requests : List String} (few : requests.length < UInt32.size) :
    (requestAll requests).1.Nodup ∧
      (∀ before name after, requests = before ++ name :: after → ∃ unique later,
        (requestAll requests).1 = (requestAll before).1 ++ unique :: later ∧
          (requestAll before).2.size = before.length ∧
          (requestAll before).2.Answers (requestAll before).1 name unique) ∧
      (∀ name, (requestAll requests).2.contains name = true ↔ name ∈ (requestAll requests).1) ∧
      (requestAll requests).2.size = requests.length ∧
      ∀ (name : String) next, (requestAll requests).2.nextSuffix[name]? = some next →
        next < UInt32.size := by
  have issues := issues_requestAll requests
  refine ⟨issues.distinct, ?_, issues.contains_iff, ?_, ?_⟩
  · rintro before name after rfl
    have issuesBefore := issues_requestAll before
    obtain ⟨later, isIssued⟩ := exists_requestAll_append (before ++ [name]) after
    rw [List.append_assoc, List.singleton_append, requestAll_append, List.append_assoc] at isIssued
    refine ⟨_, later, isIssued, ?_, issuesBefore.answers name⟩
    rw [issuesBefore.size, length_requestAll]
  · rw [issues.size, length_requestAll]
  · intro name next isNext
    obtain ⟨mem, exhausts⟩ := issues.remembered name next isNext
    have atMost := exhausts.le_length mem
    rw [length_requestAll] at atMost
    exact Nat.lt_of_le_of_lt atMost few

/-- The third request finds its first number taken, and the next one for the same name finds the
third number. -/
theorem repeats_answers_requestAll :
    let requests := ["x", "x_1", "x", "y", "x", "x_2", "y", "x_1"]
    requests.length < UInt32.size ∧
      (requestAll requests).1 = ["x", "x_1", "x_2", "y", "x_3", "x_2_1", "y_1", "x_1_1"] ∧
      (requestAll requests).2.size = 8 ∧
      (requestAll ["x", "x_1"]).2.Answers ["x", "x_1"] "x" "x_2" := by
  intro requests
  have few : requests.length < UInt32.size := by decide
  have areIssued : (requestAll requests).1 =
      ["x", "x_1", "x_2", "y", "x_3", "x_2_1", "y_1", "x_1_1"] := by
    decide +kernel
  have areFirst : (requestAll ["x", "x_1"]).1 = ["x", "x_1"] := by decide +kernel
  obtain ⟨-, answered, -, size, -⟩ := answers_requestAll few
  obtain ⟨unique, later, whole, -, answers⟩ := answered ["x", "x_1"] "x" _ rfl
  rw [areIssued, areFirst] at whole
  rw [areFirst] at answers
  obtain ⟨rfl, -⟩ : "x_2" = unique ∧ ["y", "x_3", "x_2_1", "y_1", "x_1_1"] = later := by
    simpa using whole
  exact ⟨few, areIssued, size, answers⟩

end ManagedLayout.NamePool

import TodoPlugin.Store
import Mathlib.Data.List.Basic
/-!
# What the edits do to a list

The edit of each list operation in closed form: appending, taking one reference out (`without`), taking the head, moving
one to the front.  Taking out is the loop of `RemoveReference`, which splices the array it ranges over; on distinct ids
it is the filter.
-/
namespace Todo
namespace Store

/-- The issue ids of a list. -/
def ids (list : List IssueRef) : List String := list.map IssueRef.issueID

/-- The list without the references to an issue. -/
def without (issueID : String) (list : List IssueRef) : List IssueRef :=
  list.filter (fun ir => decide (ir.issueID ≠ issueID))

@[simp] theorem mem_without {id : String} {list : List IssueRef} {r : IssueRef} :
    r ∈ without id list ↔ r ∈ list ∧ r.issueID ≠ id := by
  simp [without]

@[simp] theorem without_nil (id : String) : without id [] = [] := rfl
@[simp] theorem without_append (id : String) (a b : List IssueRef) :
    without id (a ++ b) = without id a ++ without id b := List.filter_append ..

theorem without_eq_self {id : String} {list : List IssueRef} (h : id ∉ ids list) : without id list = list :=
  List.filter_eq_self.2 fun r hr => decide_eq_true fun he => h (List.mem_map.2 ⟨r, hr, he⟩)

theorem without_cons_self (r : IssueRef) (list : List IssueRef) :
    without r.issueID (r :: list) = without r.issueID list := by simp [without]

theorem ids_without (id : String) (list : List IssueRef) : ids (without id list) = (ids list).filter (· ≠ id) := by
  simp [ids, without, List.filter_map, Function.comp_def]

theorem nodup_without {id : String} {list : List IssueRef} (h : (ids list).Nodup) : (ids (without id list)).Nodup := by
  rw [ids_without]
  exact h.filter _

theorem not_mem_ids_without (id : String) (list : List IssueRef) : id ∉ ids (without id list) := by
  simp [ids_without]

/-- Two references of one list to one issue are one. -/
theorem eq_of_mem_of_issueID {list : List IssueRef} (h : (ids list).Nodup) {r s : IssueRef} (hr : r ∈ list)
    (hs : s ∈ list) (he : r.issueID = s.issueID) : r = s :=
  List.inj_on_of_nodup_map h hr hs he

/-- On distinct ids an issue is in one place of a list. -/
theorem not_mem_of_nodup {r : IssueRef} {pre post : List IssueRef} (h : (ids (pre ++ r :: post)).Nodup) :
    r.issueID ∉ ids pre ∧ r.issueID ∉ ids post := by
  have hsplit : (ids pre ++ r.issueID :: ids post).Nodup := by simpa [ids] using h
  obtain ⟨-, hpost, hpre⟩ := List.nodup_append.1 hsplit
  exact ⟨fun hm => hpre _ hm _ List.mem_cons_self rfl, (List.nodup_cons.1 hpost).1⟩

/-! ## Looking up -/

theorem findRef_eq (id : String) : ∀ (i : Nat) (list : List IssueRef),
    findRef id i list = (list.find? (fun r => decide (r.issueID = id))).map
      (fun r => (r, i + list.findIdx (fun r => decide (r.issueID = id))))
  | _, []      => rfl
  | i, r :: rs => by
    rw [findRef, findRef_eq id (i + 1) rs, List.find?_cons, List.findIdx_cons]
    by_cases h : r.issueID = id
    · simp [h]
    · simp only [h, if_false, decide_false, cond_false]
      congr 1
      funext s
      rw [Nat.add_assoc, Nat.add_comm 1]

theorem findRef_eq_none {id : String} {i : Nat} {list : List IssueRef} : findRef id i list = none ↔ id ∉ ids list := by
  rw [findRef_eq, Option.map_eq_none_iff, List.find?_eq_none]
  simp [ids]

theorem mem_of_findRef {id : String} {i n : Nat} {list : List IssueRef} {r : IssueRef}
    (h : findRef id i list = some (r, n)) : r ∈ list ∧ r.issueID = id := by
  rw [findRef_eq, Option.map_eq_some_iff] at h
  obtain ⟨s, hs, he⟩ := h
  obtain ⟨rfl, -⟩ := Prod.mk.injEq .. ▸ he
  exact ⟨List.mem_of_find?_eq_some hs, by simpa using List.find?_some hs⟩

/-- On distinct ids the reference found is the only one. -/
theorem findRef_of_mem {list : List IssueRef} (h : (ids list).Nodup) {r : IssueRef} (hr : r ∈ list) (i : Nat) :
    ∃ n, findRef r.issueID i list = some (r, n) := by
  cases hf : findRef r.issueID i list with
  | none => exact absurd (List.mem_map.2 ⟨r, hr, rfl⟩) (findRef_eq_none.1 hf)
  | some p =>
    obtain ⟨s, n⟩ := p
    obtain ⟨hs, he⟩ := mem_of_findRef hf
    exact ⟨n, by rw [eq_of_mem_of_issueID h hr hs he.symm]⟩

/-! ## Adding -/

theorem addEdit_eq (ref : IssueRef) (list : List IssueRef) :
    addEdit ref list = if ref.issueID ∈ ids list then .fail "issue id already exists in list"
      else .save () (list ++ [ref]) := by
  unfold addEdit
  have h : (list.any fun ir => ir.issueID == ref.issueID) = true ↔ ref.issueID ∈ ids list := by
    simp [ids]
  by_cases hm : ref.issueID ∈ ids list
  · rw [if_pos hm, if_pos (h.2 hm)]
  · rw [if_neg hm, if_neg (fun hc => hm (h.1 hc))]

/-! ## Splicing while ranging -/

/-- **The elements that are not the issue are passed over**, wherever in the array they are. -/
theorem spliceLoop_pass (id : String) (n : Nat) : ∀ (mid pre post : List IssueRef) (len : Nat) (found : Bool),
    id ∉ ids mid → spliceLoop id (mid.length + n) pre.length (pre ++ mid ++ post) len found =
      spliceLoop id n (pre.length + mid.length) (pre ++ mid ++ post) len found
  | [], pre, post, len, found, _       => by rw [List.length_nil, Nat.zero_add, Nat.add_zero]
  | s :: mid, pre, post, len, found, h => by
    have hne : s.issueID ≠ id := fun he => h (by simp [ids, he])
    have hrest : id ∉ ids mid := fun hm => h (List.mem_cons_of_mem _ hm)
    have hget : (pre ++ s :: mid ++ post)[pre.length]? = some s := by simp
    have hpass := spliceLoop_pass id n mid (pre ++ [s]) post len found hrest
    rw [List.length_cons, Nat.add_right_comm, spliceLoop, hget]
    simp only [if_neg hne]
    rw [show pre ++ s :: mid ++ post = pre ++ [s] ++ mid ++ post by simp,
      show pre.length + 1 = (pre ++ [s]).length by simp, hpass]
    congr 1
    simp only [List.length_append, List.length_singleton]
    omega

/-- **The splice** at the position of `r`: what follows it moves one place up, and the array's last element stays behind
it a second time. -/
theorem spliceLoop_splice (r : IssueRef) (pre post : List IssueRef) (n : Nat) (found : Bool) :
    spliceLoop r.issueID (n + 1) pre.length (pre ++ r :: post) (pre ++ r :: post).length found =
      spliceLoop r.issueID n (pre.length + 1) (pre ++ post ++ (r :: post).drop post.length) (pre ++ post).length true := by
  have hget : (pre ++ r :: post)[pre.length]? = some r := by simp
  have hrange : pre.length + 1 ≤ (pre ++ r :: post).length := by simp
  have hlen : (pre ++ r :: post).length - 1 = (pre ++ post).length := by simp
  have hafter : (pre ++ r :: post).drop (pre.length + 1) = post := by simp
  have hbehind : (pre ++ r :: post).drop (pre ++ post).length = (r :: post).drop post.length := by
    rw [List.length_append, List.drop_append]
    simp
  rw [spliceLoop, hget]
  simp only [if_true, if_pos hrange]
  rw [List.take_left, List.take_length, hlen, hafter, hbehind]

/-- **Splicing while ranging takes out exactly the one reference**: the loop goes on over the shifted array, where the
last element is read a second time, and meets the id no more. -/
theorem spliceLoop_found (r : IssueRef) (pre post : List IssueRef) (hpre : r.issueID ∉ ids pre)
    (hpost : r.issueID ∉ ids post) :
    spliceLoop r.issueID (pre ++ r :: post).length 0 (pre ++ r :: post) (pre ++ r :: post).length false =
      some (pre ++ post, true) := by
  have hbefore := spliceLoop_pass r.issueID (post.length + 1) pre [] (r :: post) (pre ++ r :: post).length false hpre
  simp only [List.nil_append, List.length_nil, Nat.zero_add] at hbefore
  rw [show (pre ++ r :: post).length = pre.length + (post.length + 1) by simp] at hbefore ⊢
  rw [hbefore, show pre.length + (post.length + 1) = (pre ++ r :: post).length by simp, spliceLoop_splice]
  cases post with
  | nil => simp [spliceLoop]
  | cons s post =>
    -- what the loop still reads is of `s :: post`: `post`, and the last element again
    have hrest : r.issueID ∉ ids (post ++ (s :: post).drop post.length) := by
      intro hm
      obtain ⟨q, hq, he⟩ := List.mem_map.1 hm
      rcases List.mem_append.1 hq with hq | hq
      · exact hpost (List.mem_map.2 ⟨q, List.mem_cons_of_mem _ hq, he⟩)
      · exact hpost (List.mem_map.2 ⟨q, List.mem_of_mem_drop hq, he⟩)
    have hbehind := spliceLoop_pass r.issueID 0 (post ++ (s :: post).drop post.length) (pre ++ [s]) []
      (pre ++ s :: post).length true hrest
    have harray : pre ++ s :: post ++ (r :: s :: post).drop (s :: post).length =
        pre ++ [s] ++ (post ++ (s :: post).drop post.length) ++ [] := by simp
    have hcount : (s :: post).length = (post ++ (s :: post).drop post.length).length + 0 := by simp
    rw [harray, hcount, show pre.length + 1 = (pre ++ [s]).length by simp, hbehind, spliceLoop, ← harray,
      List.take_left]

theorem spliceLoop_absent {id : String} {list : List IssueRef} (h : id ∉ ids list) :
    spliceLoop id list.length 0 list list.length false = some (list, false) := by
  have hpass := spliceLoop_pass id 0 list [] [] list.length false h
  simp only [List.nil_append, List.append_nil, List.length_nil, Nat.add_zero, Nat.zero_add] at hpass
  rw [hpass, spliceLoop, List.take_length]

/-- **No splice slices past the end.** -/
theorem spliceLoop_ne_none {list : List IssueRef} (hnd : (ids list).Nodup) (id : String) :
    spliceLoop id list.length 0 list list.length false ≠ none := by
  by_cases hm : id ∈ ids list
  · obtain ⟨r, hr, rfl⟩ := List.mem_map.1 hm
    obtain ⟨pre, post, rfl⟩ := List.append_of_mem hr
    obtain ⟨hpre, hpost⟩ := not_mem_of_nodup hnd
    rw [spliceLoop_found r pre post hpre hpost]
    exact Option.some_ne_none _
  · rw [spliceLoop_absent hm]
    exact Option.some_ne_none _

theorem removeEdit_found {r : IssueRef} {pre post : List IssueRef} (hnd : (ids (pre ++ r :: post)).Nodup) :
    removeEdit r.issueID (pre ++ r :: post) = .save () (pre ++ post) := by
  obtain ⟨hpre, hpost⟩ := not_mem_of_nodup hnd
  rw [removeEdit, spliceLoop_found r pre post hpre hpost]

theorem removeEdit_absent {id : String} {list : List IssueRef} (h : id ∉ ids list) :
    removeEdit id list = .fail "cannot find issue" := by
  rw [removeEdit, spliceLoop_absent h]

/-- **Removing from a list of distinct ids** takes the one reference out, or fails without saving. -/
theorem removeEdit_eq {list : List IssueRef} (hnd : (ids list).Nodup) (id : String) :
    removeEdit id list = if id ∈ ids list then .save () (without id list) else .fail "cannot find issue" := by
  by_cases hm : id ∈ ids list
  · obtain ⟨r, hr, rfl⟩ := List.mem_map.1 hm
    obtain ⟨pre, post, rfl⟩ := List.append_of_mem hr
    obtain ⟨hpre, hpost⟩ := not_mem_of_nodup hnd
    rw [if_pos hm, removeEdit_found hnd, without_append, without_cons_self, without_eq_self hpre, without_eq_self hpost]
  · rw [if_neg hm, removeEdit_absent hm]

/-! ## Bumping -/

/-- Where the loop of a bump stops on an id it finds. -/
theorem bumpLoop_found (r : IssueRef) (post : List IssueRef) : ∀ (pre : List IssueRef) (i : Nat)
    (last : Nat × Option IssueRef), r.issueID ∉ ids pre →
      bumpLoop r.issueID i (pre ++ r :: post) last = (i + pre.length, some r)
  | [], i, last, _       => by simp [bumpLoop]
  | s :: pre, i, last, h => by
    have hne : r.issueID ≠ s.issueID := fun he => h (by simp [ids, he])
    have hrest : r.issueID ∉ ids pre := fun hm => h (List.mem_cons_of_mem _ hm)
    rw [List.cons_append, bumpLoop, if_neg hne, bumpLoop_found r post pre (i + 1) _ hrest]
    simp only [List.length_cons, Prod.mk.injEq, and_true]
    omega

/-- An id that is not there leaves the loop of a bump at the last element. -/
theorem bumpLoop_absent (id : String) (r : IssueRef) : ∀ (pre : List IssueRef) (i : Nat)
    (last : Nat × Option IssueRef), id ∉ ids (pre ++ [r]) → bumpLoop id i (pre ++ [r]) last = (i + pre.length, some r)
  | [], i, last, h       => by simp [bumpLoop]
  | s :: pre, i, last, h => by
    have hne : id ≠ s.issueID := fun he => h (by simp [ids, he])
    have hrest : id ∉ ids (pre ++ [r]) := fun hm => h (List.mem_cons_of_mem _ hm)
    rw [List.cons_append, bumpLoop, if_neg hne, bumpLoop_absent id r pre (i + 1) _ hrest]
    simp only [List.length_cons, Prod.mk.injEq, and_true]
    omega

theorem bumpEdit_nil (id : String) : bumpEdit id [] = .fail "cannot find issue" := rfl

/-- **Bumping an issue of the list** moves its first reference to the front. -/
theorem bumpEdit_found (r : IssueRef) (pre post : List IssueRef) (h : r.issueID ∉ ids pre) :
    bumpEdit r.issueID (pre ++ r :: post) = .save () (r :: (pre ++ post)) := by
  unfold bumpEdit
  rw [bumpLoop_found r post pre 0 _ h, Nat.zero_add]
  simp only
  rw [if_neg (by simp)]
  simp [List.drop_append]

/-- **Bumping an issue that is not in the list** moves the last reference to the front. -/
theorem bumpEdit_absent (id : String) (pre : List IssueRef) (r : IssueRef) (h : id ∉ ids (pre ++ [r])) :
    bumpEdit id (pre ++ [r]) = .save () (r :: pre) := by
  unfold bumpEdit
  rw [bumpLoop_absent id r pre 0 _ h, Nat.zero_add]
  simp only
  rw [if_neg (by simp)]
  simp [List.drop_append]

/-- A bump fails on an empty list only, and otherwise saves a permutation. -/
theorem bumpEdit_perm (id : String) (list : List IssueRef) :
    list = [] ∧ bumpEdit id list = .fail "cannot find issue" ∨
      ∃ newList, bumpEdit id list = .save () newList ∧ newList.Perm list := by
  by_cases hm : id ∈ ids list
  · right
    have hsome : (list.find? (fun r => decide (r.issueID = id))).isSome := by
      rw [List.find?_isSome]
      obtain ⟨r, hr, he⟩ := List.mem_map.1 hm
      exact ⟨r, hr, by simpa using he⟩
    obtain ⟨r, hr⟩ := Option.isSome_iff_exists.1 hsome
    obtain ⟨he, pre, post, rfl, hpre⟩ := List.find?_eq_some_iff_append.1 hr
    obtain rfl : r.issueID = id := by simpa using he
    refine ⟨_, bumpEdit_found r pre post ?_, List.perm_middle.symm⟩
    intro hmem
    obtain ⟨s, hs, hse⟩ := List.mem_map.1 hmem
    simpa [hse] using hpre s hs
  · rcases List.eq_nil_or_concat list with rfl | ⟨pre, r, rfl⟩
    · exact .inl ⟨rfl, rfl⟩
    · rw [List.concat_eq_append] at hm ⊢
      exact .inr ⟨_, bumpEdit_absent id pre r hm, @List.perm_append_comm _ [r] pre⟩

end Store
end Todo

import TodoPlugin.Edits
import TodoPlugin.Quiet
/-!
# Removing a reference, against any server

`RemoveReference` splices the array it ranges over, and does not stop at the splice.  Whatever the server answers, what
it sets is the list it read without the one reference, and it sets nothing when there is none.
-/
namespace Todo
namespace Store

/-! ## One attempt of the loop -/

section attempt
variable {S α : Type} {serve : (c : Call) → S → Resp c × S} {u : String} {l : ListID} {s t : S} {list : List IssueRef}
  {orig : Option Value} {edit : List IssueRef → Edit α} {exhausted : String}

/-- What an attempt makes of the answer to its set. -/
def settled (a : α) (again : Api (Except String α)) : Except String Bool → Api (Except String α)
  | .error e  => return .error e
  | .ok true  => return .ok a
  | .ok false => again

/-- What an attempt makes of the list it read. -/
def attempt (u : String) (l : ListID) (edit : List IssueRef → Edit α) (again : Api (Except String α)) :
    Except String (List IssueRef × Option Value) → Api (Except String α)
  | .error e         => return .error e
  | .ok (list, orig) => match edit list with
    | .fail e         => return .error e
    | .panic          => .panic
    | .save a newList => saveList u l newList orig >>= settled a again

theorem editList_succ (edit : List IssueRef → Edit α) (exhausted : String) (n : Nat) :
    editList u l edit exhausted (n + 1) = getList u l >>= attempt u l edit (editList u l edit exhausted n) := rfl

/-- An edit that fails ends the attempt where its read has left the server. -/
theorem editList_fail (hread : (getList u l).run serve s = (some (.ok (list, orig)), t)) {err : String}
    (hedit : edit list = .fail err) (exhausted : String) (n : Nat) :
    (editList u l edit exhausted (n + 1)).run serve s = (some (.error err), t) ∧
      (editList u l edit exhausted (n + 1)).calls serve s = (getList u l).calls serve s := by
  rw [editList_succ, Proc.run_bind_of _ hread, Proc.calls_bind_of _ hread, attempt, hedit]
  exact ⟨rfl, List.append_nil _⟩

/-- An edit that goes through is set against what was read. -/
theorem editList_save (hread : (getList u l).run serve s = (some (.ok (list, orig)), t)) {a : α}
    {newList : List IssueRef} (hedit : edit list = .save a newList) (exhausted : String) (n : Nat) :
    (editList u l edit exhausted (n + 1)).run serve s =
        (saveList u l newList orig >>= settled a (editList u l edit exhausted n)).run serve t ∧
      (editList u l edit exhausted (n + 1)).calls serve s = (getList u l).calls serve s ++
        (saveList u l newList orig >>= settled a (editList u l edit exhausted n)).calls serve t := by
  rw [editList_succ, Proc.run_bind_of _ hread, Proc.calls_bind_of _ hread, attempt, hedit]
  exact ⟨rfl, rfl⟩

/-! ## The whole loop -/

theorem getList_ne_none (serve : (c : Call) → S → Resp c × S) (u : String) (l : ListID) (s : S) :
    ((getList u l).run serve s).1 ≠ none :=
  ((only_getList (P := fun _ => True) (X := False) trivial).run (I := fun _ => True)
    (fun _ _ _ _ => trivial) trivial).2

theorem calls_getList {x : Call × S} (hx : x ∈ (getList u l).calls serve s) : x.1 = .kvGet (listKey u l) :=
  (only_getList (P := fun c => c = .kvGet (listKey u l)) (X := False) rfl).calls serve hx

/-- **The loop panics only where an edit does**, of a list it read. -/
theorem editList_none : ∀ (n : Nat) (s : S), ((editList u l edit exhausted n).run serve s).1 = none →
    ∃ s₀ t list orig, (getList u l).run serve s₀ = (some (.ok (list, orig)), t) ∧ edit list = .panic
  | 0, s, h     => by cases h
  | n + 1, s, h => by
    rcases hread : (getList u l).run serve s with ⟨_ | err | ⟨list, orig⟩, t⟩
    · exact absurd (congrArg Prod.fst hread) (getList_ne_none serve u l s)
    · rw [editList_succ, Proc.run_bind_of _ hread] at h
      cases h
    · cases hedit : edit list with
      | fail err =>
        rw [(editList_fail hread hedit exhausted n).1] at h
        cases h
      | panic => exact ⟨s, t, list, orig, hread, hedit⟩
      | save a newList =>
        rw [(editList_save hread hedit exhausted n).1] at h
        -- the set is answered, and the loop ends or goes round again
        change ((settled a (editList u l edit exhausted n)
          (serve (.kvCompareAndSet (listKey u l) orig (.refs newList)) t).1).run serve _).1 = none at h
        rcases hset : (serve (.kvCompareAndSet (listKey u l) orig (.refs newList)) t).1 with err | _ | _
        · rw [hset] at h
          cases h
        · rw [hset] at h
          exact editList_none n _ h
        · rw [hset] at h
          cases h

/-- **Every call of the loop** reads the list, or sets what an edit made of the list just read. -/
theorem editList_calls : ∀ (n : Nat) (s : S), ∀ x ∈ (editList u l edit exhausted n).calls serve s,
    x.1 = .kvGet (listKey u l) ∨ ∃ s₀ list orig a newList,
      (getList u l).run serve s₀ = (some (.ok (list, orig)), x.2) ∧ edit list = .save a newList ∧
        x.1 = .kvCompareAndSet (listKey u l) orig (.refs newList)
  | 0, s, x, h     => by cases h
  | n + 1, s, x, h => by
    rcases hread : (getList u l).run serve s with ⟨_ | err | ⟨list, orig⟩, t⟩
    · exact absurd (congrArg Prod.fst hread) (getList_ne_none serve u l s)
    · rw [editList_succ, Proc.calls_bind_of _ hread] at h
      exact .inl (calls_getList (by simpa [attempt, Proc.calls] using h))
    · cases hedit : edit list with
      | fail err =>
        rw [(editList_fail hread hedit exhausted n).2] at h
        exact .inl (calls_getList h)
      | panic =>
        rw [editList_succ, Proc.calls_bind_of _ hread] at h
        exact .inl (calls_getList (by simpa [attempt, hedit, Proc.calls] using h))
      | save a newList =>
        rw [(editList_save hread hedit exhausted n).2] at h
        rcases List.mem_append.1 h with h | h
        · exact .inl (calls_getList h)
        · rcases List.mem_cons.1 h with rfl | h
          · exact .inr ⟨s, list, orig, a, newList, hread, hedit, rfl⟩
          · rcases hset : (serve (.kvCompareAndSet (listKey u l) orig (.refs newList)) t).1 with err | _ | _
            · rw [hset] at h
              cases h
            · rw [hset] at h
              exact editList_calls n _ x h
            · rw [hset] at h
              cases h

end attempt

/-! ## Removing a reference -/

/-- A list of distinct ids that the edit makes a new list of has the issue, and the new list is the rest of it. -/
theorem removeEdit_save {id : String} {list newList : List IssueRef} (hnd : (ids list).Nodup)
    (hedit : removeEdit id list = .save () newList) :
    ∃ pre r post, list = pre ++ r :: post ∧ r.issueID = id ∧ newList = pre ++ post := by
  by_cases hm : id ∈ ids list
  · obtain ⟨r, hr, rfl⟩ := List.mem_map.1 hm
    obtain ⟨pre, post, rfl⟩ := List.append_of_mem hr
    rw [removeEdit_found hnd] at hedit
    cases hedit
    exact ⟨pre, r, post, rfl, rfl, rfl⟩
  · rw [removeEdit_absent hm] at hedit
    cases hedit

theorem removeEdit_panic {id : String} {list : List IssueRef} (hedit : removeEdit id list = .panic) :
    ¬ (ids list).Nodup := by
  intro hnd
  rw [removeEdit_eq hnd] at hedit
  split at hedit <;> cases hedit

/-- **Splicing while ranging is exact**, on lists of distinct ids.  The loop over the list slices nothing out of range,
takes out the one reference to the issue and leaves the rest in order, or finds none.  So does every attempt of
`RemoveReference`, whatever the server answers: one that reads a list with the issue goes on to set the rest of it against
what was read, one that reads a list without it fails and has only read.  The whole call panics on no list of distinct
ids, and all it ever sets are the rests of lists it read. -/
theorem removeReference_exact (id : String) :
    (∀ list, (ids list).Nodup →
      spliceLoop id list.length 0 list list.length false ≠ none ∧
      (∀ pre r post, list = pre ++ r :: post → r.issueID = id → removeEdit id list = .save () (pre ++ post)) ∧
      (id ∉ ids list → removeEdit id list = .fail "cannot find issue")) ∧
    ∀ {S : Type} (serve : (c : Call) → S → Resp c × S) (u : String) (l : ListID) (s : S),
      (∀ list orig t n, (getList u l).run serve s = (some (.ok (list, orig)), t) → (ids list).Nodup →
        (∀ pre r post, list = pre ++ r :: post → r.issueID = id →
          (editList u l (removeEdit id) "unable to store list" (n + 1)).run serve s =
            (saveList u l (pre ++ post) orig >>=
              settled () (editList u l (removeEdit id) "unable to store list" n)).run serve t) ∧
        (id ∉ ids list →
          (editList u l (removeEdit id) "unable to store list" (n + 1)).run serve s =
            (some (.error "cannot find issue"), t) ∧
          ∀ x ∈ (editList u l (removeEdit id) "unable to store list" (n + 1)).calls serve s,
            x.1 = .kvGet (listKey u l))) ∧
      (((removeReference u id l).run serve s).1 = none → ∃ s₀ t list orig,
        (getList u l).run serve s₀ = (some (.ok (list, orig)), t) ∧ ¬ (ids list).Nodup) ∧
      ∀ x ∈ (removeReference u id l).calls serve s, x.1 = .kvGet (listKey u l) ∨ ∃ s₀ list orig newList,
        (getList u l).run serve s₀ = (some (.ok (list, orig)), x.2) ∧
        x.1 = .kvCompareAndSet (listKey u l) orig (.refs newList) ∧
        ((ids list).Nodup → ∃ pre r post, list = pre ++ r :: post ∧ r.issueID = id ∧ newList = pre ++ post) := by
  refine ⟨fun list hnd => ⟨spliceLoop_ne_none hnd id, ?_, removeEdit_absent⟩, fun serve u l s => ⟨?_, ?_, ?_⟩⟩
  · rintro pre r post rfl rfl
    exact removeEdit_found hnd
  · intro list orig t n hread hnd
    constructor
    · rintro pre r post rfl rfl
      exact (editList_save hread (removeEdit_found hnd) _ n).1
    · intro hm
      have hfail := editList_fail hread (removeEdit_absent hm) "unable to store list" n
      refine ⟨hfail.1, fun x hx => ?_⟩
      rw [hfail.2] at hx
      exact calls_getList hx
  · intro hnone
    obtain ⟨s₀, t, list, orig, hread, hedit⟩ := editList_none storeRetries s hnone
    exact ⟨s₀, t, list, orig, hread, removeEdit_panic hedit⟩
  · intro x hx
    rcases editList_calls storeRetries s x hx with hget | ⟨s₀, list, orig, a, newList, hread, hedit, hset⟩
    · exact .inl hget
    · exact .inr ⟨s₀, list, orig, newList, hread, hset, fun hnd => removeEdit_save hnd hedit⟩

section sample

/-- A list of three todos of one's own. -/
def threeRefs : List IssueRef := [legacyRef "a", legacyRef "x", legacyRef "b"]

/-- Taking out the middle one: the loop ends on the shifted array, and the other two are set. -/
theorem removeReference_exact_middle :
    spliceLoop "x" 3 0 threeRefs 3 false ≠ none ∧
    (removeReference "u" "x" .myList).run (serve Env.sample) (World.empty.put (listKey "u" .myList) (.refs threeRefs)) =
      (saveList "u" .myList [legacyRef "a", legacyRef "b"] (some (.refs threeRefs)) >>=
        settled () (editList "u" .myList (removeEdit "x") "unable to store list" 2)).run (serve Env.sample)
          (World.empty.put (listKey "u" .myList) (.refs threeRefs)) := by
  have hnd : (ids threeRefs).Nodup := by decide
  have hread : (getList "u" .myList).run (serve Env.sample) (World.empty.put (listKey "u" .myList) (.refs threeRefs)) =
      (some (.ok (threeRefs, some (.refs threeRefs))), World.empty.put (listKey "u" .myList) (.refs threeRefs)) := by
    simp [getList, Api.kvGet, Proc.request_bind, serve, unmarshalRefs]
  constructor
  · exact ((removeReference_exact "x").1 threeRefs hnd).1
  · exact ((((removeReference_exact "x").2 (serve Env.sample) "u" .myList _).1 threeRefs _ _ 2 hread hnd).1
      [legacyRef "a"] (legacyRef "x") [legacyRef "b"] rfl rfl)

end sample

end Store
end Todo

import TodoPlugin.Faults
import TodoPlugin.ListRuns
/-!
# An edit that fails

`EditIssue` reads and saves the counterpart's record before its own: a failure to read it is passed over, one to save it
logged, and the todo's own record is saved all the same.  So the edit may return nil with the counterpart as it was
(`EditEnds`), and one whose own record cannot be saved has the counterpart's saved.
-/
namespace Todo

open Store (ids)

/-- **What an edit ends with** of which the call `n` fails, `c` being the calls before the counterpart is read. -/
structure EditEnds (w : World) (c n : Nat) (u : UserID) (id m d : String) (err : Option String) (w' : World) : Prop where
  lists  : ∀ v l, w'.list (listKey v l) = w.list (listKey v l)
  done   : err = none → ∃ l, ∃ r ∈ w.board.refs u l, r.issueID = id ∧
    (∃ i, w.issue id = some i ∧ w'.issue id = some (i.retext m d)) ∧
    (∀ j, w.issue r.foreignIssueID = some j →
      w'.issue r.foreignIssueID = some (if n = c ∨ n = c + 1 then j else j.retext m d)) ∧
    ∀ k, k ≠ id → k ≠ r.foreignIssueID → w'.issue k = w.issue k
  failed : err ≠ none → ∀ k, (n = c + 2 → ∀ l, ∀ r ∈ w.board.refs u l, r.issueID = id → k ≠ r.foreignIssueID) →
    w'.issue k = w.issue k

/-- What is left as it was may come with any error. -/
theorem EditEnds.kept {w : World} {u : UserID} {c n : Nat} {id m d e : String} : EditEnds w c n u id m d (some e) w where
  lists _ _     := rfl
  done he       := absurd he (Option.some_ne_none e)
  failed _ _ _  := rfl

namespace ListManager

variable {E : Env} {err : String} {w : World} {u : UserID} (h : w.Sound) (hp : w.board.Paired)

section found
variable {l : ListID} {r : IssueRef} (hr : r ∈ w.board.refs u l)
include h hp hr

omit h in
/-- The counterpart of a todo has a record, and an id of its own. -/
theorem counterpart_found (hne : r.foreignIssueID ≠ "") :
    ∃ j, w.issue r.foreignIssueID = some j ∧ r.foreignIssueID ≠ r.issueID := by
  have hf : r.foreignUserID ≠ "" := fun he => hne (hp.own hr he).2
  obtain ⟨v, k, -, hlk, hk⟩ := hp.other hr hf
  obtain ⟨j, hj⟩ := hp.recorded v k _ hk
  exact ⟨j, hj, mirror_ne hp hr hlk hk⟩

/-- The todo's own record is saved, its counterpart's has been or not. -/
theorem editEnds_saved {c n : Nat} {m d : String} {i : Issue} (hi : w.issue r.issueID = some i) {w₁ : World} (hs : w₁.Sound)
    (hlist : w₁.list = w.list) (hissue : ∀ k, k ≠ r.foreignIssueID → w₁.issue k = w.issue k)
    (hforeign : ∀ j, w.issue r.foreignIssueID = some j →
      w₁.issue r.foreignIssueID = some (if n = c ∨ n = c + 1 then j else j.retext m d)) :
    EditEnds w c n u r.issueID m d none (w₁.save (i.retext m d)) where
  lists v k := by rw [hs.list_save, hlist]
  failed he := absurd rfl he
  done _ := by
    have hi' : i.id = r.issueID := h.issue_id hi
    have hid : (i.retext m d).id = r.issueID := hi'
    refine ⟨l, r, hr, rfl, ⟨i, hi, by rw [hs.issue_save, if_pos hid.symm]⟩, fun j hj => ?_, fun k hk hkf => ?_⟩
    · have hne : r.foreignIssueID ≠ "" := h.id_ne_empty hj
      obtain ⟨-, -, hother⟩ := counterpart_found hp hr hne
      rw [hs.issue_save, if_neg (fun he => hother (he.trans hid))]
      exact hforeign j hj
    · rw [hs.issue_save, if_neg (fun he => hk (he.trans hid))]
      exact hissue k hkf

/-- Both records are saved. -/
theorem editEnds_both {c n : Nat} {m d : String} {i j : Issue} (hi : w.issue r.issueID = some i)
    (hj : w.issue r.foreignIssueID = some j) (hn : ¬ (n = c ∨ n = c + 1)) :
    EditEnds w c n u r.issueID m d none ((w.save (j.retext m d)).save (i.retext m d)) := by
  have hj' : j.id = r.foreignIssueID := h.issue_id hj
  have hid : r.foreignIssueID = (j.retext m d).id := hj'.symm
  have hs : (w.save (j.retext m d)).Sound := h.save (hid ▸ h.id_ne_empty hj)
  refine editEnds_saved h hp hr hi hs (h.list_save _) (fun k hk => ?_) fun j' hj' => ?_
  · rw [h.issue_save, if_neg (fun he => hk (he.trans hid.symm))]
  · obtain rfl : j = j' := Option.some.inj (hj.symm.trans hj')
    rw [h.issue_save, if_pos hid, if_neg hn]

/-- The counterpart's record is not: it could not be read, or not be saved. -/
theorem editEnds_own {c n : Nat} {m d : String} {i : Issue} (hi : w.issue r.issueID = some i) (hn : n = c ∨ n = c + 1) :
    EditEnds w c n u r.issueID m d none (w.save (i.retext m d)) :=
  editEnds_saved h hp hr hi h rfl (fun _ _ => rfl) fun j hj => by rw [hj, if_pos hn]

/-- There is no counterpart. -/
theorem editEnds_alone {c n : Nat} {m d : String} {i : Issue} (hi : w.issue r.issueID = some i) (hf : r.foreignIssueID = "") :
    EditEnds w c n u r.issueID m d none (w.save (i.retext m d)) :=
  editEnds_saved h hp hr hi h rfl (fun _ _ => rfl) fun _ hj => absurd hf (h.id_ne_empty hj)

omit hp hr in
/-- The counterpart's record is saved, the todo's own is not. -/
theorem editEnds_foreign {m d e : String} {j : Issue} (hr : r ∈ w.board.refs u l) (hj : w.issue r.foreignIssueID = some j)
    {c : Nat} : EditEnds w c (c + 2) u r.issueID m d (some e) (w.save (j.retext m d)) where
  lists _ _ := by rw [h.list_save]
  done he := absurd he (Option.some_ne_none e)
  failed _ k hk := by
    have hj' : j.id = r.foreignIssueID := h.issue_id hj
    have hid : r.foreignIssueID = (j.retext m d).id := hj'.symm
    rw [h.issue_save, if_neg (fun he => hk rfl l r hr rfl (he.trans hid.symm))]

/-- An edit of a todo without a counterpart. -/
theorem editIssue_alone_ends {i : Issue} {k : Nat} (hi : w.issue r.issueID = some i)
    (hl : w.locate u r.issueID = (l, some r, k)) (hf : r.foreignIssueID = "") (m d : String) (n : Nat) :
    Ends E (.fails err) (editIssue u r.issueID m d) w ((Mishap.fails err).after n) fun res w' _ =>
      EditEnds w (lookups E (.fails err) w u r.issueID) n u r.issueID m d res.err w' := by
  obtain ⟨old, hrun⟩ := editIssue_run E h m d hi hl
  rw [editForeign, if_neg (not_not_intro hf)] at hrun
  unfold editIssue at hrun ⊢
  apply Ends.lookup h.toListed (World.one_list hp.toApart u r.issueID) hi rfl hrun
  · intro hn
    rw [hl]
    simp only [hf, ne_eq, not_true_eq_false, if_false]
    apply Ends.part (Store.atomic_saveIssue (i.retext m d)) (Store.saveIssue_run E (i.retext m d))
    · intro _
      exact .ret (editEnds_alone h hp hr hi hf)
    · intro _ e
      exact .ret .kept
  · exact fun _ => editEnds_alone h hp hr hi hf
  · exact fun _ _ => .ret .kept
  · exact fun _ => .ret .kept

/-- An edit of a todo with a counterpart: the calls after the search are the reading and the saving of its record, and the
saving of the todo's own. -/
theorem editIssue_shared_ends {i j : Issue} {k : Nat} (hi : w.issue r.issueID = some i)
    (hl : w.locate u r.issueID = (l, some r, k)) (hj : w.issue r.foreignIssueID = some j) (m d : String) (n : Nat) :
    Ends E (.fails err) (editIssue u r.issueID m d) w ((Mishap.fails err).after n) fun res w' _ =>
      EditEnds w (lookups E (.fails err) w u r.issueID) n u r.issueID m d res.err w' := by
  have hf : r.foreignIssueID ≠ "" := h.id_ne_empty hj
  have hread : kvCost E (.fails err) (Store.getIssue r.foreignIssueID) w = 1 := Store.cost_getIssue r.foreignIssueID
  have hsave : ∀ (i : Issue) w, kvCost E (.fails err) (Store.saveIssue i) w = 1 := fun _ _ => rfl
  obtain ⟨old, hrun⟩ := editIssue_run E h m d hi hl
  rw [editForeign, if_pos hf, hj] at hrun
  unfold editIssue at hrun ⊢
  apply Ends.lookup h.toListed (World.one_list hp.toApart u r.issueID) hi rfl hrun
  · intro hn
    rw [hl]
    simp only [ne_eq, hf, not_false_eq_true, if_true]
    apply Ends.part (Store.atomic_getIssue r.foreignIssueID) (Store.getIssue_found E hj)
    · intro hn₁
      apply Ends.part (Store.atomic_saveIssue (j.retext m d)) (Store.saveIssue_run E (j.retext m d))
      · intro hn₂
        apply Ends.part (Store.atomic_saveIssue (i.retext m d)) (Store.saveIssue_run E (i.retext m d))
        · intro hn₃
          rw [hread, hsave, hsave] at hn₃
          exact .ret (editEnds_both h hp hr hi hj (by omega))
        · intro hn₃ e
          rw [hread, hsave] at hn₂
          rw [hread, hsave, hsave] at hn₃
          obtain rfl : n = lookups E (.fails err) w u r.issueID + 2 := by omega
          exact .ret (editEnds_foreign h hr hj)
      · -- the failure to save the copy is logged
        intro hn₂ e
        rw [hread] at hn₁
        rw [hread, hsave] at hn₂
        refine .past_bind rfl (.past_bind (Store.saveIssue_run E (i.retext m d)) (.ret ?_))
        exact editEnds_own h hp hr hi (.inr (by omega))
    · -- the failure to read the copy is passed over
      intro hn₁ e
      rw [hread] at hn₁
      refine .past_bind rfl (.past_bind (Store.saveIssue_run E (i.retext m d)) (.ret ?_))
      exact editEnds_own h hp hr hi (.inl (by omega))
  · exact fun _ => editEnds_both h hp hr hi hj (by omega)
  · exact fun _ _ => .ret .kept
  · exact fun _ => .ret .kept

end found

include h hp in
/-- **An edit of which a call fails.** -/
theorem editIssue_ends (id m d : String) (n : Nat) :
    Ends E (.fails err) (editIssue u id m d) w ((Mishap.fails err).after n) fun res w' _ =>
      EditEnds w (lookups E (.fails err) w u id) n u id m d res.err w' := by
  cases hi : w.issue id with
  | none =>
    obtain ⟨e, hget⟩ := Store.getIssue_missing E hi
    exact .part (Store.atomic_getIssue id) hget (fun _ => .ret .kept) fun _ _ => .ret .kept
  | some i =>
    rcases w.locate_cases u id with ⟨l, r, k, hl, hr, rfl⟩ | ⟨hl, -⟩
    · by_cases hf : r.foreignIssueID = ""
      · exact editIssue_alone_ends h hp hr hi hl hf m d n
      · obtain ⟨j, hj, -⟩ := counterpart_found hp hr hf
        exact editIssue_shared_ends h hp hr hi hl hj m d n
    · obtain ⟨e, hrun⟩ := editIssue_absent E h m d hl
      unfold editIssue at hrun ⊢
      apply Ends.lookup h.toListed (World.one_list hp.toApart u id) hi rfl hrun
      · intro _
        rw [hl]
        exact .ret .kept
      · exact fun _ => .kept
      · exact fun _ _ => .ret .kept
      · exact fun _ => .ret .kept

end ListManager

section sample

/-- Ann edits the todo she sent Bob while his copy cannot be read: she is told that all went well, and he has the old text.
While hers cannot be saved: she is told of an error, and he has the new text. -/
theorem editIssue_forks : sentToBob.Sound ∧ sentToBob.board.Paired ∧
    5 < kvCost Env.sample (.fails "down") (ListManager.editIssue ann "x" "tea" "") sentToBob ∧
    (∃ res w' f, (ListManager.editIssue ann "x" "tea" "").run (serveWith Env.sample (.fails "down"))
        (sentToBob, (Mishap.fails "down").after 3) = (some res, (w', f)) ∧
      res.err = none ∧ w'.issue "x" = some ⟨"x", "tea", "", "", 0, ""⟩ ∧
      w'.issue "xx" = some ⟨"xx", "milk", "", "", 1, ""⟩) ∧
    ∃ res w' f, (ListManager.editIssue ann "x" "tea" "").run (serveWith Env.sample (.fails "down"))
        (sentToBob, (Mishap.fails "down").after 5) = (some res, (w', f)) ∧
      res.err ≠ none ∧ w'.issue "x" = some ⟨"x", "milk", "", "", 0, ""⟩ ∧
      w'.issue "xx" = some ⟨"xx", "tea", "", "", 1, ""⟩ :=
  ⟨sentToBob_settled.sound, sentToBob_settled.paired, by decide, ⟨_, _, _, rfl, by decide, by decide, by decide⟩,
    _, _, _, rfl, by decide, by decide, by decide⟩

theorem editIssue_ends_sentToBob :
    Ends Env.sample (.fails "down") (ListManager.editIssue ann "x" "tea" "") sentToBob ((Mishap.fails "down").after 3)
      fun res w' _ => EditEnds sentToBob (lookups Env.sample (.fails "down") sentToBob ann "x") 3 ann "x" "tea" "" res.err w' :=
  ListManager.editIssue_ends sentToBob_settled.sound sentToBob_settled.paired "x" "tea" "" 3

end sample
end Todo

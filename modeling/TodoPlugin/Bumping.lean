import TodoPlugin.ListRuns
/-!
# Bumping

A bump is meant to move one reference of the receiver's In list to the front, or to fail.  The loop of `BumpReference`
ends with the index of the last element when it finds nothing, and the test after it tells only the empty list from a
list that has the id: on any other list without the id the last reference is moved instead.
-/
namespace Todo

open Store (ids)

namespace ListManager

variable (E : Env) {w : World} {u : String} {r : IssueRef}

/-- The counterpart is in the receiver's In list: it is moved to the front. -/
theorem bumpIssue_found (h : w.Listed) (hr : r ∈ w.list (listKey u .outList)) {s : IssueRef} {pre post : List IssueRef}
    (hl : w.list (listKey r.foreignUserID .inList) = pre ++ s :: post) (hs : s.issueID = r.foreignIssueID) :
    (bumpIssue u r.issueID).run (serve E) w =
      (some (bumped w r), w.put (listKey r.foreignUserID .inList) (.refs (s :: (pre ++ post)))) := by
  obtain ⟨n, href⟩ := h.refOf_of_mem hr
  have hnd := h.distinct r.foreignUserID .inList
  rw [hl] at hnd
  rw [bumpIssue_eq E h href, hl, ← hs, Store.bumpEdit_found s pre post (Store.not_mem_of_nodup hnd).1]

/-- The receiver's In list is empty. -/
theorem bumpIssue_empty (h : w.Listed) (hr : r ∈ w.list (listKey u .outList))
    (hl : w.list (listKey r.foreignUserID .inList) = []) :
    (bumpIssue u r.issueID).run (serve E) w = (some ⟨none, "", "", some "cannot find issue"⟩, w) := by
  obtain ⟨n, href⟩ := h.refOf_of_mem hr
  rw [bumpIssue_eq E h href, hl, Store.bumpEdit_nil]

/-- The counterpart is not in the receiver's In list, which is not empty: the last reference is moved to the front. -/
theorem bumpIssue_missing (h : w.Listed) (hr : r ∈ w.list (listKey u .outList)) {s : IssueRef} {pre : List IssueRef}
    (hl : w.list (listKey r.foreignUserID .inList) = pre ++ [s])
    (hno : r.foreignIssueID ∉ ids (w.list (listKey r.foreignUserID .inList))) :
    (bumpIssue u r.issueID).run (serve E) w =
      (some (bumped w r), w.put (listKey r.foreignUserID .inList) (.refs (s :: pre))) := by
  obtain ⟨n, href⟩ := h.refOf_of_mem hr
  rw [hl] at hno
  rw [bumpIssue_eq E h href, hl, Store.bumpEdit_absent _ pre s hno]

theorem bumped_outErr (w : World) (r : IssueRef) : (bumped w r).outErr = none := by
  unfold bumped
  split <;> rfl

end ListManager

/-! ## What a bump is meant to do -/

/-- **The todo named is moved to the front of the receiver's In list, or the bump fails**, and nothing else changes. -/
structure Bumps (E : Env) (w : World) (u id : String) (res : BumpResult) (w' : World) : Prop where
  run     : (ListManager.bumpIssue u id).run (serve E) w = (some res, w')
  found   : ∀ r ∈ w.list (listKey u .outList), r.issueID = id → ∀ pre s post,
    w.list (listKey r.foreignUserID .inList) = pre ++ s :: post → s.issueID = r.foreignIssueID →
      res.outErr = none ∧ w'.list (listKey r.foreignUserID .inList) = s :: (pre ++ post)
  absent  : ∀ r ∈ w.list (listKey u .outList), r.issueID = id →
    r.foreignIssueID ∉ ids (w.list (listKey r.foreignUserID .inList)) → res.outErr ≠ none
  failed  : res.outErr ≠ none → w' = w
  others  : ∀ key, (∀ r ∈ w.list (listKey u .outList), r.issueID = id → key ≠ listKey r.foreignUserID .inList) →
    w'.list key = w.list key
  records : w'.issue = w.issue

variable {E : Env} {w : World} {u id : String}

/-- A todo the user has not sent. -/
theorem bumps_unsent (h : w.Listed) (hno : id ∉ ids (w.list (listKey u .outList))) :
    ∃ res, Bumps E w u id res w := by
  obtain ⟨e, href⟩ := World.refOf_of_not_mem hno
  have hnone : ∀ r ∈ w.list (listKey u .outList), r.issueID ≠ id := fun r hr he => hno (List.mem_map.2 ⟨r, hr, he⟩)
  refine ⟨_, ListManager.bumpIssue_absent E h href, ?_, fun _ _ _ _ => nofun, fun _ => rfl, fun _ _ => rfl, rfl⟩
  exact fun r hr he => absurd he (hnone r hr)

/-- A todo the user has sent, whose counterpart is where it is looked for, or has no list to be in. -/
theorem bumps_sent (h : w.Listed) {r : IssueRef} (hr : r ∈ w.list (listKey u .outList))
    (hin : r.foreignIssueID ∈ ids (w.list (listKey r.foreignUserID .inList)) ∨
      w.list (listKey r.foreignUserID .inList) = []) :
    ∃ res w', Bumps E w u r.issueID res w' := by
  have hone : ∀ s ∈ w.list (listKey u .outList), s.issueID = r.issueID → s = r := fun s hs he =>
    Store.eq_of_mem_of_issueID (h.distinct u .outList) hs hr he
  rcases hin with hin | hnil
  · obtain ⟨s, hs, hid⟩ := List.mem_map.1 hin
    obtain ⟨pre, post, hl⟩ := List.append_of_mem hs
    have hrun := ListManager.bumpIssue_found E h hr hl hid
    have hboard := w.board_put_list r.foreignUserID .inList (s :: (pre ++ post))
    refine ⟨_, _, hrun, ?_, ?_, fun herr => absurd (ListManager.bumped_outErr w r) herr, ?_, congrArg Board.issue hboard⟩
    · intro t ht he pre' s' post' hl' hid'
      obtain rfl := hone t ht he
      -- any other way to split the list gives the same run
      have hrun' := ListManager.bumpIssue_found E h ht hl' hid'
      refine ⟨ListManager.bumped_outErr w t, ?_⟩
      rw [(Prod.mk.inj (hrun.symm.trans hrun')).2]
      have hboard' := w.board_put_list t.foreignUserID .inList (s' :: (pre' ++ post'))
      simpa using congrFun (congrArg Board.list hboard') (listKey t.foreignUserID .inList)
    · intro t ht he habs
      obtain rfl := hone t ht he
      exact absurd hin habs
    · intro key hkey
      simpa [hkey r hr rfl] using congrFun (congrArg Board.list hboard) key
  · refine ⟨_, w, ListManager.bumpIssue_empty E h hr hnil, ?_, fun _ _ _ _ => nofun, fun _ => rfl, fun _ _ => rfl, rfl⟩
    intro t ht he pre s post hl
    rw [hone t ht he, hnil] at hl
    cases pre <;> cases hl

/-- **A bump does what it is meant to** exactly when the counterpart of the todo, if the user has sent it, is in the
receiver's In list, or that list is empty. -/
theorem bumpIssue_bumps (E : Env) {w : World} (h : w.Listed) (u id : String) :
    (∃ res w', Bumps E w u id res w') ↔ ∀ r ∈ w.list (listKey u .outList), r.issueID = id →
      r.foreignIssueID ∈ ids (w.list (listKey r.foreignUserID .inList)) ∨
        w.list (listKey r.foreignUserID .inList) = [] := by
  constructor
  · rintro ⟨res, w', hb⟩ r hr rfl
    by_contra hno
    obtain ⟨hno, hne⟩ := not_or.1 hno
    -- the last reference is moved, and no error reported
    obtain ⟨pre, s, hl⟩ := (List.eq_nil_or_concat' _).resolve_left hne
    have hrun := ListManager.bumpIssue_missing E h hr hl hno
    obtain ⟨hres, -⟩ := Prod.mk.inj (hb.run.symm.trans hrun)
    have herr := hb.absent r hr rfl hno
    rw [Option.some.inj hres] at herr
    exact herr (ListManager.bumped_outErr w r)
  · intro hin
    by_cases hm : id ∈ ids (w.list (listKey u .outList))
    · obtain ⟨r, hr, rfl⟩ := List.mem_map.1 hm
      exact bumps_sent h hr (hin r hr rfl)
    · obtain ⟨res, hb⟩ := bumps_unsent h hm
      exact ⟨res, w, hb⟩

section sample

theorem bumpIssue_bumps_sentToBob : (∃ res w', Bumps Env.sample sentToBob ann "x" res w') ↔
    ∀ r ∈ sentToBob.list (listKey ann .outList), r.issueID = "x" →
      r.foreignIssueID ∈ ids (sentToBob.list (listKey r.foreignUserID .inList)) ∨
        sentToBob.list (listKey r.foreignUserID .inList) = [] :=
  bumpIssue_bumps Env.sample sentToBob_settled.sound.toListed ann "x"

/-- Ann has sent Bob three todos, and he has accepted the first. -/
def firstAccepted : World :=
  (ListOp.acceptIssue bob "xx").after Env.sample
    ((ListOp.sendIssue ann bob "tea" "" "" "").after Env.sample
      ((ListOp.sendIssue ann bob "eggs" "" "" "").after Env.sample sentToBob))

/-- **Bumping an accepted todo** is no error, and moves Bob's last received todo to the front. -/
theorem bumpIssue_bumps_another :
    firstAccepted.list (listKey bob .inList) = [⟨"xxxx", "xxx", "ann"⟩, ⟨"xxxxxx", "xxxxx", "ann"⟩] ∧
    ((ListOp.bumpIssue ann "x").after Env.sample firstAccepted).list (listKey bob .inList) =
      [⟨"xxxxxx", "xxxxx", "ann"⟩, ⟨"xxxx", "xxx", "ann"⟩] ∧
    ¬ ∃ res w', Bumps Env.sample firstAccepted ann "x" res w' := by
  refine ⟨by decide, by decide, ?_⟩
  rintro ⟨res, w', hb⟩
  have hmem : (⟨"x", "xx", "bob"⟩ : IssueRef) ∈ firstAccepted.list (listKey ann .outList) := by decide
  have herr := hb.absent _ hmem rfl (by decide)
  have hres : ((ListManager.bumpIssue ann "x").run (serve Env.sample) firstAccepted).1 =
      some ⟨some ⟨"xx", "milk", "", "", 1, ""⟩, "bob", "xx", none⟩ := by decide
  rw [hb.run] at hres
  rw [Option.some.inj hres] at herr
  exact herr rfl

end sample
end Todo

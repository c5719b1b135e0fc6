import TodoPlugin.Rollback
import TodoPlugin.Handover
/-!
# A reassignment that fails

`ChangeAssignment` rolls nothing back.  A KV call of it that fails leaves everything as it was up to the first update of
a list (or, assigned to oneself, the first record made); a failure to delete the previous receiver's copy is not
reported; after that a failure is reported when part of the reassignment has been made (`SpoiltFrom`).
-/
namespace Todo

open Store (ids without)

/-- **What a failure at call `n` ends with**: before call `bound` what there was, if it is reported at all; from there on it
is reported, and something else is left. -/
def SpoiltFrom (w : World) (bound n : Nat) (err : Option String) (w' : World) (f : Proc.Fault) : Prop :=
  if n < bound then err ≠ none → w'.Reads w.board
  else (err = none → f ≠ Mishap.past) ∧ (err ≠ none → ¬ w'.Reads w.board)

namespace SpoiltFrom

variable {w w' : World} {b n : Nat} {err : Option String} {f : Proc.Fault}

theorem early (hn : n < b) (h : err ≠ none → w'.Reads w.board) : SpoiltFrom w b n err w' f := by
  rw [SpoiltFrom, if_pos hn]
  exact h

theorem late (hn : b ≤ n) (hok : err = none → f ≠ Mishap.past) (h : err ≠ none → ¬ w'.Reads w.board) :
    SpoiltFrom w b n err w' f := by
  rw [SpoiltFrom, if_neg (by omega)]
  exact ⟨hok, h⟩

/-- What comes after `c` calls that were let pass. -/
theorem shift {c : Nat} (hc : c ≤ n) (h : SpoiltFrom w b (n - c) err w' f) : SpoiltFrom w (c + b) n err w' f := by
  unfold SpoiltFrom at h ⊢
  split at h
  · rw [if_pos (by omega)]
    exact h
  · rw [if_neg (by omega)]
    exact h

/-- Where the failure has struck, what there was is left just when it struck early. -/
theorem iff (h : SpoiltFrom w b n err w' Mishap.past) : (err ≠ none → w'.Reads w.board) ↔ n < b := by
  unfold SpoiltFrom at h
  split at h
  · rename_i hn
    exact iff_of_true h hn
  · rename_i hn
    have herr : err ≠ none := fun he => h.1 he rfl
    exact iff_of_false (fun hr => h.2 herr (hr herr)) hn

end SpoiltFrom

/-- A mishap to come is not past. -/
theorem fails_ne_past (err : String) (n : Nat) : (Mishap.fails err).after n ≠ Mishap.past := by
  simp [Mishap.after, Mishap.past, Mishap.strikes]

theorem World.not_reads_of_issue {w w' : World} (id : String) (h : w'.issue id ≠ w.issue id) : ¬ w'.Reads w.board :=
  fun hr => h (hr.issue id)

theorem World.not_reads_of_list {w w' : World} {u : String} {l : ListID}
    (h : w'.list (listKey u l) ≠ w.list (listKey u l)) : ¬ w'.Reads w.board := fun hr => h (hr.list_eq u l)

namespace ListManager

variable {E : Env} {err : String} {w : World}

/-! ## The end of a reassignment -/

section assign
variable {id : String} {u t : UserID} {P : World → Prop} (h : w.Listed) (hnew : E.newId w.drawn ∉ ids (w.list (listKey t .inList)))
include h hnew

/-- **The end of `ChangeAssignment`**: a failure to save the copy leaves what there was, any other the copy. -/
theorem assign_ends (old : String) (i : Issue) (hout : id ∉ ids (w.list (listKey u .outList)))
    (hsave : P (w.draw.save (w.made E i.message i.postPermalink i.description i.postID)))
    (happend : ∀ {w'} r, P w' → P (w'.append u .outList r)) (n : Nat) :
    Ends E (.fails err) (assign id u t old i) w ((Mishap.fails err).after n) fun res w' f =>
      (res.err = none → f ≠ Mishap.past) ∧ (res.err ≠ none → if n = 0 then w' = w.draw else P w') := by
  let j := w.made E i.message i.postPermalink i.description i.postID
  have hl := h.draw.save j
  have hlist : ∀ a l, (w.draw.save j).list (listKey a l) = w.list (listKey a l) := fun a l => w.draw.list_save_listKey j a l
  have hout' : id ∉ ids ((w.draw.save j).list (listKey u .outList)) := by rw [hlist]; exact hout
  have hkey : listKey t .inList ≠ listKey u .outList := listKey_ne (by decide)
  apply Ends.newIssue
  apply Ends.part (Store.atomic_saveIssue j) (Store.saveIssue_run E j)
  · intro h₁
    have hn : n ≠ 0 := Nat.one_le_iff_ne_zero.1 h₁
    apply Ends.part (Store.atomic_addReference hl _ _ _ _ _) (Store.addReference_run E hl _ _ hout')
    · intro _
      have hl' : ((w.draw.save j).append u .outList ⟨id, j.id, t⟩).Listed := hl.append hout'
      have hin : j.id ∉ ids (((w.draw.save j).append u .outList ⟨id, j.id, t⟩).list (listKey t .inList)) := by
        rw [World.list_append, if_neg hkey, hlist]
        exact hnew
      apply Ends.part (Store.atomic_addReference hl' _ _ _ _ _) (Store.addReference_run E hl' _ _ hin)
      · intro _
        exact .ret ⟨fun _ => fails_ne_past err _, fun he => absurd rfl he⟩
      · intro _ e
        refine .ret ⟨fun he => absurd he (Option.some_ne_none _), fun _ => ?_⟩
        rw [if_neg hn]
        exact happend _ hsave
    · intro _ e
      refine .ret ⟨fun he => absurd he (Option.some_ne_none _), fun _ => ?_⟩
      rw [if_neg hn]
      exact hsave
  · intro h₁ e
    have hn : n = 0 := Nat.lt_one_iff.1 h₁
    refine .ret ⟨fun he => absurd he (Option.some_ne_none _), fun _ => ?_⟩
    rw [if_pos hn]

end assign

section reassign
variable {id : String} {u t : UserID} (h : w.Sound) (hnew : E.newId w.drawn ∉ ids (w.list (listKey t .inList)))
include h hnew

/-- A todo of one's own, reassigned to oneself. -/
theorem reassign_self_ends (htu : t = u) (hf : w.issue (E.newId w.drawn) = none) (r : IssueRef) (i : Issue)
    (hout : id ∉ ids (w.list (listKey u .outList))) (n : Nat) :
    Ends E (.fails err) (reassign id u t .myList r i) w ((Mishap.fails err).after n) fun res w' f =>
      SpoiltFrom w 1 n res.err w' f := by
  subst htu
  unfold reassign
  simp only [reduceCtorEq, and_false, if_false, ne_eq, not_true_eq_false]
  apply (assign_ends (P := fun w' => w'.issue (E.newId w.drawn) ≠ none) h.toListed hnew r.foreignUserID i hout ?_ ?_ n).mono
  · intro res w' f ⟨hok, hbad⟩
    by_cases hn : n = 0
    · refine .early (by omega) fun he => ?_
      have hdraw := hbad he
      rw [if_pos hn] at hdraw
      rw [hdraw]
      exact h.reads.draw
    · refine .late (by omega) hok fun he => ?_
      have hmade := hbad he
      rw [if_neg hn, ← hf] at hmade
      exact World.not_reads_of_issue (E.newId w.drawn) hmade
  · have hself : E.newId w.drawn = (w.made E i.message i.postPermalink i.description i.postID).id := rfl
    rw [h.draw.issue_save, if_pos hself]
    exact Option.some_ne_none _
  · intro w' s hw'
    rw [World.issue_append]
    exact hw'

/-- A todo of one's own, reassigned to another user. -/
theorem reassign_away_ends (htu : t ≠ u) (r : IssueRef) (i : Issue) (hmem : id ∈ ids (w.list (listKey u .myList)))
    (hout : id ∉ ids (w.list (listKey u .outList))) (n : Nat) :
    Ends E (.fails err) (reassign id u t .myList r i) w ((Mishap.fails err).after n) fun res w' f =>
      SpoiltFrom w (kvCost E (.fails err) (Store.removeReference u id .myList) w) n res.err w' f := by
  have hval : u.val ≠ t.val := fun he => htu (UserID.ext_val he).symm
  have hrem := Store.removeReference_run E h.toListed u id .myList
  rw [if_pos hmem] at hrem
  unfold reassign
  simp only [hval, false_and, if_false, ne_eq, not_false_eq_true, if_true]
  apply Ends.part (Store.atomic_removeReference h.toListed _ _ _) hrem
  · intro hn
    have hkey : listKey u .outList ≠ listKey u .myList := listKey_ne (by decide)
    have hgone : id ∉ ids ((w.unlist u id .myList).list (listKey u .myList)) := by
      rw [World.list_unlist, if_pos rfl]
      exact Store.not_mem_ids_without _ _
    have hnew' : E.newId (w.unlist u id .myList).drawn ∉ ids ((w.unlist u id .myList).list (listKey t .inList)) := by
      rw [World.unlist_drawn]
      exact fun hm => hnew (World.mem_ids_of_unlist hm)
    have hout' : id ∉ ids ((w.unlist u id .myList).list (listKey u .outList)) := fun hm =>
      hout (World.mem_ids_of_unlist hm)
    apply (assign_ends (P := fun w' => id ∉ ids (w'.list (listKey u .myList))) (h.toListed.unlist u id .myList) hnew'
      r.foreignUserID i hout' ?_ ?_ _).mono
    · intro res w' f ⟨hok, hbad⟩
      refine .late hn hok fun he => ?_
      have hgone' : id ∉ ids (w'.list (listKey u .myList)) := by
        have hw' := hbad he
        split at hw'
        · rw [hw']
          exact hgone
        · exact hw'
      exact World.not_reads_of_list (u := u) (l := .myList) fun hlist => hgone' (hlist ▸ hmem)
    · rw [World.list_save_listKey]
      exact hgone
    · intro w' s hw'
      rw [World.list_append, if_neg hkey.symm]
      exact hw'
  · intro hn e
    exact .ret (.early hn fun _ => h.reads)

/-- **A todo that is sent**, once its copy `y` has been deleted: no failure brings the copy back. -/
theorem reassign_sent_ends {y : String} (hy : w.issue y = none) (hne : y ≠ E.newId w.drawn) (r : IssueRef) (i : Issue)
    (hout : id ∈ ids (w.list (listKey u .outList))) (hmy : id ∉ ids (w.list (listKey u .myList))) (n : Nat) :
    Ends E (.fails err) (reassign id u t .outList r i) w ((Mishap.fails err).after n) fun res w' f =>
      (res.err = none → f ≠ Mishap.past) ∧ (res.err ≠ none → w'.issue y = none) := by
  have hrem := Store.removeReference_run E h.toListed u id .outList
  rw [if_pos hout] at hrem
  have hs : (w.unlist u id .outList).Sound := h.unlist u id .outList
  have hunlist : (w.unlist u id .outList).issue y = none := by
    rw [World.issue_unlist]
    exact hy
  unfold reassign
  by_cases htu : u.val = t.val
  · rw [if_pos ⟨htu, rfl⟩]
    have hmy' : id ∉ ids ((w.unlist u id .outList).list (listKey u .myList)) := fun hm => hmy (World.mem_ids_of_unlist hm)
    apply Ends.part (Store.atomic_removeReference h.toListed _ _ _) hrem
    · intro _
      apply Ends.part (Store.atomic_addReference hs.toListed _ _ _ _ _) (Store.addReference_run E hs.toListed _ _ hmy')
      · intro _
        exact .ret ⟨fun _ => fails_ne_past err _, fun he => absurd rfl he⟩
      · intro _ e
        exact .ret ⟨fun he => absurd he (Option.some_ne_none _), fun _ => hunlist⟩
    · intro _ e
      exact .ret ⟨fun he => absurd he (Option.some_ne_none _), fun _ => hy⟩
  · rw [if_neg (fun hc => htu hc.1), if_pos htu]
    apply Ends.part (Store.atomic_removeReference h.toListed _ _ _) hrem
    · intro _
      have hout' : id ∉ ids ((w.unlist u id .outList).list (listKey u .outList)) := by
        rw [World.list_unlist, if_pos rfl]
        exact Store.not_mem_ids_without id _
      have hnew' : E.newId (w.unlist u id .outList).drawn ∉ ids ((w.unlist u id .outList).list (listKey t .inList)) := by
        rw [World.unlist_drawn]
        exact fun hm => hnew (World.mem_ids_of_unlist hm)
      apply (assign_ends (P := fun w' => w'.issue y = none) hs.toListed hnew' r.foreignUserID i hout' ?_ ?_ _).mono
      · intro res w' f ⟨hok, hbad⟩
        refine ⟨hok, fun he => ?_⟩
        have hw' := hbad he
        split at hw'
        · rw [hw']
          exact hunlist
        · exact hw'
      · have hid : ((w.unlist u id .outList).made E i.message i.postPermalink i.description i.postID).id =
            E.newId w.drawn := congrArg E.newId (World.unlist_drawn ..)
        rw [hs.draw.issue_save, hid, if_neg hne]
        exact hunlist
      · intro w' s hw'
        rw [World.issue_append]
        exact hw'
    · intro _ e
      exact .ret ⟨fun he => absurd he (Option.some_ne_none _), fun _ => hy⟩

end reassign

/-- Where nothing fails, a reassignment of a todo that is sent succeeds, once the previous receiver's side is gone. -/
theorem reassign_succeeds {id : String} {u t : UserID} (h : w.Sound)
    (hnew : E.newId w.drawn ∉ ids (w.list (listKey t .inList))) (r : IssueRef) (i : Issue)
    (hout : id ∈ ids (w.list (listKey u .outList))) (hmy : id ∉ ids (w.list (listKey u .myList))) :
    ∃ w', (reassign id u t .outList r i).run (serve E) w = (some ⟨some i, r.foreignUserID, none⟩, w') := by
  by_cases htu : u = t
  · subst htu
    have hkey : listKey u .myList ≠ listKey u .outList := listKey_ne (by decide)
    exact ⟨_, reassign_back E h id u r i hout hmy hkey⟩
  · have hval : u.val ≠ t.val := fun he => htu (UserID.ext_val he)
    have hkey : listKey t .inList ≠ listKey u .outList := listKey_ne (by decide)
    rw [reassign_other E h id u t .outList r i hval hout]
    refine ⟨_, assign_run E (h.unlist u id .outList) id u t r.foreignUserID i ?_ ?_ hkey⟩
    · rw [World.list_unlist, if_pos rfl]
      exact Store.not_mem_ids_without id _
    · rw [World.unlist_drawn, World.list_unlist, if_neg hkey]
      exact hnew

/-! ## The whole of a reassignment -/

section whole
variable (err) {u t : UserID} (h : w.Sound) (hp : w.board.Paired) (hf : w.Fresh E)
include h hp hf

/-- Where nothing fails, a todo of one's own and one that was sent are reassigned. -/
theorem changeAssignment_succeeds {l : ListID} {r : IssueRef} (hr : r ∈ w.board.refs u l)
    (howns : l = .outList ∨ l = .myList ∧ r.foreignUserID = "") :
    ∃ res w', (changeAssignment r.issueID u t).run (serve E) w = (some res, w') ∧ res.err = none := by
  by_cases htu : t = u
  · subst htu
    rcases howns with rfl | ⟨rfl, hown⟩
    · obtain ⟨v, m, hv, hmo, hm⟩ := hp.out hr
      obtain ⟨x, y, q⟩ := r
      obtain rfl : q = v := hv
      obtain ⟨res, w', hrun, herr, -⟩ := placed_back (E := E) h hp hmo hr hm
      exact ⟨res, w', hrun, herr⟩
    · obtain ⟨res, w', hrun, herr, -⟩ := not_placed_self (E := E) h hp hf hr hown
      exact ⟨res, w', hrun, herr⟩
  · rcases howns with rfl | ⟨rfl, hown⟩
    · obtain ⟨v, m, hv, hmo, hm⟩ := hp.out hr
      obtain ⟨x, y, q⟩ := r
      obtain rfl : q = v := hv
      obtain ⟨res, w', hrun, herr, -⟩ := placed_other (E := E) h hp hf hmo hr hm htu
      exact ⟨res, w', hrun, herr⟩
    · obtain ⟨res, w', hrun, herr, -⟩ := placed_own (E := E) h hp hf htu hr hown
      exact ⟨res, w', hrun, herr⟩

/-- **A todo of one's own**: a failure up to the update of the My list leaves what there was; to oneself, up to the copy. -/
theorem changeAssignment_own_ends {r : IssueRef} (hr : r ∈ w.board.refs u .myList) (hown : r.foreignUserID = "") (n : Nat) :
    Ends E (.fails err) (changeAssignment r.issueID u t) w ((Mishap.fails err).after n) fun res w' f =>
      SpoiltFrom w (lookups E (.fails err) w u r.issueID +
        if u = t then 1 else kvCost E (.fails err) (Store.removeReference u r.issueID .myList) w) n res.err w' f := by
  obtain ⟨i, hi⟩ := hp.recorded u .myList r hr
  obtain ⟨k, hl⟩ := h.locate_of_apart hp.toApart hr
  obtain ⟨res, w₁, hrun, herr⟩ := changeAssignment_succeeds (t := t) h hp hf hr (.inr ⟨rfl, hown⟩)
  have hmem : r.issueID ∈ ids (w.list (listKey u .myList)) := List.mem_map.2 ⟨r, hr, rfl⟩
  have hout : r.issueID ∉ ids (w.list (listKey u .outList)) := fun hm =>
    absurd (World.one_list hp.toApart u _ _ _ hmem hm) (by decide)
  have hin : E.newId w.drawn ∉ ids (w.list (listKey t .inList)) := hp.recorded.absent (hf _ (Nat.le_refl _)) t .inList
  unfold changeAssignment at hrun ⊢
  apply Ends.lookup h.toListed (World.one_list hp.toApart u r.issueID) hi rfl hrun
  · intro hn
    rw [hl]
    have hfi := (hp.own hr hown).2
    simp only [hfi, hown, ne_eq, not_true_eq_false, false_and, or_false, if_false, reduceCtorEq]
    by_cases hut : u = t
    · rw [if_pos hut]
      exact (reassign_self_ends h hin hut.symm (hf _ (Nat.le_refl _)) r i hout _).mono fun _ _ _ hres => hres.shift hn
    · rw [if_neg hut]
      exact (reassign_away_ends h hin (Ne.symm hut) r i hmem hout _).mono fun _ _ _ hres => hres.shift hn
  · intro hn
    exact .early (by omega) fun he => absurd herr he
  · intro hn e
    exact .ret (.early (by omega) fun _ => h.reads)
  · intro hn
    exact .ret (.early (by omega) fun _ => h.reads)

/-- **A todo that was sent**: a failure up to the update of the receiver's list leaves what there was, and the two calls that
delete the copy may fail. -/
theorem changeAssignment_sent_ends {v : UserID} {l : ListID} {x y : String} (hlo : l ≠ .outList)
    (hx : ⟨x, y, v⟩ ∈ w.board.refs u .outList) (hy : ⟨y, x, u⟩ ∈ w.board.refs v l) (n : Nat) :
    Ends E (.fails err) (changeAssignment x u t) w ((Mishap.fails err).after n) fun res w' f =>
      SpoiltFrom w (lookups E (.fails err) w u x + kvCost E (.fails err) (Store.getIssueListAndReference v y) w +
        kvCost E (.fails err) (Store.removeReference v y l) w + 2) n res.err w' f := by
  obtain ⟨i, hi⟩ := hp.recorded u .outList _ hx
  obtain ⟨c, hc⟩ := hp.recorded v l _ hy
  obtain ⟨k, hl⟩ := h.locate_of_apart hp.toApart hx
  obtain ⟨k', hl'⟩ := h.locate_of_apart hp.toApart hy
  obtain ⟨res, w₁, hrun, herr⟩ := changeAssignment_succeeds (t := t) h hp hf hx (.inl rfl)
  unfold changeAssignment at hrun ⊢
  apply Ends.lookup h.toListed (World.one_list hp.toApart u x) hi rfl hrun
  · intro hn
    rw [hl]
    simp only [reduceCtorEq, and_false, or_self, if_false, ne_eq, v.val_ne_empty, not_false_eq_true, if_true]
    have hs₁ := h.unlist v y l
    have hrem := Store.removeReference_run E h.toListed v y l
    have hmem : y ∈ ids (w.list (listKey v l)) := List.mem_map.2 ⟨_, hy, rfl⟩
    rw [if_pos hmem] at hrem
    have htwo : kvCost E (.fails err) (Store.getAndRemoveIssue y) (w.unlist v y l) = 2 :=
      Store.cost_getAndRemoveIssue ((congrFun (World.issue_unlist w v y l) y).trans hc)
    have hlist := hs₁.list_dropIssue y
    have hout : x ∈ ids ((w.unlist v y l).list (listKey u .outList)) := by
      rw [← World.board_list, World.board_unlist]
      exact List.mem_map.2 ⟨_, Board.mem_refs_unlist.2 ⟨hx, fun he => hp.toApart.pair_ne hlo hx hy he.2.2⟩, rfl⟩
    have hmy : x ∉ ids ((w.unlist v y l).list (listKey u .myList)) := fun hm =>
      absurd (World.one_list hp.toApart u x _ _ (World.mem_ids_of_unlist hm) (List.mem_map.2 ⟨_, hx, rfl⟩)) (by decide)
    have hin : E.newId (w.unlist v y l).drawn ∉ ids ((w.unlist v y l).list (listKey t .inList)) := by
      rw [World.unlist_drawn]
      exact fun hm => hp.recorded.absent (hf _ (Nat.le_refl _)) t .inList (World.mem_ids_of_unlist hm)
    apply Ends.search h.toListed (World.one_list hp.toApart v y)
    · intro hn₁
      rw [hl']
      apply Ends.part (Store.atomic_removeReference h.toListed _ _ _) hrem
      · intro hn₂
        apply Ends.part (Store.atomic_getAndRemoveIssue y) (Store.getAndRemoveIssue_run E hs₁ y)
        · intro hn₃
          have hdel : ((w.unlist v y l).dropIssue y).issue y = none := by rw [hs₁.issue_dropIssue, if_pos rfl]
          have hne : y ≠ E.newId ((w.unlist v y l).dropIssue y).drawn := by
            rw [World.dropIssue_drawn, World.unlist_drawn]
            intro he
            have hnew := hf _ (Nat.le_refl _)
            rw [← he] at hnew
            exact Option.some_ne_none c (hc.symm.trans hnew)
          apply (reassign_sent_ends (hs₁.dropIssue y) (by rw [World.dropIssue_drawn, hlist]; exact hin) hdel hne ⟨x, y, v⟩ i
            (by rw [hlist]; exact hout) (by rw [hlist]; exact hmy) _).mono
          intro res w' f ⟨hok, hbad⟩
          refine .late (by omega) hok fun he => World.not_reads_of_issue y ?_
          rw [hbad he, show w.issue y = some c from hc]
          exact (Option.some_ne_none c).symm
        · intro hn₃ e
          obtain ⟨w', hre⟩ := reassign_succeeds hs₁ hin ⟨x, y, v⟩ i hout hmy
          exact .past hre (.early (by omega) fun he => absurd rfl he)
      · intro hn₂ e
        exact .ret (.early (by omega) fun _ => h.reads)
    · intro hn₁ found hfound
      rcases hfound with rfl | rfl
      · rw [hl']
        obtain ⟨w', hre⟩ := reassign_succeeds (hs₁.dropIssue y) (t := t) (by rw [World.dropIssue_drawn, hlist]; exact hin)
          ⟨x, y, v⟩ i (by rw [hlist]; exact hout) (by rw [hlist]; exact hmy)
        refine .past_bind hrem (.past_bind (Store.getAndRemoveIssue_run E hs₁ y) (.past hre ?_))
        exact .early (by omega) fun he => absurd rfl he
      · exact .ret (.early (by omega) fun _ => h.reads)
  · intro hn
    exact .early (by omega) fun he => absurd herr he
  · intro hn e
    exact .ret (.early (by omega) fun _ => h.reads)
  · intro hn
    exact .ret (.early (by omega) fun _ => h.reads)

omit hf in
/-- **Another's todo, and none**: whatever fails, nothing changes. -/
theorem changeAssignment_refused_ends {id : String}
    (hno : ∀ l, ∀ r ∈ w.board.refs u l, r.issueID = id → l ≠ .outList ∧ (l = .myList → r.foreignUserID ≠ "")) (n : Nat) :
    Ends E (.fails err) (changeAssignment id u t) w ((Mishap.fails err).after n) fun res w' _ =>
      res.err ≠ none → w'.Reads w.board := by
  have hkeep : ∀ e (f : Proc.Fault), Ends E (.fails err) (pure ⟨none, "", some e⟩ : Api ChangeResult) w f
      fun res w' _ => res.err ≠ none → w'.Reads w.board := fun e f => .ret fun _ => h.reads
  cases hi : w.issue id with
  | none =>
    obtain ⟨e, hget⟩ := Store.getIssue_missing E hi
    exact .part (Store.atomic_getIssue id) hget (fun _ => hkeep _ _) fun _ _ => hkeep _ _
  | some i =>
    have hone := World.one_list hp.toApart u id
    rcases w.locate_cases u id with ⟨l, r, k, hl, hr, rfl⟩ | ⟨hl, -⟩
    · obtain ⟨hlo, hmy⟩ := hno l r hr rfl
      have hown : r.foreignUserID ≠ "" := fun he => hmy (hp.own hr he).1 he
      have href : l = .inList ∨ (r.foreignIssueID ≠ "" ∧ l = .myList) := h.foreign hp hr hown hlo
      obtain ⟨e, hrun⟩ := changeAssignment_foreign E h t hi hl href
      unfold changeAssignment at hrun ⊢
      apply Ends.lookup h.toListed hone hi rfl hrun
      · intro _
        rw [hl]
        simp only [if_pos href]
        exact hkeep _ _
      · exact fun _ _ => h.reads
      · exact fun _ _ => hkeep _ _
      · exact fun _ => hkeep _ _
    · obtain ⟨e, hrun⟩ := changeAssignment_absent E h t hl
      unfold changeAssignment at hrun ⊢
      apply Ends.lookup h.toListed hone hi rfl hrun
      · intro _
        rw [hl]
        exact hkeep _ _
      · exact fun _ _ => h.reads
      · exact fun _ _ => hkeep _ _
      · exact fun _ => hkeep _ _

end whole
end ListManager

/-! ## Which failures change nothing -/

/-- **The failures that a reassignment recovers from**, by the call that fails: of a todo of one's own, one up to the update
of the My list, or up to the record of the copy when it is assigned to oneself; of a todo that was sent, one up to the update
of the receiver's list, or one of the two that delete the copy. -/
structure Harmless (E : Env) (err : String) (w : World) (u t : UserID) (id : String) (n : Nat) : Prop where
  own  : ∀ r ∈ w.board.refs u .myList, r.issueID = id → r.foreignUserID = "" →
    n < lookups E (.fails err) w u id + if u = t then 1 else kvCost E (.fails err) (Store.removeReference u id .myList) w
  sent : ∀ (v : UserID) (l : ListID) (y : String), l ≠ .outList → ⟨id, y, v⟩ ∈ w.board.refs u .outList →
    ⟨y, id, u⟩ ∈ w.board.refs v l → n < lookups E (.fails err) w u id +
      kvCost E (.fails err) (Store.getIssueListAndReference v y) w +
      kvCost E (.fails err) (Store.removeReference v y l) w + 2

section harmless
variable {E : Env} {err : String} {w : World} {u t : UserID} (hp : w.board.Paired)
include hp

theorem harmless_own_iff {r : IssueRef} (hr : r ∈ w.board.refs u .myList) (hown : r.foreignUserID = "") (n : Nat) :
    Harmless E err w u t r.issueID n ↔ n < lookups E (.fails err) w u r.issueID +
      if u = t then 1 else kvCost E (.fails err) (Store.removeReference u r.issueID .myList) w := by
  refine ⟨fun h => h.own r hr rfl hown, fun hn => ⟨fun _ _ _ _ => hn, fun v l y _ hx _ => ?_⟩⟩
  cases (hp.one hr hx rfl).2

theorem harmless_sent_iff {v : UserID} {l : ListID} {x y : String} (hlo : l ≠ .outList)
    (hx : ⟨x, y, v⟩ ∈ w.board.refs u .outList) (hy : ⟨y, x, u⟩ ∈ w.board.refs v l) (n : Nat) :
    Harmless E err w u t x n ↔ n < lookups E (.fails err) w u x +
      kvCost E (.fails err) (Store.getIssueListAndReference v y) w +
      kvCost E (.fails err) (Store.removeReference v y l) w + 2 := by
  refine ⟨fun h => h.sent v l y hlo hx hy, fun hn => ⟨fun r hr he _ => ?_, fun v' l' y' _ hx' hy' => ?_⟩⟩
  · cases (hp.one hr hx he).2
  · obtain ⟨-, -, heq⟩ := hp.toApart.eq hx hx' rfl
    injection heq with _ hyy hvv
    subst hyy
    obtain rfl := UserID.ext_val hvv
    obtain ⟨-, rfl⟩ := hp.one hy hy' rfl
    exact hn

omit hp in
theorem harmless_refused {id : String} (n : Nat)
    (hno : ∀ l, ∀ r ∈ w.board.refs u l, r.issueID = id → l ≠ .outList ∧ (l = .myList → r.foreignUserID ≠ "")) :
    Harmless E err w u t id n where
  own r hr he hown        := absurd hown ((hno .myList r hr he).2 rfl)
  sent _ _ _ _ hx _       := absurd rfl (hno .outList _ hx rfl).1

end harmless

/-- **A reassignment of which a call fails**: an error says that nothing has changed just when the failure is harmless. -/
theorem changeAssignment_keeps_iff (E : Env) (err : String) {w : World} (h : w.Sound) (hp : w.board.Paired) (hf : w.Fresh E)
    (u t : UserID) (id : String) {n : Nat} (hn : n < kvCost E (.fails err) (ListManager.changeAssignment id u t) w) :
    ∃ res w' f, (ListManager.changeAssignment id u t).run (serveWith E (.fails err)) (w, (Mishap.fails err).after n) =
        (some res, (w', f)) ∧
      ((res.err ≠ none → w'.Reads w.board) ↔ Harmless E err w u t id n) := by
  have hspent : ((ListManager.changeAssignment id u t).run (serveWith E (.fails err)) (w, (Mishap.fails err).after n)).2.2 =
      Mishap.past := Proc.spent_of_lt hn
  by_cases hown : ∃ r ∈ w.board.refs u .myList, r.issueID = id ∧ r.foreignUserID = ""
  · obtain ⟨r, hr, rfl, hown⟩ := hown
    obtain ⟨res, w', f, hrun, hres⟩ := ListManager.changeAssignment_own_ends (t := t) err h hp hf hr hown n
    rw [hrun] at hspent
    obtain rfl : f = Mishap.past := hspent
    exact ⟨res, w', _, hrun, hres.iff.trans (harmless_own_iff hp hr hown n).symm⟩
  by_cases hsent : ∃ r ∈ w.board.refs u .outList, r.issueID = id
  · obtain ⟨r, hr, rfl⟩ := hsent
    obtain ⟨v, l, hv, hlo, hm⟩ := hp.out hr
    obtain ⟨x, y, q⟩ := r
    obtain rfl : q = v := hv
    obtain ⟨res, w', f, hrun, hres⟩ := ListManager.changeAssignment_sent_ends (t := t) err h hp hf hlo hr hm n
    rw [hrun] at hspent
    obtain rfl : f = Mishap.past := hspent
    exact ⟨res, w', _, hrun, hres.iff.trans (harmless_sent_iff hp hlo hr hm n).symm⟩
  · have hno : ∀ l, ∀ r ∈ w.board.refs u l, r.issueID = id → l ≠ .outList ∧ (l = .myList → r.foreignUserID ≠ "") := by
      refine fun l r hr he => ⟨fun hl => hsent ⟨r, hl ▸ hr, he⟩, fun hl hu => hown ⟨r, hl ▸ hr, he, hu⟩⟩
    obtain ⟨res, w', f, hrun, hres⟩ := ListManager.changeAssignment_refused_ends (E := E) (t := t) err h hp hno n
    exact ⟨res, w', f, hrun, iff_of_true hres (harmless_refused n hno)⟩

section sample

/-- Ann takes back the todo she sent Bob while her My list cannot be read: it has left both their lists. -/
theorem changeAssignment_loses : sentToBob.Sound ∧ sentToBob.board.Paired ∧ sentToBob.Fresh Env.sample ∧
    12 < kvCost Env.sample (.fails "down") (ListManager.changeAssignment "x" ann ann) sentToBob ∧
    ∃ res w' f, (ListManager.changeAssignment "x" ann ann).run (serveWith Env.sample (.fails "down"))
        (sentToBob, (Mishap.fails "down").after 12) = (some res, (w', f)) ∧
      res.err = some "down" ∧ "x" ∉ ids (w'.list (listKey ann .outList)) ∧ "x" ∉ ids (w'.list (listKey ann .myList)) ∧
      ¬ w'.Reads sentToBob.board := by
  refine ⟨sentToBob_settled.sound, sentToBob_settled.paired, sentToBob_settled.fresh, by decide, _, _, _, rfl, by decide,
    by decide, by decide, fun hr => ?_⟩
  exact absurd (hr.list_eq ann .outList) (by decide)

theorem changeAssignment_keeps_iff_takeBack :
    ∃ res w' f, (ListManager.changeAssignment "x" ann ann).run (serveWith Env.sample (.fails "down"))
        (sentToBob, (Mishap.fails "down").after 12) = (some res, (w', f)) ∧
      ((res.err ≠ none → w'.Reads sentToBob.board) ↔ Harmless Env.sample "down" sentToBob ann ann "x" 12) :=
  changeAssignment_keeps_iff Env.sample "down" sentToBob_settled.sound sentToBob_settled.paired sentToBob_settled.fresh
    ann ann "x" (by decide)

end sample
end Todo

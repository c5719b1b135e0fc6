import TodoPlugin.Isolation
/-!
# Taking a todo out

Completing, removing and popping each take a todo and its counterpart out of the lists and delete both records, by three
routines written apart.  Removing looks the counterpart up; completing and popping take it to be in an Out list.  That is
so for a todo of the My or In list, and the three then leave one and the same store; it is not for a todo of the Out list.
-/
namespace Todo

open Store (ids)

/-- The issues that go with a reference: the todo and its counterpart, if it has one. -/
def IssueRef.sides (r : IssueRef) : List String :=
  if r.foreignUserID = "" then [r.issueID] else [r.issueID, r.foreignIssueID]

namespace World

/-- **The store without the issues `S`**: they are in no list and have no record, and all else is as it was. -/
structure Rid (S : List String) (w w' : World) : Prop where
  frame  : Frame S w.board w'.board
  gone   : ∀ id ∈ S, w'.board.Absent id ∧ w'.issue id = none
  beside : ∀ key, (∀ u l, key ≠ listKey u l) → (∀ id, key ≠ issueKey id) → w'.kv key = w.kv key

theorem kv_dropIssue_of_ne (w : World) {id key : String} (h : key ≠ issueKey id) : (w.dropIssue id).kv key = w.kv key := by
  unfold dropIssue
  split
  · exact delete_kv_of_ne _ h
  · rfl

variable {w : World} {u v : UserID} {l m : ListID} {r : IssueRef}

/-- A todo of one's own. -/
theorem Sound.rid_own (h : w.Sound) (ha : w.board.Apart) (hr : r ∈ w.board.refs u l) :
    Rid [r.issueID] w ((w.unlist u r.issueID l).dropIssue r.issueID) := by
  have h₁ := h.unlist u r.issueID l
  have hU := kept_upheld [r.issueID] w
  have hid : r.issueID ∈ [r.issueID] := List.mem_singleton_self _
  refine ⟨(hU.dropIssue (hU.unlist ⟨h, .refl _ _⟩ hid u l) hid).frame, fun id hS => ?_, fun key hkey hkey' => ?_⟩
  · obtain rfl := List.mem_singleton.1 hS
    rw [h₁.board_dropIssue, board_unlist, h₁.issue_dropIssue, if_pos rfl]
    exact ⟨ha.absent_unlist hr, rfl⟩
  · rw [kv_dropIssue_of_ne _ (hkey' _), kv_unlist_of_ne _ (hkey _ _)]

/-- A todo and its counterpart. -/
theorem Sound.rid_pair (h : w.Sound) (ha : w.board.Apart) (hr : r ∈ w.board.refs u l)
    (hm : r.mirror u ∈ w.board.refs v m) (hne : r.foreignIssueID ≠ r.issueID) :
    Rid [r.issueID, r.foreignIssueID] w
      ((((w.unlist u r.issueID l).dropIssue r.issueID).unlist v r.foreignIssueID m).dropIssue r.foreignIssueID) := by
  have h₁ := h.unlist u r.issueID l
  have h₂ := (h₁.dropIssue r.issueID).unlist v r.foreignIssueID m
  have hU := kept_upheld [r.issueID, r.foreignIssueID] w
  have hx : r.issueID ∈ [r.issueID, r.foreignIssueID] := by simp
  have hy : r.foreignIssueID ∈ [r.issueID, r.foreignIssueID] := by simp
  have hk := hU.dropIssue (hU.unlist ⟨h, .refl _ _⟩ hx u l) hx
  have hboard : ((((w.unlist u r.issueID l).dropIssue r.issueID).unlist v r.foreignIssueID m).dropIssue
      r.foreignIssueID).board = (((w.board.unlist (listKey u l) r.issueID).unlist (listKey v m)
        r.foreignIssueID).setIssue r.issueID none).setIssue r.foreignIssueID none := by
    rw [h₂.board_dropIssue, board_unlist, h₁.board_dropIssue, board_unlist]
    rfl
  refine ⟨(hU.dropIssue (hU.unlist hk hy v m) hy).frame, fun id hS => ?_, fun key hkey hkey' => ?_⟩
  · have hissue := congrArg Board.issue hboard
    rw [board_issue] at hissue
    rw [hboard, hissue]
    rcases List.mem_cons.1 hS with rfl | hS
    · refine ⟨(ha.absent_unlist hr).unlist v m r.foreignIssueID, ?_⟩
      simp
    · obtain rfl := List.mem_singleton.1 hS
      have hm' : r.mirror u ∈ (w.board.unlist (listKey u l) r.issueID).refs v m :=
        Board.mem_refs_unlist.2 ⟨hm, fun hc => hne hc.2.2⟩
      exact ⟨(ha.unlist u l r.issueID).absent_unlist hm', by simp⟩
  · rw [kv_dropIssue_of_ne _ (hkey' _), kv_unlist_of_ne _ (hkey _ _), kv_dropIssue_of_ne _ (hkey' _),
      kv_unlist_of_ne _ (hkey _ _)]

end World

/-! ## Removing -/

namespace ListManager

variable (E : Env) {w : World} {u : UserID} {l : ListID} {r : IssueRef}

/-- **Removing** a todo takes it and its counterpart out. -/
theorem removeIssue_rid (h : w.Sound) (hp : w.board.Paired) (hr : r ∈ w.board.refs u l) :
    ∃ res w', (removeIssue u r.issueID).run (serve E) w = (some res, w') ∧ w.Rid r.sides w' := by
  obtain ⟨n, hl⟩ := h.locate_of_apart hp.toApart hr
  by_cases hf : r.foreignUserID = ""
  · refine ⟨_, _, removeIssue_own E h hl hf, ?_⟩
    rw [IssueRef.sides, if_pos hf]
    exact h.rid_own hp.toApart hr
  · obtain ⟨v, m, hv, hlm, hm⟩ := hp.other hr hf
    obtain ⟨k, hk⟩ := locate_dropped h hp hr hlm hm
    refine ⟨_, _, removeIssue_shared E h hl hf (hv ▸ hk), ?_⟩
    rw [IssueRef.sides, if_neg hf, hv]
    exact h.rid_pair hp.toApart hr hm (mirror_ne hp hr hlm hm)

/-! ## Completing -/

/-- **Completing** a todo of the My or In list leaves what removing it does. -/
theorem completeIssue_removes (h : w.Sound) (hp : w.board.Paired) (hr : r ∈ w.board.refs u l) (hlo : l ≠ .outList) :
    ∃ res res' w', (completeIssue u r.issueID).run (serve E) w = (some res, w') ∧
      (removeIssue u r.issueID).run (serve E) w = (some res', w') := by
  obtain ⟨n, hl⟩ := h.locate_of_apart hp.toApart hr
  by_cases hf : r.foreignUserID = ""
  · exact ⟨_, _, _, completeIssue_own E h hl hf, removeIssue_own E h hl hf⟩
  · obtain ⟨v, m, hv, hlm, hm⟩ := hp.other hr hf
    obtain rfl : m = .outList := Classical.byContradiction fun hmo => hlo (hlm.2 hmo)
    obtain ⟨k, hk⟩ := locate_dropped h hp hr hlm hm
    exact ⟨_, _, _, completeIssue_shared E h hl hf, removeIssue_shared E h hl hf (hv ▸ hk)⟩

/-- **Completing** a todo of the Out list leaves the counterpart in its list. -/
theorem completeIssue_leaves_counterpart (h : w.Sound) (hp : w.board.Paired) (hr : r ∈ w.board.refs u .outList) :
    ∃ res w', (completeIssue u r.issueID).run (serve E) w = (some res, w') ∧ ¬ w'.board.Absent r.foreignIssueID := by
  obtain ⟨n, hl⟩ := h.locate_of_apart hp.toApart hr
  obtain ⟨v, m, hv, hmo, hm⟩ := hp.out hr
  have hf : r.foreignUserID ≠ "" := hv ▸ v.val_ne_empty
  have hne : r.foreignIssueID ≠ r.issueID := fun he => hmo (hp.one hm hr he).2
  have h₁ := h.unlist u r.issueID .outList
  have h₂ := (h₁.dropIssue r.issueID).unlist v r.foreignIssueID .outList
  have hrun := completeIssue_shared E h hl hf
  rw [hv] at hrun
  refine ⟨_, _, hrun, fun ha => ?_⟩
  -- it is looked for in the Out list of its user, and is in another
  refine ha.ne (u := v) (l := m) (r := r.mirror u) ?_ rfl
  rw [h₂.board_dropIssue, World.board_unlist, Board.refs_setIssue, Board.mem_refs_unlist]
  exact ⟨mem_refs_dropped h hm hne, fun hc => hmo hc.2.1⟩

/-! ## Popping -/

/-- **Popping is removing the head.** -/
theorem popIssue_removes (h : w.Sound) (hp : w.board.Paired) {rest : List IssueRef}
    (hl : w.board.refs u .myList = r :: rest) :
    ∃ res res' w', (popIssue u).run (serve E) w = (some res, w') ∧
      (removeIssue u r.issueID).run (serve E) w = (some res', w') ∧ res.err = none ∧ res'.err = none ∧
        res.issue = res'.outIssue ∧ res.foreignID = res'.foreignID := by
  have hr : r ∈ w.board.refs u .myList := by
    rw [hl]
    exact List.mem_cons_self
  obtain ⟨n, hloc⟩ := h.locate_of_apart hp.toApart hr
  by_cases hf : r.foreignUserID = ""
  · exact ⟨_, _, _, popIssue_own E h hl hf, removeIssue_own E h hloc hf, rfl, rfl, rfl, rfl⟩
  · obtain ⟨v, m, hv, hlm, hm⟩ := hp.other hr hf
    obtain rfl : m = .outList := Classical.byContradiction fun hmo => by cases hlm.2 hmo
    obtain ⟨k, hk⟩ := locate_dropped h hp hr hlm hm
    exact ⟨_, _, _, popIssue_shared E h hl hf, removeIssue_shared E h hloc hf (hv ▸ hk), rfl, rfl, rfl, rfl⟩

end ListManager

/-! ## The three agree -/

/-- **Completing and removing leave the same store**, without the todo and its counterpart, exactly when the todo is
not in the caller's Out list. -/
theorem completeIssue_removeIssue (E : Env) {w : World} (h : w.Sound) (hp : w.board.Paired) (u : UserID) {l : ListID}
    {r : IssueRef} (hr : r ∈ w.board.refs u l) :
    (∃ res res' w', (ListManager.completeIssue u r.issueID).run (serve E) w = (some res, w') ∧
      (ListManager.removeIssue u r.issueID).run (serve E) w = (some res', w') ∧ w.Rid r.sides w') ↔
        r.issueID ∉ ids (w.board.refs u .outList) := by
  constructor
  · rintro ⟨res, res', w', hrun, -, hrid⟩ hout
    obtain ⟨s, hs, he⟩ := List.mem_map.1 hout
    obtain ⟨-, rfl, rfl⟩ := hp.toApart.eq hr hs he.symm
    obtain ⟨res'', w'', hrun', hleft⟩ := ListManager.completeIssue_leaves_counterpart E h hp hr
    cases hrun.symm.trans hrun'
    obtain ⟨v, -, hv, -⟩ := hp.out hr
    apply hleft
    refine (hrid.gone r.foreignIssueID ?_).1
    rw [IssueRef.sides, if_neg (hv ▸ v.val_ne_empty)]
    simp
  · intro hout
    have hlo : l ≠ .outList := fun he => hout (List.mem_map.2 ⟨r, he ▸ hr, rfl⟩)
    obtain ⟨res, res', w', hrun, hrun'⟩ := ListManager.completeIssue_removes E h hp hr hlo
    obtain ⟨res'', w'', hrun'', hrid⟩ := ListManager.removeIssue_rid E h hp hr
    cases hrun'.symm.trans hrun''
    exact ⟨_, _, _, hrun, hrun', hrid⟩

/-- **Pop is removal of the head**: the same issue and the same other user are returned, and the same store is left; an
empty list is an error, and the store stays as it is. -/
theorem popIssue_removeIssue (E : Env) {w : World} (h : w.Sound) (hp : w.board.Paired) (u : UserID) :
    (∀ r rest, w.board.refs u .myList = r :: rest → ∃ res res' w',
      (ListManager.popIssue u).run (serve E) w = (some res, w') ∧
        (ListManager.removeIssue u r.issueID).run (serve E) w = (some res', w') ∧ res.err = none ∧ res'.err = none ∧
          res.issue = res'.outIssue ∧ res.foreignID = res'.foreignID) ∧
    (w.board.refs u .myList = [] → ∃ res, (ListManager.popIssue u).run (serve E) w = (some res, w) ∧ res.err ≠ none) :=
  ⟨fun _ _ hl => ListManager.popIssue_removes E h hp hl, fun hl => ⟨_, ListManager.popIssue_empty E h hl, nofun⟩⟩

section sample

/-- Bob's received todo may be completed as well as removed. -/
theorem completeIssue_removeIssue_received :
    (∃ res res' w', (ListManager.completeIssue bob "xx").run (serve Env.sample) sentToBob = (some res, w') ∧
      (ListManager.removeIssue bob "xx").run (serve Env.sample) sentToBob = (some res', w') ∧
        sentToBob.Rid ["xx", "x"] w') ↔ "xx" ∉ ids (sentToBob.board.refs bob .outList) :=
  completeIssue_removeIssue Env.sample sentToBob_settled.sound sentToBob_settled.paired bob (l := .inList)
    (r := ⟨"xx", "x", "ann"⟩) (by decide)

/-- **Completing a todo one has sent** leaves another store than removing it. -/
theorem completeIssue_removeIssue_differ :
    ¬ ∃ res res' w', (ListManager.completeIssue ann "x").run (serve Env.sample) sentToBob = (some res, w') ∧
      (ListManager.removeIssue ann "x").run (serve Env.sample) sentToBob = (some res', w') ∧
        sentToBob.Rid ["x", "xx"] w' := by
  rintro ⟨res, res', w', hrun, hrun', -⟩
  have hlist : ((ListManager.completeIssue ann "x").run (serve Env.sample) sentToBob).2.list (listKey bob .inList) ≠
      ((ListManager.removeIssue ann "x").run (serve Env.sample) sentToBob).2.list (listKey bob .inList) := by decide
  rw [hrun, hrun'] at hlist
  exact hlist rfl

/-- The store once Bob has accepted the todo. -/
def acceptedByBob : World := (ListOp.acceptIssue bob "xx").after Env.sample sentToBob

theorem acceptedByBob_settled : acceptedByBob.Settled Env.sample := ListOp.settled sentToBob_settled trivial

theorem popIssue_removeIssue_accepted :
    (∀ r rest, acceptedByBob.board.refs bob .myList = r :: rest → ∃ res res' w',
      (ListManager.popIssue bob).run (serve Env.sample) acceptedByBob = (some res, w') ∧
        (ListManager.removeIssue bob r.issueID).run (serve Env.sample) acceptedByBob = (some res', w') ∧
          res.err = none ∧ res'.err = none ∧ res.issue = res'.outIssue ∧ res.foreignID = res'.foreignID) ∧
    (acceptedByBob.board.refs bob .myList = [] → ∃ res,
      (ListManager.popIssue bob).run (serve Env.sample) acceptedByBob = (some res, acceptedByBob) ∧ res.err ≠ none) :=
  popIssue_removeIssue Env.sample acceptedByBob_settled.sound acceptedByBob_settled.paired bob

end sample
end Todo

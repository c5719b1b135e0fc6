import TodoPlugin.ListRun
import TodoPlugin.Moves
/-!
# The operations are moves

On a sound store with a paired board, an operation run alone either leaves the board or makes one of the moves of
`Moves`, with two exceptions, which the hypotheses of `completeIssue_moves` and `changeAssignment_moves` leave out:
completing a todo one sent, and assigning a todo of one's own to oneself.
-/
namespace Todo

open Store (ids without)

namespace World

/-- The ids still to be made are in no record. -/
def Fresh (E : Env) (w : World) : Prop := ∀ n, w.drawn ≤ n → w.issue (E.newId n) = none

/-- **One operation's step**: the store stays sound, the board makes a move, and a new record is under a new id. -/
structure Moves (E : Env) (w w' : World) : Prop where
  sound : w'.Sound
  move  : Board.Move w.board w'.board
  drawn : w.drawn ≤ w'.drawn
  new   : ∀ id, w'.issue id ≠ none → w.issue id ≠ none ∨ ∃ n, n < w'.drawn ∧ id = E.newId n

theorem Moves.fresh {E : Env} {w w' : World} (hm : Moves E w w') (hf : w.Fresh E) : w'.Fresh E := fun n hn => by
  apply Classical.byContradiction
  intro hne
  rcases hm.new _ hne with hold | ⟨m, hm', he⟩
  · exact hold (hf n (Nat.le_trans hm.drawn hn))
  · rw [E.newId_inj _ _ he] at hn
    omega

theorem Moves.idle {E : Env} {w : World} (h : w.Sound) : Moves E w w :=
  ⟨h, .idle, Nat.le_refl _, fun _ hne => .inl hne⟩

/-- A step that makes no record. -/
theorem Moves.of_board {E : Env} {w w' : World} (h : w'.Sound) {b : Board} (hm : Board.Move w.board b)
    (hb : w'.board = b) (hd : w'.drawn = w.drawn) (hi : ∀ id, w'.issue id ≠ none → w.issue id ≠ none) :
    Moves E w w' :=
  ⟨h, hb ▸ hm, Nat.le_of_eq hd.symm, fun id hne => .inl (hi id hne)⟩

/-- On an apart board an issue is in one list of a user at most. -/
theorem one_list {w : World} (h : w.board.Apart) (u : UserID) (id : String) (k l : ListID)
    (hk : id ∈ ids (w.list (listKey u k))) (hl : id ∈ ids (w.list (listKey u l))) : k = l := by
  obtain ⟨r, hr, rfl⟩ := List.mem_map.1 hk
  obtain ⟨s, hs, he⟩ := List.mem_map.1 hl
  exact (h.one (u := u) (v := u) hr hs he.symm).2

theorem Sound.locate_of_apart {w : World} (h : w.Sound) (ha : w.board.Apart) {u : UserID} {l : ListID} {r : IssueRef}
    (hr : r ∈ w.board.refs u l) : ∃ n, w.locate u r.issueID = (l, some r, n) :=
  h.locate_of_mem hr fun m hml hm => hml (one_list ha u _ m l hm (List.mem_map.2 ⟨r, hr, rfl⟩))

/-- A counterpart outside the Out list is one received or accepted. -/
theorem Sound.foreign {w : World} (h : w.Sound) (hp : w.board.Paired) {u : UserID} {l : ListID} {r : IssueRef}
    (hr : r ∈ w.board.refs u l) (hu : r.foreignUserID ≠ "") (hl : l ≠ .outList) :
    l = .inList ∨ (r.foreignIssueID ≠ "" ∧ l = .myList) := by
  cases l with
  | myList =>
    obtain ⟨v, m, -, -, hm⟩ := hp.other hr hu
    obtain ⟨j, hj⟩ := hp.recorded v m _ hm
    exact .inr ⟨h.id_ne_empty hj, rfl⟩
  | inList => exact .inl rfl
  | outList => exact absurd rfl hl

end World

namespace Board

theorem setIssue_comm (b : Board) {x y : String} (hxy : x ≠ y) (o o' : Option Issue) :
    (b.setIssue x o).setIssue y o' = (b.setIssue y o').setIssue x o := by
  ext k : 2
  · rfl
  · by_cases hx : k = x
    · subst hx; simp [hxy]
    · simp [hx]

end Board

namespace ListManager

variable (E : Env) {w : World} {u : UserID} {id : String}

/-! ## Adding and sending -/

theorem addIssue_moves (h : w.Sound) (hp : w.board.Paired) (hf : w.Fresh E) (m p d q : String) :
    ∃ r w', (addIssue u m p d q).run (serve E) w = (some r, w') ∧ World.Moves E w w' := by
  have hi : w.board.issue (w.made E m p d q).id = none := hf w.drawn (Nat.le_refl _)
  have hnew := hp.recorded.absent hi u .myList
  refine ⟨_, _, addIssue_run E h u m p d q hnew, ?_⟩
  have hs := h.draw.save (w.made_id_ne E m p d q)
  have hb : ((w.draw.save (w.made E m p d q)).append u .myList ⟨E.newId w.drawn, "", ""⟩).board
      = (w.board.setIssue (w.made E m p d q).id (some (w.made E m p d q))).append (listKey u .myList)
          ⟨(w.made E m p d q).id, "", ""⟩ := by
    rw [World.board_append, h.draw.board_save]
    rfl
  refine ⟨hs.append ?_, hb ▸ .add u _ hi, by simp, fun k hk => ?_⟩
  · rw [h.draw.list_save]
    exact hnew
  · rw [World.issue_append, h.draw.issue_save] at hk
    split at hk
    · exact .inr ⟨w.drawn, by simp, by assumption⟩
    · exact .inl hk

theorem sendIssue_moves (h : w.Sound) (hp : w.board.Paired) (hf : w.Fresh E) (v : UserID) (m p d q : String) :
    ∃ r w', (sendIssue u v m p d q).run (serve E) w = (some r, w') ∧ World.Moves E w w' := by
  have hi : w.board.issue (w.made E m p d q).id = none := hf w.drawn (Nat.le_refl _)
  have hj : w.board.issue (w.draw.made E m p d q).id = none := hf (w.drawn + 1) (Nat.le_succ _)
  have hij : (w.made E m p d q).id ≠ (w.draw.made E m p d q).id := fun he => by
    have := E.newId_inj _ _ he
    simp at this
  have hkey : listKey v .inList ≠ listKey u .outList := listKey_ne (by decide)
  have hai := hp.recorded.absent hi
  have haj := hp.recorded.absent hj
  refine ⟨_, _, sendIssue_run E h u v m p d q (hai u .outList) (haj v .inList) hkey, ?_⟩
  have hs₁ := h.draw.save (w.made_id_ne E m p d q)
  have hs₂ := hs₁.draw.save (World.made_id_ne E w.draw m p d q)
  have hl₂ : ((w.draw.save (w.made E m p d q)).draw.save (w.draw.made E m p d q)).list = w.list := by
    rw [hs₁.draw.list_save, World.list_draw, h.draw.list_save, World.list_draw]
  have hs₃ : (((w.draw.save (w.made E m p d q)).draw.save (w.draw.made E m p d q)).append u .outList
      ⟨(w.made E m p d q).id, (w.draw.made E m p d q).id, v⟩).Sound := by
    refine hs₂.append ?_
    rw [hl₂]
    exact hai u .outList
  have hb : (sent E w u v m p d q).board
      = (((w.board.setIssue (w.made E m p d q).id (some (w.made E m p d q))).setIssue (w.draw.made E m p d q).id
          (some (w.draw.made E m p d q))).append (listKey u .outList)
          ⟨(w.made E m p d q).id, (w.draw.made E m p d q).id, v⟩).append (listKey v .inList)
          ⟨(w.draw.made E m p d q).id, (w.made E m p d q).id, u⟩ := by
    rw [sent, World.board_append, World.board_append, hs₁.draw.board_save, World.board_draw, h.draw.board_save]
    rfl
  refine ⟨hs₃.append ?_, hb ▸ .send u v _ _ hi hj hij ⟨rfl, rfl, rfl, rfl⟩, by rw [sent_drawn]; omega, fun k hk => ?_⟩
  · rw [World.list_append, if_neg hkey, hl₂]
    exact haj v .inList
  · have hiss := congrFun (congrArg Board.issue hb) k
    rw [World.board_issue] at hiss
    rw [hiss] at hk
    simp only [Board.append_issue, Board.setIssue_issue] at hk
    split at hk
    · exact .inr ⟨w.drawn + 1, by rw [sent_drawn]; omega, by assumption⟩
    · split at hk
      · exact .inr ⟨w.drawn, by rw [sent_drawn]; omega, by assumption⟩
      · exact .inl hk

/-! ## Completing, removing and popping -/

/-- Taking out a todo of one's own. -/
theorem dropOwn_moves (h : w.Sound) {r : IssueRef} (hr : r ∈ w.board.refs u .myList) (hown : r.foreignUserID = "") :
    World.Moves E w ((w.unlist u r.issueID .myList).dropIssue r.issueID) := by
  have h₁ := h.unlist u r.issueID .myList
  refine .of_board (h₁.dropIssue _) (.dropOwn u r hr hown) ?_ (by simp) fun k hk => ?_
  · rw [h₁.board_dropIssue, World.board_unlist]
  · rw [h₁.issue_dropIssue, World.issue_unlist] at hk
    exact fun hn => hk (by rw [hn, ite_self])

/-- Taking out a pair, whichever side goes first. -/
theorem dropPair_moves (h : w.Sound) {v : UserID} {l m : ListID} {x y : String} (hlm : l = .outList ↔ m ≠ .outList)
    (hx : ⟨x, y, v⟩ ∈ w.board.refs u l) (hy : ⟨y, x, u⟩ ∈ w.board.refs v m) :
    World.Moves E w ((((w.unlist u x l).dropIssue x).unlist v y m).dropIssue y) := by
  have h₁ := h.unlist u x l
  have h₂ := h₁.dropIssue x
  have h₃ := h₂.unlist v y m
  have hb : ((((w.unlist u x l).dropIssue x).unlist v y m).dropIssue y).board
      = (((w.board.unlist (listKey u l) x).unlist (listKey v m) y).setIssue x none).setIssue y none := by
    rw [h₃.board_dropIssue, World.board_unlist, h₁.board_dropIssue, World.board_unlist]
    rfl
  have hiss : ∀ k, ((((w.unlist u x l).dropIssue x).unlist v y m).dropIssue y).issue k ≠ none → w.issue k ≠ none := by
    intro k hk hn
    rw [h₃.issue_dropIssue, World.issue_unlist, h₁.issue_dropIssue, World.issue_unlist, hn] at hk
    simp at hk
  by_cases hl : l = .outList
  · subst hl
    exact .of_board (h₃.dropIssue _) (.dropPair u v m x y (hlm.1 rfl) hx hy) hb (by simp) hiss
  · obtain rfl : m = .outList := Classical.byContradiction fun hm => hl (hlm.2 hm)
    refine .of_board (h₃.dropIssue _) (.dropPair v u l y x hl hy hx) ?_ (by simp) hiss
    rw [hb, Board.unlist_comm]
    by_cases hxy : x = y
    · rw [hxy]
    · rw [Board.setIssue_comm _ hxy]

/-- What is dropped first leaves the counterpart where it is. -/
theorem mem_refs_dropped (h : w.Sound) {l m : ListID} {x : String} {v : UserID} {s : IssueRef}
    (hs : s ∈ w.board.refs v m) (hne : s.issueID ≠ x) :
    s ∈ ((w.unlist u x l).dropIssue x).board.refs v m := by
  rw [(h.unlist u x l).board_dropIssue, World.board_unlist, Board.refs_setIssue, Board.mem_refs_unlist]
  exact ⟨hs, fun hc => hne hc.2.2⟩

theorem issue_dropped (h : w.Sound) (l : ListID) {x y : String} (hne : y ≠ x) :
    ((w.unlist u x l).dropIssue x).issue y = w.issue y := by
  rw [(h.unlist u x l).issue_dropIssue, if_neg hne, World.issue_unlist]

/-- A todo and its counterpart have different ids. -/
theorem mirror_ne (hp : w.board.Paired) {l m : ListID} {r : IssueRef} {v : UserID} (hr : r ∈ w.board.refs u l)
    (hlm : l = .outList ↔ m ≠ .outList) (hm : r.mirror u ∈ w.board.refs v m) : r.foreignIssueID ≠ r.issueID :=
  fun he => by
    have := (hp.one hr hm he.symm).2
    subst this
    exact absurd hlm (by simp)

/-- Once a todo has been dropped its counterpart is still found. -/
theorem locate_dropped (h : w.Sound) (hp : w.board.Paired) {l m : ListID} {r : IssueRef} {v : UserID}
    (hr : r ∈ w.board.refs u l) (hlm : l = .outList ↔ m ≠ .outList) (hm : r.mirror u ∈ w.board.refs v m) :
    ∃ k, ((w.unlist u r.issueID l).dropIssue r.issueID).locate v r.foreignIssueID = (m, some (r.mirror u), k) := by
  have hs := (h.unlist u r.issueID l).dropIssue r.issueID
  have ha : ((w.unlist u r.issueID l).dropIssue r.issueID).board.Apart := by
    rw [(h.unlist u r.issueID l).board_dropIssue, World.board_unlist]
    exact (hp.toApart.unlist u l r.issueID).setIssue _ _
  exact hs.locate_of_apart ha (mem_refs_dropped h (l := l) (x := r.issueID) hm (mirror_ne hp hr hlm hm))

/-- **Completing** a todo that is not in the caller's Out list drops it, and its counterpart. -/
theorem completeIssue_moves (h : w.Sound) (hp : w.board.Paired) (hout : id ∉ ids (w.board.refs u .outList)) :
    ∃ r w', (completeIssue u id).run (serve E) w = (some r, w') ∧ World.Moves E w w' ∧
      (r.err = none → r.issue ≠ none) := by
  rcases w.locate_cases u id with ⟨l, r, n, hl, hr, rfl⟩ | ⟨hl, -⟩
  · have hlo : l ≠ .outList := fun he => hout (he ▸ List.mem_map.2 ⟨r, hr, rfl⟩)
    obtain ⟨i, hi⟩ := hp.recorded u l r hr
    by_cases hf : r.foreignUserID = ""
    · obtain ⟨rfl, -⟩ := hp.own hr hf
      exact ⟨_, _, completeIssue_own E h hl hf, dropOwn_moves E h hr hf, fun _ hn => by cases hn.symm.trans hi⟩
    · obtain ⟨v, m, hv, hlm, hm⟩ := hp.other hr hf
      obtain rfl : m = .outList := Classical.byContradiction fun hmo => hlo (hlm.2 hmo)
      obtain ⟨j, hj⟩ := hp.recorded v .outList _ hm
      have hne : r.foreignIssueID ≠ r.issueID := fun he => hlo (hp.one hr hm he.symm).2
      have hrun := completeIssue_shared E h hl hf
      rw [hv] at hrun
      refine ⟨_, _, hrun, dropPair_moves E h hlm (hv ▸ hr) hm, fun _ hn => ?_⟩
      rw [issue_dropped h l hne] at hn
      cases hn.symm.trans hj
  · exact ⟨_, _, completeIssue_absent E h hl, .idle h, fun he => by cases he⟩

/-- **Removing** a todo drops it, and its counterpart. -/
theorem removeIssue_moves (h : w.Sound) (hp : w.board.Paired) :
    ∃ r w', (removeIssue u id).run (serve E) w = (some r, w') ∧ World.Moves E w w' ∧
      (r.err = none → r.outIssue ≠ none) := by
  rcases w.locate_cases u id with ⟨l, r, n, hl, hr, rfl⟩ | ⟨hl, -⟩
  · obtain ⟨i, hi⟩ := hp.recorded u l r hr
    by_cases hf : r.foreignUserID = ""
    · obtain ⟨rfl, -⟩ := hp.own hr hf
      exact ⟨_, _, removeIssue_own E h hl hf, dropOwn_moves E h hr hf, fun _ hn => by cases hn.symm.trans hi⟩
    · obtain ⟨v, m, hv, hlm, hm⟩ := hp.other hr hf
      obtain ⟨j, hj⟩ := hp.recorded v m _ hm
      obtain ⟨k, hk⟩ := locate_dropped h hp hr hlm hm
      have hrun := removeIssue_shared E h hl hf (hv ▸ hk)
      rw [hv] at hrun
      refine ⟨_, _, hrun, dropPair_moves E h hlm (hv ▸ hr) hm, fun _ hn => ?_⟩
      rw [issue_dropped h l (mirror_ne hp hr hlm hm)] at hn
      cases hn.symm.trans hj
  · exact ⟨_, _, removeIssue_absent E h hl, .idle h, fun he => by cases he⟩

/-- **Popping** drops the head of the owned list, and its counterpart. -/
theorem popIssue_moves (h : w.Sound) (hp : w.board.Paired) :
    ∃ r w', (popIssue u).run (serve E) w = (some r, w') ∧ World.Moves E w w' ∧ (r.err = none → r.issue ≠ none) := by
  cases hl : w.list (listKey u .myList) with
  | nil => exact ⟨_, _, popIssue_empty E h hl, .idle h, fun he => by cases he⟩
  | cons r rest =>
    have hr : r ∈ w.board.refs u .myList := by
      rw [Board.refs, World.board_list, hl]
      exact List.mem_cons_self
    obtain ⟨i, hi⟩ := hp.recorded u .myList r hr
    by_cases hf : r.foreignUserID = ""
    · exact ⟨_, _, popIssue_own E h hl hf, dropOwn_moves E h hr hf, fun _ hn => by cases hn.symm.trans hi⟩
    · obtain ⟨v, m, hv, hlm, hm⟩ := hp.other hr hf
      obtain rfl : m = .outList := Classical.byContradiction fun hmo => by cases hlm.2 hmo
      obtain ⟨j, hj⟩ := hp.recorded v .outList _ hm
      have hne : r.foreignIssueID ≠ r.issueID := fun he => by cases (hp.one hr hm he.symm).2
      have hrun := popIssue_shared E h hl hf
      rw [hv] at hrun
      refine ⟨_, _, hrun, dropPair_moves E h hlm (hv ▸ hr) hm, fun _ hn => ?_⟩
      rw [issue_dropped h .myList hne] at hn
      cases hn.symm.trans hj

/-! ## Accepting, bumping and editing -/

/-- A received todo, accepted. -/
theorem acceptIssue_board (h : w.Sound) (hp : w.board.Paired) {r : IssueRef} (hr : r ∈ w.board.refs u .inList) :
    ∃ i w', (acceptIssue u r.issueID).run (serve E) w =
      (some ⟨withPermalink i.message i.postPermalink, r.foreignUserID, none⟩, w') ∧ w.issue r.issueID = some i ∧
        w'.Sound ∧ w'.drawn = w.drawn ∧
        w'.board = (w.board.append (listKey u .myList) r).unlist (listKey u .inList) r.issueID := by
  obtain ⟨n, href⟩ := h.refOf_of_mem hr
  obtain ⟨i, hi⟩ := hp.recorded u .inList r hr
  have hmy : r.issueID ∉ ids (w.list (listKey u .myList)) := fun hm => by
    obtain ⟨s, hs, he⟩ := List.mem_map.1 hm
    cases (hp.one (u := u) (l := .myList) hs hr he).2
  have hkey : listKey u .inList ≠ listKey u .myList := listKey_ne (by decide)
  refine ⟨i, _, acceptIssue_run E h hi href hmy hkey, hi, (h.append hmy).unlist u _ .inList, by simp, ?_⟩
  rw [World.board_unlist, World.board_append]

theorem acceptIssue_moves (h : w.Sound) (hp : w.board.Paired) :
    ∃ r w', (acceptIssue u id).run (serve E) w = (some r, w') ∧ World.Moves E w w' := by
  cases href : w.refOf u id .inList with
  | error e =>
    obtain ⟨err, hrun⟩ := acceptIssue_absent E h href
    exact ⟨_, _, hrun, .idle h⟩
  | ok p =>
    obtain ⟨hr, rfl⟩ := World.refOf_ok (r := p.1) (n := p.2) href
    have hr' : p.1 ∈ w.board.refs u .inList := hr
    obtain ⟨i, w', hrun, -, hs', hd, hb⟩ := acceptIssue_board E h hp hr'
    refine ⟨_, w', hrun, .of_board hs' (.accept u p.1 hr') hb hd fun k hk => ?_⟩
    rwa [← World.board_issue, hb] at hk

theorem bumpIssue_moves (h : w.Sound) (hp : w.board.Paired) :
    ∃ r w', (bumpIssue u id).run (serve E) w = (some r, w') ∧ World.Moves E w w' := by
  cases href : w.refOf u id .outList with
  | error e => exact ⟨_, _, bumpIssue_absent E h.toListed href, .idle h⟩
  | ok p =>
    obtain ⟨hr, -⟩ := World.refOf_ok (r := p.1) (n := p.2) href
    obtain ⟨v, -, hv, -⟩ := hp.out (u := u) (r := p.1) hr
    rcases bumpIssue_run E h (r := p.1) (n := p.2) href with ⟨err, hrun⟩ | ⟨newList, hperm, hrun⟩
    · exact ⟨_, _, hrun, .idle h⟩
    · rw [hv] at hperm hrun
      refine ⟨_, _, hrun, ?_⟩
      have hs : (w.put (listKey v .inList) (.refs newList)).Sound :=
        h.put_list _ _ ((hperm.map _).nodup_iff.2 (h.distinct _ _))
      refine .of_board hs (.permute v .inList newList hperm) (World.board_put_list ..) rfl fun k hk => ?_
      have hiss := congrFun (congrArg Board.issue (World.board_put_list w v .inList newList)) k
      rw [World.board_issue, Board.setList_issue, World.board_issue] at hiss
      rwa [hiss] at hk

theorem editIssue_moves (h : w.Sound) (hp : w.board.Paired) (m d : String) :
    ∃ r w', (editIssue u id m d).run (serve E) w = (some r, w') ∧ World.Moves E w w' := by
  rcases w.locate_cases u id with ⟨l, r, n, hl, hr, rfl⟩ | ⟨hl, -⟩
  · obtain ⟨i, hi⟩ := hp.recorded u l r hr
    obtain ⟨old, hrun⟩ := editIssue_run E h m d hi hl
    refine ⟨_, _, hrun, ?_⟩
    have hr' : r ∈ w.board.refs u l := hr
    have hid : (i.retext m d).id = r.issueID := h.issue_id (i := i) hi
    by_cases hf : r.foreignUserID = ""
    · obtain ⟨rfl, hfi⟩ := hp.own hr hf
      rw [editForeign, hfi, if_neg (by simp)]
      refine .of_board (h.save (i := i.retext m d) (hid ▸ h.id_ne_empty hi)) (.editOwn u r hr' hf i hi m d) ?_ rfl ?_
      · rw [h.board_save, hid]
      · intro k hk hn
        rw [h.issue_save, hid] at hk
        by_cases he : k = r.issueID
        · rw [he] at hn; cases hn.symm.trans hi
        · exact hk (by rw [if_neg he, hn])
    · obtain ⟨v, k, hv, hlm, hm⟩ := hp.other hr hf
      obtain ⟨j, hj⟩ := hp.recorded v k _ hm
      have hjd : (j.retext m d).id = r.foreignIssueID := h.issue_id (i := j) hj
      have hne : r.foreignIssueID ≠ "" := h.id_ne_empty hj
      have hj' : w.issue r.foreignIssueID = some j := hj
      rw [editForeign, if_pos hne, hj']
      have hs := h.save (i := j.retext m d) (hjd ▸ hne)
      have hb : ((w.save (j.retext m d)).save (i.retext m d)).board
          = (w.board.setIssue r.foreignIssueID (some (j.retext m d))).setIssue r.issueID (some (i.retext m d)) := by
        rw [hs.board_save, h.board_save, hid, hjd]
      have hiss : ∀ q, ((w.save (j.retext m d)).save (i.retext m d)).issue q ≠ none → w.issue q ≠ none := by
        intro q hq hn
        rw [hs.issue_save, h.issue_save, hid, hjd, hn] at hq
        by_cases he : q = r.issueID
        · rw [he] at hn; cases hn.symm.trans hi
        · by_cases he' : q = r.foreignIssueID
          · rw [he'] at hn; cases hn.symm.trans hj
          · simp [he, he'] at hq
      have hsound := hs.save (i := i.retext m d) (hid ▸ h.id_ne_empty hi)
      by_cases hlo : l = .outList
      · subst hlo
        refine .of_board hsound (.editPair u v k _ _ (hlm.1 rfl) (hv ▸ hr) hm i j hi hj m d) ?_ rfl hiss
        have hxy := hp.toApart.pair_ne (hlm.1 rfl) (hv ▸ hr) hm
        rw [hb, Board.setIssue_comm _ hxy]
      · obtain rfl : k = .outList := Classical.byContradiction fun hko => hlo (hlm.2 hko)
        exact .of_board hsound (.editPair v u l _ _ hlo hm (hv ▸ hr) j i hj hi m d) hb rfl hiss
  · obtain ⟨err, hrun⟩ := editIssue_absent E h m d hl
    exact ⟨_, _, hrun, .idle h⟩

/-! ## Changing the assignment -/

/-- The end of a reassignment: the copy under a new id, and the pair of the todo and the copy. -/
theorem assign_board (h : w.Sound) (v : UserID) (i : Issue) (old : String) (hi : i.id = id)
    (hold : id ∉ ids (w.board.refs u .outList)) (hnew : E.newId w.drawn ∉ ids (w.board.refs v .inList)) :
    ∃ j w', (assign id u v old i).run (serve E) w = (some ⟨some i, old, none⟩, w') ∧ j.id = E.newId w.drawn ∧
      Board.SameText i j ∧ w'.Sound ∧ w'.drawn = w.drawn + 1 ∧
      w'.board = ((w.board.setIssue j.id (some j)).append (listKey u .outList) ⟨id, j.id, v⟩).append
        (listKey v .inList) ⟨j.id, id, u⟩ := by
  have hkey : listKey v .inList ≠ listKey u .outList := listKey_ne (by decide)
  have hs := h.draw.save (w.made_id_ne E i.message i.postPermalink i.description i.postID)
  refine ⟨w.made E i.message i.postPermalink i.description i.postID, _, assign_run E h id u v old i hold hnew hkey,
    rfl, ⟨rfl, rfl, rfl, rfl⟩, ?_, rfl, ?_⟩
  · refine World.Sound.append (World.Sound.append hs ?_) ?_
    · rw [h.draw.list_save]
      exact hold
    · rw [World.list_append, if_neg hkey, h.draw.list_save]
      exact hnew
  · rw [World.board_append, World.board_append, h.draw.board_save, hi]
    rfl

/-- Where a reassignment leaves records. -/
theorem issue_assigned {b b' : Board} {j : Issue} {k : String} {s t : IssueRef} {key key' : String}
    (hb : b' = ((b.setIssue j.id (some j)).append key s).append key' t) (hk : b'.issue k ≠ none) :
    k = j.id ∨ b.issue k ≠ none := by
  rw [hb, Board.append_issue, Board.append_issue, Board.setIssue_issue] at hk
  by_cases he : k = j.id
  · exact .inl he
  · rw [if_neg he] at hk
    exact .inr hk

/-- A todo of one's own, assigned to another user. -/
theorem changeAssignment_own_board (h : w.Sound) (hp : w.board.Paired) (hf : w.Fresh E) {v : UserID} (huv : u ≠ v)
    {r : IssueRef} {i : Issue} {n : Nat} (hr : r ∈ w.board.refs u .myList) (hown : r.foreignUserID = "")
    (hi : w.issue r.issueID = some i) (hl : w.locate u r.issueID = (.myList, some r, n)) :
    ∃ j w', (changeAssignment r.issueID u v).run (serve E) w = (some ⟨some i, "", none⟩, w') ∧ j.id = E.newId w.drawn ∧
      Board.SameText i j ∧ w'.Sound ∧ w'.drawn = w.drawn + 1 ∧
      w'.board = (((w.board.unlist (listKey u .myList) r.issueID).setIssue j.id (some j)).append (listKey u .outList)
        ⟨r.issueID, j.id, v⟩).append (listKey v .inList) ⟨j.id, r.issueID, u⟩ := by
  have hnew : w.board.issue (E.newId w.drawn) = none := hf w.drawn (Nat.le_refl _)
  have hfi := (hp.own hr hown).2
  have hs := h.unlist u r.issueID .myList
  have hdrawn : (w.unlist u r.issueID .myList).drawn = w.drawn := World.unlist_drawn ..
  have hb₁ := w.board_unlist u r.issueID .myList
  rw [changeAssignment_own E h v hi hl (by simp [hfi]) hown,
    reassign_other E h _ _ _ _ _ _ (fun he => huv (UserID.ext_val he)) (List.mem_map.2 ⟨r, hr, rfl⟩)]
  have hab : (w.unlist u r.issueID .myList).board.Absent r.issueID := by
    rw [hb₁]
    exact hp.toApart.absent_unlist hr
  have han : (w.unlist u r.issueID .myList).board.Absent (E.newId w.drawn) := by
    rw [hb₁]
    exact (hp.recorded.absent hnew).unlist _ _ _
  obtain ⟨j, w', hrun, hj, ht, hs', hd, hb⟩ := assign_board E hs v i r.foreignUserID (h.issue_id hi)
    (hab u .outList) (by rw [hdrawn]; exact han v .inList)
  rw [hdrawn] at hj hd
  rw [hb₁] at hb
  exact ⟨j, w', hown ▸ hrun, hj, ht, hs', hd, hb⟩

theorem changeAssignment_own_moves (h : w.Sound) (hp : w.board.Paired) (hf : w.Fresh E) {v : UserID} (huv : u ≠ v)
    {r : IssueRef} {i : Issue} {n : Nat} (hr : r ∈ w.board.refs u .myList) (hown : r.foreignUserID = "")
    (hi : w.issue r.issueID = some i) (hl : w.locate u r.issueID = (.myList, some r, n)) :
    ∃ w', (changeAssignment r.issueID u v).run (serve E) w = (some ⟨some i, "", none⟩, w') ∧ World.Moves E w w' ∧
      ⟨E.newId w.drawn, r.issueID, u⟩ ∈ w'.board.refs v .inList := by
  have hnew : w.board.issue (E.newId w.drawn) = none := hf w.drawn (Nat.le_refl _)
  obtain ⟨j, w', hrun, hj, ht, hs', hd, hb⟩ := changeAssignment_own_board E h hp hf huv hr hown hi hl
  refine ⟨w', hrun, ⟨hs', ?_, by omega, fun k hk => ?_⟩, ?_⟩
  · rw [hb]
    exact .assignOwn u v r hr hown i j hi (hj ▸ hnew) ht
  · rcases issue_assigned hb hk with rfl | hk
    · exact .inr ⟨w.drawn, by omega, hj⟩
    · exact .inl hk
  · rw [hb, ← hj]
    exact Board.mem_refs_append.2 (.inr ⟨rfl, rfl, rfl⟩)

section pair
variable {v : UserID} {l : ListID} {x y : String}

/-- A reassignment of a todo sent to `v`, once his side is gone and the todo is out of the Out list. -/
theorem withdrawn_board (h : w.Sound) (u v : UserID) (l : ListID) (x y : String) :
    (((w.unlist v y l).dropIssue y).unlist u x .outList).board
      = ((w.board.unlist (listKey u .outList) x).unlist (listKey v l) y).setIssue y none := by
  rw [World.board_unlist, (h.unlist v y l).board_dropIssue, World.board_unlist, Board.unlist_comm w.board]
  rfl

/-- A todo sent to `v`, taken back. -/
theorem changeAssignment_back_board (h : w.Sound) (hp : w.board.Paired) {i : Issue} {n : Nat} (hlo : l ≠ .outList)
    (hx : ⟨x, y, v⟩ ∈ w.board.refs u .outList) (hy : ⟨y, x, u⟩ ∈ w.board.refs v l) (hi : w.issue x = some i)
    (hl : w.locate u x = (.outList, some ⟨x, y, v⟩, n)) :
    ∃ w', (changeAssignment x u u).run (serve E) w = (some ⟨some i, v, none⟩, w') ∧ w'.Sound ∧ w'.drawn = w.drawn ∧
      w'.board = (((w.board.unlist (listKey u .outList) x).unlist (listKey v l) y).setIssue y none).append
        (listKey u .myList) ⟨x, "", ""⟩ := by
  obtain ⟨k, hk⟩ := h.locate_of_apart hp.toApart hy
  have hs₂ := (h.unlist v y l).dropIssue y
  have hb₃ := withdrawn_board h u v l x y
  have hkey : listKey u .myList ≠ listKey u .outList := listKey_ne (by decide)
  have hxo : x ∈ ids (((w.unlist v y l).dropIssue y).list (listKey u .outList)) :=
    List.mem_map.2 ⟨_, mem_refs_dropped h hx (hp.toApart.pair_ne hlo hx hy), rfl⟩
  have hmy : x ∉ ids ((((w.unlist v y l).dropIssue y).unlist u x .outList).list (listKey u .myList)) := by
    have habs := hp.toApart.absent_fst hx hy
    rw [← World.board_list, hb₃]
    exact habs u .myList
  have hmy' : x ∉ ids (((w.unlist v y l).dropIssue y).list (listKey u .myList)) := by
    rwa [World.list_unlist, if_neg hkey] at hmy
  rw [changeAssignment_shared E h u hi hl (by simp) v.val_ne_empty hk]
  refine ⟨_, reassign_back E hs₂ x u _ i hxo hmy' hkey, (hs₂.unlist u x .outList).append hmy, by simp, ?_⟩
  rw [World.board_append, hb₃]

/-- A todo sent to `v`, sent to another user. -/
theorem changeAssignment_other_board (h : w.Sound) (hp : w.board.Paired) (hf : w.Fresh E) {t : UserID} (hut : u ≠ t)
    {i : Issue} {n : Nat} (hlo : l ≠ .outList) (hx : ⟨x, y, v⟩ ∈ w.board.refs u .outList)
    (hy : ⟨y, x, u⟩ ∈ w.board.refs v l) (hi : w.issue x = some i) (hl : w.locate u x = (.outList, some ⟨x, y, v⟩, n)) :
    ∃ j w', (changeAssignment x u t).run (serve E) w = (some ⟨some i, v, none⟩, w') ∧ j.id = E.newId w.drawn ∧
      Board.SameText i j ∧ w'.Sound ∧ w'.drawn = w.drawn + 1 ∧
      w'.board = (((((w.board.unlist (listKey u .outList) x).unlist (listKey v l) y).setIssue y none).setIssue j.id
        (some j)).append (listKey u .outList) ⟨x, j.id, t⟩).append (listKey t .inList) ⟨j.id, x, u⟩ := by
  have hnew : w.board.issue (E.newId w.drawn) = none := hf w.drawn (Nat.le_refl _)
  obtain ⟨k, hk⟩ := h.locate_of_apart hp.toApart hy
  have hs₂ := (h.unlist v y l).dropIssue y
  have hb₃ := withdrawn_board h u v l x y
  have hxo : x ∈ ids (((w.unlist v y l).dropIssue y).list (listKey u .outList)) :=
    List.mem_map.2 ⟨_, mem_refs_dropped h hx (hp.toApart.pair_ne hlo hx hy), rfl⟩
  have habs : (((w.unlist v y l).dropIssue y).unlist u x .outList).board.Absent x := by
    rw [hb₃]
    exact hp.toApart.absent_fst hx hy
  have han : (((w.unlist v y l).dropIssue y).unlist u x .outList).board.Absent (E.newId w.drawn) := by
    rw [hb₃]
    exact ((hp.recorded.absent hnew).unlist _ _ _).unlist _ _ _
  have hdrawn : (((w.unlist v y l).dropIssue y).unlist u x .outList).drawn = w.drawn := by simp
  rw [changeAssignment_shared E h t hi hl (by simp) v.val_ne_empty hk,
    reassign_other E hs₂ _ _ _ _ _ _ (fun he => hut (UserID.ext_val he)) hxo]
  obtain ⟨j, w', hrun, hj, ht, hs', hd, hb⟩ := assign_board E (hs₂.unlist u x .outList) t i v (h.issue_id hi)
    (habs u .outList) (by rw [hdrawn]; exact han t .inList)
  rw [hdrawn] at hj hd
  rw [hb₃] at hb
  exact ⟨j, w', hrun, hj, ht, hs', hd, hb⟩

/-- A todo sent to `v`, taken back or sent to another user. -/
theorem changeAssignment_pair_moves (h : w.Sound) (hp : w.board.Paired) (hf : w.Fresh E) {t : UserID} {i : Issue}
    {n : Nat} (hlo : l ≠ .outList) (hx : ⟨x, y, v⟩ ∈ w.board.refs u .outList) (hy : ⟨y, x, u⟩ ∈ w.board.refs v l)
    (hi : w.issue x = some i) (hl : w.locate u x = (.outList, some ⟨x, y, v⟩, n)) :
    ∃ w', (changeAssignment x u t).run (serve E) w = (some ⟨some i, v, none⟩, w') ∧ World.Moves E w w' ∧
      (u ≠ t → ⟨E.newId w.drawn, x, u⟩ ∈ w'.board.refs t .inList) := by
  have hiss : ∀ q, (((w.board.unlist (listKey u .outList) x).unlist (listKey v l) y).setIssue y none).issue q ≠ none →
      w.issue q ≠ none := by
    intro q hq hn
    rw [Board.setIssue_issue, Board.unlist_issue, Board.unlist_issue, World.board_issue, hn, ite_self] at hq
    exact hq rfl
  by_cases hut : u = t
  · subst hut
    obtain ⟨w', hrun, hs', hd, hb⟩ := changeAssignment_back_board E h hp hlo hx hy hi hl
    refine ⟨w', hrun, .of_board hs' (.takeBack u v l x y hlo hx hy) hb hd fun q hq => ?_, fun hne => absurd rfl hne⟩
    rw [← World.board_issue, hb] at hq
    exact hiss q hq
  · have hnew : w.board.issue (E.newId w.drawn) = none := hf w.drawn (Nat.le_refl _)
    obtain ⟨j, w', hrun, hj, ht, hs', hd, hb⟩ := changeAssignment_other_board E h hp hf hut hlo hx hy hi hl
    refine ⟨w', hrun, ⟨hs', ?_, by omega, fun q hq => ?_⟩, fun _ => ?_⟩
    · rw [hb]
      exact .assignPair u v t l x y hlo hx hy i j hi (hj ▸ hnew) ht
    · rcases issue_assigned hb hq with rfl | hq
      · exact .inr ⟨w.drawn, by omega, hj⟩
      · exact .inl (hiss q hq)
    · rw [hb, ← hj]
      exact Board.mem_refs_append.2 (.inr ⟨rfl, rfl, rfl⟩)

end pair

/-- **Changing the assignment** of a todo, unless it is a todo of one's own assigned to oneself. -/
theorem changeAssignment_moves (h : w.Sound) (hp : w.board.Paired) (hf : w.Fresh E) (v : UserID)
    (hself : u = v → ∀ r ∈ w.board.refs u .myList, r.issueID = id → r.foreignUserID ≠ "") :
    ∃ r w', (changeAssignment id u v).run (serve E) w = (some r, w') ∧ World.Moves E w w' := by
  rcases w.locate_cases u id with ⟨l, r, n, hl, hr, rfl⟩ | ⟨hl, -⟩
  · have hr' : r ∈ w.board.refs u l := hr
    obtain ⟨i, hi⟩ := hp.recorded u l r hr
    by_cases hown : r.foreignUserID = ""
    · obtain ⟨rfl, -⟩ := hp.own hr hown
      obtain ⟨w', hrun, hm, -⟩ := changeAssignment_own_moves E h hp hf (fun he => hself he r hr rfl hown) hr hown hi hl
      exact ⟨_, w', hrun, hm⟩
    · obtain ⟨t, m, ht, hlm, hm⟩ := hp.other hr hown
      by_cases hlo : l = .outList
      · subst hlo
        have heta : r = ⟨r.issueID, r.foreignIssueID, t⟩ := by rw [← ht]
        obtain ⟨w', hrun, hmove, -⟩ := changeAssignment_pair_moves E h hp hf (t := v) (hlm.1 rfl) (heta ▸ hr') hm hi
          (heta ▸ hl)
        exact ⟨_, w', hrun, hmove⟩
      · -- received or accepted: refused
        obtain ⟨err, hrun⟩ := changeAssignment_foreign E h v hi hl (h.foreign hp hr' hown hlo)
        exact ⟨_, _, hrun, .idle h⟩
  · obtain ⟨err, hrun⟩ := changeAssignment_absent E h v hl
    exact ⟨_, _, hrun, .idle h⟩

end ListManager
end Todo

import TodoPlugin.Upkeep
import TodoPlugin.ListMoves
/-!
# Whose lists an operation changes

A user sees of a list its references and their records.  An operation changes no more than the lists that hold the todo
it is about or the todo's counterpart, and those it appends to (`shown_upheld`); each is told, by its results, to whom
(`*_told`), all but three times: when the sender completes a todo or removes one that has been accepted, and when a user
assigns an own todo to themselves.
-/
namespace Todo

open Store (ids)

namespace Board

/-- What the user sees of the list is the same on both boards. -/
def SameView (b b' : Board) (u : UserID) (l : ListID) : Prop :=
  b'.refs u l = b.refs u l ∧ ∀ r ∈ b.refs u l, b'.issue r.issueID = b.issue r.issueID

theorem SameView.refl (b : Board) (u : UserID) (l : ListID) : b.SameView b u l := ⟨rfl, fun _ _ => rfl⟩

/-- A record that goes is missed. -/
theorem not_sameView_of_gone {b b' : Board} {u : UserID} {l : ListID} {r : IssueRef} {i : Issue} (hr : r ∈ b.refs u l)
    (hi : b.issue r.issueID = some i) (hgone : b'.issue r.issueID = none) : ¬ b.SameView b' u l := fun h => by
  cases (hgone.symm.trans (h.2 r hr)).trans hi

/-- The list holds the todo of `r`, in list `l` of `u`, or its counterpart. -/
def Sides (b : Board) (u : UserID) (l : ListID) (r : IssueRef) (q : UserID) (m : ListID) : Prop :=
  (q = u ∧ m = l) ∨ (r.foreignUserID = q.val ∧ (l = .outList ↔ m ≠ .outList) ∧ r.mirror u ∈ b.refs q m)

end Board

namespace World

variable {w₀ w w' : World} {T S : UserID → ListID → Prop} {on : String → Prop} {into : String → ListID → Prop}

/-- Since `w₀` only lists of `T` look different. -/
structure Within (w₀ : World) (T : UserID → ListID → Prop) (w : World) : Prop where
  sound : w.Sound
  same  : ∀ u l, ¬ T u l → w₀.board.SameView w.board u l

theorem Within.refl (h : w.Sound) : Within w T w := ⟨h, fun u l _ => .refl w.board u l⟩

/-- A step that leaves what the other lists show. -/
theorem Within.step (h : Within w₀ T w) (hs : w'.Sound)
    (hstep : ∀ u l, ¬ T u l → (∀ r ∈ w.board.refs u l, r ∈ w₀.board.refs u l) → w.board.SameView w'.board u l) :
    Within w₀ T w' := by
  refine ⟨hs, fun u l hT => ?_⟩
  obtain ⟨hrefs, hissue⟩ := h.same u l hT
  obtain ⟨hrefs', hissue'⟩ := hstep u l hT fun r hr => hrefs ▸ hr
  exact ⟨hrefs'.trans hrefs, fun r hr => (hissue' r (hrefs.symm ▸ hr)).trans (hissue r hr)⟩

/-- **Writes about issues that only lists of `T` hold, and that append to lists of `T`, stay within `T`.** -/
theorem shown_upheld (w₀ : World) (hon : ∀ id, on id → ∀ u l, id ∈ ids (w₀.board.refs u l) → T u l)
    (hinto : ∀ s l, into s l → ∃ u : UserID, s = u ∧ T u l) : Upheld (Within w₀ T) on into where
  sound h := h.sound
  unlist {w id} h hid s m := by
    refine h.step (h.sound.unlist s id m) fun u l hT hsub => ⟨?_, fun r _ => by rw [board_unlist]; rfl⟩
    have hnot : id ∉ ids (w.list (listKey u l)) := fun hmem => by
      obtain ⟨r, hr, he⟩ := List.mem_map.1 hmem
      exact hT (hon id hid u l (List.mem_map.2 ⟨r, hsub r hr, he⟩))
    show (w.unlist s id m).list (listKey u l) = w.list (listKey u l)
    rw [list_unlist]
    split
    · rename_i hkey
      rw [← hkey, Store.without_eq_self hnot]
    · rfl
  append {w s m ref} h _ hm hnew := by
    refine h.step (h.sound.append hnew) fun u l hT _ => ⟨?_, fun r _ => by rw [board_append]; rfl⟩
    obtain ⟨v, rfl, hv⟩ := hinto s m hm
    show (w.append v m ref).list (listKey u l) = w.list (listKey u l)
    rw [list_append, if_neg]
    intro hkey
    obtain ⟨rfl, rfl⟩ := listKey_inj.1 hkey
    exact hT hv
  delete {w id} h hid := by
    refine h.step (h.sound.delete_issue id) fun u l hT hsub => ⟨by rw [h.sound.board_delete_issue]; rfl, fun r hr => ?_⟩
    have hne : r.issueID ≠ id := fun he => hT (hon id hid u l (he ▸ List.mem_map.2 ⟨r, hsub r hr, rfl⟩))
    rw [h.sound.board_delete_issue, Board.setIssue_issue, if_neg hne]
  save {w i} h hid hne := by
    refine h.step (h.sound.save hne) fun u l hT hsub => ⟨by rw [h.sound.board_save]; rfl, fun r hr => ?_⟩
    have hne : r.issueID ≠ i.id := fun he => hT (hon i.id hid u l (he ▸ List.mem_map.2 ⟨r, hsub r hr, rfl⟩))
    rw [h.sound.board_save, Board.setIssue_issue, if_neg hne]
  draw h := h.step h.sound.draw fun u l _ _ => .refl _ u l

/-- Whoever sees a list changed is told so. -/
def Told (w w' : World) (S : String → ListID → Prop) : Prop :=
  ∀ (u : UserID) l, ¬ w.board.SameView w'.board u l → S u l

theorem told_self (w : World) (S : String → ListID → Prop) : w.Told w S := fun u l h => (h (.refl _ u l)).elim

theorem Within.told (h : Within w T w') {S : String → ListID → Prop} (hT : ∀ u l, T u l → S u l) : w.Told w' S :=
  fun u l hne => hT u l (Classical.byContradiction fun hn => hne (h.same u l hn))

end World

/-! ## Where a todo and its counterpart are -/

namespace Board

variable {b : Board} {u q : UserID} {l m : ListID} {r : IssueRef}

theorem Apart.place (h : b.Apart) (hr : r ∈ b.refs u l) (hq : r.issueID ∈ ids (b.refs q m)) : q = u ∧ m = l := by
  obtain ⟨s, hs, he⟩ := List.mem_map.1 hq
  exact h.one hs hr he

end Board

section places
variable {w : World} {u : UserID} {l : ListID} {r : IssueRef}

/-- Only its own list and its counterpart's hold a todo or the counterpart. -/
theorem sides_of_mem (h : w.Sound) (hp : w.board.Paired) (hr : r ∈ w.board.refs u l) {id : String}
    (hid : id = r.issueID ∨ id = r.foreignIssueID) (q : UserID) (m : ListID) (hq : id ∈ ids (w.board.refs q m)) :
    w.board.Sides u l r q m := by
  rcases hid with rfl | rfl
  · exact .inl (hp.toApart.place hr hq)
  · by_cases hown : r.foreignUserID = ""
    · obtain ⟨s, hs, he⟩ := List.mem_map.1 hq
      obtain ⟨i, hi⟩ := hp.recorded q m s hs
      rw [he, (hp.own hr hown).2] at hi
      exact absurd rfl (h.id_ne_empty hi)
    · obtain ⟨v, n, hv, hln, hm⟩ := hp.other hr hown
      obtain ⟨rfl, rfl⟩ := hp.toApart.place (r := r.mirror u) hm hq
      exact .inr ⟨hv, hln, hm⟩

/-- Writes about a todo and its counterpart stay within their lists and those appended to. -/
theorem sides_upheld (h : w.Sound) (hp : w.board.Paired) (hr : r ∈ w.board.refs u l) {T : UserID → ListID → Prop}
    {into : String → ListID → Prop} (hsides : ∀ q m, w.board.Sides u l r q m → T q m)
    (hinto : ∀ s m, into s m → ∃ q : UserID, s = q ∧ T q m) :
    Upheld (World.Within w T) (fun id => id = r.issueID ∨ id = r.foreignIssueID) into :=
  World.shown_upheld w (fun _ hid q m hq => hsides q m (sides_of_mem h hp hr hid q m hq)) hinto

end places

/-! ## Whom the results tell -/

theorem ListID.mem_of_ne_in {l : ListID} (h : l ≠ .inList) : l ∈ [ListID.myList, .outList] := by
  cases l with
  | inList => exact absurd rfl h
  | _ => simp

theorem ListID.mem_of_ne_out {l : ListID} (h : l ≠ .outList) : l ∈ [ListID.inList, .myList] := by
  cases l with
  | outList => exact absurd rfl h
  | _ => simp

/-- The lists `handleComplete` refreshes. -/
def CompleteResult.tells (u : UserID) (res : CompleteResult) (q : String) (l : ListID) : Prop :=
  res.err = none ∧ (q = u ∧ l = res.listToUpdate ∨ res.foreignID ≠ "" ∧ q = res.foreignID ∧ l = .outList)

/-- The lists `handleRemove` refreshes. -/
def RemoveResult.tells (u : UserID) (res : RemoveResult) (q : String) (l : ListID) : Prop :=
  res.err = none ∧ (q = u ∧ l = res.listToUpdate ∨
    res.foreignID ≠ "" ∧ q = res.foreignID ∧ l = if res.isSender then .outList else .inList)

/-- The lists `runPopCommand` refreshes. -/
def PopResult.tells (u : UserID) (res : PopResult) (q : String) (l : ListID) : Prop :=
  res.err = none ∧ (res.foreignID ≠ "" ∧ q = res.foreignID ∧ l = .outList ∨ q = u ∧ l = .myList)

/-- The lists `handleEdit` refreshes. -/
def EditResult.tells (u : UserID) (res : EditResult) (q : String) (l : ListID) : Prop :=
  res.err = none ∧ (q = u ∧ l = res.list ∨
    res.foreignUserID ≠ "" ∧ q = res.foreignUserID ∧ l ∈ if res.list = .outList then [.myList, .inList] else [.outList])

/-- The lists `handleChangeAssignment` refreshes. -/
def ChangeResult.tells (u v : UserID) (res : ChangeResult) (q : String) (l : ListID) : Prop :=
  res.err = none ∧ (q = u ∧ l ∈ [.myList, .outList] ∨ (v.val ≠ u.val ∧ q = v ∧ l = .inList) ∨
    res.oldOwner ≠ "" ∧ q = res.oldOwner ∧ l ∈ [.inList, .myList])

/-- The lists `handleAccept` refreshes. -/
def AcceptResult.tells (u : UserID) (res : AcceptResult) (q : String) (l : ListID) : Prop :=
  res.outErr = none ∧ (q = u ∧ l ∈ [.myList, .inList] ∨ q = res.foreignUserID ∧ l = .outList)

/-- The lists `handleBump` refreshes. -/
def BumpResult.tells (res : BumpResult) (q : String) (l : ListID) : Prop :=
  res.outErr = none ∧ res.receiver ≠ "" ∧ q = res.receiver ∧ l = .inList

/-! ## The operations -/

namespace ListManager

variable {E : Env} {w w' : World} {u : UserID} {id : String}

section drop
variable {l : ListID} {r : IssueRef} {n : Nat}

/-- Writes about a todo and its counterpart that append nothing. -/
theorem drop_upheld (h : w.Sound) (hp : w.board.Paired) (hr : r ∈ w.board.refs u l) :
    Upheld (World.Within w (w.board.Sides u l r)) (fun id => id = r.issueID ∨ id = r.foreignIssueID)
      (fun _ _ => False) :=
  sides_upheld h hp hr (fun _ _ => id) fun _ _ h => h.elim

/-- Once its record is dropped, the counterpart's list looks different. -/
theorem dropped_differs (h : w.Sound) (hp : w.board.Paired) {v : UserID} {m : ListID} (hm : r.mirror u ∈ w.board.refs v m)
    (fl : ListID) :
    ¬ w.board.SameView ((((w.unlist u r.issueID l).dropIssue r.issueID).unlist r.foreignUserID r.foreignIssueID
      fl).dropIssue r.foreignIssueID).board v m := by
  obtain ⟨j, hj⟩ := hp.recorded v m _ hm
  have hs := ((h.unlist u r.issueID l).dropIssue r.issueID).unlist r.foreignUserID r.foreignIssueID fl
  exact Board.not_sameView_of_gone hm hj ((hs.issue_dropIssue r.foreignIssueID r.foreignIssueID).trans (if_pos rfl))

/-- **A completion is told of to everyone concerned, unless it is the sender's**: the receiver is not told then. -/
theorem completeIssue_told (h : w.Sound) (hp : w.board.Paired) {res : CompleteResult}
    (hrun : (completeIssue u id).run (serve E) w = (some res, w')) :
    w.Told w' (res.tells u) ↔ id ∉ ids (w.board.refs u .outList) := by
  rcases w.locate_cases u id with ⟨l, r, n, hl, hr, rfl⟩ | ⟨hl, hno⟩
  · have hw := (completeIssue_leaves (drop_upheld h hp hr) (.refl h) hl (.inl rfl) (.inr rfl)).of_run hrun
    by_cases hf : r.foreignUserID = ""
    · obtain ⟨rfl, -⟩ := hp.own hr hf
      cases (completeIssue_own E h hl hf).symm.trans hrun
      refine iff_of_true (hw.told ?_) fun hout => by cases (hp.toApart.place hr hout).2
      rintro q m (⟨rfl, rfl⟩ | ⟨hq, -⟩)
      · exact ⟨rfl, .inl ⟨rfl, rfl⟩⟩
      · exact absurd (hq.symm.trans hf) q.val_ne_empty
    · cases (completeIssue_shared E h hl hf).symm.trans hrun
      by_cases hlo : l = .outList
      · subst hlo
        obtain ⟨v, m, hv, hlm, hm⟩ := hp.other hr hf
        have hmo : m ≠ .outList := hlm.1 rfl
        refine iff_of_false (fun htold => ?_) fun hout => hout (List.mem_map.2 ⟨r, hr, rfl⟩)
        obtain ⟨-, ⟨-, he⟩ | ⟨-, -, he⟩⟩ := htold v m (dropped_differs h hp hm .outList)
        · exact hmo he
        · exact hmo he
      · refine iff_of_true (hw.told ?_) fun hout => hlo (hp.toApart.place hr hout).2.symm
        rintro q m (⟨rfl, rfl⟩ | ⟨hq, hlm, -⟩)
        · exact ⟨rfl, .inl ⟨rfl, rfl⟩⟩
        · exact ⟨rfl, .inr ⟨hf, hq.symm, Classical.byContradiction fun hmo => hlo (hlm.2 hmo)⟩⟩
  · cases (completeIssue_absent E h hl).symm.trans hrun
    exact iff_of_true (w.told_self _) (hno .outList)

/-- **A removal is told of to everyone concerned, unless it is of a todo its receiver has accepted**: the receiver is told
of their In list then. -/
theorem removeIssue_told (h : w.Sound) (hp : w.board.Paired) {res : RemoveResult}
    (hrun : (removeIssue u id).run (serve E) w = (some res, w')) :
    w.Told w' (res.tells u) ↔ ∀ r ∈ w.board.refs u .outList, r.issueID = id → ∀ v : UserID, r.foreignUserID = v →
      r.foreignIssueID ∉ ids (w.board.refs v .myList) := by
  rcases w.locate_cases u id with ⟨l, r, n, hl, hr, rfl⟩ | ⟨hl, hno⟩
  · have hw := (removeIssue_leaves (drop_upheld h hp hr) (.refl h) hl (.inl rfl) (.inr rfl)).of_run hrun
    by_cases hf : r.foreignUserID = ""
    · obtain ⟨rfl, -⟩ := hp.own hr hf
      cases (removeIssue_own E h hl hf).symm.trans hrun
      refine iff_of_true (hw.told ?_) fun s hs he => by cases (hp.one hr hs he.symm).2
      rintro q m (⟨rfl, rfl⟩ | ⟨hq, -⟩)
      · exact ⟨rfl, .inl ⟨rfl, rfl⟩⟩
      · exact absurd (hq.symm.trans hf) q.val_ne_empty
    · obtain ⟨v, m, hv, hlm, hm⟩ := hp.other hr hf
      obtain ⟨k, hk⟩ := locate_dropped h hp hr hlm hm
      cases (removeIssue_shared E h hl hf (hv ▸ hk)).symm.trans hrun
      have htold : ∀ i, (if decide (m = ListID.outList) then ListID.outList else .inList) = m →
          w.Told _ (RemoveResult.tells u ⟨i, r.foreignUserID, decide (m = .outList), l, none⟩) := fun i hlist => by
        refine hw.told ?_
        rintro q m' (⟨rfl, rfl⟩ | ⟨hq, -, hm'⟩)
        · exact ⟨rfl, .inl ⟨rfl, rfl⟩⟩
        · obtain ⟨rfl, rfl⟩ := hp.one hm hm' rfl
          exact ⟨rfl, .inr ⟨hf, hq.symm, hlist.symm⟩⟩
      by_cases hlo : l = .outList
      · subst hlo
        cases m with
        | outList => exact absurd rfl (hlm.1 rfl)
        | inList =>
          apply iff_of_true (htold _ (by simp))
          intro s hs he t ht hmy
          obtain rfl := (hp.eq hs hr he).2.2
          obtain rfl : t = v := UserID.ext_val (ht.symm.trans hv)
          cases (hp.toApart.place hm hmy).2
        | myList =>
          refine iff_of_false (fun htold => ?_) fun hall => hall r hr rfl v hv (List.mem_map.2 ⟨_, hm, rfl⟩)
          obtain ⟨-, ⟨-, he⟩ | ⟨-, -, he⟩⟩ := htold v .myList (dropped_differs h hp hm .myList)
          · cases he
          · simp at he
      · obtain rfl : m = .outList := Classical.byContradiction fun hmo => hlo (hlm.2 hmo)
        exact iff_of_true (htold _ (by simp)) fun s hs he => absurd (hp.one hr hs he.symm).2 hlo
  · cases (removeIssue_absent E h hl).symm.trans hrun
    exact iff_of_true (w.told_self _) fun s hs he => absurd (List.mem_map.2 ⟨s, hs, he⟩) (hno .outList)

theorem popIssue_told (h : w.Sound) (hp : w.board.Paired) {res : PopResult}
    (hrun : (popIssue u).run (serve E) w = (some res, w')) : w.Told w' (res.tells u) := by
  cases hl : w.list (listKey u .myList) with
  | nil =>
    cases (popIssue_empty E h hl).symm.trans hrun
    exact w.told_self _
  | cons r rest =>
    have hr : r ∈ w.board.refs u .myList := by
      rw [Board.refs, World.board_list, hl]
      exact List.mem_cons_self
    have hhead : ∀ s ∈ (w.list (listKey u .myList)).head?, (s.issueID = r.issueID ∨ s.issueID = r.foreignIssueID) ∧
        (s.foreignIssueID = r.issueID ∨ s.foreignIssueID = r.foreignIssueID) := by
      rw [hl]
      rintro s ⟨⟩
      exact ⟨.inl rfl, .inr rfl⟩
    have hw := (popIssue_leaves (drop_upheld h hp hr) (.refl h) hhead).of_run hrun
    by_cases hf : r.foreignUserID = ""
    · cases (popIssue_own E h hl hf).symm.trans hrun
      refine hw.told ?_
      rintro q m (⟨rfl, rfl⟩ | ⟨hq, -⟩)
      · exact ⟨rfl, .inr ⟨rfl, rfl⟩⟩
      · exact absurd (hq.symm.trans hf) q.val_ne_empty
    · cases (popIssue_shared E h hl hf).symm.trans hrun
      refine hw.told ?_
      rintro q m (⟨rfl, rfl⟩ | ⟨hq, hlm, -⟩)
      · exact ⟨rfl, .inr ⟨rfl, rfl⟩⟩
      · exact ⟨rfl, .inl ⟨hf, hq.symm, Classical.byContradiction fun hmo => by cases hlm.2 hmo⟩⟩

end drop

/-! ## Accepting, bumping and editing -/

theorem acceptIssue_told (h : w.Sound) (hp : w.board.Paired) {res : AcceptResult}
    (hrun : (acceptIssue u id).run (serve E) w = (some res, w')) : w.Told w' (res.tells u) := by
  cases href : w.refOf u id .inList with
  | error e =>
    obtain ⟨err, hrun'⟩ := acceptIssue_absent E h href
    cases hrun'.symm.trans hrun
    exact w.told_self _
  | ok p =>
    obtain ⟨hr, rfl⟩ := World.refOf_ok (r := p.1) (n := p.2) href
    have hr' : p.1 ∈ w.board.refs u .inList := hr
    obtain ⟨i, hi⟩ := hp.recorded u .inList p.1 hr'
    have hmy : p.1.issueID ∉ ids (w.list (listKey u .myList)) := fun hm => by
      cases (hp.toApart.place hr' hm).2
    have hkey : listKey u .inList ≠ listKey u .myList := listKey_ne (by decide)
    have hU : Upheld (World.Within w fun q m => q = u ∧ m ∈ [.myList, .inList]) (fun id => id = p.1.issueID)
        (fun s m => s = u.val ∧ m = .myList) := by
      refine World.shown_upheld w ?_ ?_
      · rintro _ rfl q m hq
        obtain ⟨rfl, rfl⟩ := hp.toApart.place hr' hq
        exact ⟨rfl, by decide⟩
      · rintro _ _ ⟨rfl, rfl⟩
        exact ⟨u, rfl, rfl, by decide⟩
    have hw := (acceptIssue_leaves (r := p.1) (n := p.2) hU (.refl h) href rfl ⟨rfl, rfl⟩).of_run hrun
    cases (acceptIssue_run E h hi (r := p.1) (n := p.2) href hmy hkey).symm.trans hrun
    refine hw.told ?_
    rintro q m ⟨rfl, hm⟩
    exact ⟨rfl, .inl ⟨rfl, hm⟩⟩

theorem bumpIssue_told (h : w.Sound) (hp : w.board.Paired) {res : BumpResult}
    (hrun : (bumpIssue u id).run (serve E) w = (some res, w')) : w.Told w' res.tells := by
  cases href : w.refOf u id .outList with
  | error e =>
    cases (bumpIssue_absent E h.toListed href).symm.trans hrun
    exact w.told_self _
  | ok p =>
    obtain ⟨hr, -⟩ := World.refOf_ok (r := p.1) (n := p.2) href
    obtain ⟨v, l, hv, -, hm⟩ := hp.out (u := u) (r := p.1) hr
    obtain ⟨j, hj⟩ := hp.recorded v l _ hm
    rcases bumpIssue_run E h (r := p.1) (n := p.2) href with ⟨err, hrun'⟩ | ⟨newList, hperm, hrun'⟩
    · cases hrun'.symm.trans hrun
      exact w.told_self _
    · cases hrun'.symm.trans hrun
      have hbumped : bumped w p.1 = ⟨some j, v, p.1.foreignIssueID, none⟩ := by
        rw [bumped, show w.issue p.1.foreignIssueID = some j from hj, hv]
      intro q m hne
      rw [hbumped, hv] at *
      by_cases hqm : q = v ∧ m = .inList
      · exact ⟨rfl, v.val_ne_empty, congrArg UserID.val hqm.1, hqm.2⟩
      · refine (hne ⟨?_, fun r _ => by rw [World.board_put_list]; rfl⟩).elim
        rw [World.board_put_list, Board.refs_setList, if_neg hqm]

theorem editIssue_told (h : w.Sound) (hp : w.board.Paired) {m d : String} {res : EditResult}
    (hrun : (editIssue u id m d).run (serve E) w = (some res, w')) : w.Told w' (res.tells u) := by
  rcases w.locate_cases u id with ⟨l, r, n, hl, hr, rfl⟩ | ⟨hl, -⟩
  · have hw := (editIssue_leaves (drop_upheld h hp hr) (.refl h) m d hl (.inl rfl) (.inr rfl)).of_run hrun
    obtain ⟨i, hi⟩ := hp.recorded u l r hr
    obtain ⟨old, hrun'⟩ := editIssue_run E h m d hi hl
    cases hrun'.symm.trans hrun
    refine hw.told ?_
    rintro q m' (⟨rfl, rfl⟩ | ⟨hq, hlm, -⟩)
    · exact ⟨rfl, .inl ⟨rfl, rfl⟩⟩
    · refine ⟨rfl, .inr ⟨hq ▸ q.val_ne_empty, hq.symm, ?_⟩⟩
      by_cases hlo : l = .outList
      · subst hlo
        rw [if_pos rfl]
        exact (List.Perm.swap ..).subset (ListID.mem_of_ne_out (hlm.1 rfl))
      · obtain rfl : m' = .outList := Classical.byContradiction fun hmo => hlo (hlm.2 hmo)
        simp [hlo]
  · obtain ⟨err, hrun'⟩ := editIssue_absent E h m d hl
    cases hrun'.symm.trans hrun
    exact w.told_self _

/-! ## Adding, sending and assigning -/

/-- Where new todos go, others' lists stay. -/
theorem new_upheld (hp : w.board.Paired) (hf : w.Fresh E) {T : UserID → ListID → Prop} {into : String → ListID → Prop}
    (hinto : ∀ s l, into s l → ∃ u : UserID, s = u ∧ T u l) :
    Upheld (World.Within w T) (fun id => ∃ n, w.drawn ≤ n ∧ id = E.newId n) into := by
  refine World.shown_upheld w ?_ hinto
  rintro _ ⟨n, hn, rfl⟩ u l hmem
  exact absurd hmem (hp.recorded.absent (hf n hn) u l)

theorem addIssue_told (h : w.Sound) (hp : w.board.Paired) (hf : w.Fresh E) {m p d q : String} {res : Except String Issue}
    (hrun : (addIssue u m p d q).run (serve E) w = (some res, w')) : w.Told w' fun q l => q = u ∧ l = .myList := by
  have hU : Upheld (World.Within w fun q l => q = u ∧ l = .myList) _ (fun s l => s = u.val ∧ l = .myList) :=
    new_upheld (E := E) hp hf fun _ _ hs => ⟨u, hs.1, rfl, hs.2⟩
  have hw := (addIssue_leaves hU (.refl h) ⟨_, Nat.le_refl _, rfl⟩ ⟨rfl, rfl⟩ m p d q).of_run hrun
  exact hw.told fun _ _ hq => ⟨congrArg UserID.val hq.1, hq.2⟩

theorem sendIssue_told (h : w.Sound) (hp : w.board.Paired) (hf : w.Fresh E) {v : UserID} {m p d q : String}
    {res : Except String String} (hrun : (sendIssue u v m p d q).run (serve E) w = (some res, w')) :
    w.Told w' fun q l => q = u ∧ l = .outList ∨ q = v ∧ l = .inList := by
  have hU : Upheld (World.Within w fun q l => q = u ∧ l = .outList ∨ q = v ∧ l = .inList)
      (fun id => ∃ n, w.drawn ≤ n ∧ id = E.newId n)
      (fun s l => s = u.val ∧ l = .outList ∨ s = v.val ∧ l = .inList) := by
    refine new_upheld (E := E) hp hf ?_
    rintro _ _ (⟨rfl, hl⟩ | ⟨rfl, hl⟩)
    · exact ⟨u, rfl, .inl ⟨rfl, hl⟩⟩
    · exact ⟨v, rfl, .inr ⟨rfl, hl⟩⟩
  have hw := (sendIssue_leaves hU (.refl h) (fun n hn => ⟨n, hn, rfl⟩) (.inl ⟨rfl, rfl⟩) (.inr ⟨rfl, rfl⟩) m p d q).of_run
    hrun
  exact hw.told fun _ _ hq => hq.imp (fun hq => ⟨congrArg UserID.val hq.1, hq.2⟩) fun hq =>
    ⟨congrArg UserID.val hq.1, hq.2⟩

/-- A todo of one's own assigned to oneself is put in both lists, and the In list is not told. -/
theorem changeAssignment_self (h : w.Sound) (hp : w.board.Paired) (hf : w.Fresh E) {r : IssueRef}
    (hr : r ∈ w.board.refs u .myList) (hown : r.foreignUserID = "") {res : ChangeResult}
    (hrun : (changeAssignment r.issueID u u).run (serve E) w = (some res, w')) : ¬ w.Told w' (res.tells u u) := by
  obtain ⟨i, hi⟩ := hp.recorded u .myList r hr
  obtain ⟨n, hl⟩ := h.locate_of_apart hp.toApart hr
  have hfi := (hp.own hr hown).2
  have hnew := hp.recorded.absent (hf w.drawn (Nat.le_refl _))
  have hout : r.issueID ∉ ids (w.board.refs u .outList) := fun hm => by cases (hp.toApart.place hr hm).2
  obtain ⟨j, w₁, hrun', hj, -, -, -, hb⟩ := assign_board E h u i "" (h.issue_id hi) hout (hnew u .inList)
  have hassign : (changeAssignment r.issueID u u).run (serve E) w = (some ⟨some i, "", none⟩, w₁) := by
    rw [changeAssignment_own E h u hi hl (by simp [hfi]) hown, reassign, if_neg (by simp), if_neg (by simp), hown]
    exact hrun'
  cases hassign.symm.trans hrun
  intro htold
  obtain ⟨-, ⟨-, he⟩ | ⟨he, -⟩ | ⟨he, -⟩⟩ := htold u .inList fun hsame => by
    have hin : (⟨j.id, r.issueID, u⟩ : IssueRef) ∈ w'.board.refs u .inList := by
      rw [hb]
      exact Board.mem_refs_append.2 (.inr ⟨rfl, rfl, rfl⟩)
    rw [hsame.1] at hin
    exact hnew u .inList (hj ▸ List.mem_map.2 ⟨_, hin, rfl⟩)
  · simp at he
  · exact he rfl
  · exact he rfl

/-- **A change of assignment is told of to everyone concerned, unless it is of an own todo to oneself.** -/
theorem changeAssignment_told (h : w.Sound) (hp : w.board.Paired) (hf : w.Fresh E) {v : UserID} {res : ChangeResult}
    (hrun : (changeAssignment id u v).run (serve E) w = (some res, w')) :
    w.Told w' (res.tells u v) ↔ (u = v → ∀ r ∈ w.board.refs u .myList, r.issueID = id → r.foreignUserID ≠ "") := by
  rcases w.locate_cases u id with ⟨l, r, n, hl, hr, rfl⟩ | ⟨hl, hno⟩
  · have hr' : r ∈ w.board.refs u l := hr
    obtain ⟨i, hi⟩ := hp.recorded u l r hr
    have hU : Upheld (World.Within w fun q m => w.board.Sides u l r q m ∨ (q = u ∧ m ≠ .inList) ∨
        (q = v ∧ m = .inList ∧ ¬ (u = v ∧ l = .outList)))
        (fun id => (id = r.issueID ∨ id = r.foreignIssueID) ∨ id = E.newId w.drawn)
        (fun s m => (s = u.val ∧ m ≠ .inList) ∨ (s = v.val ∧ m = .inList ∧ ¬ (u = v ∧ l = .outList))) := by
      refine World.shown_upheld w ?_ ?_
      · rintro id (hid | rfl) q m hq
        · exact .inl (sides_of_mem h hp hr' hid q m hq)
        · exact absurd hq (hp.recorded.absent (hf _ (Nat.le_refl _)) q m)
      · rintro _ m (⟨rfl, hm⟩ | ⟨rfl, hm⟩)
        · exact ⟨u, rfl, .inr (.inl ⟨rfl, hm⟩)⟩
        · exact ⟨v, rfl, .inr (.inr ⟨rfl, hm⟩)⟩
    have hw := (changeAssignment_leaves hU (.refl h) v hl (.inl (.inl rfl)) (.inl (.inr rfl)) (.inr rfl)
      (fun m hm => .inl ⟨rfl, hm⟩) fun hback => .inr ⟨rfl, rfl, fun hc => hback ⟨congrArg UserID.val hc.1, hc.2⟩⟩).of_run
      hrun
    by_cases hown : r.foreignUserID = ""
    · obtain ⟨rfl, -⟩ := hp.own hr' hown
      by_cases huv : u = v
      · subst huv
        exact iff_of_false (changeAssignment_self h hp hf hr' hown hrun) fun hall => hall rfl r hr' rfl hown
      · obtain ⟨_, hrun', -⟩ := changeAssignment_own_moves E h hp hf huv hr' hown hi hl
        cases hrun'.symm.trans hrun
        refine iff_of_true (hw.told ?_) fun he => absurd he huv
        rintro q m ((⟨rfl, rfl⟩ | ⟨hq, -⟩) | ⟨rfl, hm⟩ | ⟨rfl, rfl, -⟩)
        · exact ⟨rfl, .inl ⟨rfl, by simp⟩⟩
        · exact absurd (hq.symm.trans hown) q.val_ne_empty
        · exact ⟨rfl, .inl ⟨rfl, ListID.mem_of_ne_in hm⟩⟩
        · exact ⟨rfl, .inr (.inl ⟨fun he => huv (UserID.ext_val he.symm), rfl, rfl⟩)⟩
    · obtain ⟨t, m, ht, hlm, hm⟩ := hp.other hr' hown
      by_cases hlo : l = .outList
      · subst hlo
        have heta : r = ⟨r.issueID, r.foreignIssueID, t⟩ := by rw [← ht]
        obtain ⟨_, hrun', -⟩ := changeAssignment_pair_moves E h hp hf (t := v) (hlm.1 rfl) (heta ▸ hr') hm hi (heta ▸ hl)
        cases hrun'.symm.trans hrun
        refine iff_of_true (hw.told ?_) fun _ s hs he => by cases (hp.one hr' hs he.symm).2
        rintro q m' ((⟨rfl, rfl⟩ | ⟨hq, hlm', -⟩) | ⟨rfl, hm'⟩ | ⟨rfl, rfl, hback⟩)
        · exact ⟨rfl, .inl ⟨rfl, by simp⟩⟩
        · exact ⟨rfl, .inr (.inr ⟨t.val_ne_empty, hq.symm.trans ht, ListID.mem_of_ne_out (hlm'.1 rfl)⟩)⟩
        · exact ⟨rfl, .inl ⟨rfl, ListID.mem_of_ne_in hm'⟩⟩
        · exact ⟨rfl, .inr (.inl ⟨fun he => hback ⟨UserID.ext_val he.symm, rfl⟩, rfl, rfl⟩)⟩
      · -- received or accepted: refused
        obtain ⟨err, hrun'⟩ := changeAssignment_foreign E h v hi hl (h.foreign hp hr' hown hlo)
        cases hrun'.symm.trans hrun
        apply iff_of_true (w.told_self _)
        intro _ s hs he
        rw [(hp.eq hs hr' he).2.2]
        exact hown
  · obtain ⟨err, hrun'⟩ := changeAssignment_absent E h v hl
    cases hrun'.symm.trans hrun
    exact iff_of_true (w.told_self _) fun _ s hs he => absurd (List.mem_map.2 ⟨s, hs, he⟩) (hno .myList)

end ListManager
end Todo

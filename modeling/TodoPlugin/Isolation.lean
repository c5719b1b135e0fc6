import TodoPlugin.Upkeep
/-!
# What an operation leaves alone

`Frame S b b'`: outside the issues `S`, the records are the same and every list has the same references in the same
order.  An operation on an issue leaves alone everything but the issue, the one its reference names on the other side,
and the one it makes, whether it succeeds or fails; on an issue the user has no reference to it changes nothing.
-/
namespace Todo

open Store (ids without)

/-- The references of a list to issues not in `S`. -/
def outside (S : List String) (list : List IssueRef) : List IssueRef :=
  list.filter (fun r => decide (r.issueID ∉ S))

/-- **Nothing outside `S` changed.** -/
structure Frame (S : List String) (b b' : Board) : Prop where
  issue : ∀ id, id ∉ S → b'.issue id = b.issue id
  list  : ∀ key, outside S (b'.list key) = outside S (b.list key)

section frame
variable {S : List String} {b b' : Board}

theorem outside_without {id : String} (hid : id ∈ S) (list : List IssueRef) :
    outside S (without id list) = outside S list := by
  rw [outside, without, List.filter_filter, outside]
  apply List.filter_congr
  intro r _
  by_cases h : r.issueID ∈ S
  · simp [h]
  · simp [h, show r.issueID ≠ id from fun he => h (he ▸ hid)]

theorem outside_append {ref : IssueRef} (hid : ref.issueID ∈ S) (list : List IssueRef) :
    outside S (list ++ [ref]) = outside S list := by
  simp [outside, hid]

theorem Frame.refl (S : List String) (b : Board) : Frame S b b := ⟨fun _ _ => rfl, fun _ => rfl⟩

theorem Frame.setList (h : Frame S b b') (key : String) {list : List IssueRef}
    (hl : outside S list = outside S (b'.list key)) : Frame S b (b'.setList key list) where
  issue := h.issue
  list k := by
    rw [Board.setList_list]
    split
    · rename_i hk
      rw [hl, ← hk]
      exact h.list k
    · exact h.list k

theorem Frame.setIssue (h : Frame S b b') {id : String} (hid : id ∈ S) (o : Option Issue) :
    Frame S b (b'.setIssue id o) where
  issue k hk := by
    have hne : k ≠ id := fun he => hk (he ▸ hid)
    rw [Board.setIssue_issue, if_neg hne]
    exact h.issue k hk
  list := h.list

theorem Frame.mem (h : Frame S b b') {key : String} {r : IssueRef} (hr : r.issueID ∉ S) :
    r ∈ b'.list key ↔ r ∈ b.list key := by
  have hmem : ∀ list : List IssueRef, r ∈ list ↔ r ∈ outside S list := fun list => by simp [outside, hr]
  rw [hmem, h.list, ← hmem]

theorem Frame.trans {b'' : Board} (h : Frame S b b') (h' : Frame S b' b'') : Frame S b b'' :=
  ⟨fun id hid => (h'.issue id hid).trans (h.issue id hid), fun key => (h'.list key).trans (h.list key)⟩

theorem Frame.mono {S' : List String} (h : Frame S b b') (hS : S ⊆ S') : Frame S' b b' where
  issue id hid := h.issue id fun hm => hid (hS hm)
  list key := by
    have hout : ∀ list, outside S' (outside S list) = outside S' list := fun list => by
      rw [outside, outside, List.filter_filter, outside]
      apply List.filter_congr
      intro r _
      by_cases hr : r.issueID ∈ S
      · simp [hr, hS hr]
      · simp [hr]
    rw [← hout, h.list, hout]

/-- Where nothing refers to `S`, what is left has its records still. -/
theorem Frame.recorded (h : Frame S b b') (hb : b.Recorded) (habs : ∀ id ∈ S, b'.Absent id) : b'.Recorded :=
  fun u l r hr => by
    have hout : r.issueID ∉ S := fun hm => habs _ hm u l (List.mem_map.2 ⟨r, hr, rfl⟩)
    obtain ⟨i, hi⟩ := hb u l r ((h.mem hout).1 hr)
    exact ⟨i, (h.issue _ hout).trans hi⟩

end frame

/-! ## Kept stores -/

/-- A sound store that differs from `w₀` in `S` alone. -/
structure World.Kept (S : List String) (w₀ w : World) : Prop where
  sound : w.Sound
  frame : Frame S w₀.board w.board

/-- Writing in `S` keeps a store kept. -/
theorem World.kept_upheld (S : List String) (w₀ : World) :
    Upheld (World.Kept S w₀) (fun id => id ∈ S) (fun _ _ => True) where
  sound h := h.sound
  unlist h hid u l := by
    refine ⟨h.sound.unlist u _ l, ?_⟩
    rw [board_unlist]
    exact h.frame.setList _ (outside_without hid _)
  append h hid _ hnew := by
    refine ⟨h.sound.append hnew, ?_⟩
    rw [board_append]
    exact h.frame.setList _ (outside_append hid _)
  delete h hid := by
    refine ⟨h.sound.delete_issue _, ?_⟩
    rw [h.sound.board_delete_issue]
    exact h.frame.setIssue hid _
  save h hid hne := by
    refine ⟨h.sound.save hne, ?_⟩
    rw [h.sound.board_save]
    exact h.frame.setIssue hid _
  draw h := ⟨h.sound.draw, h.frame⟩

/-! ## Every operation -/

/-- The user and the issue of an operation, and the lists it searches for the reference, in that order. -/
def ListOp.search : ListOp → Option (UserID × String × List ListID)
  | .completeIssue u id      => some (u, id, [.myList, .outList, .inList])
  | .editIssue u id _ _      => some (u, id, [.myList, .outList, .inList])
  | .changeAssignment id u _ => some (u, id, [.myList, .outList, .inList])
  | .removeIssue u id        => some (u, id, [.myList, .outList, .inList])
  | .acceptIssue u id        => some (u, id, [.inList])
  | .bumpIssue u id          => some (u, id, [.outList])
  | _                        => none

/-- The first reference of a user to an issue in some lists. -/
def Board.reference (b : Board) (u : UserID) (id : String) (lists : List ListID) : Option IssueRef :=
  lists.findSome? (fun l => (b.refs u l).find? (fun r => decide (r.issueID = id)))

/-- The error an operation returned. -/
def ListResult.err : ListResult → Option String
  | .added (.ok _)    => none
  | .added (.error e) => some e
  | .sent (.ok _)     => none
  | .sent (.error e)  => some e
  | .completed r      => r.err
  | .edited r         => r.err
  | .changed r        => r.err
  | .accepted r       => r.outErr
  | .removed r        => r.err
  | .popped r         => r.err
  | .bumped r         => r.outErr

namespace World

variable {w : World} {u : UserID} {id : String}

theorem refOf_eq (w : World) (u : UserID) (id : String) (l : ListID) :
    (w.refOf u id l).toOption.map Prod.fst = (w.board.refs u l).find? (fun r => decide (r.issueID = id)) := by
  unfold refOf Store.lookupRef
  rw [Store.findRef_eq, Board.refs, board_list]
  split
  · rename_i hk
    rw [World.list, hk]
    rfl
  · cases (w.list (listKey u l)).find? (fun r => decide (r.issueID = id)) <;> rfl

/-- **The search of the three lists finds the first reference.** -/
theorem locate_eq (w : World) (u : UserID) (id : String) :
    (w.locate u id).2.1 = w.board.reference u id [.myList, .outList, .inList] := by
  unfold Board.reference locate
  simp only [List.findSome?_cons, List.findSome?_nil, ← refOf_eq]
  cases w.refOf u id .myList with
  | ok p => rfl
  | error e =>
    cases w.refOf u id .outList with
    | ok p => rfl
    | error e' => cases w.refOf u id .inList <;> rfl

end World

/-- **An operation on an issue the user has no reference to** fails and changes nothing. -/
theorem ListOp.absent (E : Env) {w : World} (h : w.Sound) {op : ListOp} {u : UserID} {id : String}
    {lists : List ListID} (hs : op.search = some (u, id, lists)) (hnone : w.board.reference u id lists = none) :
    ∃ r, op.exec.run (serve E) w = (some r, w) ∧ r.err ≠ none := by
  have hloc : lists = [.myList, .outList, .inList] → ∃ l n, w.locate u id = (l, none, n) := by
    rintro rfl
    rw [← World.locate_eq] at hnone
    exact ⟨_, _, by rw [← hnone]⟩
  have href : ∀ l, lists = [l] → ∃ e, w.refOf u id l = .error e := by
    rintro l rfl
    apply World.refOf_of_not_mem
    intro hm
    obtain ⟨r, hr, he⟩ := List.mem_map.1 hm
    simp only [Board.reference, List.findSome?_cons, List.findSome?_nil] at hnone
    split at hnone
    · cases hnone
    · rename_i hf
      exact absurd he (by simpa using List.find?_eq_none.1 hf r hr)
  cases op with
  | completeIssue u' id' =>
    cases hs
    obtain ⟨l, n, hl⟩ := hloc rfl
    exact ⟨_, run_tagged _ (ListManager.completeIssue_absent E h hl), nofun⟩
  | editIssue u' id' m d =>
    cases hs
    obtain ⟨l, n, hl⟩ := hloc rfl
    obtain ⟨err, hrun⟩ := ListManager.editIssue_absent E h m d hl
    exact ⟨_, run_tagged _ hrun, nofun⟩
  | changeAssignment id' u' v =>
    cases hs
    obtain ⟨l, n, hl⟩ := hloc rfl
    obtain ⟨err, hrun⟩ := ListManager.changeAssignment_absent E h v hl
    exact ⟨_, run_tagged _ hrun, nofun⟩
  | removeIssue u' id' =>
    cases hs
    obtain ⟨l, n, hl⟩ := hloc rfl
    exact ⟨_, run_tagged _ (ListManager.removeIssue_absent E h hl), nofun⟩
  | acceptIssue u' id' =>
    cases hs
    obtain ⟨e, hr⟩ := href .inList rfl
    obtain ⟨err, hrun⟩ := ListManager.acceptIssue_absent E h hr
    exact ⟨_, run_tagged _ hrun, nofun⟩
  | bumpIssue u' id' =>
    cases hs
    obtain ⟨e, hr⟩ := href .outList rfl
    exact ⟨_, run_tagged _ (ListManager.bumpIssue_absent E h.toListed hr), nofun⟩
  | addIssue | sendIssue | popIssue => cases hs

/-- **An operation on an issue of the user** changes nothing but the issue, its other side and the one it may make. -/
theorem ListOp.frame (E : Env) {w : World} (h : w.Sound) {op : ListOp} {u : UserID} {id : String}
    {lists : List ListID} {r : IssueRef} (hs : op.search = some (u, id, lists))
    (hr : w.board.reference u id lists = some r) (hb : op ≠ .bumpIssue u id) :
    ∃ res w', op.exec.run (serve E) w = (some res, w') ∧
      Frame [id, r.foreignIssueID, E.newId w.drawn] w.board w'.board := by
  have hU := World.kept_upheld [id, r.foreignIssueID, E.newId w.drawn] w
  have hk : World.Kept [id, r.foreignIssueID, E.newId w.drawn] w w := ⟨h, .refl _ _⟩
  have hid : id ∈ [id, r.foreignIssueID, E.newId w.drawn] := by simp
  have hf : r.foreignIssueID ∈ [id, r.foreignIssueID, E.newId w.drawn] := by simp
  have hnew : E.newId w.drawn ∈ [id, r.foreignIssueID, E.newId w.drawn] := by simp
  have hloc : lists = [.myList, .outList, .inList] → ∃ l n, w.locate u id = (l, some r, n) := by
    rintro rfl
    rw [← World.locate_eq] at hr
    exact ⟨_, _, by rw [← hr]⟩
  have htag : ∀ {α : Type} {p : Api α} (f : α → ListResult),
      Leaves E (World.Kept [id, r.foreignIssueID, E.newId w.drawn] w) p w → ∃ res w',
        (p >>= fun a => pure (f a)).run (serve E) w = (some res, w') ∧
          Frame [id, r.foreignIssueID, E.newId w.drawn] w.board w'.board := by
    rintro α p f ⟨a, w', hrun, hk⟩
    exact ⟨_, w', run_tagged f hrun, hk.frame⟩
  cases op with
  | completeIssue u' id' =>
    cases hs
    obtain ⟨l, n, hl⟩ := hloc rfl
    exact htag _ (ListManager.completeIssue_leaves hU hk hl hid hf)
  | editIssue u' id' m d =>
    cases hs
    obtain ⟨l, n, hl⟩ := hloc rfl
    exact htag _ (ListManager.editIssue_leaves hU hk m d hl hid hf)
  | changeAssignment id' u' v =>
    cases hs
    obtain ⟨l, n, hl⟩ := hloc rfl
    exact htag _ (ListManager.changeAssignment_leaves hU hk v hl hid hf hnew (fun _ _ => trivial) fun _ => trivial)
  | removeIssue u' id' =>
    cases hs
    obtain ⟨l, n, hl⟩ := hloc rfl
    exact htag _ (ListManager.removeIssue_leaves hU hk hl hid hf)
  | acceptIssue u' id' =>
    cases hs
    have href : ∃ n, w.refOf u id .inList = .ok (r, n) := by
      simp only [Board.reference, List.findSome?_cons, List.findSome?_nil, ← World.refOf_eq] at hr
      cases hrun : w.refOf u id .inList with
      | error e =>
        rw [hrun] at hr
        cases hr
      | ok p =>
        rw [hrun] at hr
        cases hr
        exact ⟨p.2, rfl⟩
    obtain ⟨n, hn⟩ := href
    exact htag _ (ListManager.acceptIssue_leaves hU hk hn hid trivial)
  | bumpIssue u' id' =>
    cases hs
    exact absurd rfl hb
  | addIssue | sendIssue | popIssue => cases hs

/-- **Isolation.**  Where the user has no reference to the issue, an operation fails and changes nothing; where the
reference names `y` on the other side, an operation but a bump changes nothing but the issue, `y` and the one it may
make. -/
theorem listOp_isolated (E : Env) {w : World} (h : w.Sound) {op : ListOp} {u : UserID} {id : String}
    {lists : List ListID} (hs : op.search = some (u, id, lists)) :
    (w.board.reference u id lists = none → ∃ r, op.exec.run (serve E) w = (some r, w) ∧ r.err ≠ none) ∧
    ∀ r, w.board.reference u id lists = some r → op ≠ .bumpIssue u id →
      ∃ res w', op.exec.run (serve E) w = (some res, w') ∧
        Frame [id, r.foreignIssueID, E.newId w.drawn] w.board w'.board :=
  ⟨ListOp.absent E h hs, fun _ hr hb => ListOp.frame E h hs hr hb⟩

/-- Bob has no todo `x`, and Ann's removing hers leaves everything but the two records of the pair. -/
theorem removeIssue_isolated_sample :
    (∃ r, (ListOp.removeIssue bob "x").exec.run (serve Env.sample) sentToBob = (some r, sentToBob) ∧ r.err ≠ none) ∧
    ∃ res w', (ListOp.removeIssue ann "x").exec.run (serve Env.sample) sentToBob = (some res, w') ∧
      Frame ["x", "xx", "xxx"] sentToBob.board w'.board :=
  ⟨(@listOp_isolated Env.sample _ sentToBob_settled.sound (.removeIssue bob "x") _ _ _ rfl).1 (by decide),
    (@listOp_isolated Env.sample _ sentToBob_settled.sound (.removeIssue ann "x") _ _ _ rfl).2 ⟨"x", "xx", "bob"⟩ (by decide)
      nofun⟩

end Todo

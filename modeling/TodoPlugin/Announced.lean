import TodoPlugin.Announcing
import TodoPlugin.Changes
import TodoPlugin.Owners
/-!
# Every change is announced

A front-end reloads the lists of a refresh event and no others.  What an input publishes is what the results of its
operation say (`ListOp.Tells`), so every list that looks different after it is announced to its user, but for the three
cases `ListOp.Announced` leaves out (`Input.announces_iff`).
-/
namespace Todo

open Proc (Only)
open Store (ids)

namespace ListOp

/-- The lists refreshed after the operation. -/
def Tells (E : Env) (w : World) (q : String) (l : ListID) : ListOp → Prop
  | .addIssue u _ _ _ _     => q = u ∧ l = .myList
  | .sendIssue u v _ _ _ _  => q = u ∧ l = .outList ∨ q = v ∧ l = .inList
  | .completeIssue u id     => ∃ res w', (ListManager.completeIssue u id).run (serve E) w = (some res, w') ∧ res.tells u q l
  | .editIssue u id m d     => ∃ res w', (ListManager.editIssue u id m d).run (serve E) w = (some res, w') ∧ res.tells u q l
  | .changeAssignment id u v =>
    ∃ res w', (ListManager.changeAssignment id u v).run (serve E) w = (some res, w') ∧ res.tells u v q l
  | .acceptIssue u id       => ∃ res w', (ListManager.acceptIssue u id).run (serve E) w = (some res, w') ∧ res.tells u q l
  | .removeIssue u id       => ∃ res w', (ListManager.removeIssue u id).run (serve E) w = (some res, w') ∧ res.tells u q l
  | .popIssue u             => ∃ res w', (ListManager.popIssue u).run (serve E) w = (some res, w') ∧ res.tells u q l
  | .bumpIssue u id         => ∃ res w', (ListManager.bumpIssue u id).run (serve E) w = (some res, w') ∧ res.tells q l

/-- **When everyone concerned is told**: unless a user completes a todo they sent, removes one that its receiver has
accepted, or assigns a todo of their own to themselves. -/
def Announced (b : Board) : ListOp → Prop
  | .completeIssue u id      => id ∉ ids (b.refs u .outList)
  | .removeIssue u id        => ∀ r ∈ b.refs u .outList, r.issueID = id → ∀ v : UserID, r.foreignUserID = v →
    r.foreignIssueID ∉ ids (b.refs v .myList)
  | .changeAssignment id u v => u = v → ∀ r ∈ b.refs u .myList, r.issueID = id → r.foreignUserID ≠ ""
  | _                        => True

end ListOp

section ops
variable {E : Env} {w w' : World}

theorem exists_run_iff {α : Type} {p : Api α} {a : α} (hrun : p.run (serve E) w = (some a, w')) {P : α → Prop} :
    (∃ b t, p.run (serve E) w = (some b, t) ∧ P b) ↔ P a := by
  refine ⟨?_, fun h => ⟨a, w', hrun, h⟩⟩
  rintro ⟨b, t, hrun', h⟩
  cases hrun.symm.trans hrun'
  exact h

theorem World.told_congr {S S' : String → ListID → Prop} (h : ∀ q l, S q l ↔ S' q l) : w.Told w' S ↔ w.Told w' S' :=
  forall_congr' fun _ => forall_congr' fun _ => imp_congr_right fun _ => h ..

/-- **An operation's results tell everyone concerned exactly when it is announced.** -/
theorem ListOp.told (h : w.Sound) (hp : w.board.Paired) (hf : w.Fresh E) (op : ListOp) :
    w.Told (op.after E w) (fun q l => op.Tells E w q l) ↔ op.Announced w.board := by
  have hafter : ∀ {α : Type} {p : Api α} {a : α} {t : World} (f : α → ListResult), op.exec = p >>= (fun a => pure (f a)) →
      p.run (serve E) w = (some a, t) → op.after E w = t := fun f he hrun => by
    rw [ListOp.after, he, run_tagged f hrun]
  cases op with
  | addIssue u m p d q =>
    obtain ⟨res, w', hrun, -⟩ := ListManager.addIssue_moves E h hp hf (u := u) m p d q
    rw [hafter _ rfl hrun]
    exact iff_of_true (ListManager.addIssue_told h hp hf hrun) trivial
  | sendIssue u v m p d q =>
    obtain ⟨res, w', hrun, -⟩ := ListManager.sendIssue_moves E h hp hf (u := u) v m p d q
    rw [hafter _ rfl hrun]
    exact iff_of_true (ListManager.sendIssue_told h hp hf hrun) trivial
  | completeIssue u id =>
    obtain ⟨res, w', hrun, -⟩ := ListManager.completeIssue_issue E (u := u) h hp id
    rw [hafter _ rfl hrun]
    refine (World.told_congr fun q l => exists_run_iff hrun).trans ?_
    exact ListManager.completeIssue_told h hp hrun
  | editIssue u id m d =>
    obtain ⟨res, w', hrun, -⟩ := @ListManager.editIssue_moves E w u id h hp m d
    rw [hafter _ rfl hrun]
    refine (World.told_congr fun q l => exists_run_iff hrun).trans ?_
    exact iff_of_true (ListManager.editIssue_told h hp hrun) trivial
  | acceptIssue u id =>
    obtain ⟨res, w', hrun, -⟩ := @ListManager.acceptIssue_moves E w u id h hp
    rw [hafter _ rfl hrun]
    refine (World.told_congr fun q l => exists_run_iff hrun).trans ?_
    exact iff_of_true (ListManager.acceptIssue_told h hp hrun) trivial
  | removeIssue u id =>
    obtain ⟨res, w', hrun, -⟩ := @ListManager.removeIssue_moves E w u id h hp
    rw [hafter _ rfl hrun]
    refine (World.told_congr fun q l => exists_run_iff hrun).trans ?_
    exact ListManager.removeIssue_told h hp hrun
  | popIssue u =>
    obtain ⟨res, w', hrun, -⟩ := ListManager.popIssue_moves E (u := u) h hp
    rw [hafter _ rfl hrun]
    refine (World.told_congr fun q l => exists_run_iff hrun).trans ?_
    exact iff_of_true (ListManager.popIssue_told h hp hrun) trivial
  | bumpIssue u id =>
    obtain ⟨res, w', hrun, -⟩ := @ListManager.bumpIssue_moves E w u id h hp
    rw [hafter _ rfl hrun]
    refine (World.told_congr fun q l => exists_run_iff hrun).trans ?_
    exact iff_of_true (ListManager.bumpIssue_told h hp hrun) trivial
  | changeAssignment id u v =>
    obtain ⟨res, w', hrun, -⟩ : Leaves E (World.Deals E (fun _ => v) w) (ListManager.changeAssignment id u v) w :=
      ListManager.changeAssignment_deals h
    rw [hafter _ rfl hrun]
    refine (World.told_congr fun q l => exists_run_iff hrun).trans ?_
    exact ListManager.changeAssignment_told h hp hf hrun

end ops
/-! ## What a procedure publishes -/

/-- What the procedure publishes is what the operation it makes tells, if it makes one. -/
def Tells (E : Env) (w : World) {α : Type} (p : Api α) (o : Option ListOp) : Prop :=
  ∀ x, o = some x → ∀ q l, Publishes E p w q l ↔ x.Tells E w q l

section refresh
variable {E : Env} {w : World} {α β : Type} {q : String} {l : ListID} {X : Prop}

theorem not_publishes_ret (a : α) : ¬ Publishes E (pure a : Api α) w q l := not_publishes (X := True) trivial

/-- A refresh event followed by nothing of the kind. -/
theorem publishes_refresh_last {u : String} {lists : List ListID} {f : Unit → Api β}
    (hf : (f ()).Only Call.Unrefreshing X) :
    Publishes E (sendRefreshEvent u lists >>= f) w q l ↔ q = u ∧ l ∈ lists := by
  rw [publishes_refresh, or_iff_left (not_publishes hf)]

/-- A refresh event for one list. -/
theorem publishes_refresh_one {u : String} {k : ListID} {f : Unit → Api β} :
    Publishes E (sendRefreshEvent u [k] >>= f) w q l ↔
      q = u ∧ l = k ∨ Publishes E (f ()) (w.notify (.refresh u [k])) q l := by
  rw [publishes_refresh, List.mem_singleton]

theorem publishes_refresh_only {u : String} {k : ListID} {f : Unit → Api β} (hf : (f ()).Only Call.Unrefreshing X) :
    Publishes E (sendRefreshEvent u [k] >>= f) w q l ↔ q = u ∧ l = k := by
  rw [publishes_refresh_last hf, List.mem_singleton]

/-- What publishes nothing after a part adds nothing. -/
theorem publishes_before {p : Api α} {f : α → Api β} (hf : ∀ a, (f a).Only Call.Unrefreshing X) :
    Publishes E (p >>= f) w q l ↔ Publishes E p w q l := by
  obtain ⟨rest, hrest, hunrefreshing⟩ := Only.calls_bind (serve E) hf p w
  unfold Publishes
  rw [hrest]
  refine exists_congr fun lists => exists_congr fun s => and_congr_left fun _ => ?_
  have hnot : (Call.publishRefresh q lists, s) ∉ rest := fun hmem => hunrefreshing _ hmem
  rw [List.mem_append, or_iff_left hnot]

theorem unrefreshing_getUserName (userID : String) : (ListManager.getUserName userID).Only Call.Unrefreshing X :=
  unrefreshing_of_answers (answers_of_reads (ListManager.reads_getUserName _))

end refresh

namespace Tells

variable {E : Env} {w : World} {α β : Type} {o : Option ListOp} {X : Prop}

theorem none (p : Api α) : Tells E w p none := fun _ he => by cases he

/-- A part that only reads hands over to what follows it. -/
theorem read {p : Api α} {f : α → Api β} {a : α} (hrun : p.run (serve E) w = (some a, w))
    (hp : p.Only Call.Unrefreshing X) (h : Tells E w (f a) o) : Tells E w (p >>= f) o := fun x hx q l => by
  rw [publishes_bind_of hrun hp]
  exact h x hx q l

theorem lookup (name : String) {f : Except String User → Api β} (h : Tells E w (f (E.userByUsername name)) o) :
    Tells E w (Api.getUserByUsername name >>= f) o := read (X := True) rfl (.request trivial) h

theorem then_unrefreshing {p : Api α} {f : α → Api β} (h : Tells E w p o) (hf : ∀ a, (f a).Only Call.Unrefreshing X) :
    Tells E w (p >>= f) o := fun x hx q l => by
  rw [publishes_before hf]
  exact h x hx q l

theorem recover {p : Api α} (b : α) (h : Tells E w p o) : Tells E w (p.recover b) o := fun x hx q l => by
  rw [publishes_recover]
  exact h x hx q l

/-- The operation itself, and what is published after it. -/
theorem op {p : Api α} {f : α → Api β} {a : α} {w' : World} {x : ListOp} (hrun : p.run (serve E) w = (some a, w'))
    (hp : p.Only Call.Inner X) (h : ∀ q l, Publishes E (f a) w' q l ↔ x.Tells E w q l) :
    Tells E w (p >>= f) (some x) := by
  rintro _ ⟨⟩ q l
  rw [publishes_bind_of hrun (unrefreshing_of_inner hp)]
  exact h q l

theorem payload {body : Body α} {isValid : Option α → Option String} {decodeMsg validMsg : String}
    {handle : α → Api Response} {o : α → Option ListOp} (h : ∀ r, Tells E w (handle r) (o r)) :
    Tells E w (withPayload body isValid decodeMsg validMsg handle) ((body.valid isValid).bind o) := by
  unfold withPayload Body.valid
  cases body with
  | error err => exact none _
  | ok request =>
    simp only
    cases hv : isValid request with
    | some err => exact none _
    | none =>
      cases request with
      | none => exact none _
      | some r => exact h r

end Tells

/-! ## Handlers -/

/-- An assignment that succeeds returns its issue. -/
def ChangeResult.Issued (res : ChangeResult) : Prop := res.err = none → res.issue ≠ none

namespace ListManager

theorem issued_error (err : String) : (pure ⟨none, "", some err⟩ : Api ChangeResult).Returns ChangeResult.Issued :=
  fun he => by cases he

theorem returns_assign (id u v old : String) (i : Issue) : (assign id u v old i).Returns ChangeResult.Issued := by
  apply Proc.Returns.bind
  intro receiverIssue
  apply Proc.Returns.bind
  rintro (err | _)
  · exact issued_error err
  apply Proc.Returns.bind
  rintro (err | _)
  · exact issued_error err
  apply Proc.Returns.bind
  rintro (err | _)
  · exact issued_error err
  · exact fun _ => Option.some_ne_none i

theorem returns_reassign (id u v : String) (l : ListID) (r : IssueRef) (i : Issue) :
    (reassign id u v l r i).Returns ChangeResult.Issued := by
  unfold reassign
  split
  · apply Proc.Returns.bind
    rintro (err | _)
    · exact issued_error err
    apply Proc.Returns.bind
    rintro (err | _)
    · exact issued_error err
    · exact fun _ => Option.some_ne_none i
  · split
    · apply Proc.Returns.bind
      rintro (err | _)
      · exact issued_error err
      · exact returns_assign id u v r.foreignUserID i
    · exact returns_assign id u v r.foreignUserID i

theorem returns_changeAssignment (id u v : String) : (changeAssignment id u v).Returns ChangeResult.Issued := by
  apply Proc.Returns.bind
  rintro (err | issue)
  · exact issued_error err
  apply Proc.Returns.bind
  rintro ⟨l, _ | ir, n⟩
  · exact issued_error _
  simp only
  split
  · exact issued_error _
  split
  · apply Proc.Returns.bind
    rintro ⟨fl, _ | fr, fn⟩
    · exact issued_error _
    apply Proc.Returns.bind
    rintro (err | _)
    · exact issued_error err
    · exact Proc.Returns.bind (fun _ => returns_reassign id u v l ir issue) _
  · exact returns_reassign id u v l ir issue

end ListManager

section handlers
variable {E : Env} {w : World} {u : UserID}

theorem addOwn_tells (h : w.Sound) (hp : w.board.Paired) (hf : w.Fresh E) (name p d q : String) (r : AddAPIRequest) :
    Tells E w (addOwn u name r p d q) (some (.addIssue u r.message p d q)) := by
  have hnew := hp.recorded.absent (hf w.drawn (Nat.le_refl _))
  refine .op (ListManager.addIssue_run E h u r.message p d q (hnew u .myList)) (ListManager.inner_addIssue ..) ?_
  intro v l
  refine publishes_refresh_only (X := True) ?_
  exact .bind (unrefreshing_postReplyIfNeeded ..) fun _ => trivial

theorem addSent_tells (h : w.Sound) (hp : w.board.Paired) (hf : w.Fresh E) (name : String) (receiver : User)
    (r : AddAPIRequest) : Tells E w (addSent u name receiver r)
      (some (.sendIssue u receiver.id r.message r.postPermalink r.description r.postID)) := by
  have hnew := hp.recorded.absent (hf w.drawn (Nat.le_refl _))
  have hnew' := hp.recorded.absent (hf (w.drawn + 1) (Nat.le_succ _))
  have hkey : listKey receiver.id .inList ≠ listKey u .outList := listKey_ne (by decide)
  refine .op (ListManager.sendIssue_run E h u receiver.id r.message r.postPermalink r.description r.postID
    (hnew u .outList) (hnew' receiver.id .inList) hkey) (ListManager.inner_sendIssue ..) ?_
  intro v l
  refine publishes_refresh_one.trans (or_congr_right ?_)
  refine publishes_refresh_only (X := True) ?_
  exact .bind (unrefreshing_postBotCustomDM ..) fun _ => .bind (unrefreshing_postReplyIfNeeded ..) fun _ => trivial

theorem handleEdit_tells (h : w.Sound) (hp : w.board.Paired) (body : Body EditAPIRequest) :
    Tells E w (handleEdit u body) ((Request.edit body).op E w u) := by
  refine .payload fun r => ?_
  obtain ⟨res, w', hrun, -⟩ := @ListManager.editIssue_moves E w u r.id h hp r.message r.description
  refine .op hrun (ListManager.inner_editIssue ..) fun q l => ?_
  refine Iff.trans ?_ (exists_run_iff hrun).symm
  unfold EditResult.tells
  cases res.err with
  | some err => exact iff_of_false (not_publishes_ret _) fun hc => by cases hc.1
  | none =>
    simp only [true_and]
    refine publishes_refresh_one.trans (or_congr_right ?_)
    split
    · rename_i hne
      refine (publishes_refresh_last (X := True) ?_).trans (and_iff_right hne).symm
      exact .bind (unrefreshing_getUserName _) fun _ => .bind (unrefreshing_postBotDM ..) fun _ => trivial
    · rename_i hne
      exact iff_of_false (not_publishes_ret _) fun hc => hne hc.1

theorem handleAccept_tells (h : w.Sound) (hp : w.board.Paired) (body : Body AcceptAPIRequest) :
    Tells E w (handleAccept u body) ((Request.accept body).op E w u) := by
  refine .payload fun r => ?_
  obtain ⟨res, w', hrun, -⟩ := @ListManager.acceptIssue_moves E w u r.id h hp
  refine .op hrun (ListManager.inner_acceptIssue ..) fun q l => ?_
  refine Iff.trans ?_ (exists_run_iff hrun).symm
  unfold AcceptResult.tells
  cases res.outErr with
  | some err => exact iff_of_false (not_publishes_ret _) fun hc => by cases hc.1
  | none =>
    simp only [true_and]
    refine (publishes_refresh ..).trans (or_congr_right ?_)
    refine publishes_refresh_only (X := True) ?_
    exact .bind (unrefreshing_getUserName _) fun _ => .bind (unrefreshing_postBotDM ..) fun _ => trivial

theorem publishes_announceComplete (i : Issue) (foreignID : String) (listToUpdate : ListID) (q : String) (l : ListID) :
    Publishes E (announceComplete u (some i) foreignID listToUpdate) w q l ↔
      q = u ∧ l = listToUpdate ∨ foreignID ≠ "" ∧ q = foreignID ∧ l = .outList := by
  refine publishes_refresh_one.trans (or_congr_right ?_)
  apply publishes_after (unrefreshing_getUserName _)
  intro name w₁
  apply publishes_after (p := deref (some i)) trivial
  intro issue w₂
  apply publishes_after (unrefreshing_postReplyIfNeeded ..)
  intro _ w₃
  split
  · rename_i hnil
    exact iff_of_false (not_publishes_ret _) fun hc => hc.1 hnil
  · rename_i hforeign
    rw [and_iff_right hforeign]
    refine publishes_refresh_only (X := True) ?_
    exact .bind (unrefreshing_postBotDM ..) fun _ => trivial

theorem handleComplete_tells (h : w.Sound) (hp : w.board.Paired) (body : Body CompleteAPIRequest) :
    Tells E w (handleComplete u body) ((Request.complete body).op E w u) := by
  refine .payload fun r => ?_
  obtain ⟨res, w', hrun, hi⟩ := ListManager.completeIssue_issue E (u := u) h hp r.id
  refine .op hrun (ListManager.inner_completeIssue ..) fun q l => ?_
  refine Iff.trans ?_ (exists_run_iff hrun).symm
  unfold CompleteResult.tells
  cases herr : res.err with
  | some err => exact iff_of_false (not_publishes_ret _) fun hc => by cases hc.1
  | none =>
    obtain ⟨i, hi⟩ := Option.ne_none_iff_exists'.1 (hi herr)
    simp only [hi, true_and]
    exact publishes_announceComplete ..

theorem publishes_announceRemove (i : Issue) (foreignID : String) (isSender : Bool) (listToUpdate : ListID) (q : String)
    (l : ListID) : Publishes E (announceRemove u (some i) foreignID isSender listToUpdate) w q l ↔
      q = u ∧ l = listToUpdate ∨ foreignID ≠ "" ∧ q = foreignID ∧ l = if isSender then .outList else .inList := by
  refine publishes_refresh_one.trans (or_congr_right ?_)
  apply publishes_after (unrefreshing_getUserName _)
  intro name w₁
  apply publishes_after (p := deref (some i)) trivial
  intro issue w₂
  apply publishes_after (unrefreshing_postReplyIfNeeded ..)
  intro _ w₃
  split
  · rename_i hnil
    exact iff_of_false (not_publishes_ret _) fun hc => hc.1 hnil
  · rename_i hforeign
    rw [and_iff_right hforeign]
    refine publishes_refresh_only (X := True) ?_
    exact .bind (unrefreshing_postBotDM ..) fun _ => trivial

theorem handleRemove_tells (h : w.Sound) (hp : w.board.Paired) (body : Body RemoveAPIRequest) :
    Tells E w (handleRemove u body) ((Request.remove body).op E w u) := by
  refine .payload fun r => ?_
  obtain ⟨res, w', hrun, -, hi⟩ := @ListManager.removeIssue_moves E w u r.id h hp
  refine .op hrun (ListManager.inner_removeIssue ..) fun q l => ?_
  refine Iff.trans ?_ (exists_run_iff hrun).symm
  unfold RemoveResult.tells
  cases herr : res.err with
  | some err => exact iff_of_false (not_publishes_ret _) fun hc => by cases hc.1
  | none =>
    obtain ⟨i, hi⟩ := Option.ne_none_iff_exists'.1 (hi herr)
    simp only [hi, true_and]
    exact publishes_announceRemove ..

theorem handleBump_tells (h : w.Sound) (hp : w.board.Paired) (body : Body BumpAPIRequest) :
    Tells E w (handleBump u body) ((Request.bump body).op E w u) := by
  refine .payload fun r => ?_
  obtain ⟨res, w', hrun, -⟩ := @ListManager.bumpIssue_moves E w u r.id h hp
  refine .op hrun (ListManager.inner_bumpIssue ..) fun q l => ?_
  refine Iff.trans ?_ (exists_run_iff hrun).symm
  unfold BumpResult.tells
  cases res.outErr with
  | some err => exact iff_of_false (not_publishes_ret _) fun hc => by cases hc.1
  | none =>
    simp only [true_and, announceBump]
    split
    · rename_i hnil
      exact iff_of_false (not_publishes_ret _) fun hc => hc.1 hnil
    · rename_i hreceiver
      rw [and_iff_right hreceiver]
      refine publishes_refresh_only (X := True) ?_
      exact .bind (unrefreshing_getUserName _) fun _ => .bind (only_deref fun _ => trivial)
        fun _ => .bind (unrefreshing_postBotCustomDM ..) fun _ => trivial

theorem publishes_announceReceived (name : String) (receiver : User) (r : ChangeAssignmentAPIRequest) (i : Issue)
    (q : String) (l : ListID) : Publishes E (announceReceived u name receiver r (some i)) w q l ↔
      receiver.id.val ≠ u.val ∧ q = receiver.id ∧ l = .inList := by
  unfold announceReceived
  split
  · rename_i hne
    rw [and_iff_right hne]
    refine publishes_refresh_only (X := True) ?_
    exact unrefreshing_postBotCustomDM ..
  · rename_i hself
    exact iff_of_false (not_publishes_ret _) fun hc => hself hc.1

theorem quiet_announceReceived (u name : String) (receiver : User) (r : ChangeAssignmentAPIRequest) (i : Issue) :
    (announceReceived u name receiver r (some i)).Only Call.Quiet False := by
  unfold announceReceived
  split
  · exact .bind (quiet_sendRefreshEvent ..) fun _ => quiet_postBotCustomDM ..
  · trivial

theorem publishes_announceTaken (name oldOwner : String) (i : Issue) (q : String) (l : ListID) :
    Publishes E (announceTaken name oldOwner (some i)) w q l ↔
      oldOwner ≠ "" ∧ q = oldOwner ∧ l ∈ [.inList, .myList] := by
  unfold announceTaken
  split
  · rename_i hne
    rw [and_iff_right hne]
    exact publishes_refresh_last (X := True) (unrefreshing_postBotDM ..)
  · rename_i hnil
    exact iff_of_false (not_publishes_ret _) fun hc => hnil hc.1

theorem handleChangeAssignment_tells (h : w.Sound) (body : Body ChangeAssignmentAPIRequest) :
    Tells E w (handleChangeAssignment u body) ((Request.changeAssignment body).op E w u) := by
  refine .payload fun r => ?_
  refine .lookup r.sendTo ?_
  cases E.userByUsername r.sendTo with
  | error err => exact .none _
  | ok receiver =>
    obtain ⟨res, w', hrun, -⟩ : Leaves E (World.Deals E (fun _ => receiver.id) w)
      (ListManager.changeAssignment r.id u receiver.id) w := ListManager.changeAssignment_deals h
    refine .op hrun (ListManager.inner_changeAssignment ..) fun q l => ?_
    refine Iff.trans ?_ (exists_run_iff hrun).symm
    unfold ChangeResult.tells
    cases herr : res.err with
    | some err => exact iff_of_false (not_publishes_ret _) fun hc => by cases hc.1
    | none =>
      obtain ⟨i, hi⟩ := Option.ne_none_iff_exists'.1 ((ListManager.returns_changeAssignment ..).run hrun herr)
      simp only [true_and]
      refine (publishes_refresh ..).trans (or_congr_right ?_)
      apply publishes_after (unrefreshing_getUserName _)
      intro name w₁
      rw [hi, ← publishes_announceReceived (E := E) (w := w₁) name receiver r i q l]
      apply publishes_then (quiet_announceReceived u name receiver r i)
      intro _ w₂
      rw [← publishes_announceTaken (E := E) (w := w₂) name res.oldOwner i q l]
      exact publishes_before (X := True) fun _ => trivial

theorem handleAdd_tells (h : w.Sound) (hp : w.board.Paired) (hf : w.Fresh E) (body : Body AddAPIRequest) :
    Tells E w (handleAdd u body) ((Request.add body).op E w u) := by
  refine .payload fun r => ?_
  obtain ⟨name, hname⟩ := getUserName_run E w u
  refine .read (X := True) hname (unrefreshing_getUserName _) ?_
  split
  · exact addOwn_tells h hp hf name _ _ _ r
  · refine .lookup r.sendTo ?_
    cases E.userByUsername r.sendTo with
    | error err => exact .none _
    | ok receiver =>
      simp only [Except.toOption, Option.bind_some]
      by_cases hself : receiver.id = u
      · rw [if_pos (congrArg UserID.val hself), if_pos hself]
        exact addOwn_tells h hp hf name _ _ _ r
      · rw [if_neg fun he => hself (UserID.ext_val he), if_neg hself]
        obtain ⟨preference, err, hrun, hpref⟩ := getAllowIncomingTaskRequestsPreference_run E w receiver.id
        refine .read (X := True) hrun (unrefreshing_of_answers (answers_of_reads
          (reads_getAllowIncomingTaskRequestsPreference _))) ?_
        simp only [hpref]
        split
        · exact addSent_tells h hp hf name receiver r
        · exact .none _

/-! ## Commands -/

theorem unrefreshing_postCommandResponse {X : Prop} (args : CommandArgs) (text : String) :
    (postCommandResponse args text).Only Call.Unrefreshing X := unrefreshing_of_answers (answers_postCommandResponse ..)

theorem runAddCommand_tells (h : w.Sound) (hp : w.board.Paired) (hf : w.Fresh E) (ch text : String) (words : List String) :
    Tells E w (runAddCommand words ⟨u, ch, text⟩) (addOp u words) := by
  unfold runAddCommand addOp
  simp only
  split
  · exact .none _
  · have hnew := hp.recorded.absent (hf w.drawn (Nat.le_refl _))
    refine .op (ListManager.addIssue_run E h u _ "" "" "" (hnew u .myList)) (ListManager.inner_addIssue ..) fun q l => ?_
    refine publishes_refresh_only (X := True) ?_
    apply Only.bind (unrefreshing_of_inner (ListManager.inner_getIssueList ..))
    rintro (err | issues)
    · exact .bind (unrefreshing_postCommandResponse ..) fun _ => trivial
    · exact unrefreshing_of_answers (answers_list ..)

theorem sendCommand_tells (h : w.Sound) (hp : w.board.Paired) (hf : w.Fresh E) (ch text name m : String)
    (receiver : User) :
    Tells E w (sendCommand name m receiver ⟨u, ch, text⟩) (some (.sendIssue u receiver.id m "" "" "")) := by
  have hnew := hp.recorded.absent (hf w.drawn (Nat.le_refl _))
  have hnew' := hp.recorded.absent (hf (w.drawn + 1) (Nat.le_succ _))
  have hkey : listKey receiver.id .inList ≠ listKey u .outList := listKey_ne (by decide)
  refine .op (ListManager.sendIssue_run E h u receiver.id m "" "" "" (hnew u .outList) (hnew' receiver.id .inList) hkey)
    (ListManager.inner_sendIssue ..) fun q l => ?_
  refine publishes_refresh_one.trans (or_congr_right ?_)
  refine publishes_refresh_only (X := True) ?_
  exact .bind (unrefreshing_getUserName _) fun _ => .bind (unrefreshing_postBotCustomDM ..) fun _ =>
    .bind (unrefreshing_postCommandResponse ..) fun _ => trivial

theorem runSendCommand_tells (h : w.Sound) (hp : w.board.Paired) (hf : w.Fresh E) (ch text : String)
    (words : List String) : Tells E w (runSendCommand words ⟨u, ch, text⟩) (commandOp E w u ("send" :: words)) := by
  rcases words with _ | ⟨arg, _ | ⟨word, words⟩⟩
  · exact .none _
  · exact .none _
  · simp only [runSendCommand, commandOp]
    cases userArg arg with
    | none => exact .none _
    | some name =>
      simp only [Option.bind_some]
      refine .lookup name ?_
      cases E.userByUsername name with
      | error err => exact .none _
      | ok receiver =>
        simp only [Except.toOption, Option.bind_some]
        by_cases hself : receiver.id = u
        · rw [if_pos (congrArg UserID.val hself), if_pos hself]
          exact runAddCommand_tells h hp hf ch text _
        · rw [if_neg fun he => hself (UserID.ext_val he), if_neg hself]
          obtain ⟨preference, err, hrun, hpref⟩ := getAllowIncomingTaskRequestsPreference_run E w receiver.id
          refine .read (X := True) hrun (unrefreshing_of_answers (answers_of_reads
            (reads_getAllowIncomingTaskRequestsPreference _))) ?_
          simp only [hpref]
          split
          · exact sendCommand_tells h hp hf ch text name _ receiver
          · exact .none _

theorem publishes_announcePopped (name foreignID : String) (i : Issue) (q : String) (l : ListID) :
    Publishes E (announcePopped name foreignID (some i)) w q l ↔ foreignID ≠ "" ∧ q = foreignID ∧ l = .outList := by
  unfold announcePopped
  split
  · rename_i hne
    rw [and_iff_right hne]
    exact (publishes_refresh_last (X := True) (unrefreshing_postBotDM ..)).trans
      (and_congr_right fun _ => List.mem_singleton)
  · rename_i hnil
    exact iff_of_false (not_publishes_ret _) fun hc => hnil hc.1

theorem quiet_announcePopped (name foreignID : String) (i : Issue) :
    (announcePopped name foreignID (some i)).Only Call.Quiet False :=
  (informs_announcePopped ..).mono (fun _ => Call.Informs.quiet) nofun

theorem runPopCommand_tells (h : w.Sound) (hp : w.board.Paired) (ch text : String) (words : List String) :
    Tells E w (runPopCommand words ⟨u, ch, text⟩) (some (.popIssue u)) := by
  obtain ⟨res, w', hrun, -, hi⟩ := ListManager.popIssue_moves E (u := u) h hp
  refine .op hrun (ListManager.inner_popIssue _) fun q l => ?_
  refine Iff.trans ?_ (exists_run_iff hrun).symm
  unfold PopResult.tells
  cases herr : res.err with
  | some err =>
    refine iff_of_false (not_publishes (X := True) ?_) fun hc => by cases hc.1
    simp only
    split
    · exact .bind (unrefreshing_postCommandResponse ..) fun _ => trivial
    · trivial
  | none =>
    obtain ⟨i, hi⟩ := Option.ne_none_iff_exists'.1 (hi herr)
    simp only [hi, true_and]
    apply publishes_after (unrefreshing_getUserName _)
    intro name w₁
    rw [← publishes_announcePopped (E := E) (w := w₁) name res.foreignID i q l]
    apply publishes_then (quiet_announcePopped name res.foreignID i)
    intro _ w₂
    refine publishes_refresh_only (X := True) ?_
    refine .bind (only_deref fun _ => trivial) fun _ =>
      .bind (unrefreshing_postReplyIfNeeded ..) fun _ =>
      .bind (unrefreshing_of_inner (ListManager.inner_getIssueList ..)) ?_
    rintro (err | issues)
    · exact .bind (unrefreshing_postCommandResponse ..) fun _ => trivial
    · exact unrefreshing_of_answers (answers_list ..)

theorem executeCommand_tells (h : w.Sound) (hp : w.board.Paired) (hf : w.Fresh E) (ch text : String) :
    Tells E w (executeCommand ⟨u, ch, text⟩) (commandOp E w u (stringArgs text).2) := by
  have hreport : ∀ res, (reportError ⟨u, ch, text⟩ res).Only Call.Unrefreshing True := fun res =>
    unrefreshing_of_answers (answers_reportError _ res)
  unfold executeCommand
  simp only
  rcases (stringArgs text).2 with _ | ⟨command, words⟩
  · exact .none _
  simp only
  cases hh : commandHandler command with
  | none =>
    rw [(commandHandler_none E w u words hh).2]
    exact .none _
  | some handler =>
    refine .then_unrefreshing ?_ hreport
    unfold commandHandler at hh
    split at hh <;> cases hh
    · exact runAddCommand_tells h hp hf ch text words
    · exact .none _
    · exact runPopCommand_tells h hp ch text words
    · exact runSendCommand_tells h hp hf ch text words
    · exact .none _

/-! ## Every input -/

theorem Request.handler_tells (h : w.Sound) (hp : w.board.Paired) (hf : w.Fresh E) (request : Request) :
    Tells E w (request.handler u) (request.op E w u) := by
  cases request with
  | add body => exact handleAdd_tells h hp hf body
  | lists reminder offset => exact .none _
  | remove body => exact handleRemove_tells h hp body
  | complete body => exact handleComplete_tells h hp body
  | accept body => exact handleAccept_tells h hp body
  | bump body => exact handleBump_tells h hp body
  | edit body => exact handleEdit_tells h hp body
  | changeAssignment body => exact handleChangeAssignment_tells h body

theorem Input.tells (h : w.Sound) (hp : w.board.Paired) (hf : w.Fresh E) (e : Input) : Tells E w e.exec (e.op E w) := by
  cases e with
  | http userID request =>
    refine .then_unrefreshing (X := True) (.recover _ ?_) fun _ => trivial
    cases userID with
    | none => exact .none _
    | some u =>
      rw [checkAuth, userHeader, if_neg u.val_ne_empty]
      exact Request.handler_tells h hp hf request
  | command u ch text => exact .then_unrefreshing (X := True) (executeCommand_tells h hp hf ch text) fun _ => trivial

/-- A setting is in no list. -/
theorem told_put_setting {key : String} (hk : SettingKey key) (value : Value) (S : String → ListID → Prop) :
    w.Told (w.put key value) S := fun u l hne =>
  (hne ⟨World.list_put_setting hk value u l, fun r _ => World.issue_put_setting hk value r.issueID⟩).elim

/-- Whoever sees a list changed by the input gets a refresh event of it. -/
def Input.Announces (E : Env) (w : World) (e : Input) : Prop := w.Told (e.after E w) (Publishes E e.exec w)

/-- An input that makes an operation announces its changes as the operation does. -/
theorem Input.announces_of_op (h : w.Sound) (hp : w.board.Paired) (hf : w.Fresh E) {e : Input} {o : ListOp}
    (ho : e.op E w = some o) : e.Announces E w ↔ o.Announced w.board := by
  have hboard : (e.after E w).board = (o.after E w).board := World.board_eq_of_kv (Input.sameStore_of_op ho).kv
  rw [← ListOp.told h hp hf o, ← World.told_congr (Input.tells h hp hf e o ho)]
  unfold Input.Announces World.Told
  rw [hboard]

/-- **An input announces every change it makes of a paired store exactly when its operation, if it makes one, is
announced**: when it does not complete a todo its user sent, does not remove one its receiver has accepted, and does not
assign a todo of the user's own to that user. -/
theorem Input.announces_iff (h : w.Sound) (hp : w.board.Paired) (hf : w.Fresh E) (e : Input) :
    e.Announces E w ↔ ∀ o, e.op E w = some o → o.Announced w.board := by
  cases ho : e.op E w with
  | some o =>
    rw [Input.announces_of_op h hp hf ho]
    exact ⟨fun hto x hx => Option.some.inj hx ▸ hto, fun hall => hall o rfl⟩
  | none =>
    refine iff_of_true ?_ fun o ho' => by cases ho'
    obtain ⟨w₁, hstep, hsame⟩ := e.exec_step E w
    have hboard : (e.after E w).board = w₁.board := World.board_eq_of_kv hsame.kv
    unfold Input.Announces World.Told
    rw [hboard]
    cases hstep with
    | op o ho' => cases ho.symm.trans ho'
    | setting key b hs => exact told_put_setting (Input.setting_key hs) _ _
    | reminded u reminder offset text he => exact told_put_setting (.reminder u) _ _
    | idle hno hs => exact w.told_self _

end handlers

section sample

theorem sendMilk_settled : (sendMilk.after Env.sample World.empty).Settled Env.sample := by
  apply Input.settled (World.settled_empty _)
  intro o ho
  cases ho.symm.trans (show sendMilk.op Env.sample World.empty = some (.sendIssue ann bob "milk" "" "" "") from rfl)
  trivial

/-- Bob's acceptance is announced to both. -/
theorem acceptMilk_announces : acceptMilk.Announces Env.sample (sendMilk.after Env.sample World.empty) := by
  refine (Input.announces_iff sendMilk_settled.sound sendMilk_settled.paired sendMilk_settled.fresh acceptMilk).2
    fun o ho => ?_
  cases ho.symm.trans (show acceptMilk.op Env.sample _ = some (.acceptIssue bob "xx") from rfl)
  trivial

theorem acceptMilk_settled :
    (acceptMilk.after Env.sample (sendMilk.after Env.sample World.empty)).Settled Env.sample := by
  apply Input.settled sendMilk_settled
  intro o ho
  cases ho.symm.trans (show acceptMilk.op Env.sample _ = some (.acceptIssue bob "xx") from rfl)
  trivial

/-- Ann removes the todo she sent. -/
def removeMilk : Input := .http (some ann) (.remove (.ok (some ⟨"x"⟩)))

/-- **Bob's own list loses the todo he has accepted**, and he is not told. -/
theorem removeMilk_unannounced : ∃ w : World, w.Sound ∧ w.board.Paired ∧ w.Fresh Env.sample ∧
    (removeMilk.exec.run (serve Env.sample) w).1 = some (.http .ok) ∧ ¬ removeMilk.Announces Env.sample w := by
  have hs := acceptMilk_settled
  refine ⟨_, hs.sound, hs.paired, hs.fresh, rfl, fun hann => ?_⟩
  have ho : removeMilk.op Env.sample (acceptMilk.after Env.sample (sendMilk.after Env.sample World.empty)) =
      some (.removeIssue ann "x") := rfl
  exact (Input.announces_of_op hs.sound hs.paired hs.fresh ho).1 hann ⟨"x", "xx", "bob"⟩ (by decide) rfl bob rfl
    (by decide)

end sample
end Todo

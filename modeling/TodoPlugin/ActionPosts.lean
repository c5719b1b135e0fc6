import TodoPlugin.Announcing
import TodoPlugin.Owners
/-!
# The todo an action post is about

A `custom_todo` post carries the id of a todo for its buttons, and the front-end shows them to a viewer who has that id
in their In list.  Sending posts the id of the receiver's todo, and so does a bump as long as that todo is still in the
receiver's In list; assigning posts the id of the sender's, which its receiver never has (`inputRuns_namesReceived`).
-/
namespace Todo

open Proc (Only)
open Store (ids)

/-- The user has received the todo the post is about, and it is shown as it is. -/
def World.Receives (w : World) (userID : String) (props : TodoProps) : Prop :=
  props.issueID ∈ ids (w.list (listKey userID .inList)) ∧
    ∃ issue, w.issue props.issueID = some issue ∧ issue.message = props.todo

/-- Whoever gets a `custom_todo` post in the run has received its todo exactly under the condition. -/
def Names (E : Env) {α : Type} (p : Api α) (w : World) (c : Prop) : Prop :=
  ∀ r props s, PostsCustom E p w r props s → (s.Receives r props ↔ c)

namespace Names

variable {E : Env} {α β : Type} {w : World} {c X : Prop}

theorem uncustom {p : Api α} (h : p.Only Call.Uncustom X) : Names E p w c := fun _ _ _ hp => (not_postsCustom h hp).elim

/-- What follows a part that stays inside. -/
theorem inner {p : Api α} {f : α → Api β} (hp : p.Only Call.Inner X)
    (hf : ∀ a w', p.run (serve E) w = (some a, w') → Names E (f a) w' c) : Names E (p >>= f) w c := by
  intro r props s h
  obtain ⟨a, w', hrun, hpost⟩ := PostsCustom.of_inner hp h
  exact hf a w' hrun r props s hpost

/-- What follows a part that stays inside and runs as said. -/
theorem after {p : Api α} {f : α → Api β} {a : α} {w' : World} (hp : p.Only Call.Inner X)
    (hrun : p.run (serve E) w = (some a, w')) (hf : Names E (f a) w' c) : Names E (p >>= f) w c := by
  apply inner hp
  intro b w'' hrun'
  cases hrun.symm.trans hrun'
  exact hf

theorem lookup (name : String) {f : Except String User → Api β} (hf : Names E (f (E.userByUsername name)) w c) :
    Names E (Api.getUserByUsername name >>= f) w c := after (X := True) (.request trivial) rfl hf

theorem refresh {u : String} {lists : List ListID} {f : Unit → Api β}
    (hf : Names E (f ()) (w.notify (.refresh u lists)) c) : Names E (sendRefreshEvent u lists >>= f) w c :=
  fun r props s h => hf r props s h.of_refresh

/-- What makes no post after a part that does. -/
theorem then_uncustom {p : Api α} {f : α → Api β} (hp : Names E p w c) (hf : ∀ a, (f a).Only Call.Uncustom X) :
    Names E (p >>= f) w c := fun r props s h => hp r props s (h.of_uncustom hf)

theorem post {u message todo postPermalink issueID : String}
    (h : w.Receives u ⟨message, todo, postPermalink, issueID⟩ ↔ c) :
    Names E (postBotCustomDM u message todo postPermalink issueID) w c := by
  intro r props s hp
  obtain ⟨rfl, rfl, rfl⟩ := postsCustom_postBotCustomDM hp
  exact h

theorem recover {p : Api α} (b : α) (h : Names E p w c) : Names E (p.recover b) w c := by
  rintro r props s ⟨pre, post, suf, hcalls, hrest⟩
  rw [Proc.calls_recover] at hcalls
  exact h r props s ⟨pre, post, suf, hcalls, hrest⟩

theorem payload {body : Body α} {isValid : Option α → Option String} {decodeMsg validMsg : String}
    {handle : α → Api Response} (h : ∀ r, body.valid isValid = some r → Names E (handle r) w c) :
    Names E (withPayload body isValid decodeMsg validMsg handle) w c := by
  have hret : ∀ {p : Api Response}, p.Only Call.Uncustom True → Names E p w c := uncustom
  unfold withPayload
  cases body with
  | error err => exact hret trivial
  | ok request =>
    simp only
    cases hv : isValid request with
    | some err => exact hret trivial
    | none =>
      cases request with
      | none => exact hret trivial
      | some r => exact h r (by simp [Body.valid, hv])

end Names

/-! ## Sending -/

section sending
variable {E : Env} {w : World} {u : UserID}

/-- **The receiver of a todo sent has it**, under the id `sendIssue` returns. -/
theorem sent_receives (h : w.Owned E) (v : UserID) (m p d q message permalink : String) :
    (ListManager.sent E w u v m p d q).Receives v ⟨message, m, permalink, E.newId (w.drawn + 1)⟩ := by
  have hi := h.sound.draw.save (w.made_id_ne E m p d q)
  refine ⟨?_, World.made E w.draw m p d q, ?_, rfl⟩
  · rw [ListManager.sent, World.list_append, if_pos rfl, ids, List.map_append]
    exact List.mem_append_right _ (List.mem_singleton.2 rfl)
  · rw [ListManager.sent, World.issue_append, World.issue_append, hi.draw.issue_save]
    exact if_pos rfl

theorem names_addSent (h : w.Owned E) (name : String) (receiver : User) (r : AddAPIRequest) :
    Names E (addSent u name receiver r) w True := by
  have hkey : listKey receiver.id .inList ≠ listKey u .outList := listKey_ne (by decide)
  refine .after (ListManager.inner_sendIssue ..) (ListManager.sendIssue_run E h.sound u receiver.id r.message
    r.postPermalink r.description r.postID (h.not_has (Nat.le_refl _) u .outList)
    (h.not_has (Nat.le_succ _) receiver.id .inList) hkey) ?_
  refine .refresh (.refresh (.then_uncustom (X := True) (.post ?_) fun _ => ?_))
  · exact iff_of_true (sent_receives h ..) trivial
  · exact .bind (uncustom_of_informs (informs_postReplyIfNeeded ..)) fun _ => trivial

theorem names_sendCommand (h : w.Owned E) (name m : String) (receiver : User) (ch text : String) :
    Names E (sendCommand name m receiver ⟨u, ch, text⟩) w True := by
  have hkey : listKey receiver.id .inList ≠ listKey u .outList := listKey_ne (by decide)
  refine .after (ListManager.inner_sendIssue ..) (ListManager.sendIssue_run E h.sound u receiver.id m "" "" ""
    (h.not_has (Nat.le_refl _) u .outList) (h.not_has (Nat.le_succ _) receiver.id .inList) hkey) ?_
  obtain ⟨sender, hsender⟩ := getUserName_run E
    (((ListManager.sent E w u receiver.id m "" "" "").notify (.refresh u [.outList])).notify
      (.refresh receiver.id [.inList])) u
  refine .refresh (.refresh (.after (ListManager.inner_getUserName _) hsender
    (.then_uncustom (X := True) (.post ?_) fun _ => ?_)))
  · exact iff_of_true (sent_receives h ..) trivial
  · exact .bind (uncustom_of_answers (answers_postCommandResponse ..)) fun _ => trivial

end sending

/-! ## Bumping -/

section bumping
variable {E : Env} {w : World} {u : UserID}

/-- The todo the sender has under the id is still in its receiver's In list. -/
def World.Pending (w : World) (u : UserID) (id : String) : Prop :=
  ∀ r ∈ w.list (listKey u .outList), r.issueID = id → r.foreignIssueID ∈ ids (w.list (listKey r.foreignUserID .inList))

theorem names_handleBump (h : w.Sound) (body : Body BumpAPIRequest) :
    Names E (handleBump u body) w (∀ request, body.valid BumpAPIRequest.isValid = some request → w.Pending u request.id) := by
  refine .payload fun request hrequest => ?_
  cases hr : w.refOf u request.id .outList with
  | error e =>
    refine .after (ListManager.inner_bumpIssue ..) (ListManager.bumpIssue_absent E h.toListed hr) ?_
    exact .uncustom (X := True) trivial
  | ok p =>
    obtain ⟨hmem, hid⟩ := World.refOf_ok (r := p.1) (n := p.2) hr
    have hpending : w.Pending u request.id ↔
        p.1.foreignIssueID ∈ ids (w.list (listKey p.1.foreignUserID .inList)) := by
      refine ⟨fun hp => hp p.1 hmem hid, fun hin r hr' hid' => ?_⟩
      obtain ⟨n, hn⟩ := h.toListed.refOf_of_mem hr'
      rw [hid', hr] at hn
      cases hn
      exact hin
    rcases ListManager.bumpIssue_run E h (r := p.1) (n := p.2) hr with ⟨err, hrun⟩ | ⟨newList, hperm, hrun⟩
    · refine .after (ListManager.inner_bumpIssue ..) hrun ?_
      exact .uncustom (X := True) trivial
    refine .after (ListManager.inner_bumpIssue ..) hrun ?_
    unfold ListManager.bumped
    cases hi : w.issue p.1.foreignIssueID with
    | none => exact .uncustom (X := True) trivial
    | some i =>
      simp only [announceBump]
      split
      · exact .uncustom (X := True) trivial
      · obtain ⟨name, hname⟩ := getUserName_run E
          ((w.put (listKey p.1.foreignUserID .inList) (.refs newList)).notify (.refresh p.1.foreignUserID [.inList])) u
        refine .refresh (.after (ListManager.inner_getUserName _) hname ?_)
        refine .then_uncustom (X := True) (p := postBotCustomDM p.1.foreignUserID _ i.message i.postPermalink
          p.1.foreignIssueID) (.post ?_) fun _ => trivial
        have hb := w.board_put_list p.1.foreignUserID .inList newList
        have hlist : (w.put (listKey p.1.foreignUserID .inList) (.refs newList)).list
            (listKey p.1.foreignUserID .inList) = newList := by
          rw [← World.board_list, hb, Board.setList_list, if_pos rfl]
        have hissue : (w.put (listKey p.1.foreignUserID .inList) (.refs newList)).issue = w.issue :=
          congrArg Board.issue hb
        have hids := (hperm.map IssueRef.issueID).mem_iff (a := p.1.foreignIssueID)
        constructor
        · rintro ⟨hin, -⟩ request' hrequest'
          cases hrequest.symm.trans hrequest'
          rw [World.list_notify, hlist] at hin
          exact hpending.2 (hids.1 hin)
        · intro hall
          refine ⟨?_, i, ?_, rfl⟩
          · rw [World.list_notify, hlist]
            exact hids.2 (hpending.1 (hall request hrequest))
          · rw [World.issue_notify, hissue]
            exact hi

end bumping

/-! ## Assigning -/

section assigning
variable {E : Env} {w : World} {u : UserID}

/-- An assignment that succeeds is of a todo the user has. -/
theorem changeAssignment_has (h : w.Sound) {id : String} {v : UserID} {res : ChangeResult} {w' : World}
    (hrun : (ListManager.changeAssignment id u v).run (serve E) w = (some res, w')) (herr : res.err = none) :
    w.Has u id := by
  rcases w.locate_cases u id with ⟨l, r, n, -, hr, he⟩ | ⟨hl, -⟩
  · exact ⟨l, List.mem_map.2 ⟨r, hr, he⟩⟩
  · obtain ⟨err, hrun'⟩ := ListManager.changeAssignment_absent E h v hl
    cases hrun.symm.trans hrun'
    cases herr

/-- **No one is assigned the id they are told of.** -/
theorem changeAssignment_not_received (h : w.Owned E) {id : String} {v : UserID} (huv : v ≠ u) {res : ChangeResult}
    {w' : World} (hrun : (ListManager.changeAssignment id u v).run (serve E) w = (some res, w'))
    (herr : res.err = none) : id ∉ ids (w'.list (listKey v .inList)) := by
  intro hin
  have hu := changeAssignment_has h.sound hrun herr
  have hleaves : Leaves E (World.Deals E (fun _ => v) w) (ListManager.changeAssignment id u v) w :=
    ListManager.changeAssignment_deals h.sound
  obtain ⟨_, _, hrun', hdeals⟩ := hleaves
  cases hrun.symm.trans hrun'
  rcases hdeals.has v id ⟨.inList, hin⟩ with hv | ⟨n, hn, -, rfl, -⟩
  · exact huv (h.one v u id hv hu)
  · obtain ⟨l, hl⟩ := hu
    exact h.not_has hn u l hl

theorem names_handleChangeAssignment (h : w.Owned E) (body : Body ChangeAssignmentAPIRequest) :
    Names E (handleChangeAssignment u body) w False := by
  refine .payload fun request _ => .lookup request.sendTo ?_
  cases E.userByUsername request.sendTo with
  | error err => exact .uncustom (X := True) trivial
  | ok receiver =>
    refine .inner (ListManager.inner_changeAssignment ..) fun res w' hrun => ?_
    cases herr : res.err with
    | some err => exact .uncustom (X := True) trivial
    | none =>
      refine .refresh (.inner (ListManager.inner_getUserName _) fun name w'' hname => ?_)
      obtain ⟨name', hname'⟩ := getUserName_run E (w'.notify (.refresh u [.myList, .outList])) u
      cases hname.symm.trans hname'
      refine .then_uncustom (X := True) ?_ fun _ => ?_
      · unfold announceReceived
        split
        · rename_i hself
          refine .refresh ?_
          cases res.issue with
          | none => exact .uncustom (X := True) trivial
          | some i =>
            refine .post (iff_of_false ?_ id)
            rintro ⟨hin, -⟩
            exact changeAssignment_not_received h (fun he => hself (congrArg UserID.val he)) hrun herr hin
        · exact .uncustom (X := True) trivial
      · refine .bind ?_ fun _ => trivial
        unfold announceTaken
        split
        · exact .bind (uncustom_sendRefreshEvent ..) fun _ => .bind (only_deref fun _ => trivial)
            fun _ => uncustom_of_informs (informs_postBotDM ..)
        · trivial

end assigning

/-! ## Everything else -/

section uncustom
variable {u : UserID} {X : Prop}

theorem uncustom_withPayload {α : Type} {body : Body α} {isValid : Option α → Option String} {decodeMsg validMsg : String}
    {handle : α → Api Response} (h : ∀ r, (handle r).Only Call.Uncustom True) :
    (withPayload body isValid decodeMsg validMsg handle).Only Call.Uncustom True := by
  unfold withPayload
  split
  · trivial
  · split
    · trivial
    · split
      · trivial
      · exact h _

theorem uncustom_addOwn (userID name : String) (r : AddAPIRequest) (p d q : String) :
    (addOwn userID name r p d q).Only Call.Uncustom True := by
  apply Only.bind (uncustom_of_inner (ListManager.inner_addIssue ..))
  rintro (err | issue)
  · trivial
  · exact .bind (uncustom_sendRefreshEvent ..) fun _ => .bind (uncustom_of_informs (informs_postReplyIfNeeded ..))
      fun _ => trivial

theorem uncustom_handleEdit (body : Body EditAPIRequest) : (handleEdit u body).Only Call.Uncustom True := by
  apply uncustom_withPayload
  intro r
  apply Only.bind (uncustom_of_inner (ListManager.inner_editIssue ..))
  intro res
  cases res.err with
  | some err => trivial
  | none =>
    refine .bind (uncustom_sendRefreshEvent ..) fun _ => ?_
    split
    · exact .bind (uncustom_sendRefreshEvent ..) fun _ => .bind (uncustom_of_inner (ListManager.inner_getUserName _))
        fun _ => .bind (uncustom_of_informs (informs_postBotDM ..)) fun _ => trivial
    · trivial

theorem uncustom_handleAccept (body : Body AcceptAPIRequest) : (handleAccept u body).Only Call.Uncustom True := by
  apply uncustom_withPayload
  intro r
  apply Only.bind (uncustom_of_inner (ListManager.inner_acceptIssue ..))
  intro res
  cases res.outErr with
  | some err => trivial
  | none =>
    exact .bind (uncustom_sendRefreshEvent ..) fun _ => .bind (uncustom_sendRefreshEvent ..) fun _ =>
      .bind (uncustom_of_inner (ListManager.inner_getUserName _)) fun _ =>
      .bind (uncustom_of_informs (informs_postBotDM ..)) fun _ => trivial

theorem uncustom_handleComplete (body : Body CompleteAPIRequest) : (handleComplete u body).Only Call.Uncustom True := by
  apply uncustom_withPayload
  intro r
  apply Only.bind (uncustom_of_inner (ListManager.inner_completeIssue ..))
  intro res
  cases res.err with
  | some err => trivial
  | none => exact (informs_announceComplete ..).mono (fun _ => Call.Informs.uncustom) fun _ => trivial

theorem uncustom_handleRemove (body : Body RemoveAPIRequest) : (handleRemove u body).Only Call.Uncustom True := by
  apply uncustom_withPayload
  intro r
  apply Only.bind (uncustom_of_inner (ListManager.inner_removeIssue ..))
  intro res
  cases res.err with
  | some err => trivial
  | none => exact (informs_announceRemove ..).mono (fun _ => Call.Informs.uncustom) fun _ => trivial

theorem uncustom_handleLists (reminder timezoneOffset : String) :
    (handleLists u reminder timezoneOffset).Only Call.Uncustom True :=
  only_handleLists (fun _ hc => hc.informs.uncustom) u reminder timezoneOffset trivial trivial (fun _ => id) fun _ => trivial

theorem uncustom_runAddCommand (words : List String) (args : CommandArgs) :
    (runAddCommand words args).Only Call.Uncustom True := by
  unfold runAddCommand
  simp only
  split
  · exact .bind (.request trivial) fun _ => trivial
  · apply Only.bind (uncustom_of_inner (ListManager.inner_addIssue ..))
    rintro (err | issue)
    · trivial
    · refine .bind (uncustom_sendRefreshEvent ..) fun _ => .bind (uncustom_of_inner (ListManager.inner_getIssueList ..)) ?_
      rintro (err | issues)
      · exact .bind (.request trivial) fun _ => trivial
      · exact uncustom_of_answers (answers_list ..)

theorem uncustom_runListCommand (words : List String) (args : CommandArgs) :
    (runListCommand words args).Only Call.Uncustom True :=
  only_runListCommand (fun _ hc => hc.informs.uncustom) args (fun _ => trivial) words

theorem uncustom_runPopCommand (words : List String) (args : CommandArgs) :
    (runPopCommand words args).Only Call.Uncustom True := by
  apply Only.bind (uncustom_of_inner (ListManager.inner_popIssue _))
  intro res
  cases res.err with
  | some err =>
    simp only
    split
    · exact .bind (.request trivial) fun _ => trivial
    · trivial
  | none => exact (informs_announcePop ..).mono (fun _ => Call.Informs.uncustom) fun _ => trivial

theorem uncustom_runSettingsCommand (words : List String) (args : CommandArgs) :
    (runSettingsCommand words args).Only Call.Uncustom True :=
  only_runSettingsCommand (fun _ hc => hc.informs.uncustom) args (fun _ _ => trivial) words

end uncustom

/-! ## Every input -/

section inputs
variable {E : Env} {w : World} {u : UserID}

theorem names_handleAdd (h : w.Owned E) (body : Body AddAPIRequest) : Names E (handleAdd u body) w True := by
  refine .payload fun r _ => ?_
  obtain ⟨name, hname⟩ := getUserName_run E w u
  refine .after (ListManager.inner_getUserName _) hname ?_
  split
  · exact .uncustom (uncustom_addOwn ..)
  · refine .lookup r.sendTo ?_
    cases E.userByUsername r.sendTo with
    | error err => exact .uncustom (X := True) trivial
    | ok receiver =>
      simp only
      split
      · exact .uncustom (uncustom_addOwn ..)
      · obtain ⟨preference, err, hrun, hpref⟩ := getAllowIncomingTaskRequestsPreference_run E w receiver.id
        refine .after (inner_of_reads (reads_getAllowIncomingTaskRequestsPreference _)) hrun ?_
        simp only [hpref]
        split
        · exact names_addSent h name receiver r
        · exact .uncustom (X := True) (.bind (uncustom_of_informs (informs_postBotDM ..)) fun _ => trivial)

theorem names_runSendCommand (h : w.Owned E) (words : List String) (ch text : String) :
    Names E (runSendCommand words ⟨u, ch, text⟩) w True := by
  have hpost : ∀ {α : Type} {message : String} (a : α), Names E
      (postCommandResponse ⟨u, ch, text⟩ message >>= fun _ => pure a) w True := fun _ =>
    .uncustom (X := True) (.bind (uncustom_of_answers (answers_postCommandResponse ..)) fun _ => trivial)
  unfold runSendCommand
  split
  · rename_i arg word words
    cases userArg arg with
    | none => exact .uncustom (X := True) trivial
    | some name =>
      refine .lookup name ?_
      cases E.userByUsername name with
      | error err => exact hpost _
      | ok receiver =>
        simp only
        split
        · exact .uncustom (uncustom_runAddCommand ..)
        · obtain ⟨preference, err, hrun, hpref⟩ := getAllowIncomingTaskRequestsPreference_run E w receiver.id
          refine .after (inner_of_reads (reads_getAllowIncomingTaskRequestsPreference _)) hrun ?_
          simp only [hpref]
          split
          · exact names_sendCommand h name _ receiver ch text
          · exact hpost _
  · exact hpost _

/-- **When an action post names a todo its receiver has**: always for a todo sent, never for one assigned, and for a bump
as long as the receiver has not accepted the todo. -/
def Input.NamesReceived (w : World) : Input → Prop
  | .http _ (.changeAssignment _) => False
  | .http (some u) (.bump body)   =>
    ∀ request, body.valid BumpAPIRequest.isValid = some request → w.Pending u request.id
  | _                             => True

theorem names_executeCommand (h : w.Owned E) (ch text : String) : Names E (executeCommand ⟨u, ch, text⟩) w True := by
  have hreport : ∀ res, (reportError ⟨u, ch, text⟩ res).Only Call.Uncustom True := fun res =>
    uncustom_of_answers (answers_reportError _ res)
  unfold executeCommand
  simp only
  rcases (stringArgs text).2 with _ | ⟨command, words⟩
  · exact .uncustom (.bind (uncustom_runListCommand ..) hreport)
  simp only
  cases hh : commandHandler command with
  | none => exact .uncustom (X := True) (uncustom_of_answers (answers_postCommandResponse ..))
  | some handler =>
    refine .then_uncustom ?_ hreport
    unfold commandHandler at hh
    split at hh <;> cases hh
    · exact .uncustom (uncustom_runAddCommand ..)
    · exact .uncustom (uncustom_runListCommand ..)
    · exact .uncustom (uncustom_runPopCommand ..)
    · exact names_runSendCommand h words ch text
    · exact .uncustom (uncustom_runSettingsCommand ..)

theorem names_handler (h : w.Owned E) (request : Request) :
    Names E (request.handler u) w ((Input.http (some u) request).NamesReceived w) := by
  cases request with
  | add body => exact names_handleAdd h body
  | lists reminder offset => exact .uncustom (uncustom_handleLists ..)
  | remove body => exact .uncustom (uncustom_handleRemove _)
  | complete body => exact .uncustom (uncustom_handleComplete _)
  | accept body => exact .uncustom (uncustom_handleAccept _)
  | bump body => exact names_handleBump h.sound body
  | edit body => exact .uncustom (uncustom_handleEdit _)
  | changeAssignment body => exact names_handleChangeAssignment h body

theorem Input.names (h : w.Owned E) (e : Input) : Names E e.exec w (e.NamesReceived w) := by
  cases e with
  | http userID request =>
    refine .then_uncustom (X := True) (.recover _ ?_) fun _ => trivial
    cases userID with
    | none => exact .uncustom (X := True) trivial
    | some u =>
      rw [checkAuth, userHeader, if_neg u.val_ne_empty]
      exact names_handler h request
  | command u ch text => exact .then_uncustom (X := True) (names_executeCommand h ch text) fun _ => trivial

end inputs

/-- **After any run of inputs, an action post an input makes names a todo its receiver has received, as it is, exactly
when the input is no assignment and no bump of a todo that has left its receiver's In list.** -/
theorem inputRuns_namesReceived (E : Env) {tr : List (Input × Option Reply)} {w : World}
    (h : InputRuns E (fun _ _ => True) World.empty tr w) (e : Input) {r : String} {props : TodoProps} {s : World}
    (hpost : PostsCustom E e.exec w r props s) : s.Receives r props ↔ e.NamesReceived w :=
  Input.names (inputRuns_owned E h) e r props s hpost

section sample

/-- Ann sends Bob a todo. -/
theorem sendMilk_namesReceived :
    ∃ props s, PostsCustom Env.sample sendMilk.exec World.empty "bob" props s ∧ s.Receives "bob" props := by
  have hpost : PostsCustom Env.sample sendMilk.exec World.empty "bob" ⟨_, _, _, _⟩ _ :=
    .of_drop 15 (by rfl) (by rfl) rfl (by rfl)
  exact ⟨_, _, hpost, (inputRuns_namesReceived Env.sample (.done _) sendMilk hpost).2 trivial⟩

/-- **Bob is told of the todo he is assigned** by the id Ann has it under, which is not his. -/
theorem assignMilk_namesSenders : ∃ tr w, InputRuns Env.sample (fun _ _ => True) World.empty tr w ∧
    ∃ props s, PostsCustom Env.sample assignMilk.exec w "bob" props s ∧ ¬ s.Receives "bob" props := by
  refine ⟨_, _, .step keepMilk trivial (.done _), ?_⟩
  have hpost : PostsCustom Env.sample assignMilk.exec (keepMilk.after Env.sample World.empty) "bob" ⟨_, _, _, _⟩ _ :=
    .of_drop 15 (by rfl) (by rfl) rfl (by rfl)
  refine ⟨_, _, hpost, ?_⟩
  rintro ⟨hin, -⟩
  revert hin
  decide

end sample
end Todo

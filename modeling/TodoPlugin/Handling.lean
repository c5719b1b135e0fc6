import TodoPlugin.OptOut
/-!
# What a handler is made of

Whatever the answers to its calls, a handler makes at most one operation of the list manager, for the user it handles for:
before it and after it come calls beside the lists, which read and post, or save that user's own settings.  `Inputs` says
which operation it is when the handler runs alone; this holds also when other requests run in between or calls fail.
-/
namespace Todo

open Proc (Only)

/-- The keys of a user's settings and last reminder. -/
def SettingKeyOf (u : String) (key : String) : Prop :=
  key = reminderKey u ∨ key = reminderEnabledKey u ∨ key = allowIncomingTaskRequestsKey u

/-- The call is quiet, or saves a setting of the user. -/
def Call.Beside (u : String) (c : Call) : Prop := c.Quiet ∨ ∃ key text, SettingKeyOf u key ∧ c = .kvSet key (.text text)

/-- **The procedure makes at most one operation**, for `u`, and is beside the lists before and after it. -/
inductive Handles (u : UserID) {α : Type} : Api α → Prop
  | beside {X : Prop} {p : Api α} (h : p.Only (Call.Beside u) X) : Handles u p
  | part {β : Type} {X : Prop} {p : Api β} {f : β → Api α} (h : p.Only (Call.Beside u) X) (hf : ∀ a, Handles u (f a)) :
      Handles u (p >>= f)
  | op {β : Type} {X : Prop} {p : Api β} {f : β → Api α} (o : ListOp) (c : β → ListResult) (hu : o.user = u)
      (ho : o.exec = p >>= fun a => pure (c a)) (hf : ∀ a, (f a).Only (Call.Beside u) X) : Handles u (p >>= f)

namespace Handles

variable {u : UserID} {α β : Type}

theorem quiet {X : Prop} {p : Api α} (h : p.Only Call.Quiet X) : Handles u p := .beside (h.mono (fun _ => .inl) fun h => h)

theorem quiet_part {X : Prop} {p : Api β} {f : β → Api α} (h : p.Only Call.Quiet X) (hf : ∀ a, Handles u (f a)) :
    Handles u (p >>= f) := .part (h.mono (fun _ => .inl) fun h => h) hf

theorem quiet_op {X : Prop} {p : Api β} {f : β → Api α} (o : ListOp) {c : β → ListResult} (hu : o.user = u)
    (ho : o.exec = p >>= fun a => pure (c a)) (hf : ∀ a, (f a).Only Call.Quiet X) : Handles u (p >>= f) :=
  .op o c hu ho fun a => (hf a).mono (fun _ => .inl) fun h => h

/-- What follows a handler may be beside the lists. -/
theorem then_quiet {X : Prop} {p : Api β} {f : β → Api α} (hp : Handles u p) (hf : ∀ a, (f a).Only Call.Quiet X) :
    Handles u (p >>= f) := by
  have hf' : ∀ a, (f a).Only (Call.Beside u) X := fun a => (hf a).mono (fun _ => .inl) fun h => h
  induction hp with
  | beside h => exact .part h fun a => .beside (hf' a)
  | part h hk ih =>
    rw [Proc.bind_assoc]
    exact .part h ih
  | @op β Y p k o c hu ho hk =>
    rw [Proc.bind_assoc]
    exact .op (X := X ∨ Y) o c hu ho fun a => .bind ((hk a).mono (fun _ h => h) .inr) fun b => (hf' b).mono (fun _ h => h) .inl

theorem payload {body : Body α} {isValid : Option α → Option String} {decodeMsg validMsg : String}
    {handle : α → Api Response} (h : ∀ r, Handles u (handle r)) :
    Handles u (withPayload body isValid decodeMsg validMsg handle) := by
  unfold withPayload
  cases body with
  | error err => exact .quiet (X := False) trivial
  | ok request =>
    simp only
    cases isValid request with
    | some err => exact .quiet (X := False) trivial
    | none =>
      cases request with
      | none => exact .quiet (X := True) trivial
      | some r => exact h r

end Handles

variable {u : UserID}

/-! ## Requests -/

theorem addOwn_handles (name p d q : String) (r : AddAPIRequest) : Handles u (addOwn u name r p d q) := by
  refine .quiet_op (X := False) (.addIssue u r.message p d q) rfl rfl ?_
  rintro (err | issue)
  · trivial
  · exact .bind (quiet_sendRefreshEvent ..) fun _ => .bind (quiet_postReplyIfNeeded ..) fun _ => trivial

theorem addSent_handles (name : String) (receiver : User) (r : AddAPIRequest) : Handles u (addSent u name receiver r) := by
  refine .quiet_op (X := False) (.sendIssue u receiver.id r.message r.postPermalink r.description r.postID) rfl rfl ?_
  rintro (err | issueID)
  · trivial
  · exact .bind (quiet_sendRefreshEvent ..) fun _ => .bind (quiet_sendRefreshEvent ..) fun _ =>
      .bind (quiet_postBotCustomDM ..) fun _ => .bind (quiet_postReplyIfNeeded ..) fun _ => trivial

theorem handleAdd_handles (body : Body AddAPIRequest) : Handles u (handleAdd u body) := by
  refine .payload fun r => .quiet_part (X := False) (ListManager.quiet_getUserName _) fun name => ?_
  split
  · exact addOwn_handles ..
  · refine .quiet_part (X := False) (.request trivial) ?_
    rintro (err | receiver)
    · exact .quiet (X := False) trivial
    · simp only
      split
      · exact addOwn_handles ..
      · refine .quiet_part (X := False) (quiet_getAllowIncomingTaskRequestsPreference _) ?_
        rintro ⟨preference, err⟩
        by_cases h : (if err.isSome then true else preference) = true
        · simp only [if_pos h]
          exact addSent_handles ..
        · simp only [if_neg h]
          exact .quiet (X := False) (.bind (quiet_postBotDM ..) fun _ => trivial)

theorem handleLists_handles (reminder timezoneOffset : String) : Handles u (handleLists u reminder timezoneOffset) := by
  refine .beside ((handleLists_only u reminder timezoneOffset).mono ?_ fun h => h)
  rintro c (hc | ⟨text, rfl⟩)
  · exact .inl hc
  · exact .inr ⟨_, text, .inl rfl, rfl⟩

theorem handleEdit_handles (body : Body EditAPIRequest) : Handles u (handleEdit u body) := by
  refine .payload fun r => .quiet_op (X := False) (.editIssue u r.id r.message r.description) rfl rfl fun res => ?_
  cases res.err with
  | some err => trivial
  | none =>
    refine .bind (quiet_sendRefreshEvent ..) fun _ => ?_
    split
    · exact .bind (quiet_sendRefreshEvent ..) fun _ => .bind (ListManager.quiet_getUserName _) fun _ =>
        .bind (quiet_postBotDM ..) fun _ => trivial
    · trivial

theorem handleChangeAssignment_handles (body : Body ChangeAssignmentAPIRequest) :
    Handles u (handleChangeAssignment u body) := by
  refine .payload fun r => .quiet_part (X := False) (.request trivial) ?_
  rintro (err | receiver)
  · exact .quiet (X := False) trivial
  refine .quiet_op (X := True) (.changeAssignment r.id u receiver.id) rfl rfl fun res => ?_
  cases res.err with
  | some err => trivial
  | none =>
    refine .bind (quiet_sendRefreshEvent ..) fun _ => .bind (ListManager.quiet_getUserName _) fun name => ?_
    refine .bind ?_ fun _ => .bind ?_ fun _ => trivial
    · unfold announceReceived
      split
      · exact .bind (quiet_sendRefreshEvent ..) fun _ => .bind (only_deref fun _ => trivial) fun _ =>
          quiet_postBotCustomDM ..
      · trivial
    · unfold announceTaken
      split
      · exact .bind (quiet_sendRefreshEvent ..) fun _ => .bind (only_deref fun _ => trivial) fun _ => quiet_postBotDM ..
      · trivial

theorem handleAccept_handles (body : Body AcceptAPIRequest) : Handles u (handleAccept u body) := by
  refine .payload fun r => .quiet_op (X := False) (.acceptIssue u r.id) rfl rfl fun res => ?_
  cases res.outErr with
  | some err => trivial
  | none =>
    exact .bind (quiet_sendRefreshEvent ..) fun _ => .bind (quiet_sendRefreshEvent ..) fun _ =>
      .bind (ListManager.quiet_getUserName _) fun _ => .bind (quiet_postBotDM ..) fun _ => trivial

theorem handleComplete_handles (body : Body CompleteAPIRequest) : Handles u (handleComplete u body) := by
  refine .payload fun r => .quiet_op (X := True) (.completeIssue u r.id) rfl rfl fun res => ?_
  cases res.err with
  | some err => trivial
  | none => exact (informs_announceComplete ..).mono (fun _ => Call.Informs.quiet) fun _ => trivial

theorem handleRemove_handles (body : Body RemoveAPIRequest) : Handles u (handleRemove u body) := by
  refine .payload fun r => .quiet_op (X := True) (.removeIssue u r.id) rfl rfl fun res => ?_
  cases res.err with
  | some err => trivial
  | none => exact (informs_announceRemove ..).mono (fun _ => Call.Informs.quiet) fun _ => trivial

theorem handleBump_handles (body : Body BumpAPIRequest) : Handles u (handleBump u body) := by
  refine .payload fun r => .quiet_op (X := True) (.bumpIssue u r.id) rfl rfl fun res => ?_
  cases res.outErr with
  | some err => trivial
  | none =>
    unfold announceBump
    simp only
    split
    · trivial
    · exact .bind (quiet_sendRefreshEvent ..) fun _ => .bind (ListManager.quiet_getUserName _) fun _ =>
        .bind (only_deref fun _ => trivial) fun _ => .bind (quiet_postBotCustomDM ..) fun _ => trivial

theorem Request.handler_handles (request : Request) : Handles u (request.handler u) := by
  cases request with
  | add body => exact handleAdd_handles body
  | lists reminder offset => exact handleLists_handles reminder offset
  | remove body => exact handleRemove_handles body
  | complete body => exact handleComplete_handles body
  | accept body => exact handleAccept_handles body
  | bump body => exact handleBump_handles body
  | edit body => exact handleEdit_handles body
  | changeAssignment body => exact handleChangeAssignment_handles body

/-! ## Commands -/

theorem runAddCommand_handles (ch text : String) (words : List String) : Handles u (runAddCommand words ⟨u, ch, text⟩) := by
  by_cases h : " ".intercalate words = ""
  · exact .quiet (X := False) (quiet_runAddCommand _ h)
  · obtain ⟨f, hf, hquiet⟩ := runAddCommand_adds ⟨u, ch, text⟩ h False
    rw [hf]
    exact .quiet_op (.addIssue u _ "" "" "") rfl rfl hquiet

theorem runSendCommand_handles (ch text : String) (words : List String) :
    Handles u (runSendCommand words ⟨u, ch, text⟩) := by
  unfold runSendCommand
  split
  · split
    · exact .quiet (X := True) trivial
    · refine .quiet_part (X := False) (.request trivial) ?_
      rintro (err | receiver)
      · exact .quiet (X := False) (.bind (quiet_postCommandResponse ..) fun _ => trivial)
      · simp only
        split
        · exact runAddCommand_handles ..
        · refine .quiet_part (X := False) (quiet_getAllowIncomingTaskRequestsPreference _) ?_
          rintro ⟨preference, err⟩
          by_cases h : (if err.isSome then true else preference) = true
          · simp only [if_pos h]
            obtain ⟨f, hf, hquiet⟩ := sendCommand_sends ⟨u, ch, text⟩ _ _ receiver False
            rw [hf]
            exact .quiet_op (.sendIssue u receiver.id _ "" "" "") rfl rfl hquiet
          · simp only [if_neg h]
            exact .quiet (X := False) (.bind (quiet_postCommandResponse ..) fun _ => trivial)
  · exact .quiet (X := False) (.bind (quiet_postCommandResponse ..) fun _ => trivial)

theorem runPopCommand_handles (ch text : String) (words : List String) : Handles u (runPopCommand words ⟨u, ch, text⟩) := by
  refine .quiet_op (X := True) (.popIssue u) rfl rfl fun res => ?_
  cases res.err with
  | some err =>
    simp only
    split
    · exact .bind (quiet_postCommandResponse ..) fun _ => trivial
    · trivial
  | none => exact (informs_announcePop ..).mono (fun _ => Call.Informs.quiet) fun _ => trivial

/-- One setting saved under a key of the user's. -/
theorem runSetting_handles {key : String} (hkey : SettingKeyOf u key) (value name saveErr onMessage offMessage : String)
    (args : CommandArgs) : Handles u
      (runSetting value name saveErr onMessage offMessage (fun b => Api.kvSet key (.text (formatBool b))) args) := by
  unfold runSetting
  split
  · refine .part (X := False) (.request (.inr ⟨key, _, hkey, rfl⟩)) ?_
    rintro (err | _)
    · exact .quiet (X := False) trivial
    · exact .quiet (X := False) (.bind (quiet_postCommandResponse ..) fun _ => trivial)
  · exact .quiet (X := False) trivial

theorem runSettingsCommand_handles (ch text : String) (words : List String) :
    Handles u (runSettingsCommand words ⟨u, ch, text⟩) := by
  unfold runSettingsCommand
  split
  · exact .quiet (X := False) (.bind (quiet_getReminderPreference _) fun _ =>
      .bind (quiet_getAllowIncomingTaskRequestsPreference _) fun _ => .bind (quiet_postCommandResponse ..) fun _ => trivial)
  · exact .quiet (X := False) (.bind (quiet_getReminderPreference _) fun _ => .bind (quiet_postCommandResponse ..)
      fun _ => trivial)
  · exact runSetting_handles (.inr (.inl rfl)) ..
  · exact .quiet (X := False) trivial
  · refine .quiet (X := True) (.bind (quiet_getAllowIncomingTaskRequestsPreference _) fun res => ?_)
    split
    · trivial
    · exact .bind (quiet_postCommandResponse ..) fun _ => trivial
  · exact runSetting_handles (.inr (.inr rfl)) ..
  · exact .quiet (X := False) trivial
  · exact .quiet (X := False) trivial

theorem executeCommand_handles (ch text : String) : Handles u (executeCommand ⟨u, ch, text⟩) := by
  unfold executeCommand
  simp only
  rcases (stringArgs text).2 with _ | ⟨command, words⟩
  · exact .then_quiet (X := False) (.quiet (X := False) (quiet_runListCommand ..)) fun _ => quiet_reportError ..
  simp only
  cases hh : commandHandler command with
  | none => exact .quiet (X := False) (quiet_postCommandResponse ..)
  | some handler =>
    refine .then_quiet (X := False) ?_ fun _ => quiet_reportError ..
    unfold commandHandler at hh
    split at hh <;> cases hh
    · exact runAddCommand_handles ..
    · exact .quiet (X := False) (quiet_runListCommand ..)
    · exact runPopCommand_handles ..
    · exact runSendCommand_handles ..
    · exact runSettingsCommand_handles ..

/-! ## What a request for the lists is answered -/

/-- `GET /lists` answers the lists read, or an error. -/
theorem handleLists_returns (u reminder timezoneOffset : String) : ∃ f,
    handleLists u reminder timezoneOffset = ListManager.getAllList u >>= f ∧
    (∀ err, (f (.error err)).Returns fun resp => ∀ lists, resp ≠ .lists lists) ∧
    ∀ all, (f (.ok all)).Returns fun resp => ∀ lists, resp = .lists lists → lists = all := by
  refine ⟨_, rfl, fun err => nofun, fun all => ?_⟩
  have hall : ∀ lists, Response.lists all = .lists lists → lists = all := fun _ he => by cases he; rfl
  simp only
  split
  · refine .bind (fun preference => ?_) _
    split
    · refine .bind (fun res => ?_) _
      cases res with
      | error err => exact nofun
      | ok lastReminderAt =>
        refine .bind (fun now => ?_) _
        split
        · refine .bind (fun list => ?_) _
          refine .bind (fun _ => ?_) _
          refine .bind (fun _ => ?_) _
          exact hall
        · exact hall
    · exact hall
  · exact hall

end Todo

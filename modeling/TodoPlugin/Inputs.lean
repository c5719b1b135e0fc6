import TodoPlugin.Quiet
import TodoPlugin.ListRuns
/-!
# What an input does to the store

The plugin's inputs are requests and commands.  Whatever else a handler reads and posts, on the store an input does one
of four things (`Input.Step`): one operation of the list manager, which `Input.op` says in terms of the request, the
users known and the preferences stored; saving a setting; saving the time of a reminder; or nothing.
-/
namespace Todo

open Proc (Only)

/-- What comes in: an HTTP request, of a user if the session has one, or a `/todo` command. -/
inductive Input where
  | http (userID : Option UserID) (request : Request)
  | command (userID : UserID) (channelID text : String)

/-- The `Mattermost-User-ID` header of a session. -/
def userHeader : Option UserID → String
  | none        => ""
  | some userID => userID

/-- What an input is answered with; a command always with an empty response. -/
inductive Reply where
  | http (response : Response)
  | command

namespace Input

def exec : Input → Api Reply
  | .http userID request            => do return .http (← serveHTTP (userHeader userID) request)
  | .command userID channelID text  => do
    executeCommand ⟨userID, channelID, text⟩
    return .command

/-- The store after one input run alone. -/
def after (E : Env) (e : Input) (w : World) : World := (e.exec.run (serve E) w).2

/-- Who an input comes from. -/
def issuer : Input → Option UserID
  | .http userID _      => userID
  | .command userID _ _ => some userID

end Input

/-! ## The operation an input makes -/

/-- The operation a request of `u` makes, if it makes one. -/
def Request.op (E : Env) (w : World) (u : UserID) : Request → Option ListOp
  | .add body => (body.valid AddAPIRequest.isValid).bind fun r =>
    if r.sendTo = "" then some (.addIssue u r.message r.postPermalink r.description r.postID)
    else (E.userByUsername r.sendTo).toOption.bind fun receiver =>
      if receiver.id = u then some (.addIssue u r.message r.description r.postID r.postPermalink)
      else if w.allows receiver.id then
        some (.sendIssue u receiver.id r.message r.postPermalink r.description r.postID)
      else none
  | .lists _ _ => none
  | .remove body => (body.valid RemoveAPIRequest.isValid).bind fun r => some (.removeIssue u r.id)
  | .complete body => (body.valid CompleteAPIRequest.isValid).bind fun r => some (.completeIssue u r.id)
  | .accept body => (body.valid AcceptAPIRequest.isValid).bind fun r => some (.acceptIssue u r.id)
  | .bump body => (body.valid BumpAPIRequest.isValid).bind fun r => some (.bumpIssue u r.id)
  | .edit body => (body.valid EditAPIRequest.isValid).bind fun r => some (.editIssue u r.id r.message r.description)
  | .changeAssignment body => (body.valid ChangeAssignmentAPIRequest.isValid).bind fun r =>
    (E.userByUsername r.sendTo).toOption.bind fun receiver => some (.changeAssignment r.id u receiver.id)

/-- The operation `/todo add` makes with the words after it. -/
def addOp (u : UserID) (words : List String) : Option ListOp :=
  if " ".intercalate words = "" then none else some (.addIssue u (" ".intercalate words) "" "" "")

/-- The operation a command of `u` makes, by the words after the first. -/
def commandOp (E : Env) (w : World) (u : UserID) : List String → Option ListOp
  | "add" :: words                 => addOp u words
  | "pop" :: _                     => some (.popIssue u)
  | "send" :: arg :: word :: words => (userArg arg).bind fun name => (E.userByUsername name).toOption.bind fun receiver =>
    if receiver.id = u then addOp u (word :: words)
    else if w.allows receiver.id then some (.sendIssue u receiver.id (" ".intercalate (word :: words)) "" "" "")
    else none
  | _                              => none

/-- The key of a setting, by its name. -/
def settingKey (u : UserID) : String → Option String
  | "summary"                      => some (reminderEnabledKey u)
  | "allow_incoming_task_requests" => some (allowIncomingTaskRequestsKey u)
  | _                              => none

def onOff : String → Option Bool
  | "on"  => some true
  | "off" => some false
  | _     => none

/-- The setting a command of `u` saves, by the words after the first. -/
def commandSetting (u : UserID) : List String → Option (String × Bool)
  | ["settings", name, value] => (settingKey u name).bind fun key => (onOff value).map fun b => (key, b)
  | _                         => none

namespace Input

def op (E : Env) (w : World) : Input → Option ListOp
  | .http userID request   => userID.bind fun u => request.op E w u
  | .command u _ text      => commandOp E w u (stringArgs text).2

def setting : Input → Option (String × Bool)
  | .http _ _         => none
  | .command u _ text => commandSetting u (stringArgs text).2

/-- **What an input does to the store.** -/
inductive Step (E : Env) (w : World) (e : Input) : World → Prop
  | op (o : ListOp) (ho : e.op E w = some o) : Step E w e (o.after E w)
  | setting (key : String) (b : Bool) (hs : e.setting = some (key, b)) : Step E w e (w.put key (.text (formatBool b)))
  | reminded (u : UserID) (reminder offset text : String) (he : e = .http (some u) (.lists reminder offset)) :
      Step E w e (w.put (reminderKey u) (.text text))
  | idle (ho : e.op E w = none) (hs : e.setting = none) : Step E w e w

end Input

/-! ## Procedures that make one operation -/

/-- The procedure makes the operation, if any, and leaves the store as that does. -/
def Does (E : Env) (w : World) {α : Type} (p : Api α) (o : Option ListOp) : Prop :=
  World.SameStore (o.elim w fun o => o.after E w) (p.run (serve E) w).2

namespace Does

variable {E : Env} {w : World} {α β : Type}

theorem quiet {X : Prop} {p : Api α} (h : p.Only Call.Quiet X) : Does E w p none := (quiet_run E h w).1

/-- Something quiet after a procedure does nothing more. -/
theorem then_quiet {X : Prop} {p : Api α} {f : α → Api β} {o : Option ListOp} (h : Does E w p o)
    (hf : ∀ a, (f a).Only Call.Quiet X) : Does E w (p >>= f) o := h.trans (quiet_bind_run E hf w)

/-- A part that only reads hands over to what follows it. -/
theorem read {p : Api α} {f : α → Api β} {a : α} {o : Option ListOp} (hrun : p.run (serve E) w = (some a, w))
    (h : Does E w (f a) o) : Does E w (p >>= f) o := by
  unfold Does
  rw [Proc.run_bind_of _ hrun]
  exact h

/-- So does a name looked up. -/
theorem lookup {name : String} {f : Except String User → Api β} {o : Option ListOp}
    (h : Does E w (f (E.userByUsername name)) o) : Does E w (Api.getUserByUsername name >>= f) o := read rfl h

/-- The operation itself, with something quiet after it. -/
theorem op {X : Prop} {p : Api α} {f : α → Api β} (o : ListOp) {c : α → ListResult}
    (ho : o.exec = p >>= fun a => pure (c a)) (hf : ∀ a, (f a).Only Call.Quiet X) : Does E w (p >>= f) (some o) := by
  refine then_quiet ?_ hf
  unfold Does
  rw [Option.elim_some, ListOp.after, ho, Proc.run_bind]
  rcases p.run (serve E) w with ⟨_ | a, t⟩ <;> exact .refl t

theorem payload {body : Body α} {isValid : Option α → Option String} {decodeMsg validMsg : String}
    {handle : α → Api Response} {o : α → Option ListOp} (h : ∀ r, Does E w (handle r) (o r)) :
    Does E w (withPayload body isValid decodeMsg validMsg handle) ((body.valid isValid).bind o) := by
  unfold withPayload Body.valid
  cases body with
  | error err => exact .refl w
  | ok request =>
    simp only
    cases hv : isValid request with
    | some err => exact .refl w
    | none =>
      cases request with
      | none => exact .refl w
      | some r => exact h r

end Does

variable {E : Env} {w : World}

theorem getUserName_run (E : Env) (w : World) (userID : String) :
    ∃ name, (ListManager.getUserName userID).run (serve E) w = (some name, w) := by
  simp only [ListManager.getUserName, Api.getUser, Proc.request_bind, Proc.run_call, serve]
  cases E.user userID with
  | error err => exact ⟨_, rfl⟩
  | ok user => exact ⟨_, rfl⟩

/-- The preference, as its callers take it: an error counts as allowing. -/
theorem getAllowIncomingTaskRequestsPreference_run (E : Env) (w : World) (userID : String) :
    ∃ preference err, (getAllowIncomingTaskRequestsPreference userID).run (serve E) w = (some (preference, err), w) ∧
      (if err.isSome then true else preference) = w.allows userID := by
  simp only [getAllowIncomingTaskRequestsPreference, Api.kvGet, Proc.request_bind, Proc.run_call, serve, World.allows]
  cases w.kv (allowIncomingTaskRequestsKey userID) with
  | none => exact ⟨_, _, rfl, rfl⟩
  | some value =>
    simp only [Option.bind_some]
    cases storedBool value with
    | none => exact ⟨_, _, rfl, rfl⟩
    | some preference => exact ⟨_, _, rfl, rfl⟩

/-! ## Handlers of requests -/

theorem addOwn_does (u : UserID) (name p d q : String) (r : AddAPIRequest) :
    Does E w (addOwn u name r p d q) (some (.addIssue u r.message p d q)) := by
  refine .op (X := False) _ rfl ?_
  rintro (err | issue)
  · trivial
  · exact .bind (quiet_sendRefreshEvent ..) fun _ => .bind (quiet_postReplyIfNeeded ..) fun _ => trivial

theorem addSent_does (u : UserID) (name : String) (receiver : User) (r : AddAPIRequest) :
    Does E w (addSent u name receiver r)
      (some (.sendIssue u receiver.id r.message r.postPermalink r.description r.postID)) := by
  refine .op (X := False) _ rfl ?_
  rintro (err | issueID)
  · trivial
  · exact .bind (quiet_sendRefreshEvent ..) fun _ => .bind (quiet_sendRefreshEvent ..) fun _ =>
      .bind (quiet_postBotCustomDM ..) fun _ => .bind (quiet_postReplyIfNeeded ..) fun _ => trivial

theorem handleAdd_does (u : UserID) (body : Body AddAPIRequest) :
    Does E w (handleAdd u body) ((Request.add body).op E w u) := by
  refine .payload fun r => ?_
  obtain ⟨name, hname⟩ := getUserName_run E w u
  refine .read hname ?_
  split
  · exact addOwn_does ..
  · refine .lookup ?_
    cases E.userByUsername r.sendTo with
    | error err => exact .refl w
    | ok receiver =>
      simp only [Except.toOption, Option.bind_some]
      by_cases hself : receiver.id = u
      · rw [if_pos (congrArg UserID.val hself), if_pos hself]
        exact addOwn_does ..
      · rw [if_neg fun he => hself (UserID.ext_val he), if_neg hself]
        obtain ⟨preference, err, hrun, hpref⟩ := getAllowIncomingTaskRequestsPreference_run E w receiver.id
        refine .read hrun ?_
        simp only [hpref]
        split
        · exact addSent_does ..
        · exact .quiet (X := False) (.bind (quiet_postBotDM ..) fun _ => trivial)

theorem handleEdit_does (u : UserID) (body : Body EditAPIRequest) :
    Does E w (handleEdit u body) ((Request.edit body).op E w u) := by
  refine .payload fun r => .op (X := False) _ rfl fun res => ?_
  cases res.err with
  | some err => trivial
  | none =>
    refine .bind (quiet_sendRefreshEvent ..) fun _ => ?_
    split
    · exact .bind (quiet_sendRefreshEvent ..) fun _ => .bind (ListManager.quiet_getUserName _) fun _ =>
        .bind (quiet_postBotDM ..) fun _ => trivial
    · trivial

theorem handleChangeAssignment_does (u : UserID) (body : Body ChangeAssignmentAPIRequest) :
    Does E w (handleChangeAssignment u body) ((Request.changeAssignment body).op E w u) := by
  refine .payload fun r => ?_
  refine .lookup ?_
  cases E.userByUsername r.sendTo with
  | error err => exact .refl w
  | ok receiver =>
    refine .op (X := True) _ rfl fun res => ?_
    cases res.err with
    | some err => trivial
    | none =>
      refine .bind (quiet_sendRefreshEvent ..) fun _ => .bind (ListManager.quiet_getUserName _) fun name => ?_
      refine .bind ?_ fun _ => .bind ?_ fun _ => trivial
      · unfold announceReceived
        split
        · exact .bind (quiet_sendRefreshEvent ..) fun _ => .bind (only_deref fun _ => trivial) fun _ =>
            quiet_postBotCustomDM ..
        · trivial
      · unfold announceTaken
        split
        · exact .bind (quiet_sendRefreshEvent ..) fun _ => .bind (only_deref fun _ => trivial) fun _ =>
            quiet_postBotDM ..
        · trivial

theorem handleAccept_does (u : UserID) (body : Body AcceptAPIRequest) :
    Does E w (handleAccept u body) ((Request.accept body).op E w u) := by
  refine .payload fun r => .op (X := False) _ rfl fun res => ?_
  cases res.outErr with
  | some err => trivial
  | none =>
    exact .bind (quiet_sendRefreshEvent ..) fun _ => .bind (quiet_sendRefreshEvent ..) fun _ =>
      .bind (ListManager.quiet_getUserName _) fun _ => .bind (quiet_postBotDM ..) fun _ => trivial

theorem handleComplete_does (u : UserID) (body : Body CompleteAPIRequest) :
    Does E w (handleComplete u body) ((Request.complete body).op E w u) := by
  refine .payload fun r => .op (X := True) _ rfl fun res => ?_
  cases res.err with
  | some err => trivial
  | none => exact (informs_announceComplete ..).mono (fun _ => Call.Informs.quiet) fun _ => trivial

theorem handleRemove_does (u : UserID) (body : Body RemoveAPIRequest) :
    Does E w (handleRemove u body) ((Request.remove body).op E w u) := by
  refine .payload fun r => .op (X := True) _ rfl fun res => ?_
  cases res.err with
  | some err => trivial
  | none => exact (informs_announceRemove ..).mono (fun _ => Call.Informs.quiet) fun _ => trivial

theorem handleBump_does (u : UserID) (body : Body BumpAPIRequest) :
    Does E w (handleBump u body) ((Request.bump body).op E w u) := by
  refine .payload fun r => .op (X := True) _ rfl fun res => ?_
  cases res.outErr with
  | some err => trivial
  | none =>
    unfold announceBump
    simp only
    split
    · trivial
    · exact .bind (quiet_sendRefreshEvent ..) fun _ => .bind (ListManager.quiet_getUserName _) fun _ =>
        .bind (only_deref fun _ => trivial) fun _ => .bind (quiet_postBotCustomDM ..) fun _ => trivial

/-- The call is quiet, or saves the time of a user's reminder. -/
def Call.Reminds (userID : String) (c : Call) : Prop := c.Quiet ∨ ∃ text, c = .kvSet (reminderKey userID) (.text text)

theorem handleLists_only (userID reminder timezoneOffset : String) :
    (handleLists userID reminder timezoneOffset).Only (Call.Reminds userID) False :=
  only_handleLists (fun _ hc => .inl hc.quiet) userID reminder timezoneOffset (.inl trivial) (.inl trivial)
    (fun _ _ => .inl trivial) fun text => .inr ⟨text, rfl⟩

/-- **Listing saves at most the time of a reminder.** -/
theorem handleLists_run (E : Env) (w : World) (userID reminder timezoneOffset : String) :
    World.SameStore w ((handleLists userID reminder timezoneOffset).run (serve E) w).2 ∨
      ∃ text, World.SameStore (w.put (reminderKey userID) (.text text))
        ((handleLists userID reminder timezoneOffset).run (serve E) w).2 := by
  refine ((handleLists_only userID reminder timezoneOffset).run (I := fun s => World.SameStore w s ∨
    ∃ text, World.SameStore (w.put (reminderKey userID) (.text text)) s) (fun c s hc hs => ?_) (.inl (.refl w))).1
  rcases hc with hc | ⟨text, rfl⟩
  · rcases hs with hs | ⟨text, hs⟩
    · exact .inl (hs.trans (hc.sameStore E s))
    · exact .inr ⟨text, hs.trans (hc.sameStore E s)⟩
  · refine .inr ⟨text, ?_⟩
    rcases hs with hs | ⟨old, hs⟩
    · exact hs.put _ _
    · have := hs.put (reminderKey userID) (.text text)
      rwa [World.put_put] at this

/-! ## Commands -/

/-- Without a message `add` posts, and does nothing more. -/
theorem quiet_runAddCommand (args : CommandArgs) {words : List String} (h : " ".intercalate words = "") {X : Prop} :
    (runAddCommand words args).Only Call.Quiet X := by
  unfold runAddCommand
  simp only [if_pos h]
  exact .bind (quiet_postCommandResponse ..) fun _ => trivial

/-- With one it is `AddIssue`, and then quiet. -/
theorem runAddCommand_adds (args : CommandArgs) {words : List String} (h : " ".intercalate words ≠ "") (X : Prop) :
    ∃ f, runAddCommand words args = ListManager.addIssue args.userID (" ".intercalate words) "" "" "" >>= f ∧
      ∀ res, (f res).Only Call.Quiet X := by
  unfold runAddCommand
  simp only [if_neg h]
  refine ⟨_, rfl, ?_⟩
  rintro (err | issue)
  · trivial
  · apply Only.bind (quiet_sendRefreshEvent ..)
    intro _
    apply Only.bind (ListManager.quiet_getIssueList ..)
    rintro (err | issues)
    · exact .bind (quiet_postCommandResponse ..) fun _ => trivial
    · exact quiet_of_answers (answers_list ..)

theorem runAddCommand_does (u : UserID) (ch text : String) (words : List String) :
    Does E w (runAddCommand words ⟨u, ch, text⟩) (addOp u words) := by
  unfold addOp
  split
  · rename_i hnone
    exact .quiet (X := False) (quiet_runAddCommand _ hnone)
  · rename_i hsome
    obtain ⟨f, hf, hquiet⟩ := runAddCommand_adds ⟨u, ch, text⟩ hsome False
    rw [hf]
    exact .op _ rfl hquiet

theorem runPopCommand_does (u : UserID) (ch text : String) (words : List String) :
    Does E w (runPopCommand words ⟨u, ch, text⟩) (some (.popIssue u)) := by
  refine .op (X := True) _ rfl fun res => ?_
  cases res.err with
  | some err =>
    simp only
    split
    · exact .bind (quiet_postCommandResponse ..) fun _ => trivial
    · trivial
  | none => exact (informs_announcePop ..).mono (fun _ => Call.Informs.quiet) fun _ => trivial

/-- Once the receiver is known to allow it, `send` is `SendIssue`, and then quiet. -/
theorem sendCommand_sends (args : CommandArgs) (name message : String) (receiver : User) (X : Prop) :
    ∃ f, sendCommand name message receiver args =
      ListManager.sendIssue args.userID receiver.id message "" "" "" >>= f ∧ ∀ res, (f res).Only Call.Quiet X := by
  refine ⟨_, rfl, ?_⟩
  rintro (err | issueID)
  · trivial
  · exact .bind (quiet_sendRefreshEvent ..) fun _ => .bind (quiet_sendRefreshEvent ..) fun _ =>
      .bind (ListManager.quiet_getUserName _) fun _ => .bind (quiet_postBotCustomDM ..) fun _ =>
      .bind (quiet_postCommandResponse ..) fun _ => trivial

theorem sendCommand_does (u : UserID) (ch text name message : String) (receiver : User) :
    Does E w (sendCommand name message receiver ⟨u, ch, text⟩) (some (.sendIssue u receiver.id message "" "" "")) := by
  obtain ⟨f, hf, hquiet⟩ := sendCommand_sends ⟨u, ch, text⟩ name message receiver False
  rw [hf]
  exact .op _ rfl hquiet

theorem runSendCommand_does (u : UserID) (ch text : String) (words : List String) :
    Does E w (runSendCommand words ⟨u, ch, text⟩) (commandOp E w u ("send" :: words)) := by
  rcases words with _ | ⟨arg, _ | ⟨word, words⟩⟩
  · exact .quiet (X := False) (.bind (quiet_postCommandResponse ..) fun _ => trivial)
  · exact .quiet (X := False) (.bind (quiet_postCommandResponse ..) fun _ => trivial)
  · simp only [runSendCommand, commandOp]
    cases userArg arg with
    | none => exact .refl w
    | some name =>
      simp only [Option.bind_some]
      refine .lookup ?_
      cases E.userByUsername name with
      | error err => exact .quiet (X := False) (.bind (quiet_postCommandResponse ..) fun _ => trivial)
      | ok receiver =>
        simp only [Except.toOption, Option.bind_some]
        by_cases hself : receiver.id = u
        · rw [if_pos (congrArg UserID.val hself), if_pos hself]
          exact runAddCommand_does ..
        · rw [if_neg fun he => hself (UserID.ext_val he), if_neg hself]
          obtain ⟨preference, err, hrun, hpref⟩ := getAllowIncomingTaskRequestsPreference_run E w receiver.id
          refine .read hrun ?_
          simp only [hpref]
          split
          · exact sendCommand_does ..
          · exact .quiet (X := False) (.bind (quiet_postCommandResponse ..) fun _ => trivial)

/-! ## Settings -/

/-- The store with a setting saved. -/
def World.saved (w : World) : Option (String × Bool) → World
  | none          => w
  | some (key, b) => w.put key (.text (formatBool b))

/-- What `runSettingsCommand` answers once it has tried to save a setting. -/
def settingSaved (saveErr text : String) (args : CommandArgs) : Except String Unit → Api (Bool × Option String)
  | .error _ => pure (false, some saveErr)
  | .ok ()   => do
    postCommandResponse args text
    return (false, none)

theorem runSetting_saves (value name saveErr onMessage offMessage key : String) (args : CommandArgs) :
    World.SameStore (w.saved ((onOff value).map fun b => (key, b)))
      ((runSetting value name saveErr onMessage offMessage (fun b => Api.kvSet key (.text (formatBool b))) args).run
        (serve E) w).2 := by
  have hsave : ∀ (b : Bool) (text : String), World.SameStore (w.put key (.text (formatBool b)))
      ((Api.kvSet key (.text (formatBool b)) >>= settingSaved saveErr text args).run (serve E) w).2 := by
    intro b text
    refine quiet_bind_run (X := False) E (p := Api.kvSet key (.text (formatBool b))) ?_ w
    rintro (err | _)
    · trivial
    · exact .bind (quiet_postCommandResponse ..) fun _ => trivial
  by_cases hon : value = "on"
  · subst hon
    exact hsave true onMessage
  by_cases hoff : value = "off"
  · subst hoff
    exact hsave false offMessage
  · have hno : onOff value = none := by
      unfold onOff
      split <;> simp_all
    rw [hno]
    unfold runSetting
    rw [if_neg (by simp [hon, hoff])]
    exact .refl w

theorem runSettingsCommand_saves (u : UserID) (ch text : String) (words : List String) :
    World.SameStore (w.saved (commandSetting u ("settings" :: words)))
      ((runSettingsCommand words ⟨u, ch, text⟩).run (serve E) w).2 := by
  have hq : ∀ {p : Api (Bool × Option String)}, p.Only Call.Quiet True → World.SameStore w (p.run (serve E) w).2 :=
    fun h => (quiet_run E h w).1
  unfold runSettingsCommand
  split
  · exact hq (.bind (quiet_getReminderPreference _) fun _ => .bind (quiet_getAllowIncomingTaskRequestsPreference _)
      fun _ => .bind (quiet_postCommandResponse ..) fun _ => trivial)
  · exact hq (.bind (quiet_getReminderPreference _) fun _ => .bind (quiet_postCommandResponse ..) fun _ => trivial)
  · exact runSetting_saves ..
  · rename_i rest _ hne
    rcases rest with _ | ⟨value, _ | ⟨more, rest⟩⟩
    · contradiction
    · exact absurd rfl (hne value)
    · exact .refl w
  · refine hq (.bind (quiet_getAllowIncomingTaskRequestsPreference _) ?_)
    intro res
    split
    · trivial
    · exact .bind (quiet_postCommandResponse ..) fun _ => trivial
  · exact runSetting_saves ..
  · rename_i rest _ hne
    rcases rest with _ | ⟨value, _ | ⟨more, rest⟩⟩
    · contradiction
    · exact absurd rfl (hne value)
    · exact .refl w
  · rename_i name rest _ _ hsummary _ _ hallow
    have hkey : settingKey u name = none := by
      unfold settingKey
      split
      · exact (hsummary rfl).elim
      · exact (hallow rfl).elim
      · rfl
    rcases rest with _ | ⟨value, _ | ⟨more, rest⟩⟩
    · exact .refl w
    · simp only [commandSetting, hkey]
      exact .refl w
    · exact .refl w

/-! ## Every input -/

/-- A command that is not `settings` saves none. -/
theorem commandSetting_of_ne {u : UserID} {command : String} (h : command ≠ "settings") (words : List String) :
    commandSetting u (command :: words) = none := by
  unfold commandSetting
  split
  · rename_i he
    cases he
    exact absurd rfl h
  · rfl

/-- `help` and what is unknown make no operation. -/
theorem commandHandler_none (E : Env) (w : World) (u : UserID) {command : String} (words : List String)
    (h : commandHandler command = none) : command ≠ "settings" ∧ commandOp E w u (command :: words) = none := by
  unfold commandHandler at h
  split at h <;> cases h
  rename_i hadd _ hpop hsend hsettings
  refine ⟨hsettings, ?_⟩
  unfold commandOp
  split
  · rename_i he; cases he; exact (hadd rfl).elim
  · rename_i he; cases he; exact (hpop rfl).elim
  · rename_i he; cases he; exact (hsend rfl).elim
  · rfl

/-- **What a command does to the store**: it makes its operation, or saves its setting. -/
theorem executeCommand_run (E : Env) (w : World) (u : UserID) (ch text : String) :
    World.SameStore ((commandOp E w u (stringArgs text).2).elim (w.saved (commandSetting u (stringArgs text).2))
        fun o => o.after E w)
      ((executeCommand ⟨u, ch, text⟩).run (serve E) w).2 := by
  unfold executeCommand
  simp only
  rcases (stringArgs text).2 with _ | ⟨command, words⟩
  · exact Does.then_quiet (X := False) (.quiet (X := False) (quiet_runListCommand ..)) fun _ => quiet_reportError ..
  simp only
  have hdoes : ∀ {p : Api (Bool × Option String)}, command ≠ "settings" →
      Does E w p (commandOp E w u (command :: words)) →
      World.SameStore ((commandOp E w u (command :: words)).elim (w.saved (commandSetting u (command :: words)))
        fun o => o.after E w) ((p >>= reportError ⟨u, ch, text⟩).run (serve E) w).2 := by
    intro p hne hp
    rw [commandSetting_of_ne hne]
    exact hp.then_quiet (X := False) (quiet_reportError _)
  cases hh : commandHandler command with
  | none =>
    obtain ⟨hne, hno⟩ := commandHandler_none E w u words hh
    rw [hno, commandSetting_of_ne hne]
    exact (quiet_run E (X := False) (quiet_postCommandResponse ..) w).1
  | some handler =>
    unfold commandHandler at hh
    split at hh <;> cases hh
    · exact hdoes (by decide) (runAddCommand_does ..)
    · exact hdoes (by decide) (.quiet (X := False) (quiet_runListCommand ..))
    · exact hdoes (by decide) (runPopCommand_does ..)
    · exact hdoes (by decide) (runSendCommand_does ..)
    · exact (runSettingsCommand_saves u ch text words).trans (quiet_bind_run (X := False) E (quiet_reportError _) w)

/-- What a request makes, its handler makes. -/
theorem Request.handler_does (u : UserID) {request : Request} (h : ∀ reminder offset, request ≠ .lists reminder offset) :
    Does E w (request.handler u) (request.op E w u) := by
  cases request with
  | add body => exact handleAdd_does u body
  | lists reminder offset => exact absurd rfl (h reminder offset)
  | remove body => exact handleRemove_does u body
  | complete body => exact handleComplete_does u body
  | accept body => exact handleAccept_does u body
  | bump body => exact handleBump_does u body
  | edit body => exact handleEdit_does u body
  | changeAssignment body => exact handleChangeAssignment_does u body

namespace Input

/-- What is answered with what a procedure returns leaves what the procedure leaves. -/
theorem run_map (E : Env) (w : World) {α β : Type} (p : Api α) (f : α → β) :
    ((p >>= fun a => pure (f a)).run (serve E) w).2 = (p.run (serve E) w).2 := by
  rw [Proc.run_bind]
  rcases p.run (serve E) w with ⟨_ | a, t⟩ <;> rfl

theorem after_http (E : Env) (w : World) (userID : Option UserID) (request : Request) :
    (Input.http userID request).after E w =
      ((checkAuth (userHeader userID) (request.handler (userHeader userID))).run (serve E) w).2 :=
  (run_map E w _ _).trans (Proc.run_recover ..)

theorem after_command (E : Env) (w : World) (u : UserID) (ch text : String) :
    (Input.command u ch text).after E w = ((executeCommand ⟨u, ch, text⟩).run (serve E) w).2 := run_map E w _ _

/-- **Every input makes one of its steps.** -/
theorem exec_step (E : Env) (w : World) (e : Input) : ∃ w₁, e.Step E w w₁ ∧ World.SameStore w₁ (e.after E w) := by
  cases e with
  | http userID request =>
    have hdone : ∀ {t : World} {o : Option ListOp}, (Input.http userID request).op E w = o →
        World.SameStore (o.elim w fun o => o.after E w) t →
        ∃ w₁, (Input.http userID request).Step E w w₁ ∧ World.SameStore w₁ t := by
      intro t o ho ht
      cases o with
      | none => exact ⟨w, .idle ho rfl, ht⟩
      | some o => exact ⟨_, .op o ho, ht⟩
    rw [after_http]
    cases userID with
    | none => exact hdone rfl (.refl w)
    | some u =>
      rw [checkAuth, userHeader, if_neg u.val_ne_empty]
      by_cases h : ∃ reminder offset, request = .lists reminder offset
      · obtain ⟨reminder, offset, rfl⟩ := h
        rcases handleLists_run E w u reminder offset with h | ⟨text, h⟩
        · exact hdone rfl h
        · exact ⟨_, .reminded u reminder offset text rfl, h⟩
      · exact hdone rfl (Request.handler_does u fun reminder offset he => h ⟨_, _, he⟩)
  | command u ch text =>
    rw [after_command]
    have h := executeCommand_run E w u ch text
    cases ho : commandOp E w u (stringArgs text).2 with
    | some o =>
      rw [ho] at h
      exact ⟨_, .op o ho, h⟩
    | none =>
      rw [ho] at h
      cases hs : commandSetting u (stringArgs text).2 with
      | none =>
        rw [hs] at h
        exact ⟨w, .idle ho hs, h⟩
      | some s =>
        rw [hs] at h
        exact ⟨_, .setting s.1 s.2 hs, h⟩

/-- An input that makes an operation saves no setting. -/
theorem setting_of_op {E : Env} {w : World} {e : Input} {o : ListOp} (h : e.op E w = some o) : e.setting = none := by
  cases e with
  | http => rfl
  | command u ch text =>
    simp only [setting]
    unfold commandSetting
    split
    · rename_i name value hw
      simp only [op, hw] at h
      cases h
    · rfl

/-- **An input that makes an operation** leaves the store the operation leaves. -/
theorem sameStore_of_op {E : Env} {w : World} {e : Input} {o : ListOp} (h : e.op E w = some o) :
    World.SameStore (o.after E w) (e.after E w) := by
  obtain ⟨w₁, hstep, hsame⟩ := e.exec_step E w
  cases hstep with
  | op o' ho =>
    cases h.symm.trans ho
    exact hsame
  | setting key b hs => cases hs.symm.trans (setting_of_op h)
  | reminded u reminder offset text he =>
    subst he
    cases h
  | idle hno => cases hno.symm.trans h

end Input

end Todo

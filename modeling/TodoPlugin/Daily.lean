import TodoPlugin.Entries
import TodoPlugin.OptOut
import TodoPlugin.Spacing
import TodoPlugin.Views
/-!
# When a user is reminded

A setting is what its user last set it to, whatever else has happened since.  So a request for the lists reminds its user
exactly if it asks for that, there is a todo in the owned list, the user has not turned the summary off last, and the time
saved is of an earlier day and at least an hour ago.
-/
namespace Todo

/-! ## What was last set -/

/-- What the input sets the setting under the key to. -/
def Input.sets (key : String) (e : Input) : Option Bool :=
  e.setting.bind fun s => if s.1 = key then some s.2 else none

/-- What the inputs last set it to, `last` before them. -/
def lastSet (key : String) (last : Option Bool) (inputs : List Input) : Option Bool :=
  inputs.foldl (fun last e => (e.sets key).or last) last

section settings
variable {E : Env} {w w' : World} {key : String}

/-- One input: the setting is what it sets it to, or what it was. -/
theorem Input.kv_after (h : w.Sound) (hk : SettingKey key) (hne : ∀ v : UserID, key ≠ reminderKey v) (e : Input) :
    (e.after E w).kv key = ((e.sets key).map fun b => .text (formatBool b)).or (w.kv key) := by
  obtain ⟨w₁, hstep, hsame⟩ := e.exec_step E w
  rw [hsame.kv]
  cases hstep with
  | op o ho => simp [sets, setting_of_op ho, (o.setting_kept E h hk).2]
  | setting k b hs =>
    by_cases hkey : k = key
    · subst hkey
      simp [sets, hs]
    · simp [sets, hs, hkey, World.put_kv_of_ne _ _ (Ne.symm hkey)]
  | reminded u reminder offset text he =>
    subst he
    exact World.put_kv_of_ne _ _ (hne u)
  | idle ho hs => simp [sets, hs]

/-- **A setting is what it was last set to.** -/
theorem Input.kv_run (hk : SettingKey key) (hne : ∀ v : UserID, key ≠ reminderKey v) {ok : World → Input → Prop}
    {tr : List (Input × Option Reply)} (h : InputRuns E ok w tr w') (hs : w.Sound) {last : Option Bool}
    (hw : w.kv key = last.map fun b => .text (formatBool b)) :
    w'.kv key = (lastSet key last (tr.map Prod.fst)).map fun b => .text (formatBool b) := by
  induction h generalizing last with
  | done w => exact hw
  | step e _ _ ih =>
    refine ih (Input.sound hs e) ?_
    rw [show ((e.exec.run (serve E) _).2).kv key = _ from Input.kv_after hs hk hne e, hw]
    simp only
    cases e.sets key <;> rfl

end settings

/-! ## A request for the lists -/

/-- What a direct message adds to what is sent, if there is a channel for it and it can be posted there. -/
def Env.directMessage (E : Env) (userID message : String) : List Notice :=
  match E.directChannel userID with
  | .ok (some channelID) =>
    match E.createPost ⟨channelID, message, "", none⟩ with
    | .ok ()   => [.post ⟨channelID, message, "", none⟩]
    | .error _ => []
  | _ => []

theorem postBotDM_sends (E : Env) (u message : String) (w : World) :
    (postBotDM u message).run (serve E) w = (some (), { w with notices := w.notices ++ E.directMessage u message }) := by
  unfold postBotDM createBotPostDM Env.directMessage
  simp only [Api.getDirectChannel, Proc.request_bind, Proc.run_call, serve]
  rcases E.directChannel u with err | _ | channelID
  · simp
  · simp
  · simp only [Api.createPost, Proc.request_bind, Proc.run_call, serve]
    rcases E.createPost ⟨channelID, message, "", none⟩ with err | _
    · simp
    · rfl

/-- The text of some todos. -/
def Env.listText (E : Env) (issues : List ExtendedIssue) : String :=
  if issues.isEmpty then "Nothing to do!"
  else issues.foldl (fun str issue => str ++ "* " ++ issue.issue.message ++ "\n  * (" ++
    E.formatTime (issue.issue.createAt.tdiv 1000) ++ ")\n") "\n\n"

theorem issueLines_text (E : Env) (w : World) : ∀ (issues : List ExtendedIssue) (str : String),
    (issueLines str issues).run (serve E) w = (some (issues.foldl (fun str issue => str ++ "* " ++ issue.issue.message ++
      "\n  * (" ++ E.formatTime (issue.issue.createAt.tdiv 1000) ++ ")\n") str), w)
  | [], _          => rfl
  | _ :: issues, _ => issueLines_text E w issues _

theorem issuesListToString_text (E : Env) (w : World) (issues : List ExtendedIssue) :
    (issuesListToString issues).run (serve E) w = (some (E.listText issues), w) := by
  unfold issuesListToString Env.listText
  split
  · rfl
  · exact issueLines_text E w issues _

section lists
variable {E : Env} {w : World} {u : UserID} {reminder offset : String}

/-- The time saved is at least an hour ago, to the second, and on an earlier date of the user's. -/
def World.due (E : Env) (w : World) (u : UserID) (offset : String) : Bool :=
  match storedTime (w.kv (reminderKey u)) with
  | .ok last => 3600 ≤ (E.millis w.ticks).tdiv 1000 - last.tdiv 1000 &&
    DateBefore (dateOf (zoneOf offset) last) (dateOf (zoneOf offset) (E.millis w.ticks))
  | .error _ => false

/-- What is due is what the handler takes for due. -/
theorem World.due_eq {last : Int} (h : storedTime (w.kv (reminderKey u)) = .ok last) :
    w.due E u offset = reminderDue (zoneOf offset) (E.millis w.ticks) last := by
  rw [World.due, h, Bool.eq_iff_iff, reminderDue_iff]
  simp only [Bool.and_eq_true, decide_eq_true_eq]

/-- What `getReminderPreference` answers of a store. -/
def World.summary (w : World) (u : UserID) : Bool := ((w.kv (reminderEnabledKey u)).bind storedBool).getD true

theorem getReminderPreference_run (E : Env) (w : World) (u : UserID) :
    (getReminderPreference u).run (serve E) w = (some (w.summary u), w) := by
  unfold getReminderPreference World.summary
  simp only [Api.kvGet, Proc.request_bind, Proc.run_call, serve]
  cases w.kv (reminderEnabledKey u) <;> rfl

theorem getLastReminderTimeForUser_run (E : Env) (w : World) (u : UserID) :
    (getLastReminderTimeForUser u).run (serve E) w = (some (storedTime (w.kv (reminderKey u))), w) := by
  rw [getLastReminderTimeForUser_eq]
  rfl

/-- **What a request for the lists sends out**: the reminder, if there is to be one, and nothing else. -/
theorem handleLists_notices (h : w.Listed) (u : UserID) (reminder offset : String) :
    ((handleLists u reminder offset).run (serve E) w).2.notices = w.notices ++
      if reminder = "true" ∧ (w.shown E u).myIssues ≠ [] ∧ w.summary u = true ∧ w.due E u offset = true then
        E.directMessage u ("Daily Reminder:\n\n" ++ E.listText (w.shown E u).myIssues) else [] := by
  unfold handleLists
  rw [Proc.run_bind_of _ (ListManager.getAllList_run E h u)]
  simp only [List.length_pos_iff]
  by_cases hask : (w.shown E u).myIssues ≠ [] ∧ reminder = "true"
  · obtain ⟨hmy, rfl⟩ := hask
    rw [if_pos ⟨hmy, rfl⟩, Proc.run_bind_of _ (getReminderPreference_run E w u)]
    cases hsum : w.summary u with
    | false => simp
    | true =>
      rw [if_pos rfl, Proc.run_bind_of _ (getLastReminderTimeForUser_run E w u)]
      cases hlast : storedTime (w.kv (reminderKey u)) with
      | error err => simp [World.due, hlast]
      | ok last =>
        have hnow : Api.getMillis.run (serve E) w = (some (E.millis w.ticks), { w with ticks := w.ticks + 1 }) := rfl
        have hzone : (-60 * (parseInt offset).1).bmod (2 ^ 64) = zoneOf offset := rfl
        rw [World.due_eq hlast]
        simp only
        rw [Proc.run_bind_of _ hnow, hzone]
        by_cases hd : reminderDue (zoneOf offset) (E.millis w.ticks) last = true
        · rw [if_pos hd, if_pos ⟨trivial, hmy, trivial, hd⟩, Proc.run_bind_of _ (issuesListToString_text E _ _),
            Proc.run_bind_of _ (postBotDM_sends E _ _ _)]
          rfl
        · rw [if_neg hd, if_neg fun hc => hd hc.2.2.2]
          simp
  · rw [if_neg hask, if_neg fun hc => hask ⟨hc.2.1, hc.1⟩]
    simp

/-- **A user is reminded exactly when they should be.**  After any run of requests and commands a request for the lists
sends out the daily reminder of the todos in the user's own list, if it asks for a reminder, there are such todos, the
user has not turned the summary off last, and the time saved is due; and otherwise nothing. -/
theorem lists_reminded {E : Env} {ok : World → Input → Prop} {tr : List (Input × Option Reply)} {w : World}
    (h : InputRuns E ok World.empty tr w) (u : UserID) (reminder offset : String) :
    ((Input.http (some u) (.lists reminder offset)).after E w).notices = w.notices ++
      if reminder = "true" ∧ (w.shown E u).myIssues ≠ [] ∧
          lastSet (reminderEnabledKey u) none (tr.map Prod.fst) ≠ some false ∧ w.due E u offset = true then
        E.directMessage u ("Daily Reminder:\n\n" ++ E.listText (w.shown E u).myIssues) else [] := by
  have hs : w.Sound := h.keep (I := World.Sound) (fun _ e hs _ => Input.sound hs e) World.sound_empty
  have hset : w.summary u = true ↔ lastSet (reminderEnabledKey u) none (tr.map Prod.fst) ≠ some false := by
    have hempty : World.empty.kv (reminderEnabledKey u) = (none : Option Bool).map fun b => .text (formatBool b) := rfl
    rw [World.summary, Input.kv_run (.reminderEnabled u) (fun v => (reminderKey_ne_reminderEnabledKey v u).symm) h
      World.sound_empty hempty]
    rcases lastSet (reminderEnabledKey u) none (tr.map Prod.fst) with _ | _ | _ <;> simp [storedBool]
  rw [Input.after_http, userHeader, checkAuth, if_neg u.val_ne_empty]
  simp only [Request.handler, handleLists_notices hs.toListed, hset]

end lists

section sample

/-- Ann turns the summary off, and asks for her lists. -/
def summaryOff : Input := .command ann "" "/todo settings summary off"
def askLists : Input := .http (some ann) (.lists "true" "0")

theorem askLists_reminded :
    (askLists.after Env.daily (keepMilk.after Env.daily World.empty)).notices =
      (keepMilk.after Env.daily World.empty).notices ++
        [.post ⟨"directann", "Daily Reminder:\n\n\n\n* milk\n  * (86400)\n", "", none⟩] ∧
    (askLists.after Env.daily (summaryOff.after Env.daily (keepMilk.after Env.daily World.empty))).notices =
      (summaryOff.after Env.daily (keepMilk.after Env.daily World.empty)).notices := by
  have hadded : InputRuns Env.daily (fun _ _ => True) World.empty _ (keepMilk.after Env.daily World.empty) :=
    .step keepMilk trivial (.done _)
  have hoff : InputRuns Env.daily (fun _ _ => True) World.empty _
      (summaryOff.after Env.daily (keepMilk.after Env.daily World.empty)) :=
    .step keepMilk trivial (.step summaryOff trivial (.done _))
  constructor
  · refine (lists_reminded hadded ann "true" "0").trans ?_
    rw [if_pos (by decide)]
    rfl
  · refine (lists_reminded hoff ann "true" "0").trans ?_
    rw [if_neg (by decide), List.append_nil]

end sample
end Todo

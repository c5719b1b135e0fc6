import TodoPlugin.Inputs
/-!
# Runs of inputs

Requests and commands run one after another from an empty store.  As long as none completes a todo its user sent, or
assigns a todo of the user's own to that user, the store stays `Settled`; and in a settled store a completion, a removal
or a pop that succeeds returns the issue its callers read.
-/
namespace Todo

open Store (ids)

/-! ## Settings are beside the lists -/

/-- The keys of the settings and of the last reminder. -/
inductive SettingKey : String → Prop
  | reminder (u : String) : SettingKey (reminderKey u)
  | reminderEnabled (u : String) : SettingKey (reminderEnabledKey u)
  | allowIncomingTaskRequests (u : String) : SettingKey (allowIncomingTaskRequestsKey u)

theorem SettingKey.ne_listKey {key : String} (h : SettingKey key) (u : String) (l : ListID) : listKey u l ≠ key := by
  cases h with
  | reminder v => exact ne_of_head (head_listKey u l) (head_reminderKey v) (by decide)
  | reminderEnabled v => exact ne_of_head (head_listKey u l) (head_reminderEnabledKey v) (by decide)
  | allowIncomingTaskRequests v =>
    exact ne_of_head (head_listKey u l) (head_allowIncomingTaskRequestsKey v) (by decide)

theorem SettingKey.ne_issueKey {key : String} (h : SettingKey key) (id : String) : issueKey id ≠ key := by
  cases h with
  | reminder v => exact ne_of_head (head_issueKey id) (head_reminderKey v) (by decide)
  | reminderEnabled v => exact ne_of_head (head_issueKey id) (head_reminderEnabledKey v) (by decide)
  | allowIncomingTaskRequests v =>
    exact ne_of_head (head_issueKey id) (head_allowIncomingTaskRequestsKey v) (by decide)

/-- An input saves settings under their keys. -/
theorem commandSetting_key {u : UserID} {words : List String} {key : String} {b : Bool}
    (h : commandSetting u words = some (key, b)) : SettingKey key := by
  unfold commandSetting at h
  split at h
  · rename_i name value
    obtain ⟨k, hk, hv⟩ := Option.bind_eq_some_iff.1 h
    obtain ⟨c, -, hc⟩ := Option.map_eq_some_iff.1 hv
    cases hc
    unfold settingKey at hk
    split at hk <;> cases hk
    · exact .reminderEnabled u
    · exact .allowIncomingTaskRequests u
  · cases h

theorem Input.setting_key {e : Input} {key : String} {b : Bool} (h : e.setting = some (key, b)) : SettingKey key := by
  cases e with
  | http => cases h
  | command u ch text => exact commandSetting_key h

namespace World

variable {w w' : World} {key : String}

theorem list_put_setting (hk : SettingKey key) (value : Value) (u : String) (l : ListID) :
    (w.put key value).list (listKey u l) = w.list (listKey u l) := by
  rw [list, list, put_kv_of_ne _ _ (hk.ne_listKey u l)]

theorem issue_put_setting (hk : SettingKey key) (value : Value) (id : String) :
    (w.put key value).issue id = w.issue id := by
  rw [issue, issue, put_kv_of_ne _ _ (hk.ne_issueKey id)]

theorem Sound.put_setting (h : w.Sound) (hk : SettingKey key) (value : Value) : (w.put key value).Sound where
  decodes u l      := by rw [put_kv_of_ne _ _ (hk.ne_listKey u l)]; exact h.decodes u l
  distinct u l     := by rw [list_put_setting hk]; exact h.distinct u l
  keyed id value e := h.keyed id value (by rwa [put_kv_of_ne _ _ (hk.ne_issueKey id)] at e)

theorem Sound.sameStore (h : w.Sound) (hs : SameStore w w') : w'.Sound := h.of_kv hs.kv

end World

/-- Only the users' lists and the records matter to a paired board. -/
theorem Board.Paired.congr {b b' : Board} (hr : ∀ u l, b'.refs u l = b.refs u l) (hi : ∀ id, b'.issue id = b.issue id)
    (h : b.Paired) : b'.Paired where
  distinct u l    := by rw [hr]; exact h.distinct u l
  one h₁ h₂ he    := h.one (hr _ _ ▸ h₁) (hr _ _ ▸ h₂) he
  out h₁          := by simpa only [hr] using h.out (hr _ _ ▸ h₁)
  inn h₁          := by simpa only [hr] using h.inn (hr _ _ ▸ h₁)
  my h₁           := by simpa only [hr] using h.my (hr _ _ ▸ h₁)
  recorded u l r h₁ := by simpa only [hi] using h.recorded u l r (hr _ _ ▸ h₁)

namespace World

variable {E : Env} {w w' : World}

theorem Settled.sameStore (h : w.Settled E) (hs : SameStore w w') : w'.Settled E := by
  have hb := board_eq_of_kv hs.kv
  refine ⟨h.sound.sameStore hs, hb ▸ h.paired, hb ▸ h.twins, fun n hn => ?_⟩
  rw [hs.drawn] at hn
  exact (congrFun (congrArg Board.issue hb) _).trans (h.fresh n hn)

theorem Settled.put_setting (h : w.Settled E) {key : String} (hk : SettingKey key) (value : Value) :
    (w.put key value).Settled E := by
  have hr : ∀ (u : UserID) l, (w.put key value).board.refs u l = w.board.refs u l := fun u l =>
    list_put_setting hk value u l
  have hi := issue_put_setting (w := w) hk value
  refine ⟨h.sound.put_setting hk value, h.paired.congr hr hi, fun u r hu => ?_, fun n hn => ?_⟩
  · obtain ⟨i, j, h₁, h₂, ht⟩ := h.twins u r (hr u .outList ▸ hu)
    exact ⟨i, j, (hi _).trans h₁, (hi _).trans h₂, ht⟩
  · exact (hi _).trans (h.fresh n hn)

end World

/-! ## One input -/

/-- Inputs run one after another, each where `ok` lets it start. -/
abbrev InputRuns (E : Env) (ok : World → Input → Prop) := Proc.Runs (serve E) Input.exec ok

/-- The operation the input makes, if any, is covered. -/
def Input.Covered (E : Env) (w : World) (e : Input) : Prop := ∀ o, e.op E w = some o → o.Covered w.board

theorem Input.settled {E : Env} {w : World} (h : w.Settled E) {e : Input} (he : e.Covered E w) :
    (e.after E w).Settled E := by
  obtain ⟨w₁, hstep, hsame⟩ := e.exec_step E w
  refine World.Settled.sameStore ?_ hsame
  cases hstep with
  | op o ho => exact ListOp.settled h (he o ho)
  | setting key b hs => exact h.put_setting (Input.setting_key hs) _
  | reminded u => exact h.put_setting (.reminder u) _
  | idle ho hs => exact h

/-! ## What callers read -/

namespace ListManager

variable (E : Env) {w : World} {u : UserID}

/-- **Completing** any todo of a paired store returns an issue. -/
theorem completeIssue_issue (h : w.Sound) (hp : w.board.Paired) (id : String) :
    ∃ r w', (completeIssue u id).run (serve E) w = (some r, w') ∧ (r.err = none → r.issue ≠ none) := by
  by_cases hout : id ∈ ids (w.board.refs u .outList)
  · -- the caller sent it: the counterpart's record is still there to be returned
    obtain ⟨r, hr, rfl⟩ := List.mem_map.1 hout
    obtain ⟨v, m, hv, hmo, hm⟩ := hp.out hr
    obtain ⟨n, hl⟩ := h.locate_of_apart hp.toApart hr
    obtain ⟨j, hj⟩ := hp.recorded v m _ hm
    have hne : r.foreignIssueID ≠ r.issueID := fun he => hmo (hp.one hm hr he).2
    refine ⟨_, _, completeIssue_shared E h hl (hv ▸ v.val_ne_empty), fun _ hn => ?_⟩
    rw [issue_dropped h .outList hne] at hn
    cases hn.symm.trans hj
  · obtain ⟨r, w', hrun, -, hi⟩ := completeIssue_moves E h hp hout
    exact ⟨r, w', hrun, hi⟩

end ListManager

/-- A handler that starts with an operation and panics after it only on a nil issue. -/
theorem returns_of_issue {E : Env} {w w' : World} {α β : Type} {p : Api α} {f : α → Api β} {a : α} {X : Prop}
    (hrun : p.run (serve E) w = (some a, w')) (hf : (f a).Only Call.Quiet X) (hX : ¬ X) :
    ((p >>= f).run (serve E) w).1 ≠ none := by
  rw [Proc.run_bind_of _ hrun]
  intro hn
  exact hX ((quiet_run E hf w').2 hn)

theorem withPayload_returns {E : Env} {w : World} {α : Type} {body : Body α} {fields : List ((α → String) × String)}
    {decodeMsg validMsg : String} {handle : α → Api Response} (h : ∀ r, ((handle r).run (serve E) w).1 ≠ none) :
    ((withPayload body (requireFields fields) decodeMsg validMsg handle).run (serve E) w).1 ≠ none := by
  unfold withPayload
  cases body with
  | error err => exact nofun
  | ok request =>
    simp only
    cases hv : requireFields fields request with
    | some err => exact nofun
    | none =>
      obtain ⟨r, rfl, -⟩ := requireFields_none.1 hv
      exact h r

section handlers
variable (E : Env) {w : World} {u : UserID}

theorem handleComplete_returns (h : w.Sound) (hp : w.board.Paired) (body : Body CompleteAPIRequest) :
    ((handleComplete u body).run (serve E) w).1 ≠ none := by
  apply withPayload_returns
  intro r
  obtain ⟨res, w', hrun, hi⟩ := ListManager.completeIssue_issue E (u := u) h hp r.id
  refine returns_of_issue (X := res.err = none ∧ res.issue = none) hrun ?_ fun hx => hi hx.1 hx.2
  cases hr : res.err with
  | some err => trivial
  | none => exact (informs_announceComplete ..).mono (fun _ => Call.Informs.quiet) fun hn => ⟨rfl, hn⟩

theorem handleRemove_returns (h : w.Sound) (hp : w.board.Paired) (body : Body RemoveAPIRequest) :
    ((handleRemove u body).run (serve E) w).1 ≠ none := by
  apply withPayload_returns
  intro r
  obtain ⟨res, w', hrun, -, hi⟩ := ListManager.removeIssue_moves E h hp
  refine returns_of_issue (X := res.err = none ∧ res.outIssue = none) hrun ?_ fun hx => hi hx.1 hx.2
  cases hr : res.err with
  | some err => trivial
  | none => exact (informs_announceRemove ..).mono (fun _ => Call.Informs.quiet) fun hn => ⟨rfl, hn⟩

theorem runPopCommand_returns (h : w.Sound) (hp : w.board.Paired) (args : List String) (ch text : String) :
    ((runPopCommand args ⟨u, ch, text⟩).run (serve E) w).1 ≠ none := by
  obtain ⟨res, w', hrun, -, hi⟩ := ListManager.popIssue_moves E (u := u) h hp
  refine returns_of_issue (X := res.err = none ∧ res.issue = none) hrun ?_ fun hx => hi hx.1 hx.2
  cases hr : res.err with
  | some err =>
    simp only
    split
    · exact .bind (quiet_postCommandResponse ..) fun _ => trivial
    · trivial
  | none => exact (informs_announcePop ..).mono (fun _ => Call.Informs.quiet) fun hn => ⟨rfl, hn⟩

end handlers

/-- **What the callers of the list manager rely on**: an operation that succeeds returns its issue, and what reads it
does not panic. -/
structure World.IssuesReturned (E : Env) (w : World) : Prop where
  complete : ∀ (u : UserID) id, ∃ r w', (ListManager.completeIssue u id).run (serve E) w = (some r, w') ∧
    (r.err = none → r.issue ≠ none)
  remove   : ∀ (u : UserID) id, ∃ r w', (ListManager.removeIssue u id).run (serve E) w = (some r, w') ∧
    (r.err = none → r.outIssue ≠ none)
  pop      : ∀ u : UserID, ∃ r w', (ListManager.popIssue u).run (serve E) w = (some r, w') ∧
    (r.err = none → r.issue ≠ none)
  handleComplete : ∀ (u : UserID) body, ((Todo.handleComplete u body).run (serve E) w).1 ≠ none
  handleRemove   : ∀ (u : UserID) body, ((Todo.handleRemove u body).run (serve E) w).1 ≠ none
  runPopCommand  : ∀ (u : UserID) args ch text, ((Todo.runPopCommand args ⟨u, ch, text⟩).run (serve E) w).1 ≠ none

theorem World.Settled.issuesReturned {E : Env} {w : World} (h : w.Settled E) : w.IssuesReturned E where
  complete u id := ListManager.completeIssue_issue E h.sound h.paired id
  remove u id := by
    obtain ⟨r, w', hrun, -, hi⟩ := ListManager.removeIssue_moves E h.sound h.paired
    exact ⟨r, w', hrun, hi⟩
  pop u := by
    obtain ⟨r, w', hrun, -, hi⟩ := ListManager.popIssue_moves E h.sound h.paired
    exact ⟨r, w', hrun, hi⟩
  handleComplete _ body := handleComplete_returns E h.sound h.paired body
  handleRemove _ body   := handleRemove_returns E h.sound h.paired body
  runPopCommand _       := runPopCommand_returns E h.sound h.paired

/-- **Every run of covered inputs leaves a store whose operations return the issues their callers read.** -/
theorem inputRuns_issuesReturned (E : Env) {tr : List (Input × Option Reply)} {w : World}
    (h : InputRuns E (fun w e => e.Covered E w) World.empty tr w) : w.IssuesReturned E :=
  (h.keep (I := World.Settled E) (fun _ _ hs he => Input.settled hs he) (World.settled_empty E)).issuesReturned

section sample

/-- Ann sends Bob a todo, and Bob accepts it. -/
def sendMilk : Input := .http (some ann) (.add (.ok (some ⟨"milk", "", "", "bob", ""⟩)))
def acceptMilk : Input := .http (some bob) (.accept (.ok (some ⟨"xx"⟩)))

theorem acceptMilk_issuesReturned :
    (acceptMilk.after Env.sample (sendMilk.after Env.sample World.empty)).IssuesReturned Env.sample := by
  have hsend : sendMilk.Covered Env.sample World.empty := fun o ho => by
    cases ho.symm.trans (show sendMilk.op Env.sample World.empty = some (.sendIssue ann bob "milk" "" "" "") from rfl)
    trivial
  have haccept : acceptMilk.Covered Env.sample (sendMilk.after Env.sample World.empty) := fun o ho => by
    cases ho.symm.trans (show acceptMilk.op Env.sample _ = some (.acceptIssue bob "xx") from rfl)
    trivial
  exact inputRuns_issuesReturned Env.sample (.step sendMilk hsend (.step acceptMilk haccept (.done _)))

/-- Ann completes the todo she sent. -/
def completeMilk : Input := .http (some ann) (.complete (.ok (some ⟨"x"⟩)))

/-- **Once a todo has been completed by its sender**, popping it succeeds without an issue, and the command panics. -/
theorem completeMilk_popPanics : ∃ tr w, InputRuns Env.sample (fun _ _ => True) World.empty tr w ∧
    ((ListManager.popIssue bob).run (serve Env.sample) w).1 = some ⟨none, "ann", none⟩ ∧
    ((runPopCommand [] ⟨bob, "town", "/todo pop"⟩).run (serve Env.sample) w).1 = none :=
  ⟨_, _, .step sendMilk trivial (.step acceptMilk trivial (.step completeMilk trivial (.done _))), by rfl, by rfl⟩

end sample
end Todo

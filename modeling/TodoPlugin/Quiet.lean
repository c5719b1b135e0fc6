import TodoPlugin.Command
/-!
# Quiet procedures

What the parts of a handler call, said once: those that only read (`Call.Reads`), that answer a command (`Call.Answers`)
and that inform somebody (`Call.Informs`).  A procedure is quiet when it writes nothing to the KV store and draws no id.
Everything a handler does besides its operation on the lists, and besides saving a setting, is quiet, and one that only
reads leaves everything as it is.
-/
namespace Todo

open Proc (Only)

/-- The call neither writes to the KV store nor draws an id. -/
def Call.Quiet : Call → Prop
  | .kvSet _ _ | .kvDelete _ | .kvCompareAndSet _ _ _ | .newId => False
  | _ => True

/-- The KV store is the same, and as many ids have been drawn. -/
structure World.SameStore (w w' : World) : Prop where
  kv    : w'.kv = w.kv
  drawn : w'.drawn = w.drawn

namespace World

theorem SameStore.refl (w : World) : SameStore w w := ⟨rfl, rfl⟩

theorem SameStore.trans {w w' w'' : World} (h : SameStore w w') (h' : SameStore w' w'') : SameStore w w'' :=
  ⟨h'.kv.trans h.kv, h'.drawn.trans h.drawn⟩

theorem SameStore.put {w w' : World} (h : SameStore w w') (key : String) (value : Value) :
    SameStore (w.put key value) (w'.put key value) := by
  refine ⟨?_, h.drawn⟩
  rw [World.put, World.put, h.kv]

end World

theorem Call.Quiet.sameStore (E : Env) {c : Call} (hc : c.Quiet) (w : World) : World.SameStore w (serve E c w).2 := by
  cases c with
  | kvSet | kvDelete | kvCompareAndSet | newId => exact hc.elim
  | createPost post =>
    simp only [serve]
    split <;> exact ⟨rfl, rfl⟩
  | kvGet | getMillis | formatTime | getUserByUsername | getUser | getDirectChannel | getPost | sendEphemeralPost
  | publishRefresh => exact ⟨rfl, rfl⟩

/-- **A quiet procedure leaves the store as it is**, and panics only where it may. -/
theorem quiet_run (E : Env) {α : Type} {X : Prop} {p : Api α} (h : p.Only Call.Quiet X) (w : World) :
    World.SameStore w (p.run (serve E) w).2 ∧ ((p.run (serve E) w).1 = none → X) :=
  h.run (fun _ s hc hs => hs.trans (hc.sameStore E s)) (.refl w)

/-- What is done before something quiet is what is done. -/
theorem quiet_bind_run (E : Env) {α β : Type} {X : Prop} {p : Api α} {f : α → Api β}
    (hf : ∀ a, (f a).Only Call.Quiet X) (w : World) :
    World.SameStore (p.run (serve E) w).2 ((p >>= f).run (serve E) w).2 := by
  rw [Proc.run_bind]
  rcases p.run (serve E) w with ⟨_ | a, t⟩
  · exact .refl t
  · exact (quiet_run E (hf a) t).1

variable {X : Prop}

/-! ## Reading -/

/-- The call looks a key or a user up. -/
def Call.Reads : Call → Prop
  | .kvGet _ | .getUser _ => True
  | _                     => False

/-- What only reads leaves everything as it is. -/
theorem Call.Reads.serve (E : Env) {c : Call} (hc : c.Reads) (w : World) : (serve E c w).2 = w := by
  cases c with
  | kvGet | getUser => rfl
  | _ => exact hc.elim

namespace Store

theorem only_getIssue {P : Call → Prop} {issueID : String} (h : P (.kvGet (issueKey issueID))) :
    (getIssue issueID).Only P X := by
  apply Only.bind (.request h)
  rintro (_ | _ | _) <;> trivial

theorem reads_getIssue (issueID : String) : (getIssue issueID).Only Call.Reads X := only_getIssue trivial

section lists
variable {P : Call → Prop} {userID : String} {listID : ListID}

/-! Reading and searching a list are gets of that list, and changing it compares and sets it. -/

theorem only_legacyIssueRef (h : P (.kvGet (listKey userID listID))) : (legacyIssueRef userID listID).Only P X := by
  apply Only.bind (.request h)
  rintro (_ | _ | value)
  · trivial
  · trivial
  · cases hv : unmarshalIDs value <;> simp only [hv] <;> trivial

theorem only_getList (h : P (.kvGet (listKey userID listID))) : (getList userID listID).Only P X := by
  apply Only.bind (.request h)
  rintro (_ | _ | value)
  · trivial
  · trivial
  · cases hv : unmarshalRefs value with
    | ok _ => simp only [hv]; trivial
    | error _ => simp only [hv]; exact only_legacyIssueRef h

theorem only_editList {α : Type} (hget : P (.kvGet (listKey userID listID)))
    (hset : ∀ old list, P (.kvCompareAndSet (listKey userID listID) old (.refs list))) (edit : List IssueRef → Edit α)
    (exhausted : String) : ∀ n, (editList userID listID edit exhausted n).Only P True
  | 0     => trivial
  | n + 1 => by
    apply Only.bind (only_getList hget)
    rintro (err | ⟨list, originalJSONList⟩)
    · trivial
    · simp only
      cases edit list with
      | fail err => trivial
      | panic => trivial
      | save a newList =>
        refine ⟨hset _ _, ?_⟩
        rintro (err | _ | _)
        · trivial
        · exact only_editList hget hset edit exhausted n
        · trivial

theorem only_getIssueReference (h : P (.kvGet (listKey userID listID))) (issueID : String) :
    (getIssueReference userID issueID listID).Only P X := by
  apply Only.bind (.request h)
  rintro (_ | _ | value)
  · trivial
  · trivial
  · cases hv : unmarshalRefs value with
    | ok _ => simp only [hv]; trivial
    | error _ =>
      simp only [hv]
      apply Only.bind (only_legacyIssueRef h)
      rintro (_ | _) <;> trivial

theorem only_getIssueListAndReference (h : ∀ l, P (.kvGet (listKey userID l))) (issueID : String) :
    (getIssueListAndReference userID issueID).Only P X := by
  apply Only.bind (only_getIssueReference (h _) issueID)
  rintro (_ | _)
  · apply Only.bind (only_getIssueReference (h _) issueID)
    rintro (_ | _)
    · apply Only.bind (only_getIssueReference (h _) issueID)
      rintro (_ | _) <;> trivial
    · trivial
  · trivial

end lists

theorem reads_getList (userID : String) (listID : ListID) : (getList userID listID).Only Call.Reads X :=
  only_getList trivial

theorem reads_getRefs (userID : String) (listID : ListID) : (getRefs userID listID).Only Call.Reads X := by
  apply Only.bind (reads_getList ..)
  rintro (_ | _) <;> trivial

theorem reads_getIssueReference (userID issueID : String) (listID : ListID) :
    (getIssueReference userID issueID listID).Only Call.Reads X := only_getIssueReference trivial issueID

theorem reads_getIssueListAndReference (userID issueID : String) :
    (getIssueListAndReference userID issueID).Only Call.Reads X :=
  only_getIssueListAndReference (fun _ => trivial) issueID

end Store

namespace ListManager

theorem reads_getUserName (userID : String) : (getUserName userID).Only Call.Reads X := by
  apply Only.bind (.request trivial)
  rintro (_ | _) <;> trivial

theorem reads_extendIssueInfo (issue : Issue) (ir : IssueRef) : (extendIssueInfo issue ir).Only Call.Reads X := by
  unfold extendIssueInfo
  split
  · trivial
  · apply Only.bind (Store.reads_getIssueListAndReference ..)
    intro _
    exact .bind (reads_getUserName _) fun _ => trivial

theorem reads_extendRefs : ∀ irs : List IssueRef, (extendRefs irs).Only Call.Reads X
  | []        => trivial
  | ir :: irs => by
    apply Only.bind (Store.reads_getIssue _)
    rintro (_ | issue)
    · exact reads_extendRefs irs
    · exact .bind (reads_extendIssueInfo issue ir) fun _ => .bind (reads_extendRefs irs) fun _ => trivial

theorem reads_getIssueList (userID : String) (listID : ListID) : (getIssueList userID listID).Only Call.Reads X := by
  apply Only.bind (Store.reads_getRefs ..)
  rintro (_ | irs)
  · trivial
  · exact .bind (reads_extendRefs irs) fun _ => trivial

theorem reads_getAllList (userID : String) : (getAllList userID).Only Call.Reads X := by
  apply Only.bind (reads_getIssueList ..)
  rintro (_ | _)
  · trivial
  · apply Only.bind (reads_getIssueList ..)
    rintro (_ | _)
    · trivial
    · apply Only.bind (reads_getIssueList ..)
      rintro (_ | _) <;> trivial

end ListManager

section settings
variable {P : Call → Prop} {userID : String}

theorem only_getReminderPreference (h : P (.kvGet (reminderEnabledKey userID))) :
    (getReminderPreference userID).Only P X := by
  apply Only.bind (.request h)
  rintro (_ | _ | _) <;> trivial

theorem only_getAllowIncomingTaskRequestsPreference (h : P (.kvGet (allowIncomingTaskRequestsKey userID))) :
    (getAllowIncomingTaskRequestsPreference userID).Only P X := by
  apply Only.bind (.request h)
  rintro (_ | _ | value)
  · trivial
  · trivial
  · cases hv : storedBool value <;> simp only [hv] <;> trivial

theorem only_getLastReminderTimeForUser (h : P (.kvGet (reminderKey userID))) :
    (getLastReminderTimeForUser userID).Only P X := by
  apply Only.bind (.request h)
  rintro (_ | _ | value)
  · trivial
  · trivial
  · cases value with
    | text text => simp only; split <;> trivial
    | refs | legacy | issue => trivial

end settings

theorem reads_getReminderPreference (userID : String) : (getReminderPreference userID).Only Call.Reads X :=
  only_getReminderPreference trivial

theorem reads_getAllowIncomingTaskRequestsPreference (userID : String) :
    (getAllowIncomingTaskRequestsPreference userID).Only Call.Reads X :=
  only_getAllowIncomingTaskRequestsPreference trivial

theorem reads_getLastReminderTimeForUser (userID : String) :
    (getLastReminderTimeForUser userID).Only Call.Reads X := only_getLastReminderTimeForUser trivial

theorem quiet_of_reads {α : Type} {p : Api α} (h : p.Only Call.Reads X) : p.Only Call.Quiet X :=
  h.mono (fun c hc => by cases c <;> trivial) id

theorem ListManager.quiet_getUserName (userID : String) : (getUserName userID).Only Call.Quiet X :=
  quiet_of_reads (reads_getUserName _)

theorem ListManager.quiet_getIssueList (userID : String) (listID : ListID) :
    (getIssueList userID listID).Only Call.Quiet X := quiet_of_reads (reads_getIssueList ..)

theorem quiet_getReminderPreference (userID : String) : (getReminderPreference userID).Only Call.Quiet X :=
  quiet_of_reads (reads_getReminderPreference _)

theorem quiet_getAllowIncomingTaskRequestsPreference (userID : String) :
    (getAllowIncomingTaskRequestsPreference userID).Only Call.Quiet X :=
  quiet_of_reads (reads_getAllowIncomingTaskRequestsPreference _)

/-! ## Posting and answering -/

section posts
variable {P : Call → Prop}

/-! What these call is said once, of any calls that comprise it. -/

theorem only_deref {issue : Option Issue} (h : issue = none → X) : (deref issue).Only P X := by
  cases issue with
  | none => exact h rfl
  | some _ => trivial

theorem only_createBotPostDM {post : Post} {userID : String} (hchannel : P (.getDirectChannel userID))
    (hpost : ∀ channelID, P (.createPost { post with channelID := channelID })) :
    (createBotPostDM post userID).Only P X := by
  apply Only.bind (.request hchannel)
  rintro (_ | _ | channelID)
  · trivial
  · trivial
  · exact .bind (.request (hpost channelID)) fun _ => trivial

theorem only_postReplyIfNeeded (hget : ∀ postID, P (.getPost postID))
    (hpost : ∀ post : Post, post.props = none → P (.createPost post)) (postID message todo postPermalink : String) :
    (postReplyIfNeeded postID message todo postPermalink).Only P X := by
  unfold postReplyIfNeeded
  split
  · refine .bind ?_ fun _ => trivial
    unfold replyPostBot
    split
    · trivial
    · apply Only.bind (.request (hget _))
      rintro (_ | post)
      · trivial
      · exact .request (hpost _ rfl)
  · trivial

end posts

/-- The call looks a key or a user up, writes a time out or answers a command. -/
def Call.Answers : Call → Prop
  | .kvGet _ | .getUser _ | .formatTime _ | .sendEphemeralPost _ _ _ => True
  | _ => False

theorem answers_of_reads {α : Type} {p : Api α} (h : p.Only Call.Reads X) : p.Only Call.Answers X :=
  h.mono (fun c hc => by cases c <;> trivial) id

theorem answers_postCommandResponse (args : CommandArgs) (text : String) :
    (postCommandResponse args text).Only Call.Answers X := .request trivial

theorem formats_issueLines : ∀ (issues : List ExtendedIssue) (str : String),
    (issueLines str issues).Only (fun c => ∃ sec, c = .formatTime sec) X
  | [], _          => trivial
  | _ :: issues, _ => .bind (.request ⟨_, rfl⟩) fun _ => formats_issueLines issues _

/-- Writing a list out asks for nothing but its times. -/
theorem formats_issuesListToString (issues : List ExtendedIssue) :
    (issuesListToString issues).Only (fun c => ∃ sec, c = .formatTime sec) X := by
  unfold issuesListToString
  split
  · trivial
  · exact formats_issueLines ..

theorem answers_issuesListToString (issues : List ExtendedIssue) : (issuesListToString issues).Only Call.Answers X :=
  (formats_issuesListToString issues).mono (fun _ ⟨_, hc⟩ => hc ▸ trivial) id

/-- A list written out in the answer to a command. -/
theorem answers_list {α : Type} (issues : List ExtendedIssue) (args : CommandArgs) (text : String → String) (a : α) :
    (issuesListToString issues >>= fun list => postCommandResponse args (text list) >>= fun _ =>
      (pure a : Api α)).Only Call.Answers X :=
  .bind (answers_issuesListToString _) fun _ => .bind (answers_postCommandResponse ..) fun _ => trivial

theorem answers_reportError (args : CommandArgs) : ∀ res, (reportError args res).Only Call.Answers X
  | (_, none)       => trivial
  | (true, some _)  => answers_postCommandResponse ..
  | (false, some _) => answers_postCommandResponse ..

section commands
variable {P : Call → Prop} (hP : ∀ c, Call.Answers c → P c)
include hP

theorem only_runListCommand (args : CommandArgs) (hrefresh : ∀ lists, P (.publishRefresh args.userID lists))
    (words : List String) : (runListCommand words args).Only P X := by
  have hlist : ∀ l message, (listCommand l message args).Only P X := by
    intro l message
    apply Only.bind ((answers_of_reads (ListManager.reads_getIssueList ..)).mono hP id)
    rintro (err | issues)
    · trivial
    · exact .bind (.request (hrefresh _)) fun _ => (answers_list ..).mono hP id
  unfold runListCommand
  split
  · exact hlist ..
  · exact hlist ..
  · exact hlist ..
  · exact hlist ..
  · exact .bind ((answers_postCommandResponse ..).mono hP id) fun _ => trivial

theorem only_runSettingsCommand (args : CommandArgs) (hset : ∀ key b, P (.kvSet key (.text (formatBool b))))
    (words : List String) : (runSettingsCommand words args).Only P True := by
  have hanswer : ∀ {α : Type} text (a : α), (postCommandResponse args text >>= fun _ => (pure a : Api α)).Only P True :=
    fun _ _ => .bind ((answers_postCommandResponse ..).mono hP id) fun _ => trivial
  have hsummary : (getReminderPreference args.userID).Only P True :=
    (answers_of_reads (reads_getReminderPreference _)).mono hP id
  have hallow : (getAllowIncomingTaskRequestsPreference args.userID).Only P True :=
    (answers_of_reads (reads_getAllowIncomingTaskRequestsPreference _)).mono hP id
  have hsave : ∀ value name saveErr onMessage offMessage key, (runSetting value name saveErr onMessage offMessage
      (fun b => Api.kvSet key (.text (formatBool b))) args).Only P True := by
    intro value name saveErr onMessage offMessage key
    unfold runSetting
    split
    · apply Only.bind (.request (hset _ _))
      rintro (err | _)
      · trivial
      · exact hanswer ..
    · trivial
  unfold runSettingsCommand
  split
  · exact .bind hsummary fun _ => .bind hallow fun _ => hanswer ..
  · exact .bind hsummary fun _ => hanswer ..
  · exact hsave ..
  · trivial
  · apply Only.bind hallow
    intro res
    split
    · trivial
    · exact hanswer ..
  · exact hsave ..
  · trivial
  · trivial

/-- A request for the lists reads, and may send its user the reminder and save the time of it. -/
theorem only_handleLists (userID reminder timezoneOffset : String) (hmillis : P .getMillis)
    (hchannel : P (.getDirectChannel userID)) (hpost : ∀ post : Post, post.props = none → P (.createPost post))
    (hset : ∀ text, P (.kvSet (reminderKey userID) (.text text))) :
    (handleLists userID reminder timezoneOffset).Only P X := by
  have hread : ∀ {α : Type} {p : Api α}, p.Only Call.Reads X → p.Only P X := fun h => (answers_of_reads h).mono hP id
  apply Only.bind (hread (ListManager.reads_getAllList _))
  rintro (err | lists)
  · trivial
  simp only
  split
  · apply Only.bind (hread (reads_getReminderPreference _))
    intro preference
    split
    · apply Only.bind (hread (reads_getLastReminderTimeForUser _))
      rintro (err | last)
      · trivial
      refine .bind (.request hmillis) fun now => ?_
      split
      · exact .bind ((answers_issuesListToString _).mono hP id) fun _ =>
          .bind (only_createBotPostDM hchannel fun _ => hpost _ rfl) fun _ =>
          .bind (.bind (.request hmillis) fun _ => .request (hset _)) fun _ => trivial
      · trivial
    · trivial
  · trivial

end commands

/-! ## Informing -/

/-- The call answers, or informs somebody with a refresh event or a post without buttons. -/
def Call.Informs : Call → Prop
  | .createPost post => post.props = none
  | .publishRefresh _ _ | .getPost _ | .getDirectChannel _ => True
  | c => c.Answers

theorem Call.Answers.informs {c : Call} (h : c.Answers) : c.Informs := by
  cases c <;> first | exact h | exact h.elim

theorem informs_of_answers {α : Type} {p : Api α} (h : p.Only Call.Answers X) : p.Only Call.Informs X :=
  h.mono (fun _ => Call.Answers.informs) id

theorem informs_getUserName (userID : String) : (ListManager.getUserName userID).Only Call.Informs X :=
  informs_of_answers (answers_of_reads (ListManager.reads_getUserName _))

theorem informs_sendRefreshEvent (userID : String) (lists : List ListID) :
    (sendRefreshEvent userID lists).Only Call.Informs X := .request trivial

theorem informs_postBotDM (userID message : String) : (postBotDM userID message).Only Call.Informs X :=
  only_createBotPostDM trivial fun _ => rfl

theorem informs_postReplyIfNeeded (postID message todo postPermalink : String) :
    (postReplyIfNeeded postID message todo postPermalink).Only Call.Informs X :=
  only_postReplyIfNeeded (fun _ => trivial) (fun _ h => h) ..

/-! What follows a completion, a removal or a pop panics only on a nil issue. -/

theorem informs_announceComplete (userID : String) (issue : Option Issue) (foreignID : String) (l : ListID) :
    (announceComplete userID issue foreignID l).Only Call.Informs (issue = none) := by
  refine .bind (informs_sendRefreshEvent ..) fun _ => .bind (informs_getUserName _) fun _ =>
    .bind (only_deref id) fun _ => .bind (informs_postReplyIfNeeded ..) fun _ => ?_
  split
  · trivial
  · exact .bind (informs_sendRefreshEvent ..) fun _ => .bind (informs_postBotDM ..) fun _ => trivial

theorem informs_announceRemove (userID : String) (issue : Option Issue) (foreignID : String) (isSender : Bool)
    (l : ListID) : (announceRemove userID issue foreignID isSender l).Only Call.Informs (issue = none) := by
  refine .bind (informs_sendRefreshEvent ..) fun _ => .bind (informs_getUserName _) fun _ =>
    .bind (only_deref id) fun _ => .bind (informs_postReplyIfNeeded ..) fun _ => ?_
  split
  · trivial
  · exact .bind (informs_sendRefreshEvent ..) fun _ => .bind (informs_postBotDM ..) fun _ => trivial

theorem informs_announcePopped (userName foreignID : String) (issue : Option Issue) :
    (announcePopped userName foreignID issue).Only Call.Informs (issue = none) := by
  unfold announcePopped
  split
  · exact .bind (informs_sendRefreshEvent ..) fun _ => .bind (only_deref id) fun _ => informs_postBotDM ..
  · trivial

theorem informs_announcePop (issue : Option Issue) (foreignID : String) (args : CommandArgs) :
    (announcePop issue foreignID args).Only Call.Informs (issue = none) := by
  refine .bind (informs_getUserName _) fun _ => .bind (informs_announcePopped ..) fun _ =>
    .bind (informs_sendRefreshEvent ..) fun _ => .bind (only_deref id) fun _ =>
    .bind (informs_postReplyIfNeeded ..) fun _ =>
    .bind (informs_of_answers (answers_of_reads (ListManager.reads_getIssueList ..))) ?_
  rintro (err | issues)
  · exact .bind (informs_of_answers (answers_postCommandResponse ..)) fun _ => trivial
  · exact informs_of_answers (answers_list ..)

/-! ## What of that is quiet -/

theorem Call.Informs.quiet {c : Call} (h : c.Informs) : c.Quiet := by
  cases c <;> trivial

theorem quiet_of_informs {α : Type} {p : Api α} (h : p.Only Call.Informs X) : p.Only Call.Quiet X :=
  h.mono (fun _ => Call.Informs.quiet) id

theorem Call.Answers.quiet {c : Call} (h : c.Answers) : c.Quiet := h.informs.quiet

theorem quiet_of_answers {α : Type} {p : Api α} (h : p.Only Call.Answers X) : p.Only Call.Quiet X :=
  quiet_of_informs (informs_of_answers h)

theorem quiet_sendRefreshEvent (userID : String) (lists : List ListID) :
    (sendRefreshEvent userID lists).Only Call.Quiet X := quiet_of_informs (informs_sendRefreshEvent ..)

theorem quiet_postBotDM (userID message : String) : (postBotDM userID message).Only Call.Quiet X :=
  quiet_of_informs (informs_postBotDM ..)

theorem quiet_postBotCustomDM (userID message todo postPermalink issueID : String) :
    (postBotCustomDM userID message todo postPermalink issueID).Only Call.Quiet X :=
  only_createBotPostDM trivial fun _ => trivial

theorem quiet_postReplyIfNeeded (postID message todo postPermalink : String) :
    (postReplyIfNeeded postID message todo postPermalink).Only Call.Quiet X :=
  quiet_of_informs (informs_postReplyIfNeeded ..)

theorem quiet_postCommandResponse (args : CommandArgs) (text : String) :
    (postCommandResponse args text).Only Call.Quiet X := quiet_of_answers (answers_postCommandResponse ..)

theorem quiet_reportError (args : CommandArgs) (res : Bool × Option String) :
    (reportError args res).Only Call.Quiet X := quiet_of_answers (answers_reportError args res)

theorem quiet_runListCommand (words : List String) (args : CommandArgs) :
    (runListCommand words args).Only Call.Quiet X :=
  only_runListCommand (fun _ => Call.Answers.quiet) args (fun _ => trivial) words

end Todo

import TodoPlugin.Inputs
/-!
# What is told to whom

The front-end hears of a change by a refresh event, and a user by a post; a `custom_todo` post also carries the todo it
is about, for its buttons.  The operations of the list manager tell nobody anything: it is the handlers that do, after
the operation, so what an input publishes and posts is read off its handler (`Publishes`, `PostsCustom`).
-/
namespace Todo

open Proc (Only)

/-- The call reads, or writes the store; it tells nobody anything. -/
def Call.Inner : Call → Prop
  | .getDirectChannel _ | .createPost _ | .sendEphemeralPost _ _ _ | .publishRefresh _ _ => False
  | _ => True

/-- The call publishes no refresh event. -/
def Call.Unrefreshing : Call → Prop
  | .publishRefresh _ _ => False
  | _                   => True

/-- The call makes no `custom_todo` post. -/
def Call.Uncustom : Call → Prop
  | .createPost post => post.props = none
  | _                => True

theorem inner_of_reads {α : Type} {p : Api α} (h : p.Only Call.Reads True) : p.Only Call.Inner True :=
  h.mono (fun c hc => by cases c <;> trivial) id

theorem unrefreshing_of_inner {α : Type} {p : Api α} {X : Prop} (h : p.Only Call.Inner X) : p.Only Call.Unrefreshing X :=
  h.mono (fun c hc => by cases c <;> trivial) id

theorem uncustom_of_inner {α : Type} {p : Api α} {X : Prop} (h : p.Only Call.Inner X) : p.Only Call.Uncustom X :=
  h.mono (fun c hc => by cases c <;> trivial) id

/-! ## The list manager -/

namespace Store

theorem inner_saveIssue (issue : Issue) : (saveIssue issue).Only Call.Inner True := .request trivial

theorem inner_removeIssue (issueID : String) : (removeIssue issueID).Only Call.Inner True := .request trivial

theorem inner_getIssue (issueID : String) : (getIssue issueID).Only Call.Inner True := inner_of_reads (reads_getIssue _)

theorem inner_getAndRemoveIssue (issueID : String) : (getAndRemoveIssue issueID).Only Call.Inner True := by
  apply Only.bind (inner_getIssue _)
  rintro (err | issue)
  · trivial
  · apply Only.bind (inner_removeIssue _)
    rintro (err | _) <;> trivial

theorem inner_getIssueReference (userID issueID : String) (listID : ListID) :
    (getIssueReference userID issueID listID).Only Call.Inner True := inner_of_reads (reads_getIssueReference ..)

theorem inner_getIssueListAndReference (userID issueID : String) :
    (getIssueListAndReference userID issueID).Only Call.Inner True := inner_of_reads (reads_getIssueListAndReference ..)

theorem inner_editList {α : Type} (userID : String) (listID : ListID) (edit : List IssueRef → Edit α)
    (exhausted : String) (n : Nat) : (editList userID listID edit exhausted n).Only Call.Inner True :=
  only_editList trivial (fun _ _ => trivial) edit exhausted n

theorem inner_addReference (userID issueID : String) (listID : ListID) (foreignUserID foreignIssueID : String) :
    (addReference userID issueID listID foreignUserID foreignIssueID).Only Call.Inner True := inner_editList ..

theorem inner_removeReference (userID issueID : String) (listID : ListID) :
    (removeReference userID issueID listID).Only Call.Inner True := inner_editList ..

theorem inner_popReference (userID : String) (listID : ListID) :
    (popReference userID listID).Only Call.Inner True := inner_editList ..

theorem inner_bumpReference (userID issueID : String) (listID : ListID) :
    (bumpReference userID issueID listID).Only Call.Inner True := inner_editList ..

end Store

theorem inner_newIssue (m p d q : String) : (newIssue m p d q).Only Call.Inner True :=
  .bind (.request trivial) fun _ => .bind (.request trivial) fun _ => trivial

namespace ListManager

open Store (inner_saveIssue inner_removeIssue inner_getIssue inner_getAndRemoveIssue inner_getIssueReference
  inner_getIssueListAndReference inner_addReference inner_removeReference inner_popReference inner_bumpReference)

theorem inner_getUserName (userID : String) : (getUserName userID).Only Call.Inner True :=
  inner_of_reads (reads_getUserName _)

theorem inner_getIssueList (userID : String) (listID : ListID) : (getIssueList userID listID).Only Call.Inner True :=
  inner_of_reads (reads_getIssueList ..)

theorem inner_addIssue (u m p d q : String) : (addIssue u m p d q).Only Call.Inner True := by
  apply Only.bind (inner_newIssue ..)
  intro issue
  apply Only.bind (inner_saveIssue _)
  rintro (err | _)
  · trivial
  · apply Only.bind (inner_addReference ..)
    rintro (err | _)
    · exact .bind (inner_removeIssue _) fun _ => trivial
    · trivial

theorem inner_sendIssue (u v m p d q : String) : (sendIssue u v m p d q).Only Call.Inner True := by
  apply Only.bind (inner_newIssue ..)
  intro senderIssue
  apply Only.bind (inner_saveIssue _)
  rintro (err | _)
  · trivial
  apply Only.bind (inner_newIssue ..)
  intro receiverIssue
  apply Only.bind (inner_saveIssue _)
  rintro (err | _)
  · exact .bind (inner_removeIssue _) fun _ => trivial
  apply Only.bind (inner_addReference ..)
  rintro (err | _)
  · exact .bind (inner_removeIssue _) fun _ => .bind (inner_removeIssue _) fun _ => trivial
  apply Only.bind (inner_addReference ..)
  rintro (err | _)
  · exact .bind (inner_removeIssue _) fun _ => .bind (inner_removeIssue _) fun _ =>
      .bind (inner_removeReference ..) fun _ => trivial
  · trivial

theorem inner_completeIssue (u id : String) : (completeIssue u id).Only Call.Inner True := by
  apply Only.bind (inner_getIssueListAndReference ..)
  rintro ⟨l, _ | ir, n⟩
  · trivial
  apply Only.bind (inner_removeReference ..)
  rintro (err | _)
  · trivial
  apply Only.bind (inner_getAndRemoveIssue _)
  intro issue
  split
  · trivial
  · exact .bind (inner_removeReference ..) fun _ => .bind (inner_getAndRemoveIssue _) fun _ => trivial

theorem inner_editIssue (u id m d : String) : (editIssue u id m d).Only Call.Inner True := by
  apply Only.bind (inner_getIssue _)
  rintro (err | issue)
  · trivial
  apply Only.bind (inner_getIssueListAndReference ..)
  rintro ⟨l, _ | ir, n⟩
  · trivial
  simp only
  split
  · apply Only.bind (inner_getIssue _)
    rintro (err | foreignIssue)
    · exact .bind (.ret _) fun _ => .bind (inner_saveIssue _) fun res => by cases res <;> trivial
    · exact .bind (inner_saveIssue _) fun _ => .bind (.ret _) fun _ => .bind (inner_saveIssue _) fun res => by
        cases res <;> trivial
  · exact .bind (.ret _) fun _ => .bind (inner_saveIssue _) fun res => by cases res <;> trivial

theorem inner_assign (id u v old : String) (i : Issue) : (assign id u v old i).Only Call.Inner True := by
  apply Only.bind (inner_newIssue ..)
  intro receiverIssue
  apply Only.bind (inner_saveIssue _)
  rintro (err | _)
  · trivial
  apply Only.bind (inner_addReference ..)
  rintro (err | _)
  · trivial
  apply Only.bind (inner_addReference ..)
  rintro (err | _) <;> trivial

theorem inner_reassign (id u v : String) (l : ListID) (ir : IssueRef) (i : Issue) :
    (reassign id u v l ir i).Only Call.Inner True := by
  unfold reassign
  split
  · apply Only.bind (inner_removeReference ..)
    rintro (err | _)
    · trivial
    · apply Only.bind (inner_addReference ..)
      rintro (err | _) <;> trivial
  · split
    · apply Only.bind (inner_removeReference ..)
      rintro (err | _)
      · trivial
      · exact inner_assign ..
    · exact inner_assign ..

theorem inner_changeAssignment (id u v : String) : (changeAssignment id u v).Only Call.Inner True := by
  apply Only.bind (inner_getIssue _)
  rintro (err | issue)
  · trivial
  apply Only.bind (inner_getIssueListAndReference ..)
  rintro ⟨l, _ | ir, n⟩
  · trivial
  simp only
  split
  · trivial
  split
  · apply Only.bind (inner_getIssueListAndReference ..)
    rintro ⟨fl, _ | fr, fn⟩
    · trivial
    apply Only.bind (inner_removeReference ..)
    rintro (err | _)
    · trivial
    · exact .bind (inner_getAndRemoveIssue _) fun _ => inner_reassign ..
  · exact inner_reassign ..

theorem inner_acceptIssue (u id : String) : (acceptIssue u id).Only Call.Inner True := by
  apply Only.bind (inner_getIssue _)
  rintro (err | issue)
  · trivial
  apply Only.bind (inner_getIssueReference ..)
  rintro (err | ⟨ir, n⟩)
  · trivial
  apply Only.bind (inner_addReference ..)
  rintro (err | _)
  · trivial
  apply Only.bind (inner_removeReference ..)
  rintro (err | _)
  · exact .bind (inner_removeReference ..) fun _ => trivial
  · trivial

theorem inner_removeIssue (u id : String) : (removeIssue u id).Only Call.Inner True := by
  apply Only.bind (inner_getIssueListAndReference ..)
  rintro ⟨l, _ | ir, n⟩
  · trivial
  apply Only.bind (inner_removeReference ..)
  rintro (err | _)
  · trivial
  apply Only.bind (inner_getAndRemoveIssue _)
  intro issue
  split
  · trivial
  · refine .bind (inner_getIssueListAndReference ..) ?_
    rintro ⟨fl, fr, fn⟩
    exact .bind (inner_removeReference ..) fun _ => .bind (inner_getAndRemoveIssue _) fun _ => trivial

theorem inner_popIssue (u : String) : (popIssue u).Only Call.Inner True := by
  apply Only.bind (inner_popReference ..)
  rintro (err | ir)
  · trivial
  apply Only.bind (inner_getAndRemoveIssue _)
  intro issue
  split
  · trivial
  · exact .bind (inner_removeReference ..) fun _ => .bind (inner_getAndRemoveIssue _) fun _ => trivial

theorem inner_bumpIssue (u id : String) : (bumpIssue u id).Only Call.Inner True := by
  apply Only.bind (inner_getIssueReference ..)
  rintro (err | ⟨ir, n⟩)
  · trivial
  apply Only.bind (inner_bumpReference ..)
  rintro (err | _)
  · trivial
  apply Only.bind (inner_getIssue _)
  rintro (err | issue) <;> trivial

end ListManager

/-! ## Posts and answers -/

section answers
variable {X : Prop}

theorem Call.Informs.uncustom {c : Call} (h : c.Informs) : c.Uncustom := by
  cases c <;> first | exact h | trivial

theorem uncustom_of_informs {α : Type} {p : Api α} (h : p.Only Call.Informs X) : p.Only Call.Uncustom X :=
  h.mono (fun _ => Call.Informs.uncustom) id

theorem uncustom_of_answers {α : Type} {p : Api α} (h : p.Only Call.Answers X) : p.Only Call.Uncustom X :=
  uncustom_of_informs (informs_of_answers h)

theorem uncustom_sendRefreshEvent (userID : String) (lists : List ListID) :
    (sendRefreshEvent userID lists).Only Call.Uncustom X := uncustom_of_informs (informs_sendRefreshEvent ..)

theorem Call.Answers.unrefreshing {c : Call} (h : c.Answers) : c.Unrefreshing := by
  cases c <;> first | exact h.elim | trivial

theorem unrefreshing_of_answers {α : Type} {p : Api α} (h : p.Only Call.Answers X) : p.Only Call.Unrefreshing X :=
  h.mono (fun _ => Call.Answers.unrefreshing) id

theorem unrefreshing_postBotDM (userID message : String) : (postBotDM userID message).Only Call.Unrefreshing X :=
  only_createBotPostDM trivial fun _ => trivial

theorem unrefreshing_postBotCustomDM (userID message todo postPermalink issueID : String) :
    (postBotCustomDM userID message todo postPermalink issueID).Only Call.Unrefreshing X :=
  only_createBotPostDM trivial fun _ => trivial

theorem unrefreshing_postReplyIfNeeded (postID message todo postPermalink : String) :
    (postReplyIfNeeded postID message todo postPermalink).Only Call.Unrefreshing X :=
  only_postReplyIfNeeded (fun _ => trivial) (fun _ _ => trivial) ..

end answers

/-! ## The refresh events of a run -/

section publishes
variable {E : Env} {α β : Type} {p : Api α} {f : α → Api β} {w w' : World} {a : α} {q : String} {l : ListID} {X : Prop}

/-- The run publishes a refresh event to `q` with the list `l`. -/
def Publishes (E : Env) (p : Api α) (w : World) (q : String) (l : ListID) : Prop :=
  ∃ lists s, (Call.publishRefresh q lists, s) ∈ p.calls (serve E) w ∧ l ∈ lists

theorem not_publishes (h : p.Only Call.Unrefreshing X) : ¬ Publishes E p w q l := by
  rintro ⟨lists, s, hmem, -⟩
  exact h.calls _ hmem

theorem publishes_bind (h : p.run (serve E) w = (some a, w')) :
    Publishes E (p >>= f) w q l ↔ Publishes E p w q l ∨ Publishes E (f a) w' q l := by
  unfold Publishes
  rw [Proc.calls_bind_of _ h]
  simp only [List.mem_append, or_and_right, exists_or]

/-- What publishes nothing hands over to what follows it. -/
theorem publishes_bind_of (h : p.run (serve E) w = (some a, w')) (hp : p.Only Call.Unrefreshing X) :
    Publishes E (p >>= f) w q l ↔ Publishes E (f a) w' q l := by
  rw [publishes_bind h, or_iff_right (not_publishes hp)]

/-- What returns hands over to what follows it. -/
theorem publishes_then {P : Call → Prop} (hp : p.Only P False) {c : Prop} (hf : ∀ a w', Publishes E (f a) w' q l ↔ c) :
    Publishes E (p >>= f) w q l ↔ Publishes E p w q l ∨ c := by
  have hret : True ∧ ((p.run (serve E) w).1 = none → False) :=
    hp.run (I := fun _ => True) (fun _ _ _ _ => trivial) trivial
  rcases hrun : p.run (serve E) w with ⟨_ | a, w'⟩
  · rw [hrun] at hret
    exact (hret.2 rfl).elim
  · rw [publishes_bind hrun, hf]

/-- What publishes nothing, and returns, changes nothing of what is published. -/
theorem publishes_after (hp : p.Only Call.Unrefreshing False) {c : Prop} (hf : ∀ a w', Publishes E (f a) w' q l ↔ c) :
    Publishes E (p >>= f) w q l ↔ c := by
  rw [publishes_then hp hf, or_iff_right (not_publishes hp)]

theorem publishes_refresh (u : String) (lists : List ListID) {f : Unit → Api β} :
    Publishes E (sendRefreshEvent u lists >>= f) w q l ↔
      (q = u ∧ l ∈ lists) ∨ Publishes E (f ()) (w.notify (.refresh u lists)) q l := by
  have hrun : (sendRefreshEvent u lists).run (serve E) w = (some (), w.notify (.refresh u lists)) := rfl
  rw [publishes_bind hrun]
  refine or_congr_left ⟨?_, ?_⟩
  · rintro ⟨lists', s, hmem, hl⟩
    cases List.mem_singleton.1 hmem
    exact ⟨rfl, hl⟩
  · rintro ⟨rfl, hl⟩
    exact ⟨lists, w, List.mem_singleton.2 rfl, hl⟩

theorem publishes_recover (b : α) : Publishes E (p.recover b) w q l ↔ Publishes E p w q l := by
  unfold Publishes
  rw [Proc.calls_recover]

end publishes

/-! ## The `custom_todo` posts of a run -/

section posts
variable {E : Env} {α β : Type} {w s : World} {r : String} {props : TodoProps} {X : Prop}

/-- The run posts a `custom_todo` direct message to `r`, the store being `s` then. -/
def PostsCustom (E : Env) (p : Api α) (w : World) (r : String) (props : TodoProps) (s : World) : Prop :=
  ∃ pre post suf, p.calls (serve E) w = pre ++ (.getDirectChannel r, s) :: (.createPost post, s) :: suf ∧
    E.directChannel r = .ok (some post.channelID) ∧ E.createPost post = .ok () ∧ post.props = some props

theorem PostsCustom.of_drop {p : Api α} {post : Post} {suf : List (Call × World)} (n : Nat)
    (hcalls : (p.calls (serve E) w).drop n = (.getDirectChannel r, s) :: (.createPost post, s) :: suf)
    (hch : E.directChannel r = .ok (some post.channelID)) (hpost : E.createPost post = .ok ())
    (hprops : post.props = some props) : PostsCustom E p w r props s :=
  ⟨_, post, suf, by rw [← hcalls, List.take_append_drop], hch, hpost, hprops⟩

theorem not_postsCustom {p : Api α} (h : p.Only Call.Uncustom X) : ¬ PostsCustom E p w r props s := by
  rintro ⟨pre, post, suf, hcalls, -, -, hprops⟩
  have hmem : ((.createPost post, s) : Call × World) ∈ p.calls (serve E) w := by
    rw [hcalls]
    simp
  cases (h.calls _ hmem).symm.trans hprops

/-- What stays inside hands over to what follows it. -/
theorem PostsCustom.of_inner {f : α → Api β} : ∀ {p : Api α} {w : World}, p.Only Call.Inner X →
    PostsCustom E (p >>= f) w r props s → ∃ a w', p.run (serve E) w = (some a, w') ∧ PostsCustom E (f a) w' r props s
  | .ret a, w, _, h              => ⟨a, w, rfl, h⟩
  | .panic, w, _, h              => by
    obtain ⟨pre, post, suf, hcalls, -⟩ := h
    cases pre <;> cases hcalls
  | .call c k, w, ⟨hc, hk⟩, h => by
    obtain ⟨pre, post, suf, hcalls, hrest⟩ := h
    cases pre with
    | nil =>
      obtain ⟨hhead, -⟩ := List.cons.inj hcalls
      cases hhead
      exact hc.elim
    | cons x pre =>
      obtain ⟨-, hcalls'⟩ := List.cons.inj hcalls
      exact PostsCustom.of_inner (p := k (serve E c w).1) (w := (serve E c w).2) (hk _)
        ⟨pre, post, suf, hcalls', hrest⟩

theorem PostsCustom.of_refresh {u : String} {lists : List ListID} {f : Unit → Api β}
    (h : PostsCustom E (sendRefreshEvent u lists >>= f) w r props s) :
    PostsCustom E (f ()) (w.notify (.refresh u lists)) r props s := by
  obtain ⟨pre, post, suf, hcalls, hrest⟩ := h
  cases pre with
  | nil =>
    obtain ⟨hhead, -⟩ := List.cons.inj hcalls
    cases hhead
  | cons x pre =>
    obtain ⟨-, hcalls'⟩ := List.cons.inj hcalls
    exact ⟨pre, post, suf, hcalls', hrest⟩

/-- What makes no such post after a part leaves those of the part. -/
theorem PostsCustom.of_uncustom {p : Api α} {f : α → Api β} (hf : ∀ a, (f a).Only Call.Uncustom X)
    (h : PostsCustom E (p >>= f) w r props s) : PostsCustom E p w r props s := by
  obtain ⟨pre, post, suf, hcalls, hch, hpost, hprops⟩ := h
  obtain ⟨rest, hrest, huncustom⟩ := Only.calls_bind (serve E) hf p w
  have hnot : ((.createPost post, s) : Call × World) ∉ rest := fun hmem => by
    cases (huncustom _ hmem).symm.trans hprops
  rw [hrest] at hcalls
  rw [List.append_cons, List.append_cons] at hcalls
  rcases List.append_eq_append_iff.1 hcalls with ⟨as, hA, hB⟩ | ⟨bs, hA, -⟩
  · rcases List.eq_nil_or_concat as with rfl | ⟨as', y, rfl⟩
    · rw [List.append_nil] at hA
      exact ⟨pre, post, [], by rw [← hA, List.append_assoc]; rfl, hch, hpost, hprops⟩
    · rw [List.concat_eq_append, ← List.append_assoc] at hA
      obtain ⟨-, hy⟩ := List.append_inj' hA rfl
      refine absurd ?_ hnot
      rw [hB, ← List.singleton_inj.1 hy]
      simp
  · exact ⟨pre, post, bs, by rw [hA, List.append_assoc, List.append_assoc]; rfl, hch, hpost, hprops⟩

theorem postsCustom_postBotCustomDM {u message todo postPermalink issueID : String}
    (h : PostsCustom E (postBotCustomDM u message todo postPermalink issueID) w r props s) :
    r = u ∧ props = ⟨message, todo, postPermalink, issueID⟩ ∧ s = w := by
  obtain ⟨pre, post, suf, hcalls, hch, hpost, hprops⟩ := h
  simp only [postBotCustomDM, createBotPostDM, Api.getDirectChannel, Proc.request_bind, Proc.calls, serve] at hcalls
  cases pre with
  | nil =>
    obtain ⟨hhead, hcalls⟩ := List.cons.inj hcalls
    cases hhead
    rw [hch] at hcalls
    obtain ⟨hhead, -⟩ := List.cons.inj hcalls
    have hpost' := Call.createPost.inj (congrArg Prod.fst hhead)
    exact ⟨rfl, Option.some.inj (hprops.symm.trans (congrArg Post.props hpost').symm), rfl⟩
  | cons x pre =>
    obtain ⟨-, hcalls⟩ := List.cons.inj hcalls
    have hlen := congrArg List.length hcalls
    rcases hch' : E.directChannel u with _ | _ | channelID <;> rw [hch'] at hlen
    · simp [Proc.calls] at hlen
    · simp [Proc.calls] at hlen
    · simp [Proc.calls, Api.createPost, Proc.request_bind] at hlen
      omega

end posts
end Todo

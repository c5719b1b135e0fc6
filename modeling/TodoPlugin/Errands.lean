import TodoPlugin.OptOut
import TodoPlugin.Lib.Simulation
import Mathlib.Logic.Function.Basic
/-!
# Errands: what the plugin is for

A todo is one thing, in however many lists and records it is: an errand, which its owner keeps, or has sent to another
user, who has it before them or has accepted it.  `Errands.Step` says what the operations are to do with the errands, and
which they are to refuse, with no list, reference or record in it.  What holds of the errands along any steps is shown
here; that the code makes these steps is `Tracking`'s and `Refines`'s.
-/
namespace Todo

/-- The text of a todo, and the post it is attached to. -/
structure Text where
  message       : String
  postPermalink : String
  description   : String
  postID        : String
deriving DecidableEq, Repr

def Issue.text (i : Issue) : Text := ⟨i.message, i.postPermalink, i.description, i.postID⟩

/-- Who an errand has been sent to, the id of their copy, and whether they have accepted it. -/
structure Holder where
  user     : UserID
  copy     : String
  accepted : Bool
deriving DecidableEq

structure Errand where
  owner  : UserID
  text   : Text
  holder : Option Holder
deriving DecidableEq

namespace Errand

/-- **`u` knows the errand `x` as `id`**: the owner by its own id, who has been sent it by the copy's. -/
inductive KnownAs (e : Errand) (x : String) : UserID → String → Prop
  | owner : KnownAs e x e.owner x
  | holder (h : Holder) (hh : e.holder = some h) : KnownAs e x h.user h.copy

/-- The errand is the owner's or the holder's. -/
def Party (e : Errand) (u : UserID) : Prop := u = e.owner ∨ ∃ h, e.holder = some h ∧ u = h.user

/-- `u` is the one to do the errand: kept, its owner; accepted, its holder. -/
def ToDo (e : Errand) (u : UserID) : Prop :=
  e.holder = none ∧ u = e.owner ∨ ∃ h, e.holder = some h ∧ h.accepted = true ∧ u = h.user

theorem KnownAs.party {e : Errand} {x id : String} {u : UserID} (h : e.KnownAs x u id) : e.Party u := by
  cases h with
  | owner => exact .inl rfl
  | holder h hh => exact .inr ⟨h, hh, rfl⟩

theorem ToDo.party {e : Errand} {u : UserID} (h : e.ToDo u) : e.Party u := by
  rcases h with ⟨-, hu⟩ | ⟨h, hh, -, hu⟩
  · exact .inl hu
  · exact .inr ⟨h, hh, hu⟩

end Errand

/-- The errands there are, each under its owner's id. -/
abbrev Errands := String → Option Errand

namespace Errands

def empty : Errands := fun _ => none

/-- The id is no errand's, and no copy's. -/
structure New (es : Errands) (id : String) : Prop where
  errand : es id = none
  copy   : ∀ x e h, es x = some e → e.holder = some h → h.copy ≠ id

/-- Someone has sent the user an errand that has not been accepted. -/
def Waits (es : Errands) (u : UserID) : Prop := ∃ x e c, es x = some e ∧ e.holder = some ⟨u, c, false⟩

/-- **What an operation needs.** -/
def Enabled (es : Errands) : ListOp → Prop
  | .addIssue _ _ _ _ _ | .sendIssue _ _ _ _ _ _                => True
  | .completeIssue u id | .removeIssue u id | .editIssue u id _ _ => ∃ x e, es x = some e ∧ e.KnownAs x u id
  | .changeAssignment x u _                                      => ∃ e, es x = some e ∧ e.owner = u
  | .acceptIssue u id                                            => ∃ x e, es x = some e ∧ e.holder = some ⟨u, id, false⟩
  | .popIssue u                                                  => ∃ x e, es x = some e ∧ e.ToDo u
  | .bumpIssue u x                                               => ∃ e h, es x = some e ∧ e.owner = u ∧
    e.holder = some h ∧ es.Waits h.user

/-- **What an operation does**, and whether it is done. -/
inductive Step (es : Errands) : ListOp × Bool → Errands → Prop
  | add (u : UserID) (m p d q x : String) (hx : es.New x) :
      Step es (.addIssue u m p d q, true) (Function.update es x (some ⟨u, ⟨m, p, d, q⟩, none⟩))
  | send (u v : UserID) (m p d q x y : String) (hx : es.New x) (hy : es.New y) (hxy : x ≠ y) :
      Step es (.sendIssue u v m p d q, true) (Function.update es x (some ⟨u, ⟨m, p, d, q⟩, some ⟨v, y, false⟩⟩))
  | complete (u : UserID) (id x : String) (e : Errand) (he : es x = some e) (hk : e.KnownAs x u id) :
      Step es (.completeIssue u id, true) (Function.update es x none)
  | remove (u : UserID) (id x : String) (e : Errand) (he : es x = some e) (hk : e.KnownAs x u id) :
      Step es (.removeIssue u id, true) (Function.update es x none)
  | pop (u : UserID) (x : String) (e : Errand) (he : es x = some e) (ht : e.ToDo u) :
      Step es (.popIssue u, true) (Function.update es x none)
  | accept (u : UserID) (id x : String) (e : Errand) (he : es x = some e) (hh : e.holder = some ⟨u, id, false⟩) :
      Step es (.acceptIssue u id, true) (Function.update es x (some { e with holder := some ⟨u, id, true⟩ }))
  | edit (u : UserID) (id m d x : String) (e : Errand) (he : es x = some e) (hk : e.KnownAs x u id) :
      Step es (.editIssue u id m d, true)
        (Function.update es x (some { e with text := { e.text with message := m, description := d } }))
  | give (u t : UserID) (x y : String) (e : Errand) (he : es x = some e) (ho : e.owner = u) (htu : t ≠ u)
      (hy : es.New y) :
      Step es (.changeAssignment x u t, true) (Function.update es x (some { e with holder := some ⟨t, y, false⟩ }))
  | takeBack (u : UserID) (x : String) (e : Errand) (h : Holder) (he : es x = some e) (ho : e.owner = u)
      (hh : e.holder = some h) :
      Step es (.changeAssignment x u u, true) (Function.update es x (some { e with holder := none }))
  | bump (u : UserID) (x : String) (hen : es.Enabled (.bumpIssue u x)) : Step es (.bumpIssue u x, true) es
  | refuse (op : ListOp) (hno : ¬ es.Enabled op) : Step es (op, false) es

/-! ## What a step can do to an errand -/

/-- **What an operation of one of its parties can do to the errand `x`**: finish it, change its text, or pass it on; only
the owner passes it on or takes it back, and only the holder accepts it. -/
inductive Change (x : String) (e : Errand) : ListOp → Option Errand → Prop
  | completed (u : UserID) (id : String) (hk : e.KnownAs x u id) : Change x e (.completeIssue u id) none
  | removed (u : UserID) (id : String) (hk : e.KnownAs x u id) : Change x e (.removeIssue u id) none
  | popped (u : UserID) (ht : e.ToDo u) : Change x e (.popIssue u) none
  | accepted (u : UserID) (id : String) (hh : e.holder = some ⟨u, id, false⟩) :
      Change x e (.acceptIssue u id) (some { e with holder := some ⟨u, id, true⟩ })
  | edited (u : UserID) (id m d : String) (hk : e.KnownAs x u id) :
      Change x e (.editIssue u id m d) (some { e with text := { e.text with message := m, description := d } })
  | given (t : UserID) (y : String) (htu : t ≠ e.owner) :
      Change x e (.changeAssignment x e.owner t) (some { e with holder := some ⟨t, y, false⟩ })
  | takenBack (hh : e.holder ≠ none) :
      Change x e (.changeAssignment x e.owner e.owner) (some { e with holder := none })

/-- Whoever changes an errand is a party to it, and its owner stays. -/
theorem Change.party {x : String} {e : Errand} {op : ListOp} {o : Option Errand} (h : Change x e op o) :
    e.Party op.user ∧ ∀ e' ∈ o, e'.owner = e.owner := by
  cases h with
  | completed u id hk => exact ⟨hk.party, nofun⟩
  | removed u id hk => exact ⟨hk.party, nofun⟩
  | popped u ht => exact ⟨ht.party, nofun⟩
  | accepted u id hh => exact ⟨.inr ⟨_, hh, rfl⟩, fun e' he => by cases he; rfl⟩
  | edited u id m d hk => exact ⟨hk.party, fun e' he => by cases he; rfl⟩
  | given t y htu => exact ⟨.inl rfl, fun e' he => by cases he; rfl⟩
  | takenBack hh => exact ⟨.inl rfl, fun e' he => by cases he; rfl⟩

/-- **A step changes one errand at most**, and by a change of its own. -/
theorem Step.change {es es' : Errands} {op : ListOp} {ok : Bool} (h : Step es (op, ok) es') {x : String} {e : Errand}
    (he : es x = some e) : es' x = some e ∨ ok = true ∧ Change x e op (es' x) := by
  have hupdate : ∀ {z : String} {f : Errand} {o : Option Errand}, es z = some f → Change z f op o →
      Function.update es z o x = some e ∨ true = true ∧ Change x e op (Function.update es z o x) := by
    intro z f o hf hchange
    by_cases hzx : z = x
    · subst hzx
      cases he.symm.trans hf
      rw [Function.update_self]
      exact .inr ⟨rfl, hchange⟩
    · rw [Function.update_of_ne (Ne.symm hzx)]
      exact .inl he
  have hnew : ∀ {z : String} {o : Option Errand}, es.New z → Function.update es z o x = some e := by
    intro z o hz
    rw [Function.update_of_ne, he]
    rintro rfl
    cases he.symm.trans hz.errand
  cases h with
  | add u m p d q z hz => exact .inl (hnew hz)
  | send u v m p d q z y hz hy hzy => exact .inl (hnew hz)
  | complete u id z f hf hk => exact hupdate hf (.completed u id hk)
  | remove u id z f hf hk => exact hupdate hf (.removed u id hk)
  | pop u z f hf ht => exact hupdate hf (.popped u ht)
  | accept u id z f hf hh => exact hupdate hf (.accepted u id hh)
  | edit u id m d z f hf hk => exact hupdate hf (.edited u id m d hk)
  | give u t z y f hf ho htu hy =>
    subst ho
    exact hupdate hf (.given t y htu)
  | takeBack u z f h hf ho hh =>
    subst ho
    exact hupdate hf (.takenBack (by rw [hh]; exact Option.some_ne_none h))
  | bump u z hen => exact .inl he
  | refuse op hno => exact .inl he

/-- **The errand an operation makes**: its user's, with its text, and nobody's yet but theirs. -/
inductive Made : ListOp → Errand → Prop
  | added (u : UserID) (m p d q : String) : Made (.addIssue u m p d q) ⟨u, ⟨m, p, d, q⟩, none⟩
  | sent (u v : UserID) (m p d q y : String) : Made (.sendIssue u v m p d q) ⟨u, ⟨m, p, d, q⟩, some ⟨v, y, false⟩⟩

/-- An errand that was not there has been made. -/
theorem Step.made {es es' : Errands} {op : ListOp} {ok : Bool} (h : Step es (op, ok) es') {x : String} {e : Errand}
    (hx : es x = none) (he : es' x = some e) : ok = true ∧ Made op e := by
  have hupdate : ∀ {z : String} {f : Errand} {o : Option Errand}, es z = some f → Function.update es z o x ≠ some e := by
    intro z f o hf hu
    by_cases hzx : z = x
    · subst hzx
      cases hx.symm.trans hf
    · rw [Function.update_of_ne (Ne.symm hzx), hx] at hu
      cases hu
  have hnew : ∀ {z : String} {f : Errand}, Function.update es z (some f) x = some e → f = e := by
    intro z f hu
    by_cases hzx : z = x
    · subst hzx
      rw [Function.update_self] at hu
      exact Option.some.inj hu
    · rw [Function.update_of_ne (Ne.symm hzx), hx] at hu
      cases hu
  cases h with
  | add u m p d q z hz => exact ⟨rfl, hnew he ▸ .added u m p d q⟩
  | send u v m p d q z y hz hy hzy => exact ⟨rfl, hnew he ▸ .sent u v m p d q y⟩
  | complete u id z f hf | remove u id z f hf | pop u z f hf | accept u id z f hf | edit u id m d z f hf
  | give u t z y f hf | takeBack u z f h hf => exact absurd he (hupdate hf)
  | bump | refuse => cases hx.symm.trans he

end Errands
end Todo

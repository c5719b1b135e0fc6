import TodoPlugin.Lib.Timers
import TodoPlugin.Lib.Simulation
import Mathlib.Logic.Function.Basic
/-!
# Undo

A row of the sidebar completes or deletes its todo five seconds after it has said so in a toast, whose Undo takes back the
row's last timer of that kind.  Between them run the timers of the rows and of the toast, each in its time: what is undone
is not sent, unless it has been clicked twice.
-/
namespace Todo

open Labelled

/-- What a row has done to its todo, by the `complete` and the `remove` it is given. -/
inductive Deed where
  | complete
  | remove
deriving DecidableEq, Repr

/-- How long after its click a deed is sent. -/
def Deed.delay : Deed → Nat
  | .complete => 6000
  | .remove   => 5000

/-- What a timer of the sidebar runs: a row's `completeToast`, a request, or the toast's `close`. -/
inductive Job (ρ : Type) where
  | completeToast (row : ρ)
  | request (deed : Deed) (row : ρ)
  | closeToast
deriving DecidableEq

/-- The timer comes to the deed of the row. -/
def Job.leads {ρ : Type} [DecidableEq ρ] (deed : Deed) (row : ρ) : Job ρ → Bool
  | .completeToast row' => .complete = deed ∧ row' = row
  | .request deed' row' => deed' = deed ∧ row' = row
  | .closeToast         => false

/-- How long after the job its deed is sent. -/
def Job.rest {ρ : Type} : Job ρ → Nat
  | .completeToast _ => 5000
  | _                => 0

/-- The rows that have been mounted, by what React keeps of each: `done`, `hidden`, and the current `completeTimeout` and
`removeTimeout`; the store's `todoToast`, by whose Undo it has; the timer of the mounted toast; and the requests sent. -/
structure Sidebar (ρ : Type) where
  timers  : Timers (Job ρ)
  done    : ρ → Bool
  hidden  : ρ → Bool
  timeout : Deed → ρ → Option Nat
  toast   : Option (Deed × ρ)
  closing : Option Nat
  sent    : List (Deed × ρ)

namespace Sidebar

variable {ρ : Type} [DecidableEq ρ]

def initial (ρ : Type) : Sidebar ρ := ⟨⟨0, 0, []⟩, fun _ => false, fun _ => false, fun _ _ => none, none, none, []⟩

/-- The end of `completeToast` and `removeTodo`: the toast, the row hidden, and the timer of the request. -/
def announce (s : Sidebar ρ) (deed : Deed) (row : ρ) : Sidebar ρ :=
  { s with
    toast   := some (deed, row)
    hidden  := Function.update s.hidden row true
    timers  := s.timers.setTimeout (.request deed row) 5000
    timeout := Function.update s.timeout deed (Function.update (s.timeout deed) row (some s.timers.handles)) }

def completeToast (s : Sidebar ρ) (row : ρ) : Sidebar ρ := s.announce .complete row
def removeTodo (s : Sidebar ρ) (row : ρ) : Sidebar ρ := s.announce .remove row

/-- The checkbox: `markAsDone`, and `completeToast` a second later. -/
def markTodoAsDone (s : Sidebar ρ) (row : ρ) : Sidebar ρ :=
  { s with done := Function.update s.done row true, timers := s.timers.setTimeout (.completeToast row) 1000 }

/-- A toast closed is unmounted, which clears its timer. -/
def closeTodoToast (s : Sidebar ρ) : Sidebar ρ :=
  { s with toast := none, timers := s.timers.clearTimeout s.closing, closing := none }

/-- What the two undos of a row share: the request's timer is cleared, and the row shown. -/
def withdraw (s : Sidebar ρ) (deed : Deed) (row : ρ) : Sidebar ρ :=
  { s with timers := s.timers.clearTimeout (s.timeout deed row), hidden := Function.update s.hidden row false }

def undoRemoveTodo (s : Sidebar ρ) (row : ρ) : Sidebar ρ := s.withdraw .remove row
def undoCompleteTodo (s : Sidebar ρ) (row : ρ) : Sidebar ρ :=
  { s.withdraw .complete row with done := Function.update s.done row false }

/-- `undoTodo` of a toast with this `undo`. -/
def undoTodo (s : Sidebar ρ) (row : ρ) : Deed → Sidebar ρ
  | .complete => (s.undoCompleteTodo row).closeTodoToast
  | .remove   => (s.undoRemoveTodo row).closeTodoToast

/-- The toast is mounted where there is none yet, and will close itself. -/
def mountToast (s : Sidebar ρ) : Sidebar ρ :=
  if s.toast ≠ none ∧ s.closing = none then
    { s with timers := s.timers.setTimeout .closeToast 5000, closing := some s.timers.handles }
  else s

/-- Closing the sidebar unmounts the toast, and leaves the store's. -/
def unmountToast (s : Sidebar ρ) : Sidebar ρ :=
  { s with timers := s.timers.clearTimeout s.closing, closing := none }

def run (s : Sidebar ρ) : Job ρ → Sidebar ρ
  | .completeToast row => s.completeToast row
  | .request deed row  => { s with sent := s.sent ++ [(deed, row)] }
  | .closeToast        => s.closeTodoToast

/-- The row's checkbox, or Delete in its menu. -/
def click (s : Sidebar ρ) (row : ρ) : Deed → Sidebar ρ
  | .complete => s.markTodoAsDone row
  | .remove   => s.removeTodo row

/-- A timer that runs is no longer pending. -/
def fire (s : Sidebar ρ) (t : Timer (Job ρ)) : Sidebar ρ :=
  ({ s with timers := s.timers.clearTimeout (some t.handle) }).run t.job

def wait (s : Sidebar ρ) (ms : Nat) : Sidebar ρ := { s with timers := { s.timers with now := s.timers.now + ms } }

/-- What happens in the sidebar. -/
inductive Act (ρ : Type) where
  | click (deed : Deed) (row : ρ)
  | undo (deed : Deed) (row : ρ)
  | close
  | mount
  | unmount
  | fire
  | wait
deriving DecidableEq

/-- **One thing after another**, with the time it happens at: clicks, renders, and timers that are ready. -/
inductive Step : Sidebar ρ → Act ρ × Nat → Sidebar ρ → Prop
  | click (s : Sidebar ρ) (deed : Deed) (row : ρ) : Step s (.click deed row, s.timers.now) (s.click row deed)
  | undo (s : Sidebar ρ) (deed : Deed) (row : ρ) (h : s.toast = some (deed, row)) :
      Step s (.undo deed row, s.timers.now) (s.undoTodo row deed)
  | close (s : Sidebar ρ) : Step s (.close, s.timers.now) s.closeTodoToast
  | mount (s : Sidebar ρ) : Step s (.mount, s.timers.now) s.mountToast
  | unmount (s : Sidebar ρ) : Step s (.unmount, s.timers.now) s.unmountToast
  | fire (s : Sidebar ρ) (t : Timer (Job ρ)) (h : s.timers.Ready t) : Step s (.fire, s.timers.now) (s.fire t)
  | wait (s : Sidebar ρ) (ms : Nat) : Step s (.wait, s.timers.now) (s.wait ms)

section undoTodo
variable (s : Sidebar ρ) (deed : Deed) (row : ρ)

theorem undoTodo_timers : (s.undoTodo row deed).timers =
    (s.timers.clearTimeout (s.timeout deed row)).clearTimeout s.closing := by cases deed <;> rfl

theorem undoTodo_timeout : (s.undoTodo row deed).timeout = s.timeout := by cases deed <;> rfl

theorem undoTodo_sent : (s.undoTodo row deed).sent = s.sent := by cases deed <;> rfl

theorem undoTodo_toast : (s.undoTodo row deed).toast = none := by cases deed <;> rfl

theorem undoTodo_closing : (s.undoTodo row deed).closing = none := by cases deed <;> rfl

end undoTodo

/-- A row deleted, and its request five seconds on. -/
def deleting : Sidebar Nat := (initial Nat).removeTodo 0
def deletion : Timer (Job Nat) := ⟨0, 0, 5000, .request .remove 0⟩

theorem deleted_run : Steps Step (initial Nat) [(.click .remove 0, 0), (.wait, 0), (.fire, 5000)]
    ((deleting.wait 5000).fire deletion) := by
  have hready : (deleting.wait 5000).timers.Ready deletion := ⟨List.mem_singleton_self _, Nat.le_refl _, by decide⟩
  exact .cons (.click _ .remove 0) (.cons (.wait _ 5000) (.cons (.fire _ _ hready) (.nil _)))

/-! ## No request but for a click -/

/-- The timer comes to the deed of the row by the time `T`. -/
def inTime (deed : Deed) (row : ρ) (T : Nat) (t : Timer (Job ρ)) : Bool :=
  t.job.leads deed row && decide (t.due + t.job.rest ≤ T)

/-- The deed was clicked, and is due by the time `T`. -/
def clicked (deed : Deed) (row : ρ) (T : Nat) (l : Act ρ × Nat) : Bool :=
  decide (l.1 = .click deed row) && decide (l.2 + deed.delay ≤ T)

/-- The requests of the deed that are sent, and those that come by the time `T` unless undone. -/
def owed (s : Sidebar ρ) (deed : Deed) (row : ρ) (T : Nat) : Nat :=
  s.sent.count (deed, row) + s.timers.pending.countP (inTime deed row T)

/-- **Every request since, and every timer that comes to one, is of a click of its own**, long enough ago. -/
def Accounted (s₀ : Sidebar ρ) (ls : List (Act ρ × Nat)) (s : Sidebar ρ) : Prop :=
  ∀ deed row T, s.timers.now ≤ T → s.owed deed row T ≤ s₀.owed deed row T + ls.countP (clicked deed row T)

section accounted
variable {ls : List (Act ρ × Nat)} {s₀ s s' : Sidebar ρ} {deed : Deed} {row : ρ} {T : Nat}

theorem inTime_iff {t : Timer (Job ρ)} :
    inTime deed row T t = true ↔ t.job.leads deed row = true ∧ t.due + t.job.rest ≤ T := by
  rw [inTime, Bool.and_eq_true, decide_eq_true_iff]

theorem clicked_iff {l : Act ρ × Nat} :
    clicked deed row T l = true ↔ l.1 = .click deed row ∧ l.2 + deed.delay ≤ T := by
  rw [clicked, Bool.and_eq_true, decide_eq_true_iff, decide_eq_true_iff]

theorem leads_completeToast {row' : ρ} :
    (Job.completeToast row').leads deed row = true ↔ .complete = deed ∧ row' = row := decide_eq_true_iff

theorem leads_request {deed' : Deed} {row' : ρ} :
    (Job.request deed' row').leads deed row = true ↔ deed' = deed ∧ row' = row := decide_eq_true_iff

/-- What no request or timer is added by has nothing to account for. -/
theorem Accounted.keep (h : Accounted s₀ ls s) (l : Act ρ × Nat) (hnow : s.timers.now ≤ s'.timers.now)
    (hkeep : ∀ deed row T, s'.timers.now ≤ T → s'.owed deed row T ≤ s.owed deed row T) : Accounted s₀ (ls ++ [l]) s' := by
  intro deed row T hT
  have hbefore := h deed row T (Nat.le_trans hnow hT)
  have hafter := hkeep deed row T hT
  rw [List.countP_append]
  omega

/-- What only clears timers, and lets time pass. -/
theorem Accounted.clears (h : Accounted s₀ ls s) (l : Act ρ × Nat) (hnow : s.timers.now ≤ s'.timers.now)
    (hsent : s'.sent = s.sent)
    (hfewer : ∀ p : Timer (Job ρ) → Bool, s'.timers.pending.countP p ≤ s.timers.pending.countP p) :
    Accounted s₀ (ls ++ [l]) s' :=
  h.keep l hnow fun _ _ _ _ => by
    rw [owed, owed, hsent]
    exact Nat.add_le_add_left (hfewer _) _

/-- What sets one timer is accounted for by a click that is as long ago. -/
theorem Accounted.sets (h : Accounted s₀ ls s) {l : Act ρ × Nat} (job : Job ρ) (delay : Nat)
    (htimers : s'.timers = s.timers.setTimeout job delay) (hsent : s'.sent = s.sent)
    (hclick : ∀ deed row T, inTime deed row T ⟨s.timers.handles, s.timers.now, delay, job⟩ = true →
      clicked deed row T l = true) : Accounted s₀ (ls ++ [l]) s' := by
  intro deed row T hT
  rw [htimers] at hT
  have hbefore := h deed row T hT
  rw [owed] at hbefore
  rw [owed, htimers, hsent, Timers.countP_setTimeout, List.countP_append, List.countP_singleton]
  split
  · rename_i hin
    rw [if_pos (hclick deed row T hin)]
    omega
  · omega

/-- A click sets one timer, which comes to the deed when it is due. -/
theorem Accounted.click (h : Accounted s₀ ls s) (deed : Deed) (row : ρ) :
    Accounted s₀ (ls ++ [(.click deed row, s.timers.now)]) (s.click row deed) := by
  cases deed with
  | complete =>
    refine h.sets (.completeToast row) 1000 rfl rfl fun deed' row' T hin => ?_
    obtain ⟨hleads, hT⟩ := inTime_iff.1 hin
    obtain ⟨rfl, rfl⟩ := leads_completeToast.1 hleads
    exact clicked_iff.2 ⟨rfl, hT⟩
  | remove =>
    refine h.sets (.request .remove row) 5000 rfl rfl fun deed' row' T hin => ?_
    obtain ⟨hleads, hT⟩ := inTime_iff.1 hin
    obtain ⟨rfl, rfl⟩ := leads_request.1 hleads
    exact clicked_iff.2 ⟨rfl, hT⟩

/-- **A timer that runs** hands what it accounts for on: to the request it sends, or to the timer it sets. -/
theorem Accounted.fire (h : Accounted s₀ ls s) {t : Timer (Job ρ)} (ht : s.timers.Ready t) (l : Act ρ × Nat) :
    Accounted s₀ (ls ++ [l]) (s.fire t) := by
  have hfewer : ∀ p : Timer (Job ρ) → Bool,
      (s.timers.clearTimeout (some t.handle)).pending.countP p ≤ s.timers.pending.countP p :=
    fun p => Timers.countP_clearTimeout_le p s.timers _
  have hless : ∀ p : Timer (Job ρ) → Bool, p t = true →
      (s.timers.clearTimeout (some t.handle)).pending.countP p + 1 ≤ s.timers.pending.countP p :=
    fun p => Timers.countP_clearTimeout_lt p s.timers ht.pending
  unfold Sidebar.fire
  cases hjob : t.job with
  | closeToast =>
    exact h.clears l (Nat.le_refl _) rfl fun p => Nat.le_trans (Timers.countP_clearTimeout_le p _ _) (hfewer p)
  | completeToast row =>
    refine h.keep l (Nat.le_refl _) fun deed' row' T _ => ?_
    show s.sent.count (deed', row') + ((s.timers.clearTimeout (some t.handle)).setTimeout (.request .complete row)
      5000).pending.countP (inTime deed' row' T) ≤ _
    rw [Timers.countP_setTimeout]
    split
    · rename_i hin
      obtain ⟨hleads, hdue⟩ := inTime_iff.1 hin
      obtain ⟨rfl, rfl⟩ := leads_request.1 hleads
      have hlost : inTime .complete row T t = true := by
        refine inTime_iff.2 ⟨by rw [hjob]; exact leads_completeToast.2 ⟨rfl, rfl⟩, ?_⟩
        rw [hjob]
        exact Nat.le_trans (Nat.add_le_add_right ht.due 5000) hdue
      exact Nat.add_le_add_left (hless _ hlost) _
    · exact Nat.add_le_add_left (hfewer _) _
  | request deed row =>
    refine h.keep l (Nat.le_refl _) fun deed' row' T hT => ?_
    show (s.sent ++ [(deed, row)]).count (deed', row') +
      (s.timers.clearTimeout (some t.handle)).pending.countP (inTime deed' row' T) ≤ _
    rw [owed, List.count_append, List.count_singleton]
    by_cases hsent : (deed, row) = (deed', row')
    · obtain ⟨rfl, rfl⟩ := Prod.mk.inj hsent
      have hlost : inTime deed row T t = true := by
        refine inTime_iff.2 ⟨by rw [hjob]; exact leads_request.2 ⟨rfl, rfl⟩, ?_⟩
        rw [hjob]
        exact Nat.le_trans ht.due hT
      have hl := hless _ hlost
      simp only [beq_self_eq_true, if_true]
      omega
    · have hf := hfewer (inTime deed' row' T)
      rw [if_neg (by simpa using hsent)]
      omega

theorem Accounted.step (h : Accounted s₀ ls s) {l : Act ρ × Nat} (hs : Step s l s') : Accounted s₀ (ls ++ [l]) s' := by
  cases hs with
  | click deed row => exact h.click deed row
  | undo deed row _ =>
    refine h.clears _ ?_ (undoTodo_sent s deed row) fun p => ?_ <;> rw [undoTodo_timers]
    · exact Nat.le_refl _
    · exact Nat.le_trans (Timers.countP_clearTimeout_le p _ _) (Timers.countP_clearTimeout_le p _ _)
  | close => exact h.clears _ (Nat.le_refl _) rfl fun p => Timers.countP_clearTimeout_le p _ _
  | mount =>
    unfold mountToast
    split
    · exact h.sets .closeToast 5000 rfl rfl fun deed row T hin => by cases (inTime_iff.1 hin).1
    · exact h.clears _ (Nat.le_refl _) rfl fun p => Nat.le_refl _
  | unmount => exact h.clears _ (Nat.le_refl _) rfl fun p => Timers.countP_clearTimeout_le p _ _
  | fire t ht => exact h.fire ht _
  | wait ms => exact h.clears _ (Nat.le_add_right _ _) rfl fun p => Nat.le_refl _

end accounted

/-- What a run accounts for from where it starts. -/
theorem accounted_run {s₀ s : Sidebar ρ} {ls : List (Act ρ × Nat)} (h : Steps Step s₀ ls s) : Accounted s₀ ls s := by
  have hall : Accounted s₀ ([] ++ ls) s := h.keep (fun _ _ _ _ h hs => h.step hs) fun _ _ _ _ => Nat.le_refl _
  exact hall

/-- **No request but for a click**: however the clicks, the toast and the timers follow each other, a row has had no more
requests of a deed sent than it has had clicks, five seconds before for Delete and six for Complete. -/
theorem requests_clicked {ls : List (Act ρ × Nat)} {s : Sidebar ρ} (h : Steps Step (initial ρ) ls s) (deed : Deed)
    (row : ρ) : s.sent.count (deed, row) ≤
      ls.countP fun l => decide (l.1 = .click deed row) && decide (l.2 + deed.delay ≤ s.timers.now) := by
  have hall := accounted_run h deed row s.timers.now (Nat.le_refl _)
  have hnone : (initial ρ).owed deed row s.timers.now = 0 := rfl
  rw [hnone, Nat.zero_add] at hall
  exact Nat.le_trans (Nat.le_add_right _ _) hall

theorem deleted_clicked : ((deleting.wait 5000).fire deletion).sent.count (.remove, 0) ≤ 1 :=
  requests_clicked deleted_run .remove 0

/-! ## What Undo finds -/

/-- **The toast's Undo has the row's last timer**: a timeout is of the row's own request, the latest set, and while the
toast is up no older one is left but with it. -/
structure Undoable (s : Sidebar ρ) : Prop where
  distinct : s.timers.Distinct
  given    : ∀ deed row handle, s.timeout deed row = some handle → handle < s.timers.handles
  closing  : ∀ handle, s.closing = some handle → handle < s.timers.handles ∧
    ∀ t ∈ s.timers.pending, t.handle = handle → t.job = .closeToast
  own      : ∀ deed row, ∀ t ∈ s.timers.pending, s.timeout deed row = some t.handle → t.job = .request deed row
  latest   : ∀ deed row, ∀ t ∈ s.timers.pending, t.job = .request deed row → t.delay = 5000 ∧
    ∃ handle, s.timeout deed row = some handle ∧ t.handle ≤ handle
  toast    : ∀ deed row, s.toast = some (deed, row) → ∀ t ∈ s.timers.pending, t.job = .request deed row →
    ∃ t' ∈ s.timers.pending, s.timeout deed row = some t'.handle

section undoable
variable {s s' : Sidebar ρ}

section
omit [DecidableEq ρ]

theorem undoable_initial : (initial ρ).Undoable :=
  ⟨⟨by simp [initial], by simp [initial]⟩, by simp [initial], by simp [initial], by simp [initial], by simp [initial],
    by simp [initial]⟩

/-- With fewer timers. -/
theorem Undoable.fewer (h : s.Undoable) (hdistinct : s'.timers.Distinct)
    (hhandles : s'.timers.handles = s.timers.handles) (hsub : ∀ t ∈ s'.timers.pending, t ∈ s.timers.pending)
    (htimeout : s'.timeout = s.timeout) (hclosing : ∀ handle, s'.closing = some handle → s.closing = some handle)
    (htoast : ∀ deed row, s'.toast = some (deed, row) → ∀ t ∈ s'.timers.pending, t.job = .request deed row →
      ∃ t' ∈ s'.timers.pending, s.timeout deed row = some t'.handle) : s'.Undoable where
  distinct := hdistinct
  given deed row handle hset := by
    rw [hhandles]
    exact h.given deed row handle (htimeout ▸ hset)
  closing handle hset := by
    obtain ⟨hlt, hjob⟩ := h.closing handle (hclosing handle hset)
    exact ⟨hhandles ▸ hlt, fun t ht => hjob t (hsub t ht)⟩
  own deed row t ht hset := h.own deed row t (hsub t ht) (htimeout ▸ hset)
  latest deed row t ht hjob := htimeout ▸ h.latest deed row t (hsub t ht) hjob
  toast deed row hup := htimeout ▸ htoast deed row hup

/-- With another timer, that sends nothing. -/
theorem Undoable.more (h : s.Undoable) {job : Job ρ} {delay : Nat} (hjob : ∀ deed row, job ≠ .request deed row)
    (htimers : s'.timers = s.timers.setTimeout job delay) (htimeout : s'.timeout = s.timeout) (htoast : s'.toast = s.toast)
    (hclosing : s'.closing = s.closing ∨ s'.closing = some s.timers.handles ∧ job = .closeToast) : s'.Undoable := by
  have hne : ∀ {handle : Nat}, handle < s.timers.handles → s.timers.handles ≠ handle := fun hlt he => by omega
  have hmem : ∀ t ∈ s'.timers.pending, t ∈ s.timers.pending ∨ t = ⟨s.timers.handles, s.timers.now, delay, job⟩ := by
    rw [htimers]
    exact fun t => Timers.mem_setTimeout.1
  have hold : ∀ t ∈ s.timers.pending, t ∈ s'.timers.pending := by
    rw [htimers]
    exact fun t ht => Timers.mem_setTimeout.2 (.inl ht)
  have hhandles : s'.timers.handles = s.timers.handles + 1 := by rw [htimers]; rfl
  refine ⟨?_, fun deed row handle hset => ?_, fun handle hset => ?_, fun deed row t ht hset => ?_,
    fun deed row t ht hr => ?_, fun deed row hup t ht hr => ?_⟩
  · rw [htimers]
    exact h.distinct.setTimeout job delay
  · rw [hhandles]
    exact Nat.lt_succ_of_lt (h.given deed row handle (htimeout ▸ hset))
  · rw [hhandles]
    rcases hclosing with he | ⟨he, hclose⟩
    · obtain ⟨hlt, hold⟩ := h.closing handle (he ▸ hset)
      refine ⟨Nat.lt_succ_of_lt hlt, fun t ht heq => ?_⟩
      rcases hmem t ht with ht | rfl
      · exact hold t ht heq
      · exact absurd heq (hne hlt)
    · obtain rfl : s.timers.handles = handle := Option.some.inj (he.symm.trans hset)
      refine ⟨Nat.lt_succ_self _, fun t ht heq => ?_⟩
      rcases hmem t ht with ht | rfl
      · exact absurd heq.symm (hne (h.distinct.fresh t ht))
      · exact hclose
  · rw [htimeout] at hset
    rcases hmem t ht with ht | rfl
    · exact h.own deed row t ht hset
    · exact absurd rfl (hne (h.given deed row _ hset))
  · rw [htimeout]
    rcases hmem t ht with ht | rfl
    · exact h.latest deed row t ht hr
    · exact absurd hr (hjob deed row)
  · rw [htimeout]
    rcases hmem t ht with ht | rfl
    · obtain ⟨t', ht', hset⟩ := h.toast deed row (htoast ▸ hup) t ht hr
      exact ⟨t', hold t' ht', hset⟩
    · exact absurd hr (hjob deed row)

/-- A timer cleared is not the one the toast's Undo has, unless no request of it is left. -/
theorem Undoable.clear (h : s.Undoable) {handle : Option Nat} (htimers : s'.timers = s.timers.clearTimeout handle)
    (htimeout : s'.timeout = s.timeout) (hclosing : s'.closing = s.closing ∨ s'.closing = none)
    (htoast : ∀ deed row, s'.toast = some (deed, row) → s.toast = some (deed, row) ∧
      ∀ t ∈ s.timers.pending, some t.handle = handle → s.timeout deed row = some t.handle →
        ∀ t' ∈ s.timers.pending, t'.job = .request deed row → t' = t) : s'.Undoable := by
  refine h.fewer ?_ ?_ ?_ htimeout ?_ fun deed row hup t ht hr => ?_
  · rw [htimers]
    exact h.distinct.clearTimeout handle
  · rw [htimers]
    rfl
  · rw [htimers]
    exact fun t ht => (Timers.mem_clearTimeout.1 ht).1
  · rcases hclosing with he | he <;> rw [he]
    · exact fun _ => id
    · rintro _ ⟨⟩
  · rw [htimers] at ht ⊢
    obtain ⟨hbefore, hlast⟩ := htoast deed row hup
    obtain ⟨ht, hleft⟩ := Timers.mem_clearTimeout.1 ht
    obtain ⟨t', ht', hset⟩ := h.toast deed row hbefore t ht hr
    refine ⟨t', Timers.mem_clearTimeout.2 ⟨ht', fun heq => hleft ?_⟩, hset⟩
    rw [hlast t' ht' heq hset t ht hr, heq]

/-- A toast's own timer is none of a request. -/
theorem Undoable.clearClosing (h : s.Undoable) (htimers : s'.timers = s.timers.clearTimeout s.closing)
    (htimeout : s'.timeout = s.timeout) (hclosing : s'.closing = none) (htoast : s'.toast = s.toast ∨ s'.toast = none) :
    s'.Undoable := by
  refine h.clear htimers htimeout (.inr hclosing) fun deed row hup => ?_
  rcases htoast with he | he <;> rw [he] at hup
  · refine ⟨hup, fun t ht heq hset => ?_⟩
    have hclose : t.job = .closeToast := (h.closing t.handle heq.symm).2 t ht rfl
    have hrequest : t.job = .request deed row := h.own deed row t ht hset
    rw [hclose] at hrequest
    cases hrequest
  · cases hup

theorem Undoable.closeTodoToast (h : s.Undoable) : s.closeTodoToast.Undoable :=
  h.clearClosing rfl rfl rfl (.inr rfl)

end

theorem timeout_announce (deed deed' : Deed) (row row' : ρ) : (s.announce deed row).timeout deed' row' =
    if deed' = deed ∧ row' = row then some s.timers.handles else s.timeout deed' row' := by
  unfold announce Function.update
  by_cases hdeed : deed' = deed
  · subst hdeed
    by_cases hrow : row' = row <;> simp [hrow]
  · simp [hdeed]

/-- With the timer of a request, which becomes the row's timeout, and its Undo the toast's. -/
theorem Undoable.announce (h : s.Undoable) (deed : Deed) (row : ρ) : (s.announce deed row).Undoable := by
  have hne : ∀ {handle : Nat}, handle < s.timers.handles → s.timers.handles ≠ handle := fun hlt he => by omega
  have hmem : ∀ t ∈ (s.announce deed row).timers.pending,
      t ∈ s.timers.pending ∨ t = ⟨s.timers.handles, s.timers.now, 5000, .request deed row⟩ :=
    fun t => Timers.mem_setTimeout.1
  refine ⟨h.distinct.setTimeout _ _, fun deed' row' handle hset => ?_, fun handle hset => ?_,
    fun deed' row' t ht hset => ?_, fun deed' row' t ht hr => ?_, fun deed' row' hup t ht hr => ?_⟩
  · rw [timeout_announce] at hset
    split at hset
    · obtain rfl := Option.some.inj hset
      exact Nat.lt_succ_self _
    · exact Nat.lt_succ_of_lt (h.given deed' row' handle hset)
  · obtain ⟨hlt, hold⟩ := h.closing handle hset
    refine ⟨Nat.lt_succ_of_lt hlt, fun t ht heq => ?_⟩
    rcases hmem t ht with ht | rfl
    · exact hold t ht heq
    · exact absurd heq (hne hlt)
  · rw [timeout_announce] at hset
    rcases hmem t ht with ht | rfl
    · split at hset
      · exact absurd (Option.some.inj hset) (hne (h.distinct.fresh t ht))
      · exact h.own deed' row' t ht hset
    · split at hset
      · rename_i heq
        rw [heq.1, heq.2]
      · exact absurd rfl (hne (h.given deed' row' _ hset))
  · rw [timeout_announce]
    rcases hmem t ht with ht | rfl
    · obtain ⟨hdelay, handle, hset, hle⟩ := h.latest deed' row' t ht hr
      refine ⟨hdelay, ?_⟩
      split
      · exact ⟨_, rfl, Nat.le_of_lt (h.distinct.fresh t ht)⟩
      · exact ⟨handle, hset, hle⟩
    · obtain ⟨rfl, rfl⟩ := Job.request.inj hr
      exact ⟨rfl, _, if_pos ⟨rfl, rfl⟩, Nat.le_refl _⟩
  · obtain ⟨rfl, rfl⟩ := Prod.mk.inj (Option.some.inj hup)
    exact ⟨_, Timers.mem_setTimeout.2 (.inr rfl), by rw [timeout_announce, if_pos ⟨rfl, rfl⟩]⟩

theorem Undoable.undoTodo (h : s.Undoable) (deed : Deed) (row : ρ) : (s.undoTodo row deed).Undoable := by
  have hclear : ({ s with toast := none, timers := s.timers.clearTimeout (s.timeout deed row) } : Sidebar ρ).Undoable :=
    h.clear rfl rfl (.inl rfl) (by rintro _ _ ⟨⟩)
  exact hclear.clearClosing (undoTodo_timers s deed row) (undoTodo_timeout s deed row) (undoTodo_closing s deed row)
    (.inr (undoTodo_toast s deed row))

/-- **The timer that runs is the first**: where it is the one the toast's Undo has, no older one of that request is left. -/
theorem Undoable.cleared (h : s.Undoable) {t : Timer (Job ρ)} (ht : s.timers.Ready t) :
    ({ s with timers := s.timers.clearTimeout (some t.handle) } : Sidebar ρ).Undoable := by
  refine h.clear rfl rfl (.inl rfl) fun deed row hup => ⟨hup, fun t₁ ht₁ heq hset t' ht' hr => ?_⟩
  obtain rfl : t₁ = t := h.distinct.inj ht₁ ht.pending (Option.some.inj heq)
  have hdelay : t₁.delay = 5000 := (h.latest deed row t₁ ht₁ (h.own deed row t₁ ht₁ hset)).1
  obtain ⟨hdelay', handle, hset', hle⟩ := h.latest deed row t' ht' hr
  obtain rfl : t₁.handle = handle := Option.some.inj (hset.symm.trans hset')
  rcases Nat.lt_or_eq_of_le hle with hlt | he
  · have hlater := ht.first t' ht' hlt
    omega
  · exact h.distinct.inj ht' ht₁ he

theorem Undoable.step (h : s.Undoable) {l : Act ρ × Nat} (hs : Step s l s') : s'.Undoable := by
  cases hs with
  | click deed row =>
    cases deed with
    | complete => exact h.more (by simp) rfl rfl rfl (.inl rfl)
    | remove   => exact h.announce .remove row
  | undo deed row _ => exact h.undoTodo deed row
  | close => exact h.closeTodoToast
  | mount =>
    unfold mountToast
    split
    · exact h.more (by simp) rfl rfl rfl (.inr ⟨rfl, rfl⟩)
    · exact h
  | unmount => exact h.clearClosing rfl rfl rfl (.inl rfl)
  | fire t ht =>
    have hclear := h.cleared ht
    unfold fire
    cases t.job with
    | completeToast row => exact hclear.announce .complete row
    | request deed row  =>
      exact hclear.fewer hclear.distinct rfl (fun _ => id) rfl (fun _ => id) hclear.toast
    | closeToast        => exact hclear.closeTodoToast
  | wait ms =>
    exact h.fewer ⟨h.distinct.fresh, h.distinct.nodup⟩ rfl (fun _ => id) rfl (fun _ => id) h.toast

/-! ## What Undo takes back -/

/-- The requests of the deed that are sent or still to come. -/
def coming (s : Sidebar ρ) (deed : Deed) (row : ρ) : Nat :=
  s.sent.count (deed, row) + s.timers.pending.countP fun t => t.job.leads deed row

section coming
variable {s s' : Sidebar ρ} (deed : Deed) (row : ρ)

theorem owed_le_coming (T : Nat) : s.owed deed row T ≤ s.coming deed row :=
  Nat.add_le_add_left (List.countP_mono_left fun _ _ ht => (inTime_iff.1 ht).1) _

/-- The toast's own timer is of no request. -/
theorem Undoable.closing_leads (h : s.Undoable) {t : Timer (Job ρ)} (ht : t ∈ s.timers.pending)
    (hc : some t.handle = s.closing) : t.job.leads deed row = false := by
  rw [(h.closing t.handle hc.symm).2 t ht rfl]
  rfl

/-- Nor is a row's timeout of any other request. -/
theorem Undoable.timeout_leads (h : s.Undoable) {deed' : Deed} {row' : ρ} (hother : ¬ (deed' = deed ∧ row' = row))
    {t : Timer (Job ρ)} (ht : t ∈ s.timers.pending) (hc : some t.handle = s.timeout deed' row') :
    t.job.leads deed row = false := by
  rw [h.own deed' row' t ht hc.symm]
  exact decide_eq_false hother

theorem Undoable.closeTodoToast_coming (h : s.Undoable) : s.coming deed row ≤ s.closeTodoToast.coming deed row :=
  Nat.add_le_add_left (Timers.countP_le_clearTimeout _ _ fun _ => h.closing_leads deed row) _

/-- **Undo clears no request but its own**, and one of that. -/
theorem Undoable.undoTodo_coming (h : s.Undoable) (deed' : Deed) (row' : ρ) : s.coming deed row ≤
    (s.undoTodo row' deed').coming deed row + if deed' = deed ∧ row' = row then 1 else 0 := by
  have hclosing : (s.timers.clearTimeout (s.timeout deed' row')).pending.countP (fun t => t.job.leads deed row) ≤
      (s.undoTodo row' deed').timers.pending.countP fun t => t.job.leads deed row := by
    rw [undoTodo_timers]
    exact Timers.countP_le_clearTimeout _ _ fun t ht => h.closing_leads deed row (Timers.mem_clearTimeout.1 ht).1
  have htimeout : s.timers.pending.countP (fun t => t.job.leads deed row) ≤
      (s.timers.clearTimeout (s.timeout deed' row')).pending.countP (fun t => t.job.leads deed row) +
        if deed' = deed ∧ row' = row then 1 else 0 := by
    split
    · cases s.timeout deed' row' with
      | none =>
        exact Nat.le_succ_of_le (Timers.countP_le_clearTimeout _ _ (by rintro _ _ ⟨⟩))
      | some handle => exact h.distinct.countP_le_clearTimeout _ handle
    · rename_i hother
      exact Timers.countP_le_clearTimeout _ _ fun t => h.timeout_leads deed row hother
  rw [coming, coming, undoTodo_sent]
  omega

/-- A timer set, with nothing sent. -/
theorem setTimeout_coming {job : Job ρ} {delay : Nat} (htimers : s'.timers = s.timers.setTimeout job delay)
    (hsent : s'.sent = s.sent) : s'.coming deed row = s.coming deed row + if job.leads deed row then 1 else 0 := by
  rw [coming, coming, htimers, hsent, Timers.countP_setTimeout, Nat.add_assoc]

/-- **A timer that runs sends its request, or sets the timer that will.** -/
theorem Undoable.fire_coming (h : s.Undoable) {t : Timer (Job ρ)} (ht : s.timers.Ready t) :
    s.coming deed row ≤ (s.fire t).coming deed row := by
  have hcleared : s.coming deed row ≤
      ({ s with timers := s.timers.clearTimeout (some t.handle) } : Sidebar ρ).coming deed row +
        if t.job.leads deed row then 1 else 0 := by
    rw [coming, coming, Nat.add_assoc]
    refine Nat.add_le_add_left ?_ _
    split
    · exact h.distinct.countP_le_clearTimeout _ t.handle
    · rename_i hno
      refine Timers.countP_le_clearTimeout _ _ fun t' ht' heq => ?_
      rw [h.distinct.inj ht' ht.pending (Option.some.inj heq)]
      exact Bool.eq_false_iff.2 hno
  have hnext := h.cleared ht
  unfold fire
  generalize ({ s with timers := s.timers.clearTimeout (some t.handle) } : Sidebar ρ) = s₁ at hcleared hnext ⊢
  cases hjob : t.job with
  | completeToast row' =>
    rw [hjob] at hcleared
    have hsets : (s₁.run (.completeToast row')).coming deed row =
        s₁.coming deed row + if (Job.request .complete row').leads deed row then 1 else 0 :=
      setTimeout_coming deed row rfl rfl
    rw [hsets]
    exact hcleared
  | request deed' row' =>
    rw [hjob] at hcleared
    refine Nat.le_trans hcleared ?_
    have hsent : (s₁.run (.request deed' row')).sent.count (deed, row) =
        s₁.sent.count (deed, row) + if (Job.request deed' row').leads deed row then 1 else 0 := by
      show (s₁.sent ++ [(deed', row')]).count (deed, row) = _
      rw [List.count_append, List.count_singleton]
      simp [Job.leads]
    have htimers : (s₁.run (.request deed' row')).timers = s₁.timers := rfl
    rw [coming, coming, hsent, htimers]
    omega
  | closeToast =>
    rw [hjob] at hcleared
    exact Nat.le_trans hcleared (hnext.closeTodoToast_coming deed row)

/-- **What one step adds and takes**: a click adds one, and only an Undo takes one. -/
theorem Undoable.step_coming (h : s.Undoable) {l : Act ρ × Nat} (hs : Step s l s') :
    s.coming deed row + (if l.1 = .click deed row then 1 else 0) ≤
      s'.coming deed row + if l.1 = .undo deed row then 1 else 0 := by
  cases hs with
  | click deed' row' =>
    have hadds : (s.click row' deed').coming deed row =
        s.coming deed row + if Act.click deed' row' = .click deed row then 1 else 0 := by
      cases deed' with
      | complete =>
        have hsets : (s.click row' .complete).coming deed row =
            s.coming deed row + if (Job.completeToast row').leads deed row then 1 else 0 :=
          setTimeout_coming deed row rfl rfl
        simpa [Job.leads] using hsets
      | remove   =>
        have hsets : (s.click row' .remove).coming deed row =
            s.coming deed row + if (Job.request .remove row').leads deed row then 1 else 0 :=
          setTimeout_coming deed row rfl rfl
        simpa [Job.leads] using hsets
    exact Nat.le_of_eq hadds.symm
  | undo deed' row' _ => simpa using h.undoTodo_coming deed row deed' row'
  | close => exact h.closeTodoToast_coming deed row
  | mount =>
    have hkept : s.coming deed row ≤ s.mountToast.coming deed row := by
      unfold mountToast
      split
      · have hsets : Sidebar.coming
            { s with timers := s.timers.setTimeout .closeToast 5000, closing := some s.timers.handles } deed row =
              s.coming deed row + if (Job.closeToast : Job ρ).leads deed row then 1 else 0 :=
          setTimeout_coming deed row rfl rfl
        exact Nat.le_of_eq hsets.symm
      · exact Nat.le_refl _
    exact hkept
  | unmount =>
    exact Nat.add_le_add_left (Timers.countP_le_clearTimeout _ _ fun _ => h.closing_leads deed row) _
  | fire t ht => exact h.fire_coming deed row ht
  | wait ms => exact Nat.le_refl _

/-- **Undo takes one back**, where one is left. -/
theorem Undoable.undoTodo_takes (h : s.Undoable) (hup : s.toast = some (deed, row)) {t : Timer (Job ρ)}
    (ht : t ∈ s.timers.pending) (hr : t.job = .request deed row) :
    (s.undoTodo row deed).coming deed row + 1 ≤ s.coming deed row := by
  obtain ⟨t', ht', hset⟩ := h.toast deed row hup t ht hr
  have hleads : t'.job.leads deed row = true := by
    rw [h.own deed row t' ht' hset]
    exact leads_request.2 ⟨rfl, rfl⟩
  have hcleared : (s.timers.clearTimeout (s.timeout deed row)).pending.countP (fun t => t.job.leads deed row) + 1 ≤
      s.timers.pending.countP fun t => t.job.leads deed row := by
    rw [hset]
    exact Timers.countP_clearTimeout_lt _ s.timers ht' hleads
  have hclosed : (s.undoTodo row deed).timers.pending.countP (fun t => t.job.leads deed row) ≤
      (s.timers.clearTimeout (s.timeout deed row)).pending.countP fun t => t.job.leads deed row := by
    rw [undoTodo_timers]
    exact Timers.countP_clearTimeout_le _ _ _
  rw [coming, coming, undoTodo_sent]
  omega

end coming

/-- Every click is sent, still to come, or undone. -/
def Kept (ls : List (Act ρ × Nat)) (s : Sidebar ρ) : Prop :=
  ∀ deed row, (ls.countP fun l => decide (l.1 = .click deed row)) ≤
    s.coming deed row + ls.countP fun l => decide (l.1 = .undo deed row)

theorem Kept.step {ls : List (Act ρ × Nat)} (hkept : Kept ls s) (h : s.Undoable) {l : Act ρ × Nat} (hs : Step s l s') :
    Kept (ls ++ [l]) s' := by
  intro deed row
  have hbefore := hkept deed row
  have hone := h.step_coming deed row hs
  rw [List.countP_append, List.countP_append, List.countP_singleton, List.countP_singleton]
  simp only [decide_eq_true_eq]
  omega

/-- Wherever the sidebar gets to. -/
theorem undoable_run {ls : List (Act ρ × Nat)} (h : Steps Step (initial ρ) ls s) : s.Undoable ∧ Kept ls s := by
  have hrun : s.Undoable ∧ Kept ([] ++ ls) s :=
    h.keep (I := fun ls s => s.Undoable ∧ Kept ls s) (fun _ _ _ _ h hs => ⟨h.1.step hs, h.2.step h.1 hs⟩)
      ⟨undoable_initial, fun _ _ => Nat.zero_le _⟩
  exact hrun

end undoable

/-- **Nothing but Undo takes a click back**: neither closing the toast, nor the sidebar, nor another row's toast or Undo.
A row has had no fewer requests of a deed sent than clicks, but for its Undos and what is still to come. -/
theorem clicks_sent {ls : List (Act ρ × Nat)} {s : Sidebar ρ} (h : Steps Step (initial ρ) ls s) (deed : Deed)
    (row : ρ) : (ls.countP fun l => decide (l.1 = .click deed row)) ≤
      s.sent.count (deed, row) + (s.timers.pending.countP fun t => t.job.leads deed row) +
        ls.countP fun l => decide (l.1 = .undo deed row) :=
  (undoable_run h).2 deed row

theorem deleted_sent : 1 ≤ ((deleting.wait 5000).fire deletion).sent.count (.remove, 0) :=
  clicks_sent deleted_run .remove 0

/-- **What is undone is not sent**: while a request of the toast's deed is still to come, its Undo takes one back for
good.  Of those sent or to come by then one fewer is sent, and whatever more is sent has been clicked since. -/
theorem undone_unsent {ls later : List (Act ρ × Nat)} {s s' : Sidebar ρ} (h : Steps Step (initial ρ) ls s) {deed : Deed}
    {row : ρ} (hup : s.toast = some (deed, row)) {t : Timer (Job ρ)} (ht : t ∈ s.timers.pending)
    (hr : t.job = .request deed row) (hlater : Steps Step (s.undoTodo row deed) later s') :
    s'.sent.count (deed, row) + 1 ≤ s.sent.count (deed, row) +
      (s.timers.pending.countP fun t => t.job.leads deed row) +
      later.countP fun l => decide (l.1 = .click deed row) && decide (l.2 + deed.delay ≤ s'.timers.now) := by
  have hall := accounted_run hlater deed row s'.timers.now (Nat.le_refl _)
  have howed := owed_le_coming (s := s.undoTodo row deed) deed row s'.timers.now
  have htakes := (undoable_run h).1.undoTodo_takes deed row hup ht hr
  have hsent : s'.sent.count (deed, row) ≤ s'.owed deed row s'.timers.now := Nat.le_add_right _ _
  calc s'.sent.count (deed, row) + 1
    _ ≤ (s.undoTodo row deed).coming deed row + later.countP (clicked deed row s'.timers.now) + 1 := by omega
    _ ≤ s.coming deed row + later.countP (clicked deed row s'.timers.now) := by omega

theorem deleting_undone : ((deleting.undoTodo 0 .remove).wait 5000).sent.count (.remove, 0) + 1 ≤ 1 :=
  undone_unsent (.cons (.click _ .remove 0) (.nil deleting)) rfl (List.mem_singleton_self deletion) rfl
    (.cons (.wait _ 5000) (.nil _))

end Sidebar
end Todo

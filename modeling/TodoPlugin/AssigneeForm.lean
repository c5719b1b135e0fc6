import TodoPlugin.Reducer
/-!
# The assignee dialog

One dialog serves two purposes: from the row of a todo it changes that todo's assignee, from the card that adds a todo
it picks the new todo's.  Which of the two `submit` does is decided by the store's `editingTodo`, which a row sets, and
which Cancel, the close icon and Assign take back.  Escape closes the dialog and leaves it.
-/
namespace Todo

/-- The id of a todo that has a row. -/
structure TodoID where
  val : String
  ne  : val ≠ ""
deriving DecidableEq

/-- What the user can do. -/
inductive UiEvent where
  | openRow (issue : TodoID)
  | openCard
  | escape
  | cancel
  | closeIcon
  | pick (selected : Option UserProfile)
  | assign
deriving DecidableEq

/-- What the front-end has: the store, the state of the dialog's form while it is mounted, and the requests for a change
of assignee it has sent, the latest last. -/
structure Ui where
  store : PluginState
  form  : Option (Option UserProfile)
  sent  : List (String × String)

namespace Ui

def initial : Ui := ⟨.initial, none, []⟩

def dispatch (ui : Ui) (action : Action) : Ui := { ui with store := ui.store.dispatch action }

/-- Rendering mounts the form afresh when the dialog becomes visible, and unmounts it when it no longer is. -/
def render (ui : Ui) : Ui :=
  { ui with form := if ui.store.assigneeModalVisible then some (ui.form.getD none) else none }

def changeAssignee (ui : Ui) (id assignee : String) : Ui := { ui with sent := ui.sent ++ [(id, assignee)] }

/-- `editAssignee` of a row. -/
def editAssignee (ui : Ui) (issue : TodoID) : Ui :=
  (ui.dispatch .openAssigneeModal).dispatch (.setEditingTodo issue.val)

/-- `closeModal` of the form, of Cancel and the close icon. -/
def closeModal (ui : Ui) : Ui := (ui.dispatch .removeEditingTodo).dispatch .closeAssigneeModal

/-- `submit` of the form, whose state is `assignee`. -/
def submit (ui : Ui) (assignee : Option UserProfile) : Ui :=
  let ui' := match ui.store.editingTodo, assignee with
    | some editingTodo, some user =>
      if editingTodo ≠ "" then (ui.changeAssignee editingTodo user.username).dispatch .removeEditingTodo
      else ui.dispatch (.getAssignee user)
    | none, some user => ui.dispatch (.getAssignee user)
    | _, none => ui.dispatch .removeAssignee
  ui'.dispatch .closeAssigneeModal

/-- What a UI event does. -/
def handle (ui : Ui) : UiEvent → Ui
  | .openRow issue => (ui.editAssignee issue).render
  | .openCard      => (ui.dispatch .openAssigneeModal).render
  | .escape        => if ui.form.isSome then (ui.dispatch .closeAssigneeModal).render else ui
  | .cancel        => ui.closeModal.render
  | .closeIcon     => ui.closeModal.render
  | .pick selected => { ui with form := some selected }
  | .assign        => (ui.submit (ui.form.getD none)).render

/-- What can be done: the dialog is opened only while it is closed, its buttons are there only while it is open, and
Assign is disabled until a user is picked. -/
def Offers (ui : Ui) : UiEvent → Prop
  | .openRow _ | .openCard          => ui.form = none
  | .escape                         => True
  | .cancel | .closeIcon | .pick _  => ui.form ≠ none
  | .assign                         => ∃ user, ui.form = some (some user)

theorem submit_editing {ui : Ui} {issue : TodoID} (h : ui.store.editingTodo = some issue.val) (user : UserProfile) :
    ui.submit (some user) = ((ui.changeAssignee issue.val user.username).dispatch .removeEditingTodo).dispatch
      .closeAssigneeModal := by
  unfold submit
  rw [h]
  simp only [if_pos issue.ne]

theorem submit_new {ui : Ui} (h : ui.store.editingTodo = none) (user : UserProfile) :
    ui.submit (some user) = (ui.dispatch (.getAssignee user)).dispatch .closeAssigneeModal := by
  unfold submit
  rw [h]

end Ui

/-- **Any sequence of UI events**, the latest first. -/
inductive UiRun : List UiEvent → Ui → Prop
  | start : UiRun [] .initial
  | event {es : List UiEvent} {ui : Ui} (h : UiRun es ui) (e : UiEvent) (he : ui.Offers e) :
      UiRun (e :: es) (ui.handle e)

/-! ## What was opened -/

/-- What the dialog was last opened for: a row's todo, or the new todo of the card. -/
def lastOpened : List UiEvent → Option (Option TodoID)
  | []                  => none
  | .openRow issue :: _ => some (some issue)
  | .openCard :: _      => some none
  | _ :: es             => lastOpened es

/-- The row opened last, if the dialog has not been left by Cancel, the close icon or Assign since. -/
def rowLeft : List UiEvent → Option TodoID
  | []                                           => none
  | .openRow issue :: _                          => some issue
  | .cancel :: _ | .closeIcon :: _ | .assign :: _ => none
  | _ :: es                                      => rowLeft es

/-- What is kept: `editingTodo` is the row left, and while the dialog opened for a row is open, that row. -/
structure Ui.Tracks (ui : Ui) (es : List UiEvent) : Prop where
  mounted : ui.form.isSome = ui.store.assigneeModalVisible
  editing : ui.store.editingTodo = (rowLeft es).map TodoID.val
  row     : ui.form ≠ none → ∀ issue, lastOpened es = some (some issue) → rowLeft es = some issue

namespace Ui.Tracks

variable {ui : Ui} {es : List UiEvent}

/-- A form that is gone has nothing more to keep. -/
theorem of_closed {ui : Ui} {es : List UiEvent} (hform : ui.form = none)
    (hvis : ui.store.assigneeModalVisible = false) (hedit : ui.store.editingTodo = (rowLeft es).map TodoID.val) :
    ui.Tracks es where
  mounted := by rw [hform, hvis]; rfl
  editing := hedit
  row h   := absurd hform h

/-- **Each event keeps track.** -/
theorem handle (h : ui.Tracks es) (e : UiEvent) (he : ui.Offers e) : (ui.handle e).Tracks (e :: es) := by
  cases e with
  | openRow issue =>
    refine ⟨rfl, rfl, ?_⟩
    rintro - issue' hl
    cases hl
    rfl
  | openCard =>
    refine ⟨rfl, h.editing, ?_⟩
    rintro - issue hl
    cases hl
  | escape =>
    by_cases hf : ui.form.isSome = true
    · rw [Ui.handle, if_pos hf]
      exact of_closed rfl rfl h.editing
    · rw [Ui.handle, if_neg hf]
      exact ⟨h.mounted, h.editing, fun hne => absurd (Option.not_isSome_iff_eq_none.1 hf) hne⟩
  | cancel => exact of_closed rfl rfl rfl
  | closeIcon => exact of_closed rfl rfl rfl
  | pick selected =>
    have hvis : ui.store.assigneeModalVisible = true := by rw [← h.mounted, Option.isSome_iff_ne_none.2 he]
    exact ⟨hvis.symm, h.editing, fun _ issue hl => h.row he issue hl⟩
  | assign =>
    obtain ⟨user, hu⟩ := he
    rw [Ui.handle, hu, Option.getD_some]
    have hedit := h.editing
    cases hleft : rowLeft es with
    | some issue =>
      rw [hleft] at hedit
      rw [submit_editing hedit]
      exact of_closed rfl rfl rfl
    | none =>
      rw [hleft] at hedit
      rw [submit_new hedit]
      exact of_closed rfl rfl hedit

end Ui.Tracks

theorem UiRun.tracks {es : List UiEvent} {ui : Ui} (h : UiRun es ui) : ui.Tracks es := by
  induction h with
  | start => exact .of_closed rfl rfl rfl
  | event _ e he ih => exact ih.handle e he

/-! ## What Assign does -/

/-- Assign acts on what the dialog was opened for: on the row's todo, or on the assignee of the new todo alone. -/
def Ui.ActsOn (ui : Ui) (user : UserProfile) (opened : Option TodoID) : Prop :=
  match opened with
  | some issue => (ui.handle .assign).sent = ui.sent ++ [(issue.val, user.username)]
  | none       => (ui.handle .assign).sent = ui.sent ∧ (ui.handle .assign).store.currentAssignee = some user

/-- **Assign acts on the todo the dialog was opened for**, unless it was opened from the card and a row opened before was
left by Escape. -/
theorem assign_actsOn {es : List UiEvent} {ui : Ui} (h : UiRun es ui) {user : UserProfile}
    (hpick : ui.form = some (some user)) {opened : Option TodoID} (hopen : lastOpened es = some opened) :
    ui.ActsOn user opened ↔ ¬ (opened = none ∧ rowLeft es ≠ none) := by
  have ht := h.tracks
  have hform : ui.form ≠ none := by
    rw [hpick]
    exact Option.some_ne_none _
  have hassign : ui.handle .assign = (ui.submit (some user)).render := by
    rw [Ui.handle, hpick, Option.getD_some]
  cases opened with
  | some issue =>
    have hedit : ui.store.editingTodo = some issue.val := by
      rw [ht.editing, ht.row hform issue hopen]
      rfl
    refine iff_of_true ?_ fun hc => Option.some_ne_none _ hc.1
    rw [Ui.ActsOn, hassign, Ui.submit_editing hedit]
    rfl
  | none =>
    have hedit := ht.editing
    cases hleft : rowLeft es with
    | none =>
      rw [hleft] at hedit
      refine iff_of_true ?_ fun hc => hc.2 rfl
      rw [Ui.ActsOn, hassign, Ui.submit_new hedit]
      exact ⟨rfl, rfl⟩
    | some issue =>
      rw [hleft] at hedit
      refine iff_of_false (fun hacts => ?_) fun hc => hc ⟨rfl, Option.some_ne_none _⟩
      -- the row left is sent, which is one request more
      have hsent := hacts.1
      rw [hassign, Ui.submit_editing hedit] at hsent
      have hlen : (ui.sent ++ [(issue.val, user.username)]).length = ui.sent.length := congrArg List.length hsent
      simp at hlen

section sample

/-- A todo's row. -/
def milkRow : TodoID := ⟨"x", by decide⟩

def bobProfile : UserProfile := ⟨"bob", "bob"⟩

theorem assign_actsOn_row : (((Ui.initial.handle (.openRow milkRow)).handle (.pick (some bobProfile))).ActsOn bobProfile
    (some milkRow)) ↔ ¬ (some milkRow = none ∧ rowLeft [.pick (some bobProfile), .openRow milkRow] ≠ none) :=
  assign_actsOn (.event (.event .start (.openRow milkRow) rfl) (.pick (some bobProfile)) (Option.some_ne_none _)) rfl rfl

/-- **Escape leaves the row's todo behind**: Assign of the card then sends that todo to the user picked. -/
theorem assign_actsOn_escaped : ∃ es ui, UiRun es ui ∧ ui.form = some (some bobProfile) ∧ lastOpened es = some none ∧
    ¬ ui.ActsOn bobProfile none := by
  refine ⟨[.pick (some bobProfile), .openCard, .escape, .openRow milkRow], _,
    .event (.event (.event (.event .start (.openRow milkRow) rfl) .escape trivial) .openCard rfl)
      (.pick (some bobProfile)) (Option.some_ne_none _), rfl, rfl, fun hacts => ?_⟩
  exact absurd hacts.1 (by decide)

end sample
end Todo

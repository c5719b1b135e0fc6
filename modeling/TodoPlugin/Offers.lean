import TodoPlugin.Standing
import TodoPlugin.Handling
import TodoPlugin.IssueLists
/-!
# What a row offers

A row of the sidebar offers actions by the list it is shown in and where the todo's other side is (`utils.js`), and an
action sends a request with the row's id (`actions.js`).  What is offered the server grants, but for one action: Assign is
offered on every row, and refused on those of a todo received.
-/
namespace Todo

open Store (ids)

/-! ## The rows -/

def canRemove (myList foreignList : String) : Bool := myList = "my" || myList = "in" || foreignList = "in"

def canComplete (myList : String) : Bool := myList = "my" || myList = "in"

def canAccept (myList : String) : Bool := myList = "in"

def canBump (myList foreignList : String) : Bool := myList = "out" && foreignList = "in"

/-- What a `TodoItem` goes by: its `list`, and the `id` and the `list` of its `issue`. -/
structure Row where
  list        : String
  id          : String
  foreignList : String
deriving DecidableEq, Repr

/-- A property that is compared with strings and sent: one that is missing equals none of them, and is not sent. -/
def Json.text : Option Json → String
  | some (.str s) => s
  | _             => ""

def Row.of (list : String) (issue : Json) : Row := ⟨list, Json.text (issue.field "id"), Json.text (issue.field "list")⟩

/-- `ToDoIssues` of a list of the store's. -/
def PluginState.rows (state : PluginState) (list : String) : List Row :=
  match state.allIssues.field list with
  | some (.arr issues) => issues.map (Row.of list)
  | _                  => []

/-- The rows of the sidebar, by the list it is open at. -/
def PluginState.sidebarRows (state : PluginState) : String → List Row
  | "my"  => state.rows "in" ++ state.rows "my"
  | "out" => state.rows "out"
  | _     => []

/-- What a row's buttons and its menu do; Assign once the dialog has picked a user. -/
inductive RowAction where
  | accept
  | complete
  | remove
  | bump
  | edit (message description : String)
  | assign (assignee : UserProfile)

namespace Row

def offers (row : Row) : RowAction → Bool
  | .accept   => canAccept row.list
  | .complete => canComplete row.list
  | .remove   => canRemove row.list row.foreignList
  | .bump     => canBump row.list row.foreignList
  | .edit _ _ => true
  | .assign _ => true

/-- What the action sends. -/
def request (row : Row) : RowAction → Request
  | .accept      => .accept (.ok (some ⟨row.id⟩))
  | .complete    => .complete (.ok (some ⟨row.id⟩))
  | .remove      => .remove (.ok (some ⟨row.id⟩))
  | .bump        => .bump (.ok (some ⟨row.id⟩))
  | .edit m d    => .edit (.ok (some ⟨row.id, m, d⟩))
  | .assign user => .changeAssignment (.ok (some ⟨row.id, user.username⟩))

theorem request_ne_lists (row : Row) (a : RowAction) {reminder offset : String} :
    row.request a ≠ .lists reminder offset := by
  cases a <;> nofun

/-- What is offered and yet refused: a todo received assigned, or one assigned to a user the server does not know. -/
def Refused (E : Env) (row : Row) : RowAction → Prop
  | .assign user => row.foreignList = "out" ∨ user.username = "" ∨
    ∀ receiver, E.userByUsername user.username ≠ .ok receiver
  | _            => False

end Row

/-- A list as the store of the front-end names it. -/
def ListID.shownAs : ListID → String
  | .myList  => "my"
  | .inList  => "in"
  | .outList => "out"

/-- The row of an entry. -/
theorem Row.of_json (list : String) (e : ExtendedIssue) : Row.of list e.json = ⟨list, e.issue.id, e.foreignList⟩ := by
  unfold Row.of ExtendedIssue.json Json.field
  by_cases hd : e.issue.description = ""
  · rw [if_pos hd]
    rfl
  · rw [if_neg hd]
    rfl

/-- **The rows are those of the lists answered.** -/
theorem PluginState.rows_receive (state : PluginState) (lists : ListsIssue) (l : ListID) :
    (state.receive (.response (.lists lists))).rows l.shownAs =
      (lists.of l).map fun e => ⟨l.shownAs, e.issue.id, e.foreignList⟩ := by
  have hmap : ∀ (list : String) (entries : List ExtendedIssue), (entries.map ExtendedIssue.json).map (Row.of list) =
      entries.map fun e => ⟨list, e.issue.id, e.foreignList⟩ := fun list entries => by
    rw [List.map_map]
    exact List.map_congr_left fun e _ => Row.of_json list e
  cases l with
  | myList => exact hmap "my" lists.myIssues
  | inList => exact hmap "in" lists.inIssues
  | outList => exact hmap "out" lists.outIssues

theorem PluginState.mem_sidebarRows {state : PluginState} {list : String} {row : Row} (h : row ∈ state.sidebarRows list) :
    ∃ l : ListID, row ∈ state.rows l.shownAs := by
  unfold sidebarRows at h
  split at h
  · rcases List.mem_append.1 h with h | h
    · exact ⟨.inList, h⟩
    · exact ⟨.myList, h⟩
  · exact ⟨.outList, h⟩
  · cases h

/-! ## What the server makes of what is offered -/

section offered
variable {E : Env} {w w' : World} {u : UserID} {l : ListID} {x id fu fl : String} {e : Errand}

/-- The lists answered are those shown, and the errands are the same after. -/
theorem serveHTTP_lists_shown (h : w.Settled E) {reminder offset : String} {lists : ListsIssue}
    (hrun : (serveHTTP u (.lists reminder offset)).run (serve E) w = (some (.lists lists), w')) :
    lists = w.shown E u ∧ w'.Settled E ∧ w'.board.errands = w.board.errands := by
  constructor
  · obtain ⟨f, hf, -, hok⟩ := handleLists_returns u reminder offset
    have hserve : serveHTTP u (.lists reminder offset) = (handleLists u reminder offset).recover .ok := by
      rw [serveHTTP, checkAuth, if_neg u.val_ne_empty]
      rfl
    rw [hserve, Proc.run_recover_eq, hf, Proc.run_bind_of _ (ListManager.getAllList_run E h.sound.toListed u)] at hrun
    have hanswer := congrArg Prod.fst hrun
    rcases hp : (f (.ok (w.shown E u))).run (serve E) w with ⟨_ | resp, t⟩
    · rw [hp] at hanswer
      cases hanswer
    · rw [hp] at hanswer
      cases hanswer
      exact (hok _).run hp lists rfl
  · have hcov : (Input.http (some u) (.lists reminder offset)).Covered E w := by
      rintro o ⟨⟩
    have hafter : (Input.http (some u) (.lists reminder offset)).after E w = w' :=
      (Input.run_map E w _ _).trans (congrArg Prod.snd hrun)
    have hsim := Input.simulates E w _ _ _ ⟨h, rfl⟩ ⟨_, hcov, rfl, rfl⟩
    rw [hafter] at hsim
    exact ⟨hsim.1, hsim.2.symm⟩

/-- Where an errand is shown, its owner is shown its own id, and no place in an Out list. -/
theorem Errand.Shown.owned_iff {b : Board} (h : b.Apart) (he : b.errands x = some e) (hs : e.Shown E x u l id fu fl) :
    (∃ e', b.errands id = some e' ∧ e'.owner = u) ↔ fl ≠ "out" := by
  have hreceived : ∀ hd : Holder, e.holder = some hd → hd.user = u → hd.copy = id →
      ¬ ∃ e', b.errands id = some e' ∧ e'.owner = u := by
    rintro hd hh rfl rfl ⟨e', he', howner⟩
    have hx := h.knownAs_unique (h.errands_eq.1 he) (h.errands_eq.1 he') (.holder hd hh) .owner
    exact h.copy_ne (h.errands_eq.1 he) hh hx.symm
  cases hs with
  | kept hh => exact iff_of_true ⟨e, he, rfl⟩ (by decide)
  | sent hd hh =>
    refine iff_of_true ⟨e, he, rfl⟩ ?_
    split <;> decide
  | waiting _ _ hh => exact iff_of_false (hreceived _ hh rfl rfl) fun hne => hne rfl
  | accepted _ _ hh => exact iff_of_false (hreceived _ hh rfl rfl) fun hne => hne rfl

/-- What is offered on the row of an errand is granted, unless it is refused. -/
theorem Row.granted_iff (h : w.Settled E) (he : w.board.errands x = some e) (hs : e.Shown E x u l id fu fl)
    {a : RowAction} (ha : Row.offers ⟨l.shownAs, id, fl⟩ a = true) :
    (Row.request ⟨l.shownAs, id, fl⟩ a).Granted E w u ↔ ¬ Row.Refused E ⟨l.shownAs, id, fl⟩ a := by
  have hm := h.mem_of_shown he hs
  have hlisted : ∃ l, id ∈ ids (w.board.refs u l) := ⟨l, hm⟩
  have hne : id ≠ "" := by
    obtain ⟨r, hr, rfl⟩ := List.mem_map.1 hm
    obtain ⟨i, hi⟩ := h.paired.recorded u l r hr
    exact h.sound.id_ne_empty hi
  cases a with
  | accept =>
    have hl : l = .inList := by
      cases l with
      | inList => rfl
      | myList | outList => cases ha
    subst hl
    exact iff_of_true ⟨⟨id⟩, Body.valid_iff.2 ⟨rfl, by simp [hne]⟩, hm⟩ fun hr => hr
  | complete => exact iff_of_true ⟨⟨id⟩, Body.valid_iff.2 ⟨rfl, by simp [hne]⟩, hlisted⟩ fun hr => hr
  | remove => exact iff_of_true ⟨⟨id⟩, Body.valid_iff.2 ⟨rfl, by simp [hne]⟩, hlisted⟩ fun hr => hr
  | edit m d => exact iff_of_true ⟨⟨id, m, d⟩, Body.valid_iff.2 ⟨rfl, by simp [hne]⟩, hlisted⟩ fun hr => hr
  | bump =>
    have hbump : (ListOp.bumpIssue u id).Granted w.board := by
      refine h.paired.granted_iff.2 ?_
      simp only [offers, canBump, Bool.and_eq_true, decide_eq_true_eq] at ha
      cases hs with
      | kept | waiting | accepted => exact absurd ha.1 (by decide)
      | sent hd hh =>
        have hacc : hd.accepted = false := by
          by_contra hacc
          rw [if_pos (by simpa using hacc)] at ha
          exact absurd ha.2 (by decide)
        refine ⟨e, hd, he, rfl, hh, x, e, hd.copy, he, ?_⟩
        rw [hh, ← hacc]
    exact iff_of_true ⟨⟨id⟩, Body.valid_iff.2 ⟨rfl, by simp [hne]⟩, hbump⟩ fun hr => hr
  | assign user =>
    have hown := hs.owned_iff h.paired.toApart he
    constructor
    · rintro ⟨_, hr, receiver, hrecv, hg⟩ hrefused
      obtain ⟨rfl, hfields⟩ := Body.valid_iff.1 hr
      rcases hrefused with hfl | hempty | hunknown
      · exact hown.1 (h.paired.granted_iff.1 hg) hfl
      · exact hfields (ChangeAssignmentAPIRequest.sendTo, "no user specified") (by simp) hempty
      · exact hunknown receiver hrecv
    · intro hnot
      obtain ⟨hfl, hrest⟩ := not_or.1 hnot
      obtain ⟨hempty, hknown⟩ := not_or.1 hrest
      obtain ⟨receiver, hrecv⟩ := not_forall_not.1 hknown
      refine ⟨⟨id, user.username⟩, Body.valid_iff.2 ⟨rfl, by simp [hne, hempty]⟩, receiver, hrecv, ?_⟩
      exact h.paired.granted_iff.2 (hown.2 hfl)

end offered

/-- **What a row offers is granted.**  After any run of covered inputs a user is answered the lists: whatever action a row
of the sidebar then offers, the server answers its request with success, except that it refuses to assign a todo received,
or one to a user it does not know, and then has changed nothing. -/
theorem offered_granted {E : Env} {tr : List (Input × Option Reply)} {w w' : World}
    (h : InputRuns E (fun w e => e.Covered E w) World.empty tr w) {u : UserID} {reminder offset : String}
    {lists : ListsIssue} (hlists : (serveHTTP u (.lists reminder offset)).run (serve E) w = (some (.lists lists), w'))
    (state : PluginState) {list : String} {row : Row}
    (hrow : row ∈ (state.receive (.response (.lists lists))).sidebarRows list) {a : RowAction}
    (ha : row.offers a = true) :
    ∃ resp w'', (serveHTTP u (row.request a)).run (serve E) w' = (some resp, w'') ∧
      (resp.Failed ↔ row.Refused E a) ∧ (resp.Failed → w'' = w') := by
  have hs : w.Settled E := h.keep (I := World.Settled E) (fun _ _ hs he => Input.settled hs he) (World.settled_empty E)
  obtain ⟨rfl, hs', herrands⟩ := serveHTTP_lists_shown hs hlists
  obtain ⟨l, hrow⟩ := PluginState.mem_sidebarRows hrow
  rw [PluginState.rows_receive] at hrow
  obtain ⟨entry, hentry, rfl⟩ := List.mem_map.1 hrow
  obtain ⟨x, e, he, hshows⟩ := hs.shows hentry
  have hgranted := Row.granted_iff hs' (herrands ▸ he) hshows.shown ha
  have hdecides := fun row : Row => serveHTTP_decides hs' u fun _ _ => row.request_ne_lists a
  obtain ⟨resp, w'', hrun, hfails, hsame⟩ := (hdecides _).congr hgranted
  exact ⟨resp, w'', hrun, hfails.trans not_not, hsame⟩

section sample

/-- Bob's rows once Ann has sent him a todo. -/
def bobLists : ListsIssue := (sendMilk.after Env.sample World.empty).shown Env.sample bob

/-- Bob's row offers to accept the todo, and the server lets him. -/
theorem sendMilk_offered :
    ∃ resp w'', (serveHTTP bob (Row.request ⟨"in", "xx", "out"⟩ .accept)).run (serve Env.sample)
        (sendMilk.after Env.sample World.empty) = (some resp, w'') ∧
      (resp.Failed ↔ Row.Refused Env.sample ⟨"in", "xx", "out"⟩ .accept) ∧
      (resp.Failed → w'' = sendMilk.after Env.sample World.empty) := by
  have hlists : (serveHTTP bob (.lists "" "")).run (serve Env.sample) (sendMilk.after Env.sample World.empty) =
      (some (.lists bobLists), sendMilk.after Env.sample World.empty) := rfl
  have hrow : ⟨"in", "xx", "out"⟩ ∈ (PluginState.initial.receive (.response (.lists bobLists))).sidebarRows "my" := by
    decide
  exact offered_granted (.step sendMilk (fun o ho => by cases ho; trivial) (.done _)) hlists .initial hrow rfl

end sample
end Todo

import TodoPlugin.ListRuns
/-!
# What the two parties are shown

The front-end shows `GetAllList`: each list with, for a todo that has another side, where that side stands.  The place
comes from a search through the raw lists of the other user, the list shown from a loop that leaves out what it cannot
read.  On a store where references and records match, what one is told of the other is what the other sees.
-/
namespace Todo

open Store (ids)

/-! ## Listing run alone -/

namespace Store

theorem getElem?_of_findRef {id : String} : ∀ {i n : Nat} {list : List IssueRef} {r : IssueRef},
    findRef id i list = some (r, n) → i ≤ n ∧ list[n - i]? = some r
  | _, _, [], _, h            => by cases h
  | i, n, ir :: list, r, h => by
    rw [findRef] at h
    split at h
    · cases h
      simp
    · obtain ⟨hle, hget⟩ := getElem?_of_findRef h
      refine ⟨by omega, ?_⟩
      rw [show n - i = n - (i + 1) + 1 by omega, List.getElem?_cons_succ]
      exact hget

end Store

/-- The reference found is the one in that place of the list. -/
theorem World.getElem?_of_refOf {w : World} {u id : String} {l : ListID} {r : IssueRef} {n : Nat}
    (h : w.refOf u id l = .ok (r, n)) : (w.list (listKey u l))[n]? = some r := by
  unfold refOf Store.lookupRef at h
  split at h
  · cases h
  · split at h
    · rename_i hf
      cases h
      exact (Store.getElem?_of_findRef hf).2
    · cases h

theorem World.getElem?_of_locate {w : World} {u id : String} {l : ListID} {r : IssueRef} {n : Nat}
    (h : w.locate u id = (l, some r, n)) : (w.list (listKey u l))[n]? = some r := by
  unfold locate at h
  cases hm : w.refOf u id .myList with
  | ok p =>
    rw [hm] at h
    cases h
    exact getElem?_of_refOf hm
  | error e₁ =>
    rw [hm] at h
    cases ho : w.refOf u id .outList with
    | ok p =>
      rw [ho] at h
      cases h
      exact getElem?_of_refOf ho
    | error e₂ =>
      rw [ho] at h
      cases hi : w.refOf u id .inList with
      | ok p =>
        rw [hi] at h
        cases h
        exact getElem?_of_refOf hi
      | error e₃ =>
        rw [hi] at h
        cases h

/-- The list of a user's lists that a list name means. -/
def ListsIssue.of (lists : ListsIssue) : ListID → List ExtendedIssue
  | .myList  => lists.myIssues
  | .inList  => lists.inIssues
  | .outList => lists.outIssues

/-- The name a user is shown under. -/
def Env.shownName (E : Env) (userID : String) : String :=
  match E.user userID with
  | .error _ => "Someone"
  | .ok user => user.username

namespace World

/-- What is shown of a reference whose record is `i`. -/
def entry (E : Env) (w : World) (i : Issue) (ir : IssueRef) : ExtendedIssue :=
  if ir.foreignUserID = "" then ⟨i, "", "", 0⟩
  else ⟨i, E.shownName ir.foreignUserID, ListManager.listName (w.locate ir.foreignUserID ir.foreignIssueID).1,
    (w.locate ir.foreignUserID ir.foreignIssueID).2.2⟩

/-- What is shown of a list: the references that have a record, in order. -/
def entries (E : Env) (w : World) (list : List IssueRef) : List ExtendedIssue :=
  list.filterMap fun ir => (w.issue ir.issueID).map fun i => w.entry E i ir

/-- What `u` is shown. -/
def shown (E : Env) (w : World) (u : String) : ListsIssue where
  inIssues  := w.entries E (w.list (listKey u .inList))
  myIssues  := w.entries E (w.list (listKey u .myList))
  outIssues := w.entries E (w.list (listKey u .outList))

theorem of_shown (E : Env) (w : World) (u : String) (l : ListID) :
    (w.shown E u).of l = w.entries E (w.list (listKey u l)) := by
  cases l <;> rfl

@[simp] theorem entry_issue (E : Env) (w : World) (i : Issue) (ir : IssueRef) : (w.entry E i ir).issue = i := by
  unfold entry
  split <;> rfl

end World

namespace ListManager

variable (E : Env) {w : World}

theorem getUserName_shown (w : World) (userID : String) :
    (getUserName userID).run (serve E) w = (some (E.shownName userID), w) := by
  simp only [getUserName, Api.getUser, Proc.request_bind, Proc.run_call, serve, Env.shownName]
  cases E.user userID <;> rfl

theorem extendIssueInfo_run (h : w.Listed) (i : Issue) (ir : IssueRef) :
    (extendIssueInfo i ir).run (serve E) w = (some (w.entry E i ir), w) := by
  unfold extendIssueInfo World.entry
  split
  · rfl
  · rw [Proc.run_bind_of _ (Store.getIssueListAndReference_run E h _ _)]
    simp only
    rw [Proc.run_bind_of _ (getUserName_shown E w _)]
    rfl

theorem extendRefs_run (h : w.Listed) : ∀ list : List IssueRef,
    (extendRefs list).run (serve E) w = (some (w.entries E list), w)
  | []         => rfl
  | ir :: list => by
    unfold extendRefs
    cases hi : w.issue ir.issueID with
    | none =>
      obtain ⟨err, herr⟩ := Store.getIssue_missing E hi
      rw [Proc.run_bind_of _ herr]
      simp only
      rw [extendRefs_run h list, World.entries, World.entries, List.filterMap_cons, hi]
      rfl
    | some i =>
      rw [Proc.run_bind_of _ (Store.getIssue_found E hi)]
      simp only
      rw [Proc.run_bind_of _ (extendIssueInfo_run E h i ir), Proc.run_bind_of _ (extendRefs_run h list), World.entries,
        World.entries, List.filterMap_cons, hi]
      rfl

theorem getIssueList_run (h : w.Listed) (u : String) (l : ListID) :
    (getIssueList u l).run (serve E) w = (some (.ok (w.entries E (w.list (listKey u l)))), w) := by
  unfold getIssueList
  rw [Proc.run_bind_of _ (Store.getRefs_run E h u l)]
  simp only
  rw [Proc.run_bind_of _ (extendRefs_run E h _)]
  rfl

/-- **`GetAllList` returns what is shown.** -/
theorem getAllList_run (h : w.Listed) (u : String) :
    (getAllList u).run (serve E) w = (some (.ok (w.shown E u)), w) := by
  unfold getAllList
  rw [Proc.run_bind_of _ (getIssueList_run E h u .inList)]
  simp only
  rw [Proc.run_bind_of _ (getIssueList_run E h u .myList)]
  simp only
  rw [Proc.run_bind_of _ (getIssueList_run E h u .outList)]
  rfl

end ListManager

/-! ## Where the two sides stand -/

namespace World

/-- No id is in two places, every reference has its record, and each Out reference is matched by an In or My reference
of its receiver that points back, and those that have another side by an Out reference of it. -/
structure Mutual (w : World) : Prop extends Listed w where
  one      : ∀ {u v : UserID} {l m r s}, r ∈ w.board.refs u l → s ∈ w.board.refs v m → r.issueID = s.issueID →
    u = v ∧ l = m
  recorded : ∀ (u : UserID) l, ∀ r ∈ w.board.refs u l, ∃ i, w.issue r.issueID = some i ∧ i.id = r.issueID
  out      : ∀ {u r}, r ∈ w.board.refs u .outList →
    ∃ v l, r.foreignUserID = UserID.val v ∧ l ≠ .outList ∧ r.mirror u ∈ w.board.refs v l
  back     : ∀ {v l r}, r ∈ w.board.refs v l → l ≠ .outList → r.foreignUserID ≠ "" →
    ∃ u, r.foreignUserID = UserID.val u ∧ r.mirror v ∈ w.board.refs u .outList

/-- Of the references with a record none is left out, and each is shown in its place. -/
theorem entries_getElem? (E : Env) {w : World} : ∀ {list : List IssueRef}, (∀ r ∈ list, (w.issue r.issueID).isSome) →
    ∀ k : Nat, (w.entries E list)[k]? = list[k]?.bind fun r => (w.issue r.issueID).map fun i => w.entry E i r
  | [], _, k         => by simp [entries]
  | ir :: list, h, k => by
    obtain ⟨i, hi⟩ := Option.isSome_iff_exists.1 (h ir List.mem_cons_self)
    have ih := entries_getElem? E fun r hr => h r (List.mem_cons_of_mem _ hr)
    have hcons : w.entries E (ir :: list) = w.entry E i ir :: w.entries E list := by
      rw [entries, List.filterMap_cons, hi]
      rfl
    rw [hcons]
    cases k with
    | zero => simp [hi]
    | succ k => simpa using ih k

namespace Mutual

variable {w : World} (E : Env) (h : w.Mutual)
include h

/-- The list shown has a reference's todo where the list has the reference. -/
theorem shown_getElem? {u : UserID} {l : ListID} {k : Nat} {r : IssueRef} (hr : (w.board.refs u l)[k]? = some r) :
    ∃ i, w.issue r.issueID = some i ∧ i.id = r.issueID ∧ ((w.shown E u).of l)[k]? = some (w.entry E i r) := by
  obtain ⟨i, hi, hid⟩ := h.recorded u l r (List.mem_of_getElem? hr)
  refine ⟨i, hi, hid, ?_⟩
  have hall : ∀ s ∈ w.list (listKey u l), (w.issue s.issueID).isSome := fun s hs => by
    obtain ⟨j, hj, -⟩ := h.recorded u l s hs
    rw [hj]
    rfl
  rw [of_shown, entries_getElem? E hall, show (w.list (listKey u l))[k]? = some r from hr, Option.bind_some, hi]
  rfl

/-- What is shown is the list, in order, with nothing dropped. -/
theorem ids_shown (u : UserID) (l : ListID) :
    ((w.shown E u).of l).map (fun e => e.issue.id) = ids (w.board.refs u l) := by
  apply List.ext_getElem?
  intro k
  rw [ids, List.getElem?_map, List.getElem?_map]
  cases hr : (w.board.refs u l)[k]? with
  | some r =>
    obtain ⟨i, -, hid, he⟩ := h.shown_getElem? E hr
    simp [he, hid]
  | none =>
    have hall : ∀ s ∈ w.list (listKey u l), (w.issue s.issueID).isSome := fun s hs => by
      obtain ⟨j, hj, -⟩ := h.recorded u l s hs
      rw [hj]
      rfl
    rw [of_shown, entries_getElem? E hall, show (w.list (listKey u l))[k]? = none from hr]
    rfl

/-- The search for a listed issue ends where it is. -/
theorem locate_place {u : UserID} {l : ListID} {r : IssueRef} (hr : r ∈ w.board.refs u l) :
    ∃ n, w.locate u r.issueID = (l, some r, n) ∧ (w.board.refs u l)[n]? = some r := by
  obtain ⟨n, hn⟩ := h.toListed.locate_of_mem hr fun m hm hc => by
    obtain ⟨s, hs, he⟩ := List.mem_map.1 hc
    exact hm (h.one (v := u) (m := l) hs hr he).2
  exact ⟨n, hn, getElem?_of_locate hn⟩

/-- A todo whose counterpart is listed is shown with the place in which its owner is shown the counterpart. -/
theorem entry_place {u v : UserID} {l : ListID} {r : IssueRef} (i : Issue) (hf : r.foreignUserID = UserID.val v)
    (hm : r.mirror u ∈ w.board.refs v l) :
    (w.entry E i r).foreignList = ListManager.listName l ∧
      ∃ e, ((w.shown E v).of l)[(w.entry E i r).foreignPosition]? = some e ∧ e.issue.id = r.foreignIssueID := by
  obtain ⟨n, hn, hget⟩ := h.locate_place hm
  have hne : r.foreignUserID ≠ "" := fun he => v.val_ne_empty (hf.symm.trans he)
  have he : w.entry E i r = ⟨i, E.shownName v, ListManager.listName l, n⟩ := by
    rw [entry, if_neg hne, hf, show r.foreignIssueID = (r.mirror u).issueID from rfl, hn]
  obtain ⟨j, -, hid, hj⟩ := h.shown_getElem? E hget
  rw [he]
  exact ⟨rfl, _, hj, by rw [entry_issue, hid]; rfl⟩

end Mutual

/-- A store the operations leave is one. -/
theorem Settled.mutual {E : Env} {w : World} (h : w.Settled E) : w.Mutual where
  toListed        := h.sound.toListed
  one             := h.paired.one
  recorded u l r hr := by
    obtain ⟨i, hi⟩ := h.paired.recorded u l r hr
    exact ⟨i, hi, h.sound.issue_id hi⟩
  out             := h.paired.out
  back hr hl hf   := by
    obtain ⟨u, m, hu, hlm, hm⟩ := h.paired.toLinked.other hr hf
    have hmo : m = .outList := by
      by_contra hne
      exact hl (hlm.2 hne)
    exact ⟨u, hu, hmo ▸ hm⟩

end World

/-- **The two parties' views agree**: nothing is dropped, a todo sent is shown with its place in the receiver's In or My
list, and a todo received with the place in the sender's Out list. -/
theorem getAllList_agree (E : Env) {w : World} (h : w.Mutual) (u v : UserID) : ∃ lu lv : ListsIssue,
    (ListManager.getAllList u).run (serve E) w = (some (.ok lu), w) ∧
    (ListManager.getAllList v).run (serve E) w = (some (.ok lv), w) ∧
    (∀ l, (lu.of l).map (fun e => e.issue.id) = ids (w.board.refs u l)) ∧
    (∀ (k : Nat) r, (w.board.refs u .outList)[k]? = some r → r.foreignUserID = UserID.val v →
      ∃ e, lu.outIssues[k]? = some e ∧ e.issue.id = r.issueID ∧
        ((e.foreignList = "in" ∧ ∃ e', lv.inIssues[e.foreignPosition]? = some e' ∧ e'.issue.id = r.foreignIssueID) ∨
          e.foreignList = "" ∧ ∃ e', lv.myIssues[e.foreignPosition]? = some e' ∧ e'.issue.id = r.foreignIssueID)) ∧
    (∀ l (k : Nat) r, l ≠ .outList → (w.board.refs v l)[k]? = some r → r.foreignUserID = UserID.val u →
      ∃ e, (lv.of l)[k]? = some e ∧ e.issue.id = r.issueID ∧ e.foreignList = "out" ∧
        ∃ e', lu.outIssues[e.foreignPosition]? = some e' ∧ e'.issue.id = r.foreignIssueID) := by
  refine ⟨w.shown E u, w.shown E v, ListManager.getAllList_run E h.toListed u, ListManager.getAllList_run E h.toListed v,
    h.ids_shown E u, ?_, ?_⟩
  · intro k r hr hf
    obtain ⟨i, -, hid, he⟩ := h.shown_getElem? E hr
    obtain ⟨v', l, hv, hl, hm⟩ := h.out (List.mem_of_getElem? hr)
    obtain rfl : v' = v := UserID.ext_val (hv.symm.trans hf)
    obtain ⟨hlist, e', he', hid'⟩ := h.entry_place E i hf hm
    refine ⟨_, he, by rw [World.entry_issue, hid], ?_⟩
    cases l with
    | inList => exact .inl ⟨hlist, e', he', hid'⟩
    | myList => exact .inr ⟨hlist, e', he', hid'⟩
    | outList => exact absurd rfl hl
  · intro l k r hl hr hf
    obtain ⟨i, -, hid, he⟩ := h.shown_getElem? E hr
    have hne : r.foreignUserID ≠ "" := fun hc => u.val_ne_empty (hf.symm.trans hc)
    obtain ⟨u', hu, hm⟩ := h.back (List.mem_of_getElem? hr) hl hne
    obtain rfl : u' = u := UserID.ext_val (hu.symm.trans hf)
    obtain ⟨hlist, e', he', hid'⟩ := h.entry_place E i hf hm
    exact ⟨_, he, by rw [World.entry_issue, hid], hlist, e', he', hid'⟩

section sample

/-- The store once Ann has sent Bob a second todo. -/
def sentTwice : World := (ListOp.sendIssue ann bob "bread" "" "" "").after Env.sample sentToBob

theorem getAllList_agree_sentTwice : ∃ lu lv : ListsIssue,
    (ListManager.getAllList ann).run (serve Env.sample) sentTwice = (some (.ok lu), sentTwice) ∧
    (ListManager.getAllList bob).run (serve Env.sample) sentTwice = (some (.ok lv), sentTwice) ∧
    (∀ l, (lu.of l).map (fun e => e.issue.id) = ids (sentTwice.board.refs ann l)) ∧
    (∃ e, lu.outIssues[1]? = some e ∧ e.issue.id = "xxx" ∧
      ((e.foreignList = "in" ∧ ∃ e', lv.inIssues[e.foreignPosition]? = some e' ∧ e'.issue.id = "xxxx") ∨
        e.foreignList = "" ∧ ∃ e', lv.myIssues[e.foreignPosition]? = some e' ∧ e'.issue.id = "xxxx")) ∧
    ∃ e, lv.inIssues[1]? = some e ∧ e.issue.id = "xxxx" ∧ e.foreignList = "out" ∧
      ∃ e', lu.outIssues[e.foreignPosition]? = some e' ∧ e'.issue.id = "xxx" := by
  have hsettled : sentTwice.Settled Env.sample := ListOp.settled sentToBob_settled trivial
  obtain ⟨lu, lv, hu, hv, hids, hout, hback⟩ := getAllList_agree Env.sample hsettled.mutual ann bob
  exact ⟨lu, lv, hu, hv, hids, hout 1 ⟨"xxx", "xxxx", "bob"⟩ (by decide) rfl,
    hback .inList 1 ⟨"xxxx", "xxx", "ann"⟩ (by decide) (by decide) rfl⟩

end sample
end Todo

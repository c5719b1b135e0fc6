import TodoPlugin.Refines
import TodoPlugin.Views
/-!
# Where the errands stand

What is shown to a user are their errands, each once and as it stands, and what becomes of an errand is what one of its
parties has asked for.
-/
namespace Todo

open Store (ids)

/-! ## What becomes of an errand -/

/-- **A todo is its parties'**: after any run of covered inputs, the next leaves an errand as it was, or is a successful
operation of one of its parties that changes it as that operation may; the owner stays the owner. -/
theorem inputs_change {E : Env} {tr : List (Input × Option Reply)} {w : World}
    (h : InputRuns E (fun w e => e.Covered E w) World.empty tr w) {e : Input} (he : e.Covered E w) {x : String}
    {errand : Errand} (hx : w.board.errands x = some errand) :
    (e.after E w).board.errands x = some errand ∨
      ∃ op, e.op E w = some op ∧ e.issuer = some op.user ∧ op.succeeds E w = true ∧ errand.Party op.user ∧
        Errands.Change x errand op ((e.after E w).board.errands x) ∧
        ∀ errand' ∈ (e.after E w).board.errands x, errand'.owner = errand.owner := by
  have hs : w.Settled E := h.keep (I := World.Settled E) (fun _ _ hs he => Input.settled hs he) (World.settled_empty E)
  have hsim := Input.simulates E w (e.label E w) (e.after E w) w.board.errands ⟨hs, rfl⟩ ⟨e, he, rfl, rfl⟩
  cases ho : e.op E w with
  | none =>
    rw [Input.label, ho] at hsim
    exact .inl (hsim.2 ▸ hx)
  | some op =>
    rw [Input.label, ho] at hsim
    obtain ⟨_, hstep, -, rfl⟩ := hsim
    refine (hstep.change hx).imp_right ?_
    rintro ⟨hok, hchange⟩
    exact ⟨op, rfl, Input.op_user ho, hok, hchange.party.1, hchange, hchange.party.2⟩

section sample

/-- What Ann has sent Bob. -/
def milkErrand : Errand := ⟨ann, ⟨"milk", "", "", ""⟩, some ⟨bob, "xx", false⟩⟩

theorem sendMilk_tracks : (sendMilk.after Env.sample World.empty).board.errands "x" = some milkErrand := by
  have hs : (sendMilk.after Env.sample World.empty).Settled Env.sample :=
    Input.settled (World.settled_empty _) fun o ho => by cases ho; trivial
  refine hs.paired.toApart.errands_eq.2 (.sent ann bob .inList "xx" ⟨"x", "milk", "", "", 0, ""⟩ nofun ?_ ?_ ?_)
  · decide
  · decide
  · decide

/-- Bob's accepting it is one of the changes. -/
theorem acceptMilk_change :
    (acceptMilk.after Env.sample (sendMilk.after Env.sample World.empty)).board.errands "x" = some milkErrand ∨
      ∃ op, acceptMilk.op Env.sample (sendMilk.after Env.sample World.empty) = some op ∧
        acceptMilk.issuer = some op.user ∧ op.succeeds Env.sample (sendMilk.after Env.sample World.empty) = true ∧
        milkErrand.Party op.user ∧ Errands.Change "x" milkErrand op
          ((acceptMilk.after Env.sample (sendMilk.after Env.sample World.empty)).board.errands "x") ∧
        ∀ errand' ∈ (acceptMilk.after Env.sample (sendMilk.after Env.sample World.empty)).board.errands "x",
          errand'.owner = milkErrand.owner :=
  inputs_change (.step sendMilk (fun o ho => by cases ho; trivial) (.done _)) (fun o ho => by cases ho; trivial)
    sendMilk_tracks

end sample

/-! ## What is shown of the errands -/

/-- **How `u` is shown the errand `x`**: in which list, under which id, and with whom beside it. -/
inductive Errand.Shown (E : Env) (e : Errand) (x : String) : UserID → ListID → String → String → String → Prop
  | kept (hh : e.holder = none) : Shown E e x e.owner .myList x "" ""
  | sent (h : Holder) (hh : e.holder = some h) :
      Shown E e x e.owner .outList x (E.shownName h.user) (if h.accepted then "" else "in")
  | waiting (v : UserID) (c : String) (hh : e.holder = some ⟨v, c, false⟩) :
      Shown E e x v .inList c (E.shownName e.owner) "out"
  | accepted (v : UserID) (c : String) (hh : e.holder = some ⟨v, c, true⟩) :
      Shown E e x v .myList c (E.shownName e.owner) "out"

namespace Errand.Shown

variable {E : Env} {e : Errand} {x id fu fl : String} {u : UserID} {l : ListID}

/-- What a user is shown an errand under is what they know it as. -/
theorem knownAs (h : e.Shown E x u l id fu fl) : e.KnownAs x u id := by
  cases h with
  | kept | sent => exact .owner
  | waiting _ _ hh => exact .holder ⟨u, id, false⟩ hh
  | accepted _ _ hh => exact .holder ⟨u, id, true⟩ hh

/-- In a list an errand is shown in one way. -/
theorem unique (h : e.Shown E x u l id fu fl) {fu' fl' : String} (h' : e.Shown E x u l id fu' fl') :
    fu = fu' ∧ fl = fl' := by
  cases h with
  | kept hh =>
    cases h' with
    | kept => exact ⟨rfl, rfl⟩
    | accepted v c hh' => cases hh.symm.trans hh'
  | sent hd hh =>
    cases h' with
    | sent hd' hh' =>
      cases hh.symm.trans hh'
      exact ⟨rfl, rfl⟩
  | waiting v c hh =>
    cases h' with
    | waiting => exact ⟨rfl, rfl⟩
  | accepted v c hh =>
    cases h' with
    | kept hh' => cases hh.symm.trans hh'
    | accepted => exact ⟨rfl, rfl⟩

end Errand.Shown

namespace World

variable {E : Env} {w : World} (h : w.Settled E) {u : UserID} {l : ListID} {r : IssueRef} {i : Issue}
include h

/-- A reference is shown as its errand stands. -/
theorem Settled.entry_shown (hr : r ∈ w.board.refs u l) (hi : w.issue r.issueID = some i) :
    ∃ x e, w.board.errands x = some e ∧ i.text = e.text ∧
      e.Shown E x u l r.issueID (w.entry E i r).foreignUser (w.entry E i r).foreignList := by
  by_cases hf : r.foreignUserID = ""
  · obtain ⟨j, hj, ht⟩ := h.paired.tracks_kept hr hf
    obtain ⟨rfl, -⟩ := h.paired.own hr hf
    cases hi.symm.trans hj
    rw [entry, if_pos hf]
    exact ⟨_, _, h.paired.toApart.errands_eq.2 ht, rfl, .kept rfl⟩
  · by_cases hl : l = .outList
    · subst hl
      obtain ⟨v, m, j, hv, hmo, hm, hj, ht⟩ := h.paired.tracks_sent hr
      cases hi.symm.trans hj
      obtain ⟨hlist, -⟩ := h.mutual.entry_place E i hv hm
      have huser : (w.entry E i r).foreignUser = E.shownName v := by rw [entry, if_neg hf, hv]
      have hname : ListManager.listName m = if decide (m = .myList) = true then "" else "in" := by
        cases m with
        | myList | inList => rfl
        | outList => exact absurd rfl hmo
      rw [hlist, huser, hname]
      exact ⟨_, _, h.paired.toApart.errands_eq.2 ht, rfl,
        .sent ⟨v, r.foreignIssueID, decide (m = .myList)⟩ rfl⟩
    · obtain ⟨o, j, ho, hm, hj, ht⟩ := h.paired.tracks_received hr hl hf
      obtain ⟨hlist, -⟩ := h.mutual.entry_place E i ho hm
      have huser : (w.entry E i r).foreignUser = E.shownName o := by rw [entry, if_neg hf, ho]
      obtain ⟨j', i', hj', hi', htext⟩ := h.twins o _ hm
      obtain rfl : j' = j := Option.some.inj (hj'.symm.trans hj)
      obtain rfl : i' = i := Option.some.inj (hi'.symm.trans hi)
      have htext' : i'.text = j'.text := by
        rw [Issue.text, Issue.text, htext.message, htext.postPermalink, htext.description, htext.postID]
      rw [hlist, huser]
      refine ⟨_, _, h.paired.toApart.errands_eq.2 ht, htext', ?_⟩
      cases l with
      | inList => exact .waiting u r.issueID rfl
      | myList => exact .accepted u r.issueID rfl
      | outList => exact absurd rfl hl

/-- An errand is shown by a reference of it. -/
theorem Settled.mem_of_shown {x id fu fl : String} {e : Errand} (he : w.board.errands x = some e)
    (hs : e.Shown E x u l id fu fl) : id ∈ ids (w.board.refs u l) := by
  have ht := h.paired.toApart.errands_eq.1 he
  cases ht with
  | kept v i hr hi =>
    cases hs with
    | kept => exact List.mem_map.2 ⟨_, hr, rfl⟩
    | sent hd hh => cases hh
    | waiting v c hh => cases hh
    | accepted v c hh => cases hh
  | sent o v m y i hmo hx hy hi =>
    cases hs with
    | kept hh => cases hh
    | sent hd hh => exact List.mem_map.2 ⟨_, hx, rfl⟩
    | waiting v' c hh =>
      cases m with
      | inList =>
        cases hh
        exact List.mem_map.2 ⟨_, hy, rfl⟩
      | myList => cases hh
      | outList => exact absurd rfl hmo
    | accepted v' c hh =>
      cases m with
      | myList =>
        cases hh
        exact List.mem_map.2 ⟨_, hy, rfl⟩
      | inList => cases hh
      | outList => exact absurd rfl hmo

end World

/-- An entry and an errand it shows. -/
structure ExtendedIssue.Shows (E : Env) (entry : ExtendedIssue) (u : UserID) (l : ListID) (x : String) (e : Errand) :
    Prop where
  text  : entry.issue.text = e.text
  shown : e.Shown E x u l entry.issue.id entry.foreignUser entry.foreignList

/-- What is shown to a user is an errand of theirs. -/
theorem World.Settled.shows {E : Env} {w : World} (h : w.Settled E) {u : UserID} {l : ListID} {entry : ExtendedIssue}
    (hm : entry ∈ (w.shown E u).of l) : ∃ x e, w.board.errands x = some e ∧ entry.Shows E u l x e := by
  rw [World.of_shown] at hm
  obtain ⟨r, hr, hmap⟩ := List.mem_filterMap.1 hm
  obtain ⟨i, hi, rfl⟩ := Option.map_eq_some_iff.1 hmap
  obtain ⟨x, e, he, htext, hshown⟩ := h.entry_shown (l := l) hr hi
  refine ⟨x, e, he, by rw [World.entry_issue, htext], ?_⟩
  rw [World.entry_issue, h.sound.issue_id hi]
  exact hshown

/-- **The lists are the errands as they stand**: after any run of covered inputs, `GetAllList` returns in each list of a
user an entry for each of their errands that stands there, with its text and with whom and where its other side is, and no
entry besides, nor any id twice. -/
theorem getAllList_errands {E : Env} {tr : List (Input × Option Reply)} {w : World}
    (h : InputRuns E (fun w e => e.Covered E w) World.empty tr w) (u : UserID) :
    ∃ lists, (ListManager.getAllList u).run (serve E) w = (some (.ok lists), w) ∧ ∀ l,
      ((lists.of l).map fun entry => entry.issue.id).Nodup ∧
      (∀ entry ∈ lists.of l, ∃ x e, w.board.errands x = some e ∧ entry.Shows E u l x e) ∧
      ∀ x e id fu fl, w.board.errands x = some e → e.Shown E x u l id fu fl →
        ∃ entry ∈ lists.of l, entry.issue.id = id ∧ entry.foreignUser = fu ∧ entry.foreignList = fl := by
  have hs : w.Settled E := h.keep (I := World.Settled E) (fun _ _ hs he => Input.settled hs he) (World.settled_empty E)
  have hids : ∀ l, (((w.shown E u).of l).map fun entry => entry.issue.id) = ids (w.board.refs u l) :=
    fun l => hs.mutual.ids_shown E u l
  refine ⟨w.shown E u, ListManager.getAllList_run E hs.sound.toListed u, fun l => ⟨?_, fun entry => hs.shows, ?_⟩⟩
  · rw [hids]
    exact hs.sound.distinct u l
  · intro x e id fu fl he hshown
    have hm := hs.mem_of_shown he hshown
    rw [← hids] at hm
    obtain ⟨entry, hentrymem, rfl⟩ := List.mem_map.1 hm
    obtain ⟨x', e', he', hshows⟩ := hs.shows hentrymem
    obtain rfl := hs.paired.toApart.knownAs_unique (hs.paired.toApart.errands_eq.1 he')
      (hs.paired.toApart.errands_eq.1 he) hshows.shown.knownAs hshown.knownAs
    cases he'.symm.trans he
    exact ⟨entry, hentrymem, rfl, hshows.shown.unique hshown⟩

section sample

/-- Bob is shown the todo Ann has sent him, in his In list alone. -/
theorem sendMilk_errands :
    ∃ lists, (ListManager.getAllList bob).run (serve Env.sample) (sendMilk.after Env.sample World.empty) =
        (some (.ok lists), sendMilk.after Env.sample World.empty) ∧ ∀ l,
      ((lists.of l).map fun entry => entry.issue.id).Nodup ∧
      (∀ entry ∈ lists.of l, ∃ x e, (sendMilk.after Env.sample World.empty).board.errands x = some e ∧
        entry.Shows Env.sample bob l x e) ∧
      ∀ x e id fu fl, (sendMilk.after Env.sample World.empty).board.errands x = some e →
        e.Shown Env.sample x bob l id fu fl →
        ∃ entry ∈ lists.of l, entry.issue.id = id ∧ entry.foreignUser = fu ∧ entry.foreignList = fl :=
  getAllList_errands (.step sendMilk (fun o ho => by cases ho; trivial) (.done _)) bob

end sample
end Todo

import TodoPlugin.Granted
import TodoPlugin.Tracking
/-!
# The code does what the errands are to do

One operation of the list manager, on a settled store, makes a step of `Errands.Step` between the errands before it and
those after it, done or refused as that says.  So does every input, and along any run of covered inputs the errands take
the steps of the operations made.
-/
namespace Todo

open Store (ids)
open Labelled (Steps Simulates)

/-! ## What is granted is what is enabled -/

namespace Board

variable {b : Board} (h : b.Paired) {u : UserID} {id : String}
include h

theorem Paired.listed_iff :
    (∃ l, id ∈ ids (b.refs u l)) ↔ ∃ x e, b.errands x = some e ∧ e.KnownAs x u id := by
  constructor
  · rintro ⟨l, hm⟩
    obtain ⟨r, hr, rfl⟩ := List.mem_map.1 hm
    obtain ⟨e, ht, hk⟩ := h.tracks_root hr
    exact ⟨_, e, h.toApart.errands_eq.2 ht, hk⟩
  · rintro ⟨x, e, he, hk⟩
    obtain ⟨l, r, hr, hid, -⟩ := (h.toApart.errands_eq.1 he).mem_of_knownAs hk
    exact ⟨l, List.mem_map.2 ⟨r, hr, hid⟩⟩

theorem Paired.owned_iff : (∃ l, ∃ r ∈ b.refs u l, r.issueID = id ∧ (l = .outList ∨ r.foreignUserID = "")) ↔
    ∃ e, b.errands id = some e ∧ e.owner = u := by
  constructor
  · rintro ⟨l, r, hr, rfl, hown⟩
    by_cases hf : r.foreignUserID = ""
    · obtain ⟨i, -, ht⟩ := h.tracks_kept hr hf
      exact ⟨_, h.toApart.errands_eq.2 ht, rfl⟩
    · obtain rfl := hown.resolve_right hf
      obtain ⟨v, m, i, -, -, -, -, ht⟩ := h.tracks_sent hr
      exact ⟨_, h.toApart.errands_eq.2 ht, rfl⟩
  · rintro ⟨e, he, rfl⟩
    have ht := h.toApart.errands_eq.1 he
    cases ht with
    | kept u i hr hi => exact ⟨_, _, hr, rfl, .inr rfl⟩
    | sent u v l y i hl hx hy hi => exact ⟨_, _, hx, rfl, .inl rfl⟩

theorem Paired.waiting_iff : id ∈ ids (b.refs u .inList) ↔ ∃ x e, b.errands x = some e ∧ e.holder = some ⟨u, id, false⟩ := by
  constructor
  · intro hm
    obtain ⟨r, hr, rfl⟩ := List.mem_map.1 hm
    obtain ⟨o, ho, -⟩ := h.inn hr
    obtain ⟨o, i, -, -, -, ht⟩ := h.tracks_received hr (by decide) fun he => o.val_ne_empty (ho.symm.trans he)
    exact ⟨_, _, h.toApart.errands_eq.2 ht, rfl⟩
  · rintro ⟨x, e, he, hh⟩
    have ht := h.toApart.errands_eq.1 he
    cases ht with
    | kept u i hr hi => cases hh
    | sent o v l y i hl hx hy hi =>
      cases l with
      | inList =>
        cases hh
        exact List.mem_map.2 ⟨_, hy, rfl⟩
      | myList => cases hh
      | outList => exact absurd rfl hl

/-- What is in a My list its user is to do. -/
theorem Paired.toDo_of_mem {r : IssueRef} (hr : r ∈ b.refs u .myList) :
    ∃ e, b.errands (root .myList r) = some e ∧ e.ToDo u := by
  by_cases hf : r.foreignUserID = ""
  · obtain ⟨i, -, ht⟩ := h.tracks_kept hr hf
    rw [root, if_pos (.inr hf)]
    exact ⟨_, h.toApart.errands_eq.2 ht, .inl ⟨rfl, rfl⟩⟩
  · obtain ⟨o, i, -, -, -, ht⟩ := h.tracks_received hr (by decide) hf
    rw [root, if_neg (by simp [hf])]
    exact ⟨_, h.toApart.errands_eq.2 ht, .inr ⟨_, rfl, rfl, rfl⟩⟩

theorem Paired.toDo_iff : b.refs u .myList ≠ [] ↔ ∃ x e, b.errands x = some e ∧ e.ToDo u := by
  constructor
  · intro hne
    obtain ⟨r, hr⟩ := List.exists_mem_of_ne_nil _ hne
    obtain ⟨e, he, htodo⟩ := h.toDo_of_mem hr
    exact ⟨_, e, he, htodo⟩
  · rintro ⟨x, e, he, htodo⟩
    have ht := h.toApart.errands_eq.1 he
    cases ht with
    | kept v i hr hi =>
      rcases htodo with ⟨-, rfl⟩ | ⟨hd, hh, -⟩
      · exact List.ne_nil_of_mem hr
      · cases hh
    | sent o v l y i hl hx hy hi =>
      rcases htodo with ⟨hh, -⟩ | ⟨hd, hh, hacc, rfl⟩
      · cases hh
      · cases hh
        obtain rfl : l = .myList := by simpa using hacc
        exact List.ne_nil_of_mem hy

theorem Paired.bumpable_iff : (∃ r ∈ b.refs u .outList, r.issueID = id ∧ b.list (listKey r.foreignUserID .inList) ≠ []) ↔
    ∃ e hd, b.errands id = some e ∧ e.owner = u ∧ e.holder = some hd ∧ b.errands.Waits hd.user := by
  have hwaits : ∀ v : UserID, b.list (listKey v .inList) ≠ [] ↔ b.errands.Waits v := by
    intro v
    constructor
    · intro hne
      obtain ⟨r, hr⟩ := List.exists_mem_of_ne_nil _ hne
      obtain ⟨x, e, he, hh⟩ := h.waiting_iff.1 (List.mem_map.2 ⟨r, hr, rfl⟩)
      exact ⟨x, e, _, he, hh⟩
    · rintro ⟨x, e, c, he, hh⟩
      obtain ⟨r, hr, -⟩ := List.mem_map.1 (h.waiting_iff.2 ⟨x, e, he, hh⟩)
      exact List.ne_nil_of_mem hr
  constructor
  · rintro ⟨r, hr, rfl, hne⟩
    obtain ⟨v, m, i, hv, -, -, -, ht⟩ := h.tracks_sent hr
    rw [hv] at hne
    exact ⟨_, _, h.toApart.errands_eq.2 ht, rfl, rfl, (hwaits v).1 hne⟩
  · rintro ⟨e, hd, he, rfl, hh, hw⟩
    have ht := h.toApart.errands_eq.1 he
    cases ht with
    | kept u i hr hi => cases hh
    | sent u v l y i hl hx hy hi =>
      cases hh
      exact ⟨_, hx, rfl, (hwaits v).2 hw⟩

/-- **An operation is granted exactly where the errands enable it.** -/
theorem Paired.granted_iff {op : ListOp} : op.Granted b ↔ b.errands.Enabled op := by
  cases op with
  | addIssue | sendIssue => exact Iff.rfl
  | completeIssue | removeIssue | editIssue => exact h.listed_iff
  | changeAssignment => exact h.owned_iff
  | acceptIssue => exact h.waiting_iff
  | popIssue => exact h.toDo_iff
  | bumpIssue => exact h.bumpable_iff

end Board
/-! ## Taking out an errand -/

section drop
variable {E : Env} {w : World} {u : UserID} {l : ListID}

theorem World.errands_dropOwn (h : w.Sound) (hp : w.board.Paired) {r : IssueRef} (hr : r ∈ w.board.refs u .myList)
    (hown : r.foreignUserID = "") :
    ((w.unlist u r.issueID .myList).dropIssue r.issueID).board.errands =
      Function.update w.board.errands (Board.root .myList r) none := by
  have hb := (h.unlist u r.issueID .myList).board_dropIssue r.issueID
  rw [World.board_unlist] at hb
  have hp' := hb ▸ (Board.Move.dropOwn u r hr hown).paired hp
  obtain ⟨-, hfi⟩ := hp.own hr hown
  obtain ⟨x, y, v⟩ := r
  obtain rfl : v = "" := hown
  obtain rfl : y = "" := hfi
  rw [Board.root_own]
  exact Board.errands_dropOwn hp hp' hr hb

theorem World.errands_dropPair (h : w.Sound) (hp : w.board.Paired) {v : UserID} {m : ListID} {x y : String}
    (hlm : l = .outList ↔ m ≠ .outList) (hx : ⟨x, y, v⟩ ∈ w.board.refs u l) (hy : ⟨y, x, u⟩ ∈ w.board.refs v m) :
    ((((w.unlist u x l).dropIssue x).unlist v y m).dropIssue y).board.errands =
      Function.update w.board.errands (Board.root l ⟨x, y, v⟩) none := by
  have h₁ := h.unlist u x l
  have h₃ := (h₁.dropIssue x).unlist v y m
  have hb : ((((w.unlist u x l).dropIssue x).unlist v y m).dropIssue y).board
      = (((w.board.unlist (listKey u l) x).unlist (listKey v m) y).setIssue x none).setIssue y none := by
    rw [h₃.board_dropIssue, World.board_unlist, h₁.board_dropIssue, World.board_unlist]
    rfl
  by_cases hl : l = .outList
  · subst hl
    have hp' := hb ▸ (Board.Move.dropPair u v m x y (hlm.1 rfl) hx hy).paired hp
    rw [Board.root_out]
    exact Board.errands_dropPair hp hp' (hlm.1 rfl) hx hy hb
  · obtain rfl : m = .outList := Classical.byContradiction fun hm => hl (hlm.2 hm)
    rw [Board.unlist_comm, Board.setIssue_comm _ (hp.toApart.pair_ne hl hy hx).symm] at hb
    have hp' := hb ▸ (Board.Move.dropPair v u l y x hl hy hx).paired hp
    rw [Board.root_copy hl]
    exact Board.errands_dropPair hp hp' hl hy hx hb

/-- The operation takes the errand out. -/
def Discards (E : Env) (w : World) {α : Type} (p : Api α) (err : α → Option String) (x : String) : Prop :=
  ∃ a w', p.run (serve E) w = (some a, w') ∧ err a = none ∧ w'.board.errands = Function.update w.board.errands x none

namespace ListManager

variable (h : w.Sound) (hp : w.board.Paired) {r : IssueRef}
include h hp

theorem completeIssue_discards (hlo : l ≠ .outList) (hr : r ∈ w.board.refs u l) :
    Discards E w (completeIssue u r.issueID) CompleteResult.err (Board.root l r) := by
  obtain ⟨n, hl⟩ := h.locate_of_apart hp.toApart hr
  by_cases hf : r.foreignUserID = ""
  · obtain ⟨rfl, -⟩ := hp.own hr hf
    exact ⟨_, _, completeIssue_own E h hl hf, rfl, World.errands_dropOwn h hp hr hf⟩
  · obtain ⟨v, m, hv, hlm, hm⟩ := hp.other hr hf
    obtain rfl : m = .outList := Classical.byContradiction fun hmo => hlo (hlm.2 hmo)
    obtain ⟨x, y, v'⟩ := r
    obtain rfl : v' = v := hv
    exact ⟨_, _, completeIssue_shared E h hl hf, rfl, World.errands_dropPair h hp hlm hr hm⟩

theorem removeIssue_discards (hr : r ∈ w.board.refs u l) :
    Discards E w (removeIssue u r.issueID) RemoveResult.err (Board.root l r) := by
  obtain ⟨n, hl⟩ := h.locate_of_apart hp.toApart hr
  by_cases hf : r.foreignUserID = ""
  · obtain ⟨rfl, -⟩ := hp.own hr hf
    exact ⟨_, _, removeIssue_own E h hl hf, rfl, World.errands_dropOwn h hp hr hf⟩
  · obtain ⟨v, m, hv, hlm, hm⟩ := hp.other hr hf
    obtain ⟨k, hk⟩ := locate_dropped h hp hr hlm hm
    obtain ⟨x, y, v'⟩ := r
    obtain rfl : v' = v := hv
    exact ⟨_, _, removeIssue_shared E h hl hf hk, rfl, World.errands_dropPair h hp hlm hr hm⟩

theorem popIssue_discards {rest : List IssueRef} (hl : w.list (listKey u .myList) = r :: rest) :
    Discards E w (popIssue u) PopResult.err (Board.root .myList r) := by
  have hr : r ∈ w.board.refs u .myList := by
    rw [Board.refs, World.board_list, hl]
    exact List.mem_cons_self
  by_cases hf : r.foreignUserID = ""
  · exact ⟨_, _, popIssue_own E h hl hf, rfl, World.errands_dropOwn h hp hr hf⟩
  · obtain ⟨v, m, hv, hlm, hm⟩ := hp.other hr hf
    obtain rfl : m = .outList := Classical.byContradiction fun hmo => by cases hlm.2 hmo
    obtain ⟨x, y, v'⟩ := r
    obtain rfl : v' = v := hv
    exact ⟨_, _, popIssue_shared E h hl hf, rfl, World.errands_dropPair h hp hlm hr hm⟩

end ListManager
end drop
/-! ## One operation -/

/-- **The operation does what the errands are to do.** -/
def Performs (E : Env) (w : World) (op : ListOp) : Prop :=
  ∃ res w', op.exec.run (serve E) w = (some res, w') ∧ Errands.Step w.board.errands (op, res.err.isNone) w'.board.errands

namespace Performs

variable {E : Env} {w w' : World} {op : ListOp} {α : Type} {p : Api α} {f : α → ListResult} {a : α}

/-- It is done: the procedure succeeds, and the errands make the step. -/
theorem done (hexec : op.exec = p >>= fun a => pure (f a)) (hrun : p.run (serve E) w = (some a, w'))
    (herr : (f a).err = none) (hstep : Errands.Step w.board.errands (op, true) w'.board.errands) : Performs E w op := by
  refine ⟨f a, w', ?_, ?_⟩
  · rw [hexec, Proc.run_bind_of _ hrun]
    rfl
  · rw [herr]
    exact hstep

/-- It is refused: the procedure decides it, and the errands do not enable it. -/
theorem refused (hp : w.board.Paired) (hexec : op.exec = p >>= fun a => pure (f a))
    (hd : Decides E w p (fun a => (f a).err ≠ none) (op.Granted w.board)) (hno : ¬ w.board.errands.Enabled op) :
    Performs E w op := by
  obtain ⟨a, w', hrun, hfails, hsame⟩ := hd
  have herr : (f a).err ≠ none := hfails.2 fun hg => hno (hp.granted_iff.1 hg)
  refine ⟨f a, w', ?_, ?_⟩
  · rw [hexec, Proc.run_bind_of _ hrun]
    rfl
  · obtain ⟨err, he⟩ := Option.ne_none_iff_exists'.1 herr
    rw [hsame herr, he]
    exact .refuse op hno

/-- It takes an errand out. -/
theorem drop (hexec : op.exec = p >>= fun a => pure (f a)) {err : α → Option String} {x : String}
    (hd : Discards E w p err x) (herr : ∀ a, (f a).err = err a)
    (hstep : Errands.Step w.board.errands (op, true) (Function.update w.board.errands x none)) : Performs E w op := by
  obtain ⟨a, w', hrun, ha, hw'⟩ := hd
  exact done hexec hrun ((herr a).trans ha) (hw' ▸ hstep)

end Performs

namespace ListManager

variable {E : Env} {w : World} (h : w.Settled E) {u : UserID} {id : String}
include h

theorem addIssue_performs (m p d q : String) : Performs E w (.addIssue u m p d q) := by
  have hi : w.board.issue (w.made E m p d q).id = none := h.fresh w.drawn (Nat.le_refl _)
  have hrun := addIssue_run E h.sound u m p d q (h.paired.recorded.absent hi u .myList)
  have hb : ((w.draw.save (w.made E m p d q)).append u .myList ⟨E.newId w.drawn, "", ""⟩).board
      = (w.board.setIssue (w.made E m p d q).id (some (w.made E m p d q))).append (listKey u .myList)
          ⟨(w.made E m p d q).id, "", ""⟩ := by
    rw [World.board_append, h.sound.draw.board_save]
    rfl
  refine .done rfl hrun rfl ?_
  rw [Board.errands_add h.paired (hb ▸ (Board.Move.add u _ hi).paired h.paired) hi hb]
  exact .add u m p d q _ (h.paired.errands_new hi)

theorem sendIssue_performs (v : UserID) (m p d q : String) : Performs E w (.sendIssue u v m p d q) := by
  have hi : w.board.issue (w.made E m p d q).id = none := h.fresh w.drawn (Nat.le_refl _)
  have hj : w.board.issue (w.draw.made E m p d q).id = none := h.fresh (w.drawn + 1) (Nat.le_succ _)
  have hij : (w.made E m p d q).id ≠ (w.draw.made E m p d q).id := fun he => by
    have := E.newId_inj _ _ he
    simp at this
  have hs₁ := h.sound.draw.save (w.made_id_ne E m p d q)
  have hrun := sendIssue_run E h.sound u v m p d q (h.paired.recorded.absent hi u .outList)
    (h.paired.recorded.absent hj v .inList) (listKey_ne (by decide))
  have hb : (sent E w u v m p d q).board
      = (((w.board.setIssue (w.made E m p d q).id (some (w.made E m p d q))).setIssue (w.draw.made E m p d q).id
          (some (w.draw.made E m p d q))).append (listKey u .outList)
          ⟨(w.made E m p d q).id, (w.draw.made E m p d q).id, v⟩).append (listKey v .inList)
          ⟨(w.draw.made E m p d q).id, (w.made E m p d q).id, u⟩ := by
    rw [sent, World.board_append, World.board_append, hs₁.draw.board_save, World.board_draw, h.sound.draw.board_save]
    rfl
  have hp' := hb ▸ (Board.Move.send u v _ _ hi hj hij ⟨rfl, rfl, rfl, rfl⟩).paired h.paired
  refine .done rfl hrun rfl ?_
  rw [Board.errands_send h.paired hp' hi hj hij hb]
  exact .send u v m p d q _ _ (h.paired.errands_new hi) (h.paired.errands_new hj) hij

theorem completeIssue_performs (hout : id ∉ ids (w.board.refs u .outList)) : Performs E w (.completeIssue u id) := by
  by_cases hen : w.board.errands.Enabled (.completeIssue u id)
  · obtain ⟨l, hm⟩ := h.paired.listed_iff.2 hen
    obtain ⟨r, hr, rfl⟩ := List.mem_map.1 hm
    have hlo : l ≠ .outList := fun he => hout (he ▸ hm)
    obtain ⟨e, ht, hk⟩ := h.paired.tracks_root hr
    exact .drop rfl (completeIssue_discards h.sound h.paired hlo hr) (fun _ => rfl)
      (.complete u _ _ e (h.paired.toApart.errands_eq.2 ht) hk)
  · exact .refused h.paired rfl (completeIssue_decides h.sound) hen

theorem removeIssue_performs : Performs E w (.removeIssue u id) := by
  by_cases hen : w.board.errands.Enabled (.removeIssue u id)
  · obtain ⟨l, hm⟩ := h.paired.listed_iff.2 hen
    obtain ⟨r, hr, rfl⟩ := List.mem_map.1 hm
    obtain ⟨e, ht, hk⟩ := h.paired.tracks_root hr
    exact .drop rfl (removeIssue_discards h.sound h.paired hr) (fun _ => rfl)
      (.remove u _ _ e (h.paired.toApart.errands_eq.2 ht) hk)
  · exact .refused h.paired rfl (removeIssue_decides h.sound) hen

theorem popIssue_performs : Performs E w (.popIssue u) := by
  cases hl : w.list (listKey u .myList) with
  | nil =>
    refine .refused h.paired rfl (popIssue_decides h.sound) fun hen => ?_
    exact h.paired.toDo_iff.2 hen hl
  | cons r rest =>
    have hr : r ∈ w.board.refs u .myList := by
      rw [Board.refs, World.board_list, hl]
      exact List.mem_cons_self
    obtain ⟨e, he, ht⟩ := h.paired.toDo_of_mem hr
    exact .drop rfl (popIssue_discards h.sound h.paired hl) (fun _ => rfl) (.pop u _ e he ht)

theorem acceptIssue_performs : Performs E w (.acceptIssue u id) := by
  by_cases hen : w.board.errands.Enabled (.acceptIssue u id)
  · obtain ⟨r, hr, rfl⟩ := List.mem_map.1 (h.paired.waiting_iff.2 hen)
    obtain ⟨j, w', hrun, -, -, -, hb⟩ := acceptIssue_board E h.sound h.paired hr
    have hp' := hb ▸ (Board.Move.accept u r hr).paired h.paired
    obtain ⟨v, hv, hm⟩ := h.paired.inn hr
    obtain ⟨i, hi⟩ := h.paired.recorded v .outList _ hm
    obtain ⟨y, x, v'⟩ := r
    obtain rfl : v' = v := hv
    have ht : w.board.Tracks x _ := .sent v u .inList y i (by decide) hm hr hi
    refine .done rfl hrun rfl ?_
    rw [Board.errands_accept h.paired hp' hm hr hi hb]
    exact .accept u y x _ (h.paired.toApart.errands_eq.2 ht) rfl
  · exact .refused h.paired rfl (acceptIssue_decides h.sound h.paired) hen

theorem editIssue_performs (m d : String) : Performs E w (.editIssue u id m d) := by
  by_cases hen : w.board.errands.Enabled (.editIssue u id m d)
  · obtain ⟨l, hm⟩ := h.paired.listed_iff.2 hen
    obtain ⟨r, hr, rfl⟩ := List.mem_map.1 hm
    obtain ⟨i, hi⟩ := h.paired.recorded u l r hr
    obtain ⟨n, hl⟩ := h.sound.locate_of_apart h.paired.toApart hr
    obtain ⟨old, hrun⟩ := editIssue_run E h.sound m d hi hl
    obtain ⟨e, ht, hk⟩ := h.paired.tracks_root hr
    have he := h.paired.toApart.errands_eq.2 ht
    refine .done rfl hrun rfl ?_
    have hid : (i.retext m d).id = r.issueID := h.sound.issue_id (i := i) hi
    by_cases hf : r.foreignUserID = ""
    · obtain ⟨rfl, hfi⟩ := h.paired.own hr hf
      rw [editForeign, hfi, if_neg (by simp)]
      have hb := h.sound.board_save (i.retext m d)
      rw [hid] at hb
      have hp' := hb ▸ (Board.Move.editOwn u r hr hf i hi m d).paired h.paired
      obtain ⟨x, y, v⟩ := r
      obtain rfl : v = "" := hf
      obtain rfl : y = "" := hfi
      rw [Board.root_own] at he hk ht
      have hkept : w.board.Tracks x ⟨u, i.text, none⟩ := .kept u i hr hi
      obtain rfl := h.paired.toApart.tracks_unique ht hkept
      rw [Board.errands_editOwn h.paired hp' hr hi hb]
      exact .edit u x m d x _ he hk
    · obtain ⟨v, k, hv, hlm, hmem⟩ := h.paired.other hr hf
      obtain ⟨j, hj⟩ := h.paired.recorded v k _ hmem
      have hjd : (j.retext m d).id = r.foreignIssueID := h.sound.issue_id (i := j) hj
      have hne : r.foreignIssueID ≠ "" := h.sound.id_ne_empty hj
      have hj' : w.issue r.foreignIssueID = some j := hj
      rw [editForeign, if_pos hne, hj']
      have hs := h.sound.save (i := j.retext m d) (hjd ▸ hne)
      have hb := hs.board_save (i.retext m d)
      rw [h.sound.board_save, hid, hjd] at hb
      obtain ⟨x, y, v'⟩ := r
      obtain rfl : v' = v := hv
      by_cases hlo : l = .outList
      · subst hlo
        rw [Board.setIssue_comm _ (h.paired.toApart.pair_ne (hlm.1 rfl) hr hmem).symm] at hb
        have hp' := hb ▸ (Board.Move.editPair u v k x y (hlm.1 rfl) hr hmem i j hi hj m d).paired h.paired
        rw [Board.root_out] at he hk ht
        have hsent : w.board.Tracks x _ := .sent u v k y i (hlm.1 rfl) hr hmem hi
        obtain rfl := h.paired.toApart.tracks_unique ht hsent
        rw [Board.errands_editPair h.paired hp' (hlm.1 rfl) hr hmem hi hb]
        exact .edit u x m d x _ he hk
      · obtain rfl : k = .outList := Classical.byContradiction fun hko => hlo (hlm.2 hko)
        have hp' := hb ▸ (Board.Move.editPair v u l y x hlo hmem hr j i hj hi m d).paired h.paired
        rw [Board.root_copy hlo] at he hk ht
        have hsent : w.board.Tracks y _ := .sent v u l x j hlo hmem hr hj
        obtain rfl := h.paired.toApart.tracks_unique ht hsent
        rw [Board.errands_editPair h.paired hp' hlo hmem hr hj hb]
        exact .edit u x m d y _ he hk
  · exact .refused h.paired rfl (editIssue_decides h.sound h.paired m d) hen

theorem changeAssignment_performs (t : UserID)
    (hself : u = t → ∀ r ∈ w.board.refs u .myList, r.issueID = id → r.foreignUserID ≠ "") :
    Performs E w (.changeAssignment id u t) := by
  have hnew : w.board.issue (E.newId w.drawn) = none := h.fresh w.drawn (Nat.le_refl _)
  by_cases hen : w.board.errands.Enabled (.changeAssignment id u t)
  · obtain ⟨e, he, ho⟩ := hen
    have ht := h.paired.toApart.errands_eq.1 he
    cases ht with
    | kept v i hr hi =>
      obtain rfl : v = u := ho
      have hut : v ≠ t := fun hut => hself hut _ hr rfl rfl
      obtain ⟨n, hl⟩ := h.sound.locate_of_apart h.paired.toApart hr
      obtain ⟨j, w', hrun, hjid, htext, -, -, hb⟩ :=
        changeAssignment_own_board E h.sound h.paired h.fresh hut hr rfl hi hl
      have hj : w.board.issue j.id = none := hjid ▸ hnew
      have hp' := hb ▸ (Board.Move.assignOwn v t _ hr rfl i j hi hj htext).paired h.paired
      refine .done rfl hrun rfl ?_
      rw [Board.errands_assignOwn h.paired hp' hr hi hj hb]
      exact .give v t id j.id _ he rfl hut.symm (h.paired.errands_new hj)
    | sent v q l y i hlo hx hy hi =>
      obtain rfl : v = u := ho
      obtain ⟨n, hl⟩ := h.sound.locate_of_apart h.paired.toApart hx
      by_cases hut : v = t
      · subst hut
        obtain ⟨w', hrun, -, -, hb⟩ := changeAssignment_back_board E h.sound h.paired hlo hx hy hi hl
        have hp' := hb ▸ (Board.Move.takeBack v q l id y hlo hx hy).paired h.paired
        refine .done rfl hrun rfl ?_
        rw [Board.errands_takeBack h.paired hp' hlo hx hy hi hb]
        exact .takeBack v id _ _ he rfl rfl
      · obtain ⟨j, w', hrun, hjid, htext, -, -, hb⟩ :=
          changeAssignment_other_board E h.sound h.paired h.fresh hut hlo hx hy hi hl
        have hj : w.board.issue j.id = none := hjid ▸ hnew
        have hp' := hb ▸ (Board.Move.assignPair v q t l id y hlo hx hy i j hi hj htext).paired h.paired
        refine .done rfl hrun rfl ?_
        rw [Board.errands_assignPair h.paired hp' hlo hx hy hi hj hb]
        exact .give v t id j.id _ he rfl (Ne.symm hut) (h.paired.errands_new hj)
  · exact .refused h.paired rfl (changeAssignment_decides h t) hen

theorem bumpIssue_performs : Performs E w (.bumpIssue u id) := by
  by_cases hen : w.board.errands.Enabled (.bumpIssue u id)
  · obtain ⟨r, hr, rfl, hne⟩ := h.paired.bumpable_iff.2 hen
    obtain ⟨n, href⟩ := h.sound.refOf_of_mem hr
    obtain ⟨v, -, hv, -⟩ := h.paired.out hr
    rcases Store.bumpEdit_perm r.foreignIssueID (w.list (listKey r.foreignUserID .inList)) with
      ⟨hnil, -⟩ | ⟨newList, hedit, hperm⟩
    · exact absurd hnil hne
    · have hrun := bumpIssue_eq E h.sound.toListed href
      rw [hedit, hv] at hrun
      rw [hv] at hperm
      have hperm' : newList.Perm (w.board.refs v .inList) := hperm
      have hb := World.board_put_list w v .inList newList
      have hp' := hb ▸ (Board.Move.permute v .inList newList hperm').paired h.paired
      refine .done rfl hrun (bumped_outErr w r) ?_
      have hrefs : ∀ (q : UserID) l s, s ∈ (w.put (listKey v .inList) (.refs newList)).board.refs q l ↔
          s ∈ w.board.refs q l := fun q l s => by rw [hb, Board.mem_refs_permute hperm']
      rw [Board.errands_permute h.paired hp' hrefs fun id => by rw [hb]; rfl]
      exact .bump u r.issueID hen
  · exact .refused h.paired rfl (bumpIssue_decides h.sound) hen

end ListManager

/-- **Every covered operation performs.** -/
theorem ListOp.performs {E : Env} {w : World} (h : w.Settled E) {op : ListOp} (hop : op.Covered w.board) :
    Performs E w op := by
  cases op with
  | addIssue u m p d q => exact ListManager.addIssue_performs h m p d q
  | sendIssue u v m p d q => exact ListManager.sendIssue_performs h v m p d q
  | completeIssue u id => exact ListManager.completeIssue_performs h hop
  | editIssue u id m d => exact ListManager.editIssue_performs h m d
  | changeAssignment id u v => exact ListManager.changeAssignment_performs h v hop
  | acceptIssue u id => exact ListManager.acceptIssue_performs h
  | removeIssue u id => exact ListManager.removeIssue_performs h
  | popIssue u => exact ListManager.popIssue_performs h
  | bumpIssue u id => exact ListManager.bumpIssue_performs h

/-! ## Every input -/

/-- The operation is done and not refused. -/
def ListOp.succeeds (E : Env) (w : World) (op : ListOp) : Bool :=
  ((op.exec.run (serve E) w).1.map fun res => res.err.isNone).getD false

theorem ListOp.step {E : Env} {w : World} (h : w.Settled E) {op : ListOp} (hop : op.Covered w.board) :
    Errands.Step w.board.errands (op, op.succeeds E w) (op.after E w).board.errands := by
  obtain ⟨res, w', hrun, hstep⟩ := ListOp.performs h hop
  rw [ListOp.succeeds, ListOp.after, hrun]
  exact hstep

namespace Input

/-- What an input shows: its operation, if it makes one, and whether that is done. -/
def label (E : Env) (w : World) (e : Input) : Option (ListOp × Bool) :=
  (e.op E w).map fun op => (op, op.succeeds E w)

/-- One input of a run. -/
def Makes (E : Env) (w : World) (l : Option (ListOp × Bool)) (w' : World) : Prop :=
  ∃ e : Input, e.Covered E w ∧ l = e.label E w ∧ w' = e.after E w

/-- What saving a setting leaves of the errands: all of them. -/
theorem errands_put_setting {E : Env} {w : World} (h : w.Settled E) {key : String} (hk : SettingKey key)
    (value : Value) : (w.put key value).board.errands = w.board.errands :=
  Board.errands_permute h.paired (h.put_setting hk value).paired
    (fun u l r => by rw [Board.refs, World.board_list, World.list_put_setting hk]; rfl)
    fun id => World.issue_put_setting hk value id

/-- **Every input makes its operation's step, or none.** -/
theorem simulates (E : Env) :
    Simulates (fun w es => w.Settled E ∧ es = w.board.errands) (Makes E) Errands.Step := by
  rintro w _ _ _ ⟨h, rfl⟩ ⟨e, he, rfl, rfl⟩
  have hsettled := e.settled h he
  obtain ⟨w₁, hstep, hsame⟩ := e.exec_step E w
  have hboard : (e.after E w).board = w₁.board := World.board_eq_of_kv hsame.kv
  have hsilent : e.op E w = none → w₁.board.errands = w.board.errands →
      (e.label E w).elim ((e.after E w).Settled E ∧ w.board.errands = (e.after E w).board.errands) fun l =>
        ∃ es, Errands.Step w.board.errands l es ∧ (e.after E w).Settled E ∧ es = (e.after E w).board.errands := by
    intro hno herrands
    rw [label, hno, hboard]
    exact ⟨hsettled, herrands.symm⟩
  cases hstep with
  | op o ho =>
    rw [label, ho]
    exact ⟨_, ListOp.step h (he o ho), hsettled, by rw [hboard]⟩
  | setting key b hs =>
    refine hsilent ?_ (errands_put_setting h (Input.setting_key hs) _)
    cases ho : e.op E w with
    | none => rfl
    | some o => cases hs.symm.trans (setting_of_op ho)
  | reminded u reminder offset text hq =>
    subst hq
    exact hsilent rfl (errands_put_setting h (.reminder u) _)
  | idle ho hs => exact hsilent ho rfl

/-- What the inputs of a run show. -/
def labels (E : Env) : World → List (Input × Option Reply) → List (Option (ListOp × Bool))
  | _, []           => []
  | w, (e, _) :: tr => e.label E w :: labels E (e.after E w) tr

/-- A run of covered inputs, input by input. -/
theorem runs_makes {E : Env} {w w' : World} {tr : List (Input × Option Reply)}
    (h : InputRuns E (fun w e => e.Covered E w) w tr w') : Steps (Makes E) w (labels E w tr) w' := by
  induction h with
  | done w => exact .nil w
  | step e he _ ih => exact .cons ⟨e, he, rfl, rfl⟩ ih

end Input

theorem Board.errands_empty : World.empty.board.errands = Errands.empty := by
  funext x
  exact Board.Absent.errands_eq fun u l hm => by cases hm

/-- **The plugin refines the errands.**  Along any run of covered inputs from an empty store, the errands of the store
take exactly the steps of the operations the inputs make, each done where the errands enable it and refused where they do
not, and no other step. -/
theorem inputRuns_refines {E : Env} {tr : List (Input × Option Reply)} {w : World}
    (h : InputRuns E (fun w e => e.Covered E w) World.empty tr w) :
    Steps Errands.Step Errands.empty (Input.labels E World.empty tr).reduceOption w.board.errands := by
  obtain ⟨es, hsteps, -, rfl⟩ :=
    (Input.simulates E).steps (Input.runs_makes h) ⟨World.settled_empty E, Board.errands_empty.symm⟩
  exact hsteps

section sample

theorem acceptMilk_refines :
    Steps Errands.Step Errands.empty [(.sendIssue ann bob "milk" "" "" "", true), (.acceptIssue bob "xx", true)]
      (acceptMilk.after Env.sample (sendMilk.after Env.sample World.empty)).board.errands :=
  inputRuns_refines (E := Env.sample) (.step sendMilk (fun o ho => by cases ho; trivial)
    (.step acceptMilk (fun o ho => by cases ho; trivial) (.done _)))

end sample
end Todo

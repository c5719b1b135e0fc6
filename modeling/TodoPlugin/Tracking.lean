import TodoPlugin.Errands
/-!
# Tracking: the errands of a board

An errand on the board is a reference of its owner's, kept in the My list or sent in the Out list, and for one sent the
reference of its holder's that answers it.  `Board.errands` reads the errands off; each move of the board, on a paired
board, is then one change of one errand (`Touches` says what else there is left alone), and what an operation is granted
for on the board is what the errands enable it for.
-/
namespace Todo
namespace Board

open Store (ids)

/-- **The board has the errand** `e` under `x`. -/
inductive Tracks (b : Board) (x : String) : Errand → Prop
  | kept (u : UserID) (i : Issue) (hr : ⟨x, "", ""⟩ ∈ b.refs u .myList) (hi : b.issue x = some i) :
      Tracks b x ⟨u, i.text, none⟩
  | sent (u v : UserID) (l : ListID) (y : String) (i : Issue) (hl : l ≠ .outList) (hx : ⟨x, y, v⟩ ∈ b.refs u .outList)
      (hy : ⟨y, x, u⟩ ∈ b.refs v l) (hi : b.issue x = some i) :
      Tracks b x ⟨u, i.text, some ⟨v, y, decide (l = .myList)⟩⟩

/-- The errand a reference is of, by the list it is in. -/
def root (l : ListID) (r : IssueRef) : String :=
  if l = .outList ∨ r.foreignUserID = "" then r.issueID else r.foreignIssueID

theorem root_out (r : IssueRef) : root .outList r = r.issueID := if_pos (.inl rfl)

theorem root_own (l : ListID) (x : String) : root l ⟨x, "", ""⟩ = x := if_pos (.inr rfl)

theorem root_copy {l : ListID} (hl : l ≠ .outList) (x y : String) (u : UserID) : root l ⟨y, x, u⟩ = x := by
  rw [root, if_neg]
  rintro (h | h)
  · exact hl h
  · exact u.val_ne_empty h

variable {b b' : Board} {x : String} {e : Errand}

/-- **A board without doubles has one errand at most under an id.** -/
theorem Apart.tracks_unique (h : b.Apart) {e' : Errand} (ht : b.Tracks x e) (ht' : b.Tracks x e') : e = e' := by
  cases ht with
  | kept u i hr hi =>
    cases ht' with
    | kept u' i' hr' hi' =>
      obtain ⟨rfl, -, -⟩ := h.eq hr hr' rfl
      cases hi.symm.trans hi'
      rfl
    | sent u' v l y i' hl hx hy hi' => cases (h.one hr hx rfl).2
  | sent u v l y i hl hx hy hi =>
    cases ht' with
    | kept u' i' hr' hi' => cases (h.one hx hr' rfl).2
    | sent u' v' l' y' i' hl' hx' hy' hi' =>
      obtain ⟨rfl, -, hr⟩ := h.eq hx hx' rfl
      obtain ⟨-, hyy, hvv⟩ := IssueRef.mk.injEq .. ▸ hr
      obtain rfl := hyy
      obtain ⟨rfl, rfl, -⟩ := h.eq hy hy' rfl
      cases hi.symm.trans hi'
      rfl

open Classical in
/-- **The errands of a board.** -/
noncomputable def errands (b : Board) : Errands := fun x => if h : ∃ e, b.Tracks x e then some h.choose else none

theorem Apart.errands_eq (h : b.Apart) : b.errands x = some e ↔ b.Tracks x e := by
  unfold errands
  by_cases hex : ∃ e, b.Tracks x e
  · rw [dif_pos hex]
    constructor
    · intro he
      cases he
      exact hex.choose_spec
    · intro ht
      rw [h.tracks_unique hex.choose_spec ht]
  · rw [dif_neg hex]
    exact ⟨nofun, fun ht => absurd ⟨e, ht⟩ hex⟩

theorem errands_eq_none (h : ∀ e, ¬ b.Tracks x e) : b.errands x = none := dif_neg fun ⟨e, he⟩ => h e he

/-- What is in no list is no errand. -/
theorem Absent.errands_eq (h : b.Absent x) : b.errands x = none := by
  apply errands_eq_none
  intro e ht
  cases ht with
  | kept u i hr hi => exact h u .myList (List.mem_map.2 ⟨_, hr, rfl⟩)
  | sent u v l y i hl hx hy hi => exact h u .outList (List.mem_map.2 ⟨_, hx, rfl⟩)

/-! ## The references of an errand -/

section refs
variable (h : b.Paired) {u : UserID} {l : ListID} {r : IssueRef}
include h

/-- A todo of one's own is an errand kept. -/
theorem Paired.tracks_kept (hr : r ∈ b.refs u l) (hown : r.foreignUserID = "") :
    ∃ i, b.issue r.issueID = some i ∧ b.Tracks r.issueID ⟨u, i.text, none⟩ := by
  obtain ⟨rfl, hfi⟩ := h.own hr hown
  obtain ⟨i, hi⟩ := h.recorded u .myList r hr
  obtain ⟨x, y, v⟩ := r
  obtain rfl : v = "" := hown
  obtain rfl : y = "" := hfi
  exact ⟨i, hi, .kept u i hr hi⟩

/-- A todo sent is one with a holder. -/
theorem Paired.tracks_sent (hr : r ∈ b.refs u .outList) : ∃ v m i, r.foreignUserID = UserID.val v ∧
    m ≠ .outList ∧ r.mirror u ∈ b.refs v m ∧ b.issue r.issueID = some i ∧
      b.Tracks r.issueID ⟨u, i.text, some ⟨v, r.foreignIssueID, decide (m = .myList)⟩⟩ := by
  obtain ⟨v, m, hv, hm, hmem⟩ := h.out hr
  obtain ⟨i, hi⟩ := h.recorded u .outList r hr
  have heta : r = ⟨r.issueID, r.foreignIssueID, v⟩ := by rw [← hv]
  exact ⟨v, m, i, hv, hm, hmem, hi, .sent u v m _ i hm (heta ▸ hr) hmem hi⟩

/-- A todo received is the copy of one of its sender's. -/
theorem Paired.tracks_received (hr : r ∈ b.refs u l) (hl : l ≠ .outList) (hf : r.foreignUserID ≠ "") :
    ∃ o i, r.foreignUserID = UserID.val o ∧ r.mirror u ∈ b.refs o .outList ∧ b.issue r.foreignIssueID = some i ∧
      b.Tracks r.foreignIssueID ⟨o, i.text, some ⟨u, r.issueID, decide (l = .myList)⟩⟩ := by
  obtain ⟨o, m, ho, hlm, hmem⟩ := h.other hr hf
  obtain rfl : m = .outList := Classical.byContradiction fun hm => hl (hlm.2 hm)
  obtain ⟨i, hi⟩ := h.recorded o .outList _ hmem
  have heta : r = ⟨r.issueID, r.foreignIssueID, o⟩ := by rw [← ho]
  exact ⟨o, i, ho, hmem, hi, .sent o u l r.issueID i hl hmem (heta ▸ hr) hi⟩

/-- **Every reference is of an errand**, and is what its user knows it by. -/
theorem Paired.tracks_root (hr : r ∈ b.refs u l) : ∃ e, b.Tracks (root l r) e ∧ e.KnownAs (root l r) u r.issueID := by
  by_cases hown : r.foreignUserID = ""
  · obtain ⟨i, -, ht⟩ := h.tracks_kept hr hown
    rw [root, if_pos (.inr hown)]
    exact ⟨_, ht, .owner⟩
  · by_cases hl : l = .outList
    · subst hl
      obtain ⟨v, m, i, -, -, -, -, ht⟩ := h.tracks_sent hr
      rw [root_out]
      exact ⟨_, ht, .owner⟩
    · obtain ⟨o, i, -, -, -, ht⟩ := h.tracks_received hr hl hown
      rw [root, if_neg fun hc => hc.elim hl hown]
      exact ⟨_, ht, .holder ⟨u, r.issueID, decide (l = .myList)⟩ rfl⟩

omit h in
/-- What a user knows an errand by they have a reference of. -/
theorem Tracks.mem_of_knownAs {id : String} (ht : b.Tracks x e) (hk : e.KnownAs x u id) :
    ∃ l, ∃ r ∈ b.refs u l, r.issueID = id ∧ root l r = x := by
  cases ht with
  | kept v i hr hi =>
    cases hk with
    | owner => exact ⟨.myList, _, hr, rfl, root_own _ _⟩
    | holder hd hh => cases hh
  | sent v w l y i hl hx hy hi =>
    cases hk with
    | owner => exact ⟨.outList, _, hx, rfl, root_out _⟩
    | holder hd hh =>
      cases hh
      exact ⟨l, _, hy, rfl, root_copy hl _ _ _⟩

end refs

/-- **An id means one errand.** -/
theorem Apart.knownAs_unique (h : b.Apart) {x' id : String} {e' : Errand} {u u' : UserID} (ht : b.Tracks x e)
    (ht' : b.Tracks x' e') (hk : e.KnownAs x u id) (hk' : e'.KnownAs x' u' id) : x = x' := by
  obtain ⟨l, r, hr, hid, rfl⟩ := ht.mem_of_knownAs hk
  obtain ⟨l', r', hr', hid', rfl⟩ := ht'.mem_of_knownAs hk'
  obtain ⟨-, rfl, rfl⟩ := h.eq hr hr' (hid.trans hid'.symm)
  rfl

/-- A copy has an id of its own. -/
theorem Apart.copy_ne (h : b.Apart) (ht : b.Tracks x e) {hd : Holder} (hh : e.holder = some hd) : hd.copy ≠ x := by
  cases ht with
  | kept u i hr hi => cases hh
  | sent u v l y i hl hx hy hi =>
    cases hh
    exact (h.pair_ne hl hx hy).symm

/-- An id without a record is new to the errands. -/
theorem Paired.errands_new (h : b.Paired) {id : String} (hid : b.issue id = none) : b.errands.New id where
  errand := (h.recorded.absent hid).errands_eq
  copy x e hd he hh hc := by
    have ht := h.toApart.errands_eq.1 he
    obtain ⟨l, r, hr, hrid, -⟩ := ht.mem_of_knownAs (.holder hd hh)
    exact h.recorded.absent hid hd.user l (List.mem_map.2 ⟨r, hr, hrid.trans hc⟩)

/-! ## Changes of one errand -/

/-- The id is none of another errand's. -/
def Covers (b : Board) (x id : String) : Prop :=
  b.Absent id ∨ ∃ e, b.Tracks x e ∧ (id = x ∨ ∃ h, e.holder = some h ∧ id = h.copy)

/-- The references under such an id are the errand's. -/
theorem Covers.root_eq (h : b.Apart) {id : String} (hc : b.Covers x id) {u : UserID} {l : ListID} {r : IssueRef}
    (hr : r ∈ b.refs u l) (hid : r.issueID = id) : root l r = x := by
  rcases hc with habs | ⟨e, ht, hid'⟩
  · exact absurd (List.mem_map.2 ⟨r, hr, hid⟩) (habs u l)
  · have hknown : ∃ v, e.KnownAs x v id := by
      rcases hid' with rfl | ⟨hd, hh, rfl⟩
      · exact ⟨_, .owner⟩
      · exact ⟨_, .holder hd hh⟩
    obtain ⟨v, hk⟩ := hknown
    obtain ⟨m, s, hs, hsid, hroot⟩ := ht.mem_of_knownAs hk
    obtain ⟨-, rfl, rfl⟩ := h.eq hr hs (hid.trans hsid.symm)
    exact hroot

/-- **Only the errand `x` is touched**: its ids are those in `S`, and under the others nothing is changed. -/
structure Touches (b b' : Board) (x : String) (S : String → Prop) : Prop where
  before : ∀ id, S id → b.Covers x id
  after  : ∀ id, S id → b'.Covers x id
  refs   : ∀ (u : UserID) l r, ¬ S r.issueID → (r ∈ b'.refs u l ↔ r ∈ b.refs u l)
  issue  : ∀ id, ¬ S id → b'.issue id = b.issue id

namespace Touches

variable {S : String → Prop}

/-- Undoing it touches no more. -/
theorem symm (h : Touches b b' x S) : Touches b' b x S :=
  ⟨h.after, h.before, fun u l r hr => (h.refs u l r hr).symm, fun id hid => (h.issue id hid).symm⟩

/-- **Another errand stays.** -/
theorem tracks (h : Touches b b' x S) (hb : b.Apart) {z : String} (hz : z ≠ x) (ht : b.Tracks z e) : b'.Tracks z e := by
  have hout : ∀ {u : UserID} {l : ListID} {r : IssueRef}, r ∈ b.refs u l → root l r = z → ¬ S r.issueID :=
    fun hr hroot hs => hz (hroot.symm.trans ((h.before _ hs).root_eq hb hr rfl))
  cases ht with
  | kept u i hr hi =>
    have hs := hout hr (root_own _ _)
    exact .kept u i ((h.refs _ _ _ hs).2 hr) ((h.issue _ hs).trans hi)
  | sent u v l y i hl hx hy hi =>
    have hs := hout hx (root_out _)
    have hs' := hout hy (root_copy hl _ _ _)
    exact .sent u v l y i hl ((h.refs _ _ _ hs).2 hx) ((h.refs _ _ _ hs').2 hy) ((h.issue _ hs).trans hi)

theorem errands_of_ne (h : Touches b b' x S) (hb : b.Apart) (hb' : b'.Apart) {z : String} (hz : z ≠ x) :
    b'.errands z = b.errands z := by
  apply Option.ext
  intro e
  rw [hb.errands_eq, hb'.errands_eq]
  exact ⟨h.symm.tracks hb' hz, h.tracks hb hz⟩

/-- **The errands after it**, with what has become of the one touched. -/
theorem errands (h : Touches b b' x S) (hb : b.Apart) (hb' : b'.Apart) {o : Option Errand} (ho : b'.errands x = o) :
    b'.errands = Function.update b.errands x o := by
  funext z
  by_cases hz : z = x
  · rw [hz, Function.update_self, ho]
  · rw [Function.update_of_ne hz, h.errands_of_ne hb hb' hz]

end Touches

theorem mem_append_of_ne {u v : UserID} {l m : ListID} {r s : IssueRef} (hne : r.issueID ≠ s.issueID) :
    r ∈ (b.append (listKey u l) s).refs v m ↔ r ∈ b.refs v m := by
  rw [mem_refs_append]
  refine ⟨fun hr => hr.resolve_right ?_, .inl⟩
  rintro ⟨-, -, rfl⟩
  exact hne rfl

theorem mem_unlist_of_ne {u v : UserID} {l m : ListID} {r : IssueRef} {id : String} (hne : r.issueID ≠ id) :
    r ∈ (b.unlist (listKey u l) id).refs v m ↔ r ∈ b.refs v m := by
  rw [mem_refs_unlist]
  exact ⟨And.left, fun hr => ⟨hr, fun hc => hne hc.2.2⟩⟩

/-! ## The moves -/

section moves
variable (h : b.Paired) (h' : b'.Paired) {u v t : UserID} {l : ListID} {y : String} {i j : Issue}
include h h'

theorem errands_add (hi : b.issue i.id = none)
    (hb : b' = (b.setIssue i.id (some i)).append (listKey u .myList) ⟨i.id, "", ""⟩) :
    b'.errands = Function.update b.errands i.id (some ⟨u, i.text, none⟩) := by
  have ht : b'.Tracks i.id ⟨u, i.text, none⟩ := by
    subst hb
    exact .kept u i (mem_refs_append.2 (.inr ⟨rfl, rfl, rfl⟩)) (by simp)
  have htouch : Touches b b' i.id (· = i.id) := by
    refine ⟨fun id hid => .inl (hid ▸ h.recorded.absent hi), fun id hid => .inr ⟨_, ht, .inl hid⟩, fun v l r hr => ?_,
      fun id hid => ?_⟩
    · rw [hb, mem_append_of_ne hr, refs_setIssue]
    · simp [hb, hid]
  exact htouch.errands h.toApart h'.toApart (h'.toApart.errands_eq.2 ht)

theorem errands_send (hi : b.issue i.id = none) (hj : b.issue j.id = none) (hij : i.id ≠ j.id)
    (hb : b' = (((b.setIssue i.id (some i)).setIssue j.id (some j)).append (listKey u .outList)
      ⟨i.id, j.id, v⟩).append (listKey v .inList) ⟨j.id, i.id, u⟩) :
    b'.errands = Function.update b.errands i.id (some ⟨u, i.text, some ⟨v, j.id, false⟩⟩) := by
  have ht : b'.Tracks i.id ⟨u, i.text, some ⟨v, j.id, false⟩⟩ := by
    subst hb
    exact .sent u v .inList j.id i (by decide) (mem_refs_append_pair.2 (.inr (.inl ⟨rfl, rfl, rfl⟩)))
      (mem_refs_append_pair.2 (.inr (.inr ⟨rfl, rfl, rfl⟩))) (by simp [hij])
  have htouch : Touches b b' i.id fun id => id = i.id ∨ id = j.id := by
    refine ⟨fun id hid => .inl ?_, fun id hid => .inr ⟨_, ht, ?_⟩, fun v l r hr => ?_, fun id hid => ?_⟩
    · rcases hid with rfl | rfl
      · exact h.recorded.absent hi
      · exact h.recorded.absent hj
    · exact hid.imp_right fun hid => ⟨_, rfl, hid⟩
    · obtain ⟨hx, hy⟩ := not_or.1 hr
      rw [hb, mem_append_of_ne hy, mem_append_of_ne hx, refs_setIssue, refs_setIssue]
    · obtain ⟨hx, hy⟩ := not_or.1 hid
      simp [hb, hx, hy]
  exact htouch.errands h.toApart h'.toApart (h'.toApart.errands_eq.2 ht)

theorem errands_accept (hx : ⟨x, y, u⟩ ∈ b.refs v .outList) (hy : ⟨y, x, v⟩ ∈ b.refs u .inList)
    (hi : b.issue x = some i)
    (hb : b' = (b.append (listKey u .myList) ⟨y, x, v⟩).unlist (listKey u .inList) y) :
    b'.errands = Function.update b.errands x (some ⟨v, i.text, some ⟨u, y, true⟩⟩) := by
  have hxy : x ≠ y := fun he => by cases (h.one hx hy he).2
  have ht : b.Tracks x ⟨v, i.text, some ⟨u, y, false⟩⟩ := .sent v u .inList y i (by decide) hx hy hi
  have ht' : b'.Tracks x ⟨v, i.text, some ⟨u, y, true⟩⟩ := by
    subst hb
    refine .sent v u .myList y i (by decide) ?_ ?_ hi
    · exact mem_refs_unlist.2 ⟨mem_refs_append.2 (.inl hx), fun hc => hxy hc.2.2⟩
    · exact mem_refs_unlist.2 ⟨mem_refs_append.2 (.inr ⟨rfl, rfl, rfl⟩), fun hc => by cases hc.2.1⟩
  have htouch : Touches b b' x (· = y) := by
    refine ⟨fun id hid => .inr ⟨_, ht, .inr ⟨_, rfl, hid⟩⟩, fun id hid => .inr ⟨_, ht', .inr ⟨_, rfl, hid⟩⟩,
      fun w l r hr => ?_, fun id _ => by rw [hb]; rfl⟩
    rw [hb, mem_unlist_of_ne hr, mem_append_of_ne hr]
  exact htouch.errands h.toApart h'.toApart (h'.toApart.errands_eq.2 ht')

/-- Where the lists have the same references and the records are the same, the errands are. -/
theorem errands_permute (hrefs : ∀ (u : UserID) l r, r ∈ b'.refs u l ↔ r ∈ b.refs u l)
    (hiss : ∀ id, b'.issue id = b.issue id) : b'.errands = b.errands := by
  funext x
  have htouch : ∀ z, Touches b b' z fun _ => False := fun z =>
    ⟨fun _ hid => hid.elim, fun _ hid => hid.elim, fun u l r _ => hrefs u l r, fun id _ => hiss id⟩
  -- any other id will do for the one touched
  exact (htouch (x ++ "x")).errands_of_ne h.toApart h'.toApart fun he => by simpa using congrArg String.length he

/-- An edit leaves the lists, and changes the records of one errand only. -/
theorem errands_edit {e' : Errand} (ht : b.Tracks x e) (ht' : b'.Tracks x e') (hholder : e'.holder = e.holder)
    (hrefs : ∀ (u : UserID) l, b'.refs u l = b.refs u l)
    (hiss : ∀ id, id ≠ x → (∀ h, e.holder = some h → id ≠ h.copy) → b'.issue id = b.issue id) :
    b'.errands = Function.update b.errands x (some e') := by
  have htouch : Touches b b' x fun id => id = x ∨ ∃ h, e.holder = some h ∧ id = h.copy := by
    refine ⟨fun id hid => .inr ⟨e, ht, hid⟩, fun id hid => .inr ⟨e', ht', ?_⟩, fun u l r _ => by rw [hrefs],
      fun id hid => ?_⟩
    · rwa [hholder]
    · obtain ⟨hx, hc⟩ := not_or.1 hid
      exact hiss id hx fun h hh hy => hc ⟨h, hh, hy⟩
  exact htouch.errands h.toApart h'.toApart (h'.toApart.errands_eq.2 ht')

theorem errands_editOwn (hr : ⟨x, "", ""⟩ ∈ b.refs u .myList) (hi : b.issue x = some i) {m d : String}
    (hb : b' = b.setIssue x (some (i.retext m d))) :
    b'.errands = Function.update b.errands x (some ⟨u, { i.text with message := m, description := d }, none⟩) := by
  have ht' : b'.Tracks x ⟨u, (i.retext m d).text, none⟩ := by
    subst hb
    exact .kept u _ hr (by simp)
  exact errands_edit h h' (.kept u i hr hi) ht' rfl (fun _ _ => by rw [hb, refs_setIssue]) fun id hid _ => by
    simp [hb, hid]

theorem errands_editPair (hl : l ≠ .outList) (hx : ⟨x, y, v⟩ ∈ b.refs u .outList) (hy : ⟨y, x, u⟩ ∈ b.refs v l)
    (hi : b.issue x = some i) {m d : String} {o : Option Issue}
    (hb : b' = (b.setIssue x (some (i.retext m d))).setIssue y o) :
    b'.errands = Function.update b.errands x
      (some ⟨u, { i.text with message := m, description := d }, some ⟨v, y, decide (l = .myList)⟩⟩) := by
  have hxy := h.toApart.pair_ne hl hx hy
  have ht' : b'.Tracks x ⟨u, (i.retext m d).text, some ⟨v, y, decide (l = .myList)⟩⟩ := by
    subst hb
    exact .sent u v l y _ hl hx hy (by simp [hxy])
  exact errands_edit h h' (.sent u v l y i hl hx hy hi) ht' rfl
    (fun _ _ => by rw [hb, refs_setIssue, refs_setIssue]) fun id hid hc => by simp [hb, hid, hc _ rfl]

theorem errands_dropOwn (hr : ⟨x, "", ""⟩ ∈ b.refs u .myList)
    (hb : b' = (b.unlist (listKey u .myList) x).setIssue x none) :
    b'.errands = Function.update b.errands x none := by
  have habs : b'.Absent x := by
    subst hb
    exact h.toApart.absent_unlist hr
  obtain ⟨i, -, ht⟩ := h.tracks_kept hr rfl
  have htouch : Touches b b' x (· = x) := by
    refine ⟨fun id hid => .inr ⟨_, ht, .inl hid⟩, fun id hid => .inl (hid ▸ habs), fun v l r hr => ?_, fun id hid => ?_⟩
    · rw [hb, refs_setIssue, mem_unlist_of_ne hr]
    · simp [hb, hid]
  exact htouch.errands h.toApart h'.toApart habs.errands_eq

section pair
variable (hl : l ≠ .outList) (hx : ⟨x, y, v⟩ ∈ b.refs u .outList) (hy : ⟨y, x, u⟩ ∈ b.refs v l)
include hl hx hy

theorem errands_dropPair (hb : b' = (((b.unlist (listKey u .outList) x).unlist (listKey v l) y).setIssue x none).setIssue
      y none) : b'.errands = Function.update b.errands x none := by
  have habsx : b'.Absent x := by
    subst hb
    exact h.toApart.absent_fst hx hy
  have habsy : b'.Absent y := by
    subst hb
    exact h.toApart.absent_snd hx hy
  obtain ⟨i, hi⟩ := h.recorded u .outList _ hx
  have ht : b.Tracks x _ := .sent u v l y i hl hx hy hi
  have htouch : Touches b b' x fun id => id = x ∨ id = y := by
    refine ⟨fun id hid => .inr ⟨_, ht, hid.imp_right fun hid => ⟨_, rfl, hid⟩⟩, fun id hid => .inl ?_,
      fun w m r hr => ?_, fun id hid => ?_⟩
    · rcases hid with rfl | rfl
      · exact habsx
      · exact habsy
    · obtain ⟨hrx, hry⟩ := not_or.1 hr
      rw [hb, refs_setIssue, refs_setIssue, mem_unlist_of_ne hry, mem_unlist_of_ne hrx]
    · obtain ⟨hix, hiy⟩ := not_or.1 hid
      simp [hb, hix, hiy]
  exact htouch.errands h.toApart h'.toApart habsx.errands_eq

theorem errands_takeBack (hi : b.issue x = some i)
    (hb : b' = (((b.unlist (listKey u .outList) x).unlist (listKey v l) y).setIssue y none).append
      (listKey u .myList) ⟨x, "", ""⟩) :
    b'.errands = Function.update b.errands x (some ⟨u, i.text, none⟩) := by
  have hxy := h.toApart.pair_ne hl hx hy
  have ht : b.Tracks x _ := .sent u v l y i hl hx hy hi
  have ht' : b'.Tracks x ⟨u, i.text, none⟩ := by
    subst hb
    exact .kept u i (mem_refs_append.2 (.inr ⟨rfl, rfl, rfl⟩)) (by simp [hxy, hi])
  have habsy : b'.Absent y := by
    subst hb
    exact (h.toApart.absent_snd hx hy).append u .myList hxy
  have htouch : Touches b b' x fun id => id = x ∨ id = y := by
    refine ⟨fun id hid => .inr ⟨_, ht, hid.imp_right fun hid => ⟨_, rfl, hid⟩⟩, fun id hid => ?_, fun w m r hr => ?_,
      fun id hid => ?_⟩
    · rcases hid with rfl | rfl
      · exact .inr ⟨_, ht', .inl rfl⟩
      · exact .inl habsy
    · obtain ⟨hrx, hry⟩ := not_or.1 hr
      rw [hb, mem_append_of_ne hrx, refs_setIssue, mem_unlist_of_ne hry, mem_unlist_of_ne hrx]
    · simp [hb, (not_or.1 hid).2]
  exact htouch.errands h.toApart h'.toApart (h'.toApart.errands_eq.2 ht')

theorem errands_assignPair (hi : b.issue x = some i) (hj : b.issue j.id = none)
    (hb : b' = (((((b.unlist (listKey u .outList) x).unlist (listKey v l) y).setIssue y none).setIssue j.id
      (some j)).append (listKey u .outList) ⟨x, j.id, t⟩).append (listKey t .inList) ⟨j.id, x, u⟩) :
    b'.errands = Function.update b.errands x (some ⟨u, i.text, some ⟨t, j.id, false⟩⟩) := by
  have hxy := h.toApart.pair_ne hl hx hy
  have hxj := ne_of_issue hi hj
  obtain ⟨k, hk⟩ := h.recorded v l _ hy
  have hyj := ne_of_issue hk hj
  have ht : b.Tracks x _ := .sent u v l y i hl hx hy hi
  have ht' : b'.Tracks x ⟨u, i.text, some ⟨t, j.id, false⟩⟩ := by
    subst hb
    exact .sent u t .inList j.id i (by decide) (mem_refs_append_pair.2 (.inr (.inl ⟨rfl, rfl, rfl⟩)))
      (mem_refs_append_pair.2 (.inr (.inr ⟨rfl, rfl, rfl⟩))) (by simp [hxy, hxj, hi])
  have habsy : b'.Absent y := by
    subst hb
    exact (Absent.append (h.toApart.absent_snd hx hy) u .outList hxy).append t .inList hyj.symm
  have htouch : Touches b b' x fun id => id = x ∨ id = y ∨ id = j.id := by
    refine ⟨fun id hid => ?_, fun id hid => ?_, fun w m r hr => ?_, fun id hid => ?_⟩
    · rcases hid with rfl | rfl | rfl
      · exact .inr ⟨_, ht, .inl rfl⟩
      · exact .inr ⟨_, ht, .inr ⟨_, rfl, rfl⟩⟩
      · exact .inl (h.recorded.absent hj)
    · rcases hid with rfl | rfl | rfl
      · exact .inr ⟨_, ht', .inl rfl⟩
      · exact .inl habsy
      · exact .inr ⟨_, ht', .inr ⟨_, rfl, rfl⟩⟩
    · obtain ⟨hrx, hr⟩ := not_or.1 hr
      obtain ⟨hry, hrj⟩ := not_or.1 hr
      rw [hb, mem_append_of_ne hrj, mem_append_of_ne hrx, refs_setIssue, refs_setIssue, mem_unlist_of_ne hry,
        mem_unlist_of_ne hrx]
    · obtain ⟨hix, hid⟩ := not_or.1 hid
      obtain ⟨hiy, hij⟩ := not_or.1 hid
      simp [hb, hiy, hij]
  exact htouch.errands h.toApart h'.toApart (h'.toApart.errands_eq.2 ht')

end pair

theorem errands_assignOwn (hr : ⟨x, "", ""⟩ ∈ b.refs u .myList) (hi : b.issue x = some i) (hj : b.issue j.id = none)
    (hb : b' = (((b.unlist (listKey u .myList) x).setIssue j.id (some j)).append (listKey u .outList)
      ⟨x, j.id, t⟩).append (listKey t .inList) ⟨j.id, x, u⟩) :
    b'.errands = Function.update b.errands x (some ⟨u, i.text, some ⟨t, j.id, false⟩⟩) := by
  have hxj := ne_of_issue hi hj
  have ht : b.Tracks x _ := .kept u i hr hi
  have ht' : b'.Tracks x ⟨u, i.text, some ⟨t, j.id, false⟩⟩ := by
    subst hb
    exact .sent u t .inList j.id i (by decide) (mem_refs_append_pair.2 (.inr (.inl ⟨rfl, rfl, rfl⟩)))
      (mem_refs_append_pair.2 (.inr (.inr ⟨rfl, rfl, rfl⟩))) (by simp [hxj, hi])
  have htouch : Touches b b' x fun id => id = x ∨ id = j.id := by
    refine ⟨fun id hid => ?_, fun id hid => .inr ⟨_, ht', hid.imp_right fun hid => ⟨_, rfl, hid⟩⟩, fun w m r hr => ?_,
      fun id hid => ?_⟩
    · rcases hid with rfl | rfl
      · exact .inr ⟨_, ht, .inl rfl⟩
      · exact .inl (h.recorded.absent hj)
    · obtain ⟨hrx, hrj⟩ := not_or.1 hr
      rw [hb, mem_append_of_ne hrj, mem_append_of_ne hrx, refs_setIssue, mem_unlist_of_ne hrx]
    · simp [hb, (not_or.1 hid).2]
  exact htouch.errands h.toApart h'.toApart (h'.toApart.errands_eq.2 ht')

end moves
end Board
end Todo

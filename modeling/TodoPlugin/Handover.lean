import TodoPlugin.Isolation
/-!
# Handing a todo over

Where a reassignment puts a todo (`Placed`): in one list of its owner, with one copy at its receiver, or back in the My
list with none.  It fails to when an owner assigns a todo of the My list to themself.  Handed over any number of times, to
anyone, accepted or not, a todo leaves no more than its last copy (`Board.handed`); taken back, it leaves nothing.
-/
namespace Todo

open Store (ids without)

namespace ListManager

variable (E : Env) {w : World} {u : UserID}

/-- A todo of one's own, assigned to oneself: it is sent to oneself, and stays where it was. -/
theorem changeAssignment_self_board (h : w.Sound) (hp : w.board.Paired) (hf : w.Fresh E) {r : IssueRef} {i : Issue}
    {n : Nat} (hr : r ∈ w.board.refs u .myList) (hown : r.foreignUserID = "") (hi : w.issue r.issueID = some i)
    (hl : w.locate u r.issueID = (.myList, some r, n)) :
    ∃ j w', (changeAssignment r.issueID u u).run (serve E) w = (some ⟨some i, "", none⟩, w') ∧
      w'.board = ((w.board.setIssue j.id (some j)).append (listKey u .outList) ⟨r.issueID, j.id, u⟩).append
        (listKey u .inList) ⟨j.id, r.issueID, u⟩ := by
  have hnew : w.board.issue (E.newId w.drawn) = none := hf w.drawn (Nat.le_refl _)
  have hout : r.issueID ∉ ids (w.board.refs u .outList) := fun hm => by
    obtain ⟨s, hs, he⟩ := List.mem_map.1 hm
    cases (hp.one hs hr he).2
  obtain ⟨j, w', hrun, -, -, -, -, hb⟩ := assign_board E h u i r.foreignUserID (h.issue_id hi) hout
    (hp.recorded.absent hnew u .inList)
  refine ⟨j, w', ?_, hb⟩
  rw [changeAssignment_own E h u hi hl (by simp [(hp.own hr hown).2]) hown, reassign, if_neg (by simp), if_neg (by simp),
    hrun, hown]

end ListManager

/-! ## Where a reassignment puts a todo -/

/-- **The todo is in one list of its owner**: the Out list, with a new copy in the receiver's In list, or, given to the
owner, the My list, with nothing new; the previous receiver's copy is gone. -/
structure Placed (w w' : World) (u t : UserID) (r : IssueRef) : Prop where
  once : ∃! l, r.issueID ∈ ids (w'.board.refs u l)
  sent : t ≠ u → ∃ y j, ⟨r.issueID, y, t⟩ ∈ w'.board.refs u .outList ∧ ⟨y, r.issueID, u⟩ ∈ w'.board.refs t .inList ∧
    w.issue y = none ∧ w'.issue y = some j
  kept : t = u → ⟨r.issueID, "", ""⟩ ∈ w'.board.refs u .myList ∧ (∀ id, w'.issue id ≠ none → w.issue id ≠ none) ∧
    ∀ v, ∀ s ∈ w'.board.refs v .inList, s ∈ w.board.refs v .inList
  gone : r.foreignUserID ≠ "" → w'.board.Absent r.foreignIssueID ∧ w'.issue r.foreignIssueID = none

namespace Board

/-- On an apart board an issue is in one list of a user. -/
theorem Apart.exists_unique {b : Board} (h : b.Apart) {u : UserID} {l : ListID} {x y v : String}
    (hr : ⟨x, y, v⟩ ∈ b.refs u l) : ∃! m, x ∈ ids (b.refs u m) := by
  refine ⟨l, List.mem_map.2 ⟨_, hr, rfl⟩, fun m hm => ?_⟩
  obtain ⟨s, hs, he⟩ := List.mem_map.1 hm
  exact (h.one hs hr he).2

/-- Once a pair is withdrawn and the counterpart's record deleted, the counterpart is gone. -/
theorem Apart.withdrawn {b : Board} (h : b.Apart) {u v : UserID} {l : ListID} {x y : String}
    (hx : ⟨x, y, v⟩ ∈ b.refs u .outList) (hy : ⟨y, x, u⟩ ∈ b.refs v l) :
    (((b.unlist (listKey u .outList) x).unlist (listKey v l) y).setIssue y none).Absent y ∧
      (((b.unlist (listKey u .outList) x).unlist (listKey v l) y).setIssue y none).issue y = none :=
  ⟨h.absent_snd hx hy, by simp⟩

end Board

section placed
variable {E : Env} {w : World} {u t : UserID} (h : w.Sound) (hp : w.board.Paired) (hf : w.Fresh E)
include h hp hf

/-- A todo of one's own, assigned to another user. -/
theorem placed_own (htu : t ≠ u) {r : IssueRef} (hr : r ∈ w.board.refs u .myList) (hown : r.foreignUserID = "") :
    ∃ res w', (ListManager.changeAssignment r.issueID u t).run (serve E) w = (some res, w') ∧ res.err = none ∧
      Placed w w' u t r := by
  obtain ⟨i, hi⟩ := hp.recorded u .myList r hr
  obtain ⟨n, hl⟩ := h.locate_of_apart hp.toApart hr
  have hnew : w.board.issue (E.newId w.drawn) = none := hf w.drawn (Nat.le_refl _)
  obtain ⟨j, w', hrun, hj, ht, -, -, hb⟩ := ListManager.changeAssignment_own_board E h hp hf htu.symm hr hown hi hl
  have hpair : w'.board.Paired := hb ▸ (Board.Move.assignOwn u t r hr hown i j hi (hj ▸ hnew) ht).paired hp
  have hout : ⟨r.issueID, j.id, t⟩ ∈ w'.board.refs u .outList :=
    hb ▸ Board.mem_refs_append_pair.2 (.inr (.inl ⟨rfl, rfl, rfl⟩))
  have hin : ⟨j.id, r.issueID, u⟩ ∈ w'.board.refs t .inList :=
    hb ▸ Board.mem_refs_append_pair.2 (.inr (.inr ⟨rfl, rfl, rfl⟩))
  refine ⟨_, w', hrun, rfl, hpair.toApart.exists_unique hout, fun _ => ?_, fun he => absurd he htu, fun hne => absurd hown hne⟩
  refine ⟨j.id, j, hout, hin, hj ▸ hnew, ?_⟩
  rw [← World.board_issue, hb]
  simp

section sent
variable {v : UserID} {l : ListID} {x y : String} (hlo : l ≠ .outList) (hx : ⟨x, y, v⟩ ∈ w.board.refs u .outList)
  (hy : ⟨y, x, u⟩ ∈ w.board.refs v l)
include hlo hx hy

/-- A todo sent to `v`, assigned to another user. -/
theorem placed_other (htu : t ≠ u) :
    ∃ res w', (ListManager.changeAssignment x u t).run (serve E) w = (some res, w') ∧ res.err = none ∧
      Placed w w' u t ⟨x, y, v⟩ := by
  obtain ⟨i, hi⟩ := hp.recorded u .outList _ hx
  obtain ⟨k, hk⟩ := hp.recorded v l _ hy
  obtain ⟨n, hl⟩ := h.locate_of_apart hp.toApart hx
  have hnew : w.board.issue (E.newId w.drawn) = none := hf w.drawn (Nat.le_refl _)
  obtain ⟨j, w', hrun, hj, ht, -, -, hb⟩ :=
    ListManager.changeAssignment_other_board E h hp hf htu.symm hlo hx hy hi hl
  have hpair : w'.board.Paired := hb ▸ (Board.Move.assignPair u v t l x y hlo hx hy i j hi (hj ▸ hnew) ht).paired hp
  have hout : ⟨x, j.id, t⟩ ∈ w'.board.refs u .outList :=
    hb ▸ Board.mem_refs_append_pair.2 (.inr (.inl ⟨rfl, rfl, rfl⟩))
  have hin : ⟨j.id, x, u⟩ ∈ w'.board.refs t .inList :=
    hb ▸ Board.mem_refs_append_pair.2 (.inr (.inr ⟨rfl, rfl, rfl⟩))
  have hjy : j.id ≠ y := fun he => by
    rw [← hj, he] at hnew
    cases hnew.symm.trans hk
  obtain ⟨habs, hnone⟩ := hp.toApart.withdrawn hx hy
  refine ⟨_, w', hrun, rfl, hpair.toApart.exists_unique hout, fun _ => ⟨j.id, j, hout, hin, hj ▸ hnew, ?_⟩,
    fun he => absurd he htu, fun _ => ?_⟩
  · rw [← World.board_issue, hb]
    simp
  · rw [← World.board_issue, hb]
    refine ⟨Board.Absent.append (Board.Absent.append habs u .outList ?_) t .inList hjy, ?_⟩
    · exact hp.toApart.pair_ne hlo hx hy
    · simp [hjy.symm]

omit hf in
/-- A todo sent to `v`, taken back. -/
theorem placed_back :
    ∃ res w', (ListManager.changeAssignment x u u).run (serve E) w = (some res, w') ∧ res.err = none ∧
      Placed w w' u u ⟨x, y, v⟩ := by
  obtain ⟨i, hi⟩ := hp.recorded u .outList _ hx
  obtain ⟨n, hl⟩ := h.locate_of_apart hp.toApart hx
  obtain ⟨w', hrun, -, -, hb⟩ := ListManager.changeAssignment_back_board E h hp hlo hx hy hi hl
  have hpair : w'.board.Paired := hb ▸ (Board.Move.takeBack u v l x y hlo hx hy).paired hp
  have hmy : ⟨x, "", ""⟩ ∈ w'.board.refs u .myList := hb ▸ Board.mem_refs_append.2 (.inr ⟨rfl, rfl, rfl⟩)
  obtain ⟨habs, hnone⟩ := hp.toApart.withdrawn hx hy
  refine ⟨_, w', hrun, rfl, hpair.toApart.exists_unique hmy, fun hne => absurd rfl hne, fun _ => ⟨hmy, ?_, ?_⟩, fun _ => ?_⟩
  · intro id hid hn
    rw [← World.board_issue, hb] at hid
    simp [hn] at hid
  · intro q s hs
    rw [hb] at hs
    rcases Board.mem_refs_append.1 hs with hs | ⟨-, hm, -⟩
    · exact ((hp.toApart.mem_unlist_pair hx hy).1 hs).1
    · cases hm
  · rw [← World.board_issue, hb]
    exact ⟨Board.Absent.append habs u .myList (hp.toApart.pair_ne hlo hx hy), hnone⟩

end sent

/-- A todo of one's own, assigned to oneself, is in two lists. -/
theorem not_placed_self {r : IssueRef} (hr : r ∈ w.board.refs u .myList) (hown : r.foreignUserID = "") :
    ∃ res w', (ListManager.changeAssignment r.issueID u u).run (serve E) w = (some res, w') ∧ res.err = none ∧
      ¬ Placed w w' u u r := by
  obtain ⟨i, hi⟩ := hp.recorded u .myList r hr
  obtain ⟨n, hl⟩ := h.locate_of_apart hp.toApart hr
  obtain ⟨j, w', hrun, hb⟩ := ListManager.changeAssignment_self_board E h hp hf hr hown hi hl
  refine ⟨_, w', hrun, rfl, fun hplaced => ?_⟩
  have hmy : r.issueID ∈ ids (w'.board.refs u .myList) :=
    hb ▸ List.mem_map.2 ⟨r, Board.mem_refs_append_pair.2 (.inl hr), rfl⟩
  have hout : r.issueID ∈ ids (w'.board.refs u .outList) :=
    hb ▸ List.mem_map.2 ⟨_, Board.mem_refs_append_pair.2 (.inr (.inl ⟨rfl, rfl, rfl⟩)), rfl⟩
  cases hplaced.once.unique hmy hout

end placed

/-- **A reassignment of a todo its owner has, kept or sent, succeeds**; and it puts the todo in exactly one place, unless
it assigns a todo of the My list to the owner. -/
theorem changeAssignment_placed (E : Env) {w : World} (h : w.Sound) (hp : w.board.Paired) (hf : w.Fresh E)
    (u t : UserID) {l : ListID} {r : IssueRef} (hr : r ∈ w.board.refs u l)
    (howns : l = .outList ∨ l = .myList ∧ r.foreignUserID = "") :
    ∃ res w', (ListManager.changeAssignment r.issueID u t).run (serve E) w = (some res, w') ∧ res.err = none ∧
      (Placed w w' u t r ↔ ¬ (t = u ∧ l = .myList)) := by
  rcases howns with rfl | ⟨rfl, hown⟩
  · obtain ⟨v, m, hv, hmo, hm⟩ := hp.out hr
    obtain ⟨x, y, q⟩ := r
    obtain rfl : q = v := hv
    by_cases htu : t = u
    · subst htu
      obtain ⟨res, w', hrun, herr, hplaced⟩ := placed_back (E := E) h hp hmo hr hm
      exact ⟨res, w', hrun, herr, iff_of_true hplaced (by simp)⟩
    · obtain ⟨res, w', hrun, herr, hplaced⟩ := placed_other (E := E) h hp hf hmo hr hm htu
      exact ⟨res, w', hrun, herr, iff_of_true hplaced (by simp)⟩
  · by_cases htu : t = u
    · subst htu
      obtain ⟨res, w', hrun, herr, hplaced⟩ := not_placed_self (E := E) h hp hf hr hown
      exact ⟨res, w', hrun, herr, iff_of_false hplaced (by simp)⟩
    · obtain ⟨res, w', hrun, herr, hplaced⟩ := placed_own (E := E) h hp hf htu hr hown
      exact ⟨res, w', hrun, herr, iff_of_true hplaced (by simp [htu])⟩

section sample

theorem changeAssignment_placed_back :
    ∃ res w', (ListManager.changeAssignment "x" ann ann).run (serve Env.sample) sentToBob = (some res, w') ∧
      res.err = none ∧ (Placed sentToBob w' ann ann ⟨"x", "xx", "bob"⟩ ↔ ¬ (ann = ann ∧ ListID.outList = .myList)) :=
  changeAssignment_placed Env.sample sentToBob_settled.sound sentToBob_settled.paired sentToBob_settled.fresh ann ann
    (l := .outList) (r := ⟨"x", "xx", "bob"⟩) (by decide) (.inl rfl)

/-- Ann has a todo of her own. -/
def annOwns : World := (ListOp.addIssue ann "milk" "" "" "").after Env.sample World.empty

/-- **Assigning her own todo to herself**, Ann has it in two of her lists. -/
theorem changeAssignment_self_twice :
    ∃ res w', (ListManager.changeAssignment "x" ann ann).run (serve Env.sample) annOwns = (some res, w') ∧
      res.err = none ∧ "x" ∈ ids (w'.board.refs ann .myList) ∧ "x" ∈ ids (w'.board.refs ann .outList) ∧
        ¬ Placed annOwns w' ann ann ⟨"x", "", ""⟩ := by
  have hmy : "x" ∈ ids (((ListOp.changeAssignment "x" ann ann).after Env.sample annOwns).board.refs ann .myList) := by
    decide
  have hout : "x" ∈ ids (((ListOp.changeAssignment "x" ann ann).after Env.sample annOwns).board.refs ann .outList) := by
    decide
  refine ⟨_, (ListOp.changeAssignment "x" ann ann).after Env.sample annOwns, rfl, by decide, hmy, hout, fun hplaced => ?_⟩
  cases hplaced.once.unique hmy hout

end sample

/-! ## A chain of reassignments -/

namespace ListOp

/-- Who has the copy after the operation, and in which list. -/
def holder : ListOp → Option (UserID × ListID)
  | .changeAssignment _ _ v => some (v, .inList)
  | .acceptIssue v _        => some (v, .myList)
  | _                       => none

/-- `u` sends the todo `x` to another user, or the one who has received it accepts it. -/
def Passes (u : UserID) (x : String) (w : World) : ListOp → Prop
  | .changeAssignment id u' v => id = x ∧ u' = u ∧ v ≠ u
  | .acceptIssue v y          => ⟨x, y, v⟩ ∈ w.board.refs u .outList ∧ ⟨y, x, u⟩ ∈ w.board.refs v .inList
  | _                         => False

end ListOp

/-- Who has the copy after the operations, and in which list. -/
def heldBy : Option (UserID × ListID) → List (ListOp × Option ListResult) → Option (UserID × ListID)
  | q, []            => q
  | _, (op, _) :: tr => heldBy op.holder tr

theorem ListOp.Passes.holder {u : UserID} {x : String} {w : World} {op : ListOp} (h : op.Passes u x w) :
    ∃ v l, op.holder = some (v, l) := by
  cases op with
  | changeAssignment id u' v => exact ⟨v, .inList, rfl⟩
  | acceptIssue v y => exact ⟨v, .myList, rfl⟩
  | addIssue | sendIssue | completeIssue | editIssue | removeIssue | popIssue | bumpIssue => exact absurd h id

/-- Once there has been a step, someone has the copy. -/
theorem heldBy_some {E : Env} {u : UserID} {x : String} {w w' : World} {tr : List (ListOp × Option ListResult)}
    (h : ListRuns E (fun w op => op.Passes u x w) w tr w') {q : Option (UserID × ListID)}
    (hq : (∃ v l, q = some (v, l)) ∨ tr ≠ []) : ∃ v l, heldBy q tr = some (v, l) := by
  induction h generalizing q with
  | done => exact hq.resolve_right fun hne => hne rfl
  | step op hop _ ih => exact ih (.inl hop.holder)

/-- **The todo is with `v`**: from the start its record is unchanged, there is one record more, the copy in the list `l`
of `v`, and the lists of everyone else are the same. -/
structure HandedTo (w₀ w : World) (u v : UserID) (l : ListID) (x : String) : Prop where
  kept   : w.issue x = w₀.issue x
  copy   : ∃ i j, w₀.issue x = some i ∧ Board.SameText i j ∧ w₀.issue j.id = none ∧ w.issue j.id = some j ∧
    ⟨j.id, x, u⟩ ∈ w.board.refs v l ∧ ∀ id, id ≠ j.id → w.issue id = w₀.issue id
  others : ∀ q, q ≠ u → q ≠ v → ∀ m, w.board.refs q m = w₀.board.refs q m

/-- **The todo is back**: from the start the records are unchanged, and every list but the My list of `u`, where the todo
has moved to the end. -/
structure TakenBack (w₀ w : World) (u : UserID) (x : String) : Prop where
  records : w.issue = w₀.issue
  my      : w.board.refs u .myList = without x (w₀.board.refs u .myList) ++ [⟨x, "", ""⟩]
  lists   : ∀ q m, (q = u → m ≠ .myList) → w.board.refs q m = w₀.board.refs q m

namespace Board

variable {b : Board} {u v t : UserID} {l : ListID} {x : String} {j : Issue}

/-- The board with the todo `x` of `u` handed to `v`, who has the copy in the list `l`. -/
def handed (b : Board) (u v : UserID) (l : ListID) (x : String) (copy : Issue) : Board :=
  (((b.unlist (listKey u .myList) x).setIssue copy.id (some copy)).append (listKey u .outList)
    ⟨x, copy.id, v⟩).append (listKey v l) ⟨copy.id, x, u⟩

theorem without_self (id y v : String) : without id [⟨id, y, v⟩] = [] := Store.without_cons_self ⟨id, y, v⟩ []

/-- **Undoing a handover** leaves the board without the todo. -/
theorem handed_withdrawn (hvu : v ≠ u) (hx : x ∉ ids (b.list (listKey u .outList)))
    (hj : j.id ∉ ids (b.list (listKey v l))) (hnone : b.issue j.id = none) :
    (((b.handed u v l x j).unlist (listKey u .outList) x).unlist (listKey v l) j.id).setIssue j.id none =
      b.unlist (listKey u .myList) x := by
  have hkey : ∀ m, listKey u m ≠ listKey v l := fun m he => hvu (listKey_inj.1 he).1.symm
  have hmy : listKey u .outList ≠ listKey u .myList := listKey_ne (by decide)
  ext k : 2
  · by_cases hv : k = listKey v l
    · subst hv
      simp [handed, (hkey _).symm, without_self, Store.without_eq_self hj]
    · by_cases hu : k = listKey u .outList
      · subst hu
        simp [handed, hkey, hmy, without_self, Store.without_eq_self hx]
      · simp [handed, hv, hu]
  · by_cases hk : k = j.id
    · simp [hk, hnone]
    · simp [handed, hk]

/-- **Accepting what was handed over** moves the copy to the My list. -/
theorem handed_accepted (hvu : v ≠ u) (hj : j.id ∉ ids (b.list (listKey v .inList))) :
    ((b.handed u v .inList x j).append (listKey v .myList) ⟨j.id, x, u⟩).unlist (listKey v .inList) j.id =
      b.handed u v .myList x j := by
  have hkey : ∀ m n, listKey u m ≠ listKey v n := fun m n he => hvu (listKey_inj.1 he).1.symm
  have hmy : listKey v .inList ≠ listKey v .myList := listKey_ne (by decide)
  ext k : 2
  · by_cases hi : k = listKey v .inList
    · subst hi
      simp [handed, (hkey _ _).symm, hmy, without_self, Store.without_eq_self hj]
    · by_cases hm : k = listKey v .myList
      · subst hm
        simp [handed, (hkey _ _).symm, hmy.symm]
      · simp [handed, hi, hm]
  · rfl

end Board

/-- **What the chain keeps**: nothing has happened yet, or the todo is handed to the holder of the copy. -/
structure Handed (E : Env) (w₀ : World) (u : UserID) (x : String) (q : Option (UserID × ListID)) (w : World) : Prop where
  sound  : w.Sound
  paired : w.board.Paired
  fresh  : w.Fresh E
  start  : q = none → w.board = w₀.board
  away   : ∀ v l, q = some (v, l) → v ≠ u ∧ l ≠ .outList ∧ ∃ i j, w₀.issue x = some i ∧ Board.SameText i j ∧
    w₀.issue j.id = none ∧ w.board = w₀.board.handed u v l x j

namespace Handed

variable {E : Env} {w₀ w : World} {u : UserID} {x : String} {q : Option (UserID × ListID)}

theorem of_moves (H : Handed E w₀ u x q w) {w' : World} (hm : w.Moves E w') {v : UserID} {l : ListID} (hvu : v ≠ u)
    (hlo : l ≠ .outList) {i j : Issue} (hi : w₀.issue x = some i) (ht : Board.SameText i j) (hj : w₀.issue j.id = none)
    (hb : w'.board = w₀.board.handed u v l x j) : Handed E w₀ u x (some (v, l)) w' where
  sound      := hm.sound
  paired     := hm.move.paired H.paired
  fresh      := hm.fresh H.fresh
  start      := nofun
  away _ _ e := by
    cases e
    exact ⟨hvu, hlo, i, j, hi, ht, hj, hb⟩

section
variable (hp₀ : w₀.board.Paired) (hx : ⟨x, "", ""⟩ ∈ w₀.board.refs u .myList)
include hp₀ hx

theorem not_mem_out : x ∉ ids (w₀.board.refs u .outList) := by
  intro hm
  obtain ⟨s, hs, he⟩ := List.mem_map.1 hm
  cases (hp₀.one hs hx he).2

omit hp₀ hx in
/-- The two references and the record of a todo handed over. -/
theorem pair {v : UserID} {l : ListID} {i j : Issue} (hi : w₀.issue x = some i) (hj : w₀.issue j.id = none)
    (hb : w.board = w₀.board.handed u v l x j) :
    ⟨x, j.id, v⟩ ∈ w.board.refs u .outList ∧ ⟨j.id, x, u⟩ ∈ w.board.refs v l ∧ w.issue x = some i := by
  refine ⟨?_, ?_, ?_⟩
  · rw [hb]
    exact Board.mem_refs_append_pair.2 (.inr (.inl ⟨rfl, rfl, rfl⟩))
  · rw [hb]
    exact Board.mem_refs_append_pair.2 (.inr (.inr ⟨rfl, rfl, rfl⟩))
  · have hxj : x ≠ j.id := by
      rintro rfl
      cases hi.symm.trans hj
    rw [← World.board_issue, hb]
    simp [Board.handed, hxj, hi]

/-- **Sent on**, the todo is handed to its new receiver. -/
theorem sends (H : Handed E w₀ u x q w) {t : UserID} (htu : t ≠ u) :
    ∃ res w', (ListManager.changeAssignment x u t).run (serve E) w = (some res, w') ∧ res.err = none ∧
      Handed E w₀ u x (some (t, .inList)) w' := by
  obtain ⟨res, w', hrun, hm⟩ : ∃ r w', (ListManager.changeAssignment x u t).run (serve E) w = (some r, w') ∧
      World.Moves E w w' :=
    ListManager.changeAssignment_moves E H.sound H.paired H.fresh t fun he => absurd he.symm htu
  have hnew : w.issue (E.newId w.drawn) = none := H.fresh w.drawn (Nat.le_refl _)
  cases q with
  | none =>
    have hb₀ := H.start rfl
    obtain ⟨i, hi⟩ := hp₀.recorded u .myList _ hx
    have hx' : ⟨x, "", ""⟩ ∈ w.board.refs u .myList := hb₀ ▸ hx
    have hi' : w.issue x = some i := by rw [← World.board_issue, hb₀]; exact hi
    obtain ⟨n, hl⟩ := H.sound.locate_of_apart H.paired.toApart hx'
    obtain ⟨j, w'', hrun', hj, ht, -, -, hb⟩ :=
      ListManager.changeAssignment_own_board E H.sound H.paired H.fresh htu.symm hx' rfl hi' hl
    cases hrun.symm.trans hrun'
    rw [hb₀] at hb
    refine ⟨_, w', hrun, rfl, H.of_moves hm htu (by simp) hi ht ?_ hb⟩
    rwa [← World.board_issue, ← hb₀, hj]
  | some p =>
    obtain ⟨v, l⟩ := p
    obtain ⟨hvu, hlo, i, j, hi, ht, hj, hb₀⟩ := H.away v l rfl
    obtain ⟨hout, hin, hi'⟩ := pair hi hj hb₀
    obtain ⟨n, hl⟩ := H.sound.locate_of_apart H.paired.toApart hout
    obtain ⟨k, w'', hrun', hk, htk, -, -, hb⟩ :=
      ListManager.changeAssignment_other_board E H.sound H.paired H.fresh htu.symm hlo hout hin hi' hl
    cases hrun.symm.trans hrun'
    rw [hb₀, Board.handed_withdrawn hvu (not_mem_out hp₀ hx) (hp₀.recorded.absent hj v l) hj] at hb
    refine ⟨_, w', hrun, rfl, H.of_moves hm htu (by simp) hi htk ?_ hb⟩
    -- the new id is unused in the store as it is, and the old copy was not there at the start
    rw [← hk, ← World.board_issue, hb₀] at hnew
    by_cases hkj : k.id = j.id
    · rw [hkj]; exact hj
    · simpa [Board.handed, hkj] using hnew

/-- **Accepted**, the copy is in the My list of its receiver. -/
theorem accepts (H : Handed E w₀ u x q w) {v : UserID} {y : String} (hout : ⟨x, y, v⟩ ∈ w.board.refs u .outList)
    (hin : ⟨y, x, u⟩ ∈ w.board.refs v .inList) :
    ∃ res w', (ListManager.acceptIssue v y).run (serve E) w = (some res, w') ∧ res.outErr = none ∧
      Handed E w₀ u x (some (v, .myList)) w' := by
  cases q with
  | none =>
    rw [H.start rfl] at hout
    exact absurd (List.mem_map.2 ⟨_, hout, rfl⟩) (not_mem_out hp₀ hx)
  | some p =>
    obtain ⟨v', l⟩ := p
    obtain ⟨hvu, -, i, j, hi, ht, hj, hb₀⟩ := H.away v' l rfl
    obtain ⟨hout', hin', -⟩ := pair hi hj hb₀
    obtain ⟨-, -, heq⟩ := H.paired.toApart.eq hout hout' rfl
    obtain ⟨rfl, hv⟩ : y = j.id ∧ v.val = v'.val := by simpa using heq
    obtain rfl := UserID.ext_val hv
    obtain ⟨-, rfl⟩ := H.paired.one hin hin' rfl
    obtain ⟨res, w', hrun, hm⟩ : ∃ r w', (ListManager.acceptIssue v j.id).run (serve E) w = (some r, w') ∧
        World.Moves E w w' := ListManager.acceptIssue_moves E H.sound H.paired
    obtain ⟨k, w'', hrun', -, -, -, hb⟩ := ListManager.acceptIssue_board E H.sound H.paired hin
    cases hrun.symm.trans hrun'
    rw [hb₀, Board.handed_accepted hvu (hp₀.recorded.absent hj v .inList)] at hb
    exact ⟨_, w', hrun, rfl, H.of_moves hm hvu (by simp) hi ht hj hb⟩

/-- **Taken back**, the todo has left nothing. -/
theorem takesBack {v : UserID} {l : ListID} (H : Handed E w₀ u x (some (v, l)) w) :
    ∃ res w', (ListManager.changeAssignment x u u).run (serve E) w = (some res, w') ∧ res.err = none ∧
      TakenBack w₀ w' u x := by
  obtain ⟨hvu, hlo, i, j, hi, ht, hj, hb₀⟩ := H.away v l rfl
  obtain ⟨hout, hin, hi'⟩ := pair hi hj hb₀
  obtain ⟨n, hl⟩ := H.sound.locate_of_apart H.paired.toApart hout
  obtain ⟨w', hrun, -, -, hb⟩ := ListManager.changeAssignment_back_board E H.sound H.paired hlo hout hin hi' hl
  rw [hb₀, Board.handed_withdrawn hvu (not_mem_out hp₀ hx) (hp₀.recorded.absent hj v l) hj] at hb
  refine ⟨_, w', hrun, rfl, ?_, ?_, fun r m hm => ?_⟩
  · rw [← World.board_issue, hb]
    rfl
  · rw [hb, Board.refs_append, if_pos ⟨rfl, rfl⟩, Board.refs_unlist, if_pos ⟨rfl, rfl⟩]
  · have hne : ¬ (r = u ∧ m = .myList) := fun hc => hm hc.1 hc.2
    rw [hb, Board.refs_append, if_neg hne, Board.refs_unlist, if_neg hne]

omit hp₀ hx in
/-- What the chain keeps says where the todo is. -/
theorem handedTo {v : UserID} {l : ListID} (H : Handed E w₀ u x (some (v, l)) w) : HandedTo w₀ w u v l x := by
  obtain ⟨hvu, hlo, i, j, hi, ht, hj, hb₀⟩ := H.away v l rfl
  obtain ⟨-, hin, hi'⟩ := pair hi hj hb₀
  have hrec : ∀ id, w.issue id = if id = j.id then some j else w₀.issue id := fun id => by
    rw [← World.board_issue, hb₀]
    rfl
  refine ⟨hi'.trans hi.symm, ⟨i, j, hi, ht, hj, ?_, hin, fun id hne => ?_⟩, fun r hru hrv m => ?_⟩
  · rw [hrec, if_pos rfl]
  · rw [hrec, if_neg hne]
  · rw [hb₀, Board.handed, Board.refs_append, if_neg (fun hc => hrv hc.1), Board.refs_append, if_neg (fun hc => hru hc.1),
      Board.refs_setIssue, Board.refs_unlist, if_neg (fun hc => hru hc.1)]

/-- **One step of the chain.** -/
theorem step (H : Handed E w₀ u x q w) {op : ListOp} (hop : op.Passes u x w) :
    ∃ res, (op.exec.run (serve E) w).1 = some res ∧ res.err = none ∧ Handed E w₀ u x op.holder (op.after E w) := by
  cases op with
  | changeAssignment id u' t =>
    obtain ⟨rfl, rfl, htu⟩ := hop
    obtain ⟨res, w', hrun, herr, H'⟩ := sends hp₀ hx H htu
    have hexec : (ListOp.changeAssignment id u' t).exec.run (serve E) w = (some (.changed res), w') := by
      rw [ListOp.exec, Proc.run_bind_of _ hrun]; rfl
    exact ⟨.changed res, by rw [hexec], herr, by rw [ListOp.after, hexec]; exact H'⟩
  | acceptIssue v y =>
    obtain ⟨res, w', hrun, herr, H'⟩ := accepts hp₀ hx H hop.1 hop.2
    have hexec : (ListOp.acceptIssue v y).exec.run (serve E) w = (some (.accepted res), w') := by
      rw [ListOp.exec, Proc.run_bind_of _ hrun]; rfl
    exact ⟨.accepted res, by rw [hexec], herr, by rw [ListOp.after, hexec]; exact H'⟩
  | addIssue | sendIssue | completeIssue | editIssue | removeIssue | popIssue | bumpIssue => exact absurd hop id

/-- **The whole chain**, by induction on the steps still to be taken. -/
theorem run {tr : List (ListOp × Option ListResult)} {w' : World}
    (hrun : ListRuns E (fun w op => op.Passes u x w) w tr w') (H : Handed E w₀ u x q w) :
    (∀ p ∈ tr, ∃ res, p.2 = some res ∧ res.err = none) ∧ Handed E w₀ u x (heldBy q tr) w' := by
  induction hrun generalizing q with
  | done w => exact ⟨by simp, H⟩
  | step op hop _ ih =>
    obtain ⟨res, hres, herr, H'⟩ := step hp₀ hx H hop
    obtain ⟨hall, Hend⟩ := ih H'
    refine ⟨fun p hp => ?_, Hend⟩
    rcases List.mem_cons.1 hp with rfl | hp
    · exact ⟨res, hres, herr⟩
    · exact hall p hp

end
end Handed

/-- **A chain of reassignments**, any of them accepted, goes through; the todo is with the last receiver; and taken back,
it has left no trace. -/
theorem listRuns_handed (E : Env) {w₀ w : World} (h₀ : w₀.Sound) (hp₀ : w₀.board.Paired) (hf₀ : w₀.Fresh E) (u : UserID)
    {r : IssueRef} (hr : r ∈ w₀.board.refs u .myList) (hown : r.foreignUserID = "")
    {tr : List (ListOp × Option ListResult)} (hrun : ListRuns E (fun w op => op.Passes u r.issueID w) w₀ tr w) :
    (∀ p ∈ tr, ∃ res, p.2 = some res ∧ res.err = none) ∧
    (∀ v l, heldBy none tr = some (v, l) → HandedTo w₀ w u v l r.issueID) ∧
    (tr ≠ [] → ∃ res w', (ListManager.changeAssignment r.issueID u u).run (serve E) w = (some res, w') ∧
      res.err = none ∧ TakenBack w₀ w' u r.issueID) := by
  have hx : ⟨r.issueID, "", ""⟩ ∈ w₀.board.refs u .myList := by
    obtain ⟨x, y, v⟩ := r
    obtain rfl : v = "" := hown
    obtain rfl : y = "" := (hp₀.own hr rfl).2
    exact hr
  have H : Handed E w₀ u r.issueID none w₀ := ⟨h₀, hp₀, hf₀, fun _ => rfl, nofun⟩
  obtain ⟨hall, Hend⟩ := Handed.run hp₀ hx hrun H
  refine ⟨hall, fun v l hq => ?_, fun hne => ?_⟩
  · rw [hq] at Hend
    exact Hend.handedTo
  · obtain ⟨v, l, hq⟩ := heldBy_some hrun (.inr hne)
    rw [hq] at Hend
    exact Hend.takesBack hp₀ hx

section sample

theorem listRuns_handed_accepted :
    ∃ tr w, ListRuns Env.sample (fun w op => op.Passes ann "x" w) annOwns tr w ∧
      (∀ p ∈ tr, ∃ res, p.2 = some res ∧ res.err = none) ∧
      (∀ v l, heldBy none tr = some (v, l) → HandedTo annOwns w ann v l "x") ∧
      (tr ≠ [] → ∃ res w', (ListManager.changeAssignment "x" ann ann).run (serve Env.sample) w = (some res, w') ∧
        res.err = none ∧ TakenBack annOwns w' ann "x") := by
  have hrun : ListRuns Env.sample (fun w op => op.Passes ann "x" w) annOwns _ _ :=
    .step (ListOp.changeAssignment "x" ann bob) ⟨rfl, rfl, by decide⟩
      (.step (ListOp.acceptIssue bob "xx") ⟨by decide, by decide⟩ (.done _))
  have hset : annOwns.Settled Env.sample := ListOp.settled (World.settled_empty _) trivial
  exact ⟨_, _, hrun, listRuns_handed Env.sample hset.sound hset.paired hset.fresh ann (r := ⟨"x", "", ""⟩) (by decide) rfl
    hrun⟩

end sample
end Todo

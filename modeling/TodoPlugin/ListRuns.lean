import TodoPlugin.ListMoves
/-!
# Runs of operations

The nine operations of the list manager as one type, run one after another from an empty store.  What is kept is
`Settled`: the store is sound, the board paired, the two records of a pair alike and the ids still to be made unused.
-/
namespace Todo

open Store (ids)

/-- A call of the list manager, by a user and, where there is one, for another. -/
inductive ListOp where
  | addIssue (userID : UserID) (message postPermalink description postID : String)
  | sendIssue (senderID receiverID : UserID) (message postPermalink description postID : String)
  | completeIssue (userID : UserID) (issueID : String)
  | editIssue (userID : UserID) (issueID newMessage newDescription : String)
  | changeAssignment (issueID : String) (userID sendTo : UserID)
  | acceptIssue (userID : UserID) (issueID : String)
  | removeIssue (userID : UserID) (issueID : String)
  | popIssue (userID : UserID)
  | bumpIssue (userID : UserID) (issueID : String)
deriving DecidableEq

/-- What an operation returned. -/
inductive ListResult where
  | added (result : Except String Issue)
  | sent (result : Except String String)
  | completed (result : CompleteResult)
  | edited (result : EditResult)
  | changed (result : ChangeResult)
  | accepted (result : AcceptResult)
  | removed (result : RemoveResult)
  | popped (result : PopResult)
  | bumped (result : BumpResult)

namespace ListOp

def exec : ListOp → Api ListResult
  | .addIssue u m p d q      => do return .added (← ListManager.addIssue u m p d q)
  | .sendIssue u v m p d q   => do return .sent (← ListManager.sendIssue u v m p d q)
  | .completeIssue u id      => do return .completed (← ListManager.completeIssue u id)
  | .editIssue u id m d      => do return .edited (← ListManager.editIssue u id m d)
  | .changeAssignment id u v => do return .changed (← ListManager.changeAssignment id u v)
  | .acceptIssue u id        => do return .accepted (← ListManager.acceptIssue u id)
  | .removeIssue u id        => do return .removed (← ListManager.removeIssue u id)
  | .popIssue u              => do return .popped (← ListManager.popIssue u)
  | .bumpIssue u id          => do return .bumped (← ListManager.bumpIssue u id)

/-- The operation neither completes a todo the caller sent nor assigns a todo of the caller's own to the caller. -/
def Covered (b : Board) : ListOp → Prop
  | .completeIssue u id      => id ∉ ids (b.refs u .outList)
  | .changeAssignment id u v => u = v → ∀ r ∈ b.refs u .myList, r.issueID = id → r.foreignUserID ≠ ""
  | _                        => True

/-- The operation is one the front-end offers: a todo is completed from the My or In list, and assigned to another user
or, from the Out list, back to the caller. -/
def Offered (b : Board) : ListOp → Prop
  | .completeIssue u id      => id ∈ ids (b.refs u .myList) ∨ id ∈ ids (b.refs u .inList)
  | .changeAssignment id u v => u ≠ v ∨ id ∈ ids (b.refs u .outList)
  | _                        => True

theorem Offered.covered {b : Board} (ha : b.Apart) {op : ListOp} (h : op.Offered b) : op.Covered b := by
  have hone : ∀ {u : UserID} {l m : ListID} {id : String}, id ∈ ids (b.refs u l) → id ∈ ids (b.refs u m) → l = m := by
    intro u l m id hl hm
    obtain ⟨r, hr, rfl⟩ := List.mem_map.1 hl
    obtain ⟨s, hs, he⟩ := List.mem_map.1 hm
    exact (ha.one hr hs he.symm).2
  cases op with
  | completeIssue u id =>
    intro hout
    rcases h with h | h
    · cases hone h hout
    · cases hone h hout
  | changeAssignment id u v =>
    rintro huv r hr rfl -
    rcases h with h | h
    · exact h huv
    · cases hone (List.mem_map.2 ⟨r, hr, rfl⟩) h
  | addIssue | sendIssue | editIssue | acceptIssue | removeIssue | popIssue | bumpIssue => trivial

end ListOp

/-- **What the operations keep.** -/
structure World.Settled (E : Env) (w : World) : Prop where
  sound  : w.Sound
  paired : w.board.Paired
  twins  : w.board.Twins
  fresh  : w.Fresh E

namespace World

theorem settled_empty (E : Env) : empty.Settled E := ⟨sound_empty, Board.paired_empty, Board.twins_empty,
  fun _ _ => rfl⟩

theorem Settled.of_moves {E : Env} {w w' : World} (h : w.Settled E) (hm : w.Moves E w') : w'.Settled E :=
  ⟨hm.sound, hm.move.paired h.paired, hm.move.twins h.paired h.twins, hm.fresh h.fresh⟩

end World

/-- **One operation** returns and moves the board. -/
theorem ListOp.exec_moves {E : Env} {w : World} (h : w.Settled E) {op : ListOp} (hop : op.Covered w.board) :
    ∃ r w', op.exec.run (serve E) w = (some r, w') ∧ w.Moves E w' := by
  have hret : ∀ {α : Type} {p : Api α} (f : α → ListResult), (∃ r w', p.run (serve E) w = (some r, w') ∧ w.Moves E w') →
      ∃ r w', (p >>= fun a => pure (f a)).run (serve E) w = (some r, w') ∧ w.Moves E w' := by
    rintro α p f ⟨r, w', hrun, hm⟩
    exact ⟨f r, w', by rw [Proc.run_bind_of _ hrun]; rfl, hm⟩
  cases op with
  | addIssue u m p d q => exact hret _ (ListManager.addIssue_moves E h.sound h.paired h.fresh m p d q)
  | sendIssue u v m p d q => exact hret _ (ListManager.sendIssue_moves E h.sound h.paired h.fresh v m p d q)
  | completeIssue u id =>
    obtain ⟨r, w', hrun, hm, -⟩ := ListManager.completeIssue_moves E h.sound h.paired hop
    exact hret _ ⟨r, w', hrun, hm⟩
  | editIssue u id m d => exact hret _ (ListManager.editIssue_moves E h.sound h.paired m d)
  | changeAssignment id u v =>
    exact hret _ (ListManager.changeAssignment_moves E h.sound h.paired h.fresh v hop)
  | acceptIssue u id => exact hret _ (ListManager.acceptIssue_moves E h.sound h.paired)
  | removeIssue u id =>
    obtain ⟨r, w', hrun, hm, -⟩ := ListManager.removeIssue_moves E h.sound h.paired
    exact hret _ ⟨r, w', hrun, hm⟩
  | popIssue u =>
    obtain ⟨r, w', hrun, hm, -⟩ := ListManager.popIssue_moves E (u := u) h.sound h.paired
    exact hret _ ⟨r, w', hrun, hm⟩
  | bumpIssue u id => exact hret _ (ListManager.bumpIssue_moves E h.sound h.paired)

/-- The store after one operation run alone. -/
def ListOp.after (E : Env) (op : ListOp) (w : World) : World := (op.exec.run (serve E) w).2

theorem ListOp.settled {E : Env} {w : World} (h : w.Settled E) {op : ListOp} (hop : op.Covered w.board) :
    (op.after E w).Settled E := by
  obtain ⟨r, w', hrun, hm⟩ := ListOp.exec_moves h hop
  rw [ListOp.after, hrun]
  exact h.of_moves hm

/-- Operations run one after another, each where `ok` lets it start. -/
abbrev ListRuns (E : Env) (ok : World → ListOp → Prop) :=
  Proc.Runs (serve E) ListOp.exec ok

/-! ## Every run -/

/-- **Every run of covered operations leaves the board paired.** -/
theorem listRuns_paired (E : Env) {tr : List (ListOp × Option ListResult)} {w : World}
    (h : ListRuns E (fun w op => op.Covered w.board) World.empty tr w) : w.board.Paired :=
  (h.keep (I := World.Settled E) (fun _ _ hs hop => ListOp.settled hs hop) (World.settled_empty E)).paired

/-- **Every run of offered operations leaves the two records of every pair alike.** -/
theorem listRuns_twins (E : Env) {tr : List (ListOp × Option ListResult)} {w : World}
    (h : ListRuns E (fun w op => op.Offered w.board) World.empty tr w) : w.board.Twins :=
  (h.keep (I := World.Settled E) (fun _ _ hs hop => ListOp.settled hs (hop.covered hs.paired.toApart))
    (World.settled_empty E)).twins

section sample

def ann : UserID := ⟨"ann", by decide⟩
def bob : UserID := ⟨"bob", by decide⟩

/-- The store once Ann has sent Bob a todo. -/
def sentToBob : World := (ListOp.sendIssue ann bob "milk" "" "" "").after Env.sample World.empty

theorem sentToBob_settled : sentToBob.Settled Env.sample :=
  ListOp.settled (World.settled_empty _) trivial

/-- Ann takes back what Bob has accepted, and sends it again; he completes a todo of his own. -/
def sentAgain : World :=
  [ListOp.acceptIssue bob "xx", .changeAssignment "x" ann ann, .changeAssignment "x" ann bob,
    .addIssue bob "bread" "" "" "", .completeIssue bob "xxxx"].foldl (fun w op => op.after Env.sample w) sentToBob

theorem sentAgain_paired : sentAgain.board.Paired :=
  listRuns_paired Env.sample (.step (ListOp.sendIssue ann bob "milk" "" "" "") trivial
    (.step (ListOp.acceptIssue bob "xx") trivial (.step (ListOp.changeAssignment "x" ann ann) (fun _ => by decide)
      (.step (ListOp.changeAssignment "x" ann bob) (fun h => absurd h (by decide))
        (.step (ListOp.addIssue bob "bread" "" "" "") trivial
          (.step (ListOp.completeIssue bob "xxxx") (show _ ∉ ids _ by decide) (.done _)))))))

theorem sentAgain_twins : sentAgain.board.Twins :=
  listRuns_twins Env.sample (.step (ListOp.sendIssue ann bob "milk" "" "" "") trivial
    (.step (ListOp.acceptIssue bob "xx") trivial (.step (ListOp.changeAssignment "x" ann ann) (.inr (by decide))
      (.step (ListOp.changeAssignment "x" ann bob) (.inl (by decide))
        (.step (ListOp.addIssue bob "bread" "" "" "") trivial
          (.step (ListOp.completeIssue bob "xxxx") (.inl (by decide)) (.done _)))))))

/-- **Completing a todo one sent** leaves the receiver a reference without a record. -/
theorem complete_sent_unpaired :
    ∃ tr w, ListRuns Env.sample (fun _ _ => True) World.empty tr w ∧ ¬ w.board.Paired := by
  refine ⟨_, (ListOp.completeIssue ann "x").after Env.sample sentToBob,
    .step (ListOp.sendIssue ann bob "milk" "" "" "") trivial (.step (ListOp.completeIssue ann "x") trivial (.done _)),
    fun h => ?_⟩
  obtain ⟨i, hi⟩ := h.recorded bob .inList ⟨"xx", "x", "ann"⟩ (by decide)
  have hnone : ((ListOp.completeIssue ann "x").after Env.sample sentToBob).board.issue "xx" = none := by decide
  cases hi.symm.trans hnone

end sample
end Todo

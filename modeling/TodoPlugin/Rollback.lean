import TodoPlugin.Faults
import TodoPlugin.Adding
/-!
# Rolling back

A store reads as a board (`World.Reads`) when `GetList` returns the lists of the board and `GetIssue` its records.  Adding,
sending and accepting end, when a call of theirs fails or a list update is lost, either with all they do done or with an
error and a store that reads as the board they found.
-/
namespace Todo

open Store (ids)

/-! ## What a store reads as -/

namespace World

/-- Every list is read, and the lists and the records are those of the board. -/
structure Reads (w : World) (b : Board) : Prop where
  list  : ∀ u l, decodeList (w.kv (listKey u l)) = some (b.list (listKey u l))
  issue : ∀ id, w.issue id = b.issue id

theorem Listed.reads {w : World} (h : w.Listed) : w.Reads w.board := ⟨h.decode_eq, fun _ => rfl⟩

/-- What leaves every list alone leaves the lists listed. -/
theorem Listed.of_lists {w w' : World} (h : w.Listed) (hl : ∀ u l, w'.kv (listKey u l) = w.kv (listKey u l)) :
    w'.Listed where
  decodes u l  := by rw [hl]; exact h.decodes u l
  distinct u l := by rw [World.list, hl]; exact h.distinct u l

theorem Listed.draw {w : World} (h : w.Listed) : w.draw.Listed := h.of_lists fun _ _ => rfl

theorem Listed.save {w : World} (h : w.Listed) (i : Issue) : (w.save i).Listed :=
  h.of_lists fun u l => put_kv_of_ne _ _ (listKey_ne_issueKey u l _)

theorem Listed.delete {w : World} (h : w.Listed) (id : String) : (w.delete (issueKey id)).Listed :=
  h.of_lists fun u l => delete_kv_of_ne _ (listKey_ne_issueKey u l _)

theorem list_save_listKey (w : World) (i : Issue) (u : String) (l : ListID) :
    (w.save i).list (listKey u l) = w.list (listKey u l) := by
  rw [World.list, World.save, put_kv_of_ne _ _ (listKey_ne_issueKey u l _)]
  rfl

namespace Reads

variable {w : World} {b : Board} (h : w.Reads b)
include h

theorem list_eq (u : String) (l : ListID) : w.list (listKey u l) = b.list (listKey u l) := by
  rw [World.list, h.list]
  rfl

theorem draw : w.draw.Reads b := ⟨h.list, h.issue⟩

theorem save (i : Issue) : (w.save i).Reads (b.setIssue i.id (some i)) where
  list u l := by
    rw [World.save, put_kv_of_ne _ _ (listKey_ne_issueKey u l _)]
    exact h.list u l
  issue id := by
    by_cases hid : id = i.id
    · subst hid
      simp [World.issue, World.save]
    · have hkey : issueKey id ≠ issueKey i.id := fun he => hid (issueKey_inj.1 he)
      rw [World.issue, World.save, put_kv_of_ne _ _ hkey, Board.setIssue_issue, if_neg hid]
      exact h.issue id

theorem delete (id : String) : (w.delete (issueKey id)).Reads (b.setIssue id none) where
  list u l := by
    rw [delete_kv_of_ne _ (listKey_ne_issueKey u l _)]
    exact h.list u l
  issue k := by
    by_cases hk : k = id
    · subst hk
      simp [World.issue]
    · have hkey : issueKey k ≠ issueKey id := fun he => hk (issueKey_inj.1 he)
      rw [World.issue, delete_kv_of_ne _ hkey, Board.setIssue_issue, if_neg hk]
      exact h.issue k

theorem put_list (u : String) (l : ListID) (list : List IssueRef) :
    (w.put (listKey u l) (.refs list)).Reads (b.setList (listKey u l) list) where
  list v m := by
    rw [Board.setList_list]
    by_cases hk : listKey v m = listKey u l
    · rw [if_pos hk, hk, put_kv_self]
      rfl
    · rw [if_neg hk, put_kv_of_ne _ _ hk]
      exact h.list v m
  issue id := by
    rw [World.issue, put_kv_of_ne _ _ (issueKey_ne_listKey u l id)]
    exact h.issue id

theorem append (u : String) (l : ListID) (ref : IssueRef) : (w.append u l ref).Reads (b.append (listKey u l) ref) := by
  unfold World.append Board.append
  rw [h.list_eq]
  exact h.put_list u l _

theorem unlist (u : String) (l : ListID) (id : String) : (w.unlist u id l).Reads (b.unlist (listKey u l) id) := by
  unfold World.unlist
  split
  · rw [h.list_eq]
    exact h.put_list u l _
  · rename_i hn
    rw [h.list_eq] at hn
    rw [Board.unlist_of_not_mem hn]
    exact h

end Reads
end World

namespace Board

variable {b : Board}

/-- Taking out what was appended leaves the list there was. -/
theorem append_unlist {key : String} {r : IssueRef} (h : r.issueID ∉ ids (b.list key)) :
    (b.append key r).unlist key r.issueID = b := by
  ext k : 2
  · by_cases hk : k = key
    · subst hk
      simp [Store.without_eq_self h, Store.without_cons_self]
    · simp [hk]
  · rfl

/-- Deleting a record that was made leaves the records there were. -/
theorem setIssue_delete {id : String} (h : b.issue id = none) (i : Option Issue) : (b.setIssue id i).setIssue id none = b := by
  ext k : 2
  · rfl
  · by_cases hk : k = id
    · subst hk
      simp [h]
    · simp [hk]

/-- Deleting the two records that were made, the first one first. -/
theorem setIssue_setIssue_delete {id id' : String} (h : b.issue id = none) (h' : b.issue id' = none) (i j : Option Issue) :
    (((b.setIssue id i).setIssue id' j).setIssue id none).setIssue id' none = b := by
  ext k : 2
  · rfl
  · by_cases hk' : k = id'
    · subst hk'
      simp [h']
    · by_cases hk : k = id
      · subst hk
        simp [h]
      · simp [hk, hk']

/-- A reference and two records that were made, taken back. -/
theorem sent_undone {key id' : String} {r : IssueRef} (h : b.issue r.issueID = none) (h' : b.issue id' = none)
    (hr : r.issueID ∉ ids (b.list key)) {i j : Option Issue} :
    (((((b.setIssue r.issueID i).setIssue id' j).append key r).setIssue r.issueID none).setIssue id' none).unlist key
      r.issueID = b := by
  have hcomm : ((((b.setIssue r.issueID i).setIssue id' j).append key r).setIssue r.issueID none).setIssue id' none =
      ((((b.setIssue r.issueID i).setIssue id' j).setIssue r.issueID none).setIssue id' none).append key r := rfl
  rw [hcomm, setIssue_setIssue_delete h h', append_unlist hr]

end Board

/-! ## Adding and sending -/

/-- The ids still to be made are in no list, and no record is under them. -/
structure World.Unused (E : Env) (w : World) : Prop where
  fresh  : w.Fresh E
  absent : ∀ n, w.drawn ≤ n → ∀ u l, E.newId n ∉ ids (w.list (listKey u l))

/-- **What `AddIssue` ends with**: the record and its reference in the My list, or what there was. -/
def AddEnds (E : Env) (w : World) (u message postPermalink description postID : String) :
    Except String Issue → World → Prop
  | .error _, w' => w'.Reads w.board
  | .ok i, w'    => i.id = E.newId w.drawn ∧ i.MadeOf message postPermalink description postID ∧
    w'.Reads ((w.board.setIssue i.id (some i)).append (listKey u .myList) ⟨i.id, "", ""⟩)

/-- **What `SendIssue` ends with**: two records and the pair of references, or what there was. -/
def SendEnds (E : Env) (w : World) (u v message postPermalink description postID : String) :
    Except String String → World → Prop
  | .error _, w' => w'.Reads w.board
  | .ok id, w'   => ∃ i j : Issue, i.id = E.newId w.drawn ∧ j.id = E.newId (w.drawn + 1) ∧ id = j.id ∧
    i.MadeOf message postPermalink description postID ∧ j.MadeOf message postPermalink description postID ∧
    w'.Reads ((((w.board.setIssue i.id (some i)).setIssue j.id (some j)).append (listKey u .outList)
      ⟨i.id, j.id, v⟩).append (listKey v .inList) ⟨j.id, i.id, u⟩)

/-- **What `AcceptIssue` ends with**: the reference moved from the In list to the My list, or what there was. -/
def AcceptEnds (w : World) (u id : String) (res : AcceptResult) (w' : World) : Prop :=
  (res.outErr ≠ none → w'.Reads w.board) ∧ (res.outErr = none → ∃ r ∈ w.list (listKey u .inList), r.issueID = id ∧
    w'.Reads ((w.board.append (listKey u .myList) r).unlist (listKey u .inList) id))

namespace ListManager

variable {E : Env} {m : Mishap} {w : World}

theorem addIssue_ends (h : w.Listed) (hu : w.Unused E) (u msg p d q : String) (n : Nat) :
    Ends E m (addIssue u msg p d q) w (m.after n) fun res w' _ => AddEnds E w u msg p d q res w' := by
  have hr := h.reads.draw
  apply Ends.newIssue
  apply Ends.part (Store.atomic_saveIssue _) (Store.saveIssue_run E _)
  · intro _
    have hl : (w.draw.save (w.made E msg p d q)).Listed := h.draw.save _
    have hnew : (w.made E msg p d q).id ∉ ids ((w.draw.save (w.made E msg p d q)).list (listKey u .myList)) := by
      rw [World.list_save_listKey]
      exact hu.absent _ (Nat.le_refl _) u .myList
    apply Ends.part (Store.atomic_addReference hl _ _ _ _ _) (Store.addReference_run E hl "" "" hnew)
    · intro _
      exact .ret ⟨rfl, ⟨rfl, rfl, rfl, rfl⟩, (hr.save _).append u .myList _⟩
    · intro _ e
      have hnone : w.board.issue (w.made E msg p d q).id = none := hu.fresh _ (Nat.le_refl _)
      have hback := (hr.save (w.made E msg p d q)).delete (w.made E msg p d q).id
      rw [Board.setIssue_delete hnone] at hback
      exact .past_bind (Store.removeIssue_run E _) (.ret hback)
  · intro _ e
    exact .ret hr

theorem sendIssue_ends (h : w.Listed) (hu : w.Unused E) (u v msg p d q : String) (n : Nat) :
    Ends E m (sendIssue u v msg p d q) w (m.after n) fun res w' _ => SendEnds E w u v msg p d q res w' := by
  let i := w.made E msg p d q
  let j := (w.draw.save i).made E msg p d q
  have hi : w.board.issue i.id = none := hu.fresh _ (Nat.le_refl _)
  have hj : w.board.issue j.id = none := hu.fresh _ (Nat.le_succ _)
  have hij : j.id ≠ i.id := fun he => absurd (E.newId_inj _ _ he) (Nat.succ_ne_self _)
  have hr := h.reads.draw.save i
  apply Ends.newIssue
  apply Ends.part (Store.atomic_saveIssue i) (Store.saveIssue_run E i)
  · intro _
    apply Ends.newIssue
    apply Ends.part (Store.atomic_saveIssue j) (Store.saveIssue_run E j)
    · intro _
      have hl : ((w.draw.save i).draw.save j).Listed := ((h.draw.save i).draw).save j
      have hr₂ := hr.draw.save j
      have hlist : ∀ a l, ((w.draw.save i).draw.save j).list (listKey a l) = w.list (listKey a l) := hr₂.list_eq
      have hnew : i.id ∉ ids (((w.draw.save i).draw.save j).list (listKey u .outList)) := by
        rw [hlist]
        exact hu.absent _ (Nat.le_refl _) u .outList
      apply Ends.part (Store.atomic_addReference hl _ _ _ _ _) (Store.addReference_run E hl v j.id hnew)
      · intro _
        have hl₃ : (((w.draw.save i).draw.save j).append u .outList ⟨i.id, j.id, v⟩).Listed := hl.append hnew
        have hr₃ := hr₂.append u .outList ⟨i.id, j.id, v⟩
        have hnew' : j.id ∉ ids ((((w.draw.save i).draw.save j).append u .outList ⟨i.id, j.id, v⟩).list
            (listKey v .inList)) := by
          apply World.not_mem_ids_append hij
          · rw [hlist]
            exact hu.absent _ (Nat.le_succ _) u .outList
          · rw [hlist]
            exact hu.absent _ (Nat.le_succ _) v .inList
        apply Ends.part (Store.atomic_addReference hl₃ _ _ _ _ _) (Store.addReference_run E hl₃ u i.id hnew')
        · intro _
          exact .ret ⟨i, j, rfl, rfl, rfl, ⟨rfl, rfl, rfl, rfl⟩, ⟨rfl, rfl, rfl, rfl⟩, hr₃.append v .inList _⟩
        · intro _ e
          have hback := ((hr₃.delete i.id).delete j.id).unlist u .outList i.id
          have hout : i.id ∉ ids (w.board.list (listKey u .outList)) := hu.absent _ (Nat.le_refl _) u .outList
          rw [Board.sent_undone (r := ⟨i.id, j.id, v⟩) hi hj hout] at hback
          refine .past_bind (Store.removeIssue_run E _) (.past_bind (Store.removeIssue_run E _) ?_)
          exact .past_bind (Store.removeReference_run E ((hl₃.delete i.id).delete j.id) ..) (.ret hback)
      · intro _ e
        have hback := (hr₂.delete i.id).delete j.id
        rw [Board.setIssue_setIssue_delete hi hj] at hback
        exact .past_bind (Store.removeIssue_run E _) (.past_bind (Store.removeIssue_run E _) (.ret hback))
    · intro _ e
      have hback := hr.draw.delete i.id
      rw [Board.setIssue_delete hi] at hback
      exact .past_bind (Store.removeIssue_run E _) (.ret hback)
  · intro _ e
    exact .ret h.reads.draw

/-! ## Accepting -/

theorem acceptIssue_ends (h : w.Listed) (u id : String) (n : Nat) :
    Ends E m (acceptIssue u id) w (m.after n) fun res w' _ => AcceptEnds w u id res w' := by
  have hkeep : ∀ e (f : Proc.Fault), Ends E m (pure ⟨"", "", some e⟩ : Api AcceptResult) w f
      fun res w' _ => AcceptEnds w u id res w' := fun e f => .ret ⟨fun _ => h.reads, fun he => by cases he⟩
  unfold acceptIssue
  cases hi : w.issue id with
  | none =>
    obtain ⟨err, hrun⟩ := Store.getIssue_missing E hi
    exact .part (Store.atomic_getIssue id) hrun (fun _ => hkeep _ _) fun _ e => hkeep _ _
  | some i =>
    apply Ends.part (Store.atomic_getIssue id) (Store.getIssue_found E hi)
    · intro _
      apply Ends.part (Store.atomic_getIssueReference h id) (Store.getIssueReference_run E h u id .inList)
      · intro _
        cases hr : w.refOf u id .inList with
        | error e => exact hkeep _ _
        | ok p =>
          obtain ⟨r, k⟩ := p
          obtain ⟨hmem, rfl⟩ := World.refOf_ok hr
          by_cases hmy : r.issueID ∈ ids (w.list (listKey u .myList))
          · exact .part (Store.atomic_addReference h _ _ _ _ _) (Store.addReference_run_mem E h _ _ hmy)
              (fun _ => hkeep _ _) fun _ e => hkeep _ _
          · apply Ends.part (Store.atomic_addReference h _ _ _ _ _) (Store.addReference_run E h _ _ hmy)
            · intro _
              have hl : (w.append u .myList r).Listed := h.append hmy
              have hin : r.issueID ∈ ids ((w.append u .myList r).list (listKey u .inList)) := by
                rw [World.list_append]
                split
                · rw [Store.ids, List.map_append]
                  exact List.mem_append_right _ (List.mem_singleton.2 rfl)
                · exact List.mem_map_of_mem hmem
              have hrun := Store.removeReference_run E hl u r.issueID .inList
              rw [if_pos hin] at hrun
              apply Ends.part (Store.atomic_removeReference hl _ _ _) hrun
              · intro _
                exact .ret ⟨fun he => absurd rfl he, fun _ => ⟨r, hmem, rfl, (h.reads.append u .myList r).unlist u .inList _⟩⟩
              · intro _ e
                have hback := (h.reads.append u .myList r).unlist u .myList r.issueID
                rw [Board.append_unlist hmy] at hback
                exact .past_bind (Store.removeReference_run E hl ..) (.ret ⟨fun _ => hback, fun he => by cases he⟩)
            · intro _ e
              exact hkeep _ _
      · intro _ e
        exact hkeep _ _
    · intro _ e
      exact hkeep _ _

end ListManager

/-- **Adding, sending and accepting are done whole or rolled back**, whichever call of theirs fails, and whichever list
update of theirs is lost. -/
theorem rollsBack {E : Env} {m : Mishap} {w : World} (h : w.Listed) (hu : w.Unused E) (u v : String) (n : Nat) :
    (∀ message postPermalink description postID : String,
      Ends E m (ListManager.addIssue u message postPermalink description postID) w (m.after n) fun res w' _ =>
        AddEnds E w u message postPermalink description postID res w') ∧
    (∀ message postPermalink description postID : String,
      Ends E m (ListManager.sendIssue u v message postPermalink description postID) w (m.after n) fun res w' _ =>
        SendEnds E w u v message postPermalink description postID res w') ∧
    ∀ id, Ends E m (ListManager.acceptIssue u id) w (m.after n) fun res w' _ => AcceptEnds w u id res w' :=
  ⟨fun _ _ _ _ => ListManager.addIssue_ends h hu _ _ _ _ _ n, fun _ _ _ _ => ListManager.sendIssue_ends h hu _ _ _ _ _ _ n,
    fun _ => ListManager.acceptIssue_ends h _ _ n⟩

section sample

theorem sentToBob_unused : sentToBob.Unused Env.sample where
  fresh := sentToBob_settled.fresh
  absent n hn u l hmem := by
    have hdrawn : ∀ id ∈ ids (sentToBob.list (listKey u l)), id = Env.sample.newId 0 ∨ id = Env.sample.newId 1 := by
      intro id hid
      obtain ⟨r, hr, rfl⟩ := List.mem_map.1 hid
      rw [show sentToBob = ListManager.sent Env.sample World.empty ann bob "milk" "" "" "" from rfl,
        ListManager.sent] at hr
      simp only [World.list_append, World.list_save_listKey, World.list_draw] at hr
      have hempty : World.empty.list = fun _ => [] := rfl
      simp only [hempty] at hr
      split at hr
      · rcases List.mem_append.1 hr with ho | hi
        · split at ho
          · rw [List.mem_singleton.1 ho]
            exact .inl rfl
          · cases ho
        · rw [List.mem_singleton.1 hi]
          exact .inr rfl
      · split at hr
        · rw [List.mem_singleton.1 hr]
          exact .inl rfl
        · cases hr
    have hle : 2 ≤ n := hn
    rcases hdrawn _ hmem with he | he
    · have := Env.sample.newId_inj _ _ he
      omega
    · have := Env.sample.newId_inj _ _ he
      omega

theorem rollsBack_sentToBob :
    (∀ message postPermalink description postID : String,
      Ends Env.sample .loses (ListManager.addIssue bob message postPermalink description postID) sentToBob
        (Mishap.loses.after 0) fun res w' _ =>
          AddEnds Env.sample sentToBob bob message postPermalink description postID res w') ∧
    (∀ message postPermalink description postID : String,
      Ends Env.sample .loses (ListManager.sendIssue bob ann message postPermalink description postID) sentToBob
        (Mishap.loses.after 0) fun res w' _ =>
          SendEnds Env.sample sentToBob bob ann message postPermalink description postID res w') ∧
    ∀ id, Ends Env.sample .loses (ListManager.acceptIssue bob id) sentToBob (Mishap.loses.after 0) fun res w' _ =>
      AcceptEnds sentToBob bob id res w' :=
  rollsBack sentToBob_settled.sound.toListed sentToBob_unused bob ann 0

end sample
end Todo

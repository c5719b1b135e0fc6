import TodoPlugin.ListManager
import TodoPlugin.StoreRun
/-!
# The list manager's operations run alone

Each operation, branch by branch, on a sound store: what it returns and the store it leaves, as a chain of the changes
of `StoreRun`.  A search that finds nothing is a branch of its own, so that an operation's error leaves the store as
it was.
-/
namespace Todo

open Store (ids without)

namespace World

/-- The store after a `NewId` and a `GetMillis`. -/
def draw (w : World) : World := { w with drawn := w.drawn + 1, ticks := w.ticks + 1 }

/-- The issue `newIssue` makes. -/
def made (E : Env) (w : World) (message postPermalink description postID : String) : Issue :=
  ⟨E.newId w.drawn, message, postPermalink, description, E.millis w.ticks, postID⟩

theorem Sound.draw {w : World} (h : w.Sound) : w.draw.Sound :=
  Sound.of_kv (show w.draw.kv = w.kv from rfl) h
@[simp] theorem board_draw (w : World) : w.draw.board = w.board := rfl
@[simp] theorem list_draw (w : World) : w.draw.list = w.list := rfl
@[simp] theorem issue_draw (w : World) : w.draw.issue = w.issue := rfl
theorem made_id_ne (E : Env) (w : World) (m p d q : String) : (w.made E m p d q).id ≠ "" := (E.newId_isId _).1
@[simp] theorem list_notify (w : World) (n : Notice) : (w.notify n).list = w.list := rfl
@[simp] theorem issue_notify (w : World) (n : Notice) : (w.notify n).issue = w.issue := rfl
@[simp] theorem drawn_draw (w : World) : w.draw.drawn = w.drawn + 1 := rfl

theorem list_unlist (w : World) (u id : String) (l : ListID) (k : String) :
    (w.unlist u id l).list k = if k = listKey u l then without id (w.list (listKey u l)) else w.list k :=
  congrFun (congrArg Board.list (w.board_unlist u id l)) k
theorem mem_ids_of_unlist {w : World} {u id k key : String} {l : ListID} (h : k ∈ ids ((w.unlist u id l).list key)) :
    k ∈ ids (w.list key) := by
  rw [list_unlist] at h
  split at h
  · rename_i hkey
    obtain ⟨r, hr, rfl⟩ := List.mem_map.1 h
    exact hkey ▸ List.mem_map.2 ⟨r, (Store.mem_without.1 hr).1, rfl⟩
  · exact h
theorem issue_unlist (w : World) (u id : String) (l : ListID) : (w.unlist u id l).issue = w.issue :=
  congrArg Board.issue (w.board_unlist u id l)
theorem list_append (w : World) (u : String) (l : ListID) (ref : IssueRef) (k : String) :
    (w.append u l ref).list k = if k = listKey u l then w.list (listKey u l) ++ [ref] else w.list k :=
  congrFun (congrArg Board.list (w.board_append u l ref)) k
theorem not_mem_ids_append {w : World} {u id key : String} {l : ListID} {ref : IssueRef} (hne : id ≠ ref.issueID)
    (hu : id ∉ ids (w.list (listKey u l))) (hk : id ∉ ids (w.list key)) : id ∉ ids ((w.append u l ref).list key) := by
  rw [list_append]
  split
  · rw [Store.ids, List.map_append]
    intro hmem
    rcases List.mem_append.1 hmem with hm | hm
    · exact hu hm
    · exact hne (List.mem_singleton.1 hm)
  · exact hk
theorem issue_append (w : World) (u : String) (l : ListID) (ref : IssueRef) : (w.append u l ref).issue = w.issue :=
  congrArg Board.issue (w.board_append u l ref)
theorem Sound.list_dropIssue {w : World} (h : w.Sound) (id : String) : (w.dropIssue id).list = w.list :=
  congrArg Board.list (h.board_dropIssue id)
theorem Sound.issue_dropIssue {w : World} (h : w.Sound) (id k : String) :
    (w.dropIssue id).issue k = if k = id then none else w.issue k :=
  congrFun (congrArg Board.issue (h.board_dropIssue id)) k
theorem Sound.list_save {w : World} (h : w.Sound) (i : Issue) : (w.save i).list = w.list :=
  congrArg Board.list (h.board_save i)
theorem Sound.issue_save {w : World} (h : w.Sound) (i : Issue) (k : String) :
    (w.save i).issue k = if k = i.id then some i else w.issue k :=
  congrFun (congrArg Board.issue (h.board_save i)) k

theorem fetch_toOption (w : World) (id : String) : (w.fetch id).toOption = w.issue id := by
  unfold fetch; cases w.issue id <;> rfl

end World

theorem newIssue_run (E : Env) (w : World) (m p d q : String) :
    (newIssue m p d q).run (serve E) w = (some (w.made E m p d q), w.draw) := rfl

namespace ListManager

variable (E : Env) {w : World}

/-! ## Adding and sending -/

theorem addIssue_run (h : w.Sound) (u m p d q : String) (hnew : E.newId w.drawn ∉ ids (w.list (listKey u .myList))) :
    (addIssue u m p d q).run (serve E) w =
      (some (.ok (w.made E m p d q)),
        (w.draw.save (w.made E m p d q)).append u .myList ⟨E.newId w.drawn, "", ""⟩) := by
  unfold addIssue
  rw [Proc.run_bind_of _ (newIssue_run E w m p d q), Proc.run_bind_of _ (Store.saveIssue_run E _)]
  simp only
  have hs := h.draw.save (w.made_id_ne E m p d q)
  rw [Proc.run_bind_of _ (Store.addReference_run E hs.toListed "" "" ?_)]
  · rfl
  · rw [h.draw.list_save]
    exact hnew

/-- The sender's and the receiver's issue, and the references between them. -/
def sent (w : World) (u v m p d q : String) : World :=
  let i := w.made E m p d q
  let j := w.draw.made E m p d q
  (((w.draw.save i).draw.save j).append u .outList ⟨i.id, j.id, v⟩).append v .inList ⟨j.id, i.id, u⟩

theorem sent_drawn (w : World) (u v m p d q : String) : (sent E w u v m p d q).drawn = w.drawn + 2 := by
  simp [sent]

theorem sendIssue_run (h : w.Sound) (u v m p d q : String)
    (hnew : E.newId w.drawn ∉ ids (w.list (listKey u .outList)))
    (hnew' : E.newId (w.drawn + 1) ∉ ids (w.list (listKey v .inList))) (hkey : listKey v .inList ≠ listKey u .outList) :
    (sendIssue u v m p d q).run (serve E) w = (some (.ok (E.newId (w.drawn + 1))), sent E w u v m p d q) := by
  unfold sendIssue
  rw [Proc.run_bind_of _ (newIssue_run E w m p d q), Proc.run_bind_of _ (Store.saveIssue_run E _)]
  simp only
  rw [Proc.run_bind_of _ (newIssue_run E _ m p d q), Proc.run_bind_of _ (Store.saveIssue_run E _)]
  simp only
  have hs₁ := h.draw.save (w.made_id_ne E m p d q)
  have hs₂ := hs₁.draw.save ((w.draw.save (w.made E m p d q)).made_id_ne E m p d q)
  have hl₁ : ((w.draw.save (w.made E m p d q)).draw.save ((w.draw.save (w.made E m p d q)).made E m p d q)).list
      = w.list := by
    rw [hs₁.draw.list_save, World.list_draw, h.draw.list_save, World.list_draw]
  have hout : (w.made E m p d q).id ∉ ids (((w.draw.save (w.made E m p d q)).draw.save
      ((w.draw.save (w.made E m p d q)).made E m p d q)).list (listKey u .outList)) := by
    rw [hl₁]; exact hnew
  rw [Proc.run_bind_of _ (Store.addReference_run E hs₂.toListed _ _ hout)]
  simp only
  rw [Proc.run_bind_of _ (Store.addReference_run E (hs₂.append hout).toListed _ _ ?_)]
  · rfl
  · rw [World.list_append, if_neg hkey, hl₁]
    exact hnew'

/-! ## Completing, removing and popping -/

section drop
variable {u id : String} {l : ListID} {ir : IssueRef} {n : Nat}

theorem completeIssue_absent (h : w.Sound) (hl : w.locate u id = (l, none, n)) :
    (completeIssue u id).run (serve E) w = (some ⟨none, "", l, some "cannot find element"⟩, w) := by
  unfold completeIssue
  rw [Proc.run_bind_of _ (Store.locate_run E h.toListed hl)]
  rfl

theorem removeIssue_absent (h : w.Sound) (hl : w.locate u id = (l, none, n)) :
    (removeIssue u id).run (serve E) w = (some ⟨none, "", false, l, some "cannot find element"⟩, w) := by
  unfold removeIssue
  rw [Proc.run_bind_of _ (Store.locate_run E h.toListed hl)]
  rfl

/-- What a search found is there to be removed. -/
theorem removeReference_found (h : w.Sound) (hl : w.locate u id = (l, some ir, n)) :
    (Store.removeReference u id l).run (serve E) w = (some (.ok ()), w.unlist u id l) := by
  rw [Store.removeReference_run E h.toListed, if_pos]
  rcases w.locate_cases u id with ⟨m, r, k, he, hm, hid⟩ | ⟨he, -⟩
  · rw [hl] at he
    cases he
    exact List.mem_map.2 ⟨_, hm, hid⟩
  · rw [hl] at he
    cases he

theorem completeIssue_own (h : w.Sound) (hl : w.locate u id = (l, some ir, n)) (hf : ir.foreignUserID = "") :
    (completeIssue u id).run (serve E) w =
      (some ⟨w.issue id, "", l, none⟩, (w.unlist u id l).dropIssue id) := by
  unfold completeIssue
  rw [Proc.run_bind_of _ (Store.locate_run E h.toListed hl)]
  simp only
  rw [Proc.run_bind_of _ (removeReference_found E h hl)]
  simp only
  rw [Proc.run_bind_of _ (Store.getAndRemoveIssue_run E (h.unlist u id l) id), if_pos hf, World.fetch_toOption,
    World.issue_unlist]
  rfl

theorem completeIssue_shared (h : w.Sound) (hl : w.locate u id = (l, some ir, n)) (hf : ir.foreignUserID ≠ "") :
    (completeIssue u id).run (serve E) w =
      (some ⟨((w.unlist u id l).dropIssue id).issue ir.foreignIssueID, ir.foreignUserID, l, none⟩,
        (((w.unlist u id l).dropIssue id).unlist ir.foreignUserID ir.foreignIssueID .outList).dropIssue
          ir.foreignIssueID) := by
  unfold completeIssue
  have h₁ := h.unlist u id l
  rw [Proc.run_bind_of _ (Store.locate_run E h.toListed hl)]
  simp only
  rw [Proc.run_bind_of _ (removeReference_found E h hl)]
  simp only
  rw [Proc.run_bind_of _ (Store.getAndRemoveIssue_run E h₁ id), if_neg hf,
    Proc.run_bind_of _ (Store.removeReference_run E (h₁.dropIssue id).toListed _ _ _),
    Proc.run_bind_of _ (Store.getAndRemoveIssue_run E ((h₁.dropIssue id).unlist _ _ _) _), World.fetch_toOption,
    World.issue_unlist]
  rfl

theorem removeIssue_own (h : w.Sound) (hl : w.locate u id = (l, some ir, n)) (hf : ir.foreignUserID = "") :
    (removeIssue u id).run (serve E) w =
      (some ⟨w.issue id, "", false, l, none⟩, (w.unlist u id l).dropIssue id) := by
  unfold removeIssue
  rw [Proc.run_bind_of _ (Store.locate_run E h.toListed hl)]
  simp only
  rw [Proc.run_bind_of _ (removeReference_found E h hl)]
  simp only
  rw [Proc.run_bind_of _ (Store.getAndRemoveIssue_run E (h.unlist u id l) id), if_pos hf, World.fetch_toOption,
    World.issue_unlist]
  rfl

theorem removeIssue_shared (h : w.Sound) (hl : w.locate u id = (l, some ir, n)) (hf : ir.foreignUserID ≠ "")
    {fl : ListID} {fr : Option IssueRef} {fn : Nat}
    (hfl : ((w.unlist u id l).dropIssue id).locate ir.foreignUserID ir.foreignIssueID = (fl, fr, fn)) :
    (removeIssue u id).run (serve E) w =
      (some ⟨((w.unlist u id l).dropIssue id).issue ir.foreignIssueID, ir.foreignUserID, decide (fl = .outList), l,
          none⟩,
        (((w.unlist u id l).dropIssue id).unlist ir.foreignUserID ir.foreignIssueID fl).dropIssue
          ir.foreignIssueID) := by
  unfold removeIssue
  have h₁ := h.unlist u id l
  rw [Proc.run_bind_of _ (Store.locate_run E h.toListed hl)]
  simp only
  rw [Proc.run_bind_of _ (removeReference_found E h hl)]
  simp only
  rw [Proc.run_bind_of _ (Store.getAndRemoveIssue_run E h₁ id), if_neg hf,
    Proc.run_bind_of _ (Store.locate_run E (h₁.dropIssue id).toListed hfl)]
  simp only
  rw [Proc.run_bind_of _ (Store.removeReference_run E (h₁.dropIssue id).toListed _ _ _),
    Proc.run_bind_of _ (Store.getAndRemoveIssue_run E ((h₁.dropIssue id).unlist _ _ _) _), World.fetch_toOption,
    World.issue_unlist]
  rfl

end drop

theorem popIssue_empty (h : w.Sound) {u : String} (hl : w.list (listKey u .myList) = []) :
    (popIssue u).run (serve E) w = (some ⟨none, "", some "cannot find issue"⟩, w) := by
  have := Store.popReference_run E h.toListed u .myList
  rw [hl] at this
  unfold popIssue
  rw [Proc.run_bind_of _ this]
  rfl

/-- Popping takes the head out of the list, as removing it would. -/
theorem popReference_head (h : w.Sound) {u : String} {ir : IssueRef} {rest : List IssueRef}
    (hl : w.list (listKey u .myList) = ir :: rest) :
    (Store.popReference u .myList).run (serve E) w = (some (.ok ir), w.unlist u ir.issueID .myList) := by
  rw [Store.popReference_run E h.toListed, h.toListed.unlist_head hl, hl]

theorem popIssue_own (h : w.Sound) {u : String} {ir : IssueRef} {rest : List IssueRef}
    (hl : w.list (listKey u .myList) = ir :: rest) (hf : ir.foreignUserID = "") :
    (popIssue u).run (serve E) w =
      (some ⟨w.issue ir.issueID, "", none⟩, (w.unlist u ir.issueID .myList).dropIssue ir.issueID) := by
  unfold popIssue
  rw [Proc.run_bind_of _ (popReference_head E h hl)]
  simp only
  rw [Proc.run_bind_of _ (Store.getAndRemoveIssue_run E (h.unlist u _ _) _), if_pos hf, World.fetch_toOption,
    World.issue_unlist]
  rfl

theorem popIssue_shared (h : w.Sound) {u : String} {ir : IssueRef} {rest : List IssueRef}
    (hl : w.list (listKey u .myList) = ir :: rest) (hf : ir.foreignUserID ≠ "") :
    (popIssue u).run (serve E) w =
      (some ⟨((w.unlist u ir.issueID .myList).dropIssue ir.issueID).issue ir.foreignIssueID, ir.foreignUserID, none⟩,
        (((w.unlist u ir.issueID .myList).dropIssue ir.issueID).unlist ir.foreignUserID ir.foreignIssueID
          .outList).dropIssue ir.foreignIssueID) := by
  have h₁ := h.unlist u ir.issueID .myList
  unfold popIssue
  rw [Proc.run_bind_of _ (popReference_head E h hl)]
  simp only
  rw [Proc.run_bind_of _ (Store.getAndRemoveIssue_run E h₁ _), if_neg hf,
    Proc.run_bind_of _ (Store.removeReference_run E (h₁.dropIssue _).toListed _ _ _),
    Proc.run_bind_of _ (Store.getAndRemoveIssue_run E ((h₁.dropIssue _).unlist _ _ _) _), World.fetch_toOption,
    World.issue_unlist]
  rfl

/-! ## Accepting and bumping -/

theorem acceptIssue_noIssue (h : w.Sound) {u id : String} (hi : w.issue id = none) :
    (acceptIssue u id).run (serve E) w = (some ⟨"", "", some "cannot find issue"⟩, w) := by
  unfold acceptIssue
  rw [Proc.run_bind_of _ (Store.getIssue_run E h id), World.fetch, hi]
  rfl

theorem acceptIssue_absent (h : w.Sound) {u id : String} {e : String} (hr : w.refOf u id .inList = .error e) :
    ∃ err, (acceptIssue u id).run (serve E) w = (some ⟨"", "", some err⟩, w) := by
  cases hi : w.issue id with
  | none => exact ⟨_, acceptIssue_noIssue E h hi⟩
  | some i =>
    refine ⟨e, ?_⟩
    unfold acceptIssue
    rw [Proc.run_bind_of _ (Store.getIssue_found E hi)]
    simp only
    rw [Proc.run_bind_of _ (Store.refOf_run E h.toListed hr)]
    rfl

theorem acceptIssue_run (h : w.Sound) {u id : String} {i : Issue} {r : IssueRef} {n : Nat} (hi : w.issue id = some i)
    (hr : w.refOf u id .inList = .ok (r, n)) (hmy : id ∉ ids (w.list (listKey u .myList)))
    (hkey : listKey u .inList ≠ listKey u .myList) :
    (acceptIssue u id).run (serve E) w =
      (some ⟨withPermalink i.message i.postPermalink, r.foreignUserID, none⟩,
        (w.append u .myList ⟨id, r.foreignIssueID, r.foreignUserID⟩).unlist u id .inList) := by
  have hs := @World.Sound.append w h u .myList ⟨id, r.foreignIssueID, r.foreignUserID⟩ hmy
  have hin : id ∈ ids (w.list (listKey u .inList)) := by
    obtain ⟨hm, he⟩ := World.refOf_ok hr
    exact List.mem_map.2 ⟨r, hm, he⟩
  unfold acceptIssue
  rw [Proc.run_bind_of _ (Store.getIssue_found E hi)]
  simp only
  rw [Proc.run_bind_of _ (Store.refOf_run E h.toListed hr)]
  simp only
  rw [Proc.run_bind_of _ (Store.addReference_run E h.toListed _ _ hmy)]
  simp only
  rw [Proc.run_bind_of _ (Store.removeReference_run E hs.toListed u id .inList), World.list_append, if_neg hkey, if_pos hin]
  rfl

theorem bumpIssue_absent (h : w.Listed) {u id : String} {e : String} (hr : w.refOf u id .outList = .error e) :
    (bumpIssue u id).run (serve E) w = (some ⟨none, "", "", some e⟩, w) := by
  unfold bumpIssue
  rw [Proc.run_bind_of _ (Store.refOf_run E h hr)]
  rfl

/-- What a bump that does not fail returns: nothing where the receiver's issue cannot be read. -/
def bumped (w : World) (r : IssueRef) : BumpResult :=
  match w.issue r.foreignIssueID with
  | none   => ⟨none, "", "", none⟩
  | some i => ⟨some i, r.foreignUserID, r.foreignIssueID, none⟩

/-- A bump does to the receiver's list what its edit does. -/
theorem bumpIssue_eq (h : w.Listed) {u id : String} {r : IssueRef} {n : Nat} (hr : w.refOf u id .outList = .ok (r, n)) :
    (bumpIssue u id).run (serve E) w =
      match Store.bumpEdit r.foreignIssueID (w.list (listKey r.foreignUserID .inList)) with
      | .fail e         => (some ⟨none, "", "", some e⟩, w)
      | .panic          => (none, w)
      | .save _ newList => (some (bumped w r), w.put (listKey r.foreignUserID .inList) (.refs newList)) := by
  have hedit := Store.editList_decodes E (h.decode_eq r.foreignUserID .inList) (Store.bumpEdit r.foreignIssueID)
    "unable to store list" 2
  unfold bumpIssue Store.bumpReference storeRetries
  rw [Proc.run_bind_of _ (Store.refOf_run E h hr)]
  simp only
  rw [Proc.run_bind, hedit]
  cases Store.bumpEdit r.foreignIssueID (w.list (listKey r.foreignUserID .inList)) with
  | fail e => rfl
  | panic => rfl
  | save a newList =>
    have hissue : (w.put (listKey r.foreignUserID .inList) (.refs newList)).issue = w.issue :=
      congrArg Board.issue (w.board_put_list r.foreignUserID .inList newList)
    simp only [bumped]
    rw [← hissue]
    cases hi : (w.put (listKey r.foreignUserID .inList) (.refs newList)).issue r.foreignIssueID with
    | none =>
      obtain ⟨err, hrun⟩ := Store.getIssue_missing E hi
      rw [Proc.run_bind_of _ hrun]
      rfl
    | some i =>
      rw [Proc.run_bind_of _ (Store.getIssue_found E hi)]
      rfl

/-- A bump permutes the receiver's list. -/
theorem bumpIssue_run (h : w.Sound) {u id : String} {r : IssueRef} {n : Nat}
    (hr : w.refOf u id .outList = .ok (r, n)) :
    (∃ err, (bumpIssue u id).run (serve E) w = (some ⟨none, "", "", some err⟩, w)) ∨
    ∃ newList, newList.Perm (w.list (listKey r.foreignUserID .inList)) ∧
      (bumpIssue u id).run (serve E) w =
        (some (bumped w r), w.put (listKey r.foreignUserID .inList) (.refs newList)) := by
  rcases Store.bumpEdit_perm r.foreignIssueID (w.list (listKey r.foreignUserID .inList)) with
    ⟨-, he⟩ | ⟨newList, he, hp⟩
  · exact .inl ⟨_, by rw [bumpIssue_eq E h.toListed hr, he]⟩
  · exact .inr ⟨newList, hp, by rw [bumpIssue_eq E h.toListed hr, he]⟩

/-! ## Editing -/

/-- The store with the foreign copy rewritten, if there is one. -/
def editForeign (w : World) (foreignIssueID message description : String) : World :=
  if foreignIssueID ≠ "" then
    match w.issue foreignIssueID with
    | some f => w.save (f.retext message description)
    | none   => w
  else w

theorem editIssue_absent (h : w.Sound) {u id : String} (m d : String) {l : ListID} {n : Nat}
    (hl : w.locate u id = (l, none, n)) :
    ∃ err, (editIssue u id m d).run (serve E) w = (some ⟨"", .myList, "", some err⟩, w) := by
  unfold editIssue
  rw [Proc.run_bind_of _ (Store.getIssue_run E h id)]
  cases w.fetch id with
  | error e => exact ⟨_, rfl⟩
  | ok i =>
    simp only
    rw [Proc.run_bind_of _ (Store.locate_run E h.toListed hl)]
    exact ⟨_, rfl⟩

theorem editIssue_noIssue (h : w.Sound) {u id : String} (m d : String) (hi : w.issue id = none) :
    (editIssue u id m d).run (serve E) w = (some ⟨"", .myList, "", some "cannot find issue"⟩, w) := by
  unfold editIssue
  rw [Proc.run_bind_of _ (Store.getIssue_run E h id), World.fetch, hi]
  rfl

theorem editIssue_run (h : w.Sound) {u id : String} (m d : String) {i : Issue} {l : ListID} {r : IssueRef} {n : Nat}
    (hi : w.issue id = some i) (hl : w.locate u id = (l, some r, n)) :
    ∃ old, (editIssue u id m d).run (serve E) w =
      (some ⟨r.foreignUserID, l, old, none⟩, (editForeign w r.foreignIssueID m d).save (i.retext m d)) := by
  unfold editIssue editForeign
  rw [Proc.run_bind_of _ (Store.getIssue_found E hi)]
  simp only
  rw [Proc.run_bind_of _ (Store.locate_run E h.toListed hl)]
  simp only
  by_cases hf : r.foreignIssueID = ""
  · simp only [hf, ne_eq, not_true_eq_false, if_false]
    exact ⟨_, rfl⟩
  · simp only [ne_eq, hf, not_false_eq_true, if_true]
    rw [Proc.run_bind_of _ (Store.getIssue_run E h r.foreignIssueID), World.fetch]
    cases w.issue r.foreignIssueID with
    | none => exact ⟨_, rfl⟩
    | some f => exact ⟨_, rfl⟩

/-! ## Changing the assignment -/

theorem assign_run (h : w.Sound) (id u v old : String) (i : Issue) (hold : id ∉ ids (w.list (listKey u .outList)))
    (hnew : E.newId w.drawn ∉ ids (w.list (listKey v .inList))) (hkey : listKey v .inList ≠ listKey u .outList) :
    (assign id u v old i).run (serve E) w =
      (some ⟨some i, old, none⟩,
        ((w.draw.save (w.made E i.message i.postPermalink i.description i.postID)).append u .outList
          ⟨id, E.newId w.drawn, v⟩).append v .inList ⟨E.newId w.drawn, i.id, u⟩) := by
  have hs := h.draw.save (w.made_id_ne E i.message i.postPermalink i.description i.postID)
  have hold' : id ∉ ids ((w.draw.save (w.made E i.message i.postPermalink i.description i.postID)).list
      (listKey u .outList)) := by rw [h.draw.list_save]; exact hold
  unfold assign
  rw [Proc.run_bind_of _ (newIssue_run E w _ _ _ _), Proc.run_bind_of _ (Store.saveIssue_run E _)]
  simp only
  rw [Proc.run_bind_of _ (Store.addReference_run E hs.toListed _ _ hold')]
  simp only
  rw [Proc.run_bind_of _ (Store.addReference_run E (hs.append hold').toListed _ _ ?_)]
  · rfl
  · rw [World.list_append, if_neg hkey, h.draw.list_save]
    exact hnew

theorem reassign_back (h : w.Sound) (id u : String) (r : IssueRef) (i : Issue)
    (hin : id ∈ ids (w.list (listKey u .outList))) (hold : id ∉ ids (w.list (listKey u .myList)))
    (hkey : listKey u .myList ≠ listKey u .outList) :
    (reassign id u u .outList r i).run (serve E) w =
      (some ⟨some i, r.foreignUserID, none⟩, (w.unlist u id .outList).append u .myList ⟨id, "", ""⟩) := by
  unfold reassign
  rw [if_pos ⟨rfl, rfl⟩, Proc.run_bind_of _ (Store.removeReference_run E h.toListed u id .outList), if_pos hin]
  simp only
  rw [Proc.run_bind_of _ (Store.addReference_run E (h.unlist u id .outList).toListed "" "" ?_)]
  · rfl
  · rw [World.list_unlist, if_neg hkey]
    exact hold

theorem reassign_other (h : w.Sound) (id u v : String) (l : ListID) (r : IssueRef) (i : Issue) (huv : u ≠ v)
    (hin : id ∈ ids (w.list (listKey u l))) :
    (reassign id u v l r i).run (serve E) w =
      (assign id u v r.foreignUserID i).run (serve E) (w.unlist u id l) := by
  unfold reassign
  rw [if_neg (fun hc => huv hc.1), if_pos huv, Proc.run_bind_of _ (Store.removeReference_run E h.toListed u id l), if_pos hin]

theorem changeAssignment_absent (h : w.Sound) {u id : String} (v : String) {l : ListID} {n : Nat}
    (hl : w.locate u id = (l, none, n)) :
    ∃ err, (changeAssignment id u v).run (serve E) w = (some ⟨none, "", some err⟩, w) := by
  unfold changeAssignment
  rw [Proc.run_bind_of _ (Store.getIssue_run E h id)]
  cases w.fetch id with
  | error e => exact ⟨_, rfl⟩
  | ok i =>
    simp only
    rw [Proc.run_bind_of _ (Store.locate_run E h.toListed hl)]
    exact ⟨_, rfl⟩

theorem changeAssignment_noIssue (h : w.Sound) {u id : String} (v : String) (hi : w.issue id = none) :
    (changeAssignment id u v).run (serve E) w = (some ⟨none, "", some "cannot find issue"⟩, w) := by
  unfold changeAssignment
  rw [Proc.run_bind_of _ (Store.getIssue_run E h id), World.fetch, hi]
  rfl

section change
variable {u id : String} {i : Issue} {l : ListID} {r : IssueRef} {n : Nat}

/-- Another's todo, received or accepted, is refused. -/
theorem changeAssignment_foreign (h : w.Sound) (v : String) (hi : w.issue id = some i)
    (hl : w.locate u id = (l, some r, n)) (hf : l = .inList ∨ (r.foreignIssueID ≠ "" ∧ l = .myList)) :
    ∃ err, (changeAssignment id u v).run (serve E) w = (some ⟨none, "", some err⟩, w) := by
  unfold changeAssignment
  rw [Proc.run_bind_of _ (Store.getIssue_found E hi)]
  simp only
  rw [Proc.run_bind_of _ (Store.locate_run E h.toListed hl)]
  simp only [if_pos hf]
  exact ⟨_, rfl⟩

theorem changeAssignment_own (h : w.Sound) (v : String) (hi : w.issue id = some i)
    (hl : w.locate u id = (l, some r, n)) (hf : ¬ (l = .inList ∨ (r.foreignIssueID ≠ "" ∧ l = .myList)))
    (hu : r.foreignUserID = "") :
    (changeAssignment id u v).run (serve E) w = (reassign id u v l r i).run (serve E) w := by
  unfold changeAssignment
  rw [Proc.run_bind_of _ (Store.getIssue_found E hi)]
  simp only
  rw [Proc.run_bind_of _ (Store.locate_run E h.toListed hl)]
  simp only [if_neg hf, ne_eq, hu, not_true_eq_false, if_false]

theorem changeAssignment_lost (h : w.Sound) (v : String) (hi : w.issue id = some i)
    (hl : w.locate u id = (l, some r, n)) (hf : ¬ (l = .inList ∨ (r.foreignIssueID ≠ "" ∧ l = .myList)))
    (hu : r.foreignUserID ≠ "") {fl : ListID} {fn : Nat}
    (hfl : w.locate r.foreignUserID r.foreignIssueID = (fl, none, fn)) :
    (changeAssignment id u v).run (serve E) w = (some ⟨none, "", some "reference not found"⟩, w) := by
  unfold changeAssignment
  rw [Proc.run_bind_of _ (Store.getIssue_found E hi)]
  simp only
  rw [Proc.run_bind_of _ (Store.locate_run E h.toListed hl)]
  simp only [if_neg hf, if_pos hu]
  rw [Proc.run_bind_of _ (Store.locate_run E h.toListed hfl)]
  rfl

theorem changeAssignment_shared (h : w.Sound) (v : String) (hi : w.issue id = some i)
    (hl : w.locate u id = (l, some r, n)) (hf : ¬ (l = .inList ∨ (r.foreignIssueID ≠ "" ∧ l = .myList)))
    (hu : r.foreignUserID ≠ "") {fl : ListID} {fr : IssueRef} {fn : Nat}
    (hfl : w.locate r.foreignUserID r.foreignIssueID = (fl, some fr, fn)) :
    (changeAssignment id u v).run (serve E) w = (reassign id u v l r i).run (serve E)
      ((w.unlist r.foreignUserID r.foreignIssueID fl).dropIssue r.foreignIssueID) := by
  unfold changeAssignment
  rw [Proc.run_bind_of _ (Store.getIssue_found E hi)]
  simp only
  rw [Proc.run_bind_of _ (Store.locate_run E h.toListed hl)]
  simp only [if_neg hf, if_pos hu]
  rw [Proc.run_bind_of _ (Store.locate_run E h.toListed hfl)]
  simp only
  rw [Proc.run_bind_of _ (removeReference_found E h hfl)]
  simp only
  rw [Proc.run_bind_of _ (Store.getAndRemoveIssue_run E (h.unlist _ _ _) _)]

end change

end ListManager
end Todo

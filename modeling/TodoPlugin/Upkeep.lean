import TodoPlugin.ListRuns
/-!
# What an operation's writes keep

A property of stores is upheld when every write of the store's functions keeps it, references being appended only to
the lists and writes being about the issues it allows.  An operation run alone returns and leaves such a property, in
any sound store, paired or not.
-/
namespace Todo

open Store (ids without)

/-- **The writes keep `I`**, as long as they are about issues `on` has and append to lists `into` has. -/
structure Upheld (I : World → Prop) (on : String → Prop) (into : String → ListID → Prop) : Prop where
  sound     : ∀ {w}, I w → w.Sound
  unlist    : ∀ {w id}, I w → on id → ∀ u l, I (w.unlist u id l)
  append    : ∀ {w u l ref}, I w → on (IssueRef.issueID ref) → into u l →
    IssueRef.issueID ref ∉ ids (w.list (listKey u l)) → I (w.append u l ref)
  delete    : ∀ {w id}, I w → on id → I (w.delete (issueKey id))
  save      : ∀ {w i}, I w → on (Issue.id i) → Issue.id i ≠ "" → I (w.save i)
  draw      : ∀ {w}, I w → I w.draw

theorem Upheld.dropIssue {I : World → Prop} {on : String → Prop} {into : String → ListID → Prop} {w : World}
    {id : String} (hU : Upheld I on into) (h : I w) (hid : on id) : I (w.dropIssue id) := by
  unfold World.dropIssue
  split
  · exact hU.delete h hid
  · exact h

/-- The procedure returns, and leaves a store with `I`. -/
def Leaves (E : Env) (I : World → Prop) {α : Type} (p : Api α) (w : World) : Prop :=
  ∃ a w', p.run (serve E) w = (some a, w') ∧ I w'

variable {E : Env} {I : World → Prop} {on : String → Prop} {into : String → ListID → Prop} {w : World} {u id : String}

/-! ## The functions of the store -/

namespace Leaves

variable {α β : Type}

theorem ret (h : I w) (a : α) : Leaves E I (pure a : Api α) w := ⟨a, w, rfl, h⟩

/-- A part that runs hands over to what follows it. -/
theorem bind {p : Api α} {f : α → Api β} {a : α} {w' : World} (hrun : p.run (serve E) w = (some a, w'))
    (h : Leaves E I (f a) w') : Leaves E I (p >>= f) w := by
  obtain ⟨c, t, hc, hk⟩ := h
  exact ⟨c, t, by rw [Proc.run_bind_of _ hrun, hc], hk⟩

theorem of_run {p : Api α} {a : α} {w' : World} (h : Leaves E I p w) (hrun : p.run (serve E) w = (some a, w')) :
    I w' := by
  obtain ⟨_, _, hrun', h'⟩ := h
  cases hrun.symm.trans hrun'
  exact h'

theorem removeReference (hU : Upheld I on into) (h : I w) (u : String) (l : ListID)
    {f : Except String Unit → Api β} (hf : ∀ r, Leaves E I (f r) (w.unlist u id l)) :
    Leaves E I (Store.removeReference u id l >>= f) w :=
  .bind (Store.removeReference_run E (hU.sound h).toListed u id l) (hf _)

theorem addReference (hU : Upheld I on into) (h : I w) (hid : on id) {l : ListID} (hl : into u l) (fu fi : String)
    {f : Except String Unit → Api β} (hf : ∀ w', w'.drawn = w.drawn → I w' → Leaves E I (f (.ok ())) w')
    (he : ∀ e, Leaves E I (f (.error e)) w) : Leaves E I (Store.addReference u id l fu fi >>= f) w := by
  by_cases hm : id ∈ ids (w.list (listKey u l))
  · exact .bind (Store.addReference_run_mem E (hU.sound h).toListed fu fi hm) (he _)
  · exact .bind (Store.addReference_run E (hU.sound h).toListed fu fi hm) (hf _ rfl (hU.append h hid hl hm))

theorem getAndRemoveIssue (hU : Upheld I on into) (h : I w) {f : Except String Issue → Api β}
    (hf : Leaves E I (f (w.fetch id)) (w.dropIssue id)) :
    Leaves E I (Store.getAndRemoveIssue id >>= f) w :=
  .bind (Store.getAndRemoveIssue_run E (hU.sound h) id) hf

theorem removeIssue (hU : Upheld I on into) (h : I w) (hid : on id) {f : Except String Unit → Api β}
    (hf : ∀ w', I w' → Leaves E I (f (.ok ())) w') : Leaves E I (Store.removeIssue id >>= f) w :=
  .bind (Store.removeIssue_run E id) (hf _ (hU.delete h hid))

/-- Making a new issue and saving it. -/
theorem saveNew (hU : Upheld I on into) (h : I w) (hnew : on (E.newId w.drawn)) (m p d q : String)
    {f : Issue → Except String Unit → Api β}
    (hf : ∀ w', w'.drawn = w.drawn + 1 → I w' → Leaves E I (f (w.made E m p d q) (.ok ())) w') :
    Leaves E I (newIssue m p d q >>= fun i => Store.saveIssue i >>= f i) w :=
  .bind (newIssue_run E w m p d q) (.bind (Store.saveIssue_run E _)
    (hf _ rfl (hU.save (hU.draw h) hnew (w.made_id_ne E m p d q))))

end Leaves

/-! ## The operations -/

namespace ListManager

theorem addIssue_leaves (hU : Upheld I on into) (h : I w) (hnew : on (E.newId w.drawn)) (hmy : into u .myList)
    (m p d q : String) : Leaves E I (addIssue u m p d q) w := by
  refine .saveNew hU h hnew m p d q fun w₁ _ h₁ => ?_
  refine .addReference hU h₁ hnew hmy _ _ (fun w₂ _ h₂ => .ret h₂ _) fun e => ?_
  exact .removeIssue hU h₁ hnew fun w₂ h₂ => .ret h₂ _

theorem sendIssue_leaves {v : String} (hU : Upheld I on into) (h : I w) (hnew : ∀ n, w.drawn ≤ n → on (E.newId n))
    (hout : into u .outList) (hin : into v .inList) (m p d q : String) : Leaves E I (sendIssue u v m p d q) w := by
  have hi : on (E.newId w.drawn) := hnew _ (Nat.le_refl _)
  refine .saveNew hU h hi m p d q fun w₁ hd₁ h₁ => ?_
  have hj : on (E.newId w₁.drawn) := hnew _ (by rw [hd₁]; exact Nat.le_succ _)
  refine .saveNew hU h₁ hj m p d q fun w₂ _ h₂ => ?_
  refine .addReference hU h₂ hi hout _ _ (fun w₃ _ h₃ => ?_) fun e => ?_
  · refine .addReference hU h₃ hj hin _ _ (fun w₄ _ h₄ => .ret h₄ _) fun e => ?_
    refine .removeIssue hU h₃ hi fun w₄ h₄ => .removeIssue hU h₄ hj fun w₅ h₅ => ?_
    exact .removeReference hU h₅ u .outList fun _ => .ret (hU.unlist h₅ hi u .outList) _
  · exact .removeIssue hU h₂ hi fun w₃ h₃ => .removeIssue hU h₃ hj fun w₄ h₄ => .ret h₄ _

theorem completeIssue_leaves (hU : Upheld I on into) (h : I w) {l : ListID} {r : IssueRef} {n : Nat}
    (hl : w.locate u id = (l, some r, n)) (hid : on id) (hf : on r.foreignIssueID) :
    Leaves E I (completeIssue u id) w := by
  have hd := hU.dropIssue (hU.unlist h hid u l) hid
  by_cases hfu : r.foreignUserID = ""
  · exact ⟨_, _, completeIssue_own E (hU.sound h) hl hfu, hd⟩
  · exact ⟨_, _, completeIssue_shared E (hU.sound h) hl hfu, hU.dropIssue (hU.unlist hd hf _ _) hf⟩

theorem removeIssue_leaves (hU : Upheld I on into) (h : I w) {l : ListID} {r : IssueRef} {n : Nat}
    (hl : w.locate u id = (l, some r, n)) (hid : on id) (hf : on r.foreignIssueID) :
    Leaves E I (removeIssue u id) w := by
  have hd := hU.dropIssue (hU.unlist h hid u l) hid
  by_cases hfu : r.foreignUserID = ""
  · exact ⟨_, _, removeIssue_own E (hU.sound h) hl hfu, hd⟩
  · exact ⟨_, _, removeIssue_shared E (hU.sound h) hl hfu rfl, hU.dropIssue (hU.unlist hd hf _ _) hf⟩

theorem popIssue_leaves (hU : Upheld I on into) (h : I w)
    (hon : ∀ r ∈ (w.list (listKey u .myList)).head?, on r.issueID ∧ on r.foreignIssueID) :
    Leaves E I (popIssue u) w := by
  cases hl : w.list (listKey u .myList) with
  | nil => exact ⟨_, _, popIssue_empty E (hU.sound h) hl, h⟩
  | cons r rest =>
    obtain ⟨hid, hf⟩ := hon r (by rw [hl]; rfl)
    have hd := hU.dropIssue (hU.unlist h hid u .myList) hid
    by_cases hfu : r.foreignUserID = ""
    · exact ⟨_, _, popIssue_own E (hU.sound h) hl hfu, hd⟩
    · exact ⟨_, _, popIssue_shared E (hU.sound h) hl hfu, hU.dropIssue (hU.unlist hd hf _ _) hf⟩

theorem editIssue_leaves (hU : Upheld I on into) (h : I w) (m d : String) {l : ListID} {r : IssueRef} {n : Nat}
    (hl : w.locate u id = (l, some r, n)) (hid : on id) (hf : on r.foreignIssueID) :
    Leaves E I (editIssue u id m d) w := by
  have hs := hU.sound h
  cases hi : w.issue id with
  | none => exact ⟨_, _, editIssue_noIssue E hs m d hi, h⟩
  | some i =>
    have hforeign : I (editForeign w r.foreignIssueID m d) := by
      unfold editForeign
      split
      · split
        · rename_i f hfi
          have hfid : (f.retext m d).id = r.foreignIssueID := hs.issue_id (i := f) hfi
          exact hU.save h (hfid ▸ hf) (hfid ▸ hs.id_ne_empty hfi)
        · exact h
      · exact h
    have hiid : (i.retext m d).id = id := hs.issue_id (i := i) hi
    obtain ⟨old, hrun⟩ := editIssue_run E hs m d hi hl
    exact ⟨_, _, hrun, hU.save hforeign (hiid ▸ hid) (hiid ▸ hs.id_ne_empty hi)⟩

theorem acceptIssue_leaves (hU : Upheld I on into) (h : I w) {r : IssueRef} {n : Nat}
    (hr : w.refOf u id .inList = .ok (r, n)) (hid : on id) (hmy : into u .myList) :
    Leaves E I (acceptIssue u id) w := by
  have hs := hU.sound h
  cases hi : w.issue id with
  | none => exact ⟨_, _, acceptIssue_noIssue E hs hi, h⟩
  | some i =>
    refine .bind (Store.getIssue_run E hs id) ?_
    rw [World.fetch, hi]
    refine .bind (Store.getIssueReference_run E hs.toListed u id .inList) ?_
    rw [hr]
    refine .addReference hU h hid hmy _ _ (fun w₁ _ h₁ => ?_) fun e => .ret h _
    refine .removeReference hU h₁ u .inList fun res => ?_
    have h₂ := hU.unlist h₁ hid u .inList
    cases res with
    | ok _ => exact .ret h₂ _
    | error e => exact .removeReference hU h₂ u .myList fun _ => .ret (hU.unlist h₂ hid u .myList) _

theorem bumpIssue_leaves (hU : Upheld I on into) (h : I w)
    (hperm : ∀ v list, list.Perm (w.list (listKey v .inList)) → I (w.put (listKey v .inList) (.refs list))) :
    Leaves E I (bumpIssue u id) w := by
  have hs := hU.sound h
  cases href : w.refOf u id .outList with
  | error e => exact ⟨_, _, bumpIssue_absent E hs.toListed href, h⟩
  | ok p =>
    rcases bumpIssue_run E hs (r := p.1) (n := p.2) href with ⟨err, hrun⟩ | ⟨newList, hp, hrun⟩
    · exact ⟨_, _, hrun, h⟩
    · exact ⟨_, _, hrun, hperm _ newList hp⟩

theorem assign_leaves {v old : String} {i : Issue} (hU : Upheld I on into) (h : I w) (hid : on id)
    (hnew : on (E.newId w.drawn)) (hout : into u .outList) (hin : into v .inList) :
    Leaves E I (assign id u v old i) w := by
  refine .saveNew hU h hnew _ _ _ _ fun w₁ _ h₁ => ?_
  refine .addReference hU h₁ hid hout _ _ (fun w₂ _ h₂ => ?_) fun e => .ret h₁ _
  exact .addReference hU h₂ hnew hin _ _ (fun w₃ _ h₃ => .ret h₃ _) fun e => .ret h₂ _

theorem reassign_leaves {v : String} {l : ListID} {r : IssueRef} {i : Issue} (hU : Upheld I on into) (h : I w)
    (hid : on id) (hnew : on (E.newId w.drawn)) (hown : ∀ l, l ≠ .inList → into u l)
    (hin : ¬ (u = v ∧ l = .outList) → into v .inList) : Leaves E I (reassign id u v l r i) w := by
  unfold reassign
  split
  · refine .removeReference hU h u .outList fun res => ?_
    have h₁ := hU.unlist h hid u .outList
    cases res with
    | error e => exact .ret h₁ _
    | ok _ => exact .addReference hU h₁ hid (hown _ (by decide)) _ _ (fun w₂ _ h₂ => .ret h₂ _) fun e => .ret h₁ _
  · rename_i hback
    split
    · refine .removeReference hU h u l fun res => ?_
      have h₁ := hU.unlist h hid u l
      cases res with
      | error e => exact .ret h₁ _
      | ok _ => exact assign_leaves hU h₁ hid (by rwa [World.unlist_drawn]) (hown _ (by decide)) (hin hback)
    · exact assign_leaves hU h hid hnew (hown _ (by decide)) (hin hback)

theorem changeAssignment_leaves (hU : Upheld I on into) (h : I w) (v : String) {l : ListID} {r : IssueRef} {n : Nat}
    (hl : w.locate u id = (l, some r, n)) (hid : on id) (hf : on r.foreignIssueID) (hnew : on (E.newId w.drawn))
    (hown : ∀ l, l ≠ .inList → into u l) (hin : ¬ (u = v ∧ l = .outList) → into v .inList) :
    Leaves E I (changeAssignment id u v) w := by
  have hs := hU.sound h
  refine .bind (Store.getIssue_run E hs id) ?_
  cases hi : w.fetch id with
  | error e => exact .ret h _
  | ok i =>
    refine .bind (Store.getIssueListAndReference_run E hs.toListed u id) ?_
    rw [hl]
    simp only
    split
    · exact .ret h _
    · split
      · refine .bind (Store.getIssueListAndReference_run E hs.toListed r.foreignUserID r.foreignIssueID) ?_
        rcases w.locate r.foreignUserID r.foreignIssueID with ⟨fl, fr, fn⟩
        cases fr with
        | none => exact .ret h _
        | some s =>
          refine .removeReference hU h r.foreignUserID fl fun res => ?_
          have h₁ := hU.unlist h hf r.foreignUserID fl
          cases res with
          | error e => exact .ret h₁ _
          | ok _ =>
            refine .getAndRemoveIssue hU h₁ ?_
            exact reassign_leaves hU (hU.dropIssue h₁ hf) hid
              (by rwa [World.dropIssue_drawn, World.unlist_drawn]) hown hin
      · exact reassign_leaves hU h hid hnew hown hin

end ListManager

/-! ## Every operation -/

/-- What an operation returns and leaves, tagged. -/
theorem ListOp.run_tagged {E : Env} {α : Type} {p : Api α} {w w' : World} {a : α} (f : α → ListResult)
    (h : p.run (serve E) w = (some a, w')) : (p >>= fun a => pure (f a)).run (serve E) w = (some (f a), w') := by
  rw [Proc.run_bind_of _ h]
  rfl

/-- The lists an operation may append to. -/
def ListOp.appends : ListOp → List (UserID × ListID)
  | .addIssue u _ _ _ _      => [(u, .myList)]
  | .sendIssue u v _ _ _ _   => [(u, .outList), (v, .inList)]
  | .changeAssignment _ u v  => [(u, .myList), (u, .outList), (v, .inList)]
  | .acceptIssue u _         => [(u, .myList)]
  | _                        => []

/-- **An operation leaves what its writes uphold.** -/
theorem ListOp.leaves (hU : Upheld I (fun _ => True) into) (h : I w) (op : ListOp)
    (hinto : ∀ p ∈ op.appends, into p.1 p.2)
    (hperm : ∀ {w}, I w → ∀ v list, list.Perm (w.list (listKey v .inList)) →
      I (w.put (listKey v .inList) (.refs list))) : Leaves E I op.exec w := by
  have hs := hU.sound h
  have htag : ∀ {α : Type} {p : Api α} (f : α → ListResult), Leaves E I p w →
      Leaves E I (p >>= fun a => pure (f a)) w := by
    rintro α p f ⟨a, w', hrun, hw⟩
    exact ⟨_, w', run_tagged f hrun, hw⟩
  cases op with
  | addIssue u m p d q => exact htag _ (ListManager.addIssue_leaves hU h trivial (hinto (u, _) (by simp [appends])) m p d q)
  | sendIssue u v m p d q =>
    exact htag _ (ListManager.sendIssue_leaves hU h (fun _ _ => trivial) (hinto (u, _) (by simp [appends]))
      (hinto (v, _) (by simp [appends])) m p d q)
  | completeIssue u id =>
    rcases w.locate_cases u id with ⟨l, r, n, hl, -, -⟩ | ⟨hl, -⟩
    · exact htag _ (ListManager.completeIssue_leaves hU h hl trivial trivial)
    · exact htag _ ⟨_, _, ListManager.completeIssue_absent E hs hl, h⟩
  | editIssue u id m d =>
    rcases w.locate_cases u id with ⟨l, r, n, hl, -, -⟩ | ⟨hl, -⟩
    · exact htag _ (ListManager.editIssue_leaves hU h m d hl trivial trivial)
    · obtain ⟨err, hrun⟩ := ListManager.editIssue_absent E hs m d hl
      exact htag _ ⟨_, _, hrun, h⟩
  | changeAssignment id u v =>
    rcases w.locate_cases u id with ⟨l, r, n, hl, -, -⟩ | ⟨hl, -⟩
    · refine htag _ (ListManager.changeAssignment_leaves hU h v hl trivial trivial trivial (fun l hne => ?_)
        fun _ => hinto (v, _) (by simp [appends]))
      cases l with
      | myList => exact hinto (u, _) (by simp [appends])
      | outList => exact hinto (u, _) (by simp [appends])
      | inList => exact absurd rfl hne
    · obtain ⟨err, hrun⟩ := ListManager.changeAssignment_absent E hs v hl
      exact htag _ ⟨_, _, hrun, h⟩
  | acceptIssue u id =>
    cases hr : w.refOf u id .inList with
    | error e =>
      obtain ⟨err, hrun⟩ := ListManager.acceptIssue_absent E hs hr
      exact htag _ ⟨_, _, hrun, h⟩
    | ok p =>
      exact htag _ (ListManager.acceptIssue_leaves (r := p.1) (n := p.2) hU h hr trivial
        (hinto (u, _) (by simp [appends])))
  | removeIssue u id =>
    rcases w.locate_cases u id with ⟨l, r, n, hl, -, -⟩ | ⟨hl, -⟩
    · exact htag _ (ListManager.removeIssue_leaves hU h hl trivial trivial)
    · exact htag _ ⟨_, _, ListManager.removeIssue_absent E hs hl, h⟩
  | popIssue u => exact htag _ (ListManager.popIssue_leaves hU h fun _ _ => ⟨trivial, trivial⟩)
  | bumpIssue u id => exact htag _ (ListManager.bumpIssue_leaves hU h (hperm h))

end Todo

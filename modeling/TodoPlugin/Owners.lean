import TodoPlugin.OptOut
/-!
# Whose an id is

An id in a list was drawn for the user whose list it is, and no other user ever lists it: an operation moves an id it is
given between the lists of the one user who has it, and what it draws goes to one user each (`World.Deals`).  So it is
after every run of inputs (`inputRuns_owned`), also where the board is no longer paired.
-/
namespace Todo

open Store (ids without)

namespace World

/-- The user has the issue in a list. -/
def Has (w : World) (u : UserID) (id : String) : Prop := ∃ l, id ∈ ids (w.list (listKey u l))

/-- **Every id listed has been drawn, and is one user's.** -/
structure Owned (E : Env) (w : World) : Prop where
  sound : w.Sound
  drawn : ∀ u id, w.Has u id → ∃ n, n < w.drawn ∧ id = E.newId n
  one   : ∀ u v id, w.Has u id → w.Has v id → u = v

theorem owned_empty (E : Env) : empty.Owned E where
  sound           := sound_empty
  drawn _ _ h     := by obtain ⟨_, h⟩ := h; cases h
  one _ _ _ h     := by obtain ⟨_, h⟩ := h; cases h

/-- What is drawn next is in no list. -/
theorem Owned.not_has {E : Env} {w : World} (h : w.Owned E) {n : Nat} (hn : w.drawn ≤ n) (u : UserID) (l : ListID) :
    E.newId n ∉ ids (w.list (listKey u l)) := by
  intro hmem
  obtain ⟨m, hm, he⟩ := h.drawn u _ ⟨l, hmem⟩
  have := E.newId_inj _ _ he
  omega

theorem Owned.sameStore {E : Env} {w w' : World} (h : w.Owned E) (hs : SameStore w w') : w'.Owned E := by
  have hhas : ∀ u id, w'.Has u id ↔ w.Has u id := fun u id => by
    unfold Has
    rw [show w'.list = w.list from congrArg Board.list (board_eq_of_kv hs.kv)]
  refine ⟨h.sound.sameStore hs, fun u id hu => ?_, fun u v id hu hv => ?_⟩
  · rw [hs.drawn]
    exact h.drawn u id ((hhas u id).1 hu)
  · exact h.one u v id ((hhas u id).1 hu) ((hhas v id).1 hv)

theorem Owned.put_setting {E : Env} {w : World} (h : w.Owned E) {key : String} (hk : SettingKey key) (value : Value) :
    (w.put key value).Owned E := by
  have hhas : ∀ u id, (w.put key value).Has u id ↔ w.Has u id := fun u id => by
    unfold Has
    simp only [list_put_setting hk]
  exact ⟨h.sound.put_setting hk value, fun u id hu => h.drawn u id ((hhas u id).1 hu),
    fun u v id hu hv => h.one u v id ((hhas u id).1 hu) ((hhas v id).1 hv)⟩

/-- From `w₀` to `w` a user has got no id but what was drawn for them, the `n`-th for `dealt n`. -/
structure Deals (E : Env) (dealt : Nat → UserID) (w₀ w : World) : Prop where
  sound : w.Sound
  drawn : w₀.drawn ≤ w.drawn
  has   : ∀ u id, w.Has u id → w₀.Has u id ∨ ∃ n, w₀.drawn ≤ n ∧ n < w.drawn ∧ id = E.newId n ∧ u = dealt n

section deals
variable {E : Env} {dealt : Nat → UserID} {w₀ w : World}

theorem Deals.refl (h : w.Sound) : Deals E dealt w w := ⟨h, Nat.le_refl _, fun _ _ hu => .inl hu⟩

/-- A step that lists nothing new. -/
theorem Deals.of_list (h : Deals E dealt w₀ w) {w' : World} (hs : w'.Sound) (hd : w.drawn ≤ w'.drawn)
    (hl : ∀ (u : UserID) l, w'.list (listKey u l) ⊆ w.list (listKey u l)) : Deals E dealt w₀ w' := by
  refine ⟨hs, Nat.le_trans h.drawn hd, fun u id hu => ?_⟩
  obtain ⟨l, hid⟩ := hu
  rcases h.has u id ⟨l, List.map_subset _ (hl u l) hid⟩ with hold | ⟨n, hn, hn', hid, hu⟩
  · exact .inl hold
  · exact .inr ⟨n, hn, Nat.lt_of_lt_of_le hn' hd, hid, hu⟩

theorem Deals.draw (h : Deals E dealt w₀ w) : Deals E dealt w₀ w.draw :=
  h.of_list h.sound.draw (Nat.le_succ _) fun _ _ _ hr => hr

theorem Deals.save (h : Deals E dealt w₀ w) {i : Issue} (hne : i.id ≠ "") : Deals E dealt w₀ (w.save i) :=
  h.of_list (h.sound.save hne) (Nat.le_refl _) fun u l r hr => by rwa [h.sound.list_save] at hr

theorem Deals.append (h : Deals E dealt w₀ w) {u : UserID} {l : ListID} {ref : IssueRef}
    (hnew : ref.issueID ∉ ids (w.list (listKey u l)))
    (hhas : w₀.Has u ref.issueID ∨ ∃ n, w₀.drawn ≤ n ∧ n < w.drawn ∧ ref.issueID = E.newId n ∧ u = dealt n) :
    Deals E dealt w₀ (w.append u l ref) := by
  refine ⟨h.sound.append hnew, h.drawn, fun v id hv => ?_⟩
  obtain ⟨m, hid⟩ := hv
  rw [list_append] at hid
  split at hid
  · rename_i hkey
    obtain ⟨rfl, rfl⟩ := listKey_inj.1 hkey
    rw [ids, List.map_append, List.mem_append] at hid
    rcases hid with hid | hid
    · exact h.has v id ⟨m, hid⟩
    · rw [List.mem_singleton.1 hid]
      exact hhas
  · exact h.has v id ⟨m, hid⟩

/-- Writes that append only what its user has keep to the deal. -/
theorem deals_upheld (E : Env) (dealt : Nat → UserID) (w₀ : World) {on : String → Prop} {into : String → ListID → Prop}
    (hinto : ∀ u l id, into u l → on id → ∃ v : UserID, u = v ∧ w₀.Has v id) :
    Upheld (Deals E dealt w₀) on into where
  sound h := h.sound
  unlist h _ u l := h.of_list (h.sound.unlist u _ l) (Nat.le_of_eq (unlist_drawn ..).symm) fun v m r hr => by
    rw [list_unlist] at hr
    split at hr
    · rename_i hkey
      rw [hkey]
      exact (List.mem_filter.1 hr).1
    · exact hr
  append h hid hl hnew := by
    obtain ⟨v, rfl, hv⟩ := hinto _ _ _ hl hid
    exact h.append hnew (.inl hv)
  delete h _ := h.of_list (h.sound.delete_issue _) (Nat.le_refl _) fun u l r hr => by
    rwa [list, delete_kv_of_ne _ (listKey_ne_issueKey u l _)] at hr
  save h _ hne := h.save hne
  draw h := h.draw

end deals

/-- **A deal keeps ids one user's each.** -/
theorem Owned.of_deals {E : Env} {dealt : Nat → UserID} {w w' : World} (h : w.Owned E) (hd : Deals E dealt w w') :
    w'.Owned E := by
  have hnew : ∀ {u v id}, w.Has u id → w.drawn ≤ v → id ≠ E.newId v := by
    rintro u v id hu hv rfl
    obtain ⟨l, hl⟩ := hu
    exact h.not_has hv u l hl
  refine ⟨hd.sound, fun u id hu => ?_, fun u v id hu hv => ?_⟩
  · rcases hd.has u id hu with hold | ⟨n, -, hn, hid, -⟩
    · obtain ⟨n, hn, hid⟩ := h.drawn u id hold
      exact ⟨n, Nat.lt_of_lt_of_le hn hd.drawn, hid⟩
    · exact ⟨n, hn, hid⟩
  · rcases hd.has u id hu with hu | ⟨n, hn, -, hidu, rfl⟩
    · rcases hd.has v id hv with hv | ⟨m, hm, -, hidv, -⟩
      · exact h.one u v id hu hv
      · exact absurd hidv (hnew hu hm)
    · rcases hd.has v id hv with hv | ⟨m, -, -, hidv, rfl⟩
      · exact absurd hidu (hnew hv hn)
      · rw [E.newId_inj n m (hidu.symm.trans hidv)]

end World

/-! ## The operations deal -/

section operations
variable {E : Env} {w : World} {u v : UserID} {id : String}

/-- Adding a reference, or failing to. -/
theorem Leaves.addReference_of {I : World → Prop} {β : Type} {s : String} {l : ListID} {fu fi : String}
    {f : Except String Unit → Api β} (h : w.Sound)
    (hf : id ∉ ids (w.list (listKey s l)) → Leaves E I (f (.ok ())) (w.append s l ⟨id, fi, fu⟩))
    (he : ∀ e, Leaves E I (f (.error e)) w) : Leaves E I (Store.addReference s id l fu fi >>= f) w := by
  by_cases hm : id ∈ ids (w.list (listKey s l))
  · exact .bind (Store.addReference_run_mem E h.toListed fu fi hm) (he _)
  · exact .bind (Store.addReference_run E h.toListed fu fi hm) (hf hm)

namespace ListManager

theorem addIssue_deals (h : w.Owned E) (m p d q : String) :
    Leaves E (World.Deals E (fun _ => u) w) (addIssue u m p d q) w := by
  refine ⟨_, _, addIssue_run E h.sound u m p d q (h.not_has (Nat.le_refl _) u .myList), ?_⟩
  have hd₀ : World.Deals E (fun _ => u) w w := .refl h.sound
  have hd := hd₀.draw.save (w.made_id_ne E m p d q)
  refine hd.append ?_ (.inr ⟨w.drawn, Nat.le_refl _, by simp, rfl, rfl⟩)
  rw [h.sound.draw.list_save]
  exact h.not_has (Nat.le_refl _) u .myList

/-- The sender's id is the first drawn, the receiver's the second. -/
theorem sendIssue_deals (h : w.Owned E) (m p d q : String) :
    Leaves E (World.Deals E (fun n => if n = w.drawn then u else v) w) (sendIssue u v m p d q) w := by
  have hkey : listKey v .inList ≠ listKey u .outList := listKey_ne (by decide)
  have hout := h.not_has (Nat.le_refl _) u .outList
  have hin := h.not_has (Nat.le_succ _) v .inList
  refine ⟨_, _, sendIssue_run E h.sound u v m p d q hout hin hkey, ?_⟩
  have hs₁ := h.sound.draw.save (w.made_id_ne E m p d q)
  have hd₀ : World.Deals E (fun n => if n = w.drawn then u else v) w w := .refl h.sound
  have hd := (hd₀.draw.save (w.made_id_ne E m p d q)).draw.save (World.made_id_ne E w.draw m p d q)
  have hlist : ((w.draw.save (w.made E m p d q)).draw.save (w.draw.made E m p d q)).list = w.list := by
    rw [hs₁.draw.list_save, World.list_draw, h.sound.draw.list_save, World.list_draw]
  have hd₁ : World.Deals E (fun n => if n = w.drawn then u else v) w
      (((w.draw.save (w.made E m p d q)).draw.save (w.draw.made E m p d q)).append u .outList
        ⟨(w.made E m p d q).id, (w.draw.made E m p d q).id, v⟩) :=
    hd.append (by rw [hlist]; exact hout) (.inr ⟨w.drawn, Nat.le_refl _,
      by simp only [World.save_drawn, World.drawn_draw]; omega, rfl, by simp⟩)
  refine hd₁.append ?_ (.inr ⟨w.drawn + 1, Nat.le_succ _, by simp, rfl, by simp⟩)
  rw [World.list_append, if_neg hkey, hlist]
  exact hin

/-- The copy an assignment makes is the receiver's. -/
theorem assign_deals {w₀ : World} (hd : World.Deals E (fun _ => v) w₀ w) (hu : w₀.Has u id) (old : String) (i : Issue) :
    Leaves E (World.Deals E (fun _ => v) w₀) (assign id u v old i) w := by
  have hd₁ := hd.draw.save (w.made_id_ne E i.message i.postPermalink i.description i.postID)
  have hdrawn := hd.drawn
  refine .bind (newIssue_run E w _ _ _ _) (.bind (Store.saveIssue_run E _) ?_)
  refine .addReference_of hd₁.sound (fun hout => ?_) fun e => .ret hd₁ _
  have hd₂ : World.Deals E (fun _ => v) w₀ (World.append _ u .outList ⟨id, E.newId w.drawn, v⟩) :=
    hd₁.append hout (.inl hu)
  refine .addReference_of hd₂.sound (fun hin => .ret ?_ _) fun e => .ret hd₂ _
  exact hd₂.append hin (.inr ⟨w.drawn, hdrawn, by simp, rfl, rfl⟩)

theorem reassign_deals {w₀ : World} (hd : World.Deals E (fun _ => v) w₀ w) (hu : w₀.Has u id) (l : ListID)
    (r : IssueRef) (i : Issue) : Leaves E (World.Deals E (fun _ => v) w₀) (reassign id u v l r i) w := by
  have hU : Upheld (World.Deals E (fun _ => v) w₀) (fun _ => True) (fun _ _ => False) :=
    World.deals_upheld E _ w₀ fun _ _ _ h => h.elim
  unfold reassign
  split
  · refine .bind (Store.removeReference_run E hd.sound.toListed u id .outList) ?_
    have hd₁ : World.Deals E (fun _ => v) w₀ (w.unlist u id .outList) := hU.unlist hd trivial u .outList
    split
    · exact .ret hd₁ _
    · exact .addReference_of hd₁.sound (fun hmy => .ret (hd₁.append hmy (.inl hu)) _) fun e => .ret hd₁ _
  · split
    · refine .bind (Store.removeReference_run E hd.sound.toListed u id l) ?_
      have hd₁ : World.Deals E (fun _ => v) w₀ (w.unlist u id l) := hU.unlist hd trivial u l
      split
      · exact .ret hd₁ _
      · exact assign_deals hd₁ hu _ i
    · exact assign_deals hd hu _ i

theorem changeAssignment_deals (h : w.Sound) :
    Leaves E (World.Deals E (fun _ => v) w) (changeAssignment id u v) w := by
  have hU : Upheld (World.Deals E (fun _ => v) w) (fun _ => True) (fun _ _ => False) :=
    World.deals_upheld E _ w fun _ _ _ h => h.elim
  have hd : World.Deals E (fun _ => v) w w := .refl h
  refine .bind (Store.getIssue_run E h id) ?_
  cases w.fetch id with
  | error e => exact .ret hd _
  | ok i =>
    refine .bind (Store.getIssueListAndReference_run E h.toListed u id) ?_
    rcases w.locate_cases u id with ⟨l, r, n, hl, hr, he⟩ | ⟨hl, -⟩
    · have hu : w.Has u id := ⟨l, List.mem_map.2 ⟨r, hr, he⟩⟩
      rw [hl]
      simp only
      split
      · exact .ret hd _
      · split
        · refine .bind (Store.getIssueListAndReference_run E h.toListed r.foreignUserID r.foreignIssueID) ?_
          rcases w.locate r.foreignUserID r.foreignIssueID with ⟨fl, _ | fr, fn⟩
          · exact .ret hd _
          · refine .removeReference hU hd r.foreignUserID fl fun res => ?_
            have hd₁ : World.Deals E (fun _ => v) w (w.unlist r.foreignUserID r.foreignIssueID fl) :=
              hU.unlist hd trivial r.foreignUserID fl
            cases res with
            | error e => exact .ret hd₁ _
            | ok _ => exact .getAndRemoveIssue hU hd₁ (reassign_deals (hU.dropIssue hd₁ trivial) hu l r i)
        · exact reassign_deals hd hu l r i
    · rw [hl]
      exact .ret hd _

end ListManager

/-- **Every operation deals.** -/
theorem ListOp.deals (h : w.Owned E) (op : ListOp) : ∃ dealt, World.Deals E dealt w (op.after E w) := by
  have htag : ∀ {α : Type} {dealt : Nat → UserID} {p : Api α} {f : α → ListResult},
      op.exec = p >>= (fun a => pure (f a)) → Leaves E (World.Deals E dealt w) p w →
      World.Deals E dealt w (op.after E w) := by
    rintro α dealt p f he ⟨a, w', hrun, hd⟩
    rw [after, he, run_tagged f hrun]
    exact hd
  have hnone : ∀ u : UserID, op.appends = [] → World.Deals E (fun _ => u) w (op.after E w) := by
    intro u hnil
    have hU : Upheld (World.Deals E (fun _ => u) w) (fun _ => True) (fun _ _ => False) :=
      World.deals_upheld E _ w fun _ _ _ h => h.elim
    have hperm : ∀ {t : World}, World.Deals E (fun _ => u) w t → ∀ s list, list.Perm (t.list (listKey s .inList)) →
        World.Deals E (fun _ => u) w (t.put (listKey s .inList) (.refs list)) := by
      intro t ht s list hp
      refine ht.of_list (ht.sound.put_list _ _ ((hp.map _).nodup_iff.2 (ht.sound.distinct _ _))) (Nat.le_refl _) ?_
      intro v m r hr
      rw [← World.board_list, World.board_put_list, Board.setList_list] at hr
      split at hr
      · rename_i hkey
        rw [hkey]
        exact hp.subset hr
      · exact hr
    obtain ⟨a, w', hrun, hd⟩ := ListOp.leaves hU (.refl h.sound) op (by rw [hnil]; simp) hperm
    rw [after, hrun]
    exact hd
  cases op with
  | addIssue u m p d q => exact ⟨_, htag rfl (ListManager.addIssue_deals h m p d q)⟩
  | sendIssue u v m p d q => exact ⟨_, htag rfl (ListManager.sendIssue_deals h m p d q)⟩
  | changeAssignment id u v => exact ⟨_, htag rfl (ListManager.changeAssignment_deals h.sound)⟩
  | acceptIssue u id =>
    refine ⟨fun _ => u, htag rfl ?_⟩
    cases hr : w.refOf u id .inList with
    | error e =>
      obtain ⟨err, hrun⟩ := ListManager.acceptIssue_absent E h.sound hr
      exact ⟨_, _, hrun, .refl h.sound⟩
    | ok p =>
      obtain ⟨hmem, he⟩ := World.refOf_ok (r := p.1) (n := p.2) hr
      have hu : w.Has u id := ⟨.inList, List.mem_map.2 ⟨p.1, hmem, he⟩⟩
      have hU : Upheld (World.Deals E (fun _ => u) w) (fun k => k = id) (fun s _ => s = u.val) := by
        refine World.deals_upheld E _ w ?_
        rintro _ l _ rfl rfl
        exact ⟨u, rfl, hu⟩
      exact ListManager.acceptIssue_leaves (r := p.1) (n := p.2) hU (.refl h.sound) hr rfl rfl
  | completeIssue u id | editIssue u id | removeIssue u id | popIssue u | bumpIssue u id => exact ⟨_, hnone u rfl⟩

/-- **Every input keeps ids one user's each.** -/
theorem Input.owned (h : w.Owned E) (e : Input) : (e.after E w).Owned E := by
  obtain ⟨w₁, hstep, hsame⟩ := e.exec_step E w
  refine World.Owned.sameStore ?_ hsame
  cases hstep with
  | op o ho =>
    obtain ⟨dealt, hd⟩ := o.deals h
    exact h.of_deals hd
  | setting key b hs => exact h.put_setting (Input.setting_key hs) _
  | reminded u => exact h.put_setting (.reminder u) _
  | idle ho hs => exact h

/-- **After every run of inputs** an id in a list is one user's, and no id still to be drawn is in one. -/
theorem inputRuns_owned (E : Env) {tr : List (Input × Option Reply)} {w : World}
    (h : InputRuns E (fun _ _ => True) World.empty tr w) : w.Owned E :=
  h.keep (I := World.Owned E) (fun _ e hs _ => Input.owned hs e) (World.owned_empty E)

end operations
end Todo

import TodoPlugin.Traffic
import TodoPlugin.Handling
/-!
# Everything that comes in keeps the cards

The operations of the list manager and then the handlers of requests and commands, each by the rules for the parts it is
made of.
-/
namespace Todo
namespace Keeps

variable {ι : Type} {E : Env} {i : ι} {g : BookState E ι} {u v : UserID} {id : String}

/-! ## The operations -/

theorem addIssue {message postPermalink description postID : String} :
    Keeps E i (ListManager.addIssue u message postPermalink description postID) g := by
  unfold ListManager.addIssue
  apply newIssue
  intro g₁ j _ hheld hnone _ _
  apply saveNew (c := ⟨u, none, j.postPermalink, j.createAt, j.postID⟩) hheld hnone ⟨rfl, rfl, rfl⟩ nofun
  rintro g₂ (err | _) - hc -
  · exact ret _
  · apply addReference (l := .myList) nofun (.inl ⟨⟨_, hc, rfl, rfl⟩, rfl, rfl⟩)
    rintro g₃ (err | _) -
    · exact removeIssue fun _ _ _ => ret _
    · exact ret _

theorem sendIssue {message postPermalink description postID : String} :
    Keeps E i (ListManager.sendIssue u v message postPermalink description postID) g := by
  unfold ListManager.sendIssue
  apply newIssue
  intro g₁ x _ hheldx hnonex hpx hqx
  apply saveNew (c := ⟨u, none, x.postPermalink, x.createAt, x.postID⟩) hheldx hnonex ⟨rfl, rfl, rfl⟩ nofun
  rintro g₂ (err | _) - hx -
  · exact ret _
  apply newIssue
  intro g₃ y hr₃ hheldy hnoney hpy hqy
  have hx₃ := hr₃.grow _ _ hx
  apply saveNew (c := ⟨v, some (x.id, u), y.postPermalink, y.createAt, y.postID⟩) hheldy hnoney ⟨rfl, rfl, rfl⟩
  · rintro _ _ ⟨⟩
    exact ⟨_, hx₃, rfl, rfl, hpx.trans hpy.symm, hqx.trans hqy.symm⟩
  rintro g₄ (err | _) hgrow hy hheld
  · exact removeIssue fun _ _ _ => ret _
  have hx₄ := hgrow _ _ hx₃
  apply addReference (l := .outList) nofun ⟨⟨_, hx₄, rfl, rfl⟩, _, v, hy, rfl, rfl, rfl⟩
  rintro g₅ (err | _) hr₅
  · exact removeIssue fun _ _ _ => removeIssue fun _ _ _ => ret _
  apply addReceived ⟨_, u, hr₅.grow _ _ hy, rfl, rfl, rfl⟩ (hr₅.held _ hheld).1
  rintro g₆ (err | _) -
  · exact removeIssue fun _ _ _ => removeIssue fun _ _ _ => removeReference fun _ _ _ => ret _
  · exact ret _

theorem completeIssue : Keeps E i (ListManager.completeIssue u id) g := by
  unfold ListManager.completeIssue
  apply getIssueListAndReference
  rintro g₁ l (_ | r) n - -
  · exact ret _
  · apply removeReference
    rintro g₂ (err | _) -
    · exact ret _
    · apply getAndRemoveIssue
      intro g₃ issue _
      split
      · exact ret _
      · exact removeReference fun _ _ _ => getAndRemoveIssue fun _ _ _ => ret _

theorem removed : Keeps E i (ListManager.removeIssue u id) g := by
  unfold ListManager.removeIssue
  apply getIssueListAndReference
  rintro g₁ l (_ | r) n - -
  · exact ret _
  · apply removeReference
    rintro g₂ (err | _) -
    · exact ret _
    · apply getAndRemoveIssue
      intro g₃ issue _
      simp only
      split
      · exact ret _
      · refine aside (X := False) (.mono (fun _ => .inl) (fun h => h) (quiet_of_reads (Store.reads_getIssueListAndReference ..))) ?_
        intro found g₄ _
        exact removeReference fun _ _ _ => getAndRemoveIssue fun _ _ _ => ret _

theorem popIssue : Keeps E i (ListManager.popIssue u) g := by
  unfold ListManager.popIssue
  apply popReference
  rintro g₁ (err | r) -
  · exact ret _
  · apply getAndRemoveIssue
    intro g₂ issue _
    split
    · exact ret _
    · exact removeReference fun _ _ _ => getAndRemoveIssue fun _ _ _ => ret _

theorem bumpIssue : Keeps E i (ListManager.bumpIssue u id) g := by
  unfold ListManager.bumpIssue
  apply getIssueReference
  rintro g₁ (err | ⟨r, n⟩) - -
  · exact ret _
  · apply bumpReference
    rintro g₂ (err | _) -
    · exact ret _
    · apply getIssue
      rintro g₃ (err | j) - -
      · exact ret _
      · exact ret _

theorem acceptIssue : Keeps E i (ListManager.acceptIssue u id) g := by
  unfold ListManager.acceptIssue
  apply getIssue
  rintro g₁ (err | j) - -
  · exact ret _
  apply getIssueReference
  rintro g₂ (err | ⟨r, n⟩) - hfound
  · exact ret _
  obtain ⟨rfl, hr⟩ := hfound r n rfl
  apply addReference (l := .myList) nofun (.inr hr)
  rintro g₃ (err | _) -
  · exact ret _
  apply removeReference
  rintro g₄ (err | _) -
  · exact removeReference fun _ _ _ => ret _
  · exact ret _

/-- An edit keeps the parts a card has. -/
theorem saveEdited {α : Type} {j : Issue} {c : Card} {newMessage newDescription : String} (hc : g.1.cards j.id = some c)
    (hf : c.Fits j) {f : Except String Unit → Api α} (h : ∀ g' res, Book.Rely i g.1 g'.1 → Keeps E i (f res) g') :
    Keeps E i (Store.saveIssue { j with message := newMessage, description := newDescription } >>= f) g :=
  saveIssue (j := { j with message := newMessage, description := newDescription }) hc
    ⟨hf.postPermalink, hf.createAt, hf.postID⟩ h

theorem editIssue {newMessage newDescription : String} :
    Keeps E i (ListManager.editIssue u id newMessage newDescription) g := by
  unfold ListManager.editIssue
  apply getIssue
  rintro g₁ (err | j) - hj
  · exact ret _
  obtain ⟨rfl, c, hc, hf⟩ := hj j rfl
  apply getIssueListAndReference
  rintro g₂ l (_ | r) n hr₂ -
  · exact ret _
  have hc₂ := hr₂.grow _ _ hc
  -- the foreign copy is saved, if there is one that is found
  have hrest : ∀ (g' : BookState E ι) oldMessage, Book.Rely i g₂.1 g'.1 → Keeps E i (do
      match ← Store.saveIssue { j with message := newMessage, description := newDescription } with
      | .error err => return ⟨"", .myList, "", some err⟩
      | .ok _ => return ⟨r.foreignUserID, l, oldMessage, none⟩ : Api EditResult) g' := by
    intro g' oldMessage hr
    apply saveEdited (hr.grow _ _ hc₂) hf
    rintro g₃ (err | _) -
    · exact ret _
    · exact ret _
  simp only
  split
  · apply getIssue
    rintro g₃ (err | k) hr₃ hk
    · exact hrest g₃ _ hr₃
    · obtain ⟨hid, d, hd, hfd⟩ := hk k rfl
      apply saveEdited (by rw [hid, hd]) hfd
      intro g₄ res hr₄
      exact hrest g₄ _ (hr₃.trans hr₄)
  · exact hrest g₂ _ (.refl _ _)

/-- The end of an assignment of a todo of `u`'s own. -/
theorem assign {j : Issue} {c : Card} (hc : g.1.cards j.id = some c) (hu : c.owner = u) (hs : c.source = none)
    (hf : c.Fits j) {oldOwner : String} : Keeps E i (ListManager.assign j.id u v oldOwner j) g := by
  unfold ListManager.assign
  apply newIssue
  intro g₁ y hr₁ hheldy hnoney hpy hqy
  have hc₁ := hr₁.grow _ _ hc
  apply saveNew (c := ⟨v, some (j.id, u), y.postPermalink, y.createAt, y.postID⟩) hheldy hnoney ⟨rfl, rfl, rfl⟩
  · rintro _ _ ⟨⟩
    exact ⟨c, hc₁, hu, hs, hf.postPermalink.symm.trans hpy.symm, hf.postID.symm.trans hqy.symm⟩
  rintro g₂ (err | _) hgrow hy hheld
  · exact ret _
  apply addReference (l := .outList) nofun ⟨⟨c, hgrow _ _ hc₁, hu, hs⟩, _, v, hy, rfl, rfl, rfl⟩
  rintro g₃ (err | _) hr₃
  · exact ret _
  apply addReceived ⟨_, u, hr₃.grow _ _ hy, rfl, rfl, rfl⟩ (hr₃.held _ hheld).1
  rintro g₄ (err | _) -
  · exact ret _
  · exact ret _

theorem reassign {j : Issue} {c : Card} (hc : g.1.cards j.id = some c) (hu : c.owner = u) (hs : c.source = none)
    (hf : c.Fits j) {l : ListID} {r : IssueRef} : Keeps E i (ListManager.reassign j.id u v l r j) g := by
  unfold ListManager.reassign
  split
  · apply removeReference
    rintro g₁ (err | _) hr₁
    · exact ret _
    apply addReference (l := .myList) nofun (.inl ⟨⟨c, hr₁.grow _ _ hc, hu, hs⟩, rfl, rfl⟩)
    rintro g₂ (err | _) -
    · exact ret _
    · exact ret _
  · split
    · apply removeReference
      rintro g₁ (err | _) hr₁
      · exact ret _
      · exact assign (hr₁.grow _ _ hc) hu hs hf
    · exact assign hc hu hs hf

/-- **Only a todo of the user's own is assigned**: a copy in an owned list refers to what it is a copy of. -/
theorem own_of_assignable {r : IssueRef} {l : ListID} (hr : g.1.cards.Lists u l r)
    (hl : ¬ (l = .inList ∨ (r.foreignIssueID ≠ "" ∧ l = .myList))) :
    ∃ c, g.1.cards r.issueID = some c ∧ c.owner = u ∧ c.source = none := by
  cases l with
  | inList => exact absurd (.inl rfl) hl
  | outList => exact hr.card
  | myList =>
    rcases hr with hown | ⟨c, w, hc, -, hs, -⟩
    · exact hown.card
    · obtain ⟨d, hd, -⟩ := g.2.source _ c _ _ hc hs
      exact absurd (.inr ⟨g.2.ne_empty hd, rfl⟩) hl

theorem changeAssignment : Keeps E i (ListManager.changeAssignment id u v) g := by
  unfold ListManager.changeAssignment
  apply getIssue
  rintro g₁ (err | j) - hj
  · exact ret _
  obtain ⟨rfl, c, hc, hf⟩ := hj j rfl
  apply getIssueListAndReference
  rintro g₂ l (_ | r) n hr₂ hfound
  · exact ret _
  obtain ⟨hid, hlists⟩ := hfound r rfl
  simp only
  split
  · exact ret _
  · rename_i hl
    obtain ⟨d, hd, hu, hs⟩ := own_of_assignable hlists hl
    rw [hid, hr₂.grow _ _ hc] at hd
    cases hd
    have hc₂ := hr₂.grow _ _ hc
    split
    · refine aside (X := False) (.mono (fun _ => .inl) (fun h => h)
        (quiet_of_reads (Store.reads_getIssueListAndReference ..))) ?_
      rintro ⟨fl, _ | fr, m⟩ g₃ hr₃
      · exact ret _
      apply removeReference
      rintro g₄ (err | _) hr₄
      · exact ret _
      apply getAndRemoveIssue
      intro g₅ _ hr₅
      exact reassign ((hr₃.trans (hr₄.trans hr₅)).grow _ _ hc₂) hu hs hf
    · exact reassign hc₂ hu hs hf

theorem listOp (o : ListOp) : Keeps E i o.exec g := by
  have hret : ∀ {α : Type} {p : Api α} (c : α → ListResult), Keeps E i p g → Keeps E i (p >>= fun a => pure (c a)) g :=
    fun c hp => hp.then_aside (X := False) fun _ => trivial
  cases o with
  | addIssue => exact hret _ addIssue
  | sendIssue => exact hret _ sendIssue
  | completeIssue => exact hret _ completeIssue
  | editIssue => exact hret _ editIssue
  | changeAssignment => exact hret _ changeAssignment
  | acceptIssue => exact hret _ acceptIssue
  | removeIssue => exact hret _ removed
  | popIssue => exact hret _ popIssue
  | bumpIssue => exact hret _ bumpIssue

/-! ## The handlers -/

theorem aside_of_beside {c : Call} (h : c.Beside u) : c.Aside := by
  rcases h with h | ⟨key, text, hk, rfl⟩
  · exact .inl h
  · rcases hk with rfl | rfl | rfl
    · exact .inr ⟨_, _, .reminder u, rfl⟩
    · exact .inr ⟨_, _, .reminderEnabled u, rfl⟩
    · exact .inr ⟨_, _, .allowIncomingTaskRequests u, rfl⟩

/-- **What makes one operation, and is beside the lists otherwise, keeps the cards.** -/
theorem handles {α : Type} {p : Api α} (h : Handles u p) : ∀ g : BookState E ι, Keeps E i p g := by
  induction h with
  | beside h => exact fun g => of_aside (h.mono (fun _ => aside_of_beside) fun h => h)
  | part h _ ih => exact fun g => aside (h.mono (fun _ => aside_of_beside) fun h => h) fun a g' _ => ih a g'
  | op o c _ ho hf =>
    intro g
    have hop := listOp (i := i) (g := g) o
    rw [ho] at hop
    exact then_aside hop.of_map fun a => (hf a).mono (fun _ => aside_of_beside) fun h => h

/-- **Every request and command keeps the cards.** -/
theorem input (e : Input) : Keeps E i e.exec g := by
  cases e with
  | http userID request =>
    refine then_aside (X := False) (.recover _ (?_ : Keeps E i _ g)) fun _ => trivial
    cases userID with
    | none => exact ret _
    | some u =>
      rw [checkAuth, userHeader, if_neg u.val_ne_empty]
      exact handles request.handler_handles g
  | command u ch text => exact then_aside (X := False) (handles (executeCommand_handles ch text) g) fun _ => trivial

end Keeps
end Todo

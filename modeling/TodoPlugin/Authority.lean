import TodoPlugin.Listing
import TodoPlugin.Handling
/-!
# Who touches what

Whatever requests and commands run at once and whichever of their calls fail, one that comes from a user writes the
records and the lists of no todo but those it has drawn itself and those it has found in a list of that user's, with their
other side; and it puts no list in another order but its user's own, and the In list of somebody they have sent a todo.
-/
namespace Todo

open Store (ids without Edit)
open Proc (Along Only)

/-! ## What a request has in hand -/

/-- The list was answered to be this, in the history. -/
def ListRead (s : String) (k : ListID) (l : History) (list : List IssueRef) : Prop :=
  ∃ value, ⟨.kvGet (listKey s k), .ok value⟩ ∈ l ∧ decodeList value = some list

/-- The reference was found in the list. -/
def FoundIn (s : String) (k : ListID) (l : History) (r : IssueRef) : Prop := ∃ list, ListRead s k l list ∧ r ∈ list

/-- **What a request of `u`'s has in hand**: a todo drawn, one found in a list of `u`'s, or the other side of one found;
and what the record of one says it is. -/
inductive InHand (u : UserID) (l : History) : String → Prop
  | drawn {x : String} (h : ⟨.newId, x⟩ ∈ l) : InHand u l x
  | found {k : ListID} {r : IssueRef} (h : FoundIn u k l r) : InHand u l r.issueID
  | other {k : ListID} {r : IssueRef} (h : FoundIn u k l r) : InHand u l r.foreignIssueID
  | record {id : String} {i : Issue} (hid : InHand u l id)
      (h : ⟨.kvGet (issueKey id), .ok (some (.issue i))⟩ ∈ l) : InHand u l i.id

/-- **What becomes of a list**: it changes at a todo in hand, or it is an In list of somebody `u` has sent a todo, and
changes its order. -/
inductive ListChange (u : UserID) (l : History) (s : String) (k : ListID) (list newList : List IssueRef) : Prop
  | todo (x : String) (hx : InHand u l x) (h : (ids list).Nodup → without x newList = without x list) :
      ListChange u l s k list newList
  | order (r : IssueRef) (hr : FoundIn u .outList l r) (hs : s = r.foreignUserID) (hk : k = .inList)
      (h : newList.Perm list) : ListChange u l s k list newList

/-- **What a request of `u`'s may write** after the history. -/
def Permits (u : UserID) (l : History) : Call → Prop
  | .kvSet key _                 => SettingKeyOf u key ∨ ∃ x, InHand u l x ∧ key = issueKey x
  | .kvDelete key                => ∃ x, InHand u l x ∧ key = issueKey x
  | .kvCompareAndSet key old new => ∃ s k list newList, key = listKey s k ∧ decodeList old = some list ∧
    new = .refs newList ∧ ListChange u l s k list newList
  | _                            => True

section history
variable {u : UserID} {s id : String} {k : ListID} {l l' : History} {r : IssueRef} {α β : Type} {X : Prop}

theorem FoundIn.mono (h : FoundIn s k l r) (hl : l <+: l') : FoundIn s k l' r := by
  obtain ⟨list, ⟨value, hm, hd⟩, hr⟩ := h
  exact ⟨list, ⟨value, hl.subset hm, hd⟩, hr⟩

theorem InHand.mono {x : String} (h : InHand u l x) (hl : l <+: l') : InHand u l' x := by
  induction h with
  | drawn h => exact .drawn (hl.subset h)
  | found h => exact .found (h.mono hl)
  | other h => exact .other (h.mono hl)
  | record _ h ih => exact .record ih (hl.subset h)

/-- What is beside the lists of `u`'s requests it may write. -/
theorem Call.Beside.permits {c : Call} (h : c.Beside u) (l : History) : Permits u l c := by
  rcases h with h | ⟨key, text, hkey, rfl⟩
  · cases c with
    | kvSet | kvDelete | kvCompareAndSet => exact h.elim
    | _ => trivial
  · exact .inl hkey

/-! ## Parts of a request -/

/-- **The part writes what a request of `u`'s may write**, from the history on. -/
abbrev Authorised (u : UserID) (p : Api α) (post : α → History → Prop) (l : History) : Prop :=
  p.Along (Permits u) (fun a l' => l <+: l' ∧ post a l') l

/-- The same, whatever the part returns. -/
abbrev Acts (u : UserID) (p : Api α) (l : History) : Prop := Authorised u p (fun _ _ => True) l

namespace Authorised

theorem ret (a : α) : Acts u (pure a : Api α) l := ⟨List.prefix_refl l, trivial⟩

theorem bind {p : Api α} {f : α → Api β} {post : α → History → Prop} {post' : β → History → Prop}
    (hp : Authorised u p post l) (hf : ∀ a l', l <+: l' → post a l' → Authorised u (f a) post' l') :
    Authorised u (p >>= f) post' l := by
  refine Along.bind hp fun a l₁ ⟨h₁, ha⟩ => ?_
  exact (hf a l₁ h₁ ha).mono fun b l₂ ⟨h₂, hb⟩ => ⟨h₁.trans h₂, hb⟩

theorem request {c : Call} (h : Permits u l c) : Authorised u (Proc.request c) (fun r l' => ⟨c, r⟩ ∈ l') l :=
  ⟨h, fun _ => ⟨List.prefix_append .., by simp⟩⟩

theorem beside {p : Api α} (hp : p.Only (Call.Beside u) X) : Acts u p l := by
  refine (hp.along (fun _ l h => h.permits l) l).mono ?_
  rintro a _ ⟨l₁, rfl, -⟩
  exact ⟨List.prefix_append .., trivial⟩

/-- What only reads is known by what it has read. -/
theorem reads {p : Api α} {post : α → History → Prop} (hp : p.Only Call.Reads X)
    (h : p.Along (fun _ _ => True) post l) : Authorised u p post l := by
  refine ((hp.along (Q := Permits u) ?_ l).and h).mono ?_
  · intro c l hc
    cases c with
    | kvGet | getUser => trivial
    | _ => exact hc.elim
  · rintro a _ ⟨⟨l₁, rfl, -⟩, ha⟩
    exact ⟨List.prefix_append .., ha⟩

/-! ### Issues -/

theorem newIssue (message postPermalink description postID : String) :
    Authorised u (newIssue message postPermalink description postID) (fun i l' => InHand u l' i.id) l :=
  .bind (.request trivial) fun _ _ _ hid => .bind (.request trivial) fun _ _ h _ =>
    ⟨List.prefix_refl _, .drawn (h.subset hid)⟩

theorem saveIssue {i : Issue} (h : InHand u l i.id) : Acts u (Store.saveIssue i) l :=
  (request (c := .kvSet (issueKey i.id) (.issue i)) (.inr ⟨i.id, h, rfl⟩)).mono fun _ _ h => ⟨h.1, trivial⟩

theorem removeIssue (h : InHand u l id) : Acts u (Store.removeIssue id) l :=
  (request (c := .kvDelete (issueKey id)) ⟨id, h, rfl⟩).mono fun _ _ h => ⟨h.1, trivial⟩

theorem getIssue (id : String) : Authorised u (Store.getIssue id) (fun res l' => ∀ i, res = .ok i →
    ⟨.kvGet (issueKey id), .ok (some (.issue i))⟩ ∈ l') l := by
  refine reads (X := False) (Store.reads_getIssue id) ((along_getIssue (fun _ _ => trivial) id l).mono ?_)
  rintro res _ ⟨r, rfl, hr⟩ i hi
  simp [(hr i).1 hi]

theorem getAndRemoveIssue (h : InHand u l id) : Acts u (Store.getAndRemoveIssue id) l := by
  refine bind (getIssue id) fun res l₁ h₁ _ => ?_
  cases res with
  | error err => exact ret _
  | ok i =>
    refine bind (removeIssue (h.mono h₁)) fun res l₂ _ _ => ?_
    cases res with
    | error err => exact ret _
    | ok _ => exact ret _

/-! ### Lists -/

theorem getList (s : String) (k : ListID) (l : History) : Authorised u (Store.getList s k)
    (fun res l' => ∀ list old, res = .ok (list, old) → ListRead s k l' list ∧ decodeList old = some list) l := by
  refine reads (X := False) (Store.reads_getList s k) ((along_getList (fun _ _ => trivial) s k l).mono ?_)
  intro res l' h list old he
  obtain ⟨pre, rfl, hd⟩ := h list old he
  exact ⟨⟨old, by simp, hd⟩, hd⟩

/-- A reference looked up is found. -/
theorem found {list : List IssueRef} {n : Nat} (hread : ListRead s k l list) (h : Store.lookupRef id list = .ok (r, n)) :
    FoundIn s k l r ∧ r.issueID = id := by
  unfold Store.lookupRef at h
  split at h
  · rename_i hf
    cases h
    obtain ⟨hm, hid⟩ := Store.mem_of_findRef hf
    exact ⟨⟨list, hread, hm⟩, hid⟩
  · cases h

theorem getIssueReference (s id : String) (k : ListID) (l : History) : Authorised u (Store.getIssueReference s id k)
    (fun res l' => ∀ r n, res = .ok (r, n) → FoundIn s k l' r ∧ r.issueID = id) l := by
  refine bind (request (c := .kvGet (listKey s k)) trivial) fun res l₁ _ hm => ?_
  rcases res with err | _ | value
  · exact ⟨List.prefix_refl _, by simp⟩
  · exact ⟨List.prefix_refl _, by simp⟩
  · cases hv : unmarshalRefs value with
    | ok list =>
      cases value with
      | refs list' =>
        cases hv
        exact ⟨List.prefix_refl _, fun r n h => found ⟨_, hm, rfl⟩ h⟩
      | legacy | issue | text => cases hv
    | error err =>
      simp only [hv]
      refine bind (reads (X := False) (Store.only_legacyIssueRef trivial)
        (along_legacyIssueRef (fun _ _ => trivial) s k l₁)) fun res l₂ _ h₂ => ?_
      cases res with
      | error err => exact ⟨List.prefix_refl _, by simp⟩
      | ok read =>
        obtain ⟨rfl, hd⟩ := h₂ read.1 read.2 rfl
        exact ⟨List.prefix_refl _, fun r n h => found ⟨read.2, by simp, hd⟩ h⟩

/-- The list the issue is found in. -/
theorem getIssueListAndReference (s id : String) (l : History) : Authorised u (Store.getIssueListAndReference s id)
    (fun res l' => ∀ k r n, res = (k, some r, n) → FoundIn s k l' r ∧ r.issueID = id) l := by
  have hfound : ∀ (k : ListID) (r : IssueRef) (n : Nat) (l' : History), FoundIn s k l' r ∧ r.issueID = id →
      Authorised u (pure (k, some r, n) : Api (ListID × Option IssueRef × Nat))
        (fun res l' => ∀ k r n, res = (k, some r, n) → FoundIn s k l' r ∧ r.issueID = id) l' := by
    refine fun k r n l' h => ⟨List.prefix_refl _, ?_⟩
    rintro _ _ _ ⟨⟩
    exact h
  refine bind (getIssueReference s id .myList l) fun res l₁ _ h₁ => ?_
  rcases res with err | ⟨r, n⟩
  · refine bind (getIssueReference s id .outList l₁) fun res l₂ _ h₂ => ?_
    rcases res with err | ⟨r, n⟩
    · refine bind (getIssueReference s id .inList l₂) fun res l₃ _ h₃ => ?_
      rcases res with err | ⟨r, n⟩
      · exact ⟨List.prefix_refl _, by rintro _ _ _ ⟨⟩⟩
      · exact hfound _ _ _ _ (h₃ r n rfl)
    · exact hfound _ _ _ _ (h₂ r n rfl)
  · exact hfound _ _ _ _ (h₁ r n rfl)

/-- **A list edited in hand**, however often it is tried. -/
theorem editList {edit : List IssueRef → Edit α} {exhausted : String} (hedit : ∀ list a newList l',
    edit list = .save a newList → l <+: l' → ListRead s k l' list → ListChange u l' s k list newList) :
    ∀ (n : Nat) (l₁ : History), l <+: l₁ → Authorised u (Store.editList s k edit exhausted n)
      (fun res l' => ∀ a, res = .ok a → ∃ list newList, edit list = .save a newList ∧ ListRead s k l' list) l₁
  | 0, l₁, _      => ⟨List.prefix_refl _, by rintro _ ⟨⟩⟩
  | n + 1, l₁, h₁ => by
    refine bind (getList s k l₁) fun res l₂ h₂ hread => ?_
    rcases res with err | ⟨list, old⟩
    · exact ⟨List.prefix_refl _, by rintro _ ⟨⟩⟩
    obtain ⟨hlist, hd⟩ := hread list old rfl
    simp only
    cases he : edit list with
    | fail err => exact ⟨List.prefix_refl _, by rintro _ ⟨⟩⟩
    | panic => trivial
    | save a newList =>
      have hpermits : Permits u l₂ (.kvCompareAndSet (listKey s k) old (.refs newList)) :=
        ⟨s, k, list, newList, rfl, hd, rfl, hedit list a newList l₂ he (h₁.trans h₂) hlist⟩
      refine bind (request hpermits) fun res l₃ h₃ _ => ?_
      rcases res with err | ⟨⟨⟩⟩
      · exact ⟨List.prefix_refl _, by rintro _ ⟨⟩⟩
      · exact editList hedit n l₃ ((h₁.trans h₂).trans h₃)
      · refine ⟨List.prefix_refl _, ?_⟩
        rintro _ ⟨⟩
        obtain ⟨value, hm, hdv⟩ := hlist
        exact ⟨list, newList, he, value, h₃.subset hm, hdv⟩

theorem addReference (h : InHand u l id) (s : String) (k : ListID) (foreignUserID foreignIssueID : String) :
    Acts u (Store.addReference s id k foreignUserID foreignIssueID) l := by
  refine (editList (l := l) ?_ storeRetries l (List.prefix_refl l)).mono fun _ _ h => ⟨h.1, trivial⟩
  intro list a newList l' he hl _
  rw [Store.addEdit_eq] at he
  split at he
  · cases he
  · cases he
    exact .todo id (h.mono hl) fun _ => by simp [without]

theorem removeReference (h : InHand u l id) (s : String) (k : ListID) :
    Acts u (Store.removeReference s id k) l := by
  refine (editList (l := l) ?_ storeRetries l (List.prefix_refl l)).mono fun _ _ h => ⟨h.1, trivial⟩
  refine fun list a newList l' he hl _ => .todo id (h.mono hl) fun hnd => ?_
  rw [Store.removeEdit_eq hnd] at he
  split at he
  · cases he
    simp [without, List.filter_filter]
  · cases he

/-- What is popped was found. -/
theorem popReference (k : ListID) (l : History) : Authorised u (Store.popReference u k)
    (fun res l' => ∀ r, res = .ok r → FoundIn u k l' r) l := by
  have hpop : ∀ {list : List IssueRef} {r : IssueRef} {newList : List IssueRef},
      Store.popEdit list = .save r newList → list = r :: newList := by
    rintro (_ | ⟨r, list⟩) _ _ ⟨⟩
    rfl
  refine (editList (l := l) ?_ storeRetries l (List.prefix_refl l)).mono ?_
  · intro list r newList l' he hl hread
    obtain rfl := hpop he
    exact .todo r.issueID (.found ⟨_, hread, List.mem_cons_self⟩) fun _ => (Store.without_cons_self r newList).symm
  · rintro res l' ⟨hl, h⟩
    refine ⟨hl, fun r hr => ?_⟩
    obtain ⟨list, newList, he, hread⟩ := h r hr
    obtain rfl := hpop he
    exact ⟨_, hread, List.mem_cons_self⟩

theorem bumpReference (hr : FoundIn u .outList l r) (id : String) :
    Acts u (Store.bumpReference r.foreignUserID id .inList) l := by
  refine (editList (l := l) ?_ storeRetries l (List.prefix_refl l)).mono fun _ _ h => ⟨h.1, trivial⟩
  intro list a newList l' he hl _
  rcases Store.bumpEdit_perm id list with ⟨-, hb⟩ | ⟨newList', hb, hperm⟩
  · rw [hb] at he
    cases he
  · rw [hb] at he
    cases he
    exact .order r (hr.mono hl) rfl rfl hperm

/-! ### Operations -/

theorem addIssue (message postPermalink description postID : String) :
    Acts u (ListManager.addIssue u message postPermalink description postID) l := by
  refine bind (newIssue ..) fun i l₁ _ hi => ?_
  refine bind (saveIssue hi) fun res l₂ h₂ _ => ?_
  cases res with
  | error err => exact ret _
  | ok _ =>
    refine bind (addReference (hi.mono h₂) ..) fun res l₃ h₃ _ => ?_
    cases res with
    | error err => exact bind (removeIssue ((hi.mono h₂).mono h₃)) fun _ _ _ _ => ret _
    | ok _ => exact ret _

theorem sendIssue (receiverID message postPermalink description postID : String) :
    Acts u (ListManager.sendIssue u receiverID message postPermalink description postID) l := by
  refine bind (newIssue ..) fun i l₁ _ hi => ?_
  refine bind (saveIssue hi) fun res l₂ h₂ _ => ?_
  cases res with
  | error err => exact ret _
  | ok _ =>
    refine bind (newIssue ..) fun j l₃ h₃ hj => ?_
    have hi₃ := hi.mono (h₂.trans h₃)
    refine bind (saveIssue hj) fun res l₄ h₄ _ => ?_
    cases res with
    | error err => exact bind (removeIssue (hi₃.mono h₄)) fun _ _ _ _ => ret _
    | ok _ =>
      refine bind (addReference (hi₃.mono h₄) ..) fun res l₅ h₅ _ => ?_
      have hi₅ := hi₃.mono (h₄.trans h₅)
      have hj₅ := hj.mono (h₄.trans h₅)
      cases res with
      | error err =>
        exact bind (removeIssue hi₅) fun _ _ h₆ _ => bind (removeIssue (hj₅.mono h₆)) fun _ _ _ _ => ret _
      | ok _ =>
        refine bind (addReference hj₅ ..) fun res l₆ h₆ _ => ?_
        cases res with
        | error err =>
          refine bind (removeIssue (hi₅.mono h₆)) fun _ l₇ h₇ _ => ?_
          refine bind (removeIssue (hj₅.mono (h₆.trans h₇))) fun _ l₈ h₈ _ => ?_
          exact bind (removeReference (hi₅.mono (h₆.trans (h₇.trans h₈))) ..) fun _ _ _ _ => ret _
        | ok _ => exact ret _

theorem completeIssue (id : String) : Acts u (ListManager.completeIssue u id) l := by
  refine bind (getIssueListAndReference u id l) fun res l₁ _ hfound => ?_
  rcases res with ⟨k, _ | r, n⟩
  · exact ret _
  obtain ⟨hr, rfl⟩ := hfound k r n rfl
  refine bind (removeReference (.found hr) u k) fun res l₂ h₂ _ => ?_
  cases res with
  | error err => exact ret _
  | ok _ =>
    refine bind (getAndRemoveIssue (.found (hr.mono h₂))) fun _ l₃ h₃ _ => ?_
    split
    · exact ret _
    · have hr₃ := hr.mono (h₂.trans h₃)
      refine bind (removeReference (.other hr₃) ..) fun _ l₄ h₄ _ => ?_
      exact bind (getAndRemoveIssue (.other (hr₃.mono h₄))) fun _ _ _ _ => ret _

theorem editIssue (id newMessage newDescription : String) :
    Acts u (ListManager.editIssue u id newMessage newDescription) l := by
  refine bind (getIssue id) fun res l₁ _ hread => ?_
  rcases res with err | i
  · exact ret _
  refine bind (getIssueListAndReference u id l₁) fun res l₂ h₂ hfound => ?_
  rcases res with ⟨k, _ | r, n⟩
  · exact ret _
  obtain ⟨hr, rfl⟩ := hfound k r n rfl
  have hown : InHand u l₂ i.id := .record (.found hr) (h₂.subset (hread i rfl))
  have hsave : ∀ old l₃, l₂ <+: l₃ → Acts u (do
      match ← Store.saveIssue { i with message := newMessage, description := newDescription } with
      | .error err => return ⟨"", .myList, "", some err⟩
      | .ok _ => return ⟨r.foreignUserID, k, old, none⟩ : Api EditResult) l₃ := by
    refine fun old l₃ h₃ => bind (saveIssue (hown.mono h₃)) fun res _ _ _ => ?_
    cases res with
    | error err => exact ret _
    | ok _ => exact ret _
  simp only
  split
  · refine bind (getIssue r.foreignIssueID) fun res l₃ h₃ hread => ?_
    rcases res with err | f
    · exact hsave "" l₃ h₃
    · have hf : InHand u l₃ f.id := .record (.other (hr.mono h₃)) (hread f rfl)
      exact bind (saveIssue hf) fun _ l₄ h₄ _ => hsave f.message l₄ (h₃.trans h₄)
  · exact hsave "" l₂ (List.prefix_refl _)

theorem assign {issueID : String} (hid : InHand u l issueID) (sendTo oldOwner : String) (issue : Issue) :
    Acts u (ListManager.assign issueID u sendTo oldOwner issue) l := by
  refine bind (newIssue ..) fun j l₁ h₁ hj => ?_
  refine bind (saveIssue hj) fun res l₂ h₂ _ => ?_
  cases res with
  | error err => exact ret _
  | ok _ =>
    refine bind (addReference (hid.mono (h₁.trans h₂)) ..) fun res l₃ h₃ _ => ?_
    cases res with
    | error err => exact ret _
    | ok _ =>
      refine bind (addReference (hj.mono (h₂.trans h₃)) ..) fun res _ _ _ => ?_
      cases res with
      | error err => exact ret _
      | ok _ => exact ret _

theorem reassign {issueID : String} (hid : InHand u l issueID) (sendTo : String) (k : ListID) (ir : IssueRef)
    (issue : Issue) : Acts u (ListManager.reassign issueID u sendTo k ir issue) l := by
  unfold ListManager.reassign
  split
  · refine bind (removeReference hid ..) fun res l₁ h₁ _ => ?_
    cases res with
    | error err => exact ret _
    | ok _ =>
      refine bind (addReference (hid.mono h₁) ..) fun res _ _ _ => ?_
      cases res with
      | error err => exact ret _
      | ok _ => exact ret _
  · split
    · refine bind (removeReference hid ..) fun res l₁ h₁ _ => ?_
      cases res with
      | error err => exact ret _
      | ok _ => exact assign (hid.mono h₁) ..
    · exact assign hid ..

theorem changeAssignment (id sendTo : String) : Acts u (ListManager.changeAssignment id u sendTo) l := by
  refine bind (getIssue id) fun res l₁ _ _ => ?_
  rcases res with err | i
  · exact ret _
  refine bind (getIssueListAndReference u id l₁) fun res l₂ _ hfound => ?_
  rcases res with ⟨k, _ | r, n⟩
  · exact ret _
  obtain ⟨hr, rfl⟩ := hfound k r n rfl
  simp only
  split
  · exact ret _
  split
  · refine bind (getIssueListAndReference r.foreignUserID r.foreignIssueID l₂) fun res l₃ h₃ _ => ?_
    rcases res with ⟨k', _ | r', n'⟩
    · exact ret _
    refine bind (removeReference (.other (hr.mono h₃)) ..) fun res l₄ h₄ _ => ?_
    cases res with
    | error err => exact ret _
    | ok _ =>
      have hr₄ := hr.mono (h₃.trans h₄)
      exact bind (getAndRemoveIssue (.other hr₄)) fun _ l₅ h₅ _ => reassign (.found (hr₄.mono h₅)) ..
  · exact reassign (.found hr) ..

theorem acceptIssue (id : String) : Acts u (ListManager.acceptIssue u id) l := by
  refine bind (getIssue id) fun res l₁ _ _ => ?_
  rcases res with err | i
  · exact ret _
  refine bind (getIssueReference u id .inList l₁) fun res l₂ _ hfound => ?_
  rcases res with err | ⟨r, n⟩
  · exact ret _
  obtain ⟨hr, rfl⟩ := hfound r n rfl
  refine bind (addReference (.found hr) ..) fun res l₃ h₃ _ => ?_
  cases res with
  | error err => exact ret _
  | ok _ =>
    refine bind (removeReference (.found (hr.mono h₃)) ..) fun res l₄ h₄ _ => ?_
    cases res with
    | error err => exact bind (removeReference (.found (hr.mono (h₃.trans h₄))) ..) fun _ _ _ _ => ret _
    | ok _ => exact ret _

theorem removeTodo (id : String) : Acts u (ListManager.removeIssue u id) l := by
  refine bind (getIssueListAndReference u id l) fun res l₁ _ hfound => ?_
  rcases res with ⟨k, _ | r, n⟩
  · exact ret _
  obtain ⟨hr, rfl⟩ := hfound k r n rfl
  refine bind (removeReference (.found hr) ..) fun res l₂ h₂ _ => ?_
  cases res with
  | error err => exact ret _
  | ok _ =>
    refine bind (getAndRemoveIssue (.found (hr.mono h₂))) fun _ l₃ h₃ _ => ?_
    split
    · exact ret _
    · have hr₃ := hr.mono (h₂.trans h₃)
      refine bind (getIssueListAndReference r.foreignUserID r.foreignIssueID l₃) fun _ l₄ h₄ _ => ?_
      refine bind (removeReference (.other (hr₃.mono h₄)) ..) fun _ l₅ h₅ _ => ?_
      exact bind (getAndRemoveIssue (.other (hr₃.mono (h₄.trans h₅)))) fun _ _ _ _ => ret _

theorem popIssue : Acts u (ListManager.popIssue u) l := by
  refine bind (popReference .myList l) fun res l₁ _ hfound => ?_
  rcases res with err | r
  · exact ret _
  have hr := hfound r rfl
  refine bind (getAndRemoveIssue (.found hr)) fun _ l₂ h₂ _ => ?_
  split
  · exact ret _
  · refine bind (removeReference (.other (hr.mono h₂)) ..) fun _ l₃ h₃ _ => ?_
    exact bind (getAndRemoveIssue (.other (hr.mono (h₂.trans h₃)))) fun _ _ _ _ => ret _

theorem bumpIssue (id : String) : Acts u (ListManager.bumpIssue u id) l := by
  refine bind (getIssueReference u id .outList l) fun res l₁ _ hfound => ?_
  rcases res with err | ⟨r, n⟩
  · exact ret _
  obtain ⟨hr, -⟩ := hfound r n rfl
  refine bind (bumpReference hr _) fun res l₂ _ _ => ?_
  cases res with
  | error err => exact ret _
  | ok _ =>
    refine bind (getIssue r.foreignIssueID) fun res _ _ _ => ?_
    cases res with
    | error err => exact ret _
    | ok i => exact ret _

/-- **Every operation acts on what its user has in hand.** -/
theorem listOp (o : ListOp) : Acts o.user o.exec l := by
  have hret : ∀ {α : Type} {p : Api α} (c : α → ListResult), Acts o.user p l →
      Acts o.user (p >>= fun a => pure (c a)) l := fun c hp => bind hp fun _ _ _ _ => ret _
  cases o with
  | addIssue => exact hret _ (addIssue ..)
  | sendIssue => exact hret _ (sendIssue ..)
  | completeIssue => exact hret _ (completeIssue _)
  | editIssue => exact hret _ (editIssue ..)
  | changeAssignment => exact hret _ (changeAssignment ..)
  | acceptIssue => exact hret _ (acceptIssue _)
  | removeIssue => exact hret _ (removeTodo _)
  | popIssue => exact hret _ popIssue
  | bumpIssue => exact hret _ (bumpIssue _)

/-! ### Requests and commands -/

/-- **Whatever makes one operation of its user's, and is beside the lists otherwise.** -/
theorem handles {p : Api α} (h : Handles u p) : ∀ l, Acts u p l := by
  induction h with
  | beside h => exact fun l => beside h
  | part h _ ih => exact fun l => bind (beside h) fun a l' _ _ => ih a l'
  | op o c hu ho hf =>
    subst hu
    intro l
    have hop := listOp (l := l) o
    rw [ho] at hop
    exact bind (Along.of_map hop) fun a l' _ _ => beside (hf a)

end Authorised
end history

/-- **A request or a command writes what its user may**; one that comes from nobody makes no call. -/
theorem Input.permits (e : Input) :
    e.exec.Along (fun l c => ∃ u, e.issuer = some u ∧ Permits u l c) (fun _ _ => True) [] := by
  cases e with
  | http userID request =>
    cases userID with
    | none => exact trivial
    | some u =>
      have hhandler : (request.handler u).Along (Permits u) (fun _ _ => True) [] :=
        (Authorised.handles request.handler_handles []).mono fun _ _ _ => trivial
      have hserve : serveHTTP (userHeader (some u)) request = (request.handler u).recover .ok := by
        rw [serveHTTP, checkAuth, userHeader, if_neg u.val_ne_empty]
        rfl
      have hexec : (Input.http (some u) request).exec.Along (Permits u) (fun _ _ => True) [] := by
        rw [Input.exec, hserve]
        refine Along.bind (hhandler.recover .ok) fun resp l _ => ?_
        trivial
      exact hexec.mono_calls fun l c hc => ⟨u, rfl, hc⟩
  | command u ch text =>
    have hcommand : (executeCommand ⟨u, ch, text⟩).Along (Permits u) (fun _ _ => True) [] :=
      (Authorised.handles (executeCommand_handles ch text) []).mono fun _ _ _ => trivial
    have hexec : (Input.command u ch text).exec.Along (Permits u) (fun _ _ => True) [] := hcommand.bind fun _ _ _ => trivial
    exact hexec.mono_calls fun l c hc => ⟨u, rfl, hc⟩

/-! ## Any traffic -/

namespace World

/-- **Only the todo has changed**: nothing stored but its record and references to it. -/
structure OnlyTodo (x : String) (w w' : World) : Prop where
  lists  : ∀ s k, without x (w'.list (listKey s k)) = without x (w.list (listKey s k))
  others : ∀ key, key ≠ issueKey x → (∀ s k, key ≠ listKey s k) → w'.kv key = w.kv key

/-- Only the order of the list has changed. -/
structure OnlyOrder (key : String) (w w' : World) : Prop where
  list   : (w'.list key).Perm (w.list key)
  others : ∀ k, k ≠ key → w'.kv k = w.kv k

/-- Only what is under the key has changed. -/
def OnlyKey (key : String) (w w' : World) : Prop := ∀ k, k ≠ key → w'.kv k = w.kv k

variable {w w' : World} {x : String}

theorem OnlyKey.onlyTodo (h : OnlyKey (issueKey x) w w') : OnlyTodo x w w' where
  lists s k         := by rw [list, list, h _ (listKey_ne_issueKey s k x)]
  others key hkey _ := h key hkey

end World

section traffic
variable {ι : Type} [DecidableEq ι] {E : Env} {inputs : ι → Input} {P : Pool ι Call Resp Reply World} {i : ι}
  {pre : List (Event ι Call Resp)}

/-- `i` has been answered a list of `s`'s, as it was stored then, and the reference is in it. -/
def HasFound (E : Env) (P₀ : Pool ι Call Resp Reply World) (pre : List (Event ι Call Resp)) (i : ι) (s : String)
    (k : ListID) (r : IssueRef) : Prop :=
  ∃ pre₁ pre₂ value P₁, pre = pre₁ ++ ⟨i, .kvGet (listKey s k), .ok value⟩ :: pre₂ ∧
    Pool.Turns (Ending E) P₀ pre₁ P₁ ∧ decodeList value = some (P₁.state.list (listKey s k)) ∧
    r ∈ P₁.state.list (listKey s k)

/-- **`i` has the todo in hand**: it has drawn it, or found it, or its other side, in a list of `u`'s. -/
inductive HasInHand (E : Env) (P₀ : Pool ι Call Resp Reply World) (pre : List (Event ι Call Resp)) (i : ι)
    (u : UserID) : String → Prop
  | drawn {x : String} (h : (⟨i, .newId, x⟩ : Event ι Call Resp) ∈ pre) : HasInHand E P₀ pre i u x
  | found {k : ListID} {r : IssueRef} (h : HasFound E P₀ pre i u k r) : HasInHand E P₀ pre i u r.issueID
  | other {k : ListID} {r : IssueRef} (h : HasFound E P₀ pre i u k r) : HasInHand E P₀ pre i u r.foreignIssueID

/-- What was found in a history was there. -/
theorem FoundIn.hasFound {P₀ : Pool ι Call Resp Reply World} (h : Pool.Turns (Ending E) P₀ pre P) {s : String}
    {k : ListID} {r : IssueRef} (hr : FoundIn s k (Pool.own i pre) r) : HasFound E P₀ pre i s k r := by
  obtain ⟨list, ⟨value, hm, hd⟩, hr⟩ := hr
  obtain ⟨pre₁, pre₂, rfl⟩ := List.append_of_mem (Pool.mem_own.1 hm)
  obtain ⟨P₁, h₁, hkv, -⟩ := kv_of_answered h
  have hlist : P₁.state.list (listKey s k) = list := by rw [World.list, hkv, hd]; rfl
  exact ⟨pre₁, pre₂, value, P₁, rfl, h₁, hlist ▸ hd, hlist ▸ hr⟩

/-- What is in hand after a history is: a record read is the one asked for. -/
theorem InHand.hasInHand (h : Pool.Turns (Ending E) (Input.pool inputs) pre P) {u : UserID} {x : String}
    (hx : InHand u (Pool.own i pre) x) : HasInHand E (Input.pool inputs) pre i u x := by
  induction hx with
  | drawn hm => exact .drawn (Pool.mem_own.1 hm)
  | found hr => exact .found (hr.hasFound h)
  | other hr => exact .other (hr.hasFound h)
  | @record id j _ hm ih =>
    obtain ⟨pre₁, pre₂, rfl⟩ := List.append_of_mem (Pool.mem_own.1 hm)
    obtain ⟨P₁, h₁, hkv, -⟩ := kv_of_answered h
    have hs := sound_of_turns h₁
    have hid : j.id = id := by
      rw [hs.kv_issue] at hkv
      obtain ⟨j', hj, ⟨⟩⟩ := Option.map_eq_some_iff.1 hkv
      exact hs.issue_id hj
    rw [hid]
    exact ih

/-- **What may become of a call that is permitted.** -/
theorem Permits.ending {u : UserID} {l : History} {c : Call} (h : Permits u l c) {w w' : World} (hs : w.Sound) {r : Resp c}
    (ho : Ending E c w r w') :
    w'.kv = w.kv ∨ (∃ key, SettingKeyOf u key ∧ w.OnlyKey key w') ∨ (∃ x, InHand u l x ∧ w.OnlyTodo x w') ∨
      ∃ r, FoundIn u .outList l r ∧ w.OnlyOrder (listKey r.foreignUserID .inList) w' := by
  have hput : ∀ {key : String} {value : Value}, w.OnlyKey key (w.put key value) := fun k hk => World.put_kv_of_ne _ _ hk
  cases c with
  | kvSet key value =>
    rcases ho.kvSet with rfl | ⟨rfl, -⟩
    · rcases h with hkey | ⟨x, hx, rfl⟩
      · exact .inr (.inl ⟨key, hkey, hput⟩)
      · exact .inr (.inr (.inl ⟨x, hx, World.OnlyKey.onlyTodo hput⟩))
    · exact .inl rfl
  | kvDelete key =>
    rcases ho.kvDelete with rfl | rfl
    · obtain ⟨x, hx, rfl⟩ := h
      exact .inr (.inr (.inl ⟨x, hx, World.OnlyKey.onlyTodo fun k hk => World.delete_kv_of_ne _ hk⟩))
    · exact .inl rfl
  | kvCompareAndSet key old new =>
    rcases ho.kvCompareAndSet with ⟨hold, rfl, -⟩ | ⟨rfl, -⟩
    · obtain ⟨s, k, list, newList, rfl, hd, rfl, hchange⟩ := h
      have hlist : w.list (listKey s k) = list := by rw [World.list, hold, hd]; rfl
      cases hchange with
      | todo x hx hwithout =>
        refine .inr (.inr (.inl ⟨x, hx, fun s' k' => ?_, fun key _ hkey => World.put_kv_of_ne _ _ (hkey s k)⟩))
        rw [World.list_put]
        split
        · rename_i he
          rw [he, hlist]
          exact hwithout (hlist ▸ hs.distinct s k)
        · rfl
      | order ref href he hk hperm =>
        subst he hk
        refine .inr (.inr (.inr ⟨ref, href, ?_, fun k hk => World.put_kv_of_ne _ _ hk⟩))
        rw [World.list_put, if_pos rfl, hlist]
        exact hperm
    · exact .inl rfl
  | newId => exact .inl (by rw [ho.newId.2])
  | _ => exact .inl (Ending.quiet (by trivial) ho).kv

/-- **Nobody touches what is not theirs.**  Whatever happens, an event leaves the store as it is, or is of a request or a
command of a user's, and changes no more than one of that user's settings; or the record of one todo and the references to
it, which the request has drawn, or found, it or its other side, in a list of the user's; or the order of the In list of
somebody they have sent a todo. -/
theorem traffic_authority {e : Event ι Call Resp} {post : List (Event ι Call Resp)}
    (h : Pool.Turns (Ending E) (Input.pool inputs) (pre ++ e :: post) P) :
    ∃ P₁ P₂, Pool.Turns (Ending E) (Input.pool inputs) pre P₁ ∧ Pool.Turns (Ending E) P₁ [e] P₂ ∧
      Pool.Turns (Ending E) P₂ post P ∧ (P₂.state.kv = P₁.state.kv ∨ ∃ u, (inputs e.who).issuer = some u ∧
        ((∃ key, SettingKeyOf u key ∧ P₁.state.OnlyKey key P₂.state) ∨
        (∃ x, HasInHand E (Input.pool inputs) pre e.who u x ∧ P₁.state.OnlyTodo x P₂.state) ∨
        ∃ r, HasFound E (Input.pool inputs) pre e.who u .outList r ∧
          P₁.state.OnlyOrder (listKey r.foreignUserID .inList) P₂.state)) := by
  obtain ⟨P₁, P₂, h₁, he, h₂⟩ := h.split
  refine ⟨P₁, P₂, h₁, .turn he (.done _), h₂, ?_⟩
  have hal := h₁.returned (l := fun _ => []) fun j => (inputs j).permits
  cases he with
  | @call i c k r w hi ho =>
    have hcall := hal i
    rw [hi] at hcall
    obtain ⟨u, hu, hpermits⟩ := hcall.1
    refine (hpermits.ending (sound_of_turns h₁) ho).imp_right fun hends => ⟨u, hu, hends.imp_right ?_⟩
    exact Or.imp (fun ⟨x, hx, hw⟩ => ⟨x, hx.hasInHand h₁, hw⟩) fun ⟨r, hr, hw⟩ => ⟨r, hr.hasFound h₁, hw⟩

end traffic

section sample

/-- The call that lists the todo for Bob, when he accepts it. -/
def listsMilk : Event Bool Call Resp :=
  ⟨true, .kvCompareAndSet (listKey bob .myList) none (.refs [⟨"xx", "x", "ann"⟩]), .ok true⟩

/-- What has been called before. -/
def beforeListing : List (Event Bool Call Resp) := (sentMilk acceptMilk).1 ++ (afterSending acceptMilk 3).1

theorem acceptMilk_authority : ∃ P₁ P₂,
    Pool.Turns (Ending Env.sample) (Input.pool (sendAnd acceptMilk)) beforeListing P₁ ∧
    Pool.Turns (Ending Env.sample) P₁ [listsMilk] P₂ ∧
    Pool.Turns (Ending Env.sample) P₂ [] (afterSending acceptMilk 4).2 ∧
    (P₂.state.kv = P₁.state.kv ∨ ∃ u, acceptMilk.issuer = some u ∧
      ((∃ key, SettingKeyOf u key ∧ P₁.state.OnlyKey key P₂.state) ∨
      (∃ x, HasInHand Env.sample (Input.pool (sendAnd acceptMilk)) beforeListing true u x ∧
        P₁.state.OnlyTodo x P₂.state) ∨
      ∃ r, HasFound Env.sample (Input.pool (sendAnd acceptMilk)) beforeListing true u .outList r ∧
        P₁.state.OnlyOrder (listKey r.foreignUserID .inList) P₂.state)) := by
  have htrace : (sentMilk acceptMilk).1 ++ (afterSending acceptMilk 4).1 = beforeListing ++ [listsMilk] := rfl
  have h := (sentMilk_turns acceptMilk).append (afterSending_turns acceptMilk 4)
  rw [htrace] at h
  exact traffic_authority h

end sample
end Todo

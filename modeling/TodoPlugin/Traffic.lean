import TodoPlugin.Cards
import TodoPlugin.Faults
import TodoPlugin.Lib.Outcomes
/-!
# Any traffic, with any failures

Any number of requests and commands at once, from an empty store, each call in turn with the others'.  A KV call may fail,
with or without having done what it was asked; users, channels and posts may be answered anyhow at any time; and a request
may stop for good at any call, as when the plugin is stopped.  `Keeps` is the rule for what every part of the plugin keeps
under all this: the store is what the cards of its ids say.
-/
namespace Todo

open Store (ids without Edit)

/-- The call asks the server around the plugin, or its clock. -/
def Call.Asks : Call → Prop
  | .getMillis | .formatTime _ | .getUserByUsername _ | .getUser _ | .getDirectChannel _ | .getPost _ | .createPost _ => True
  | _ => False

/-- The call is quiet, or saves a setting or the time of a reminder. -/
def Call.Aside (c : Call) : Prop := c.Quiet ∨ ∃ key value, SettingKey key ∧ c = .kvSet key value

/-- **What may become of a call.** -/
inductive Ending (E : Env) : (c : Call) → World → Resp c → World → Prop
  /-- It is answered. -/
  | served (c : Call) (w : World) : Ending E c w (serve E c w).1 (serve E c w).2
  /-- It fails, and has done nothing. -/
  | failed {c : Call} {err : String} {r : Resp c} (w : World) (h : (Mishap.fails err).answer c = some r) : Ending E c w r w
  /-- It fails, and has done what it was asked. -/
  | unheard {c : Call} {err : String} {r : Resp c} (w : World) (h : (Mishap.fails err).answer c = some r) :
      Ending E c w r (serve E c w).2
  /-- The server around the plugin answers something else. -/
  | elsewhere {c : Call} (w : World) (r : Resp c) (h : c.Asks) : Ending E c w r w

namespace Ending

variable {E : Env} {w w' : World}

theorem kvGet {key : String} {r : Resp (.kvGet key)} (h : Ending E (.kvGet key) w r w') :
    w' = w ∧ (r = .ok (w.kv key) ∨ ∃ err, r = .error err) := by
  cases h with
  | served => exact ⟨rfl, .inl rfl⟩
  | failed _ h => cases h; exact ⟨rfl, .inr ⟨_, rfl⟩⟩
  | unheard _ h => cases h; exact ⟨rfl, .inr ⟨_, rfl⟩⟩
  | elsewhere _ _ h => exact h.elim

theorem kvSet {key : String} {value : Value} {r : Resp (.kvSet key value)} (h : Ending E (.kvSet key value) w r w') :
    w' = w.put key value ∨ w' = w ∧ ∃ err, r = .error err := by
  cases h with
  | served => exact .inl rfl
  | failed _ h => cases h; exact .inr ⟨rfl, _, rfl⟩
  | unheard _ h => exact .inl rfl
  | elsewhere _ _ h => exact h.elim

theorem kvDelete {key : String} {r : Resp (.kvDelete key)} (h : Ending E (.kvDelete key) w r w') :
    w' = w.delete key ∨ w' = w := by
  cases h with
  | served => exact .inl rfl
  | failed _ _ => exact .inr rfl
  | unheard _ _ => exact .inl rfl
  | elsewhere _ _ h => exact h.elim

theorem kvCompareAndSet {key : String} {old : Option Value} {new : Value} {r : Resp (.kvCompareAndSet key old new)}
    (h : Ending E (.kvCompareAndSet key old new) w r w') :
    (w.kv key = old ∧ w' = w.put key new ∧ r ≠ .ok false) ∨ w' = w ∧ r ≠ .ok true := by
  cases h with
  | served =>
    by_cases hk : w.kv key = old
    · simp [serve, hk]
    · simp [serve, hk]
  | failed _ h => cases h; exact .inr ⟨rfl, by simp⟩
  | unheard _ h =>
    cases h
    by_cases hk : w.kv key = old
    · simp [serve, hk]
    · simp [serve, hk]
  | elsewhere _ _ h => exact h.elim

theorem newId {r : Resp .newId} (h : Ending E .newId w r w') : r = E.newId w.drawn ∧ w' = { w with drawn := w.drawn + 1 } := by
  cases h with
  | served => exact ⟨rfl, rfl⟩
  | failed _ h => cases h
  | unheard _ h => cases h
  | elsewhere _ _ h => exact h.elim

/-- What a quiet call may come to leaves the store. -/
theorem quiet {c : Call} (hc : c.Quiet) {r : Resp c} (h : Ending E c w r w') : World.SameStore w w' := by
  cases h with
  | served => exact hc.sameStore E w
  | failed => exact .refl w
  | unheard => exact hc.sameStore E w
  | elsewhere => exact .refl w

end Ending

/-! ## What one member keeps, and what the others do -/

section rules
variable {ι : Type} (E : Env)

abbrev BookState (ι : Type) := { g : Book ι // g.Kept E }

/-- What the others leave a member: cards only come, and what it holds stays held, with the card it has. -/
structure Book.Rely (i : ι) (g g' : Book ι) : Prop where
  grow : Cards.Grow g.cards g'.cards
  held : ∀ id, g.holder id = some i → g'.holder id = some i ∧ g'.cards id = g.cards id

/-- From `g` on: cards only come, an id no longer held is never held again, and only what is held comes into an In
list. -/
structure Book.Later (g g' : Book ι) : Prop where
  grow    : Cards.Grow g.cards g'.cards
  spent   : ∀ id, g.cards id ≠ none → g.holder id = none → g'.holder id = none
  arrives : ∀ (u : UserID) id, g.cards id ≠ none → g.holder id = none → id ∈ ids (g'.world.list (listKey u .inList)) →
    id ∈ ids (g.world.list (listKey u .inList))

/-- What a member may do: nothing to what another holds. -/
structure Book.Guar (i : ι) (g g' : Book ι) : Prop extends Book.Later g g' where
  others : ∀ j, j ≠ i → Book.Rely j g g'

variable {E}

namespace Book

theorem Rely.refl (i : ι) (g : Book ι) : Rely i g g := ⟨.refl _, fun _ h => ⟨h, rfl⟩⟩

theorem Rely.trans {i : ι} {g g' g'' : Book ι} (h : Rely i g g') (h' : Rely i g' g'') : Rely i g g'' := by
  refine ⟨h.grow.trans h'.grow, fun id hid => ?_⟩
  obtain ⟨h1, h2⟩ := h.held id hid
  obtain ⟨h3, h4⟩ := h'.held id h1
  exact ⟨h3, h4.trans h2⟩

theorem Later.refl (g : Book ι) : Later g g := ⟨.refl _, fun _ _ h => h, fun _ _ _ _ h => h⟩

theorem Later.trans {g g' g'' : Book ι} (h : Later g g') (h' : Later g' g'') : Later g g'' := by
  have hcard : ∀ id, g.cards id ≠ none → g'.cards id ≠ none := fun id hid => by
    obtain ⟨c, hc⟩ := Option.ne_none_iff_exists'.1 hid
    simp [h.grow id c hc]
  exact ⟨h.grow.trans h'.grow, fun id hid hno => h'.spent id (hcard id hid) (h.spent id hid hno),
    fun u id hid hno hin => h.arrives u id hid hno (h'.arrives u id (hcard id hid) (h.spent id hid hno) hin)⟩

/-- **A step of `i`** touches only what `i` holds and what nobody has, and brings only what `i` holds into an In list. -/
theorem Guar.of_own {i : ι} {g g' : Book ι} (hgrow : Cards.Grow g.cards g'.cards)
    (hown : ∀ id, g.holder id ≠ some i → (g.holder id ≠ none ∨ g.cards id ≠ none) →
      g'.holder id = g.holder id ∧ g'.cards id = g.cards id)
    (hin : ∀ (u : UserID) id, id ∈ ids (g'.world.list (listKey u .inList)) →
      id ∈ ids (g.world.list (listKey u .inList)) ∨ g.holder id = some i) : Guar i g g' where
  grow := hgrow
  spent id hc hno := by
    have hne : g.holder id ≠ some i := fun he => by simp [hno] at he
    exact (hown id hne (.inr hc)).1.trans hno
  arrives u id _ hno hid := by
    rcases hin u id hid with h | h
    · exact h
    · simp [hno] at h
  others j hj := by
    refine ⟨hgrow, fun id hid => ?_⟩
    have hne : g.holder id ≠ some i := fun he => hj (Option.some.inj (hid.symm.trans he))
    obtain ⟨h1, h2⟩ := hown id hne (.inl (by simp [hid]))
    exact ⟨h1.trans hid, h2⟩

/-- A step that changes no card and no holder, and brings nothing into an In list. -/
theorem Guar.of_world {i : ι} {g : Book ι} {w : World}
    (h : ∀ (u : UserID) id, id ∈ ids (w.list (listKey u .inList)) → id ∈ ids (g.world.list (listKey u .inList))) :
    Guar i g { g with world := w } := .of_own (.refl _) (fun _ _ _ => ⟨rfl, rfl⟩) fun u id hid => .inl (h u id hid)

end Book

/-- A step that changes the store alone. -/
theorem Book.moved {i : ι} {g : BookState E ι} {w : World} (hw : Book.Kept E { g.1 with world := w })
    (h : ∀ (u : UserID) id, id ∈ ids (w.list (listKey u .inList)) → id ∈ ids (g.1.world.list (listKey u .inList))) :
    ∃ g' : BookState E ι, g'.1.world = w ∧ Book.Guar i g.1 g'.1 ∧ Book.Rely i g.1 g'.1 :=
  ⟨⟨{ g.1 with world := w }, hw⟩, rfl, .of_world h, .refl _, fun _ h => ⟨h, rfl⟩⟩

/-- **The part keeps the cards**, run by `i` under any traffic. -/
abbrev Keeps (E : Env) (i : ι) {α : Type} (p : Api α) (g : BookState E ι) : Prop :=
  p.Steady (Ending E) (fun g => g.1.world) (fun g g' => Book.Rely i g.1 g'.1) (fun g g' => Book.Guar i g.1 g'.1)
    (fun _ _ => True) g

namespace Keeps

variable {i : ι} {α β : Type} {g : BookState E ι}

theorem ret (a : α) : Keeps E i (pure a : Api α) g := fun _ _ => trivial

/-! ## Reading, and what is beside the lists -/

theorem aside_step {c : Call} {r : Resp c} {w : World} (hc : c.Aside) (ho : Ending E c g.1.world r w) :
    ∃ g' : BookState E ι, g'.1.world = w ∧ Book.Guar i g.1 g'.1 ∧ Book.Rely i g.1 g'.1 := by
  rcases hc with hc | ⟨key, value, hk, rfl⟩
  · have hs := ho.quiet hc
    refine Book.moved (g.2.sameStore hs) fun u id hid => ?_
    rwa [show w.list = g.1.world.list from congrArg Board.list (World.board_eq_of_kv hs.kv)] at hid
  · rcases ho.kvSet with rfl | ⟨rfl, -⟩
    · refine Book.moved (g.2.put_setting hk value) fun u id hid => ?_
      rwa [World.list_put_setting hk] at hid
    · exact Book.moved g.2 fun _ _ hid => hid

/-- **A part beside the lists** hands over to what follows it, whatever it returns. -/
theorem aside {X : Prop} {p : Api α} {f : α → Api β} (hp : p.Only Call.Aside X)
    (h : ∀ a g', Book.Rely i g.1 g'.1 → Keeps E i (f a) g') : Keeps E i (p >>= f) g :=
  Proc.Only.steady (fun _ => .refl _ _) (fun _ _ _ => Book.Rely.trans) (fun _ _ _ _ => aside_step) hp h

theorem of_aside {X : Prop} {p : Api α} (hp : p.Only Call.Aside X) : Keeps E i p g := by
  rw [← Proc.bind_ret p]
  exact aside hp fun a _ _ => ret a

/-- What follows a part may be beside the lists. -/
theorem then_aside {X : Prop} {p : Api α} {f : α → Api β} (hp : Keeps E i p g) (hf : ∀ a, (f a).Only Call.Aside X) :
    Keeps E i (p >>= f) g :=
  .bind (fun _ => .refl _ _) (hp.mono fun a _ _ => of_aside (hf a))

theorem kvGet {key : String} {f : Except String (Option Value) → Api β}
    (h : ∀ g' res, Book.Rely i g.1 g'.1 → (res = .ok (g'.1.world.kv key) ∨ ∃ err, res = .error err) →
      Keeps E i (f res) g') : Keeps E i (Api.kvGet key >>= f) g := by
  intro g' hr r w ho
  obtain ⟨rfl, hres⟩ := ho.kvGet
  exact ⟨g', rfl, .of_world fun _ _ hid => hid, h g' r hr hres⟩

/-- An issue read is one its card fits. -/
theorem getIssue {id : String} {f : Except String Issue → Api β}
    (h : ∀ g' res, Book.Rely i g.1 g'.1 → (∀ j, res = .ok j → j.id = id ∧ ∃ c, g'.1.cards id = some c ∧ c.Fits j) →
      Keeps E i (f res) g') : Keeps E i (Store.getIssue id >>= f) g := by
  unfold Store.getIssue
  rw [Proc.bind_assoc]
  apply kvGet
  intro g' res hr hres
  rcases hres with rfl | ⟨err, rfl⟩
  · rw [g'.2.sound.kv_issue]
    cases hi : g'.1.world.issue id with
    | none => exact h g' _ hr (by simp)
    | some j =>
      refine h g' _ hr fun k hk => ?_
      cases hk
      exact ⟨g'.2.sound.issue_id hi, g'.2.record id _ hi⟩
  · exact h g' _ hr (by simp)

/-! ## Reading lists -/

section lists
variable {s : String} {l : ListID}

theorem legacyIssueRef {f : Except String (List IssueRef × Option Value) → Api β}
    (h : ∀ g' res, Book.Rely i g.1 g'.1 →
      (∀ list old, res = .ok (list, old) → decodeList old = some list ∧ g'.1.world.list (listKey s l) = list) →
      Keeps E i (f res) g') : Keeps E i (Store.legacyIssueRef s l >>= f) g := by
  unfold Store.legacyIssueRef
  rw [Proc.bind_assoc]
  apply kvGet
  intro g' res hr hres
  rcases hres with rfl | ⟨err, rfl⟩
  · cases hk : g'.1.world.kv (listKey s l) with
    | none =>
      refine h g' _ hr fun list old he => ?_
      cases he
      exact ⟨rfl, by rw [World.list, hk]; rfl⟩
    | some value =>
      simp only
      cases hv : unmarshalIDs value with
      | error err => exact h g' _ hr (by simp)
      | ok list =>
        refine h g' _ hr fun list' old he => ?_
        cases he
        have hd : decodeList (some value) = some (list.map legacyRef) := by
          cases value with
          | legacy id rest => cases hv; rfl
          | refs refs =>
            cases refs with
            | nil => cases hv; rfl
            | cons => cases hv
          | issue | text => cases hv
        exact ⟨hd, by rw [World.list, hk, hd]; rfl⟩
  · exact h g' _ hr (by simp)

theorem getList {f : Except String (List IssueRef × Option Value) → Api β}
    (h : ∀ g' res, Book.Rely i g.1 g'.1 →
      (∀ list old, res = .ok (list, old) → decodeList old = some list ∧ g'.1.world.list (listKey s l) = list) →
      Keeps E i (f res) g') : Keeps E i (Store.getList s l >>= f) g := by
  unfold Store.getList
  rw [Proc.bind_assoc]
  apply kvGet
  intro g' res hr hres
  rcases hres with rfl | ⟨err, rfl⟩
  · cases hk : g'.1.world.kv (listKey s l) with
    | none =>
      refine h g' _ hr fun list old he => ?_
      cases he
      exact ⟨rfl, by rw [World.list, hk]; rfl⟩
    | some value =>
      simp only
      cases hv : unmarshalRefs value with
      | error err => exact legacyIssueRef fun g'' res hr' hres => h g'' res (hr.trans hr') hres
      | ok list =>
        refine h g' _ hr fun list' old he => ?_
        cases he
        cases value with
        | refs refs =>
          cases hv
          exact ⟨rfl, by rw [World.list, hk]; rfl⟩
        | legacy | issue | text => cases hv
  · exact h g' _ hr (by simp)

end lists

/-- **A reference found** is one the cards allow where it was found. -/
def Found (g : Book ι) (u : UserID) (id : String) (l : ListID) (r : IssueRef) : Prop :=
  r.issueID = id ∧ g.cards.Lists u l r

theorem found {g' : BookState E ι} {u : UserID} {id : String} {l : ListID} {list : List IssueRef} {r : IssueRef} {n : Nat}
    (hl : g'.1.world.list (listKey u l) = list) (hf : Store.lookupRef id list = .ok (r, n)) : Found g'.1 u id l r := by
  unfold Store.lookupRef at hf
  split at hf
  · rename_i he
    cases hf
    obtain ⟨hm, hid⟩ := Store.mem_of_findRef he
    exact ⟨hid, g'.2.listed u l r (by rwa [hl])⟩
  · cases hf

theorem getIssueReference {u : UserID} {id : String} {l : ListID} {f : Except String (IssueRef × Nat) → Api β}
    (h : ∀ g' res, Book.Rely i g.1 g'.1 → (∀ r n, res = .ok (r, n) → Found g'.1 u id l r) → Keeps E i (f res) g') :
    Keeps E i (Store.getIssueReference u id l >>= f) g := by
  unfold Store.getIssueReference
  rw [Proc.bind_assoc]
  apply kvGet
  intro g' res hr hres
  rcases hres with rfl | ⟨err, rfl⟩
  · cases hk : g'.1.world.kv (listKey u l) with
    | none => exact h g' _ hr (by simp)
    | some value =>
      simp only
      cases hv : unmarshalRefs value with
      | error err =>
        simp only
        rw [Proc.bind_assoc]
        apply legacyIssueRef
        intro g'' res hr' hres
        cases res with
        | error err => exact h g'' _ (hr.trans hr') (by simp)
        | ok p => exact h g'' _ (hr.trans hr') fun r n he => found (hres p.1 p.2 rfl).2 he
      | ok list =>
        refine h g' _ hr fun r n he => ?_
        cases value with
        | refs refs =>
          cases hv
          exact found (by rw [World.list, hk]; rfl) he
        | legacy | issue | text => cases hv
  · exact h g' _ hr (by simp)

theorem getIssueListAndReference {u : UserID} {id : String} {f : ListID × Option IssueRef × Nat → Api β}
    (h : ∀ g' l o n, Book.Rely i g.1 g'.1 → (∀ r, o = some r → Found g'.1 u id l r) → Keeps E i (f (l, o, n)) g') :
    Keeps E i (Store.getIssueListAndReference u id >>= f) g := by
  unfold Store.getIssueListAndReference
  rw [Proc.bind_assoc]
  apply getIssueReference
  rintro g₁ (err | ⟨r, n⟩) hr₁ hf
  · simp only
    rw [Proc.bind_assoc]
    apply getIssueReference
    rintro g₂ (err | ⟨r, n⟩) hr₂ hf
    · simp only
      rw [Proc.bind_assoc]
      apply getIssueReference
      rintro g₃ (err | ⟨r, n⟩) hr₃ hf
      · exact h g₃ _ _ _ (hr₁.trans (hr₂.trans hr₃)) (by simp)
      · exact h g₃ _ _ _ (hr₁.trans (hr₂.trans hr₃)) fun s hs => by cases hs; exact hf r n rfl
    · exact h g₂ _ _ _ (hr₁.trans hr₂) fun s hs => by cases hs; exact hf r n rfl
  · exact h g₁ _ _ _ hr₁ fun s hs => by cases hs; exact hf r n rfl

/-! ## Changing lists -/

/-- **The loop of the list operations**: it ends without having set the list, or sets it once and then returns, with what
it was to return or an error. -/
theorem editList {γ : Type} {s : String} {l : ListID} {edit : List IssueRef → Store.Edit γ} {exhausted : String}
    {f : Except String γ → Api β} : ∀ (n : Nat) {g : BookState E ι},
    (∀ g' err, Book.Rely i g.1 g'.1 → Keeps E i (f (.error err)) g') →
    (∀ g' : BookState E ι, Book.Rely i g.1 g'.1 → ∀ a list, edit (g'.1.world.list (listKey s l)) = .save a list →
      ∃ g'' : BookState E ι, g''.1.world = g'.1.world.put (listKey s l) (.refs list) ∧ Book.Guar i g'.1 g''.1 ∧
        ∀ res, (res = .ok a ∨ ∃ err, res = .error err) → Keeps E i (f res) g'') →
    Keeps E i (Store.editList s l edit exhausted n >>= f) g
  | 0, g, hno, _        => hno g _ (.refl _ _)
  | n + 1, g, hno, hset => by
    rw [Store.editList, Proc.bind_assoc]
    apply getList
    intro g₁ res hr₁ hres
    cases res with
    | error err => exact hno g₁ err hr₁
    | ok p =>
      obtain ⟨list, old⟩ := p
      obtain ⟨hd, -⟩ := hres list old rfl
      simp only
      cases he : edit list with
      | fail err => exact hno g₁ err hr₁
      | panic => trivial
      | save a newList =>
        simp only
        intro g₂ hr₂ r w ho
        have hr := hr₁.trans hr₂
        rcases ho.kvCompareAndSet with ⟨hk, rfl, hok⟩ | ⟨rfl, hok⟩
        · -- the list compared equal to what was read, so the edit is of what it holds
          have hl : g₂.1.world.list (listKey s l) = list := by rw [World.list, hk, hd]; rfl
          obtain ⟨g₃, hw, hguar, hk⟩ := hset g₂ hr a newList (by rw [hl, he])
          refine ⟨g₃, hw, hguar, ?_⟩
          rcases r with err | _ | _
          · exact hk _ (.inr ⟨err, rfl⟩)
          · exact absurd rfl hok
          · exact hk _ (.inl rfl)
        · refine ⟨g₂, rfl, .of_world fun _ _ hid => hid, ?_⟩
          rcases r with err | _ | _
          · exact hno g₂ err hr
          · exact editList n (fun g' err hr' => hno g' err (hr.trans hr')) fun g' hr' => hset g' (hr.trans hr')
          · exact absurd rfl hok

/-- **An edit that only drops references, or moves them.** -/
theorem editList_sub {γ : Type} {s : String} {l : ListID} {edit : List IssueRef → Store.Edit γ} {exhausted : String}
    (hedit : ∀ list a list', (ids list).Nodup → edit list = .save a list' → (ids list').Nodup ∧ list' ⊆ list)
    {f : Except String γ → Api β} (h : ∀ g' res, Book.Rely i g.1 g'.1 → Keeps E i (f res) g') (n : Nat) :
    Keeps E i (Store.editList s l edit exhausted n >>= f) g := by
  refine editList n (fun g' err hr => h g' _ hr) fun g' hr a list he => ?_
  obtain ⟨hnd, hsub⟩ := hedit _ a list (g'.2.sound.distinct s l) he
  obtain ⟨g'', hw, hguar, hr'⟩ := Book.moved (i := i) (g'.2.put_sub hnd hsub) fun u id hid => by
    rw [World.list_put] at hid
    split at hid
    · rename_i hk
      obtain ⟨r, hm, rfl⟩ := List.mem_map.1 hid
      rw [hk]
      exact List.mem_map.2 ⟨r, hsub hm, rfl⟩
    · exact hid
  exact ⟨g'', hw, hguar, fun res _ => h g'' res (hr.trans hr')⟩

section sub
variable {s id : String} {l : ListID}

theorem removeReference {f : Except String Unit → Api β} (h : ∀ g' res, Book.Rely i g.1 g'.1 → Keeps E i (f res) g') :
    Keeps E i (Store.removeReference s id l >>= f) g := by
  refine editList_sub (fun list a list' hnd he => ?_) h _
  rw [Store.removeEdit_eq hnd] at he
  split at he
  · cases he
    exact ⟨Store.nodup_without hnd, List.filter_subset_self _⟩
  · cases he

theorem bumpReference {f : Except String Unit → Api β} (h : ∀ g' res, Book.Rely i g.1 g'.1 → Keeps E i (f res) g') :
    Keeps E i (Store.bumpReference s id l >>= f) g := by
  refine editList_sub (fun list a list' hnd he => ?_) h _
  rcases Store.bumpEdit_perm id list with ⟨-, hf⟩ | ⟨new, hs, hp⟩
  · cases hf.symm.trans he
  · cases hs.symm.trans he
    exact ⟨(hp.map IssueRef.issueID).nodup_iff.2 hnd, hp.subset⟩

theorem popReference {f : Except String IssueRef → Api β}
    (h : ∀ g' res, Book.Rely i g.1 g'.1 → Keeps E i (f res) g') : Keeps E i (Store.popReference s l >>= f) g := by
  refine editList_sub (fun list a list' hnd he => ?_) h _
  cases list with
  | nil => cases he
  | cons r rest =>
    cases he
    exact ⟨(List.nodup_cons.1 hnd).2, List.subset_cons_self _ _⟩

end sub

section add
variable {u : UserID} {id fu fi : String}

/-- Adding to an owned or a sent list a reference the cards allow there. -/
theorem addReference {l : ListID} (hl : l ≠ .inList) (hr : g.1.cards.Lists u l ⟨id, fi, fu⟩)
    {f : Except String Unit → Api β} (h : ∀ g' res, Book.Rely i g.1 g'.1 → Keeps E i (f res) g') :
    Keeps E i (Store.addReference u id l fu fi >>= f) g := by
  refine editList _ (fun g' err hg => h g' _ hg) fun g' hg a list he => ?_
  rw [Store.addEdit_eq] at he
  split at he
  · cases he
  · rename_i hnew
    cases he
    obtain ⟨g'', hw, hguar, hr'⟩ := Book.moved (i := i)
      (g'.2.append hnew (hr.grow hg.grow) g'.1.holder (fun _ => .inl rfl) fun he => absurd he hl) fun v y hy => by
        rcases World.mem_append hy with hy | ⟨hk, -⟩
        · exact hy
        · exact absurd (listKey_inj.1 hk).2.symm hl
    exact ⟨g'', hw, hguar, fun res _ => h g'' res (hg.trans hr')⟩

/-- **Adding to an In list** a copy that is held: it is held no more. -/
theorem addReceived (hr : g.1.cards.Copy u ⟨id, fi, fu⟩) (hheld : g.1.holder id = some i)
    {f : Except String Unit → Api β} (h : ∀ g' res, Cards.Grow g.1.cards g'.1.cards → Keeps E i (f res) g') :
    Keeps E i (Store.addReference u id .inList fu fi >>= f) g := by
  refine editList _ (fun g' err hg => h g' _ hg.grow) fun g' hg a list he => ?_
  rw [Store.addEdit_eq] at he
  split at he
  · cases he
  · rename_i hnew
    cases he
    obtain ⟨hheld', -⟩ := hg.held id hheld
    have hspent : ∀ y, Function.update g'.1.holder id none y = g'.1.holder y ∨
        Function.update g'.1.holder id none y = none := by
      intro y
      by_cases hy : y = id
      · exact .inr (by rw [hy, Function.update_self])
      · exact .inl (Function.update_of_ne hy _ _)
    have hk := g'.2.append hnew (l := .inList) (r := ⟨id, fi, fu⟩) (hr.grow hg.grow) _ hspent
      fun _ => Function.update_self ..
    refine ⟨⟨_, hk⟩, rfl, .of_own (.refl _) (fun y hne _ => ?_) fun v y hy => ?_, fun res _ => h _ res hg.grow⟩
    · exact ⟨Function.update_of_ne (fun he => hne (by rw [he, hheld'])) _ _, rfl⟩
    · exact (World.mem_append hy).imp_right fun ⟨_, he⟩ => by rw [he, hheld']

end add

/-! ## Records -/

/-- **A new todo** has an id that is held, and no card yet. -/
theorem newIssue {message postPermalink description postID : String} {f : Issue → Api β}
    (h : ∀ g' j, Book.Rely i g.1 g'.1 → g'.1.holder j.id = some i → g'.1.cards j.id = none →
      j.postPermalink = postPermalink → j.postID = postID → Keeps E i (f j) g') :
    Keeps E i (newIssue message postPermalink description postID >>= f) g := by
  intro g₁ hr₁ id w ho
  obtain ⟨rfl, rfl⟩ := ho.newId
  obtain ⟨hcard, hholder⟩ := g₁.2.undrawn
  have hfresh : ∀ y, (g₁.1.holder y ≠ none ∨ g₁.1.cards y ≠ none) → y ≠ E.newId g₁.1.world.drawn := by
    rintro y h rfl
    exact h.elim (fun h => h hholder) fun h => h hcard
  refine ⟨⟨_, g₁.2.draw i⟩, rfl, .of_own (.refl _) (fun y _ hy => ?_) fun _ _ hin => .inl hin, ?_⟩
  · exact ⟨Function.update_of_ne (hfresh y hy) _ _, rfl⟩
  · intro g₂ hr₂ createAt w ho
    obtain ⟨g₃, hw, hguar, hr₃⟩ := aside_step (i := i) (c := .getMillis) (.inl trivial) ho
    have hdrawn : Book.Rely i g₁.1 g₃.1 := by
      refine ⟨hr₂.grow.trans hr₃.grow, fun y hy => (hr₂.trans hr₃).held y ?_⟩
      exact (Function.update_of_ne (hfresh y (.inl (by simp [hy]))) _ _).trans hy
    obtain ⟨h1, h2⟩ := (hr₂.trans hr₃).held _ (Function.update_self ..)
    exact ⟨g₃, hw, hguar, h g₃ _ (hr₁.trans hdrawn) h1 (h2.trans hcard) rfl rfl⟩

/-- **Saving a new todo** makes its card, whether it is saved or not. -/
theorem saveNew {j : Issue} {c : Card} (hheld : g.1.holder j.id = some i) (hnone : g.1.cards j.id = none) (hf : c.Fits j)
    (hsrc : ∀ x u, c.source = some (x, u) → ∃ d, g.1.cards x = some d ∧ d.owner = u ∧ d.source = none ∧
      d.postPermalink = c.postPermalink ∧ d.postID = c.postID) {f : Except String Unit → Api β}
    (h : ∀ g' res, Cards.Grow g.1.cards g'.1.cards → g'.1.cards j.id = some c → g'.1.holder j.id = some i →
      Keeps E i (f res) g') : Keeps E i (Store.saveIssue j >>= f) g := by
  intro g₁ hr₁ res w ho
  obtain ⟨hheld₁, hnone₁⟩ := hr₁.held _ hheld
  rw [hnone] at hnone₁
  obtain ⟨hk, hgrow⟩ := g₁.2.issue hheld₁ hnone₁ fun x u hx => by
    obtain ⟨d, hd, hrest⟩ := hsrc x u hx
    exact ⟨d, hr₁.grow x d hd, hrest⟩
  have hown : ∀ y, g₁.1.holder y ≠ some i → Function.update g₁.1.cards j.id (some c) y = g₁.1.cards y := fun y hy =>
    Function.update_of_ne (fun he => hy (by rw [he, hheld₁])) _ _
  rcases ho.kvSet with rfl | ⟨rfl, -⟩
  · refine ⟨⟨_, hk.save (Function.update_self ..) hf⟩, rfl, .of_own hgrow (fun y hy _ => ⟨rfl, hown y hy⟩) ?_, ?_⟩
    · intro u y hy
      exact .inl (by rwa [← g₁.2.sound.list_save j])
    · exact h _ res (hr₁.grow.trans hgrow) (Function.update_self ..) hheld₁
  · refine ⟨⟨_, hk⟩, rfl, .of_own hgrow (fun y hy _ => ⟨rfl, hown y hy⟩) fun _ _ hy => .inl hy, ?_⟩
    exact h _ res (hr₁.grow.trans hgrow) (Function.update_self ..) hheld₁

/-- Saving a todo again, with its card's parts unchanged. -/
theorem saveIssue {j : Issue} {c : Card} (hc : g.1.cards j.id = some c) (hf : c.Fits j) {f : Except String Unit → Api β}
    (h : ∀ g' res, Book.Rely i g.1 g'.1 → Keeps E i (f res) g') : Keeps E i (Store.saveIssue j >>= f) g := by
  intro g₁ hr₁ res w ho
  have hmoved : ∃ g₂ : BookState E ι, g₂.1.world = w ∧ Book.Guar i g₁.1 g₂.1 ∧ Book.Rely i g₁.1 g₂.1 := by
    rcases ho.kvSet with rfl | ⟨rfl, -⟩
    · refine Book.moved (g₁.2.save (hr₁.grow _ _ hc) hf) fun u y hy => ?_
      rwa [← g₁.2.sound.list_save j]
    · exact Book.moved g₁.2 fun _ _ hy => hy
  obtain ⟨g₂, hw, hguar, hr₂⟩ := hmoved
  exact ⟨g₂, hw, hguar, h g₂ res (hr₁.trans hr₂)⟩

theorem removeIssue {id : String} {f : Except String Unit → Api β}
    (h : ∀ g' res, Book.Rely i g.1 g'.1 → Keeps E i (f res) g') : Keeps E i (Store.removeIssue id >>= f) g := by
  intro g₁ hr₁ res w ho
  have hmoved : ∃ g₂ : BookState E ι, g₂.1.world = w ∧ Book.Guar i g₁.1 g₂.1 ∧ Book.Rely i g₁.1 g₂.1 := by
    rcases ho.kvDelete with rfl | rfl
    · refine Book.moved (g₁.2.delete id) fun u y hy => ?_
      rwa [show g₁.1.world.list = _ from (congrArg Board.list (g₁.2.sound.board_delete_issue id)).symm]
    · exact Book.moved g₁.2 fun _ _ hy => hy
  obtain ⟨g₂, hw, hguar, hr₂⟩ := hmoved
  exact ⟨g₂, hw, hguar, h g₂ res (hr₁.trans hr₂)⟩

theorem getAndRemoveIssue {id : String} {f : Except String Issue → Api β}
    (h : ∀ g' res, Book.Rely i g.1 g'.1 → Keeps E i (f res) g') : Keeps E i (Store.getAndRemoveIssue id >>= f) g := by
  unfold Store.getAndRemoveIssue
  rw [Proc.bind_assoc]
  apply getIssue
  rintro g₁ (err | j) hr₁ -
  · exact h g₁ _ hr₁
  · simp only
    rw [Proc.bind_assoc]
    apply removeIssue
    rintro g₂ (err | _) hr₂
    · exact h g₂ _ (hr₁.trans hr₂)
    · exact h g₂ _ (hr₁.trans hr₂)

end Keeps
end rules
end Todo

import TodoPlugin.Lib.Pool
import TodoPlugin.StoreRun
import Mathlib.Logic.Relation
/-!
# The store's functions in a race

One rule for each function of the store, followed by whatever goes on with its result, when others act in between: what
has to be shown of the rest at each state the others may have made.  The retry loop is taken once, in `Race.editList`: a
try that fails has seen the list changed, so that it is enough to say how many changes there can be.
-/
namespace Todo

open Store (ids without Edit)
open Relation (ReflTransGen)

/-- The list is stored in the legacy encoding. -/
def World.IsLegacy (w : World) (key : String) : Prop := ∃ id rest, w.kv key = some (.legacy id rest)

/-- A reference of a list in the legacy encoding has no other side. -/
theorem World.IsLegacy.foreign {w : World} {key : String} (h : w.IsLegacy key) {r : IssueRef} (hr : r ∈ w.list key) :
    r.foreignUserID = "" := by
  obtain ⟨id, rest, hk⟩ := h
  rw [World.list, hk, decodeList, Option.getD_some, List.mem_map] at hr
  obtain ⟨i, -, rfl⟩ := hr
  rfl

/-- From `w` to `w'` the list has changed at most as `n` has gone down to `n'`, and not from the legacy encoding. -/
def World.Ebbs (key : String) (w w' : World) (n n' : Nat) : Prop :=
  n' ≤ n ∧ (w'.kv key ≠ w.kv key → ¬ w.IsLegacy key ∧ n' < n)

theorem World.Ebbs.refl (key : String) (w : World) (n : Nat) : Ebbs key w w n n := ⟨Nat.le_refl n, fun h => absurd rfl h⟩

theorem World.Ebbs.of_kv {key : String} {w w' : World} {n n' : Nat} (hk : w'.kv key = w.kv key) (hn : n' ≤ n) :
    Ebbs key w w' n n' := ⟨hn, fun h => absurd hk h⟩

theorem World.Ebbs.trans {key : String} {w w' w'' : World} {n n' n'' : Nat} (h : Ebbs key w w' n n')
    (h' : Ebbs key w' w'' n' n'') : Ebbs key w w'' n n'' := by
  refine ⟨Nat.le_trans h'.1 h.1, fun hne => ?_⟩
  by_cases hk : w'.kv key = w.kv key
  · obtain ⟨hleg, hlt⟩ := h'.2 (by rwa [hk])
    refine ⟨fun ⟨id, rest, hl⟩ => hleg ⟨id, rest, hk.trans hl⟩, Nat.lt_of_lt_of_le hlt h.1⟩
  · obtain ⟨hleg, hlt⟩ := h.2 hk
    exact ⟨hleg, Nat.lt_of_le_of_lt h'.1 hlt⟩

/-- One party of a race, over ghost states `Γ`: what the others may do in between its calls, and what each of its own
calls may do.  Calls that change nothing are allowed, unless a read is still to be noted in the ghost state. -/
structure Race (Γ : Type) where
  world : Γ → World
  rely  : Γ → Γ → Prop
  guar  : (c : Call) → Resp c → Γ → Γ → Prop
  noted : String → Γ → Prop
  refl  : ∀ g, rely g g
  trans : ∀ a b c, rely a b → rely b c → rely a c
  get   : ∀ key g, noted key g → guar (.kvGet key) (.ok ((world g).kv key)) g g
  issue : ∀ id g, noted (issueKey id) g
  lost  : ∀ key old new g, (world g).kv key ≠ old → guar (.kvCompareAndSet key old new) (.ok false) g g

/-- The call gets a key in `K`. -/
def Call.Gets (K : String → Prop) : Call → Prop
  | .kvGet key => K key
  | _          => False

namespace Race

variable {Γ : Type} (R : Race Γ) (E : Env) {α β : Type} {post : β → Γ → Prop}

/-- **Safe**: whatever the others do, the procedure does no more than it may and returns within `post`. -/
abbrev Safe (post : β → Γ → Prop) (p : Api β) (g : Γ) : Prop := p.Safe (serve E) R.world R.rely R.guar post g

variable {R E}

theorem Safe.after {p : Api β} {g g' : Γ} (h : R.Safe E post p g) (hr : R.rely g g') : R.Safe E post p g' :=
  Proc.Safe.rely_left R.trans h hr

theorem ret {a : β} {g : Γ} (h : ∀ g', R.rely g g' → post a g') : R.Safe E post (pure a) g := h

/-! ## Issues -/

theorem kvGet {key : String} {f : Except String (Option Value) → Api β} {g : Γ}
    (hn : ∀ g', R.rely g g' → R.noted key g')
    (h : ∀ g', R.rely g g' → R.Safe E post (f (.ok ((R.world g').kv key))) g') :
    R.Safe E post (Api.kvGet key >>= f) g :=
  fun g' hr => ⟨g', rfl, R.get key g' (hn g' hr), h g' hr⟩

theorem getIssue (hs : ∀ g, (R.world g).Sound) {id : String} {f : Except String Issue → Api β} {g : Γ}
    (h : ∀ g', R.rely g g' → R.Safe E post (f ((R.world g').fetch id)) g') :
    R.Safe E post (Store.getIssue id >>= f) g := by
  unfold Store.getIssue
  rw [Proc.bind_assoc]
  apply kvGet (fun g' _ => R.issue id g')
  intro g' hr
  have hf := h g' hr
  rw [World.fetch] at hf
  rw [(hs g').kv_issue]
  cases hi : (R.world g').issue id with
  | none => rw [hi] at hf; exact hf
  | some i => rw [hi] at hf; exact hf

theorem saveIssue {i : Issue} {f : Except String Unit → Api β} {g : Γ}
    (h : ∀ g', R.rely g g' → ∃ g'', R.world g'' = (R.world g').save i ∧
      R.guar (.kvSet (issueKey i.id) (.issue i)) (.ok ()) g' g'' ∧ R.Safe E post (f (.ok ())) g'') :
    R.Safe E post (Store.saveIssue i >>= f) g := h

theorem removeIssue {id : String} {f : Except String Unit → Api β} {g : Γ}
    (h : ∀ g', R.rely g g' → ∃ g'', R.world g'' = (R.world g').delete (issueKey id) ∧
      R.guar (.kvDelete (issueKey id)) (.ok ()) g' g'' ∧ R.Safe E post (f (.ok ())) g'') :
    R.Safe E post (Store.removeIssue id >>= f) g := h

theorem getAndRemoveIssue (hs : ∀ g, (R.world g).Sound) {id : String} {f : Except String Issue → Api β} {g : Γ}
    (hnone : ∀ g', R.rely g g' → (R.world g').issue id = none → R.Safe E post (f (.error "cannot find issue")) g')
    (hsome : ∀ g' i, R.rely g g' → ∃ g'', R.world g'' = (R.world g').delete (issueKey id) ∧
      R.guar (.kvDelete (issueKey id)) (.ok ()) g' g'' ∧ R.Safe E post (f (.ok i)) g'') :
    R.Safe E post (Store.getAndRemoveIssue id >>= f) g := by
  unfold Store.getAndRemoveIssue
  rw [Proc.bind_assoc]
  apply getIssue hs
  intro g₁ hr₁
  rw [World.fetch]
  cases hi : (R.world g₁).issue id with
  | none => exact hnone g₁ hr₁ hi
  | some i =>
    simp only
    rw [Proc.bind_assoc]
    exact removeIssue fun g₂ hr₂ => hsome g₂ i (R.trans _ _ _ hr₁ hr₂)

/-! ## Reading -/

/-- **Reading what the others leave alone** answers as it would alone. -/
theorem reads {K : String → Prop} {w : World} {a : α} {f : α → Api β} (hn : ∀ key g, R.noted key g) :
    ∀ {p : Api α} {g : Γ}, p.Only (Call.Gets K) False →
      (∀ g', R.rely g g' → ∀ key, K key → (R.world g').kv key = w.kv key) → (p.run (serve E) w).1 = some a →
      (∀ g', R.rely g g' → R.Safe E post (f a) g') → R.Safe E post (p >>= f) g
  | .ret _, g, _, _, hrun, h => by
    cases hrun
    exact h g (R.refl g)
  | .call (.kvGet key) _, _, ⟨hkey, hk⟩, hsame, hrun, h => fun g' hr => by
    have hkv := hsame g' hr key hkey
    refine ⟨g', rfl, R.get key g' (hn key g'), ?_⟩
    rw [serve, hkv]
    exact reads hn (hk _) (fun g'' hr' => hsame g'' (R.trans _ _ _ hr hr')) hrun
      fun g'' hr' => h g'' (R.trans _ _ _ hr hr')

/-- Reading, whatever it answers. -/
theorem reads_any {K : String → Prop} {f : α → Api β} (hn : ∀ key g, R.noted key g)
    (h : ∀ a g, R.Safe E post (f a) g) :
    ∀ {p : Api α} {g : Γ}, p.Only (Call.Gets K) False → R.Safe E post (p >>= f) g
  | .ret a, g, _                     => h a g
  | .call (.kvGet key) _, _, ⟨_, hk⟩ => fun g' _ => ⟨g', rfl, R.get key g' (hn key g'), reads_any hn h (hk _)⟩

/-! ## Searching lists -/

/-- What a search of one list answers. -/
def Finds (w : World) (userID issueID : String) (listID : ListID) : Except String (IssueRef × Nat) → Prop
  | .ok (r, _) => r ∈ w.list (listKey userID listID) ∧ r.issueID = issueID
  | .error _   => issueID ∉ ids (w.list (listKey userID listID))

theorem finds_lookupRef {list : List IssueRef} {w : World} {u id : String} {l : ListID}
    (hl : w.list (listKey u l) = list) : Finds w u id l (Store.lookupRef id list) := by
  subst hl
  unfold Store.lookupRef
  cases hf : Store.findRef id 0 (w.list (listKey u l)) with
  | none => exact Store.findRef_eq_none.1 hf
  | some p => exact Store.mem_of_findRef hf

/-- From `g` on, the list may be searched for the issue, which it does not have while it is in the legacy encoding. -/
def Clear (R : Race Γ) (userID issueID : String) (listID : ListID) (g : Γ) : Prop :=
  ∀ g', R.rely g g' → R.noted (listKey userID listID) g' ∧
    ((R.world g').IsLegacy (listKey userID listID) → issueID ∉ ids ((R.world g').list (listKey userID listID)))

theorem Clear.after {u id : String} {l : ListID} {g g' : Γ} (h : R.Clear u id l g) (hr : R.rely g g') :
    R.Clear u id l g' := fun g'' hr' => h g'' (R.trans _ _ _ hr hr')

/-- The second read of a list in the legacy encoding: it answers with what is there by then, unless that is a list in the
current one. -/
theorem legacyIssueRef {u : String} {l : ListID}
    (hdec : ∀ g, ∃ list, decodeList ((R.world g).kv (listKey u l)) = some list)
    {f : Except String (List IssueRef × Option Value) → Api β} {g : Γ}
    (hn : ∀ g', R.rely g g' → R.noted (listKey u l) g')
    (h : ∀ g', R.rely g g' →
      R.Safe E post (f (.ok ((R.world g').list (listKey u l), (R.world g').kv (listKey u l)))) g')
    (hgarbled : ∀ g' r rs, R.rely g g' → (R.world g').kv (listKey u l) = some (.refs (r :: rs)) →
      R.Safe E post (f (.error jsonError)) g') :
    R.Safe E post (Store.legacyIssueRef u l >>= f) g := by
  unfold Store.legacyIssueRef
  rw [Proc.bind_assoc]
  apply kvGet hn
  intro g' hr
  have h' := h g' hr
  have hd := World.decode_list (hdec g')
  generalize (R.world g').list (listKey u l) = list at h' hd
  cases hk : (R.world g').kv (listKey u l) with
  | none =>
    rw [hk] at h' hd
    cases hd
    exact h'
  | some value =>
    rw [hk] at h' hd
    cases value with
    | refs list =>
      cases list with
      | nil => cases hd; exact h'
      | cons r rs => exact hgarbled g' r rs hr hk
    | legacy id rest => cases hd; exact h'
    | issue i => cases hd
    | text t => cases hd

/-- A list in the legacy encoding is read twice; it does not have the issue, so that being garbled in between is as
good as being read at first. -/
theorem getIssueReference (hs : ∀ g, (R.world g).Sound) {u id : String} {l : ListID} {g : Γ} (hc : R.Clear u id l g)
    {f : Except String (IssueRef × Nat) → Api β}
    (h : ∀ g' res, R.rely g g' → Finds (R.world g') u id l res → R.Safe E post (f res) g') :
    R.Safe E post (Store.getIssueReference u id l >>= f) g := by
  unfold Store.getIssueReference
  rw [Proc.bind_assoc]
  apply kvGet (fun g' hr => (hc g' hr).1)
  intro g₁ hr₁
  have hd₁ := (hs g₁).decode_eq u l
  cases hk₁ : (R.world g₁).kv (listKey u l) with
  | none =>
    rw [hk₁] at hd₁
    exact h g₁ _ hr₁ (show id ∉ ids _ by rw [← Option.some.inj hd₁]; exact List.not_mem_nil)
  | some value =>
    rw [hk₁] at hd₁
    cases value with
    | refs list => exact h g₁ _ hr₁ (finds_lookupRef (Option.some.inj hd₁).symm)
    | legacy i rest =>
      simp only [unmarshalRefs]
      rw [Proc.bind_assoc]
      apply legacyIssueRef (fun g => (hs g).decodes u l) (fun g' hr => (hc g' (R.trans _ _ _ hr₁ hr)).1)
      · exact fun g₂ hr₂ => h g₂ _ (R.trans _ _ _ hr₁ hr₂) (finds_lookupRef rfl)
      · intro g₂ r rs hr₂ _
        exact (h g₁ (.error jsonError) hr₁ ((hc g₁ hr₁).2 ⟨i, rest, hk₁⟩)).after hr₂
    | issue i => cases hd₁
    | text t => cases hd₁

/-- **The search of the three lists**, each at its own time. -/
theorem getIssueListAndReference (hs : ∀ g, (R.world g).Sound) {u id : String} {g : Γ} (hc : ∀ l, R.Clear u id l g)
    {f : ListID × Option IssueRef × Nat → Api β}
    (hfound : ∀ g' l r n, R.rely g g' → r ∈ (R.world g').list (listKey u l) → r.issueID = id →
      R.Safe E post (f (l, some r, n)) g')
    (hnone : ∀ g₁ g₂ g₃, R.rely g g₁ → R.rely g₁ g₂ → R.rely g₂ g₃ →
      id ∉ ids ((R.world g₁).list (listKey u .myList)) → id ∉ ids ((R.world g₂).list (listKey u .outList)) →
      id ∉ ids ((R.world g₃).list (listKey u .inList)) → R.Safe E post (f (.myList, none, 0)) g₃) :
    R.Safe E post (Store.getIssueListAndReference u id >>= f) g := by
  unfold Store.getIssueListAndReference
  rw [Proc.bind_assoc]
  apply getIssueReference hs (hc .myList)
  intro g₁ res hr₁ hf₁
  match res, hf₁ with
  | .ok (r, n), ⟨hr, he⟩ => exact hfound g₁ .myList r n hr₁ hr he
  | .error _, hno₁ =>
    simp only
    rw [Proc.bind_assoc]
    apply getIssueReference hs ((hc .outList).after hr₁)
    intro g₂ res hr₂ hf₂
    match res, hf₂ with
    | .ok (r, n), ⟨hr, he⟩ => exact hfound g₂ .outList r n (R.trans _ _ _ hr₁ hr₂) hr he
    | .error _, hno₂ =>
      simp only
      rw [Proc.bind_assoc]
      apply getIssueReference hs (((hc .inList).after hr₁).after hr₂)
      intro g₃ res hr₃ hf₃
      match res, hf₃ with
      | .ok (r, n), ⟨hr, he⟩ =>
        exact hfound g₃ .inList r n (R.trans _ _ _ (R.trans _ _ _ hr₁ hr₂) hr₃) hr he
      | .error _, hno₃ => exact hnone g₁ g₂ g₃ hr₁ hr₂ hr₃ hno₁ hno₂ hno₃

/-! ## Changing lists -/

/-- A list in the legacy encoding is read twice, and garbled when it was changed in between. -/
theorem getList {u : String} {l : ListID} (hdec : ∀ g, ∃ list, decodeList ((R.world g).kv (listKey u l)) = some list)
    {f : Except String (List IssueRef × Option Value) → Api β} {g : Γ}
    (hn : ∀ g', R.rely g g' → R.noted (listKey u l) g')
    (h : ∀ g', R.rely g g' →
      R.Safe E post (f (.ok ((R.world g').list (listKey u l), (R.world g').kv (listKey u l)))) g')
    (hgarbled : ∀ g₁ g₂ e, R.rely g g₁ → R.rely g₁ g₂ → (R.world g₁).IsLegacy (listKey u l) →
      (R.world g₂).kv (listKey u l) ≠ (R.world g₁).kv (listKey u l) → R.Safe E post (f (.error e)) g₂) :
    R.Safe E post (Store.getList u l >>= f) g := by
  unfold Store.getList
  rw [Proc.bind_assoc]
  apply kvGet hn
  intro g₁ hr₁
  have h₁ := h g₁ hr₁
  have hd₁ := World.decode_list (hdec g₁)
  generalize (R.world g₁).list (listKey u l) = list₁ at h₁ hd₁
  cases hk₁ : (R.world g₁).kv (listKey u l) with
  | none =>
    rw [hk₁] at h₁ hd₁
    cases hd₁
    exact h₁
  | some value =>
    cases value with
    | refs list =>
      rw [hk₁] at h₁ hd₁
      cases hd₁
      exact h₁
    | legacy id rest =>
      -- the second read, in another state
      simp only [unmarshalRefs]
      apply legacyIssueRef hdec (fun g' hr => hn g' (R.trans _ _ _ hr₁ hr))
      · exact fun g₂ hr₂ => h g₂ (R.trans _ _ _ hr₁ hr₂)
      · intro g₂ r rs hr₂ hk₂
        apply hgarbled g₁ g₂ jsonError hr₁ hr₂ ⟨id, rest, hk₁⟩
        rw [hk₁, hk₂]
        simp
    | issue i => rw [hk₁] at hd₁; cases hd₁
    | text t => rw [hk₁] at hd₁; cases hd₁

/-- **The retry loop.**  `tries g n` says that `n` tries are enough at `g`, and each change of the list by the others
may take one. -/
theorem editList {u : String} {l : ListID} {edit : List IssueRef → Edit α} {exhausted : String}
    (hdec : ∀ g, ∃ list, decodeList ((R.world g).kv (listKey u l)) = some list) (tries : Γ → Nat → Prop)
    {f : Except String α → Api β} :
    ∀ (n : Nat) (g : Γ), tries g n → (∀ g', R.rely g g' → R.noted (listKey u l) g') →
      (∀ g₁ g₂ n, R.rely g g₁ → R.rely g₁ g₂ → tries g₁ (n + 1) → tries g₂ (n + 1) ∧
        ((R.world g₂).kv (listKey u l) ≠ (R.world g₁).kv (listKey u l) → tries g₂ n)) →
      (∀ g', R.rely g g' → tries g' 0 → R.Safe E post (f (.error exhausted)) g') →
      (∀ g₁ g₂ e, R.rely g g₁ → R.rely g₁ g₂ → (R.world g₁).IsLegacy (listKey u l) →
        (R.world g₂).kv (listKey u l) ≠ (R.world g₁).kv (listKey u l) → R.Safe E post (f (.error e)) g₂) →
      (∀ g', R.rely g g' → match edit ((R.world g').list (listKey u l)) with
        | .fail e => R.Safe E post (f (.error e)) g'
        | .panic => False
        | .save a list => ∃ g'', R.world g'' = (R.world g').put (listKey u l) (.refs list) ∧
          R.guar (.kvCompareAndSet (listKey u l) ((R.world g').kv (listKey u l)) (.refs list)) (.ok true) g' g'' ∧
          R.Safe E post (f (.ok a)) g'') →
      R.Safe E post (Store.editList u l edit exhausted n >>= f) g
  | 0, g, hn, _, _, hex, _, _ => hex g (R.refl g) hn
  | n + 1, g, hn, hnote, htry, hex, hgarbled, h => by
    rw [Store.editList, Proc.bind_assoc]
    refine getList hdec hnote (fun g₁ hr₁ => ?_) fun g₁ g₂ e hr₁ hr₂ hleg hne => hgarbled g₁ g₂ e hr₁ hr₂ hleg hne
    have h₁ := h g₁ hr₁
    cases hedit : edit ((R.world g₁).list (listKey u l)) with
    | fail e =>
      rw [hedit] at h₁
      simp only [hedit]
      exact h₁
    | panic =>
      rw [hedit] at h₁
      exact h₁.elim
    | save a list =>
      simp only [hedit]
      rw [Proc.bind_assoc]
      intro g₂ hr₂
      have hr : R.rely g g₂ := R.trans _ _ _ hr₁ hr₂
      by_cases hsame : (R.world g₂).kv (listKey u l) = (R.world g₁).kv (listKey u l)
      · have h₂ := h g₂ hr
        have hlist : (R.world g₂).list (listKey u l) = (R.world g₁).list (listKey u l) := by
          rw [World.list, hsame, World.list]
        rw [hlist, hedit] at h₂
        obtain ⟨g₃, hs₃, hg₃, hf₃⟩ := h₂
        simp only [serve, if_pos hsame]
        rw [hsame] at hg₃
        exact ⟨g₃, hs₃, hg₃, hf₃⟩
      · -- the list was changed: one try fewer, and once more
        simp only [serve, if_neg hsame]
        refine ⟨g₂, rfl, R.lost _ _ _ g₂ hsame, ?_⟩
        have hn₂ := (htry g₁ g₂ n hr₁ hr₂ (htry g g₁ n (R.refl g) hr₁ hn).1).2 hsame
        exact editList hdec tries n g₂ hn₂ (fun g' hr' => hnote g' (R.trans _ _ _ hr hr'))
          (fun g₃ g₄ m hr₃ => htry g₃ g₄ m (R.trans _ _ _ hr hr₃))
          (fun g' hr' => hex g' (R.trans _ _ _ hr hr')) (fun g₃ g₄ e hr₃ => hgarbled g₃ g₄ e (R.trans _ _ _ hr hr₃))
          fun g' hr' => h g' (R.trans _ _ _ hr hr')

/-- From `g` on, the others change the list at most `fuel` times, and never from the legacy encoding. -/
def Calm (R : Race Γ) (key : String) (fuel : Γ → Nat) (g : Γ) : Prop :=
  fuel g < storeRetries ∧ (∀ g', R.rely g g' → R.noted key g') ∧ ∀ g₁ g₂, R.rely g g₁ → R.rely g₁ g₂ →
    World.Ebbs key (R.world g₁) (R.world g₂) (fuel g₁) (fuel g₂)

/-- A loop over a calm list ends before its tries do. -/
theorem editList_calm (hs : ∀ g, (R.world g).Sound) {u : String} {l : ListID} {edit : List IssueRef → Edit α}
    {exhausted : String} {fuel : Γ → Nat} {g : Γ} (hcalm : R.Calm (listKey u l) fuel g) {f : Except String α → Api β}
    (h : ∀ g', R.rely g g' → match edit ((R.world g').list (listKey u l)) with
      | .fail e => R.Safe E post (f (.error e)) g'
      | .panic => False
      | .save a list => ∃ g'', R.world g'' = (R.world g').put (listKey u l) (.refs list) ∧
        R.guar (.kvCompareAndSet (listKey u l) ((R.world g').kv (listKey u l)) (.refs list)) (.ok true) g' g'' ∧
        R.Safe E post (f (.ok a)) g'') :
    R.Safe E post (Store.editList u l edit exhausted storeRetries >>= f) g := by
  obtain ⟨hlt, hnote, hcalm⟩ := hcalm
  refine editList (fun g => (hs g).decodes u l) (fun g n => fuel g < n) storeRetries g hlt hnote
    (fun g₁ g₂ n hr₁ hr₂ hn => ?_) (fun g' _ h0 => absurd h0 (Nat.not_lt_zero _))
    (fun g₁ g₂ e hr₁ hr₂ hleg hne => absurd hleg ((hcalm g₁ g₂ hr₁ hr₂).2 hne).1) h
  obtain ⟨hle, hch⟩ := hcalm g₁ g₂ hr₁ hr₂
  refine ⟨Nat.lt_of_le_of_lt hle hn, fun hne => ?_⟩
  have := (hch hne).2
  omega

theorem addReference (hs : ∀ g, (R.world g).Sound) {u id : String} {l : ListID} {fu fi : String} {fuel : Γ → Nat}
    {g : Γ} (hcalm : R.Calm (listKey u l) fuel g) {f : Except String Unit → Api β}
    (hnew : ∀ g', R.rely g g' → id ∉ ids ((R.world g').list (listKey u l)))
    (h : ∀ g', R.rely g g' → ∃ g'', R.world g'' = (R.world g').append u l ⟨id, fi, fu⟩ ∧
      R.guar (.kvCompareAndSet (listKey u l) ((R.world g').kv (listKey u l))
        (.refs ((R.world g').list (listKey u l) ++ [⟨id, fi, fu⟩]))) (.ok true) g' g'' ∧
      R.Safe E post (f (.ok ())) g'') :
    R.Safe E post (Store.addReference u id l fu fi >>= f) g := by
  apply editList_calm hs hcalm
  intro g' hr
  rw [Store.addEdit_eq, if_neg (hnew g' hr)]
  exact h g' hr

theorem removeReference (hs : ∀ g, (R.world g).Sound) {u id : String} {l : ListID} {fuel : Γ → Nat} {g : Γ}
    (hcalm : R.Calm (listKey u l) fuel g) {f : Except String Unit → Api β}
    (hout : ∀ g', R.rely g g' → id ∉ ids ((R.world g').list (listKey u l)) →
      R.Safe E post (f (.error "cannot find issue")) g')
    (h : ∀ g', R.rely g g' → id ∈ ids ((R.world g').list (listKey u l)) →
      ∃ g'', R.world g'' = (R.world g').unlist u id l ∧
        R.guar (.kvCompareAndSet (listKey u l) ((R.world g').kv (listKey u l))
          (.refs (without id ((R.world g').list (listKey u l))))) (.ok true) g' g'' ∧
        R.Safe E post (f (.ok ())) g'') :
    R.Safe E post (Store.removeReference u id l >>= f) g := by
  apply editList_calm hs hcalm
  intro g' hr
  rw [Store.removeEdit_eq ((hs g').distinct u l)]
  by_cases hm : id ∈ ids ((R.world g').list (listKey u l))
  · rw [if_pos hm]
    obtain ⟨g'', hw, hg, hf⟩ := h g' hr hm
    exact ⟨g'', by rw [hw, World.unlist, if_pos hm], hg, hf⟩
  · rw [if_neg hm]
    exact hout g' hr hm

/-! ## Two parties -/

/-- Side `i` of a race of two, each making steps of its own on states that keep an invariant. -/
def ofSteps {σ : Type} {Inv : σ → Prop} (world : σ → World) (step : Bool → σ → σ → Prop) (i : Bool) :
    Race { g : σ // Inv g } where
  world g          := world g.1
  rely g g'        := ReflTransGen (step (!i)) g.1 g'.1
  guar _ _ g g'    := g' = g ∨ step i g.1 g'.1
  noted _ _        := True
  refl _           := .refl
  trans _ _ _ h h' := h.trans h'
  get _ _ _        := .inl rfl
  issue _ _        := trivial
  lost _ _ _ _ _   := .inl rfl

theorem ofSteps_compat {σ : Type} {Inv : σ → Prop} {world : σ → World} {step : Bool → σ → σ → Prop} (i j : Bool)
    (c : Call) (r : Resp c) (g g' : { g : σ // Inv g }) (hij : i ≠ j) (h : (ofSteps world step i).guar c r g g') :
    (ofSteps world step j).rely g g' := by
  obtain rfl : i = !j := by cases i <;> cases j <;> simp_all
  rcases h with rfl | h
  · exact .refl
  · exact .single h

end Race
end Todo

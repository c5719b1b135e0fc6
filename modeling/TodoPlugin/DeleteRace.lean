import TodoPlugin.PairRace
import TodoPlugin.Quiet
/-!
# A todo edited while it is deleted

A deletion takes references out of lists and deletes the records they were to.  An edit leaves the lists alone, so that
the deletion goes as it would by itself, but it sets a record some time after it has read it, whatever became of the
record in between: a record without a reference is one that was set again once it was deleted.
-/
namespace Todo

open Store (ids)

namespace Board

/-- **Every record is referenced**, by some list of some user. -/
def NoLeftovers (b : Board) : Prop := ∀ id, b.Absent id → b.issue id = none

/-- Every reference with another side is matched, in whichever list it is, and there is a record for every reference
and a reference for every record. -/
structure Whole (b : Board) : Prop extends OutPaired b where
  back        : ∀ {u l r}, r ∈ b.refs u l → l ≠ .outList → r.foreignUserID ≠ "" →
    ∃ v, r.foreignUserID = UserID.val v ∧ r.mirror u ∈ b.refs v .outList
  noLeftovers : b.NoLeftovers

/-- The counterpart of a reference: one of the two is in an Out list. -/
theorem Whole.counterpart {b : Board} (h : b.Whole) {u : UserID} {l : ListID} {r : IssueRef} (hr : r ∈ b.refs u l)
    (hf : r.foreignUserID ≠ "") :
    ∃ v m, r.foreignUserID = UserID.val v ∧ r.mirror u ∈ b.refs v m ∧ (ListID.outList = m ↔ l ≠ .outList) ∧
      r.foreignIssueID ≠ r.issueID := by
  have hne : ∀ {v m}, r.mirror u ∈ b.refs v m → l ≠ m → r.foreignIssueID ≠ r.issueID := by
    intro v m hm hlm he
    exact hlm (h.one hr hm he.symm).2
  by_cases hl : l = .outList
  · subst hl
    obtain ⟨v, m, hv, hm, hmem⟩ := h.out hr
    exact ⟨v, m, hv, hmem, by simp [hm.symm], hne hmem hm.symm⟩
  · obtain ⟨v, hv, hmem⟩ := h.back hr hl hf
    exact ⟨v, .outList, hv, hmem, by simp [hl], hne hmem hl⟩

theorem Paired.whole {b : Board} (h : b.Paired) (hno : b.NoLeftovers) : b.Whole where
  toOutPaired := h.outPaired
  back {u l r} hr hl hf := by
    cases l with
    | myList =>
      rcases h.my hr with ⟨he, -⟩ | hv
      · exact absurd he hf
      · exact hv
    | inList => exact h.inn hr
    | outList => exact absurd rfl hl
  noLeftovers := hno

theorem Whole.there {b : Board} (h : b.Whole) {u : UserID} {l : ListID} {r : IssueRef} (hr : r ∈ b.refs u l) :
    b.issue r.issueID ≠ none := by
  obtain ⟨i, hi⟩ := h.recorded u l r hr
  rw [hi]
  exact Option.some_ne_none i

/-- Taking the only reference to an issue out leaves it, and no other issue, without one. -/
theorem Apart.absent_unlist_iff {b : Board} (h : b.Apart) {u : UserID} {l : ListID} {r : IssueRef}
    (hr : r ∈ b.refs u l) (id : String) :
    (b.unlist (listKey u l) r.issueID).Absent id ↔ b.Absent id ∨ id = r.issueID := by
  constructor
  · intro ha
    by_cases he : id = r.issueID
    · exact .inr he
    · refine .inl (absent_of_forall fun v m s hs hid => ha.ne ((h.mem_unlist hr).2 ⟨hs, ?_⟩) hid)
      rwa [hid]
  · rintro (ha | rfl)
    · exact ha.unlist u l _
    · exact h.absent_unlist hr

/-- Taking the counterpart out as well, from the list `fl`, where it may be or not. -/
theorem Apart.absent_unlist_both {b : Board} (h : b.Apart) {u v : UserID} {l m : ListID} {r : IssueRef}
    (hr : r ∈ b.refs u l) (hm : r.mirror u ∈ b.refs v m) (hne : r.foreignIssueID ≠ r.issueID) (fl : ListID)
    {id : String} :
    ((b.unlist (listKey u l) r.issueID).unlist (listKey v fl) r.foreignIssueID).Absent id ↔
      b.Absent id ∨ id ∈ (if fl = m then [r.issueID, r.foreignIssueID] else [r.issueID]) := by
  have hm₁ : r.mirror u ∈ (b.unlist (listKey u l) r.issueID).refs v m := (h.mem_unlist hr).2 ⟨hm, hne⟩
  have h₁ := h.unlist u l r.issueID
  by_cases hfl : fl = m
  · subst hfl
    rw [if_pos rfl]
    have hboth := h₁.absent_unlist_iff hm₁ id
    rw [h.absent_unlist_iff hr, or_assoc] at hboth
    simpa [IssueRef.mirror] using hboth
  · have hno : r.foreignIssueID ∉ ids ((b.unlist (listKey u l) r.issueID).refs v fl) := by
      intro hin
      obtain ⟨s, hs, he⟩ := List.mem_map.1 hin
      exact hfl (h₁.one hs hm₁ he).2
    rw [if_neg hfl, unlist_of_not_mem hno, h.absent_unlist_iff hr, List.mem_singleton]

end Board

/-- The operation deletes the todo that `r`, in the list `l` of `u`, is a reference to. -/
inductive ListOp.Deletes (b : Board) (u : UserID) (l : ListID) (r : IssueRef) : ListOp → Prop
  | complete (h : r ∈ b.refs u l) : Deletes b u l r (.completeIssue u r.issueID)
  | remove (h : r ∈ b.refs u l) : Deletes b u l r (.removeIssue u r.issueID)
  | pop {rest : List IssueRef} (hl : l = .myList) (h : b.refs u .myList = r :: rest) : Deletes b u l r (.popIssue u)

/-- The issues a deletion leaves without a reference: the todo and its counterpart, which `CompleteIssue` takes out of
an Out list only. -/
def ListOp.unlisted (l : ListID) (r : IssueRef) : ListOp → List String
  | .completeIssue _ _ =>
    if r.foreignUserID = "" ∨ l = .outList then [r.issueID] else [r.issueID, r.foreignIssueID]
  | _                  => if r.foreignUserID = "" then [r.issueID] else [r.issueID, r.foreignIssueID]

/-! ## What becomes of a record -/

/-- As it was or edited, deleted, or set again once deleted. -/
inductive Fate where
  | kept
  | deleted
  | revived
deriving DecidableEq

/-- What a call makes of the fate of a record. -/
def Call.fate (id : String) : Call → Fate → Fate
  | .kvDelete key, f => if key = issueKey id then .deleted else f
  | .kvSet key _, f  => if key = issueKey id ∧ f = .deleted then .revived else f
  | _, f             => f

/-- The store, and the fates of its records. -/
structure DeleteState where
  world : World
  fate  : String → Fate

/-- What is missing was deleted, or was not there. -/
structure DeleteInv (w₀ : World) (g : DeleteState) : Prop where
  sound  : g.world.Sound
  record : ∀ id, g.world.issue id = none ↔ w₀.issue id = none ∨ g.fate id = .deleted

abbrev DeleteGhost (w₀ : World) := { g : DeleteState // DeleteInv w₀ g }

section race
variable {w₀ : World}

/-- What the edit may do (`true`), and the deletion: the edit changes no list and deletes nothing, the deletion sets no
record and deletes none twice. -/
def deleteGuar (i : Bool) (c : Call) (g g' : DeleteGhost w₀) : Prop :=
  (∀ id, g'.1.fate id = c.fate id (g.1.fate id)) ∧
    (i = true → (∀ key, c ≠ .kvDelete key) ∧ ∀ u l, g'.1.world.kv (listKey u l) = g.1.world.kv (listKey u l)) ∧
    (i = false → (∀ key value, c ≠ .kvSet key value) ∧ ∀ id, c = .kvDelete (issueKey id) → g.1.fate id = .kept)

/-- What the deletion may rely on; the edit relies on nothing. -/
def deleteRely (i : Bool) (g g' : DeleteGhost w₀) : Prop :=
  i = false → (∀ u l, g'.1.world.kv (listKey u l) = g.1.world.kv (listKey u l)) ∧
    ∀ id, g'.1.fate id = .kept ↔ g.1.fate id = .kept

theorem deleteGuar.still {c : Call} {g : DeleteGhost w₀} (hc : ∀ id f, c.fate id f = f)
    (hdel : ∀ key, c ≠ .kvDelete key) (hset : ∀ key value, c ≠ .kvSet key value) (i : Bool) : deleteGuar i c g g :=
  ⟨fun id => (hc id _).symm, fun _ => ⟨hdel, fun _ _ => rfl⟩, fun _ => ⟨hset, fun _ he => absurd he (hdel _)⟩⟩

/-- Side `i` of the race. -/
def deleteRace (w₀ : World) (i : Bool) : Race (DeleteGhost w₀) where
  world g          := g.1.world
  rely             := deleteRely i
  guar c _         := deleteGuar i c
  noted _ _        := True
  refl _ _         := ⟨fun _ _ => rfl, fun _ => .rfl⟩
  trans _ _ _ h h' := fun hi => ⟨fun u l => ((h' hi).1 u l).trans ((h hi).1 u l),
    fun id => ((h' hi).2 id).trans ((h hi).2 id)⟩
  get _ _ _        := deleteGuar.still (fun _ _ => rfl) (fun _ he => by cases he) (fun _ _ he => by cases he) i
  issue _ _        := trivial
  lost _ _ _ _ _   := deleteGuar.still (fun _ _ => rfl) (fun _ he => by cases he) (fun _ _ he => by cases he) i

/-- What a call of either side does to one record. -/
theorem deleteGuar.cases {i : Bool} {c : Call} {g g' : DeleteGhost w₀} (h : deleteGuar i c g g') (id : String) :
    (i = false ∧ c = .kvDelete (issueKey id) ∧ g.1.fate id = .kept ∧ g'.1.fate id = .deleted) ∨
    (i = true ∧ (∃ value, c = .kvSet (issueKey id) value) ∧
      g'.1.fate id = if g.1.fate id = .deleted then .revived else g.1.fate id) ∨
    (c ≠ .kvDelete (issueKey id) ∧ (∀ value, c ≠ .kvSet (issueKey id) value) ∧ g'.1.fate id = g.1.fate id) := by
  obtain ⟨hfate, hedit, hdelete⟩ := h
  have hid := hfate id
  cases c with
  | kvDelete key =>
    cases i with
    | true => exact absurd rfl ((hedit rfl).1 key)
    | false =>
      by_cases hk : key = issueKey id
      · subst hk
        exact .inl ⟨rfl, rfl, (hdelete rfl).2 id rfl, by rw [hid, Call.fate, if_pos rfl]⟩
      · refine .inr (.inr ⟨by simpa using hk, by simp, ?_⟩)
        rw [hid, Call.fate, if_neg hk]
  | kvSet key value =>
    cases i with
    | false => exact absurd rfl ((hdelete rfl).1 key value)
    | true =>
      by_cases hk : key = issueKey id
      · subst hk
        exact .inr (.inl ⟨rfl, ⟨value, rfl⟩, by rw [hid, Call.fate]; simp⟩)
      · refine .inr (.inr ⟨by simp, by simp [hk], ?_⟩)
        rw [hid, Call.fate, if_neg fun hc => hk hc.1]
  | _ => exact .inr (.inr ⟨by simp, by simp, hid⟩)

theorem deleteRace_compat (i j : Bool) (c : Call) (r : Resp c) (g g' : DeleteGhost w₀) (hij : i ≠ j)
    (h : (deleteRace w₀ i).guar c r g g') : (deleteRace w₀ j).rely g g' := by
  rintro rfl
  obtain rfl : i = true := by simpa using hij
  refine ⟨(h.2.1 rfl).2, fun id => ?_⟩
  rcases deleteGuar.cases h id with ⟨hi, -⟩ | ⟨-, -, hid⟩ | ⟨-, -, hid⟩
  · cases hi
  · rw [hid]
    split
    · rename_i hd
      simp [hd]
    · exact Iff.rfl
  · rw [hid]

/-! ## The fates along a trace -/

/-- The calls of a trace, each with who makes it. -/
def callsOf (tr : List (Event Bool Call Resp)) : List (Bool × Call) := tr.map fun e => (e.who, e.call)

/-- **The edit sets the record after the deletion has deleted it.** -/
def Revived (id : String) (tr : List (Event Bool Call Resp)) : Prop :=
  ∃ value, [(false, Call.kvDelete (issueKey id)), (true, .kvSet (issueKey id) value)].Sublist (callsOf tr)

theorem revived_cons_of_ne {id : String} {e : Event Bool Call Resp} {tr : List (Event Bool Call Resp)}
    (h : e.call ≠ .kvDelete (issueKey id)) : Revived id (e :: tr) ↔ Revived id tr := by
  unfold Revived callsOf
  apply exists_congr
  intro value
  rw [List.map_cons, List.cons_sublist_cons']
  constructor
  · rintro (hs | ⟨he, -⟩)
    · exact hs
    · exact absurd (congrArg Prod.snd he).symm h
  · exact .inl

section paths
variable {tr : List (Event Bool Call Resp)} {g g' : DeleteGhost w₀} {id : String}

theorem path_revived (h : Pool.Path (fun i => (deleteRace w₀ i).guar) tr g g') (hg : g.1.fate id = .revived) :
    g'.1.fate id = .revived := by
  induction h with
  | done g => exact hg
  | turn he _ ih =>
    apply ih
    rcases deleteGuar.cases he id with ⟨-, -, hk, -⟩ | ⟨-, -, hid⟩ | ⟨-, -, hid⟩
    · rw [hg] at hk
      cases hk
    · rw [hid, hg]
      rfl
    · rw [hid, hg]

/-- A deleted record comes back when it is set. -/
theorem path_deleted (h : Pool.Path (fun i => (deleteRace w₀ i).guar) tr g g') (hg : g.1.fate id = .deleted) :
    g'.1.fate id = .revived ↔ ∃ value, (true, Call.kvSet (issueKey id) value) ∈ callsOf tr := by
  induction h with
  | done g => simp [hg, callsOf]
  | @turn g g₁ g' e tr he hpath ih =>
    rcases deleteGuar.cases he id with ⟨-, -, hk, -⟩ | ⟨hi, ⟨value, hc⟩, hid⟩ | ⟨-, hset, hid⟩
    · rw [hg] at hk
      cases hk
    · rw [if_pos hg] at hid
      refine iff_of_true (path_revived hpath hid) ⟨value, ?_⟩
      rw [callsOf, List.map_cons, hi, hc]
      exact List.mem_cons_self
    · rw [ih (hid.trans hg)]
      apply exists_congr
      intro value
      rw [callsOf, callsOf, List.map_cons, List.mem_cons, or_iff_right]
      intro he
      exact hset value (congrArg Prod.snd he).symm

/-- **A record comes back** when it is set once deleted. -/
theorem path_kept (h : Pool.Path (fun i => (deleteRace w₀ i).guar) tr g g') (hg : g.1.fate id = .kept) :
    g'.1.fate id = .revived ↔ Revived id tr := by
  induction h with
  | done g => simp [hg, Revived, callsOf]
  | @turn g g₁ g' e tr he hpath ih =>
    rcases deleteGuar.cases he id with ⟨hi, hc, -, hid⟩ | ⟨-, ⟨value, hc⟩, hid⟩ | ⟨hdel, -, hid⟩
    · rw [path_deleted hpath hid]
      unfold Revived callsOf
      apply exists_congr
      intro value
      rw [List.map_cons, hi, hc, List.cons_sublist_cons', List.singleton_sublist]
      constructor
      · exact fun hm => .inr ⟨rfl, hm⟩
      · rintro (hs | ⟨-, hm⟩)
        · exact hs.subset (List.mem_cons_of_mem _ List.mem_cons_self)
        · exact hm
    · rw [hg, if_neg (by decide)] at hid
      rw [ih hid, revived_cons_of_ne (by rw [hc]; simp)]
    · rw [ih (hid.trans hg), revived_cons_of_ne hdel]

end paths

/-! ## The edit -/

section edit
variable {E : Env}

theorem deleteRace_sound (i : Bool) (g : DeleteGhost w₀) : ((deleteRace w₀ i).world g).Sound := g.2.sound

/-- The edit sets a record that was there. -/
theorem edit_set (hs : w₀.Sound) {i : Issue} (hi : w₀.issue i.id ≠ none) (g : DeleteGhost w₀) :
    ∃ g' : DeleteGhost w₀, g'.1.world = g.1.world.save i ∧
      deleteGuar true (.kvSet (issueKey i.id) (.issue i)) g g' := by
  have hne : i.id ≠ "" := by
    obtain ⟨j, hj⟩ := Option.ne_none_iff_exists'.1 hi
    exact hs.id_ne_empty hj
  let fate := fun id => (Call.kvSet (issueKey i.id) (.issue i)).fate id (g.1.fate id)
  have hinv : DeleteInv w₀ ⟨g.1.world.save i, fate⟩ := by
    refine ⟨g.2.sound.save hne, fun id => ?_⟩
    simp only [g.2.sound.issue_save, fate, Call.fate, issueKey_inj]
    by_cases hid : id = i.id
    · subst hid
      simp only [if_true, true_and]
      refine iff_of_false (Option.some_ne_none i) ?_
      rintro (hn | hf)
      · exact hi hn
      · split at hf
        · cases hf
        · contradiction
    · rw [if_neg hid, if_neg fun hc => hid hc.1.symm]
      exact g.2.record id
  refine ⟨⟨_, hinv⟩, rfl, fun _ => rfl, fun _ => ⟨by simp, fun u l => ?_⟩, fun h => by cases h⟩
  exact World.put_kv_of_ne _ _ (listKey_ne_issueKey u l _)

/-- **Any edit** may be made: it sets what it has read. -/
theorem editIssue_deleteSafe (hs : w₀.Sound) (a k m d : String) (g : DeleteGhost w₀) :
    (deleteRace w₀ true).Safe E (fun _ _ => True) (ListManager.editIssue a k m d) g := by
  have hthere : ∀ {g : DeleteGhost w₀} {id : String} {i : Issue},
      g.1.world.issue id = some i → w₀.issue i.id ≠ none := by
    intro g id i hi hno
    rw [g.2.sound.issue_id hi] at hno
    have := (g.2.record id).2 (.inl hno)
    rw [hi] at this
    cases this
  have hsave : ∀ {i : Issue} {f : Except String Unit → Api EditResult} {g : DeleteGhost w₀}, w₀.issue i.id ≠ none →
      (∀ g, (deleteRace w₀ true).Safe E (fun _ _ => True) (f (.ok ())) g) →
      (deleteRace w₀ true).Safe E (fun _ _ => True) (Store.saveIssue i >>= f) g := by
    intro i f g hi hf
    apply Race.saveIssue
    intro g' _
    obtain ⟨g'', hw, hgu⟩ := edit_set hs hi g'
    exact ⟨g'', hw, hgu, hf g''⟩
  unfold ListManager.editIssue
  apply Race.getIssue (deleteRace_sound true)
  intro g₁ _
  rw [World.fetch]
  cases hi : ((deleteRace w₀ true).world g₁).issue k with
  | none => exact Race.ret fun _ _ => trivial
  | some i =>
    have hown := hthere hi
    simp only
    refine Race.reads_any (K := fun _ => True) (fun _ _ => trivial) ?_
      (Store.only_getIssueListAndReference (fun _ => trivial) k)
    rintro ⟨l, _ | r, n⟩ g₂
    · exact Race.ret fun _ _ => trivial
    by_cases hf : r.foreignIssueID ≠ ""
    · simp only [if_pos hf]
      apply Race.getIssue (deleteRace_sound true)
      intro g₃ _
      rw [World.fetch]
      cases hj : ((deleteRace w₀ true).world g₃).issue r.foreignIssueID with
      | none => exact hsave hown fun _ => Race.ret fun _ _ => trivial
      | some j =>
        have hcopy : w₀.issue j.id ≠ none := hthere hj
        exact hsave hcopy fun _ => hsave hown fun _ => Race.ret fun _ _ => trivial
    · simp only [if_neg hf]
      exact hsave hown fun _ => Race.ret fun _ _ => trivial

end edit

/-! ## The deletion -/

section delete
variable {E : Env} {β : Type} {post : β → DeleteGhost w₀ → Prop} {b : Board} {D : List String} {g g' : DeleteGhost w₀}

/-- **How far the deletion is**: the lists are those of `b`, and of the records those of `D` have been deleted. -/
structure DeleteAt (b : Board) (D : List String) (g : DeleteGhost w₀) : Prop where
  refs : g.1.world.board.refs = b.refs
  kept : ∀ id, g.1.fate id = .kept ↔ id ∉ D

namespace DeleteAt

theorem after (h : DeleteAt b D g) (hr : (deleteRace w₀ false).rely g g') : DeleteAt b D g' := by
  obtain ⟨hkv, hfate⟩ := hr rfl
  refine ⟨?_, fun id => (hfate id).trans (h.kept id)⟩
  rw [← h.refs]
  funext u l
  simp only [Board.refs, World.board_list, World.list, hkv u l]

theorem list (h : DeleteAt b D g) (u : UserID) (l : ListID) : g.1.world.list (listKey u l) = b.refs u l :=
  congrFun (congrFun h.refs u) l

/-- The edit changes no list. -/
theorem calm (u : UserID) (l : ListID) (g : DeleteGhost w₀) :
    (deleteRace w₀ false).Calm (listKey u l) (fun _ => 0) g :=
  ⟨Nat.zero_lt_succ 2, fun _ _ => trivial, fun _ _ _ hr => .of_kv ((hr rfl).1 u l) (Nat.le_refl 0)⟩

/-- Taking a reference out. -/
theorem unlist (h : DeleteAt b D g) (u : UserID) (l : ListID) (id : String) :
    ∃ g' : DeleteGhost w₀, g'.1.world = g.1.world.unlist u id l ∧
      (∀ key old new, deleteGuar false (.kvCompareAndSet key old new) g g') ∧
      DeleteAt (b.unlist (listKey u l) id) D g' := by
  have hinv : DeleteInv w₀ ⟨g.1.world.unlist u id l, g.1.fate⟩ := by
    refine ⟨g.2.sound.unlist u id l, fun k => ?_⟩
    rw [World.issue_unlist]
    exact g.2.record k
  refine ⟨⟨_, hinv⟩, rfl, fun key old new => ⟨fun _ => rfl, fun hi => ?_, fun _ => ⟨by simp, by simp⟩⟩, ?_, h.kept⟩
  · cases hi
  · funext v m
    rw [World.board_unlist, Board.refs_unlist, Board.refs_unlist, h.refs]

theorem removeReference (h : DeleteAt b D g) {u : UserID} {l : ListID} {id : String} {f : Except String Unit → Api β}
    (hf : ∀ g', DeleteAt (b.unlist (listKey u l) id) D g' → (deleteRace w₀ false).Safe E post
      (f (if id ∈ ids (b.refs u l) then .ok () else .error "cannot find issue")) g') :
    (deleteRace w₀ false).Safe E post (Store.removeReference u id l >>= f) g := by
  refine Race.removeReference (deleteRace_sound false) (calm u l g) (fun g' hr hno => ?_) fun g' hr hin => ?_
  · have h' := h.after hr
    have hno' : id ∉ ids (b.refs u l) := h'.list u l ▸ hno
    have hf' := hf g' (by rwa [Board.unlist_of_not_mem hno'])
    rwa [if_neg hno'] at hf'
  · have h' := h.after hr
    have hin' : id ∈ ids (b.refs u l) := h'.list u l ▸ hin
    obtain ⟨g'', hw, hgu, h''⟩ := h'.unlist u l id
    have hf' := hf g'' h''
    rw [if_pos hin'] at hf'
    exact ⟨g'', hw, hgu _ _ _, hf'⟩

theorem popReference (h : DeleteAt b D g) {u : UserID} {l : ListID} {r : IssueRef} {rest : List IssueRef}
    (hl : b.refs u l = r :: rest) {f : Except String IssueRef → Api β}
    (hf : ∀ g', DeleteAt (b.unlist (listKey u l) r.issueID) D g' → (deleteRace w₀ false).Safe E post (f (.ok r)) g') :
    (deleteRace w₀ false).Safe E post (Store.popReference u l >>= f) g := by
  apply Race.editList_calm (deleteRace_sound false) (calm u l g)
  intro g' hr
  have h' := h.after hr
  have hlist : g'.1.world.list (listKey u l) = r :: rest := (h'.list u l).trans hl
  obtain ⟨g'', hw, hgu, h''⟩ := h'.unlist u l r.issueID
  rw [show ((deleteRace w₀ false).world g').list (listKey u l) = r :: rest from hlist]
  exact ⟨g'', hw.trans (g'.2.sound.toListed.unlist_head hlist), hgu _ _ _, hf g'' h''⟩

/-- Deleting a record. -/
theorem getAndRemoveIssue (h : DeleteAt b D g) {id : String} (hid : id ∉ D) (hrec : w₀.issue id ≠ none)
    {f : Except String Issue → Api β}
    (hf : ∀ g' i, DeleteAt b (id :: D) g' → (deleteRace w₀ false).Safe E post (f (.ok i)) g') :
    (deleteRace w₀ false).Safe E post (Store.getAndRemoveIssue id >>= f) g := by
  refine Race.getAndRemoveIssue (deleteRace_sound false) (fun g' hr hno => ?_) fun g' i hr => ?_
  · -- what is kept is there
    rcases (g'.2.record id).1 hno with hn | hd
    · exact absurd hn hrec
    · rw [((h.after hr).kept id).2 hid] at hd
      cases hd
  · have h' := h.after hr
    have hkept := (h'.kept id).2 hid
    let fate := fun k => (Call.kvDelete (issueKey id)).fate k (g'.1.fate k)
    have hinv : DeleteInv w₀ ⟨g'.1.world.delete (issueKey id), fate⟩ := by
      refine ⟨g'.2.sound.delete_issue id, fun k => ?_⟩
      simp only [g'.2.sound.delete_issue_eq, fate, Call.fate, issueKey_inj]
      by_cases hk : k = id
      · simp [hk]
      · rw [if_neg hk, if_neg fun he => hk he.symm]
        exact g'.2.record k
    refine ⟨⟨_, hinv⟩, rfl, ⟨fun _ => rfl, fun hi => ?_, fun _ => ⟨by simp, fun k hk => ?_⟩⟩,
      hf _ i ⟨?_, fun k => ?_⟩⟩
    · cases hi
    · simp only [Call.kvDelete.injEq, issueKey_inj] at hk
      rwa [← hk]
    · rw [g'.2.sound.board_delete_issue]
      exact h'.refs
    · simp only [fate, Call.fate, issueKey_inj, List.mem_cons, not_or]
      by_cases hk : id = k
      · simp [hk]
      · rw [if_neg hk, h'.kept]
        exact ⟨fun hn => ⟨fun he => hk he.symm, hn⟩, And.right⟩

/-- The search finds a reference where it is. -/
theorem getIssueListAndReference (h : DeleteAt b D g) (ha : b.Apart) {u : UserID} {l : ListID} {r : IssueRef}
    (hr : r ∈ b.refs u l) {f : ListID × Option IssueRef × Nat → Api β}
    (hf : ∀ n g', DeleteAt b D g' → (deleteRace w₀ false).Safe E post (f (l, some r, n)) g') :
    (deleteRace w₀ false).Safe E post (Store.getIssueListAndReference u r.issueID >>= f) g := by
  have hmem : r ∈ g.1.world.list (listKey u l) := h.list u l ▸ hr
  have hone : ∀ m, m ≠ l → r.issueID ∉ ids (g.1.world.list (listKey u m)) := by
    intro m hm hin
    rw [h.list u m] at hin
    obtain ⟨s, hs, he⟩ := List.mem_map.1 hin
    exact hm (ha.one hs hr he).2
  obtain ⟨n, hloc⟩ := g.2.sound.toListed.locate_of_mem hmem hone
  refine Race.reads (K := fun key => ∃ m, key = listKey u m) (w := g.1.world) (fun _ _ => trivial)
    (Store.only_getIssueListAndReference (fun m => ⟨m, rfl⟩) r.issueID) ?_ ?_ (fun g' hr' => hf n g' (h.after hr'))
  · rintro g' hr' key ⟨m, rfl⟩
    exact (hr' rfl).1 u m
  · rw [Store.getIssueListAndReference_run E g.2.sound.toListed, hloc]

end DeleteAt

/-- **What a deletion has done** when it returns: the issues of `gone` have been deleted, and they are the ones left
without a reference. -/
def DeleteDone (gone : List String) (g : DeleteGhost w₀) : Prop :=
  ∃ b D, DeleteAt b D g ∧ (∀ id, b.Absent id ↔ w₀.board.Absent id ∨ id ∈ gone) ∧ ∀ id ∈ gone, id ∈ D

theorem DeleteAt.done {gone : List String} (h : DeleteAt b D g)
    (habs : ∀ id, b.Absent id ↔ w₀.board.Absent id ∨ id ∈ gone) (hD : ∀ id ∈ gone, id ∈ D) (res : β) :
    (deleteRace w₀ false).Safe E (fun _ => DeleteDone gone) (pure res) g :=
  Race.ret fun _ hr => ⟨b, D, h.after hr, habs, hD⟩

section operations
variable {u : UserID} {l : ListID} {r : IssueRef}

/-- The end of a deletion, for a todo without another side. -/
theorem DeleteAt.own (hw : w₀.board.Whole) (hr : r ∈ w₀.board.refs u l)
    (h : DeleteAt (w₀.board.unlist (listKey u l) r.issueID) [r.issueID] g) (res : β) :
    (deleteRace w₀ false).Safe E (fun _ => DeleteDone [r.issueID]) (pure res) g :=
  h.done (fun id => by rw [hw.absent_unlist_iff hr, List.mem_singleton]) (fun _ hid => hid) res

/-- The end of a deletion, for one with another side, which is looked for in the list `fl`. -/
theorem DeleteAt.shared (hw : w₀.board.Whole) (hr : r ∈ w₀.board.refs u l) {v : UserID} {m : ListID}
    (hm : r.mirror u ∈ w₀.board.refs v m) (hne : r.foreignIssueID ≠ r.issueID) (fl : ListID)
    (h : DeleteAt (w₀.board.unlist (listKey u l) r.issueID) [r.issueID] g) (res : Except String Issue → β) :
    (deleteRace w₀ false).Safe E
      (fun _ => DeleteDone (if fl = m then [r.issueID, r.foreignIssueID] else [r.issueID]))
      (do
        let _ ← Store.removeReference v r.foreignIssueID fl
        let issue ← Store.getAndRemoveIssue r.foreignIssueID
        return res issue) g := by
  have hthere : w₀.issue r.foreignIssueID ≠ none := hw.there hm
  apply h.removeReference
  intro g₁ h₁
  apply h₁.getAndRemoveIssue (by simpa using hne) hthere
  intro g₂ i h₂
  refine h₂.done (fun id => hw.absent_unlist_both hr hm hne fl) (fun id hid => ?_) _
  split at hid <;> simp_all [or_comm]

theorem completeIssue_deleteSafe (hw : w₀.board.Whole) (hr : r ∈ w₀.board.refs u l) (hg : DeleteAt w₀.board [] g) :
    (deleteRace w₀ false).Safe E (fun _ => DeleteDone ((ListOp.completeIssue u r.issueID).unlisted l r))
      (ListManager.completeIssue u r.issueID) g := by
  have hin : r.issueID ∈ ids (w₀.board.refs u l) := List.mem_map.2 ⟨r, hr, rfl⟩
  unfold ListManager.completeIssue
  apply hg.getIssueListAndReference hw.toApart hr
  intro n g₁ h₁
  apply h₁.removeReference
  intro g₂ h₂
  rw [if_pos hin]
  apply h₂.getAndRemoveIssue List.not_mem_nil (hw.there hr)
  intro g₃ i h₃
  unfold ListOp.unlisted
  by_cases hf : r.foreignUserID = ""
  · simp only [hf, true_or, if_true]
    exact h₃.own hw hr _
  · obtain ⟨v, m, hv, hm, hml, hne⟩ := hw.counterpart hr hf
    have hend := h₃.shared (E := E) hw hr hm hne .outList
      fun issue => (⟨issue.toOption, r.foreignUserID, l, none⟩ : CompleteResult)
    simp only [hv, v.val_ne_empty, if_false, false_or, hml, ne_eq, ite_not] at hend ⊢
    exact hend

theorem removeIssue_deleteSafe (hw : w₀.board.Whole) (hr : r ∈ w₀.board.refs u l) (hg : DeleteAt w₀.board [] g) :
    (deleteRace w₀ false).Safe E (fun _ => DeleteDone ((ListOp.removeIssue u r.issueID).unlisted l r))
      (ListManager.removeIssue u r.issueID) g := by
  have hin : r.issueID ∈ ids (w₀.board.refs u l) := List.mem_map.2 ⟨r, hr, rfl⟩
  unfold ListManager.removeIssue
  apply hg.getIssueListAndReference hw.toApart hr
  intro n g₁ h₁
  apply h₁.removeReference
  intro g₂ h₂
  rw [if_pos hin]
  apply h₂.getAndRemoveIssue List.not_mem_nil (hw.there hr)
  intro g₃ i h₃
  unfold ListOp.unlisted
  by_cases hf : r.foreignUserID = ""
  · simp only [if_pos hf]
    exact h₃.own hw hr _
  · obtain ⟨v, m, hv, hm, -, hne⟩ := hw.counterpart hr hf
    have hm₁ : r.mirror u ∈ (w₀.board.unlist (listKey u l) r.issueID).refs v m := (hw.mem_unlist hr).2 ⟨hm, hne⟩
    simp only [hv, v.val_ne_empty, if_false]
    apply h₃.getIssueListAndReference (hw.toApart.unlist u l _) hm₁
    intro n g₄ h₄
    have hend := h₄.shared (E := E) hw hr hm hne m
      fun issue => (⟨issue.toOption, v.val, decide (m = .outList), l, none⟩ : RemoveResult)
    rw [if_pos rfl] at hend
    exact hend

theorem popIssue_deleteSafe (hw : w₀.board.Whole) {rest : List IssueRef} (hl : w₀.board.refs u .myList = r :: rest)
    (hg : DeleteAt w₀.board [] g) :
    (deleteRace w₀ false).Safe E (fun _ => DeleteDone ((ListOp.popIssue u).unlisted .myList r))
      (ListManager.popIssue u) g := by
  have hr : r ∈ w₀.board.refs u .myList := hl ▸ List.mem_cons_self
  unfold ListManager.popIssue
  apply hg.popReference hl
  intro g₂ h₂
  apply h₂.getAndRemoveIssue List.not_mem_nil (hw.there hr)
  intro g₃ i h₃
  unfold ListOp.unlisted
  by_cases hf : r.foreignUserID = ""
  · simp only [if_pos hf]
    exact h₃.own hw hr _
  · obtain ⟨v, m, hv, hm, hml, hne⟩ := hw.counterpart hr hf
    have hend := h₃.shared (E := E) hw hr hm hne .outList
      fun issue => (⟨issue.toOption, r.foreignUserID, none⟩ : PopResult)
    rw [if_pos (hml.2 (by decide))] at hend
    simp only [hv, v.val_ne_empty, if_false] at hend ⊢
    exact hend

/-- **Any deletion** may be made, and returns once it is done. -/
theorem ListOp.Deletes.safe (hw : w₀.board.Whole) {op : ListOp} (hop : op.Deletes w₀.board u l r)
    (hg : DeleteAt w₀.board [] g) :
    (deleteRace w₀ false).Safe E (fun _ => DeleteDone (op.unlisted l r)) op.exec g := by
  have hret : ∀ {α : Type} {p : Api α} {gone : List String} (f : α → ListResult),
      (deleteRace w₀ false).Safe E (fun _ => DeleteDone gone) p g →
        (deleteRace w₀ false).Safe E (fun _ => DeleteDone gone) (p >>= fun a => pure (f a)) g := by
    intro α p gone f hp
    apply Proc.Safe.bind (deleteRace w₀ false).refl
    apply hp.mono
    intro a g₁ hdone g₂ hr
    obtain ⟨b, D, h, habs, hD⟩ := hdone
    exact ⟨b, D, h.after hr, habs, hD⟩
  cases hop with
  | complete hr => exact hret .completed (completeIssue_deleteSafe hw hr hg)
  | remove hr => exact hret .removed (removeIssue_deleteSafe hw hr hg)
  | pop hl h =>
    subst hl
    exact hret .popped (popIssue_deleteSafe hw h hg)

end operations
end delete
end race

/-! ## The race -/

section main
variable {E : Env} {w : World} {u : UserID} {l : ListID} {r : IssueRef} {op : ListOp}
  {tr : List (Event Bool Call Resp)} {P : Pool Bool Call Resp ListResult World}

/-- Both return, the deletion done, and a record is revived where the trace has it so. -/
theorem deleteRace_run (hs : w.Sound) (hw : w.board.Whole) (hop : op.Deletes w.board u l r) {a : UserID}
    {k m d : String} (hrun : Pool.Exec (serve E) (listPool (.editIssue a k m d) op w) tr P) (hfin : P.Finished) :
    (∃ ra rb, P.procs true = .ret ra ∧ P.procs false = .ret rb) ∧
      ∃ g : DeleteGhost w, P.state = g.1.world ∧ DeleteDone (op.unlisted l r) g ∧
        ∀ id, g.1.fate id = .revived ↔ Revived id tr := by
  let g₀ : DeleteGhost w := ⟨⟨w, fun _ => .kept⟩, hs, fun id => by simp⟩
  have hg₀ : DeleteAt w.board [] g₀ := ⟨rfl, fun id => iff_of_true rfl List.not_mem_nil⟩
  let post : Bool → ListResult → DeleteGhost w → Prop := fun i _ g => i = false → DeleteDone (op.unlisted l r) g
  have hedit : (deleteRace w true).Safe E (post true) (ListOp.editIssue a k m d).exec g₀ := by
    apply Proc.Safe.bind (deleteRace w true).refl
    apply (editIssue_deleteSafe hs a k m d g₀).mono
    intro _ _ _ _ _ hi
    cases hi
  have hdelete : (deleteRace w false).Safe E (post false) op.exec g₀ := (hop.safe hw hg₀).mono fun _ _ h _ => h
  have hsafe : ∀ i, (deleteRace w i).Safe E (post i) ((listPool (.editIssue a k m d) op w).procs i) g₀ := by
    intro i
    cases i with
    | false => exact hdelete
    | true => exact hedit
  obtain ⟨g, hstate, hpath, hpost⟩ := hrun.finished (fun i => (deleteRace w i).trans) (fun i => (deleteRace w i).refl)
    deleteRace_compat hfin (g := g₀) rfl hsafe
  obtain ⟨ra, hra, -⟩ := hpost true
  obtain ⟨rb, hrb, hdone⟩ := hpost false
  exact ⟨⟨ra, rb, hra, hrb⟩, g, hstate, hdone rfl, fun id => path_kept hpath rfl⟩

theorem DeleteDone.absent {w₀ : World} {gone : List String} {g : DeleteGhost w₀} (h : DeleteDone gone g) (id : String) :
    g.1.world.board.Absent id ↔ w₀.board.Absent id ∨ id ∈ gone := by
  obtain ⟨b, D, hat, habs, -⟩ := h
  rw [← habs id, Board.Absent, hat.refs, Board.Absent]

theorem DeleteDone.fate {w₀ : World} {gone : List String} {g : DeleteGhost w₀} (h : DeleteDone gone g) {id : String}
    (hid : id ∈ gone) : g.1.fate id ≠ .kept := by
  obtain ⟨b, D, hat, -, hD⟩ := h
  exact fun hk => (hat.kept id).1 hk (hD id hid)

/-- What a deletion unlists had a record. -/
theorem ListOp.Deletes.there (hw : w.board.Whole) (hop : op.Deletes w.board u l r) {id : String}
    (hid : id ∈ op.unlisted l r) : w.issue id ≠ none := by
  have hr : r ∈ w.board.refs u l := by
    cases hop with
    | complete hr => exact hr
    | remove hr => exact hr
    | pop hl h => rw [hl, h]; exact List.mem_cons_self
  by_cases hf : r.foreignUserID = ""
  · obtain rfl : id = r.issueID := by cases hop <;> simpa [ListOp.unlisted, hf] using hid
    exact hw.there hr
  · obtain ⟨v, m, -, hm, -⟩ := hw.counterpart hr hf
    have hmem : id = r.issueID ∨ id = r.foreignIssueID := by
      cases hop with
      | complete _ =>
        simp only [ListOp.unlisted, hf, false_or] at hid
        split at hid <;> simp_all
      | remove _ => simpa [ListOp.unlisted, hf] using hid
      | pop _ _ => simpa [ListOp.unlisted, hf] using hid
    rcases hmem with rfl | rfl
    · exact hw.there hr
    · exact hw.there hm

/-- **A deleted todo stays deleted unless an edit sets its record afterwards.**  Both calls return, and every record
that is left is referenced if and only if none that lost its reference was set after it was deleted. -/
theorem editIssue_race_delete (E : Env) (hs : w.Sound) (hw : w.board.Whole) (hop : op.Deletes w.board u l r)
    (a : UserID) (k m d : String) (hrun : Pool.Exec (serve E) (listPool (.editIssue a k m d) op w) tr P)
    (hfin : P.Finished) :
    (∃ ra rb, P.procs true = .ret ra ∧ P.procs false = .ret rb) ∧
      (P.state.board.NoLeftovers ↔ ∀ id ∈ op.unlisted l r, ¬ Revived id tr) := by
  obtain ⟨hret, g, hstate, hdone, hfate⟩ := deleteRace_run hs hw hop hrun hfin
  refine ⟨hret, ?_⟩
  rw [hstate]
  constructor
  · intro hno id hid hrev
    have hgone : g.1.world.issue id = none := hno id ((hdone.absent id).2 (.inr hid))
    rcases (g.2.record id).1 hgone with hn | hd
    · exact hop.there hw hid hn
    · rw [(hfate id).2 hrev] at hd
      cases hd
  · intro hno id habs
    refine (g.2.record id).2 ?_
    rcases (hdone.absent id).1 habs with ha | hid
    · exact .inl (hw.noLeftovers id ha)
    · -- it was deleted, and not set again
      have hkept := hdone.fate hid
      have hrev := mt (hfate id).1 (hno id hid)
      cases hf : g.1.fate id with
      | kept => exact absurd hf hkept
      | deleted => exact .inr rfl
      | revived => exact absurd hf hrev

end main

section sample

theorem sentToBob_whole : sentToBob.board.Whole := by
  apply sentToBob_settled.paired.whole
  intro id ha
  have hx : issueKey id ≠ issueKey "x" := by
    intro he
    rw [issueKey_inj.1 he] at ha
    exact ha ann .outList (by decide)
  have hxx : issueKey id ≠ issueKey "xx" := by
    intro he
    rw [issueKey_inj.1 he] at ha
    exact ha bob .inList (by decide)
  have hkv : sentToBob.kv (issueKey id) = none := by
    have hrun : sentToBob = ListManager.sent Env.sample World.empty ann bob "milk" "" "" "" := rfl
    rw [hrun]
    unfold ListManager.sent World.append World.save
    simp only [World.put]
    rw [if_neg (issueKey_ne_listKey bob .inList id), if_neg (issueKey_ne_listKey ann .outList id)]
    exact (if_neg hxx).trans (if_neg hx)
  rw [World.board_issue, World.issue, hkv]

/-- Ann edits the todo she sent while Bob completes it, in a given order. -/
def editedWhileCompleted (turns : List Bool) : List (Event Bool Call Resp) × Pool Bool Call Resp ListResult World :=
  Pool.play (serve Env.sample) (listPool (.editIssue ann "x" "tea" "") (.completeIssue bob "xx") sentToBob) turns

/-- Ann reads both records, Bob completes the todo, and Ann sets both. -/
def editedAfterwards : List (Event Bool Call Resp) × Pool Bool Call Resp ListResult World :=
  editedWhileCompleted (List.replicate 4 true ++ List.replicate 11 false ++ List.replicate 2 true)

theorem completeXX_deletes : (ListOp.completeIssue bob "xx").Deletes sentToBob.board bob .inList ⟨"xx", "x", "ann"⟩ :=
  @ListOp.Deletes.complete sentToBob.board bob .inList ⟨"xx", "x", "ann"⟩ (by decide)

/-- **An edit may bring a deleted todo back.** -/
theorem editIssue_race_delete_revives :
    sentToBob.Sound ∧ sentToBob.board.Whole ∧
    (ListOp.completeIssue bob "xx").Deletes sentToBob.board bob .inList ⟨"xx", "x", "ann"⟩ ∧
    Pool.Exec (serve Env.sample) (listPool (.editIssue ann "x" "tea" "") (.completeIssue bob "xx") sentToBob)
      editedAfterwards.1 editedAfterwards.2 ∧ editedAfterwards.2.Finished ∧
    ¬ editedAfterwards.2.state.board.NoLeftovers := by
  have hfin : editedAfterwards.2.Finished := Pool.finished_of_returned (by decide)
  have hrun := Pool.play_exec (serve Env.sample)
    (List.replicate 4 true ++ List.replicate 11 false ++ List.replicate 2 true)
    (listPool (.editIssue ann "x" "tea" "") (.completeIssue bob "xx") sentToBob)
  refine ⟨sentToBob_settled.sound, sentToBob_whole, completeXX_deletes, hrun, hfin, fun hno => ?_⟩
  obtain ⟨-, g, hstate, hdone, -⟩ := deleteRace_run sentToBob_settled.sound sentToBob_whole completeXX_deletes hrun hfin
  have habs : editedAfterwards.2.state.board.Absent "x" := by
    rw [show editedAfterwards.2.state = g.1.world from hstate, hdone.absent]
    exact .inr (by decide)
  have hx : editedAfterwards.2.state.board.issue "x" ≠ none := by decide
  exact hx (hno "x" habs)

/-- Bob completes the todo before Ann reads it. -/
theorem editedTooLate_noLeftovers :
    (editedWhileCompleted (List.replicate 11 false ++ [true])).2.state.board.NoLeftovers := by
  have h := editIssue_race_delete Env.sample sentToBob_settled.sound sentToBob_whole completeXX_deletes ann "x" "tea" ""
    (Pool.play_exec (serve Env.sample) (List.replicate 11 false ++ [true]) _) (Pool.finished_of_returned (by decide))
  apply h.2.2
  intro id _
  rintro ⟨value, hs⟩
  have hreads : ∀ c ∈ callsOf (editedWhileCompleted (List.replicate 11 false ++ [true])).1, c.1 = true →
      c.2 = .kvGet (issueKey "x") := by decide
  cases hreads _ (hs.subset (List.mem_cons_of_mem _ List.mem_cons_self)) rfl

end sample
end Todo

import TodoPlugin.Inputs
/-!
# What adding stores

Every way to add a todo makes records with the texts it was given, or takes them back.  `add` gives `AddIssue` the
request's texts in another order when `send_to` names the caller, so that the record has the request's texts only
if the three it exchanges are equal.
-/
namespace Todo

open Proc (Only)

/-! ## What follows the saving of a record -/

/-- The call reads, sets a list or deletes: a record it leaves is the one there was. -/
def Call.Trims : Call → Prop
  | .kvGet _                 => True
  | .kvCompareAndSet key _ _ => ∃ u l, key = listKey u l
  | .kvDelete _              => True
  | _                        => False

/-- From `w` to `w'` records have been deleted at most, and no ids drawn. -/
structure World.Trimmed (w w' : World) : Prop where
  drawn  : w'.drawn = w.drawn
  record : ∀ id, w'.kv (issueKey id) = none ∨ w'.kv (issueKey id) = w.kv (issueKey id)

theorem World.Trimmed.refl (w : World) : World.Trimmed w w := ⟨rfl, fun _ => .inr rfl⟩

theorem Call.Trims.step (E : Env) {c : Call} (hc : c.Trims) {w w' : World} (h : World.Trimmed w w') :
    World.Trimmed w (serve E c w').2 := by
  cases c with
  | kvGet key => exact h
  | kvDelete key =>
    refine ⟨h.drawn, fun id => ?_⟩
    by_cases hk : issueKey id = key
    · subst hk
      exact .inl (World.delete_kv_self ..)
    · rw [serve, World.delete_kv_of_ne _ hk]
      exact h.record id
  | kvCompareAndSet key old new =>
    obtain ⟨u, l, rfl⟩ := hc
    simp only [serve]
    split
    · refine ⟨h.drawn, fun id => ?_⟩
      rw [World.put_kv_of_ne _ _ (issueKey_ne_listKey u l id)]
      exact h.record id
    · exact h
  | kvSet | newId | getMillis | formatTime | getUserByUsername | getUser | getDirectChannel | getPost | createPost
  | sendEphemeralPost | publishRefresh => exact hc.elim

theorem trims_run (E : Env) {α : Type} {X : Prop} {p : Api α} (h : p.Only Call.Trims X) (w : World) :
    World.Trimmed w (p.run (serve E) w).2 :=
  (h.run (I := World.Trimmed w) (fun _ _ hc ht => hc.step E ht) (.refl w)).1

namespace Store

/-- The loop of the list operations sets its list alone. -/
theorem trims_editList {α : Type} (u : String) (l : ListID) (edit : List IssueRef → Edit α) (exhausted : String)
    (n : Nat) : (editList u l edit exhausted n).Only Call.Trims True :=
  only_editList trivial (fun _ _ => ⟨u, l, rfl⟩) edit exhausted n

theorem trims_addReference (u id : String) (l : ListID) (fu fi : String) :
    (addReference u id l fu fi).Only Call.Trims True := trims_editList ..

theorem trims_removeReference (u id : String) (l : ListID) : (removeReference u id l).Only Call.Trims True :=
  trims_editList ..

theorem trims_removeIssue (id : String) {X : Prop} : (removeIssue id).Only Call.Trims X := ⟨trivial, fun _ => trivial⟩

end Store

/-! ## The records made -/

/-- A record made between two stores, under an id drawn in between. -/
def World.Created (E : Env) (w w' : World) (i : Issue) : Prop :=
  ∃ n, w.drawn ≤ n ∧ n < w'.drawn ∧ w'.kv (issueKey (E.newId n)) = some (.issue i)

theorem World.Created.of_same {E : Env} {w w' w'' : World} (h : World.SameStore w' w'') {i : Issue}
    (hc : World.Created E w w'' i) : World.Created E w w' i := by
  obtain ⟨n, hle, hlt, hi⟩ := hc
  exact ⟨n, hle, h.drawn ▸ hlt, h.kv ▸ hi⟩

/-- The records saved by `newIssue` are made of the texts given. -/
def Issue.MadeOf (message postPermalink description postID : String) (i : Issue) : Prop :=
  i.message = message ∧ i.postPermalink = postPermalink ∧ i.description = description ∧ i.postID = postID

namespace ListManager

variable {E : Env} {w : World}

theorem addIssue_created (u m p d q : String) {i : Issue}
    (h : World.Created E w ((addIssue u m p d q).run (serve E) w).2 i) : i.MadeOf m p d q := by
  have ht : World.Trimmed (w.draw.save (w.made E m p d q)) ((addIssue u m p d q).run (serve E) w).2 := by
    unfold addIssue
    rw [Proc.run_bind_of _ (newIssue_run E w m p d q), Proc.run_bind_of _ (Store.saveIssue_run E _)]
    apply trims_run E (X := True)
    apply Only.bind (Store.trims_addReference ..)
    rintro (e | _)
    · exact .bind (Store.trims_removeIssue _) fun _ => trivial
    · trivial
  obtain ⟨n, hle, hlt, hi⟩ := h
  rw [ht.drawn, World.save_drawn, World.drawn_draw] at hlt
  obtain rfl : n = w.drawn := by omega
  rcases ht.record (E.newId w.drawn) with hn | hs
  · cases hn.symm.trans hi
  · rw [World.save, show E.newId w.drawn = (w.made E m p d q).id from rfl, World.put_kv_self] at hs
    cases hs.symm.trans hi
    exact ⟨rfl, rfl, rfl, rfl⟩

theorem sendIssue_created (u v m p d q : String) {i : Issue}
    (h : World.Created E w ((sendIssue u v m p d q).run (serve E) w).2 i) : i.MadeOf m p d q := by
  have ht : World.Trimmed ((w.draw.save (w.made E m p d q)).draw.save (w.draw.made E m p d q))
      ((sendIssue u v m p d q).run (serve E) w).2 := by
    unfold sendIssue
    rw [Proc.run_bind_of _ (newIssue_run E w m p d q), Proc.run_bind_of _ (Store.saveIssue_run E _)]
    simp only
    rw [Proc.run_bind_of _ (newIssue_run E _ m p d q), Proc.run_bind_of _ (Store.saveIssue_run E _)]
    apply trims_run E (X := True)
    apply Only.bind (Store.trims_addReference ..)
    rintro (e | _)
    · exact .bind (Store.trims_removeIssue _) fun _ => .bind (Store.trims_removeIssue _) fun _ => trivial
    · apply Only.bind (Store.trims_addReference ..)
      rintro (e | _)
      · exact .bind (Store.trims_removeIssue _) fun _ => .bind (Store.trims_removeIssue _) fun _ =>
          .bind (Store.trims_removeReference ..) fun _ => trivial
      · trivial
  obtain ⟨n, hle, hlt, hi⟩ := h
  rw [ht.drawn] at hlt
  have hn : n = w.drawn ∨ n = w.drawn + 1 := by
    simp only [World.save_drawn, World.drawn_draw] at hlt
    omega
  rcases ht.record (E.newId n) with hnone | hs
  · cases hnone.symm.trans hi
  rcases hn with rfl | rfl
  · have hne : issueKey (E.newId w.drawn) ≠ issueKey (w.draw.made E m p d q).id := fun he =>
      absurd (E.newId_inj _ _ (issueKey_inj.1 he)) (by simp)
    rw [World.save, World.put_kv_of_ne _ _ hne] at hs
    rw [show (w.draw.save (w.made E m p d q)).draw.kv (issueKey (E.newId w.drawn)) = _ from World.put_kv_self ..] at hs
    cases hs.symm.trans hi
    exact ⟨rfl, rfl, rfl, rfl⟩
  · rw [World.save, show E.newId (w.drawn + 1) = (w.draw.made E m p d q).id from rfl, World.put_kv_self] at hs
    cases hs.symm.trans hi
    exact ⟨rfl, rfl, rfl, rfl⟩

end ListManager

/-! ## Where a list takes a new todo -/

namespace Store

variable (E : Env) {w : World} {u : String} {l : ListID}

theorem addReference_takes (id fu fi : String) {list : List IssueRef}
    (h : decodeList (w.kv (listKey u l)) = some list) (hnew : id ∉ ids list) :
    (addReference u id l fu fi).run (serve E) w =
      (some (.ok ()), w.put (listKey u l) (.refs (list ++ [⟨id, fi, fu⟩]))) := by
  rw [addReference, storeRetries, editList_decodes E h, addEdit_eq, if_neg hnew]

theorem addReference_refuses (id fu fi : String)
    (h : ∀ list, decodeList (w.kv (listKey u l)) = some list → id ∈ ids list) :
    ∃ err, (addReference u id l fu fi).run (serve E) w = (some (.error err), w) := by
  cases hd : decodeList (w.kv (listKey u l)) with
  | none =>
    rw [addReference, storeRetries, editList, Proc.run_bind_of _ (getList_fails E hd)]
    exact ⟨_, rfl⟩
  | some list =>
    rw [addReference, storeRetries, editList_decodes E hd, addEdit_eq, if_pos (h list hd)]
    exact ⟨_, rfl⟩

end Store

/-- The My list of `u` is one a new todo can be added to: it decodes, and does not have the id to be drawn. -/
def World.TakesNew (E : Env) (w : World) (u : UserID) : Prop :=
  ∃ list, decodeList (w.kv (listKey u .myList)) = some list ∧ E.newId w.drawn ∉ Store.ids list

namespace ListManager

variable {E : Env} {w : World} {u : UserID}

/-- A todo added is its record and its reference, and the reference has none of the texts. -/
theorem addIssue_takes (h : w.TakesNew E u) : ∃ list, ∀ m p d q, ((addIssue u m p d q).run (serve E) w).2 =
    (w.draw.save (w.made E m p d q)).put (listKey u .myList) (.refs list) := by
  obtain ⟨list, hd, hnew⟩ := h
  refine ⟨list ++ [⟨E.newId w.drawn, "", ""⟩], fun m p d q => ?_⟩
  have hd' : decodeList ((w.draw.save (w.made E m p d q)).kv (listKey u .myList)) = some list := by
    rw [World.save, World.put_kv_of_ne _ _ (listKey_ne_issueKey _ _ _)]
    exact hd
  unfold addIssue
  rw [Proc.run_bind_of _ (newIssue_run E w m p d q), Proc.run_bind_of _ (Store.saveIssue_run E _)]
  simp only
  rw [Proc.run_bind_of _ (Store.addReference_takes E (w.made E m p d q).id "" "" hd' hnew)]
  rfl

/-- Where the list takes no todo, the record is taken back. -/
theorem addIssue_refuses (h : ¬ w.TakesNew E u) (m p d q : String) : ((addIssue u m p d q).run (serve E) w).2 =
    (w.draw.save (w.made E m p d q)).delete (issueKey (E.newId w.drawn)) := by
  have hno : ∀ list, decodeList ((w.draw.save (w.made E m p d q)).kv (listKey u .myList)) = some list →
      (w.made E m p d q).id ∈ Store.ids list := by
    intro list hd
    rw [World.save, World.put_kv_of_ne _ _ (listKey_ne_issueKey _ _ _)] at hd
    by_contra hnew
    exact h ⟨list, hd, hnew⟩
  obtain ⟨err, herr⟩ := Store.addReference_refuses E (w.made E m p d q).id "" "" hno
  unfold addIssue
  rw [Proc.run_bind_of _ (newIssue_run E w m p d q), Proc.run_bind_of _ (Store.saveIssue_run E _)]
  simp only
  rw [Proc.run_bind_of _ herr]
  rfl

end ListManager

/-! ## Adding by request -/

namespace AddAPIRequest

/-- The record has the request's texts. -/
def Stored (r : AddAPIRequest) (i : Issue) : Prop := i.MadeOf r.message r.postPermalink r.description r.postID

/-- The request's `send_to` names the user it comes from. -/
def NamesSelf (E : Env) (u : UserID) (r : AddAPIRequest) : Prop :=
  r.sendTo ≠ "" ∧ ∃ receiver, E.userByUsername r.sendTo = .ok receiver ∧ receiver.id = u

/-- The store after the request. -/
def added (E : Env) (w : World) (u : UserID) (r : AddAPIRequest) : World :=
  ((handleAdd u (.ok (some r))).run (serve E) w).2

variable {E : Env} {w : World} {u : UserID} {r : AddAPIRequest}

theorem op_of_valid (hv : isValid (some r) = none) : (Request.add (.ok (some r))).op E w u =
    if r.sendTo = "" then some (.addIssue u r.message r.postPermalink r.description r.postID)
    else (E.userByUsername r.sendTo).toOption.bind fun receiver =>
      if receiver.id = u then some (.addIssue u r.message r.description r.postID r.postPermalink)
      else if w.allows receiver.id then
        some (.sendIssue u receiver.id r.message r.postPermalink r.description r.postID)
      else none := by
  simp only [Request.op, Body.valid, hv, Option.isSome_none, Bool.false_eq_true, if_false, Option.bind_some]

theorem added_of_op {o : Option ListOp} (ho : (Request.add (.ok (some r))).op E w u = o) :
    World.SameStore (o.elim w fun o => o.after E w) (r.added E w u) := ho ▸ handleAdd_does u _

theorem after_addIssue (m p d q : String) :
    (ListOp.addIssue u m p d q).after E w = ((ListManager.addIssue u m p d q).run (serve E) w).2 :=
  Input.run_map E w _ _

theorem after_sendIssue (v : UserID) (m p d q : String) :
    (ListOp.sendIssue u v m p d q).after E w = ((ListManager.sendIssue u v m p d q).run (serve E) w).2 :=
  Input.run_map E w _ _

/-- A todo of one's own, without `send_to`. -/
theorem added_own (hv : isValid (some r) = none) (h : r.sendTo = "") :
    World.SameStore ((ListManager.addIssue u r.message r.postPermalink r.description r.postID).run (serve E) w).2
      (r.added E w u) := by
  have ha := added_of_op (op_of_valid (E := E) (w := w) (u := u) hv)
  rw [if_pos h, Option.elim_some, after_addIssue] at ha
  exact ha

/-- A todo of one's own, by one's name. -/
theorem added_self (hv : isValid (some r) = none) (h : r.NamesSelf E u) :
    World.SameStore ((ListManager.addIssue u r.message r.description r.postID r.postPermalink).run (serve E) w).2
      (r.added E w u) := by
  obtain ⟨hne, receiver, hr, hself⟩ := h
  have ha := added_of_op (op_of_valid (E := E) (w := w) (u := u) hv)
  rw [if_neg hne, hr, Except.toOption, Option.bind_some, if_pos hself, Option.elim_some, after_addIssue] at ha
  exact ha

/-- **What does not name the caller is stored as asked.** -/
theorem created_stored (hv : isValid (some r) = none) (h : ¬ r.NamesSelf E u) {i : Issue}
    (hi : World.Created E w (r.added E w u) i) : r.Stored i := by
  by_cases hs : r.sendTo = ""
  · exact ListManager.addIssue_created _ _ _ _ _ (.of_same (added_own hv hs) hi)
  · have ha := added_of_op (op_of_valid (E := E) (w := w) (u := u) hv)
    rw [if_neg hs] at ha
    have hidle : ∀ {w' : World}, World.SameStore w w' → World.Created E w w' i → r.Stored i := by
      rintro w' hw ⟨n, hle, hlt, -⟩
      have := hw.drawn
      omega
    cases hr : E.userByUsername r.sendTo with
    | error err =>
      rw [hr] at ha
      exact hidle ha hi
    | ok receiver =>
      have hother : receiver.id ≠ u := fun he => h ⟨hs, receiver, hr, he⟩
      rw [hr, Except.toOption, Option.bind_some, if_neg hother] at ha
      by_cases hallow : w.allows receiver.id = true
      · rw [if_pos hallow, Option.elim_some, after_sendIssue] at ha
        exact ListManager.sendIssue_created _ _ _ _ _ _ (.of_same ha hi)
      · rw [if_neg hallow] at ha
        exact hidle ha hi

/-- **Adding by one's own name stores what was asked** exactly where the three texts it exchanges are equal, or where
nothing is added. -/
theorem handleAdd_stores (E : Env) (w : World) (u : UserID) (r : AddAPIRequest) (hv : isValid (some r) = none) :
    ((∀ i, World.Created E w (r.added E w u) i → r.Stored i) ∧
      (r.NamesSelf E u → (r.added E w u).kv = (added E w u { r with sendTo := "" }).kv)) ↔
      ¬ r.NamesSelf E u ∨ (r.postPermalink = r.description ∧ r.description = r.postID) ∨ ¬ w.TakesNew E u := by
  have hv' : isValid (some { r with sendTo := "" }) = none := hv
  by_cases hself : r.NamesSelf E u
  case neg => exact ⟨fun _ => .inl hself, fun _ => ⟨fun i hi => created_stored hv hself hi, fun h => (hself h).elim⟩⟩
  have hs := added_self (w := w) hv hself
  have hown := added_own (E := E) (w := w) (u := u) hv' rfl
  simp only at hown
  constructor
  · rintro ⟨hstored, -⟩
    by_cases htake : w.TakesNew E u
    case neg => exact .inr (.inr htake)
    -- the record made is there, and is not what was asked
    obtain ⟨list, hrun⟩ := ListManager.addIssue_takes htake
    rw [hrun] at hs
    have hmade := hstored (w.made E r.message r.description r.postID r.postPermalink) ⟨w.drawn, Nat.le_refl _,
      by rw [hs.drawn]; exact Nat.lt_succ_self _,
      by rw [hs.kv, World.put_kv_of_ne _ _ (issueKey_ne_listKey _ _ _)]; exact World.put_kv_self ..⟩
    exact .inr (.inl ⟨hmade.2.1.symm, hmade.2.2.1.symm⟩)
  · rintro (h | ⟨hpd, hdq⟩ | hno)
    · exact (h hself).elim
    · have hpq := hpd.trans hdq
      refine ⟨fun i hi => ?_, fun _ => ?_⟩
      · have hmade := ListManager.addIssue_created _ _ _ _ _ (.of_same hs hi)
        exact ⟨hmade.1, hmade.2.1.trans hpd.symm, hmade.2.2.1.trans hdq.symm, hmade.2.2.2.trans hpq⟩
      · rw [hs.kv, hown.kv, ← hpq, ← hpd]
    · rw [ListManager.addIssue_refuses hno] at hs hown
      refine ⟨?_, fun _ => ?_⟩
      · rintro i ⟨n, hle, hlt, hi⟩
        rw [hs.drawn] at hlt
        obtain rfl : n = w.drawn := by
          have : n < w.drawn + 1 := hlt
          omega
        rw [hs.kv, World.delete_kv_self] at hi
        cases hi
      · rw [hs.kv, hown.kv]
        funext k
        by_cases hk : k = issueKey (E.newId w.drawn)
        · rw [hk, World.delete_kv_self, World.delete_kv_self]
        · have hmade : ∀ m p d q, (w.draw.save (w.made E m p d q)).kv k = w.kv k :=
            fun m p d q => World.put_kv_of_ne _ _ hk
          rw [World.delete_kv_of_ne _ hk, World.delete_kv_of_ne _ hk, hmade, hmade]

/-- A todo attached to a post, sent by ann to `sendTo`. -/
def milk (sendTo : String) : AddAPIRequest := ⟨"milk", "/pl/p", "two litres", sendTo, "p"⟩

theorem handleAdd_stores_milk : ((∀ i, World.Created Env.sample .empty ((milk "bob").added Env.sample .empty ann) i →
      (milk "bob").Stored i) ∧
    ((milk "bob").NamesSelf Env.sample ann → ((milk "bob").added Env.sample .empty ann).kv =
      (added Env.sample .empty ann { milk "bob" with sendTo := "" }).kv)) ↔
    ¬ (milk "bob").NamesSelf Env.sample ann ∨ ((milk "bob").postPermalink = (milk "bob").description ∧
      (milk "bob").description = (milk "bob").postID) ∨ ¬ World.empty.TakesNew Env.sample ann :=
  handleAdd_stores _ _ _ _ rfl

/-- Adding to ann by name stores the description as the permalink. -/
theorem handleAdd_exchanges : ∃ i, World.Created Env.sample .empty ((milk "ann").added Env.sample .empty ann) i ∧
    ¬ (milk "ann").Stored i :=
  ⟨⟨"x", "milk", "two litres", "p", 0, "/pl/p"⟩, ⟨0, by decide, by decide, by decide⟩, fun h =>
    absurd h.2.1 (by decide)⟩

end AddAPIRequest
end Todo

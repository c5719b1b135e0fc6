import TodoPlugin.Crossings
import TodoPlugin.Granted
import TodoPlugin.Views
/-!
# Getting rid of a todo

Failures, crashes and races leave todos whose other side is gone, or that are in two lists at once, and references to
records that are gone.  Whatever is left, a user can have it completed or removed: this takes one reference to it out of the
user's lists, one to its other side, and their records, and nothing else.  So no traffic leaves anything a user cannot get
rid of.
-/
namespace Todo

open Store (ids without)

namespace World

/-- The todos shown to a user in a list. -/
def todos (w : World) (u : String) (l : ListID) : List Issue :=
  (w.list (listKey u l)).filterMap fun r => w.issue r.issueID

theorem todos_eq_shown (E : Env) (w : World) (u : String) (l : ListID) :
    w.todos u l = ((w.shown E u).of l).map fun entry => entry.issue := by
  rw [of_shown, entries, List.map_filterMap, todos]
  refine List.filterMap_congr fun r _ => ?_
  cases w.issue r.issueID <;> simp

/-- **A reference and its record are taken out**: their todo is shown nowhere any more, the others where they were. -/
theorem Sound.todos_dropIssue {w : World} (h : w.Sound) (a x v : String) (m k : ListID) :
    ((w.unlist a x m).dropIssue x).todos v k = (w.todos v k).filter fun i => i.id ≠ x := by
  have hu := h.unlist a x m
  unfold todos
  rw [hu.list_dropIssue, list_unlist, List.filter_filterMap]
  -- a reference to `x` shows nothing now, and one to another todo what it did
  have hshown : ∀ r : IssueRef, ((w.unlist a x m).dropIssue x).issue r.issueID =
      (w.issue r.issueID).filter fun i => i.id ≠ x := by
    intro r
    rw [hu.issue_dropIssue, issue_unlist]
    cases hi : w.issue r.issueID with
    | none => simp
    | some i => by_cases hx : r.issueID = x <;> simp [Option.filter, h.issue_id hi, hx]
  split
  · rename_i hkey
    rw [hkey, without, List.filterMap_filter]
    refine List.filterMap_congr fun r _ => ?_
    rw [hshown]
    by_cases hx : r.issueID = x
    · cases hi : w.issue r.issueID with
      | none => simp
      | some i => simp [Option.filter, h.issue_id hi, hx]
    · simp [hx]
  · exact List.filterMap_congr fun r _ => hshown r

end World

/-- The todo is completed or removed. -/
def ListOp.clear (u : UserID) (id : String) (complete : Bool) : ListOp :=
  if complete then .completeIssue u id else .removeIssue u id

/-- The request for it. -/
def Request.clear (id : String) (complete : Bool) : Request :=
  if complete then .complete (.ok (some ⟨id⟩)) else .remove (.ok (some ⟨id⟩))

section clearing
variable {E : Env} {w : World} {u : UserID} {id : String}

theorem World.SameStore.list {w' : World} (h : World.SameStore w w') : w'.list = w.list := by
  unfold World.list
  rw [h.kv]

theorem World.SameStore.issue {w' : World} (h : World.SameStore w w') : w'.issue = w.issue := by
  unfold World.issue
  rw [h.kv]

/-- What is shown is what is stored. -/
theorem World.SameStore.todos {w' : World} (h : World.SameStore w w') : w'.todos = w.todos := by
  unfold World.todos
  rw [h.list, h.issue]

/-- The list under `key'` once the id is taken out of the one under `key`. -/
def withoutAt (key id key' : String) (list : List IssueRef) : List IssueRef :=
  if key' = key then without id list else list

/-- **The todo and its other side, and nothing else, have been taken out**, by the reference `r` to it in a list of `u`'s:
that list is without it, one of the other side's user without that one, and neither has a record. -/
structure World.Cleared (w : World) (u : UserID) (l : ListID) (r : IssueRef) (w' : World) : Prop where
  sound   : w'.Sound
  own     : r.foreignUserID = "" →
    ∀ s k, w'.list (listKey s k) = withoutAt (listKey u l) r.issueID (listKey s k) (w.list (listKey s k))
  shared  : r.foreignUserID ≠ "" → ∃ m, ∀ s k, w'.list (listKey s k) =
    withoutAt (listKey r.foreignUserID m) r.foreignIssueID (listKey s k)
      (withoutAt (listKey u l) r.issueID (listKey s k) (w.list (listKey s k)))
  records : ∀ id, w'.issue id =
    if id = r.issueID ∨ r.foreignUserID ≠ "" ∧ id = r.foreignIssueID then none else w.issue id
  todos   : ∀ v k, w'.todos v k =
    (w.todos v k).filter fun i => i.id ≠ r.issueID ∧ (r.foreignUserID = "" ∨ i.id ≠ r.foreignIssueID)

theorem World.list_unlist_at (w : World) (a id : String) (l : ListID) (key : String) :
    (w.unlist a id l).list key = withoutAt (listKey a l) id key (w.list key) := by
  rw [World.list_unlist, withoutAt]
  split
  · rename_i hkey
    rw [hkey]
  · rfl

theorem World.Sound.cleared_own (h : w.Sound) {r : IssueRef} (l : ListID) (hf : r.foreignUserID = "") :
    w.Cleared u l r ((w.unlist u r.issueID l).dropIssue r.issueID) where
  sound      := (h.unlist _ _ _).dropIssue _
  own _ s k  := by rw [(h.unlist _ _ _).list_dropIssue, World.list_unlist_at]
  shared hne := absurd hf hne
  records id := by
    rw [(h.unlist _ _ _).issue_dropIssue, World.issue_unlist]
    simp [hf]
  todos v k  := by
    rw [h.todos_dropIssue]
    exact List.filter_congr fun i _ => by simp [hf]

theorem World.Sound.cleared_shared (h : w.Sound) {r : IssueRef} (l m : ListID) (hf : r.foreignUserID ≠ "") :
    w.Cleared u l r ((((w.unlist u r.issueID l).dropIssue r.issueID).unlist r.foreignUserID r.foreignIssueID m).dropIssue
      r.foreignIssueID) where
  sound      := (((h.unlist _ _ _).dropIssue _).unlist _ _ _).dropIssue _
  own he     := absurd he hf
  shared _   := ⟨m, fun s k => by
    rw [(((h.unlist _ _ _).dropIssue _).unlist _ _ _).list_dropIssue, World.list_unlist_at, (h.unlist _ _ _).list_dropIssue,
      World.list_unlist_at]⟩
  records id := by
    rw [(((h.unlist _ _ _).dropIssue _).unlist _ _ _).issue_dropIssue, World.issue_unlist, (h.unlist _ _ _).issue_dropIssue,
      World.issue_unlist]
    by_cases hid : id = r.foreignIssueID <;> simp [hid, hf]
  todos v k  := by
    rw [((h.unlist _ _ _).dropIssue _).todos_dropIssue, h.todos_dropIssue, List.filter_filter]
    exact List.filter_congr fun i _ => by simp [hf, Bool.and_comm]

namespace World.Cleared

variable {l : ListID} {r : IssueRef} {w' w'' : World}

/-- Nothing joins a list. -/
theorem sublist (h : w.Cleared u l r w') (s : String) (k : ListID) :
    (w'.list (listKey s k)).Sublist (w.list (listKey s k)) := by
  have hat : ∀ (key id : String) (list : List IssueRef), (withoutAt key id (listKey s k) list).Sublist list := by
    intro key id list
    unfold withoutAt
    split
    · exact List.filter_sublist
    · exact List.Sublist.refl _
  by_cases hf : r.foreignUserID = ""
  · rw [h.own hf]
    exact hat ..
  · obtain ⟨m, hlist⟩ := h.shared hf
    rw [hlist]
    exact (hat ..).trans (hat ..)

/-- The list it was found in is without it. -/
theorem gone (h : w.Cleared u l r w') : r.issueID ∉ ids (w'.list (listKey u l)) := by
  have hat : withoutAt (listKey u l) r.issueID (listKey u l) (w.list (listKey u l)) =
      without r.issueID (w.list (listKey u l)) := if_pos rfl
  by_cases hf : r.foreignUserID = ""
  · rw [h.own hf, hat]
    exact Store.not_mem_ids_without _ _
  · obtain ⟨m, hlist⟩ := h.shared hf
    rw [hlist, hat, withoutAt]
    split
    · exact fun hm => Store.not_mem_ids_without _ _ ((List.filter_sublist.map _).subset hm)
    · exact Store.not_mem_ids_without _ _

/-- Whatever else stores the same. -/
theorem sameStore (h : w.Cleared u l r w') (hs : SameStore w' w'') : w.Cleared u l r w'' where
  sound      := h.sound.sameStore hs
  own        := by rw [hs.list]; exact h.own
  shared     := by rw [hs.list]; exact h.shared
  records id := by rw [hs.issue]; exact h.records id
  todos v k  := by rw [hs.todos]; exact h.todos v k

end World.Cleared

/-- **What is in a list of the user's is taken out**, with its other side. -/
theorem ListOp.clear_after (h : w.Sound) (u : UserID) (id : String) (complete : Bool) :
    (∃ l r, r ∈ w.list (listKey u l) ∧ r.issueID = id ∧ w.Cleared u l r ((clear u id complete).after E w)) ∨
      (∀ l, id ∉ ids (w.list (listKey u l))) ∧ (clear u id complete).after E w = w := by
  have hafter : ∀ {α : Type} {p : Api α} {res : α} {w' : World} (f : α → ListResult),
      p.run (serve E) w = (some res, w') → ((p >>= fun a => pure (f a)).run (serve E) w).2 = w' := by
    intro α p res w' f hrun
    rw [Proc.run_bind_of _ hrun]
    rfl
  rcases w.locate_cases u id with ⟨l, r, n, hl, hr, rfl⟩ | ⟨hl, hno⟩
  · refine .inl ⟨l, r, hr, rfl, ?_⟩
    by_cases hf : r.foreignUserID = ""
    · cases complete with
      | true =>
        rw [show (clear u r.issueID true).after E w = _ from hafter _ (ListManager.completeIssue_own E h hl hf)]
        exact h.cleared_own l hf
      | false =>
        rw [show (clear u r.issueID false).after E w = _ from hafter _ (ListManager.removeIssue_own E h hl hf)]
        exact h.cleared_own l hf
    · cases complete with
      | true =>
        rw [show (clear u r.issueID true).after E w = _ from hafter _ (ListManager.completeIssue_shared E h hl hf)]
        exact h.cleared_shared l .outList hf
      | false =>
        rw [show (clear u r.issueID false).after E w = _ from hafter _ (ListManager.removeIssue_shared E h hl hf rfl)]
        exact h.cleared_shared l _ hf
  · refine .inr ⟨hno, ?_⟩
    cases complete with
    | true => exact hafter _ (ListManager.completeIssue_absent E h hl)
    | false => exact hafter _ (ListManager.removeIssue_absent E h hl)

theorem CompleteAPIRequest.valid_of_ne (hid : id ≠ "") :
    Body.valid CompleteAPIRequest.isValid (.ok (some ⟨id⟩)) = some ⟨id⟩ := Body.valid_iff.2 ⟨rfl, by simp [hid]⟩

theorem RemoveAPIRequest.valid_of_ne (hid : id ≠ "") :
    Body.valid RemoveAPIRequest.isValid (.ok (some ⟨id⟩)) = some ⟨id⟩ := Body.valid_iff.2 ⟨rfl, by simp [hid]⟩

theorem Request.clear_op (hid : id ≠ "") (complete : Bool) :
    (Request.clear id complete).op E w u = some (.clear u id complete) := by
  cases complete with
  | true => simp [clear, ListOp.clear, op, CompleteAPIRequest.valid_of_ne hid]
  | false => simp [clear, ListOp.clear, op, RemoveAPIRequest.valid_of_ne hid]

theorem Request.clear_granted (hid : id ≠ "") (complete : Bool) :
    (Request.clear id complete).Granted E w u ↔ ∃ l, id ∈ ids (w.list (listKey u l)) := by
  cases complete with
  | true => simp [clear, Granted, CompleteAPIRequest.valid_of_ne hid, ListOp.Granted, Board.refs]
  | false => simp [clear, Granted, RemoveAPIRequest.valid_of_ne hid, ListOp.Granted, Board.refs]

/-- The request answers as the operation does, and leaves what it leaves. -/
theorem serveHTTP_clear (h : w.Sound) (u : UserID) (hid : id ≠ "") (complete : Bool) :
    ∃ resp w', (serveHTTP u (.clear id complete)).run (serve E) w = (some resp, w') ∧
      (resp.Failed ↔ ∀ l, id ∉ ids (w.list (listKey u l))) ∧
      World.SameStore ((ListOp.clear u id complete).after E w) w' := by
  have hlists : ∀ reminder offset, Request.clear id complete ≠ .lists reminder offset := by
    cases complete <;> simp [Request.clear]
  have hserve : serveHTTP u (.clear id complete) = withRecovery ((Request.clear id complete).handler u) := by
    rw [serveHTTP, checkAuth, if_neg u.val_ne_empty]
  have hdecides : Decides E w (withRecovery ((Request.clear id complete).handler u)) Response.Failed
      ((Request.clear id complete).Granted E w u) := by
    cases complete with
    | true => exact handleComplete_decides h _
    | false => exact handleRemove_decides h _
  obtain ⟨resp, w', hrun, hfails, -⟩ := hdecides
  refine ⟨resp, w', by rw [hserve, hrun], hfails.trans ?_, ?_⟩
  · rw [Request.clear_granted hid, not_exists]
  · have hdoes := Request.handler_does (E := E) (w := w) u hlists
    rw [Request.clear_op hid, Does] at hdoes
    rw [withRecovery, Proc.run_recover_eq] at hrun
    cases hrun
    exact hdoes

theorem World.Sound.of_mem_todos (h : w.Sound) {l : ListID} {i : Issue} (hi : i ∈ w.todos u l) :
    i.id ≠ "" ∧ i.id ∈ ids (w.list (listKey u l)) := by
  obtain ⟨r, hr, he⟩ := List.mem_filterMap.1 hi
  rw [h.issue_id he]
  exact ⟨h.id_ne_empty he, List.mem_map.2 ⟨r, hr, rfl⟩⟩

/-- **One request**: a reference to what it asks to be rid of is taken out of the user's lists, or there is none. -/
theorem World.Sound.clear (h : w.Sound) (u : UserID) (id : String) (hid : id ≠ "") (complete : Bool) :
    (∃ l r, r ∈ w.list (listKey u l) ∧ r.issueID = id ∧
        w.Cleared u l r ((Input.http (some u) (.clear id complete)).after E w)) ∨
      (∀ l, id ∉ ids (w.list (listKey u l))) ∧
        World.SameStore w ((Input.http (some u) (.clear id complete)).after E w) := by
  obtain ⟨resp, w', hrun, -, hsame⟩ := serveHTTP_clear (E := E) h u hid complete
  have hafter : (Input.http (some u) (.clear id complete)).after E w = w' :=
    (Input.run_map E w _ _).trans (congrArg Prod.snd hrun)
  rw [hafter]
  rcases ListOp.clear_after (E := E) h u id complete with ⟨l, r, hr, hrid, hcleared⟩ | ⟨hno, hw⟩
  · exact .inl ⟨l, r, hr, hrid, hcleared.sameStore hsame⟩
  · rw [hw] at hsame
    exact .inr ⟨hno, hsame⟩

/-- A request for no id is not valid, and changes nothing. -/
theorem World.clear_empty (w : World) (u : UserID) (complete : Bool) :
    World.SameStore w ((Input.http (some u) (.clear "" complete)).after E w) := by
  have hlists : ∀ reminder offset, Request.clear "" complete ≠ .lists reminder offset := by
    cases complete <;> simp [Request.clear]
  have hdoes := Request.handler_does (E := E) (w := w) u hlists
  have hop : (Request.clear "" complete).op E w u = none := by cases complete <;> rfl
  rw [hop] at hdoes
  rw [Input.after_http, userHeader, checkAuth, if_neg u.val_ne_empty]
  exact hdoes

/-! ## One request after another -/

/-- In how many of the user's lists the id is. -/
def World.held (w : World) (u id : String) : Nat :=
  [ListID.myList, .inList, .outList].countP fun l => decide (id ∈ ids (w.list (listKey u l)))

/-- The requests, one after another. -/
def World.clearAll (E : Env) (u : UserID) (w : World) (asks : List (String × Bool)) : World :=
  asks.foldl (fun w ask => (Input.http (some u) (.clear ask.1 ask.2)).after E w) w

/-- **What is left in the user's lists** by a request for the id, whatever it finds there. -/
structure World.Less (w : World) (u : UserID) (id : String) (w' : World) : Prop where
  sound : w'.Sound
  lists : ∀ l, (w'.list (listKey u l)).Sublist (w.list (listKey u l))
  held  : ∀ x, w'.held u x ≤ w.held u x - if x = id then 1 else 0
  todos : ∀ l, ∀ i ∈ w'.todos u l, i ∈ w.todos u l ∧ i.id ≠ id

theorem World.held_mono {w' : World} {x : String} (h : ∀ l, (w'.list (listKey u l)).Sublist (w.list (listKey u l))) :
    w'.held u x ≤ w.held u x :=
  List.countP_mono_left fun l _ hm => decide_eq_true (((h l).map _).subset (of_decide_eq_true hm))

/-- A list fewer. -/
theorem World.held_lt {w' : World} {x : String} (h : ∀ l, (w'.list (listKey u l)).Sublist (w.list (listKey u l)))
    {l : ListID} (hm : x ∈ ids (w.list (listKey u l))) (hno : x ∉ ids (w'.list (listKey u l))) :
    w'.held u x < w.held u x := by
  have hmono : ∀ ls : List ListID, (ls.countP fun k => decide (x ∈ ids (w'.list (listKey u k)))) ≤
      ls.countP fun k => decide (x ∈ ids (w.list (listKey u k))) := fun ls =>
    List.countP_mono_left fun k _ hk => decide_eq_true (((h k).map _).subset (of_decide_eq_true hk))
  have hmem : l ∈ [ListID.myList, .inList, .outList] := by cases l <;> simp
  obtain ⟨pre, post, he⟩ := List.append_of_mem hmem
  have hpre := hmono pre
  have hpost := hmono post
  rw [World.held, World.held, he, List.countP_append, List.countP_append, List.countP_cons_of_neg (by simpa using hno),
    List.countP_cons_of_pos (by simpa using hm)]
  omega

theorem World.held_eq_zero {x : String} (h : w.held u x = 0) (l : ListID) : x ∉ ids (w.list (listKey u l)) := by
  have hno := List.countP_eq_zero.1 h l (by cases l <;> simp)
  simpa using hno

theorem World.Sound.clear_less (h : w.Sound) (u : UserID) (id : String) (complete : Bool)
    (hne : ∀ l, "" ∉ ids (w.list (listKey u l))) :
    w.Less u id ((Input.http (some u) (.clear id complete)).after E w) := by
  have hsame : ∀ {w' : World}, World.SameStore w w' → (∀ l, id ∉ ids (w.list (listKey u l))) → w.Less u id w' := by
    intro w' hsame hno
    refine ⟨h.sameStore hsame, fun l => by rw [hsame.list], fun x => ?_, fun l i hi => ?_⟩
    · have hheld : w'.held u x = w.held u x := by rw [World.held, World.held, hsame.list]
      rw [hheld]
      split
      · rename_i hx
        have hzero : w.held u x = 0 := List.countP_eq_zero.2 fun l _ => by simpa [hx] using hno l
        omega
      · exact Nat.le_refl _
    · rw [hsame.todos] at hi
      exact ⟨hi, fun he => hno l (he ▸ (h.of_mem_todos hi).2)⟩
  by_cases hid : id = ""
  · subst hid
    exact hsame (w.clear_empty u complete) hne
  · rcases h.clear (E := E) u id hid complete with ⟨l, r, hr, rfl, hcleared⟩ | ⟨hno, hw⟩
    · refine ⟨hcleared.sound, hcleared.sublist u, fun x => ?_, fun k i hi => ?_⟩
      · split
        · rename_i hx
          have hlt := World.held_lt (hcleared.sublist u) (List.mem_map.2 ⟨r, hr, rfl⟩) hcleared.gone
          rw [hx]
          omega
        · exact World.held_mono (hcleared.sublist u)
      · rw [hcleared.todos] at hi
        obtain ⟨hm, hleft⟩ := List.mem_filter.1 hi
        exact ⟨hm, (of_decide_eq_true hleft).1⟩
    · exact hsame hw hno

/-- **One request after another**: references leave the lists, and what has been asked for is shown no more, and no longer
there if it has been asked for as often as it was in a list. -/
theorem World.Sound.clear_all (u : UserID) : ∀ (asks : List (String × Bool)) {w : World}, w.Sound →
    (∀ l, "" ∉ ids (w.list (listKey u l))) →
      (w.clearAll E u asks).Sound ∧ (∀ l, ((w.clearAll E u asks).list (listKey u l)).Sublist (w.list (listKey u l))) ∧
      (∀ x, (w.clearAll E u asks).held u x ≤ w.held u x - (asks.map Prod.fst).count x) ∧
      ∀ l, ∀ i ∈ (w.clearAll E u asks).todos u l, i ∈ w.todos u l ∧ i.id ∉ asks.map Prod.fst
  | [], w, h, _            => ⟨h, fun _ => List.Sublist.refl _, fun _ => Nat.le_refl _, fun _ _ hi => ⟨hi, List.not_mem_nil⟩⟩
  | ask :: asks, w, h, hne => by
    have hless := h.clear_less (E := E) u ask.1 ask.2 hne
    obtain ⟨hs, hlists, hheld, htodos⟩ := World.Sound.clear_all u asks hless.sound fun l hm =>
      hne l (((hless.lists l).map _).subset hm)
    refine ⟨hs, fun l => (hlists l).trans (hless.lists l), fun x => ?_, fun l i hi => ?_⟩
    · have hfirst := hless.held x
      have hrest := hheld x
      rw [List.map_cons, List.count_cons]
      simp only [beq_iff_eq, @eq_comm _ ask.1 x]
      refine Nat.le_trans hrest ?_
      omega
    · obtain ⟨hm, hno⟩ := htodos l i hi
      obtain ⟨hm', hid⟩ := hless.todos l i hm
      refine ⟨hm', ?_⟩
      rw [List.map_cons, List.mem_cons, not_or]
      exact ⟨hid, hno⟩

end clearing

/-! ## After any traffic -/

section traffic
variable {ι : Type} [DecidableEq ι] {E : Env} {inputs : ι → Input} {P : Pool ι Call Resp Reply World}
  {tr : List (Event ι Call Resp)}

/-- **Nobody is left with anything**: whatever has happened, completing or removing todos, one after another in any order,
takes references out of the user's lists and puts none in; where all that is shown is asked for, nothing is shown any more,
and what is left has no record; where each id is asked for as often as it is in a list, the lists are empty. -/
theorem traffic_cleared (h : Pool.Turns (Ending E) (Input.pool inputs) tr P) (u : UserID) (asks : List (String × Bool))
    (l : ListID) :
    ((P.state.clearAll E u asks).list (listKey u l)).Sublist (P.state.list (listKey u l)) ∧
    ((∀ k, ∀ row ∈ (P.state.shown E u).of k, row.issue.id ∈ asks.map Prod.fst) →
      ((P.state.clearAll E u asks).shown E u).of l = [] ∧
        ∀ r ∈ (P.state.clearAll E u asks).list (listKey u l), (P.state.clearAll E u asks).issue r.issueID = none) ∧
    ((∀ id, P.state.held u id ≤ (asks.map Prod.fst).count id) → (P.state.clearAll E u asks).list (listKey u l) = []) := by
  obtain ⟨hs, hlists, hheld, htodos⟩ := (sound_of_turns h).clear_all (E := E) u asks (ids_ne_empty_of_turns h u)
  refine ⟨hlists l, fun hall => ?_, fun hall => ?_⟩
  · have hnone : (P.state.clearAll E u asks).todos u l = [] := by
      refine List.eq_nil_iff_forall_not_mem.2 fun i hi => ?_
      obtain ⟨hm, hno⟩ := htodos l i hi
      rw [World.todos_eq_shown E] at hm
      obtain ⟨row, hrow, rfl⟩ := List.mem_map.1 hm
      exact hno (hall l row hrow)
    refine ⟨?_, fun r hr => List.filterMap_eq_nil_iff.1 hnone r hr⟩
    rw [World.todos_eq_shown E] at hnone
    exact List.map_eq_nil_iff.1 hnone
  · refine List.eq_nil_iff_forall_not_mem.2 fun r hr => ?_
    have hzero : (P.state.clearAll E u asks).held u r.issueID = 0 := by
      have hle := hheld r.issueID
      have hcount := hall r.issueID
      omega
    exact World.held_eq_zero hzero l (List.mem_map.2 ⟨r, hr, rfl⟩)

end traffic

section sample

/-- Bob has stopped half through accepting: the todo is in his In and in his My list. -/
def acceptingMilk : World := (afterSending acceptMilk 4).2.state

theorem acceptingMilk_turns : Pool.Turns (Ending Env.sample) (Input.pool (sendAnd acceptMilk))
    ((sentMilk acceptMilk).1 ++ (afterSending acceptMilk 4).1) (afterSending acceptMilk 4).2 :=
  (sentMilk_turns acceptMilk).append (afterSending_turns acceptMilk 4)

/-- Both of his references are to the todo he is shown. -/
theorem acceptingMilk_ids (k : ListID) : ∀ id ∈ ids (acceptingMilk.list (listKey bob k)), id = "xx" := by
  cases k <;> decide

/-- Completing it takes it out of his My list, with its record, and removing it takes it out of his In list too. -/
theorem acceptingMilk_cleared :
    ((acceptingMilk.clearAll Env.sample bob [("xx", true)]).shown Env.sample bob).of .inList = [] ∧
      (acceptingMilk.clearAll Env.sample bob [("xx", true), ("xx", false)]).list (listKey bob .inList) = [] := by
  have hshown : ∀ k, ∀ row ∈ (acceptingMilk.shown Env.sample bob).of k, row.issue.id ∈ ["xx"] := by
    intro k
    cases k <;> decide
  have hheld : ∀ id, acceptingMilk.held bob id ≤ ["xx", "xx"].count id := by
    intro id
    by_cases hid : id = "xx"
    · subst hid
      decide
    · have hzero : acceptingMilk.held bob id = 0 :=
        List.countP_eq_zero.2 fun k _ hk => hid (acceptingMilk_ids k id (of_decide_eq_true hk))
      rw [hzero]
      exact Nat.zero_le _
  exact ⟨((traffic_cleared acceptingMilk_turns bob [("xx", true)] .inList).2.1 hshown).1,
    (traffic_cleared acceptingMilk_turns bob [("xx", true), ("xx", false)] .inList).2.2 hheld⟩

end sample
end Todo

import TodoPlugin.Board
/-!
# The store's functions run alone

What each function of the store returns and leaves when it runs by itself on a sound store, with no KV failure: one
equation for each, in terms of what the store says (`World.list`, `World.issue`) and of three changes of it, taking a
reference out (`unlist`), appending one (`append`) and dropping an issue (`dropIssue`).
-/
namespace Todo

open Store (ids without)

namespace World

/-- The store with the references to an issue taken out of a list, if there are any. -/
def unlist (w : World) (userID issueID : String) (listID : ListID) : World :=
  if issueID ∈ ids (w.list (listKey userID listID)) then
    w.put (listKey userID listID) (.refs (without issueID (w.list (listKey userID listID))))
  else w

def append (w : World) (userID : String) (listID : ListID) (ref : IssueRef) : World :=
  w.put (listKey userID listID) (.refs (w.list (listKey userID listID) ++ [ref]))

/-- The store without an issue, if it has it. -/
def dropIssue (w : World) (issueID : String) : World :=
  if (w.issue issueID).isSome then w.delete (issueKey issueID) else w

def save (w : World) (i : Issue) : World := w.put (issueKey i.id) (.issue i)

theorem board_unlist (w : World) (u id : String) (l : ListID) :
    (w.unlist u id l).board = w.board.unlist (listKey u l) id := by
  unfold unlist
  split
  · exact board_put_list ..
  · rename_i h
    exact (Board.unlist_of_not_mem h).symm

theorem kv_unlist_of_ne (w : World) {u id : String} {l : ListID} {key : String} (h : key ≠ listKey u l) :
    (w.unlist u id l).kv key = w.kv key := by
  unfold unlist
  split
  · exact put_kv_of_ne _ _ h
  · rfl

theorem unlist_of_not_mem {w : World} {u id : String} {l : ListID} (h : id ∉ ids (w.list (listKey u l))) :
    w.unlist u id l = w := if_neg h

/-- Taking the head out leaves the rest. -/
theorem Listed.unlist_head {w : World} (h : w.Listed) {u : String} {l : ListID} {ir : IssueRef} {rest : List IssueRef}
    (hl : w.list (listKey u l) = ir :: rest) : w.unlist u ir.issueID l = w.put (listKey u l) (.refs rest) := by
  have hd := h.distinct u l
  rw [hl] at hd
  have hmem : ir.issueID ∈ ids (w.list (listKey u l)) := by rw [hl]; exact List.mem_cons_self
  have hrest : ir.issueID ∉ ids rest := (List.nodup_cons.1 hd).1
  rw [unlist, if_pos hmem, hl, Store.without_cons_self, Store.without_eq_self hrest]

theorem board_append (w : World) (u : String) (l : ListID) (ref : IssueRef) :
    (w.append u l ref).board = w.board.append (listKey u l) ref := board_put_list ..

theorem Sound.board_dropIssue {w : World} (h : w.Sound) (id : String) :
    (w.dropIssue id).board = w.board.setIssue id none := by
  unfold dropIssue
  split
  · exact h.board_delete_issue id
  · rename_i hn
    exact (Board.setIssue_none_of_none (by simpa using hn)).symm

theorem Sound.board_save {w : World} (h : w.Sound) (i : Issue) :
    (w.save i).board = w.board.setIssue i.id (some i) := h.board_put_issue i

theorem Listed.unlist {w : World} (h : w.Listed) (u id : String) (l : ListID) : (w.unlist u id l).Listed := by
  unfold World.unlist
  split
  · exact h.put_list u l (Store.nodup_without (h.distinct u l))
  · exact h

theorem Sound.unlist {w : World} (h : w.Sound) (u id : String) (l : ListID) : (w.unlist u id l).Sound := by
  unfold World.unlist
  split
  · exact h.put_list u l (Store.nodup_without (h.distinct u l))
  · exact h

theorem Listed.nodup_append {w : World} (h : w.Listed) {u : String} {l : ListID} {ref : IssueRef}
    (hnew : ref.issueID ∉ ids (w.list (listKey u l))) : (ids (w.list (listKey u l) ++ [ref])).Nodup := by
  rw [Store.ids, List.map_append, List.nodup_append]
  refine ⟨h.distinct u l, by simp, fun a ha b hb => ?_⟩
  simp only [List.map_cons, List.map_nil, List.mem_singleton] at hb
  rintro rfl
  exact hnew (hb ▸ ha)

theorem Listed.append {w : World} (h : w.Listed) {u : String} {l : ListID} {ref : IssueRef}
    (hnew : ref.issueID ∉ ids (w.list (listKey u l))) : (w.append u l ref).Listed := h.put_list u l (h.nodup_append hnew)

theorem Sound.append {w : World} (h : w.Sound) {u : String} {l : ListID} {ref : IssueRef}
    (hnew : ref.issueID ∉ ids (w.list (listKey u l))) : (w.append u l ref).Sound := h.put_list u l (h.nodup_append hnew)

theorem Sound.dropIssue {w : World} (h : w.Sound) (id : String) : (w.dropIssue id).Sound := by
  unfold World.dropIssue
  split
  · exact h.delete_issue id
  · exact h

theorem Sound.save {w : World} (h : w.Sound) {i : Issue} (hne : i.id ≠ "") : (w.save i).Sound := h.put_issue i hne

@[simp] theorem unlist_drawn (w : World) (u id : String) (l : ListID) : (w.unlist u id l).drawn = w.drawn := by
  unfold unlist; split <;> rfl
@[simp] theorem unlist_ticks (w : World) (u id : String) (l : ListID) : (w.unlist u id l).ticks = w.ticks := by
  unfold unlist; split <;> rfl
@[simp] theorem append_drawn (w : World) (u : String) (l : ListID) (ref : IssueRef) :
    (w.append u l ref).drawn = w.drawn := rfl
@[simp] theorem append_ticks (w : World) (u : String) (l : ListID) (ref : IssueRef) :
    (w.append u l ref).ticks = w.ticks := rfl
@[simp] theorem dropIssue_drawn (w : World) (id : String) : (w.dropIssue id).drawn = w.drawn := by
  unfold dropIssue; split <;> rfl
@[simp] theorem dropIssue_ticks (w : World) (id : String) : (w.dropIssue id).ticks = w.ticks := by
  unfold dropIssue; split <;> rfl
@[simp] theorem save_drawn (w : World) (i : Issue) : (w.save i).drawn = w.drawn := rfl
@[simp] theorem save_ticks (w : World) (i : Issue) : (w.save i).ticks = w.ticks := rfl

/-! ## What is found -/

/-- What `GetIssue` answers. -/
def fetch (w : World) (id : String) : Except String Issue :=
  match w.issue id with
  | some i => .ok i
  | none   => .error "cannot find issue"

/-- What `GetIssueReference` answers. -/
def refOf (w : World) (userID issueID : String) (listID : ListID) : Except String (IssueRef × Nat) :=
  if w.kv (listKey userID listID) = none then .error "cannot load list"
  else Store.lookupRef issueID (w.list (listKey userID listID))

/-- What `GetIssueListAndReference` answers. -/
def locate (w : World) (userID issueID : String) : ListID × Option IssueRef × Nat :=
  match w.refOf userID issueID .myList with
  | .ok (ir, n) => (.myList, some ir, n)
  | .error _    =>
    match w.refOf userID issueID .outList with
    | .ok (ir, n) => (.outList, some ir, n)
    | .error _    =>
      match w.refOf userID issueID .inList with
      | .ok (ir, n) => (.inList, some ir, n)
      | .error _    => (.myList, none, 0)

theorem refOf_ok {w : World} {u id : String} {l : ListID} {r : IssueRef} {n : Nat} (h : w.refOf u id l = .ok (r, n)) :
    r ∈ w.list (listKey u l) ∧ r.issueID = id := by
  unfold refOf Store.lookupRef at h
  split at h
  · cases h
  · split at h
    · rename_i hf
      cases h
      exact Store.mem_of_findRef hf
    · cases h

theorem refOf_error {w : World} {u id : String} {l : ListID} {e : String} (h : w.refOf u id l = .error e) :
    id ∉ ids (w.list (listKey u l)) := by
  unfold refOf Store.lookupRef at h
  split at h
  · rename_i hk
    rw [World.list, hk]
    exact List.not_mem_nil
  · split at h
    · cases h
    · rename_i hf
      exact Store.findRef_eq_none.1 hf

theorem refOf_of_not_mem {w : World} {u id : String} {l : ListID} (h : id ∉ ids (w.list (listKey u l))) :
    ∃ e, w.refOf u id l = .error e := by
  cases hr : w.refOf u id l with
  | error e => exact ⟨e, rfl⟩
  | ok p =>
    obtain ⟨hm, he⟩ := refOf_ok (r := p.1) (n := p.2) hr
    exact absurd (List.mem_map.2 ⟨_, hm, he⟩) h

theorem Listed.refOf_of_mem {w : World} (h : w.Listed) {u : String} {l : ListID} {r : IssueRef}
    (hr : r ∈ w.list (listKey u l)) : ∃ n, w.refOf u r.issueID l = .ok (r, n) := by
  obtain ⟨n, hn⟩ := Store.findRef_of_mem (h.distinct u l) hr 0
  refine ⟨n, ?_⟩
  unfold refOf Store.lookupRef
  rw [hn, if_neg]
  intro hk
  rw [World.list, hk] at hr
  cases hr

/-- **A search finds the issue in one of the three lists, or there is none.** -/
theorem locate_cases (w : World) (u id : String) :
    (∃ l r n, w.locate u id = (l, some r, n) ∧ r ∈ w.list (listKey u l) ∧ r.issueID = id) ∨
      w.locate u id = (.myList, none, 0) ∧ ∀ l, id ∉ ids (w.list (listKey u l)) := by
  unfold locate
  cases hm : w.refOf u id .myList with
  | ok p => exact .inl ⟨_, p.1, p.2, rfl, refOf_ok hm⟩
  | error e₁ =>
    cases ho : w.refOf u id .outList with
    | ok p => exact .inl ⟨_, p.1, p.2, rfl, refOf_ok ho⟩
    | error e₂ =>
      cases hi : w.refOf u id .inList with
      | ok p => exact .inl ⟨_, p.1, p.2, rfl, refOf_ok hi⟩
      | error e₃ =>
        refine .inr ⟨rfl, fun l => ?_⟩
        cases l
        · exact refOf_error hm
        · exact refOf_error hi
        · exact refOf_error ho

/-- A reference to an issue that no other list of the user has is the one found. -/
theorem Listed.locate_of_mem {w : World} (h : w.Listed) {u : String} {l : ListID} {r : IssueRef}
    (hr : r ∈ w.list (listKey u l)) (hone : ∀ m, m ≠ l → r.issueID ∉ ids (w.list (listKey u m))) :
    ∃ n, w.locate u r.issueID = (l, some r, n) := by
  rcases locate_cases w u r.issueID with ⟨m, s, n, hs, hm, he⟩ | ⟨-, hno⟩
  · have hml : m = l := Classical.byContradiction fun hne => hone m hne (List.mem_map.2 ⟨s, hm, he⟩)
    subst hml
    rw [Store.eq_of_mem_of_issueID (h.distinct u m) hm hr he] at hs
    exact ⟨n, hs⟩
  · exact absurd (List.mem_map.2 ⟨r, hr, rfl⟩) (hno l)

end World

/-! ## The functions -/

namespace Store

variable (E : Env) {w : World}

theorem saveIssue_run (i : Issue) : (saveIssue i).run (serve E) w = (some (.ok ()), w.save i) := rfl

theorem removeIssue_run (id : String) :
    (removeIssue id).run (serve E) w = (some (.ok ()), w.delete (issueKey id)) := rfl

theorem getIssue_run (h : w.Sound) (id : String) : (getIssue id).run (serve E) w = (some (w.fetch id), w) := by
  simp only [getIssue, Api.kvGet, Proc.request_bind, Proc.run_call, serve, World.fetch]
  rw [h.kv_issue]
  cases w.issue id <;> rfl

/-! Without a sound store, a record is found where there is one. -/

theorem getIssue_found {id : String} {i : Issue} (h : w.issue id = some i) :
    (getIssue id).run (serve E) w = (some (.ok i), w) := by
  unfold World.issue at h
  split at h
  · rename_i hkv
    cases h
    simp only [getIssue, Api.kvGet, Proc.request_bind, Proc.run_call, serve, hkv]
    rfl
  · cases h

theorem getIssue_missing {id : String} (h : w.issue id = none) :
    ∃ err, (getIssue id).run (serve E) w = (some (.error err), w) := by
  simp only [getIssue, Api.kvGet, Proc.request_bind, Proc.run_call, serve]
  cases hkv : w.kv (issueKey id) with
  | none => exact ⟨_, rfl⟩
  | some value =>
    cases value with
    | issue i =>
      rw [World.issue, hkv] at h
      cases h
    | refs | legacy | text => exact ⟨_, rfl⟩

theorem getAndRemoveIssue_run (h : w.Sound) (id : String) :
    (getAndRemoveIssue id).run (serve E) w = (some (w.fetch id), w.dropIssue id) := by
  unfold getAndRemoveIssue
  rw [Proc.run_bind_of _ (getIssue_run E h id), World.fetch, World.dropIssue]
  cases w.issue id <;> rfl

theorem legacyIssueRef_run {u : String} {l : ListID} {id : String} {rest : List String}
    (hk : w.kv (listKey u l) = some (.legacy id rest)) :
    (legacyIssueRef u l).run (serve E) w = (some (.ok (w.list (listKey u l), w.kv (listKey u l))), w) := by
  simp only [legacyIssueRef, Api.kvGet, Proc.request_bind, Proc.run_call, serve, World.list, hk, decodeList]
  rfl

section decodes
variable {u : String} {l : ListID} {list : List IssueRef}

theorem getList_decodes (hd : decodeList (w.kv (listKey u l)) = some list) :
    (getList u l).run (serve E) w = (some (.ok (list, w.kv (listKey u l))), w) := by
  simp only [getList, Api.kvGet, Proc.request_bind, Proc.run_call, serve]
  cases hk : w.kv (listKey u l) with
  | none =>
    rw [hk] at hd
    cases hd
    rfl
  | some value =>
    rw [hk] at hd
    cases value with
    | refs refs =>
      cases hd
      rfl
    | legacy id rest =>
      cases hd
      have := legacyIssueRef_run E hk
      rw [hk] at this
      simpa [unmarshalRefs, World.list, hk, decodeList] using this
    | issue | text => cases hd

theorem getList_fails (hd : decodeList (w.kv (listKey u l)) = none) :
    (getList u l).run (serve E) w = (some (.error jsonError), w) := by
  simp only [getList, Api.kvGet, Proc.request_bind, Proc.run_call, serve]
  cases hk : w.kv (listKey u l) with
  | none =>
    rw [hk] at hd
    cases hd
  | some value =>
    rw [hk] at hd
    cases value with
    | refs | legacy => cases hd
    | issue | text =>
      simp only [unmarshalRefs, legacyIssueRef, Api.kvGet, Proc.request_bind, Proc.run_call, serve, hk]
      rfl

theorem getRefs_decodes (hd : decodeList (w.kv (listKey u l)) = some list) :
    (getRefs u l).run (serve E) w = (some (.ok list), w) := by
  unfold getRefs
  rw [Proc.run_bind_of _ (getList_decodes E hd)]
  rfl

/-- The search of one list, in either encoding. -/
theorem getIssueReference_decodes (hd : decodeList (w.kv (listKey u l)) = some list) (id : String) :
    (getIssueReference u id l).run (serve E) w = (some (w.refOf u id l), w) := by
  simp only [getIssueReference, Api.kvGet, Proc.request_bind, Proc.run_call, serve, World.refOf]
  cases hk : w.kv (listKey u l) with
  | none => rfl
  | some value =>
    rw [hk] at hd
    cases value with
    | refs list => simp [World.list, hk, decodeList, unmarshalRefs]
    | legacy i rest =>
      simp only [unmarshalRefs]
      rw [Proc.run_bind_of _ (legacyIssueRef_run E hk)]
      simp
    | issue | text => cases hd

/-- **Alone, the loop of the list operations goes round once.** -/
theorem editList_decodes {α : Type} (hd : decodeList (w.kv (listKey u l)) = some list) (edit : List IssueRef → Edit α)
    (exhausted : String) (n : Nat) :
    (editList u l edit exhausted (n + 1)).run (serve E) w = match edit list with
      | .fail e         => (some (.error e), w)
      | .panic          => (none, w)
      | .save a newList => (some (.ok a), w.put (listKey u l) (.refs newList)) := by
  rw [editList, Proc.run_bind_of _ (getList_decodes E hd)]
  simp only
  cases edit list with
  | fail e => rfl
  | panic => rfl
  | save a newList =>
    simp only [saveList, Api.kvCompareAndSet, Proc.request_bind, Proc.run_call, serve, if_true]
    rfl

end decodes

theorem getRefs_run (h : w.Listed) (u : String) (l : ListID) :
    (getRefs u l).run (serve E) w = (some (.ok (w.list (listKey u l))), w) := getRefs_decodes E (h.decode_eq u l)

theorem getIssueReference_run (h : w.Listed) (u id : String) (l : ListID) :
    (getIssueReference u id l).run (serve E) w = (some (w.refOf u id l), w) :=
  getIssueReference_decodes E (h.decode_eq u l) id

theorem getIssueListAndReference_run (h : w.Listed) (u id : String) :
    (getIssueListAndReference u id).run (serve E) w = (some (w.locate u id), w) := by
  unfold getIssueListAndReference
  rw [Proc.run_bind_of _ (getIssueReference_run E h u id .myList), World.locate]
  cases w.refOf u id .myList with
  | ok p => rfl
  | error e₁ =>
    simp only
    rw [Proc.run_bind_of _ (getIssueReference_run E h u id .outList)]
    cases w.refOf u id .outList with
    | ok p => rfl
    | error e₂ =>
      simp only
      rw [Proc.run_bind_of _ (getIssueReference_run E h u id .inList)]
      cases w.refOf u id .inList <;> rfl

/-! What is found, by what is known of the place. -/

theorem refOf_run (h : w.Listed) {u id : String} {l : ListID} {r : Except String (IssueRef × Nat)}
    (hr : w.refOf u id l = r) : (getIssueReference u id l).run (serve E) w = (some r, w) := by
  rw [getIssueReference_run E h, hr]

theorem locate_run (h : w.Listed) {u id : String} {found : ListID × Option IssueRef × Nat}
    (hl : w.locate u id = found) : (getIssueListAndReference u id).run (serve E) w = (some found, w) := by
  rw [getIssueListAndReference_run E h, hl]

theorem editList_run {α : Type} (h : w.Listed) (u : String) (l : ListID) (edit : List IssueRef → Edit α)
    (exhausted : String) (n : Nat) :
    (editList u l edit exhausted (n + 1)).run (serve E) w = match edit (w.list (listKey u l)) with
      | .fail e         => (some (.error e), w)
      | .panic          => (none, w)
      | .save a newList => (some (.ok a), w.put (listKey u l) (.refs newList)) :=
  editList_decodes E (h.decode_eq u l) edit exhausted n

theorem addReference_run (h : w.Listed) {u id : String} {l : ListID} (fu fi : String)
    (hnew : id ∉ ids (w.list (listKey u l))) :
    (addReference u id l fu fi).run (serve E) w = (some (.ok ()), w.append u l ⟨id, fi, fu⟩) := by
  rw [addReference, storeRetries, editList_run E h, addEdit_eq, if_neg hnew]
  rfl

theorem addReference_run_mem (h : w.Listed) {u id : String} {l : ListID} (fu fi : String)
    (hold : id ∈ ids (w.list (listKey u l))) :
    (addReference u id l fu fi).run (serve E) w = (some (.error "issue id already exists in list"), w) := by
  rw [addReference, storeRetries, editList_run E h, addEdit_eq, if_pos hold]

theorem removeReference_run (h : w.Listed) (u id : String) (l : ListID) :
    (removeReference u id l).run (serve E) w =
      (some (if id ∈ ids (w.list (listKey u l)) then .ok () else .error "cannot find issue"), w.unlist u id l) := by
  rw [removeReference, storeRetries, editList_run E h, removeEdit_eq (h.distinct u l), World.unlist]
  by_cases hm : id ∈ ids (w.list (listKey u l))
  · simp only [if_pos hm]
  · simp only [if_neg hm]

theorem popReference_run (h : w.Listed) (u : String) (l : ListID) :
    (popReference u l).run (serve E) w = match w.list (listKey u l) with
      | []         => (some (.error "cannot find issue"), w)
      | ir :: list => (some (.ok ir), w.put (listKey u l) (.refs list)) := by
  rw [popReference, storeRetries, editList_run E h]
  cases w.list (listKey u l) <;> rfl

end Store
end Todo

import TodoPlugin.Quiet
/-!
# The entries of the store

The plugin keeps five families of entries in the KV store, each under a prefix and an id.  No two entries have one key
(`Entry.key_inj`), and every operation of the store makes its KV calls at the keys of the entries it is given, so it
neither reads nor writes another.
-/
namespace Todo

open Proc (Only)

/-- **An entry of the store**, by what its key is built from.  The id of an issue comes from a request and may be any
text. -/
inductive Entry where
  | list (userID : UserID) (listID : ListID)
  | issue (issueID : String)
  | reminder (userID : UserID)
  | reminderEnabled (userID : UserID)
  | allowIncomingTaskRequests (userID : UserID)
deriving DecidableEq

namespace Entry

def key : Entry → String
  | list userID listID               => listKey userID listID
  | issue issueID                    => issueKey issueID
  | reminder userID                  => reminderKey userID
  | reminderEnabled userID           => reminderEnabledKey userID
  | allowIncomingTaskRequests userID => allowIncomingTaskRequestsKey userID

/-! ## Keys -/

/-- The first letter of the key. -/
def initial : Entry → Char
  | list _ _                    => 'o'
  | issue _                     => 'i'
  | reminder _                  => 'r'
  | reminderEnabled _           => 'r'
  | allowIncomingTaskRequests _ => 'a'

theorem head_key (e : Entry) : e.key.toList.head? = some e.initial := by
  cases e with
  | list u l => exact head_listKey u l
  | issue id => exact head_issueKey id
  | reminder u => exact head_reminderKey u
  | reminderEnabled u => exact head_reminderEnabledKey u
  | allowIncomingTaskRequests u => exact head_allowIncomingTaskRequestsKey u

theorem initial_eq {e e' : Entry} (h : e.key = e'.key) : e.initial = e'.initial := by
  by_contra hne
  exact ne_of_head (head_key e) (head_key e') hne h

end Entry

/-- `reminder_` is how `reminder_enabled_` begins: the keys differ because what follows is an id, and no id has an
underscore. -/
theorem reminderKey_ne_reminderEnabledKey (u : UserID) (v : String) : reminderKey u ≠ reminderEnabledKey v := by
  intro h
  have hlist : u.val.toList = "enabled_".toList ++ v.toList := by
    have := congrArg String.toList h
    simpa [reminderKey, reminderEnabledKey, storeReminderKey, storeReminderEnabledKey] using this
  have hmem : '_' ∈ u.val.toList := by
    rw [hlist]
    exact List.mem_append_left _ (by decide)
  exact ne_underscore u.isId.2 '_' hmem rfl

/-- **No two entries have one key.** -/
theorem Entry.key_inj {e e' : Entry} : e.key = e'.key ↔ e = e' := by
  refine ⟨fun h => ?_, fun h => h ▸ rfl⟩
  have hinit := initial_eq h
  cases e with
  | list u l =>
    cases e' with
    | list v m =>
      obtain ⟨rfl, rfl⟩ := listKey_inj.1 h
      rfl
    | _ => simp [initial] at hinit
  | issue id =>
    cases e' with
    | issue id' => rw [issueKey_inj.1 h]
    | _ => simp [initial] at hinit
  | reminder u =>
    cases e' with
    | reminder v => rw [UserID.ext_val ((String.append_right_inj _).1 h)]
    | reminderEnabled v => exact absurd h (reminderKey_ne_reminderEnabledKey u v)
    | _ => simp [initial] at hinit
  | reminderEnabled u =>
    cases e' with
    | reminder v => exact absurd h.symm (reminderKey_ne_reminderEnabledKey v u)
    | reminderEnabled v => rw [UserID.ext_val ((String.append_right_inj _).1 h)]
    | _ => simp [initial] at hinit
  | allowIncomingTaskRequests u =>
    cases e' with
    | allowIncomingTaskRequests v => rw [UserID.ext_val ((String.append_right_inj _).1 h)]
    | _ => simp [initial] at hinit

/-! ## Operations -/

/-- The key a call reads or writes. -/
def Call.key : Call → Option String
  | .kvGet key | .kvSet key _ | .kvDelete key | .kvCompareAndSet key _ _ => some key
  | _ => none

/-- **An operation of the store**, on the entries it is given. -/
inductive EntryOp : List Entry → {α : Type} → Api α → Prop
  | saveIssue (i : Issue) : EntryOp [.issue i.id] (Store.saveIssue i)
  | getIssue (id : String) : EntryOp [.issue id] (Store.getIssue id)
  | removeIssue (id : String) : EntryOp [.issue id] (Store.removeIssue id)
  | getAndRemoveIssue (id : String) : EntryOp [.issue id] (Store.getAndRemoveIssue id)
  | getRefs (u : UserID) (l : ListID) : EntryOp [.list u l] (Store.getRefs u l)
  | getIssueReference (u : UserID) (id : String) (l : ListID) : EntryOp [.list u l] (Store.getIssueReference u id l)
  | getIssueListAndReference (u : UserID) (id : String) :
      EntryOp [.list u .myList, .list u .outList, .list u .inList] (Store.getIssueListAndReference u id)
  | addReference (u : UserID) (id : String) (l : ListID) (fu fi : String) :
      EntryOp [.list u l] (Store.addReference u id l fu fi)
  | removeReference (u : UserID) (id : String) (l : ListID) : EntryOp [.list u l] (Store.removeReference u id l)
  | popReference (u : UserID) (l : ListID) : EntryOp [.list u l] (Store.popReference u l)
  | bumpReference (u : UserID) (id : String) (l : ListID) : EntryOp [.list u l] (Store.bumpReference u id l)
  | saveLastReminderTimeForUser (u : UserID) : EntryOp [.reminder u] (saveLastReminderTimeForUser u)
  | getLastReminderTimeForUser (u : UserID) : EntryOp [.reminder u] (getLastReminderTimeForUser u)
  | saveReminderPreference (u : UserID) (preference : Bool) :
      EntryOp [.reminderEnabled u] (saveReminderPreference u preference)
  | getReminderPreference (u : UserID) : EntryOp [.reminderEnabled u] (getReminderPreference u)
  | saveAllowIncomingTaskRequestsPreference (u : UserID) (preference : Bool) :
      EntryOp [.allowIncomingTaskRequests u] (saveAllowIncomingTaskRequestsPreference u preference)
  | getAllowIncomingTaskRequestsPreference (u : UserID) :
      EntryOp [.allowIncomingTaskRequests u] (getAllowIncomingTaskRequestsPreference u)

/-- The call is none of the KV store, or at the key of one of the entries. -/
def Call.Within (entries : List Entry) (c : Call) : Prop := ∀ key, c.key = some key → ∃ e ∈ entries, e.key = key

theorem Call.within_of_mem {entries : List Entry} {e : Entry} {c : Call} (he : e ∈ entries) (hc : c.key = some e.key) :
    c.Within entries :=
  fun _ hkey => ⟨e, he, Option.some.inj (hc.symm.trans hkey)⟩

section only
variable {u : UserID} {l : ListID}

theorem only_editList_entry {α : Type} (edit : List IssueRef → Store.Edit α) (exhausted : String) (n : Nat) :
    (Store.editList u l edit exhausted n).Only (Call.Within [.list u l]) True :=
  Store.only_editList (Call.within_of_mem List.mem_cons_self rfl)
    (fun _ _ => Call.within_of_mem List.mem_cons_self rfl) edit exhausted n

theorem only_getList_entry : (Store.getList u l).Only (Call.Within [.list u l]) True :=
  Store.only_getList (Call.within_of_mem List.mem_cons_self rfl)

end only

/-- **An operation makes its KV calls at the keys of its entries.** -/
theorem EntryOp.only {entries : List Entry} {α : Type} {p : Api α} (h : EntryOp entries p) :
    p.Only (Call.Within entries) True := by
  cases h with
  | saveIssue i => exact .request (Call.within_of_mem List.mem_cons_self rfl)
  | getIssue id => exact Store.only_getIssue (Call.within_of_mem List.mem_cons_self rfl)
  | removeIssue id => exact .request (Call.within_of_mem List.mem_cons_self rfl)
  | getAndRemoveIssue id =>
    apply Only.bind (Store.only_getIssue (Call.within_of_mem List.mem_cons_self rfl))
    rintro (err | i)
    · trivial
    · apply Only.bind (.request (Call.within_of_mem List.mem_cons_self rfl))
      rintro (err | _) <;> trivial
  | getRefs u l =>
    apply Only.bind only_getList_entry
    rintro (err | _) <;> trivial
  | getIssueReference u id l =>
    exact Store.only_getIssueReference (Call.within_of_mem List.mem_cons_self rfl) id
  | getIssueListAndReference u id =>
    refine Store.only_getIssueListAndReference (fun l => ?_) id
    refine Call.within_of_mem (e := .list u l) ?_ rfl
    cases l <;> simp
  | addReference u id l fu fi => exact only_editList_entry ..
  | removeReference u id l => exact only_editList_entry ..
  | popReference u l => exact only_editList_entry ..
  | bumpReference u id l => exact only_editList_entry ..
  | saveLastReminderTimeForUser u =>
    apply Only.bind (.request nofun)
    intro now
    exact .request (Call.within_of_mem List.mem_cons_self rfl)
  | getLastReminderTimeForUser u =>
    exact only_getLastReminderTimeForUser (Call.within_of_mem List.mem_cons_self rfl)
  | saveReminderPreference u b => exact .request (Call.within_of_mem List.mem_cons_self rfl)
  | getReminderPreference u => exact only_getReminderPreference (Call.within_of_mem List.mem_cons_self rfl)
  | saveAllowIncomingTaskRequestsPreference u b => exact .request (Call.within_of_mem List.mem_cons_self rfl)
  | getAllowIncomingTaskRequestsPreference u =>
    exact only_getAllowIncomingTaskRequestsPreference (Call.within_of_mem List.mem_cons_self rfl)

/-- **It makes none at the key of another entry.** -/
theorem EntryOp.only_ne {entries : List Entry} {α : Type} {p : Api α} (h : EntryOp entries p) {e : Entry}
    (he : e ∉ entries) : p.Only (fun c => c.key ≠ some e.key) True := by
  apply h.only.mono _ id
  intro c hc hkey
  obtain ⟨e', hmem, heq⟩ := hc e.key hkey
  exact he (Entry.key_inj.1 heq ▸ hmem)

/-! ## Frames -/

/-- The states differ in what is under the key alone. -/
structure World.SameBut (key : String) (w w' : World) : Prop where
  kv      : ∀ k, k ≠ key → w'.kv k = w.kv k
  drawn   : w'.drawn = w.drawn
  ticks   : w'.ticks = w.ticks
  notices : w'.notices = w.notices

theorem World.SameBut.put {key k : String} {w w' : World} (h : w.SameBut key w') (value : Value) :
    (w.put k value).SameBut key (w'.put k value) where
  kv j hj := by
    simp only [World.put]
    split
    · rfl
    · exact h.kv j hj
  drawn := h.drawn
  ticks := h.ticks
  notices := h.notices

theorem World.SameBut.delete {key k : String} {w w' : World} (h : w.SameBut key w') :
    (w.delete k).SameBut key (w'.delete k) where
  kv j hj := by
    simp only [World.delete]
    split
    · rfl
    · exact h.kv j hj
  drawn := h.drawn
  ticks := h.ticks
  notices := h.notices

theorem World.SameBut.notify {key : String} {w w' : World} (h : w.SameBut key w') (n : Notice) :
    (w.notify n).SameBut key (w'.notify n) where
  kv := h.kv
  drawn := h.drawn
  ticks := h.ticks
  notices := by rw [World.notify, World.notify, h.notices]

/-- A call at another key is answered alike. -/
theorem serve_sameBut (E : Env) {key : String} {c : Call} (hc : c.key ≠ some key) {w w' : World}
    (h : w.SameBut key w') : (serve E c w).1 = (serve E c w').1 ∧ (serve E c w).2.SameBut key (serve E c w').2 := by
  cases c with
  | kvGet k => exact ⟨congrArg Except.ok (h.kv k fun he => hc (congrArg some he)).symm, h⟩
  | kvSet k value => exact ⟨rfl, h.put value⟩
  | kvDelete k => exact ⟨rfl, h.delete⟩
  | kvCompareAndSet k old new =>
    simp only [serve, h.kv k fun he => hc (congrArg some he)]
    split
    · exact ⟨rfl, h.put new⟩
    · exact ⟨rfl, h⟩
  | newId =>
    refine ⟨?_, h.kv, ?_, h.ticks, h.notices⟩
    · simp only [serve, h.drawn]
    · simp only [serve, h.drawn]
  | getMillis =>
    refine ⟨?_, h.kv, h.drawn, ?_, h.notices⟩
    · simp only [serve, h.ticks]
    · simp only [serve, h.ticks]
  | createPost post =>
    simp only [serve]
    split
    · exact ⟨rfl, h.notify _⟩
    · exact ⟨rfl, h⟩
  | sendEphemeralPost | publishRefresh => exact ⟨rfl, h.notify _⟩
  | formatTime | getUserByUsername | getUser | getDirectChannel | getPost => exact ⟨rfl, h⟩

/-- A call at another key leaves the entry as it is. -/
theorem serve_kv_of_ne (E : Env) {key : String} {c : Call} (hc : c.key ≠ some key) (w : World) :
    (serve E c w).2.kv key = w.kv key := by
  cases c with
  | kvSet k value => exact World.put_kv_of_ne _ _ fun he => hc (congrArg some he.symm)
  | kvDelete k => exact World.delete_kv_of_ne _ fun he => hc (congrArg some he.symm)
  | kvCompareAndSet k old new =>
    simp only [serve]
    split
    · exact World.put_kv_of_ne _ _ fun he => hc (congrArg some he.symm)
    · rfl
  | createPost post =>
    simp only [serve]
    split <;> rfl
  | _ => rfl

/-- **The entries of the store are apart.**  No two have one key, and an operation on some calls at no key of another: it
does not change what is there, and its result and all else it leaves are the same whatever is there. -/
theorem entries_apart :
    (∀ e e' : Entry, e.key = e'.key ↔ e = e') ∧
    ∀ {entries : List Entry} {α : Type} {p : Api α}, EntryOp entries p → ∀ e, e ∉ entries →
      (p.Only (fun c => c.key ≠ some e.key) True) ∧
      ∀ (E : Env) (w : World), (p.run (serve E) w).2.kv e.key = w.kv e.key ∧
        ∀ w', w.SameBut e.key w' → (p.run (serve E) w).1 = (p.run (serve E) w').1 ∧
          (p.run (serve E) w).2.SameBut e.key (p.run (serve E) w').2 := by
  refine ⟨fun e e' => Entry.key_inj, fun h e he => ?_⟩
  have honly := h.only_ne he
  refine ⟨honly, fun E w => ⟨?_, fun w' hw => ?_⟩⟩
  · exact (honly.run (I := fun t => t.kv e.key = w.kv e.key)
      (fun c t hc ht => (serve_kv_of_ne E hc t).trans ht) rfl).1
  · exact honly.run_rel (fun c s t hc hst => serve_sameBut E hc hst) hw

section sample

/-- A user. -/
def Entry.sampleID : UserID := ⟨"u1", by decide⟩

/-- Removing a todo from a list is the same whether the user takes requests or not. -/
theorem entries_apart_setting :
    ((Store.removeReference Entry.sampleID "x" .myList).run (serve Env.sample) World.empty).1 =
      ((Store.removeReference Entry.sampleID "x" .myList).run (serve Env.sample)
        (World.empty.put (allowIncomingTaskRequestsKey Entry.sampleID) (.text "false"))).1 := by
  have hother : Entry.allowIncomingTaskRequests Entry.sampleID ∉ [Entry.list Entry.sampleID .myList] := by decide
  have hframe := (entries_apart.2 (.removeReference Entry.sampleID "x" .myList) _ hother).2 Env.sample World.empty
  have hbut : World.empty.SameBut (allowIncomingTaskRequestsKey Entry.sampleID)
      (World.empty.put (allowIncomingTaskRequestsKey Entry.sampleID) (.text "false")) :=
    ⟨fun k hk => World.put_kv_of_ne _ _ hk, rfl, rfl, rfl⟩
  exact (hframe.2 _ hbut).1

end sample

end Todo

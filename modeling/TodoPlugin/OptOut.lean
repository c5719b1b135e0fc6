import TodoPlugin.InputRuns
import TodoPlugin.Upkeep
/-!
# Opting out of incoming todos

A user's setting `allow_incoming_task_requests` is read by `add` and by `/todo send` before they send.  Once it is off
nothing another user does puts a reference in the user's In list, until the user turns it on, with one exception:
`change_assignment` does not read it.
-/
namespace Todo

open Store (ids without)

/-! ## The setting -/

/-- `/todo settings allow_incoming_task_requests on`, or `off`, by `v`. -/
def Input.Allows (v : UserID) (value : String) : Input → Prop
  | .http _ _         => False
  | .command u _ text => u = v ∧ (stringArgs text).2 = ["settings", "allow_incoming_task_requests", value]

theorem allowIncomingTaskRequestsKey_inj {u v : UserID}
    (h : allowIncomingTaskRequestsKey u = allowIncomingTaskRequestsKey v) : u = v :=
  UserID.ext_val ((String.append_right_inj _).1 h)

theorem allowIncomingTaskRequestsKey_ne_reminderKey (u v : String) :
    allowIncomingTaskRequestsKey v ≠ reminderKey u :=
  ne_of_head (head_allowIncomingTaskRequestsKey v) (head_reminderKey u) (by decide)

theorem allowIncomingTaskRequestsKey_ne_reminderEnabledKey (u v : String) :
    allowIncomingTaskRequestsKey v ≠ reminderEnabledKey u :=
  ne_of_head (head_allowIncomingTaskRequestsKey v) (head_reminderEnabledKey u) (by decide)

theorem Input.Allows.setting {v : UserID} {e : Input} (h : e.Allows v "off") :
    e.setting = some (allowIncomingTaskRequestsKey v, false) := by
  cases e with
  | http => exact h.elim
  | command u ch text =>
    obtain ⟨rfl, hw⟩ := h
    rw [Input.setting, hw]
    rfl

theorem Input.Allows.op {E : Env} {w : World} {v : UserID} {value : String} {e : Input} (h : e.Allows v value) :
    e.op E w = none := by
  cases e with
  | http => exact h.elim
  | command u ch text => rw [Input.op, h.2]; rfl

/-- Only that command saves the setting. -/
theorem Input.allows_of_setting {v : UserID} {e : Input} {b : Bool}
    (h : e.setting = some (allowIncomingTaskRequestsKey v, b)) : e.Allows v (if b then "on" else "off") := by
  cases e with
  | http => cases h
  | command u ch text =>
    simp only [Input.setting, commandSetting] at h
    split at h
    · rename_i name value hw
      obtain ⟨k, hk, hv⟩ := Option.bind_eq_some_iff.1 h
      obtain ⟨c, hc, he⟩ := Option.map_eq_some_iff.1 hv
      cases he
      have hvalue : value = if b then "on" else "off" := by
        unfold onOff at hc
        split at hc <;> cases hc <;> rfl
      subst hvalue
      unfold settingKey at hk
      split at hk
      · exact absurd (Option.some.inj hk).symm (allowIncomingTaskRequestsKey_ne_reminderEnabledKey u v)
      · exact ⟨allowIncomingTaskRequestsKey_inj (Option.some.inj hk), hw⟩
      · cases hk
    · cases h

/-- **The user has opted out.** -/
structure World.OptedOut (v : UserID) (w : World) : Prop where
  sound : w.Sound
  off   : w.kv (allowIncomingTaskRequestsKey v) = some (.text (formatBool false))

theorem World.OptedOut.allows {v : UserID} {w : World} (h : w.OptedOut v) : w.allows v = false := by
  unfold World.allows
  rw [h.off]
  simp [storedBool]

/-! ## Operations leave settings alone -/

/-- A sound store with `value` under a setting's key. -/
theorem World.setting_upheld {key : String} (hk : SettingKey key) (value : Option Value) :
    Upheld (fun w => w.Sound ∧ w.kv key = value) (fun _ => True) (fun _ _ => True) where
  sound h := h.1
  unlist h _ u l := ⟨h.1.unlist u _ l, (kv_unlist_of_ne _ (hk.ne_listKey u l).symm).trans h.2⟩
  append h _ _ hnew := ⟨h.1.append hnew, (put_kv_of_ne _ _ (hk.ne_listKey _ _).symm).trans h.2⟩
  delete h _ := ⟨h.1.delete_issue _, (delete_kv_of_ne _ (hk.ne_issueKey _).symm).trans h.2⟩
  save h _ hne := ⟨h.1.save hne, (put_kv_of_ne _ _ (hk.ne_issueKey _).symm).trans h.2⟩
  draw h := ⟨h.1.draw, h.2⟩

theorem ListOp.setting_kept (E : Env) {w : World} (h : w.Sound) (op : ListOp) {key : String} (hk : SettingKey key) :
    (op.after E w).Sound ∧ (op.after E w).kv key = w.kv key := by
  have hperm : ∀ {t : World}, (t.Sound ∧ t.kv key = w.kv key) → ∀ v list, list.Perm (t.list (listKey v .inList)) →
      (t.put (listKey v .inList) (.refs list)).Sound ∧ (t.put (listKey v .inList) (.refs list)).kv key = w.kv key := by
    intro t ht v list hp
    refine ⟨ht.1.put_list _ _ ((hp.map _).nodup_iff.2 (ht.1.distinct _ _)), ?_⟩
    exact (World.put_kv_of_ne _ _ (hk.ne_listKey _ _).symm).trans ht.2
  obtain ⟨a, w', hrun, hw'⟩ := ListOp.leaves (E := E) (World.setting_upheld hk (w.kv key)) ⟨h, rfl⟩ op
    (fun _ _ => trivial) hperm
  rw [ListOp.after, hrun]
  exact hw'

/-- **An opted-out user stays so**, unless the input turns the setting on. -/
theorem Input.optedOut {E : Env} {v : UserID} {w : World} (h : w.OptedOut v) {e : Input} (he : ¬ e.Allows v "on") :
    (e.after E w).OptedOut v := by
  obtain ⟨w₁, hstep, hsame⟩ := e.exec_step E w
  have hw₁ : w₁.OptedOut v := by
    cases hstep with
    | op o ho =>
      obtain ⟨hs, hk⟩ := o.setting_kept E h.sound (.allowIncomingTaskRequests v)
      exact ⟨hs, hk.trans h.off⟩
    | setting key b hs =>
      refine ⟨h.sound.put_setting (Input.setting_key hs) _, ?_⟩
      by_cases hkey : key = allowIncomingTaskRequestsKey v
      · subst hkey
        cases b with
        | true => exact absurd (Input.allows_of_setting hs) he
        | false => exact World.put_kv_self ..
      · exact (World.put_kv_of_ne _ _ fun hc => hkey hc.symm).trans h.off
    | reminded u =>
      refine ⟨h.sound.put_setting (.reminder u) _, ?_⟩
      exact (World.put_kv_of_ne _ _ (allowIncomingTaskRequestsKey_ne_reminderKey u v)).trans h.off
    | idle => exact h
  exact ⟨hw₁.sound.sameStore hsame, by rw [hsame.kv]; exact hw₁.off⟩

/-- Every input keeps a store sound. -/
theorem Input.sound {E : Env} {w : World} (h : w.Sound) (e : Input) : (e.after E w).Sound := by
  obtain ⟨w₁, hstep, hsame⟩ := e.exec_step E w
  refine World.Sound.sameStore ?_ hsame
  cases hstep with
  | op o ho => exact (o.setting_kept E h (.reminder "")).1
  | setting key b hs => exact h.put_setting (Input.setting_key hs) _
  | reminded u => exact h.put_setting (.reminder u) _
  | idle => exact h

/-- **Turning the setting off** opts the user out. -/
theorem Input.Allows.optsOut {E : Env} {v : UserID} {w : World} (h : w.Sound) {e : Input} (he : e.Allows v "off") :
    (e.after E w).OptedOut v := by
  have hset := he.setting
  obtain ⟨w₁, hstep, hsame⟩ := e.exec_step E w
  have hw₁ : w₁.OptedOut v := by
    cases hstep with
    | op o ho =>
      rw [he.op] at ho
      cases ho
    | setting key b hs =>
      rw [hset] at hs
      cases hs
      exact ⟨h.put_setting (.allowIncomingTaskRequests v) _, World.put_kv_self ..⟩
    | reminded u reminder offset text hu =>
      rw [hu] at he
      exact he.elim
    | idle ho hs =>
      rw [hset] at hs
      cases hs
  exact ⟨hw₁.sound.sameStore hsame, by rw [hsame.kv]; exact hw₁.off⟩

/-! ## The In list -/

/-- A sound store whose list under a key has nothing new. -/
theorem World.within_upheld (v : UserID) (list : List IssueRef) :
    Upheld (fun w => w.Sound ∧ w.list (listKey v .inList) ⊆ list) (fun _ => True)
      (fun u l => listKey v .inList ≠ listKey u l) where
  sound h := h.1
  unlist h _ u l := by
    refine ⟨h.1.unlist u _ l, ?_⟩
    rw [list_unlist]
    split
    · rename_i hk
      exact fun r hr => h.2 (hk ▸ (List.mem_filter.1 hr).1)
    · exact h.2
  append h _ hkey hnew := by
    refine ⟨h.1.append hnew, ?_⟩
    rw [list_append, if_neg hkey]
    exact h.2
  delete h _ := by
    refine ⟨h.1.delete_issue _, ?_⟩
    rw [World.list, delete_kv_of_ne _ (listKey_ne_issueKey v .inList _)]
    exact h.2
  save h _ hne := by
    refine ⟨h.1.save hne, ?_⟩
    rw [h.1.list_save]
    exact h.2
  draw h := ⟨h.1.draw, h.2⟩

/-- The checks of `ChangeAssignment` that `u` may assign the todo `id` to another user: it has a record and is in the Out
list, with its counterpart found, or in the owned list, with no other side. -/
def World.Assignable (w : World) (u id : String) : Prop :=
  (w.issue id).isSome ∧ ∃ l r n, w.locate u id = (l, some r, n) ∧
    ¬ (l = .inList ∨ r.foreignIssueID ≠ "" ∧ l = .myList) ∧
    (r.foreignUserID ≠ "" → (w.locate r.foreignUserID r.foreignIssueID).2.1 ≠ none)

/-- A reassignment that does not pass them changes nothing. -/
theorem ListOp.changeAssignment_refused (E : Env) {w : World} (h : w.Sound) {u v : UserID} {id : String}
    (hno : ¬ w.Assignable u id) : (ListOp.changeAssignment id u v).after E w = w := by
  have hafter : ∀ {r}, (ListManager.changeAssignment id u v).run (serve E) w = (some r, w) →
      (ListOp.changeAssignment id u v).after E w = w := fun hrun => by
    rw [ListOp.after, ListOp.exec, ListOp.run_tagged _ hrun]
  cases hi : w.issue id with
  | none => exact hafter (ListManager.changeAssignment_noIssue E h v hi)
  | some i =>
    rcases w.locate_cases u id with ⟨l, r, n, hl, -, -⟩ | ⟨hl, -⟩
    · by_cases href : l = .inList ∨ r.foreignIssueID ≠ "" ∧ l = .myList
      · obtain ⟨err, hrun⟩ := ListManager.changeAssignment_foreign E h v hi hl href
        exact hafter hrun
      · have hlost : r.foreignUserID ≠ "" ∧ (w.locate r.foreignUserID r.foreignIssueID).2.1 = none := by
          refine Classical.byContradiction fun hc => hno ⟨by rw [hi]; rfl, l, r, n, hl, href, fun hu hn => ?_⟩
          exact hc ⟨hu, hn⟩
        rcases hfl : w.locate r.foreignUserID r.foreignIssueID with ⟨fl, fr, fn⟩
        rw [hfl] at hlost
        obtain ⟨hu, rfl⟩ := hlost
        exact hafter (ListManager.changeAssignment_lost E h v hi hl href hu hfl)
    · obtain ⟨err, hrun⟩ := ListManager.changeAssignment_absent E h v hl
      exact hafter hrun

/-- **What puts nothing in a user's In list**: every operation but sending to them and assigning to them. -/
theorem ListOp.inList_sub (E : Env) {w : World} (h : w.Sound) {v : UserID} {op : ListOp}
    (hsend : ∀ u m p d q, op ≠ .sendIssue u v m p d q)
    (hchange : ∀ u id, op = .changeAssignment id u v → ¬ w.Assignable u id) :
    (op.after E w).list (listKey v .inList) ⊆ w.list (listKey v .inList) := by
  by_cases hto : ∃ u id, op = .changeAssignment id u v
  · obtain ⟨u, id, rfl⟩ := hto
    rw [ListOp.changeAssignment_refused E h (hchange u id rfl)]
    exact List.Subset.refl _
  have hinto : ∀ p ∈ op.appends, listKey v .inList ≠ listKey p.1 p.2 := by
    rintro ⟨u, l⟩ hp he
    obtain ⟨rfl, rfl⟩ := listKey_inj.1 he
    cases op with
    | sendIssue u t m p d q =>
      simp [appends] at hp
      exact hsend u m p d q (by rw [hp])
    | changeAssignment id u t =>
      simp [appends] at hp
      exact hto ⟨u, id, by rw [hp]⟩
    | addIssue | acceptIssue | completeIssue | editIssue | removeIssue | popIssue | bumpIssue => simp [appends] at hp
  have hperm : ∀ {t : World}, (t.Sound ∧ t.list (listKey v .inList) ⊆ w.list (listKey v .inList)) →
      ∀ u list, list.Perm (t.list (listKey u .inList)) → (t.put (listKey u .inList) (.refs list)).Sound ∧
        (t.put (listKey u .inList) (.refs list)).list (listKey v .inList) ⊆ w.list (listKey v .inList) := by
    intro t ht u list hp
    refine ⟨ht.1.put_list _ _ ((hp.map _).nodup_iff.2 (ht.1.distinct _ _)), ?_⟩
    rw [← World.board_list, World.board_put_list, Board.setList_list]
    split
    · rename_i hk
      exact fun r hr => ht.2 (hk ▸ hp.subset hr)
    · exact ht.2
  obtain ⟨a, w', hrun, hw'⟩ := ListOp.leaves (E := E) (World.within_upheld v (w.list (listKey v .inList)))
    ⟨h, List.Subset.refl _⟩ op hinto hperm
  rw [ListOp.after, hrun]
  exact hw'.2

/-! ## Every run -/

/-- The user an operation is made for. -/
def ListOp.user : ListOp → UserID
  | .addIssue u _ _ _ _      => u
  | .sendIssue u _ _ _ _ _   => u
  | .completeIssue u _       => u
  | .editIssue u _ _ _       => u
  | .changeAssignment _ u _  => u
  | .acceptIssue u _         => u
  | .removeIssue u _         => u
  | .popIssue u              => u
  | .bumpIssue u _           => u

theorem addOp_user {u : UserID} {words : List String} {o : ListOp} (h : addOp u words = some o) : o.user = u := by
  unfold addOp at h
  split at h <;> cases h
  rfl

theorem Request.op_user {E : Env} {w : World} {u : UserID} {request : Request} {o : ListOp}
    (h : request.op E w u = some o) : o.user = u := by
  cases request with
  | add body =>
    obtain ⟨r, -, h⟩ := Option.bind_eq_some_iff.1 h
    split at h
    · cases h; rfl
    obtain ⟨receiver, -, h⟩ := Option.bind_eq_some_iff.1 h
    split at h
    · cases h; rfl
    split at h <;> cases h
    rfl
  | changeAssignment body =>
    obtain ⟨r, -, h⟩ := Option.bind_eq_some_iff.1 h
    obtain ⟨receiver, -, h⟩ := Option.bind_eq_some_iff.1 h
    cases h; rfl
  | lists => cases h
  | remove body | complete body | accept body | bump body | edit body =>
    obtain ⟨r, -, h⟩ := Option.bind_eq_some_iff.1 h
    cases h; rfl

theorem commandOp_user {E : Env} {w : World} {u : UserID} {words : List String} {o : ListOp}
    (h : commandOp E w u words = some o) : o.user = u := by
  unfold commandOp at h
  split at h
  · exact addOp_user h
  · cases h; rfl
  · obtain ⟨name, -, h⟩ := Option.bind_eq_some_iff.1 h
    obtain ⟨receiver, -, h⟩ := Option.bind_eq_some_iff.1 h
    split at h
    · exact addOp_user h
    split at h <;> cases h
    rfl
  · cases h

/-- An input makes operations for its issuer. -/
theorem Input.op_user {E : Env} {w : World} {e : Input} {o : ListOp} (h : e.op E w = some o) :
    e.issuer = some o.user := by
  cases e with
  | http userID request =>
    obtain ⟨u, hu, ho⟩ := Option.bind_eq_some_iff.1 h
    rw [Input.issuer, hu, Request.op_user ho]
  | command u ch text => rw [Input.issuer, commandOp_user h]

/-- Nothing is sent to a user who has opted out. -/
theorem Input.op_ne_send {E : Env} {w : World} {v : UserID} (hv : w.allows v = false) {e : Input} {o : ListOp}
    (h : e.op E w = some o) : ∀ u m p d q, o ≠ .sendIssue u v m p d q := by
  rintro u m p d q rfl
  cases e with
  | http userID request =>
    obtain ⟨u', -, h⟩ := Option.bind_eq_some_iff.1 h
    cases request with
    | add body =>
      obtain ⟨r, -, h⟩ := Option.bind_eq_some_iff.1 h
      split at h
      · cases h
      obtain ⟨receiver, -, h⟩ := Option.bind_eq_some_iff.1 h
      split at h
      · cases h
      split at h
      · rename_i hallows
        cases h
        cases hallows.symm.trans hv
      · cases h
    | changeAssignment body =>
      obtain ⟨r, -, h⟩ := Option.bind_eq_some_iff.1 h
      obtain ⟨receiver, -, h⟩ := Option.bind_eq_some_iff.1 h
      cases h
    | lists => cases h
    | remove body | complete body | accept body | bump body | edit body =>
      obtain ⟨r, -, h⟩ := Option.bind_eq_some_iff.1 h
      cases h
  | command u' ch text =>
    have hadd : ∀ words, addOp u' words ≠ some (.sendIssue u v m p d q) := by
      intro words he
      unfold addOp at he
      split at he <;> cases he
    simp only [Input.op] at h
    unfold commandOp at h
    split at h
    · exact hadd _ h
    · cases h
    · obtain ⟨name, -, h⟩ := Option.bind_eq_some_iff.1 h
      obtain ⟨receiver, -, h⟩ := Option.bind_eq_some_iff.1 h
      split at h
      · exact hadd _ h
      split at h
      · rename_i hallows
        cases h
        cases hallows.symm.trans hv
      · cases h
    · cases h

/-- The input assigns to `v` a todo another user may assign. -/
def Input.Foists (E : Env) (w : World) (v : UserID) (e : Input) : Prop :=
  ∃ u id, u ≠ v ∧ e.op E w = some (.changeAssignment id u v) ∧ w.Assignable u id

/-- **An input of another user** puts nothing in the In list of one who has opted out, unless it assigns to them. -/
theorem World.OptedOut.inList_sub {E : Env} {w : World} {u v : UserID} (h : w.OptedOut v) {e : Input}
    (he : e.issuer = some u) (huv : u ≠ v) (hok : ¬ e.Foists E w v) :
    (e.after E w).board.refs v .inList ⊆ w.board.refs v .inList := by
  obtain ⟨w₁, hstep, hsame⟩ := e.exec_step E w
  rw [World.board_eq_of_kv hsame.kv]
  cases hstep with
  | op o ho =>
    refine o.inList_sub E h.sound (Input.op_ne_send h.allows ho) ?_
    rintro u' id rfl hassign
    obtain rfl : u = u' := Option.some.inj (he.symm.trans (Input.op_user ho))
    exact hok ⟨u, id, huv, ho, hassign⟩
  | setting key b hs =>
    show (w.put key _).list (listKey v .inList) ⊆ _
    rw [World.list_put_setting (Input.setting_key hs)]
    exact List.Subset.refl _
  | reminded u =>
    show (w.put (reminderKey u) _).list (listKey v .inList) ⊆ _
    rw [World.list_put_setting (.reminder u)]
    exact List.Subset.refl _
  | idle => exact List.Subset.refl _

/-- **Opting out.**  In every run of inputs from an empty store: from a user's turning the setting off until they turn it
on, an input of another user makes no reference appear in the user's In list, unless it assigns to the user a todo the
other one may assign. -/
theorem optOut_honoured {E : Env} {u v : UserID} {tr₀ tr : List (Input × Option Reply)} {w₀ w : World} {off e : Input}
    (h₀ : InputRuns E (fun _ _ => True) World.empty tr₀ w₀) (hoff : off.Allows v "off")
    (h : InputRuns E (fun _ e => ¬ e.Allows v "on") (off.after E w₀) tr w) (he : e.issuer = some u) (huv : u ≠ v)
    (hok : ¬ e.Foists E w v) : ∀ r ∈ (e.after E w).board.refs v .inList, r ∈ w.board.refs v .inList := by
  have hs₀ : w₀.Sound := h₀.keep (I := World.Sound) (fun _ e hs _ => Input.sound hs e) World.sound_empty
  have hout : w.OptedOut v := h.keep (I := World.OptedOut v) (fun _ _ hv hon => Input.optedOut hv hon) (hoff.optsOut hs₀)
  exact fun r hr => hout.inList_sub he huv hok hr

/-- The exception is one: in a settled store an input that assigns to `v` does put a reference in the In list. -/
theorem Input.Foists.adds {E : Env} {w : World} {v : UserID} {e : Input} (h : w.Settled E) (hf : e.Foists E w v) :
    ∃ r ∈ (e.after E w).board.refs v .inList, r ∉ w.board.refs v .inList := by
  obtain ⟨u, id, huv, ho, ⟨hi, l, r, n, hl, href, -⟩⟩ := hf
  rw [World.board_eq_of_kv (Input.sameStore_of_op ho).kv]
  obtain ⟨i, hi⟩ := Option.isSome_iff_exists.1 hi
  have hloc : r ∈ w.board.refs u l ∧ r.issueID = id := by
    rcases w.locate_cases u id with ⟨l', r', n', hl', hr, he⟩ | ⟨hl', -⟩
    · cases hl.symm.trans hl'
      exact ⟨hr, he⟩
    · cases hl.symm.trans hl'
  obtain ⟨hr, rfl⟩ := hloc
  obtain ⟨c, w', hrun, hmem⟩ : ∃ c w', (ListManager.changeAssignment r.issueID u v).run (serve E) w = (some c, w') ∧
      ⟨E.newId w.drawn, r.issueID, u⟩ ∈ w'.board.refs v .inList := by
    by_cases hown : r.foreignUserID = ""
    · obtain ⟨rfl, -⟩ := h.paired.own hr hown
      obtain ⟨w', hrun, -, hm⟩ := ListManager.changeAssignment_own_moves E h.sound h.paired h.fresh huv hr hown hi hl
      exact ⟨_, w', hrun, hm⟩
    · obtain ⟨t, m, ht, hlm, hm⟩ := h.paired.other hr hown
      have hforeign : r.foreignIssueID ≠ "" := by
        obtain ⟨j, hj⟩ := h.paired.recorded t m _ hm
        exact h.sound.id_ne_empty hj
      have hlo : l = .outList := by
        cases l with
        | myList => exact absurd (.inr ⟨hforeign, rfl⟩) href
        | inList => exact absurd (.inl rfl) href
        | outList => rfl
      subst hlo
      obtain ⟨x, y, f⟩ := r
      obtain rfl : f = t.val := ht
      obtain ⟨w', hrun, -, hm⟩ := ListManager.changeAssignment_pair_moves E h.sound h.paired h.fresh (t := v)
        (hlm.1 rfl) hr hm hi hl
      exact ⟨_, w', hrun, hm huv⟩
  refine ⟨⟨E.newId w.drawn, r.issueID, u⟩, ?_, fun hc => ?_⟩
  · rw [ListOp.after, ListOp.exec, ListOp.run_tagged _ hrun]
    exact hmem
  · have hnew := h.paired.recorded.absent (h.fresh _ (Nat.le_refl _)) v .inList
    exact hnew (List.mem_map.2 ⟨_, hc, rfl⟩)

section sample

/-- Bob opts out. -/
def optOut : Input := .command bob "town" "/todo settings allow_incoming_task_requests off"

theorem optOut_sendRefused :
    ((Input.command ann "town" "/todo send @bob milk").after Env.sample
      (optOut.after Env.sample World.empty)).board.refs bob .inList = [] := by
  have hno : ¬ (Input.command ann "town" "/todo send @bob milk").Foists Env.sample
      (optOut.after Env.sample World.empty) bob := by
    rintro ⟨u, id, -, ho, -⟩
    have hop : (Input.command ann "town" "/todo send @bob milk").op Env.sample (optOut.after Env.sample World.empty)
        = none := by rfl
    cases hop.symm.trans ho
  have hempty : (optOut.after Env.sample World.empty).board.refs bob .inList = [] := by rfl
  apply List.eq_nil_iff_forall_not_mem.2
  intro r hr
  have hin := optOut_honoured (u := ann) (.done _) (show optOut.Allows bob "off" from ⟨rfl, by decide⟩) (.done _) rfl
    (by decide) hno r hr
  rw [hempty] at hin
  cases hin

/-- Ann keeps a todo, and assigns it. -/
def keepMilk : Input := .http (some ann) (.add (.ok (some ⟨"milk", "", "", "", ""⟩)))
def assignMilk : Input := .http (some ann) (.changeAssignment (.ok (some ⟨"x", "bob"⟩)))

/-- **A todo is assigned to Bob** though he has opted out. -/
theorem optOut_foisted : ∃ tr w, InputRuns Env.sample (fun _ e => ¬ e.Allows bob "on")
    (optOut.after Env.sample World.empty) tr w ∧ assignMilk.issuer = some ann ∧
      ∃ r ∈ (assignMilk.after Env.sample w).board.refs bob .inList, r ∉ w.board.refs bob .inList :=
  ⟨_, _, .step keepMilk (fun h => h) (.done _), rfl, ⟨"xx", "x", "ann"⟩, by decide, by decide⟩

end sample
end Todo

import TodoPlugin.ListCommits
import TodoPlugin.Listing
/-!
# When a list is given up

A change of a list that loses its compare-and-set tries again, three times at most, and then gives up.  It loses only
where something else has changed that list since it read it, so a change that gives up has been beaten three times
(`refOp_beaten`): whatever else takes turns with it, somebody gets on.
-/
namespace Todo

open Pool (Exec own)
open Proc (Along Leads)

/-- The call has changed what is under the key. -/
def lands (key : String) : (c : Call) → Resp c → Bool
  | .kvSet k _, _                         => k = key
  | .kvDelete k, _                        => k = key
  | .kvCompareAndSet k _ _, .ok done      => done && k = key
  | _, _                                  => false

/-- What does not land leaves the key as it was. -/
theorem serve_kv_of_not_lands (E : Env) {key : String} {c : Call} {w : World}
    (h : lands key c (serve E c w).1 = false) : (serve E c w).2.kv key = w.kv key := by
  cases c with
  | kvSet k value => exact World.put_kv_of_ne _ _ fun hk => by simp [lands, hk] at h
  | kvDelete k => exact World.delete_kv_of_ne _ fun hk => by simp [lands, hk] at h
  | kvCompareAndSet k old new =>
    by_cases ho : w.kv k = old
    · simp only [serve, if_pos ho] at h ⊢
      exact World.put_kv_of_ne _ _ fun hk => by simp [lands, hk] at h
    · simp only [serve, if_neg ho]
  | createPost post =>
    simp only [serve]
    split <;> rfl
  | kvGet | newId | getMillis | formatTime | getUserByUsername | getUser | getDirectChannel | getPost | sendEphemeralPost
  | publishRefresh => rfl

/-! ## Losing -/

/-- So many reads of the key were each followed by a compare-and-set of what was read, which lost. -/
inductive Lost (key : String) : Nat → History → Prop
  | none (l : History) : Lost key 0 l
  | more {n : Nat} {l : History} (pre : History) (old : Option Value) (new : Value) (h : Lost key n l) :
      Lost key (n + 1) (pre ++ ⟨.kvGet key, .ok old⟩ :: ⟨.kvCompareAndSet key old new, .ok false⟩ :: l)

section others
variable {ι α : Type} [DecidableEq ι] {E : Env} {P P' : Pool ι Call Resp α World} {tr : List (Event ι Call Resp)}

/-- The event is another's than `i`'s, and has changed what is under the key. -/
def beats (key : String) (i : ι) (e : Event ι Call Resp) : Bool := e.who ≠ i && lands key e.call e.resp

/-- A key that is not as it was has been changed. -/
theorem kv_eq_of_not_lands (h : Exec (serve E) P tr P') {key : String}
    (hno : ∀ e ∈ tr, lands key e.call e.resp = false) : P'.state.kv key = P.state.kv key := by
  induction h with
  | done P => rfl
  | turn hstep _ ih =>
    obtain ⟨hresp, hstate⟩ := hstep.served
    have hfirst := hno _ List.mem_cons_self
    rw [hresp] at hfirst
    rw [ih fun e he => hno e (List.mem_cons_of_mem _ he), hstate, serve_kv_of_not_lands E hfirst]

/-- **Each loss is another's gain.** -/
theorem Lost.beaten {key : String} {i : ι} {n : Nat} {l : History} (hl : Lost key n l) :
    ∀ {P : Pool ι Call Resp α World} {tr : List (Event ι Call Resp)}, own i tr = l → Exec (serve E) P tr P' →
      n ≤ tr.countP (beats key i) := by
  induction hl with
  | none l => exact fun _ _ => Nat.zero_le _
  | more pre old new _ ih =>
    intro P tr hown h
    -- the read, the others' turns since, and the compare-and-set
    obtain ⟨t₁, t', rfl, -, hown'⟩ := Pool.own_split hown
    have hnext : own i t' = [] ++ _ := hown'
    obtain ⟨mid, t₂, rfl, hmid, hown₂⟩ := Pool.own_split hnext
    obtain ⟨P₁, -, h₁⟩ := h.split
    cases h₁ with
    | @turn _ P₂ _ _ _ hget h₂ =>
      obtain ⟨P₃, hothers, h₃⟩ := h₂.split
      cases h₃ with
      | @turn _ P₄ _ _ _ hset h₄ =>
        obtain ⟨hread, hkept⟩ := hget.served
        obtain ⟨hlost, -⟩ := hset.served
        have hchanged : ∃ e ∈ mid, lands key e.call e.resp = true := by
          by_contra hno
          have hsame := kv_eq_of_not_lands hothers fun e he => by simpa using fun h => hno ⟨e, he, h⟩
          rw [hkept] at hsame
          cases hread
          simp only [serve, hsame, if_true] at hlost
          cases hlost
        have hbeats : 0 < mid.countP (beats key i) := by
          obtain ⟨e, he, hland⟩ := hchanged
          refine List.countP_pos_iff.2 ⟨e, he, ?_⟩
          have hwho : e.who ≠ i := by
            rintro rfl
            have hm : (⟨e.call, e.resp⟩ : (c : Call) × Resp c) ∈ own e.who mid := Pool.mem_own.2 he
            rw [hmid] at hm
            cases hm
          simp [beats, hwho, hland]
        have hrest := ih hown₂ h₄
        rw [List.countP_append, List.countP_cons, List.countP_append, List.countP_cons]
        omega

end others

/-! ## Giving up -/

/-- The store has answered with an error. -/
def Fails : (c : Call) × Resp c → Prop
  | ⟨.kvGet _, .error _⟩                 => True
  | ⟨.kvCompareAndSet _ _ _, .error _⟩ => True
  | _                                    => False

section history
variable {α : Type}

/-- A list is not read where it does not decode, or the store has answered with an error. -/
theorem along_legacyIssueRef_error (u : String) (listID : ListID) (l : History) :
    (Store.legacyIssueRef u listID).Along (fun _ _ => True) (fun res l' => ∃ suf, l' = l ++ suf ∧
      ∀ err, res = .error err → err = jsonError ∨ ∃ x ∈ suf, Fails x) l := by
  refine ⟨trivial, fun r => ?_⟩
  rcases r with err | _ | value
  · exact ⟨_, rfl, fun _ _ => .inr ⟨⟨.kvGet (listKey u listID), .error err⟩, List.mem_cons_self, trivial⟩⟩
  · exact ⟨_, rfl, by rintro err ⟨⟩⟩
  · cases value with
    | legacy id rest => exact ⟨_, rfl, by rintro err ⟨⟩⟩
    | refs list =>
      cases list with
      | nil => exact ⟨_, rfl, by rintro err ⟨⟩⟩
      | cons r rest => exact ⟨_, rfl, by rintro err ⟨⟩; exact .inl rfl⟩
    | issue | text => exact ⟨_, rfl, by rintro err ⟨⟩; exact .inl rfl⟩

theorem along_getList_error (u : String) (listID : ListID) (l : History) :
    (Store.getList u listID).Along (fun _ _ => True) (fun res l' => ∃ suf, l' = l ++ suf ∧
      ∀ err, res = .error err → err = jsonError ∨ ∃ x ∈ suf, Fails x) l := by
  refine ⟨trivial, fun r => ?_⟩
  rcases r with err | _ | value
  · exact ⟨_, rfl, fun _ _ => .inr ⟨⟨.kvGet (listKey u listID), .error err⟩, List.mem_cons_self, trivial⟩⟩
  · exact ⟨_, rfl, by rintro err ⟨⟩⟩
  · cases value with
    | refs list => exact ⟨_, rfl, by rintro err ⟨⟩⟩
    | legacy | issue | text =>
      refine (along_legacyIssueRef_error u listID _).mono ?_
      rintro res l' ⟨suf, rfl, herr⟩
      refine ⟨_, List.append_assoc .., fun err he => (herr err he).imp_right ?_⟩
      exact fun ⟨x, hx, hfail⟩ => ⟨x, List.mem_cons_of_mem _ hx, hfail⟩

/-- **Giving up takes as many losses as there are tries**, where the store answers without errors. -/
theorem along_editList (u : String) (listID : ListID) {edit : List IssueRef → Store.Edit α} {exhausted : String}
    (hedit : ∀ list, edit list ≠ .fail exhausted) (hjson : exhausted ≠ jsonError) : ∀ (n : Nat) (l : History),
    (Store.editList u listID edit exhausted n).Along (fun _ _ => True) (fun res l' => ∃ suf, l' = l ++ suf ∧
      (res = .error exhausted → Lost (listKey u listID) n suf ∨ ∃ x ∈ suf, Fails x)) l
  | 0, l     => ⟨[], (List.append_nil l).symm, fun _ => .inl (.none [])⟩
  | n + 1, l => by
    refine ((along_getList (fun _ _ => trivial) u listID l).and (along_getList_error u listID l)).bind ?_
    rintro (err | ⟨list, old⟩) l₁ ⟨hread, suf, rfl, herr⟩
    · refine ⟨suf, rfl, ?_⟩
      rintro ⟨⟩
      exact .inr ((herr _ rfl).resolve_left hjson)
    obtain ⟨pre, hpre, -⟩ := hread list old rfl
    obtain rfl : suf = pre ++ [⟨.kvGet (listKey u listID), .ok old⟩] := by simpa using hpre
    simp only
    cases he : edit list with
    | fail err =>
      refine ⟨_, rfl, ?_⟩
      rintro ⟨⟩
      exact absurd he (hedit list)
    | panic => trivial
    | save a newList =>
      refine ⟨trivial, fun r => ?_⟩
      rcases r with err | ⟨⟨⟩⟩
      · exact ⟨_, List.append_assoc .., fun _ =>
          .inr ⟨⟨.kvCompareAndSet (listKey u listID) old (.refs newList), .error err⟩, by simp, trivial⟩⟩
      · refine (along_editList u listID hedit hjson n _).mono ?_
        rintro res l' ⟨suf, rfl, hrest⟩
        refine ⟨pre ++ ⟨.kvGet (listKey u listID), .ok old⟩ ::
          ⟨.kvCompareAndSet (listKey u listID) old (.refs newList), .ok false⟩ :: suf, by simp, fun hres => ?_⟩
        refine (hrest hres).imp (fun hlost => .more pre old _ hlost) fun ⟨x, hx, hfail⟩ => ⟨x, by simp [hx], hfail⟩
      · exact ⟨_, List.append_assoc .., by rintro ⟨⟩⟩

end history

/-- An operation on a list gives up with an error of its own. -/
theorem RefOp.edit_ne_exhausted (op : RefOp) (list : List IssueRef) : op.edit list ≠ .fail op.exhausted := by
  cases op with
  | addReference u id l fu fi =>
    rw [edit, Store.addEdit_eq]
    split <;> simp [mapEdit, exhausted]
  | removeReference u id l =>
    simp only [edit, Store.removeEdit]
    rcases Store.spliceLoop id list.length 0 list list.length false with _ | ⟨newList, _ | _⟩ <;>
      simp [mapEdit, exhausted]
  | popReference u l => cases list <;> simp [edit, Store.popEdit, mapEdit, exhausted]
  | bumpReference u id l =>
    rcases Store.bumpEdit_perm id list with ⟨-, hb⟩ | ⟨newList, hb, -⟩ <;> simp [edit, hb, mapEdit, exhausted]

/-- Every event of a run is answered as the server answers its call. -/
theorem not_fails_of_exec {ι α : Type} [DecidableEq ι] {E : Env} {P P' : Pool ι Call Resp α World}
    {tr : List (Event ι Call Resp)} (h : Exec (serve E) P tr P') : ∀ e ∈ tr, ¬ Fails ⟨e.call, e.resp⟩ := by
  induction h with
  | done P => simp
  | @turn P P₁ P₂ e tr hstep _ ih =>
    refine List.forall_mem_cons.2 ⟨?_, ih⟩
    obtain ⟨i, c, r⟩ := e
    obtain ⟨hresp, -⟩ := hstep.served
    simp only at hresp
    subst hresp
    cases c with
    | kvCompareAndSet key old new =>
      simp only [serve]
      split <;> exact id
    | _ => exact id

/-- **A list is given up only when beaten.**  Whatever takes turns with each other, where one of the operations on a list,
anywhere in what a member does, gives up without having changed it, the others have changed that list three times between
its first call and its last. -/
theorem refOp_beaten {ι α : Type} [DecidableEq ι] {E : Env} {P P' : Pool ι Call Resp α World}
    {tr : List (Event ι Call Resp)} (h : Exec (serve E) P tr P') {i : ι} {op : RefOp}
    (hgives : op.exec.Leads (own i tr) (.error op.exhausted)) : 3 ≤ tr.countP (beats op.key i) := by
  have hjson : op.exhausted ≠ jsonError := by cases op <;> simp [RefOp.exhausted, jsonError]
  rw [RefOp.exec_eq] at hgives
  obtain ⟨suf, hown, hlost⟩ :=
    hgives.along (along_editList op.userID op.listID op.edit_ne_exhausted hjson storeRetries [])
  rcases hlost rfl with hlost | ⟨⟨c, r⟩, hx, hfails⟩
  · exact hlost.beaten (by simpa using hown) h
  · have hm : (⟨c, r⟩ : (c : Call) × Resp c) ∈ own i tr := by
      rw [List.nil_append] at hown
      rwa [hown]
    exact absurd hfails (not_fails_of_exec h _ (Pool.mem_own.1 hm))

section sample

/-- Four todos added to one list at once. -/
def addFour (i : Fin 4) : RefOp := .addReference "ann" (["w", "x", "y", "z"].getD i "") .myList "" ""

/-- Between the first one's read and its compare-and-set another's addition always lands. -/
def addedByFour : List (Event (Fin 4) Call Resp) × Pool (Fin 4) Call Resp (Except String (Option IssueRef)) World :=
  Pool.play (serve Env.sample) ⟨fun i => (addFour i).exec, World.empty⟩ [0, 1, 1, 0, 0, 2, 2, 0, 0, 3, 3, 0]

/-- What the first one then has called. -/
def addFourHistory : History :=
  let key := listKey "ann" .myList
  let list (ids : List String) : Value := .refs (ids.map fun id => ⟨id, "", ""⟩)
  [⟨.kvGet key, .ok none⟩, ⟨.kvCompareAndSet key none (list ["w"]), .ok false⟩,
    ⟨.kvGet key, .ok (some (list ["x"]))⟩,
    ⟨.kvCompareAndSet key (some (list ["x"])) (list ["x", "w"]), .ok false⟩,
    ⟨.kvGet key, .ok (some (list ["x", "y"]))⟩,
    ⟨.kvCompareAndSet key (some (list ["x", "y"])) (list ["x", "y", "w"]), .ok false⟩]

theorem addFour_beaten : (addFour 0).exec.Leads (own 0 addedByFour.1) (.error (addFour 0).exhausted) ∧
    3 ≤ addedByFour.1.countP (beats (addFour 0).key 0) := by
  have hown : own 0 addedByFour.1 = addFourHistory := rfl
  have hgives : (addFour 0).exec.Leads (own 0 addedByFour.1) (.error (addFour 0).exhausted) := by
    rw [hown]
    exact .call (.call (.call (.call (.call (.call (.ret _))))))
  exact ⟨hgives, refOp_beaten (Pool.play_exec (serve Env.sample) _ _) hgives⟩

end sample
end Todo

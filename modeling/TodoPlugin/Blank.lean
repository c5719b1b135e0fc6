import TodoPlugin.Adding
import TodoPlugin.OptOut
/-!
# No blank todos

A record's message comes from a request or a command, or is copied from another record.  `add` asks for a message, and so
does `/todo add`; the words of a command are never empty, so `/todo send` has one.  `edit` does not ask: an edit with an
empty message is what leaves a blank record, and nothing else does.
-/
namespace Todo

open Proc (Given)

/-! ## The words of a command -/

/-- After a blank, a word begins. -/
theorem splitBlanks_replaceSpaces_fst : ∀ {cs : List Char}, cs ≠ [] → (∀ c ∈ cs.getLast?, isReSpace c = false) →
    (splitBlanks (replaceSpaces true cs)).1 ≠ []
  | [c], _, h      => by
    have hc : isReSpace c = false := h c rfl
    have hne : c ≠ ' ' := by rintro rfl; cases hc
    simp [replaceSpaces, hc, splitBlanks, hne]
  | c :: d :: cs, _, h => by
    rw [List.getLast?_cons_cons] at h
    rw [replaceSpaces]
    split
    · exact splitBlanks_replaceSpaces_fst (by simp) h
    · rename_i hc
      have hne : c ≠ ' ' := by rintro rfl; exact hc rfl
      simp [splitBlanks, hne]

/-- **No word is empty**, where the text does not end in a blank. -/
theorem splitBlanks_replaceSpaces_snd : ∀ {cs : List Char} {run : Bool}, (∀ c ∈ cs.getLast?, isReSpace c = false) →
    ∀ word ∈ (splitBlanks (replaceSpaces run cs)).2, word ≠ []
  | [], _, _, word, hw => by simp [replaceSpaces, splitBlanks] at hw
  | c :: cs, run, h, word, hw => by
    have hrest : ∀ d ∈ cs.getLast?, isReSpace d = false := by
      cases cs with
      | nil => simp
      | cons d cs => rwa [List.getLast?_cons_cons] at h
    rw [replaceSpaces] at hw
    split at hw
    · rename_i hc
      have hne : cs ≠ [] := by
        rintro rfl
        cases hc.symm.trans (h c rfl)
      split at hw
      · exact splitBlanks_replaceSpaces_snd hrest word hw
      · rw [splitBlanks, if_pos rfl] at hw
        rcases List.mem_cons.1 hw with rfl | hw
        · exact splitBlanks_replaceSpaces_fst hne hrest
        · exact splitBlanks_replaceSpaces_snd hrest word hw
    · rename_i hc
      have hne : c ≠ ' ' := by rintro rfl; exact hc rfl
      rw [splitBlanks, if_neg hne] at hw
      exact splitBlanks_replaceSpaces_snd hrest word hw

theorem isSpace_of_isReSpace {c : Char} (h : isReSpace c = true) : isSpace c = true := by
  unfold isReSpace at h
  unfold isSpace
  simp only [decide_eq_true_eq, List.mem_cons, List.not_mem_nil, or_false] at h
  rcases h with h | h | h | h | h <;> simp [h]

theorem isReSpace_of_isSpace {c : Char} (h : isSpace c = false) : isReSpace c = false := by
  by_contra hre
  rw [isSpace_of_isReSpace (by simpa using hre)] at h
  cases h

/-- What is trimmed does not end in a blank. -/
theorem getLast_trimSpace (cs : List Char) : ∀ c ∈ (trimSpace cs).getLast?, isReSpace c = false := by
  intro c hc
  rw [trimSpace, List.getLast?_reverse] at hc
  have hnot := List.head?_dropWhile_not isSpace (cs.dropWhile isSpace).reverse
  rw [hc] at hnot
  exact isReSpace_of_isSpace hnot

/-- **The words of a command** after the first are not empty. -/
theorem words_ne_empty (text : String) : ∀ word ∈ (stringArgs text).2, word ≠ "" := by
  intro word hw he
  obtain ⟨cs, hcs, rfl⟩ := List.mem_map.1 hw
  refine splitBlanks_replaceSpaces_snd (getLast_trimSpace _) cs hcs ?_
  simpa using congrArg String.toList he

theorem intercalate_ne_empty {word : String} (h : word ≠ "") (words : List String) :
    " ".intercalate (word :: words) ≠ "" := by
  cases words with
  | nil => rwa [String.intercalate_singleton]
  | cons next words =>
    rw [String.intercalate_cons_cons]
    simp [h]

/-! ## Messages -/

/-- **Every record has a message.** -/
def World.Filled (w : World) : Prop := ∀ key i, w.kv key = some (.issue i) → i.message ≠ ""

/-- The value is not a record without a message. -/
def Value.Filled (value : Value) : Prop := ∀ i, value = .issue i → i.message ≠ ""

theorem Value.filled_text (text : String) : (Value.text text).Filled := by
  intro i hi
  cases hi

/-- The call stores no record without a message. -/
def Call.Fills : Call → Prop
  | .kvSet _ value               => value.Filled
  | .kvCompareAndSet _ _ value   => value.Filled
  | _                            => True

/-- What is read is no record without a message. -/
def Call.Finds : (c : Call) → Resp c → Prop
  | .kvGet _, r => ∀ value, r = .ok (some value) → value.Filled
  | _, _        => True

theorem World.Filled.put {w : World} (h : w.Filled) (key : String) {value : Value} (hv : value.Filled) :
    (w.put key value).Filled := by
  intro k i hk
  by_cases he : k = key
  · rw [he, World.put_kv_self] at hk
    exact hv i (Option.some.inj hk)
  · rw [World.put_kv_of_ne _ _ he] at hk
    exact h k i hk

theorem World.Filled.of_kv {w w' : World} (hkv : w'.kv = w.kv) (h : w.Filled) : w'.Filled := fun key i hi =>
  h key i (hkv ▸ hi)

theorem Call.finds_serve (E : Env) (c : Call) (w : World) (h : w.Filled) : c.Finds (serve E c w).1 := by
  cases c with
  | kvGet key =>
    rintro value hv i rfl
    exact h key i (Except.ok.inj hv)
  | _ => trivial

theorem Call.fills_serve (E : Env) (c : Call) (w : World) (hc : c.Fills) (h : w.Filled) : (serve E c w).2.Filled := by
  cases c with
  | kvSet key value => exact h.put key hc
  | kvDelete key =>
    intro k i hk
    by_cases he : k = key
    · rw [he, serve, World.delete_kv_self] at hk
      cases hk
    · rw [serve, World.delete_kv_of_ne _ he] at hk
      exact h k i hk
  | kvCompareAndSet key old new =>
    simp only [serve]
    split
    · exact h.put key hc
    · exact h
  | createPost post =>
    simp only [serve]
    split
    · exact h.of_kv rfl
    · exact h
  | _ => exact h.of_kv rfl

/-- **The procedure leaves no record without a message**, as long as it finds none. -/
abbrev KeepsFilled {α : Type} (p : Api α) (post : α → Prop) : Prop := p.Given Call.Fills Call.Finds post

theorem keepsFilled_run (E : Env) {α : Type} {p : Api α} {post : α → Prop} (h : KeepsFilled p post) {w : World}
    (hw : w.Filled) : (p.run (serve E) w).2.Filled :=
  h.run (Call.finds_serve E) (Call.fills_serve E) hw

namespace Store

theorem keepsFilled_getIssue (id : String) : KeepsFilled (getIssue id) fun r => ∀ i, r = .ok i → i.message ≠ "" := by
  refine ⟨trivial, ?_⟩
  rintro (e | _ | value) hr
  · exact nofun
  · exact nofun
  · rintro i hi
    cases value with
    | issue j =>
      cases hi
      exact hr _ rfl _ rfl
    | _ => cases hi

theorem keepsFilled_saveIssue {i : Issue} (h : i.message ≠ "") : KeepsFilled (saveIssue i) fun _ => True := by
  refine ⟨?_, fun _ _ => trivial⟩
  rintro j hj
  cases hj
  exact h

theorem keepsFilled_editList {α : Type} (u : String) (l : ListID) (edit : List IssueRef → Edit α) (exhausted : String)
    (n : Nat) : KeepsFilled (editList u l edit exhausted n) fun _ => True :=
  (only_editList (P := Call.Fills) trivial (fun _ _ => nofun) edit exhausted n).given

theorem keepsFilled_removeIssue (id : String) : KeepsFilled (removeIssue id) fun _ => True :=
  ⟨trivial, fun _ _ => trivial⟩

theorem keepsFilled_getAndRemoveIssue (id : String) : KeepsFilled (getAndRemoveIssue id) fun _ => True := by
  apply Given.bind (keepsFilled_getIssue id)
  rintro (e | i) _
  · trivial
  · apply Given.bind (keepsFilled_removeIssue id)
    rintro (e | _) _ <;> trivial

theorem keepsFilled_addReference (u id : String) (l : ListID) (fu fi : String) :
    KeepsFilled (addReference u id l fu fi) fun _ => True := keepsFilled_editList ..

theorem keepsFilled_removeReference (u id : String) (l : ListID) : KeepsFilled (removeReference u id l) fun _ => True :=
  keepsFilled_editList ..

end Store

theorem keepsFilled_reads {α : Type} {X : Prop} {p : Api α} (h : p.Only Call.Reads X) : KeepsFilled p fun _ => True :=
  (h.mono (Q := Call.Fills) (fun c hc => by cases c <;> trivial) id).given

/-- The call saves no record but one with the message. -/
def Call.Saves (m : String) : Call → Prop
  | .kvSet _ value             => ∃ i, value = .issue i ∧ i.message = m
  | .kvCompareAndSet _ _ value => ∃ list, value = .refs list
  | _                          => True

namespace Store

theorem saves_saveIssue {i : Issue} {m : String} (h : i.message = m) : (saveIssue i).Only (Call.Saves m) True :=
  .request ⟨i, rfl, h⟩

theorem saves_removeIssue {m : String} (id : String) : (removeIssue id).Only (Call.Saves m) True := .request trivial

theorem saves_editList {α : Type} {m : String} (u : String) (l : ListID) (edit : List IssueRef → Edit α)
    (exhausted : String) (n : Nat) : (editList u l edit exhausted n).Only (Call.Saves m) True :=
  only_editList trivial (fun _ list => ⟨list, rfl⟩) edit exhausted n

end Store

theorem keepsFilled_saves {α : Type} {m : String} {p : Api α} (h : p.Only (Call.Saves m) True) (hm : m ≠ "") :
    KeepsFilled p fun _ => True := by
  apply Proc.Only.given (X := True)
  apply h.mono _ id
  intro c hc
  cases c with
  | kvSet key value =>
    obtain ⟨i, rfl, rfl⟩ := hc
    rintro j hj
    cases hj
    exact hm
  | kvCompareAndSet key old value =>
    obtain ⟨list, rfl⟩ := hc
    exact nofun
  | _ => trivial

theorem keepsFilled_newIssue (m p d q : String) : KeepsFilled (newIssue m p d q) fun i => i.message = m :=
  ⟨trivial, fun _ _ => ⟨trivial, fun _ _ => rfl⟩⟩

namespace ListManager

theorem saves_addIssue (u m p d q : String) : (addIssue u m p d q).Only (Call.Saves m) True := by
  refine ⟨trivial, fun id => ⟨trivial, fun createAt => ?_⟩⟩
  apply Proc.Only.bind (Store.saves_saveIssue rfl)
  rintro (e | _)
  · trivial
  · apply Proc.Only.bind (Store.saves_editList ..)
    rintro (e | _)
    · exact .bind (Store.saves_removeIssue _) fun _ => trivial
    · trivial

theorem saves_sendIssue (u v m p d q : String) : (sendIssue u v m p d q).Only (Call.Saves m) True := by
  refine ⟨trivial, fun id => ⟨trivial, fun createAt => ?_⟩⟩
  apply Proc.Only.bind (Store.saves_saveIssue rfl)
  rintro (e | _)
  · trivial
  refine ⟨trivial, fun id' => ⟨trivial, fun createAt' => ?_⟩⟩
  apply Proc.Only.bind (Store.saves_saveIssue rfl)
  rintro (e | _)
  · exact .bind (Store.saves_removeIssue _) fun _ => trivial
  apply Proc.Only.bind (Store.saves_editList ..)
  rintro (e | _)
  · exact .bind (Store.saves_removeIssue _) fun _ => .bind (Store.saves_removeIssue _) fun _ => trivial
  apply Proc.Only.bind (Store.saves_editList ..)
  rintro (e | _)
  · exact .bind (Store.saves_removeIssue _) fun _ => .bind (Store.saves_removeIssue _) fun _ =>
      .bind (Store.saves_editList ..) fun _ => trivial
  · trivial

theorem keepsFilled_addIssue (u : String) {m : String} (hm : m ≠ "") (p d q : String) :
    KeepsFilled (addIssue u m p d q) fun _ => True := keepsFilled_saves (saves_addIssue ..) hm

theorem keepsFilled_sendIssue (u v : String) {m : String} (hm : m ≠ "") (p d q : String) :
    KeepsFilled (sendIssue u v m p d q) fun _ => True := keepsFilled_saves (saves_sendIssue ..) hm

theorem keepsFilled_completeIssue (u id : String) : KeepsFilled (completeIssue u id) fun _ => True := by
  apply Given.bind (keepsFilled_reads (X := True) (Store.reads_getIssueListAndReference ..))
  rintro ⟨l, _ | r, n⟩ _
  · trivial
  apply Given.bind (Store.keepsFilled_removeReference ..)
  rintro (e | _) _
  · trivial
  apply Given.bind (Store.keepsFilled_getAndRemoveIssue _)
  intro i _
  split
  · trivial
  · exact .bind (Store.keepsFilled_removeReference ..) fun _ _ =>
      .bind (Store.keepsFilled_getAndRemoveIssue _) fun _ _ => trivial

theorem keepsFilled_removeIssue (u id : String) : KeepsFilled (removeIssue u id) fun _ => True := by
  apply Given.bind (keepsFilled_reads (X := True) (Store.reads_getIssueListAndReference ..))
  rintro ⟨l, _ | r, n⟩ _
  · trivial
  apply Given.bind (Store.keepsFilled_removeReference ..)
  rintro (e | _) _
  · trivial
  apply Given.bind (Store.keepsFilled_getAndRemoveIssue _)
  intro i _
  split
  · trivial
  · exact .bind (keepsFilled_reads (X := True) (Store.reads_getIssueListAndReference ..)) fun _ _ =>
      .bind (Store.keepsFilled_removeReference ..) fun _ _ =>
        .bind (Store.keepsFilled_getAndRemoveIssue _) fun _ _ => trivial

theorem keepsFilled_popIssue (u : String) : KeepsFilled (popIssue u) fun _ => True := by
  apply Given.bind (Store.keepsFilled_editList ..)
  rintro (e | r) _
  · trivial
  apply Given.bind (Store.keepsFilled_getAndRemoveIssue _)
  intro i _
  split
  · trivial
  · exact .bind (Store.keepsFilled_removeReference ..) fun _ _ =>
      .bind (Store.keepsFilled_getAndRemoveIssue _) fun _ _ => trivial

theorem keepsFilled_acceptIssue (u id : String) : KeepsFilled (acceptIssue u id) fun _ => True := by
  apply Given.bind (Store.keepsFilled_getIssue id)
  rintro (e | i) _
  · trivial
  apply Given.bind (keepsFilled_reads (X := True) (Store.reads_getIssueReference ..))
  rintro (e | ⟨r, n⟩) _
  · trivial
  apply Given.bind (Store.keepsFilled_addReference ..)
  rintro (e | _) _
  · trivial
  apply Given.bind (Store.keepsFilled_removeReference ..)
  rintro (e | _) _
  · exact .bind (Store.keepsFilled_removeReference ..) fun _ _ => trivial
  · trivial

theorem keepsFilled_bumpIssue (u id : String) : KeepsFilled (bumpIssue u id) fun _ => True := by
  apply Given.bind (keepsFilled_reads (X := True) (Store.reads_getIssueReference ..))
  rintro (e | ⟨r, n⟩) _
  · trivial
  apply Given.bind (Store.keepsFilled_editList ..)
  rintro (e | _) _
  · trivial
  apply Given.bind (Store.keepsFilled_getIssue _)
  rintro (e | i) _ <;> trivial

/-- **An edit to a text** keeps the records filled. -/
theorem keepsFilled_editIssue (u id : String) {m : String} (hm : m ≠ "") (d : String) :
    KeepsFilled (editIssue u id m d) fun _ => True := by
  apply Given.bind (Store.keepsFilled_getIssue id)
  rintro (e | i) _
  · trivial
  apply Given.bind (keepsFilled_reads (X := True) (Store.reads_getIssueListAndReference ..))
  rintro ⟨l, _ | r, n⟩ _
  · trivial
  simp only
  split
  · apply Given.bind (Store.keepsFilled_getIssue _)
    rintro (e | f) _
    · apply Given.bind (Store.keepsFilled_saveIssue hm)
      rintro (e | _) _ <;> trivial
    · apply Given.bind (Store.keepsFilled_saveIssue hm)
      intro _ _
      apply Given.bind (Store.keepsFilled_saveIssue hm)
      rintro (e | _) _ <;> trivial
  · apply Given.bind (Store.keepsFilled_saveIssue hm)
    rintro (e | _) _ <;> trivial

theorem keepsFilled_assign (id u v old : String) {i : Issue} (hi : i.message ≠ "") :
    KeepsFilled (assign id u v old i) fun _ => True := by
  apply Given.bind (keepsFilled_newIssue ..)
  rintro j hj
  apply Given.bind (Store.keepsFilled_saveIssue (hj ▸ hi))
  rintro (e | _) _
  · trivial
  apply Given.bind (Store.keepsFilled_addReference ..)
  rintro (e | _) _
  · trivial
  apply Given.bind (Store.keepsFilled_addReference ..)
  rintro (e | _) _ <;> trivial

theorem keepsFilled_reassign (id u v : String) (l : ListID) (r : IssueRef) {i : Issue} (hi : i.message ≠ "") :
    KeepsFilled (reassign id u v l r i) fun _ => True := by
  unfold reassign
  split
  · apply Given.bind (Store.keepsFilled_removeReference ..)
    rintro (e | _) _
    · trivial
    apply Given.bind (Store.keepsFilled_addReference ..)
    rintro (e | _) _ <;> trivial
  · split
    · apply Given.bind (Store.keepsFilled_removeReference ..)
      rintro (e | _) _
      · trivial
      · exact keepsFilled_assign _ _ _ _ hi
    · exact keepsFilled_assign _ _ _ _ hi

/-- **A reassignment copies a message that is not empty.** -/
theorem keepsFilled_changeAssignment (id u v : String) : KeepsFilled (changeAssignment id u v) fun _ => True := by
  apply Given.bind (Store.keepsFilled_getIssue id)
  rintro (e | i) hi
  · trivial
  have hi := hi i rfl
  apply Given.bind (keepsFilled_reads (X := True) (Store.reads_getIssueListAndReference ..))
  rintro ⟨l, _ | r, n⟩ _
  · trivial
  simp only
  split
  · trivial
  split
  · apply Given.bind (keepsFilled_reads (X := True) (Store.reads_getIssueListAndReference ..))
    rintro ⟨fl, _ | s, n⟩ _
    · trivial
    apply Given.bind (Store.keepsFilled_removeReference ..)
    rintro (e | _) _
    · trivial
    · exact .bind (Store.keepsFilled_getAndRemoveIssue _) fun _ _ => keepsFilled_reassign _ _ _ _ _ hi
  · exact keepsFilled_reassign _ _ _ _ _ hi

end ListManager

/-! ## Operations and inputs -/

/-- The texts the operation is given are not empty. -/
def ListOp.Texted : ListOp → Prop
  | .addIssue _ m _ _ _    => m ≠ ""
  | .sendIssue _ _ m _ _ _ => m ≠ ""
  | .editIssue _ _ m _     => m ≠ ""
  | _                      => True

theorem ListOp.keepsFilled {op : ListOp} (h : op.Texted) : KeepsFilled op.exec fun _ => True := by
  have hret : ∀ {α : Type} {p : Api α} (f : α → ListResult), (KeepsFilled p fun _ => True) →
      KeepsFilled (p >>= fun a => pure (f a)) fun _ => True := fun f hp => .bind hp fun _ _ => trivial
  cases op with
  | addIssue u m p d q => exact hret _ (ListManager.keepsFilled_addIssue u h p d q)
  | sendIssue u v m p d q => exact hret _ (ListManager.keepsFilled_sendIssue u v h p d q)
  | completeIssue u id => exact hret _ (ListManager.keepsFilled_completeIssue u id)
  | editIssue u id m d => exact hret _ (ListManager.keepsFilled_editIssue u id h d)
  | changeAssignment id u v => exact hret _ (ListManager.keepsFilled_changeAssignment id u v)
  | acceptIssue u id => exact hret _ (ListManager.keepsFilled_acceptIssue u id)
  | removeIssue u id => exact hret _ (ListManager.keepsFilled_removeIssue u id)
  | popIssue u => exact hret _ (ListManager.keepsFilled_popIssue u)
  | bumpIssue u id => exact hret _ (ListManager.keepsFilled_bumpIssue u id)

/-- An edit that leaves a todo of the user's blank. -/
def Input.Blanks (E : Env) (w : World) (e : Input) : Prop :=
  ∃ u id d, e.op E w = some (.editIssue u id "" d) ∧ w.issue id ≠ none ∧ (w.locate u id).2.1 ≠ none

theorem addOp_texted {u : UserID} {words : List String} {o : ListOp} (h : addOp u words = some o) : o.Texted := by
  unfold addOp at h
  split at h
  · cases h
  · rename_i hne
    cases h
    exact hne

theorem valid_some {α : Type} {fields : List ((α → String) × String)} {body : Body α} {a : α}
    (h : body.valid (requireFields fields) = some a) : ∀ f ∈ fields, f.1 a ≠ "" := by
  cases body with
  | error e => cases h
  | ok request =>
    simp only [Body.valid] at h
    split at h
    · cases h
    · rename_i hv
      subst h
      obtain ⟨b, hb, hall⟩ := requireFields_none.1 (by simpa using hv)
      cases hb
      exact hall

/-- **What an input adds or sends has a text.** -/
theorem Input.op_texted {E : Env} {w : World} {e : Input} {o : ListOp} (ho : e.op E w = some o)
    (hedit : ∀ u id d, o ≠ .editIssue u id "" d) : o.Texted := by
  cases e with
  | command u ch text =>
    have hwords := words_ne_empty text
    simp only [Input.op, commandOp] at ho
    split at ho
    · exact addOp_texted ho
    · cases ho
      trivial
    · rename_i arg word words heq
      rw [heq] at hwords
      have hword : word ≠ "" := hwords word (by simp)
      obtain ⟨name, -, ho⟩ := Option.bind_eq_some_iff.1 ho
      obtain ⟨receiver, -, ho⟩ := Option.bind_eq_some_iff.1 ho
      split at ho
      · exact addOp_texted ho
      split at ho
      · cases ho
        exact intercalate_ne_empty hword words
      · cases ho
    · cases ho
  | http userID request =>
    obtain ⟨u, -, ho⟩ := Option.bind_eq_some_iff.1 ho
    cases request with
    | add body =>
      obtain ⟨r, hr, ho⟩ := Option.bind_eq_some_iff.1 ho
      have hm : r.message ≠ "" := valid_some hr (AddAPIRequest.message, "message is required") (by simp)
      split at ho
      · cases ho
        exact hm
      obtain ⟨receiver, -, ho⟩ := Option.bind_eq_some_iff.1 ho
      split at ho
      · cases ho
        exact hm
      split at ho
      · cases ho
        exact hm
      · cases ho
    | edit body =>
      obtain ⟨r, -, ho⟩ := Option.bind_eq_some_iff.1 ho
      cases ho
      intro hm
      exact hedit u r.id r.description (by rw [hm])
    | lists => cases ho
    | changeAssignment body =>
      obtain ⟨r, -, ho⟩ := Option.bind_eq_some_iff.1 ho
      obtain ⟨receiver, -, ho⟩ := Option.bind_eq_some_iff.1 ho
      cases ho
      trivial
    | remove body | complete body | accept body | bump body =>
      obtain ⟨r, -, ho⟩ := Option.bind_eq_some_iff.1 ho
      cases ho
      trivial

/-- **One input**: it leaves every record with a message, unless it blanks one. -/
theorem Input.filled_iff {E : Env} {w : World} (hs : w.Sound) (h : w.Filled) (e : Input) :
    (e.after E w).Filled ↔ ¬ e.Blanks E w := by
  constructor
  · rintro hfilled ⟨u, id, d, ho, hi, hl⟩
    obtain ⟨i, hi⟩ := Option.ne_none_iff_exists'.1 hi
    rcases hloc : w.locate u id with ⟨l, _ | r, n⟩
    · rw [hloc] at hl
      exact hl rfl
    obtain ⟨old, hrun⟩ := ListManager.editIssue_run E hs "" d hi hloc
    have hafter : (ListOp.editIssue u id "" d).after E w =
        (ListManager.editForeign w r.foreignIssueID "" d).save (i.retext "" d) := by
      rw [ListOp.after, ListOp.exec, ListOp.run_tagged _ hrun]
    refine hfilled (issueKey i.id) (i.retext "" d) ?_ rfl
    rw [(Input.sameStore_of_op ho).kv, hafter]
    exact World.put_kv_self ..
  · intro hno
    obtain ⟨w₁, hstep, hsame⟩ := e.exec_step E w
    have hw₁ : w₁.Filled := by
      cases hstep with
      | op o ho =>
        by_cases hedit : ∃ u id d, o = .editIssue u id "" d
        · -- the todo is not there, or not the user's
          obtain ⟨u, id, d, rfl⟩ := hedit
          by_cases hi : w.issue id = none
          · rw [ListOp.after, ListOp.exec, ListOp.run_tagged _ (ListManager.editIssue_noIssue E hs "" d hi)]
            exact h
          · rcases hloc : w.locate u id with ⟨l, _ | r, n⟩
            · obtain ⟨err, hrun⟩ := ListManager.editIssue_absent E hs "" d hloc
              rw [ListOp.after, ListOp.exec, ListOp.run_tagged _ hrun]
              exact h
            · exact absurd ⟨u, id, d, ho, hi, by simp [hloc]⟩ hno
        · have htext := Input.op_texted ho fun u id d he => hedit ⟨u, id, d, he⟩
          exact keepsFilled_run E (ListOp.keepsFilled htext) h
      | setting key b hset => exact h.put key (Value.filled_text _)
      | reminded u => exact h.put _ (Value.filled_text _)
      | idle => exact h
    exact hw₁.of_kv hsame.kv

/-- **Every run of inputs that blank no todo leaves every record with a message**; and the next input to blank one leaves
a record without. -/
theorem inputRuns_filled (E : Env) {tr : List (Input × Option Reply)} {w : World}
    (h : InputRuns E (fun w e => ¬ e.Blanks E w) World.empty tr w) :
    w.Filled ∧ ∀ e : Input, (e.after E w).Filled ↔ ¬ e.Blanks E w := by
  have hw : w.Sound ∧ w.Filled :=
    h.keep (I := fun w => w.Sound ∧ w.Filled)
      (fun _ e hw he => ⟨Input.sound hw.1 e, (Input.filled_iff hw.1 hw.2 e).2 he⟩) ⟨World.sound_empty, nofun⟩
  exact ⟨hw.2, fun e => Input.filled_iff hw.1 hw.2 e⟩

section sample

/-- Ann adds a todo. -/
def annAdds : Input := .http (some ann) (.add (.ok (some ⟨"milk", "", "", "", ""⟩)))

/-- Ann edits it. -/
def annEdits (message : String) : Input := .http (some ann) (.edit (.ok (some ⟨"x", message, ""⟩)))

theorem inputRuns_filled_edited :
    ∃ w : World, w.Filled ∧ ∀ e : Input, (e.after Env.sample w).Filled ↔ ¬ e.Blanks Env.sample w := by
  have hadd : ¬ annAdds.Blanks Env.sample World.empty := by
    rintro ⟨u, id, d, -, hi, -⟩
    exact hi rfl
  have hedit : ¬ (annEdits "tea").Blanks Env.sample (annAdds.after Env.sample World.empty) := by
    rintro ⟨u, id, d, ho, -⟩
    have hm : "tea" = "" := (ListOp.editIssue.inj (Option.some.inj ho)).2.2.1
    exact absurd hm (by decide)
  exact ⟨_, inputRuns_filled Env.sample (.step annAdds hadd (.step (annEdits "tea") hedit (.done _)))⟩

/-- **An edit with an empty message** goes through, and leaves a blank todo. -/
theorem edit_blanks : ∃ tr w, InputRuns Env.sample (fun _ _ => True) World.empty tr w ∧ ¬ w.Filled := by
  refine ⟨_, (annEdits "").after Env.sample (annAdds.after Env.sample World.empty),
    .step annAdds trivial (.step (annEdits "") trivial (.done _)), fun h => ?_⟩
  have hblank : ((annEdits "").after Env.sample (annAdds.after Env.sample World.empty)).kv (issueKey "x") =
      some (.issue ⟨"x", "", "", "", 0, ""⟩) := by decide
  exact h _ _ hblank rfl

end sample
end Todo

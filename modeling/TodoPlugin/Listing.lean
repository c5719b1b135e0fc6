import TodoPlugin.Crossings
import TodoPlugin.Views
/-!
# Listing while others write

`GET /lists` reads each list once and then the record of each of its references, one call at a time, while other requests
run.  What it answers is for each list the references at one moment of the request, in their order, and for each the record
as it was at a later one; a reference is left out only if its record was not there then, or could not be read.
-/
namespace Todo

open Store (ids)
open Proc (Along Only)

/-- A history: the calls made so far, with their answers. -/
abbrev History := List ((c : Call) × Resp c)

/-- **What is shown of a list**, reference by reference: a record read, or none where it was missed. -/
inductive Rows (read : IssueRef → Issue → Prop) (missed : IssueRef → Prop) :
    List IssueRef → List ExtendedIssue → Prop
  | nil : Rows read missed [] []
  | shown {r : IssueRef} {rs : List IssueRef} {row : ExtendedIssue} {rows : List ExtendedIssue}
      (h : read r row.issue) (hs : Rows read missed rs rows) : Rows read missed (r :: rs) (row :: rows)
  | missing {r : IssueRef} {rs : List IssueRef} {rows : List ExtendedIssue}
      (h : missed r) (hs : Rows read missed rs rows) : Rows read missed (r :: rs) rows

namespace Rows

variable {read read' : IssueRef → Issue → Prop} {missed missed' : IssueRef → Prop} {rs : List IssueRef}
  {rows : List ExtendedIssue}

theorem mono (hread : ∀ r i, read r i → read' r i) (hmissed : ∀ r, missed r → missed' r) (h : Rows read missed rs rows) :
    Rows read' missed' rs rows := by
  induction h with
  | nil => exact .nil
  | shown h _ ih => exact .shown (hread _ _ h) ih
  | missing h _ ih => exact .missing (hmissed _ h) ih

/-- The rows are of some of the references, in their order. -/
theorem sublist (hid : ∀ r i, read r i → i.id = r.issueID) (h : Rows read missed rs rows) :
    (rows.map fun row => row.issue.id).Sublist (ids rs) := by
  induction h with
  | nil => exact .slnil
  | shown h _ ih =>
    rw [List.map_cons, hid _ _ h]
    exact ih.cons_cons _
  | missing _ _ ih => exact ih.cons _

end Rows

/-! ## The history of a listing -/

/-- The record of the reference was read, after the history `l`. -/
def ReadIn (l : History) (r : IssueRef) (i : Issue) : Prop :=
  ⟨.kvGet (issueKey r.issueID), .ok (some (.issue i))⟩ ∈ l

/-- The record of the reference was asked for, and the answer was no record. -/
def MissedIn (l : History) (r : IssueRef) : Prop :=
  ∃ res : Resp (.kvGet (issueKey r.issueID)), ⟨.kvGet (issueKey r.issueID), res⟩ ∈ l ∧ ∀ i, res ≠ .ok (some (.issue i))

/-- **The rows are what was read after the list was**, in the history `l`. -/
def ListedIn (u : String) (listID : ListID) (rows : List ExtendedIssue) (l : History) : Prop :=
  ∃ pre suf value refs, l = pre ++ ⟨.kvGet (listKey u listID), .ok value⟩ :: suf ∧ decodeList value = some refs ∧
    Rows (ReadIn suf) (MissedIn suf) refs rows

theorem ListedIn.mono {u : String} {listID : ListID} {rows : List ExtendedIssue} {l l' : History}
    (h : ListedIn u listID rows l) (hl : l <+: l') : ListedIn u listID rows l' := by
  obtain ⟨pre, suf, value, refs, rfl, hd, hrows⟩ := h
  obtain ⟨more, rfl⟩ := hl
  have hsub : suf ⊆ suf ++ more := List.subset_append_left ..
  refine ⟨pre, suf ++ more, value, refs, by simp, hd, hrows.mono (fun _ _ hm => hsub hm) ?_⟩
  exact fun _ ⟨res, hm, hres⟩ => ⟨res, hsub hm, hres⟩

section history
variable {Q : History → Call → Prop} (hQ : ∀ l c, Q l c)

include hQ

/-- What is established in a history is established in a longer one. -/
theorem along_more {α : Type} {p : Api α} {post : α → History → Prop} {l : History} (hp : p.Along Q post l) :
    p.Along Q (fun a l' => post a l' ∧ l <+: l') l := hp.and (Proc.along_grows hQ p l)

theorem along_getIssue (id : String) (l : History) :
    (Store.getIssue id).Along Q (fun res l' => ∃ r : Resp (.kvGet (issueKey id)), l' = l ++ [⟨.kvGet (issueKey id), r⟩] ∧
      ∀ i, res = .ok i ↔ r = .ok (some (.issue i))) l := by
  refine ⟨hQ _ _, fun r => ?_⟩
  rcases r with err | _ | value
  · exact ⟨_, rfl, by simp⟩
  · exact ⟨_, rfl, by simp⟩
  · refine ⟨_, rfl, fun i => ?_⟩
    cases value <;> simp [unmarshalIssue]

theorem along_legacyIssueRef (u : String) (listID : ListID) (l : History) :
    (Store.legacyIssueRef u listID).Along Q (fun res l' => ∀ refs old, res = .ok (refs, old) →
      l' = l ++ [⟨.kvGet (listKey u listID), .ok old⟩] ∧ decodeList old = some refs) l := by
  refine ⟨hQ _ _, fun r => ?_⟩
  rcases r with err | _ | value
  · rintro refs old ⟨⟩
  · rintro refs old ⟨⟩
    exact ⟨rfl, rfl⟩
  · cases value with
    | legacy id rest =>
      rintro refs old ⟨⟩
      exact ⟨rfl, rfl⟩
    | refs list =>
      cases list with
      | nil =>
        rintro refs old ⟨⟩
        exact ⟨rfl, rfl⟩
      | cons r rest => rintro refs old ⟨⟩
    | issue | text => rintro refs old ⟨⟩

/-- A list is read with the value it was answered to have last. -/
theorem along_getList (u : String) (listID : ListID) (l : History) :
    (Store.getList u listID).Along Q (fun res l' => ∀ refs old, res = .ok (refs, old) →
      ∃ pre, l' = l ++ pre ++ [⟨.kvGet (listKey u listID), .ok old⟩] ∧ decodeList old = some refs) l := by
  refine ⟨hQ _ _, fun r => ?_⟩
  rcases r with err | _ | value
  · rintro refs old ⟨⟩
  · rintro refs old ⟨⟩
    exact ⟨[], by simp, rfl⟩
  · have hlegacy := along_legacyIssueRef hQ u listID (l ++ [⟨.kvGet (listKey u listID), .ok (some value)⟩])
    cases value with
    | refs list =>
      rintro refs old ⟨⟩
      exact ⟨[], by simp, rfl⟩
    | legacy | issue | text =>
      simp only [unmarshalRefs]
      exact hlegacy.mono fun res l' h refs old he => ⟨_, h refs old he⟩

theorem along_getRefs (u : String) (listID : ListID) (l : History) :
    (Store.getRefs u listID).Along Q (fun res l' => ∀ refs, res = .ok refs →
      ∃ pre value, l' = pre ++ [⟨.kvGet (listKey u listID), .ok value⟩] ∧ decodeList value = some refs) l := by
  refine (along_getList hQ u listID l).bind ?_
  rintro (err | ⟨refs, old⟩) l' h
  · rintro refs ⟨⟩
  · rintro refs' ⟨⟩
    obtain ⟨pre, hl, hd⟩ := h refs old rfl
    exact ⟨l ++ pre, old, hl, hd⟩

theorem along_extendIssueInfo (i : Issue) (ir : IssueRef) (l : History) :
    (ListManager.extendIssueInfo i ir).Along Q (fun row l' => l <+: l' ∧ row.issue = i) l := by
  unfold ListManager.extendIssueInfo
  split
  · exact ⟨List.prefix_refl _, rfl⟩
  · refine (Proc.along_grows hQ (Store.getIssueListAndReference _ _) l).bind fun found l₁ h₁ => ?_
    refine (Proc.along_grows hQ (ListManager.getUserName _) l₁).bind fun name l₂ h₂ => ?_
    exact ⟨h₁.trans h₂, rfl⟩

/-- **The records are read one after another.** -/
theorem along_extendRefs : ∀ (refs : List IssueRef) (l : History), (ListManager.extendRefs refs).Along Q
    (fun rows l' => ∃ suf, l' = l ++ suf ∧ Rows (ReadIn suf) (MissedIn suf) refs rows) l
  | [], l          => ⟨[], (List.append_nil l).symm, .nil⟩
  | ir :: refs, l => by
    have hmono : ∀ {suf suf' : History} {rs : List IssueRef} {rows : List ExtendedIssue}, suf ⊆ suf' →
        Rows (ReadIn suf) (MissedIn suf) rs rows → Rows (ReadIn suf') (MissedIn suf') rs rows := fun hsub h =>
      h.mono (fun _ _ hm => hsub hm) fun _ ⟨res, hm, hres⟩ => ⟨res, hsub hm, hres⟩
    refine (along_getIssue hQ ir.issueID l).bind ?_
    rintro (err | i) l₁ ⟨res, rfl, hres⟩
    · refine (along_extendRefs refs _).mono ?_
      rintro rows l₂ ⟨suf, rfl, hrows⟩
      refine ⟨⟨_, res⟩ :: suf, List.append_assoc .., .missing ⟨res, List.mem_cons_self, fun i he => ?_⟩ ?_⟩
      · cases (hres i).2 he
      · exact hmono (List.subset_cons_self _ _) hrows
    · refine (along_extendIssueInfo hQ i ir _).bind ?_
      rintro row l₂ ⟨⟨mid, rfl⟩, rfl⟩
      refine (along_extendRefs refs _).bind ?_
      rintro rows l₃ ⟨suf, rfl, hrows⟩
      obtain rfl := (hres row.issue).1 rfl
      refine ⟨⟨_, _⟩ :: (mid ++ suf), by simp, .shown List.mem_cons_self (hmono ?_ hrows)⟩
      exact fun x hx => List.mem_cons_of_mem _ (List.mem_append_right _ hx)

theorem along_getIssueList (u : String) (listID : ListID) (l : History) :
    (ListManager.getIssueList u listID).Along Q (fun res l' => ∀ rows, res = .ok rows → ListedIn u listID rows l') l := by
  refine (along_getRefs hQ u listID l).bind ?_
  rintro (err | refs) l₁ h₁
  · rintro _ ⟨⟩
  · obtain ⟨pre, value, rfl, hd⟩ := h₁ refs rfl
    refine (along_extendRefs hQ refs _).bind ?_
    rintro rows l₂ ⟨suf, rfl, hrows⟩ _ ⟨⟩
    exact ⟨pre, suf, value, refs, by simp, hd, hrows⟩

theorem along_getAllList (u : String) (l : History) : (ListManager.getAllList u).Along Q
    (fun res l' => ∀ lists, res = .ok lists → ∀ k, ListedIn u k (lists.of k) l') l := by
  refine (along_getIssueList hQ u .inList l).bind ?_
  rintro (err | inRows) l₁ h₁
  · rintro _ ⟨⟩
  refine (along_more hQ (along_getIssueList hQ u .myList l₁)).bind ?_
  rintro (err | myRows) l₂ ⟨h₂, hpre₂⟩
  · rintro _ ⟨⟩
  refine (along_more hQ (along_getIssueList hQ u .outList l₂)).bind ?_
  rintro (err | outRows) l₃ ⟨h₃, hpre₃⟩
  · rintro _ ⟨⟩
  rintro _ ⟨⟩ k
  cases k with
  | myList => exact (h₂ myRows rfl).mono hpre₃
  | inList => exact (h₁ inRows rfl).mono (hpre₂.trans hpre₃)
  | outList => exact h₃ outRows rfl

/-- **What `GET /lists` answers** was read in the history. -/
theorem along_handleLists (u reminder timezoneOffset : String) (l : History) :
    (handleLists u reminder timezoneOffset).Along Q
      (fun resp l' => ∀ lists, resp = .lists lists → ∀ k, ListedIn u k (lists.of k) l') l := by
  obtain ⟨f, hf, herr, hok⟩ := handleLists_returns u reminder timezoneOffset
  rw [hf]
  refine (along_getAllList hQ u l).bind ?_
  rintro (err | all) l₁ h₁
  · exact ((herr err).along hQ).mono fun resp l₂ h lists he => absurd he (h lists)
  · refine (along_more hQ ((hok all).along hQ)).mono ?_
    rintro resp l₂ ⟨hresp, hpre⟩ lists rfl k
    obtain rfl := hresp lists rfl
    exact (h₁ lists rfl k).mono hpre

end history

/-! ## Listing in any traffic -/

/-- A request lists. -/
theorem along_lists (u : UserID) (reminder timezoneOffset : String) :
    (Input.http (some u) (.lists reminder timezoneOffset)).exec.Along (fun _ _ => True)
      (fun reply l' => ∀ lists, reply = .http (.lists lists) → ∀ k, ListedIn u k (lists.of k) l') [] := by
  have hlists := (along_handleLists (Q := fun _ _ => True) (fun _ _ => trivial) u reminder timezoneOffset []).recover_or .ok
  have hserve : serveHTTP (userHeader (some u)) (.lists reminder timezoneOffset) =
      (handleLists u reminder timezoneOffset).recover .ok := by
    rw [serveHTTP, checkAuth, userHeader, if_neg u.val_ne_empty]
    rfl
  rw [Input.exec, hserve]
  refine hlists.bind ?_
  rintro resp l' h lists ⟨⟩ k
  rcases h with h | h
  · exact h lists rfl k
  · cases h

section traffic
variable {ι : Type} [DecidableEq ι] {E : Env} {inputs : ι → Input} {P : Pool ι Call Resp Reply World}
  {tr : List (Event ι Call Resp)}

/-- **The turns come to the event** in a state that is as `S` says, and go on from there. -/
def ComesTo (E : Env) (P : Pool ι Call Resp Reply World) (tr : List (Event ι Call Resp))
    (P' : Pool ι Call Resp Reply World) (e : Event ι Call Resp) (S : World → Prop) : Prop :=
  ∃ pre post P₁, tr = pre ++ e :: post ∧ Pool.Turns (Ending E) P pre P₁ ∧ Pool.Turns (Ending E) P₁ (e :: post) P' ∧
    S P₁.state

theorem ComesTo.mono {P₁ : Pool ι Call Resp Reply World} {e : Event ι Call Resp} {S S' : World → Prop}
    (hS : ∀ w, S w → S' w) (h : ComesTo E P₁ tr P e S) : ComesTo E P₁ tr P e S' := by
  obtain ⟨pre, post, P', he, hrun, hrest, hs⟩ := h
  exact ⟨pre, post, P', he, hrun, hrest, hS _ hs⟩

/-- **What a key was answered to hold**, it held when it was asked for. -/
theorem kv_of_answered {P₀ : Pool ι Call Resp Reply World} {key : String} {value : Option Value} {i : ι}
    {pre suf : List (Event ι Call Resp)}
    (h : Pool.Turns (Ending E) P₀ (pre ++ ⟨i, .kvGet key, .ok value⟩ :: suf) P) :
    ∃ P₁, Pool.Turns (Ending E) P₀ pre P₁ ∧ P₁.state.kv key = value ∧
      Pool.Turns (Ending E) P₁ (⟨i, .kvGet key, .ok value⟩ :: suf) P := by
  obtain ⟨P₁, P₂, h₁, he, h₂⟩ := h.split
  refine ⟨P₁, h₁, ?_, .turn he h₂⟩
  cases he with
  | call hp ho =>
    rcases ho.kvGet with ⟨-, hv | ⟨err, he⟩⟩
    · cases hv
      rfl
    · cases he

variable {i : ι} {P₁ : Pool ι Call Resp Reply World} {tr₁ tr₂ : List (Event ι Call Resp)}

/-- What is asked of a record in the rest of the traffic is answered as it was then. -/
theorem issue_of_answered (h₁ : Pool.Turns (Ending E) (Input.pool inputs) tr₁ P₁) (h₂ : Pool.Turns (Ending E) P₁ tr₂ P)
    {id : String} {value : Option Value} (hm : (⟨i, .kvGet (issueKey id), .ok value⟩ : Event ι Call Resp) ∈ tr₂) :
    ComesTo E P₁ tr₂ P ⟨i, .kvGet (issueKey id), .ok value⟩ fun w => (w.issue id).map Value.issue = value := by
  obtain ⟨pre, suf, rfl⟩ := List.append_of_mem hm
  obtain ⟨P', h', hkv, hrest⟩ := kv_of_answered h₂
  exact ⟨_, _, P', rfl, h', hrest, ((sound_of_turns (h₁.append h')).kv_issue id).symm.trans hkv⟩

/-- `i` is answered the record, which is what is stored then. -/
def HasRead (E : Env) (P : Pool ι Call Resp Reply World) (tr : List (Event ι Call Resp))
    (P' : Pool ι Call Resp Reply World) (i : ι) (id : String) (issue : Option Issue) : Prop :=
  ComesTo E P tr P' ⟨i, .kvGet (issueKey id), .ok (issue.map Value.issue)⟩ fun w => w.issue id = issue

/-- **The rows of a listing** are what `i` reads after the list. -/
theorem rows_of_answered (h₁ : Pool.Turns (Ending E) (Input.pool inputs) tr₁ P₁) (h₂ : Pool.Turns (Ending E) P₁ tr₂ P)
    {l : History} (hl : l ⊆ Pool.own i tr₂) {refs : List IssueRef} {rows : List ExtendedIssue}
    (hrows : Rows (ReadIn l) (MissedIn l) refs rows) :
    Rows (fun r j => HasRead E P₁ tr₂ P i r.issueID (some j))
      (fun r => HasRead E P₁ tr₂ P i r.issueID none ∨
        ∃ err, (⟨i, .kvGet (issueKey r.issueID), .error err⟩ : Event ι Call Resp) ∈ tr₂) refs rows := by
  refine hrows.mono (fun r j hm => ?_) ?_
  · refine (issue_of_answered h₁ h₂ (Pool.mem_own.1 (hl hm))).mono fun w hw => ?_
    obtain ⟨j', hj, ⟨⟩⟩ := Option.map_eq_some_iff.1 hw
    exact hj
  · rintro r ⟨err | value, hm, hno⟩
    · exact .inr ⟨err, Pool.mem_own.1 (hl hm)⟩
    · have hread := issue_of_answered h₁ h₂ (Pool.mem_own.1 (hl hm))
      cases value with
      | none => exact .inl (hread.mono fun w hw => Option.map_eq_none_iff.1 hw)
      | some value =>
        obtain ⟨_, _, P', -, -, -, hw⟩ := hread
        obtain ⟨j, -, rfl⟩ := Option.map_eq_some_iff.1 hw
        exact absurd rfl (hno j)

/-- **`i` has listed it so**: it was answered the list, as it was stored then, and afterwards for each reference the
record, as it was stored by then; the rows are these, but for the references whose record was gone by then or was not read
for an error. -/
def HasListed (E : Env) (P : Pool ι Call Resp Reply World) (tr : List (Event ι Call Resp))
    (P' : Pool ι Call Resp Reply World) (i : ι) (key : String) (rows : List ExtendedIssue) : Prop :=
  ∃ tr₁ tr₂ value P₁ P₂, tr = tr₁ ++ ⟨i, .kvGet key, .ok value⟩ :: tr₂ ∧ Pool.Turns (Ending E) P tr₁ P₁ ∧
    Pool.Turn (Ending E) P₁ ⟨i, .kvGet key, .ok value⟩ P₂ ∧ Pool.Turns (Ending E) P₂ tr₂ P' ∧
    P₁.state.kv key = value ∧ decodeList value = some (P₁.state.list key) ∧
    Rows (fun r j => HasRead E P₂ tr₂ P' i r.issueID (some j))
      (fun r => HasRead E P₂ tr₂ P' i r.issueID none ∨
        ∃ err, (⟨i, .kvGet (issueKey r.issueID), .error err⟩ : Event ι Call Resp) ∈ tr₂)
      (P₁.state.list key) rows

/-- **Listing in any traffic**: each list answered has distinct todos, and is a list of the user as the request was
answered it, each reference with its record as the request was answered that later on, or left out where the record was
then gone or could not be read. -/
theorem traffic_listing (h : Pool.Turns (Ending E) (Input.pool inputs) tr P) {u : UserID}
    {reminder timezoneOffset : String} (hi : inputs i = .http (some u) (.lists reminder timezoneOffset))
    {lists : ListsIssue} (hret : P.procs i = .ret (.http (.lists lists))) (k : ListID) :
    ((lists.of k).map fun row => row.issue.id).Nodup ∧
      HasListed E (Input.pool inputs) tr P i (listKey u k) (lists.of k) := by
  have hal : ∀ j, ((Input.pool inputs).procs j).Along (fun _ _ => True) (fun reply l' => j = i →
      ∀ lists, reply = .http (.lists lists) → ∀ k, ListedIn u k (lists.of k) l') [] := by
    intro j
    by_cases hj : j = i
    · subst hj
      rw [show (Input.pool inputs).procs j = (inputs j).exec from rfl, hi]
      exact (along_lists u reminder timezoneOffset).mono fun _ _ h _ => h
    · exact (Proc.along_grows (fun _ _ => trivial) _ []).mono fun _ _ _ he => absurd he hj
  have hown := h.returned (l := fun _ => []) hal i
  rw [hret] at hown
  obtain ⟨pre, suf, value, refs, hhist, hd, hrows⟩ := hown rfl lists rfl k
  obtain ⟨tr₁, tr₂, rfl, -, rfl⟩ := Pool.own_split hhist
  obtain ⟨P₁, h₁, hkv, h₂⟩ := kv_of_answered h
  cases h₂ with
  | @turn _ P₂ _ _ _ he h₂ =>
    have hlist : P₁.state.list (listKey u k) = refs := by rw [World.list, hkv, hd]; rfl
    have hbefore := h₁.append (.turn he (.done P₂))
    have hrows' := rows_of_answered hbefore h₂ (List.Subset.refl _) hrows
    refine ⟨(hrows'.sublist fun r j hj => ?_).nodup ?_, tr₁, tr₂, value, P₁, P₂, rfl, h₁, he, h₂, hkv, ?_, ?_⟩
    · obtain ⟨_, _, P', -, h', -, hj⟩ := hj
      exact (sound_of_turns (hbefore.append h')).issue_id hj
    · rw [← hlist]
      exact (sound_of_turns h₁).distinct u k
    · rw [hlist, hd]
    · rwa [hlist]

end traffic

section sample

/-- Bob lists his todos. -/
def listMilk : Input := .http (some bob) (.lists "" "")

theorem listMilk_listing : ∃ lists, (afterSending listMilk 12).2.procs true = .ret (.http (.lists lists)) ∧
    (lists.of .inList).map (fun row => row.issue.message) = ["milk"] ∧
    ((lists.of .inList).map fun row => row.issue.id).Nodup ∧
    HasListed Env.sample (Input.pool (sendAnd listMilk)) ((sentMilk listMilk).1 ++ (afterSending listMilk 12).1)
      (afterSending listMilk 12).2 true (listKey bob .inList) (lists.of .inList) :=
  ⟨_, rfl, rfl, traffic_listing ((sentMilk_turns listMilk).append (afterSending_turns listMilk 12)) (i := true) (u := bob)
    rfl rfl .inList⟩

end sample
end Todo

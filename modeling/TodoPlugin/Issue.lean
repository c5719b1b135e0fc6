import Mathlib.Data.List.Nodup
/-!
# Issues, references and what the store holds

The records of `issue.go`, the references and the keys of `store.go`, and the values the plugin keeps in the KV store.
A value stands for the bytes stored, up to the JSON text: two values are equal exactly when the plugin's encodings of
them are, and a decoder fails where `encoding/json` reports a type it cannot decode into.
-/
namespace Todo

/-- A todo (`issue.go`). -/
structure Issue where
  id            : String
  message       : String
  postPermalink : String
  description   : String
  createAt      : Int
  postID        : String
deriving DecidableEq, Repr

/-- An issue with another text. -/
def Issue.retext (i : Issue) (message description : String) : Issue :=
  { i with message := message, description := description }

/-- An element of a list: the issue it refers to, and the issue and user on the other side, both `""` when there is
none. -/
structure IssueRef where
  issueID        : String
  foreignIssueID : String
  foreignUserID  : String
deriving DecidableEq, Repr

/-- The three lists of a user.  `MyListKey` is the empty string, so it is also the list named where none is. -/
inductive ListID where
  | myList | inList | outList
deriving DecidableEq, Repr

/-- `MyListKey`, `InListKey` and `OutListKey`. -/
def ListID.key : ListID → String
  | .myList  => ""
  | .inList  => "_in"
  | .outList => "_out"

/-! ## Keys -/

def storeListKey : String := "order"
def storeIssueKey : String := "item"
def storeReminderKey : String := "reminder"
def storeReminderEnabledKey : String := "reminder_enabled"
def storeAllowIncomingTaskRequestsKey : String := "allow_incoming_task"

def listKey (userID : String) (listID : ListID) : String := storeListKey ++ "_" ++ userID ++ listID.key
def issueKey (issueID : String) : String := storeIssueKey ++ "_" ++ issueID
def reminderKey (userID : String) : String := storeReminderKey ++ "_" ++ userID
def reminderEnabledKey (userID : String) : String := storeReminderEnabledKey ++ "_" ++ userID
def allowIncomingTaskRequestsKey (userID : String) : String := storeAllowIncomingTaskRequestsKey ++ "_" ++ userID

/-- An id as the server makes them: not empty, over the lower-case letters and the digits. -/
def IsId (s : String) : Prop := s ≠ "" ∧ ∀ c ∈ s.toList, c.isLower = true ∨ c.isDigit = true

instance (s : String) : Decidable (IsId s) :=
  haveI : Decidable (∀ c ∈ s.toList, c.isLower = true ∨ c.isDigit = true) := List.decidableBAll _ _
  inferInstanceAs (Decidable (_ ∧ _))

/-- A user, by the id the server knows them under. -/
structure UserID where
  val : String
  isId : IsId val
deriving DecidableEq

instance : Coe UserID String := ⟨UserID.val⟩

theorem UserID.ext_val {u v : UserID} (h : u.val = v.val) : u = v := by
  cases u; cases v; simpa using h

/-! ## Values -/

/-- What is stored under a key: a list in the current encoding, a non-empty list in the legacy one (an array of issue
ids, whose empty case is the current encoding's), an issue, or a plain text. -/
inductive Value where
  | refs (list : List IssueRef)
  | legacy (id : String) (ids : List String)
  | issue (issue : Issue)
  | text (text : String)
deriving DecidableEq, Repr

/-- The error of a decoder that meets a type it cannot decode into. -/
def jsonError : String := "json: cannot unmarshal"

def unmarshalRefs : Value → Except String (List IssueRef)
  | .refs list => .ok list
  | _          => .error jsonError

/-- An empty array is one in both encodings. -/
def unmarshalIDs : Value → Except String (List String)
  | .legacy id ids => .ok (id :: ids)
  | .refs []       => .ok []
  | _              => .error jsonError

def unmarshalIssue : Value → Except String Issue
  | .issue issue => .ok issue
  | _            => .error jsonError

/-- A reference as the legacy encoding has it: the issue alone. -/
def legacyRef (id : String) : IssueRef := ⟨id, "", ""⟩

/-! ## The keys of users are theirs -/

/-! The families of keys are told apart by their first letters, but for the two of reminders. -/

theorem head_listKey (u : String) (l : ListID) : (listKey u l).toList.head? = some 'o' := by
  simp [listKey, storeListKey]

theorem head_issueKey (id : String) : (issueKey id).toList.head? = some 'i' := by
  simp [issueKey, storeIssueKey]

theorem head_reminderKey (u : String) : (reminderKey u).toList.head? = some 'r' := by
  simp [reminderKey, storeReminderKey]

theorem head_reminderEnabledKey (u : String) : (reminderEnabledKey u).toList.head? = some 'r' := by
  simp [reminderEnabledKey, storeReminderEnabledKey]

theorem head_allowIncomingTaskRequestsKey (u : String) : (allowIncomingTaskRequestsKey u).toList.head? = some 'a' := by
  simp [allowIncomingTaskRequestsKey, storeAllowIncomingTaskRequestsKey]

theorem ne_of_head {a b : String} {c d : Char} (ha : a.toList.head? = some c) (hb : b.toList.head? = some d)
    (h : c ≠ d) : a ≠ b := by
  rintro rfl
  exact h (Option.some.inj (ha.symm.trans hb))

theorem listKey_ne_issueKey (u : String) (l : ListID) (id : String) : listKey u l ≠ issueKey id :=
  ne_of_head (head_listKey u l) (head_issueKey id) (by decide)

theorem issueKey_ne_listKey (u : String) (l : ListID) (id : String) : issueKey id ≠ listKey u l :=
  (listKey_ne_issueKey u l id).symm

theorem issueKey_inj {a b : String} : issueKey a = issueKey b ↔ a = b := String.append_right_inj _

theorem ne_underscore {s : List Char} (hs : ∀ c ∈ s, c.isLower = true ∨ c.isDigit = true) : ∀ c ∈ s, c ≠ '_' := by
  rintro c hc rfl
  have := hs _ hc
  revert this
  decide

/-- **An id ends where its list begins**: at the first underscore, which no id has. -/
theorem takeWhile_key {s : List Char} (hs : ∀ c ∈ s, c.isLower = true ∨ c.isDigit = true) (l : ListID) :
    (s ++ l.key.toList).takeWhile (fun c => decide (c ≠ '_')) = s := by
  rw [List.takeWhile_append_of_pos (fun c hc => decide_eq_true (ne_underscore hs c hc))]
  cases l <;> simp [ListID.key]

theorem ListID.key_inj {l m : ListID} (h : l.key = m.key) : l = m := by
  cases l <;> cases m <;> first | rfl | exact absurd h (by decide)

theorem append_key_inj {a b : List Char} (ha : ∀ c ∈ a, c.isLower = true ∨ c.isDigit = true)
    (hb : ∀ c ∈ b, c.isLower = true ∨ c.isDigit = true) (l m : ListID)
    (h : a ++ l.key.toList = b ++ m.key.toList) : a = b ∧ l = m := by
  have hab : a = b := by rw [← takeWhile_key ha l, h, takeWhile_key hb m]
  subst hab
  have hkey : l.key.toList = m.key.toList := List.append_cancel_left h
  exact ⟨rfl, ListID.key_inj (String.toList_inj.1 hkey)⟩

/-- **Two users' lists are under different keys.** -/
theorem listKey_inj {u v : UserID} {l m : ListID} : listKey u l = listKey v m ↔ u = v ∧ l = m := by
  refine ⟨fun h => ?_, fun ⟨hu, hl⟩ => by rw [hu, hl]⟩
  have := congrArg String.toList h
  simp only [listKey, String.toList_append, List.append_assoc, List.append_cancel_left_eq] at this
  obtain ⟨huv, hl⟩ := append_key_inj u.isId.2 v.isId.2 l m this
  exact ⟨UserID.ext_val (String.toList_inj.1 huv), hl⟩

theorem listKey_ne {u v : UserID} {l m : ListID} (h : l ≠ m) : listKey u l ≠ listKey v m := fun he => h (listKey_inj.1 he).2

end Todo

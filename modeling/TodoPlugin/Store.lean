import TodoPlugin.Api
/-!
# The list store

The functions of `store.go` on issues and lists.  A Go `error` next to a result is an `Except`; a pointer that may be
nil is an `Option`.

`AddReference`, `RemoveReference`, `PopReference` and `BumpReference` repeat one loop: read the list, edit it in
memory, compare and set it, and start again when something else changed the list in between, three times at most.
`editList` is that loop and `Edit` what the editing does; each of the four is `editList` of its own edit.
-/
namespace Todo

/-- How often a list is tried again on a race. -/
def storeRetries : Nat := 3

namespace Store

/-! ## Issues -/

def saveIssue (issue : Issue) : Api (Except String Unit) := Api.kvSet (issueKey issue.id) (.issue issue)

def getIssue (issueID : String) : Api (Except String Issue) := do
  match ← Api.kvGet (issueKey issueID) with
  | .error e => return .error e
  | .ok none => return .error "cannot find issue"
  | .ok (some originalJSONIssue) => return unmarshalIssue originalJSONIssue

def removeIssue (issueID : String) : Api (Except String Unit) := Api.kvDelete (issueKey issueID)

def getAndRemoveIssue (issueID : String) : Api (Except String Issue) := do
  match ← getIssue issueID with
  | .error e => return .error e
  | .ok issue =>
    match ← removeIssue issueID with
    | .error e => return .error e
    | .ok () => return .ok issue

/-! ## Reading lists -/

def legacyIssueRef (userID : String) (listID : ListID) : Api (Except String (List IssueRef × Option Value)) := do
  match ← Api.kvGet (listKey userID listID) with
  | .error e => return .error e
  | .ok none => return .ok ([], none)
  | .ok (some originalJSONList) =>
    match unmarshalIDs originalJSONList with
    | .error e => return .error e
    | .ok list => return .ok (list.map legacyRef, some originalJSONList)

/-- The list, and the bytes to compare against when it is set. -/
def getList (userID : String) (listID : ListID) : Api (Except String (List IssueRef × Option Value)) := do
  match ← Api.kvGet (listKey userID listID) with
  | .error e => return .error e
  | .ok none => return .ok ([], none)
  | .ok (some originalJSONList) =>
    match unmarshalRefs originalJSONList with
    | .error _ => legacyIssueRef userID listID
    | .ok list => return .ok (list, some originalJSONList)

/-- `GetList`. -/
def getRefs (userID : String) (listID : ListID) : Api (Except String (List IssueRef)) := do
  match ← getList userID listID with
  | .error e => return .error e
  | .ok (irs, _) => return .ok irs

def saveList (userID : String) (listID : ListID) (list : List IssueRef) (originalJSONList : Option Value) :
    Api (Except String Bool) :=
  Api.kvCompareAndSet (listKey userID listID) originalJSONList (.refs list)

/-- The first reference to the issue, and its position counted from `i`. -/
def findRef (issueID : String) : Nat → List IssueRef → Option (IssueRef × Nat)
  | _, []         => none
  | i, ir :: list => if ir.issueID = issueID then some (ir, i) else findRef issueID (i + 1) list

def lookupRef (issueID : String) (list : List IssueRef) : Except String (IssueRef × Nat) :=
  match findRef issueID 0 list with
  | some (ir, i) => .ok (ir, i)
  | none => .error "cannot find issue"

def getIssueReference (userID issueID : String) (listID : ListID) : Api (Except String (IssueRef × Nat)) := do
  match ← Api.kvGet (listKey userID listID) with
  | .error e => return .error e
  | .ok none => return .error "cannot load list"
  | .ok (some originalJSONList) =>
    match unmarshalRefs originalJSONList with
    | .ok list => return lookupRef issueID list
    | .error _ =>
      match ← legacyIssueRef userID listID with
      | .error e => return .error e
      | .ok (list, _) => return lookupRef issueID list

/-- The list the issue is found in, `""` (the name of the owned list) when it is in none. -/
def getIssueListAndReference (userID issueID : String) : Api (ListID × Option IssueRef × Nat) := do
  match ← getIssueReference userID issueID .myList with
  | .ok (ir, n) => return (.myList, some ir, n)
  | .error _ =>
    match ← getIssueReference userID issueID .outList with
    | .ok (ir, n) => return (.outList, some ir, n)
    | .error _ =>
      match ← getIssueReference userID issueID .inList with
      | .ok (ir, n) => return (.inList, some ir, n)
      | .error _ => return (.myList, none, 0)

/-! ## Changing lists -/

/-- What the middle of the loop makes of the list it read. -/
inductive Edit (α : Type) where
  | fail (err : String)
  | panic
  | save (a : α) (list : List IssueRef)

/-- The loop of the four operations on lists, `n` tries from giving up with `exhausted`. -/
def editList {α : Type} (userID : String) (listID : ListID) (edit : List IssueRef → Edit α) (exhausted : String) :
    Nat → Api (Except String α)
  | 0     => return .error exhausted
  | n + 1 => do
    match ← getList userID listID with
    | .error e => return .error e
    | .ok (list, originalJSONList) =>
      match edit list with
      | .fail e => return .error e
      | .panic => .panic
      | .save a newList =>
        match ← saveList userID listID newList originalJSONList with
        | .error e => return .error e
        | .ok true => return .ok a
        | .ok false => editList userID listID edit exhausted n

def addEdit (ref : IssueRef) (list : List IssueRef) : Edit Unit :=
  if list.any (fun ir => ir.issueID == ref.issueID) then .fail "issue id already exists in list"
  else .save () (list ++ [ref])

def addReference (userID issueID : String) (listID : ListID) (foreignUserID foreignIssueID : String) :
    Api (Except String Unit) :=
  editList userID listID (addEdit ⟨issueID, foreignIssueID, foreignUserID⟩) "unable to store installation" storeRetries

/-- The loop of `RemoveReference` from index `i`, with `n` elements of the range to go: `a` is the backing array the
range reads from, `len` the length of the slice, which each splice makes one shorter while it shifts the array in
place.  `none` when the splice slices past the end. -/
def spliceLoop (issueID : String) : Nat → Nat → List IssueRef → Nat → Bool → Option (List IssueRef × Bool)
  | 0, _, a, len, found     => some (a.take len, found)
  | n + 1, i, a, len, found =>
    match a[i]? with
    | none => none
    | some ir =>
      if ir.issueID = issueID then
        if i + 1 ≤ len then
          spliceLoop issueID n (i + 1) (a.take i ++ (a.take len).drop (i + 1) ++ a.drop (len - 1)) (len - 1) true
        else none
      else spliceLoop issueID n (i + 1) a len found

def removeEdit (issueID : String) (list : List IssueRef) : Edit Unit :=
  match spliceLoop issueID list.length 0 list list.length false with
  | none => .panic
  | some (_, false) => .fail "cannot find issue"
  | some (newList, true) => .save () newList

def removeReference (userID issueID : String) (listID : ListID) : Api (Except String Unit) :=
  editList userID listID (removeEdit issueID) "unable to store list" storeRetries

def popEdit : List IssueRef → Edit IssueRef
  | []         => .fail "cannot find issue"
  | ir :: list => .save ir list

def popReference (userID : String) (listID : ListID) : Api (Except String IssueRef) :=
  editList userID listID popEdit "unable to store list" storeRetries

/-- The loop of `BumpReference` from index `i`: the index and the element it stops at, those of the last element when
it runs out, and the ones it started with when there is none. -/
def bumpLoop (issueID : String) : Nat → List IssueRef → Nat × Option IssueRef → Nat × Option IssueRef
  | _, [], last         => last
  | i, ir :: list, _    => if issueID = ir.issueID then (i, some ir) else bumpLoop issueID (i + 1) list (i, some ir)

def bumpEdit (issueID : String) (list : List IssueRef) : Edit Unit :=
  match bumpLoop issueID 0 list (0, none) with
  | (i, ir) =>
    if i = list.length then .fail "cannot find issue"
    else .save () (ir.toList ++ list.take i ++ list.drop (i + 1))

def bumpReference (userID issueID : String) (listID : ListID) : Api (Except String Unit) :=
  editList userID listID (bumpEdit issueID) "unable to store list" storeRetries

end Store
end Todo

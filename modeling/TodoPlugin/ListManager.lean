import TodoPlugin.Store
/-!
# The list manager

The functions of `list.go`.  Where the source returns several results next to an error, they are a structure with the
error as an `Option` (`none` is nil), so that what comes with an error is kept; the issue a caller reads after the error
check is an `Option` because the source returns a pointer.
-/
namespace Todo

/-- `CompleteIssue`'s results. -/
structure CompleteResult where
  issue        : Option Issue
  foreignID    : String
  listToUpdate : ListID
  err          : Option String
deriving DecidableEq, Repr

/-- `RemoveIssue`'s results. -/
structure RemoveResult where
  outIssue     : Option Issue
  foreignID    : String
  isSender     : Bool
  listToUpdate : ListID
  err          : Option String
deriving DecidableEq, Repr

/-- `PopIssue`'s results. -/
structure PopResult where
  issue     : Option Issue
  foreignID : String
  err       : Option String
deriving DecidableEq, Repr

/-- `EditIssue`'s results. -/
structure EditResult where
  foreignUserID : String
  list          : ListID
  oldMessage    : String
  err           : Option String
deriving DecidableEq, Repr

/-- `ChangeAssignment`'s results. -/
structure ChangeResult where
  issue    : Option Issue
  oldOwner : String
  err      : Option String
deriving DecidableEq, Repr

/-- `AcceptIssue`'s results. -/
structure AcceptResult where
  todoMessage   : String
  foreignUserID : String
  outErr        : Option String
deriving DecidableEq, Repr

/-- `BumpIssue`'s results. -/
structure BumpResult where
  todo           : Option Issue
  receiver       : String
  foreignIssueID : String
  outErr         : Option String
deriving DecidableEq, Repr

/-- An issue with what the front-end shows of its other side. -/
structure ExtendedIssue where
  issue           : Issue
  foreignUser     : String
  foreignList     : String
  foreignPosition : Nat
deriving DecidableEq, Repr

structure ListsIssue where
  inIssues  : List ExtendedIssue
  myIssues  : List ExtendedIssue
  outIssues : List ExtendedIssue
deriving DecidableEq, Repr

def newIssue (message postPermalink description postID : String) : Api Issue := do
  let id ← Api.newId
  let createAt ← Api.getMillis
  return ⟨id, message, postPermalink, description, createAt, postID⟩

namespace ListManager

open Store (saveIssue getIssue getAndRemoveIssue getIssueReference getIssueListAndReference addReference
  removeReference popReference bumpReference)

def addIssue (userID message postPermalink description postID : String) : Api (Except String Issue) := do
  let issue ← newIssue message postPermalink description postID
  match ← saveIssue issue with
  | .error err => return .error err
  | .ok () =>
    match ← addReference userID issue.id .myList "" "" with
    | .error err =>
      let _ ← Store.removeIssue issue.id
      return .error err
    | .ok () => return .ok issue

def sendIssue (senderID receiverID message postPermalink description postID : String) : Api (Except String String) := do
  let senderIssue ← newIssue message postPermalink description postID
  match ← saveIssue senderIssue with
  | .error err => return .error err
  | .ok () =>
    let receiverIssue ← newIssue message postPermalink description postID
    match ← saveIssue receiverIssue with
    | .error err =>
      let _ ← Store.removeIssue senderIssue.id
      return .error err
    | .ok () =>
      match ← addReference senderID senderIssue.id .outList receiverID receiverIssue.id with
      | .error err =>
        let _ ← Store.removeIssue senderIssue.id
        let _ ← Store.removeIssue receiverIssue.id
        return .error err
      | .ok () =>
        match ← addReference receiverID receiverIssue.id .inList senderID senderIssue.id with
        | .error err =>
          let _ ← Store.removeIssue senderIssue.id
          let _ ← Store.removeIssue receiverIssue.id
          let _ ← removeReference senderID senderIssue.id .outList
          return .error err
        | .ok () => return .ok receiverIssue.id

def completeIssue (userID issueID : String) : Api CompleteResult := do
  match ← getIssueListAndReference userID issueID with
  | (issueList, none, _) => return ⟨none, "", issueList, some "cannot find element"⟩
  | (issueList, some ir, _) =>
    match ← removeReference userID issueID issueList with
    | .error err => return ⟨none, "", issueList, some err⟩
    | .ok () =>
      let issue ← getAndRemoveIssue issueID
      if ir.foreignUserID = "" then return ⟨issue.toOption, "", issueList, none⟩
      else
        let _ ← removeReference ir.foreignUserID ir.foreignIssueID .outList
        let issue ← getAndRemoveIssue ir.foreignIssueID
        return ⟨issue.toOption, ir.foreignUserID, issueList, none⟩

def editIssue (userID issueID newMessage newDescription : String) : Api EditResult := do
  match ← getIssue issueID with
  | .error err => return ⟨"", .myList, "", some err⟩
  | .ok issue =>
    match ← getIssueListAndReference userID issueID with
    | (_, none, _) => return ⟨"", .myList, "", some "reference not found"⟩
    | (list, some ir, _) =>
      let oldMessage ←
        if ir.foreignIssueID ≠ "" then do
          match ← getIssue ir.foreignIssueID with
          | .error _ => pure ""
          | .ok foreignIssue =>
            -- a failure to save the foreign copy is only logged
            let _ ← saveIssue { foreignIssue with message := newMessage, description := newDescription }
            pure foreignIssue.message
        else pure ""
      match ← saveIssue { issue with message := newMessage, description := newDescription } with
      | .error err => return ⟨"", .myList, "", some err⟩
      | .ok () => return ⟨ir.foreignUserID, list, oldMessage, none⟩

/-- The end of `ChangeAssignment`: the copy for the receiver and the references of both sides. -/
def assign (issueID userID sendTo oldOwner : String) (issue : Issue) : Api ChangeResult := do
  let receiverIssue ← newIssue issue.message issue.postPermalink issue.description issue.postID
  match ← saveIssue receiverIssue with
  | .error err => return ⟨none, "", some err⟩
  | .ok () =>
    match ← addReference userID issueID .outList sendTo receiverIssue.id with
    | .error err => return ⟨none, "", some err⟩
    | .ok () =>
      match ← addReference sendTo receiverIssue.id .inList userID issue.id with
      | .error err => return ⟨none, "", some err⟩
      | .ok () => return ⟨some issue, oldOwner, none⟩

/-- `ChangeAssignment` once the previous receiver's side is gone. -/
def reassign (issueID userID sendTo : String) (list : ListID) (ir : IssueRef) (issue : Issue) : Api ChangeResult := do
  if userID = sendTo ∧ list = .outList then
    match ← removeReference userID issueID .outList with
    | .error err => return ⟨none, "", some err⟩
    | .ok () =>
      match ← addReference userID issueID .myList "" "" with
      | .error err => return ⟨none, "", some err⟩
      | .ok () => return ⟨some issue, ir.foreignUserID, none⟩
  else if userID ≠ sendTo then
    match ← removeReference userID issueID list with
    | .error err => return ⟨none, "", some err⟩
    | .ok () => assign issueID userID sendTo ir.foreignUserID issue
  else assign issueID userID sendTo ir.foreignUserID issue

def changeAssignment (issueID userID sendTo : String) : Api ChangeResult := do
  match ← getIssue issueID with
  | .error err => return ⟨none, "", some err⟩
  | .ok issue =>
    match ← getIssueListAndReference userID issueID with
    | (_, none, _) => return ⟨none, "", some "reference not found"⟩
    | (list, some ir, _) =>
      if list = .inList ∨ (ir.foreignIssueID ≠ "" ∧ list = .myList) then
        return ⟨none, "", some "trying to change the assignment of a todo not owned"⟩
      else if ir.foreignUserID ≠ "" then
        match ← getIssueListAndReference ir.foreignUserID ir.foreignIssueID with
        | (_, none, _) => return ⟨none, "", some "reference not found"⟩
        | (foreignList, some _, _) =>
          match ← removeReference ir.foreignUserID ir.foreignIssueID foreignList with
          | .error err => return ⟨none, "", some err⟩
          | .ok () =>
            let _ ← getAndRemoveIssue ir.foreignIssueID
            reassign issueID userID sendTo list ir issue
      else reassign issueID userID sendTo list ir issue

/-- The message with the permalink under it, if there is one. -/
def withPermalink (message postPermalink : String) : String :=
  if postPermalink ≠ "" then message ++ "\n[Permalink](" ++ postPermalink ++ ")" else message

def acceptIssue (userID issueID : String) : Api AcceptResult := do
  match ← getIssue issueID with
  | .error err => return ⟨"", "", some err⟩
  | .ok issue =>
    match ← getIssueReference userID issueID .inList with
    | .error err => return ⟨"", "", some err⟩
    | .ok (ir, _) =>
      match ← addReference userID issueID .myList ir.foreignUserID ir.foreignIssueID with
      | .error err => return ⟨"", "", some err⟩
      | .ok () =>
        match ← removeReference userID issueID .inList with
        | .error err =>
          let _ ← removeReference userID issueID .myList
          return ⟨"", "", some err⟩
        | .ok () => return ⟨withPermalink issue.message issue.postPermalink, ir.foreignUserID, none⟩

def removeIssue (userID issueID : String) : Api RemoveResult := do
  match ← getIssueListAndReference userID issueID with
  | (issueList, none, _) => return ⟨none, "", false, issueList, some "cannot find element"⟩
  | (issueList, some ir, _) =>
    match ← removeReference userID issueID issueList with
    | .error err => return ⟨none, "", false, issueList, some err⟩
    | .ok () =>
      let issue ← getAndRemoveIssue issueID
      if ir.foreignUserID = "" then return ⟨issue.toOption, "", false, issueList, none⟩
      else
        -- a counterpart that is not found leaves `list` at "", the owned list
        let (list, _, _) ← getIssueListAndReference ir.foreignUserID ir.foreignIssueID
        let _ ← removeReference ir.foreignUserID ir.foreignIssueID list
        let issue ← getAndRemoveIssue ir.foreignIssueID
        return ⟨issue.toOption, ir.foreignUserID, list = .outList, issueList, none⟩

def popIssue (userID : String) : Api PopResult := do
  match ← popReference userID .myList with
  | .error err => return ⟨none, "", some err⟩
  | .ok ir =>
    let issue ← getAndRemoveIssue ir.issueID
    if ir.foreignUserID = "" then return ⟨issue.toOption, "", none⟩
    else
      let _ ← removeReference ir.foreignUserID ir.foreignIssueID .outList
      let issue ← getAndRemoveIssue ir.foreignIssueID
      return ⟨issue.toOption, ir.foreignUserID, none⟩

def bumpIssue (userID issueID : String) : Api BumpResult := do
  match ← getIssueReference userID issueID .outList with
  | .error err => return ⟨none, "", "", some err⟩
  | .ok (ir, _) =>
    match ← bumpReference ir.foreignUserID ir.foreignIssueID .inList with
    | .error err => return ⟨none, "", "", some err⟩
    | .ok () =>
      match ← getIssue ir.foreignIssueID with
      | .error _ => return ⟨none, "", "", none⟩
      | .ok issue => return ⟨some issue, ir.foreignUserID, ir.foreignIssueID, none⟩

/-! ## Reading -/

def getUserName (userID : String) : Api String := do
  match ← Api.getUser userID with
  | .error _ => return "Someone"
  | .ok user => return user.username

/-- The name the front-end has for a list: `MyListKey`, `InFlag` or `OutFlag`. -/
def listName : ListID → String
  | .myList  => ""
  | .inList  => "in"
  | .outList => "out"

def extendIssueInfo (issue : Issue) (ir : IssueRef) : Api ExtendedIssue := do
  if ir.foreignUserID = "" then return ⟨issue, "", "", 0⟩
  else
    let (list, _, n) ← getIssueListAndReference ir.foreignUserID ir.foreignIssueID
    let userName ← getUserName ir.foreignUserID
    return ⟨issue, userName, listName list, n⟩

/-- The loop of `GetIssueList`: a reference whose issue cannot be read is left out. -/
def extendRefs : List IssueRef → Api (List ExtendedIssue)
  | []        => return []
  | ir :: irs => do
    match ← getIssue ir.issueID with
    | .error _ => extendRefs irs
    | .ok issue =>
      let extendedIssue ← extendIssueInfo issue ir
      let extendedIssues ← extendRefs irs
      return extendedIssue :: extendedIssues

def getIssueList (userID : String) (listID : ListID) : Api (Except String (List ExtendedIssue)) := do
  match ← Store.getRefs userID listID with
  | .error err => return .error err
  | .ok irs =>
    let extendedIssues ← extendRefs irs
    return .ok extendedIssues

def getAllList (userID : String) : Api (Except String ListsIssue) := do
  match ← getIssueList userID .inList with
  | .error err => return .error err
  | .ok inListIssue =>
    match ← getIssueList userID .myList with
    | .error err => return .error err
    | .ok myListIssue =>
      match ← getIssueList userID .outList with
      | .error err => return .error err
      | .ok outListIssue => return .ok ⟨inListIssue, myListIssue, outListIssue⟩

end ListManager
end Todo

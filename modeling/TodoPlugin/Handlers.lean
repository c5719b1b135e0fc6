import TodoPlugin.Serializer
import TodoPlugin.Preferences
import TodoPlugin.Bot
import Mathlib.Algebra.Group.Nat.Defs
/-!
# HTTP handlers

The handlers of `plugin.go`, for the user the server puts in the `Mattermost-User-ID` header.  What a handler writes is
its result: every one writes once, and an error before it returns.  The configuration and telemetry endpoints touch no
todo and are left out.
-/
namespace Todo

/-- What the client is sent. -/
inductive Response where
  | ok
  | lists (lists : ListsIssue)
  | error (code : Nat) (error details : String)
  | text (code : Nat) (text : String)

/-- How a handler starts: a body that does not decode and one that does not pass its check are bad requests. -/
def withPayload {α : Type} (body : Body α) (isValid : Option α → Option String) (decodeMsg validMsg : String)
    (handle : α → Api Response) : Api Response :=
  match body with
  | .error err => return .error 400 decodeMsg err
  | .ok request =>
    match isValid request with
    | some err => return .error 400 validMsg err
    | none =>
      match request with
      | none => .panic
      | some request => handle request

/-- Reading through a pointer the list manager returned. -/
def deref (issue : Option Issue) : Api Issue :=
  match issue with
  | some issue => return issue
  | none       => .panic

open ListManager (getUserName)

/-- `ErrorMsgAddIssue`. -/
def errorMsgAddIssue : String := "Unable to add issue"

/-- Adding a todo of the caller's own, whose texts are passed in the order of the arguments of `AddIssue`. -/
def addOwn (userID senderName : String) (addRequest : AddAPIRequest) (postPermalink description postID : String) :
    Api Response := do
  match ← ListManager.addIssue userID addRequest.message postPermalink description postID with
  | .error err => return .error 500 errorMsgAddIssue err
  | .ok _ =>
    sendRefreshEvent userID [.myList]
    let replyMessage := "@" ++ senderName ++ " attached a todo to this thread"
    postReplyIfNeeded addRequest.postID replyMessage addRequest.message addRequest.postPermalink
    return .ok

/-- Sending a todo, once its receiver allows it. -/
def addSent (userID senderName : String) (receiver : User) (addRequest : AddAPIRequest) : Api Response := do
  match ← ListManager.sendIssue userID receiver.id addRequest.message addRequest.postPermalink addRequest.description
    addRequest.postID with
  | .error err => return .error 500 "Unable to send issue" err
  | .ok issueID =>
    sendRefreshEvent userID [.outList]
    sendRefreshEvent receiver.id [.inList]
    let receiverMessage := "You have received a new Todo from @" ++ senderName
    postBotCustomDM receiver.id receiverMessage addRequest.message addRequest.postPermalink issueID
    let replyMessage := "@" ++ senderName ++ " sent @" ++ addRequest.sendTo ++ " a todo attached to this thread"
    postReplyIfNeeded addRequest.postID replyMessage addRequest.message addRequest.postPermalink
    return .ok

def handleAdd (userID : String) (body : Body AddAPIRequest) : Api Response :=
  withPayload body AddAPIRequest.isValid "Unable to get add issue payload from JSON"
    "Unable to validate add issue payload." fun addRequest => do
  let senderName ← getUserName userID
  if addRequest.sendTo = "" then
    addOwn userID senderName addRequest addRequest.postPermalink addRequest.description addRequest.postID
  else
    match ← Api.getUserByUsername addRequest.sendTo with
    | .error appErr => return .error 500 "Unable to find user" appErr
    | .ok receiver =>
      if receiver.id.val = userID then
        -- not the order of the call above
        addOwn userID senderName addRequest addRequest.description addRequest.postID addRequest.postPermalink
      else
        let (preference, err) ← getAllowIncomingTaskRequestsPreference receiver.id
        let preference := if err.isSome then true else preference
        if preference then addSent userID senderName receiver addRequest
        else
          postBotDM userID ("@" ++ receiver.username ++ " has blocked Todo requests")
          return .ok

/-! ## Listing -/

/-- The year, month and day of a day counted from 1 January 1970. -/
def civilDate (day : Int) : Int × Int × Int :=
  let z := day + 719468
  let era := z / 146097
  let doe := z % 146097
  let yoe := (doe - doe / 1460 + doe / 36524 - doe / 146096) / 365
  let doy := doe - (365 * yoe + yoe / 4 - yoe / 100)
  let mp := (5 * doy + 2) / 153
  let month := if mp < 10 then mp + 3 else mp - 9
  (yoe + era * 400 + (if month ≤ 2 then 1 else 0), month, doy - (153 * mp + 2) / 5 + 1)

example : civilDate 0 = (1970, 1, 1) ∧ civilDate 11016 = (2000, 2, 29) ∧ civilDate (-1) = (1969, 12, 31) := by decide

/-- The date of a second in a zone so many seconds ahead of UTC.  The seconds are unbounded, where a `time.Time` wraps
around at offsets of some 10^17 minutes. -/
def localDate (zone sec : Int) : Int × Int × Int := civilDate ((sec + zone) / 86400)

/-- It is another day for the user than at the last reminder, and at least an hour after it. -/
def reminderDue (zone now lastReminderAt : Int) : Bool :=
  let nt := now.tdiv 1000
  let lt := lastReminderAt.tdiv 1000
  3600 ≤ nt - lt && localDate zone nt ≠ localDate zone lt

/-- `reminder` is the query's, `timezoneOffset` the header's, in minutes behind UTC. -/
def handleLists (userID reminder timezoneOffset : String) : Api Response := do
  match ← ListManager.getAllList userID with
  | .error err => return .error 500 "Unable to get issues for user" err
  | .ok allListIssue =>
    if allListIssue.myIssues.length > 0 ∧ reminder = "true" then
      if ← getReminderPreference userID then
        match ← getLastReminderTimeForUser userID with
        | .error err => return .error 500 "Unable to send reminder" err
        | .ok lastReminderAt =>
          let zone := (-60 * (parseInt timezoneOffset).1).bmod (2 ^ 64)
          let now ← Api.getMillis
          if reminderDue zone now lastReminderAt then
            let list ← issuesListToString allListIssue.myIssues
            postBotDM userID ("Daily Reminder:\n\n" ++ list)
            let _ ← saveLastReminderTimeForUser userID
            return .lists allListIssue
          else return .lists allListIssue
      else return .lists allListIssue
    else return .lists allListIssue

/-! ## Changing a todo -/

def handleEdit (userID : String) (body : Body EditAPIRequest) : Api Response :=
  withPayload body EditAPIRequest.isValid "Unable to get edit issue payload from JSON"
    "Unable to validate edit issue payload." fun editRequest => do
  let res ← ListManager.editIssue userID editRequest.id editRequest.message editRequest.description
  match res.err with
  | some err => return .error 500 "Unable to edit message" err
  | none =>
    sendRefreshEvent userID [res.list]
    if res.foreignUserID ≠ "" then
      sendRefreshEvent res.foreignUserID (if res.list = .outList then [.myList, .inList] else [.outList])
      let userName ← getUserName userID
      postBotDM res.foreignUserID
        ("@" ++ userName ++ " modified a Todo from:\n" ++ res.oldMessage ++ "\nTo:\n" ++ editRequest.message)
      return .ok
    else return .ok

/-- What `handleChangeAssignment` tells the new receiver. -/
def announceReceived (userID userName : String) (receiver : User) (changeRequest : ChangeAssignmentAPIRequest)
    (issue : Option Issue) : Api Unit := do
  if receiver.id.val ≠ userID then
    sendRefreshEvent receiver.id [.inList]
    let issue ← deref issue
    postBotCustomDM receiver.id ("You have received a new Todo from @" ++ userName) issue.message issue.postPermalink
      changeRequest.id
  else return ()

/-- What `handleChangeAssignment` tells the old one. -/
def announceTaken (userName oldOwner : String) (issue : Option Issue) : Api Unit := do
  if oldOwner ≠ "" then
    sendRefreshEvent oldOwner [.inList, .myList]
    let issue ← deref issue
    postBotDM oldOwner ("@" ++ userName ++ " removed you from Todo:\n" ++ issue.message)
  else return ()

def handleChangeAssignment (userID : String) (body : Body ChangeAssignmentAPIRequest) : Api Response :=
  withPayload body ChangeAssignmentAPIRequest.isValid "Unable to get change request payload from JSON"
    "Unable to validate change request payload." fun changeRequest => do
  match ← Api.getUserByUsername changeRequest.sendTo with
  | .error appErr => return .error 404 "username not valid" appErr
  | .ok receiver =>
    let res ← ListManager.changeAssignment changeRequest.id userID receiver.id
    match res.err with
    | some err => return .error 500 "Unable to change the assignment of an issue" err
    | none =>
      sendRefreshEvent userID [.myList, .outList]
      let userName ← getUserName userID
      announceReceived userID userName receiver changeRequest res.issue
      announceTaken userName res.oldOwner res.issue
      return .ok

def handleAccept (userID : String) (body : Body AcceptAPIRequest) : Api Response :=
  withPayload body AcceptAPIRequest.isValid "Unable to get accept request payload from JSON"
    "Unable to validate accept request payload." fun acceptRequest => do
  let res ← ListManager.acceptIssue userID acceptRequest.id
  match res.outErr with
  | some err => return .error 500 "Unable to accept issue" err
  | none =>
    sendRefreshEvent userID [.myList, .inList]
    sendRefreshEvent res.foreignUserID [.outList]
    let userName ← getUserName userID
    postBotDM res.foreignUserID ("@" ++ userName ++ " accepted a Todo you sent: " ++ res.todoMessage)
    return .ok

/-- What `handleComplete` does once the todo is completed, with `issue` the pointer it reads. -/
def announceComplete (userID : String) (issue : Option Issue) (foreignID : String) (listToUpdate : ListID) :
    Api Response := do
  sendRefreshEvent userID [listToUpdate]
  let userName ← getUserName userID
  let issue ← deref issue
  postReplyIfNeeded issue.postID ("@" ++ userName ++ " completed a todo attached to this thread") issue.message
    issue.postPermalink
  if foreignID = "" then return .ok
  else
    sendRefreshEvent foreignID [.outList]
    postBotDM foreignID ("@" ++ userName ++ " completed a Todo you sent: " ++
      ListManager.withPermalink issue.message issue.postPermalink)
    return .ok

def handleComplete (userID : String) (body : Body CompleteAPIRequest) : Api Response :=
  withPayload body CompleteAPIRequest.isValid "Unable to get complete issue request payload from JSON"
    "Unable to validate complete issue request payload." fun completeRequest => do
  let res ← ListManager.completeIssue userID completeRequest.id
  match res.err with
  | some err => return .error 500 "Unable to complete issue" err
  | none => announceComplete userID res.issue res.foreignID res.listToUpdate

/-- What `handleRemove` does once the todo is removed, with `issue` the pointer it reads. -/
def announceRemove (userID : String) (issue : Option Issue) (foreignID : String) (isSender : Bool)
    (listToUpdate : ListID) : Api Response := do
  sendRefreshEvent userID [listToUpdate]
  let userName ← getUserName userID
  let issue ← deref issue
  postReplyIfNeeded issue.postID ("@" ++ userName ++ " removed a todo attached to this thread") issue.message
    issue.postPermalink
  if foreignID = "" then return .ok
  else
    let message := if isSender then "@" ++ userName ++ " declined a Todo you sent: " ++ issue.message
      else "@" ++ userName ++ " removed a Todo you received: " ++ issue.message
    sendRefreshEvent foreignID [if isSender then .outList else .inList]
    postBotDM foreignID (ListManager.withPermalink message issue.postPermalink)
    return .ok

def handleRemove (userID : String) (body : Body RemoveAPIRequest) : Api Response :=
  withPayload body RemoveAPIRequest.isValid "Unable to get remove issue request payload from JSON"
    "Unable to validate remove issue request payload." fun removeRequest => do
  let res ← ListManager.removeIssue userID removeRequest.id
  match res.err with
  | some err => return .error 500 "Unable to remove issue" err
  | none => announceRemove userID res.outIssue res.foreignID res.isSender res.listToUpdate

/-- What `handleBump` does once the todo is bumped, with `todo` the pointer it reads. -/
def announceBump (userID : String) (todo : Option Issue) (foreignUser foreignIssueID : String) : Api Response := do
  if foreignUser = "" then return .ok
  else
    sendRefreshEvent foreignUser [.inList]
    let userName ← getUserName userID
    let todo ← deref todo
    postBotCustomDM foreignUser ("@" ++ userName ++ " bumped a Todo you received.") todo.message todo.postPermalink
      foreignIssueID
    return .ok

def handleBump (userID : String) (body : Body BumpAPIRequest) : Api Response :=
  withPayload body BumpAPIRequest.isValid "Unable to get bump issue request payload from JSON"
    "Unable to validate bump request payload." fun bumpRequest => do
  let res ← ListManager.bumpIssue userID bumpRequest.id
  match res.outErr with
  | some err => return .error 500 "Unable to bump issue" err
  | none => announceBump userID res.todo res.receiver res.foreignIssueID

/-! ## Requests -/

/-- A request the router knows, by its path. -/
inductive Request where
  | add (body : Body AddAPIRequest)
  | lists (reminder timezoneOffset : String)
  | remove (body : Body RemoveAPIRequest)
  | complete (body : Body CompleteAPIRequest)
  | accept (body : Body AcceptAPIRequest)
  | bump (body : Body BumpAPIRequest)
  | edit (body : Body EditAPIRequest)
  | changeAssignment (body : Body ChangeAssignmentAPIRequest)

/-- The handler the router has for a request. -/
def Request.handler (userID : String) : Request → Api Response
  | .add body                        => handleAdd userID body
  | .lists reminder timezoneOffset   => handleLists userID reminder timezoneOffset
  | .remove body                     => handleRemove userID body
  | .complete body                   => handleComplete userID body
  | .accept body                     => handleAccept userID body
  | .bump body                       => handleBump userID body
  | .edit body                       => handleEdit userID body
  | .changeAssignment body           => handleChangeAssignment userID body

def checkAuth (userID : String) (handler : Api Response) : Api Response :=
  if userID = "" then return .text 401 "Not authorized" else handler

/-- A handler's panic is caught: what was written by then, nothing, is what the client is sent. -/
def withRecovery (next : Api Response) : Api Response := next.recover .ok

def serveHTTP (userID : String) (request : Request) : Api Response :=
  withRecovery (checkAuth userID (request.handler userID))

end Todo

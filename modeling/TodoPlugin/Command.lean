import TodoPlugin.Handlers
/-!
# Commands

The `/todo` command of `command.go`.  A handler of a command answers whether an error is the user's, and the error.
-/
namespace Todo

/-! ## Splitting a command -/

/-- `unicode.IsSpace`, what `strings.TrimSpace` trims. -/
def isSpace (c : Char) : Bool :=
  c.val ∈ [0x09, 0x0A, 0x0B, 0x0C, 0x0D, 0x20, 0x85, 0xA0, 0x1680, 0x2028, 0x2029, 0x202F, 0x205F, 0x3000] ||
    (0x2000 ≤ c.val && c.val ≤ 0x200A)

/-- What `\s` matches. -/
def isReSpace (c : Char) : Bool := c.val ∈ [0x09, 0x0A, 0x0C, 0x0D, 0x20]

def trimSpace (cs : List Char) : List Char := ((cs.dropWhile isSpace).reverse.dropWhile isSpace).reverse

/-- Every run of `\s` replaced by one blank, `run` when the character before was in one. -/
def replaceSpaces (run : Bool) : List Char → List Char
  | []      => []
  | c :: cs =>
    if isReSpace c then if run then replaceSpaces true cs else ' ' :: replaceSpaces true cs
    else c :: replaceSpaces false cs

/-- `strings.Split` at blanks: never empty. -/
def splitBlanks : List Char → List Char × List (List Char)
  | []      => ([], [])
  | c :: cs =>
    if c = ' ' then ([], (splitBlanks cs).1 :: (splitBlanks cs).2) else (c :: (splitBlanks cs).1, (splitBlanks cs).2)

/-- The words of a command, the first and the rest. -/
def stringArgs (command : String) : String × List String :=
  let words := splitBlanks (replaceSpaces false (trimSpace command.toList))
  (String.ofList words.1, words.2.map String.ofList)

example : stringArgs " /todo  send\t@bob a b " = ("/todo", ["send", "@bob", "a", "b"]) := by decide

/-! ## Texts -/

def listHeaderMessage : String := " Todo List:\n\n"

def getHelp : String := "\n".intercalate [
  "Available Commands:", "",
  "add [message]", "\tAdds a Todo.", "",
  "\texample: /todo add Don't forget to be awesome", "",
  "list", "\tLists your Todo issues.", "",
  "list [listName]", "\tList your issues in certain list", "",
  "\texample: /todo list in", "\texample: /todo list out", "\texample (same as /todo list): /todo list my", "",
  "pop", "\tRemoves the Todo issue at the top of the list.", "",
  "send [user] [message]", "\tSends some user a Todo", "",
  "\texample: /todo send @awesomePerson Don't forget to be awesome", "",
  "settings summary [on, off]", "\tSets user preference on daily reminders", "",
  "\texample: /todo settings summary on", "",
  "settings allow_incoming_task_requests [on, off]",
  "\tAllow other Mattermost users to send a task for you to accept/decline?", "",
  "\texample: /todo settings allow_incoming_task_requests on", "", "",
  "help", "\tDisplay usage.", ""]

def getSummarySetting (flag : Bool) : String :=
  if flag then "Reminder setting is set to `on`. **You will receive daily reminders.**"
  else "Reminder setting is set to `off`. **You will not receive daily reminders.**"

def getAllowIncomingTaskRequestsSetting (flag : Bool) : String :=
  if flag then "Allow incoming task requests setting is set to `on`. **Other users can send you task request that you " ++
    "can accept/decline.**"
  else "Allow incoming task requests setting is set to `off`. **Other users cannot send you task request. They will " ++
    "see a message saying you don't accept Todo requests.**"

def getAllSettings (summaryFlag blockIncomingFlag : Bool) : String :=
  "Current Settings:\n\n" ++ getSummarySetting summaryFlag ++ "\n" ++
    getAllowIncomingTaskRequestsSetting blockIncomingFlag ++ "\n\t"

/-! ## Handlers -/

open ListManager (getUserName)

def runAddCommand (args : List String) (extra : CommandArgs) : Api (Bool × Option String) := do
  let message := " ".intercalate args
  if message = "" then
    postCommandResponse extra "Please add a task."
    return (false, none)
  else
    match ← ListManager.addIssue extra.userID message "" "" "" with
    | .error err => return (false, some err)
    | .ok newIssue =>
      sendRefreshEvent extra.userID [.myList]
      match ← ListManager.getIssueList extra.userID .myList with
      | .error _ =>
        postCommandResponse extra "Added Todo."
        return (false, none)
      | .ok issues =>
        let issueIncluded := issues.any (fun issue => newIssue.id = issue.issue.id)
        let list ← issuesListToString (if issueIncluded then issues else issues ++ [⟨newIssue, "", "", 0⟩])
        postCommandResponse extra ("Added Todo." ++ listHeaderMessage ++ list)
        return (false, none)

/-- `runListCommand` once it knows the list. -/
def listCommand (listID : ListID) (responseMessage : String) (extra : CommandArgs) : Api (Bool × Option String) := do
  match ← ListManager.getIssueList extra.userID listID with
  | .error err => return (false, some err)
  | .ok issues =>
    sendRefreshEvent extra.userID [.myList, .outList, .inList]
    let list ← issuesListToString issues
    postCommandResponse extra (responseMessage ++ list)
    return (false, none)

def runListCommand (args : List String) (extra : CommandArgs) : Api (Bool × Option String) :=
  match args with
  | []         => listCommand .myList "Todo List:\n\n" extra
  | "my" :: _  => listCommand .myList "Todo List:\n\n" extra
  | "in" :: _  => listCommand .inList "Received Todo list:\n\n" extra
  | "out" :: _ => listCommand .outList "Sent Todo list:\n\n" extra
  | _          => do
    postCommandResponse extra getHelp
    return (true, none)

/-- The end of `runSendCommand`, once the receiver allows it. -/
def sendCommand (userName message : String) (receiver : User) (extra : CommandArgs) : Api (Bool × Option String) := do
  match ← ListManager.sendIssue extra.userID receiver.id message "" "" "" with
  | .error err => return (false, some err)
  | .ok receiverIssueID =>
    sendRefreshEvent extra.userID [.outList]
    sendRefreshEvent receiver.id [.inList]
    let senderName ← getUserName extra.userID
    postBotCustomDM receiver.id ("You have received a new Todo from @" ++ senderName) message "" receiverIssueID
    postCommandResponse extra ("Todo sent to @" ++ userName ++ ".")
    return (false, none)

/-- The user an argument of `send` names, without the `@` before it; there is no first byte of nothing. -/
def userArg (arg : String) : Option String :=
  match arg.toList with
  | []        => none
  | '@' :: cs => some (String.ofList cs)
  | _         => some arg

def runSendCommand (args : List String) (extra : CommandArgs) : Api (Bool × Option String) :=
  match args with
  | arg :: word :: words =>
    match userArg arg with
    | none          => .panic
    | some userName => do
      match ← Api.getUserByUsername userName with
      | .error _ =>
        postCommandResponse extra ("Please, provide a valid user.\n" ++ getHelp)
        return (false, none)
      | .ok receiver =>
        if receiver.id.val = extra.userID then runAddCommand (word :: words) extra
        else
          let (preference, err) ← getAllowIncomingTaskRequestsPreference receiver.id
          let preference := if err.isSome then true else preference
          if preference then sendCommand userName (" ".intercalate (word :: words)) receiver extra
          else
            postCommandResponse extra ("@" ++ userName ++ " has blocked Todo requests")
            return (false, none)
  | _ => do
    postCommandResponse extra ("You must specify a user and a message.\n" ++ getHelp)
    return (false, none)

/-- What `runPopCommand` tells the sender of the todo. -/
def announcePopped (userName foreignID : String) (issue : Option Issue) : Api Unit := do
  if foreignID ≠ "" then
    sendRefreshEvent foreignID [.outList]
    let issue ← deref issue
    postBotDM foreignID ("@" ++ userName ++ " popped a Todo you sent: " ++ issue.message)
  else return ()

/-- What `runPopCommand` does once the todo is popped, with `issue` the pointer it reads. -/
def announcePop (issue : Option Issue) (foreignID : String) (extra : CommandArgs) : Api (Bool × Option String) := do
  let userName ← getUserName extra.userID
  announcePopped userName foreignID issue
  sendRefreshEvent extra.userID [.myList]
  let issue ← deref issue
  postReplyIfNeeded issue.postID ("@" ++ userName ++ " popped a todo attached to this thread") issue.message
    issue.postPermalink
  match ← ListManager.getIssueList extra.userID .myList with
  | .error _ =>
    postCommandResponse extra "Removed top Todo."
    return (false, none)
  | .ok issues =>
    let list ← issuesListToString issues
    postCommandResponse extra ("Removed top Todo." ++ listHeaderMessage ++ list)
    return (false, none)

def runPopCommand (_args : List String) (extra : CommandArgs) : Api (Bool × Option String) := do
  let res ← ListManager.popIssue extra.userID
  match res.err with
  | some err =>
    if err = "cannot find issue" then
      postCommandResponse extra "There are no Todos to pop."
      return (false, none)
    else return (false, some err)
  | none => announcePop res.issue res.foreignID extra

/-! ## Settings -/

/-- One setting turned on or off: what saves it, and what is said then or on a failure. -/
def runSetting (value name saveErr onMessage offMessage : String) (save : Bool → Api (Except String Unit))
    (extra : CommandArgs) : Api (Bool × Option String) := do
  if value = "on" ∨ value = "off" then
    match ← save (value = "on") with
    | .error _ => return (false, some saveErr)
    | .ok () =>
      postCommandResponse extra (if value = "on" then onMessage else offMessage)
      return (false, none)
  else return (true, some ("invalid input, allowed values for \"settings " ++ name ++ "\" are `on` or `off`"))

def runSettingsCommand (args : List String) (extra : CommandArgs) : Api (Bool × Option String) :=
  match args with
  | [] => do
    let currentSummarySetting ← getReminderPreference extra.userID
    let (preference, err) ← getAllowIncomingTaskRequestsPreference extra.userID
    postCommandResponse extra (getAllSettings currentSummarySetting (if err.isSome then true else preference))
    return (false, none)
  | ["summary"] => do
    let currentSummarySetting ← getReminderPreference extra.userID
    postCommandResponse extra (getSummarySetting currentSummarySetting)
    return (false, none)
  | ["summary", value] =>
    runSetting value "summary" "error saving the reminder preference" "You will start receiving daily summaries."
      "You will stop receiving daily summaries." (saveReminderPreference extra.userID) extra
  | "summary" :: _ => return (true, some "too many arguments")
  | ["allow_incoming_task_requests"] => do
    match ← getAllowIncomingTaskRequestsPreference extra.userID with
    -- the log line asks the error for its text
    | (_, some .parse) => .panic
    | (preference, err) =>
      postCommandResponse extra (getAllowIncomingTaskRequestsSetting (if err.isSome then true else preference))
      return (false, none)
  | ["allow_incoming_task_requests", value] =>
    runSetting value "allow_incoming_task_requests" "error saving the block_incoming preference"
      "Other users can send task for you to accept/decline"
      ("Other users cannot send you task request. They will see a message saying you have blocked incoming task " ++
        "requests") (saveAllowIncomingTaskRequestsPreference extra.userID) extra
  | "allow_incoming_task_requests" :: _ => return (true, some "too many arguments")
  | setting :: _ => return (true, some ("setting `" ++ setting ++ "` not recognized"))

/-! ## The command -/

/-- The handler of a command, unless it is `help` or unknown. -/
def commandHandler (command : String) : Option (List String → CommandArgs → Api (Bool × Option String)) :=
  match command with
  | "add"      => some runAddCommand
  | "list"     => some runListCommand
  | "pop"      => some runPopCommand
  | "send"     => some runSendCommand
  | "settings" => some runSettingsCommand
  | _          => none

/-- What the user is told of an error. -/
def reportError (args : CommandArgs) : Bool × Option String → Api Unit
  | (_, none)           => return ()
  | (true, some err)    =>
    postCommandResponse args ("__Error: " ++ err ++ ".__\n\nRun `/todo help` for usage instructions.")
  | (false, some _)     =>
    postCommandResponse args "An unknown error occurred. Please talk to your system administrator for help."

def executeCommand (args : CommandArgs) : Api Unit := do
  match (stringArgs args.command).2 with
  | [] =>
    let res ← runListCommand [] args
    reportError args res
  | command :: restOfArgs =>
    match commandHandler command with
    | none => postCommandResponse args getHelp
    | some handler =>
      let res ← handler restOfArgs args
      reportError args res

end Todo

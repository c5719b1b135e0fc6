import TodoPlugin.ListManager
/-!
# What the plugin sends out

The posts of the bot (`bot.go`), the refresh events and the replies of `plugin.go` and `command.go`, and the text of a
list (`issue.go`).  A failure of any of them is only logged.
-/
namespace Todo

def createBotPostDM (post : Post) (userID : String) : Api Unit := do
  match ← Api.getDirectChannel userID with
  | .error _ => return ()
  | .ok none => return ()
  | .ok (some channelID) =>
    let _ ← Api.createPost { post with channelID := channelID }
    return ()

def postBotDM (userID message : String) : Api Unit := createBotPostDM ⟨"", message, "", none⟩ userID

/-- A direct message with the buttons to act on the todo `issueID`. -/
def postBotCustomDM (userID message todo postPermalink issueID : String) : Api Unit :=
  createBotPostDM ⟨"", message ++ ": " ++ todo, "", some ⟨message, todo, postPermalink, issueID⟩⟩ userID

/-- A reply in the thread of `postID`. -/
def replyPostBot (postID message todo postPermalink : String) : Api (Except String Unit) := do
  if postID = "" then return .error "post ID not defined"
  else
    match ← Api.getPost postID with
    | .error appErr => return .error appErr
    | .ok post =>
      let rootID := if post.rootID ≠ "" then post.rootID else post.id
      let quotedTodo := "\n> " ++ todo ++ "\n> " ++ "[Permalink](" ++ postPermalink ++ ")"
      Api.createPost ⟨post.channelID, message ++ quotedTodo, rootID, none⟩

def postReplyIfNeeded (postID message todo postPermalink : String) : Api Unit := do
  if postID ≠ "" then
    let _ ← replyPostBot postID message todo postPermalink
    return ()
  else return ()

def sendRefreshEvent (userID : String) (lists : List ListID) : Api Unit := Api.publishRefresh userID lists

/-- `CommandArgs`, as far as the plugin reads them. -/
structure CommandArgs where
  userID    : String
  channelID : String
  command   : String
deriving DecidableEq, Repr

def postCommandResponse (args : CommandArgs) (text : String) : Api Unit :=
  Api.sendEphemeralPost args.userID args.channelID text

/-- The loop of `issuesListToString`, `str` the text so far. -/
def issueLines (str : String) : List ExtendedIssue → Api String
  | []              => return str
  | issue :: issues => do
    let createAt ← Api.formatTime (issue.issue.createAt.tdiv 1000)
    issueLines (str ++ "* " ++ issue.issue.message ++ "\n  * (" ++ createAt ++ ")\n") issues

def issuesListToString (issues : List ExtendedIssue) : Api String :=
  if issues.isEmpty then return "Nothing to do!" else issueLines "\n\n" issues

end Todo

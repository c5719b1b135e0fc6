import TodoPlugin.ListManager
/-!
# The front-end's store

The redux store of the webapp, as far as the assignee dialog and the lists need it: the actions of `actions.js` and the
reducers of `reducer.js`, one for each part of the state.  A value that comes off the network is a `Json`.
-/
namespace Todo

/-- A JSON value, as `resp.json()` returns it. -/
inductive Json where
  | null
  | bool (b : Bool)
  | num (n : Int)
  | str (s : String)
  | arr (items : List Json)
  | obj (fields : List (String × Json))

/-- A property of an object; a value that is no object has none. -/
def Json.field (name : String) : Json → Option Json
  | .obj fields => fields.lookup name
  | _           => none

/-- A user as the autocomplete offers it. -/
structure UserProfile where
  id       : String
  username : String
deriving DecidableEq, Repr

inductive Action where
  | getAssignee (assignee : UserProfile)
  | removeAssignee
  | openAssigneeModal
  | closeAssigneeModal
  | setEditingTodo (issueID : String)
  | removeEditingTodo
  | getAllIssues (data : Json)

/-- The parts of the state; `none` is `null`. -/
structure PluginState where
  assigneeModalVisible : Bool
  editingTodo          : Option String
  currentAssignee      : Option UserProfile
  allIssues            : Json

namespace Reducer

def assigneeModalVisible (state : Bool) : Action → Bool
  | .openAssigneeModal  => true
  | .closeAssigneeModal => false
  | _                   => state

def editingTodo (state : Option String) : Action → Option String
  | .setEditingTodo issueID => some issueID
  | .removeEditingTodo      => none
  | _                       => state

def currentAssignee (state : Option UserProfile) : Action → Option UserProfile
  | .getAssignee assignee => some assignee
  | .removeAssignee       => none
  | _                     => state

/-- `action.data ?? state`. -/
def allIssues (state : Json) : Action → Json
  | .getAllIssues .null => state
  | .getAllIssues data  => data
  | _                   => state

end Reducer

/-- `combineReducers`. -/
def PluginState.dispatch (state : PluginState) (action : Action) : PluginState where
  assigneeModalVisible := Reducer.assigneeModalVisible state.assigneeModalVisible action
  editingTodo          := Reducer.editingTodo state.editingTodo action
  currentAssignee      := Reducer.currentAssignee state.currentAssignee action
  allIssues            := Reducer.allIssues state.allIssues action

/-- The state the reducers start with. -/
def PluginState.initial : PluginState where
  assigneeModalVisible := false
  editingTodo          := none
  currentAssignee      := none
  allIssues            := .obj [("my", .arr []), ("in", .arr []), ("out", .arr [])]

end Todo

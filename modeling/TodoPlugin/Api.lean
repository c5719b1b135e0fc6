import TodoPlugin.Issue
import TodoPlugin.Lib.Proc
/-!
# The server API the plugin calls

Every function of the plugin is a procedure over these calls, in the order the source makes them.  `World` is what the
calls act on, `Env` what the server around the plugin answers and never changes: the ids it makes, its clock, its users,
channels and posts.  `serve` answers every KV call without an error; the errors stay in the responses, so that the code
which handles them is modelled too.  Logging and telemetry are left out: nothing reads them.
-/
namespace Todo

/-- A user as `GetUser` and `GetUserByUsername` return it, as far as the plugin reads it. -/
structure User where
  id       : UserID
  username : String
deriving DecidableEq

/-- The props of a `custom_todo` post. -/
structure TodoProps where
  message       : String
  todo          : String
  postPermalink : String
  issueID       : String
deriving DecidableEq, Repr

/-- A post of the bot, with its `custom_todo` props if it is one. -/
structure Post where
  channelID : String
  message   : String
  rootID    : String
  props     : Option TodoProps
deriving DecidableEq, Repr

/-- A post as `GetPost` returns it, as far as the plugin reads it. -/
structure ParentPost where
  id        : String
  rootID    : String
  channelID : String
deriving DecidableEq, Repr

inductive Call where
  | kvGet (key : String)
  | kvSet (key : String) (value : Value)
  | kvDelete (key : String)
  | kvCompareAndSet (key : String) (old : Option Value) (new : Value)
  | newId
  | getMillis
  | formatTime (sec : Int)
  | getUserByUsername (name : String)
  | getUser (userID : String)
  | getDirectChannel (userID : String)
  | getPost (postID : String)
  | createPost (post : Post)
  | sendEphemeralPost (userID channelID message : String)
  | publishRefresh (userID : String) (lists : List ListID)
deriving DecidableEq

abbrev Resp : Call → Type
  | .kvGet _                 => Except String (Option Value)
  | .kvSet _ _               => Except String Unit
  | .kvDelete _              => Except String Unit
  | .kvCompareAndSet _ _ _   => Except String Bool
  | .newId                   => String
  | .getMillis               => Int
  | .formatTime _            => String
  | .getUserByUsername _     => Except String User
  | .getUser _               => Except String User
  | .getDirectChannel _      => Except String (Option String)
  | .getPost _               => Except String ParentPost
  | .createPost _            => Except String Unit
  | .sendEphemeralPost _ _ _ => Unit
  | .publishRefresh _ _      => Unit

abbrev Api := Proc Call Resp

namespace Api

def kvGet (key : String) : Api (Except String (Option Value)) := Proc.request (Call.kvGet key)
def kvSet (key : String) (value : Value) : Api (Except String Unit) := Proc.request (Call.kvSet key value)
def kvDelete (key : String) : Api (Except String Unit) := Proc.request (Call.kvDelete key)
def kvCompareAndSet (key : String) (old : Option Value) (new : Value) : Api (Except String Bool) :=
  Proc.request (Call.kvCompareAndSet key old new)
def newId : Api String := Proc.request Call.newId
def getMillis : Api Int := Proc.request Call.getMillis
def formatTime (sec : Int) : Api String := Proc.request (Call.formatTime sec)
def getUserByUsername (name : String) : Api (Except String User) := Proc.request (Call.getUserByUsername name)
def getUser (userID : String) : Api (Except String User) := Proc.request (Call.getUser userID)
def getDirectChannel (userID : String) : Api (Except String (Option String)) := Proc.request (Call.getDirectChannel userID)
def getPost (postID : String) : Api (Except String ParentPost) := Proc.request (Call.getPost postID)
def createPost (post : Post) : Api (Except String Unit) := Proc.request (Call.createPost post)
def sendEphemeralPost (userID channelID message : String) : Api Unit :=
  Proc.request (Call.sendEphemeralPost userID channelID message)
def publishRefresh (userID : String) (lists : List ListID) : Api Unit := Proc.request (Call.publishRefresh userID lists)

end Api

/-! ## What the calls act on -/

/-- The server around the plugin: the ids `NewId` will make, no two the same, and the times `GetMillis` will read, in
order, its time zone, which the plugin writes times in, and the users, channels and posts it knows. -/
structure Env where
  newId          : Nat → String
  newId_isId     : ∀ n, IsId (newId n)
  newId_inj      : ∀ m n, newId m = newId n → m = n
  millis         : Nat → Int
  formatTime     : Int → String
  userByUsername : String → Except String User
  user           : String → Except String User
  directChannel  : String → Except String (Option String)
  post           : String → Except String ParentPost
  createPost     : Post → Except String Unit

/-- Three users, named as they are identified. -/
def sampleUser (name : String) : Except String User :=
  if h : IsId name ∧ name ∈ ["ann", "bob", "cat"] then .ok ⟨⟨name, h.1⟩, name⟩ else .error "not found"

/-- A small server: three users and no posts, ids and times counted up. -/
def Env.sample : Env where
  newId n             := String.ofList (List.replicate (n + 1) 'x')
  newId_isId n        := ⟨fun h => by simpa using congrArg String.toList h, fun c hc => by
    simp only [String.toList_ofList, List.mem_replicate] at hc
    exact .inl (hc.2 ▸ by decide)⟩
  newId_inj m n h     := by simpa using congrArg (fun s => s.toList.length) h
  millis n            := n
  formatTime sec      := toString sec
  userByUsername      := sampleUser
  user                := sampleUser
  directChannel u     := .ok (some ("direct" ++ u))
  post _              := .error "not found"
  createPost _        := .ok ()

/-- What the plugin has sent out. -/
inductive Notice where
  | refresh (userID : String) (lists : List ListID)
  | post (post : Post)
  | ephemeral (userID channelID message : String)
deriving DecidableEq, Repr

/-- The KV store, how many ids and times have been drawn, and the notices sent, the latest last. -/
structure World where
  kv      : String → Option Value
  drawn   : Nat
  ticks   : Nat
  notices : List Notice

namespace World

/-- An empty store. -/
def empty : World := ⟨fun _ => none, 0, 0, []⟩

/-- The store with `value` under `key`. -/
def put (w : World) (key : String) (value : Value) : World :=
  { w with kv := fun k => if k = key then some value else w.kv k }

/-- The store with nothing under `key`. -/
def delete (w : World) (key : String) : World :=
  { w with kv := fun k => if k = key then none else w.kv k }

def notify (w : World) (n : Notice) : World := { w with notices := w.notices ++ [n] }

@[simp] theorem put_kv_self (w : World) (key : String) (value : Value) : (w.put key value).kv key = some value := by
  simp [put]
theorem put_kv_of_ne (w : World) {k key : String} (value : Value) (h : k ≠ key) : (w.put key value).kv k = w.kv k := by
  simp [put, h]
theorem put_put (w : World) (key : String) (value value' : Value) :
    (w.put key value).put key value' = w.put key value' := by
  simp only [put]
  congr 1
  funext k
  split <;> rfl
@[simp] theorem delete_kv_self (w : World) (key : String) : (w.delete key).kv key = none := by simp [delete]
theorem delete_kv_of_ne (w : World) {k key : String} (h : k ≠ key) : (w.delete key).kv k = w.kv k := by
  simp [delete, h]

end World

/-- **The server answering a call**, with no failure of the KV store. -/
def serve (E : Env) : (c : Call) → World → Resp c × World
  | .kvGet key, w                     => (.ok (w.kv key), w)
  | .kvSet key value, w               => (.ok (), w.put key value)
  | .kvDelete key, w                  => (.ok (), w.delete key)
  | .kvCompareAndSet key old new, w   => if w.kv key = old then (.ok true, w.put key new) else (.ok false, w)
  | .newId, w                         => (E.newId w.drawn, { w with drawn := w.drawn + 1 })
  | .getMillis, w                     => (E.millis w.ticks, { w with ticks := w.ticks + 1 })
  | .formatTime sec, w                => (E.formatTime sec, w)
  | .getUserByUsername name, w        => (E.userByUsername name, w)
  | .getUser userID, w                => (E.user userID, w)
  | .getDirectChannel userID, w       => (E.directChannel userID, w)
  | .getPost postID, w                => (E.post postID, w)
  | .createPost post, w               => match E.createPost post with
    | .ok ()   => (.ok (), w.notify (.post post))
    | .error e => (.error e, w)
  | .sendEphemeralPost u ch msg, w    => ((), w.notify (.ephemeral u ch msg))
  | .publishRefresh u lists, w        => ((), w.notify (.refresh u lists))

end Todo

import TodoPlugin.Api
/-!
# Request payloads

The payloads of `serializer.go` and their checks.  Decoding is `encoding/json`'s: a body arrives as what the decoder made
of it, its error, no payload at all for a JSON `null`, or a payload, in which a missing field is empty.
-/
namespace Todo

/-- A request's body, decoded. -/
abbrev Body (α : Type) := Except String (Option α)

structure AddAPIRequest where
  message       : String
  postPermalink : String
  description   : String
  sendTo        : String
  postID        : String
deriving DecidableEq, Repr

structure EditAPIRequest where
  id          : String
  message     : String
  description : String
deriving DecidableEq, Repr

structure ChangeAssignmentAPIRequest where
  id     : String
  sendTo : String
deriving DecidableEq, Repr

structure AcceptAPIRequest where
  id : String
deriving DecidableEq, Repr

structure CompleteAPIRequest where
  id : String
deriving DecidableEq, Repr

structure RemoveAPIRequest where
  id : String
deriving DecidableEq, Repr

structure BumpAPIRequest where
  id : String
deriving DecidableEq, Repr

/-! ## Checks -/

/-- The shape of every `IsValid`: a body, and in it the fields required, each with what is said when it is empty. -/
def requireFields {α : Type} (fields : List ((α → String) × String)) : Option α → Option String
  | none   => some "invalid request body"
  | some a => (fields.find? (fun f => f.1 a = "")).map Prod.snd

def AddAPIRequest.isValid : Option AddAPIRequest → Option String :=
  requireFields [(AddAPIRequest.message, "message is required")]
def EditAPIRequest.isValid : Option EditAPIRequest → Option String :=
  requireFields [(EditAPIRequest.id, "id is required")]
def ChangeAssignmentAPIRequest.isValid : Option ChangeAssignmentAPIRequest → Option String :=
  requireFields [(ChangeAssignmentAPIRequest.id, "id is required"),
    (ChangeAssignmentAPIRequest.sendTo, "no user specified")]
def AcceptAPIRequest.isValid : Option AcceptAPIRequest → Option String :=
  requireFields [(AcceptAPIRequest.id, "id is required")]
def CompleteAPIRequest.isValid : Option CompleteAPIRequest → Option String :=
  requireFields [(CompleteAPIRequest.id, "id is required")]
def RemoveAPIRequest.isValid : Option RemoveAPIRequest → Option String :=
  requireFields [(RemoveAPIRequest.id, "id is required")]
def BumpAPIRequest.isValid : Option BumpAPIRequest → Option String :=
  requireFields [(BumpAPIRequest.id, "id is required")]

/-- The payload a handler goes on with. -/
def Body.valid {α : Type} (isValid : Option α → Option String) (body : Body α) : Option α :=
  match body with
  | .error _    => none
  | .ok request => if (isValid request).isSome then none else request

/-- **What passes its check has every required field.** -/
theorem requireFields_none {α : Type} {fields : List ((α → String) × String)} {request : Option α} :
    requireFields fields request = none ↔ ∃ a, request = some a ∧ ∀ f ∈ fields, f.1 a ≠ "" := by
  cases request with
  | none => simp [requireFields]
  | some a => simp [requireFields]

end Todo

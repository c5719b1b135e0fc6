import TodoPlugin.Api
import Mathlib.Algebra.Group.Int.Defs
/-!
# Reminders and preferences

The methods of the plugin in `store.go`: the time of a user's last reminder, and the two settings, each a text under a
key of its own.
-/
namespace Todo

/-! ## Numbers and flags as texts -/

/-- `strconv.FormatBool`. -/
def formatBool (b : Bool) : String := if b then "true" else "false"

/-- `strconv.ParseBool`. -/
def parseBool (text : String) : Option Bool :=
  if text ∈ ["1", "t", "T", "TRUE", "true", "True"] then some true
  else if text ∈ ["0", "f", "F", "FALSE", "false", "False"] then some false
  else none

@[simp] theorem parseBool_formatBool (b : Bool) : parseBool (formatBool b) = some b := by
  cases b <;> rfl

/-- The number some decimal digits write, `n` the one read so far. -/
def parseDigits (n : Nat) : List Char → Option Nat
  | []      => some n
  | c :: cs => if c.isDigit then parseDigits (10 * n + (c.toNat - '0'.toNat)) cs else none

/-- `strconv.ParseInt` in base 10 to 64 bits: the value, and what is wrong with the text.  A number out of range is cut
off at the bound, and a text that is no number is 0. -/
def parseInt (text : String) : Int × Option String :=
  let signed : List Char → Option Int
    | '-' :: c :: cs => (parseDigits 0 (c :: cs)).map (fun n => -(n : Int))
    | '+' :: c :: cs => (parseDigits 0 (c :: cs)).map (fun n => (n : Int))
    | c :: cs        => (parseDigits 0 (c :: cs)).map (fun n => (n : Int))
    | []             => none
  match signed text.toList with
  | none   => (0, some ("strconv.ParseInt: parsing " ++ text.quote ++ ": invalid syntax"))
  | some n =>
    if 2 ^ 63 ≤ n then (2 ^ 63 - 1, some ("strconv.ParseInt: parsing " ++ text.quote ++ ": value out of range"))
    else if n < -2 ^ 63 then (-2 ^ 63, some ("strconv.ParseInt: parsing " ++ text.quote ++ ": value out of range"))
    else (n, none)

example : (parseInt "1700000000000").1 = 1700000000000 ∧ (parseInt "-540").1 = -540 ∧ (parseInt "+").1 = 0 := by
  decide

/-! ## The last reminder -/

def saveLastReminderTimeForUser (userID : String) : Api (Except String Unit) := do
  let now ← Api.getMillis
  Api.kvSet (reminderKey userID) (.text (toString now))

def getLastReminderTimeForUser (userID : String) : Api (Except String Int) := do
  match ← Api.kvGet (reminderKey userID) with
  | .error appErr => return .error appErr
  | .ok none => return .ok 0
  | .ok (some timeBytes) =>
    match timeBytes with
    | .text text =>
      match parseInt text with
      | (_, some err) => return .error err
      | (reminderAt, none) => return .ok reminderAt
    | _ => return .error "strconv.ParseInt: invalid syntax"

/-! ## Settings -/

/-- The flag stored, if it is one. -/
def storedBool : Value → Option Bool
  | .text text => parseBool text
  | _          => none

def saveReminderPreference (userID : String) (preference : Bool) : Api (Except String Unit) :=
  Api.kvSet (reminderEnabledKey userID) (.text (formatBool preference))

def getReminderPreference (userID : String) : Api Bool := do
  match ← Api.kvGet (reminderEnabledKey userID) with
  | .error _ => return true
  | .ok none => return true
  | .ok (some preferenceByte) => return (storedBool preferenceByte).getD true

def saveAllowIncomingTaskRequestsPreference (userID : String) (preference : Bool) : Api (Except String Unit) :=
  Api.kvSet (allowIncomingTaskRequestsKey userID) (.text (formatBool preference))

/-- Why a preference could not be read.  The second wraps a nil `*AppError`, which is not a nil `error`: asking it for
its text panics. -/
inductive PreferenceError where
  | get (err : String)
  | parse
deriving DecidableEq, Repr

def getAllowIncomingTaskRequestsPreference (userID : String) : Api (Bool × Option PreferenceError) := do
  match ← Api.kvGet (allowIncomingTaskRequestsKey userID) with
  | .error appErr => return (true, some (.get ("error getting the allow incoming task requests preference: " ++ appErr)))
  | .ok none => return (true, none)
  | .ok (some preferenceByte) =>
    match storedBool preferenceByte with
    | none => return (true, some .parse)
    | some preference => return (preference, none)

/-- What `getAllowIncomingTaskRequestsPreference` answers of a store. -/
def World.allows (w : World) (userID : String) : Bool :=
  ((w.kv (allowIncomingTaskRequestsKey userID)).bind storedBool).getD true

end Todo

import TodoPlugin.Reducer
import TodoPlugin.Handlers
import Mathlib.Data.List.Induction
/-!
# The lists in the front-end

`fetchAllIssueLists` asks the server for the lists and puts what it gets into the store.  It does nothing when the request
fails or the body is no JSON, and it does not look at the status: the JSON of an error is put into the store as the lists
are.
-/
namespace Todo

/-! ## What the server writes -/

def ExtendedIssue.json (e : ExtendedIssue) : Json :=
  .obj ([("id", .str e.issue.id), ("message", .str e.issue.message), ("postPermalink", .str e.issue.postPermalink)] ++
    (if e.issue.description = "" then [] else [("description", .str e.issue.description)]) ++
    [("create_at", .num e.issue.createAt), ("post_id", .str e.issue.postID), ("user", .str e.foreignUser),
      ("list", .str e.foreignList), ("position", .num e.foreignPosition)])

def ListsIssue.json (lists : ListsIssue) : Json :=
  .obj [("in", .arr (lists.inIssues.map ExtendedIssue.json)), ("my", .arr (lists.myIssues.map ExtendedIssue.json)),
    ("out", .arr (lists.outIssues.map ExtendedIssue.json))]

/-- What `resp.json()` makes of a response: an empty body and the text of `checkAuth` are no JSON. -/
def Response.json : Response → Option Json
  | .ok                     => none
  | .lists listsIssue       => some listsIssue.json
  | .error _ title details  => some (.obj [("error", .str title), ("details", .str details)])
  | .text _ _               => none

/-- What a request of the front-end ends in. -/
inductive Outcome where
  | networkFailure
  | response (r : Response)

/-- `fetchAllIssueLists` once its request has ended: what it dispatches. -/
def fetchAllIssueLists : Outcome → Option Action
  | .networkFailure => none
  | .response r     => r.json.map Action.getAllIssues

/-- The store after a request for the lists. -/
def PluginState.receive (state : PluginState) (o : Outcome) : PluginState :=
  match fetchAllIssueLists o with
  | some action => state.dispatch action
  | none        => state

/-- The store after requests that ended so. -/
def PluginState.receiveAll (outcomes : List Outcome) : PluginState := outcomes.foldl receive .initial

/-- What the components need of the lists: the three are there, and are arrays. -/
def Json.WellFormed (state : Json) : Prop :=
  ∀ name ∈ ["my", "in", "out"], ∃ items, state.field name = some (.arr items)

/-- The outcome is an error as `handleErrorWithCode` writes it. -/
def Outcome.IsError (o : Outcome) : Prop := ∃ code error details, o = .response (.error code error details)

/-! ## What can come of a request for the lists -/

/-- Every answer of the procedure is in `Q`, whatever its calls are answered. -/
def Api.Answers {α : Type} (Q : α → Prop) : Api α → Prop
  | .ret a    => Q a
  | .panic    => True
  | .call _ k => ∀ r, Answers Q (k r)

theorem Api.Answers.bind {α β : Type} {Q : β → Prop} {f : α → Api β} (hf : ∀ a, Api.Answers Q (f a)) :
    ∀ p : Api α, Api.Answers Q (p >>= f)
  | .ret a    => hf a
  | .panic    => trivial
  | .call _ k => fun r => Answers.bind hf (k r)

theorem Api.Answers.run {α S : Type} {Q : α → Prop} (serve : (c : Call) → S → Resp c × S) :
    ∀ {p : Api α}, Api.Answers Q p → ∀ {s : S} {a : α}, (p.run serve s).1 = some a → Q a
  | .ret _, h, _, _, hrun    => Option.some.inj hrun ▸ h
  | .call c _, h, s, _, hrun => Answers.run serve (h (serve c s).1) hrun

/-- The lists, an error, or the refusal of a request without a user. -/
def Response.OfLists (r : Response) : Prop :=
  (∃ lists, r = .lists lists) ∨ (∃ error details, r = .error 500 error details) ∨ r = .text 401 "Not authorized"

theorem handleLists_answers (userID reminder timezoneOffset : String) :
    Api.Answers Response.OfLists (handleLists userID reminder timezoneOffset) := by
  have hlists : ∀ lists, Api.Answers Response.OfLists (pure (.lists lists)) := fun lists => .inl ⟨lists, rfl⟩
  have herror : ∀ error details, Api.Answers Response.OfLists (pure (.error 500 error details)) :=
    fun error details => .inr (.inl ⟨error, details, rfl⟩)
  apply Api.Answers.bind
  rintro (err | lists)
  · exact herror ..
  simp only
  split
  · apply Api.Answers.bind
    intro preference
    split
    · apply Api.Answers.bind
      rintro (err | lastReminderAt)
      · exact herror ..
      apply Api.Answers.bind
      intro now
      split
      · apply Api.Answers.bind
        intro list
        apply Api.Answers.bind
        intro _
        apply Api.Answers.bind
        exact fun _ => hlists lists
      · exact hlists lists
    · exact hlists lists
  · exact hlists lists

/-- **What the server writes to a request for the lists**, whatever fails on the way. -/
theorem serveHTTP_lists {S : Type} (serve : (c : Call) → S → Resp c × S) (s : S) (userID reminder offset : String)
    {r : Response} (h : ((checkAuth userID (handleLists userID reminder offset)).run serve s).1 = some r) :
    r.OfLists := by
  refine Api.Answers.run serve ?_ h
  unfold checkAuth
  split
  · exact .inr (.inr rfl)
  · exact handleLists_answers userID reminder offset

/-! ## The state of the lists -/

namespace PluginState

theorem wellFormed_initial : initial.allIssues.WellFormed := by
  intro name hname
  simp only [List.mem_cons, List.not_mem_nil, or_false] at hname
  rcases hname with rfl | rfl | rfl
  · exact ⟨_, rfl⟩
  · exact ⟨_, rfl⟩
  · exact ⟨_, rfl⟩

theorem wellFormed_lists (lists : ListsIssue) : lists.json.WellFormed := by
  intro name hname
  simp only [List.mem_cons, List.not_mem_nil, or_false] at hname
  rcases hname with rfl | rfl | rfl
  · exact ⟨_, rfl⟩
  · exact ⟨_, rfl⟩
  · exact ⟨_, rfl⟩

/-- What is no error keeps the lists well formed. -/
theorem receive_wellFormed {state : PluginState} (h : state.allIssues.WellFormed) {o : Outcome} (ho : ¬ o.IsError) :
    (state.receive o).allIssues.WellFormed := by
  cases o with
  | networkFailure => exact h
  | response r =>
    cases r with
    | ok => exact h
    | lists lists => exact wellFormed_lists lists
    | error code error details => exact absurd ⟨code, error, details, rfl⟩ ho
    | text code text => exact h

/-- An error takes the place of the lists. -/
theorem receive_error (state : PluginState) {o : Outcome} (ho : o.IsError) :
    ¬ (state.receive o).allIssues.WellFormed := by
  obtain ⟨code, error, details, rfl⟩ := ho
  intro h
  obtain ⟨items, hitems⟩ := h "my" (by decide)
  cases hitems

theorem receiveAll_append (outcomes : List Outcome) (o : Outcome) :
    receiveAll (outcomes ++ [o]) = (receiveAll outcomes).receive o := List.foldl_append

/-- **The lists in the store stay well formed** exactly as long as the server writes no error. -/
theorem receiveAll_wellFormed (outcomes : List Outcome) :
    (∀ pre, pre <+: outcomes → (receiveAll pre).allIssues.WellFormed) ↔ ∀ o ∈ outcomes, ¬ o.IsError := by
  constructor
  · intro h o ho herr
    obtain ⟨pre, post, rfl⟩ := List.append_of_mem ho
    refine receive_error (receiveAll pre) herr ?_
    rw [← receiveAll_append]
    exact h _ ⟨post, by simp⟩
  · intro h pre
    induction pre using List.reverseRecOn with
    | nil => exact fun _ => wellFormed_initial
    | append_singleton pre o ih =>
      intro hpre
      rw [receiveAll_append]
      have hmem : o ∈ outcomes := hpre.subset (by simp)
      exact receive_wellFormed (ih ((List.prefix_append pre [o]).trans hpre)) (h o hmem)

/-- The server when its store cannot be reached. -/
def serveUnreachable (E : Env) : (c : Call) → World → Resp c × World
  | .kvGet _, w => (.error "connection refused", w)
  | c, w        => serve E c w

/-- **An error of the server breaks the lists.** -/
theorem receive_unreachable : ∃ r, ((serveHTTP "ann" (.lists "false" "")).run (serveUnreachable Env.sample) .empty).1 =
    some r ∧ ¬ (receiveAll [.response r]).allIssues.WellFormed :=
  ⟨.error 500 "Unable to get issues for user" "connection refused", rfl, receive_error initial ⟨500, _, _, rfl⟩⟩

end PluginState
end Todo

import TodoPlugin.Offers
/-!
# Where a todo comes from

The lists a user is answered hold what they have made themselves and what its owner has passed on to them, and their own
list of this only what they have accepted.  What a todo says is what its owner has written, or somebody the owner has
passed it on to.  All of it is said of the one errand an entry shows, by the operations of the run and what each did to
that errand.
-/
namespace Todo

open Labelled

/-- An operation that was done, with the errands before it and after it. -/
structure Episode where
  before : Errands
  op     : ListOp
  after  : Errands

namespace Episode

/-- It made the errand `x`, as one of `u`'s. -/
inductive Makes (u : UserID) (x : String) : Episode → Prop
  | added (es es' : Errands) (m p d q : String) (hx : es x = none) (he : es' x = some ⟨u, ⟨m, p, d, q⟩, none⟩) :
      Makes u x ⟨es, .addIssue u m p d q, es'⟩
  | sent (es es' : Errands) (v : UserID) (m p d q c : String) (hx : es x = none)
      (he : es' x = some ⟨u, ⟨m, p, d, q⟩, some ⟨v, c, false⟩⟩) : Makes u x ⟨es, .sendIssue u v m p d q, es'⟩

/-- It passed the errand `x` of `o`'s on to `v`, who has it as `c`. -/
inductive HandsTo (o v : UserID) (x c : String) : Episode → Prop
  | sent (es es' : Errands) (m p d q : String) (hx : es x = none)
      (he : es' x = some ⟨o, ⟨m, p, d, q⟩, some ⟨v, c, false⟩⟩) : HandsTo o v x c ⟨es, .sendIssue o v m p d q, es'⟩
  | assigned (es es' : Errands) (e : Errand) (hx : es x = some e) (ho : e.owner = o)
      (he : es' x = some { e with holder := some ⟨v, c, false⟩ }) : HandsTo o v x c ⟨es, .changeAssignment x o v, es'⟩

/-- `u` accepted the errand `x`, which they had as `c`. -/
inductive Accepts (u : UserID) (x c : String) : Episode → Prop
  | accepted (es es' : Errands) (e : Errand) (hx : es x = some e) (hh : e.holder = some ⟨u, c, false⟩)
      (he : es' x = some { e with holder := some ⟨u, c, true⟩ }) : Accepts u x c ⟨es, .acceptIssue u c, es'⟩

/-- `u` gave the errand `x` this message and this description. -/
inductive Writes (u : UserID) (x m d : String) : Episode → Prop
  | added (es es' : Errands) (p q : String) (hx : es x = none) (he : es' x = some ⟨u, ⟨m, p, d, q⟩, none⟩) :
      Writes u x m d ⟨es, .addIssue u m p d q, es'⟩
  | sent (es es' : Errands) (v : UserID) (p q c : String) (hx : es x = none)
      (he : es' x = some ⟨u, ⟨m, p, d, q⟩, some ⟨v, c, false⟩⟩) : Writes u x m d ⟨es, .sendIssue u v m p d q, es'⟩
  | edited (es es' : Errands) (e : Errand) (id : String) (hx : es x = some e) (hk : e.KnownAs x u id)
      (he : es' x = some { e with text := { e.text with message := m, description := d } }) :
      Writes u x m d ⟨es, .editIssue u id m d, es'⟩

/-- The step of the errands that was done. -/
inductive Step : Errands → Episode → Errands → Prop
  | done {es es' : Errands} {op : ListOp} (h : Errands.Step es (op, true) es') : Step es ⟨es, op, es'⟩ es'

end Episode

/-- One of the operations was such. -/
def Done (ds : List Episode) (P : Episode → Prop) : Prop := ∃ d ∈ ds, P d

/-- **One of the operations wrote this of the errand `x`**, and was its owner's, or of somebody the owner had passed it on
to by then. -/
def Wrote (ds : List Episode) (x : String) (o : UserID) (message description : String) : Prop :=
  ∃ earlier d later u, ds = earlier ++ d :: later ∧ d.Writes u x message description ∧
    (u = o ∨ ∃ c, Done earlier (Episode.HandsTo o u x c))

/-- **Where an errand comes from**, among the operations of a run. -/
structure Errand.From (ds : List Episode) (x : String) (e : Errand) : Prop where
  made     : Done ds (Episode.Makes e.owner x)
  passed   : ∀ h ∈ e.holder, Done ds (Episode.HandsTo e.owner h.user x h.copy)
  accepted : ∀ h ∈ e.holder, h.accepted = true → Done ds (Episode.Accepts h.user x h.copy)
  wrote    : Wrote ds x e.owner e.text.message e.text.description

section origins
variable {ds : List Episode} {x : String} {e e' : Errand} {es es' : Errands} {op : ListOp}

theorem Done.later {P : Episode → Prop} (h : Done ds P) (d : Episode) : Done (ds ++ [d]) P := by
  obtain ⟨d', hm, hp⟩ := h
  exact ⟨d', List.mem_append_left _ hm, hp⟩

theorem Done.now {P : Episode → Prop} {d : Episode} (hp : P d) : Done (ds ++ [d]) P :=
  ⟨d, List.mem_append_right _ List.mem_cons_self, hp⟩

theorem Wrote.later {o : UserID} {m t : String} (h : Wrote ds x o m t) (d : Episode) : Wrote (ds ++ [d]) x o m t := by
  obtain ⟨earlier, d', later, u, rfl, hw, hu⟩ := h
  exact ⟨earlier, d', later ++ [d], u, by simp, hw, hu⟩

theorem Wrote.now {o u : UserID} {m t : String} {d : Episode} (hw : d.Writes u x m t)
    (hu : u = o ∨ ∃ c, Done ds (Episode.HandsTo o u x c)) : Wrote (ds ++ [d]) x o m t :=
  ⟨ds, d, [], u, rfl, hw, hu⟩

namespace Errand.From

/-- What has been done is not undone. -/
theorem later (h : e.From ds x) (d : Episode) : e.From (ds ++ [d]) x where
  made := h.made.later d
  passed hd hh := (h.passed hd hh).later d
  accepted hd hh ha := (h.accepted hd hh ha).later d
  wrote := h.wrote.later d

/-- An errand comes from the operation that makes it. -/
theorem of_made (hx : es x = none) (he : es' x = some e) (h : Errands.Made op e) :
    e.From (ds ++ [⟨es, op, es'⟩]) x := by
  cases h with
  | added u m p d q =>
    exact ⟨.now (.added es es' m p d q hx he), by simp, by simp, .now (.added es es' p q hx he) (.inl rfl)⟩
  | sent u v m p d q c =>
    refine ⟨.now (.sent es es' v m p d q c hx he), fun h hh => ?_, fun h hh ha => ?_,
      .now (.sent es es' v p q c hx he) (.inl rfl)⟩
    · cases hh
      exact .now (.sent es es' m p d q hx he)
    · cases hh
      cases ha

/-- Whoever knows an errand owns it, or has had it passed on to them. -/
theorem knownAs (h : e.From ds x) {u : UserID} {id : String} (hk : e.KnownAs x u id) :
    u = e.owner ∨ ∃ c, Done ds (Episode.HandsTo e.owner u x c) := by
  cases hk with
  | owner => exact .inl rfl
  | holder hd hh => exact .inr ⟨hd.copy, h.passed hd hh⟩

/-- An errand that is changed comes from that change as well. -/
theorem of_change (h : e.From ds x) (hx : es x = some e) (he : es' x = some e') (hc : Errands.Change x e op (some e')) :
    e'.From (ds ++ [⟨es, op, es'⟩]) x := by
  have hlater := h.later ⟨es, op, es'⟩
  cases hc with
  | accepted u id hh =>
    refine ⟨hlater.made, fun hd hhd => ?_, fun hd hhd _ => ?_, hlater.wrote⟩
    · cases hhd
      exact hlater.passed ⟨u, id, false⟩ hh
    · cases hhd
      exact .now (.accepted es es' e hx hh he)
  | edited u id m d hk =>
    exact ⟨hlater.made, hlater.passed, hlater.accepted, .now (.edited es es' e id hx hk he) (h.knownAs hk)⟩
  | given t y htu =>
    refine ⟨hlater.made, fun hd hhd => ?_, fun hd hhd ha => ?_, hlater.wrote⟩
    · cases hhd
      exact .now (.assigned es es' e hx rfl he)
    · cases hhd
      cases ha
  | takenBack hh => exact ⟨hlater.made, by simp, by simp, hlater.wrote⟩

/-- **Every errand comes from the operations so far.** -/
theorem of_steps (h : Steps Episode.Step Errands.empty ds es) (hx : es x = some e) : e.From ds x := by
  have hstep : ∀ ds es d es', (∀ x e, es x = some e → e.From ds x) → Episode.Step es d es' →
      ∀ x e, es' x = some e → e.From (ds ++ [d]) x := by
    rintro ds es _ es' hfrom ⟨hs⟩ x e' he'
    cases hx : es x with
    | none => exact of_made hx he' (hs.made hx he').2
    | some e =>
      rcases hs.change hx with hsame | ⟨-, hchange⟩
      · cases hsame.symm.trans he'
        exact (hfrom x _ hx).later _
      · rw [he'] at hchange
        exact (hfrom x e hx).of_change hx he' hchange
  have hall : ∀ x e, es x = some e → e.From ([] ++ ds) x :=
    h.keep (I := fun ds es => ∀ x e, es x = some e → e.From ds x) hstep fun x e he => by cases he
  exact hall x e hx

end Errand.From
end origins

/-! ## The operations of a run -/

namespace Input

/-- What an input does: its operation, if it makes one that is done. -/
noncomputable def episode (E : Env) (w : World) (e : Input) : Option Episode :=
  (e.op E w).bind fun op => if op.succeeds E w then some ⟨w.board.errands, op, (e.after E w).board.errands⟩ else none

/-- What the inputs of a run do, input by input. -/
noncomputable def episodes (E : Env) : World → List (Input × Option Reply) → List (Option Episode)
  | _, []           => []
  | w, (e, _) :: tr => e.episode E w :: episodes E (e.after E w) tr

/-- One input of a run. -/
def Does (E : Env) (w : World) (d : Option Episode) (w' : World) : Prop :=
  ∃ e : Input, e.Covered E w ∧ d = e.episode E w ∧ w' = e.after E w

/-- **Every input does its operation's step, or none**: one refused leaves the errands as they were. -/
theorem simulates_episodes (E : Env) :
    Simulates (fun w es => w.Settled E ∧ es = w.board.errands) (Does E) Episode.Step := by
  rintro w _ _ _ ⟨h, rfl⟩ ⟨e, he, rfl, rfl⟩
  have hsim := simulates E w _ _ _ ⟨h, rfl⟩ ⟨e, he, rfl, rfl⟩
  unfold label at hsim
  unfold episode
  cases ho : e.op E w with
  | none => rwa [ho] at hsim
  | some op =>
    rw [ho] at hsim
    obtain ⟨_, (hs : Errands.Step _ (op, op.succeeds E w) _), hsettled, rfl⟩ := hsim
    rw [Option.bind_some]
    cases hok : op.succeeds E w with
    | true =>
      rw [hok] at hs
      exact ⟨_, .done hs, hsettled, rfl⟩
    | false =>
      rw [hok] at hs
      have hsame : (e.after E w).board.errands = w.board.errands := by
        generalize (e.after E w).board.errands = es' at hs
        cases hs with
        | refuse _ hno => rfl
      exact ⟨hsettled, hsame.symm⟩

theorem runs_does {E : Env} {w w' : World} {tr : List (Input × Option Reply)}
    (h : InputRuns E (fun w e => e.Covered E w) w tr w') : Steps (Does E) w (episodes E w tr) w' := by
  induction h with
  | done w => exact .nil w
  | step e he _ ih => exact .cons ⟨e, he, rfl, rfl⟩ ih

end Input

/-- **How the errand `x` of a user's has come into a list of `u`'s**, where it has this id. -/
inductive Origin (ds : List Episode) (x : String) (u : UserID) : String → UserID → ListID → Prop
  | kept (hm : Done ds (Episode.Makes u x)) : Origin ds x u x u .myList
  | accepted (id : String) (o : UserID) (hp : Done ds (Episode.HandsTo o u x id)) (ha : Done ds (Episode.Accepts u x id)) :
      Origin ds x u id o .myList
  | waiting (id : String) (o : UserID) (hp : Done ds (Episode.HandsTo o u x id)) : Origin ds x u id o .inList
  | sent (v : UserID) (c : String) (hm : Done ds (Episode.Makes u x)) (hp : Done ds (Episode.HandsTo u v x c)) :
      Origin ds x u x u .outList

theorem Errand.From.origin {ds : List Episode} {x : String} {e : Errand} (h : e.From ds x) {E : Env} {u : UserID}
    {l : ListID} {id fu fl : String} (hs : e.Shown E x u l id fu fl) : Origin ds x u id e.owner l := by
  cases hs with
  | kept hh => exact .kept h.made
  | sent hd hh => exact .sent hd.user hd.copy h.made (h.passed hd hh)
  | waiting _ _ hh => exact .waiting id _ (h.passed ⟨u, id, false⟩ hh)
  | accepted _ _ hh => exact .accepted id _ (h.passed ⟨u, id, true⟩ hh) (h.accepted ⟨u, id, true⟩ hh rfl)

/-- **Nothing is slipped to a user.**  After any run of covered inputs a user is answered the lists: every entry in them
shows an errand they know by its id, and that errand is one they have made, or its owner has passed on to them, and is in
their own list only if they have accepted it; and it says what its owner has written of it, or somebody the owner had
passed it on to. -/
theorem inputs_origin {E : Env} {tr : List (Input × Option Reply)} {w w' : World}
    (h : InputRuns E (fun w e => e.Covered E w) World.empty tr w) {u : UserID} {reminder offset : String}
    {lists : ListsIssue} (hlists : (serveHTTP u (.lists reminder offset)).run (serve E) w = (some (.lists lists), w'))
    {l : ListID} {entry : ExtendedIssue} (hentry : entry ∈ lists.of l) :
    ∃ x e, w.board.errands x = some e ∧ e.KnownAs x u entry.issue.id ∧
      Origin (Input.episodes E World.empty tr).reduceOption x u entry.issue.id e.owner l ∧
      Wrote (Input.episodes E World.empty tr).reduceOption x e.owner entry.issue.message entry.issue.description := by
  obtain ⟨es, hsteps, hs, rfl⟩ :=
    (Input.simulates_episodes E).steps (Input.runs_does h) ⟨World.settled_empty E, Board.errands_empty.symm⟩
  obtain ⟨rfl, -⟩ := serveHTTP_lists_shown hs hlists
  obtain ⟨x, e, he, hshows⟩ := hs.shows hentry
  have hfrom := Errand.From.of_steps hsteps he
  have hwrote := hfrom.wrote
  rw [← hshows.text] at hwrote
  exact ⟨x, e, he, hshows.shown.knownAs, hfrom.origin hshows.shown, hwrote⟩

section sample

/-- What Bob is answered once he has accepted Ann's todo. -/
def bobAccepted : ListsIssue :=
  (acceptMilk.after Env.sample (sendMilk.after Env.sample World.empty)).shown Env.sample bob

/-- Ann has sent, and Bob has accepted. -/
noncomputable def milkEpisodes : List Episode :=
  [⟨World.empty.board.errands, .sendIssue ann bob "milk" "" "" "", (sendMilk.after Env.sample World.empty).board.errands⟩,
    ⟨(sendMilk.after Env.sample World.empty).board.errands, .acceptIssue bob "xx",
      (acceptMilk.after Env.sample (sendMilk.after Env.sample World.empty)).board.errands⟩]

theorem acceptMilk_origin :
    ∃ x e, (acceptMilk.after Env.sample (sendMilk.after Env.sample World.empty)).board.errands x = some e ∧
      e.KnownAs x bob "xx" ∧ Origin milkEpisodes x bob "xx" e.owner .myList ∧ Wrote milkEpisodes x e.owner "milk" "" := by
  have hlists : (serveHTTP bob (.lists "" "")).run (serve Env.sample)
      (acceptMilk.after Env.sample (sendMilk.after Env.sample World.empty)) =
      (some (.lists bobAccepted), acceptMilk.after Env.sample (sendMilk.after Env.sample World.empty)) := rfl
  exact inputs_origin (E := Env.sample) (.step sendMilk (fun o ho => by cases ho; trivial)
    (.step acceptMilk (fun o ho => by cases ho; trivial) (.done _))) hlists (l := .myList) (List.mem_cons_self)

end sample
end Todo

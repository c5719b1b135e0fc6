import TodoPlugin.PairRace
/-!
# Both sides edited at once

Each of the two edits saves the other's copy first and its own copy last.  A record then carries the text of whoever
saved it last, and the two texts differ only when each side's copy is as that side left it.
-/
namespace Todo

open Store (ids)
open Relation (ReflTransGen)

/-- A pair in a store, with the texts its two sides are about to save. -/
structure EditPair where
  world : World
  side  : Bool → Side
  issue : Bool → Issue
  text  : Bool → String × String
  sound : world.Sound
  id    : ∀ j, (issue j).id = (side j).id
  found : ∀ j, world.issue (side j).id = some (issue j)
  ne    : ∀ j, (side j).id ≠ (side !j).id
  only  : OnlyRefs side world
  here  : ∀ j, (side j).Listed world

namespace EditPair

variable (p : EditPair)

/-- The issue of side `j` with the text of side `i`. -/
def retexted (j i : Bool) : Issue := (p.issue j).retext (p.text i).1 (p.text i).2

/-- The issue of side `j` as the last who saved it left it. -/
def record (j : Bool) : Option Bool → Issue
  | none   => p.issue j
  | some i => p.retexted j i

end EditPair

/-- The store, who saved each record last, and how many records each side has saved. -/
structure EditState where
  world  : World
  writer : Bool → Option Bool
  saved  : Bool → Nat

/-- **What the two edits keep.** -/
structure EditInv (p : EditPair) (g : EditState) : Prop where
  sound  : g.world.Sound
  list   : g.world.list = p.world.list
  record : ∀ j, g.world.issue (p.side j).id = some (p.record j (g.writer j))
  other  : ∀ id, (∀ j, id ≠ (p.side j).id) → g.world.issue id = p.world.issue id
  first  : ∀ i, g.saved i = 1 → g.writer (!i) ≠ none
  both   : ∀ i, g.saved i = 2 → g.writer i ≠ none ∧ g.writer (!i) ≠ none
  own    : ∀ i, g.saved i = 2 → g.saved (!i) = 2 → g.writer i = some (!i) → g.writer (!i) = some (!i)

/-- The state once side `i` has saved the record of side `j`, its `n`-th. -/
def EditState.save (p : EditPair) (g : EditState) (i j : Bool) (n : Nat) : EditState :=
  ⟨g.world.save (p.retexted j i), Function.update g.writer j (some i), Function.update g.saved i n⟩

/-- **A step of side `i`**: it saves the other's copy, and then its own. -/
inductive EditStep (p : EditPair) (i : Bool) : EditState → EditState → Prop
  | foreign {g : EditState} (h : g.saved i = 0) : EditStep p i g (g.save p i (!i) 1)
  | own {g : EditState} (h : g.saved i = 1) : EditStep p i g (g.save p i i 2)

section steps
variable {p : EditPair} {i j : Bool} {g g' : EditState}

/-- Saving a record of the pair keeps what the invariant says of the store. -/
theorem EditInv.save (h : EditInv p g) (i j : Bool) (n : Nat) :
    (g.save p i j n).world.Sound ∧ (g.save p i j n).world.list = p.world.list ∧
    (∀ k, (g.save p i j n).world.issue (p.side k).id = some (p.record k ((g.save p i j n).writer k))) ∧
    ∀ id, (∀ k, id ≠ (p.side k).id) → (g.save p i j n).world.issue id = p.world.issue id := by
  have hid : (p.retexted j i).id = (p.side j).id := p.id j
  refine ⟨h.sound.save (hid ▸ h.sound.id_ne_empty (h.record j)), ?_, fun k => ?_, fun id hne => ?_⟩
  · exact (h.sound.list_save _).trans h.list
  · rw [EditState.save, h.sound.issue_save, hid]
    by_cases hk : k = j
    · subst hk
      simp only [if_true, Function.update_self]
      rfl
    · have hne : (p.side k).id ≠ (p.side j).id := by
        obtain rfl : j = !k := by cases j <;> cases k <;> simp_all
        exact p.ne k
      simp only [if_neg hne, Function.update_of_ne hk]
      exact h.record k
  · rw [EditState.save, h.sound.issue_save, hid, if_neg (hne j)]
    exact h.other id hne

theorem EditStep.inv (hstep : EditStep p i g g') (h : EditInv p g) : EditInv p g' := by
  have hside : ∀ k, k = i ∨ k = !i := fun k => by cases i <;> cases k <;> simp
  cases hstep with
  | foreign hi =>
    -- side `i` has set the other's record, its first
    obtain ⟨hs, hl, hr, ho⟩ := h.save i (!i) 1
    refine ⟨hs, hl, hr, ho, fun k hk => ?_, fun k hk => ?_, fun k hk hk' hw => ?_⟩ <;>
      simp only [EditState.save] at *
    · rcases hside k with rfl | rfl
      · simp
      · simpa using h.first (!i) (by simpa using hk)
    · rcases hside k with rfl | rfl
      · simp at hk
      · have hb := h.both (!i) (by simpa using hk)
        simpa using hb.2
    · rcases hside k with rfl | rfl
      · simp at hk
      · simp at hk'
  | own hi =>
    -- and now its own, which carries its text whoever set it before
    obtain ⟨hs, hl, hr, ho⟩ := h.save i i 2
    refine ⟨hs, hl, hr, ho, fun k hk => ?_, fun k hk => ?_, fun k hk hk' hw => ?_⟩ <;>
      simp only [EditState.save] at *
    · rcases hside k with rfl | rfl
      · simp at hk
      · simp
    · rcases hside k with rfl | rfl
      · simpa using h.first k hi
      · have hb := h.both (!i) (by simpa using hk)
        simpa using hb.1
    · rcases hside k with rfl | rfl
      · simp at hw
      · simp

/-- Only a side itself counts what it has saved. -/
theorem editSteps_saved (h : ReflTransGen (EditStep p (!i)) g g') : g'.saved i = g.saved i := by
  induction h with
  | refl => rfl
  | tail _ hstep ih =>
    rw [← ih]
    cases hstep with
    | foreign _ => exact Function.update_of_ne (by cases i <;> decide) _ _
    | own _ => exact Function.update_of_ne (by cases i <;> decide) _ _

end steps

/-! ## The two sides of the race -/

/-- The key a call sets, if it does. -/
def Call.sets : Call → Option String
  | .kvSet key _ => some key
  | _            => none

/-- Who set a key last in a trace, `last` before it. -/
def lastToSet (key : String) (last : Option Bool) (tr : List (Event Bool Call Resp)) : Option Bool :=
  tr.foldl (fun last e => if e.call.sets = some key then some e.who else last) last

abbrev EditGhost (p : EditPair) := { g : EditState // EditInv p g }

/-- What side `i` may do: one of its steps by setting a record, or nothing. -/
def editGuar (p : EditPair) (i : Bool) (c : Call) (g g' : EditGhost p) : Prop :=
  (c.sets = none ∧ g' = g) ∨
    ∃ j, c.sets = some (issueKey (p.side j).id) ∧ g'.1.writer = Function.update g.1.writer j (some i) ∧
      EditStep p i g.1 g'.1

/-- Side `i` of the race. -/
def editRace (p : EditPair) (i : Bool) : Race (EditGhost p) where
  world g          := g.1.world
  rely g g'        := ReflTransGen (EditStep p (!i)) g.1 g'.1
  guar c _         := editGuar p i c
  refl _           := .refl
  trans _ _ _ h h' := h.trans h'
  noted _ _        := True
  get _ _ _        := .inl ⟨rfl, rfl⟩
  issue _ _        := trivial
  lost _ _ _ _ _   := .inl ⟨rfl, rfl⟩

section race
variable {p : EditPair} {i : Bool} {E : Env}

theorem editRace_compat (i j : Bool) (c : Call) (r : Resp c) (g g' : EditGhost p) (hij : i ≠ j)
    (h : (editRace p i).guar c r g g') : (editRace p j).rely g g' := by
  obtain rfl : i = !j := by cases i <;> cases j <;> simp_all
  rcases h with ⟨-, rfl⟩ | ⟨-, -, -, hstep⟩
  · exact .refl
  · exact .single hstep

/-- A record's last writer is the last to set it. -/
theorem editPath_writer {tr : List (Event Bool Call Resp)} {g g' : EditGhost p}
    (h : Pool.Path (fun i => (editRace p i).guar) tr g g') (j : Bool) :
    g'.1.writer j = lastToSet (issueKey (p.side j).id) (g.1.writer j) tr := by
  induction h with
  | done g => rfl
  | @turn g g₁ g' e tr he _ ih =>
    rw [ih, lastToSet, lastToSet, List.foldl_cons]
    congr 1
    rcases he with ⟨hno, rfl⟩ | ⟨k, hk, hw, -⟩
    · simp [hno]
    · rw [hw, hk, Function.update_apply]
      by_cases hjk : j = k
      · simp [hjk]
      · have hne : (p.side k).id ≠ (p.side j).id := by
          obtain rfl : j = !k := by cases j <;> cases k <;> simp_all
          exact p.ne k
        simp [hjk, issueKey_inj, hne]

/-- Saving the `n`-th record is a step. -/
theorem edit_save {g : EditGhost p} {j : Bool} {n : Nat} (hstep : EditStep p i g.1 (g.1.save p i j n)) :
    ∃ g' : EditGhost p, g'.1.world = g.1.world.save (p.retexted j i) ∧
      editGuar p i (.kvSet (issueKey (p.retexted j i).id) (.issue (p.retexted j i))) g g' ∧ g'.1.saved i = n := by
  refine ⟨⟨_, hstep.inv g.2⟩, rfl, .inr ⟨j, ?_, rfl, hstep⟩, Function.update_self ..⟩
  rw [show (p.retexted j i).id = (p.side j).id from p.id j]
  rfl

theorem edit_fetch (g : EditGhost p) (j : Bool) :
    g.1.world.fetch (p.side j).id = .ok (p.record j (g.1.writer j)) := by
  rw [World.fetch, g.2.record]

theorem retext_record (p : EditPair) (j i : Bool) (w : Option Bool) :
    { p.record j w with message := (p.text i).1, description := (p.text i).2 } = p.retexted j i := by
  cases w <;> rfl

/-- **An edit** saves both records and returns without an error. -/
theorem editIssue_safe {g : EditGhost p} (hg : g.1.saved i = 0) {post : EditResult → EditGhost p → Prop}
    (hpost : ∀ g res, g.1.saved i = 2 → res.err = none → post res g) :
    (editRace p i).Safe E post
      (ListManager.editIssue (p.side i).user (p.side i).id (p.text i).1 (p.text i).2) g := by
  have hs : ∀ g, ((editRace p i).world g).Sound := fun g => g.2.sound
  have hkeep : ∀ {n} {g g' : EditGhost p}, g.1.saved i = n → (editRace p i).rely g g' → g'.1.saved i = n :=
    fun h hr => (editSteps_saved hr).trans h
  have href : ∀ (g : EditGhost p) l, ∀ r ∈ g.1.world.list (listKey (p.side i).user l), r.issueID = (p.side i).id →
      l = (p.side i).list ∧ r = (p.side i).ref (p.side !i) := fun g l r hr he => by
    rw [g.2.list] at hr
    exact (p.only i _ _ r hr he).2
  unfold ListManager.editIssue
  apply Race.getIssue hs
  intro g₁ hr₁
  rw [show (editRace p i).world g₁ = g₁.1.world from rfl, edit_fetch]
  refine Race.getIssueListAndReference hs
    (fun l g' _ => ⟨trivial, Dropper.not_legacy fun r hr he => (href g' l r hr he).2⟩)
    (fun g₂ l r n hr₂ hm he => ?_) fun g₂ g₃ g₄ _ _ _ hno₁ hno₂ hno₃ => ?_
  · obtain ⟨rfl, rfl⟩ := href g₂ l r hm he
    have hne : (p.side !i).id ≠ "" := p.sound.id_ne_empty (p.found !i)
    simp only [Side.ref, ne_eq, hne, not_false_eq_true, if_true]
    apply Race.getIssue hs
    intro g₃ hr₃
    rw [show (editRace p i).world g₃ = g₃.1.world from rfl, edit_fetch]
    apply Race.saveIssue
    intro g₄ hr₄
    have h₄ := hkeep (hkeep (hkeep (hkeep hg hr₁) hr₂) hr₃) hr₄
    obtain ⟨g₅, hw₅, hgu₅, h₅⟩ := edit_save (.foreign (p := p) h₄)
    rw [retext_record]
    refine ⟨g₅, hw₅, hgu₅, ?_⟩
    apply Race.saveIssue
    intro g₆ hr₆
    have h₆ := hkeep h₅ hr₆
    obtain ⟨g₇, hw₇, hgu₇, h₇⟩ := edit_save (.own (p := p) h₆)
    rw [retext_record]
    exact ⟨g₇, hw₇, hgu₇, Race.ret fun g₈ hr₈ => hpost g₈ _ (hkeep h₇ hr₈) rfl⟩
  · -- the own reference does not move
    have hno : ∀ l, (p.side i).id ∉ ids (p.world.list (listKey (p.side i).user l)) := by
      intro l
      cases l with
      | myList => exact g₂.2.list ▸ hno₁
      | outList => exact g₃.2.list ▸ hno₂
      | inList => exact g₄.2.list ▸ hno₃
    exact absurd (p.here i) (hno _)

end race
/-! ## The race -/

/-- **Both sides edited at once.**  Both edits succeed, nothing but the two texts changes, and each record carries the
text of whoever set it last: of one edit both, or each side's record the text of that side. -/
theorem editIssue_race (E : Env) {w : World} {u v : UserID} {l : ListID} {x y : String} (h : w.HasPair u v l x y)
    {i j : Issue} (hi : w.issue x = some i) (hj : w.issue y = some j) (text : Bool → String × String)
    {tr : List (Event Bool Call Resp)} {P : Pool Bool Call Resp ListResult World}
    (hrun : Pool.Exec (serve E) (listPool (.editIssue u x (text true).1 (text true).2)
      (.editIssue v y (text false).1 (text false).2) w) tr P) (hfin : P.Finished) :
    (∃ ra rb, P.procs true = .ret ra ∧ P.procs false = .ret rb ∧ ra.err = none ∧ rb.err = none) ∧
      P.state.list = w.list ∧ (∀ id, id ≠ x → id ≠ y → P.state.issue id = w.issue id) ∧
      ∃ a b, lastToSet (issueKey x) none tr = some a ∧ lastToSet (issueKey y) none tr = some b ∧
        (a = b ∨ a = true ∧ b = false) ∧ P.state.issue x = some (i.retext (text a).1 (text a).2) ∧
        P.state.issue y = some (j.retext (text b).1 (text b).2) := by
  let p : EditPair := {
    world := w
    side  := pairSide u v l x y
    issue := fun b => if b then i else j
    text  := text
    sound := h.sound
    id    := by rintro (_ | _); exacts [h.sound.issue_id hj, h.sound.issue_id hi]
    found := by rintro (_ | _); exacts [hj, hi]
    ne    := by rintro (_ | _); exacts [h.ne.symm, h.ne]
    only  := h.onlyRefs
    here  := h.listed }
  let g₀ : EditGhost p := ⟨⟨w, fun _ => none, fun _ => 0⟩, h.sound, rfl, p.found, fun _ _ => rfl, nofun, nofun, nofun⟩
  let post : Bool → ListResult → EditGhost p → Prop := fun b res g => g.1.saved b = 2 ∧ res.err = none
  have hsafe : ∀ b, (editRace p b).Safe E (post b) ((listPool (.editIssue u x (text true).1 (text true).2)
      (.editIssue v y (text false).1 (text false).2) w).procs b) g₀ := by
    have hone : ∀ b, (editRace p b).Safe E (post b)
        (ListOp.editIssue (p.side b).user (p.side b).id (text b).1 (text b).2).exec g₀ := fun b =>
      Proc.Safe.bind (editRace p b).refl (editIssue_safe (p := p) rfl fun g res hg herr g' hr =>
        ⟨(editSteps_saved hr).trans hg, herr⟩)
    rintro (_ | _)
    · exact hone false
    · exact hone true
  obtain ⟨g, hstate, hpath, hpost⟩ := hrun.finished (fun b => (editRace p b).trans) (fun b => (editRace p b).refl)
    editRace_compat hfin (g := g₀) rfl hsafe
  obtain ⟨ra, hra, hsa, hea⟩ := hpost true
  obtain ⟨rb, hrb, hsb, heb⟩ := hpost false
  obtain ⟨a, ha⟩ := Option.ne_none_iff_exists'.1 (g.2.both true hsa).1
  obtain ⟨b, hb⟩ := Option.ne_none_iff_exists'.1 (g.2.both false hsb).1
  have hrec := g.2.record
  rw [hstate]
  refine ⟨⟨ra, rb, hra, hrb, hea, heb⟩, g.2.list, fun id hx hy => g.2.other id ?_, a, b, ?_, ?_, ?_, ?_, ?_⟩
  · rintro (_ | _)
    · exact hy
    · exact hx
  · exact (editPath_writer hpath true).symm.trans ha
  · exact (editPath_writer hpath false).symm.trans hb
  · -- `x` last set by `v` and `y` by `u` would need each side to have finished first
    have hown := g.2.own true hsa hsb
    rw [Bool.not_true, ha, hb] at hown
    cases a <;> cases b <;> simp_all
  · have := hrec true
    rw [ha] at this
    exact this
  · have := hrec false
    rw [hb] at this
    exact this

section sample

/-- Ann and Bob edit one todo, each saving the other's copy before either saves its own. -/
def editedByBoth : List (Event Bool Call Resp) × Pool Bool Call Resp ListResult World :=
  Pool.play (serve Env.sample) (listPool (.editIssue ann "x" "tea" "") (.editIssue bob "xx" "rum" "") sentToBob)
    (List.replicate 5 true ++ List.replicate 6 false ++ [true, false])

theorem editedByBoth_finished : editedByBoth.2.Finished := Pool.finished_of_returned (by decide)

/-- **Edits at once need not agree.** -/
theorem editIssue_race_diverges :
    sentToBob.HasPair ann bob .inList "x" "xx" ∧
    (∃ i j, sentToBob.issue "x" = some i ∧ sentToBob.issue "xx" = some j ∧ i.message = j.message ∧
      i.description = j.description) ∧
    Pool.Exec (serve Env.sample)
      (listPool (.editIssue ann "x" "tea" "") (.editIssue bob "xx" "rum" "") sentToBob)
      editedByBoth.1 editedByBoth.2 ∧ editedByBoth.2.Finished ∧
    (editedByBoth.2.state.issue "x").map Issue.message = some "tea" ∧
    (editedByBoth.2.state.issue "xx").map Issue.message = some "rum" :=
  ⟨sentToBob_hasPair, ⟨⟨"x", "milk", "", "", 0, ""⟩, ⟨"xx", "milk", "", "", 1, ""⟩, by decide, by decide, rfl, rfl⟩,
    Pool.play_exec _ _ _, editedByBoth_finished, by decide, by decide⟩

theorem editedByBoth_texts :
    ∃ a b, lastToSet (issueKey "x") none editedByBoth.1 = some a ∧ lastToSet (issueKey "xx") none editedByBoth.1 = some b ∧
      (a = b ∨ a = true ∧ b = false) :=
  have h := editIssue_race Env.sample sentToBob_hasPair (i := ⟨"x", "milk", "", "", 0, ""⟩)
    (j := ⟨"xx", "milk", "", "", 1, ""⟩) (by decide) (by decide) (fun b => if b then ("tea", "") else ("rum", ""))
    (Pool.play_exec (serve Env.sample) (List.replicate 5 true ++ List.replicate 6 false ++ [true, false]) _)
    editedByBoth_finished
  have ⟨a, b, ha, hb, hab, _⟩ := h.2.2.2
  ⟨a, b, ha, hb, hab⟩

end sample
end Todo

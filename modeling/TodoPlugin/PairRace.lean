import TodoPlugin.DropRace
import TodoPlugin.ListRuns
/-!
# Both sides dropped at once

The sender removes a todo while the receiver completes or removes it.  Each takes its own reference out first, so that
at most one of them finds it gone; what is left of the pair only shrinks, and whoever won leaves nothing of it.
-/
namespace Todo

open Store (ids without)
open Relation (ReflTransGen)

/-- A store with a pair: `x` sent by `u`, and its counterpart `y` in the list `l` of `v`. -/
structure World.HasPair (w : World) (u v : UserID) (l : ListID) (x y : String) : Prop where
  sound  : w.Sound
  paired : w.board.OutPaired
  users  : u ≠ v
  side   : l ≠ .outList
  fst    : ⟨x, y, v⟩ ∈ w.board.refs u .outList
  snd    : ⟨y, x, u⟩ ∈ w.board.refs v l

namespace World.HasPair

variable {w : World} {u v : UserID} {l : ListID} {x y : String}

theorem ne (h : w.HasPair u v l x y) : x ≠ y := h.paired.toApart.pair_ne h.side h.fst h.snd

/-- The only reference to `x` is the sender's. -/
theorem ref_fst (h : w.HasPair u v l x y) {a : UserID} {m : ListID} {r : IssueRef} (hr : r ∈ w.board.refs a m)
    (he : r.issueID = x) : a = u ∧ m = .outList ∧ r = ⟨x, y, v⟩ := h.paired.toApart.eq hr h.fst he

/-- The only reference to `y` is the receiver's. -/
theorem ref_snd (h : w.HasPair u v l x y) {a : UserID} {m : ListID} {r : IssueRef} (hr : r ∈ w.board.refs a m)
    (he : r.issueID = y) : a = v ∧ m = l ∧ r = ⟨y, x, u⟩ := h.paired.toApart.eq hr h.snd he

end World.HasPair

/-- The sides of a pair, the sender's first. -/
def pairSide (u v : UserID) (l : ListID) (x y : String) : Bool → Side
  | true  => ⟨u, .outList, x⟩
  | false => ⟨v, l, y⟩

/-- The only references of users to the two issues are the two. -/
def OnlyRefs (s : Bool → Side) (w : World) : Prop :=
  ∀ i (a : UserID) m, ∀ r ∈ w.board.refs a m, r.issueID = (s i).id → a = (s i).user ∧ m = (s i).list ∧ r = (s i).ref (s !i)

namespace World.HasPair

variable {w : World} {u v : UserID} {l : ListID} {x y : String}

theorem onlyRefs (h : w.HasPair u v l x y) : OnlyRefs (pairSide u v l x y) w := by
  rintro (_ | _) a m r hr he
  · exact h.ref_snd hr he
  · exact h.ref_fst hr he

theorem listed (h : w.HasPair u v l x y) : ∀ j, (pairSide u v l x y j).Listed w := by
  rintro (_ | _)
  · exact List.mem_map.2 ⟨_, h.snd, rfl⟩
  · exact List.mem_map.2 ⟨_, h.fst, rfl⟩

end World.HasPair

/-! ## What the two may do -/

section drop
variable {s : Bool → Side}

/-- **A step of side `i`**: its compare-and-set takes its own reference out, and from then on it takes the other's out
and deletes records. -/
inductive DropStep (s : Bool → Side) (i : Bool) : World × (Bool → Bool) → World × (Bool → Bool) → Prop
  | win {w : World} {won : Bool → Bool} (h : won i = false) (hin : (s i).Listed w) :
      DropStep s i (w, won) (w.unlist (s i).user (s i).id (s i).list, Function.update won i true)
  | unlist {w : World} {won : Bool → Bool} (h : won i = true) :
      DropStep s i (w, won) (w.unlist (s !i).user (s !i).id (s !i).list, won)
  | delete {w : World} {won : Bool → Bool} (h : won i = true) (j : Bool) :
      DropStep s i (w, won) (w.delete (issueKey (s j).id), won)

/-- What the steps keep, from a store where the two references are all there is to the pair. -/
structure DropInv (s : Bool → Side) (w₀ : World) (g : World × (Bool → Bool)) : Prop where
  sound   : g.1.Sound
  frame   : Frame [(s true).id, (s false).id] w₀.board g.1.board
  shrinks : World.Shrinks w₀ g.1
  listed  : (∀ i, g.2 i = false) → ∀ j, (s j).Listed g.1

theorem side_mem (s : Bool → Side) (i : Bool) : (s i).id ∈ [(s true).id, (s false).id] := by cases i <;> simp

variable {w₀ : World} {i : Bool} {g g' : World × (Bool → Bool)}

theorem DropStep.inv (h : DropStep s i g g') (hi : DropInv s w₀ g) : DropInv s w₀ g' := by
  cases h with
  | @win w won hwon hin =>
    refine ⟨hi.sound.unlist _ _ _, ?_, hi.shrinks.trans (World.shrinks_unlist ..), fun hno => ?_⟩
    · rw [World.board_unlist]
      exact hi.frame.setList _ (outside_without (side_mem s i) _)
    · have hfalse : Function.update won i true i = false := hno i
      rw [Function.update_self] at hfalse
      cases hfalse
  | @unlist w won hwon =>
    refine ⟨hi.sound.unlist _ _ _, ?_, hi.shrinks.trans (World.shrinks_unlist ..), fun hno => ?_⟩
    · rw [World.board_unlist]
      exact hi.frame.setList _ (outside_without (side_mem s !i) _)
    · exact absurd (hno i) (by simp [hwon])
  | @delete w won hwon j =>
    refine ⟨hi.sound.delete_issue _, ?_, hi.shrinks.trans (hi.sound.shrinks_delete _), fun hno => ?_⟩
    · rw [hi.sound.board_delete_issue]
      exact hi.frame.setIssue (side_mem s j) _
    · exact absurd (hno i) (by simp [hwon])

theorem DropStep.shrinks (h : DropStep s i g g') (hi : DropInv s w₀ g) : World.Shrinks g.1 g'.1 := by
  cases h with
  | win _ _ => exact World.shrinks_unlist ..
  | unlist _ => exact World.shrinks_unlist ..
  | delete _ j => exact hi.sound.shrinks_delete _

/-- Once a side has won it has. -/
theorem DropStep.won (h : DropStep s i g g') {j : Bool} (hj : g.2 j = true) : g'.2 j = true := by
  cases h with
  | win _ _ =>
    by_cases he : j = i
    · subst he; simp
    · simpa [Function.update_of_ne he] using hj
  | unlist _ => exact hj
  | delete _ _ => exact hj

/-- Only a side itself wins. -/
theorem DropStep.other (h : DropStep s (!i) g g') : g'.2 i = g.2 i := by
  cases h with
  | win _ _ => exact Function.update_of_ne (by cases i <;> decide) _ _
  | unlist _ => rfl
  | delete _ _ => rfl

/-- How many of the two issues a list has. -/
def dropFuel (s : Bool → Side) (key : String) (w : World) : Nat :=
  (if (s true).id ∈ ids (w.list key) then 1 else 0) + (if (s false).id ∈ ids (w.list key) then 1 else 0)

theorem dropFuel_le {w w' : World} (h : World.Shrinks w w') (key : String) : dropFuel s key w' ≤ dropFuel s key w := by
  have h₁ := fun hm => Classical.byContradiction fun hno => @h.not_mem _ _ key (s true).id hno hm
  have h₂ := fun hm => Classical.byContradiction fun hno => @h.not_mem _ _ key (s false).id hno hm
  unfold dropFuel
  split <;> split <;> simp_all

theorem dropFuel_lt {w w' : World} (h : World.Shrinks w w') {key : String} {j : Bool}
    (hin : (s j).id ∈ ids (w.list key)) (hout : (s j).id ∉ ids (w'.list key)) :
    dropFuel s key w' < dropFuel s key w := by
  have h₁ := fun hm => Classical.byContradiction fun hno => @h.not_mem _ _ key (s true).id hno hm
  have h₂ := fun hm => Classical.byContradiction fun hno => @h.not_mem _ _ key (s false).id hno hm
  unfold dropFuel
  cases j <;> simp only [hin, hout, if_true, if_false] <;> split <;> split <;> simp_all

theorem dropFuel_lt_three (s : Bool → Side) (key : String) (w : World) : dropFuel s key w < 3 := by
  unfold dropFuel
  split <;> split <;> decide

/-- Taking a side's reference out is a change of its list, which is not in the legacy encoding. -/
theorem ebbs_unlist {w : World} (href : OnlyRefs s w) (key : String) (j : Bool) :
    World.Ebbs key w (w.unlist (s j).user (s j).id (s j).list) (dropFuel s key w)
      (dropFuel s key (w.unlist (s j).user (s j).id (s j).list)) := by
  have hsh := World.shrinks_unlist w (s j).user (s j).id (s j).list
  refine ⟨dropFuel_le hsh key, fun hne => ?_⟩
  obtain rfl : key = listKey (s j).user (s j).list := Classical.byContradiction fun hk => hne (w.kv_unlist_of_ne hk)
  have hin : (s j).id ∈ ids (w.list (listKey (s j).user (s j).list)) :=
    Classical.byContradiction fun hno => hne (by rw [World.unlist_of_not_mem hno])
  refine ⟨fun hleg => ?_, dropFuel_lt hsh hin ?_⟩
  · exact Dropper.not_legacy (t := s !j) (fun r hr he => (href j _ _ r hr he).2.2) hleg hin
  · rw [World.list_unlist, if_pos rfl]
    exact Store.not_mem_ids_without _ _

theorem OnlyRefs.shrinks {w w' : World} (h : OnlyRefs s w) (hsh : World.Shrinks w w') : OnlyRefs s w' :=
  fun i a m r hr => h i a m r (hsh.list _ r hr)

theorem DropStep.ebbs (h : DropStep s i g g') (hi : DropInv s w₀ g) (href : OnlyRefs s g.1) (a : UserID) (m : ListID) :
    World.Ebbs (listKey a m) g.1 g'.1 (dropFuel s (listKey a m) g.1) (dropFuel s (listKey a m) g'.1) := by
  cases h with
  | win _ _ => exact ebbs_unlist href _ i
  | unlist _ => exact ebbs_unlist href _ !i
  | delete _ j =>
    refine .of_kv (World.delete_kv_of_ne _ (listKey_ne_issueKey _ _ _)) (dropFuel_le (hi.sound.shrinks_delete _) _)

/-! ## Runs of steps -/

theorem dropSteps_inv (h : ReflTransGen (DropStep s i) g g') (hi : DropInv s w₀ g) : DropInv s w₀ g' := by
  induction h with
  | refl => exact hi
  | tail _ hstep ih => exact hstep.inv ih

theorem dropSteps_shrinks (h : ReflTransGen (DropStep s i) g g') (hi : DropInv s w₀ g) : World.Shrinks g.1 g'.1 := by
  induction h with
  | refl => exact .refl _
  | tail hsteps hstep ih => exact ih.trans (hstep.shrinks (dropSteps_inv hsteps hi))

theorem dropSteps_won (h : ReflTransGen (DropStep s i) g g') {j : Bool} (hj : g.2 j = true) : g'.2 j = true := by
  induction h with
  | refl => exact hj
  | tail _ hstep ih => exact hstep.won ih

theorem dropSteps_other (h : ReflTransGen (DropStep s (!i)) g g') : g'.2 i = g.2 i := by
  induction h with
  | refl => rfl
  | tail _ hstep ih => exact hstep.other.trans ih

theorem dropSteps_ebbs (h : ReflTransGen (DropStep s i) g g') (hi : DropInv s w₀ g) (href : OnlyRefs s g.1)
    (a : UserID) (m : ListID) :
    World.Ebbs (listKey a m) g.1 g'.1 (dropFuel s (listKey a m) g.1) (dropFuel s (listKey a m) g'.1) := by
  induction h with
  | refl => exact .refl ..
  | tail hsteps hstep ih =>
    have hi' := dropSteps_inv hsteps hi
    exact ih.trans (hstep.ebbs hi' (href.shrinks (dropSteps_shrinks hsteps hi)) a m)

/-! ## The two sides of the race -/

/-- The states of the race. -/
abbrev DropState (s : Bool → Side) (w₀ : World) := { g : World × (Bool → Bool) // DropInv s w₀ g }

/-- Side `i` of the race. -/
abbrev dropRace (s : Bool → Side) (w₀ : World) (i : Bool) : Race (DropState s w₀) :=
  Race.ofSteps Prod.fst (DropStep s) i

/-- **Each side is a dropper.** -/
theorem dropRace_dropper {w₀ : World} (href : OnlyRefs s w₀) (i : Bool) :
    Dropper (dropRace s w₀ i) (s i) (s !i) (fun g => g.1.2 i = false) (fun g => g.1.2 i = true) where
  sound g := g.2.sound
  noted _ _ := trivial
  opened_rely ho hr := (dropSteps_other hr).trans ho
  own {g l r} _ hr he := (href i _ _ r (g.2.shrinks.list _ r hr) he).2
  lost {g g'} _ hr hno := (dropSteps_shrinks hr g.2).not_mem hno
  calm {g} _ := ⟨fun g => dropFuel s (listKey (s i).user (s i).list) g.1.1, dropFuel_lt_three .., fun _ _ => trivial,
    fun g₁ g₂ _ hr => dropSteps_ebbs hr g₁.2 (href.shrinks g₁.2.shrinks) _ _⟩
  win {g} ho hin :=
    have hstep : DropStep s i g.1 (g.1.1.unlist (s i).user (s i).id (s i).list, Function.update g.1.2 i true) :=
      .win ho hin
    ⟨⟨_, hstep.inv g.2⟩, rfl, fun _ _ => .inr hstep, Function.update_self ..⟩
  won_rely {g g'} hw hr := ⟨dropSteps_won hr hw, dropSteps_shrinks hr g.2⟩
  foreign {g l r} _ hr he := by
    have := (href (!i) _ _ r (g.2.shrinks.list _ r hr) he).2
    rwa [Bool.not_not] at this
  calm' {g} _ m := ⟨fun g => dropFuel s (listKey (s !i).user m) g.1.1, dropFuel_lt_three .., fun _ _ => trivial,
    fun g₁ g₂ _ hr => dropSteps_ebbs hr g₁.2 (href.shrinks g₁.2.shrinks) _ _⟩
  unlist {g} hw :=
    have hstep : DropStep s i g.1 (g.1.1.unlist (s !i).user (s !i).id (s !i).list, g.1.2) := .unlist hw
    ⟨⟨_, hstep.inv g.2⟩, rfl, fun _ _ => .inr hstep, hw⟩
  delete {g t} hw ht := by
    have hstep : ∀ j, DropStep s i g.1 (g.1.1.delete (issueKey (s j).id), g.1.2) := fun j => .delete hw j
    rcases ht with rfl | rfl
    · exact ⟨⟨_, (hstep i).inv g.2⟩, rfl, fun _ _ => .inr (hstep i), hw⟩
    · exact ⟨⟨_, (hstep !i).inv g.2⟩, rfl, fun _ _ => .inr (hstep !i), hw⟩

/-- What a side has done when it returns. -/
def dropPost (s : Bool → Side) (w₀ : World) (i : Bool) (res : ListResult) (g : DropState s w₀) : Prop :=
  (res.err = none → ∀ j, (s j).Gone g.1.1) ∧ (res.err ≠ none → g.1.2 i = false ∧ ¬ (s i).Listed g.1.1)

variable {w₀ : World} (E : Env)

theorem dropPost_lost (i : Bool) (g : DropState s w₀) (res : ListResult) (ho : g.1.2 i = false)
    (hno : ¬ (s i).Listed g.1.1) (herr : res.err ≠ none) (g' : DropState s w₀) (hr : (dropRace s w₀ i).rely g g') :
    dropPost s w₀ i res g' :=
  ⟨fun h => absurd h herr, fun _ => ⟨(dropSteps_other hr).trans ho, (dropSteps_shrinks hr g.2).not_mem hno⟩⟩

theorem dropPost_done (i : Bool) (g : DropState s w₀) (res : ListResult) (hme : (s i).Gone g.1.1)
    (hother : (s !i).Gone g.1.1) (herr : res.err = none) (g' : DropState s w₀) (hr : (dropRace s w₀ i).rely g g') :
    dropPost s w₀ i res g' := by
  refine ⟨fun _ j => (dropSteps_shrinks hr g.2).gone ?_, fun h => absurd herr h⟩
  cases i <;> cases j
  · exact hme
  · exact hother
  · exact hother
  · exact hme

theorem removeIssue_dropSafe (href : OnlyRefs s w₀) (i : Bool) {g : DropState s w₀} (hg : g.1.2 i = false) :
    (dropRace s w₀ i).Safe E (dropPost s w₀ i) (ListOp.removeIssue (s i).user (s i).id).exec g :=
  Proc.Safe.bind (dropRace s w₀ i).refl (ListManager.removeIssue_safe (dropRace_dropper href i) hg
    (fun g res ho hno herr => dropPost_lost i g (.removed res) ho hno herr)
    fun g res _ hme hother herr => dropPost_done i g (.removed res) hme hother herr)

theorem completeIssue_dropSafe (href : OnlyRefs s w₀) (i : Bool) (hout : (s !i).list = .outList) {g : DropState s w₀}
    (hg : g.1.2 i = false) :
    (dropRace s w₀ i).Safe E (dropPost s w₀ i) (ListOp.completeIssue (s i).user (s i).id).exec g :=
  Proc.Safe.bind (dropRace s w₀ i).refl (ListManager.completeIssue_safe (dropRace_dropper href i) hout hg
    (fun g res ho hno herr => dropPost_lost i g (.completed res) ho hno herr)
    fun g res _ hme hother herr => dropPost_done i g (.completed res) hme hother herr)

end drop

/-! ## The race -/

/-- Two operations taking turns. -/
def listPool (a b : ListOp) (w : World) : Pool Bool Call Resp ListResult World :=
  ⟨fun i => (if i then a else b).exec, w⟩

/-- **Deleting from both sides at once leaves nothing behind.** -/
theorem removeIssue_race_drop (E : Env) {w : World} {u v : UserID} {l : ListID} {x y : String}
    (h : w.HasPair u v l x y) {op : ListOp} (hop : op = .completeIssue v y ∨ op = .removeIssue v y)
    {tr : List (Event Bool Call Resp)} {P : Pool Bool Call Resp ListResult World}
    (hrun : Pool.Exec (serve E) (listPool (.removeIssue u x) op w) tr P) (hfin : P.Finished) :
    (∃ ra rb, P.procs true = .ret ra ∧ P.procs false = .ret rb ∧ (ra.err = none ∨ rb.err = none)) ∧
      P.state.board.Absent x ∧ P.state.board.Absent y ∧ P.state.issue x = none ∧ P.state.issue y = none ∧
      Frame [x, y] w.board P.state.board := by
  let s := pairSide u v l x y
  have href : OnlyRefs s w := h.onlyRefs
  let g₀ : DropState s w := ⟨(w, fun _ => false), h.sound, Frame.refl _ _, .refl w, fun _ => h.listed⟩
  have hsafe : ∀ i, (dropRace s w i).Safe E (dropPost s w i) ((listPool (.removeIssue u x) op w).procs i) g₀ := by
    rintro (_ | _)
    · rcases hop with rfl | rfl
      · exact completeIssue_dropSafe E href false rfl rfl
      · exact removeIssue_dropSafe E href false rfl
    · exact removeIssue_dropSafe E href true rfl
  obtain ⟨g, hstate, -, hpost⟩ := hrun.finished (fun i => (dropRace s w i).trans) (fun i => (dropRace s w i).refl)
    Race.ofSteps_compat hfin (g := g₀) rfl hsafe
  obtain ⟨ra, hra, hpa⟩ := hpost true
  obtain ⟨rb, hrb, hpb⟩ := hpost false
  -- were both to fail, nobody would have taken a reference out
  have hone : ra.err = none ∨ rb.err = none := Classical.byContradiction fun hn => by
    obtain ⟨hna, hnb⟩ := not_or.1 hn
    obtain ⟨ha, hno⟩ := hpa.2 hna
    obtain ⟨hb, -⟩ := hpb.2 hnb
    exact hno (g.2.listed (fun i => by cases i <;> assumption) true)
  have hgone : ∀ j, (s j).Gone g.1.1 := hone.elim hpa.1 hpb.1
  have habs : ∀ j, g.1.1.board.Absent (s j).id := fun j => Board.absent_of_forall fun a m r hr he => by
    obtain ⟨rfl, rfl, rfl⟩ := href j a m r (g.2.shrinks.list _ r hr) he
    exact (hgone j).ref (List.mem_map.2 ⟨_, hr, rfl⟩)
  rw [hstate]
  exact ⟨⟨ra, rb, hra, hrb, hone⟩, habs true, habs false, (hgone true).record, (hgone false).record, g.2.frame⟩

section sample

theorem sentToBob_hasPair : sentToBob.HasPair ann bob .inList "x" "xx" where
  sound  := sentToBob_settled.sound
  paired := sentToBob_settled.paired.outPaired
  users  := by decide
  side   := by decide
  fst    := by decide
  snd    := by decide

/-- Turn and turn about. -/
def inTurn (n : Nat) : List Bool := (List.replicate n [true, false]).flatten

/-- Ann removes the todo she sent while Bob completes it. -/
def droppedByBoth : List (Event Bool Call Resp) × Pool Bool Call Resp ListResult World :=
  Pool.play (serve Env.sample) (listPool (.removeIssue ann "x") (.completeIssue bob "xx") sentToBob) (inTurn 15)

theorem droppedByBoth_gone : droppedByBoth.2.state.board.Absent "x" ∧ droppedByBoth.2.state.board.Absent "xx" :=
  have h := removeIssue_race_drop Env.sample sentToBob_hasPair (.inl rfl)
    (Pool.play_exec (serve Env.sample) (inTurn 15) _) (Pool.finished_of_returned (by decide))
  ⟨h.2.1, h.2.2.1⟩

end sample
end Todo

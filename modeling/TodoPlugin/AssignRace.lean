import TodoPlugin.AcceptRace
import TodoPlugin.ReassignRace
/-!
# Reassigning a todo while its receiver acts on it

The sender reassigns a todo that its receiver completes, removes or accepts.  Completing and removing begin with the
compare-and-set that reassigning begins with, so one of the two finds the reference gone and stops.  Accepting moves the
reference while the sender looks for it, and takes its own copy back when the sender has taken the other.
-/
namespace Todo

open Store (ids without)
open Relation (ReflTransGen)

/-! ## Against completing and removing -/

/-- The store, whether the receiver has taken its reference out, and how far the reassignment has come. -/
structure HandState where
  world : World
  won   : Bool
  stage : ReassignStage

/-- **What the two keep**, from a store where the receiver's reference is in its list `l`. -/
structure HandInv (w₀ : World) (u v : UserID) (l : ListID) (x y : String) (g : HandState) : Prop where
  sound  : g.world.Sound
  drawn  : w₀.drawn ≤ g.world.drawn
  snd    : ∀ {a m r}, r ∈ g.world.board.refs a m → r.issueID = y → a = v ∧ m = l ∧ r = ⟨y, x, u⟩
  fst    : g.stage = .idle → ∀ {a m r}, r ∈ g.world.board.refs a m → r.issueID = x →
    a = u ∧ m = .outList ∧ r = ⟨x, y, v⟩
  record : g.stage = .idle → ∀ {i}, g.world.issue x = some i → w₀.issue x = some i
  listed : y ∈ ids (g.world.board.refs v l) ↔ g.won = false ∧ g.stage = .idle
  still  : g.won = false → g.stage = .idle → g.world.board = w₀.board
  frame  : g.stage = .idle → Frame [x, y] w₀.board g.world.board
  won    : g.won = true → g.stage = .idle
  strip  : g.stage ≠ .idle → g.stage.board? = some (g.world.board.strip v y)
  enc    : l = .inList → ¬ g.world.IsLegacy (listKey v .inList)

/-- The steps of the sender (`true`) and of the receiver. -/
inductive HandStep (w₀ : World) (u v t : UserID) (l : ListID) (x y : String) : Bool → HandState → HandState → Prop
  | win {g : HandState} (hin : y ∈ ids (g.world.board.refs v l)) :
      HandStep w₀ u v t l x y true g
        { g with world := g.world.unlist v y l, stage := .building (w₀.board.strip v y) }
  | build {g : HandState} {w : World} {s : ReassignStage} (h : ReassignStep u t x y (g.world, g.stage) (w, s)) :
      HandStep w₀ u v t l x y true g { g with world := w, stage := s }
  | drop {g : HandState} (hin : y ∈ ids (g.world.board.refs v l)) :
      HandStep w₀ u v t l x y false g { g with world := g.world.unlist v y l, won := true }
  | out {g : HandState} (h : g.won = true) :
      HandStep w₀ u v t l x y false g { g with world := g.world.unlist u x .outList }
  | delete {g : HandState} (h : g.won = true) (id : String) (hid : id ∈ [x, y]) :
      HandStep w₀ u v t l x y false g { g with world := g.world.delete (issueKey id) }

section hand
variable {w₀ : World} {u v t : UserID} {l : ListID} {x y : String} {g g' : HandState}

theorem not_listed_unlist (w : World) (v : UserID) (y : String) (l : ListID) :
    y ∉ ids ((w.unlist v y l).board.refs v l) := fun h => ((has_unlist ..).1 h).2 rfl

namespace HandInv

/-- Taking a reference of the pair out leaves no others than there were. -/
theorem sub {a : UserID} {id : String} {m : ListID} {b : UserID} {n : ListID} {r : IssueRef}
    (hr : r ∈ (g.world.unlist a id m).board.refs b n) : r ∈ g.world.board.refs b n := by
  rw [World.board_unlist] at hr
  exact (Board.mem_refs_unlist.1 hr).1

theorem unlist_frame (h : HandInv w₀ u v l x y g) (hi : g.stage = .idle) {a : UserID} {id : String} {m : ListID}
    (hid : id ∈ [x, y]) : Frame [x, y] w₀.board (g.world.unlist a id m).board := by
  rw [World.board_unlist]
  exact (h.frame hi).setList _ (outside_without hid _)

theorem not_listed (h : HandInv w₀ u v l x y g) (hw : g.won = true) : y ∉ ids (g.world.board.refs v l) := fun hm => by
  rw [(h.listed.1 hm).1] at hw
  cases hw

theorem win (h : HandInv w₀ u v l x y g) (hl : l ≠ .outList) (hin : y ∈ ids (g.world.board.refs v l)) :
    HandInv w₀ u v l x y
      { g with world := g.world.unlist v y l, stage := .building (w₀.board.strip v y) } := by
  obtain ⟨hwon, hidle⟩ := h.listed.1 hin
  refine { sound := h.sound.unlist _ _ _, drawn := ?_, snd := fun hr => h.snd (sub hr), fst := nofun, record := nofun,
           listed := ⟨fun hm => (not_listed_unlist _ _ _ _ hm).elim, nofun⟩, still := nofun, frame := nofun,
           won := fun hw => ?_, strip := fun _ => ?_, enc := fun he hleg => h.enc he hleg.of_unlist }
  · rw [World.unlist_drawn]
    exact h.drawn
  · cases hwon.symm.trans hw
  · rw [World.board_unlist, Board.strip_taken _ _ _ hl, h.still hwon hidle]
    rfl

theorem build (h : HandInv w₀ u v l x y g) (huv : u ≠ v) (hxy : x ≠ y) {w : World} {s : ReassignStage}
    (hb : ReassignStep u t x y (g.world, g.stage) (w, s)) : HandInv w₀ u v l x y { g with world := w, stage := s } := by
  obtain ⟨hs, hs'⟩ := hb.stage
  have hmem : y ∈ ids (w.board.refs v l) ↔ y ∈ ids (g.world.board.refs v l) := by
    simp only [ids, List.mem_map]
    exact exists_congr fun r => and_congr_left fun he => hb.mem_iff h.sound hxy he
  exact {
    sound  := hb.sound h.sound
    drawn  := Nat.le_trans h.drawn hb.drawn_le
    snd    := fun hr he => h.snd ((hb.mem_iff h.sound hxy he).1 hr) he
    fst    := fun hi => absurd hi hs'
    record := fun hi => absurd hi hs'
    listed := hmem.trans ⟨fun hm => absurd (h.listed.1 hm).2 hs, fun hm => absurd hm.2 hs'⟩
    still  := fun _ hi => absurd hi hs'
    frame  := fun hi => absurd hi hs'
    won    := fun hw => absurd (h.won hw) hs
    strip  := fun _ => hb.strip h.sound hxy (h.strip hs)
    enc    := fun he => hb.not_legacy huv (h.enc he) }

theorem drop (h : HandInv w₀ u v l x y g) (hin : y ∈ ids (g.world.board.refs v l)) :
    HandInv w₀ u v l x y { g with world := g.world.unlist v y l, won := true } := by
  have hidle := (h.listed.1 hin).2
  refine { sound := h.sound.unlist _ _ _, drawn := ?_, snd := fun hr => h.snd (sub hr),
           fst := fun hi _ _ _ hr => h.fst hi (sub hr), record := fun hi _ hx => h.record hi ?_,
           listed := ⟨fun hm => (not_listed_unlist _ _ _ _ hm).elim, nofun⟩, still := nofun,
           frame := fun hi => (h.unlist_frame hi (by simp)), won := fun _ => hidle,
           strip := fun hi => absurd hidle hi, enc := fun he hleg => h.enc he hleg.of_unlist }
  · rw [World.unlist_drawn]
    exact h.drawn
  · rwa [World.issue_unlist] at hx

theorem out (h : HandInv w₀ u v l x y g) (hw : g.won = true) :
    HandInv w₀ u v l x y { g with world := g.world.unlist u x .outList } := by
  refine { sound := h.sound.unlist _ _ _, drawn := ?_, snd := fun hr => h.snd (sub hr),
           fst := fun hi _ _ _ hr => h.fst hi (sub hr), record := fun hi _ hx => h.record hi ?_,
           listed := ⟨fun hm => ?_, fun hm => ?_⟩, still := fun hf => ?_,
           frame := fun hi => (h.unlist_frame hi (by simp)), won := h.won,
           strip := fun hi => absurd (h.won hw) hi, enc := fun he hleg => h.enc he hleg.of_unlist }
  · rw [World.unlist_drawn]
    exact h.drawn
  · rwa [World.issue_unlist] at hx
  · exact absurd hm ((World.shrinks_unlist ..).not_mem (h.not_listed hw))
  · cases hw.symm.trans hm.1
  · cases hw.symm.trans hf

theorem delete (h : HandInv w₀ u v l x y g) (hw : g.won = true) {id : String} (hid : id ∈ [x, y]) :
    HandInv w₀ u v l x y { g with world := g.world.delete (issueKey id) } := by
  have hb := h.sound.board_delete_issue id
  refine { sound := h.sound.delete_issue _, drawn := h.drawn, snd := fun hr => h.snd (by rwa [hb] at hr),
           fst := fun hi _ _ _ hr => h.fst hi (by rwa [hb] at hr), record := fun hi _ hx => h.record hi ?_,
           listed := by rw [hb]; exact h.listed, still := fun hf => ?_,
           frame := fun hi => by rw [hb]; exact (h.frame hi).setIssue hid _, won := h.won,
           strip := fun hi => absurd (h.won hw) hi, enc := fun he hleg => h.enc he ?_ }
  · rw [h.sound.delete_issue_eq] at hx
    split at hx
    · cases hx
    · exact hx
  · cases hw.symm.trans hf
  · obtain ⟨i, rest, hk⟩ := hleg
    rw [World.delete_kv_of_ne _ (listKey_ne_issueKey _ _ _)] at hk
    exact ⟨i, rest, hk⟩

theorem step (h : HandInv w₀ u v l x y g) (huv : u ≠ v) (hl : l ≠ .outList) (hxy : x ≠ y) {i : Bool}
    (hstep : HandStep w₀ u v t l x y i g g') : HandInv w₀ u v l x y g' := by
  cases hstep with
  | win hin => exact h.win hl hin
  | build hb => exact h.build huv hxy hb
  | drop hin => exact h.drop hin
  | out hw => exact h.out hw
  | delete hw id hid => exact h.delete hw hid

end HandInv

/-! ### Runs of one side's steps -/

theorem HandInv.not_legacy (h : HandInv w₀ u v l x y g) (m : ListID) :
    g.world.IsLegacy (listKey v m) → y ∉ ids (g.world.list (listKey v m)) :=
  Dropper.not_legacy (s := ⟨v, l, y⟩) (t := ⟨u, .outList, x⟩) fun _ hr he => (h.snd hr he).2.2

/-- How often the sender may still change the receiver's list. -/
def HandState.fuel (v : UserID) (l : ListID) (y : String) (g : HandState) : Nat :=
  g.world.tally (listKey v l) y + g.stage.pending

theorem tally_pending_lt (w : World) (key y : String) (s : ReassignStage) : w.tally key y + s.pending < storeRetries := by
  have htally : w.tally key y ≤ 1 := by
    unfold World.tally
    split <;> decide
  have hpending : s.pending ≤ 1 := by
    cases s <;> simp [ReassignStage.pending]
  unfold storeRetries
  omega

/-- What the sender's steps leave to the receiver. -/
structure Hands (v : UserID) (l : ListID) (y : String) (g g' : HandState) : Prop where
  won  : g'.won = g.won
  stop : g.won = true → g' = g
  gone : y ∉ ids (g.world.board.refs v l) → y ∉ ids (g'.world.board.refs v l)
  ebbs : World.Ebbs (listKey v l) g.world g'.world (g.fuel v l y) (g'.fuel v l y)

theorem Hands.trans {g'' : HandState} (h : Hands v l y g g') (h' : Hands v l y g' g'') : Hands v l y g g'' where
  won       := h'.won.trans h.won
  stop hw   := by
    obtain rfl := h.stop hw
    exact h'.stop hw
  gone hno  := h'.gone (h.gone hno)
  ebbs      := h.ebbs.trans h'.ebbs

theorem HandStep.hands (h : HandStep w₀ u v t l x y true g g') (hi : HandInv w₀ u v l x y g) (huv : u ≠ v)
    (hxy : x ≠ y) : Hands v l y g g' := by
  cases h with
  | win hin =>
    obtain ⟨hwon, hidle⟩ := hi.listed.1 hin
    refine ⟨rfl, fun hw => ?_, fun hno => absurd hin hno, ?_⟩
    · cases hwon.symm.trans hw
    · obtain ⟨hle, hch⟩ := World.ebbs_unlist g.world (hi.not_legacy l) (listKey v l)
      rw [HandState.fuel, hidle]
      exact ⟨Nat.add_le_add_right hle 1, fun hne => ⟨(hch hne).1, Nat.add_lt_add_right (hch hne).2 1⟩⟩
  | build hb =>
    refine ⟨rfl, fun hw => absurd (hi.won hw) hb.stage.1, fun hno hm => hno ?_, hb.ebbs hi.sound huv hxy ?_⟩
    · obtain ⟨r, hr, he⟩ := List.mem_map.1 hm
      exact List.mem_map.2 ⟨r, (hb.mem_iff hi.sound hxy he).1 hr, he⟩
    · exact fun he => hi.enc he

theorem handSteps_sender (huv : u ≠ v) (hl : l ≠ .outList) (hxy : x ≠ y)
    (h : ReflTransGen (HandStep w₀ u v t l x y true) g g') (hi : HandInv w₀ u v l x y g) :
    Hands v l y g g' ∧ HandInv w₀ u v l x y g' := by
  induction h with
  | refl => exact ⟨⟨rfl, fun _ => rfl, id, .refl ..⟩, hi⟩
  | tail _ hstep ih => exact ⟨ih.1.trans (hstep.hands ih.2 huv hxy), ih.2.step huv hl hxy hstep⟩

/-- What the receiver's steps leave to the sender. -/
structure Drops (v : UserID) (y : String) (g g' : HandState) : Prop where
  stage : g'.stage = g.stage
  stop  : g.stage ≠ .idle → g' = g
  ebbs  : ∀ m, World.Ebbs (listKey v m) g.world g'.world (g.world.tally (listKey v m) y)
    (g'.world.tally (listKey v m) y)

theorem Drops.trans {g'' : HandState} (h : Drops v y g g') (h' : Drops v y g' g'') : Drops v y g g'' where
  stage   := h'.stage.trans h.stage
  stop hs := by
    obtain rfl := h.stop hs
    exact h'.stop hs
  ebbs m  := (h.ebbs m).trans (h'.ebbs m)

theorem HandStep.drops (h : HandStep w₀ u v t l x y false g g') (hi : HandInv w₀ u v l x y g) (huv : u ≠ v) :
    Drops v y g g' := by
  cases h with
  | drop hin => exact ⟨rfl, fun hs => absurd (hi.listed.1 hin).2 hs, fun m => World.ebbs_unlist _ (hi.not_legacy l) _⟩
  | out hw =>
    have hne : ∀ m, listKey v m ≠ listKey u .outList := fun m he => huv (listKey_inj.1 he).1.symm
    refine ⟨rfl, fun hs => absurd (hi.won hw) hs, fun m => .of_kv (World.kv_unlist_of_ne _ (hne m)) (Nat.le_of_eq ?_)⟩
    rw [World.tally, World.tally, World.list_unlist, if_neg (hne m)]
  | delete hw k hk =>
    refine ⟨rfl, fun hs => absurd (hi.won hw) hs,
      fun m => .of_kv (World.delete_kv_of_ne _ (listKey_ne_issueKey _ _ _)) (Nat.le_of_eq ?_)⟩
    rw [World.tally, World.tally, hi.sound.delete_list]

theorem handSteps_receiver (huv : u ≠ v) (hl : l ≠ .outList) (hxy : x ≠ y)
    (h : ReflTransGen (HandStep w₀ u v t l x y false) g g') (hi : HandInv w₀ u v l x y g) :
    Drops v y g g' ∧ HandInv w₀ u v l x y g' := by
  induction h with
  | refl => exact ⟨⟨rfl, fun _ => rfl, fun _ => .refl ..⟩, hi⟩
  | tail _ hstep ih => exact ⟨ih.1.trans (hstep.drops ih.2 huv), ih.2.step huv hl hxy hstep⟩

/-! ### The two sides -/

/-- The sender's side (`true`) and the receiver's. -/
abbrev handRace (w₀ : World) (u v t : UserID) (l : ListID) (x y : String) (i : Bool) :
    Race { g : HandState // HandInv w₀ u v l x y g } := Race.ofSteps HandState.world (HandStep w₀ u v t l x y) i

theorem handRace_reassigner (huv : u ≠ v) (hl : l ≠ .outList) (hxy : x ≠ y) :
    Reassigner (handRace w₀ u v t l x y true) w₀ u v t x y (fun g => g.1.stage) where
  sound g := g.2.sound
  noted _ _ := trivial
  stays {g g'} hr := (handSteps_receiver huv hl hxy hr g.2).1.stage
  drawn g := g.2.drawn
  own {g m r} hs hr he := (g.2.fst hs hr he).2
  record {g i} hs := g.2.record hs
  foreign {g m r} _ hr he := (g.2.snd hr he).2.2
  calm {g m} _ _ := ⟨fun g => g.1.world.tally (listKey v m) y, World.tally_lt .., fun _ _ => trivial,
    fun g₁ g₂ _ hr => (handSteps_receiver huv hl hxy hr g₁.2).1.ebbs m⟩
  win {g m} hs hin := by
    obtain ⟨r, hr, he⟩ := List.mem_map.1 hin
    obtain ⟨-, rfl, -⟩ := g.2.snd hr he
    have hstep : HandStep w₀ u v t m x y true g.1 _ := .win hin
    exact ⟨⟨_, g.2.step huv hl hxy hstep⟩, rfl, fun _ _ => .inr hstep, rfl⟩
  stripped {g b} hs := by
    have := g.2.strip (by rw [hs]; nofun)
    rw [hs] at this
    exact (Option.some.inj this).symm
  quiet {g b a m} hs _ := by
    have hstop : ∀ {g₁}, (handRace w₀ u v t l x y true).rely g g₁ → g₁ = g := fun hr =>
      Subtype.ext ((handSteps_receiver huv hl hxy hr g.2).1.stop (by rw [hs]; nofun))
    refine ⟨fun _ => 0, Nat.zero_lt_succ 2, fun _ _ => trivial, fun g₁ g₂ hr₁ hr₂ => ?_⟩
    obtain rfl := hstop hr₁
    obtain rfl := hstop hr₂
    exact .refl ..
  step {g b w s} hs hb := by
    have hstep : HandStep w₀ u v t l x y true g.1 _ := .build (hs ▸ hb)
    exact ⟨⟨_, g.2.step huv hl hxy hstep⟩, rfl, fun _ _ => .inr hstep, rfl⟩

theorem handRace_dropper (huv : u ≠ v) (hl : l ≠ .outList) (hxy : x ≠ y) :
    Dropper (handRace w₀ u v t l x y false) ⟨v, l, y⟩ ⟨u, .outList, x⟩ (fun g => g.1.won = false)
      (fun g => g.1.won = true) where
  sound g := g.2.sound
  noted _ _ := trivial
  opened_rely {g g'} ho hr := (handSteps_sender huv hl hxy hr g.2).1.won.trans ho
  own {g m r} _ hr he := (g.2.snd hr he).2
  lost {g g'} _ hr := (handSteps_sender huv hl hxy hr g.2).1.gone
  calm {g} _ := ⟨fun g => g.1.fuel v l y, tally_pending_lt .., fun _ _ => trivial,
    fun g₁ g₂ _ hr => (handSteps_sender huv hl hxy hr g₁.2).1.ebbs⟩
  win {g} _ hin :=
    have hstep : HandStep w₀ u v t l x y false g.1 _ := .drop hin
    ⟨⟨_, g.2.step huv hl hxy hstep⟩, rfl, fun _ _ => .inr hstep, rfl⟩
  won_rely {g g'} hw hr := by
    obtain rfl : g' = g := Subtype.ext ((handSteps_sender huv hl hxy hr g.2).1.stop hw)
    exact ⟨hw, .refl _⟩
  foreign {g m r} hw hr he := (g.2.fst (g.2.won hw) hr he).2
  calm' {g} hw m := by
    have hstop : ∀ {g₁}, (handRace w₀ u v t l x y false).rely g g₁ → g₁ = g := fun hr =>
      Subtype.ext ((handSteps_sender huv hl hxy hr g.2).1.stop hw)
    refine ⟨fun _ => 0, Nat.zero_lt_succ 2, fun _ _ => trivial, fun g₁ g₂ hr₁ hr₂ => ?_⟩
    obtain rfl := hstop hr₁
    obtain rfl := hstop hr₂
    exact .refl ..
  unlist {g} hw :=
    have hstep : HandStep w₀ u v t l x y false g.1 _ := .out hw
    ⟨⟨_, g.2.step huv hl hxy hstep⟩, rfl, fun _ _ => .inr hstep, hw⟩
  delete {g s} hw hs := by
    have hid : s.id ∈ [x, y] := by rcases hs with rfl | rfl <;> simp
    have hstep : HandStep w₀ u v t l x y false g.1 _ := .delete hw s.id hid
    exact ⟨⟨_, g.2.step huv hl hxy hstep⟩, rfl, fun _ _ => .inr hstep, hw⟩

end hand

/-! ## Against accepting -/

/-- The board of an acceptance the sender has not yet come in the way of. -/
def AcceptStage.board (v : UserID) (ref : IssueRef) (b : Board) : AcceptStage → Board
  | .added => b.append (listKey v .myList) ref
  | .taken => (b.append (listKey v .myList) ref).unlist (listKey v .inList) ref.issueID
  | _      => b

/-- **What the two keep**, from a store where the receiver's reference is in its In list. -/
structure AssignInv (w₀ : World) (u v : UserID) (x y : String) (g : AcceptState ReassignStage) : Prop extends
    AcceptInv u v x y g where
  drawn : w₀.drawn ≤ g.world.drawn
  idle  : g.note = .idle → g.took = none ∧ g.world.board = g.stage.board v ⟨y, x, u⟩ w₀.board
  took  : g.note ≠ .idle → g.took = some .inList ∨ g.took = some .myList
  strip : g.note ≠ .idle → g.note.board? = some (g.world.board.strip v y)
  enc   : ¬ g.world.IsLegacy (listKey v .inList)

/-- The sender's steps. -/
inductive AssignStep (w₀ : World) (u v t : UserID) (x y : String) :
    AcceptState ReassignStage → AcceptState ReassignStage → Prop
  | win {g : AcceptState ReassignStage} (l : ListID) (h : g.note = .idle) (hin : g.Has v y l) :
      AssignStep w₀ u v t x y g
        { g with world := g.world.unlist v y l, took := some l, note := .building (w₀.board.strip v y) }
  | build {g : AcceptState ReassignStage} {w : World} {s : ReassignStage}
      (h : ReassignStep u t x y (g.world, g.note) (w, s)) : AssignStep w₀ u v t x y g { g with world := w, note := s }

section assign
variable {w₀ : World} {u v t : UserID} {x y : String} {g g' : AcceptState ReassignStage}

theorem AcceptStage.strip_board (b : Board) (s : AcceptStage) : (s.board v ⟨y, x, u⟩ b).strip v y = b.strip v y := by
  cases s with
  | idle => rfl
  | back => rfl
  | added => exact Board.strip_added v y b _ rfl
  | taken =>
    rw [AcceptStage.board, Board.strip_taken _ _ _ (by decide)]
    exact Board.strip_added v y b _ rfl

theorem AcceptStage.frame_board (b : Board) (s : AcceptStage) : Frame [y] b (s.board v ⟨y, x, u⟩ b) := by
  have hadd : Frame [y] b (b.append (listKey v .myList) ⟨y, x, u⟩) :=
    (Frame.refl _ _).setList _ (outside_append (by simp) _)
  cases s with
  | idle => exact .refl _ _
  | back => exact .refl _ _
  | added => exact hadd
  | taken => exact hadd.setList _ (outside_without (by simp) _)

namespace AssignInv

theorem win (h : AssignInv w₀ u v x y g) (hidle : g.note = .idle) {l : ListID} (hin : g.Has v y l) :
    AssignInv w₀ u v x y
      { g with world := g.world.unlist v y l, took := some l, note := .building (w₀.board.strip v y) } := by
  obtain ⟨ht, hb⟩ := h.idle hidle
  obtain ⟨r, hr, he⟩ := List.mem_map.1 hin
  refine { h.taken hin ht _ with
           drawn := ?_, idle := nofun, took := fun _ => ?_, strip := fun _ => ?_,
           enc := fun hleg => h.enc hleg.of_unlist }
  · rw [World.unlist_drawn]
    exact h.drawn
  · cases l with
    | inList => exact .inl rfl
    | myList => exact .inr rfl
    | outList => exact absurd rfl (h.snd hr he).2.1
  · rw [World.board_unlist, Board.strip_taken _ _ _ (h.snd hr he).2.1, hb, AcceptStage.strip_board]
    rfl

theorem build (h : AssignInv w₀ u v x y g) (huv : u ≠ v) (hxy : x ≠ y) {w : World} {s : ReassignStage}
    (hb : ReassignStep u t x y (g.world, g.note) (w, s)) : AssignInv w₀ u v x y { g with world := w, note := s } := by
  obtain ⟨hs, hs'⟩ := hb.stage
  have hhas : ∀ l, y ∈ ids (w.board.refs v l) ↔ g.Has v y l := fun l => by
    simp only [AcceptState.Has, ids, List.mem_map]
    exact exists_congr fun r => and_congr_left fun he => hb.mem_iff h.sound hxy he
  exact { h.other (hb.sound h.sound) s (fun hr he => (hb.mem_iff h.sound hxy he).1 hr) hhas with
    drawn := Nat.le_trans h.drawn hb.drawn_le
    idle  := fun hi => absurd hi hs'
    took  := fun _ => h.took hs
    strip := fun _ => hb.strip h.sound hxy (h.strip hs)
    enc   := hb.not_legacy huv h.enc }

theorem accept (h : AssignInv w₀ u v x y g) (hstep : AcceptStep v y ⟨y, x, u⟩ g g') : AssignInv w₀ u v x y g' := by
  have ha := hstep.accepts
  have hinv := h.step hstep
  refine { hinv with drawn := ?_, idle := ?_, took := ?_, strip := ?_, enc := ?_ }
  · rw [ha.drawn]
    exact h.drawn
  · rw [ha.note, ha.took]
    intro hi
    obtain ⟨ht, hb⟩ := h.idle hi
    refine ⟨ht, ?_⟩
    cases hstep with
    | add hs =>
      rw [hs] at hb
      rw [World.board_append, hb]
      rfl
    | take hs hin =>
      rw [hs] at hb
      rw [World.board_unlist, hb]
      rfl
    | back hs hout => cases ht.symm.trans (h.kept hs hout).1
  · rw [ha.note, ha.took]
    exact h.took
  · rw [ha.note]
    intro hi
    rw [h.strip hi]
    cases hstep with
    | add hs =>
      rw [World.board_append]
      exact congrArg some (Board.strip_added v y _ _ rfl).symm
    | take hs hin =>
      rw [World.board_unlist]
      exact congrArg some (Board.strip_taken v y _ (by decide)).symm
    | back hs hout =>
      rw [World.board_unlist]
      exact congrArg some (Board.strip_taken v y _ (by decide)).symm
  · rintro hleg
    cases hstep with
    | add hs =>
      obtain ⟨i, rest, hk⟩ := hleg
      have hne : listKey v .inList ≠ listKey v .myList := listKey_ne (by decide)
      exact h.enc ⟨i, rest, (World.put_kv_of_ne _ _ hne).symm.trans hk⟩
    | take hs hin => exact h.enc hleg.of_unlist
    | back hs hout => exact h.enc hleg.of_unlist

theorem assignStep (h : AssignInv w₀ u v x y g) (huv : u ≠ v) (hxy : x ≠ y) (hstep : AssignStep w₀ u v t x y g g') :
    AssignInv w₀ u v x y g' := by
  cases hstep with
  | win l hidle hin => exact h.win hidle hin
  | build hb => exact h.build huv hxy hb

end AssignInv

/-! ### The two sides -/

/-- What the sender's steps leave to the receiver. -/
structure Assigns (v : UserID) (y : String) (g g' : AcceptState ReassignStage) : Prop where
  stage : g'.stage = g.stage
  gone  : ∀ l, ¬ g.Has v y l → ¬ g'.Has v y l
  ebbs  : ∀ l, World.Ebbs (listKey v l) g.world g'.world (g.world.tally (listKey v l) y + g.note.pending)
    (g'.world.tally (listKey v l) y + g'.note.pending)

theorem AssignStep.assigns (h : AssignStep w₀ u v t x y g g') (hi : AssignInv w₀ u v x y g) (huv : u ≠ v)
    (hxy : x ≠ y) : Assigns v y g g' := by
  cases h with
  | win l hidle hin =>
    refine ⟨rfl, fun m hno hm => hno ((has_unlist ..).1 hm).1, fun m => ?_⟩
    obtain ⟨hle, hch⟩ := World.ebbs_unlist g.world (hi.not_legacy l) (listKey v m)
    rw [hidle]
    exact ⟨Nat.add_le_add_right hle 1, fun hne => ⟨(hch hne).1, Nat.add_lt_add_right (hch hne).2 1⟩⟩
  | build hb =>
    refine ⟨rfl, fun m hno hm => hno ?_, fun m => hb.ebbs hi.sound huv hxy fun _ => hi.enc⟩
    obtain ⟨r, hr, he⟩ := List.mem_map.1 hm
    exact List.mem_map.2 ⟨r, (hb.mem_iff hi.sound hxy he).1 hr, he⟩

theorem assignSteps (huv : u ≠ v) (hxy : x ≠ y) (h : ReflTransGen (AssignStep w₀ u v t x y) g g')
    (hi : AssignInv w₀ u v x y g) : Assigns v y g g' ∧ AssignInv w₀ u v x y g' := by
  induction h with
  | refl => exact ⟨⟨rfl, fun _ => id, fun _ => .refl ..⟩, hi⟩
  | tail _ hstep ih =>
    have hone := hstep.assigns ih.2 huv hxy
    exact ⟨⟨hone.stage.trans ih.1.stage, fun l hno => hone.gone l (ih.1.gone l hno),
      fun l => (ih.1.ebbs l).trans (hone.ebbs l)⟩, ih.2.assignStep huv hxy hstep⟩

/-- The sender's side (`true`) and the receiver's. -/
abbrev assignRace (w₀ : World) (u v t : UserID) (x y : String) (i : Bool) :
    Race { g : AcceptState ReassignStage // AssignInv w₀ u v x y g } :=
  Race.ofSteps AcceptState.world
    (fun i => if i then AssignStep w₀ u v t x y else AcceptStep v y ⟨y, x, u⟩) i

theorem assignRace_reassigner (hp : w₀.HasPair u v .inList x y) :
    Reassigner (assignRace w₀ u v t x y true) w₀ u v t x y (fun g => g.1.note) where
  sound g := g.2.sound
  noted _ _ := trivial
  stays {g g'} hr := (acceptSteps hr).note
  drawn g := g.2.drawn
  own {g m r} hs hr he := by
    have hmem := ((AcceptStage.frame_board (u := u) (v := v) (x := x) w₀.board g.1.stage).mem
      (by simpa [he] using hp.ne)).1 ((g.2.idle hs).2 ▸ hr)
    exact (hp.ref_fst hmem he).2
  record {g i} hs hi := by
    have hframe := (AcceptStage.frame_board (u := u) (v := v) (x := x) (y := y) w₀.board g.1.stage).issue x
      (by simpa using hp.ne)
    rw [← (g.2.idle hs).2] at hframe
    exact hframe.symm.trans hi
  foreign {g m r} _ hr he := (g.2.snd hr he).2.2
  calm {g m} hs hin := by
    refine ⟨fun g => g.1.world.tally (listKey v m) y, World.tally_lt .., fun _ _ => trivial, fun g₁ g₂ hr₁ hr₂ => ?_⟩
    refine acceptSteps_ebbs hr₂ g₁.2.toAcceptInv fun hk => (acceptSteps hr₁).moved fun hidle => ?_
    obtain rfl := (listKey_inj.1 hk).2
    exact g.2.new hidle hin
  win {g m} hs hin := by
    have hstep : AssignStep w₀ u v t x y g.1 _ := .win m hs hin
    exact ⟨⟨_, g.2.assignStep hp.users hp.ne hstep⟩, rfl, fun _ _ => .inr hstep, rfl⟩
  stripped {g b} hs := by
    have := g.2.strip (by rw [hs]; nofun)
    rw [hs] at this
    exact (Option.some.inj this).symm
  quiet {g b a m} _ ha := by
    refine ⟨fun g => g.1.world.tally (listKey a m) y, World.tally_lt .., fun _ _ => trivial, fun g₁ g₂ _ hr₂ => ?_⟩
    apply acceptSteps_ebbs hr₂ g₁.2.toAcceptInv
    intro hk
    obtain ⟨rfl, rfl⟩ := listKey_inj.1 hk
    cases ha rfl
  step {g b w s} hs hb := by
    have hstep : AssignStep w₀ u v t x y g.1 _ := .build (hs ▸ hb)
    exact ⟨⟨_, g.2.assignStep hp.users hp.ne hstep⟩, rfl, fun _ _ => .inr hstep, rfl⟩

theorem assignRace_accepter (huv : u ≠ v) (hxy : x ≠ y) :
    Accepter (assignRace w₀ u v t x y false) ⟨v, .inList, y⟩ ⟨u, .outList, x⟩ (fun g => g.1.stage) where
  sound g := g.2.sound
  noted _ _ := trivial
  stays {g g'} hr := (assignSteps huv hxy hr g.2).1.stage
  ref {g l r} hr he := (g.2.snd hr he).2.2
  new {g} hs := g.2.new hs
  kept {g} hs hout := (g.2.kept hs hout).2
  gone {g g'} hr := (assignSteps huv hxy hr g.2).1.gone .inList
  calm g l := by
    refine ⟨fun g => g.1.world.tally (listKey v l) y + g.1.note.pending, ?_, fun _ _ => trivial,
      fun g₁ g₂ _ hr => (assignSteps huv hxy hr g₁.2).1.ebbs l⟩
    exact tally_pending_lt ..
  add {g} hs :=
    have hstep : AcceptStep v y ⟨y, x, u⟩ g.1 _ := .add hs
    ⟨⟨_, g.2.accept hstep⟩, rfl, .inr hstep, rfl⟩
  take {g} hs hin :=
    have hstep : AcceptStep v y ⟨y, x, u⟩ g.1 _ := .take hs hin
    ⟨⟨_, g.2.accept hstep⟩, rfl, .inr hstep, rfl⟩
  back {g} hs hout :=
    have hstep : AcceptStep v y ⟨y, x, u⟩ g.1 _ := .back hs hout
    ⟨⟨_, g.2.accept hstep⟩, rfl, .inr hstep, rfl⟩

end assign

/-! ## The races -/

/-- Where the pair is gone and nothing else changed, the Out references left are matched still. -/
theorem World.HasPair.outPaired_of_frame {w : World} {u v : UserID} {l : ListID} {x y : String} (h : w.HasPair u v l x y)
    {b : Board} (hd : ∀ (a : UserID) m, (ids (b.refs a m)).Nodup) (hf : Frame [x, y] w.board b) (hx : b.Absent x)
    (hy : b.Absent y) : b.OutPaired := by
  have hout : ∀ {a : UserID} {m r}, r ∈ b.refs a m → r.issueID ∉ [x, y] := fun hr => by
    simp only [List.mem_cons, List.not_mem_nil, or_false, not_or]
    exact ⟨hx.ne hr, hy.ne hr⟩
  have hmem : ∀ {a : UserID} {m r}, r ∈ b.refs a m → r ∈ w.board.refs a m := fun hr => (hf.mem (hout hr)).1 hr
  refine { distinct := hd, one := fun hr hs he => h.paired.one (hmem hr) (hmem hs) he, out := @fun a r hr => ?_,
           recorded := hf.recorded h.paired.recorded fun id hid => ?_ }
  · obtain ⟨v', l', hv, hl, hm⟩ := h.paired.out (hmem hr)
    refine ⟨v', l', hv, hl, (hf.mem ?_).2 hm⟩
    simp only [List.mem_cons, List.not_mem_nil, or_false, not_or]
    refine ⟨fun he => hl (h.ref_fst hm he).2.1, fun he => hx.ne hr ?_⟩
    exact congrArg IssueRef.foreignIssueID (h.ref_snd hm he).2.2
  · rcases List.mem_cons.1 hid with rfl | hid
    · exact hx
    · rwa [List.mem_singleton.1 hid]

/-- What a race over `y` is to leave: the Out references matched, and of `y` nothing, or the counterpart of `x`. -/
def World.HandedOver (w : World) (u v : UserID) (x y : String) : Prop :=
  w.board.OutPaired ∧ ((w.board.Absent y ∧ w.issue y = none) ∨
    ∃ m, m ≠ .outList ∧ ⟨x, y, v⟩ ∈ w.board.refs u .outList ∧ ⟨y, x, u⟩ ∈ w.board.refs v m)

section race
variable {w : World} {u v t : UserID} {l : ListID} {x y : String}

/-- A reassignment that is done has handed the todo over. -/
theorem ListManager.Rebuilt.handedOver {w₀ w : World} {b : Board} (hp : w₀.HasPair u v l x y)
    (h : ListManager.Rebuilt w₀ y (.built b)) (hstrip : b = w.board.strip v y) (hin : y ∉ ids (w.board.refs v .inList))
    (hmy : y ∉ ids (w.board.refs v .myList)) : w.HandedOver u v x y := by
  obtain ⟨b', hb', hm, ha, hn⟩ := h
  obtain rfl := ReassignStage.built.inj hb'
  rw [Board.strip_of_gone hin hmy] at hstrip
  subst hstrip
  exact ⟨hm.outPaired hp.paired, .inl ⟨ha, hn⟩⟩

/-- Where the two of `handRace` start. -/
theorem World.HasPair.handInv (h : w.HasPair u v l x y) : HandInv w u v l x y ⟨w, false, .idle⟩ where
  sound       := h.sound
  drawn       := Nat.le_refl _
  snd hr he   := h.ref_snd hr he
  fst _ _ _ _ hr he := h.ref_fst hr he
  record _ _  := id
  listed      := ⟨fun _ => ⟨rfl, rfl⟩, fun _ => List.mem_map.2 ⟨_, h.snd, rfl⟩⟩
  still _ _   := rfl
  frame _     := Frame.refl _ _
  won         := nofun
  strip hi    := absurd rfl hi
  enc he hleg := by
    subst he
    exact Dropper.not_legacy (s := ⟨v, .inList, y⟩) (t := ⟨u, .outList, x⟩) (fun _ hr he => (h.ref_snd hr he).2.2) hleg
      (List.mem_map.2 ⟨_, h.snd, rfl⟩)

/-- What each side of `handRace` has done when it returns. -/
def handPost (w : World) (u v : UserID) (l : ListID) (x y : String) :
    Bool → ListResult → { g : HandState // HandInv w u v l x y g } → Prop
  | true, res, g  => res.err ≠ none ∧ g.1.stage = .idle ∨ res.err = none ∧ ListManager.Rebuilt w y g.1.stage
  | false, res, g => res.err ≠ none ∧ g.1.won = false ∨
    res.err = none ∧ g.1.won = true ∧ Side.Gone ⟨v, l, y⟩ g.1.world ∧ Side.Gone ⟨u, .outList, x⟩ g.1.world

theorem changeAssignment_handSafe (E : Env) (h : w.HasPair u v l x y) (hf : w.Fresh E)
    {g : { g : HandState // HandInv w u v l x y g }} (hg : g.1.stage = .idle) :
    (handRace w u v t l x y true).Safe E (handPost w u v l x y true) (ListOp.changeAssignment x u t).exec g := by
  have hstays : ∀ {g g'}, (handRace w u v t l x y true).rely g g' → g'.1.stage = g.1.stage := fun hr =>
    (handRace_reassigner h.users h.side h.ne).stays hr
  refine Proc.Safe.bind (handRace w u v t l x y true).refl (ListManager.changeAssignment_safe
    (handRace_reassigner h.users h.side h.ne) h hf hg (fun g res hs herr g' hr => ?_) fun g res hs herr g' hr => ?_)
  · exact .inl ⟨herr, (hstays hr).trans hs⟩
  · exact .inr ⟨herr, by rwa [hstays hr]⟩

/-- The receiver's operations on a todo that is not, or is no longer, in its In list. -/
theorem receiver_handSafe (E : Env) (h : w.HasPair u v l x y) {op : ListOp}
    (hop : op = .completeIssue v y ∨ op = .removeIssue v y ∨ op = .acceptIssue v y ∧ l ≠ .inList)
    {g : { g : HandState // HandInv w u v l x y g }} (hg : g.1.won = false) :
    (handRace w u v t l x y false).Safe E (handPost w u v l x y false) op.exec g := by
  have hd : Dropper (handRace w u v t l x y false) ⟨v, l, y⟩ ⟨u, .outList, x⟩ (fun g => g.1.won = false)
      (fun g => g.1.won = true) := handRace_dropper h.users h.side h.ne
  have hlost : ∀ {g : { g : HandState // HandInv w u v l x y g }} (res : ListResult), g.1.won = false → res.err ≠ none →
      ∀ g', (handRace w u v t l x y false).rely g g' → handPost w u v l x y false res g' := fun _ ho herr g' hr =>
    .inl ⟨herr, hd.opened_rely ho hr⟩
  have hwon : ∀ {g : { g : HandState // HandInv w u v l x y g }} (res : ListResult), g.1.won = true →
      Side.Gone ⟨v, l, y⟩ g.1.world → Side.Gone ⟨u, .outList, x⟩ g.1.world → res.err = none →
      ∀ g', (handRace w u v t l x y false).rely g g' → handPost w u v l x y false res g' :=
    fun _ hw hme hother herr g' hr =>
    have ⟨hw', hsh⟩ := hd.won_rely hw hr
    .inr ⟨herr, hw', hsh.gone hme, hsh.gone hother⟩
  rcases hop with rfl | rfl | ⟨rfl, hl⟩
  · exact Proc.Safe.bind (handRace w u v t l x y false).refl (ListManager.completeIssue_safe hd rfl hg
      (fun g res ho _ herr => hlost (.completed res) ho herr)
      fun g res hw hme hother herr => hwon (.completed res) hw hme hother herr)
  · exact Proc.Safe.bind (handRace w u v t l x y false).refl (ListManager.removeIssue_safe hd hg
      (fun g res ho _ herr => hlost (.removed res) ho herr)
      fun g res hw hme hother herr => hwon (.removed res) hw hme hother herr)
  · -- already accepted: not found in the In list
    refine Proc.Safe.bind (handRace w u v t l x y false).refl (ListManager.acceptIssue_missing hd.sound
      (fun g' _ hm => ?_) (fun _ _ => trivial) fun g' res hr herr => hlost (.accepted res) (hd.opened_rely hg hr) herr)
    obtain ⟨r, hr, he⟩ := List.mem_map.1 hm
    exact hl (g'.2.snd hr he).2.1.symm

/-- **Reassigning against an operation that does not move the reference.** -/
theorem hand_race (E : Env) (h : w.HasPair u v l x y) (hf : w.Fresh E) {op : ListOp}
    (hop : op = .completeIssue v y ∨ op = .removeIssue v y ∨ op = .acceptIssue v y ∧ l ≠ .inList)
    {tr : List (Event Bool Call Resp)} {P : Pool Bool Call Resp ListResult World}
    (hrun : Pool.Exec (serve E) (listPool (.changeAssignment x u t) op w) tr P) (hfin : P.Finished) :
    (∃ ra rb, P.procs true = .ret ra ∧ P.procs false = .ret rb ∧ (ra.err ≠ none ∨ rb.err ≠ none)) ∧
      P.state.HandedOver u v x y := by
  let g₀ : { g : HandState // HandInv w u v l x y g } := ⟨⟨w, false, .idle⟩, h.handInv⟩
  have hsafe : ∀ i, (handRace w u v t l x y i).Safe E (handPost w u v l x y i)
      ((listPool (.changeAssignment x u t) op w).procs i) g₀ := by
    rintro (_ | _)
    · exact receiver_handSafe E h hop rfl
    · exact changeAssignment_handSafe E h hf rfl
  obtain ⟨g, hstate, -, hpost⟩ := hrun.finished (fun i => (handRace w u v t l x y i).trans)
    (fun i => (handRace w u v t l x y i).refl) Race.ofSteps_compat hfin (g := g₀) rfl hsafe
  obtain ⟨ra, hra, hpa⟩ := hpost true
  obtain ⟨rb, hrb, hpb⟩ := hpost false
  rw [hstate]
  rcases hpb with ⟨hrberr, hlost⟩ | ⟨hrberr, hwon, hme, hother⟩
  · refine ⟨⟨ra, rb, hra, hrb, .inr hrberr⟩, ?_⟩
    rcases hpa with ⟨-, hidle⟩ | ⟨-, hbuilt⟩
    · -- nothing happened
      have hb := g.2.still hlost hidle
      refine ⟨hb ▸ h.paired, .inr ⟨l, h.side, ?_, ?_⟩⟩
      · rw [hb]; exact h.fst
      · rw [hb]; exact h.snd
    · have hno : y ∉ ids (g.1.world.board.refs v l) := fun hm => by
        obtain ⟨b, hb, -⟩ := hbuilt
        rw [(g.2.listed.1 hm).2] at hb
        cases hb
      have hnone : ∀ m, y ∉ ids (g.1.world.board.refs v m) := fun m hm => by
        obtain ⟨r, hr, he⟩ := List.mem_map.1 hm
        obtain ⟨-, rfl, -⟩ := g.2.snd hr he
        exact hno hm
      obtain ⟨b, hb, hrest⟩ := hbuilt
      have hstrip := g.2.strip (by rw [hb]; nofun)
      rw [hb] at hstrip
      exact ListManager.Rebuilt.handedOver h ⟨b, rfl, hrest⟩ (Option.some.inj hstrip) (hnone _) (hnone _)
  · -- the receiver was first
    have hidle := g.2.won hwon
    have hra' : ra.err ≠ none := by
      rcases hpa with ⟨herr, -⟩ | ⟨-, b, hb, -⟩
      · exact herr
      · rw [hidle] at hb
        cases hb
    have hy : g.1.world.board.Absent y := Board.absent_of_forall fun a m r hr he => by
      obtain ⟨rfl, rfl, rfl⟩ := g.2.snd hr he
      exact hme.ref (List.mem_map.2 ⟨_, hr, rfl⟩)
    have hx : g.1.world.board.Absent x := Board.absent_of_forall fun a m r hr he => by
      obtain ⟨rfl, rfl, rfl⟩ := g.2.fst hidle hr he
      exact hother.ref (List.mem_map.2 ⟨_, hr, rfl⟩)
    refine ⟨⟨ra, rb, hra, hrb, .inl hra'⟩, ?_, .inl ⟨hy, hme.record⟩⟩
    exact h.outPaired_of_frame (fun a m => g.2.sound.distinct a m) (g.2.frame hidle) hx hy

/-- Where the two of `assignRace` start. -/
theorem World.HasPair.assignInv (h : w.HasPair u v .inList x y) : AssignInv w u v x y ⟨w, .idle, none, .idle⟩ where
  toAcceptInv := h.acceptInv _
  drawn       := Nat.le_refl _
  idle _      := ⟨rfl, rfl⟩
  took hi     := absurd rfl hi
  strip hi    := absurd rfl hi
  enc         := h.handInv.enc rfl

/-- What each side of `assignRace` has done when it returns. -/
def assignPost (w : World) (u v : UserID) (x y : String) :
    Bool → ListResult → { g : AcceptState ReassignStage // AssignInv w u v x y g } → Prop
  | true, _, g  => g.1.note = .idle ∨ ListManager.Rebuilt w y g.1.note
  | false, _, g => g.1.stage ≠ .added

/-- **Reassigning against accepting.** -/
theorem assign_race (E : Env) (h : w.HasPair u v .inList x y) (hf : w.Fresh E)
    {tr : List (Event Bool Call Resp)} {P : Pool Bool Call Resp ListResult World}
    (hrun : Pool.Exec (serve E) (listPool (.changeAssignment x u t) (.acceptIssue v y) w) tr P) (hfin : P.Finished) :
    (∃ ra rb, P.procs true = .ret ra ∧ P.procs false = .ret rb) ∧ P.state.HandedOver u v x y := by
  have hsender := assignRace_reassigner (t := t) h
  have hreceiver : Accepter (assignRace w u v t x y false) ⟨v, .inList, y⟩ ⟨u, .outList, x⟩ (fun g => g.1.stage) :=
    assignRace_accepter h.users h.ne
  let g₀ : { g : AcceptState ReassignStage // AssignInv w u v x y g } := ⟨⟨w, .idle, none, .idle⟩, h.assignInv⟩
  have hsafe : ∀ i, (assignRace w u v t x y i).Safe E (assignPost w u v x y i)
      ((listPool (.changeAssignment x u t) (.acceptIssue v y) w).procs i) g₀ := by
    rintro (_ | _)
    · refine Proc.Safe.bind (assignRace w u v t x y false).refl (ListManager.acceptIssue_safe hreceiver rfl
        (fun g res hs _ g' hr => ?_) fun g res hs _ g' hr => ?_)
      · show g'.1.stage ≠ .added
        rw [hreceiver.stays hr]
        rcases hs with hs | hs <;> rw [hs] <;> nofun
      · show g'.1.stage ≠ .added
        rw [hreceiver.stays hr, hs]
        nofun
    · refine Proc.Safe.bind (assignRace w u v t x y true).refl (ListManager.changeAssignment_safe hsender h hf rfl
        (fun g res hs _ g' hr => ?_) fun g res hs _ g' hr => ?_)
      · exact .inl ((hsender.stays hr).trans hs)
      · exact .inr (by rwa [hsender.stays hr])
  obtain ⟨g, hstate, -, hpost⟩ := hrun.finished (fun i => (assignRace w u v t x y i).trans)
    (fun i => (assignRace w u v t x y i).refl) Race.ofSteps_compat hfin (g := g₀) rfl hsafe
  obtain ⟨ra, hra, hpa⟩ := hpost true
  obtain ⟨rb, hrb, hpb⟩ := hpost false
  rw [hstate]
  refine ⟨⟨ra, rb, hra, hrb⟩, ?_⟩
  rcases hpa with hidle | ⟨b, hb, hrest⟩
  · -- the receiver alone: nothing, or an acceptance
    obtain ⟨ht, hboard⟩ := g.2.idle hidle
    cases hst : g.1.stage with
    | idle =>
      rw [hst] at hboard
      refine ⟨hboard ▸ h.paired, .inr ⟨.inList, nofun, ?_, ?_⟩⟩
      · rw [hboard]; exact h.fst
      · rw [hboard]; exact h.snd
    | added => exact absurd hst hpb
    | taken =>
      rw [hst] at hboard
      have hmem := fun (a : UserID) m r => h.paired.toApart.mem_accept h.snd (v := a) (m := m) (r := r)
      refine ⟨hboard ▸ (Board.Move.accept v _ h.snd).outPaired h.paired, .inr ⟨.myList, nofun, ?_, ?_⟩⟩
      · rw [hboard]
        exact (hmem _ _ _).2 (.inl ⟨h.fst, h.ne⟩)
      · rw [hboard]
        exact (hmem _ _ _).2 (.inr ⟨rfl, rfl, rfl⟩)
    | back => cases ht.symm.trans (g.2.back hst)
  · -- the sender has taken one copy of the reference, and the receiver the other, or has taken it back
    have hne : g.1.note ≠ .idle := by rw [hb]; nofun
    have hno : ¬ g.1.Has v y .inList ∧ ¬ g.1.Has v y .myList := by
      rw [g.2.inn, g.2.my]
      rcases g.2.took hne with hl | hl
      · have := g.2.tookIn hl
        exact ⟨fun h => h.2 hl, fun h => h.1.elim hpb this⟩
      · have := (g.2.tookMy hl).resolve_left hpb
        exact ⟨fun h => by simp [this] at h, fun h => h.2 hl⟩
    have hstrip := g.2.strip hne
    rw [hb] at hstrip
    exact ListManager.Rebuilt.handedOver h ⟨b, rfl, hrest⟩ (Option.some.inj hstrip) hno.1 hno.2

/-- **Reassigning a todo races safely with its receiver**: whatever the target, the references are matched when both have
returned, of the receiver's todo nothing is left unless it is the counterpart still, and reassigning it and completing or
removing it do not both succeed. -/
theorem changeAssignment_race (E : Env) (h : w.HasPair u v l x y) (hf : w.Fresh E) (t : UserID) {op : ListOp}
    (hop : op = .acceptIssue v y ∨ op = .completeIssue v y ∨ op = .removeIssue v y)
    {tr : List (Event Bool Call Resp)} {P : Pool Bool Call Resp ListResult World}
    (hrun : Pool.Exec (serve E) (listPool (.changeAssignment x u t) op w) tr P) (hfin : P.Finished) :
    (∃ ra rb, P.procs true = .ret ra ∧ P.procs false = .ret rb ∧
      (op ≠ .acceptIssue v y → ra.err ≠ none ∨ rb.err ≠ none)) ∧ P.state.HandedOver u v x y := by
  rcases hop with rfl | hop
  · by_cases hl : l = .inList
    · subst hl
      obtain ⟨⟨ra, rb, hra, hrb⟩, hover⟩ := assign_race E h hf hrun hfin
      exact ⟨⟨ra, rb, hra, hrb, fun hne => absurd rfl hne⟩, hover⟩
    · obtain ⟨⟨ra, rb, hra, hrb, -⟩, hover⟩ := hand_race E h hf (.inr (.inr ⟨rfl, hl⟩)) hrun hfin
      exact ⟨⟨ra, rb, hra, hrb, fun hne => absurd rfl hne⟩, hover⟩
  · have hop' : op = .completeIssue v y ∨ op = .removeIssue v y ∨ op = .acceptIssue v y ∧ l ≠ .inList :=
      hop.elim .inl fun h => .inr (.inl h)
    obtain ⟨⟨ra, rb, hra, hrb, herr⟩, hover⟩ := hand_race E h hf hop' hrun hfin
    exact ⟨⟨ra, rb, hra, hrb, fun _ => herr⟩, hover⟩

end race

section sample

/-- Ann takes the todo back from Bob while he accepts it, turn and turn about. -/
def reassignedFromBob : List (Event Bool Call Resp) × Pool Bool Call Resp ListResult World :=
  Pool.play (serve Env.sample) (listPool (.changeAssignment "x" ann ann) (.acceptIssue bob "xx") sentToBob) (inTurn 15)

theorem reassignedFromBob_handedOver : reassignedFromBob.2.state.HandedOver ann bob "x" "xx" :=
  (changeAssignment_race Env.sample sentToBob_hasPair sentToBob_settled.fresh ann (.inl rfl)
    (Pool.play_exec (serve Env.sample) (inTurn 15) _) (Pool.finished_of_returned (by decide))).2

end sample
end Todo

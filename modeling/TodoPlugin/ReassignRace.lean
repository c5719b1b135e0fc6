import TodoPlugin.PairRace
/-!
# Reassigning a todo in a race

`Reassigner` is the contract of the party that takes a todo back from its receiver to give it to somebody else, or to
keep it: it only reads until its compare-and-set takes the receiver's reference out, and from then on builds a board of
its own, whatever becomes of other copies of that reference.
-/
namespace Todo

open Store (ids without)

namespace Board

/-- The board without the receiver's reference. -/
def strip (v : UserID) (y : String) (b : Board) : Board :=
  (b.unlist (listKey v .inList) y).unlist (listKey v .myList) y

variable (v : UserID) (y : String) (b : Board)

theorem unlist_self (key id : String) : (b.unlist key id).unlist key id = b.unlist key id :=
  unlist_of_not_mem (by rw [unlist_list, if_pos rfl]; exact Store.not_mem_ids_without _ _)

theorem strip_unlist (key x : String) : (b.unlist key x).strip v y = (b.strip v y).unlist key x := by
  rw [strip, unlist_comm b key, unlist_comm _ key, strip]

theorem strip_taken {l : ListID} (hl : l ≠ .outList) : (b.unlist (listKey v l) y).strip v y = b.strip v y := by
  rw [strip_unlist]
  cases l with
  | myList => exact unlist_self _ _ _
  | inList => rw [strip, unlist_comm, unlist_self]
  | outList => exact absurd rfl hl

theorem unlist_append (key key' id : String) {r : IssueRef} (hr : r.issueID ≠ id) :
    (b.append key r).unlist key' id = (b.unlist key' id).append key r := by
  ext k : 2
  · by_cases h : k = key' <;> by_cases h' : k = key <;> simp_all [without]
  · rfl

theorem unlist_append_self (key : String) (r : IssueRef) :
    (b.append key r).unlist key r.issueID = b.unlist key r.issueID := by
  ext k : 2
  · by_cases h : k = key <;> simp_all [without]
  · rfl

theorem strip_append (key : String) {r : IssueRef} (hr : r.issueID ≠ y) :
    (b.append key r).strip v y = (b.strip v y).append key r := by
  rw [strip, unlist_append _ _ _ _ hr, unlist_append _ _ _ _ hr, strip]

theorem strip_added (r : IssueRef) (hr : r.issueID = y) :
    (b.append (listKey v .myList) r).strip v y = b.strip v y := by
  subst hr
  rw [strip, unlist_comm, unlist_append_self, unlist_comm, strip]

@[simp] theorem strip_setIssue (id : String) (o : Option Issue) :
    (b.setIssue id o).strip v y = (b.strip v y).setIssue id o := rfl

@[simp] theorem strip_issue : (b.strip v y).issue = b.issue := rfl

variable {v y b}

theorem strip_of_gone (hin : y ∉ ids (b.refs v .inList)) (hmy : y ∉ ids (b.refs v .myList)) : b.strip v y = b := by
  rw [strip, unlist_of_not_mem hin, unlist_of_not_mem hmy]

/-- Where the reference is in one list, it is stripped from that one. -/
theorem strip_eq_unlist {l : ListID} (hl : l ≠ .outList) (h : ∀ m, y ∈ ids (b.refs v m) → m = l) :
    b.strip v y = b.unlist (listKey v l) y := by
  cases l with
  | myList => rw [strip, unlist_of_not_mem fun hm => nomatch h .inList hm]
  | inList =>
    have hno : y ∉ ids (b.refs v .myList) := fun hm => nomatch h .myList hm
    rw [strip, unlist_comm, unlist_of_not_mem hno]
  | outList => exact absurd rfl hl

theorem mem_ids_strip {a : UserID} {m : ListID} {id : String} (hid : id ≠ y) :
    id ∈ ids ((b.strip v y).refs a m) ↔ id ∈ ids (b.refs a m) := by
  have hone : ∀ (b : Board) l, id ∈ ids ((b.unlist (listKey v l) y).refs a m) ↔ id ∈ ids (b.refs a m) := fun b l => by
    simp only [ids, List.mem_map, mem_refs_unlist]
    constructor
    · rintro ⟨r, hr, he⟩
      exact ⟨r, hr.1, he⟩
    · rintro ⟨r, hr, he⟩
      exact ⟨r, ⟨hr, fun hc => hid (he.symm.trans hc.2.2)⟩, he⟩
  rw [strip, hone, hone]

end Board

/-- How far a reassignment has come: it has taken the receiver's reference out and is building a board, or has built
it. -/
inductive ReassignStage where
  | idle
  | building (b : Board)
  | built (b : Board)

/-- **The steps of a reassignment** of `x` from `y` to the user `t`, once it has taken the receiver's reference out. -/
inductive ReassignStep (u t : UserID) (x y : String) : World × ReassignStage → World × ReassignStage → Prop
  | drop {w : World} {b : Board} :
      ReassignStep u t x y (w, .building b) (w.delete (issueKey y), .building (b.setIssue y none))
  | out {w : World} {b : Board} :
      ReassignStep u t x y (w, .building b) (w.unlist u x .outList, .building (b.unlist (listKey u .outList) x))
  | keep {w : World} {b : Board} (hnew : x ∉ ids (w.board.refs u .myList)) :
      ReassignStep u t x y (w, .building b)
        (w.append u .myList ⟨x, "", ""⟩, .built (b.append (listKey u .myList) ⟨x, "", ""⟩))
  | newId {w : World} {b : Board} :
      ReassignStep u t x y (w, .building b) ({ w with drawn := w.drawn + 1 }, .building b)
  | getMillis {w : World} {b : Board} :
      ReassignStep u t x y (w, .building b) ({ w with ticks := w.ticks + 1 }, .building b)
  | save {w : World} {b : Board} (i : Issue) (hi : i.id ≠ "") :
      ReassignStep u t x y (w, .building b) (w.save i, .building (b.setIssue i.id (some i)))
  | give {w : World} {b : Board} (z : String) (hnew : x ∉ ids (w.board.refs u .outList)) :
      ReassignStep u t x y (w, .building b)
        (w.append u .outList ⟨x, z, t⟩, .building (b.append (listKey u .outList) ⟨x, z, t⟩))
  | receive {w : World} {b : Board} (z : String) (hz : z ≠ y) (hnew : z ∉ ids (w.board.refs t .inList)) :
      ReassignStep u t x y (w, .building b)
        (w.append t .inList ⟨z, x, u⟩, .built (b.append (listKey t .inList) ⟨z, x, u⟩))

/-- The board being built. -/
def ReassignStage.board? : ReassignStage → Option Board
  | .idle       => none
  | .building b => some b
  | .built b    => some b

/-! ## What the steps leave -/

section steps
variable {u v t : UserID} {x y : String} {w w' : World} {s s' : ReassignStage}

namespace ReassignStep

theorem sound (h : ReassignStep u t x y (w, s) (w', s')) (hw : w.Sound) : w'.Sound := by
  cases h with
  | drop => exact hw.delete_issue _
  | out => exact hw.unlist _ _ _
  | keep hnew => exact hw.append hnew
  | newId => exact World.Sound.of_kv (w := w) rfl hw
  | getMillis => exact World.Sound.of_kv (w := w) rfl hw
  | save i hi => exact hw.save hi
  | give z hnew => exact hw.append hnew
  | receive z hz hnew => exact hw.append hnew

theorem drawn_le (h : ReassignStep u t x y (w, s) (w', s')) : w.drawn ≤ w'.drawn := by
  cases h with
  | out => rw [World.unlist_drawn]
  | newId => exact Nat.le_succ _
  | _ => exact Nat.le_refl _

/-- **The board being built is the store's**, stripped of the receiver's reference. -/
theorem strip (h : ReassignStep u t x y (w, s) (w', s')) (hw : w.Sound) (hxy : x ≠ y)
    (hs : s.board? = some (w.board.strip v y)) : s'.board? = some (w'.board.strip v y) := by
  have hs : ∀ {b}, s = .building b → b = w.board.strip v y := fun he => by
    subst he
    exact Option.some.inj hs
  cases h with
  | drop => rw [hs rfl, hw.board_delete_issue, Board.strip_setIssue]; rfl
  | out => rw [hs rfl, World.board_unlist, Board.strip_unlist]; rfl
  | keep hnew => rw [hs rfl, World.board_append, Board.strip_append v y _ _ (r := ⟨x, "", ""⟩) hxy]; rfl
  | newId => rw [hs rfl]; rfl
  | getMillis => rw [hs rfl]; rfl
  | save i hi => rw [hs rfl, hw.board_save, Board.strip_setIssue]; rfl
  | give z hnew => rw [hs rfl, World.board_append, Board.strip_append v y _ _ (r := ⟨x, z, t⟩) hxy]; rfl
  | receive z hz hnew => rw [hs rfl, World.board_append, Board.strip_append v y _ _ (r := ⟨z, x, u⟩) hz]; rfl

/-- The receiver's references stay where they are. -/
theorem mem_iff (h : ReassignStep u t x y (w, s) (w', s')) (hw : w.Sound) (hxy : x ≠ y) {a : UserID} {m : ListID}
    {r : IssueRef} (hr : r.issueID = y) : r ∈ w'.board.refs a m ↔ r ∈ w.board.refs a m := by
  have hadd : ∀ (a' : UserID) m' (r' : IssueRef), r'.issueID ≠ y →
      (r ∈ (w.append a' m' r').board.refs a m ↔ r ∈ w.board.refs a m) := fun a' m' r' hne => by
    rw [World.board_append, Board.mem_refs_append]
    exact or_iff_left fun hc => hne (hc.2.2 ▸ hr)
  cases h with
  | drop => rw [hw.board_delete_issue, Board.refs_setIssue]
  | out =>
    rw [World.board_unlist, Board.mem_refs_unlist]
    exact and_iff_left fun hc => hxy (hc.2.2.symm.trans hr)
  | keep hnew => exact hadd _ _ _ hxy
  | newId => rfl
  | getMillis => rfl
  | save => rw [hw.board_save, Board.refs_setIssue]
  | give z hnew => exact hadd _ _ _ hxy
  | receive z hz hnew => exact hadd _ _ _ hz

theorem stage (h : ReassignStep u t x y (w, s) (w', s')) : s ≠ .idle ∧ s' ≠ .idle := by
  cases h <;> exact ⟨nofun, nofun⟩

end ReassignStep

/-- How often the reassignment may still add to a list of the receiver's. -/
def ReassignStage.pending : ReassignStage → Nat
  | .built _ => 0
  | _        => 1

namespace ReassignStep

/-- Of the receiver's lists it changes the In list only, once, when the receiver is who it is for. -/
theorem kv (h : ReassignStep u t x y (w, s) (w', s')) (huv : u ≠ v) (l : ListID) :
    w'.kv (listKey v l) = w.kv (listKey v l) ∨
      l = .inList ∧ s'.pending < s.pending ∧ ∃ list, w'.kv (listKey v l) = some (.refs list) := by
  have hne : ∀ m, listKey v l ≠ listKey u m := fun m he => huv (listKey_inj.1 he).1.symm
  cases h with
  | drop => exact .inl (World.delete_kv_of_ne _ (listKey_ne_issueKey _ _ _))
  | out => exact .inl (World.kv_unlist_of_ne _ (hne _))
  | keep => exact .inl (World.put_kv_of_ne _ _ (hne _))
  | newId => exact .inl rfl
  | getMillis => exact .inl rfl
  | save => exact .inl (World.put_kv_of_ne _ _ (listKey_ne_issueKey _ _ _))
  | give => exact .inl (World.put_kv_of_ne _ _ (hne _))
  | receive z hz hnew =>
    by_cases hk : listKey v l = listKey t .inList
    · refine .inr ⟨(listKey_inj.1 hk).2, Nat.zero_lt_one, w.list (listKey t .inList) ++ [⟨z, x, u⟩], ?_⟩
      rw [hk]
      exact World.put_kv_self ..
    · exact .inl (World.put_kv_of_ne _ _ hk)

theorem pending_le (h : ReassignStep u t x y (w, s) (w', s')) : s'.pending ≤ s.pending := by
  cases h with
  | keep => exact Nat.zero_le 1
  | receive => exact Nat.zero_le 1
  | _ => exact Nat.le_refl _

/-- What the receiver sees of it in a list: at most one change. -/
theorem ebbs (h : ReassignStep u t x y (w, s) (w', s')) (hw : w.Sound) (huv : u ≠ v) (hxy : x ≠ y) {l : ListID}
    (hleg : l = .inList → ¬ w.IsLegacy (listKey v .inList)) :
    World.Ebbs (listKey v l) w w' (w.tally (listKey v l) y + s.pending) (w'.tally (listKey v l) y + s'.pending) := by
  have htally : w'.tally (listKey v l) y = w.tally (listKey v l) y := by
    have hiff : y ∈ ids (w'.board.refs v l) ↔ y ∈ ids (w.board.refs v l) := by
      simp only [ids, List.mem_map]
      exact exists_congr fun r => and_congr_left fun he => h.mem_iff hw hxy he
    exact if_congr hiff rfl rfl
  have hle := h.pending_le
  rw [htally]
  rcases h.kv huv l with hk | ⟨rfl, hlt, -⟩
  · exact .of_kv hk (by omega)
  · exact ⟨by omega, fun _ => ⟨hleg rfl, by omega⟩⟩

theorem not_legacy (h : ReassignStep u t x y (w, s) (w', s')) (huv : u ≠ v) {l : ListID}
    (hleg : ¬ w.IsLegacy (listKey v l)) : ¬ w'.IsLegacy (listKey v l) := by
  rintro ⟨id, rest, hk'⟩
  rcases h.kv huv l with hk | ⟨-, -, list, hk⟩
  · exact hleg ⟨id, rest, hk.symm.trans hk'⟩
  · rw [hk] at hk'
    cases hk'

end ReassignStep
end steps

/-! ## The contract -/

/-- **The contract of a party that reassigns** `x` of `u`, whose other side is `y` of `v`, to `t`: idle until it has
taken the receiver's reference out, then at work on a board only it changes. -/
structure Reassigner {Γ : Type} (R : Race Γ) (w₀ : World) (u v t : UserID) (x y : String) (stage : Γ → ReassignStage) :
    Prop where
  sound   : ∀ g, (R.world g).Sound
  noted   : ∀ key g, R.noted key g
  stays   : ∀ {g g'}, R.rely g g' → stage g' = stage g
  drawn   : ∀ g, w₀.drawn ≤ (R.world g).drawn
  own     : ∀ {g l r}, stage g = .idle → r ∈ (R.world g).board.refs u l → r.issueID = x → l = .outList ∧ r = ⟨x, y, v⟩
  record  : ∀ {g i}, stage g = .idle → (R.world g).issue x = some i → w₀.issue x = some i
  foreign : ∀ {g l r}, stage g = .idle → r ∈ (R.world g).board.refs v l → r.issueID = y → r = ⟨y, x, u⟩
  calm    : ∀ {g l}, stage g = .idle → y ∈ ids ((R.world g).board.refs v l) → ∃ fuel, R.Calm (listKey v l) fuel g
  win     : ∀ {g l}, stage g = .idle → y ∈ ids ((R.world g).board.refs v l) → ∃ g',
    R.world g' = (R.world g).unlist v y l ∧ (∀ c r, R.guar c r g g') ∧ stage g' = .building (w₀.board.strip v y)
  stripped : ∀ {g b}, stage g = .building b → (R.world g).board.strip v y = b
  quiet   : ∀ {g b a m}, stage g = .building b → (a = v → m = .inList) → ∃ fuel, R.Calm (listKey a m) fuel g
  step    : ∀ {g b w s}, stage g = .building b → ReassignStep u t x y (R.world g, .building b) (w, s) → ∃ g',
    R.world g' = w ∧ (∀ c r, R.guar c r g g') ∧ stage g' = s

namespace Race

variable {Γ : Type} {R : Race Γ} {E : Env} {β : Type} {post : β → Γ → Prop}

theorem newId {f : String → Api β} {g : Γ} (h : ∀ g', R.rely g g' → ∃ g'',
    R.world g'' = { R.world g' with drawn := (R.world g').drawn + 1 } ∧ R.guar .newId (E.newId (R.world g').drawn) g' g'' ∧
      R.Safe E post (f (E.newId (R.world g').drawn)) g'') : R.Safe E post (Api.newId >>= f) g := h

theorem getMillis {f : Int → Api β} {g : Γ} (h : ∀ g', R.rely g g' → ∃ g'',
    R.world g'' = { R.world g' with ticks := (R.world g').ticks + 1 } ∧
      R.guar .getMillis (E.millis (R.world g').ticks) g' g'' ∧
      R.Safe E post (f (E.millis (R.world g').ticks)) g'') : R.Safe E post (Api.getMillis >>= f) g := h

end Race

namespace Reassigner

variable {Γ : Type} {R : Race Γ} {E : Env} {w₀ : World} {u v t : UserID} {x y : String} {stage : Γ → ReassignStage}
  {g : Γ} {b : Board} {β : Type} {post : β → Γ → Prop}

/-- Of every other issue the store says what the board being built says. -/
theorem mem (h : Reassigner R w₀ u v t x y stage) (hg : stage g = .building b) {a : UserID} {m : ListID} {id : String}
    (hid : id ≠ y) : id ∈ ids ((R.world g).board.refs a m) ↔ id ∈ ids (b.refs a m) := by
  rw [← h.stripped hg, Board.mem_ids_strip hid]

/-- Taking a reference of its own out. -/
theorem takeOut (h : Reassigner R w₀ u v t x y stage) (huv : u ≠ v) (hxy : x ≠ y) (hg : stage g = .building b)
    (hx : x ∈ ids (b.refs u .outList)) {f : Except String Unit → Api β}
    (hf : ∀ g', stage g' = .building (b.unlist (listKey u .outList) x) → R.Safe E post (f (.ok ())) g') :
    R.Safe E post (Store.removeReference u x .outList >>= f) g := by
  obtain ⟨fuel, hcalm⟩ := h.quiet (a := u) (m := .outList) hg fun he => absurd he huv
  have hbuild : ∀ {g'}, R.rely g g' → stage g' = .building b := fun hr => (h.stays hr).trans hg
  refine Race.removeReference h.sound hcalm (fun g' hr hno => ?_) fun g' hr hin => ?_
  · exact absurd ((h.mem (hbuild hr) hxy).2 hx) hno
  · obtain ⟨g'', hw, hgu, hs⟩ := h.step (hbuild hr) .out
    exact ⟨g'', hw, hgu _ _, hf g'' hs⟩

/-- Appending a reference of its own. -/
theorem putIn (h : Reassigner R w₀ u v t x y stage) (hg : stage g = .building b) {a : UserID} {m : ListID} {ref : IssueRef}
    {s : ReassignStage} (ha : a = v → m = .inList) (hne : ref.issueID ≠ y) (hnew : ref.issueID ∉ ids (b.refs a m))
    (hstep : ∀ {w}, ref.issueID ∉ ids (w.board.refs a m) →
      ReassignStep u t x y (w, .building b) (w.append a m ref, s)) {f : Except String Unit → Api β}
    (hf : ∀ g', stage g' = s → R.Safe E post (f (.ok ())) g') :
    R.Safe E post (Store.addReference a ref.issueID m ref.foreignUserID ref.foreignIssueID >>= f) g := by
  obtain ⟨fuel, hcalm⟩ := h.quiet hg ha
  have hbuild : ∀ {g'}, R.rely g g' → stage g' = .building b := fun hr => (h.stays hr).trans hg
  have hno : ∀ {g'}, R.rely g g' → ref.issueID ∉ ids ((R.world g').board.refs a m) := fun hr hin =>
    hnew ((h.mem (hbuild hr) hne).1 hin)
  apply Race.addReference h.sound hcalm (fun g' hr => hno hr)
  intro g' hr
  obtain ⟨g'', hw, hgu, hs⟩ := h.step (hbuild hr) (hstep (hno hr))
  exact ⟨g'', hw, hgu _ _, hf g'' hs⟩

/-- Dropping the receiver's record. -/
theorem dropRecord (h : Reassigner R w₀ u v t x y stage) (hg : stage g = .building b) {f : Except String Issue → Api β}
    (hf : ∀ g' res, stage g' = .building (b.setIssue y none) → R.Safe E post (f res) g') :
    R.Safe E post (Store.getAndRemoveIssue y >>= f) g := by
  have hbuild : ∀ {g'}, R.rely g g' → stage g' = .building b := fun hr => (h.stays hr).trans hg
  refine Race.getAndRemoveIssue h.sound (fun g' hr hn => ?_) fun g' i hr => ?_
  · have hb : b.issue y = none := by
      rw [← h.stripped (hbuild hr), Board.strip_issue]
      exact hn
    exact hf g' _ (by rw [Board.setIssue_none_of_none hb]; exact hbuild hr)
  · obtain ⟨g'', hw, hgu, hs⟩ := h.step (hbuild hr) .drop
    exact ⟨g'', hw, hgu _ _, hf g'' _ hs⟩

end Reassigner

/-! ## The boards it builds -/

/-- The board with the pair taken out, and the record of its second side. -/
def Board.freed (u v : UserID) (x y : String) (b : Board) : Board :=
  ((b.strip v y).setIssue y none).unlist (listKey u .outList) x

namespace World.HasPair

variable {w : World} {u v : UserID} {l : ListID} {x y : String}

theorem freed_eq (h : w.HasPair u v l x y) :
    w.board.freed u v x y = ((w.board.unlist (listKey u .outList) x).unlist (listKey v l) y).setIssue y none := by
  have hl : ∀ m, y ∈ ids (w.board.refs v m) → m = l := fun m hm => by
    obtain ⟨r, hr, he⟩ := List.mem_map.1 hm
    exact (h.ref_snd hr he).2.1
  rw [Board.freed, Board.strip_eq_unlist h.side hl, Board.unlist_comm]
  rfl

theorem freed_absent (h : w.HasPair u v l x y) : (w.board.freed u v x y).Absent x ∧ (w.board.freed u v x y).Absent y := by
  rw [h.freed_eq]
  exact ⟨h.paired.toApart.absent_fst h.fst h.snd, h.paired.toApart.absent_snd h.fst h.snd⟩

theorem kept_back (h : w.HasPair u v l x y) :
    w.board.Move ((w.board.freed u v x y).append (listKey u .myList) ⟨x, "", ""⟩) := by
  rw [h.freed_eq]
  exact .takeBack u v l x y h.side h.fst h.snd

theorem handed_on (h : w.HasPair u v l x y) (t : UserID) {i j : Issue} (hi : w.issue x = some i)
    (hj : w.issue j.id = none) (ht : Board.SameText i j) :
    w.board.Move ((((w.board.freed u v x y).setIssue j.id (some j)).append (listKey u .outList) ⟨x, j.id, t⟩).append
      (listKey t .inList) ⟨j.id, x, u⟩) := by
  rw [h.freed_eq]
  exact .assignPair u v t l x y h.side h.fst h.snd i j hi hj ht

end World.HasPair

/-! ## `ChangeAssignment` -/

namespace ListManager

variable {Γ : Type} {R : Race Γ} {E : Env} {w₀ : World} {u v t : UserID} {l : ListID} {x y : String}
  {stage : Γ → ReassignStage} {g : Γ}

/-- What a reassignment has built: a board its move leads to, with nothing left of `y`. -/
def Rebuilt (w₀ : World) (y : String) (s : ReassignStage) : Prop :=
  ∃ b, s = .built b ∧ w₀.board.Move b ∧ b.Absent y ∧ b.issue y = none

/-- The end of `ChangeAssignment` builds the board of its move. -/
theorem reassign_safe (h : Reassigner R w₀ u v t x y stage) (hp : w₀.HasPair u v l x y) (hf : w₀.Fresh E) {i : Issue}
    (hi : w₀.issue x = some i) (hg : stage g = .building ((w₀.board.strip v y).setIssue y none))
    {post : ChangeResult → Γ → Prop} (hdone : ∀ g res, Rebuilt w₀ y (stage g) → res.err = none → post res g) :
    R.Safe E post (reassign x u t .outList ⟨x, y, v⟩ i) g := by
  have hxy := hp.ne
  obtain ⟨hax, hay⟩ := hp.freed_absent
  have hx : x ∈ ids (((w₀.board.strip v y).setIssue y none).refs u .outList) := by
    rw [Board.refs_setIssue, Board.mem_ids_strip hxy]
    exact List.mem_map.2 ⟨_, hp.fst, rfl⟩
  have hyn : (w₀.board.freed u v x y).issue y = none := by simp [Board.freed]
  have hret : ∀ {g res b}, stage g = .built b → w₀.board.Move b → b.Absent y → b.issue y = none → res.err = none →
      R.Safe E post (pure res) g := fun hs hm ha hn herr => Race.ret fun g' hr =>
    hdone g' _ ⟨_, (h.stays hr).trans hs, hm, ha, hn⟩ herr
  unfold reassign
  by_cases htu : u = t
  · -- back to the sender
    subst htu
    rw [if_pos ⟨rfl, rfl⟩]
    apply h.takeOut hp.users hxy hg hx
    intro g₁ hg₁
    refine h.putIn (m := .myList) hg₁ (fun he => absurd he hp.users) hxy (hax u .myList) (fun hnew => .keep hnew)
      fun g₂ hg₂ => ?_
    exact hret hg₂ hp.kept_back (hay.append u .myList hxy) hyn rfl
  · have hne : u.val ≠ t.val := fun he => htu (UserID.ext_val he)
    rw [if_neg (fun hc => hne hc.1), if_pos hne]
    apply h.takeOut hp.users hxy hg hx
    intro g₁ hg₁
    simp only
    unfold assign newIssue
    rw [Proc.bind_assoc]
    have hbuild : ∀ {g g' b}, stage g = .building b → R.rely g g' → stage g' = .building b :=
      fun hs hr => (h.stays hr).trans hs
    -- the copy for the new receiver, under a new id
    apply Race.newId
    intro g₂ hr₂
    have hg₂ := hbuild hg₁ hr₂
    have hz : w₀.issue (E.newId (R.world g₂).drawn) = none := hf _ (h.drawn g₂)
    obtain ⟨g₃, hw₃, hgu₃, hg₃⟩ := h.step hg₂ .newId
    refine ⟨g₃, hw₃, hgu₃ _ _, ?_⟩
    have hzid := E.newId_isId (R.world g₂).drawn
    generalize E.newId (R.world g₂).drawn = z at hz hzid ⊢
    rw [Proc.bind_assoc]
    apply Race.getMillis
    intro g₄ hr₄
    have hg₄ := hbuild hg₃ hr₄
    obtain ⟨g₅, hw₅, hgu₅, hg₅⟩ := h.step hg₄ .getMillis
    refine ⟨g₅, hw₅, hgu₅ _ _, ?_⟩
    rw [Proc.pure_eq, Proc.ret_bind]
    let j : Issue := ⟨z, i.message, i.postPermalink, i.description, E.millis (R.world g₄).ticks, i.postID⟩
    apply Race.saveIssue
    intro g₆ hr₆
    obtain ⟨g₇, hw₇, hgu₇, hg₇⟩ := h.step (hbuild hg₅ hr₆) (.save j hzid.1)
    refine ⟨g₇, hw₇, hgu₇ _ _, ?_⟩
    have hzx : z ≠ x := fun he => by rw [he, hi] at hz; cases hz
    obtain ⟨iy, hiy⟩ := hp.paired.recorded v l _ hp.snd
    have hzy : z ≠ y := fun he => by rw [he] at hz; cases hz.symm.trans hiy
    have haz : (w₀.board.freed u v x y).Absent z := by
      rw [hp.freed_eq]
      exact ((hp.paired.recorded.absent hz).unlist u .outList x).unlist v l y
    refine h.putIn (a := u) (m := .outList) hg₇ (fun he => absurd he hp.users) hxy (hax u .outList)
      (fun hnew => .give z hnew) fun g₈ hg₈ => ?_
    simp only
    rw [hp.sound.issue_id hi]
    refine h.putIn (a := t) (m := .inList) hg₈ (fun _ => rfl) hzy
      (haz.append u .outList (s := ⟨x, z, t⟩) hzx.symm t .inList) (fun hnew => .receive z hzy hnew) fun g₉ hg₉ => ?_
    refine hret hg₉ (hp.handed_on t (j := j) hi hz ⟨rfl, rfl, rfl, rfl⟩) ?_ ?_ rfl
    · exact (hay.append u .outList (s := ⟨x, z, t⟩) hxy).append t .inList (s := ⟨z, x, u⟩) hzy
    · simp [j, hzy.symm]

/-- **`ChangeAssignment` by a reassigner** fails without a trace, or builds the board of its move. -/
theorem changeAssignment_safe (h : Reassigner R w₀ u v t x y stage) (hp : w₀.HasPair u v l x y) (hf : w₀.Fresh E)
    (hg : stage g = .idle) {post : ChangeResult → Γ → Prop}
    (hfail : ∀ g res, stage g = .idle → res.err ≠ none → post res g)
    (hdone : ∀ g res, Rebuilt w₀ y (stage g) → res.err = none → post res g) :
    R.Safe E post (changeAssignment x u t) g := by
  have hidle : ∀ {g g'}, stage g = .idle → R.rely g g' → stage g' = .idle := fun hs hr => (h.stays hr).trans hs
  have hret : ∀ {g res}, stage g = .idle → res.err ≠ none → R.Safe E post (pure res) g := fun hs herr =>
    Race.ret fun g' hr => hfail g' _ (hidle hs hr) herr
  unfold changeAssignment
  apply Race.getIssue h.sound
  intro g₁ hr₁
  have hg₁ := hidle hg hr₁
  rw [World.fetch]
  cases hi : (R.world g₁).issue x with
  | none => exact hret hg₁ (Option.some_ne_none _)
  | some i =>
    have hi₀ := h.record hg₁ hi
    have hclear : ∀ l, R.Clear u x l g₁ := fun l g' hr => ⟨h.noted _ g', Dropper.not_legacy (s := ⟨u, .outList, x⟩)
      (t := ⟨v, .inList, y⟩) fun r hr' he => (h.own (hidle hg₁ hr) hr' he).2⟩
    refine Race.getIssueListAndReference h.sound hclear (fun g₂ m r n hr₂ hm he => ?_)
      fun g₂ g₃ g₄ hr₂ hr₃ hr₄ _ _ _ => hret (hidle (hidle (hidle hg₁ hr₂) hr₃) hr₄) (Option.some_ne_none _)
    have hg₂ := hidle hg₁ hr₂
    obtain ⟨rfl, rfl⟩ := h.own hg₂ hm he
    simp only [reduceCtorEq, and_false, or_self, if_false]
    rw [if_pos v.val_ne_empty]
    have hclear' : ∀ l, R.Clear v y l g₂ := fun l g' hr => ⟨h.noted _ g', Dropper.not_legacy (s := ⟨v, .inList, y⟩)
      (t := ⟨u, .outList, x⟩) fun r hr' he => h.foreign (hidle hg₂ hr) hr' he⟩
    refine Race.getIssueListAndReference h.sound hclear' (fun g₃ m r n hr₃ hm he => ?_)
      fun g₃ g₄ g₅ hr₃ hr₄ hr₅ _ _ _ => hret (hidle (hidle (hidle hg₂ hr₃) hr₄) hr₅) (Option.some_ne_none _)
    have hg₃ := hidle hg₂ hr₃
    obtain ⟨fuel, hcalm⟩ := h.calm hg₃ (List.mem_map.2 ⟨r, hm, he⟩)
    refine Race.removeReference h.sound hcalm (fun g₄ hr₄ _ => hret (hidle hg₃ hr₄) (Option.some_ne_none _))
      fun g₄ hr₄ hin => ?_
    obtain ⟨g₅, hw₅, hgu₅, hg₅⟩ := h.win (hidle hg₃ hr₄) hin
    refine ⟨g₅, hw₅, hgu₅ _ _, h.dropRecord hg₅ fun g₆ res hg₆ => ?_⟩
    exact reassign_safe h hp hf hi₀ hg₆ hdone

end ListManager

end Todo

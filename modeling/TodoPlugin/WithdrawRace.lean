import TodoPlugin.AcceptRace
/-!
# Withdrawing a todo while it is accepted

The sender removes a todo that its receiver is accepting.  The sender searches the receiver's lists one by one and takes
the reference out of the list it found it in; the receiver moves it from the In list to the owned one.  All is well
unless the sender has read the In list, and found the reference there, before the receiver takes it out.
-/
namespace Todo

open Store (ids without)
open Relation (ReflTransGen)

/-- The call takes an element out of the list under `key`, or puts one in. -/
def takes (key : String) : (c : Call) → Resp c → Bool
  | .kvCompareAndSet k _ _, .ok done => done && k == key
  | _, _                             => false

/-- **The sender has read the list under `key` before the receiver changes it.** -/
def overtaken (key : String) : Bool → List (Event Bool Call Resp) → Bool
  | _, []           => false
  | read, e :: tr =>
    (read && !e.who && takes key e.call e.resp) || overtaken key (read || (e.who && e.call == .kvGet key)) tr

/-- What is noted of the sender: whether it has read the In list while the reference was there. -/
abbrev WithdrawState := AcceptState Bool

section steps
variable {w₀ : World} {u v : UserID} {x y : String} {g g' g'' : WithdrawState}

/-- **What the two keep.** -/
structure WithdrawInv (w₀ : World) (u v : UserID) (x y : String) (g : WithdrawState) : Prop extends
    AcceptInv u v x y g where
  frame : Frame [x, y] w₀.board g.world.board
  fst   : ∀ {a m r}, r ∈ g.world.board.refs a m → r.issueID = x → a = u ∧ m = .outList ∧ r = ⟨x, y, v⟩

/-- The sender's steps. -/
inductive WithdrawStep (u v : UserID) (x y : String) : WithdrawState → WithdrawState → Prop
  | out {g : WithdrawState} : WithdrawStep u v x y g { g with world := g.world.unlist u x .outList }
  | record {g : WithdrawState} (id : String) (hid : id ∈ [x, y]) :
      WithdrawStep u v x y g { g with world := g.world.delete (issueKey id) }
  | see {g : WithdrawState} (hin : g.Has v y .inList) : WithdrawStep u v x y g { g with note := true }
  | take {g : WithdrawState} (l : ListID) (hin : g.Has v y l) (h : g.took = none) :
      WithdrawStep u v x y g { g with world := g.world.unlist v y l, took := some l }

namespace WithdrawInv

theorem acceptStep (h : WithdrawInv w₀ u v x y g) (hxy : x ≠ y) (hstep : AcceptStep v y ⟨y, x, u⟩ g g') :
    WithdrawInv w₀ u v x y g' where
  toAcceptInv := h.step hstep
  frame       := h.frame.trans (hstep.frame.mono (by simp))
  fst hr he   := h.fst ((hstep.frame.mem (by simpa [he] using hxy)).1 hr) he

/-- Taking a reference of the pair out keeps what is known of the references left. -/
theorem unlist (h : WithdrawInv w₀ u v x y g) {a : UserID} {id : String} {l : ListID} (hid : id ∈ [x, y]) :
    Frame [x, y] w₀.board (g.world.unlist a id l).board ∧
      ∀ {b m r}, r ∈ (g.world.unlist a id l).board.refs b m → r ∈ g.world.board.refs b m := by
  rw [World.board_unlist]
  exact ⟨h.frame.setList _ (outside_without hid _), fun hr => (Board.mem_refs_unlist.1 hr).1⟩

theorem withdrawStep (h : WithdrawInv w₀ u v x y g) (huv : u ≠ v) (hstep : WithdrawStep u v x y g g') :
    WithdrawInv w₀ u v x y g' := by
  cases hstep with
  | out =>
    obtain ⟨hframe, hsub⟩ := @h.unlist _ _ _ _ _ _ u x .outList (by simp)
    refine { h.other (h.sound.unlist _ _ _) g.note (fun hr _ => hsub hr) (fun l => ?_) with
             frame := hframe, fst := fun hr => h.fst (hsub hr) }
    rw [World.board_unlist, Board.refs_unlist, if_neg fun hc => huv hc.1.symm]
    rfl
  | record id hid =>
    have hb := h.sound.board_delete_issue id
    refine { h.other (h.sound.delete_issue id) g.note (fun hr _ => by rwa [hb] at hr) (fun l => by rw [hb]; rfl) with
             frame := ?_, fst := ?_ }
    · rw [hb]
      exact h.frame.setIssue hid _
    · rw [hb]
      exact h.fst
  | see hin => exact { h with }
  | take l hin ht =>
    obtain ⟨hframe, hsub⟩ := @h.unlist _ _ _ _ _ _ v y l (by simp)
    exact { h.taken hin ht g.note with frame := hframe, fst := fun hr => h.fst (hsub hr) }

/-- A list with a reference of the pair is in the encoding of today. -/
theorem encoded (h : WithdrawInv w₀ u v x y g) {l : ListID} (hin : g.Has v y l) :
    ∃ list, g.world.kv (listKey v l) = some (.refs list) ∧ g.world.list (listKey v l) = list := by
  have hd := h.sound.decode_eq v l
  cases hk : g.world.kv (listKey v l) with
  | none =>
    rw [hk] at hd
    rw [AcceptState.Has, Board.refs, World.board_list, ← Option.some.inj hd] at hin
    cases hin
  | some value =>
    cases value with
    | refs list =>
      rw [hk] at hd
      exact ⟨list, rfl, (Option.some.inj hd).symm⟩
    | legacy id rest => exact absurd hin (h.not_legacy l ⟨id, rest, hk⟩)
    | issue i => rw [hk] at hd; cases hd
    | text t => rw [hk] at hd; cases hd

end WithdrawInv

/-- What the sender's steps leave. -/
structure Withdraws (v : UserID) (y : String) (g g' : WithdrawState) : Prop where
  stage : g'.stage = g.stage
  early : g.note = true → g'.note = true
  gone  : ∀ l, ¬ g.Has v y l → ¬ g'.Has v y l
  ebbs  : ∀ l, World.Ebbs (listKey v l) g.world g'.world (g.world.tally (listKey v l) y) (g'.world.tally (listKey v l) y)

theorem Withdraws.refl (v : UserID) (y : String) (g : WithdrawState) : Withdraws v y g g :=
  ⟨rfl, id, fun _ => id, fun _ => .refl ..⟩

theorem Withdraws.trans (h : Withdraws v y g g') (h' : Withdraws v y g' g'') : Withdraws v y g g'' where
  stage      := h'.stage.trans h.stage
  early he   := h'.early (h.early he)
  gone l hno := h'.gone l (h.gone l hno)
  ebbs l     := (h.ebbs l).trans (h'.ebbs l)

theorem WithdrawStep.withdraws (h : WithdrawStep u v x y g g') (huv : u ≠ v) (hi : WithdrawInv w₀ u v x y g) :
    Withdraws v y g g' := by
  cases h with
  | out =>
    have hne : ∀ l, listKey v l ≠ listKey u .outList := fun l he => huv (listKey_inj.1 he).1.symm
    have hl : ∀ l, (g.world.unlist u x .outList).list (listKey v l) = g.world.list (listKey v l) := fun l => by
      rw [World.list_unlist, if_neg (hne l)]
    refine ⟨rfl, id, fun l hno => ?_, fun l => .of_kv (World.kv_unlist_of_ne _ (hne l)) (Nat.le_of_eq ?_)⟩
    · rwa [AcceptState.Has, Board.refs, World.board_list, hl]
    · rw [World.tally, World.tally, hl]
  | record k hk =>
    have hl := hi.sound.delete_list k
    refine ⟨rfl, fun he => he, fun l hno => ?_, fun l => .of_kv (World.delete_kv_of_ne _ (listKey_ne_issueKey _ _ _))
      (Nat.le_of_eq ?_)⟩
    · rwa [AcceptState.Has, Board.refs, World.board_list, hl]
    · rw [World.tally, World.tally, hl]
  | see hin => exact ⟨rfl, fun _ => rfl, fun _ => id, fun _ => .refl ..⟩
  | take l hin ht =>
    exact ⟨rfl, id, fun m hno hm => hno ((has_unlist ..).1 hm).1, fun m => World.ebbs_unlist _ (hi.not_legacy _) _⟩

theorem withdrawSteps (huv : u ≠ v) (h : ReflTransGen (WithdrawStep u v x y) g g') (hi : WithdrawInv w₀ u v x y g) :
    Withdraws v y g g' ∧ WithdrawInv w₀ u v x y g' := by
  induction h with
  | refl => exact ⟨.refl v y g, hi⟩
  | tail _ hstep ih => exact ⟨ih.1.trans (hstep.withdraws huv ih.2), ih.2.withdrawStep huv hstep⟩

end steps

/-! ## The two sides of the race -/

/-- The states of the race. -/
abbrev WithdrawGhost (w₀ : World) (u v : UserID) (x y : String) := { g : WithdrawState // WithdrawInv w₀ u v x y g }

/-- The sender's side.  A read of the In list while the reference is there is to be noted. -/
def withdrawRace (w₀ : World) (u v : UserID) (x y : String) : Race (WithdrawGhost w₀ u v x y) where
  world g              := g.1.world
  rely g g'            := ReflTransGen (AcceptStep v y ⟨y, x, u⟩) g.1 g'.1
  guar c _ g g'        := (g' = g ∨ WithdrawStep u v x y g.1 g'.1) ∧
    (g'.1.note = true ↔ g.1.note = true ∨ c = .kvGet (listKey v .inList) ∧ g.1.Has v y .inList)
  noted key g          := key = listKey v .inList → g.1.Has v y .inList → g.1.note = true
  refl _               := .refl
  trans _ _ _ h h'     := h.trans h'
  get _ _ hn           := ⟨.inl rfl, .inl, fun h => h.elim id fun h => hn (Call.kvGet.inj h.1) h.2⟩
  issue _ _ he         := absurd he.symm (listKey_ne_issueKey _ _ _)
  lost _ _ _ _ _       := ⟨.inl rfl, .inl, fun h => h.elim id fun h => nomatch h.1⟩

/-- The receiver's side. -/
def acceptRace (w₀ : World) (u v : UserID) (x y : String) : Race (WithdrawGhost w₀ u v x y) where
  world g          := g.1.world
  rely g g'        := ReflTransGen (WithdrawStep u v x y) g.1 g'.1
  guar c r g g'    := (g' = g ∨ AcceptStep v y ⟨y, x, u⟩ g.1 g'.1) ∧
    (takes (listKey v .inList) c r = true → g.1.Has v y .inList) ∧
    (g'.1.stage = .taken ↔ g.1.stage = .taken ∨ takes (listKey v .inList) c r = true)
  noted _ _        := True
  refl _           := .refl
  trans _ _ _ h h' := h.trans h'
  get _ _ _        := ⟨.inl rfl, nofun, .inl, fun h => h.elim id nofun⟩
  issue _ _        := trivial
  lost _ _ _ _ _   := ⟨.inl rfl, nofun, .inl, fun h => h.elim id nofun⟩

section races
variable {w₀ : World} {u v : UserID} {x y : String} {E : Env}

theorem acceptRace_accepter (huv : u ≠ v) (hxy : x ≠ y) :
    Accepter (acceptRace w₀ u v x y) ⟨v, .inList, y⟩ ⟨u, .outList, x⟩ (fun g => g.1.stage) where
  sound g := g.2.sound
  noted _ _ := trivial
  stays {g g'} hr := (withdrawSteps huv hr g.2).1.stage
  ref {g l r} hr he := (g.2.snd hr he).2.2
  new {g} hs := g.2.new hs
  kept {g} hs hout := (g.2.kept hs hout).2
  gone {g g'} hr := (withdrawSteps huv hr g.2).1.gone .inList
  calm g l := ⟨fun g => g.1.world.tally (listKey v l) y, World.tally_lt .., fun _ _ => trivial,
    fun g₁ g₂ _ hr => (withdrawSteps huv hr g₁.2).1.ebbs l⟩
  add {g} hs := by
    have hstep : AcceptStep v y ⟨y, x, u⟩ g.1 _ := .add hs
    have hne : listKey v .myList ≠ listKey v .inList := fun he => nomatch (listKey_inj.1 he).2
    refine ⟨⟨_, g.2.acceptStep hxy hstep⟩, rfl, ⟨.inr hstep, fun ht => ?_, ?_⟩, rfl⟩
    · simp [takes, hne] at ht
    · simp [takes, hne, hs]
  take {g} hs hin :=
    have hstep : AcceptStep v y ⟨y, x, u⟩ g.1 _ := .take hs hin
    ⟨⟨_, g.2.acceptStep hxy hstep⟩, rfl, ⟨.inr hstep, fun _ => hin, fun _ => .inr (by simp [takes]), fun _ => rfl⟩, rfl⟩
  back {g} hs hout := by
    have hstep : AcceptStep v y ⟨y, x, u⟩ g.1 _ := .back hs hout
    have hne : listKey v .myList ≠ listKey v .inList := fun he => nomatch (listKey_inj.1 he).2
    refine ⟨⟨_, g.2.acceptStep hxy hstep⟩, rfl, ⟨.inr hstep, fun ht => ?_, ?_⟩, rfl⟩
    · simp [takes, hne] at ht
    · simp [takes, hne, hs]

/-- The sender's own side is gone. -/
def Sent (u : UserID) (x : String) (g : WithdrawState) : Prop :=
  x ∉ ids (g.world.board.refs u .outList) ∧ g.world.issue x = none

/-- The reference was taken out, or missed because the receiver had moved it since the In list was read. -/
def Missed (g : WithdrawState) : Prop :=
  g.took = some .inList ∨ g.took = some .myList ∧ g.note = false ∨ g.took = none ∧ g.note = true ∧ g.stage = .taken

variable {g g' : WithdrawState}

theorem Accepts.sent (h : Accepts v y g g') (huv : u ≠ v) (hs : Sent u x g) : Sent u x g' := by
  rwa [Sent, h.refs huv, h.issue]

theorem Accepts.missed (h : Accepts v y g g') (hm : Missed g) : Missed g' := by
  rcases hm with hm | ⟨hm, he⟩ | ⟨hm, he, hs⟩
  · exact .inl (h.took.trans hm)
  · exact .inr (.inl ⟨h.took.trans hm, h.note.trans he⟩)
  · obtain rfl := h.taken hs
    exact .inr (.inr ⟨hm, he, hs⟩)

end races

/-! ## The sender's side is safe -/

section sender
variable {w₀ : World} {u v : UserID} {x y : String} {E : Env} {g : WithdrawGhost w₀ u v x y}

/-- What the sender has done when it returns. -/
def withdrawPost (w₀ : World) (u v : UserID) (x y : String) (_ : RemoveResult) (g : WithdrawGhost w₀ u v x y) : Prop :=
  Sent u x g.1 ∧ g.1.world.issue y = none ∧ Missed g.1

theorem withdrawGuar {g' : WithdrawGhost w₀ u v x y} {c : Call} {r : Resp c} (hc : ∀ key, c ≠ .kvGet key)
    (hstep : WithdrawStep u v x y g.1 g'.1) (he : g'.1.note = g.1.note) : (withdrawRace w₀ u v x y).guar c r g g' := by
  refine ⟨.inr hstep, ?_⟩
  rw [he]
  exact ⟨.inl, fun h => h.elim id fun h => absurd h.1 (hc _)⟩

/-- Dropping a record of the pair. -/
theorem withdraw_record (huv : u ≠ v) {id : String} (hid : id ∈ [x, y]) {β : Type}
    {post : β → WithdrawGhost w₀ u v x y → Prop} {f : Except String Issue → Api β}
    (hf : ∀ (g₁ : WithdrawGhost w₀ u v x y) (w : World) (hi : WithdrawInv w₀ u v x y { g₁.1 with world := w }) res,
      (withdrawRace w₀ u v x y).rely g g₁ → w.board = g₁.1.world.board.setIssue id none →
      (withdrawRace w₀ u v x y).Safe E post (f res) ⟨_, hi⟩) :
    (withdrawRace w₀ u v x y).Safe E post (Store.getAndRemoveIssue id >>= f) g := by
  refine Race.getAndRemoveIssue (fun g => g.2.sound) (fun g₁ hr hn => ?_) fun g₁ i hr => ?_
  · exact hf g₁ g₁.1.world g₁.2 _ hr (Board.setIssue_none_of_none hn).symm
  · have hstep : WithdrawStep u v x y g₁.1 _ := .record id hid
    exact ⟨⟨_, g₁.2.withdrawStep huv hstep⟩, rfl, withdrawGuar nofun hstep rfl,
      hf g₁ _ _ _ hr (g₁.2.sound.board_delete_issue id)⟩

/-- The last of the calls. -/
theorem withdraw_last (huv : u ≠ v) (hs : Sent u x g.1) (hm : Missed g.1) (res : Except String Issue → RemoveResult) :
    (withdrawRace w₀ u v x y).Safe E (withdrawPost w₀ u v x y)
      (Store.getAndRemoveIssue y >>= fun issue => pure (res issue)) g := by
  refine withdraw_record huv (by simp) fun g₁ w hi _ hr hb => Race.ret fun g₂ hr₂ => ?_
  have h₁ := (acceptSteps hr).sent huv hs
  have h₂ := acceptSteps hr₂
  refine ⟨h₂.sent huv ⟨?_, ?_⟩, ?_, h₂.missed ((acceptSteps hr).missed hm)⟩
  · rw [hb, Board.refs_setIssue]
    exact h₁.1
  · rw [← World.board_issue, hb, Board.setIssue_issue]
    split
    · rfl
    · exact h₁.2
  · rw [h₂.issue, ← World.board_issue, hb, Board.setIssue_issue, if_pos rfl]

/-- **Taking the receiver's reference out**, from the In list where it was seen there, else from the owned one. -/
theorem withdraw_reference (huv : u ≠ v) (hs : Sent u x g.1) (ht : g.1.took = none) {l : ListID}
    (hl : l = .inList ∧ g.1.note = true ∨ l = .myList ∧ g.1.note = false ∧ g.1.stage ≠ .idle)
    (res : Except String Issue → RemoveResult) :
    (withdrawRace w₀ u v x y).Safe E (withdrawPost w₀ u v x y)
      (Store.removeReference v y l >>= fun _ => Store.getAndRemoveIssue y >>= fun issue => pure (res issue)) g := by
  have hcalm : (withdrawRace w₀ u v x y).Calm (listKey v l) (fun g => g.1.world.tally (listKey v l) y) g := by
    refine ⟨World.tally_lt .., fun g₁ hr he _ => ?_,
      fun g₁ g₂ hr₁ hr₂ => acceptSteps_ebbs hr₂ g₁.2.toAcceptInv fun he => ?_⟩
    · rcases hl with ⟨-, hl⟩ | ⟨rfl, -⟩
      · exact (acceptSteps hr).note.trans hl
      · cases (listKey_inj.1 he).2
    · rcases hl with ⟨rfl, -⟩ | ⟨-, -, hl⟩
      · cases (listKey_inj.1 he).2
      · exact (acceptSteps hr₁).moved hl
  refine Race.removeReference (fun g => g.2.sound) hcalm (fun g₁ hr hout => ?_) fun g₁ hr hin => ?_
  · -- not there: the receiver has taken it out
    have h₁ := acceptSteps hr
    have htook : g₁.1.took = none := h₁.took.trans ht
    refine withdraw_last huv (h₁.sent huv hs) ?_ res
    rcases hl with ⟨rfl, hl⟩ | ⟨rfl, -, hl⟩
    · exact .inr (.inr ⟨htook, h₁.note.trans hl, g₁.2.stage_of_gone htook hout⟩)
    · exact absurd (g₁.2.moved htook (h₁.moved hl)) hout
  · have h₁ := acceptSteps hr
    have hstep : WithdrawStep u v x y g₁.1 _ := .take l hin (h₁.took.trans ht)
    refine ⟨⟨_, g₁.2.withdrawStep huv hstep⟩, rfl, withdrawGuar nofun hstep rfl, withdraw_last huv ?_ ?_ res⟩
    · obtain ⟨hout, hrec⟩ := h₁.sent huv hs
      refine ⟨?_, ?_⟩
      · rwa [World.board_unlist, Board.refs_unlist, if_neg fun hc => huv hc.1]
      · rwa [World.issue_unlist]
    · rcases hl with ⟨rfl, -⟩ | ⟨rfl, hl, -⟩
      · exact .inl rfl
      · exact .inr (.inl ⟨rfl, h₁.note.trans hl⟩)

/-- **Reading the In list**: seen there, the reference is noted; not there, the receiver has taken it out. -/
theorem withdraw_search (huv : u ≠ v) (ht : g.1.took = none) {β : Type}
    {post : β → WithdrawGhost w₀ u v x y → Prop} {f : Except String (IssueRef × Nat) → Api β}
    (hseen : ∀ (g₁ : WithdrawGhost w₀ u v x y) hi r n, (withdrawRace w₀ u v x y).rely g g₁ →
      (withdrawRace w₀ u v x y).Safe E post (f (.ok (r, n))) ⟨{ g₁.1 with note := true }, hi⟩)
    (hgone : ∀ g₁ e, (withdrawRace w₀ u v x y).rely g g₁ → g₁.1.stage = .taken →
      (withdrawRace w₀ u v x y).Safe E post (f (.error e)) g₁) :
    (withdrawRace w₀ u v x y).Safe E post (Store.getIssueReference v y .inList >>= f) g := by
  unfold Store.getIssueReference
  rw [Proc.bind_assoc]
  intro g₁ hr₁
  by_cases hin : g₁.1.Has v y .inList
  · have hstep : WithdrawStep u v x y g₁.1 _ := .see hin
    refine ⟨⟨_, g₁.2.withdrawStep huv hstep⟩, rfl, ⟨.inr hstep, fun _ => .inr ⟨rfl, hin⟩, fun _ => rfl⟩, ?_⟩
    obtain ⟨list, hk, hl⟩ := g₁.2.encoded hin
    simp only [serve]
    rw [show (withdrawRace w₀ u v x y).world g₁ = g₁.1.world from rfl, hk]
    have hfinds : Race.Finds g₁.1.world v y .inList (Store.lookupRef y list) := Race.finds_lookupRef hl
    cases hf : Store.lookupRef y list with
    | error e =>
      rw [hf] at hfinds
      exact absurd hin hfinds
    | ok p =>
      have hsafe := hseen g₁ (g₁.2.withdrawStep huv hstep) p.1 p.2 hr₁
      rw [show Except.ok (p.1, p.2) = Store.lookupRef y list from hf.symm] at hsafe
      exact hsafe
  · have h₁ := acceptSteps hr₁
    have htook : g₁.1.took = none := h₁.took.trans ht
    have htaken : g₁.1.stage = .taken := g₁.2.stage_of_gone htook hin
    have hclear : (withdrawRace w₀ u v x y).Clear v y .inList g₁ := fun g₂ hr₂ => by
      obtain rfl : g₂ = g₁ := Subtype.ext ((acceptSteps hr₂).taken htaken)
      exact ⟨fun _ hc => absurd hc hin, fun _ => hin⟩
    refine Race.getIssueReference (fun g => g.2.sound) hclear (f := f) (fun g₂ res hr₂ hf => ?_) g₁ .refl
    obtain rfl : g₂ = g₁ := Subtype.ext ((acceptSteps hr₂).taken htaken)
    match res, hf with
    | .ok (r, n), ⟨hr, he⟩ => exact absurd (List.mem_map.2 ⟨r, hr, he⟩) hin
    | .error e, _ => exact hgone g₂ e hr₁ htaken

/-- **The withdrawal** leaves nothing of the pair but a reference it has missed. -/
theorem removeIssue_withdrawSafe (huv : u ≠ v) (hx : x ∈ ids (g.1.world.board.refs u .outList))
    (ht : g.1.took = none) (he : g.1.note = false) :
    (withdrawRace w₀ u v x y).Safe E (withdrawPost w₀ u v x y) (ListManager.removeIssue u x) g := by
  have hsound : ∀ g : WithdrawGhost w₀ u v x y, ((withdrawRace w₀ u v x y).world g).Sound := fun g => g.2.sound
  have hother : ∀ l (g : WithdrawGhost w₀ u v x y), (withdrawRace w₀ u v x y).noted (listKey u l) g :=
    fun l g hk => absurd (listKey_inj.1 hk).1 huv
  have hmem : ∀ {g₁ : WithdrawGhost w₀ u v x y}, (withdrawRace w₀ u v x y).rely g g₁ →
      x ∈ ids (g₁.1.world.board.refs u .outList) := fun hr => by
    rwa [(acceptSteps hr).refs huv]
  have hclear : ∀ l, (withdrawRace w₀ u v x y).Clear u x l g := fun l g' hr =>
    ⟨hother l g', Dropper.not_legacy (s := ⟨u, .outList, x⟩) (t := ⟨v, .inList, y⟩) fun r hr' he => (g'.2.fst hr' he).2.2⟩
  refine Race.getIssueListAndReference hsound hclear (fun g₁ l r n hr₁ hm hid => ?_)
    fun g₁ g₂ g₃ hr₁ hr₂ _ _ hno _ => absurd (hmem (hr₁.trans hr₂)) hno
  obtain ⟨-, rfl, rfl⟩ := g₁.2.fst hm hid
  -- its own reference: nobody else touches that list
  have hcalm : (withdrawRace w₀ u v x y).Calm (listKey u .outList) (fun _ => 0) g₁ :=
    ⟨Nat.zero_lt_succ 2, fun g' _ => hother _ g', fun g₂ g₃ _ hr =>
      .of_kv ((acceptSteps hr).kv _ fun l _ hk => huv (listKey_inj.1 hk).1) (Nat.le_refl 0)⟩
  apply Race.removeReference hsound hcalm (fun g₂ hr₂ hno => absurd (hmem (hr₁.trans hr₂)) hno)
  intro g₂ hr₂ _
  have h₂ := acceptSteps (hr₁.trans hr₂)
  have hstep : WithdrawStep u v x y g₂.1 _ := .out
  refine ⟨⟨_, g₂.2.withdrawStep huv hstep⟩, rfl, withdrawGuar nofun hstep rfl, ?_⟩
  apply withdraw_record huv (List.mem_cons_self : x ∈ [x, y])
  intro g₃ w hi res hr₃ hb
  rw [if_neg v.val_ne_empty]
  have h₃ := acceptSteps hr₃
  have hsent : Sent u x { g₃.1 with world := w } := by
    refine ⟨?_, ?_⟩
    · rw [hb, Board.refs_setIssue, h₃.refs huv, World.board_unlist, Board.refs_unlist, if_pos ⟨rfl, rfl⟩]
      exact Store.not_mem_ids_without _ _
    · rw [← World.board_issue, hb, Board.setIssue_issue, if_pos rfl]
  have htook : g₃.1.took = none := h₃.took.trans (h₂.took.trans ht)
  have hearly : g₃.1.note = false := h₃.note.trans (h₂.note.trans he)
  -- the search of the receiver's lists
  have hclear' : ∀ {l} (g' : WithdrawGhost w₀ u v x y), l ≠ .inList → (withdrawRace w₀ u v x y).Clear v y l g' :=
    fun _ hl g'' _ => ⟨fun hk => absurd (listKey_inj.1 hk).2 hl, g''.2.not_legacy _⟩
  unfold Store.getIssueListAndReference
  rw [Proc.bind_assoc]
  apply Race.getIssueReference hsound (hclear' (l := .myList) _ nofun)
  intro g₄ res hr₄ hf₄
  have h₄ := acceptSteps hr₄
  match res, hf₄ with
  | .ok (r, n), ⟨hm, hid⟩ =>
    refine withdraw_reference huv (h₄.sent huv hsent) (h₄.took.trans htook)
      (.inr ⟨rfl, h₄.note.trans hearly, fun hst => ?_⟩) _
    have := (g₄.2.my.1 (List.mem_map.2 ⟨r, hm, hid⟩)).1
    rw [hst] at this
    simp at this
  | .error _, _ =>
    simp only
    rw [Proc.bind_assoc]
    apply Race.getIssueReference hsound (hclear' (l := .outList) _ nofun)
    intro g₅ res hr₅ hf₅
    have h₅ := h₄.trans (acceptSteps hr₅)
    match res, hf₅ with
    | .ok (r, n), ⟨hm, hid⟩ => exact absurd rfl (g₅.2.snd hm hid).2.1
    | .error _, _ =>
      simp only
      rw [Proc.bind_assoc]
      refine withdraw_search huv (h₅.took.trans htook) (fun g₆ hi r n hr₆ => ?_) fun g₆ e hr₆ hst => ?_
      · have h₆ := h₅.trans (acceptSteps hr₆)
        exact withdraw_reference (g := ⟨_, hi⟩) huv (h₆.sent huv hsent) (h₆.took.trans htook) (.inl ⟨rfl, rfl⟩) _
      · have h₆ := h₅.trans (acceptSteps hr₆)
        refine withdraw_reference huv (h₆.sent huv hsent) (h₆.took.trans htook)
          (.inr ⟨rfl, h₆.note.trans hearly, ?_⟩) _
        rw [hst]
        nofun

end sender

/-! ## The race -/

/-- Every reference has its record, and of the two todos both are gone or both are there, paired. -/
def World.AllOrNone (w : World) (u v : UserID) (x y : String) : Prop :=
  w.board.Recorded ∧
    ((w.board.Absent x ∧ w.board.Absent y ∧ w.issue x = none ∧ w.issue y = none) ∨
      ∃ l, l ≠ .outList ∧ ⟨x, y, v⟩ ∈ w.board.refs u .outList ∧ ⟨y, x, u⟩ ∈ w.board.refs v l)

section race
variable {w₀ : World} {u v : UserID} {x y : String} {E : Env} {g g' : WithdrawGhost w₀ u v x y}

/-- The sender's side, and the receiver's. -/
def withdrawSide (w₀ : World) (u v : UserID) (x y : String) : Bool → Race (WithdrawGhost w₀ u v x y)
  | true  => withdrawRace w₀ u v x y
  | false => acceptRace w₀ u v x y

theorem withdrawSide_compat (i j : Bool) (c : Call) (r : Resp c) (g g' : WithdrawGhost w₀ u v x y) (hij : i ≠ j)
    (h : (withdrawSide w₀ u v x y i).guar c r g g') : (withdrawSide w₀ u v x y j).rely g g' := by
  cases i <;> cases j
  · exact absurd rfl hij
  · rcases h.1 with rfl | h
    · exact .refl
    · exact .single h
  · rcases h.1 with rfl | h
    · exact .refl
    · exact .single h
  · exact absurd rfl hij

/-- **The ghost states see what the trace shows**: the receiver took its reference out after the sender had read it. -/
theorem taken_late_iff (huv : u ≠ v) {tr : List (Event Bool Call Resp)}
    (hp : Pool.Path (fun i => (withdrawSide w₀ u v x y i).guar) tr g g') :
    ∀ read : Bool, (g.1.note = true → read = true) → (read = true → g.1.Has v y .inList → g.1.note = true) →
      (g'.1.note = true ∧ g'.1.stage = .taken ↔
        g.1.note = true ∧ g.1.stage = .taken ∨ overtaken (listKey v .inList) read tr = true) := by
  induction hp with
  | done g => simp [overtaken]
  | @turn g g₁ g₂ e tr he _ ih =>
    intro read hread hearly
    have hnot : g.1.Has v y .inList → g.1.stage ≠ .taken := fun hin hst => by
      have := (g.2.inn.1 hin).1
      simp [hst] at this
    obtain ⟨who, c, r⟩ := e
    cases who with
    | true =>
      -- the sender may read
      obtain ⟨hstep, hsee⟩ := he
      have hw : Withdraws v y g.1 g₁.1 := by
        rcases hstep with rfl | hstep
        · exact .refl v y _
        · exact hstep.withdraws huv g.2
      rw [ih (read || c == .kvGet (listKey v .inList)) (fun h₁ => ?_) fun h₁ hin₁ => ?_]
      · have hsame : g₁.1.note = true ∧ g₁.1.stage = .taken ↔ g.1.note = true ∧ g.1.stage = .taken := by
          rw [hsee, hw.stage]
          exact ⟨fun h => ⟨h.1.elim id fun hs => absurd h.2 (hnot hs.2), h.2⟩, fun h => ⟨.inl h.1, h.2⟩⟩
        rw [hsame, overtaken]
        simp
      · rcases hsee.1 h₁ with h | ⟨rfl, -⟩
        · simp [hread h]
        · simp
      · have hin : g.1.Has v y .inList := Classical.byContradiction fun hno => hw.gone _ hno hin₁
        have h₁ : read = true ∨ c = .kvGet (listKey v .inList) := by simpa using h₁
        exact hsee.2 (h₁.imp (hearly · hin) fun hc => ⟨hc, hin⟩)
    | false =>
      -- the receiver may take it out
      obtain ⟨hstep, htake, hst⟩ := he
      have hsame : g₁.1.note = g.1.note ∧ (g₁.1.Has v y .inList → g.1.Has v y .inList) := by
        rcases hstep with rfl | hstep
        · exact ⟨rfl, id⟩
        · exact ⟨hstep.accepts.note, fun h => Classical.byContradiction fun hno => hstep.accepts.gone hno h⟩
      rw [ih read (fun h₁ => hread (hsame.1 ▸ h₁)) fun h₁ hin₁ => hsame.1.trans (hearly h₁ (hsame.2 hin₁))]
      have hover : overtaken (listKey v .inList) read (⟨false, c, r⟩ :: tr) =
          ((read && takes (listKey v .inList) c r) || overtaken (listKey v .inList) read tr) := by
        simp [overtaken]
      rw [hover, hsame.1, hst, Bool.or_eq_true, Bool.and_eq_true, ← or_assoc]
      refine or_congr_left ⟨?_, ?_⟩
      · rintro ⟨he, hs | ht⟩
        · exact .inl ⟨he, hs⟩
        · exact .inr ⟨hread he, ht⟩
      · rintro (⟨he, hs⟩ | ⟨hr, ht⟩)
        · exact ⟨he, .inl hs⟩
        · exact ⟨hearly hr (htake ht), .inr ht⟩

theorem withdrawPost_after {res : RemoveResult} (huv : u ≠ v) (h : withdrawPost w₀ u v x y res g)
    (hr : (withdrawRace w₀ u v x y).rely g g') : withdrawPost w₀ u v x y res g' := by
  have ha := acceptSteps hr
  exact ⟨ha.sent huv h.1, (ha.issue y).trans h.2.1, ha.missed h.2.2⟩

/-- What each of the two has done when it returns. -/
def withdrawSidePost (w₀ : World) (u v : UserID) (x y : String) : Bool → ListResult → WithdrawGhost w₀ u v x y → Prop
  | true,  _, g => Sent u x g.1 ∧ g.1.world.issue y = none ∧ Missed g.1
  | false, _, g => g.1.stage ≠ .added

theorem allOrNone_iff (hrec : w₀.board.Recorded) (hsent : Sent u x g.1) (hy : g.1.world.issue y = none)
    (hm : Missed g.1) (hst : g.1.stage ≠ .added) :
    g.1.world.AllOrNone u v x y ↔ ¬ (g.1.note = true ∧ g.1.stage = .taken) := by
  constructor
  · -- a reference that was missed has no record
    rintro ⟨hrec, -⟩ ⟨he, hs⟩
    have ht : g.1.took = none := by
      rcases hm with hm | ⟨-, he'⟩ | ⟨hm, -⟩
      · exact absurd hs (g.2.tookIn hm)
      · rw [he] at he'
        cases he'
      · exact hm
    obtain ⟨r, hr, rfl⟩ := List.mem_map.1 (g.2.my.2 ⟨.inr hs, by rw [ht]; nofun⟩)
    obtain ⟨i, hi⟩ := hrec v .myList r hr
    rw [World.board_issue, hy] at hi
    cases hi
  · intro hlate
    have hno : ¬ g.1.Has v y .inList ∧ ¬ g.1.Has v y .myList := by
      rw [g.2.inn, g.2.my]
      rcases hm with hm | ⟨hm, -⟩ | ⟨-, hm⟩
      · have := g.2.tookIn hm
        exact ⟨fun h => h.2 hm, fun h => h.1.elim hst this⟩
      · have := (g.2.tookMy hm).resolve_left hst
        exact ⟨fun h => by simp [this] at h, fun h => h.2 hm⟩
      · exact absurd hm hlate
    have hx : g.1.world.board.Absent x := Board.absent_of_forall fun a m r hr he => by
      obtain ⟨rfl, rfl, rfl⟩ := g.2.fst hr he
      exact hsent.1 (List.mem_map.2 ⟨_, hr, rfl⟩)
    have hy' : g.1.world.board.Absent y := Board.absent_of_forall fun a m r hr he => by
      obtain ⟨rfl, hm, rfl⟩ := g.2.snd hr he
      have hin : g.1.Has a y m := List.mem_map.2 ⟨_, hr, rfl⟩
      cases m with
      | inList => exact hno.1 hin
      | myList => exact hno.2 hin
      | outList => exact hm rfl
    refine ⟨g.2.frame.recorded hrec fun id hid => ?_, .inl ⟨hx, hy', hsent.2, hy⟩⟩
    rcases List.mem_cons.1 hid with rfl | hid
    · exact hx
    · rwa [List.mem_singleton.1 hid]

/-- Where the two start. -/
theorem World.HasPair.withdrawInv {w : World} (h : w.HasPair u v .inList x y) :
    WithdrawInv w u v x y ⟨w, .idle, none, false⟩ where
  toAcceptInv := h.acceptInv _
  frame       := Frame.refl _ _
  fst         := h.ref_fst

/-- **Withdrawing a todo while it is accepted** leaves nothing of it, unless the receiver takes its reference out of the
In list after the sender has read that list. -/
theorem removeIssue_race_accept (E : Env) {w : World} {u v : UserID} {x y : String} (h : w.HasPair u v .inList x y)
    {tr : List (Event Bool Call Resp)} {P : Pool Bool Call Resp ListResult World}
    (hrun : Pool.Exec (serve E) (listPool (.removeIssue u x) (.acceptIssue v y) w) tr P) (hfin : P.Finished) :
    (∃ ra rb, P.procs true = .ret ra ∧ P.procs false = .ret rb) ∧
      (P.state.AllOrNone u v x y ↔ overtaken (listKey v .inList) false tr = false) := by
  have huv := h.users
  have hxy := h.ne
  let g₀ : WithdrawGhost w u v x y := ⟨⟨w, .idle, none, false⟩, h.withdrawInv⟩
  have hsafe : ∀ i, ((listPool (.removeIssue u x) (.acceptIssue v y) w).procs i).Safe (serve E) (fun g => g.1.world)
      (withdrawSide w u v x y i).rely (withdrawSide w u v x y i).guar (withdrawSidePost w u v x y i) g₀ := by
    rintro (_ | _)
    · refine Proc.Safe.bind (acceptRace w u v x y).refl
        (ListManager.acceptIssue_safe (acceptRace_accepter huv hxy) rfl (fun g res hs _ g' hr => ?_)
          fun g res hs _ g' hr => ?_)
      · show g'.1.stage ≠ .added
        rw [(withdrawSteps huv hr g.2).1.stage]
        rcases hs with hs | hs <;> rw [hs] <;> nofun
      · show g'.1.stage ≠ .added
        rw [(withdrawSteps huv hr g.2).1.stage, hs]
        nofun
    · exact Proc.Safe.bind (withdrawRace w u v x y).refl (Proc.Safe.mono
        (fun res g hp g' hr => withdrawPost_after huv hp hr)
        (removeIssue_withdrawSafe huv (List.mem_map.2 ⟨_, h.fst, rfl⟩) rfl rfl))
  obtain ⟨g, hstate, hpath, hpost⟩ := hrun.finished (fun i => (withdrawSide w u v x y i).trans)
    (fun i => (withdrawSide w u v x y i).refl) withdrawSide_compat hfin
    (g := g₀) rfl hsafe
  obtain ⟨ra, hra, hsent, hy, hm⟩ := hpost true
  obtain ⟨rb, hrb, hst⟩ := hpost false
  refine ⟨⟨ra, rb, hra, hrb⟩, ?_⟩
  have hlate := taken_late_iff huv hpath false nofun nofun
  rw [hstate, allOrNone_iff h.paired.recorded hsent hy hm hst, hlate, not_or, Bool.not_eq_true]
  exact ⟨And.right, fun ho => ⟨fun hc => (nomatch hc.1), ho⟩⟩

end race

section sample

/-- Ann withdraws the todo she sent while Bob accepts it, each turn by the member it names. -/
def withdrawnFromBob (turns : List Bool) : List (Event Bool Call Resp) × Pool Bool Call Resp ListResult World :=
  Pool.play (serve Env.sample) (listPool (.removeIssue ann "x") (.acceptIssue bob "xx") sentToBob) turns

/-- Bob accepts before Ann starts. -/
theorem withdrawnFromBob_late : (withdrawnFromBob (List.replicate 8 false ++ List.replicate 20 true)).2.state.AllOrNone
    ann bob "x" "xx" :=
  (removeIssue_race_accept Env.sample sentToBob_hasPair (Pool.play_exec (serve Env.sample) _ _)
    (Pool.finished_of_returned (by decide))).2.2 (by decide)

/-- Bob accepts after Ann has read his In list: he is left with a reference to a record that is gone. -/
theorem removeIssue_race_accept_dangles : ∃ (w : World) (tr : List (Event Bool Call Resp))
    (P : Pool Bool Call Resp ListResult World), w.HasPair ann bob .inList "x" "xx" ∧
      Pool.Exec (serve Env.sample) (listPool (.removeIssue ann "x") (.acceptIssue bob "xx") w) tr P ∧ P.Finished ∧
      ¬ P.state.AllOrNone ann bob "x" "xx" := by
  let turns := List.replicate 9 true ++ List.replicate 8 false ++ List.replicate 5 true
  refine ⟨sentToBob, _, (withdrawnFromBob turns).2, sentToBob_hasPair, Pool.play_exec (serve Env.sample) turns _,
    Pool.finished_of_returned (by decide), fun h => ?_⟩
  have href : ⟨"xx", "x", ann⟩ ∈ (withdrawnFromBob turns).2.state.board.refs bob .myList := by decide
  obtain ⟨i, hi⟩ := h.1 bob .myList _ href
  have hnone : (withdrawnFromBob turns).2.state.board.issue "xx" = none := by decide
  rw [hnone] at hi
  cases hi

end sample
end Todo

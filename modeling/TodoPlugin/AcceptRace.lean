import TodoPlugin.PairRace
/-!
# Accepting a todo in a race

`Accepter` is the contract of the party that accepts a todo while its sender may take it away: the reference goes into
the owned list first and out of the In list then, and back out of the owned list if it was no longer in the In list.
-/
namespace Todo

open Store (ids without)
open Relation (ReflTransGen)

/-- How far an acceptance has come. -/
inductive AcceptStage where
  | idle | added | taken | back
deriving DecidableEq

/-- **The contract of a party that accepts its side `me` of a pair.** -/
structure Accepter {Γ : Type} (R : Race Γ) (me other : Side) (stage : Γ → AcceptStage) : Prop where
  sound : ∀ g, (R.world g).Sound
  noted : ∀ key g, R.noted key g
  stays : ∀ {g g'}, R.rely g g' → stage g' = stage g
  ref   : ∀ {g l r}, r ∈ (R.world g).board.refs me.user l → r.issueID = me.id → r = me.ref other
  new   : ∀ {g}, stage g = .idle → me.id ∉ ids ((R.world g).board.refs me.user .myList)
  kept  : ∀ {g}, stage g = .added → me.id ∉ ids ((R.world g).board.refs me.user .inList) →
    me.id ∈ ids ((R.world g).board.refs me.user .myList)
  gone  : ∀ {g g'}, R.rely g g' → me.id ∉ ids ((R.world g).board.refs me.user .inList) →
    me.id ∉ ids ((R.world g').board.refs me.user .inList)
  calm  : ∀ g l, ∃ fuel, R.Calm (listKey me.user l) fuel g
  add   : ∀ {g}, stage g = .idle → ∃ g', R.world g' = (R.world g).append me.user .myList (me.ref other) ∧
    R.guar (.kvCompareAndSet (listKey me.user .myList) ((R.world g).kv (listKey me.user .myList))
      (.refs ((R.world g).list (listKey me.user .myList) ++ [me.ref other]))) (.ok true) g g' ∧ stage g' = .added
  take  : ∀ {g}, stage g = .added → me.id ∈ ids ((R.world g).board.refs me.user .inList) → ∃ g',
    R.world g' = (R.world g).unlist me.user me.id .inList ∧
    R.guar (.kvCompareAndSet (listKey me.user .inList) ((R.world g).kv (listKey me.user .inList))
      (.refs (without me.id ((R.world g).list (listKey me.user .inList))))) (.ok true) g g' ∧ stage g' = .taken
  back  : ∀ {g}, stage g = .added → me.id ∉ ids ((R.world g).board.refs me.user .inList) → ∃ g',
    R.world g' = (R.world g).unlist me.user me.id .myList ∧
    R.guar (.kvCompareAndSet (listKey me.user .myList) ((R.world g).kv (listKey me.user .myList))
      (.refs (without me.id ((R.world g).list (listKey me.user .myList))))) (.ok true) g g' ∧ stage g' = .back

namespace ListManager

variable {Γ : Type} {R : Race Γ} {E : Env} {me other : Side} {stage : Γ → AcceptStage} {g : Γ}

/-- **`AcceptIssue` by an accepter** fails without a trace, is taken back, or succeeds. -/
theorem acceptIssue_safe (h : Accepter R me other stage) (hg : stage g = .idle) {post : AcceptResult → Γ → Prop}
    (hfail : ∀ g res, stage g = .idle ∨ stage g = .back → res.outErr ≠ none → post res g)
    (hdone : ∀ g res, stage g = .taken → res.outErr = none → post res g) :
    R.Safe E post (acceptIssue me.user me.id) g := by
  have hkeep : ∀ {s} {g g' : Γ}, stage g = s → R.rely g g' → stage g' = s := fun hs hr => (h.stays hr).trans hs
  have hret : ∀ {g res}, stage g = .idle ∨ stage g = .back → res.outErr ≠ none → R.Safe E post (pure res) g :=
    fun hs herr => Race.ret fun g' hr => hfail g' _ (hs.imp (hkeep · hr) (hkeep · hr)) herr
  unfold acceptIssue
  apply Race.getIssue h.sound
  intro g₁ hr₁
  have h₁ := hkeep hg hr₁
  cases (R.world g₁).fetch me.id with
  | error e => exact hret (.inl h₁) nofun
  | ok i =>
    have hclear : R.Clear me.user me.id .inList g₁ := fun g' _ =>
      ⟨h.noted _ g', Dropper.not_legacy fun r hr he => h.ref hr he⟩
    apply Race.getIssueReference h.sound hclear
    intro g₂ res hr₂ hf
    have h₂ := hkeep h₁ hr₂
    match res, hf with
    | .error _, _ => exact hret (.inl h₂) nofun
    | .ok (r, n), ⟨hr, he⟩ =>
      obtain rfl := h.ref hr he
      obtain ⟨fuel, hcalm⟩ := h.calm g₂ .myList
      apply Race.addReference h.sound hcalm (fun g' hr' => h.new (hkeep h₂ hr'))
      intro g₃ hr₃
      obtain ⟨g₄, hw₄, hgu₄, h₄⟩ := h.add (hkeep h₂ hr₃)
      refine ⟨g₄, hw₄, hgu₄, ?_⟩
      obtain ⟨fuel, hcalm⟩ := h.calm g₄ .inList
      refine Race.removeReference h.sound hcalm (fun g₅ hr₅ hno => ?_) fun g₅ hr₅ hin => ?_
      · -- the sender took it away: back out of the owned list
        have h₅ := hkeep h₄ hr₅
        obtain ⟨fuel, hcalm⟩ := h.calm g₅ .myList
        refine Race.removeReference h.sound hcalm (fun g₆ hr₆ hno₆ => ?_) fun g₆ hr₆ hin₆ => ?_
        · exact absurd (h.kept (hkeep h₅ hr₆) (h.gone hr₆ hno)) hno₆
        · obtain ⟨g₇, hw₇, hgu₇, h₇⟩ := h.back (hkeep h₅ hr₆) (h.gone hr₆ hno)
          exact ⟨g₇, hw₇, hgu₇, hret (.inr h₇) nofun⟩
      · obtain ⟨g₆, hw₆, hgu₆, h₆⟩ := h.take (hkeep h₄ hr₅) hin
        exact ⟨g₆, hw₆, hgu₆, Race.ret fun g' hr' => hdone g' _ (hkeep h₆ hr') rfl⟩

/-- **`AcceptIssue` of a todo that is not in the In list** fails without a trace. -/
theorem acceptIssue_missing {Γ : Type} {R : Race Γ} {E : Env} {g : Γ} (hs : ∀ g, (R.world g).Sound) {v : UserID} {y : String}
    (hno : ∀ g', R.rely g g' → y ∉ ids ((R.world g').list (listKey v .inList)))
    (hn : ∀ g', R.rely g g' → R.noted (listKey v .inList) g') {post : AcceptResult → Γ → Prop}
    (hfail : ∀ g' res, R.rely g g' → res.outErr ≠ none → post res g') : R.Safe E post (acceptIssue v y) g := by
  have hret : ∀ {g' res}, R.rely g g' → res.outErr ≠ none → R.Safe E post (pure res) g' := fun hr herr =>
    Race.ret fun g'' hr' => hfail g'' _ (R.trans _ _ _ hr hr') herr
  unfold acceptIssue
  apply Race.getIssue hs
  intro g₁ hr₁
  cases (R.world g₁).fetch y with
  | error e => exact hret hr₁ nofun
  | ok i =>
    have hclear : R.Clear v y .inList g₁ := fun g' hr =>
      ⟨hn g' (R.trans _ _ _ hr₁ hr), fun _ => hno g' (R.trans _ _ _ hr₁ hr)⟩
    apply Race.getIssueReference hs hclear
    intro g₂ res hr₂ hf
    match res, hf with
    | .error _, _ => exact hret (R.trans _ _ _ hr₁ hr₂) nofun
    | .ok (r, n), ⟨hr, he⟩ => exact absurd (List.mem_map.2 ⟨r, hr, he⟩) (hno g₂ (R.trans _ _ _ hr₁ hr₂))

end ListManager

/-! ## The states of an acceptance -/

/-- The store, how far the acceptance has come, the list the sender has taken the receiver's reference from, and what
else is noted of the sender. -/
structure AcceptState (σ : Type) where
  world : World
  stage : AcceptStage
  took  : Option ListID
  note  : σ

section states
variable {σ : Type} {u v : UserID} {x y : String} {g g' g'' : AcceptState σ}

/-- The receiver's list has its reference. -/
def AcceptState.Has (v : UserID) (y : String) (g : AcceptState σ) (l : ListID) : Prop := y ∈ ids (g.world.board.refs v l)

/-- **Where the reference is**, by how far the acceptance has come and what the sender has taken. -/
structure AcceptInv (u v : UserID) (x y : String) (g : AcceptState σ) : Prop where
  sound  : g.world.Sound
  snd    : ∀ {a m r}, r ∈ g.world.board.refs a m → r.issueID = y → a = v ∧ m ≠ .outList ∧ r = ⟨y, x, u⟩
  inn    : g.Has v y .inList ↔ (g.stage = .idle ∨ g.stage = .added) ∧ g.took ≠ some .inList
  my     : g.Has v y .myList ↔ (g.stage = .added ∨ g.stage = .taken) ∧ g.took ≠ some .myList
  tookIn : g.took = some .inList → g.stage ≠ .taken
  tookMy : g.took = some .myList → g.stage = .added ∨ g.stage = .taken
  back   : g.stage = .back → g.took = some .inList

/-- The receiver's steps. -/
inductive AcceptStep (v : UserID) (y : String) (ref : IssueRef) : AcceptState σ → AcceptState σ → Prop
  | add {g : AcceptState σ} (h : g.stage = .idle) :
      AcceptStep v y ref g { g with world := g.world.append v .myList ref, stage := .added }
  | take {g : AcceptState σ} (h : g.stage = .added) (hin : g.Has v y .inList) :
      AcceptStep v y ref g { g with world := g.world.unlist v y .inList, stage := .taken }
  | back {g : AcceptState σ} (h : g.stage = .added) (hout : ¬ g.Has v y .inList) :
      AcceptStep v y ref g { g with world := g.world.unlist v y .myList, stage := .back }

theorem has_append (w : World) (v : UserID) (x y : String) (u : UserID) (l m : ListID) :
    y ∈ ids ((w.append v l ⟨y, x, u⟩).board.refs v m) ↔ y ∈ ids (w.board.refs v m) ∨ m = l := by
  rw [World.board_append, Board.refs_append]
  by_cases hm : m = l
  · subst hm
    simp [ids]
  · simp [hm]

theorem has_unlist (w : World) (v : UserID) (y : String) (l m : ListID) :
    y ∈ ids ((w.unlist v y l).board.refs v m) ↔ y ∈ ids (w.board.refs v m) ∧ m ≠ l := by
  rw [World.board_unlist, Board.refs_unlist]
  by_cases hm : m = l
  · subst hm
    simp [Store.not_mem_ids_without]
  · simp [hm]

namespace AcceptInv

/-- A reference of the pair is not in the legacy encoding. -/
theorem not_legacy (h : AcceptInv u v x y g) (l : ListID) :
    g.world.IsLegacy (listKey v l) → y ∉ ids (g.world.list (listKey v l)) :=
  Dropper.not_legacy (s := ⟨v, .inList, y⟩) (t := ⟨u, .outList, x⟩) fun _ hr he => (h.snd hr he).2.2

theorem snd_unlist (h : AcceptInv u v x y g) (b : UserID) (id : String) (l : ListID) {a : UserID} {m : ListID}
    {r : IssueRef} (hr : r ∈ (g.world.unlist b id l).board.refs a m) (he : r.issueID = y) :
    a = v ∧ m ≠ .outList ∧ r = ⟨y, x, u⟩ := by
  rw [World.board_unlist] at hr
  exact h.snd (Board.mem_refs_unlist.1 hr).1 he

/-- The sender's changes of other references. -/
theorem other (h : AcceptInv u v x y g) {w : World} (hw : w.Sound) (s : σ)
    (hsub : ∀ {a m r}, r ∈ w.board.refs a m → r.issueID = y → r ∈ g.world.board.refs a m)
    (hhas : ∀ l, y ∈ ids (w.board.refs v l) ↔ g.Has v y l) : AcceptInv u v x y { g with world := w, note := s } :=
  { h with
    sound := hw
    snd   := fun hr he => h.snd (hsub hr he) he
    inn   := (hhas .inList).trans h.inn
    my    := (hhas .myList).trans h.my }

/-- The sender takes the reference out. -/
theorem taken (h : AcceptInv u v x y g) {l : ListID} (hin : g.Has v y l) (ht : g.took = none) (s : σ) :
    AcceptInv u v x y { g with world := g.world.unlist v y l, took := some l, note := s } := by
  have hno : ∀ m, g.took ≠ some m := fun m => by rw [ht]; nofun
  refine { sound := h.sound.unlist _ _ _, snd := fun hr he => h.snd_unlist v y l hr he, inn := ?_, my := ?_,
           tookIn := ?_, tookMy := ?_, back := fun hs => absurd (h.back hs) (hno _) }
  · refine (has_unlist ..).trans ⟨fun hm => ⟨(h.inn.1 hm.1).1, fun he => hm.2 (Option.some.inj he).symm⟩,
      fun hm => ⟨h.inn.2 ⟨hm.1, hno _⟩, fun he => hm.2 (congrArg some he.symm)⟩⟩
  · refine (has_unlist ..).trans ⟨fun hm => ⟨(h.my.1 hm.1).1, fun he => hm.2 (Option.some.inj he).symm⟩,
      fun hm => ⟨h.my.2 ⟨hm.1, hno _⟩, fun he => hm.2 (congrArg some he.symm)⟩⟩
  · rintro he hs
    obtain rfl := Option.some.inj he
    have := (h.inn.1 hin).1
    rw [show g.stage = .taken from hs] at this
    simp at this
  · rintro he
    obtain rfl := Option.some.inj he
    exact (h.my.1 hin).1

theorem new (h : AcceptInv u v x y g) (hs : g.stage = .idle) : ¬ g.Has v y .myList := fun hm => by
  have := (h.my.1 hm).1
  simp [hs] at this

/-- The sender took it out of the In list: the copy in the owned list is there to be taken back. -/
theorem kept (h : AcceptInv u v x y g) (hs : g.stage = .added) (hout : ¬ g.Has v y .inList) :
    g.took = some .inList ∧ g.Has v y .myList := by
  have htook : g.took = some .inList := Classical.byContradiction fun ht => hout (h.inn.2 ⟨.inr hs, ht⟩)
  exact ⟨htook, h.my.2 ⟨.inl hs, by rw [htook]; nofun⟩⟩

theorem step (h : AcceptInv u v x y g) (hstep : AcceptStep v y ⟨y, x, u⟩ g g') : AcceptInv u v x y g' := by
  cases hstep with
  | add hs =>
    have hnew := h.new hs
    have hno : g.took ≠ some .myList := fun ht => by
      have := h.tookMy ht
      simp [hs] at this
    refine { sound := h.sound.append hnew, snd := ?_, inn := ?_, my := ?_, tookIn := nofun, tookMy := fun _ => .inl rfl,
             back := nofun }
    · intro a m r hr he
      rw [World.board_append] at hr
      rcases Board.mem_refs_append.1 hr with hr | ⟨rfl, rfl, rfl⟩
      · exact h.snd hr he
      · exact ⟨rfl, nofun, rfl⟩
    · refine (has_append ..).trans ⟨fun hin => ?_, fun hin => .inl (h.inn.2 ⟨.inl hs, hin.2⟩)⟩
      exact ⟨.inr rfl, (h.inn.1 (hin.resolve_right nofun)).2⟩
    · exact (has_append ..).trans ⟨fun _ => ⟨.inl rfl, hno⟩, fun _ => .inr rfl⟩
  | take hs hin =>
    refine { sound := h.sound.unlist _ _ _, snd := fun hr he => h.snd_unlist v y .inList hr he, inn := ?_, my := ?_,
             tookIn := fun ht _ => (h.inn.1 hin).2 ht, tookMy := fun _ => .inr rfl, back := nofun }
    · exact (has_unlist ..).trans ⟨fun hm => absurd rfl hm.2, fun hm => by simp at hm⟩
    · exact (has_unlist ..).trans ⟨fun hm => ⟨.inr rfl, (h.my.1 hm.1).2⟩, fun hm => ⟨h.my.2 ⟨.inl hs, hm.2⟩, nofun⟩⟩
  | back hs hout =>
    have htook := (h.kept hs hout).1
    refine { sound := h.sound.unlist _ _ _, snd := fun hr he => h.snd_unlist v y .myList hr he, inn := ?_, my := ?_,
             tookIn := nofun, tookMy := ?_, back := fun _ => htook }
    · exact (has_unlist ..).trans ⟨fun hm => absurd hm.1 hout, fun hm => by simp at hm⟩
    · exact (has_unlist ..).trans ⟨fun hm => absurd rfl hm.2, fun hm => by simp at hm⟩
    · rw [htook]
      nofun

/-- An acceptance that is not started and not taken back has the reference in one list. -/
theorem moved (h : AcceptInv u v x y g) (ht : g.took = none) (hs : g.stage ≠ .idle) : g.Has v y .myList := by
  have hback := h.back
  refine h.my.2 ⟨?_, by rw [ht]; nofun⟩
  cases hst : g.stage <;> simp_all

theorem stage_of_gone (h : AcceptInv u v x y g) (ht : g.took = none) (hout : ¬ g.Has v y .inList) :
    g.stage = .taken := by
  have hno : ¬ (g.stage = .idle ∨ g.stage = .added) := fun hst => hout (h.inn.2 ⟨hst, by rw [ht]; nofun⟩)
  have hback := h.back
  cases hst : g.stage <;> simp_all

end AcceptInv

/-- Where an acceptance starts. -/
theorem World.HasPair.acceptInv {w : World} (h : w.HasPair u v .inList x y) (s : σ) :
    AcceptInv u v x y ⟨w, .idle, none, s⟩ where
  sound  := h.sound
  snd hr he := by
    obtain ⟨rfl, rfl, rfl⟩ := h.ref_snd hr he
    exact ⟨rfl, nofun, rfl⟩
  inn    := ⟨fun _ => ⟨.inl rfl, nofun⟩, fun _ => List.mem_map.2 ⟨_, h.snd, rfl⟩⟩
  my     := by
    refine ⟨fun hin => ?_, fun hc => hc.1.elim nofun nofun⟩
    obtain ⟨r, hr, he⟩ := List.mem_map.1 hin
    cases (h.ref_snd hr he).2.1
  tookIn := nofun
  tookMy := nofun
  back   := nofun

/-! ## What the receiver leaves -/

theorem AcceptStep.frame (h : AcceptStep v y ⟨y, x, u⟩ g g') : Frame [y] g.world.board g'.world.board := by
  cases h with
  | add _ =>
    rw [World.board_append]
    exact (Frame.refl _ _).setList _ (outside_append (by simp) _)
  | take _ _ =>
    rw [World.board_unlist]
    exact (Frame.refl _ _).setList _ (outside_without (by simp) _)
  | back _ _ =>
    rw [World.board_unlist]
    exact (Frame.refl _ _).setList _ (outside_without (by simp) _)

/-- What the receiver's steps leave. -/
structure Accepts (v : UserID) (y : String) (g g' : AcceptState σ) : Prop where
  took  : g'.took = g.took
  note  : g'.note = g.note
  frame : Frame [y] g.world.board g'.world.board
  kv    : ∀ key, (∀ l, l ≠ .outList → key ≠ listKey v l) → g'.world.kv key = g.world.kv key
  drawn : g'.world.drawn = g.world.drawn
  gone  : ¬ g.Has v y .inList → ¬ g'.Has v y .inList
  moved : g.stage ≠ .idle → g'.stage ≠ .idle
  taken : g.stage = .taken → g' = g

theorem AcceptStep.accepts (h : AcceptStep v y ⟨y, x, u⟩ g g') : Accepts v y g g' := by
  have hframe := h.frame
  cases h with
  | add hs =>
    refine ⟨rfl, rfl, hframe, fun key hk => World.put_kv_of_ne _ _ (hk _ nofun), rfl, fun hout hin => ?_, fun _ => nofun,
      fun ht => ?_⟩
    · exact ((has_append ..).1 hin).elim hout nofun
    · rw [hs] at ht
      cases ht
  | take hs hin =>
    refine ⟨rfl, rfl, hframe, fun key hk => World.kv_unlist_of_ne _ (hk _ nofun), World.unlist_drawn .., fun hout =>
      absurd hin hout, fun _ => nofun, fun ht => ?_⟩
    rw [hs] at ht
    cases ht
  | back hs hout =>
    refine ⟨rfl, rfl, hframe, fun key hk => World.kv_unlist_of_ne _ (hk _ nofun), World.unlist_drawn .., fun _ hin =>
      hout ((has_unlist ..).1 hin).1, fun _ => nofun, fun ht => ?_⟩
    rw [hs] at ht
    cases ht

theorem Accepts.trans (h : Accepts v y g g') (h' : Accepts v y g' g'') : Accepts v y g g'' where
  took        := h'.took.trans h.took
  note        := h'.note.trans h.note
  frame       := h.frame.trans h'.frame
  kv key hk   := (h'.kv key hk).trans (h.kv key hk)
  drawn       := h'.drawn.trans h.drawn
  gone hout   := h'.gone (h.gone hout)
  moved hs    := h'.moved (h.moved hs)
  taken ht    := by
    obtain rfl := h.taken ht
    exact h'.taken ht

theorem acceptSteps (h : ReflTransGen (AcceptStep v y ⟨y, x, u⟩) g g') : Accepts v y g g' := by
  induction h with
  | refl => exact ⟨rfl, rfl, Frame.refl _ _, fun _ _ => rfl, rfl, id, id, fun _ => rfl⟩
  | tail _ hstep ih => exact ih.trans hstep.accepts

theorem Accepts.refs (h : Accepts v y g g') {a : UserID} (ha : a ≠ v) (l : ListID) :
    g'.world.board.refs a l = g.world.board.refs a l := by
  have := h.kv (listKey a l) fun m _ he => ha (listKey_inj.1 he).1
  rw [Board.refs, World.board_list, World.list, this]
  rfl

theorem Accepts.issue (h : Accepts v y g g') (id : String) : g'.world.issue id = g.world.issue id := by
  have := h.kv (issueKey id) fun m _ => (listKey_ne_issueKey _ _ _).symm
  rw [World.issue, this]
  rfl

/-- The receiver changes a list while its reference is there, the owned list also when it starts. -/
theorem AcceptStep.ebbs (h : AcceptStep v y ⟨y, x, u⟩ g g') (hi : AcceptInv u v x y g) {key : String}
    (hk : key = listKey v .myList → g.stage ≠ .idle) :
    World.Ebbs key g.world g'.world (g.world.tally key y) (g'.world.tally key y) := by
  cases h with
  | add hs =>
    have hne : key ≠ listKey v .myList := fun he => hk he hs
    refine .of_kv (World.put_kv_of_ne _ _ hne) (Nat.le_of_eq ?_)
    rw [World.tally, World.tally, ← World.board_list, World.board_append, Board.append_list, if_neg hne]
    rfl
  | take hs hin => exact World.ebbs_unlist _ (hi.not_legacy _) _
  | back hs hout => exact World.ebbs_unlist _ (hi.not_legacy _) _

theorem acceptSteps_inv (h : ReflTransGen (AcceptStep v y ⟨y, x, u⟩) g g') (hi : AcceptInv u v x y g) :
    AcceptInv u v x y g' := by
  induction h with
  | refl => exact hi
  | tail _ hstep ih => exact ih.step hstep

theorem acceptSteps_ebbs (h : ReflTransGen (AcceptStep v y ⟨y, x, u⟩) g g') (hi : AcceptInv u v x y g) {key : String}
    (hk : key = listKey v .myList → g.stage ≠ .idle) :
    World.Ebbs key g.world g'.world (g.world.tally key y) (g'.world.tally key y) := by
  induction h with
  | refl => exact .refl ..
  | tail hsteps hstep ih =>
    exact ih.trans (hstep.ebbs (acceptSteps_inv hsteps hi) fun he => (acceptSteps hsteps).moved (hk he))

end states
end Todo

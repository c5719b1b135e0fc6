import TodoPlugin.TrafficOps
/-!
# What any traffic leaves

`Traffic` is any number of requests and commands started together on an empty store, with `Ending` for each of their
calls: what is proved here holds in whatever order they run, whatever fails and wherever one of them stops for good.

The lists of a sender and a receiver may then disagree about whether a todo is there.  They never disagree about whose it
is: an id is one user's, and links lead to what they were made for.
-/
namespace Todo

open Store (ids)

/-- **References to one id are one user's, and links lead to what they were made for.** -/
structure World.Linked (w : World) : Prop where
  owner    : ∀ {u v : UserID} {l m : ListID} {r s : IssueRef}, r ∈ w.list (listKey u l) → s ∈ w.list (listKey v m) →
    r.issueID = s.issueID → u = v
  apart    : ∀ {u v : UserID} {r s : IssueRef}, r ∈ w.list (listKey u .inList) → s ∈ w.list (listKey v .outList) →
    r.issueID ≠ s.issueID
  sent     : ∀ {u : UserID} {r : IssueRef}, r ∈ w.list (listKey u .outList) → ∃ v : UserID, r.foreignUserID = v ∧
    ∀ {a : UserID} {m : ListID} {s : IssueRef}, s ∈ w.list (listKey a m) → s.issueID = r.foreignIssueID →
      a = v ∧ m ≠ .outList ∧ s.foreignUserID = u ∧ s.foreignIssueID = r.issueID
  received : ∀ {v : UserID} {m : ListID} {r : IssueRef}, r ∈ w.list (listKey v m) → m ≠ .outList → r.foreignUserID ≠ "" →
    ∃ u : UserID, r.foreignUserID = u ∧ ∀ {a : UserID} {l : ListID} {s : IssueRef}, s ∈ w.list (listKey a l) →
      s.issueID = r.foreignIssueID → a = u ∧ l ≠ .inList ∧ (l = .myList → s.foreignUserID = "")
  copied   : ∀ {v : UserID} {m : ListID} {r : IssueRef} {i j : Issue}, r ∈ w.list (listKey v m) → r.foreignUserID ≠ "" →
    w.issue r.issueID = some i → w.issue r.foreignIssueID = some j →
      i.postPermalink = j.postPermalink ∧ i.postID = j.postID

namespace Book

variable {ι : Type} {E : Env} {g : Book ι}

theorem Kept.linked (h : g.Kept E) : g.world.Linked where
  owner hr hs he := by
    obtain ⟨c, hc, rfl⟩ := (h.listed _ _ _ hr).owner
    obtain ⟨d, hd, rfl⟩ := (h.listed _ _ _ hs).owner
    rw [he, hd] at hc
    cases hc
    rfl
  apart hr hs he := by
    obtain ⟨c, v, hc, -, hsome, -⟩ := h.listed _ _ _ hr
    obtain ⟨⟨d, hd, -, hnone⟩, -⟩ := h.listed _ _ _ hs
    rw [he, hd] at hc
    cases hc
    rw [hnone] at hsome
    cases hsome
  sent {u r} hr := by
    obtain ⟨-, c, v, hc, hv, hsrc, hfu⟩ := h.listed _ _ _ hr
    refine ⟨v, hfu, fun {a m s} hs he => ?_⟩
    -- what lists the copy is a copy's
    have hcopy : g.cards.Copy a s → a = v ∧ s.foreignUserID = u ∧ s.foreignIssueID = r.issueID := by
      rintro ⟨d, x, hd, ha, hx, hfs⟩
      rw [he, hc] at hd
      cases hd
      obtain ⟨hid, rfl⟩ := Prod.mk.injEq .. ▸ Option.some.inj (hsrc.symm.trans hx)
      exact ⟨ha.symm.trans hv, hfs, hid.symm⟩
    have hnot : ¬ ∃ d, g.cards s.issueID = some d ∧ d.owner = a ∧ d.source = none := by
      rintro ⟨d, hd, -, hnone⟩
      rw [he, hc] at hd
      cases hd
      rw [hsrc] at hnone
      cases hnone
    cases m with
    | inList =>
      obtain ⟨h1, h2⟩ := hcopy (h.listed a .inList s hs)
      exact ⟨h1, nofun, h2⟩
    | outList => exact absurd (h.listed a .outList s hs).card hnot
    | myList =>
      rcases h.listed a .myList s hs with hown | hcp
      · exact absurd hown.card hnot
      · obtain ⟨h1, h2⟩ := hcopy hcp
        exact ⟨h1, nofun, h2⟩
  received {v m r} hr hm hne := by
    have hcopy : g.cards.Copy v r := by
      cases m with
      | inList => exact h.listed v .inList r hr
      | outList => exact absurd rfl hm
      | myList =>
        rcases h.listed v .myList r hr with hown | hcp
        · exact absurd hown.noSide.1 hne
        · exact hcp
    obtain ⟨c, u, hc, -, hsrc, hfu⟩ := hcopy
    obtain ⟨d, hd, hdu, hnone, -⟩ := h.source _ _ _ _ hc hsrc
    refine ⟨u, hfu, fun {a l s} hs he => ?_⟩
    have hnot : ¬ g.cards.Copy a s := by
      rintro ⟨e, x, he', -, hx, -⟩
      rw [he, hd] at he'
      cases he'
      rw [hnone] at hx
      cases hx
    have ha : a = u := by
      obtain ⟨e, he', hae⟩ := (h.listed a l s hs).owner
      rw [he, hd] at he'
      cases he'
      exact hae.symm.trans hdu
    cases l with
    | inList => exact absurd (h.listed a .inList s hs) hnot
    | outList => exact ⟨ha, nofun, nofun⟩
    | myList =>
      rcases h.listed a .myList s hs with hown | hcp
      · exact ⟨ha, nofun, fun _ => hown.noSide.1⟩
      · exact absurd hcp hnot
  copied {v m r i j} hr hne hi hj := by
    obtain ⟨c, hc, hfi⟩ := h.record _ _ hi
    obtain ⟨d, hd, hfj⟩ := h.record _ _ hj
    have hsame : c.postPermalink = d.postPermalink ∧ c.postID = d.postID := by
      have hsource : ∀ {x y : String} {e f : Card} {u : UserID}, g.cards x = some e → g.cards y = some f →
          e.source = some (y, u) → f.postPermalink = e.postPermalink ∧ f.postID = e.postID := by
        intro x y e f u hx hy hs
        obtain ⟨f', hf', -, -, hrest⟩ := h.source x e y u hx hs
        rw [hy] at hf'
        cases hf'
        exact hrest
      have hcp : g.cards.Copy v r → c.postPermalink = d.postPermalink ∧ c.postID = d.postID := by
        rintro ⟨c', u, hc', -, hs, -⟩
        rw [hc] at hc'
        cases hc'
        obtain ⟨h1, h2⟩ := hsource hc hd hs
        exact ⟨h1.symm, h2.symm⟩
      cases m with
      | inList => exact hcp (h.listed v .inList r hr)
      | myList =>
        rcases h.listed v .myList r hr with hown | hc'
        · exact absurd hown.noSide.1 hne
        · exact hcp hc'
      | outList =>
        obtain ⟨-, d', u, hd', -, hs, -⟩ := h.listed v .outList r hr
        rw [hd] at hd'
        cases hd'
        exact hsource hd hc hs
    exact ⟨hfi.postPermalink.trans (hsame.1.trans hfj.postPermalink.symm), hfi.postID.trans (hsame.2.trans hfj.postID.symm)⟩

end Book

/-! ## Any traffic -/

/-- Requests and commands started together on an empty store. -/
def Input.pool {ι : Type} (inputs : ι → Input) : Pool ι Call Resp Reply World := ⟨fun i => (inputs i).exec, World.empty⟩

section traffic
variable {ι : Type} {E : Env}

/-- A path of what the members may do is what any of them may come upon. -/
theorem Book.Later.of_moves {g g' : BookState E ι}
    (h : Relation.ReflTransGen (Pool.Moves fun i (g g' : BookState E ι) => Book.Guar i g.1 g'.1) g g') :
    Book.Later g.1 g'.1 := by
  induction h with
  | refl => exact .refl _
  | tail _ hstep ih =>
    obtain ⟨i, hi⟩ := hstep
    exact ih.trans hi.toLater

/-- The members of the pool keep the cards, from the ghost state on. -/
def Book.Carried (g : BookState E ι) (P : Pool ι Call Resp Reply World) : Prop :=
  P.state = g.1.world ∧ ∀ i, Keeps E i (P.procs i) g

theorem Book.carried_pool (inputs : ι → Input) :
    Book.Carried (⟨Book.empty, Book.kept_empty E⟩ : BookState E ι) (Input.pool inputs) :=
  ⟨rfl, fun i => Keeps.input (inputs i)⟩

variable [DecidableEq ι]

/-- **Whatever happens, the members go on keeping the cards.** -/
theorem Book.Carried.turns {g : BookState E ι} {P P' : Pool ι Call Resp Reply World} {tr : List (Event ι Call Resp)}
    (hg : Book.Carried g P) (h : Pool.Turns (Ending E) P tr P') :
    ∃ g' : BookState E ι, Book.Carried g' P' ∧ Book.Later g.1 g'.1 := by
  have htrans : ∀ (i : ι) (a b c : BookState E ι), Book.Rely i a.1 b.1 → Book.Rely i b.1 c.1 → Book.Rely i a.1 c.1 :=
    fun _ _ _ _ => .trans
  have hothers : ∀ (i j : ι) (g g' : BookState E ι), i ≠ j → Book.Guar i g.1 g'.1 → Book.Rely j g.1 g'.1 :=
    fun _ j _ _ hne hi => hi.others j (Ne.symm hne)
  obtain ⟨g', hs, hpath, hkeeps⟩ := h.steady (fun _ _ => .refl _ _) htrans hothers hg.1 hg.2
  exact ⟨g', ⟨hs, hkeeps⟩, .of_moves hpath⟩

variable {inputs : ι → Input} {P P₁ P₂ P₃ : Pool ι Call Resp Reply World} {tr tr₁ tr₂ tr₃ : List (Event ι Call Resp)}

/-- The store is always sound. -/
theorem sound_of_turns (h : Pool.Turns (Ending E) (Input.pool inputs) tr P) : P.state.Sound := by
  obtain ⟨g, ⟨hs, -⟩, -⟩ := (Book.carried_pool inputs).turns h
  rw [hs]
  exact g.2.sound

/-- What is listed is an id. -/
theorem ids_ne_empty_of_turns (h : Pool.Turns (Ending E) (Input.pool inputs) tr P) (u : UserID) (l : ListID) :
    "" ∉ Store.ids (P.state.list (listKey u l)) := by
  obtain ⟨g, ⟨hs, -⟩, -⟩ := (Book.carried_pool inputs).turns h
  rw [hs]
  intro hm
  obtain ⟨r, hr, hid⟩ := List.mem_map.1 hm
  obtain ⟨c, hc, -⟩ := (g.2.listed u l r hr).owner
  exact g.2.ne_empty hc hid

/-- Links never cross. -/
theorem linked_of_turns (h : Pool.Turns (Ending E) (Input.pool inputs) tr P) : P.state.Linked := by
  obtain ⟨g, ⟨hs, -⟩, -⟩ := (Book.carried_pool inputs).turns h
  rw [hs]
  exact g.2.linked

/-- **Whatever happens, the store is sound and its links do not cross**: every list decodes, to distinct ids, every record
is under its own id, an id is one user's, and a link leads nowhere or to what it was made for. -/
theorem traffic_linked (h : Pool.Turns (Ending E) (Input.pool inputs) tr P) : P.state.Sound ∧ P.state.Linked :=
  ⟨sound_of_turns h, linked_of_turns h⟩

/-- **A record keeps its permalink, its time and its post**, however often it is read, edited, deleted or written again. -/
theorem traffic_record (h₁ : Pool.Turns (Ending E) (Input.pool inputs) tr₁ P₁) (h₂ : Pool.Turns (Ending E) P₁ tr₂ P₂)
    {id : String} {i j : Issue} (hi : P₁.state.issue id = some i) (hj : P₂.state.issue id = some j) :
    i.postPermalink = j.postPermalink ∧ i.createAt = j.createAt ∧ i.postID = j.postID := by
  obtain ⟨g₁, hg₁, -⟩ := (Book.carried_pool inputs).turns h₁
  obtain ⟨g₂, hg₂, hlater⟩ := hg₁.turns h₂
  obtain ⟨c, hc, hfi⟩ := g₁.2.record id i (by rw [← hg₁.1, hi])
  obtain ⟨d, hd, hfj⟩ := g₂.2.record id j (by rw [← hg₂.1, hj])
  rw [hlater.grow id c hc] at hd
  cases hd
  exact ⟨hfi.postPermalink.trans hfj.postPermalink.symm, hfi.createAt.trans hfj.createAt.symm, hfi.postID.trans hfj.postID.symm⟩

/-- **An In list gets a todo at most once**: once it is not there, after it was in one, it never is again. -/
theorem traffic_inOnce (h₁ : Pool.Turns (Ending E) (Input.pool inputs) tr₁ P₁) (h₂ : Pool.Turns (Ending E) P₁ tr₂ P₂)
    (h₃ : Pool.Turns (Ending E) P₂ tr₃ P₃) {u v : UserID} {id : String}
    (hin : id ∈ ids (P₁.state.list (listKey u .inList))) (hgone : id ∉ ids (P₂.state.list (listKey v .inList))) :
    id ∉ ids (P₃.state.list (listKey v .inList)) := by
  obtain ⟨g₁, hg₁, -⟩ := (Book.carried_pool inputs).turns h₁
  obtain ⟨g₂, hg₂, hlater₂⟩ := hg₁.turns h₂
  obtain ⟨g₃, hg₃, hlater₃⟩ := hg₂.turns h₃
  rw [hg₁.1] at hin
  obtain ⟨r, hr, rfl⟩ := List.mem_map.1 hin
  obtain ⟨c, hc, -⟩ := (g₁.2.listed u .inList r hr).owner
  have hcard : g₁.1.cards r.issueID ≠ none := by simp [hc]
  have hcard₂ : g₂.1.cards r.issueID ≠ none := by simp [hlater₂.grow _ _ hc]
  have hspent := hlater₂.spent _ hcard (g₁.2.spent u _ hin)
  intro hback
  rw [hg₃.1] at hback
  rw [hg₂.1] at hgone
  exact hgone (hlater₃.arrives v _ hcard₂ hspent hback)

end traffic

section sample

/-- Ann sends Bob a todo, and something else comes in. -/
def sendAnd (e : Input) : Bool → Input
  | false => sendMilk
  | true  => e

/-- A store that no longer sets a list of Ann's: what is compared and set there fails. -/
def serveFailing : (c : Call) → World → Resp c × World
  | .kvCompareAndSet key old new, w =>
    if key = listKey ann .outList then (.error "timeout", w) else serve Env.sample (.kvCompareAndSet key old new) w
  | c, w => serve Env.sample c w

theorem serveFailing_ending (c : Call) (w : World) : Ending Env.sample c w (serveFailing c w).1 (serveFailing c w).2 := by
  cases c with
  | kvCompareAndSet key old new =>
    by_cases hk : key = listKey ann .outList
    · simp only [serveFailing, if_pos hk]
      exact @Ending.failed _ _ "timeout" _ w rfl
    · simp only [serveFailing, if_neg hk]
      exact .served _ w
  | kvGet | kvSet | kvDelete | newId | getMillis | formatTime | getUserByUsername | getUser | getDirectChannel | getPost
  | createPost | sendEphemeralPost | publishRefresh => exact .served _ w

/-- Bob looks for the todo while Ann is sending it, which fails after both records are saved. -/
def sentFailing : List (Event Bool Call Resp) × Pool Bool Call Resp Reply World :=
  Pool.play serveFailing (Input.pool (sendAnd acceptMilk))
    (List.replicate 9 false ++ [true] ++ List.replicate 3 false ++ [true])

theorem sentFailing_linked : sentFailing.2.state.Sound ∧ sentFailing.2.state.Linked :=
  traffic_linked ((Pool.play_exec serveFailing _ _).turns serveFailing_ending)

/-- The todo sent, and then `n` calls of what else comes in. -/
def sentMilk (e : Input) : List (Event Bool Call Resp) × Pool Bool Call Resp Reply World :=
  Pool.play (serve Env.sample) (Input.pool (sendAnd e)) (List.replicate 17 false)
def afterSending (e : Input) (n : Nat) : List (Event Bool Call Resp) × Pool Bool Call Resp Reply World :=
  Pool.play (serve Env.sample) (sentMilk e).2 (List.replicate n true)

theorem sentMilk_turns (e : Input) :
    Pool.Turns (Ending Env.sample) (Input.pool (sendAnd e)) (sentMilk e).1 (sentMilk e).2 :=
  (Pool.play_exec (serve Env.sample) _ _).turns Ending.served

theorem afterSending_turns (e : Input) (n : Nat) :
    Pool.Turns (Ending Env.sample) (sentMilk e).2 (afterSending e n).1 (afterSending e n).2 :=
  (Pool.play_exec (serve Env.sample) _ _).turns Ending.served

/-- Ann edits the todo she sent. -/
def editMilk : Input := .http (some ann) (.edit (.ok (some ⟨"x", "tea", "hot"⟩)))

theorem editMilk_record : ∃ i j, (sentMilk editMilk).2.state.issue "xx" = some i ∧
    (afterSending editMilk 9).2.state.issue "xx" = some j ∧ i.message = "milk" ∧ j.message = "tea" ∧
    i.postPermalink = j.postPermalink ∧ i.createAt = j.createAt ∧ i.postID = j.postID :=
  have hi : (sentMilk editMilk).2.state.issue "xx" = some ⟨"xx", "milk", "", "", 1, ""⟩ := by decide
  have hj : (afterSending editMilk 9).2.state.issue "xx" = some ⟨"xx", "tea", "", "hot", 1, ""⟩ := by decide
  ⟨_, _, hi, hj, rfl, rfl, traffic_record (sentMilk_turns editMilk) (afterSending_turns editMilk 9) hi hj⟩

theorem acceptMilk_inOnce : "xx" ∈ ids ((sentMilk acceptMilk).2.state.list (listKey bob .inList)) ∧
    "xx" ∉ ids ((afterSending acceptMilk 6).2.state.list (listKey bob .inList)) :=
  ⟨by decide, traffic_inOnce (sentMilk_turns acceptMilk) (afterSending_turns acceptMilk 6) (.done _)
    (u := bob) (by decide) (by decide)⟩

end sample
end Todo

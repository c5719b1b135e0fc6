import TodoPlugin.InputRuns
/-!
# What an id was made for

An id is made for one user, for a todo of their own or as the copy of one for its receiver, and its record is made with
it.  `Card` is what is known of an id from then on: no edit, move or failure changes it.  A `Book` is a store with the
cards of the ids in it, and with who may still list an id for the first time; `Book.Kept` says that the store is what the
cards say, and one lemma for each write says that it stays so.
-/
namespace Todo

open Store (ids without)

/-- What an id was made for: its user, for a copy the todo it is a copy of and that todo's user, and the parts of its
record that are never edited. -/
structure Card where
  owner         : UserID
  source        : Option (String × UserID)
  postPermalink : String
  createAt      : Int
  postID        : String

/-- The record has the parts the card says. -/
structure Card.Fits (c : Card) (i : Issue) : Prop where
  postPermalink : i.postPermalink = c.postPermalink
  createAt      : i.createAt = c.createAt
  postID        : i.postID = c.postID

abbrev Cards := String → Option Card

namespace Cards

/-- Every id that has a card keeps it. -/
def Grow (cards cards' : Cards) : Prop := ∀ id c, cards id = some c → cards' id = some c

/-- A todo of `u`, with no other side. -/
structure Own (cards : Cards) (u : UserID) (r : IssueRef) : Prop where
  card   : ∃ c, cards r.issueID = some c ∧ c.owner = u ∧ c.source = none
  noSide : r.foreignUserID = "" ∧ r.foreignIssueID = ""

/-- A copy of `u`'s, which refers to what it is a copy of. -/
def Copy (cards : Cards) (u : UserID) (r : IssueRef) : Prop :=
  ∃ c v, cards r.issueID = some c ∧ c.owner = u ∧ c.source = some (r.foreignIssueID, v) ∧ r.foreignUserID = UserID.val v

/-- A todo of `u` that refers to a copy of it, of the user it names. -/
structure Sent (cards : Cards) (u : UserID) (r : IssueRef) : Prop where
  card : ∃ c, cards r.issueID = some c ∧ c.owner = u ∧ c.source = none
  copy : ∃ c v, cards r.foreignIssueID = some c ∧ c.owner = v ∧ c.source = some (r.issueID, u) ∧
    r.foreignUserID = UserID.val v

/-- What a list may hold. -/
def Lists (cards : Cards) (u : UserID) : ListID → IssueRef → Prop
  | .inList, r  => cards.Copy u r
  | .outList, r => cards.Sent u r
  | .myList, r  => cards.Own u r ∨ cards.Copy u r

section grow
variable {cards cards' cards'' : Cards} {u : UserID} {r : IssueRef}

theorem Grow.refl (cards : Cards) : Grow cards cards := fun _ _ h => h

theorem Grow.trans (h : Grow cards cards') (h' : Grow cards' cards'') : Grow cards cards'' :=
  fun id c hc => h' id c (h id c hc)

theorem Own.grow (h : cards.Own u r) (hg : Grow cards cards') : cards'.Own u r := by
  obtain ⟨⟨c, hc, hu, hs⟩, hno⟩ := h
  exact ⟨⟨c, hg _ c hc, hu, hs⟩, hno⟩

theorem Copy.grow (h : cards.Copy u r) (hg : Grow cards cards') : cards'.Copy u r := by
  obtain ⟨c, v, hc, hrest⟩ := h
  exact ⟨c, v, hg _ c hc, hrest⟩

theorem Sent.grow (h : cards.Sent u r) (hg : Grow cards cards') : cards'.Sent u r := by
  obtain ⟨⟨c, hc, hu, hs⟩, d, v, hd, hrest⟩ := h
  exact ⟨⟨c, hg _ c hc, hu, hs⟩, d, v, hg _ d hd, hrest⟩

theorem Lists.grow {l : ListID} (h : cards.Lists u l r) (hg : Grow cards cards') : cards'.Lists u l r := by
  cases l with
  | myList => exact h.imp (fun h => h.grow hg) fun h => h.grow hg
  | inList => exact Copy.grow h hg
  | outList => exact Sent.grow h hg

/-- **What a user lists is theirs.** -/
theorem Lists.owner {l : ListID} (h : cards.Lists u l r) : ∃ c, cards r.issueID = some c ∧ c.owner = u := by
  cases l with
  | myList =>
    rcases h with ⟨⟨c, hc, hu, -⟩, -⟩ | ⟨c, v, hc, hu, -⟩
    · exact ⟨c, hc, hu⟩
    · exact ⟨c, hc, hu⟩
  | inList =>
    obtain ⟨c, v, hc, hu, -⟩ := h
    exact ⟨c, hc, hu⟩
  | outList =>
    obtain ⟨⟨c, hc, hu, -⟩, -⟩ := h
    exact ⟨c, hc, hu⟩

end grow
end Cards

/-- A store, the cards of the ids in it, and who may still list an id for the first time. -/
structure Book (ι : Type) where
  world  : World
  cards  : Cards
  holder : String → Option ι

/-- The lists after one of them is set. -/
theorem World.list_put (w : World) (s : String) (l : ListID) (list : List IssueRef) (k : String) :
    (w.put (listKey s l) (.refs list)).list k = if k = listKey s l then list else w.list k :=
  congrFun (congrArg Board.list (World.board_put_list w s l list)) k

/-- What a list has after a reference is appended to one. -/
theorem World.mem_append {w : World} {s : String} {l : ListID} {r : IssueRef} {k y : String}
    (h : y ∈ ids ((w.append s l r).list k)) : y ∈ ids (w.list k) ∨ k = listKey s l ∧ y = r.issueID := by
  rw [World.list_append] at h
  split at h
  · rename_i hk
    obtain ⟨q, hq, rfl⟩ := List.mem_map.1 h
    rcases List.mem_append.1 hq with hq | hq
    · exact .inl (List.mem_map.2 ⟨q, by rwa [hk], rfl⟩)
    · exact .inr ⟨hk, congrArg IssueRef.issueID (List.mem_singleton.1 hq)⟩
  · exact .inl h

namespace Book

variable {ι : Type}

/-- **The store is what the cards say.** -/
structure Kept (E : Env) (g : Book ι) : Prop where
  sound  : g.world.Sound
  issued : ∀ id, g.cards id ≠ none ∨ g.holder id ≠ none → ∃ n, n < g.world.drawn ∧ id = E.newId n
  source : ∀ id c x u, g.cards id = some c → c.source = some (x, u) →
    ∃ d, g.cards x = some d ∧ d.owner = u ∧ d.source = none ∧ d.postPermalink = c.postPermalink ∧ d.postID = c.postID
  record : ∀ id i, g.world.issue id = some i → ∃ c, g.cards id = some c ∧ c.Fits i
  listed : ∀ (u : UserID) l r, r ∈ g.world.list (listKey u l) → g.cards.Lists u l r
  spent  : ∀ (u : UserID) id, id ∈ ids (g.world.list (listKey u .inList)) → g.holder id = none

/-- Nothing stored, nothing made. -/
def empty : Book ι := ⟨World.empty, fun _ => none, fun _ => none⟩

theorem kept_empty (E : Env) : (empty : Book ι).Kept E where
  sound            := World.sound_empty
  issued _ h       := by rcases h with h | h <;> exact absurd rfl h
  source _ _ _ _ h := by cases h
  record _ _ h     := by cases h
  listed _ _ _ h   := by cases h
  spent _ _ h      := by cases h

section kept
variable {E : Env} {g : Book ι}

/-- An id that has a card is an id. -/
theorem Kept.ne_empty (h : g.Kept E) {id : String} {c : Card} (hc : g.cards id = some c) : id ≠ "" := by
  obtain ⟨n, -, rfl⟩ := h.issued id (.inl (by simp [hc]))
  exact (E.newId_isId n).1

/-- What is drawn next has no card, and nobody holds it. -/
theorem Kept.undrawn (h : g.Kept E) : g.cards (E.newId g.world.drawn) = none ∧ g.holder (E.newId g.world.drawn) = none := by
  have hno : ¬ ∃ n, n < g.world.drawn ∧ E.newId g.world.drawn = E.newId n := by
    rintro ⟨n, hn, he⟩
    have := E.newId_inj _ _ he
    omega
  constructor
  · exact Classical.byContradiction fun hne => hno (h.issued _ (.inl hne))
  · exact Classical.byContradiction fun hne => hno (h.issued _ (.inr hne))

/-- A store that reads the same. -/
theorem Kept.reads (h : g.Kept E) {w : World} (hs : w.Sound) (hd : w.drawn = g.world.drawn)
    (hl : ∀ (u : UserID) l, w.list (listKey u l) = g.world.list (listKey u l)) (hi : w.issue = g.world.issue) :
    Kept E { g with world := w } where
  sound            := hs
  issued id hid    := by simpa only [hd] using h.issued id hid
  source           := h.source
  record id i hid  := h.record id i (by rwa [← hi])
  listed u l r hr  := h.listed u l r (by rwa [← hl])
  spent u id hid   := h.spent u id (by rwa [← hl])

theorem Kept.sameStore (h : g.Kept E) {w : World} (hw : World.SameStore g.world w) : Kept E { g with world := w } := by
  have hb := World.board_eq_of_kv hw.kv
  exact h.reads (h.sound.sameStore hw) hw.drawn (fun u l => congrFun (congrArg Board.list hb) _) (congrArg Board.issue hb)

theorem Kept.put_setting (h : g.Kept E) {key : String} (hk : SettingKey key) (value : Value) :
    Kept E { g with world := g.world.put key value } :=
  h.reads (h.sound.put_setting hk value) rfl (fun u l => World.list_put_setting hk value u l)
    (funext fun id => World.issue_put_setting hk value id)

/-- Drawing an id: who drew it holds it. -/
theorem Kept.draw (h : g.Kept E) (i : ι) :
    Kept E { g with world := { g.world with drawn := g.world.drawn + 1 },
                    holder := Function.update g.holder (E.newId g.world.drawn) (some i) } where
  sound              := World.Sound.of_kv (show g.world.kv = g.world.kv from rfl) h.sound
  source             := h.source
  record             := h.record
  listed             := h.listed
  issued id hid      := by
    by_cases hn : id = E.newId g.world.drawn
    · exact ⟨g.world.drawn, Nat.lt_succ_self _, hn⟩
    · obtain ⟨n, hlt, he⟩ := h.issued id (by simpa [Function.update_of_ne hn] using hid)
      exact ⟨n, Nat.lt_succ_of_lt hlt, he⟩
  spent u id hid     := by
    have hne : id ≠ E.newId g.world.drawn := by
      rintro rfl
      obtain ⟨r, hr, he⟩ := List.mem_map.1 hid
      obtain ⟨c, hc, -⟩ := (h.listed u .inList r hr).owner
      rw [he, h.undrawn.1] at hc
      cases hc
    simpa [Function.update_of_ne hne] using h.spent u id hid

/-- Saving the record of an id that has a card. -/
theorem Kept.save (h : g.Kept E) {i : Issue} {c : Card} (hc : g.cards i.id = some c) (hf : c.Fits i) :
    Kept E { g with world := g.world.save i } := by
  have hb := h.sound.board_save i
  have hl := h.sound.list_save i
  refine ⟨h.sound.save (h.ne_empty hc), h.issued, h.source, fun id j hj => ?_, ?_, ?_⟩
  · have hj' := congrFun (congrArg Board.issue hb) id
    rw [World.board_issue, hj, Board.setIssue_issue] at hj'
    by_cases hid : id = i.id
    · rw [if_pos hid] at hj'
      cases hj'
      exact ⟨c, by rw [hid, hc], hf⟩
    · rw [if_neg hid] at hj'
      exact h.record id j hj'.symm
  · simpa only [hl] using h.listed
  · simpa only [hl] using h.spent

/-- **Making a card** for an id that is held: it keeps what is there. -/
theorem Kept.issue (h : g.Kept E) {id : String} {i : ι} {c : Card} (hheld : g.holder id = some i) (hnone : g.cards id = none)
    (hsrc : ∀ x u, c.source = some (x, u) → ∃ d, g.cards x = some d ∧ d.owner = u ∧ d.source = none ∧
      d.postPermalink = c.postPermalink ∧ d.postID = c.postID) :
    Kept E { g with cards := Function.update g.cards id (some c) } ∧
      Cards.Grow g.cards (Function.update g.cards id (some c)) := by
  have hgrow : Cards.Grow g.cards (Function.update g.cards id (some c)) := by
    intro x d hd
    rw [Function.update_of_ne (fun he => by rw [he, hnone] at hd; cases hd), hd]
  have hback : ∀ x u c', c'.source = some (x, u) → (c' = c ∨ ∃ y, g.cards y = some c') →
      ∃ d, g.cards x = some d ∧ d.owner = u ∧ d.source = none ∧ d.postPermalink = c'.postPermalink ∧
        d.postID = c'.postID := by
    rintro x u c' hs (rfl | ⟨y, hy⟩)
    · exact hsrc x u hs
    · exact h.source y c' x u hy hs
  refine ⟨⟨h.sound, fun x hx => ?_, fun x d y u hd hs => ?_, fun x j hj => ?_, fun u l r hr => ?_, h.spent⟩, hgrow⟩
  · by_cases he : x = id
    · rw [he]
      exact h.issued id (.inr (by simp [hheld]))
    · exact h.issued x (by simpa [Function.update_of_ne he] using hx)
  · have hold : d = c ∨ ∃ z, g.cards z = some d := by
      by_cases he : x = id
      · simp only [he, Function.update_self, Option.some.injEq] at hd
        exact .inl hd.symm
      · exact .inr ⟨x, by simpa [Function.update_of_ne he] using hd⟩
    obtain ⟨e, he, hrest⟩ := hback y u d hs hold
    exact ⟨e, hgrow y e he, hrest⟩
  · obtain ⟨d, hd, hf⟩ := h.record x j hj
    exact ⟨d, hgrow x d hd, hf⟩
  · exact (h.listed u l r hr).grow hgrow

theorem Kept.delete (h : g.Kept E) (id : String) : Kept E { g with world := g.world.delete (issueKey id) } := by
  have hb := h.sound.board_delete_issue id
  have hl : (g.world.delete (issueKey id)).list = g.world.list := congrArg Board.list hb
  refine ⟨h.sound.delete_issue id, h.issued, h.source, fun x j hj => ?_, ?_, ?_⟩
  · have hj' := congrFun (congrArg Board.issue hb) x
    rw [World.board_issue, hj, Board.setIssue_issue] at hj'
    by_cases hx : x = id
    · rw [if_pos hx] at hj'
      cases hj'
    · rw [if_neg hx] at hj'
      exact h.record x j hj'.symm
  · simpa only [hl] using h.listed
  · simpa only [hl] using h.spent

/-- **Setting a list** to references the cards allow in it, none in an In list that is still held. -/
theorem Kept.put_list (h : g.Kept E) {s : String} {l : ListID} {list : List IssueRef} (hnd : (ids list).Nodup)
    (hold : String → Option ι)
    (hheld : ∀ id, hold id = g.holder id ∨ hold id = none)
    (hlists : ∀ (u : UserID) m, listKey u m = listKey s l → ∀ r ∈ list, g.cards.Lists u m r)
    (hin : ∀ u : UserID, listKey u .inList = listKey s l → ∀ r ∈ list, hold r.issueID = none) :
    Kept E { g with world := g.world.put (listKey s l) (.refs list), holder := hold } := by
  have hi : (g.world.put (listKey s l) (.refs list)).issue = g.world.issue :=
    congrArg Board.issue (World.board_put_list g.world s l list)
  refine ⟨h.sound.put_list s l hnd, fun id hid => ?_, h.source, fun id i hid => ?_, fun u m r hr => ?_, fun u id hid => ?_⟩
  · refine h.issued id (hid.imp_right fun hne => ?_)
    rcases hheld id with he | he
    · rwa [← he]
    · exact absurd he hne
  · exact h.record id i (by rwa [← hi])
  · rw [World.list_put] at hr
    by_cases hk : listKey u m = listKey s l
    · rw [if_pos hk] at hr
      exact hlists u m hk r hr
    · rw [if_neg hk] at hr
      exact h.listed u m r hr
  · rw [World.list_put] at hid
    by_cases hk : listKey u .inList = listKey s l
    · rw [if_pos hk] at hid
      obtain ⟨r, hr, rfl⟩ := List.mem_map.1 hid
      exact hin u hk r hr
    · rw [if_neg hk] at hid
      rcases hheld id with he | he
      · exact he.trans (h.spent u id hid)
      · exact he

/-- Setting a list to some of its references, in any order. -/
theorem Kept.put_sub (h : g.Kept E) {s : String} {l : ListID} {list : List IssueRef} (hnd : (ids list).Nodup)
    (hsub : list ⊆ g.world.list (listKey s l)) : Kept E { g with world := g.world.put (listKey s l) (.refs list) } := by
  refine h.put_list hnd g.holder (fun _ => .inl rfl) (fun u m hk r hr => ?_) fun u hk r hr => ?_
  · exact h.listed u m r (by rw [hk]; exact hsub hr)
  · exact h.spent u _ (List.mem_map.2 ⟨r, by rw [hk]; exact hsub hr, rfl⟩)

/-- Appending a reference the cards allow; in an In list, it is no longer held. -/
theorem Kept.append (h : g.Kept E) {u : UserID} {l : ListID} {r : IssueRef} (hnew : r.issueID ∉ ids (g.world.list (listKey u l)))
    (hr : g.cards.Lists u l r) (hold : String → Option ι) (hheld : ∀ id, hold id = g.holder id ∨ hold id = none)
    (hin : l = .inList → hold r.issueID = none) :
    Kept E { g with world := g.world.append u l r, holder := hold } := by
  refine h.put_list (h.sound.nodup_append hnew) hold hheld (fun v m hk s hs => ?_) fun v hk s hs => ?_
  · obtain ⟨rfl, rfl⟩ := listKey_inj.1 hk
    rcases List.mem_append.1 hs with hs | hs
    · exact h.listed v m s hs
    · rwa [List.mem_singleton.1 hs]
  · obtain ⟨rfl, rfl⟩ := listKey_inj.1 hk
    rcases List.mem_append.1 hs with hs | hs
    · have := h.spent v _ (List.mem_map.2 ⟨s, hs, rfl⟩)
      rcases hheld s.issueID with he | he
      · exact he.trans this
      · exact he
    · rw [List.mem_singleton.1 hs]
      exact hin rfl

end kept
end Book
end Todo

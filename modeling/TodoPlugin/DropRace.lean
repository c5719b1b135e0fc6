import TodoPlugin.Isolation
import TodoPlugin.StoreRace
/-!
# Dropping a todo in a race

`Dropper` is the contract of a party that completes or removes its side of a pair: until its compare-and-set takes its
own reference out it only reads, and from then on what is left of the pair only shrinks.  Under that contract
`CompleteIssue` and `RemoveIssue` fail without a trace, or leave nothing of the pair.
-/
namespace Todo

open Store (ids without)

/-- One side of a pair: whose reference it is, where it is, and to which issue. -/
structure Side where
  user : UserID
  list : ListID
  id   : String

/-- The reference of a side to another. -/
def Side.ref (me other : Side) : IssueRef := ⟨me.id, other.id, other.user⟩

/-- The side's list refers to its issue. -/
def Side.Listed (s : Side) (w : World) : Prop := s.id ∈ ids (w.board.refs s.user s.list)

/-- Nothing is left of a side. -/
structure Side.Gone (s : Side) (w : World) : Prop where
  ref    : ¬ s.Listed w
  record : w.issue s.id = none

namespace World

/-- Nothing was added. -/
structure Shrinks (w w' : World) : Prop where
  list  : ∀ key, ∀ r ∈ w'.list key, r ∈ w.list key
  issue : ∀ id, w.issue id = none → w'.issue id = none

variable {w w' w'' : World}

theorem Shrinks.refl (w : World) : Shrinks w w := ⟨fun _ _ h => h, fun _ h => h⟩

theorem Shrinks.trans (h : Shrinks w w') (h' : Shrinks w' w'') : Shrinks w w'' :=
  ⟨fun key r hr => h.list key r (h'.list key r hr), fun id hid => h'.issue id (h.issue id hid)⟩

theorem Shrinks.not_mem (h : Shrinks w w') {key id : String} (hid : id ∉ ids (w.list key)) :
    id ∉ ids (w'.list key) := fun hm => by
  obtain ⟨r, hr, rfl⟩ := List.mem_map.1 hm
  exact hid (List.mem_map.2 ⟨r, h.list key r hr, rfl⟩)

theorem Shrinks.gone (h : Shrinks w w') {s : Side} (hg : s.Gone w) : s.Gone w' :=
  ⟨h.not_mem hg.ref, h.issue _ hg.record⟩

theorem shrinks_unlist (w : World) (u id : String) (l : ListID) : Shrinks w (w.unlist u id l) where
  list key r hr := by
    rw [list_unlist] at hr
    split at hr
    · rename_i hk
      exact hk ▸ (Store.mem_without.1 hr).1
    · exact hr
  issue k hk := by rwa [issue_unlist]

theorem Sound.delete_list (h : w.Sound) (id : String) : (w.delete (issueKey id)).list = w.list :=
  congrArg Board.list (h.board_delete_issue id)

theorem Sound.delete_issue_eq (h : w.Sound) (id k : String) :
    (w.delete (issueKey id)).issue k = if k = id then none else w.issue k :=
  congrFun (congrArg Board.issue (h.board_delete_issue id)) k

theorem Sound.shrinks_delete (h : w.Sound) (id : String) : Shrinks w (w.delete (issueKey id)) where
  list key r hr := by rwa [h.delete_list] at hr
  issue k hk    := by rw [h.delete_issue_eq, hk, ite_self]

theorem IsLegacy.of_unlist {a id key : String} {l : ListID} (h : (w.unlist a id l).IsLegacy key) : w.IsLegacy key := by
  obtain ⟨i, rest, hk⟩ := h
  by_cases hke : key = listKey a l
  · subst hke
    by_cases hin : id ∈ ids (w.list (listKey a l))
    · rw [unlist, if_pos hin, put_kv_self] at hk
      cases hk
    · rw [unlist_of_not_mem hin] at hk
      exact ⟨i, rest, hk⟩
  · rw [kv_unlist_of_ne _ hke] at hk
    exact ⟨i, rest, hk⟩

/-- How often a list has the issue. -/
def tally (w : World) (key id : String) : Nat := if id ∈ ids (w.list key) then 1 else 0

/-- Taking an issue out of a list is a change of that list, unless it is not there. -/
theorem ebbs_unlist (w : World) {a id : String} {l : ListID}
    (hleg : w.IsLegacy (listKey a l) → id ∉ ids (w.list (listKey a l))) (key : String) :
    Ebbs key w (w.unlist a id l) (w.tally key id) ((w.unlist a id l).tally key id) := by
  by_cases hk : key = listKey a l
  · subst hk
    have hout : id ∉ ids ((w.unlist a id l).list (listKey a l)) := by
      rw [list_unlist, if_pos rfl]
      exact Store.not_mem_ids_without _ _
    by_cases hin : id ∈ ids (w.list (listKey a l))
    · rw [tally, if_pos hin, tally, if_neg hout]
      exact ⟨Nat.zero_le 1, fun _ => ⟨fun h => hleg h hin, Nat.zero_lt_one⟩⟩
    · rw [unlist_of_not_mem hin]
      exact .refl ..
  · refine .of_kv (w.kv_unlist_of_ne hk) (Nat.le_of_eq ?_)
    rw [tally, list_unlist, if_neg hk, tally]

theorem tally_lt (w : World) (key id : String) : w.tally key id < storeRetries := by
  unfold tally
  split <;> decide

end World

/-- **The contract of a party that drops its side `me` of a pair**: `opened` until its compare-and-set takes its own
reference out, `won` from then on. -/
structure Dropper {Γ : Type} (R : Race Γ) (me other : Side) (opened won : Γ → Prop) : Prop where
  sound       : ∀ g, (R.world g).Sound
  noted       : ∀ key g, R.noted key g
  opened_rely : ∀ {g g'}, opened g → R.rely g g' → opened g'
  own         : ∀ {g l r}, opened g → r ∈ (R.world g).board.refs me.user l → r.issueID = me.id →
    l = me.list ∧ r = me.ref other
  lost        : ∀ {g g'}, opened g → R.rely g g' → ¬ me.Listed (R.world g) → ¬ me.Listed (R.world g')
  calm        : ∀ {g}, opened g → ∃ fuel, R.Calm (listKey me.user me.list) fuel g
  win         : ∀ {g}, opened g → me.Listed (R.world g) → ∃ g',
    R.world g' = (R.world g).unlist me.user me.id me.list ∧ (∀ c r, R.guar c r g g') ∧ won g'
  won_rely    : ∀ {g g'}, won g → R.rely g g' → won g' ∧ World.Shrinks (R.world g) (R.world g')
  foreign     : ∀ {g l r}, won g → r ∈ (R.world g).board.refs other.user l → r.issueID = other.id →
    l = other.list ∧ r = other.ref me
  calm'       : ∀ {g}, won g → ∀ l, ∃ fuel, R.Calm (listKey other.user l) fuel g
  unlist      : ∀ {g}, won g → ∃ g', R.world g' = (R.world g).unlist other.user other.id other.list ∧
    (∀ c r, R.guar c r g g') ∧ won g'
  delete      : ∀ {g s}, won g → s = me ∨ s = other → ∃ g',
    R.world g' = (R.world g).delete (issueKey s.id) ∧ (∀ c r, R.guar c r g g') ∧ won g'

namespace Dropper

variable {Γ : Type} {R : Race Γ} {E : Env} {me other : Side} {opened won : Γ → Prop} {β : Type} {post : β → Γ → Prop}
  {g : Γ}

/-- A reference to an issue with another side is not in the legacy encoding. -/
theorem not_legacy {w : World} {a : UserID} {l : ListID} {s t : Side}
    (href : ∀ r ∈ w.board.refs a l, r.issueID = s.id → r = s.ref t) (hleg : w.IsLegacy (listKey a l)) :
    s.id ∉ ids (w.list (listKey a l)) := fun hm => by
  obtain ⟨r, hr, he⟩ := List.mem_map.1 hm
  have hf := hleg.foreign hr
  rw [href r hr he] at hf
  exact t.user.val_ne_empty hf

/-- Dropping a record of the pair. -/
theorem record (h : Dropper R me other opened won) (hw : won g) {s : Side} (hs : s = me ∨ s = other)
    {f : Except String Issue → Api β}
    (hf : ∀ g' res, won g' → World.Shrinks (R.world g) (R.world g') → (R.world g').issue s.id = none →
      R.Safe E post (f res) g') : R.Safe E post (Store.getAndRemoveIssue s.id >>= f) g := by
  refine Race.getAndRemoveIssue h.sound (fun g' hr hn => ?_) fun g₁ i hr => ?_
  · obtain ⟨hw', hsh⟩ := h.won_rely hw hr
    exact hf g' _ hw' hsh hn
  · obtain ⟨hw₁, hsh₁⟩ := h.won_rely hw hr
    obtain ⟨g₂, hg₂, hgu, hw₂⟩ := h.delete hw₁ hs
    refine ⟨g₂, hg₂, hgu _ _, hf g₂ _ hw₂ ?_ ?_⟩
    · rw [hg₂]
      exact hsh₁.trans ((h.sound g₁).shrinks_delete _)
    · rw [hg₂, (h.sound g₁).delete_issue_eq, if_pos rfl]

/-- Dropping the other side's reference, where it is. -/
theorem reference (h : Dropper R me other opened won) (hw : won g) {f : Except String Unit → Api β}
    (hf : ∀ g' res, won g' → World.Shrinks (R.world g) (R.world g') → ¬ other.Listed (R.world g') →
      R.Safe E post (f res) g') : R.Safe E post (Store.removeReference other.user other.id other.list >>= f) g := by
  obtain ⟨fuel, hcalm⟩ := h.calm' hw other.list
  refine Race.removeReference h.sound hcalm (fun g' hr hno => ?_) fun g₁ hr hin => ?_
  · obtain ⟨hw', hsh⟩ := h.won_rely hw hr
    exact hf g' _ hw' hsh hno
  · obtain ⟨hw₁, hsh₁⟩ := h.won_rely hw hr
    obtain ⟨g₂, hg₂, hgu, hw₂⟩ := h.unlist hw₁
    refine ⟨g₂, hg₂, hgu _ _, hf g₂ _ hw₂ ?_ ?_⟩
    · rw [hg₂]
      exact hsh₁.trans (World.shrinks_unlist ..)
    · rw [hg₂, Side.Listed, Board.refs, World.board_list, World.list_unlist, if_pos rfl]
      exact Store.not_mem_ids_without _ _

/-- Dropping the other side's reference from the list a search answers, whichever it is. -/
theorem searched (h : Dropper R me other opened won) (hw : won g) {f : ListID → Except String Unit → Api β}
    (hf : ∀ g' l res, won g' → World.Shrinks (R.world g) (R.world g') → ¬ other.Listed (R.world g') →
      R.Safe E post (f l res) g') :
    R.Safe E post (Store.getIssueListAndReference other.user other.id >>= fun p =>
      Store.removeReference other.user other.id p.1 >>= f p.1) g := by
  have hclear : ∀ l, R.Clear other.user other.id l g := fun l g' hr =>
    ⟨h.noted _ g', not_legacy fun r hr' he => (h.foreign (h.won_rely hw hr).1 hr' he).2⟩
  refine Race.getIssueListAndReference h.sound hclear (fun g₁ l r n hr hm he => ?_)
    fun g₁ g₂ g₃ hr₁ hr₂ hr₃ hno₁ hno₂ hno₃ => ?_
  · obtain ⟨hw₁, hsh₁⟩ := h.won_rely hw hr
    obtain ⟨rfl, rfl⟩ := h.foreign hw₁ hm he
    exact h.reference hw₁ fun g' res hw' hsh hno => hf g' _ res hw' (hsh₁.trans hsh) hno
  · -- nowhere to be found: the owned list is tried, to no effect
    obtain ⟨hw₁, hsh₁⟩ := h.won_rely hw hr₁
    obtain ⟨hw₂, hsh₂⟩ := h.won_rely hw₁ hr₂
    obtain ⟨hw₃, hsh₃⟩ := h.won_rely hw₂ hr₃
    have hno : ¬ other.Listed (R.world g₃) := by
      unfold Side.Listed
      cases other.list with
      | myList => exact (hsh₂.trans hsh₃).not_mem hno₁
      | outList => exact hsh₃.not_mem hno₂
      | inList => exact hno₃
    obtain ⟨fuel, hcalm⟩ := h.calm' hw₃ .myList
    refine Race.removeReference h.sound hcalm (fun g' hr _ => ?_) fun g' hr hin => ?_
    · obtain ⟨hw', hsh'⟩ := h.won_rely hw₃ hr
      exact hf g' _ _ hw' (((hsh₁.trans hsh₂).trans hsh₃).trans hsh') (hsh'.not_mem hno)
    · obtain ⟨r, hr', he⟩ := List.mem_map.1 hin
      exact absurd hin (((hsh₂.trans hsh₃).trans (h.won_rely hw₃ hr).2).not_mem hno₁)

/-- Taking the own reference out, or finding it gone. -/
theorem first (h : Dropper R me other opened won) (ho : opened g)
    {f : ListID × Option IssueRef × Nat → Api β} {k : Except String Unit → Api β}
    (hk : ∀ n, f (me.list, some (me.ref other), n) = (Store.removeReference me.user me.id me.list >>= k))
    (hnone : ∀ g', opened g' → ¬ me.Listed (R.world g') → R.Safe E post (f (.myList, none, 0)) g')
    (hlost : ∀ g' e, opened g' → ¬ me.Listed (R.world g') → R.Safe E post (k (.error e)) g')
    (hwon : ∀ g', won g' → ¬ me.Listed (R.world g') → R.Safe E post (k (.ok ())) g') :
    R.Safe E post (Store.getIssueListAndReference me.user me.id >>= f) g := by
  have hclear : ∀ l, R.Clear me.user me.id l g := fun l g' hr =>
    ⟨h.noted _ g', not_legacy fun r hr' he => (h.own (h.opened_rely ho hr) hr' he).2⟩
  refine Race.getIssueListAndReference h.sound hclear (fun g₁ l r n hr hm he => ?_)
    fun g₁ g₂ g₃ hr₁ hr₂ hr₃ hno₁ hno₂ hno₃ => ?_
  · have ho₁ := h.opened_rely ho hr
    obtain ⟨rfl, rfl⟩ := h.own ho₁ hm he
    rw [hk]
    obtain ⟨fuel, hcalm⟩ := h.calm ho₁
    refine Race.removeReference h.sound hcalm (fun g' hr' hno => hlost g' _ (h.opened_rely ho₁ hr') hno)
      fun g₂ hr₂ hin => ?_
    obtain ⟨g₃, hg₃, hgu, hw₃⟩ := h.win (h.opened_rely ho₁ hr₂) hin
    refine ⟨g₃, hg₃, hgu _ _, hwon g₃ hw₃ ?_⟩
    rw [hg₃, Side.Listed, Board.refs, World.board_list, World.list_unlist, if_pos rfl]
    exact Store.not_mem_ids_without _ _
  · have ho₁ := h.opened_rely ho hr₁
    have ho₂ := h.opened_rely ho₁ hr₂
    refine hnone g₃ (h.opened_rely ho₂ hr₃) ?_
    cases hl : me.list with
    | myList => exact h.lost ho₂ hr₃ (h.lost ho₁ hr₂ (by rw [Side.Listed, hl]; exact hno₁))
    | outList => exact h.lost ho₂ hr₃ (by rw [Side.Listed, hl]; exact hno₂)
    | inList => rw [Side.Listed, hl]; exact hno₃

end Dropper

namespace ListManager

open Dropper

variable {Γ : Type} {R : Race Γ} {E : Env} {me other : Side} {opened won : Γ → Prop} {g : Γ}

/-- What `RemoveIssue` does once it has tried to take its own reference out. -/
def removeRest (me other : Side) : Except String Unit → Api RemoveResult
  | .error err => pure ⟨none, "", false, me.list, some err⟩
  | .ok ()     => do
    let issue ← Store.getAndRemoveIssue me.id
    if other.user.val = "" then return ⟨issue.toOption, "", false, me.list, none⟩
    else
      let (list, _, _) ← Store.getIssueListAndReference other.user other.id
      let _ ← Store.removeReference other.user other.id list
      let issue ← Store.getAndRemoveIssue other.id
      return ⟨issue.toOption, other.user, list = .outList, me.list, none⟩

/-- What `CompleteIssue` does then. -/
def completeRest (me other : Side) : Except String Unit → Api CompleteResult
  | .error err => pure ⟨none, "", me.list, some err⟩
  | .ok ()     => do
    let issue ← Store.getAndRemoveIssue me.id
    if other.user.val = "" then return ⟨issue.toOption, "", me.list, none⟩
    else
      let _ ← Store.removeReference other.user other.id .outList
      let issue ← Store.getAndRemoveIssue other.id
      return ⟨issue.toOption, other.user, me.list, none⟩

/-- **`RemoveIssue` by a dropper** fails once its own reference is gone, or leaves nothing of the pair. -/
theorem removeIssue_safe (h : Dropper R me other opened won) (ho : opened g) {post : RemoveResult → Γ → Prop}
    (hlost : ∀ g res, opened g → ¬ me.Listed (R.world g) → res.err ≠ none → post res g)
    (hdone : ∀ g res, won g → me.Gone (R.world g) → other.Gone (R.world g) → res.err = none → post res g) :
    R.Safe E post (removeIssue me.user me.id) g := by
  refine h.first ho (k := removeRest me other) (fun n => rfl) (fun g₁ ho₁ hno => ?_) (fun g₁ e ho₁ hno => ?_)
    fun g₁ hw₁ hno => ?_
  · exact Race.ret fun g' hr => hlost g' _ (h.opened_rely ho₁ hr) (h.lost ho₁ hr hno) (Option.some_ne_none _)
  · exact Race.ret fun g' hr => hlost g' _ (h.opened_rely ho₁ hr) (h.lost ho₁ hr hno) (Option.some_ne_none _)
  · apply h.record hw₁ (.inl rfl)
    intro g₂ res hw₂ hsh₂ hrec
    rw [if_neg other.user.val_ne_empty]
    refine h.searched hw₂ (f := fun l _ => do
      let issue ← Store.getAndRemoveIssue other.id
      return (RemoveResult.mk issue.toOption other.user (l = .outList) me.list none)) fun g₃ l res₃ hw₃ hsh₃ hno₃ => ?_
    apply h.record hw₃ (.inr rfl)
    intro g₄ res₄ hw₄ hsh₄ hrec₄
    apply Race.ret
    intro g' hr
    obtain ⟨hw', hsh'⟩ := h.won_rely hw₄ hr
    exact hdone g' _ hw'
      (hsh'.gone ⟨((hsh₂.trans hsh₃).trans hsh₄).not_mem hno, (hsh₃.trans hsh₄).issue _ hrec⟩)
      (hsh'.gone ⟨hsh₄.not_mem hno₃, hrec₄⟩) rfl

/-- **`CompleteIssue` by a dropper** whose other side is in an Out list, likewise. -/
theorem completeIssue_safe (h : Dropper R me other opened won) (hout : other.list = .outList) (ho : opened g)
    {post : CompleteResult → Γ → Prop}
    (hlost : ∀ g res, opened g → ¬ me.Listed (R.world g) → res.err ≠ none → post res g)
    (hdone : ∀ g res, won g → me.Gone (R.world g) → other.Gone (R.world g) → res.err = none → post res g) :
    R.Safe E post (completeIssue me.user me.id) g := by
  refine h.first ho (k := completeRest me other) (fun n => rfl) (fun g₁ ho₁ hno => ?_) (fun g₁ e ho₁ hno => ?_)
    fun g₁ hw₁ hno => ?_
  · exact Race.ret fun g' hr => hlost g' _ (h.opened_rely ho₁ hr) (h.lost ho₁ hr hno) (Option.some_ne_none _)
  · exact Race.ret fun g' hr => hlost g' _ (h.opened_rely ho₁ hr) (h.lost ho₁ hr hno) (Option.some_ne_none _)
  · apply h.record hw₁ (.inl rfl)
    intro g₂ res hw₂ hsh₂ hrec
    rw [if_neg other.user.val_ne_empty, ← hout]
    apply h.reference hw₂
    intro g₃ res₃ hw₃ hsh₃ hno₃
    apply h.record hw₃ (.inr rfl)
    intro g₄ res₄ hw₄ hsh₄ hrec₄
    apply Race.ret
    intro g' hr
    obtain ⟨hw', hsh'⟩ := h.won_rely hw₄ hr
    exact hdone g' _ hw'
      (hsh'.gone ⟨((hsh₂.trans hsh₃).trans hsh₄).not_mem hno, (hsh₃.trans hsh₄).issue _ hrec⟩)
      (hsh'.gone ⟨hsh₄.not_mem hno₃, hrec₄⟩) rfl

end ListManager
end Todo

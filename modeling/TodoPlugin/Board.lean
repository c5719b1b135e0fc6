import TodoPlugin.Edits
import Mathlib.Data.Set.Function
/-!
# The board: what the store says

`Board` is the store as the plugin means it: the list under each list key and the issue under each id, whatever the
encoding.  `World.board` reads it off the KV store, `Sound` is the store the plugin's own writes make: every list
decodes, in one of the two encodings, to distinct ids, and every issue is stored under its own id, which is not empty.
Each write is then one change of the board.
-/
namespace Todo

open Store (ids without)

@[ext] structure Board where
  list  : String → List IssueRef
  issue : String → Option Issue

namespace Board

def setList (b : Board) (key : String) (list : List IssueRef) : Board :=
  { b with list := fun k => if k = key then list else b.list k }

def setIssue (b : Board) (id : String) (issue : Option Issue) : Board :=
  { b with issue := fun k => if k = id then issue else b.issue k }

/-- The list under `key` without the references to an issue. -/
def unlist (b : Board) (key issueID : String) : Board := b.setList key (without issueID (b.list key))

def append (b : Board) (key : String) (ref : IssueRef) : Board := b.setList key (b.list key ++ [ref])

@[simp] theorem setList_list (b : Board) (key k : String) (list : List IssueRef) :
    (b.setList key list).list k = if k = key then list else b.list k := rfl
@[simp] theorem setList_issue (b : Board) (key : String) (list : List IssueRef) :
    (b.setList key list).issue = b.issue := rfl
@[simp] theorem setIssue_list (b : Board) (id : String) (issue : Option Issue) :
    (b.setIssue id issue).list = b.list := rfl
@[simp] theorem setIssue_issue (b : Board) (id k : String) (issue : Option Issue) :
    (b.setIssue id issue).issue k = if k = id then issue else b.issue k := rfl
@[simp] theorem unlist_list (b : Board) (key id k : String) :
    (b.unlist key id).list k = if k = key then without id (b.list key) else b.list k := rfl
@[simp] theorem unlist_issue (b : Board) (key id : String) : (b.unlist key id).issue = b.issue := rfl
@[simp] theorem append_list (b : Board) (key : String) (ref : IssueRef) (k : String) :
    (b.append key ref).list k = if k = key then b.list key ++ [ref] else b.list k := rfl
@[simp] theorem append_issue (b : Board) (key : String) (ref : IssueRef) : (b.append key ref).issue = b.issue := rfl

theorem unlist_of_not_mem {b : Board} {key id : String} (h : id ∉ ids (b.list key)) : b.unlist key id = b := by
  ext k : 2
  · by_cases hk : k = key
    · subst hk; simp [Store.without_eq_self h]
    · simp [hk]
  · rfl

theorem setIssue_none_of_none {b : Board} {id : String} (h : b.issue id = none) : b.setIssue id none = b := by
  ext k : 2
  · rfl
  · by_cases hk : k = id
    · subst hk; simp [h]
    · simp [hk]

end Board

/-! ## Reading the board -/

/-- The references of the list stored as `value`, in either encoding. -/
def decodeList : Option Value → Option (List IssueRef)
  | none                   => some []
  | some (.refs list)      => some list
  | some (.legacy id rest) => some ((id :: rest).map legacyRef)
  | some _                 => none

namespace World

/-- The list under a key, as `GetList` returns it. -/
def list (w : World) (key : String) : List IssueRef := (decodeList (w.kv key)).getD []

/-- The issue under an id, as `GetIssue` returns it. -/
def issue (w : World) (id : String) : Option Issue :=
  match w.kv (issueKey id) with
  | some (.issue issue) => some issue
  | _                   => none

def board (w : World) : Board := ⟨w.list, w.issue⟩

/-- Every list decodes, to distinct ids. -/
structure Listed (w : World) : Prop where
  decodes  : ∀ u l, ∃ list, decodeList (w.kv (listKey u l)) = some list
  distinct : ∀ u l, (ids (w.list (listKey u l))).Nodup

/-- **A store the plugin's writes make.** -/
structure Sound (w : World) : Prop extends Listed w where
  keyed    : ∀ id value, w.kv (issueKey id) = some value → id ≠ "" ∧ ∃ issue, value = .issue issue ∧ issue.id = id

theorem sound_empty : empty.Sound where
  decodes _ _  := ⟨[], rfl⟩
  distinct _ _ := List.nodup_nil
  keyed _ _ h  := by cases h

theorem decode_list {w : World} {key : String} (h : ∃ list, decodeList (w.kv key) = some list) :
    decodeList (w.kv key) = some (w.list key) := by
  obtain ⟨list, hl⟩ := h
  rw [World.list, hl]
  rfl

theorem Listed.decode_eq {w : World} (h : w.Listed) (u : String) (l : ListID) :
    decodeList (w.kv (listKey u l)) = some (w.list (listKey u l)) := decode_list (h.decodes u l)

/-- A record is stored under its own id. -/
theorem Sound.issue_id {w : World} (h : w.Sound) {id : String} {i : Issue} (hi : w.issue id = some i) : i.id = id := by
  unfold World.issue at hi
  split at hi
  · rename_i issue hkv
    obtain ⟨-, j, hj, hid⟩ := h.keyed id _ hkv
    cases hj
    cases hi
    exact hid
  · cases hi

theorem Sound.kv_issue {w : World} (h : w.Sound) (id : String) :
    w.kv (issueKey id) = (w.issue id).map Value.issue := by
  unfold World.issue
  cases hkv : w.kv (issueKey id) with
  | none => rfl
  | some value =>
    obtain ⟨-, i, rfl, -⟩ := h.keyed id value hkv
    rfl

/-- There is no record under the empty id. -/
theorem Sound.issue_empty {w : World} (h : w.Sound) : w.issue "" = none := by
  unfold World.issue
  cases hkv : w.kv (issueKey "") with
  | none => rfl
  | some value => exact absurd rfl (h.keyed "" value hkv).1

theorem Sound.id_ne_empty {w : World} (h : w.Sound) {id : String} {i : Issue} (hi : w.issue id = some i) : id ≠ "" :=
  fun he => by rw [he, h.issue_empty] at hi; cases hi

@[simp] theorem put_drawn (w : World) (key : String) (value : Value) : (w.put key value).drawn = w.drawn := rfl
@[simp] theorem put_ticks (w : World) (key : String) (value : Value) : (w.put key value).ticks = w.ticks := rfl
@[simp] theorem put_notices (w : World) (key : String) (value : Value) : (w.put key value).notices = w.notices := rfl
@[simp] theorem delete_drawn (w : World) (key : String) : (w.delete key).drawn = w.drawn := rfl
@[simp] theorem delete_ticks (w : World) (key : String) : (w.delete key).ticks = w.ticks := rfl
@[simp] theorem delete_notices (w : World) (key : String) : (w.delete key).notices = w.notices := rfl

/-- The board is in the KV store. -/
theorem board_eq_of_kv {w w' : World} (h : w'.kv = w.kv) : w'.board = w.board := by
  unfold board
  congr 1
  · funext k; rw [list, list, h]
  · funext k; rw [issue, issue, h]

theorem Sound.of_kv {w w' : World} (h : w'.kv = w.kv) (hs : w.Sound) : w'.Sound where
  decodes u l      := by rw [h]; exact hs.decodes u l
  distinct u l     := by rw [list, h]; exact hs.distinct u l
  keyed id value e := hs.keyed id value (by rw [← h]; exact e)

/-! ## Writing a list -/

@[simp] theorem board_list (w : World) : w.board.list = w.list := rfl
@[simp] theorem board_issue (w : World) : w.board.issue = w.issue := rfl

/-- **Setting a list changes that list of the board.** -/
theorem board_put_list (w : World) (u : String) (l : ListID) (list : List IssueRef) :
    (w.put (listKey u l) (.refs list)).board = w.board.setList (listKey u l) list := by
  ext k : 2
  · by_cases hk : k = listKey u l
    · subst hk
      simp [World.list, decodeList]
    · simp [World.list, put_kv_of_ne _ _ hk, hk]
  · simp [World.issue, put_kv_of_ne _ _ (issueKey_ne_listKey u l k)]

theorem Listed.put_list {w : World} (h : w.Listed) (u : String) (l : ListID) {list : List IssueRef}
    (hnd : (ids list).Nodup) : (w.put (listKey u l) (.refs list)).Listed where
  decodes u' l'   := by
    by_cases hk : listKey u' l' = listKey u l
    · rw [hk, put_kv_self]
      exact ⟨list, rfl⟩
    · rw [put_kv_of_ne _ _ hk]
      exact h.decodes u' l'
  distinct u' l'  := by
    have := congrFun (congrArg Board.list (board_put_list w u l list)) (listKey u' l')
    rw [board_list, Board.setList_list] at this
    rw [this]
    split
    · exact hnd
    · exact h.distinct u' l'

theorem Sound.put_list {w : World} (h : w.Sound) (u : String) (l : ListID) {list : List IssueRef}
    (hnd : (ids list).Nodup) : (w.put (listKey u l) (.refs list)).Sound where
  toListed        := h.toListed.put_list u l hnd
  keyed id value e := h.keyed id value (by rwa [put_kv_of_ne _ _ (issueKey_ne_listKey u l id)] at e)

/-! ## Writing an issue -/

/-- Only a list key holds a list. -/
theorem Sound.list_issueKey {w : World} (h : w.Sound) (id : String) : w.list (issueKey id) = [] := by
  unfold World.list
  rw [h.kv_issue]
  cases w.issue id <;> rfl

/-- **Saving an issue changes that issue of the board.** -/
theorem Sound.board_put_issue {w : World} (h : w.Sound) (i : Issue) :
    (w.put (issueKey i.id) (.issue i)).board = w.board.setIssue i.id (some i) := by
  ext k : 2
  · by_cases hk : k = issueKey i.id
    · subst hk
      have := h.list_issueKey i.id
      simp_all [World.list, decodeList]
    · simp [World.list, put_kv_of_ne _ _ hk]
  · by_cases hk : k = i.id
    · subst hk
      simp [World.issue]
    · have : issueKey k ≠ issueKey i.id := fun he => hk (issueKey_inj.1 he)
      simp [World.issue, put_kv_of_ne _ _ this, hk]

theorem Sound.put_issue {w : World} (h : w.Sound) (i : Issue) (hne : i.id ≠ "") :
    (w.put (issueKey i.id) (.issue i)).Sound where
  decodes u l      := by
    rw [put_kv_of_ne _ _ (listKey_ne_issueKey u l _)]
    exact h.decodes u l
  distinct u l     := by
    rw [World.list, put_kv_of_ne _ _ (listKey_ne_issueKey u l _)]
    exact h.distinct u l
  keyed id value e := by
    by_cases hk : id = i.id
    · subst hk
      rw [put_kv_self] at e
      cases e
      exact ⟨hne, i, rfl, rfl⟩
    · rw [put_kv_of_ne _ _ (fun he => hk (issueKey_inj.1 he))] at e
      exact h.keyed id value e

/-- **Deleting an issue takes it off the board.** -/
theorem Sound.board_delete_issue {w : World} (h : w.Sound) (id : String) :
    (w.delete (issueKey id)).board = w.board.setIssue id none := by
  ext k : 2
  · by_cases hk : k = issueKey id
    · subst hk
      have := h.list_issueKey id
      simp_all [World.list, decodeList]
    · simp [World.list, delete_kv_of_ne _ hk]
  · by_cases hk : k = id
    · subst hk
      simp [World.issue]
    · have : issueKey k ≠ issueKey id := fun he => hk (issueKey_inj.1 he)
      simp [World.issue, delete_kv_of_ne _ this, hk]

theorem Sound.delete_issue {w : World} (h : w.Sound) (id : String) : (w.delete (issueKey id)).Sound where
  decodes u l        := by
    rw [delete_kv_of_ne _ (listKey_ne_issueKey u l _)]
    exact h.decodes u l
  distinct u l       := by
    rw [World.list, delete_kv_of_ne _ (listKey_ne_issueKey u l _)]
    exact h.distinct u l
  keyed id' value e  := by
    by_cases hk : id' = id
    · subst hk
      rw [delete_kv_self] at e
      cases e
    · rw [delete_kv_of_ne _ (fun he => hk (issueKey_inj.1 he))] at e
      exact h.keyed id' value e

end World
end Todo

import TodoPlugin.Lib.Faults
import TodoPlugin.Quiet
import TodoPlugin.ListRun
/-!
# A KV store that fails once

Every function of the store is run again on a server where one thing goes wrong (`Mishap`): a KV call fails, without
effect, or a list update loses all its compare-and-sets.  A function struck so returns an error and has changed nothing
(`Atomic`); otherwise it does what it does on a server without faults.  What an operation ends with then follows part by
part (`Ends`).
-/
namespace Todo

open Proc (Fault faulty)
open Store (ids without)

/-- What goes wrong: a KV call fails with an error, or a list update loses every compare-and-set it makes. -/
inductive Mishap where
  | fails (err : String)
  | loses

namespace Mishap

/-- The calls that can be struck, and what they are then answered. -/
def answer : Mishap → (c : Call) → Option (Resp c)
  | .fails err, .kvGet _               => some (.error err)
  | .fails err, .kvSet _ _             => some (.error err)
  | .fails err, .kvDelete _            => some (.error err)
  | .fails err, .kvCompareAndSet _ _ _ => some (.error err)
  | .loses, .kvCompareAndSet _ _ _     => some (.ok false)
  | _, _                               => none

/-- How many calls in a row are struck. -/
def strikes : Mishap → Nat
  | .fails _ => 1
  | .loses   => storeRetries

/-- The mishap to come after `n` calls it could strike. -/
def after (m : Mishap) (n : Nat) : Fault := ⟨n, m.strikes⟩

/-- Nothing is left of the mishap. -/
def past : Fault := ⟨0, 0⟩

end Mishap

/-- **The server, with a mishap.** -/
def serveWith (E : Env) (m : Mishap) : (c : Call) → World × Fault → Resp c × (World × Fault) := faulty m.answer (serve E)

/-- The calls a procedure makes that the mishap could strike. -/
def kvCost (E : Env) (m : Mishap) {α : Type} (p : Api α) (w : World) : Nat := p.cost m.answer (serve E) w

section mishap
variable {E : Env} {m : Mishap} {w : World} {α β : Type}

theorem run_past (p : Api α) (w : World) : p.run (serveWith E m) (w, Mishap.past) =
    ((p.run (serve E) w).1, ((p.run (serve E) w).2, Mishap.past)) := Proc.run_spent p w

theorem run_after {p : Api α} {n : Nat} (h : kvCost E m p w ≤ n) : p.run (serveWith E m) (w, m.after n) =
    ((p.run (serve E) w).1, ((p.run (serve E) w).2, m.after (n - kvCost E m p w))) := by
  cases m with
  | fails err => exact Proc.run_passed h
  | loses => exact Proc.run_passed h

/-! ## What a procedure ends with -/

/-- The procedure returns, with a result, a store and what is left of the mishap as `Q` has them. -/
def Ends (E : Env) (m : Mishap) (p : Api α) (w : World) (f : Fault) (Q : α → World → Fault → Prop) : Prop :=
  ∃ a w' f', p.run (serveWith E m) (w, f) = (some a, (w', f')) ∧ Q a w' f'

namespace Ends

variable {Q : α → World → Fault → Prop} {f : Fault}

theorem ret {a : α} (h : Q a w f) : Ends E m (pure a : Api α) w f Q := ⟨a, w, f, rfl, h⟩

theorem mono {p : Api α} {Q' : α → World → Fault → Prop} (h : Ends E m p w f Q) (hQ : ∀ a w' f', Q a w' f' → Q' a w' f') :
    Ends E m p w f Q' := by
  obtain ⟨a, w', f', hrun, ha⟩ := h
  exact ⟨a, w', f', hrun, hQ a w' f' ha⟩

/-- A part that runs hands over to what follows it. -/
theorem bind {p : Api β} {g : β → Api α} {b : β} {w' : World} {f' : Fault}
    (hrun : p.run (serveWith E m) (w, f) = (some b, (w', f'))) (h : Ends E m (g b) w' f' Q) : Ends E m (p >>= g) w f Q := by
  obtain ⟨a, t, f'', hg, hQ⟩ := h
  exact ⟨a, t, f'', by rw [Proc.run_bind_of _ hrun, hg], hQ⟩

/-- Once the mishap is past, a procedure does what it does without. -/
theorem past {p : Api α} {a : α} {w' : World} (hrun : p.run (serve E) w = (some a, w')) (h : Q a w' Mishap.past) :
    Ends E m p w Mishap.past Q := ⟨a, w', Mishap.past, by rw [run_past, hrun], h⟩

theorem past_bind {p : Api β} {g : β → Api α} {b : β} {w' : World} (hrun : p.run (serve E) w = (some b, w'))
    (h : Ends E m (g b) w' Mishap.past Q) : Ends E m (p >>= g) w Mishap.past Q := .bind (by rw [run_past, hrun]) h

/-- So does a part the mishap lets pass. -/
theorem pass {p : Api β} {g : β → Api α} {b : β} {w' : World} {n : Nat} (hrun : p.run (serve E) w = (some b, w'))
    (hle : kvCost E m p w ≤ n) (h : Ends E m (g b) w' (m.after (n - kvCost E m p w)) Q) :
    Ends E m (p >>= g) w (m.after n) Q := .bind (by rw [run_after hle, hrun]) h

end Ends

/-- Making an issue calls nothing that can be struck. -/
theorem Ends.newIssue {Q : α → World → Fault → Prop} {msg p d q : String} {g : Issue → Api α} {n : Nat}
    (h : Ends E m (g (w.made E msg p d q)) w.draw (m.after n) Q) : Ends E m (newIssue msg p d q >>= g) w (m.after n) Q := by
  have hcost : kvCost E m (Todo.newIssue msg p d q) w = 0 := by cases m <;> rfl
  refine .pass (newIssue_run E w msg p d q) (by omega) ?_
  rw [hcost]
  exact h

/-- **A procedure the mishap strikes returns an error, and has changed nothing.** -/
def Atomic (E : Env) (m : Mishap) (p : Api (Except String α)) (w : World) : Prop :=
  ∀ n < kvCost E m p w, ∃ e, p.run (serveWith E m) (w, m.after n) = (some (.error e), (w, Mishap.past))

/-- **An atomic part** of a procedure is let pass or struck. -/
theorem Ends.part {p : Api (Except String β)} {g : Except String β → Api α} {Q : α → World → Fault → Prop}
    {b : Except String β} {w' : World} {n : Nat} (hp : Atomic E m p w) (hrun : p.run (serve E) w = (some b, w'))
    (hpass : kvCost E m p w ≤ n → Ends E m (g b) w' (m.after (n - kvCost E m p w)) Q)
    (hstruck : n < kvCost E m p w → ∀ e, Ends E m (g (.error e)) w Mishap.past Q) :
    Ends E m (p >>= g) w (m.after n) Q := by
  by_cases hn : n < kvCost E m p w
  · obtain ⟨e, he⟩ := hp n hn
    exact .bind he (hstruck hn e)
  · exact .pass hrun (by omega) (hpass (by omega))

namespace Atomic

theorem of_cost {p : Api (Except String α)} (h : kvCost E m p w = 0) : Atomic E m p w := fun n hn => by
  rw [h] at hn
  cases hn

/-- **Sequencing**: what follows a part that only reads, and hands its error on. -/
theorem bind {p : Api (Except String β)} {g : Except String β → Api (Except String α)} {b : Except String β}
    (hp : Atomic E m p w) (hrun : p.run (serve E) w = (some b, w)) (hg : Atomic E m (g b) w)
    (herr : ∀ e, ∃ e', g (.error e) = pure (.error e')) : Atomic E m (p >>= g) w := by
  intro n hn
  rw [kvCost, Proc.cost_bind_of _ _ hrun] at hn
  by_cases hlt : n < kvCost E m p w
  · obtain ⟨e, he⟩ := hp n hlt
    obtain ⟨e', he'⟩ := herr e
    exact ⟨e', by rw [Proc.run_bind_of _ he, he']; rfl⟩
  · obtain ⟨e, he⟩ := hg (n - kvCost E m p w) (by unfold kvCost at hlt ⊢; omega)
    exact ⟨e, by rw [Proc.run_bind_of _ (by rw [run_after (by omega), hrun]), he]⟩

end Atomic

/-! ## The functions of the store -/

namespace Store

theorem atomic_kvGet (key : String) : Atomic E m (Api.kvGet key) w := by
  intro n hn
  cases m with
  | loses => cases hn
  | fails err =>
    obtain rfl : n = 0 := Nat.lt_one_iff.1 hn
    exact ⟨err, rfl⟩

theorem atomic_read {key : String} {g : Except String (Option Value) → Api (Except String α)}
    (hg : Atomic E m (g (.ok (w.kv key))) w) (herr : ∀ e, ∃ e', g (.error e) = pure (.error e')) :
    Atomic E m (Api.kvGet key >>= g) w := .bind (atomic_kvGet key) rfl hg herr

theorem atomic_saveIssue (i : Issue) : Atomic E m (saveIssue i) w := by
  intro n hn
  cases m with
  | loses => cases hn
  | fails err =>
    obtain rfl : n = 0 := Nat.lt_one_iff.1 hn
    exact ⟨err, rfl⟩

theorem atomic_getIssue (id : String) : Atomic E m (getIssue id) w := by
  refine atomic_read (.of_cost ?_) fun e => ⟨e, rfl⟩
  cases w.kv (issueKey id) <;> rfl

theorem atomic_getAndRemoveIssue (id : String) : Atomic E m (getAndRemoveIssue id) w := by
  cases hi : w.issue id with
  | none =>
    obtain ⟨err, hrun⟩ := getIssue_missing E hi
    exact .bind (atomic_getIssue id) hrun (.of_cost rfl) fun e => ⟨e, rfl⟩
  | some i =>
    refine .bind (atomic_getIssue id) (getIssue_found E hi) ?_ fun e => ⟨e, rfl⟩
    intro n hn
    cases m with
    | loses => cases hn
    | fails err =>
      obtain rfl : n = 0 := Nat.lt_one_iff.1 hn
      exact ⟨err, rfl⟩

/-- Reading a record is one call, deleting it as well is two. -/
theorem cost_getIssue {err : String} (id : String) : kvCost E (.fails err) (getIssue id) w = 1 := by
  have hget : (Api.kvGet (issueKey id)).run (serve E) w = (some (.ok (w.kv (issueKey id))), w) := rfl
  have hone : (Api.kvGet (issueKey id)).cost (Mishap.fails err).answer (serve E) w = 1 := rfl
  rw [kvCost, getIssue, Proc.cost_bind_of _ _ hget, hone]
  cases w.kv (issueKey id) <;> rfl

theorem cost_getAndRemoveIssue {err id : String} {i : Issue} (hi : w.issue id = some i) :
    kvCost E (.fails err) (getAndRemoveIssue id) w = 2 := by
  rw [kvCost, getAndRemoveIssue, Proc.cost_bind_of _ _ (getIssue_found E hi)]
  exact congrArg (· + 1) (cost_getIssue id)

section lists
variable {u : String} {l : ListID}

theorem atomic_legacyIssueRef : Atomic E m (legacyIssueRef u l) w := by
  refine atomic_read (.of_cost ?_) fun e => ⟨e, rfl⟩
  cases w.kv (listKey u l) with
  | none => rfl
  | some value =>
    simp only
    cases unmarshalIDs value <;> rfl

theorem atomic_getList : Atomic E m (getList u l) w := by
  refine atomic_read ?_ fun e => ⟨e, rfl⟩
  cases w.kv (listKey u l) with
  | none => exact .of_cost rfl
  | some value =>
    cases value with
    | refs list => exact .of_cost rfl
    | legacy | issue | text => exact atomic_legacyIssueRef

theorem atomic_getIssueReference (h : w.Listed) (id : String) : Atomic E m (getIssueReference u id l) w := by
  refine atomic_read ?_ fun e => ⟨e, rfl⟩
  have hd := h.decode_eq u l
  cases hk : w.kv (listKey u l) with
  | none => exact .of_cost rfl
  | some value =>
    rw [hk] at hd
    cases value with
    | refs list => exact .of_cost rfl
    | issue | text => cases hd
    | legacy i rest =>
      exact .bind atomic_legacyIssueRef (legacyIssueRef_run E hk) (.of_cost rfl) fun e => ⟨e, rfl⟩

/-- A list update loses one compare-and-set after another. -/
theorem editList_loses {α : Type} (h : w.Listed) {edit : List IssueRef → Edit α} {a : α} {list : List IssueRef}
    (hedit : edit (w.list (listKey u l)) = .save a list) (exhausted : String) : ∀ k,
    (editList u l edit exhausted k).run (serveWith E .loses) (w, ⟨0, k⟩) = (some (.error exhausted), (w, Mishap.past))
  | 0     => rfl
  | k + 1 => by
    have hget : (getList u l).run (serveWith E .loses) (w, ⟨0, k + 1⟩) =
        (some (.ok (w.list (listKey u l), w.kv (listKey u l))), (w, ⟨0, k + 1⟩)) := by
      have hrun := getList_decodes E (h.decode_eq u l)
      have hcost : (getList u l).cost Mishap.loses.answer (serve E) w = 0 :=
        (reads_getList (X := True) u l).cost (fun c hc => by cases c <;> first | rfl | exact hc.elim) w
      have hpass := Proc.run_passed (k := k) (Nat.le_of_eq hcost)
      rw [hrun, hcost] at hpass
      exact hpass
    rw [editList, Proc.run_bind_of _ hget]
    simp only [hedit]
    exact editList_loses h hedit exhausted k

/-- **A list update is atomic.** -/
theorem atomic_editList {α : Type} (h : w.Listed) (edit : List IssueRef → Edit α) (exhausted : String) :
    Atomic E m (editList u l edit exhausted storeRetries) w := by
  refine .bind atomic_getList (getList_decodes E (h.decode_eq u l)) ?_ fun e => ⟨e, rfl⟩
  simp only
  cases hedit : edit (w.list (listKey u l)) with
  | fail e => exact .of_cost rfl
  | panic => exact .of_cost rfl
  | save a list =>
    intro n hn
    have hset : (saveList u l list (w.kv (listKey u l))).run (serve E) w =
        (some (.ok true), w.put (listKey u l) (.refs list)) := by
      simp only [saveList, Api.kvCompareAndSet, Proc.request, Proc.run_call, Proc.run_ret, serve, if_true]
    have hcost : kvCost E m (saveList u l list (w.kv (listKey u l))) w = 1 := by cases m <;> rfl
    rw [kvCost, Proc.cost_bind_of _ _ hset] at hn
    obtain rfl : n = 0 := by
      unfold kvCost at hcost
      rw [hcost] at hn
      exact Nat.lt_one_iff.1 hn
    cases m with
    | fails err => exact ⟨err, rfl⟩
    | loses => exact ⟨exhausted, editList_loses h hedit exhausted 2⟩

end lists

theorem atomic_addReference (h : w.Listed) (u id : String) (l : ListID) (fu fi : String) :
    Atomic E m (addReference u id l fu fi) w := atomic_editList h _ _

theorem atomic_removeReference (h : w.Listed) (u id : String) (l : ListID) : Atomic E m (removeReference u id l) w :=
  atomic_editList h _ _

/-! ## Searching -/

/-- The search of `GetIssueListAndReference`, of the lists given. -/
def searchLists (u id : String) : List ListID → Api (ListID × Option IssueRef × Nat)
  | []      => return (.myList, none, 0)
  | l :: ls => do
    match ← getIssueReference u id l with
    | .ok (ir, n) => return (l, some ir, n)
    | .error _    => searchLists u id ls

theorem getIssueListAndReference_eq (u id : String) :
    getIssueListAndReference u id = searchLists u id [.myList, .outList, .inList] := rfl

/-- What the search answers. -/
def locateIn (w : World) (u id : String) : List ListID → ListID × Option IssueRef × Nat
  | []      => (.myList, none, 0)
  | l :: ls =>
    match w.refOf u id l with
    | .ok (ir, n) => (l, some ir, n)
    | .error _    => locateIn w u id ls

theorem locateIn_eq (w : World) (u id : String) : locateIn w u id [.myList, .outList, .inList] = w.locate u id := rfl

theorem locateIn_of_not_mem {u id : String} : ∀ {ls : List ListID}, (∀ l ∈ ls, id ∉ ids (w.list (listKey u l))) →
    locateIn w u id ls = (.myList, none, 0)
  | [], _      => rfl
  | l :: ls, h => by
    obtain ⟨e, he⟩ := World.refOf_of_not_mem (h l List.mem_cons_self)
    rw [locateIn, he]
    exact locateIn_of_not_mem fun k hk => h k (List.mem_cons_of_mem l hk)

theorem searchLists_run (h : w.Listed) (u id : String) : ∀ ls : List ListID,
    (searchLists u id ls).run (serve E) w = (some (locateIn w u id ls), w)
  | []      => rfl
  | l :: ls => by
    rw [searchLists, Proc.run_bind_of _ (getIssueReference_run E h u id l), locateIn]
    cases w.refOf u id l with
    | ok p => rfl
    | error e => exact searchLists_run h u id ls

/-- **A search that is struck** finds the issue all the same, or takes it for missing: a list that cannot be read counts
as one that does not have it. -/
theorem searchLists_struck (h : w.Listed) {u id : String}
    (hone : ∀ k l, id ∈ ids (w.list (listKey u k)) → id ∈ ids (w.list (listKey u l)) → k = l) :
    ∀ {ls : List ListID} {n : Nat}, ls.Nodup → n < kvCost E m (searchLists u id ls) w → ∃ found,
      (searchLists u id ls).run (serveWith E m) (w, m.after n) = (some found, (w, Mishap.past)) ∧
        (found = locateIn w u id ls ∨ found = (.myList, none, 0))
  | [], _, _, hn       => by cases hn
  | l :: ls, n, hd, hn => by
    have hrun := getIssueReference_run E h u id l
    by_cases hlt : n < kvCost E m (getIssueReference u id l) w
    · obtain ⟨e, he⟩ := atomic_getIssueReference h id n hlt
      have hrest : (searchLists u id ls).run (serveWith E m) (w, Mishap.past) =
          (some (locateIn w u id ls), (w, Mishap.past)) := by rw [run_past, searchLists_run h]
      refine ⟨locateIn w u id ls, by rw [searchLists, Proc.run_bind_of _ he]; exact hrest, ?_⟩
      by_cases hmem : id ∈ ids (w.list (listKey u l))
      · refine .inr (locateIn_of_not_mem fun k hk hm => ?_)
        exact (List.nodup_cons.1 hd).1 (hone k l hm hmem ▸ hk)
      · obtain ⟨e', he'⟩ := World.refOf_of_not_mem hmem
        exact .inl (by rw [locateIn, he'])
    · have hpass : (getIssueReference u id l).run (serveWith E m) (w, m.after n) =
          (some (w.refOf u id l), (w, m.after (n - kvCost E m (getIssueReference u id l) w))) := by
        rw [run_after (by omega), hrun]
      rw [kvCost, searchLists, Proc.cost_bind_of _ _ hrun] at hn
      rw [searchLists, Proc.run_bind_of _ hpass, locateIn]
      unfold kvCost at hlt
      cases hr : w.refOf u id l with
      | ok p =>
        rw [hr] at hn
        exact absurd hn hlt
      | error e =>
        rw [hr] at hn
        refine searchLists_struck h hone (List.nodup_cons.1 hd).2 ?_
        unfold kvCost
        simp only at hn
        omega

end Store

/-- **A search** is let pass, or struck, and then finds the issue or takes it for missing. -/
theorem Ends.search {u id : String} {g : ListID × Option IssueRef × Nat → Api α} {Q : α → World → Fault → Prop} {n : Nat}
    (h : w.Listed) (hone : ∀ k l, id ∈ ids (w.list (listKey u k)) → id ∈ ids (w.list (listKey u l)) → k = l)
    (hpass : kvCost E m (Store.getIssueListAndReference u id) w ≤ n →
      Ends E m (g (w.locate u id)) w (m.after (n - kvCost E m (Store.getIssueListAndReference u id) w)) Q)
    (hstruck : n < kvCost E m (Store.getIssueListAndReference u id) w → ∀ found,
      found = w.locate u id ∨ found = (.myList, none, 0) → Ends E m (g found) w Mishap.past Q) :
    Ends E m (Store.getIssueListAndReference u id >>= g) w (m.after n) Q := by
  by_cases hn : n < kvCost E m (Store.getIssueListAndReference u id) w
  · have hd : [ListID.myList, .outList, .inList].Nodup := by decide
    have hlt := hn
    rw [Store.getIssueListAndReference_eq] at hlt
    obtain ⟨found, hrun, hfound⟩ := Store.searchLists_struck h hone hd hlt
    rw [Store.locateIn_eq] at hfound
    exact .bind hrun (hstruck hn found hfound)
  · exact .pass (Store.getIssueListAndReference_run E h u id) (by omega) (hpass (by omega))

/-- The calls that read a todo and look for it in its user's lists. -/
def lookups (E : Env) (m : Mishap) (w : World) (u id : String) : Nat :=
  kvCost E m (Store.getIssue id) w + kvCost E m (Store.getIssueListAndReference u id) w

/-- **A todo is read and looked for**, and what follows goes on, or the todo is taken for missing. -/
theorem Ends.lookup {u id : String} {i : Issue} {k : Except String Issue → Api α}
    {g : ListID × Option IssueRef × Nat → Api α} {Q : α → World → Fault → Prop} {n : Nat} {a : α} {w' : World}
    (h : w.Listed) (hone : ∀ k l, id ∈ ids (w.list (listKey u k)) → id ∈ ids (w.list (listKey u l)) → k = l)
    (hi : w.issue id = some i) (hk : k (.ok i) = Store.getIssueListAndReference u id >>= g)
    (hrun : (Store.getIssue id >>= k).run (serve E) w = (some a, w'))
    (hpass : lookups E m w u id ≤ n → Ends E m (g (w.locate u id)) w (m.after (n - lookups E m w u id)) Q)
    (hpast : n < lookups E m w u id → Q a w' Mishap.past)
    (herr : n < lookups E m w u id → ∀ e, Ends E m (k (.error e)) w Mishap.past Q)
    (hnone : n < lookups E m w u id → Ends E m (g (.myList, none, 0)) w Mishap.past Q) :
    Ends E m (Store.getIssue id >>= k) w (m.after n) Q := by
  rw [Proc.run_bind_of _ (Store.getIssue_found E hi), hk,
    Proc.run_bind_of _ (Store.getIssueListAndReference_run E h u id)] at hrun
  apply Ends.part (Store.atomic_getIssue id) (Store.getIssue_found E hi)
  · intro h₁
    rw [hk]
    apply Ends.search h hone
    · intro h₂
      rw [Nat.sub_sub]
      exact hpass (by unfold lookups; omega)
    · intro h₂ found hfound
      have hlt : n < lookups E m w u id := by unfold lookups; omega
      rcases hfound with rfl | rfl
      · exact .past hrun (hpast hlt)
      · exact hnone hlt
  · intro h₁ e
    exact herr (by unfold lookups; omega) e

end mishap

end Todo

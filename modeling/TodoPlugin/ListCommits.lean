import TodoPlugin.StoreRace
/-!
# Concurrent changes of lists

Any number of calls of `AddReference`, `RemoveReference`, `PopReference` and `BumpReference` taking turns.  The call
that returns without an error made one compare-and-set that succeeded, its *commit*, and that commit did to the list in
the store what the call does to a list alone; the call that returns an error made none.  The store is then the commits
one after another.
-/
namespace Todo

open Store (ids without Edit)
open Pool (Exec replay)

/-- A call that changes a list. -/
inductive RefOp where
  | addReference (userID issueID : String) (listID : ListID) (foreignUserID foreignIssueID : String)
  | removeReference (userID issueID : String) (listID : ListID)
  | popReference (userID : String) (listID : ListID)
  | bumpReference (userID issueID : String) (listID : ListID)

namespace RefOp

/-- The call, returning the reference it took out if it is a pop. -/
def exec : RefOp → Api (Except String (Option IssueRef))
  | .addReference u id l fu fi => do return (← Store.addReference u id l fu fi).map fun _ => none
  | .removeReference u id l    => do return (← Store.removeReference u id l).map fun _ => none
  | .popReference u l          => do return (← Store.popReference u l).map some
  | .bumpReference u id l      => do return (← Store.bumpReference u id l).map fun _ => none

def userID : RefOp → String
  | .addReference u .. | .removeReference u .. | .popReference u _ | .bumpReference u .. => u

def listID : RefOp → ListID
  | .addReference _ _ l .. | .removeReference _ _ l | .popReference _ l | .bumpReference _ _ l => l

/-- The key of the list it changes. -/
def key (op : RefOp) : String := listKey op.userID op.listID

/-- **What it does to a list alone.** -/
def effect : RefOp → List IssueRef → List IssueRef
  | .addReference _ id _ fu fi, list => list ++ [⟨id, fi, fu⟩]
  | .removeReference _ id _, list    => without id list
  | .popReference _ _, list          => list.tail
  | .bumpReference _ id _, list      =>
    match Store.bumpEdit id list with
    | .save _ newList => newList
    | _               => list

/-- **When it succeeds on a list alone, and what it returns then.** -/
def Applies : RefOp → List IssueRef → Option IssueRef → Prop
  | .addReference _ id _ _ _, list, res => id ∉ ids list ∧ res = none
  | .removeReference _ id _, list, res  => id ∈ ids list ∧ res = none
  | .popReference _ _, list, res        => ∃ r rest, list = r :: rest ∧ res = some r
  | .bumpReference _ _ _, list, res     => list ≠ [] ∧ res = none

/-- What it does to all the lists. -/
def apply (op : RefOp) (lists : String → List IssueRef) : String → List IssueRef :=
  Function.update lists op.key (op.effect (lists op.key))

/-- It adds a reference to this issue to this list. -/
def Adds (op : RefOp) (key id : String) : Prop :=
  ∃ u l fu fi, op = .addReference u id l fu fi ∧ listKey u l = key

/-- A bump permutes the list. -/
theorem effect_bump_perm (u id : String) (l : ListID) (list : List IssueRef) :
    ((RefOp.bumpReference u id l).effect list).Perm list := by
  rcases Store.bumpEdit_perm id list with ⟨-, he⟩ | ⟨newList, he, hp⟩
  · simp only [effect, he, List.Perm.refl]
  · simpa only [effect, he] using hp

theorem nodup_effect {op : RefOp} {list : List IssueRef} {res : Option IssueRef} (h : op.Applies list res)
    (hnd : (ids list).Nodup) : (ids (op.effect list)).Nodup := by
  cases op with
  | addReference u id l fu fi =>
    rw [effect, ids, List.map_append, List.nodup_append]
    refine ⟨hnd, by simp, fun a ha b hb => ?_⟩
    simp only [List.map_cons, List.map_nil, List.mem_singleton] at hb
    rintro rfl
    exact h.1 (hb ▸ ha)
  | removeReference u id l => exact Store.nodup_without hnd
  | popReference u l =>
    obtain ⟨r, rest, rfl, -⟩ := h
    exact (List.nodup_cons.1 hnd).2
  | bumpReference u id l => exact ((effect_bump_perm u id l list).map _).nodup_iff.2 hnd

/-! ## The four calls as one loop -/

/-- The result of an edit, made another. -/
def mapEdit {α β : Type} (f : α → β) : Edit α → Edit β
  | .fail e      => .fail e
  | .panic       => .panic
  | .save a list => .save (f a) list

theorem editList_map {α β : Type} (f : α → β) (u : String) (l : ListID) (edit : List IssueRef → Edit α)
    (exhausted : String) (n : Nat) : (Store.editList u l edit exhausted n >>= fun r => pure (r.map f)) =
      Store.editList u l (fun list => mapEdit f (edit list)) exhausted n := by
  induction n with
  | zero => rfl
  | succ n ih =>
    rw [Store.editList, Store.editList, Proc.bind_assoc]
    congr 1
    funext got
    rcases got with e | ⟨list, old⟩
    · rfl
    · simp only
      cases edit list with
      | fail e => rfl
      | panic => rfl
      | save a newList =>
        simp only [mapEdit]
        rw [Proc.bind_assoc]
        congr 1
        funext saved
        rcases saved with e | ok
        · rfl
        · cases ok with
          | true => rfl
          | false => exact ih

/-- The edit of its loop. -/
def edit : RefOp → List IssueRef → Edit (Option IssueRef)
  | .addReference _ id _ fu fi, list => mapEdit (fun _ => none) (Store.addEdit ⟨id, fi, fu⟩ list)
  | .removeReference _ id _, list    => mapEdit (fun _ => none) (Store.removeEdit id list)
  | .popReference _ _, list          => mapEdit some (Store.popEdit list)
  | .bumpReference _ id _, list      => mapEdit (fun _ => none) (Store.bumpEdit id list)

/-- The error of its loop run out of tries. -/
def exhausted : RefOp → String
  | .addReference .. => "unable to store installation"
  | _                => "unable to store list"

theorem exec_eq (op : RefOp) : op.exec = Store.editList op.userID op.listID op.edit op.exhausted storeRetries := by
  cases op <;> exact editList_map ..

/-- **The edit of a loop is what the call does to a list alone**, on distinct ids. -/
theorem edit_eq (op : RefOp) {list : List IssueRef} (hnd : (ids list).Nodup) :
    (∃ e, op.edit list = .fail e) ∨ ∃ res, op.edit list = .save res (op.effect list) ∧ op.Applies list res := by
  cases op with
  | addReference u id l fu fi =>
    rw [edit, Store.addEdit_eq]
    by_cases hm : id ∈ ids list
    · exact .inl ⟨_, by rw [if_pos hm]; rfl⟩
    · exact .inr ⟨none, by rw [if_neg hm]; rfl, hm, rfl⟩
  | removeReference u id l =>
    rw [edit, Store.removeEdit_eq hnd]
    by_cases hm : id ∈ ids list
    · exact .inr ⟨none, by rw [if_pos hm]; rfl, hm, rfl⟩
    · exact .inl ⟨_, by rw [if_neg hm]; rfl⟩
  | popReference u l =>
    cases list with
    | nil => exact .inl ⟨_, rfl⟩
    | cons r rest => exact .inr ⟨some r, rfl, r, rest, rfl, rfl⟩
  | bumpReference u id l =>
    rcases Store.bumpEdit_perm id list with ⟨-, he⟩ | ⟨newList, he, hp⟩
    · exact .inl ⟨_, by rw [edit, he]; rfl⟩
    · refine .inr ⟨none, by simp only [edit, effect, he]; rfl, ?_, rfl⟩
      rintro rfl
      rw [Store.bumpEdit_nil] at he
      cases he

/-- A change that applies is saved. -/
theorem edit_of_applies {op : RefOp} {list : List IssueRef} {res : Option IssueRef} (hnd : (ids list).Nodup)
    (h : op.Applies list res) : op.edit list = .save res (op.effect list) := by
  cases op with
  | addReference u id l fu fi =>
    obtain ⟨hnew, rfl⟩ := h
    rw [edit, Store.addEdit_eq, if_neg hnew]
    rfl
  | removeReference u id l =>
    obtain ⟨hold, rfl⟩ := h
    rw [edit, Store.removeEdit_eq hnd, if_pos hold]
    rfl
  | popReference u l =>
    obtain ⟨r, rest, rfl, rfl⟩ := h
    rfl
  | bumpReference u id l =>
    obtain ⟨hne, rfl⟩ := h
    rcases Store.bumpEdit_perm id list with ⟨hnil, -⟩ | ⟨newList, he, -⟩
    · exact absurd hnil hne
    · simp only [edit, effect, he]
      rfl

end RefOp

/-! ## Commits -/

/-- A compare-and-set that succeeded. -/
def committed : (c : Call) → Resp c → Bool
  | .kvCompareAndSet _ _ _, .ok done => done
  | _, _                             => false

section pool
variable {ι : Type} [DecidableEq ι] (E : Env) (ops : ι → RefOp)

/-- The commits of a trace, by who made them. -/
def commits (tr : List (Event ι Call Resp)) : List ι :=
  (tr.filter fun e => committed e.call e.resp).map Event.who

/-- The store, and what each call has committed. -/
abbrev CommitState (ι : Type) := { w : World // w.Listed } × (ι → Option (Option IssueRef))

/-- What a call may do: it commits once, and does to its list what it does alone. -/
def commitGuar (i : ι) (c : Call) (r : Resp c) (g g' : CommitState ι) : Prop :=
  g'.1.val = (serve E c g.1.val).2 ∧
  if committed c r then
    g.2 i = none ∧ ∃ res, g'.2 = Function.update g.2 i (some res) ∧
      (ops i).Applies (g.1.val.list (ops i).key) res ∧ g'.1.val.list = (ops i).apply g.1.val.list
  else g'.2 = g.2 ∧ g'.1.val.list = g.1.val.list

/-- What the others may do to a call: anything but commit for it. -/
def commitRely (i : ι) (g g' : CommitState ι) : Prop := g'.2 i = g.2 i

/-- What a call has committed when it returns. -/
def commitPost (i : ι) (res : Except String (Option IssueRef)) (g : CommitState ι) : Prop := g.2 i = res.toOption

/-- One call of the pool. -/
def commitRace (i : ι) : Race (CommitState ι) where
  world g               := g.1.val
  rely                  := commitRely i
  guar                  := commitGuar E ops i
  noted _ _             := True
  refl _                := rfl
  trans _ _ _ h h'      := h'.trans h
  get _ _ _             := ⟨rfl, by simp [committed]⟩
  issue _ _             := trivial
  lost key old new g hk := ⟨by rw [serve, if_neg hk], by simp [committed]⟩

/-- **A call is safe**: it commits at most once, as it would alone, and returns what it has committed. -/
theorem RefOp.safe (i : ι) {g : CommitState ι} (hg : g.2 i = none) :
    (commitRace E ops i).Safe E (commitPost i) (ops i).exec g := by
  have hnone : ∀ {g' : CommitState ι}, commitRely i g g' → g'.2 i = none := fun h => h.trans hg
  have hret : ∀ (g' : CommitState ι) (e : String), commitRely i g g' →
      (commitRace E ops i).Safe E (commitPost i) (pure (.error e)) g' :=
    fun g' e hr => Race.ret fun g'' hr' => Eq.trans hr' (hnone hr)
  rw [RefOp.exec_eq, ← Proc.bind_ret (Store.editList _ _ _ _ _)]
  refine Race.editList (fun g => g.1.property.decodes _ _) (fun _ _ => True) storeRetries g trivial
    (fun _ _ => trivial) (fun _ _ _ _ _ _ => ⟨trivial, fun _ => trivial⟩) (fun g' hr _ => hret g' _ hr)
    (fun g₁ g₂ e hr₁ hr₂ _ _ => hret g₂ e ((commitRace E ops i).trans _ _ _ hr₁ hr₂)) fun g' hr => ?_
  rcases (ops i).edit_eq (g'.1.property.distinct (ops i).userID (ops i).listID) with ⟨e, he⟩ | ⟨res, he, happ⟩
  · rw [show (commitRace E ops i).world g' = g'.1.val from rfl, he]
    exact hret g' e hr
  · rw [show (commitRace E ops i).world g' = g'.1.val from rfl, he]
    have hnd := RefOp.nodup_effect happ (g'.1.property.distinct (ops i).userID (ops i).listID)
    refine ⟨(⟨_, g'.1.property.put_list _ _ hnd⟩, Function.update g'.2 i (some res)), rfl, ⟨?_, ?_⟩,
      Race.ret fun g₂ hr₂ => Eq.trans hr₂ (Function.update_self ..)⟩
    · simp [serve]
    · simp only [committed, if_true]
      refine ⟨hnone hr, res, rfl, happ, ?_⟩
      have hb := congrArg Board.list (World.board_put_list g'.1.val (ops i).userID (ops i).listID
        ((ops i).effect (g'.1.val.list (ops i).key)))
      funext k
      have hk := congrFun hb k
      rw [World.board_list, Board.setList_list, World.board_list] at hk
      rw [RefOp.apply, Function.update_apply]
      exact hk

theorem commit_compat (i j : ι) (c : Call) (r : Resp c) (g g' : CommitState ι) (hij : i ≠ j)
    (h : commitGuar E ops i c r g g') : commitRely j g g' := by
  obtain ⟨-, h⟩ := h
  by_cases hc : committed c r
  · rw [if_pos hc] at h
    obtain ⟨-, res, hup, -⟩ := h
    rw [commitRely, hup, Function.update_of_ne hij.symm]
  · rw [if_neg hc] at h
    rw [commitRely, h.1]

/-! ## What a trace has done -/

section path
variable {E ops} {tr : List (Event ι Call Resp)} {g g' : CommitState ι}

theorem commitPath_store (h : Pool.Path (commitGuar E ops) tr g g') : g'.1.val = replay (serve E) g.1.val tr := by
  induction h with
  | done g => rfl
  | turn he _ ih => rw [ih, he.1]; rfl

/-- A call that has committed commits no more. -/
theorem commitPath_some (h : Pool.Path (commitGuar E ops) tr g g') {i : ι} {res : Option IssueRef}
    (hg : g.2 i = some res) : g'.2 i = some res ∧ ∀ e ∈ tr, e.who = i → committed e.call e.resp = false := by
  induction h with
  | done g => exact ⟨hg, fun e he => by cases he⟩
  | @turn g g₁ g₂ e tr he _ ih =>
    obtain ⟨-, he⟩ := he
    by_cases hc : committed e.call e.resp = true
    · rw [if_pos hc] at he
      obtain ⟨hnone, res', hup, -⟩ := he
      have hne : e.who ≠ i := fun hi => by rw [hi, hg] at hnone; cases hnone
      obtain ⟨h1, h2⟩ := ih (by rw [hup, Function.update_of_ne hne.symm, hg])
      exact ⟨h1, List.forall_mem_cons.2 ⟨fun hi => absurd hi hne, h2⟩⟩
    · rw [if_neg hc] at he
      obtain ⟨h1, h2⟩ := ih (by rw [he.1, hg])
      exact ⟨h1, List.forall_mem_cons.2 ⟨fun _ => by simpa using hc, h2⟩⟩

/-- A call that has committed at the end and not at the start did so at one event. -/
theorem commitPath_none (h : Pool.Path (commitGuar E ops) tr g g') {i : ι} (hg : g.2 i = none) :
    (g'.2 i = none → ∀ e ∈ tr, e.who = i → committed e.call e.resp = false) ∧
    ∀ res, g'.2 i = some res → ∃ pre e post g₁ g₂, tr = pre ++ e :: post ∧ e.who = i ∧
      committed e.call e.resp = true ∧ (∀ f ∈ pre ++ post, f.who = i → committed f.call f.resp = false) ∧
      Pool.Path (commitGuar E ops) pre g g₁ ∧ (ops i).Applies (g₁.1.val.list (ops i).key) res ∧
      g₂.1.val.list = (ops i).apply g₁.1.val.list ∧ Pool.Path (commitGuar E ops) (pre ++ [e]) g g₂ := by
  induction h with
  | done g => exact ⟨fun _ => List.forall_mem_nil _, fun res hres => (nomatch hg.symm.trans hres)⟩
  | @turn g g₁ g' e tr he htr ih =>
    have hstep := he
    obtain ⟨-, he⟩ := he
    by_cases hmine : e.who = i ∧ committed e.call e.resp = true
    · obtain ⟨rfl, hc⟩ := hmine
      rw [if_pos hc] at he
      obtain ⟨-, res', hup, happ, heff⟩ := he
      obtain ⟨hsome, hno⟩ := commitPath_some htr (i := e.who) (by rw [hup, Function.update_self])
      refine ⟨fun hn => (nomatch hsome.symm.trans hn), fun res hres => ?_⟩
      obtain rfl : res' = res := by rw [hsome] at hres; exact Option.some.inj hres
      exact ⟨[], e, tr, g, g₁, rfl, rfl, hc, hno, .done g, happ, heff, .turn hstep (.done g₁)⟩
    · have hg₁ : g₁.2 i = none := by
        by_cases hc : committed e.call e.resp = true
        · rw [if_pos hc] at he
          obtain ⟨-, res', hup, -⟩ := he
          rw [hup, Function.update_of_ne (fun hi => hmine ⟨hi.symm, hc⟩), hg]
        · rw [if_neg hc] at he
          rw [he.1, hg]
      have hno : e.who = i → committed e.call e.resp = false := fun hi => by simpa [hi] using hmine
      obtain ⟨h1, h2⟩ := ih hg₁
      refine ⟨fun hn => List.forall_mem_cons.2 ⟨hno, h1 hn⟩, fun res hres => ?_⟩
      obtain ⟨pre, f, post, g₂, g₃, rfl, hf, hc, hrest, hpre, happ, heff, hpath⟩ := h2 res hres
      exact ⟨e :: pre, f, post, g₂, g₃, rfl, hf, hc, List.forall_mem_cons.2 ⟨hno, hrest⟩, .turn hstep hpre, happ, heff,
        .turn hstep hpath⟩

/-- The lists are the commits one after another. -/
theorem commitPath_lists (h : Pool.Path (commitGuar E ops) tr g g') :
    g'.1.val.list = (commits tr).foldl (fun lists i => (ops i).apply lists) g.1.val.list := by
  induction h with
  | done g => rfl
  | @turn g g₁ g' e tr he _ ih =>
    obtain ⟨-, he⟩ := he
    by_cases hc : committed e.call e.resp = true
    · rw [if_pos hc] at he
      obtain ⟨-, res, -, -, heff⟩ := he
      rw [ih, heff, commits, commits, List.filter_cons_of_pos (by simpa using hc)]
      rfl
    · rw [if_neg hc] at he
      rw [ih, he.2, commits, commits, List.filter_cons_of_neg (by simpa using hc)]

/-- A list that lacks an issue lacks it until it is added. -/
theorem RefOp.not_mem_apply {op : RefOp} {key id : String} {lists : String → List IssueRef}
    (hno : ¬ op.Adds key id) (h : id ∉ ids (lists key)) : id ∉ ids (op.apply lists key) := by
  by_cases hk : key = op.key
  · subst hk
    rw [RefOp.apply, Function.update_self]
    cases op with
    | addReference u id' l fu fi =>
      have hne : id ≠ id' := fun he => hno ⟨u, l, fu, fi, by rw [he], rfl⟩
      simp only [RefOp.effect, ids, List.map_append, List.mem_append, List.map_cons, List.map_nil, List.mem_singleton]
      exact fun hm => hm.elim h hne
    | removeReference u id' l =>
      rw [RefOp.effect, Store.ids_without]
      exact fun hm => h (List.mem_filter.1 hm).1
    | popReference u l => exact fun hm => h (List.mem_of_mem_tail (by rwa [RefOp.effect, ids, List.map_tail] at hm))
    | bumpReference u id' l => exact fun hm => h (((RefOp.effect_bump_perm u id' l _).map _).mem_iff.1 hm)
  · rwa [RefOp.apply, Function.update_of_ne hk]

theorem commitPath_not_mem (h : Pool.Path (commitGuar E ops) tr g g') {key id : String}
    (hno : ∀ e ∈ tr, committed e.call e.resp = true → ¬ (ops e.who).Adds key id)
    (hid : id ∉ ids (g.1.val.list key)) : id ∉ ids (g'.1.val.list key) := by
  induction h with
  | done g => exact hid
  | @turn g g₁ g' e tr he _ ih =>
    obtain ⟨-, he⟩ := he
    refine ih (fun f hf => hno f (List.mem_cons_of_mem _ hf)) ?_
    by_cases hc : committed e.call e.resp = true
    · rw [if_pos hc] at he
      obtain ⟨-, res, -, -, heff⟩ := he
      rw [heff]
      exact RefOp.not_mem_apply (hno e List.mem_cons_self hc) hid
    · rw [if_neg hc] at he
      rwa [he.2]

/-- A pop returns the head of the list it meets, and leaves no reference to its issue there. -/
theorem commitPath_pop {i : ι} {e : Event ι Call Resp} {g₁ g₂ : CommitState ι} {u : String} {l : ListID} {r : IssueRef}
    (he : commitGuar E ops e.who e.call e.resp g₁ g₂) (hc : committed e.call e.resp = true)
    (hpop : ops e.who = .popReference u l) (hpath : Pool.Path (commitGuar E ops) tr g₂ g') (hi : e.who = i)
    (hr : g'.2 i = some (some r)) :
    r.issueID ∈ ids (g₁.1.val.list (listKey u l)) ∧ r.issueID ∉ ids (g₂.1.val.list (listKey u l)) := by
  subst hi
  obtain ⟨-, he⟩ := he
  rw [if_pos hc, hpop] at he
  obtain ⟨-, res, hup, ⟨s, rest, hlist, rfl⟩, heff⟩ := he
  have hs := (commitPath_some hpath (i := e.who) (by rw [hup, Function.update_self])).1
  rw [hr] at hs
  cases hs
  have hlist' : g₁.1.val.list (listKey u l) = r :: rest := hlist
  have hnd := g₁.1.property.distinct u l
  rw [hlist'] at hnd
  refine ⟨by rw [hlist']; exact List.mem_cons_self, ?_⟩
  rw [heff, RefOp.apply, show listKey u l = (RefOp.popReference u l).key from rfl, Function.update_self]
  simp only [RefOp.effect]
  rw [show (RefOp.popReference u l).key = listKey u l from rfl, hlist']
  exact (List.nodup_cons.1 hnd).1

end path

/-! ## The calls together -/

/-- **No update is lost or duplicated.** -/
structure CommitsOnce (w : World) (tr : List (Event ι Call Resp))
    (P : Pool ι Call Resp (Except String (Option IssueRef)) World) : Prop where
  /-- A call that returned without an error committed once, as it does alone on the list in the store. -/
  returned : ∀ i res, P.procs i = .ret (.ok res) → ∃ pre e post, tr = pre ++ e :: post ∧ e.who = i ∧
    committed e.call e.resp = true ∧ (∀ f ∈ pre ++ post, f.who = i → committed f.call f.resp = false) ∧
    (ops i).Applies ((replay (serve E) w pre).list (ops i).key) res ∧
    (replay (serve E) w (pre ++ [e])).list = (ops i).apply (replay (serve E) w pre).list
  /-- A call that returned an error committed nothing. -/
  failed : ∀ i err, P.procs i = .ret (.error err) → ∀ e ∈ tr, e.who = i → committed e.call e.resp = false
  /-- The lists are what the commits make of them, one after another. -/
  lists : P.state.list = (commits tr).foldl (fun lists i => (ops i).apply lists) w.list
  /-- Two pops of one list return one issue only if it was added again in between. -/
  pops : ∀ pre e mid f post u l r s, tr = pre ++ e :: (mid ++ f :: post) → committed e.call e.resp = true →
    committed f.call f.resp = true → ops e.who = .popReference u l → ops f.who = .popReference u l →
    P.procs e.who = .ret (.ok (some r)) → P.procs f.who = .ret (.ok (some s)) → r.issueID = s.issueID →
    ∃ c ∈ mid, committed c.call c.resp = true ∧ (ops c.who).Adds (listKey u l) r.issueID

/-- **Concurrent changes of lists**, of any number of callers in any order of their calls. -/
theorem refOps_commitOnce {w : World} (hw : w.Listed) {tr : List (Event ι Call Resp)}
    {P : Pool ι Call Resp (Except String (Option IssueRef)) World}
    (h : Exec (serve E) ⟨fun i => (ops i).exec, w⟩ tr P) : CommitsOnce E ops w tr P := by
  obtain ⟨g', hs, hpath, hsafe⟩ := h.safe (fun i => (commitRace E ops i).trans) (fun i => (commitRace E ops i).refl)
    (commit_compat E ops) (g := ((⟨w, hw⟩ : { w : World // w.Listed }), fun _ => none)) rfl
    fun i => RefOp.safe E ops i rfl
  have hpost : ∀ i res, P.procs i = .ret res → g'.2 i = res.toOption := fun i res hi => by
    have := hsafe i
    rw [hi] at this
    exact this g' ((commitRace E ops i).refl g')
  refine ⟨fun i res hi => ?_, fun i err hi => ?_, ?_, fun pre e mid f post u l r s htr he hf hpe hpf hre hrf hrs => ?_⟩
  · obtain ⟨pre, e, post, g₁, g₂, rfl, hei, hc, hno, hpre, happ, heff, hpre'⟩ :=
      (commitPath_none hpath (i := i) rfl).2 res (hpost i _ hi)
    refine ⟨pre, e, post, rfl, hei, hc, hno, ?_, ?_⟩
    · rw [← commitPath_store hpre]
      exact happ
    · rw [← commitPath_store hpre, ← commitPath_store hpre']
      exact heff
  · exact (commitPath_none hpath (i := i) rfl).1 (hpost i _ hi)
  · rw [hs]
    exact commitPath_lists hpath
  · subst htr
    obtain ⟨g₁, -, hpath⟩ := Pool.Path.append_iff.1 hpath
    cases hpath with
    | turn hge hpath =>
      have hafter := hpath
      obtain ⟨g₃, hmid, hpath⟩ := Pool.Path.append_iff.1 hpath
      cases hpath with
      | turn hgf hpath =>
        have hout := (commitPath_pop hge he hpe hafter rfl (hpost _ _ hre)).2
        have hin := (commitPath_pop hgf hf hpf hpath rfl (hpost _ _ hrf)).1
        refine Classical.byContradiction fun hnone => commitPath_not_mem hmid (fun c hc hcc ha => ?_) hout (hrs ▸ hin)
        exact hnone ⟨c, hc, hcc, ha⟩

end pool

/-- Two calls adding to one list, turn by turn: the second compare-and-set fails, and is tried again. -/
theorem addReference_commitOnce_sample :
    CommitsOnce Env.sample (fun b : Bool => RefOp.addReference "ann" (if b then "x" else "xx") .myList "" "")
      World.empty
      (Pool.play (serve Env.sample)
        ⟨fun b : Bool => (RefOp.addReference "ann" (if b then "x" else "xx") .myList "" "").exec, World.empty⟩
        [true, false, true, false, false, false]).1
      (Pool.play (serve Env.sample)
        ⟨fun b : Bool => (RefOp.addReference "ann" (if b then "x" else "xx") .myList "" "").exec, World.empty⟩
        [true, false, true, false, false, false]).2 :=
  refOps_commitOnce Env.sample _ World.sound_empty.toListed (Pool.play_exec ..)

end Todo

import TodoPlugin.ListCommits
/-!
# Lists in the legacy encoding

Older versions stored a list as an array of issue ids.  Such a list answers every call as the list of references does
that has these issues and no other sides, and the first call that saves it saves it as references.
-/
namespace Todo

open Store (ids)

/-- A call of the store on one list. -/
inductive ListCall where
  | addReference (issueID foreignUserID foreignIssueID : String)
  | removeReference (issueID : String)
  | popReference
  | bumpReference (issueID : String)
  | getIssueReference (issueID : String)
  | getList

/-- What a call returns. -/
inductive ListAnswer where
  | changed (result : Except String (Option IssueRef))
  | found (result : Except String (IssueRef × Nat))
  | listed (result : Except String (List IssueRef))

namespace ListCall

variable (u : String) (l : ListID)

/-- The change a call makes, if it makes one. -/
def op : ListCall → Option RefOp
  | .addReference id fu fi => some (.addReference u id l fu fi)
  | .removeReference id    => some (.removeReference u id l)
  | .popReference          => some (.popReference u l)
  | .bumpReference id      => some (.bumpReference u id l)
  | .getIssueReference _   => none
  | .getList               => none

def exec : ListCall → Api ListAnswer
  | .addReference id fu fi => do return .changed (← (RefOp.addReference u id l fu fi).exec)
  | .removeReference id    => do return .changed (← (RefOp.removeReference u id l).exec)
  | .popReference          => do return .changed (← (RefOp.popReference u l).exec)
  | .bumpReference id      => do return .changed (← (RefOp.bumpReference u id l).exec)
  | .getIssueReference id  => do return .found (← Store.getIssueReference u id l)
  | .getList               => do return .listed (← Store.getRefs u l)

/-- The call saves the list: it is a change that succeeds on it. -/
def Writes (list : List IssueRef) (c : ListCall) : Prop := ∃ op res, c.op u l = some op ∧ op.Applies list res

/-- The list it saves. -/
def effect (list : List IssueRef) (c : ListCall) : List IssueRef :=
  match c.op u l with
  | some op => op.effect list
  | none    => list

/-- Calls made one after another: what each returns, with the list then in the store, and the store they leave. -/
def trace (E : Env) : List ListCall → World → List (Option ListAnswer × List IssueRef) × World
  | [], w      => ([], w)
  | c :: cs, w =>
    let (a, w') := (c.exec u l).run (serve E) w
    let (as, w'') := trace E cs w'
    ((a, w'.list (listKey u l)) :: as, w'')

end ListCall

/-- There is a value under the key, and it is the list in one of the encodings. -/
def World.Holds (w : World) (key : String) (list : List IssueRef) : Prop :=
  w.kv key ≠ none ∧ decodeList (w.kv key) = some list

namespace World

variable {w : World} {key : String}

theorem holds_legacy (w : World) (key id : String) (rest : List String) :
    (w.put key (.legacy id rest)).Holds key ((id :: rest).map legacyRef) := by
  rw [Holds, put_kv_self]
  exact ⟨Option.some_ne_none _, rfl⟩

theorem holds_refs (w : World) (key : String) (list : List IssueRef) : (w.put key (.refs list)).Holds key list := by
  rw [Holds, put_kv_self]
  exact ⟨Option.some_ne_none _, rfl⟩

theorem Holds.list {list : List IssueRef} (h : w.Holds key list) : w.list key = list := by
  rw [World.list, h.2, Option.getD_some]

end World

namespace ListCall

variable {u : String} {l : ListID} {list : List IssueRef}

/-- Made on a list, a call answers the same in either encoding, and saves the list if it writes. -/
def Does (E : Env) (u : String) (l : ListID) (list : List IssueRef) (c : ListCall) (a : ListAnswer) : Prop :=
  ¬ c.Writes u l list ∧ (∀ w : World, w.Holds (listKey u l) list → (c.exec u l).run (serve E) w = (some a, w)) ∨
    c.Writes u l list ∧ ∀ w : World, w.Holds (listKey u l) list →
      (c.exec u l).run (serve E) w = (some a, w.put (listKey u l) (.refs (c.effect u l list)))

theorem does_of_op (E : Env) {c : ListCall} {op : RefOp} (hnd : (ids list).Nodup) (hu : op.userID = u)
    (hl : op.listID = l) (hop : c.op u l = some op)
    (hexec : c.exec u l = (op.exec >>= fun res => pure (.changed res))) : ∃ a, c.Does E u l list a := by
  rcases op.edit_eq hnd with ⟨e, he⟩ | ⟨res, he, happ⟩
  · refine ⟨.changed (.error e), .inl ⟨?_, fun w hw => ?_⟩⟩
    · rintro ⟨op', res, hop', happ⟩
      obtain rfl : op = op' := Option.some.inj (hop.symm.trans hop')
      cases he.symm.trans (RefOp.edit_of_applies hnd happ)
    · have hrun : op.exec.run (serve E) w = (some (.error e), w) := by
        rw [RefOp.exec_eq, hu, hl, storeRetries, Store.editList_decodes E hw.2, he]
      rw [hexec, Proc.run_bind_of _ hrun]
      rfl
  · refine ⟨.changed (.ok res), .inr ⟨⟨op, res, hop, happ⟩, fun w hw => ?_⟩⟩
    have hrun : op.exec.run (serve E) w = (some (.ok res), w.put (listKey u l) (.refs (op.effect list))) := by
      rw [RefOp.exec_eq, hu, hl, storeRetries, Store.editList_decodes E hw.2, he]
    rw [hexec, Proc.run_bind_of _ hrun, effect, hop]
    rfl

/-- **What a call does depends on the list alone**, and not on its encoding. -/
theorem exec_does (E : Env) (u : String) (l : ListID) (c : ListCall) (hnd : (ids list).Nodup) :
    ∃ a, c.Does E u l list a := by
  cases c with
  | addReference id fu fi => exact does_of_op E hnd rfl rfl rfl rfl
  | removeReference id => exact does_of_op E hnd rfl rfl rfl rfl
  | popReference => exact does_of_op E hnd rfl rfl rfl rfl
  | bumpReference id => exact does_of_op E hnd rfl rfl rfl rfl
  | getIssueReference id =>
    refine ⟨.found (Store.lookupRef id list), .inl ⟨?_, fun w hw => ?_⟩⟩
    · rintro ⟨op, res, hop, -⟩
      cases hop
    · rw [exec, Proc.run_bind_of _ (Store.getIssueReference_decodes E hw.2 id), World.refOf, if_neg hw.1, hw.list]
      rfl
  | getList =>
    refine ⟨.listed (.ok list), .inl ⟨?_, fun w hw => ?_⟩⟩
    · rintro ⟨op, res, hop, -⟩
      cases hop
    · rw [exec, Proc.run_bind_of _ (Store.getRefs_decodes E hw.2)]
      rfl

theorem nodup_effect {c : ListCall} (hw : c.Writes u l list) (hnd : (ids list).Nodup) :
    (ids (c.effect u l list)).Nodup := by
  obtain ⟨op, res, hop, happ⟩ := hw
  rw [effect, hop]
  exact RefOp.nodup_effect happ hnd

/-- **Two stores with one list answer alike.** -/
theorem trace_alike (E : Env) : ∀ (calls : List ListCall) {list : List IssueRef} {w₁ w₂ : World},
    (ids list).Nodup → w₁.Holds (listKey u l) list → w₂.Holds (listKey u l) list →
      (trace u l E calls w₁).1 = (trace u l E calls w₂).1
  | [], _, _, _, _, _, _                => rfl
  | c :: calls, list, w₁, w₂, hnd, h₁, h₂ => by
    obtain ⟨a, ⟨-, hrun⟩ | ⟨hw, hrun⟩⟩ := exec_does E u l c hnd
    · simp only [trace, hrun w₁ h₁, hrun w₂ h₂, h₁.list, h₂.list]
      rw [trace_alike E calls hnd h₁ h₂]
    · have h₁' := World.holds_refs w₁ (listKey u l) (c.effect u l list)
      have h₂' := World.holds_refs w₂ (listKey u l) (c.effect u l list)
      simp only [trace, hrun w₁ h₁, hrun w₂ h₂, h₁'.list, h₂'.list]
      rw [trace_alike E calls (nodup_effect hw hnd) h₁' h₂']

theorem trace_append (E : Env) (c : ListCall) : ∀ (cs : List ListCall) (w : World),
    (trace u l E (cs ++ [c]) w).2 = ((c.exec u l).run (serve E) (trace u l E cs w).2).2
  | [], _      => rfl
  | _ :: cs, _ => trace_append E c cs _

/-- What only reads or fails leaves the store. -/
theorem trace_idle (E : Env) {w : World} (hnd : (ids list).Nodup) (h : w.Holds (listKey u l) list) :
    ∀ cs : List ListCall, (∀ c ∈ cs, ¬ c.Writes u l list) → (trace u l E cs w).2 = w
  | [], _       => rfl
  | c :: cs, hc => by
    obtain ⟨a, ⟨-, hrun⟩ | ⟨hw, -⟩⟩ := exec_does E u l c hnd
    · simp only [trace, hrun w h]
      exact trace_idle E hnd h cs fun d hd => hc d (List.mem_cons_of_mem _ hd)
    · exact absurd hw (hc c List.mem_cons_self)

end ListCall

theorem ids_legacy (list : List String) : ids (list.map legacyRef) = list := by
  simp [ids, legacyRef, Function.comp_def]

/-- **A legacy list behaves like the migrated list**: it has the ids stored, in order, every sequence of calls returns
the same and finds the same list after each, and the first call that writes saves the list in the new encoding. -/
theorem legacy_migrates (E : Env) (w : World) (u : String) (l : ListID) (id : String) (rest : List String)
    (hd : (id :: rest).Nodup) (calls : List ListCall) :
    ids ((w.put (listKey u l) (.legacy id rest)).list (listKey u l)) = id :: rest ∧
    (ListCall.trace u l E calls (w.put (listKey u l) (.legacy id rest))).1 =
      (ListCall.trace u l E calls (w.put (listKey u l) (.refs ((id :: rest).map legacyRef)))).1 ∧
    ∀ cs c cs', calls = cs ++ c :: cs' → (∀ d ∈ cs, ¬ d.Writes u l ((id :: rest).map legacyRef)) →
      (ListCall.trace u l E cs (w.put (listKey u l) (.legacy id rest))).2 = w.put (listKey u l) (.legacy id rest) ∧
      (c.Writes u l ((id :: rest).map legacyRef) →
        (ListCall.trace u l E (cs ++ [c]) (w.put (listKey u l) (.legacy id rest))).2 =
          w.put (listKey u l) (.refs (c.effect u l ((id :: rest).map legacyRef)))) := by
  have hnd : (ids ((id :: rest).map legacyRef)).Nodup := by rwa [ids_legacy]
  have hold := World.holds_legacy w (listKey u l) id rest
  refine ⟨by rw [hold.list, ids_legacy], ListCall.trace_alike E calls hnd hold (World.holds_refs ..), ?_⟩
  intro cs c cs' _ hidle
  have hcs := ListCall.trace_idle E hnd hold cs hidle
  refine ⟨hcs, fun hw => ?_⟩
  rw [ListCall.trace_append, hcs]
  obtain ⟨a, ⟨hno, -⟩ | ⟨-, hrun⟩⟩ := ListCall.exec_does E u l c hnd
  · exact absurd hw hno
  · rw [hrun _ hold, World.put_put]

theorem legacy_migrates_bump :
    (ListCall.trace "ann" .myList Env.sample [.bumpReference "b", .getList]
        (World.empty.put (listKey "ann" .myList) (.legacy "a" ["b"]))).1 =
      (ListCall.trace "ann" .myList Env.sample [.bumpReference "b", .getList]
        (World.empty.put (listKey "ann" .myList) (.refs [legacyRef "a", legacyRef "b"]))).1 :=
  (legacy_migrates Env.sample World.empty "ann" .myList "a" ["b"] (by decide) _).2.1

end Todo

import TodoPlugin.Board
/-!
# Paired boards

A todo sent from `u` to `v` is two references that point at each other, one in an Out list of `u`, one in an In list or
(once accepted) a My list of `v`: the counterpart of a reference `r` of `u` is `r.mirror u`, and nothing else.  `Linked`
says that of every reference and that no issue is in two places, `Paired` also that every reference has its record.

Four changes of lists keep a board linked: a todo of one's own comes or goes, a pair comes or goes, the receiver's side
moves from In to My, a list is permuted.  Every operation of the list manager is made of these.
-/
namespace Todo

open Store (ids without)

theorem UserID.val_ne_empty (u : UserID) : u.val ≠ "" := u.isId.1

/-- What the other side of a reference of `u` is. -/
def IssueRef.mirror (u : UserID) (r : IssueRef) : IssueRef := ⟨r.foreignIssueID, r.issueID, u⟩

namespace Board

/-- The references of a user's list. -/
def refs (b : Board) (u : UserID) (l : ListID) : List IssueRef := b.list (listKey u l)

@[simp] theorem refs_setIssue (b : Board) (id : String) (i : Option Issue) (v : UserID) (m : ListID) :
    (b.setIssue id i).refs v m = b.refs v m := rfl

theorem refs_setList (b : Board) (u : UserID) (l : ListID) (list : List IssueRef) (v : UserID) (m : ListID) :
    (b.setList (listKey u l) list).refs v m = if v = u ∧ m = l then list else b.refs v m := by
  simp only [refs, setList_list, listKey_inj]

theorem refs_append (b : Board) (u : UserID) (l : ListID) (s : IssueRef) (v : UserID) (m : ListID) :
    (b.append (listKey u l) s).refs v m = if v = u ∧ m = l then b.refs u l ++ [s] else b.refs v m :=
  refs_setList ..

theorem refs_unlist (b : Board) (u : UserID) (l : ListID) (id : String) (v : UserID) (m : ListID) :
    (b.unlist (listKey u l) id).refs v m = if v = u ∧ m = l then without id (b.refs u l) else b.refs v m :=
  refs_setList ..

theorem mem_refs_append {b : Board} {u v : UserID} {l m : ListID} {r s : IssueRef} :
    r ∈ (b.append (listKey u l) s).refs v m ↔ r ∈ b.refs v m ∨ v = u ∧ m = l ∧ r = s := by
  rw [refs_append]
  by_cases h : v = u ∧ m = l
  · obtain ⟨rfl, rfl⟩ := h
    simp
  · rw [if_neg h]
    exact ⟨.inl, fun hr => hr.resolve_right fun hc => h ⟨hc.1, hc.2.1⟩⟩

theorem mem_refs_append_pair {b : Board} {u v w : UserID} {l l' m : ListID} {r s t : IssueRef} :
    r ∈ ((b.append (listKey u l) s).append (listKey v l') t).refs w m ↔
      r ∈ b.refs w m ∨ (w = u ∧ m = l ∧ r = s) ∨ w = v ∧ m = l' ∧ r = t := by
  rw [mem_refs_append, mem_refs_append, or_assoc]

theorem mem_refs_unlist {b : Board} {u v : UserID} {l m : ListID} {r : IssueRef} {id : String} :
    r ∈ (b.unlist (listKey u l) id).refs v m ↔ r ∈ b.refs v m ∧ ¬ (v = u ∧ m = l ∧ r.issueID = id) := by
  rw [refs_unlist]
  by_cases h : v = u ∧ m = l
  · obtain ⟨rfl, rfl⟩ := h
    simp
  · rw [if_neg h]
    exact ⟨fun hr => ⟨hr, fun hc => h ⟨hc.1, hc.2.1⟩⟩, And.left⟩

theorem unlist_comm (b : Board) (k k' id id' : String) : (b.unlist k id).unlist k' id' = (b.unlist k' id').unlist k id := by
  ext j : 2
  · by_cases h : j = k <;> by_cases h' : j = k' <;> simp_all [without, List.filter_filter, Bool.and_comm]
  · rfl

/-- No list of any user has a reference to the issue. -/
def Absent (b : Board) (id : String) : Prop := ∀ (u : UserID) (l : ListID), id ∉ ids (b.refs u l)

theorem Absent.ne {b : Board} {id : String} (h : b.Absent id) {u : UserID} {l : ListID} {r : IssueRef}
    (hr : r ∈ b.refs u l) : r.issueID ≠ id := fun he => h u l (List.mem_map.2 ⟨r, hr, he⟩)

theorem absent_of_forall {b : Board} {id : String} (h : ∀ u l, ∀ r ∈ b.refs u l, r.issueID ≠ id) : b.Absent id :=
  fun u l hm => by
    obtain ⟨r, hr, he⟩ := List.mem_map.1 hm
    exact h u l r hr he

/-! ## The invariant -/

/-- **No issue is in two places.** -/
structure Apart (b : Board) : Prop where
  distinct : ∀ u l, (ids (b.refs u l)).Nodup
  one      : ∀ {u v l m r s}, r ∈ b.refs u l → s ∈ b.refs v m → r.issueID = s.issueID → u = v ∧ l = m

/-- **Every Out reference is matched** by an In or My reference of its receiver. -/
structure OutLinked (b : Board) : Prop extends Apart b where
  out : ∀ {u r}, r ∈ b.refs u .outList →
    ∃ v l, r.foreignUserID = UserID.val v ∧ l ≠ .outList ∧ r.mirror u ∈ b.refs v l

/-- **Every reference with another side is matched**, Out against In or My. -/
structure Linked (b : Board) : Prop extends OutLinked b where
  inn : ∀ {u r}, r ∈ b.refs u .inList → ∃ v, r.foreignUserID = UserID.val v ∧ r.mirror u ∈ b.refs v .outList
  my  : ∀ {u r}, r ∈ b.refs u .myList → r.foreignUserID = "" ∧ r.foreignIssueID = "" ∨
    ∃ v, r.foreignUserID = UserID.val v ∧ r.mirror u ∈ b.refs v .outList

/-- Every reference has its record. -/
def Recorded (b : Board) : Prop := ∀ (u : UserID) (l : ListID), ∀ r ∈ b.refs u l, ∃ i, b.issue r.issueID = some i

structure OutPaired (b : Board) : Prop extends OutLinked b where
  recorded : b.Recorded

structure Paired (b : Board) : Prop extends Linked b where
  recorded : b.Recorded

theorem Paired.outPaired {b : Board} (h : b.Paired) : b.OutPaired := ⟨h.toOutLinked, h.recorded⟩

theorem paired_empty : (World.board World.empty).Paired where
  distinct _ _    := List.nodup_nil
  one h           := by cases h
  out h           := by cases h
  inn h           := by cases h
  my h            := by cases h
  recorded _ _ _ h := by cases h

variable {b : Board}

/-- Two references to one issue are the same one. -/
theorem Apart.eq (h : b.Apart) {u v : UserID} {l m : ListID} {r s : IssueRef} (hr : r ∈ b.refs u l)
    (hs : s ∈ b.refs v m) (he : r.issueID = s.issueID) : u = v ∧ l = m ∧ r = s := by
  obtain ⟨rfl, rfl⟩ := h.one hr hs he
  exact ⟨rfl, rfl, Store.eq_of_mem_of_issueID (h.distinct u l) hr hs he⟩

/-- A todo without another side is in an owned list. -/
theorem Linked.own (h : b.Linked) {u : UserID} {l : ListID} {r : IssueRef} (hr : r ∈ b.refs u l)
    (hf : r.foreignUserID = "") : l = .myList ∧ r.foreignIssueID = "" := by
  cases l with
  | myList =>
    rcases h.my hr with ⟨-, hi⟩ | ⟨v, hv, -⟩
    · exact ⟨rfl, hi⟩
    · exact absurd (hv.symm.trans hf) v.val_ne_empty
  | inList =>
    obtain ⟨v, hv, -⟩ := h.inn hr
    exact absurd (hv.symm.trans hf) v.val_ne_empty
  | outList =>
    obtain ⟨v, -, hv, -⟩ := h.out hr
    exact absurd (hv.symm.trans hf) v.val_ne_empty

/-- Of a todo and its counterpart one is in an Out list. -/
theorem Linked.other (h : b.Linked) {u : UserID} {l : ListID} {r : IssueRef} (hr : r ∈ b.refs u l)
    (hf : r.foreignUserID ≠ "") :
    ∃ v m, r.foreignUserID = UserID.val v ∧ (l = .outList ↔ m ≠ .outList) ∧ r.mirror u ∈ b.refs v m := by
  cases l with
  | myList =>
    rcases h.my hr with ⟨hu, -⟩ | ⟨v, hv, hm⟩
    · exact absurd hu hf
    · exact ⟨v, .outList, hv, by decide, hm⟩
  | inList =>
    obtain ⟨v, hv, hm⟩ := h.inn hr
    exact ⟨v, .outList, hv, by decide, hm⟩
  | outList =>
    obtain ⟨v, m, hv, hmo, hm⟩ := h.out hr
    exact ⟨v, m, hv, by simp [hmo], hm⟩

/-- Where an issue is listed, taking it out takes it out of the board. -/
theorem Apart.mem_unlist (h : b.Apart) {u : UserID} {l : ListID} {s : IssueRef} (hs : s ∈ b.refs u l) {v : UserID}
    {m : ListID} {r : IssueRef} :
    r ∈ (b.unlist (listKey u l) s.issueID).refs v m ↔ r ∈ b.refs v m ∧ r.issueID ≠ s.issueID := by
  rw [mem_refs_unlist]
  refine and_congr_right fun hr => ⟨fun hn he => hn ?_, fun hn hc => hn hc.2.2⟩
  obtain ⟨rfl, rfl⟩ := h.one hr hs he
  exact ⟨rfl, rfl, he⟩

theorem Apart.unlist (h : b.Apart) (u : UserID) (l : ListID) (id : String) : (b.unlist (listKey u l) id).Apart where
  distinct v m := by
    rw [refs_unlist]
    split
    · exact Store.nodup_without (h.distinct u l)
    · exact h.distinct v m
  one hr hs he := h.one (mem_refs_unlist.1 hr).1 (mem_refs_unlist.1 hs).1 he

theorem Apart.setIssue (h : b.Apart) (id : String) (i : Option Issue) : (b.setIssue id i).Apart := ⟨h.distinct, h.one⟩

theorem Apart.append (h : b.Apart) (u : UserID) (l : ListID) {s : IssueRef} (hs : b.Absent s.issueID) :
    (b.append (listKey u l) s).Apart where
  distinct v m := by
    rw [refs_append]
    split
    · rw [ids, List.map_append, List.nodup_append]
      refine ⟨h.distinct u l, by simp, fun a ha c hc => ?_⟩
      simp only [List.map_cons, List.map_nil, List.mem_singleton] at hc
      rintro rfl
      exact hs u l (hc ▸ ha)
    · exact h.distinct v m
  one hr ht he := by
    rcases mem_refs_append.1 hr with hr' | ⟨rfl, rfl, rfl⟩ <;> rcases mem_refs_append.1 ht with ht' | ⟨rfl, rfl, rfl⟩
    · exact h.one hr' ht' he
    · exact absurd he (hs.ne hr')
    · exact absurd he.symm (hs.ne ht')
    · exact ⟨rfl, rfl⟩

theorem Apart.absent_unlist (h : b.Apart) {u : UserID} {l : ListID} {s : IssueRef} (hs : s ∈ b.refs u l) :
    (b.unlist (listKey u l) s.issueID).Absent s.issueID :=
  absent_of_forall fun _ _ _ hr => ((h.mem_unlist hs).1 hr).2

theorem Absent.unlist {id : String} (h : b.Absent id) (u : UserID) (l : ListID) (id' : String) :
    (b.unlist (listKey u l) id').Absent id :=
  absent_of_forall fun _ _ _ hr => h.ne (mem_refs_unlist.1 hr).1

theorem Absent.append {id : String} (h : b.Absent id) (u : UserID) (l : ListID) {s : IssueRef} (hne : s.issueID ≠ id) :
    (b.append (listKey u l) s).Absent id := absent_of_forall fun v m r hr => by
  rcases mem_refs_append.1 hr with hr | ⟨-, -, rfl⟩
  · exact h.ne hr
  · exact hne

/-! ## What keeps a board linked -/

/-- A new todo of one's own. -/
theorem OutLinked.append_own (h : b.OutLinked) (u : UserID) {x : String} (hx : b.Absent x) :
    (b.append (listKey u .myList) ⟨x, "", ""⟩).OutLinked where
  toApart := h.append u .myList hx
  out hr := by
    rcases mem_refs_append.1 hr with hr | ⟨-, hl, -⟩
    · obtain ⟨v, l, hv, hl, hm⟩ := h.out hr
      exact ⟨v, l, hv, hl, mem_refs_append.2 (.inl hm)⟩
    · cases hl

theorem Linked.append_own (h : b.Linked) (u : UserID) {x : String} (hx : b.Absent x) :
    (b.append (listKey u .myList) ⟨x, "", ""⟩).Linked where
  toOutLinked := h.toOutLinked.append_own u hx
  inn hr := by
    rcases mem_refs_append.1 hr with hr | ⟨-, hl, -⟩
    · obtain ⟨v, hv, hm⟩ := h.inn hr
      exact ⟨v, hv, mem_refs_append.2 (.inl hm)⟩
    · cases hl
  my hr := by
    rcases mem_refs_append.1 hr with hr | ⟨-, -, rfl⟩
    · rcases h.my hr with hown | ⟨v, hv, hm⟩
      · exact .inl hown
      · exact .inr ⟨v, hv, mem_refs_append.2 (.inl hm)⟩
    · exact .inl ⟨rfl, rfl⟩

/-- A new pair. -/
theorem OutLinked.append_pair (h : b.OutLinked) (u v : UserID) {x y : String} (hx : b.Absent x) (hy : b.Absent y)
    (hxy : x ≠ y) : ((b.append (listKey u .outList) ⟨x, y, v⟩).append (listKey v .inList) ⟨y, x, u⟩).OutLinked where
  toApart := (h.append u .outList hx).append v .inList (hy.append u .outList hxy)
  out hr := by
    rcases mem_refs_append_pair.1 hr with hr | ⟨rfl, -, rfl⟩ | ⟨-, hl, -⟩
    · obtain ⟨v', l, hv, hl, hm⟩ := h.out hr
      exact ⟨v', l, hv, hl, mem_refs_append_pair.2 (.inl hm)⟩
    · exact ⟨v, .inList, rfl, by decide, mem_refs_append_pair.2 (.inr (.inr ⟨rfl, rfl, rfl⟩))⟩
    · cases hl

theorem Linked.append_pair (h : b.Linked) (u v : UserID) {x y : String} (hx : b.Absent x) (hy : b.Absent y)
    (hxy : x ≠ y) : ((b.append (listKey u .outList) ⟨x, y, v⟩).append (listKey v .inList) ⟨y, x, u⟩).Linked where
  toOutLinked := h.toOutLinked.append_pair u v hx hy hxy
  inn hr := by
    rcases mem_refs_append_pair.1 hr with hr | ⟨-, hl, -⟩ | ⟨rfl, -, rfl⟩
    · obtain ⟨v', hv, hm⟩ := h.inn hr
      exact ⟨v', hv, mem_refs_append_pair.2 (.inl hm)⟩
    · cases hl
    · exact ⟨u, rfl, mem_refs_append_pair.2 (.inr (.inl ⟨rfl, rfl, rfl⟩))⟩
  my hr := by
    rcases mem_refs_append_pair.1 hr with hr | ⟨-, hl, -⟩ | ⟨-, hl, -⟩
    · rcases h.my hr with hown | ⟨v', hv, hm⟩
      · exact .inl hown
      · exact .inr ⟨v', hv, mem_refs_append_pair.2 (.inl hm)⟩
    · cases hl
    · cases hl

/-- A todo of one's own taken out. -/
theorem OutLinked.unlist_own (h : b.OutLinked) {u : UserID} {s : IssueRef} (hs : s ∈ b.refs u .myList)
    (hown : s.foreignUserID = "") : (b.unlist (listKey u .myList) s.issueID).OutLinked where
  toApart := h.toApart.unlist u .myList s.issueID
  out hr := by
    obtain ⟨hr, hne⟩ := (h.mem_unlist hs).1 hr
    obtain ⟨v, l, hv, hl, hm⟩ := h.out hr
    refine ⟨v, l, hv, hl, (h.mem_unlist hs).2 ⟨hm, fun he => ?_⟩⟩
    -- the counterpart of `r` would be the own todo, which has none
    obtain ⟨-, -, heq⟩ := h.eq hm hs he
    exact UserID.val_ne_empty _ ((congrArg IssueRef.foreignUserID heq).trans hown)

theorem Linked.unlist_own (h : b.Linked) {u : UserID} {s : IssueRef} (hs : s ∈ b.refs u .myList)
    (hown : s.foreignUserID = "") : (b.unlist (listKey u .myList) s.issueID).Linked where
  toOutLinked := h.toOutLinked.unlist_own hs hown
  inn hr := by
    obtain ⟨hr, hne⟩ := (h.mem_unlist hs).1 hr
    obtain ⟨v, hv, hm⟩ := h.inn hr
    refine ⟨v, hv, (h.mem_unlist hs).2 ⟨hm, fun he => ?_⟩⟩
    cases (h.one hm hs he).2
  my hr := by
    obtain ⟨hr, hne⟩ := (h.mem_unlist hs).1 hr
    rcases h.my hr with hown' | ⟨v, hv, hm⟩
    · exact .inl hown'
    · refine .inr ⟨v, hv, (h.mem_unlist hs).2 ⟨hm, fun he => ?_⟩⟩
      cases (h.one hm hs he).2

section pair
variable {u v : UserID} {l : ListID} {x y : String}

/-- The references left when a pair is taken out. -/
theorem Apart.mem_unlist_pair (h : b.Apart) (hx : ⟨x, y, v⟩ ∈ b.refs u .outList) (hy : ⟨y, x, u⟩ ∈ b.refs v l)
    {u' : UserID} {m : ListID} {r : IssueRef} :
    r ∈ ((b.unlist (listKey u .outList) x).unlist (listKey v l) y).refs u' m ↔
      r ∈ b.refs u' m ∧ r.issueID ≠ x ∧ r.issueID ≠ y := by
  rw [mem_refs_unlist, h.mem_unlist hx, and_assoc]
  refine and_congr_right fun hr => and_congr_right fun _ => ⟨fun hn he => hn ?_, fun hn hc => hn hc.2.2⟩
  obtain ⟨rfl, rfl⟩ := h.one hr hy he
  exact ⟨rfl, rfl, he⟩

theorem OutLinked.unlist_pair (h : b.OutLinked) (hx : ⟨x, y, v⟩ ∈ b.refs u .outList) (hy : ⟨y, x, u⟩ ∈ b.refs v l) :
    ((b.unlist (listKey u .outList) x).unlist (listKey v l) y).OutLinked where
  toApart := (h.toApart.unlist u .outList x).unlist v l y
  out hr := by
    obtain ⟨hr, hrx, hry⟩ := (h.mem_unlist_pair hx hy).1 hr
    obtain ⟨v', l', hv, hl', hm⟩ := h.out hr
    refine ⟨v', l', hv, hl', (h.mem_unlist_pair hx hy).2 ⟨hm, fun he => ?_, fun he => ?_⟩⟩
    · exact hl' (h.one hm hx he).2
    · obtain ⟨-, -, heq⟩ := h.eq hm hy he
      exact hrx (congrArg IssueRef.foreignIssueID heq)

theorem Linked.unlist_pair (h : b.Linked) (hl : l ≠ .outList) (hx : ⟨x, y, v⟩ ∈ b.refs u .outList)
    (hy : ⟨y, x, u⟩ ∈ b.refs v l) : ((b.unlist (listKey u .outList) x).unlist (listKey v l) y).Linked where
  toOutLinked := h.toOutLinked.unlist_pair hx hy
  inn hr := by
    obtain ⟨hr, hrx, hry⟩ := (h.mem_unlist_pair hx hy).1 hr
    obtain ⟨v', hv, hm⟩ := h.inn hr
    refine ⟨v', hv, (h.mem_unlist_pair hx hy).2 ⟨hm, fun he => ?_, fun he => ?_⟩⟩
    · obtain ⟨-, -, heq⟩ := h.eq hm hx he
      exact hry (congrArg IssueRef.foreignIssueID heq)
    · exact hl (h.one hm hy he).2.symm
  my hr := by
    obtain ⟨hr, hrx, hry⟩ := (h.mem_unlist_pair hx hy).1 hr
    rcases h.my hr with hown | ⟨v', hv, hm⟩
    · exact .inl hown
    · refine .inr ⟨v', hv, (h.mem_unlist_pair hx hy).2 ⟨hm, fun he => ?_, fun he => ?_⟩⟩
      · obtain ⟨-, -, heq⟩ := h.eq hm hx he
        exact hry (congrArg IssueRef.foreignIssueID heq)
      · exact hl (h.one hm hy he).2.symm

end pair

/-- The references when the receiver's side has moved from In to My. -/
theorem Apart.mem_accept (h : b.Apart) {u : UserID} {s : IssueRef} (hs : s ∈ b.refs u .inList) {v : UserID} {m : ListID}
    {r : IssueRef} : r ∈ ((b.append (listKey u .myList) s).unlist (listKey u .inList) s.issueID).refs v m ↔
      r ∈ b.refs v m ∧ r.issueID ≠ s.issueID ∨ v = u ∧ m = .myList ∧ r = s := by
  rw [mem_refs_unlist, mem_refs_append]
  constructor
  · rintro ⟨hr | hr, hn⟩
    · refine .inl ⟨hr, fun he => hn ?_⟩
      obtain ⟨rfl, rfl⟩ := h.one hr hs he
      exact ⟨rfl, rfl, he⟩
    · exact .inr hr
  · rintro (⟨hr, hne⟩ | ⟨rfl, rfl, rfl⟩)
    · exact ⟨.inl hr, fun hc => hne hc.2.2⟩
    · exact ⟨.inr ⟨rfl, rfl, rfl⟩, fun hc => by cases hc.2.1⟩

theorem OutLinked.accept (h : b.OutLinked) {u : UserID} {s : IssueRef} (hs : s ∈ b.refs u .inList) :
    ((b.append (listKey u .myList) s).unlist (listKey u .inList) s.issueID).OutLinked := by
  refine { toApart := ⟨fun v m => ?_, fun hr hs' he => ?_⟩, out := @fun u' r hr => ?_ }
  · rw [refs_unlist, refs_append, refs_append]
    split
    · rw [if_neg (by simp)]
      exact Store.nodup_without (h.distinct u .inList)
    · split
      · rename_i hm
        rw [ids, List.map_append, List.nodup_append]
        refine ⟨h.distinct u .myList, by simp, fun a ha c hc => ?_⟩
        simp only [List.map_cons, List.map_nil, List.mem_singleton] at hc
        rintro rfl
        obtain ⟨r, hr, he⟩ := List.mem_map.1 ha
        cases (h.one hr hs (he.trans hc)).2
      · exact h.distinct v m
  · rcases (h.mem_accept hs).1 hr with ⟨hr, hne⟩ | ⟨rfl, rfl, rfl⟩ <;>
      rcases (h.mem_accept hs).1 hs' with ⟨hs', hne'⟩ | ⟨rfl, rfl, rfl⟩
    · exact h.one hr hs' he
    · exact absurd he hne
    · exact absurd he.symm hne'
    · exact ⟨rfl, rfl⟩
  · rcases (h.mem_accept hs).1 hr with ⟨hr, hne⟩ | ⟨-, hl, -⟩
    · obtain ⟨v, l, hv, hl, hm⟩ := h.out hr
      by_cases he : (r.mirror u').issueID = s.issueID
      · obtain ⟨rfl, rfl, rfl⟩ := h.eq hm hs he
        exact ⟨v, .myList, hv, by decide, (h.mem_accept hs).2 (.inr ⟨rfl, rfl, rfl⟩)⟩
      · exact ⟨v, l, hv, hl, (h.mem_accept hs).2 (.inl ⟨hm, he⟩)⟩
    · cases hl

/-- The receiver's side moved from In to My. -/
theorem Linked.accept (h : b.Linked) {u : UserID} {s : IssueRef} (hs : s ∈ b.refs u .inList) :
    ((b.append (listKey u .myList) s).unlist (listKey u .inList) s.issueID).Linked := by
  -- the sender's side of `s`, and of any other reference, stays where it was
  have hout : ∀ {v r}, r ∈ b.refs v .outList → r.issueID ≠ s.issueID := fun hr he => by
    cases (h.one hr hs he).2
  refine { toOutLinked := h.toOutLinked.accept hs, inn := fun hr => ?_, my := fun hr => ?_ }
  · rcases (h.mem_accept hs).1 hr with ⟨hr, hne⟩ | ⟨-, hl, -⟩
    · obtain ⟨v, hv, hm⟩ := h.inn hr
      exact ⟨v, hv, (h.mem_accept hs).2 (.inl ⟨hm, hout hm⟩)⟩
    · cases hl
  · rcases (h.mem_accept hs).1 hr with ⟨hr, hne⟩ | ⟨rfl, -, rfl⟩
    · rcases h.my hr with hown | ⟨v, hv, hm⟩
      · exact .inl hown
      · exact .inr ⟨v, hv, (h.mem_accept hs).2 (.inl ⟨hm, hout hm⟩)⟩
    · obtain ⟨v, hv, hm⟩ := h.inn hs
      exact .inr ⟨v, hv, (h.mem_accept hs).2 (.inl ⟨hm, hout hm⟩)⟩

/-- A list permuted. -/
theorem mem_refs_permute {u v : UserID} {l m : ListID} {list : List IssueRef} (hp : list.Perm (b.refs u l))
    {r : IssueRef} : r ∈ (b.setList (listKey u l) list).refs v m ↔ r ∈ b.refs v m := by
  rw [refs_setList]
  split
  · rename_i hc
    obtain ⟨rfl, rfl⟩ := hc
    exact hp.mem_iff
  · rfl

theorem OutLinked.permute (h : b.OutLinked) (u : UserID) (l : ListID) {list : List IssueRef}
    (hp : list.Perm (b.refs u l)) : (b.setList (listKey u l) list).OutLinked := by
  refine { toApart := ⟨fun v m => ?_, fun hr hs he => h.one ((mem_refs_permute hp).1 hr) ((mem_refs_permute hp).1 hs) he⟩,
           out := fun hr => ?_ }
  · rw [refs_setList]
    split
    · exact (hp.map _).nodup_iff.2 (h.distinct u l)
    · exact h.distinct v m
  · obtain ⟨v, l', hv, hl, hm⟩ := h.out ((mem_refs_permute hp).1 hr)
    exact ⟨v, l', hv, hl, (mem_refs_permute hp).2 hm⟩

theorem Linked.permute (h : b.Linked) (u : UserID) (l : ListID) {list : List IssueRef} (hp : list.Perm (b.refs u l)) :
    (b.setList (listKey u l) list).Linked := by
  refine { toOutLinked := h.toOutLinked.permute u l hp, inn := fun hr => ?_, my := fun hr => ?_ }
  · obtain ⟨v, hv, hm⟩ := h.inn ((mem_refs_permute hp).1 hr)
    exact ⟨v, hv, (mem_refs_permute hp).2 hm⟩
  · rcases h.my ((mem_refs_permute hp).1 hr) with hown | ⟨v, hv, hm⟩
    · exact .inl hown
    · exact .inr ⟨v, hv, (mem_refs_permute hp).2 hm⟩

/-- Records do not matter to the links. -/
theorem OutLinked.setIssue (h : b.OutLinked) (id : String) (i : Option Issue) : (b.setIssue id i).OutLinked where
  distinct := h.distinct
  one      := h.one
  out      := h.out

theorem Linked.setIssue (h : b.Linked) (id : String) (i : Option Issue) : (b.setIssue id i).Linked where
  toOutLinked := h.toOutLinked.setIssue id i
  inn         := h.inn
  my          := h.my

end Board
end Todo

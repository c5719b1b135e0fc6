import TodoPlugin.Paired
/-!
# What an operation does to a paired board

`Move b b'` is every change an operation of the list manager makes of a paired board: a todo or a pair comes, goes, is
accepted, bumped, edited, handed on or taken back.  Each keeps the board paired (`Move.paired`) and the two records of a
pair alike (`Move.twins`).
-/
namespace Todo
namespace Board

open Store (ids without)

/-- The texts two issues of a pair share. -/
structure SameText (i j : Issue) : Prop where
  message       : i.message = j.message
  description   : i.description = j.description
  postPermalink : i.postPermalink = j.postPermalink
  postID        : i.postID = j.postID

/-- **Both sides of every Out reference have a record, with the same text.** -/
def Twins (b : Board) : Prop := ∀ (u : UserID), ∀ r ∈ b.refs u .outList,
  ∃ i j, b.issue r.issueID = some i ∧ b.issue r.foreignIssueID = some j ∧ SameText i j

theorem twins_empty : (World.board World.empty).Twins := fun _ _ hr => by cases hr

inductive Move (b : Board) : Board → Prop
  | idle : Move b b
  | add (u : UserID) (i : Issue) (hi : b.issue i.id = none) :
      Move b ((b.setIssue i.id (some i)).append (listKey u .myList) ⟨i.id, "", ""⟩)
  | send (u v : UserID) (i j : Issue) (hi : b.issue i.id = none) (hj : b.issue j.id = none) (hij : i.id ≠ j.id)
      (ht : SameText i j) :
      Move b ((((b.setIssue i.id (some i)).setIssue j.id (some j)).append (listKey u .outList) ⟨i.id, j.id, v⟩).append
        (listKey v .inList) ⟨j.id, i.id, u⟩)
  | accept (u : UserID) (r : IssueRef) (hr : r ∈ b.refs u .inList) :
      Move b ((b.append (listKey u .myList) r).unlist (listKey u .inList) r.issueID)
  | permute (u : UserID) (l : ListID) (list : List IssueRef) (hp : list.Perm (b.refs u l)) :
      Move b (b.setList (listKey u l) list)
  | editOwn (u : UserID) (r : IssueRef) (hr : r ∈ b.refs u .myList) (hown : r.foreignUserID = "") (i : Issue)
      (hi : b.issue r.issueID = some i) (m d : String) : Move b (b.setIssue r.issueID (some (i.retext m d)))
  | editPair (u v : UserID) (l : ListID) (x y : String) (hl : l ≠ .outList) (hx : ⟨x, y, v⟩ ∈ b.refs u .outList)
      (hy : ⟨y, x, u⟩ ∈ b.refs v l) (i j : Issue) (hi : b.issue x = some i) (hj : b.issue y = some j) (m d : String) :
      Move b ((b.setIssue x (some (i.retext m d))).setIssue y (some (j.retext m d)))
  | dropOwn (u : UserID) (r : IssueRef) (hr : r ∈ b.refs u .myList) (hown : r.foreignUserID = "") :
      Move b ((b.unlist (listKey u .myList) r.issueID).setIssue r.issueID none)
  | dropPair (u v : UserID) (l : ListID) (x y : String) (hl : l ≠ .outList) (hx : ⟨x, y, v⟩ ∈ b.refs u .outList)
      (hy : ⟨y, x, u⟩ ∈ b.refs v l) :
      Move b ((((b.unlist (listKey u .outList) x).unlist (listKey v l) y).setIssue x none).setIssue y none)
  | takeBack (u v : UserID) (l : ListID) (x y : String) (hl : l ≠ .outList) (hx : ⟨x, y, v⟩ ∈ b.refs u .outList)
      (hy : ⟨y, x, u⟩ ∈ b.refs v l) :
      Move b ((((b.unlist (listKey u .outList) x).unlist (listKey v l) y).setIssue y none).append (listKey u .myList)
        ⟨x, "", ""⟩)
  | assignOwn (u w : UserID) (r : IssueRef) (hr : r ∈ b.refs u .myList) (hown : r.foreignUserID = "") (i j : Issue)
      (hi : b.issue r.issueID = some i) (hj : b.issue j.id = none) (ht : SameText i j) :
      Move b ((((b.unlist (listKey u .myList) r.issueID).setIssue j.id (some j)).append (listKey u .outList)
        ⟨r.issueID, j.id, w⟩).append (listKey w .inList) ⟨j.id, r.issueID, u⟩)
  | assignPair (u v w : UserID) (l : ListID) (x y : String) (hl : l ≠ .outList) (hx : ⟨x, y, v⟩ ∈ b.refs u .outList)
      (hy : ⟨y, x, u⟩ ∈ b.refs v l) (i j : Issue) (hi : b.issue x = some i) (hj : b.issue j.id = none)
      (ht : SameText i j) :
      Move b ((((((b.unlist (listKey u .outList) x).unlist (listKey v l) y).setIssue y none).setIssue j.id
        (some j)).append (listKey u .outList) ⟨x, j.id, w⟩).append (listKey w .inList) ⟨j.id, x, u⟩)

variable {b : Board}

/-! ## Records -/

theorem Recorded.setIssue_some (h : b.Recorded) (id : String) (i : Issue) : (b.setIssue id (some i)).Recorded :=
  fun u l r hr => by
    obtain ⟨j, hj⟩ := h u l r hr
    by_cases he : r.issueID = id
    · exact ⟨i, by simp [he]⟩
    · exact ⟨j, by simp [he, hj]⟩

theorem Recorded.setIssue_none (h : b.Recorded) {id : String} (ha : b.Absent id) : (b.setIssue id none).Recorded :=
  fun u l r hr => by
    obtain ⟨j, hj⟩ := h u l r hr
    have hr' : r ∈ b.refs u l := hr
    exact ⟨j, by simp [ha.ne hr', hj]⟩

theorem Recorded.unlist (h : b.Recorded) (u : UserID) (l : ListID) (id : String) :
    (b.unlist (listKey u l) id).Recorded := fun v m r hr => h v m r (mem_refs_unlist.1 hr).1

theorem Recorded.append (h : b.Recorded) (u : UserID) (l : ListID) {s : IssueRef} {i : Issue}
    (hi : b.issue s.issueID = some i) : (b.append (listKey u l) s).Recorded := fun v m r hr => by
  rcases mem_refs_append.1 hr with hr | ⟨-, -, rfl⟩
  · exact h v m r hr
  · exact ⟨i, hi⟩

/-- An id without a record is in no list. -/
theorem Recorded.absent (h : b.Recorded) {id : String} (hi : b.issue id = none) : b.Absent id :=
  absent_of_forall fun u l r hr he => by
    obtain ⟨i, hi'⟩ := h u l r hr
    rw [he, hi] at hi'
    cases hi'

theorem ne_of_issue {x y : String} {i : Issue} (hx : b.issue x = some i) (hy : b.issue y = none) : x ≠ y := by
  rintro rfl
  cases hx.symm.trans hy

section pair
variable {u v : UserID} {l : ListID} {x y : String}

theorem Apart.pair_ne (h : b.Apart) (hl : l ≠ .outList) (hx : ⟨x, y, v⟩ ∈ b.refs u .outList)
    (hy : ⟨y, x, u⟩ ∈ b.refs v l) : x ≠ y := fun he => hl (h.one hy hx he.symm).2

theorem Apart.absent_fst (h : b.Apart) (hx : ⟨x, y, v⟩ ∈ b.refs u .outList) (hy : ⟨y, x, u⟩ ∈ b.refs v l) :
    ((b.unlist (listKey u .outList) x).unlist (listKey v l) y).Absent x :=
  absent_of_forall fun _ _ _ hr => ((h.mem_unlist_pair hx hy).1 hr).2.1

theorem Apart.absent_snd (h : b.Apart) (hx : ⟨x, y, v⟩ ∈ b.refs u .outList) (hy : ⟨y, x, u⟩ ∈ b.refs v l) :
    ((b.unlist (listKey u .outList) x).unlist (listKey v l) y).Absent y :=
  absent_of_forall fun _ _ _ hr => ((h.mem_unlist_pair hx hy).1 hr).2.2

end pair

/-! ## Moves keep boards paired -/

theorem Move.linked {b' : Board} (h : b.Linked) (hrec : b.Recorded) (hm : Move b b') : b'.Linked := by
  cases hm with
  | idle => exact h
  | add u i hi => exact (h.setIssue _ _).append_own u (hrec.absent hi)
  | send u v i j hi hj hij ht =>
    exact ((h.setIssue _ _).setIssue _ _).append_pair u v (hrec.absent hi) (hrec.absent hj) hij
  | accept u r hr => exact h.accept hr
  | permute u l list hp => exact h.permute u l hp
  | editOwn u r hr hown i hi m d => exact h.setIssue _ _
  | editPair u v l x y hl hx hy i j hi hj m d => exact (h.setIssue _ _).setIssue _ _
  | dropOwn u r hr hown => exact (h.unlist_own hr hown).setIssue _ _
  | dropPair u v l x y hl hx hy => exact ((h.unlist_pair hl hx hy).setIssue _ _).setIssue _ _
  | takeBack u v l x y hl hx hy =>
    exact ((h.unlist_pair hl hx hy).setIssue _ _).append_own u (h.toApart.absent_fst hx hy)
  | assignOwn u w r hr hown i j hi hj ht =>
    have haj := (hrec.absent hj).unlist u .myList r.issueID
    have hne := ne_of_issue hi hj
    exact ((h.unlist_own hr hown).setIssue _ _).append_pair u w (h.toApart.absent_unlist hr) haj hne
  | assignPair u v w l x y hl hx hy i j hi hj ht =>
    have haj := ((hrec.absent hj).unlist u .outList x).unlist v l y
    have hne := ne_of_issue hi hj
    exact (((h.unlist_pair hl hx hy).setIssue _ _).setIssue _ _).append_pair u w (h.toApart.absent_fst hx hy) haj hne

/-- The same where only the Out references are known to be matched. -/
theorem Move.outLinked {b' : Board} (h : b.OutLinked) (hrec : b.Recorded) (hm : Move b b') : b'.OutLinked := by
  cases hm with
  | idle => exact h
  | add u i hi => exact (h.setIssue _ _).append_own u (hrec.absent hi)
  | send u v i j hi hj hij ht =>
    exact ((h.setIssue _ _).setIssue _ _).append_pair u v (hrec.absent hi) (hrec.absent hj) hij
  | accept u r hr => exact h.accept hr
  | permute u l list hp => exact h.permute u l hp
  | editOwn u r hr hown i hi m d => exact h.setIssue _ _
  | editPair u v l x y hl hx hy i j hi hj m d => exact (h.setIssue _ _).setIssue _ _
  | dropOwn u r hr hown => exact (h.unlist_own hr hown).setIssue _ _
  | dropPair u v l x y hl hx hy => exact ((h.unlist_pair hx hy).setIssue _ _).setIssue _ _
  | takeBack u v l x y hl hx hy =>
    exact ((h.unlist_pair hx hy).setIssue _ _).append_own u (h.toApart.absent_fst hx hy)
  | assignOwn u w r hr hown i j hi hj ht =>
    have haj := (hrec.absent hj).unlist u .myList r.issueID
    have hne := ne_of_issue hi hj
    exact ((h.unlist_own hr hown).setIssue _ _).append_pair u w (h.toApart.absent_unlist hr) haj hne
  | assignPair u v w l x y hl hx hy i j hi hj ht =>
    have haj := ((hrec.absent hj).unlist u .outList x).unlist v l y
    have hne := ne_of_issue hi hj
    exact (((h.unlist_pair hx hy).setIssue _ _).setIssue _ _).append_pair u w (h.toApart.absent_fst hx hy) haj hne

theorem Move.recorded {b' : Board} (h : b.Apart) (hrec : b.Recorded) (hm : Move b b') : b'.Recorded := by
  cases hm with
  | idle => exact hrec
  | add u i hi => exact (hrec.setIssue_some i.id i).append u .myList (i := i) (by simp)
  | send u v i j hi hj hij ht =>
    have hset := ((hrec.setIssue_some i.id i).setIssue_some j.id j).append u .outList (s := ⟨i.id, j.id, v⟩)
      (i := i) (by simp [hij])
    exact hset.append v .inList (i := j) (by simp)
  | accept u r hr =>
    obtain ⟨i, hi⟩ := hrec u .inList r hr
    exact (hrec.append u .myList hi).unlist u .inList _
  | permute u l list hp => exact fun v m r hr => hrec v m r ((mem_refs_permute hp).1 hr)
  | editOwn u r hr hown i hi m d => exact hrec.setIssue_some _ _
  | editPair u v l x y hl hx hy i j hi hj m d => exact (hrec.setIssue_some _ _).setIssue_some _ _
  | dropOwn u r hr hown => exact (hrec.unlist u .myList _).setIssue_none (h.absent_unlist hr)
  | dropPair u v l x y hl hx hy =>
    have hset := ((hrec.unlist u .outList x).unlist v l y).setIssue_none (h.absent_fst hx hy)
    exact hset.setIssue_none (h.absent_snd hx hy)
  | takeBack u v l x y hl hx hy =>
    obtain ⟨i, hi⟩ := hrec u .outList _ hx
    have hxy := h.pair_ne hl hx hy
    have hset := ((hrec.unlist u .outList x).unlist v l y).setIssue_none (h.absent_snd hx hy)
    exact hset.append u .myList (i := i) (by simpa [hxy] using hi)
  | assignOwn u w r hr hown i j hi hj ht =>
    have hne := ne_of_issue hi hj
    have hset := ((hrec.unlist u .myList r.issueID).setIssue_some j.id j).append u .outList
      (s := ⟨r.issueID, j.id, w⟩) (i := i) (by simpa [hne] using hi)
    exact hset.append w .inList (i := j) (by simp)
  | assignPair u v w l x y hl hx hy i j hi hj ht =>
    have hxy := h.pair_ne hl hx hy
    have hne := ne_of_issue hi hj
    have hset := ((((hrec.unlist u .outList x).unlist v l y).setIssue_none (h.absent_snd hx hy)).setIssue_some
      j.id j).append u .outList (s := ⟨x, j.id, w⟩) (i := i) (by simpa [hne, hxy] using hi)
    exact hset.append w .inList (i := j) (by simp)

/-- **Every move keeps the board paired.** -/
theorem Move.paired {b' : Board} (h : b.Paired) (hm : Move b b') : b'.Paired :=
  ⟨hm.linked h.toLinked h.recorded, hm.recorded h.toApart h.recorded⟩

theorem Move.outPaired {b' : Board} (h : b.OutPaired) (hm : Move b b') : b'.OutPaired :=
  ⟨hm.outLinked h.toOutLinked h.recorded, hm.recorded h.toApart h.recorded⟩

/-! ## Texts -/

theorem SameText.retext {i j : Issue} (h : SameText i j) (m d : String) : SameText (i.retext m d) (j.retext m d) :=
  ⟨rfl, rfl, h.postPermalink, h.postID⟩

theorem Twins.unlist (h : b.Twins) (u : UserID) (l : ListID) (id : String) : (b.unlist (listKey u l) id).Twins :=
  fun v r hr => h v r (mem_refs_unlist.1 hr).1

theorem Twins.append (h : b.Twins) (u : UserID) {l : ListID} (hl : l ≠ .outList) (s : IssueRef) :
    (b.append (listKey u l) s).Twins := fun v r hr => by
  rcases mem_refs_append.1 hr with hr | ⟨-, hc, -⟩
  · exact h v r hr
  · exact absurd hc.symm hl

theorem Twins.append_out (h : b.Twins) (u : UserID) {s : IssueRef} {i j : Issue} (hi : b.issue s.issueID = some i)
    (hj : b.issue s.foreignIssueID = some j) (ht : SameText i j) : (b.append (listKey u .outList) s).Twins :=
  fun v r hr => by
    rcases mem_refs_append.1 hr with hr | ⟨-, -, rfl⟩
    · exact h v r hr
    · exact ⟨i, j, hi, hj, ht⟩

/-- A record no pair has may change. -/
theorem Twins.setIssue (h : b.Twins) {id : String} (o : Option Issue)
    (hno : ∀ (u : UserID), ∀ r ∈ b.refs u .outList, r.issueID ≠ id ∧ r.foreignIssueID ≠ id) :
    (b.setIssue id o).Twins := fun u r hr => by
  have hr' : r ∈ b.refs u .outList := hr
  obtain ⟨i, j, hi, hj, ht⟩ := h u r hr'
  obtain ⟨h1, h2⟩ := hno u r hr'
  exact ⟨i, j, by simp [h1, hi], by simp [h2, hj], ht⟩

theorem Twins.setIssue_new (h : b.Twins) {id : String} (o : Option Issue) (hn : b.issue id = none) :
    (b.setIssue id o).Twins := h.setIssue o fun u r hr => by
  obtain ⟨i, j, hi, hj, -⟩ := h u r hr
  refine ⟨fun he => ?_, fun he => ?_⟩
  · rw [he, hn] at hi; cases hi
  · rw [he, hn] at hj; cases hj

/-- An issue in no list is in no pair. -/
theorem Twins.setIssue_absent (h : b.Twins) (hl : b.OutLinked) {id : String} (o : Option Issue) (ha : b.Absent id) :
    (b.setIssue id o).Twins := h.setIssue o fun u r hr => by
  obtain ⟨v, l, -, -, hm⟩ := hl.out hr
  exact ⟨ha.ne hr, ha.ne hm⟩

/-- The own todo is in no pair. -/
theorem Twins.setIssue_own (ht : b.Twins) (h : b.Paired) {u : UserID} {r : IssueRef} (hr : r ∈ b.refs u .myList)
    (hown : r.foreignUserID = "") (o : Option Issue) : (b.setIssue r.issueID o).Twins := by
  apply ht.setIssue
  intro v s hs
  constructor
  · intro he
    cases (h.one hs hr he).2
  · -- nor anybody's counterpart
    intro he
    obtain ⟨w, l, -, -, hm⟩ := h.out hs
    obtain ⟨-, -, heq⟩ := h.toApart.eq hm hr he
    exact UserID.val_ne_empty v ((congrArg IssueRef.foreignUserID heq).trans hown)

/-- An edit of both sides of a pair leaves them alike. -/
theorem Twins.retext_pair (ht : b.Twins) (h : b.Paired) {u v : UserID} {l : ListID} {x y : String} (hl : l ≠ .outList)
    (hx : ⟨x, y, v⟩ ∈ b.refs u .outList) (hy : ⟨y, x, u⟩ ∈ b.refs v l) {i j : Issue} (hi : b.issue x = some i)
    (hj : b.issue y = some j) (m d : String) :
    ((b.setIssue x (some (i.retext m d))).setIssue y (some (j.retext m d))).Twins := by
  have hxy := h.toApart.pair_ne hl hx hy
  intro u' r hr
  have hr' : r ∈ b.refs u' .outList := hr
  obtain ⟨i', j', hi', hj', hij⟩ := ht u' r hr'
  by_cases hrx : r.issueID = x
  · obtain ⟨-, -, rfl⟩ := h.toApart.eq hr' hx hrx
    simp only at hi' hj'
    obtain rfl : i = i' := Option.some.inj (hi.symm.trans hi')
    obtain rfl : j = j' := Option.some.inj (hj.symm.trans hj')
    exact ⟨i.retext m d, j.retext m d, by simp [hxy], by simp, hij.retext m d⟩
  · -- another pair has neither record
    obtain ⟨w, l', -, hl', hm⟩ := h.out hr'
    have h1 : r.issueID ≠ y := fun he => hl (h.one hr' hy he).2.symm
    have h2 : r.foreignIssueID ≠ x := fun he => hl' (h.one hm hx he).2
    have h3 : r.foreignIssueID ≠ y := fun he => by
      obtain ⟨-, -, heq⟩ := h.toApart.eq hm hy he
      exact hrx (congrArg IssueRef.foreignIssueID heq)
    exact ⟨i', j', by simp [h1, hrx, hi'], by simp [h2, h3, hj'], hij⟩

/-- **Every move keeps the two records of a pair alike.** -/
theorem Move.twins {b' : Board} (h : b.Paired) (ht : b.Twins) (hm : Move b b') : b'.Twins := by
  cases hm with
  | idle => exact ht
  | add u i hi => exact (ht.setIssue_new (some i) hi).append u (by decide) _
  | send u v i j hi hj hij hij' =>
    have hj' : (b.setIssue i.id (some i)).issue j.id = none := by simp [hij.symm, hj]
    have hset := (ht.setIssue_new (some i) hi).setIssue_new (some j) hj'
    exact (hset.append_out u (s := ⟨i.id, j.id, v⟩) (by simp [hij]) (by simp) hij').append v (by decide) _
  | accept u r hr => exact (ht.append u (by decide) r).unlist u .inList _
  | permute u l list hp => exact fun v r hr => ht v r ((mem_refs_permute hp).1 hr)
  | editOwn u r hr hown i hi m d => exact ht.setIssue_own h hr hown _
  | editPair u v l x y hl hx hy i j hi hj m d => exact ht.retext_pair h hl hx hy hi hj m d
  | dropOwn u r hr hown =>
    exact (ht.unlist u .myList _).setIssue_absent (h.toLinked.unlist_own hr hown).toOutLinked none
      (h.toApart.absent_unlist hr)
  | dropPair u v l x y hl hx hy =>
    have hlink := h.toLinked.unlist_pair hl hx hy
    have h1 := ((ht.unlist u .outList x).unlist v l y).setIssue_absent hlink.toOutLinked none
      (h.toApart.absent_fst hx hy)
    exact h1.setIssue_absent (hlink.setIssue _ _).toOutLinked none (h.toApart.absent_snd hx hy)
  | takeBack u v l x y hl hx hy =>
    have hlink := h.toLinked.unlist_pair hl hx hy
    have h1 := ((ht.unlist u .outList x).unlist v l y).setIssue_absent hlink.toOutLinked none
      (h.toApart.absent_snd hx hy)
    exact h1.append u (by decide) _
  | assignOwn u w r hr hown i j hi hj hij =>
    have hne := ne_of_issue hi hj
    have h1 := (ht.unlist u .myList r.issueID).setIssue_new (some j) hj
    exact (h1.append_out u (s := ⟨r.issueID, j.id, w⟩) (i := i) (j := j) (by simpa [hne] using hi) (by simp)
      hij).append w (by decide) _
  | assignPair u v w l x y hl hx hy i j hi hj hij =>
    have hxy := h.toApart.pair_ne hl hx hy
    have hne := ne_of_issue hi hj
    have hlink := h.toLinked.unlist_pair hl hx hy
    have h1 := ((ht.unlist u .outList x).unlist v l y).setIssue_absent hlink.toOutLinked none
      (h.toApart.absent_snd hx hy)
    have hj' : ((((b.unlist (listKey u .outList) x).unlist (listKey v l) y)).setIssue y none).issue j.id = none := by
      simp only [setIssue_issue, unlist_issue, hj, ite_self]
    have h2 := h1.setIssue_new (some j) hj'
    exact (h2.append_out u (s := ⟨x, j.id, w⟩) (i := i) (j := j) (by simpa [hne, hxy] using hi) (by simp)
      hij).append w (by decide) _

end Board
end Todo

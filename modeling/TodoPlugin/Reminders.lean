import TodoPlugin.Lib.Histories
import TodoPlugin.Quiet
import TodoPlugin.ListRuns
/-!
# Daily reminders

`handleLists` reads when the user was last reminded, decides, posts, and only then writes the time down, with a plain
set: two requests may decide on one and the same time.  Here any number of requests of one user take turns, whatever the
store was before them, with a clock that does not go back.  A second reminder of a day is one of a request that has read a
time before the first was posted (`UpToDate` says there is none such), and no request does as long as none reads the time
while another is between reading it and writing it (`Exclusive`).
-/
namespace Todo

open Proc (Only)
open Pool (Exec own replay)

/-! ## Dates -/

theorem yoe_bounds {doe : Int} (h0 : 0 ≤ doe) (h1 : doe < 146097) :
    0 ≤ (doe - doe / 1460 + doe / 36524 - doe / 146096) / 365 ∧
      (doe - doe / 1460 + doe / 36524 - doe / 146096) / 365 < 400 := by
  constructor <;> omega

theorem doy_bounds {doe yoe : Int} (h0 : 0 ≤ doe) (h1 : doe < 146097)
    (h : yoe = (doe - doe / 1460 + doe / 36524 - doe / 146096) / 365) :
    0 ≤ doe - (365 * yoe + yoe / 4 - yoe / 100) ∧ doe - (365 * yoe + yoe / 4 - yoe / 100) ≤ 365 := by
  have hyoe := yoe_bounds h0 h1
  rw [← h] at hyoe
  by_cases hlast : doe = 146096
  · subst hlast
    constructor <;> omega
  -- the four-year and the hundred-year cycles passed by then, from the day and from the year
  have h146096 : doe / 146096 = 0 := by omega
  have hfirst : 100 * (doe / 36524) ≤ yoe := by omega
  have hcentury : yoe / 100 ≤ doe / 36524 := by omega
  have hleap : yoe / 4 ≤ doe / 1460 := by
    by_contra hlt
    omega
  have hleap' : doe / 1460 ≤ yoe / 4 + 1 := by
    by_contra hlt
    omega
  constructor <;> omega

/-- **Two days have two dates.** -/
theorem civilDate_inj {d d' : Int} (h : civilDate d = civilDate d') : d = d' := by
  unfold civilDate at h
  simp only [Prod.mk.injEq] at h
  generalize hdoe : (d + 719468) % 146097 = doe at h
  generalize hdoe' : (d' + 719468) % 146097 = doe' at h
  have hrange : 0 ≤ doe ∧ doe < 146097 := by omega
  have hrange' : 0 ≤ doe' ∧ doe' < 146097 := by omega
  have hyoe := yoe_bounds hrange.1 hrange.2
  have hyoe' := yoe_bounds hrange'.1 hrange'.2
  have hdoy := doy_bounds hrange.1 hrange.2 rfl
  have hdoy' := doy_bounds hrange'.1 hrange'.2 rfl
  generalize (doe - doe / 1460 + doe / 36524 - doe / 146096) / 365 = yoe at h hyoe hdoy
  generalize (doe' - doe' / 1460 + doe' / 36524 - doe' / 146096) / 365 = yoe' at h hyoe' hdoy'
  obtain ⟨doy, hd⟩ : ∃ doy, doe - (365 * yoe + yoe / 4 - yoe / 100) = doy := ⟨_, rfl⟩
  obtain ⟨doy', hd'⟩ : ∃ doy, doe' - (365 * yoe' + yoe' / 4 - yoe' / 100) = doy := ⟨_, rfl⟩
  rw [hd, hd'] at h
  rw [hd] at hdoy
  rw [hd'] at hdoy'
  obtain ⟨hyear, hmonth, hday⟩ := h
  have hmp : (5 * doy + 2) / 153 = (5 * doy' + 2) / 153 := by
    split at hmonth <;> split at hmonth <;> omega
  rw [hmp] at hday hyear
  have hdoy_eq : doy = doy' := by omega
  have hyear' : yoe + (d + 719468) / 146097 * 400 = yoe' + (d' + 719468) / 146097 * 400 := by omega
  have hyoe_eq : yoe = yoe' := by omega
  subst hyoe_eq
  omega

/-- The date `handleLists` gives a time in milliseconds. -/
def dateOf (zone time : Int) : Int × Int × Int := localDate zone (time.tdiv 1000)

/-- **What is due falls on a later date** than anything up to the last reminder time. -/
theorem reminderDue_date {zone now last : Int} (h : reminderDue zone now last = true) {before after : Int}
    (hb : before ≤ last) (ha : now ≤ after) : dateOf zone before ≠ dateOf zone after := by
  unfold reminderDue at h
  simp only [Bool.and_eq_true, decide_eq_true_eq] at h
  obtain ⟨hhour, hdate⟩ := h
  have hb' : before.tdiv 1000 ≤ last.tdiv 1000 := Int.tdiv_le_tdiv (by decide) hb
  have ha' : now.tdiv 1000 ≤ after.tdiv 1000 := Int.tdiv_le_tdiv (by decide) ha
  have hday : (now.tdiv 1000 + zone) / 86400 ≠ (last.tdiv 1000 + zone) / 86400 := fun he =>
    hdate (congrArg civilDate he)
  intro he
  have := civilDate_inj he
  omega

/-! ## The time stored -/

/-- The time `getLastReminderTimeForUser` makes of what is stored. -/
def storedTime : Option Value → Except String Int
  | none              => .ok 0
  | some (.text text) =>
    match parseInt text with
    | (_, some err)      => .error err
    | (reminderAt, none) => .ok reminderAt
  | some _            => .error "strconv.ParseInt: invalid syntax"

theorem getLastReminderTimeForUser_eq (userID : String) :
    getLastReminderTimeForUser userID = (Api.kvGet (reminderKey userID) >>= fun res =>
      match res with
      | .error appErr => pure (.error appErr)
      | .ok value     => pure (storedTime value)) := by
  unfold getLastReminderTimeForUser
  congr 1
  funext res
  rcases res with _ | _ | value
  · rfl
  · rfl
  · cases value with
    | text text =>
      rcases htime : parseInt text with ⟨reminderAt, _ | err⟩ <;> simp only [storedTime, htime]
    | refs | legacy | issue => rfl

/-- The digits written are the digits read. -/
theorem parseDigits_append : ∀ (n : Nat) (cs : List Char) (c : Char), parseDigits n (cs ++ [c]) =
    (parseDigits n cs).bind (fun m => if c.isDigit then some (10 * m + (c.toNat - '0'.toNat)) else none)
  | n, [], c       => rfl
  | n, d :: cs, c => by
    rw [List.cons_append, parseDigits, parseDigits]
    split
    · exact parseDigits_append _ cs c
    · rfl

theorem parseDigits_toDigits (n : Nat) : parseDigits 0 (Nat.toDigits 10 n) = some n := by
  induction n using Nat.strongRecOn with
  | _ n ih =>
    have hlast : ∀ m < 10, ∀ k, (some k).bind (fun m' => if (Nat.digitChar m).isDigit
        then some (10 * m' + ((Nat.digitChar m).toNat - '0'.toNat)) else none) = some (10 * k + m) := by
      intro m hm k
      have hdigit : (Nat.digitChar m).isDigit = true := by rw [Nat.isDigit_digitChar]; exact decide_eq_true hm
      rw [Option.bind_some, if_pos hdigit, Nat.toNat_digitChar_of_lt_ten hm]
      simp
    by_cases hn : n < 10
    · rw [Nat.toDigits_of_lt_base hn]
      simpa using (parseDigits_append 0 [] (Nat.digitChar n)).trans (hlast n hn 0)
    · rw [Nat.toDigits_of_base_le (by decide) (by omega), parseDigits_append, ih (n / 10) (by omega),
        hlast (n % 10) (by omega)]
      congr 1
      omega

/-- What `parseInt` makes of the characters, before it looks at the range. -/
def signedDigits : List Char → Option Int
  | '-' :: c :: cs => (parseDigits 0 (c :: cs)).map (fun n => -(n : Int))
  | '+' :: c :: cs => (parseDigits 0 (c :: cs)).map (fun n => (n : Int))
  | c :: cs        => (parseDigits 0 (c :: cs)).map (fun n => (n : Int))
  | []             => none

theorem parseInt_eq (text : String) : parseInt text =
    match signedDigits text.toList with
    | none => (0, some ("strconv.ParseInt: parsing " ++ text.quote ++ ": invalid syntax"))
    | some n =>
      if 2 ^ 63 ≤ n then (2 ^ 63 - 1, some ("strconv.ParseInt: parsing " ++ text.quote ++ ": value out of range"))
      else if n < -2 ^ 63 then
        (-2 ^ 63, some ("strconv.ParseInt: parsing " ++ text.quote ++ ": value out of range"))
      else (n, none) := rfl

theorem signedDigits_of_parseInt {text : String} {n : Int} (h : parseInt text = (n, none)) :
    signedDigits text.toList = some n := by
  rw [parseInt_eq] at h
  rcases hs : signedDigits text.toList with _ | m
  · rw [hs] at h
    cases h
  · simp only [hs] at h
    by_cases hbig : 2 ^ 63 ≤ m
    · rw [if_pos hbig] at h
      cases h
    · rw [if_neg hbig] at h
      by_cases hsmall : m < -2 ^ 63
      · rw [if_pos hsmall] at h
        cases h
      · rw [if_neg hsmall] at h
        exact congrArg some (congrArg Prod.fst h)

theorem signedDigits_of_digit {c : Char} (hc : c.isDigit = true) (cs : List Char) :
    signedDigits (c :: cs) = (parseDigits 0 (c :: cs)).map (fun n => (n : Int)) := by
  unfold signedDigits
  split
  · rename_i heq
    cases heq
    exact absurd hc (by decide)
  · rename_i heq
    cases heq
    exact absurd hc (by decide)
  · rename_i heq
    cases heq
    rfl
  · rename_i heq
    cases heq

theorem signedDigits_repr (n : Int) : signedDigits n.repr.toList = some n := by
  obtain ⟨c, cs, hcs⟩ := List.exists_cons_of_ne_nil (Nat.toDigits_ne_nil (n := n.natAbs) (b := 10))
  have hc : c.isDigit = true := Nat.isDigit_of_mem_toDigits (by decide) (by decide) (hcs ▸ List.mem_cons_self)
  have hread : parseDigits 0 (c :: cs) = some n.natAbs := hcs ▸ parseDigits_toDigits n.natAbs
  rw [Int.repr_eq_if]
  split
  · have habs : n.toNat = n.natAbs := by omega
    rw [Nat.toList_repr, habs, hcs, signedDigits_of_digit hc, hread]
    show some (n.natAbs : Int) = some n
    congr 1
    omega
  · have habs : (-n).toNat = n.natAbs := by omega
    rw [String.toList_append, Nat.toList_repr, habs, hcs]
    show (parseDigits 0 (c :: cs)).map (fun n => -(n : Int)) = some n
    rw [hread]
    show some (-(n.natAbs : Int)) = some n
    congr 1
    omega

/-- **A time written down is read back**, if it is read at all. -/
theorem storedTime_toString {time v : Int} (h : storedTime (some (.text (toString time))) = .ok v) : v = time := by
  rw [Int.toString_eq_repr] at h
  rcases hp : parseInt time.repr with ⟨n, _ | err⟩
  · simp only [storedTime, hp, Except.ok.injEq] at h
    have := (signedDigits_of_parseInt hp).symm.trans (signedDigits_repr time)
    rw [← h]
    exact Option.some.inj this
  · simp only [storedTime, hp] at h
    cases h

/-! ## What one request does -/

/-- The history reaches a time to remind at: a last reminder time was read, and is due at a time read. -/
def Due (u : UserID) (zone : Int) (l : List ((c : Call) × Resp c)) : Prop :=
  ∃ value v now, (⟨.kvGet (reminderKey u), .ok value⟩ : (c : Call) × Resp c) ∈ l ∧ storedTime value = .ok v ∧
    (⟨.getMillis, now⟩ : (c : Call) × Resp c) ∈ l ∧ reminderDue zone now v = true

/-- No post has been made. -/
def Unposted (l : List ((c : Call) × Resp c)) : Prop :=
  ∀ post res, (⟨.createPost post, res⟩ : (c : Call) × Resp c) ∉ l

/-- How a request suits its history: it posts once, when it is due, and writes down a time just read. -/
def Suits (u : UserID) (zone : Int) (l : List ((c : Call) × Resp c)) : Call → Prop
  | .createPost _          => Due u zone l ∧ Unposted l
  | .kvSet key value       => key = reminderKey u ∧ ∃ l₁ time, l = l₁ ++ [⟨.getMillis, time⟩] ∧ Due u zone l₁ ∧
      value = .text (toString time)
  | .kvDelete _            => False
  | .kvCompareAndSet _ _ _ => False
  | _                      => True

variable {u : UserID} {zone : Int} {l : List ((c : Call) × Resp c)}

theorem Due.append (h : Due u zone l) (l₁ : List ((c : Call) × Resp c)) : Due u zone (l ++ l₁) := by
  obtain ⟨value, v, now, hread, hv, hnow, hdue⟩ := h
  exact ⟨value, v, now, List.mem_append_left _ hread, hv, List.mem_append_left _ hnow, hdue⟩

theorem Unposted.append (h : Unposted l) {l₁ : List ((c : Call) × Resp c)}
    (h₁ : ∀ x ∈ l₁, ∀ post, x.1 ≠ .createPost post) : Unposted (l ++ l₁) := by
  intro post res hmem
  rcases List.mem_append.1 hmem with hmem | hmem
  · exact h post res hmem
  · exact h₁ _ hmem post rfl

/-- What only reads suits, and posts nothing. -/
theorem reads_along {α : Type} {p : Api α} (h : p.Only Call.Reads True) (hl : Unposted l) :
    p.Along (Suits u zone) (fun _ l' => Unposted l') l := by
  rw [← Proc.bind_ret p]
  apply Proc.Along.bind (h.along (fun c l hc => by cases c <;> trivial) l)
  rintro a l' ⟨l₁, rfl, hl₁⟩
  exact hl.append fun x hx post hpost => by
    have := hl₁ x hx
    rw [hpost] at this
    exact this

/-- What is read of the last reminder time. -/
theorem getLastReminderTimeForUser_along (hl : Unposted l) :
    (getLastReminderTimeForUser u).Along (Suits u zone) (fun res l' => Unposted l' ∧ ∀ v, res = .ok v →
      ∃ value, (⟨.kvGet (reminderKey u), .ok value⟩ : (c : Call) × Resp c) ∈ l' ∧ storedTime value = .ok v) l := by
  rw [getLastReminderTimeForUser_eq]
  refine ⟨trivial, fun res => ?_⟩
  have hl' : Unposted (l ++ [⟨.kvGet (reminderKey u), res⟩]) := hl.append fun x hx post hpost => by
    rw [List.mem_singleton.1 hx] at hpost
    cases hpost
  rcases res with err | value
  · exact ⟨hl', fun v hv => by cases hv⟩
  · exact ⟨hl', fun v hv => ⟨value, List.mem_concat_self, hv⟩⟩

/-- Posting the reminder and writing the time down. -/
theorem postBotDM_along {message : String} (hdue : Due u zone l) (hl : Unposted l) :
    (postBotDM u message).Along (Suits u zone) (fun _ l' => Due u zone l') l := by
  refine ⟨trivial, fun r => ?_⟩
  have hdue' := hdue.append [⟨.getDirectChannel u, r⟩]
  rcases r with _ | _ | channelID
  · exact hdue'
  · exact hdue'
  · refine ⟨⟨hdue', hl.append ?_⟩, fun r' => hdue'.append _⟩
    intro x hx post hpost
    rw [List.mem_singleton.1 hx] at hpost
    cases hpost

theorem saveLastReminderTimeForUser_along (hdue : Due u zone l) :
    (saveLastReminderTimeForUser u).Along (Suits u zone) (fun _ _ => True) l :=
  ⟨trivial, fun time => ⟨⟨rfl, l, time, rfl, hdue, rfl⟩, fun _ => trivial⟩⟩

/-- The zone of a header, in seconds ahead of UTC. -/
def zoneOf (timezoneOffset : String) : Int := (-60 * (parseInt timezoneOffset).1).bmod (2 ^ 64)

/-- **A request reminds as it should of what it has read**: it posts at most once, when it is due by the times it has
read, and writes down a time it reads after that. -/
theorem handleLists_along (u : UserID) (reminder timezoneOffset : String) :
    (handleLists u reminder timezoneOffset).Along (Suits u (zoneOf timezoneOffset)) (fun _ _ => True) [] := by
  apply Proc.Along.bind (reads_along (ListManager.reads_getAllList u) fun _ _ => List.not_mem_nil)
  rintro (err | allListIssue) l hl
  · trivial
  simp only
  split
  swap
  · trivial
  apply Proc.Along.bind (reads_along (reads_getReminderPreference u) hl)
  rintro (_ | _) l hl
  · trivial
  rw [if_pos rfl]
  apply Proc.Along.bind (getLastReminderTimeForUser_along hl)
  rintro (err | v) l ⟨hl, hread⟩
  · trivial
  obtain ⟨value, hvalue, hv⟩ := hread v rfl
  refine ⟨trivial, fun now => ?_⟩
  show (if reminderDue (zoneOf timezoneOffset) now v = true then _ else _ : Api Response).Along _ _ _
  split
  swap
  · trivial
  rename_i hdue
  have hdue' : Due u (zoneOf timezoneOffset) (l ++ [⟨.getMillis, now⟩]) :=
    ⟨value, v, now, List.mem_append_left _ hvalue, hv, List.mem_concat_self, hdue⟩
  have hl' : Unposted (l ++ [⟨.getMillis, now⟩]) := hl.append fun x hx post hpost => by
    rw [List.mem_singleton.1 hx] at hpost
    cases hpost
  apply Proc.Along.bind ((formats_issuesListToString (X := True) _).along (Q := Suits u (zoneOf timezoneOffset)) ?_ _)
  · rintro list l' ⟨l₁, rfl, hl₁⟩
    apply Proc.Along.bind (postBotDM_along (hdue'.append l₁) (hl'.append ?_))
    · intro _ l'' hdue''
      exact .bind (saveLastReminderTimeForUser_along hdue'') fun _ _ _ => trivial
    · intro x hx post hpost
      obtain ⟨sec, hsec⟩ := hl₁ x hx
      cases hsec.symm.trans hpost
  · rintro c l₁ ⟨sec, rfl⟩
    trivial

theorem serveHTTP_along (u : UserID) (reminder timezoneOffset : String) :
    (serveHTTP u (.lists reminder timezoneOffset)).Along (Suits u (zoneOf timezoneOffset)) (fun _ _ => True) [] := by
  unfold serveHTTP checkAuth
  rw [if_neg u.isId.1]
  exact (handleLists_along u reminder timezoneOffset).recover .ok

/-! ## Any number of requests -/

section requests
variable {ι : Type}

/-- Requests of one user for their lists, with a reminder, on a store. -/
def remindPool (ι : Type) (u : UserID) (timezoneOffset : String) (w : World) : Pool ι Call Resp Response World :=
  ⟨fun _ => serveHTTP u (.lists "true" timezoneOffset), w⟩

/-- A clock that does not go back: what it shows at each event of a trace. -/
structure Clock (time : Nat → Int) (tr : List (Event ι Call Resp)) : Prop where
  mono  : ∀ m n, m ≤ n → time m ≤ time n
  shows : ∀ (n : Nat) i now, tr[n]? = some ⟨i, .getMillis, now⟩ → now = time n

/-- No two reminders are posted on one date. -/
def OncePerDay (zone : Int) (time : Nat → Int) (tr : List (Event ι Call Resp)) : Prop :=
  ∀ (p q : Nat) i j post post', tr[p]? = some ⟨i, .createPost post, .ok ()⟩ → tr[q]? = some ⟨j, .createPost post', .ok ()⟩ →
    dateOf zone (time p) = dateOf zone (time q) → p = q

/-- A request that posts has read a last reminder time that is not before any reminder already posted that day. -/
def UpToDate (u : UserID) (zone : Int) (time : Nat → Int) (tr : List (Event ι Call Resp)) : Prop :=
  ∀ (p q : Nat) i j post post', tr[p]? = some ⟨i, .createPost post, .ok ()⟩ → tr[q]? = some ⟨j, .createPost post', .ok ()⟩ →
    p < q → dateOf zone (time p) = dateOf zone (time q) →
      ∀ (b : Nat) value v, tr[b]? = some ⟨j, .kvGet (reminderKey u), .ok value⟩ → storedTime value = .ok v → time p ≤ v

/-- The call reminds, or writes down that it did. -/
def Call.Reminding : Call → Prop
  | .createPost _ | .kvSet _ _ => True
  | _                          => False

/-- When a request reads the last reminder time, each other that has read it before, and that reminds at all, has
reminded and written the time down. -/
def Exclusive (u : UserID) (tr : List (Event ι Call Resp)) : Prop :=
  ∀ (a b : Nat) i j res res', i ≠ j → a < b → tr[a]? = some ⟨i, .kvGet (reminderKey u), res⟩ →
    tr[b]? = some ⟨j, .kvGet (reminderKey u), res'⟩ → ∀ (c : Nat) e, tr[c]? = some e → e.who = i → e.call.Reminding →
      ∃ s : Nat, c ≤ s ∧ s < b ∧ ∃ key value res'', tr[s]? = some ⟨i, .kvSet key value, res''⟩

variable [DecidableEq ι] {E : Env} {offset : String} {w : World} {tr : List (Event ι Call Resp)}
  {P' : Pool ι Call Resp Response World}

/-- What is in a history was an event before it. -/
theorem mem_own_take {i : ι} {n : Nat} {x : (c : Call) × Resp c} (h : x ∈ own i (tr.take n)) :
    ∃ m < n, tr[m]? = some ⟨i, x.1, x.2⟩ := by
  obtain ⟨m, hm, he⟩ := List.mem_take_iff_getElem.1 (Pool.mem_own.1 h)
  exact ⟨m, by omega, List.getElem?_eq_some_iff.2 ⟨by omega, he⟩⟩

omit [DecidableEq ι] in
theorem take_of_lt {m n : Nat} (h : m < n) {e : Event ι Call Resp} (he : tr[m]? = some e) : e ∈ tr.take n :=
  List.mem_of_getElem? ((List.getElem?_take_of_lt h).trans he)

/-- **Every event suits the history of its request**, and is answered from the store the events before it left. -/
theorem event_suits (h : Exec (serve E) (remindPool ι u offset w) tr P') {n : Nat} {e : Event ι Call Resp}
    (he : tr[n]? = some e) : Suits u (zoneOf offset) (own e.who (tr.take n)) e.call ∧
      e.resp = (serve E e.call (replay (serve E) w (tr.take n))).1 := by
  obtain ⟨hn, rfl⟩ := List.getElem?_eq_some_iff.1 he
  have hsplit : tr = tr.take n ++ tr[n] :: tr.drop (n + 1) := by
    rw [← List.drop_eq_getElem_cons hn, List.take_append_drop]
  exact h.along (l := fun _ => []) (fun _ => serveHTTP_along u "true" offset) hsplit

/-- **A post is due** by what its request has read. -/
theorem post_due (h : Exec (serve E) (remindPool ι u offset w) tr P') {q : Nat} {j : ι} {post : Post}
    {res : Except String Unit} (hq : tr[q]? = some ⟨j, .createPost post, res⟩) :
    ∃ b < q, ∃ m < q, ∃ value v now, tr[b]? = some ⟨j, .kvGet (reminderKey u), .ok value⟩ ∧ storedTime value = .ok v ∧
      tr[m]? = some ⟨j, .getMillis, now⟩ ∧ reminderDue (zoneOf offset) now v = true := by
  obtain ⟨⟨⟨value, v, now, hread, hv, hnow, hdue⟩, -⟩, -⟩ := event_suits h hq
  obtain ⟨b, hb, hread⟩ := mem_own_take hread
  obtain ⟨m, hm, hnow⟩ := mem_own_take hnow
  exact ⟨b, hb, m, hm, value, v, now, hread, hv, hnow, hdue⟩

/-- **A request posts once.** -/
theorem post_once (h : Exec (serve E) (remindPool ι u offset w) tr P') {p q : Nat} {j : ι} {post post' : Post}
    {res res' : Except String Unit} (hp : tr[p]? = some ⟨j, .createPost post, res⟩)
    (hq : tr[q]? = some ⟨j, .createPost post', res'⟩) : ¬ p < q := by
  intro hlt
  obtain ⟨⟨-, hun⟩, -⟩ := event_suits h hq
  exact hun post res (Pool.mem_own.2 (take_of_lt hlt hp))

/-- **What a request writes down** is a time it has read since it posted, having read when to. -/
theorem save_time (h : Exec (serve E) (remindPool ι u offset w) tr P') {s : Nat} {k : ι} {key : String} {value : Value}
    {res : Except String Unit} (hs : tr[s]? = some ⟨k, .kvSet key value, res⟩) :
    key = reminderKey u ∧ ∃ a m, a < m ∧ m < s ∧ (∃ res', tr[a]? = some ⟨k, .kvGet (reminderKey u), res'⟩) ∧
      ∃ now, tr[m]? = some ⟨k, .getMillis, now⟩ ∧ value = .text (toString now) ∧
        ∀ p, m < p → p < s → ∀ e, tr[p]? = some e → e.who ≠ k := by
  obtain ⟨⟨hkey, l₁, now, hl, hdue, hvalue⟩, -⟩ := event_suits h hs
  obtain ⟨pre, suf, htake, hpre, hsuf⟩ := Pool.own_split hl
  have hlen : pre.length < s ∧ s ≤ tr.length := by
    obtain ⟨hlen, -⟩ := List.getElem?_eq_some_iff.1 hs
    have := congrArg List.length htake
    simp only [List.length_take, List.length_append, List.length_cons] at this
    omega
  have hbefore : tr.take pre.length = pre := by
    have := congrArg (List.take pre.length) htake
    rwa [List.take_take, Nat.min_eq_left (Nat.le_of_lt hlen.1), List.take_left] at this
  obtain ⟨value', v, now', hread, -⟩ := hdue
  rw [← hpre, ← hbefore] at hread
  obtain ⟨a, ha, hread⟩ := mem_own_take hread
  refine ⟨hkey, a, pre.length, ha, hlen.1, ⟨_, hread⟩, now, ?_, hvalue, ?_⟩
  · rw [← List.getElem?_take_of_lt hlen.1, htake, List.getElem?_append_right (Nat.le_refl _), Nat.sub_self]
    rfl
  · intro p hmp hps e he hwho
    have he' : suf[p - (pre.length + 1)]? = some e := by
      rw [← List.getElem?_take_of_lt hps, htake, List.getElem?_append_right (by omega)] at he
      rwa [show p - pre.length = (p - (pre.length + 1)) + 1 by omega] at he
    have hmem : (⟨e.call, e.resp⟩ : (c : Call) × Resp c) ∈ own k suf :=
      Pool.mem_own.2 (hwho ▸ List.mem_of_getElem? he')
    rw [hsuf] at hmem
    exact absurd hmem List.not_mem_nil

/-- A request writes under no key but that of the last reminder, which nothing else changes. -/
theorem kv_serve_of_suits {l : List ((c : Call) × Resp c)} {c : Call} (hc : Suits u zone l c)
    (hset : ∀ value, c ≠ .kvSet (reminderKey u) value) (w : World) :
    (serve E c w).2.kv (reminderKey u) = w.kv (reminderKey u) := by
  cases c with
  | kvSet key value =>
    obtain ⟨rfl, -⟩ := hc
    exact absurd rfl (hset value)
  | kvDelete | kvCompareAndSet => exact hc.elim
  | createPost post =>
    have hquiet : (Call.createPost post).Quiet := trivial
    rw [(hquiet.sameStore E w).kv]
  | kvGet | newId | getMillis | formatTime | getUserByUsername | getUser | getDirectChannel | getPost
  | sendEphemeralPost | publishRefresh => rfl

/-- **What is stored was written last**, where anything was written. -/
theorem stored_last (h : Exec (serve E) (remindPool ι u offset w) tr P') {s : Nat} {i : ι} {value : Value}
    {res : Except String Unit} (hs : tr[s]? = some ⟨i, .kvSet (reminderKey u) value, res⟩) :
    ∀ n, s < n → n ≤ tr.length → ∃ s', s ≤ s' ∧ s' < n ∧ ∃ k value' res',
      tr[s']? = some ⟨k, .kvSet (reminderKey u) value', res'⟩ ∧
        (replay (serve E) w (tr.take n)).kv (reminderKey u) = some value'
  | 0, hlt, _      => by omega
  | n + 1, hlt, hn => by
    obtain ⟨e, he⟩ : ∃ e, tr[n]? = some e := ⟨_, List.getElem?_eq_getElem (by omega)⟩
    have hstep : replay (serve E) w (tr.take (n + 1)) = (serve E e.call (replay (serve E) w (tr.take n))).2 := by
      rw [List.take_add_one, he]
      simp [replay]
    rw [hstep]
    by_cases hset : ∃ value', e.call = .kvSet (reminderKey u) value'
    · obtain ⟨k, c, res'⟩ := e
      obtain ⟨value', rfl⟩ := hset
      exact ⟨n, by omega, by omega, k, value', res', he, World.put_kv_self ..⟩
    · have hsn : s ≠ n := by
        rintro rfl
        rw [hs, Option.some.injEq] at he
        exact hset ⟨value, he ▸ rfl⟩
      obtain ⟨s', hs', hlt', k, value', res', hset', hkv⟩ := stored_last h hs n (by omega) (by omega)
      refine ⟨s', hs', by omega, k, value', res', hset', ?_⟩
      rw [kv_serve_of_suits (event_suits h he).1 fun value' hc => hset ⟨value', hc⟩]
      exact hkv

/-- **A post that covers the ones before it** by the time its request has read is on a later date. -/
theorem dates_of_covered (h : Exec (serve E) (remindPool ι u offset w) tr P') {time : Nat → Int} (hc : Clock time tr)
    {p q : Nat} {j : ι} {post : Post} {res : Except String Unit} (hq : tr[q]? = some ⟨j, .createPost post, res⟩)
    (hcov : ∀ (b : Nat) value v, b < q → tr[b]? = some ⟨j, .kvGet (reminderKey u), .ok value⟩ → storedTime value = .ok v →
      time p ≤ v) : dateOf (zoneOf offset) (time p) ≠ dateOf (zoneOf offset) (time q) := by
  obtain ⟨b, hb, m, hm, value, v, now, hread, hv, hnow, hdue⟩ := post_due h hq
  apply reminderDue_date hdue (hcov b value v hb hread hv)
  rw [hc.shows m j now hnow]
  exact hc.mono m q (by omega)

/-- **A request that reads after another has written its time down** reads a time not before the other's post. -/
theorem covered_of_exclusive (h : Exec (serve E) (remindPool ι u offset w) tr P') {time : Nat → Int} (hc : Clock time tr)
    (hex : Exclusive u tr) {p q : Nat} {i j : ι} {post post' : Post} {res res' : Except String Unit}
    (hp : tr[p]? = some ⟨i, .createPost post, res⟩) (hq : tr[q]? = some ⟨j, .createPost post', res'⟩) (hlt : p < q)
    {b : Nat} {value : Option Value} {v : Int} (hbq : b < q) (hb : tr[b]? = some ⟨j, .kvGet (reminderKey u), .ok value⟩)
    (hv : storedTime value = .ok v) : time p ≤ v := by
  obtain ⟨a, hap, -, -, value', -, -, ha, -⟩ := post_due h hp
  have hij : i ≠ j := by
    rintro rfl
    exact post_once h hp hq hlt
  have hab : a ≠ b := by
    rintro rfl
    rw [ha, Option.some.injEq] at hb
    exact hij (congrArg Event.who hb)
  -- `j` cannot have read first: it has not written its time down when `i` reads
  have hlt' : a < b := by
    by_contra hba
    obtain ⟨s, hs, hs', -⟩ := hex b a j i _ _ (Ne.symm hij) (by omega) hb ha q _ hq rfl trivial
    omega
  obtain ⟨s, hps, hsb, key, x, res₁, hs⟩ := hex a b i j _ _ hij hlt' ha hb p _ hp rfl trivial
  obtain ⟨rfl, -⟩ := save_time h hs
  obtain ⟨s', hss', hsb', k, x', res₂, hs', hkv⟩ := stored_last h hs b hsb (by
    obtain ⟨hlen, -⟩ := List.getElem?_eq_some_iff.1 hb
    omega)
  have hstored : value = some x' := by
    have hresp : (.ok value : Except String (Option Value)) = .ok _ := (event_suits h hb).2
    rw [← hkv]
    exact Except.ok.inj hresp
  -- the time `k` has written down, read after `i` has posted
  obtain ⟨-, a', m, ham, hms, ⟨res₃, ha'⟩, now, hnow, hx', hbetween⟩ := save_time h hs'
  rw [hstored, hx'] at hv
  rw [storedTime_toString hv, hc.shows m k now hnow]
  apply hc.mono
  by_contra hmp
  by_cases hki : i = k
  · subst hki
    have hps' : p ≠ s' := by
      rintro rfl
      rw [hp] at hs'
      cases hs'
    exact hbetween p (by omega) (by omega) _ hp rfl
  · have haa' : a ≠ a' := by
      rintro rfl
      rw [ha, Option.some.injEq] at ha'
      exact hki (congrArg Event.who ha')
    rcases Nat.lt_or_gt_of_ne haa' with hlt'' | hlt''
    · obtain ⟨s'', hps'', hsa, -⟩ := hex a a' i k _ _ hki hlt'' ha ha' p _ hp rfl trivial
      omega
    · obtain ⟨s'', hss'', hsa, -⟩ := hex a' a k i _ _ (Ne.symm hki) hlt'' ha' ha s' _ hs' rfl trivial
      omega

omit [DecidableEq ι] in
/-- A request that has written its time down, and then another: they exclude each other. -/
theorem exclusive_of_one_after_other {i j : ι} (first second : List (Event ι Call Resp)) {key : String} {value : Value}
    {res : Except String Unit} (hfirst : ∀ e ∈ first, e.who = i) (hsecond : ∀ e ∈ second, e.who = j) :
    Exclusive u (first ++ ⟨i, .kvSet key value, res⟩ :: second) := by
  have hwho : ∀ {n : Nat} {e : Event ι Call Resp}, (first ++ ⟨i, .kvSet key value, res⟩ :: second)[n]? = some e →
      n ≤ first.length ∧ e.who = i ∨ first.length < n ∧ e.who = j := by
    intro n e he
    rcases Nat.lt_trichotomy n first.length with hlt | rfl | hgt
    · rw [List.getElem?_append_left hlt] at he
      exact .inl ⟨Nat.le_of_lt hlt, hfirst e (List.mem_of_getElem? he)⟩
    · rw [List.getElem?_append_right (Nat.le_refl _), Nat.sub_self, List.getElem?_cons_zero] at he
      cases he
      exact .inl ⟨Nat.le_refl _, rfl⟩
    · obtain ⟨k, rfl⟩ : ∃ k, n = first.length + (k + 1) := ⟨n - first.length - 1, by omega⟩
      rw [List.getElem?_append_right (by omega), Nat.add_sub_cancel_left, List.getElem?_cons_succ] at he
      exact .inr ⟨hgt, hsecond e (List.mem_of_getElem? he)⟩
  intro a b i' j' res₁ res₂ hne hab ha hb c e hc he hrem
  have hset : (first ++ ⟨i, .kvSet key value, res⟩ :: second)[first.length]? = some ⟨i, .kvSet key value, res⟩ := by
    rw [List.getElem?_append_right (Nat.le_refl _), Nat.sub_self, List.getElem?_cons_zero]
  rcases hwho ha with ⟨hal, rfl⟩ | ⟨hal, rfl⟩
  · rcases hwho hb with ⟨-, rfl⟩ | ⟨hbl, rfl⟩
    · exact absurd rfl hne
    · rcases hwho hc with ⟨hcl, -⟩ | ⟨-, hcj⟩
      · exact ⟨_, hcl, hbl, key, value, res, hset⟩
      · exact absurd (he.symm.trans hcj) hne
  · rcases hwho hb with ⟨hbl, -⟩ | ⟨-, rfl⟩
    · omega
    · exact absurd rfl hne

omit [DecidableEq ι] in
theorem oncePerDay_of_dates (zone : Int) (time : Nat → Int)
    (hdates : ∀ (p q : Nat) i j post post', tr[p]? = some ⟨i, .createPost post, .ok ()⟩ →
      tr[q]? = some ⟨j, .createPost post', .ok ()⟩ → p < q → dateOf zone (time p) ≠ dateOf zone (time q)) :
    OncePerDay zone time tr := by
  intro p q i j post post' hp hq hdate
  by_contra hne
  rcases Nat.lt_or_gt_of_ne hne with hlt | hlt
  · exact hdates p q i j post post' hp hq hlt hdate
  · exact hdates q p j i post' post hq hp hlt hdate.symm

/-- **Requests of one user for their lists, with a reminder, in any order of their steps.**  A second reminder of a day is
posted by a request that has read a time before one already posted that day, and a day has one reminder where no request
reads the last reminder time while another is between reading it and writing it. -/
theorem handleLists_oncePerDay (E : Env) (u : UserID) (offset : String) (w : World) (time : Nat → Int)
    (tr : List (Event ι Call Resp)) (P' : Pool ι Call Resp Response World)
    (h : Exec (serve E) (remindPool ι u offset w) tr P') (hc : Clock time tr) :
    (OncePerDay (zoneOf offset) time tr ↔ UpToDate u (zoneOf offset) time tr) ∧
      (Exclusive u tr → OncePerDay (zoneOf offset) time tr) := by
  refine ⟨⟨?_, ?_⟩, ?_⟩
  · intro honce p q i j post post' hp hq hlt hdate
    exact absurd (honce p q i j post post' hp hq hdate) (Nat.ne_of_lt hlt)
  · intro hup
    apply oncePerDay_of_dates
    intro p q i j post post' hp hq hlt hdate
    exact dates_of_covered h hc hq
      (fun b value v _ hb hv => hup p q i j post post' hp hq hlt hdate b value v hb hv) hdate
  · intro hex
    apply oncePerDay_of_dates
    intro p q i j post post' hp hq hlt
    exact dates_of_covered h hc hq (fun b value v hbq hb hv => covered_of_exclusive h hc hex hp hq hlt hbq hb hv)

end requests

section sample

/-- A server whose clock stands at a moment of 14 November 2023. -/
def Env.stopped : Env := { Env.sample with millis := fun _ => 1700000000000 }

/-- One todo of ann's, and no reminder yet. -/
def unreminded : World :=
  (World.empty.put (listKey "ann" .myList) (.refs [⟨"x", "", ""⟩])).put (issueKey "x") (.issue ⟨"x", "milk", "", "", 0, ""⟩)

/-- Two pages ann has open ask for her lists, in the given turns. -/
def askedTwice (turns : List Bool) : List (Event Bool Call Resp) × Pool Bool Call Resp Response World :=
  Pool.play (serve Env.stopped) (remindPool Bool ann "-60" unreminded) turns

theorem askedTwice_clock (turns : List Bool) : Clock (fun _ => 1700000000000) (askedTwice turns).1 :=
  ⟨fun _ _ _ => Int.le_refl _, fun _ _ _ hn => (event_suits (Pool.play_exec _ turns _) hn).2⟩

theorem handleLists_asked_one_after_another :
    Exclusive ann (askedTwice (List.replicate 12 true ++ List.replicate 12 false)).1 ∧
      OncePerDay (zoneOf "-60") (fun _ => 1700000000000)
        (askedTwice (List.replicate 12 true ++ List.replicate 12 false)).1 := by
  have hexclusive : Exclusive ann (askedTwice (List.replicate 12 true ++ List.replicate 12 false)).1 :=
    exclusive_of_one_after_other (i := true) (j := false)
      ((askedTwice (List.replicate 12 true ++ List.replicate 12 false)).1.take 11)
      ((askedTwice (List.replicate 12 true ++ List.replicate 12 false)).1.drop 12) (by decide) (by decide)
  exact ⟨hexclusive, (handleLists_oncePerDay Env.stopped ann "-60" unreminded (fun _ => 1700000000000) _ _
    (Pool.play_exec _ _ _) (askedTwice_clock _)).2 hexclusive⟩

/-- **Both remind** when both read before either has written. -/
theorem handleLists_reminds_twice : ∃ (tr : List (Event Bool Call Resp)) (P' : Pool Bool Call Resp Response World),
    Exec (serve Env.stopped) (remindPool Bool ann "-60" unreminded) tr P' ∧ P'.Finished ∧
      Clock (fun _ => 1700000000000) tr ∧ ¬ OncePerDay (zoneOf "-60") (fun _ => 1700000000000) tr := by
  refine ⟨(askedTwice (List.replicate 12 [true, false]).flatten).1,
    (askedTwice (List.replicate 12 [true, false]).flatten).2, Pool.play_exec _ _ _,
    Pool.finished_of_returned (by decide), askedTwice_clock _, fun honce => ?_⟩
  have := honce 18 19 true false _ _ rfl rfl rfl
  omega

end sample
end Todo

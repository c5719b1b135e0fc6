import TodoPlugin.Reminders
/-!
# Reminders, one request after another

Requests of one user handled one after another, each with the zone of its own header and a clock that does not go back.
A reminder is due an hour after the time stored and on another date; what is stored is a time read after the post.  So
two reminders are an hour apart whatever their zones, and in one zone on later and later dates.
-/
namespace Todo

open Proc (Only)

/-! ## The order of dates -/

/-- One date is before another: by year, then month, then day. -/
def DateBefore (d d' : Int × Int × Int) : Prop :=
  d.1 < d'.1 ∨ d.1 = d'.1 ∧ (d.2.1 < d'.2.1 ∨ d.2.1 = d'.2.1 ∧ d.2.2 < d'.2.2)

instance (d d' : Int × Int × Int) : Decidable (DateBefore d d') := inferInstanceAs (Decidable (_ ∨ _))

theorem DateBefore.ne {d d' : Int × Int × Int} (h : DateBefore d d') : d ≠ d' := by
  rintro rfl
  unfold DateBefore at h
  omega

/-- Later years have had as many leap days. -/
theorem leapDays_mono {y y' : Int} (h : y ≤ y') : y / 4 - y / 100 ≤ y' / 4 - y' / 100 := by
  have hcentury : y / 100 ≤ y' / 100 := by omega
  by_cases he : y / 100 = y' / 100
  · omega
  · have hfirst : 25 * (y' / 100) ≤ y' / 4 := by omega
    have hlast : y / 4 ≤ 25 * (y / 100) + 24 := by omega
    omega

/-- **A later day has a later date.** -/
theorem civilDate_before {d d' : Int} (h : d < d') : DateBefore (civilDate d) (civilDate d') := by
  unfold civilDate DateBefore
  simp only
  generalize hera : (d + 719468) / 146097 = era
  generalize hera' : (d' + 719468) / 146097 = era'
  generalize hdoe : (d + 719468) % 146097 = doe
  generalize hdoe' : (d' + 719468) % 146097 = doe'
  have hrange : 0 ≤ doe ∧ doe < 146097 := by omega
  have hrange' : 0 ≤ doe' ∧ doe' < 146097 := by omega
  have hlt : era < era' ∨ era = era' ∧ doe < doe' := by omega
  have hyoe := yoe_bounds hrange.1 hrange.2
  have hyoe' := yoe_bounds hrange'.1 hrange'.2
  have hdoy := doy_bounds hrange.1 hrange.2 rfl
  have hdoy' := doy_bounds hrange'.1 hrange'.2 rfl
  clear hera hera' hdoe hdoe' h
  generalize (doe - doe / 1460 + doe / 36524 - doe / 146096) / 365 = yoe at hyoe hdoy ⊢
  generalize (doe' - doe' / 1460 + doe' / 36524 - doe' / 146096) / 365 = yoe' at hyoe' hdoy' ⊢
  obtain ⟨doy, hd⟩ : ∃ doy, doe - (365 * yoe + yoe / 4 - yoe / 100) = doy := ⟨_, rfl⟩
  obtain ⟨doy', hd'⟩ : ∃ doy, doe' - (365 * yoe' + yoe' / 4 - yoe' / 100) = doy := ⟨_, rfl⟩
  rw [hd] at hdoy ⊢
  rw [hd'] at hdoy' ⊢
  -- the year counted from March, and the day in it
  have hyear : yoe + era * 400 < yoe' + era' * 400 ∨ yoe + era * 400 = yoe' + era' * 400 ∧ doy < doy' := by
    rcases hlt with hlt | ⟨rfl, hlt⟩
    · omega
    · by_cases hy : yoe' < yoe
      · have hleap : yoe' / 4 - yoe' / 100 ≤ yoe / 4 - yoe / 100 := leapDays_mono (by omega)
        omega
      · by_cases he : yoe = yoe'
        · subst he
          omega
        · omega
  clear hlt hd hd' hrange hrange'
  generalize yoe + era * 400 = year at hyear ⊢
  generalize yoe' + era' * 400 = year' at hyear ⊢
  obtain ⟨mp, hmp⟩ : ∃ mp, (5 * doy + 2) / 153 = mp := ⟨_, rfl⟩
  obtain ⟨mp', hmp'⟩ : ∃ mp, (5 * doy' + 2) / 153 = mp := ⟨_, rfl⟩
  rw [hmp, hmp']
  -- and the month, which is never before March
  have hmonth : 0 ≤ mp ∧ mp ≤ 11 ∧ 0 ≤ mp' ∧ mp' ≤ 11 := by omega
  have hlater : year < year' ∨ year = year' ∧ (mp < mp' ∨ mp = mp' ∧ doy < doy') := by omega
  clear hyear hmp hmp' hdoy hdoy' hyoe hyoe'
  rcases hlater with hlt | ⟨rfl, hlt | ⟨rfl, hlt⟩⟩
  · split <;> split <;> split <;> split <;> omega
  · split <;> split <;> split <;> split <;> omega
  · split <;> split <;> omega

/-- The day a time falls on in a zone, counted from 1 January 1970. -/
def dayOf (zone time : Int) : Int := (time.tdiv 1000 + zone) / 86400

theorem dayOf_mono (zone : Int) {t t' : Int} (h : t ≤ t') : dayOf zone t ≤ dayOf zone t' := by
  have hsec : t.tdiv 1000 ≤ t'.tdiv 1000 := Int.tdiv_le_tdiv (by decide) h
  unfold dayOf
  omega

theorem dateOf_before {zone t t' : Int} (h : dayOf zone t < dayOf zone t') : DateBefore (dateOf zone t) (dateOf zone t') :=
  civilDate_before h

/-- **What is due** is an hour later, and on a later day. -/
theorem reminderDue_later {zone now last : Int} (h : reminderDue zone now last = true) :
    3600 ≤ now.tdiv 1000 - last.tdiv 1000 ∧ dayOf zone last < dayOf zone now := by
  unfold reminderDue at h
  simp only [Bool.and_eq_true, decide_eq_true_eq] at h
  obtain ⟨hhour, hdate⟩ := h
  have hday : dayOf zone now ≠ dayOf zone last := fun he => hdate (congrArg civilDate he)
  refine ⟨hhour, ?_⟩
  unfold dayOf at hday ⊢
  omega

/-- **When a reminder is due**: at least an hour after the last one, to the second, and on a later date. -/
theorem reminderDue_iff {zone now last : Int} : reminderDue zone now last = true ↔
    3600 ≤ now.tdiv 1000 - last.tdiv 1000 ∧ DateBefore (dateOf zone last) (dateOf zone now) := by
  refine ⟨fun h => ?_, fun ⟨hhour, hdate⟩ => ?_⟩
  · obtain ⟨hhour, hday⟩ := reminderDue_later h
    exact ⟨hhour, dateOf_before hday⟩
  · unfold reminderDue
    simp only [Bool.and_eq_true, decide_eq_true_eq]
    exact ⟨hhour, hdate.ne.symm⟩

/-! ## The posts of a procedure -/

def Call.posts : Call → Bool
  | .createPost _ => true
  | _             => false

/-- The states in which a procedure posts. -/
def postsAt (E : Env) {α : Type} (p : Api α) (w : World) : List World :=
  ((p.calls (serve E) w).filter fun x => x.1.posts).map Prod.snd

theorem postsAt_bind (E : Env) {α β : Type} {p : Api α} {w w' : World} {a : α} (h : p.run (serve E) w = (some a, w'))
    (f : α → Api β) : postsAt E (p >>= f) w = postsAt E p w ++ postsAt E (f a) w' := by
  simp only [postsAt, Proc.calls_bind_of _ h, List.filter_append, List.map_append]

theorem postsAt_only {E : Env} {α : Type} {X : Prop} {P : Call → Prop} (hP : ∀ c, P c → c.posts = false) {p : Api α}
    (h : p.Only P X) (w : World) : postsAt E p w = [] := by
  rw [postsAt, List.map_eq_nil_iff, List.filter_eq_nil_iff]
  intro x hx
  rw [hP _ (h.calls (serve E) hx)]
  decide

/-- A part that leaves the state, and posts nothing, hands over to what follows it. -/
theorem unchanged_run {E : Env} {α : Type} {X : Prop} {P : Call → Prop} (hP : ∀ c w, P c → (serve E c w).2 = w) {p : Api α}
    (h : p.Only P X) (w : World) : (p.run (serve E) w).2 = w :=
  (h.run (I := fun w' => w' = w) (fun c w' hc hw => hw ▸ hP c w' hc) rfl).1

/-! ## What a request does -/

/-- **A request that finds `w` reminds or does not**: it leaves the time stored and posts nothing; or the time stored is
due at the time it reads, and it stores the next time read, between them posting at most once. -/
def Reminds (E : Env) (u : UserID) (zone : Int) {α : Type} (p : Api α) (w : World) : Prop :=
  ((p.run (serve E) w).2.kv (reminderKey u) = w.kv (reminderKey u) ∧ postsAt E p w = []) ∨
  ∃ last, storedTime (w.kv (reminderKey u)) = .ok last ∧ reminderDue zone (E.millis w.ticks) last = true ∧
    (p.run (serve E) w).2.kv (reminderKey u) = some (.text (toString (E.millis (w.ticks + 1)))) ∧
    (postsAt E p w).length ≤ 1 ∧ ∀ s ∈ postsAt E p w, s.ticks = w.ticks + 1

namespace Reminds

variable {E : Env} {u : UserID} {zone : Int} {w : World} {α β : Type}

theorem idle (a : α) : Reminds E u zone (pure a : Api α) w := .inl ⟨rfl, rfl⟩

/-- Reading comes before. -/
theorem read {p : Api α} {f : α → Api β} (hp : p.Only Call.Reads True)
    (hf : ∀ a, p.run (serve E) w = (some a, w) → Reminds E u zone (f a) w) : Reminds E u zone (p >>= f) w := by
  have hw : (p.run (serve E) w).2 = w := unchanged_run (fun c w hc => hc.serve E w) hp w
  have hposts : postsAt E p w = [] := postsAt_only (fun c hc => by cases c <;> first | rfl | exact hc.elim) hp w
  rcases hrun : p.run (serve E) w with ⟨_ | a, t⟩
  · rw [hrun] at hw
    refine .inl ⟨?_, ?_⟩
    · rw [Proc.run_bind, hrun, ← hw]
    · rw [postsAt, Proc.calls_bind, hrun, List.append_nil]
      exact hposts
  · rw [hrun] at hw
    obtain rfl : t = w := hw
    unfold Reminds
    rw [Proc.run_bind_of _ hrun, postsAt_bind E hrun, hposts, List.nil_append]
    exact hf a hrun

end Reminds

theorem postBotDM_run (E : Env) (u : UserID) (message : String) (w : World) :
    ∃ w', (postBotDM u message).run (serve E) w = (some (), w') ∧ w'.kv = w.kv ∧ w'.ticks = w.ticks ∧
      (postsAt E (postBotDM u message) w = [] ∨ postsAt E (postBotDM u message) w = [w]) := by
  unfold postBotDM createBotPostDM
  rcases hch : E.directChannel u with err | _ | channelID
  · refine ⟨w, ?_, rfl, rfl, .inl ?_⟩ <;>
      simp [postsAt, Proc.calls, Api.getDirectChannel, Proc.request_bind, serve, hch, Call.posts]
  · refine ⟨w, ?_, rfl, rfl, .inl ?_⟩ <;>
      simp [postsAt, Proc.calls, Api.getDirectChannel, Proc.request_bind, serve, hch, Call.posts]
  · rcases hpost : E.createPost ⟨channelID, message, "", none⟩ with err | _
    · refine ⟨w, ?_, rfl, rfl, .inr ?_⟩ <;>
        simp [postsAt, Proc.calls, Api.getDirectChannel, Api.createPost, Proc.request_bind, serve, hch, hpost, Call.posts]
    · refine ⟨w.notify (.post ⟨channelID, message, "", none⟩), ?_, rfl, rfl, .inr ?_⟩ <;>
        simp [postsAt, Proc.calls, Api.getDirectChannel, Api.createPost, Proc.request_bind, serve, hch, hpost, Call.posts]

theorem issuesListToString_run (E : Env) (issues : List ExtendedIssue) (w : World) :
    ∃ list, (issuesListToString issues).run (serve E) w = (some list, w) ∧ postsAt E (issuesListToString issues) w = [] := by
  have hformats := formats_issuesListToString (X := False) issues
  have hw : ((issuesListToString issues).run (serve E) w).2 = w :=
    unchanged_run (fun c w hc => by obtain ⟨sec, rfl⟩ := hc; rfl) hformats w
  have hposts : postsAt E (issuesListToString issues) w = [] :=
    postsAt_only (fun c hc => by obtain ⟨sec, rfl⟩ := hc; rfl) hformats w
  have hsome := (quiet_run E (X := False) (quiet_of_answers (answers_issuesListToString issues)) w).2
  rcases hrun : (issuesListToString issues).run (serve E) w with ⟨_ | list, t⟩
  · rw [hrun] at hsome
    exact (hsome rfl).elim
  · rw [hrun] at hw
    exact ⟨list, by rw [show t = w from hw], hposts⟩

/-- What `handleLists` does when a reminder is due. -/
def remind (userID : String) (allListIssue : ListsIssue) : Api Response := do
  let list ← issuesListToString allListIssue.myIssues
  postBotDM userID ("Daily Reminder:\n\n" ++ list)
  let _ ← saveLastReminderTimeForUser userID
  return .lists allListIssue

/-- It posts at most once, and then stores the time it reads. -/
theorem remind_run (E : Env) (u : UserID) (allListIssue : ListsIssue) (w : World) :
    ((remind u allListIssue).run (serve E) w).2.kv (reminderKey u) = some (.text (toString (E.millis w.ticks))) ∧
      (postsAt E (remind u allListIssue) w).length ≤ 1 ∧ ∀ s ∈ postsAt E (remind u allListIssue) w, s.ticks = w.ticks := by
  obtain ⟨list, hlist, hnone⟩ := issuesListToString_run E allListIssue.myIssues w
  obtain ⟨w₁, hpost, -, hticks, hposts⟩ := postBotDM_run E u ("Daily Reminder:\n\n" ++ list) w
  have hsave : postsAt E (saveLastReminderTimeForUser u >>= fun _ => pure (.lists allListIssue) : Api Response) w₁ = [] := rfl
  unfold remind
  rw [Proc.run_bind_of _ hlist, Proc.run_bind_of _ hpost, postsAt_bind E hlist, postsAt_bind E hpost, hnone, hsave,
    List.nil_append, List.append_nil, ← hticks]
  refine ⟨World.put_kv_self .., ?_⟩
  rcases hposts with hposts | hposts <;> rw [hposts] <;> simp [hticks]

/-- The clock is read, and the test made. -/
theorem Reminds.ask {E : Env} {u : UserID} {zone : Int} {w : World} {last : Int}
    (hlast : storedTime (w.kv (reminderKey u)) = .ok last) (allListIssue : ListsIssue) :
    Reminds E u zone (Api.getMillis >>= fun now => if reminderDue zone now last = true then remind u allListIssue
      else pure (.lists allListIssue)) w := by
  have hrun : ∀ {q : Api Response}, (if reminderDue zone (E.millis w.ticks) last = true then remind u allListIssue
      else pure (.lists allListIssue)) = q →
      (Api.getMillis >>= fun now => if reminderDue zone now last = true then remind u allListIssue
        else pure (.lists allListIssue)).run (serve E) w = q.run (serve E) { w with ticks := w.ticks + 1 } ∧
      postsAt E (Api.getMillis >>= fun now => if reminderDue zone now last = true then remind u allListIssue
        else pure (.lists allListIssue)) w = postsAt E q { w with ticks := w.ticks + 1 } := by
    rintro q rfl
    exact ⟨rfl, rfl⟩
  unfold Reminds
  by_cases hdue : reminderDue zone (E.millis w.ticks) last = true
  · obtain ⟨hq, hposts⟩ := hrun (if_pos hdue)
    rw [hq, hposts]
    exact .inr ⟨last, hlast, hdue, remind_run E u allListIssue { w with ticks := w.ticks + 1 }⟩
  · obtain ⟨hq, hposts⟩ := hrun (if_neg hdue)
    rw [hq, hposts]
    exact .inl ⟨rfl, rfl⟩

/-- **A request for the lists** reminds or does not. -/
theorem handleLists_reminds (E : Env) (u : UserID) (timezoneOffset : String) (w : World) :
    Reminds E u (zoneOf timezoneOffset) (handleLists u "true" timezoneOffset) w := by
  apply Reminds.read (ListManager.reads_getAllList u)
  rintro (err | allListIssue) -
  · exact .idle _
  simp only
  split
  swap
  · exact .idle _
  apply Reminds.read (reads_getReminderPreference u)
  rintro (_ | _) -
  · exact .idle _
  rw [if_pos rfl]
  apply Reminds.read (reads_getLastReminderTimeForUser u)
  rintro res hread
  have hres : res = storedTime (w.kv (reminderKey u)) := by
    rw [getLastReminderTimeForUser_eq] at hread
    exact (Option.some.inj (Prod.mk.inj hread).1).symm
  rcases res with err | last
  · exact .idle _
  · exact .ask hres.symm allListIssue

theorem serveHTTP_reminds (E : Env) (u : UserID) (timezoneOffset : String) (w : World) :
    Reminds E u (zoneOf timezoneOffset) (serveHTTP u (.lists "true" timezoneOffset)) w := by
  have hrun : ((serveHTTP u (.lists "true" timezoneOffset)).run (serve E) w).2 =
      ((handleLists u "true" timezoneOffset).run (serve E) w).2 := by
    rw [serveHTTP, checkAuth, if_neg u.val_ne_empty]
    exact Proc.run_recover ..
  have hposts : postsAt E (serveHTTP u (.lists "true" timezoneOffset)) w =
      postsAt E (handleLists u "true" timezoneOffset) w := by
    rw [serveHTTP, checkAuth, if_neg u.val_ne_empty, postsAt, withRecovery, Proc.calls_recover]
    rfl
  unfold Reminds
  rw [hrun, hposts]
  exact handleLists_reminds E u timezoneOffset w

/-! ## Requests one after another -/

/-- A reminder: the offset of its request, and the state it is posted in. -/
structure Reminder where
  offset : String
  state  : World

/-- The reminders of requests handled one after another, by their offsets. -/
def reminders (E : Env) (u : UserID) : List String → World → List Reminder
  | [], _                => []
  | offset :: offsets, w =>
    (postsAt E (serveHTTP u (.lists "true" offset)) w).map (⟨offset, ·⟩) ++
      reminders E u offsets ((serveHTTP u (.lists "true" offset)).run (serve E) w).2

namespace Reminder

/-- A time between the last the clock has shown when the reminder is posted and the next it shows. -/
def At (E : Env) (r : Reminder) (time : Int) : Prop :=
  E.millis (r.state.ticks - 1) ≤ time ∧ time ≤ E.millis r.state.ticks

/-- The reminder is an hour later than a time, and on a later day in its zone. -/
def After (E : Env) (last : Int) (r : Reminder) : Prop :=
  ∀ time, r.At E time → 3600 ≤ time.tdiv 1000 - last.tdiv 1000 ∧ dayOf (zoneOf r.offset) last < dayOf (zoneOf r.offset) time

theorem After.of_le {E : Env} {last last' : Int} {r : Reminder} (h : r.After E last') (hle : last ≤ last') :
    r.After E last := by
  intro time hat
  obtain ⟨hhour, hday⟩ := h time hat
  have hsec : last.tdiv 1000 ≤ last'.tdiv 1000 := Int.tdiv_le_tdiv (by decide) hle
  have hday' := dayOf_mono (zoneOf r.offset) hle
  constructor <;> omega

end Reminder

/-- What is due after the time stored is after it when posted. -/
theorem Reminder.after_of_due {E : Env} {offset : String} {s w : World} {last : Int} (hticks : s.ticks = w.ticks + 1)
    (hdue : reminderDue (zoneOf offset) (E.millis w.ticks) last = true) : (⟨offset, s⟩ : Reminder).After E last := by
  intro time hat
  obtain ⟨hhour, hday⟩ := reminderDue_later hdue
  have hle : E.millis w.ticks ≤ time := by simpa [Reminder.At, hticks] using hat.1
  have hsec : (E.millis w.ticks).tdiv 1000 ≤ time.tdiv 1000 := Int.tdiv_le_tdiv (by decide) hle
  have hday' := dayOf_mono (zoneOf offset) hle
  constructor
  · omega
  · exact Int.lt_of_lt_of_le hday hday'

section clock
variable {E : Env} (hclock : ∀ m n, m ≤ n → E.millis m ≤ E.millis n) {u : UserID}
include hclock

/-- **Once a time is stored, every reminder is after it**, by induction on the requests: a request that reminds stores
a later time. -/
theorem reminders_after {last : Int} : ∀ (offsets : List String) (w : World),
    w.kv (reminderKey u) = some (.text (toString last)) → ∀ r ∈ reminders E u offsets w, r.After E last := by
  intro offsets
  induction offsets generalizing last with
  | nil => simp [reminders]
  | cons offset offsets ih =>
    intro w hkv r hr
    rw [reminders, List.mem_append] at hr
    rcases serveHTTP_reminds E u offset w with ⟨hkv', hposts⟩ | ⟨last', hlast', hdue, hkv', -, hticks⟩
    · rw [hposts] at hr
      exact ih _ (hkv'.trans hkv) r (hr.resolve_left List.not_mem_nil)
    · rw [hkv] at hlast'
      obtain rfl := storedTime_toString hlast'
      rcases hr with hr | hr
      · obtain ⟨s, hs, rfl⟩ := List.mem_map.1 hr
        exact Reminder.after_of_due (hticks s hs) hdue
      · refine (ih _ hkv' r hr).of_le ?_
        have hnow := hclock w.ticks (w.ticks + 1) (Nat.le_succ _)
        have hhour := (reminderDue_later hdue).1
        by_contra hlt
        have := Int.tdiv_le_tdiv (a := E.millis w.ticks) (b := last') (c := 1000) (by decide) (by omega)
        omega

end clock

/-- Reminders are an hour apart, and of one offset on later dates. -/
def Spaced (E : Env) (r s : Reminder) : Prop :=
  ∀ time time', r.At E time → s.At E time' → 3600 ≤ time'.tdiv 1000 - time.tdiv 1000 ∧
    (r.offset = s.offset → DateBefore (dateOf (zoneOf s.offset) time) (dateOf (zoneOf s.offset) time'))

/-- What comes after the next time read after a reminder is spaced from it. -/
theorem Reminder.After.spaced {E : Env} {r s : Reminder} (h : s.After E (E.millis r.state.ticks)) : Spaced E r s := by
  intro time time' hr hs
  obtain ⟨hhour, hday⟩ := h time' hs
  have hsec : time.tdiv 1000 ≤ (E.millis r.state.ticks).tdiv 1000 := Int.tdiv_le_tdiv (by decide) hr.2
  constructor
  · omega
  · intro _
    exact dateOf_before (Int.lt_of_le_of_lt (dayOf_mono _ hr.2) hday)

/-- **Of the reminders of requests handled one after another, any two are an hour apart**, in whole seconds and whatever
the offsets, **and any two of one offset are on dates in order**. -/
theorem reminders_spaced (E : Env) (hclock : ∀ m n, m ≤ n → E.millis m ≤ E.millis n) (u : UserID)
    (offsets : List String) (w : World) : (reminders E u offsets w).Pairwise (Spaced E) := by
  induction offsets generalizing w with
  | nil => exact .nil
  | cons offset offsets ih =>
    rw [reminders, List.pairwise_append]
    rcases serveHTTP_reminds E u offset w with ⟨-, hposts⟩ | ⟨last, -, -, hkv, hlen, hticks⟩
    · rw [hposts]
      exact ⟨.nil, ih _, by simp⟩
    · refine ⟨?_, ih _, ?_⟩
      · rw [List.pairwise_map]
        match postsAt E (serveHTTP u (.lists "true" offset)) w, hlen with
        | [], _  => exact .nil
        | [s], _ => exact List.pairwise_singleton _ s
      · intro r hr s hs
        obtain ⟨t, ht, rfl⟩ := List.mem_map.1 hr
        apply Reminder.After.spaced
        rw [show (⟨offset, t⟩ : Reminder).state.ticks = w.ticks + 1 from hticks t ht]
        exact reminders_after hclock offsets _ hkv s hs

section sample

/-- A server whose clock goes on by a day each time it is read. -/
def Env.daily : Env := { Env.sample with millis := fun n => 86400000 * (n + 1) }

/-- Three requests of ann's, from two zones: each reminds her. -/
theorem reminders_spaced_daily :
    (reminders Env.daily ann ["0", "-60", "0"] unreminded).map Reminder.offset = ["0", "-60", "0"] ∧
      (reminders Env.daily ann ["0", "-60", "0"] unreminded).Pairwise (Spaced Env.daily) := by
  refine ⟨by decide, reminders_spaced Env.daily (fun m n hmn => ?_) ann ["0", "-60", "0"] unreminded⟩
  show (86400000 : Int) * (m + 1) ≤ 86400000 * (n + 1)
  omega

end sample

end Todo

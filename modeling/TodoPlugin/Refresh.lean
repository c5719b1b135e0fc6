import TodoPlugin.IssueLists
import TodoPlugin.Views
import TodoPlugin.Quiet
/-!
# Keeping the front-end up to date

Operations of the server write the lists and then publish a refresh event.  The front-end starts a request for the lists
at each event, and each response takes the place of all that is shown.  The server works requests off call by call, in
turns with the operations, and responses arrive in any order: nothing ties a response to the request, so the one that
arrives last is what stays.
-/
namespace Todo

open Proc (Only)

/-- One user's session: the store, how many operations have not published yet, how many events have not arrived, the
requests in flight by number, how many have been started, and the front-end's store. -/
structure Session where
  world   : World
  running : Nat
  events  : Nat
  flight  : Nat → Option (Api Response)
  started : Nat
  client  : PluginState

/-- What happens: an operation begins, writes what leaves the lists readable, or publishes and ends; an event arrives and
starts a request; the server makes a call of a request; a response arrives. -/
inductive Happening where
  | begin
  | write (w : { w : World // w.Listed })
  | publish
  | deliver
  | call (k : Nat)
  | respond (k : Nat)

namespace Session

section session
variable (E : Env) (u : UserID) (offset : String)

/-- The request a refresh event starts, as the server works it off. -/
def request : Api Response := serveHTTP u (.lists "false" offset)

/-- The session after a happening, if it can happen. -/
def next (s : Session) : Happening → Option Session
  | .begin => some { s with running := s.running + 1 }
  | .write w => if 0 < s.running then some { s with world := w } else none
  | .publish =>
    if 0 < s.running then some { s with running := s.running - 1, events := s.events + 1 } else none
  | .deliver =>
    if 0 < s.events then
      some { s with events := s.events - 1, flight := Function.update s.flight s.started (some (request u offset)),
                    started := s.started + 1 }
    else none
  | .call k =>
    match s.flight k with
    | some (.call c f) =>
      some { s with world := (serve E c s.world).2,
                    flight := Function.update s.flight k (some (f (serve E c s.world).1)) }
    | _ => none
  | .respond k =>
    match s.flight k with
    | some (.ret r) =>
      some { s with flight := Function.update s.flight k none, client := s.client.receive (.response r) }
    | _ => none

/-- **What each happening does**, where it can happen. -/
inductive Step (s : Session) : Happening → Session → Prop
  | begin : Step s .begin { s with running := s.running + 1 }
  | write (w : { w : World // w.Listed }) (h : 0 < s.running) : Step s (.write w) { s with world := w }
  | publish (h : 0 < s.running) :
    Step s .publish { s with running := s.running - 1, events := s.events + 1 }
  | deliver (h : 0 < s.events) :
    Step s .deliver { s with events := s.events - 1,
                             flight := Function.update s.flight s.started (some (request u offset)),
                             started := s.started + 1 }
  | call (k : Nat) {c : Call} {f : Resp c → Api Response} (h : s.flight k = some (.call c f)) :
    Step s (.call k) { s with world := (serve E c s.world).2,
                              flight := Function.update s.flight k (some (f (serve E c s.world).1)) }
  | respond (k : Nat) {r : Response} (h : s.flight k = some (.ret r)) :
    Step s (.respond k) { s with flight := Function.update s.flight k none,
                                 client := s.client.receive (.response r) }

theorem step_of_next {s t : Session} {e : Happening} (he : s.next E u offset e = some t) : s.Step E u offset e t := by
  cases e with
  | begin =>
    cases he
    exact .begin
  | write w =>
    obtain ⟨h, ht⟩ := Option.ite_none_right_eq_some.1 he
    cases ht
    exact .write w h
  | publish =>
    obtain ⟨h, ht⟩ := Option.ite_none_right_eq_some.1 he
    cases ht
    exact .publish h
  | deliver =>
    obtain ⟨h, ht⟩ := Option.ite_none_right_eq_some.1 he
    cases ht
    exact .deliver h
  | call k =>
    simp only [next] at he
    split at he
    · rename_i c f h
      cases he
      exact .call k h
    · cases he
  | respond k =>
    simp only [next] at he
    split at he
    · rename_i r h
      cases he
      exact .respond k h
    · cases he

/-- **Any sequence of happenings**, the latest first. -/
inductive Run : Session → List Happening → Session → Prop
  | start (s : Session) : Run s [] s
  | step {s t t' : Session} {hs : List Happening} (h : Run s hs t) (e : Happening) (he : t.next E u offset e = some t') :
      Run s (e :: hs) t'

/-- The front-end shows what is stored. -/
def InSync (s : Session) : Prop := s.client.allIssues = (s.world.shown E u).json

/-- Nothing is under way: every operation has published, every event and every response has arrived. -/
def Quiescent (s : Session) : Prop := s.running = 0 ∧ s.events = 0 ∧ ∀ k, s.flight k = none

/-- The front-end has loaded the lists, and nothing is under way. -/
structure Loaded (s : Session) : Prop where
  listed    : s.world.Listed
  quiescent : s.Quiescent
  unstarted : s.started = 0
  inSync    : s.InSync E u

end session

/-- The request whose response arrived last. -/
def answered : List Happening → Option Nat
  | []               => none
  | .respond k :: _  => some k
  | _ :: hs          => answered hs

/-- The server has made no call of the request before the last write. -/
def Untouched (k : Nat) : List Happening → Prop
  | []             => True
  | .write _ :: hs => .call k ∉ hs
  | _ :: hs        => Untouched k hs

/-! ## The request run alone -/

theorem request_run (E : Env) (u : UserID) (offset : String) {w : World} (h : w.Listed) :
    (request u offset).run (serve E) w = (some (.lists (w.shown E u)), w) := by
  have hlists : (handleLists u "false" offset).run (serve E) w = (some (.lists (w.shown E u)), w) := by
    unfold handleLists
    rw [Proc.run_bind_of _ (ListManager.getAllList_run E h u)]
    simp only
    rw [if_neg fun hc => absurd hc.2 (by decide)]
    rfl
  refine Proc.run_recover_of Response.ok _ ?_
  rw [checkAuth, if_neg u.val_ne_empty]
  exact hlists

theorem request_reads (u : UserID) (offset : String) : (request u offset).Only Call.Reads False := by
  refine Only.recover (X := False) Response.ok ?_
  rw [checkAuth, if_neg u.val_ne_empty]
  apply Only.bind (ListManager.reads_getAllList _)
  rintro (err | lists)
  · trivial
  · simp only
    rw [if_neg fun hc => absurd hc.2 (by decide)]
    trivial

/-- The server makes a call before it answers. -/
theorem request_ne_ret (u : UserID) (offset : String) (r : Response) : request u offset ≠ .ret r := by
  rw [request, serveHTTP, checkAuth, if_neg u.val_ne_empty]
  intro h
  cases h

/-! ## What is kept -/

theorem untouched_of_uncalled {k : Nat} : ∀ {hs : List Happening}, .call k ∉ hs → Untouched k hs
  | [], _             => trivial
  | .write _ :: _, h  => fun hc => h (List.mem_cons_of_mem _ hc)
  | .begin :: hs, h | .publish :: hs, h | .deliver :: hs, h | .call _ :: hs, h | .respond _ :: hs, h => by
    have hrest : Untouched k hs := untouched_of_uncalled fun hc => h (List.mem_cons_of_mem _ hc)
    exact hrest

theorem respond_mem_of_answered {k : Nat} : ∀ {hs : List Happening}, answered hs = some k → .respond k ∈ hs
  | .respond _ :: _, h => by
    cases h
    exact List.mem_cons_self
  | .begin :: _, h | .publish :: _, h | .deliver :: _, h | .call _ :: _, h | .write _ :: _, h =>
    List.mem_cons_of_mem _ (respond_mem_of_answered h)

/-- The requests in flight: each only reads, is whole until its first call, and answers with what is stored if nothing
has been written since. -/
structure Flying (E : Env) (u : UserID) (offset : String) (hs : List Happening) (t : Session) : Prop where
  listed   : t.world.Listed
  reads    : ∀ k p, t.flight k = some p → p.Only Call.Reads False
  unstarted : ∀ k, t.started ≤ k → t.flight k = none ∧ .call k ∉ hs
  whole    : ∀ k p, t.flight k = some p → .call k ∉ hs → p = request u offset
  current  : ∀ k p, t.flight k = some p → Untouched k hs →
    (p.run (serve E) t.world).1 = some (.lists (t.world.shown E u))

/-- What the front-end shows is what is stored, if nothing has been written since the server began to work off the
request answered last, or at all. -/
structure Showing (E : Env) (u : UserID) (hs : List Happening) (t : Session) : Prop where
  called     : ∀ k, .respond k ∈ hs → .call k ∈ hs
  shown      : ∀ k, answered hs = some k → Untouched k hs → t.InSync E u
  unanswered : answered hs = none → (∀ w, .write w ∉ hs) → t.InSync E u
  pending    : ∀ w, .write w ∈ hs → 0 < t.running + t.events + t.started
  waiting    : answered hs = none → ∀ k < t.started, t.flight k ≠ none

variable {E : Env} {u : UserID} {offset : String} {hs : List Happening} {t t' : Session}

/-- What is in flight after a change of the flight. -/
theorem update_some {f : Nat → Option (Api Response)} {j k : Nat} {q p : Api Response}
    (h : Function.update f j (some q) k = some p) : k = j ∧ p = q ∨ k ≠ j ∧ f k = some p := by
  by_cases hk : k = j
  · subst hk
    rw [Function.update_self] at h
    cases h
    exact .inl ⟨rfl, rfl⟩
  · rw [Function.update_of_ne hk] at h
    exact .inr ⟨hk, h⟩

theorem update_none {f : Nat → Option (Api Response)} {j k : Nat} {p : Api Response}
    (h : Function.update f j none k = some p) : f k = some p := by
  by_cases hk : k = j
  · subst hk
    rw [Function.update_self] at h
    cases h
  · rwa [Function.update_of_ne hk] at h

/-- What neither writes, starts nor works off a request leaves the requests in flight as they are. -/
theorem Flying.of_same (h : t.Flying E u offset hs) {e : Happening} (hworld : t'.world = t.world)
    (hflight : t'.flight = t.flight) (hstarted : t'.started = t.started) (hcall : ∀ k, .call k ≠ e)
    (huntouched : ∀ k, Untouched k (e :: hs) ↔ Untouched k hs) : t'.Flying E u offset (e :: hs) where
  listed := hworld ▸ h.listed
  reads k p hp := h.reads k p (hflight ▸ hp)
  unstarted k hk := by
    obtain ⟨hnone, hno⟩ := h.unstarted k (hstarted ▸ hk)
    exact ⟨hflight ▸ hnone, fun hc => hno (List.mem_of_ne_of_mem (hcall k) hc)⟩
  whole k p hp hc := h.whole k p (hflight ▸ hp) fun hm => hc (List.mem_cons_of_mem _ hm)
  current k p hp hu := hworld ▸ h.current k p (hflight ▸ hp) ((huntouched k).1 hu)

/-- **Every happening keeps the requests in flight.** -/
theorem Flying.next (h : t.Flying E u offset hs) {e : Happening} (he : t.next E u offset e = some t') :
    t'.Flying E u offset (e :: hs) := by
  have hwhole : ∀ {e : Happening} k p, t.flight k = some p → .call k ∉ e :: hs → p = request u offset :=
    fun k p hp hc => h.whole k p hp fun hm => hc (List.mem_cons_of_mem _ hm)
  cases step_of_next E u offset he with
  | begin => exact h.of_same rfl rfl rfl (fun k hc => by cases hc) fun k => Iff.rfl
  | publish _ => exact h.of_same rfl rfl rfl (fun k hc => by cases hc) fun k => Iff.rfl
  | write w _ =>
    refine ⟨w.property, h.reads, fun k hk => ?_, hwhole, fun k p hp hu => ?_⟩
    · obtain ⟨hnone, hno⟩ := h.unstarted k hk
      exact ⟨hnone, fun hc => hno (List.mem_of_ne_of_mem (fun hc => by cases hc) hc)⟩
    · -- what is untouched is still the whole request
      rw [h.whole k p hp hu, request_run E u offset w.property]
  | deliver _ =>
    refine ⟨h.listed, fun k p hp => ?_, fun k hk => ?_, fun k p hp hc => ?_, fun k p hp hu => ?_⟩
    · rcases update_some hp with ⟨-, rfl⟩ | ⟨-, hp⟩
      · exact request_reads u offset
      · exact h.reads k p hp
    · have hlt : t.started < k := hk
      obtain ⟨hnone, hno⟩ := h.unstarted k (Nat.le_of_lt hlt)
      refine ⟨?_, fun hc => hno (List.mem_of_ne_of_mem (fun hc => by cases hc) hc)⟩
      simp only
      rw [Function.update_of_ne (Nat.ne_of_gt hlt)]
      exact hnone
    · rcases update_some hp with ⟨-, rfl⟩ | ⟨-, hp⟩
      · rfl
      · exact hwhole k p hp hc
    · rcases update_some hp with ⟨-, rfl⟩ | ⟨-, hp⟩
      · rw [request_run E u offset h.listed]
      · exact h.current k p hp hu
  | @call j c f hj =>
    have hreads := h.reads j _ hj
    have hworld : (serve E c t.world).2 = t.world := hreads.1.serve E t.world
    simp only [hworld]
    refine ⟨h.listed, fun k p hp => ?_, fun k hk => ?_, fun k p hp hc => ?_, fun k p hp hu => ?_⟩
    · rcases update_some hp with ⟨-, rfl⟩ | ⟨-, hp⟩
      · exact hreads.2 _
      · exact h.reads k p hp
    · obtain ⟨hnone, hno⟩ := h.unstarted k hk
      have hkj : k ≠ j := by
        rintro rfl
        cases hnone.symm.trans hj
      refine ⟨?_, fun hc => hno (List.mem_of_ne_of_mem (fun hc => ?_) hc)⟩
      · simp only
        rw [Function.update_of_ne hkj]
        exact hnone
      · cases hc
        exact hkj rfl
    · rcases update_some hp with ⟨rfl, -⟩ | ⟨-, hp⟩
      · exact absurd List.mem_cons_self hc
      · exact hwhole k p hp hc
    · rcases update_some hp with ⟨rfl, rfl⟩ | ⟨-, hp⟩
      · have hrun := h.current k _ hj hu
        rw [Proc.run_call, hworld] at hrun
        exact hrun
      · exact h.current k p hp hu
  | respond j hj =>
    refine ⟨h.listed, fun k p hp => h.reads k p (update_none hp), fun k hk => ?_,
      fun k p hp hc => hwhole k p (update_none hp) hc, fun k p hp hu => h.current k p (update_none hp) hu⟩
    obtain ⟨hnone, hno⟩ := h.unstarted k hk
    refine ⟨?_, fun hc => hno (List.mem_of_ne_of_mem (fun hc => by cases hc) hc)⟩
    cases hup : Function.update t.flight j none k with
    | none => exact hup
    | some p => cases hnone.symm.trans (update_none hup)

/-- What neither writes nor answers keeps what is shown, and a request it takes from the flight was not in it. -/
theorem Showing.of_same (h : t.Showing E u hs) {e : Happening} (hrespond : ∀ k, .respond k ≠ e)
    (hwrite : ∀ w, .write w ≠ e) (hanswered : answered (e :: hs) = answered hs)
    (huntouched : ∀ k, Untouched k (e :: hs) ↔ Untouched k hs) (hsync : t.InSync E u → t'.InSync E u)
    (hpending : 0 < t.running + t.events + t.started → 0 < t'.running + t'.events + t'.started)
    (hwaiting : ∀ k < t'.started, t'.flight k = none → k < t.started ∧ t.flight k = none) :
    t'.Showing E u (e :: hs) where
  called k hk := List.mem_cons_of_mem _ (h.called k (List.mem_of_ne_of_mem (hrespond k) hk))
  shown k ha hu := hsync (h.shown k (hanswered.symm.trans ha) ((huntouched k).1 hu))
  unanswered ha hw := hsync (h.unanswered (hanswered.symm.trans ha) fun w hm => hw w (List.mem_cons_of_mem _ hm))
  pending w hm := hpending (h.pending w (List.mem_of_ne_of_mem (hwrite w) hm))
  waiting ha k hk hn := h.waiting (hanswered.symm.trans ha) k (hwaiting k hk hn).1 (hwaiting k hk hn).2

/-- **Every happening keeps what is shown.** -/
theorem Showing.next (h : t.Showing E u hs) (hf : t.Flying E u offset hs) {e : Happening}
    (he : t.next E u offset e = some t') : t'.Showing E u (e :: hs) := by
  cases step_of_next E u offset he with
  | begin =>
    refine h.of_same (fun k hc => by cases hc) (fun w hc => by cases hc) rfl (fun k => Iff.rfl) id (fun hp => ?_)
      fun k hk hn => ⟨hk, hn⟩
    simp only
    omega
  | publish _ =>
    refine h.of_same (fun k hc => by cases hc) (fun w hc => by cases hc) rfl (fun k => Iff.rfl) id (fun hp => ?_)
      fun k hk hn => ⟨hk, hn⟩
    simp only
    omega
  | deliver _ =>
    refine h.of_same (fun k hc => by cases hc) (fun w hc => by cases hc) rfl (fun k => Iff.rfl) id (fun hp => ?_)
      fun k hk hn => ?_
    · simp only
      omega
    · have hlt : k < t.started + 1 := hk
      by_cases hks : k = t.started
      · subst hks
        simp only [Function.update_self] at hn
        cases hn
      · simp only [Function.update_of_ne hks] at hn
        exact ⟨by omega, hn⟩
  | @call j c f hj =>
    have hworld : (serve E c t.world).2 = t.world := (hf.reads j _ hj).1.serve E t.world
    simp only [hworld]
    refine h.of_same (fun k hc => by cases hc) (fun w hc => by cases hc) rfl (fun k => Iff.rfl) id id fun k hk hn => ?_
    by_cases hkj : k = j
    · subst hkj
      simp only [Function.update_self] at hn
      cases hn
    · simp only [Function.update_of_ne hkj] at hn
      exact ⟨hk, hn⟩
  | write w hpos =>
    refine ⟨fun k hk => ?_, fun k ha hu => ?_, fun ha hw => absurd List.mem_cons_self (hw w), fun w hm => ?_,
      h.waiting⟩
    · exact List.mem_cons_of_mem _ (h.called k (List.mem_of_ne_of_mem (fun hc => by cases hc) hk))
    · -- a request answered has been touched
      exact absurd (h.called k (respond_mem_of_answered ha)) hu
    · simp only
      omega
  | @respond j r hj =>
    have hcalled : .call j ∈ hs := by
      by_contra hno
      exact request_ne_ret u offset r (hf.whole j _ hj hno).symm
    refine ⟨fun k hk => ?_, fun k ha hu => ?_, (fun ha => by cases ha),
      fun w hm => h.pending w (List.mem_of_ne_of_mem (fun hc => by cases hc) hm), (fun ha => by cases ha)⟩
    · rcases List.mem_cons.1 hk with hk | hk
      · cases hk
        exact List.mem_cons_of_mem _ hcalled
      · exact List.mem_cons_of_mem _ (h.called k hk)
    · cases ha
      have hr := hf.current _ _ hj hu
      cases hr
      rfl

/-! ## When everything has arrived -/

theorem Loaded.flying (h : t.Loaded E u) : t.Flying E u offset [] where
  listed := h.listed
  reads k p hp := absurd ((h.quiescent.2.2 k).symm.trans hp) (Option.some_ne_none p).symm
  unstarted k _ := ⟨h.quiescent.2.2 k, List.not_mem_nil⟩
  whole k p hp := absurd ((h.quiescent.2.2 k).symm.trans hp) (Option.some_ne_none p).symm
  current k p hp := absurd ((h.quiescent.2.2 k).symm.trans hp) (Option.some_ne_none p).symm

theorem Loaded.showing (h : t.Loaded E u) : t.Showing E u [] where
  called k hk := absurd hk List.not_mem_nil
  shown k ha := by cases ha
  unanswered _ _ := h.inSync
  pending w hw := absurd hw List.not_mem_nil
  waiting _ k hk := by
    rw [h.unstarted] at hk
    exact absurd hk (Nat.not_lt_zero k)

theorem Run.keeps {s : Session} (h : Run E u offset s hs t) (h0 : s.Loaded E u) :
    t.Flying E u offset hs ∧ t.Showing E u hs := by
  induction h with
  | start => exact ⟨h0.flying, h0.showing⟩
  | step _ e he ih => exact ⟨ih.1.next he, ih.2.next ih.1 he⟩

theorem Showing.inSync (h : t.Showing E u hs) (hq : t.Quiescent)
    (hlast : ∀ k, answered hs = some k → Untouched k hs) : t.InSync E u := by
  obtain ⟨hrunning, hevents, hflight⟩ := hq
  cases ha : answered hs with
  | some k => exact h.shown k ha (hlast k ha)
  | none =>
    -- nothing has been started, so nothing has been written
    have hnone : t.started = 0 := by
      by_contra hne
      exact h.waiting ha 0 (Nat.pos_of_ne_zero hne) (hflight 0)
    apply h.unanswered ha
    intro w hw
    have := h.pending w hw
    omega

/-- **The front-end shows what is stored** once everything has arrived, if the server began to work off the request
answered last after the last write. -/
theorem refresh_converges {s : Session} (h0 : s.Loaded E u) (h : Run E u offset s hs t) (hq : t.Quiescent)
    (hlast : ∀ k, answered hs = some k → Untouched k hs) : t.InSync E u :=
  (h.keeps h0).2.inSync hq hlast

/-! ## Responses in the order of their requests -/

/-- No response arrives after that of a request started later. -/
def InOrder : List Happening → Prop
  | []               => True
  | .respond k :: hs => (∀ j, .respond j ∈ hs → j < k) ∧ InOrder hs
  | _ :: hs          => InOrder hs

/-- Every request started is in flight or answered, and the last one has been started after the last write once every
event has arrived. -/
structure Counting (hs : List Happening) (t : Session) : Prop where
  unwritten : t.running = 0 → t.events = 0 → ∀ k, t.started = k + 1 → Untouched k hs
  answered  : ∀ k < t.started, t.flight k = none → .respond k ∈ hs
  begun     : ∀ k, .respond k ∈ hs → k < t.started

theorem Counting.next (h : t.Counting hs) (hf : t.Flying E u offset hs) {e : Happening}
    (he : t.next E u offset e = some t') : t'.Counting (e :: hs) := by
  have hold : ∀ {e : Happening} k, k < t.started → t.flight k = none → .respond k ∈ e :: hs :=
    fun k hk hn => List.mem_cons_of_mem _ (h.answered k hk hn)
  cases step_of_next E u offset he with
  | begin =>
    exact ⟨fun hr => by simp at hr, hold, fun k hk => h.begun k (List.mem_of_ne_of_mem (fun hc => by cases hc) hk)⟩
  | publish _ =>
    exact ⟨fun _ hv => by simp at hv, hold, fun k hk => h.begun k (List.mem_of_ne_of_mem (fun hc => by cases hc) hk)⟩
  | write w hpos =>
    exact ⟨fun hr => absurd hr (Nat.ne_of_gt hpos), hold,
      fun k hk => h.begun k (List.mem_of_ne_of_mem (fun hc => by cases hc) hk)⟩
  | deliver _ =>
    refine ⟨fun _ _ k hk => ?_, fun k hk hn => ?_, fun k hk => ?_⟩
    · obtain rfl : t.started = k := Nat.succ.inj hk
      have hnew : Untouched t.started hs := untouched_of_uncalled (hf.unstarted t.started (Nat.le_refl _)).2
      exact hnew
    · have hlt : k < t.started + 1 := hk
      have hne : k ≠ t.started := by
        rintro rfl
        simp only [Function.update_self] at hn
        cases hn
      simp only [Function.update_of_ne hne] at hn
      exact hold k (by omega) hn
    · exact Nat.lt_succ_of_lt (h.begun k (List.mem_of_ne_of_mem (fun hc => by cases hc) hk))
  | call j _ =>
    refine ⟨h.unwritten, fun k hk hn => ?_, fun k hk => h.begun k (List.mem_of_ne_of_mem (fun hc => by cases hc) hk)⟩
    have hne : k ≠ j := by
      rintro rfl
      simp only [Function.update_self] at hn
      cases hn
    simp only [Function.update_of_ne hne] at hn
    exact hold k hk hn
  | respond j hj =>
    refine ⟨h.unwritten, fun k hk hn => ?_, fun k hk => ?_⟩
    · by_cases hkj : k = j
      · subst hkj
        exact List.mem_cons_self
      · simp only [Function.update_of_ne hkj] at hn
        exact hold k hk hn
    · rcases List.mem_cons.1 hk with hk | hk
      · cases hk
        by_contra hge
        cases (hf.unstarted j (Nat.le_of_not_lt hge)).1.symm.trans hj
      · exact h.begun k hk

/-- The response that arrived last is of the latest request answered. -/
theorem InOrder.answered_max : ∀ {hs : List Happening} {k : Nat}, InOrder hs → answered hs = some k →
    ∀ j, .respond j ∈ hs → j ≤ k
  | .respond i :: hs, k, h, ha, j, hj => by
    cases ha
    rcases List.mem_cons.1 hj with hj | hj
    · cases hj
      exact Nat.le_refl _
    · exact Nat.le_of_lt (h.1 j hj)
  | .begin :: hs, k, h, ha, j, hj | .write _ :: hs, k, h, ha, j, hj | .publish :: hs, k, h, ha, j, hj
  | .deliver :: hs, k, h, ha, j, hj | .call _ :: hs, k, h, ha, j, hj => by
    have hin : InOrder hs := h
    have han : answered hs = some k := ha
    exact answered_max hin han j (by simpa using hj)

/-- **Responses in the order of their requests keep the front-end up to date.** -/
theorem refresh_inOrder {s : Session} (h0 : s.Loaded E u) (h : Run E u offset s hs t) (hq : t.Quiescent)
    (horder : InOrder hs) : t.InSync E u := by
  have hcount : t.Counting hs := by
    clear hq horder
    induction h with
    | start =>
      refine ⟨fun _ _ k hk => ?_, fun k hk => ?_, fun k hk => absurd hk List.not_mem_nil⟩
      · exact absurd (h0.unstarted.symm.trans hk) (Nat.succ_ne_zero k).symm
      · rw [h0.unstarted] at hk
        exact absurd hk (Nat.not_lt_zero k)
    | step h e he ih => exact ih.next (h.keeps h0).1 he
  apply (h.keeps h0).2.inSync hq
  intro k ha
  obtain ⟨hrunning, hevents, hflight⟩ := hq
  have hlt := hcount.begun k (respond_mem_of_answered ha)
  -- the last request started has been answered, so it is the one answered last
  have hlast := hcount.answered (t.started - 1) (by omega) (hflight _)
  have hmax := horder.answered_max ha _ hlast
  exact hcount.unwritten hrunning hevents k (by omega)

section sample

/-- Happenings in their order, played from a session. -/
def play (E : Env) (u : UserID) (offset : String) : List Happening → Session → Option Session
  | [], s      => some s
  | e :: es, s => (s.next E u offset e).bind (play E u offset es)

theorem run_of_play : ∀ (es : List Happening) {s t t' : Session} {hs : List Happening}, Run E u offset s hs t →
    play E u offset es t = some t' → Run E u offset s (es.reverse ++ hs) t'
  | [], _, _, _, _, h, ht       => by
    cases ht
    exact h
  | e :: es, _, t, _, hs, h, ht => by
    obtain ⟨t₁, he, ht⟩ := Option.bind_eq_some_iff.1 ht
    rw [List.reverse_cons, List.append_assoc]
    exact run_of_play es (.step h e he) ht

/-- The front-end has loaded three empty lists. -/
def emptyLoaded : Session :=
  ⟨.empty, 0, 0, fun _ => none, 0, PluginState.initial.receive (.response (.lists ⟨[], [], []⟩))⟩

theorem emptyLoaded_loaded : emptyLoaded.Loaded Env.sample ann where
  listed := World.sound_empty.toListed
  quiescent := ⟨rfl, rfl, fun _ => rfl⟩
  unstarted := rfl
  inSync := rfl

/-- The store once Ann has added a todo. -/
def milkAdded : World := (ListOp.addIssue ann "milk" "" "" "").after Env.sample .empty

theorem milkAdded_settled : milkAdded.Settled Env.sample := ListOp.settled (World.settled_empty _) trivial

/-- A todo is added and the lists are asked for. -/
def adding : List Happening :=
  [.begin, .write ⟨milkAdded, milkAdded_settled.sound.toListed⟩, .publish, .deliver, .call 0, .call 0, .call 0, .call 0]

/-- It is gone again and the lists are asked for. -/
def clearing : List Happening :=
  [.begin, .write ⟨.empty, World.sound_empty.toListed⟩, .publish, .deliver, .call 1, .call 1, .call 1]

theorem adding_converges : ∃ t, play Env.sample ann "" (adding ++ [.respond 0]) emptyLoaded = some t ∧
    t.InSync Env.sample ann := by
  refine ⟨_, rfl, refresh_converges emptyLoaded_loaded (run_of_play (adding ++ [.respond 0]) (.start _) rfl)
    ⟨rfl, rfl, fun k => ?_⟩ ?_⟩
  · rcases k with _ | k
    · rfl
    · rfl
  · intro k hk
    cases hk
    intro hm
    simp at hm

/-- **The older response, arriving last, stays.** -/
theorem stale_response_stays : ∃ hs t, Run Env.sample ann "" emptyLoaded hs t ∧ t.Quiescent ∧
    ¬ t.InSync Env.sample ann := by
  refine ⟨_, _, run_of_play (adding ++ clearing ++ [.respond 1, .respond 0]) (.start _) rfl,
    ⟨rfl, rfl, fun k => ?_⟩, fun hsync => ?_⟩
  · rcases k with _ | _ | k
    · rfl
    · rfl
    · rfl
  · have hmy : ∀ items, Json.field "my" (World.empty.shown Env.sample ann).json = some (.arr items) → items = [] := by
      intro items h
      cases h
      rfl
    cases hmy _ (congrArg (Json.field "my") hsync).symm

end sample

end Session
end Todo

import Mathlib.Data.List.Nodup
/-!
# Timers of an event loop

`setTimeout` returns a handle, `clearTimeout` takes one back, and a timer runs its job once it is due, but never before one
that was set earlier with no longer a delay: so timers of one delay run in the order they were set in.
-/

structure Timer (J : Type) where
  handle : Nat
  start  : Nat
  delay  : Nat
  job    : J
deriving DecidableEq

def Timer.due {J : Type} (t : Timer J) : Nat := t.start + t.delay

/-- A clock, the next handle, and the timers that have neither run nor been cleared, in the order they were set in. -/
structure Timers (J : Type) where
  now     : Nat
  handles : Nat
  pending : List (Timer J)

namespace Timers

variable {J : Type}

def setTimeout (ts : Timers J) (job : J) (delay : Nat) : Timers J :=
  { ts with handles := ts.handles + 1, pending := ts.pending ++ [⟨ts.handles, ts.now, delay, job⟩] }

/-- A handle that is not set, or of a timer that has run, is of no effect. -/
def clearTimeout (ts : Timers J) (handle : Option Nat) : Timers J :=
  { ts with pending := ts.pending.filter fun t => some t.handle ≠ handle }

/-- The timer may run now. -/
structure Ready (ts : Timers J) (t : Timer J) : Prop where
  pending : t ∈ ts.pending
  due     : t.due ≤ ts.now
  first   : ∀ t' ∈ ts.pending, t'.handle < t.handle → t.delay < t'.delay

/-- Every timer has a handle of its own, which has been handed out. -/
structure Distinct (ts : Timers J) : Prop where
  fresh : ∀ t ∈ ts.pending, t.handle < ts.handles
  nodup : (ts.pending.map Timer.handle).Nodup

theorem mem_setTimeout {ts : Timers J} {job : J} {delay : Nat} {t : Timer J} :
    t ∈ (ts.setTimeout job delay).pending ↔ t ∈ ts.pending ∨ t = ⟨ts.handles, ts.now, delay, job⟩ := by
  simp [setTimeout]

theorem mem_clearTimeout {ts : Timers J} {handle : Option Nat} {t : Timer J} :
    t ∈ (ts.clearTimeout handle).pending ↔ t ∈ ts.pending ∧ some t.handle ≠ handle := by
  simp [clearTimeout]

namespace Distinct

variable {ts : Timers J} (h : ts.Distinct)
include h

theorem inj {t t' : Timer J} (ht : t ∈ ts.pending) (ht' : t' ∈ ts.pending) (he : t.handle = t'.handle) : t = t' :=
  List.inj_on_of_nodup_map h.nodup ht ht' he

theorem setTimeout (job : J) (delay : Nat) : (ts.setTimeout job delay).Distinct where
  fresh t ht := by
    rcases mem_setTimeout.1 ht with ht | rfl
    · exact Nat.lt_succ_of_lt (h.fresh t ht)
    · exact Nat.lt_succ_self _
  nodup := by
    have hnew : ts.handles ∉ ts.pending.map Timer.handle := by
      rintro hmem
      obtain ⟨t, ht, he⟩ := List.mem_map.1 hmem
      exact Nat.ne_of_lt (h.fresh t ht) he
    rw [Timers.setTimeout, List.map_append, List.map_singleton]
    exact h.nodup.append (List.nodup_singleton _) (List.disjoint_singleton.2 hnew)

theorem clearTimeout (handle : Option Nat) : (ts.clearTimeout handle).Distinct :=
  ⟨fun t ht => h.fresh t (mem_clearTimeout.1 ht).1, h.nodup.sublist (List.filter_sublist.map _)⟩

end Distinct

section count
variable (p : Timer J → Bool) (ts : Timers J)

theorem countP_setTimeout (job : J) (delay : Nat) : (ts.setTimeout job delay).pending.countP p =
    ts.pending.countP p + if p ⟨ts.handles, ts.now, delay, job⟩ then 1 else 0 := by
  rw [Timers.setTimeout, List.countP_append, List.countP_singleton]

theorem countP_clearTimeout_le (handle : Option Nat) :
    (ts.clearTimeout handle).pending.countP p ≤ ts.pending.countP p :=
  List.filter_sublist.countP_le

/-- A timer that does not count is cleared. -/
theorem countP_le_clearTimeout {handle : Option Nat} (h : ∀ t ∈ ts.pending, some t.handle = handle → p t = false) :
    ts.pending.countP p ≤ (ts.clearTimeout handle).pending.countP p := by
  rw [clearTimeout, List.countP_filter]
  refine List.countP_mono_left fun t ht hp => ?_
  have hother : some t.handle ≠ handle := fun heq => by rw [h t ht heq] at hp; cases hp
  rw [hp, decide_eq_true hother]
  rfl

/-- No more than one is cleared. -/
theorem Distinct.countP_le_clearTimeout {ts : Timers J} (h : ts.Distinct) (handle : Nat) :
    ts.pending.countP p ≤ (ts.clearTimeout (some handle)).pending.countP p + 1 := by
  have hsplit := List.countP_eq_countP_filter_add ts.pending p fun t => decide (some t.handle ≠ some handle)
  have hone : (ts.pending.filter fun t => !decide (some t.handle ≠ some handle)).countP p ≤ 1 :=
    calc (ts.pending.filter fun t => !decide (some t.handle ≠ some handle)).countP p
      _ ≤ (ts.pending.filter fun t => !decide (some t.handle ≠ some handle)).length := List.countP_le_length
      _ = (ts.pending.map Timer.handle).count handle := by
        rw [← List.countP_eq_length_filter, List.count, List.countP_map]
        exact List.countP_congr fun t _ => by simp
      _ ≤ 1 := List.nodup_iff_count_le_one.1 h.nodup handle
  have hcleared : (ts.clearTimeout (some handle)).pending =
      ts.pending.filter fun t => decide (some t.handle ≠ some handle) := rfl
  rw [hcleared]
  omega

/-- A timer cleared is one fewer. -/
theorem countP_clearTimeout_lt {t : Timer J} (ht : t ∈ ts.pending) (hp : p t = true) :
    (ts.clearTimeout (some t.handle)).pending.countP p + 1 ≤ ts.pending.countP p := by
  have hsplit := List.countP_eq_countP_filter_add ts.pending p fun t' => decide (some t'.handle ≠ some t.handle)
  have hpos : 0 < (ts.pending.filter fun t' => !decide (some t'.handle ≠ some t.handle)).countP p :=
    List.countP_pos_iff.2 ⟨t, List.mem_filter.2 ⟨ht, by simp⟩, hp⟩
  have hcleared : (ts.clearTimeout (some t.handle)).pending =
      ts.pending.filter fun t' => decide (some t'.handle ≠ some t.handle) := rfl
  rw [hcleared]
  omega

end count
end Timers

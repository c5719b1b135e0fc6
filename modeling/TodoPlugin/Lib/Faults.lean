import TodoPlugin.Lib.Proc
/-!
# Services with faults

A service some of whose calls can be struck: `answer` says which, and what a struck call is answered; it has no effect.
A fault lets some of these calls pass and then strikes so many in a row.  `cost` counts them in a run without faults: a
run that costs no more than the fault lets pass is the run without it (`run_passed`), one that costs more spends a fault
of one strike (`spent_of_lt`), and a spent fault changes nothing (`run_spent`).
-/
namespace Proc

/-- A fault to come: of the calls that can be struck `passes` are let pass, and then `strikes` struck. -/
structure Fault where
  passes  : Nat
  strikes : Nat

variable {C : Type} {R : C → Type} {S α β : Type}

/-- **A service with faults.** -/
def faulty (answer : (c : C) → Option (R c)) (serve : (c : C) → S → R c × S) : (c : C) → S × Fault → R c × (S × Fault)
  | c, (s, ⟨_, 0⟩)          => ((serve c s).1, ((serve c s).2, ⟨0, 0⟩))
  | c, (s, ⟨0, k + 1⟩)      =>
    match answer c with
    | some r => (r, (s, ⟨0, k⟩))
    | none   => ((serve c s).1, ((serve c s).2, ⟨0, k + 1⟩))
  | c, (s, ⟨n + 1, k + 1⟩)  => ((serve c s).1, ((serve c s).2, ⟨if (answer c).isSome then n else n + 1, k + 1⟩))

/-- The calls of a run that can be struck. -/
def cost (answer : (c : C) → Option (R c)) (serve : (c : C) → S → R c × S) : Proc C R α → S → Nat
  | .ret _, _    => 0
  | .panic, _    => 0
  | .call c k, s => (if (answer c).isSome then 1 else 0) + (k (serve c s).1).cost answer serve (serve c s).2

section cost
variable (answer : (c : C) → Option (R c)) (serve : (c : C) → S → R c × S)

@[simp] theorem cost_ret (a : α) (s : S) : (.ret a : Proc C R α).cost answer serve s = 0 := rfl
@[simp] theorem cost_call (c : C) (k : R c → Proc C R α) (s : S) : (.call c k : Proc C R α).cost answer serve s =
    (if (answer c).isSome then 1 else 0) + (k (serve c s).1).cost answer serve (serve c s).2 := rfl

theorem cost_bind (f : α → Proc C R β) : ∀ (p : Proc C R α) (s : S),
    (p >>= f).cost answer serve s = p.cost answer serve s + match p.run serve s with
      | (some a, t) => (f a).cost answer serve t
      | (none, _)   => 0
  | .ret a, s    => by rw [ret_bind, cost_ret, Nat.zero_add, run_ret]
  | .panic, s    => rfl
  | .call c k, s => by rw [call_bind, cost_call, cost_bind f (k _), cost_call, run_call, Nat.add_assoc]

/-- **Sequencing** adds the costs. -/
theorem cost_bind_of {p : Proc C R α} {s t : S} {a : α} (h : p.run serve s = (some a, t)) (f : α → Proc C R β) :
    (p >>= f).cost answer serve s = p.cost answer serve s + (f a).cost answer serve t := by
  rw [cost_bind, h]

end cost

section faulty
variable {answer : (c : C) → Option (R c)} {serve : (c : C) → S → R c × S}

theorem faulty_struck {c : C} {r : R c} (h : answer c = some r) (s : S) (k : Nat) :
    faulty answer serve c (s, ⟨0, k + 1⟩) = (r, (s, ⟨0, k⟩)) := by
  simp only [faulty, h]

theorem faulty_passed {c : C} {n k : Nat} (h : (if (answer c).isSome then 1 else 0) ≤ n) (s : S) :
    faulty answer serve c (s, ⟨n, k + 1⟩) =
      ((serve c s).1, ((serve c s).2, ⟨n - if (answer c).isSome then 1 else 0, k + 1⟩)) := by
  cases n with
  | zero =>
    cases hc : answer c with
    | none => simp [faulty, hc]
    | some r => simp [hc] at h
  | succ n =>
    cases hc : answer c with
    | none => simp [faulty, hc]
    | some r => simp [faulty, hc]

/-- **A spent fault changes nothing.** -/
theorem run_spent : ∀ (p : Proc C R α) (s : S),
    p.run (faulty answer serve) (s, ⟨0, 0⟩) = ((p.run serve s).1, ((p.run serve s).2, ⟨0, 0⟩))
  | .ret _, _    => rfl
  | .panic, _    => rfl
  | .call c k, s => run_spent (k (serve c s).1) (serve c s).2

/-- **A run the fault lets pass** is the run without it. -/
theorem run_passed {k : Nat} : ∀ {p : Proc C R α} {s : S} {n : Nat}, p.cost answer serve s ≤ n →
    p.run (faulty answer serve) (s, ⟨n, k + 1⟩) =
      ((p.run serve s).1, ((p.run serve s).2, ⟨n - p.cost answer serve s, k + 1⟩))
  | .ret _, _, _, _    => rfl
  | .panic, _, _, _    => rfl
  | .call c p, s, n, h => by
    rw [cost_call] at h ⊢
    rw [run_call, faulty_passed (by omega)]
    show (p (serve c s).1).run (faulty answer serve) ((serve c s).2, _) = _
    rw [run_passed (by omega), run_call, Nat.sub_sub]

/-- **A fault of one strike is spent** in a run that costs more than it lets pass. -/
theorem spent_of_lt : ∀ {p : Proc C R α} {s : S} {n : Nat}, n < p.cost answer serve s →
    (p.run (faulty answer serve) (s, ⟨n, 1⟩)).2.2 = ⟨0, 0⟩
  | .call c p, s, n, h => by
    rw [cost_call] at h
    rw [run_call]
    by_cases hpass : (if (answer c).isSome then 1 else 0) ≤ n
    · rw [faulty_passed hpass]
      exact spent_of_lt (p := p (serve c s).1) (by omega)
    · cases hc : answer c with
      | none => simp [hc] at hpass
      | some r =>
        obtain rfl : n = 0 := by simpa [hc] using hpass
        rw [faulty_struck hc, run_spent]

/-- What makes no call that can be struck costs nothing. -/
theorem Only.cost {P : C → Prop} {X : Prop} (hP : ∀ c, P c → answer c = none) :
    ∀ {p : Proc C R α}, p.Only P X → ∀ s, p.cost answer serve s = 0
  | .ret _, _, _           => rfl
  | .panic, _, _           => rfl
  | .call c p, ⟨hc, hk⟩, s => by
    rw [cost_call, hP c hc, Only.cost hP (hk _)]
    rfl

end faulty
end Proc

import TodoPlugin.Lib.Histories
import Mathlib.Logic.Relation
/-!
# Services with more than one outcome

A service need not answer a call in one way: it may fail, or do what it was asked and fail to say so.  `outcome c s r s'`
says that the call `c` made in the state `s` may be answered `r` and leave `s'`, and `Pool.Turns` is a pool run over such
a service: any members, in any order, each call with any of its outcomes, and any member may stop for good where it is.

The proof rule is rely/guarantee on ghost states, as over a service that is a function, but for two things: whatever the
outcome of a call is, the procedure has to go on from it, and nothing is asked of it once it has panicked.
-/
namespace Proc

variable {C : Type} {R : C → Type} {S Γ α β : Type}

section Steady
variable (outcome : (c : C) → S → R c → S → Prop) (shape : Γ → S) (rely guar : Γ → Γ → Prop)

/-- **Steady**: whatever the others do within `rely` before each call, and whatever its outcome, the call moves the ghost
state within `guar`; a procedure that returns does so within its postcondition. -/
def Steady (post : α → Γ → Prop) : Proc C R α → Γ → Prop
  | .ret a, g    => ∀ g', rely g g' → post a g'
  | .panic, _    => True
  | .call c k, g => ∀ g', rely g g' → ∀ r s', outcome c (shape g') r s' →
      ∃ g'', shape g'' = s' ∧ guar g' g'' ∧ (k r).Steady post g''

variable {outcome shape rely guar}
variable {post : α → Γ → Prop} {post' : β → Γ → Prop}

/-- What the others do first changes nothing. -/
theorem Steady.rely_left (htrans : ∀ a b c, rely a b → rely b c → rely a c) :
    ∀ {p : Proc C R α} {g g' : Γ}, p.Steady outcome shape rely guar post g → rely g g' →
      p.Steady outcome shape rely guar post g'
  | .ret _, _, _, h, hr    => fun g'' hr' => h g'' (htrans _ _ _ hr hr')
  | .panic, _, _, h, _     => h
  | .call _ _, _, _, h, hr => fun g'' hr' => h g'' (htrans _ _ _ hr hr')

theorem Steady.mono {post' : α → Γ → Prop} (hpost : ∀ a g, post a g → post' a g) :
    ∀ {p : Proc C R α} {g : Γ}, p.Steady outcome shape rely guar post g → p.Steady outcome shape rely guar post' g
  | .ret a, _, h    => fun g' hr => hpost a g' (h g' hr)
  | .panic, _, _    => trivial
  | .call _ _, _, h => fun g' hr r s' ho =>
    have ⟨g'', h1, h2, h3⟩ := h g' hr r s' ho
    ⟨g'', h1, h2, Steady.mono hpost h3⟩

/-- **Sequencing.** -/
theorem Steady.bind (hrefl : ∀ g, rely g g) {f : α → Proc C R β} :
    ∀ {p : Proc C R α} {g : Γ},
      p.Steady outcome shape rely guar (fun a g' => (f a).Steady outcome shape rely guar post' g') g →
        (p >>= f).Steady outcome shape rely guar post' g
  | .ret _, g, h    => h g (hrefl g)
  | .panic, _, h    => h
  | .call _ _, _, h => fun g' hr r s' ho =>
    have ⟨g'', h1, h2, h3⟩ := h g' hr r s' ho
    ⟨g'', h1, h2, Steady.bind hrefl h3⟩

/-- What is returned under another name is returned. -/
theorem Steady.of_map {f : α → β} : ∀ {p : Proc C R α} {g : Γ},
    (p >>= fun a => pure (f a)).Steady outcome shape rely guar (fun _ _ => True) g →
      p.Steady outcome shape rely guar (fun _ _ => True) g
  | .ret _, _, _    => fun _ _ => trivial
  | .panic, _, _    => trivial
  | .call _ _, _, h => fun g' hr r s' ho =>
    have ⟨g'', h1, h2, h3⟩ := h g' hr r s' ho
    ⟨g'', h1, h2, Steady.of_map h3⟩

/-- A panic that is caught asks for nothing. -/
theorem Steady.recover (a : α) : ∀ {p : Proc C R α} {g : Γ}, p.Steady outcome shape rely guar post g →
    (p.recover a).Steady outcome shape rely guar (fun _ _ => True) g
  | .ret _, _, _    => fun _ _ => trivial
  | .panic, _, _    => fun _ _ => trivial
  | .call _ _, _, h => fun g' hr r s' ho =>
    have ⟨g'', h1, h2, h3⟩ := h g' hr r s' ho
    ⟨g'', h1, h2, Steady.recover a h3⟩

/-- **A part whose calls move no ghost state** but within the rely hands over to what follows it, whatever it
returns. -/
theorem Only.steady {P : C → Prop} {X : Prop} (hrefl : ∀ g, rely g g)
    (htrans : ∀ a b c, rely a b → rely b c → rely a c)
    (hstep : ∀ c g r s', P c → outcome c (shape g) r s' → ∃ g', shape g' = s' ∧ guar g g' ∧ rely g g') {f : α → Proc C R β} :
    ∀ {p : Proc C R α} {g : Γ}, p.Only P X →
      (∀ a g', rely g g' → (f a).Steady outcome shape rely guar post' g') →
        (p >>= f).Steady outcome shape rely guar post' g
  | .ret a, g, _, hf           => hf a g (hrefl g)
  | .panic, _, _, _            => trivial
  | .call c _, _, ⟨hc, hk⟩, hf => fun g' hr r s' ho =>
    have ⟨g'', h1, h2, h3⟩ := hstep c g' r s' hc ho
    ⟨g'', h1, h2, Only.steady hrefl htrans hstep (hk r) fun a g₃ hr₃ => hf a g₃ (htrans _ _ _ hr (htrans _ _ _ h3 hr₃))⟩

end Steady
end Proc

namespace Pool

variable {ι C : Type} {R : C → Type} {α S Γ : Type} [DecidableEq ι]

/-- **One turn**: a member whose next call is `c` makes it, with one of its outcomes. -/
inductive Turn (outcome : (c : C) → S → R c → S → Prop) : Pool ι C R α S → Event ι C R → Pool ι C R α S → Prop
  | call {P : Pool ι C R α S} {i : ι} {c : C} {k : R c → Proc C R α} {r : R c} {s' : S} (h : P.procs i = .call c k)
      (ho : outcome c P.state r s') : Turn outcome P ⟨i, c, r⟩ ⟨Function.update P.procs i (k r), s'⟩

/-- **Any number of turns**, in any order of the members. -/
inductive Turns (outcome : (c : C) → S → R c → S → Prop) :
    Pool ι C R α S → List (Event ι C R) → Pool ι C R α S → Prop
  | done (P : Pool ι C R α S) : Turns outcome P [] P
  | turn {P P' P'' : Pool ι C R α S} {e : Event ι C R} {tr : List (Event ι C R)} :
      Turn outcome P e P' → Turns outcome P' tr P'' → Turns outcome P (e :: tr) P''

section
variable {outcome : (c : C) → S → R c → S → Prop}

/-- A run over a service that is a function is one over any service with that outcome. -/
theorem Exec.turns {serve : (c : C) → S → R c × S} (hserve : ∀ c s, outcome c s (serve c s).1 (serve c s).2)
    {P P' : Pool ι C R α S} {tr : List (Event ι C R)} (h : Exec serve P tr P') : Turns outcome P tr P' := by
  induction h with
  | done P => exact .done P
  | turn hstep _ ih =>
    cases hstep with
    | turn i c k hi => exact .turn (.call hi (hserve c _)) ih

theorem Turns.append {P P' P'' : Pool ι C R α S} {tr tr' : List (Event ι C R)} (h : Turns outcome P tr P')
    (h' : Turns outcome P' tr' P'') : Turns outcome P (tr ++ tr') P'' := by
  induction h with
  | done P => exact h'
  | turn hstep _ ih => exact .turn hstep (ih h')

/-- **Where an event happened**: the pool before it and after it. -/
theorem Turns.split {e : Event ι C R} {post : List (Event ι C R)} {P' : Pool ι C R α S} :
    ∀ {pre : List (Event ι C R)} {P : Pool ι C R α S}, Turns outcome P (pre ++ e :: post) P' →
      ∃ P₁ P₂, Turns outcome P pre P₁ ∧ Turn outcome P₁ e P₂ ∧ Turns outcome P₂ post P'
  | [], P, h     => by
    cases h with
    | turn hstep h => exact ⟨P, _, .done P, hstep, h⟩
  | f :: pre, P, h => by
    cases h with
    | turn hstep h =>
      obtain ⟨P₁, P₂, h₁, he, h₂⟩ := Turns.split h
      exact ⟨P₁, P₂, .turn hstep h₁, he, h₂⟩

/-! ## Rely and guarantee -/

variable {shape : Γ → S} {rely guar : ι → Γ → Γ → Prop} {post : ι → α → Γ → Prop}

/-- A step of one of the members. -/
def Moves (guar : ι → Γ → Γ → Prop) (g g' : Γ) : Prop := ∃ i, guar i g g'

/-- One turn keeps every member steady. -/
theorem Turn.steady (hrefl : ∀ i g, rely i g g) (htrans : ∀ i a b c, rely i a b → rely i b c → rely i a c)
    (hcompat : ∀ i j g g', i ≠ j → guar i g g' → rely j g g') {P P' : Pool ι C R α S} {e : Event ι C R}
    (h : Turn outcome P e P') {g : Γ} (hs : P.state = shape g)
    (hsteady : ∀ i, (P.procs i).Steady outcome shape (rely i) (guar i) (post i) g) :
    ∃ g', P'.state = shape g' ∧ guar e.who g g' ∧
      ∀ i, (P'.procs i).Steady outcome shape (rely i) (guar i) (post i) g' := by
  cases h with
  | @call i c k r s' hi ho =>
    have hown := hsteady i
    rw [hi] at hown
    rw [hs] at ho
    obtain ⟨g', h1, h2, h3⟩ := hown g (hrefl i g) r s' ho
    refine ⟨g', h1.symm, h2, fun j => ?_⟩
    by_cases hj : j = i
    · subst hj
      simpa using h3
    · simp only [Function.update_of_ne hj]
      exact (hsteady j).rely_left (htrans j) (hcompat i j g g' (Ne.symm hj) h2)

/-- **Rely/guarantee.**  Where every guarantee is within the others' rely, any turns are a path of ghost states, and keep
every member steady. -/
theorem Turns.steady (hrefl : ∀ i g, rely i g g) (htrans : ∀ i a b c, rely i a b → rely i b c → rely i a c)
    (hcompat : ∀ i j g g', i ≠ j → guar i g g' → rely j g g') {P P' : Pool ι C R α S} {tr : List (Event ι C R)}
    (h : Turns outcome P tr P') : ∀ {g : Γ}, P.state = shape g →
      (∀ i, (P.procs i).Steady outcome shape (rely i) (guar i) (post i) g) →
        ∃ g', P'.state = shape g' ∧ Relation.ReflTransGen (Moves guar) g g' ∧
          ∀ i, (P'.procs i).Steady outcome shape (rely i) (guar i) (post i) g' := by
  induction h with
  | done P => exact fun hs hsteady => ⟨_, hs, .refl, hsteady⟩
  | @turn P P₁ P₂ e tr hstep _ ih =>
    intro g hs hsteady
    obtain ⟨g₁, hs₁, hg, hsteady₁⟩ := hstep.steady hrefl htrans hcompat hs hsteady
    obtain ⟨g₂, hs₂, hp, hsteady₂⟩ := ih hs₁ hsteady₁
    exact ⟨g₂, hs₂, .head ⟨e.who, hg⟩ hp, hsteady₂⟩

/-! ## Histories -/

/-- **A member that has returned** did so after a history its result suits. -/
theorem Turns.returned {Q : ι → List ((c : C) × R c) → C → Prop} {post : ι → α → List ((c : C) × R c) → Prop}
    {P P' : Pool ι C R α S} {tr : List (Event ι C R)} (h : Turns outcome P tr P') :
    ∀ {l : ι → List ((c : C) × R c)}, (∀ i, (P.procs i).Along (Q i) (post i) (l i)) →
      ∀ i, (P'.procs i).Along (Q i) (post i) (l i ++ own i tr) := by
  induction h with
  | done P =>
    intro l hal i
    simpa [own] using hal i
  | @turn P P₁ P₂ e tr hstep _ ih =>
    intro l hal i
    cases hstep with
    | @call j c k r s' hj ho =>
      have hnext : ∀ i, ((Function.update P.procs j (k r)) i).Along (Q i) (post i) (l i ++ own i [⟨j, c, r⟩]) := by
        intro i
        by_cases hi : i = j
        · subst hi
          have hown := hal i
          rw [hj] at hown
          rw [own_cons_self (e := ⟨i, c, r⟩) rfl]
          simpa [own] using hown.2 r
        · rw [own_cons_of_ne (e := ⟨j, c, r⟩) (Ne.symm hi)]
          simpa [own, Function.update_of_ne hi] using hal i
      have := ih hnext i
      rw [List.append_assoc, ← own_append] at this
      exact this

end
end Pool

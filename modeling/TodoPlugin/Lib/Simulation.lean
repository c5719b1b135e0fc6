import Mathlib.Data.List.ReduceOption
/-!
# Simulation

A transition system has labelled steps; where a label may be missing, the step without one is silent.  A simulation of a
system with silent steps by one without carries every run over, with the labels it shows, and with the runs whatever the
second system keeps.
-/
namespace Labelled

variable {S A L : Type}

/-- **Steps one after another**, with their labels. -/
inductive Steps (step : S → L → S → Prop) : S → List L → S → Prop
  | nil (s : S) : Steps step s [] s
  | cons {s t u : S} {l : L} {ls : List L} : step s l t → Steps step t ls u → Steps step s (l :: ls) u

section steps
variable {step : S → L → S → Prop}

/-- **What every step keeps of a state and the labels so far, all of them keep.** -/
theorem Steps.keep {I : List L → S → Prop} (hstep : ∀ ls s l t, I ls s → step s l t → I (ls ++ [l]) t) {s t : S}
    {ls : List L} (h : Steps step s ls t) : ∀ {before : List L}, I before s → I (before ++ ls) t := by
  induction h with
  | nil s =>
    intro before hs
    rwa [List.append_nil]
  | @cons s t u l ls hfirst _ ih =>
    intro before hs
    rw [List.append_cons]
    exact ih (hstep _ _ _ _ hs hfirst)

end steps

/-- **The relation is a simulation**: a step that shows a label is one of the second system with that label, and a silent
one leaves the second system where it is. -/
def Simulates (R : S → A → Prop) (step : S → Option L → S → Prop) (astep : A → L → A → Prop) : Prop :=
  ∀ s l t a, R s a → step s l t → l.elim (R t a) fun l => ∃ b, astep a l b ∧ R t b

namespace Simulates

variable {R : S → A → Prop} {step : S → Option L → S → Prop} {astep : A → L → A → Prop}

/-- **A simulation carries runs over**, with the labels they show. -/
theorem steps (h : Simulates R step astep) {s t : S} {ls : List (Option L)} (hsteps : Steps step s ls t) :
    ∀ {a : A}, R s a → ∃ b, Steps astep a ls.reduceOption b ∧ R t b := by
  induction hsteps with
  | nil s => exact fun {a} hs => ⟨a, .nil a, hs⟩
  | @cons s _ t l ls hfirst _ ih =>
    intro a hs
    have hnext := h _ _ _ _ hs hfirst
    cases l with
    | none =>
      rw [List.reduceOption_cons_of_none]
      exact ih hnext
    | some l =>
      obtain ⟨c, hc, hR⟩ := hnext
      obtain ⟨b, hb, ht⟩ := ih hR
      rw [List.reduceOption_cons_of_some]
      exact ⟨b, .cons hc hb, ht⟩

end Simulates
end Labelled

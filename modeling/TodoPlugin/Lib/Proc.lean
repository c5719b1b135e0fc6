import Mathlib.Logic.Function.Basic
/-!
# Procedures over a call interface

A procedure is the tree of the calls it makes: it answers, it panics, or it makes one call and goes on with the
response.  The calls are `C`, and `R c` is what the call `c` is answered with.  What a call does is not part of the
tree: a *service* `(c : C) → S → R c × S` answers calls from a state, so one procedure is run alone (`Proc.run`), one
after another (`Proc.Runs`) or in turns with others (`Lib.Pool`) without being written twice.
-/

/-- A procedure making calls `c : C`, answered in `R c`, and returning an `α`. -/
inductive Proc (C : Type) (R : C → Type) (α : Type) where
  | ret (a : α)
  | panic
  | call (c : C) (k : R c → Proc C R α)

namespace Proc

variable {C : Type} {R : C → Type} {S α β γ : Type}

def bind : Proc C R α → (α → Proc C R β) → Proc C R β
  | .ret a, f    => f a
  | .panic, _    => .panic
  | .call c k, f => .call c (fun r => (k r).bind f)

/-- The call `c` itself, returning its response. -/
def request (c : C) : Proc C R (R c) := .call c .ret

instance : Monad (Proc C R) where
  pure := .ret
  bind := bind

@[simp] theorem pure_eq (a : α) : (pure a : Proc C R α) = .ret a := rfl
@[simp] theorem ret_bind (a : α) (f : α → Proc C R β) : (.ret a : Proc C R α) >>= f = f a := rfl
@[simp] theorem panic_bind (f : α → Proc C R β) : (.panic : Proc C R α) >>= f = .panic := rfl
@[simp] theorem call_bind (c : C) (k : R c → Proc C R α) (f : α → Proc C R β) :
    (.call c k : Proc C R α) >>= f = .call c (fun r => k r >>= f) := rfl
theorem request_bind (c : C) (f : R c → Proc C R β) : request c >>= f = .call c f := rfl

@[simp] theorem bind_ret : ∀ p : Proc C R α, p >>= .ret = p
  | .ret _    => rfl
  | .panic    => rfl
  | .call c k => by
    rw [call_bind]
    congr 1
    funext r
    exact bind_ret (k r)

theorem bind_assoc (f : α → Proc C R β) (g : β → Proc C R γ) :
    ∀ p : Proc C R α, p >>= f >>= g = p >>= fun a => f a >>= g
  | .ret _    => rfl
  | .panic    => rfl
  | .call c k => by
    rw [call_bind, call_bind, call_bind]
    congr 1
    funext r
    exact bind_assoc f g (k r)

/-- The procedure has returned. -/
def returned : Proc C R α → Bool
  | .ret _ => true
  | _      => false

/-- The procedure with its panics caught, where it goes on to return `a`. -/
def recover (a : α) : Proc C R α → Proc C R α
  | .ret b    => .ret b
  | .panic    => .ret a
  | .call c k => .call c (fun r => (k r).recover a)

/-! ## Running alone -/

/-- **A run of one procedure**, every call answered in turn: what it returns (`none` when it panics) and the state it
leaves. -/
def run (serve : (c : C) → S → R c × S) : Proc C R α → S → Option α × S
  | .ret a, s    => (some a, s)
  | .panic, s    => (none, s)
  | .call c k, s => (k (serve c s).1).run serve (serve c s).2

section run
variable (serve : (c : C) → S → R c × S)

@[simp] theorem run_ret (a : α) (s : S) : (.ret a : Proc C R α).run serve s = (some a, s) := rfl
@[simp] theorem run_panic (s : S) : (.panic : Proc C R α).run serve s = (none, s) := rfl
@[simp] theorem run_call (c : C) (k : R c → Proc C R α) (s : S) :
    (.call c k : Proc C R α).run serve s = (k (serve c s).1).run serve (serve c s).2 := rfl

theorem run_bind (f : α → Proc C R β) : ∀ (p : Proc C R α) (s : S),
    (p >>= f).run serve s = match p.run serve s with
      | (some a, t) => (f a).run serve t
      | (none, t)   => (none, t)
  | .ret _, _    => rfl
  | .panic, _    => rfl
  | .call c k, s => by rw [call_bind, run_call, run_call, run_bind f (k _)]

/-- **Sequencing**: a part that returns `a` hands over to what follows it. -/
theorem run_bind_of {p : Proc C R α} {s t : S} {a : α} (h : p.run serve s = (some a, t)) (f : α → Proc C R β) :
    (p >>= f).run serve s = (f a).run serve t := by
  rw [run_bind, h]

end run

/-! ## What a procedure may do -/

/-- **Every call is in `P`**, whatever the calls before it are answered, and it panics only where `X` holds. -/
def Only (P : C → Prop) (X : Prop) : Proc C R α → Prop
  | .ret _    => True
  | .panic    => X
  | .call c k => P c ∧ ∀ r, (k r).Only P X

section only
variable {P : C → Prop} {X : Prop} {serve : (c : C) → S → R c × S}

theorem Only.ret (a : α) : (pure a : Proc C R α).Only P X := trivial

theorem Only.request {c : C} (hc : P c) : (request c : Proc C R (R c)).Only P X := ⟨hc, fun _ => trivial⟩

theorem Only.bind : ∀ {p : Proc C R α} {f : α → Proc C R β}, p.Only P X → (∀ a, (f a).Only P X) →
    (p >>= f).Only P X
  | .ret a, _, _, hf           => hf a
  | .panic, _, h, _            => h
  | .call _ _, _, ⟨hc, hk⟩, hf => ⟨hc, fun r => Only.bind (hk r) hf⟩

theorem Only.mono {Q : C → Prop} {Y : Prop} (hPQ : ∀ c, P c → Q c) (hXY : X → Y) :
    ∀ {p : Proc C R α}, p.Only P X → p.Only Q Y
  | .ret _, _           => trivial
  | .panic, h           => hXY h
  | .call c _, ⟨hc, hk⟩ => ⟨hPQ c hc, fun r => Only.mono hPQ hXY (hk r)⟩

/-- **What every call in `P` keeps, the procedure keeps.** -/
theorem Only.run {I : S → Prop} (hstep : ∀ c s, P c → I s → I (serve c s).2) :
    ∀ {p : Proc C R α}, p.Only P X → ∀ {s : S}, I s →
      I (p.run serve s).2 ∧ ((p.run serve s).1 = none → X)
  | .ret _, _, _, hs           => ⟨hs, nofun⟩
  | .panic, h, _, hs           => ⟨hs, fun _ => h⟩
  | .call c _, ⟨hc, hk⟩, _, hs => Only.run hstep (hk _) (hstep c _ hc hs)

/-- **Two states that every call in `P` answers alike**, and leaves alike, the procedure answers and leaves alike. -/
theorem Only.run_rel {I : S → S → Prop}
    (hstep : ∀ c s t, P c → I s t → (serve c s).1 = (serve c t).1 ∧ I (serve c s).2 (serve c t).2) :
    ∀ {p : Proc C R α}, p.Only P X → ∀ {s t : S}, I s t →
      (p.run serve s).1 = (p.run serve t).1 ∧ I (p.run serve s).2 (p.run serve t).2
  | .ret _, _, _, _, h           => ⟨rfl, h⟩
  | .panic, _, _, _, h           => ⟨rfl, h⟩
  | .call c k, ⟨hc, hk⟩, s, t, h => by
    obtain ⟨hr, ht⟩ := hstep c s t hc h
    rw [run_call, run_call, ← hr]
    exact Only.run_rel hstep (hk _) ht

end only

/-- **Whatever is returned satisfies `Q`.** -/
def Returns (Q : α → Prop) : Proc C R α → Prop
  | .ret a    => Q a
  | .panic    => True
  | .call _ k => ∀ r, (k r).Returns Q

theorem Returns.bind {Q : β → Prop} {f : α → Proc C R β} (hf : ∀ a, (f a).Returns Q) :
    ∀ p : Proc C R α, (p >>= f).Returns Q
  | .ret a    => hf a
  | .panic    => trivial
  | .call _ k => fun r => Returns.bind hf (k r)

theorem Returns.run {Q : α → Prop} {serve : (c : C) → S → R c × S} :
    ∀ {p : Proc C R α}, p.Returns Q → ∀ {s t : S} {a : α}, p.run serve s = (some a, t) → Q a
  | .ret _, h, _, _, _, hrun    => by cases hrun; exact h
  | .panic, _, _, _, _, hrun    => by cases hrun
  | .call _ _, h, _, _, _, hrun => Returns.run (h _) hrun

/-- **Every call is in `P`** as long as every answer is in `Q`, and so is then what is returned in `post`. -/
def Given (P : C → Prop) (Q : (c : C) → R c → Prop) : Proc C R α → (α → Prop) → Prop
  | .ret a, post    => post a
  | .panic, _       => True
  | .call c k, post => P c ∧ ∀ r, Q c r → (k r).Given P Q post

section given
variable {P : C → Prop} {Q : (c : C) → R c → Prop} {post : α → Prop}

theorem Given.bind {f : α → Proc C R β} {post' : β → Prop} : ∀ {p : Proc C R α}, p.Given P Q post →
    (∀ a, post a → (f a).Given P Q post') → (p >>= f).Given P Q post'
  | .ret a, h, hf           => hf a h
  | .panic, _, _            => trivial
  | .call _ _, ⟨hc, hk⟩, hf => ⟨hc, fun r hr => Given.bind (hk r hr) hf⟩

theorem Only.given {X : Prop} : ∀ {p : Proc C R α}, p.Only P X → p.Given P Q fun _ => True
  | .ret _, _           => trivial
  | .panic, _           => trivial
  | .call _ _, ⟨hc, hk⟩ => ⟨hc, fun r _ => Only.given (hk r)⟩

/-- **What the calls in `P` keep, and what assures the answers, the procedure keeps.** -/
theorem Given.run {serve : (c : C) → S → R c × S} {I : S → Prop} (hans : ∀ c s, I s → Q c (serve c s).1)
    (hstep : ∀ c s, P c → I s → I (serve c s).2) :
    ∀ {p : Proc C R α}, p.Given P Q post → ∀ {s : S}, I s → I (p.run serve s).2
  | .ret _, _, _, hs           => hs
  | .panic, _, _, hs           => hs
  | .call c _, ⟨hc, hk⟩, s, hs => Given.run hans hstep (hk _ (hans c s hs)) (hstep c s hc hs)

end given

/-- Catching a panic does not undo what was done before it. -/
theorem run_recover (serve : (c : C) → S → R c × S) (a : α) : ∀ (p : Proc C R α) (s : S),
    ((p.recover a).run serve s).2 = (p.run serve s).2
  | .ret _, _    => rfl
  | .panic, _    => rfl
  | .call c k, s => run_recover serve a (k (serve c s).1) (serve c s).2

/-- What is returned once panics are caught. -/
theorem run_recover_eq (serve : (c : C) → S → R c × S) (a : α) : ∀ (p : Proc C R α) (s : S),
    (p.recover a).run serve s = (some ((p.run serve s).1.getD a), (p.run serve s).2)
  | .ret _, _    => rfl
  | .panic, _    => rfl
  | .call c k, s => run_recover_eq serve a (k (serve c s).1) (serve c s).2

/-- What does not panic is not changed by catching its panics. -/
theorem run_recover_of {serve : (c : C) → S → R c × S} (a : α) {b : α} {t : S} : ∀ (p : Proc C R α) {s : S},
    p.run serve s = (some b, t) → (p.recover a).run serve s = (some b, t)
  | .ret _, _, h    => h
  | .call c k, s, h => run_recover_of a (k (serve c s).1) h

theorem Only.recover {P : C → Prop} {X Y : Prop} (a : α) : ∀ {p : Proc C R α}, p.Only P X → (p.recover a).Only P Y
  | .ret _, _           => trivial
  | .panic, _           => trivial
  | .call _ _, ⟨hc, hk⟩ => ⟨hc, fun r => Only.recover a (hk r)⟩

/-! ## What a run calls -/

/-- **The calls of a run**, each with the state it finds. -/
def calls (serve : (c : C) → S → R c × S) : Proc C R α → S → List (C × S)
  | .ret _, _    => []
  | .panic, _    => []
  | .call c k, s => (c, s) :: (k (serve c s).1).calls serve (serve c s).2

section calls
variable (serve : (c : C) → S → R c × S)

theorem calls_bind (f : α → Proc C R β) : ∀ (p : Proc C R α) (s : S),
    (p >>= f).calls serve s = p.calls serve s ++ match p.run serve s with
      | (some a, t) => (f a).calls serve t
      | (none, _)   => []
  | .ret _, _    => rfl
  | .panic, _    => rfl
  | .call c k, s => by rw [call_bind, calls, calls_bind f (k _)]; rfl

/-- **Sequencing**: a part that returns `a` is followed by the calls of what follows it. -/
theorem calls_bind_of {p : Proc C R α} {s t : S} {a : α} (h : p.run serve s = (some a, t)) (f : α → Proc C R β) :
    (p >>= f).calls serve s = p.calls serve s ++ (f a).calls serve t := by
  rw [calls_bind, h]

theorem calls_recover (a : α) : ∀ (p : Proc C R α) (s : S), (p.recover a).calls serve s = p.calls serve s
  | .ret _, _    => rfl
  | .panic, _    => rfl
  | .call c k, s => congrArg (List.cons (c, s)) (calls_recover a (k (serve c s).1) (serve c s).2)

theorem Only.calls {P : C → Prop} {X : Prop} : ∀ {p : Proc C R α}, p.Only P X → ∀ {s : S} {x : C × S},
    x ∈ p.calls serve s → P x.1
  | .call c k, ⟨hc, hk⟩, s, x, hx => by
    rcases List.mem_cons.1 hx with rfl | hx
    · exact hc
    · exact Only.calls (hk _) hx

/-- What is called after a part is in `P`, where that is all what follows it calls. -/
theorem Only.calls_bind {P : C → Prop} {X : Prop} {f : α → Proc C R β} (hf : ∀ a, (f a).Only P X) (p : Proc C R α)
    (s : S) : ∃ suf, (p >>= f).calls serve s = p.calls serve s ++ suf ∧ ∀ x ∈ suf, P x.1 := by
  refine ⟨_, Proc.calls_bind serve f p s, ?_⟩
  rcases p.run serve s with ⟨_ | a, t⟩
  · exact fun x hx => absurd hx List.not_mem_nil
  · exact fun x hx => (hf a).calls serve hx

end calls

/-! ## Running one after another -/

/-- **Procedures run one after another**, each alone to its end, where `ok` lets it start.  The trace has what each
returned. -/
inductive Runs {O : Type} (serve : (c : C) → S → R c × S) (exec : O → Proc C R α) (ok : S → O → Prop) :
    S → List (O × Option α) → S → Prop
  | done (s : S) : Runs serve exec ok s [] s
  | step {s t : S} {tr : List (O × Option α)} (o : O) : ok s o → Runs serve exec ok ((exec o).run serve s).2 tr t →
      Runs serve exec ok s ((o, ((exec o).run serve s).1) :: tr) t

section runs
variable {O : Type} {serve : (c : C) → S → R c × S} {exec : O → Proc C R α} {ok : S → O → Prop}

/-- **What every step keeps, every run keeps.** -/
theorem Runs.keep {I : S → Prop} (hstep : ∀ s o, I s → ok s o → I ((exec o).run serve s).2) {s t : S}
    {tr : List (O × Option α)} (h : Runs serve exec ok s tr t) (hs : I s) : I t := by
  induction h with
  | done s => exact hs
  | step o hok _ ih => exact ih (hstep _ o hs hok)

end runs

end Proc

import TodoPlugin.Lib.Proc
/-!
# Pools: procedures taking turns

Any number of procedures share one state and take turns, one call at a time: `Pool.Step` lets any procedure that still
has a call to make make it, `Pool.Exec` is any sequence of such steps, with the events it makes.

The proof rule is rely/guarantee, on *ghost states*: the shared state is `shape g` of a ghost state `g`, which may know
more than the state does (who has done what).  A procedure is `Safe` from `g` when, whatever the others do within
`rely` before each of its calls, each call is a move within its guarantee, and it returns within its postcondition.
`Exec.safe` is the soundness: when each procedure's guarantee is within every other's rely, every execution is a path
of ghost states.
-/

/-- One call made by one member of a pool, and what it was answered with. -/
structure Event (ι C : Type) (R : C → Type) where
  who  : ι
  call : C
  resp : R call

/-- Procedures indexed by `ι`, and the state they share. -/
structure Pool (ι C : Type) (R : C → Type) (α S : Type) where
  procs : ι → Proc C R α
  state : S

namespace Pool

variable {ι C : Type} {R : C → Type} {α S Γ : Type} [DecidableEq ι]

/-- **One turn**: a member whose next call is `c` makes it. -/
inductive Step (serve : (c : C) → S → R c × S) : Pool ι C R α S → Event ι C R → Pool ι C R α S → Prop
  | turn (P : Pool ι C R α S) (i : ι) (c : C) (k : R c → Proc C R α) (h : P.procs i = .call c k) :
      Step serve P ⟨i, c, (serve c P.state).1⟩
        ⟨Function.update P.procs i (k (serve c P.state).1), (serve c P.state).2⟩

/-- **Any number of turns**, in any order of the members. -/
inductive Exec (serve : (c : C) → S → R c × S) :
    Pool ι C R α S → List (Event ι C R) → Pool ι C R α S → Prop
  | done (P : Pool ι C R α S) : Exec serve P [] P
  | turn {P P' P'' : Pool ι C R α S} {e : Event ι C R} {tr : List (Event ι C R)} :
      Step serve P e P' → Exec serve P' tr P'' → Exec serve P (e :: tr) P''

/-- Turns in a given order, skipping a member that has none to take. -/
def play (serve : (c : C) → S → R c × S) : Pool ι C R α S → List ι → List (Event ι C R) × Pool ι C R α S
  | P, []      => ([], P)
  | P, i :: is =>
    match P.procs i with
    | .call c k =>
      let (tr, P') := play serve ⟨Function.update P.procs i (k (serve c P.state).1), (serve c P.state).2⟩ is
      (⟨i, c, (serve c P.state).1⟩ :: tr, P')
    | _ => play serve P is

theorem play_exec (serve : (c : C) → S → R c × S) :
    ∀ (is : List ι) (P : Pool ι C R α S), Exec serve P (play serve P is).1 (play serve P is).2
  | [], P      => .done P
  | i :: is, P => by
    unfold play
    split
    · rename_i c k hi
      exact .turn (.turn P i c k hi) (play_exec serve is _)
    · exact play_exec serve is P

/-- What a turn is answered, and what it leaves. -/
theorem Step.served {serve : (c : C) → S → R c × S} {P P' : Pool ι C R α S} {e : Event ι C R} (h : Step serve P e P') :
    e.resp = (serve e.call P.state).1 ∧ P'.state = (serve e.call P.state).2 := by
  cases h
  exact ⟨rfl, rfl⟩

/-- Turns in two parts. -/
theorem Exec.split {serve : (c : C) → S → R c × S} {P' : Pool ι C R α S} {suf : List (Event ι C R)} :
    ∀ {pre : List (Event ι C R)} {P : Pool ι C R α S}, Exec serve P (pre ++ suf) P' →
      ∃ P₁, Exec serve P pre P₁ ∧ Exec serve P₁ suf P'
  | [], P, h       => ⟨P, .done P, h⟩
  | _ :: pre, _, h => by
    cases h with
    | turn hstep h =>
      obtain ⟨P₁, h₁, h₂⟩ := Exec.split h
      exact ⟨P₁, .turn hstep h₁, h₂⟩

/-- The state the calls of a trace leave, one after another. -/
def replay (serve : (c : C) → S → R c × S) (s : S) (tr : List (Event ι C R)) : S :=
  tr.foldl (fun s e => (serve e.call s).2) s

/-- No member can take a turn: each has returned or panicked. -/
def Finished (P : Pool ι C R α S) : Prop := ∀ i c k, P.procs i ≠ .call c k

omit [DecidableEq ι] in
theorem finished_of_returned {P : Pool ι C R α S} (h : ∀ i, (P.procs i).returned = true) : P.Finished :=
  fun i c k hi => by
    have := h i
    rw [hi] at this
    cases this

end Pool

namespace Proc

variable {C : Type} {R : C → Type} {S Γ α β : Type}

section Safe
variable (serve : (c : C) → S → R c × S) (shape : Γ → S)
variable (rely : Γ → Γ → Prop) (guar : (c : C) → R c → Γ → Γ → Prop)

/-- **Safe under interference**: whatever the others do within `rely` before each call, the call answers as `serve`
does, moves the ghost state within `guar`, and the procedure returns, without a panic, within `post`. -/
def Safe (post : α → Γ → Prop) : Proc C R α → Γ → Prop
  | .ret a, g    => ∀ g', rely g g' → post a g'
  | .panic, _    => False
  | .call c k, g => ∀ g', rely g g' → ∃ g'', shape g'' = (serve c (shape g')).2 ∧
      guar c (serve c (shape g')).1 g' g'' ∧ (k (serve c (shape g')).1).Safe post g''

variable {serve shape rely guar}
variable {post : α → Γ → Prop} {post' : β → Γ → Prop}

/-- What the others do first changes nothing. -/
theorem Safe.rely_left (htrans : ∀ a b c, rely a b → rely b c → rely a c) :
    ∀ {p : Proc C R α} {g g' : Γ}, p.Safe serve shape rely guar post g → rely g g' →
      p.Safe serve shape rely guar post g'
  | .ret _, _, _, h, hr    => fun g'' hr' => h g'' (htrans _ _ _ hr hr')
  | .panic, _, _, h, _     => h
  | .call _ _, _, _, h, hr => fun g'' hr' => h g'' (htrans _ _ _ hr hr')

/-- **Sequencing.** -/
theorem Safe.bind (hrefl : ∀ g, rely g g) {f : α → Proc C R β} :
    ∀ {p : Proc C R α} {g : Γ},
      p.Safe serve shape rely guar (fun a g' => (f a).Safe serve shape rely guar post' g') g →
        (p >>= f).Safe serve shape rely guar post' g
  | .ret _, g, h    => h g (hrefl g)
  | .panic, _, h    => h
  | .call _ _, _, h => fun g' hr =>
    have ⟨g'', h1, h2, h3⟩ := h g' hr
    ⟨g'', h1, h2, Safe.bind hrefl h3⟩

theorem Safe.mono {q : α → Γ → Prop} (hq : ∀ a g, post a g → q a g) :
    ∀ {p : Proc C R α} {g : Γ}, p.Safe serve shape rely guar post g → p.Safe serve shape rely guar q g
  | .ret _, _, h    => fun g' hr => hq _ _ (h g' hr)
  | .panic, _, h    => h
  | .call _ _, _, h => fun g' hr =>
    have ⟨g'', h1, h2, h3⟩ := h g' hr
    ⟨g'', h1, h2, Safe.mono hq h3⟩

end Safe
end Proc

namespace Pool

variable {ι C : Type} {R : C → Type} {α S Γ : Type} [DecidableEq ι]

/-- A path of ghost states: every event moves within its member's guarantee. -/
inductive Path (guar : ι → (c : C) → R c → Γ → Γ → Prop) : List (Event ι C R) → Γ → Γ → Prop
  | done (g : Γ) : Path guar [] g g
  | turn {g g' g'' : Γ} {e : Event ι C R} {tr : List (Event ι C R)} :
      guar e.who e.call e.resp g g' → Path guar tr g' g'' → Path guar (e :: tr) g g''

namespace Path

variable {guar : ι → (c : C) → R c → Γ → Γ → Prop}

omit [DecidableEq ι] in
theorem append_iff {a b : List (Event ι C R)} {g g'' : Γ} :
    Path guar (a ++ b) g g'' ↔ ∃ g', Path guar a g g' ∧ Path guar b g' g'' := by
  induction a generalizing g with
  | nil =>
    refine ⟨fun h => ⟨g, .done g, h⟩, ?_⟩
    rintro ⟨g', h, h'⟩
    cases h
    exact h'
  | cons e a ih =>
    constructor
    · intro h
      cases h with
      | turn he h =>
        obtain ⟨g', h₁, h₂⟩ := ih.1 h
        exact ⟨g', .turn he h₁, h₂⟩
    · rintro ⟨g', h, h'⟩
      cases h with
      | turn he h => exact .turn he (ih.2 ⟨g', h, h'⟩)

end Path

section rules
variable {serve : (c : C) → S → R c × S} {shape : Γ → S}
variable {rely : ι → Γ → Γ → Prop} {guar : ι → (c : C) → R c → Γ → Γ → Prop} {post : ι → α → Γ → Prop}

/-- One turn keeps every member safe: the one that moves by its own safety, the others by their rely. -/
theorem Step.safe (htrans : ∀ i a b c, rely i a b → rely i b c → rely i a c) (hrefl : ∀ i g, rely i g g)
    (hcompat : ∀ i j c r g g', i ≠ j → guar i c r g g' → rely j g g')
    {P P' : Pool ι C R α S} {e : Event ι C R} (h : Step serve P e P') {g : Γ} (hs : P.state = shape g)
    (hsafe : ∀ i, (P.procs i).Safe serve shape (rely i) (guar i) (post i) g) :
    ∃ g', P'.state = shape g' ∧ guar e.who e.call e.resp g g' ∧
      ∀ i, (P'.procs i).Safe serve shape (rely i) (guar i) (post i) g' := by
  cases h with
  | turn i c k hi =>
    have hown := hsafe i
    rw [hi] at hown
    obtain ⟨g', h1, h2, h3⟩ := hown g (hrefl i g)
    rw [← hs] at h1 h2 h3
    refine ⟨g', h1.symm, h2, fun j => ?_⟩
    by_cases hj : j = i
    · subst hj
      simpa using h3
    · simp only [Function.update_of_ne hj]
      exact (hsafe j).rely_left (htrans j) (hcompat i j c _ g g' (Ne.symm hj) h2)

/-- **Rely/guarantee.**  Where every guarantee is within the others' rely, any execution is a path of ghost states, and
keeps every member safe. -/
theorem Exec.safe (htrans : ∀ i a b c, rely i a b → rely i b c → rely i a c) (hrefl : ∀ i g, rely i g g)
    (hcompat : ∀ i j c r g g', i ≠ j → guar i c r g g' → rely j g g')
    {P P' : Pool ι C R α S} {tr : List (Event ι C R)} (h : Exec serve P tr P') :
    ∀ {g : Γ}, P.state = shape g → (∀ i, (P.procs i).Safe serve shape (rely i) (guar i) (post i) g) →
      ∃ g', P'.state = shape g' ∧ Path guar tr g g' ∧
        ∀ i, (P'.procs i).Safe serve shape (rely i) (guar i) (post i) g' := by
  induction h with
  | done P => exact fun hs hsafe => ⟨_, hs, .done _, hsafe⟩
  | turn hstep _ ih =>
    intro g hs hsafe
    obtain ⟨g₁, hs₁, hg, hsafe₁⟩ := hstep.safe htrans hrefl hcompat hs hsafe
    obtain ⟨g₂, hs₂, hp, hsafe₂⟩ := ih hs₁ hsafe₁
    exact ⟨g₂, hs₂, .turn hg hp, hsafe₂⟩

/-- **At the end every member has returned**, within its postcondition. -/
theorem Exec.finished (htrans : ∀ i a b c, rely i a b → rely i b c → rely i a c) (hrefl : ∀ i g, rely i g g)
    (hcompat : ∀ i j c r g g', i ≠ j → guar i c r g g' → rely j g g')
    {P P' : Pool ι C R α S} {tr : List (Event ι C R)} (h : Exec serve P tr P') (hfin : P'.Finished)
    {g : Γ} (hs : P.state = shape g)
    (hsafe : ∀ i, (P.procs i).Safe serve shape (rely i) (guar i) (post i) g) :
    ∃ g', P'.state = shape g' ∧ Path guar tr g g' ∧ ∀ i, ∃ a, P'.procs i = .ret a ∧ post i a g' := by
  obtain ⟨g', hs', hp, hsafe'⟩ := h.safe htrans hrefl hcompat hs hsafe
  refine ⟨g', hs', hp, fun i => ?_⟩
  have hi := hsafe' i
  cases hproc : P'.procs i with
  | ret a =>
    rw [hproc] at hi
    exact ⟨a, rfl, hi g' (hrefl i g')⟩
  | panic => rw [hproc] at hi; exact absurd hi id
  | call c k => exact absurd hproc (hfin i c k)

end rules
end Pool

import TodoPlugin.Lib.Pool
/-!
# Histories

The history of a procedure is what it has called so far, with what it was answered.  `Proc.Along` says of a procedure
that each call it makes suits the history before it, whatever the answers are: the order in which one procedure does
things, with nothing said of a state.  In a pool a member's history is its own part of the trace, whatever the others
do between its calls, so `Pool.Exec.along` is the soundness: every event of an execution suits its member's history, and
is answered from what the events before it have left.
-/

namespace Proc

variable {C : Type} {R : C → Type} {α β : Type}

/-- **Every call suits the history before it**, and what is returned suits the history it is returned after. -/
def Along (Q : List ((c : C) × R c) → C → Prop) (post : α → List ((c : C) × R c) → Prop) :
    Proc C R α → List ((c : C) × R c) → Prop
  | .ret a, l    => post a l
  | .panic, _    => True
  | .call c k, l => Q l c ∧ ∀ r, (k r).Along Q post (l ++ [⟨c, r⟩])

section Along
variable {Q : List ((c : C) × R c) → C → Prop} {post : α → List ((c : C) × R c) → Prop}
  {post' : β → List ((c : C) × R c) → Prop}

theorem Along.bind {f : α → Proc C R β} : ∀ {p : Proc C R α} {l : List ((c : C) × R c)},
    p.Along Q post l → (∀ a l', post a l' → (f a).Along Q post' l') → (p >>= f).Along Q post' l
  | .ret a, l, h, hf             => hf a l h
  | .panic, _, _, _              => trivial
  | .call _ _, _, ⟨hc, hk⟩, hf => ⟨hc, fun r => Along.bind (hk r) hf⟩

theorem Along.mono {post₂ : α → List ((c : C) × R c) → Prop} (hpost : ∀ a l, post a l → post₂ a l) :
    ∀ {p : Proc C R α} {l : List ((c : C) × R c)}, p.Along Q post l → p.Along Q post₂ l
  | .ret a, l, h           => hpost a l h
  | .panic, _, _           => trivial
  | .call _ _, _, ⟨hc, hk⟩ => ⟨hc, fun r => Along.mono hpost (hk r)⟩

/-- Calls that suit in one sense suit in a wider one. -/
theorem Along.mono_calls {Q₂ : List ((c : C) × R c) → C → Prop} (hQ : ∀ l c, Q l c → Q₂ l c) :
    ∀ {p : Proc C R α} {l : List ((c : C) × R c)}, p.Along Q post l → p.Along Q₂ post l
  | .ret _, _, h           => h
  | .panic, _, _           => trivial
  | .call _ _, _, ⟨hc, hk⟩ => ⟨hQ _ _ hc, fun r => Along.mono_calls hQ (hk r)⟩

/-- What is returned under another name is returned. -/
theorem Along.of_map {f : α → β} : ∀ {p : Proc C R α} {l : List ((c : C) × R c)},
    (p >>= fun a => pure (f a)).Along Q post' l → p.Along Q (fun a l' => post' (f a) l') l
  | .ret _, _, h           => h
  | .panic, _, _           => trivial
  | .call _ _, _, ⟨hc, hk⟩ => ⟨hc, fun r => Along.of_map (hk r)⟩

/-- Catching a panic makes no call. -/
theorem Along.recover (a : α) : ∀ {p : Proc C R α} {l : List ((c : C) × R c)}, p.Along Q post l →
    (p.recover a).Along Q (fun _ _ => True) l
  | .ret _, _, _              => trivial
  | .panic, _, _              => trivial
  | .call _ _, _, ⟨hc, hk⟩ => ⟨hc, fun r => Along.recover a (hk r)⟩

/-- What is returned is what the procedure returned, or what a panic is caught with. -/
theorem Along.recover_or (a : α) : ∀ {p : Proc C R α} {l : List ((c : C) × R c)}, p.Along Q post l →
    (p.recover a).Along Q (fun b l' => post b l' ∨ b = a) l
  | .ret _, _, h           => .inl h
  | .panic, _, _           => .inr rfl
  | .call _ _, _, ⟨hc, hk⟩ => ⟨hc, fun r => Along.recover_or a (hk r)⟩

/-- Two facts of what is returned. -/
theorem Along.and {Q₂ : List ((c : C) × R c) → C → Prop} {post₂ : α → List ((c : C) × R c) → Prop} :
    ∀ {p : Proc C R α} {l : List ((c : C) × R c)},
      p.Along Q post l → p.Along Q₂ post₂ l → p.Along Q (fun a l' => post a l' ∧ post₂ a l') l
  | .ret _, _, h, h'                   => ⟨h, h'⟩
  | .panic, _, _, _                    => trivial
  | .call _ _, _, ⟨hc, hk⟩, ⟨_, hk'⟩ => ⟨hc, fun r => Along.and (hk r) (hk' r)⟩

/-- The history only grows. -/
theorem along_grows (hQ : ∀ l c, Q l c) : ∀ (p : Proc C R α) (l : List ((c : C) × R c)), p.Along Q (fun _ l' => l <+: l') l
  | .ret _, l    => List.prefix_refl l
  | .panic, _    => trivial
  | .call c k, l => by
    refine ⟨hQ l c, fun r => ?_⟩
    exact (along_grows hQ (k r) (l ++ [⟨c, r⟩])).mono fun _ _ h => (List.prefix_append ..).trans h

/-- What every returned value satisfies, whatever the history. -/
theorem Returns.along {A : α → Prop} (hQ : ∀ l c, Q l c) : ∀ {p : Proc C R α} {l : List ((c : C) × R c)}, p.Returns A →
    p.Along Q (fun a _ => A a) l
  | .ret _, _, h    => h
  | .panic, _, _    => trivial
  | .call _ _, _, h => ⟨hQ _ _, fun r => Returns.along hQ (h r)⟩

/-- **What makes only calls that always suit**, adds only such calls to the history. -/
theorem Only.along {P : C → Prop} {X : Prop} (hPQ : ∀ c l, P c → Q l c) :
    ∀ {p : Proc C R α}, p.Only P X → ∀ l : List ((c : C) × R c),
      p.Along Q (fun _ l' => ∃ l₁, l' = l ++ l₁ ∧ ∀ x ∈ l₁, P x.1) l
  | .ret _, _, l               => ⟨[], (List.append_nil l).symm, fun x hx => absurd hx List.not_mem_nil⟩
  | .panic, _, _               => trivial
  | .call c k, ⟨hc, hk⟩, l => by
    refine ⟨hPQ c l hc, fun r => ?_⟩
    have ih := Only.along hPQ (hk r) (l ++ [⟨c, r⟩])
    rw [← bind_ret (k r)]
    apply Along.bind ih
    rintro a l' ⟨l₁, rfl, hl₁⟩
    refine ⟨⟨c, r⟩ :: l₁, by rw [List.append_assoc]; rfl, ?_⟩
    intro x hx
    rcases List.mem_cons.1 hx with rfl | hx
    · exact hc
    · exact hl₁ x hx

end Along

/-- **The history takes the procedure to what it returns.** -/
inductive Leads : Proc C R α → List ((c : C) × R c) → α → Prop
  | ret (a : α) : Leads (.ret a) [] a
  | call {c : C} {k : R c → Proc C R α} {r : R c} {l : List ((c : C) × R c)} {a : α} (h : Leads (k r) l a) :
      Leads (.call c k) (⟨c, r⟩ :: l) a

/-- What is returned suits the history that led to it. -/
theorem Leads.along {Q : List ((c : C) × R c) → C → Prop} {post : α → List ((c : C) × R c) → Prop} {p : Proc C R α}
    {l' : List ((c : C) × R c)} {a : α} (h : p.Leads l' a) :
    ∀ {l : List ((c : C) × R c)}, p.Along Q post l → post a (l ++ l') := by
  induction h with
  | ret a =>
    intro l hal
    rwa [List.append_nil]
  | call _ ih =>
    intro l hal
    have := ih (hal.2 _)
    rwa [List.append_assoc] at this

end Proc

namespace Pool

variable {ι C : Type} {R : C → Type} {α S : Type} [DecidableEq ι]

/-- The history of a member: its own part of a trace. -/
def own (i : ι) (tr : List (Event ι C R)) : List ((c : C) × R c) :=
  tr.filterMap (fun e => if e.who = i then some ⟨e.call, e.resp⟩ else none)

theorem own_append (i : ι) (tr tr' : List (Event ι C R)) : own i (tr ++ tr') = own i tr ++ own i tr' :=
  List.filterMap_append

theorem own_cons_self {i : ι} {e : Event ι C R} (h : e.who = i) (tr : List (Event ι C R)) :
    own i (e :: tr) = ⟨e.call, e.resp⟩ :: own i tr := by
  unfold own
  rw [List.filterMap_cons, if_pos h]

theorem own_cons_of_ne {i : ι} {e : Event ι C R} (h : e.who ≠ i) (tr : List (Event ι C R)) :
    own i (e :: tr) = own i tr := by
  unfold own
  rw [List.filterMap_cons, if_neg h]

theorem mem_own {i : ι} {tr : List (Event ι C R)} {x : (c : C) × R c} :
    x ∈ own i tr ↔ (⟨i, x.1, x.2⟩ : Event ι C R) ∈ tr := by
  unfold own
  rw [List.mem_filterMap]
  constructor
  · rintro ⟨⟨who, call, resp⟩, he, hx⟩
    by_cases hi : who = i
    · rw [if_pos hi] at hx
      cases hx
      cases hi
      exact he
    · rw [if_neg hi] at hx
      cases hx
  · intro h
    exact ⟨_, h, by rw [if_pos rfl]⟩

/-- What is in a member's history was an event of the trace, with the histories before and after it. -/
theorem own_split {i : ι} {x : (c : C) × R c} {l₁ l₂ : List ((c : C) × R c)} :
    ∀ {tr : List (Event ι C R)}, own i tr = l₁ ++ x :: l₂ →
      ∃ pre suf, tr = pre ++ ⟨i, x.1, x.2⟩ :: suf ∧ own i pre = l₁ ∧ own i suf = l₂
  | [], h      => by cases l₁ <;> cases h
  | e :: tr, h => by
    by_cases hi : e.who = i
    · rw [own_cons_self hi] at h
      cases l₁ with
      | nil =>
        cases h
        cases e
        cases hi
        exact ⟨[], tr, rfl, rfl, rfl⟩
      | cons y l₁ =>
        obtain ⟨hy, h⟩ := List.cons.inj h
        obtain ⟨pre, suf, rfl, hpre, hsuf⟩ := own_split h
        exact ⟨e :: pre, suf, rfl, by rw [own_cons_self hi, hpre, hy], hsuf⟩
    · rw [own_cons_of_ne hi] at h
      obtain ⟨pre, suf, rfl, hpre, hsuf⟩ := own_split h
      exact ⟨e :: pre, suf, rfl, by rw [own_cons_of_ne hi, hpre], hsuf⟩

section rules
variable {serve : (c : C) → S → R c × S} {Q : ι → List ((c : C) × R c) → C → Prop}
  {post : ι → α → List ((c : C) × R c) → Prop}

/-- One turn: the call suits its member's history, and every member goes on as it was. -/
theorem Step.along {P P' : Pool ι C R α S} {e : Event ι C R} (h : Step serve P e P')
    {l : ι → List ((c : C) × R c)} (hal : ∀ i, (P.procs i).Along (Q i) (post i) (l i)) :
    Q e.who (l e.who) e.call ∧ e.resp = (serve e.call P.state).1 ∧
      ∀ i, (P'.procs i).Along (Q i) (post i) (l i ++ own i [e]) := by
  cases h with
  | turn i c k hi =>
    have hown := hal i
    rw [hi] at hown
    refine ⟨hown.1, rfl, fun j => ?_⟩
    by_cases hj : j = i
    · subst hj
      rw [own_cons_self (e := ⟨j, c, (serve c P.state).1⟩) rfl]
      simpa only [Function.update_self, own, List.filterMap_nil] using hown.2 (serve c P.state).1
    · rw [own_cons_of_ne (e := ⟨i, c, (serve c P.state).1⟩) (Ne.symm hj)]
      simpa only [Function.update_of_ne hj, own, List.filterMap_nil, List.append_nil] using hal j

/-- **Every event of an execution** suits its member's history, and is answered from what the events before it left. -/
theorem Exec.along {P P' : Pool ι C R α S} {tr : List (Event ι C R)} (h : Exec serve P tr P') :
    ∀ {l : ι → List ((c : C) × R c)}, (∀ i, (P.procs i).Along (Q i) (post i) (l i)) →
      ∀ {pre : List (Event ι C R)} {e : Event ι C R} {suf : List (Event ι C R)}, tr = pre ++ e :: suf →
        Q e.who (l e.who ++ own e.who pre) e.call ∧ e.resp = (serve e.call (replay serve P.state pre)).1 := by
  induction h with
  | done P =>
    intro l _ pre e suf htr
    cases pre <;> cases htr
  | turn hstep _ ih =>
    intro l hal pre e suf htr
    obtain ⟨hQ, hresp, hal'⟩ := hstep.along hal
    cases pre with
    | nil =>
      obtain ⟨rfl, rfl⟩ := List.cons.inj htr
      exact ⟨by rwa [own, List.filterMap_nil, List.append_nil], hresp⟩
    | cons e' pre =>
      obtain ⟨rfl, rest⟩ := List.cons.inj htr
      obtain ⟨hQ', hresp'⟩ := ih hal' rest
      constructor
      · rw [List.append_assoc, ← own_append] at hQ'
        exact hQ'
      · cases hstep
        exact hresp'

end rules
end Pool

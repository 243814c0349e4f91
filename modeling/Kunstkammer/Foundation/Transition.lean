import Mathlib.Tactic

/-!
# Deterministic labelled machines and their runs

A machine takes an event in a state and either refuses it (`none`) or moves on and
answers with an output.  All nondeterminism of a system (who is scheduled, what the
environment answers) sits in the events, so a run is a list of events.

* `Machine`, `next`, `run`, `Reaches`, `outputs`;
* `Always P s es`: `P` holds in `s` and in every state the run `es` visits from `s`;
* `Along C s es`: every step of that run meets the step condition `C`;
* `Reaches.invariant`, `Along.imp`, `Along.always`, `along_congr`, `always_iff_along`, `simulation`:
  the induction over runs, stated once, so that a result about all runs comes down to one step;
* `Recorded F s es b`: some step of the run `es` from `s` shows `b`;
* `Since P Q past`: in a history, an event with `P`, and none with `Q` from it on.
-/

/-- A machine with states `σ`, events `ε` and outputs `ω`. -/
structure Machine (σ ε ω : Type*) where
  step : σ → ε → Option (σ × ω)

namespace Machine

variable {σ ε ω : Type*} (M : Machine σ ε ω)

/-- The state after one event, without the output. -/
def next (s : σ) (e : ε) : Option σ := (M.step s e).map Prod.fst

/-- The state after the events `es`, if none of them is refused. -/
def run (s : σ) : List ε → Option σ
  | [] => some s
  | e :: es => (M.next s e).bind fun t => run t es

/-- What the events `es` are answered, up to the first refused one. -/
def outputs (s : σ) : List ε → List ω
  | [] => []
  | e :: es =>
      match M.step s e with
      | some (t, o) => o :: outputs t es
      | none => []

/-- `t` is reached from `s` by some run. -/
def Reaches (s t : σ) : Prop := ∃ es, M.run s es = some t

/-- `P` holds in `s` and in every state visited by the run `es`, which ends early at the
first refused event. -/
def Always (P : σ → Prop) (s : σ) : List ε → Prop
  | [] => P s
  | e :: es => P s ∧ ∀ t, M.next s e = some t → Always P t es

/-- Every step taken by the run `es` meets `C`, a condition on the state before, the event
and the state after. -/
def Along (C : σ → ε → σ → Prop) (s : σ) : List ε → Prop
  | [] => True
  | e :: es => ∀ t, M.next s e = some t → C s e t ∧ Along C t es

variable {M}

theorem next_eq_some {s t : σ} {e : ε} : M.next s e = some t ↔ ∃ o, M.step s e = some (t, o) := by
  simp [next]

@[simp] theorem run_nil (s : σ) : M.run s [] = some s := rfl

theorem run_cons (s : σ) (e : ε) (es : List ε) :
    M.run s (e :: es) = (M.next s e).bind fun t => M.run t es := rfl

theorem run_cons_of_next {s t : σ} {e : ε} (h : M.next s e = some t) (es : List ε) :
    M.run s (e :: es) = M.run t es := by
  rw [run_cons, h, Option.bind_some]

theorem run_append {s t : σ} {es : List ε} (h : M.run s es = some t) (fs : List ε) :
    M.run s (es ++ fs) = M.run t fs := by
  induction es generalizing s with
  | nil =>
    cases h
    rfl
  | cons e es ih =>
    rw [run_cons, Option.bind_eq_some_iff] at h
    obtain ⟨u, hu, hrun⟩ := h
    rw [List.cons_append, run_cons_of_next hu, ih hrun]

/-- A property of the first state that every step keeps holds in every state reached. -/
theorem Reaches.invariant {I : σ → Prop} {s t : σ} (h : M.Reaches s t) (hs : I s)
    (hstep : ∀ s e t, I s → M.next s e = some t → I t) : I t := by
  obtain ⟨es, hes⟩ := h
  induction es generalizing s with
  | nil => cases hes; exact hs
  | cons e es ih =>
    rw [run_cons, Option.bind_eq_some_iff] at hes
    obtain ⟨u, hu, hes⟩ := hes
    exact ih (hstep s e u hs hu) hes

theorem along_cons_of_next {C : σ → ε → σ → Prop} {s t : σ} {e : ε} (h : M.next s e = some t)
    (es : List ε) : M.Along C s (e :: es) ↔ C s e t ∧ M.Along C t es := by
  constructor
  · exact fun hes => hes t h
  · intro hes t' ht'
    obtain rfl := Option.some.inj (h.symm.trans ht')
    exact hes

/-- A step condition that follows from another one, on every step from a state of the invariant
`I`.  The invariant only has to survive the steps that meet the first. -/
theorem Along.imp {I : σ → Prop} {C D : σ → ε → σ → Prop}
    (hI : ∀ s e t, I s → M.next s e = some t → C s e t → I t)
    (hCD : ∀ s e t, I s → M.next s e = some t → C s e t → D s e t)
    {s : σ} (hs : I s) {es : List ε} (h : M.Along C s es) : M.Along D s es := by
  induction es generalizing s with
  | nil => trivial
  | cons e es ih =>
    intro t ht
    -- the step meets `C`, so the invariant holds for the rest of the run
    obtain ⟨hC, hrest⟩ := h t ht
    exact ⟨hCD s e t hs ht hC, ih (hI s e t hs ht hC) hrest⟩

/-- Two step conditions that agree on every step from a state of the invariant `I` hold
along the same runs. -/
theorem along_congr {I : σ → Prop} {C D : σ → ε → σ → Prop}
    (hI : ∀ s e t, I s → M.next s e = some t → C s e t → I t)
    (hCD : ∀ s e t, I s → M.next s e = some t → (C s e t ↔ D s e t))
    {s : σ} (hs : I s) (es : List ε) : M.Along C s es ↔ M.Along D s es := by
  constructor
  · exact Along.imp hI (fun s e t hs ht => (hCD s e t hs ht).1) hs
  · exact Along.imp (fun s e t hs ht hD => hI s e t hs ht ((hCD s e t hs ht).2 hD))
      (fun s e t hs ht => (hCD s e t hs ht).2) hs

theorem always_iff_along_post {P : σ → Prop} {s : σ} {es : List ε} :
    M.Always P s es ↔ P s ∧ M.Along (fun _ _ t => P t) s es := by
  induction es generalizing s with
  | nil => exact ⟨fun h => ⟨h, trivial⟩, And.left⟩
  | cons e es ih =>
    constructor
    · rintro ⟨hs, h⟩
      exact ⟨hs, fun t ht => ih.1 (h t ht)⟩
    · rintro ⟨hs, h⟩
      exact ⟨hs, fun t ht => ih.2 (h t ht)⟩

/-- If, from every state of the invariant `I` where `P` holds, a step keeps `P` exactly when
it meets `C`, then `P` holds all along a run exactly when every step of it meets `C`. -/
theorem always_iff_along {I P : σ → Prop} {C : σ → ε → Prop}
    (hI : ∀ s e t, I s → M.next s e = some t → I t)
    (hPC : ∀ s e t, I s → P s → M.next s e = some t → (P t ↔ C s e))
    {s : σ} (hs : I s) (hP : P s) (es : List ε) :
    M.Always P s es ↔ M.Along (fun s e _ => C s e) s es := by
  rw [always_iff_along_post, and_iff_right hP]
  exact along_congr (I := fun s => I s ∧ P s)
    (fun s e t h ht hPt => ⟨hI s e t h.1 ht, hPt⟩)
    (fun s e t h ht => hPC s e t h.1 h.2 ht) ⟨hs, hP⟩ es

/-- An invariant that every step of a run keeps which meets `C` holds in all its states. -/
theorem Along.always {I : σ → Prop} {C : σ → ε → σ → Prop}
    (hI : ∀ s e t, I s → M.next s e = some t → C s e t → I t) {s : σ} (hs : I s) {es : List ε}
    (h : M.Along C s es) : M.Always I s es := by
  rw [always_iff_along_post]
  exact ⟨hs, Along.imp hI hI hs h⟩

theorem Always.first {P : σ → Prop} {s : σ} {es : List ε} (h : M.Always P s es) : P s :=
  (always_iff_along_post.1 h).1

/-- A decidable property can be checked along a run. -/
instance decidableAlways (P : σ → Prop) [DecidablePred P] :
    (s : σ) → (es : List ε) → Decidable (M.Always P s es)
  | s, [] => inferInstanceAs (Decidable (P s))
  | s, e :: es =>
      match h : M.next s e with
      | none => decidable_of_iff (P s)
          ⟨fun hs => ⟨hs, fun _ ht => absurd (h.symm.trans ht) nofun⟩, And.left⟩
      | some t =>
          have := decidableAlways P t es
          decidable_of_iff (P s ∧ M.Always P t es)
            ⟨fun hs => ⟨hs.1, fun _ hu => Option.some.inj (h.symm.trans hu) ▸ hs.2⟩,
              fun hs => ⟨hs.1, hs.2 t h⟩⟩

/-- So can a decidable condition on the steps. -/
instance decidableAlong (C : σ → ε → σ → Prop) [∀ s e t, Decidable (C s e t)] :
    (s : σ) → (es : List ε) → Decidable (M.Along C s es)
  | _, [] => inferInstanceAs (Decidable True)
  | s, e :: es =>
      match h : M.next s e with
      | none => .isTrue fun _ ht => absurd (h.symm.trans ht) nofun
      | some t =>
          have := decidableAlong C t es
          decidable_of_iff _ (along_cons_of_next h es).symm

theorem Always.imp {P Q : σ → Prop} (hPQ : ∀ s, P s → Q s) {s : σ} {es : List ε}
    (h : M.Always P s es) : M.Always Q s es := by
  induction es generalizing s with
  | nil => exact hPQ s h
  | cons e es ih => exact ⟨hPQ s h.1, fun t ht => ih (h.2 t ht)⟩

/-- One run after another. -/
theorem Always.append {P : σ → Prop} {s t : σ} {es fs : List ε} (h : M.Always P s es)
    (hrun : M.run s es = some t) (h' : M.Always P t fs) : M.Always P s (es ++ fs) := by
  induction es generalizing s with
  | nil =>
    cases hrun
    exact h'
  | cons e es ih =>
    refine ⟨h.1, fun u hu => ih (h.2 u hu) ?_⟩
    rwa [run_cons_of_next hu] at hrun

/-- A condition on the events only. -/
theorem along_of_forall {E : ε → Prop} (s : σ) {es : List ε} (h : ∀ e ∈ es, E e) :
    M.Along (fun _ e _ => E e) s es := by
  induction es generalizing s with
  | nil => trivial
  | cons e es ih =>
    rw [List.forall_mem_cons] at h
    exact fun t _ => ⟨h.1, ih t h.2⟩

theorem Along.and {C D : σ → ε → σ → Prop} {s : σ} {es : List ε} (hC : M.Along C s es)
    (hD : M.Along D s es) : M.Along (fun s e t => C s e t ∧ D s e t) s es := by
  induction es generalizing s with
  | nil => trivial
  | cons e es ih =>
    exact fun t ht => ⟨⟨(hC t ht).1, (hD t ht).1⟩, ih (hC t ht).2 (hD t ht).2⟩

/-- The same for a run of events with `E`, which may be what keeps the invariant. -/
theorem always_iff_along_of_forall {I P : σ → Prop} {C : σ → ε → Prop} {E : ε → Prop}
    (hI : ∀ s e t, E e → I s → M.next s e = some t → I t)
    (hPC : ∀ s e t, E e → I s → P s → M.next s e = some t → (P t ↔ C s e))
    {s : σ} (hs : I s) (hP : P s) {es : List ε} (hes : ∀ e ∈ es, E e) :
    M.Always P s es ↔ M.Along (fun s e _ => C s e) s es := by
  induction es generalizing s with
  | nil => exact iff_of_true hP trivial
  | cons e es ih =>
    rw [List.forall_mem_cons] at hes
    have hstep : ∀ t, M.next s e = some t → P t → (M.Always P t es ↔
        M.Along (fun s e _ => C s e) t es) := fun t ht hPt => ih (hI s e t hes.1 hs ht) hPt hes.2
    constructor
    · rintro ⟨-, h⟩ t ht
      have hPt := (always_iff_along_post.1 (h t ht)).1
      exact ⟨(hPC s e t hes.1 hs hP ht).1 hPt, (hstep t ht hPt).1 (h t ht)⟩
    · intro h
      refine ⟨hP, fun t ht => ?_⟩
      have hPt := (hPC s e t hes.1 hs hP ht).2 (h t ht).1
      exact (hstep t ht hPt).2 (h t ht).2

theorem outputs_cons_of_step {s t : σ} {e : ε} {o : ω} (h : M.step s e = some (t, o))
    (es : List ε) : M.outputs s (e :: es) = o :: M.outputs t es := by
  rw [outputs, h]

theorem outputs_cons_of_refused {s : σ} {e : ε} (h : M.step s e = none) (es : List ε) :
    M.outputs s (e :: es) = [] := by
  rw [outputs, h]

theorem outputs_append {s t : σ} {es : List ε} (h : M.run s es = some t) (fs : List ε) :
    M.outputs s (es ++ fs) = M.outputs s es ++ M.outputs t fs := by
  induction es generalizing s with
  | nil =>
    cases h
    rfl
  | cons e es ih =>
    rw [run_cons, Option.bind_eq_some_iff] at h
    obtain ⟨u, hu, hrun⟩ := h
    obtain ⟨o, hstep⟩ := next_eq_some.1 hu
    rw [List.cons_append, outputs_cons_of_step hstep, outputs_cons_of_step hstep, ih hrun,
      List.cons_append]

/-- A step for step simulation: as long as the steps of `N` meet `C`, both machines answer the
same, and the states they reach are related. -/
theorem simulation {τ : Type*} {N : Machine τ ε ω} {R : σ → τ → Prop} {C : τ → ε → Prop}
    (hrefuse : ∀ s t e, R s t → N.step t e = none → M.step s e = none)
    (hstep : ∀ s t e t' o, R s t → C t e → N.step t e = some (t', o) →
      ∃ s', M.step s e = some (s', o) ∧ R s' t')
    {s : σ} {t : τ} (h : R s t) (es : List ε) (hC : N.Along (fun t e _ => C t e) t es) :
    M.outputs s es = N.outputs t es ∧
      ∀ s', M.run s es = some s' → ∃ t', N.run t es = some t' ∧ R s' t' := by
  induction es generalizing s t with
  | nil => exact ⟨rfl, fun s' hs' => ⟨t, rfl, by cases hs'; exact h⟩⟩
  | cons e es ih =>
    cases ht : N.step t e with
    | none =>
      have hs := hrefuse s t e h ht
      refine ⟨by rw [outputs_cons_of_refused hs, outputs_cons_of_refused ht], fun s' hs' => ?_⟩
      rw [run_cons, next, hs] at hs'
      cases hs'
    | some p =>
      obtain ⟨t', o⟩ := p
      have hnext : N.next t e = some t' := next_eq_some.2 ⟨o, ht⟩
      obtain ⟨hCt, hrest⟩ := hC t' hnext
      obtain ⟨s', hs, hR⟩ := hstep s t e t' o h hCt ht
      obtain ⟨hout, hrun⟩ := ih hR hrest
      rw [outputs_cons_of_step hs, outputs_cons_of_step ht, hout,
        run_cons_of_next (next_eq_some.2 ⟨o, hs⟩), run_cons_of_next hnext]
      exact ⟨rfl, hrun⟩

/-! ### What a run has seen -/

variable (M) in
/-- Some step of the run `es` shows `b`: `F` holds of the state before it, its event and `b`. -/
def Recorded {β : Type*} (F : σ → ε → β → Prop) (s : σ) : List ε → β → Prop
  | [], _ => False
  | e :: es, b => F s e b ∨ ∃ t, M.next s e = some t ∧ Recorded F t es b

/-- **Nothing is held that was not seen.**  If a step from a state of the invariant `I` leaves
nothing behind but what was there before and what it shows, then whatever is held after a run was
held at its beginning, or some step of the run has shown it. -/
theorem recorded_of_held {β : Type*} {I : σ → Prop} {held : σ → β → Prop} {F : σ → ε → β → Prop}
    (hI : ∀ s e t, I s → M.next s e = some t → I t)
    (hstep : ∀ s e t b, I s → M.next s e = some t → held t b → held s b ∨ F s e b)
    {s t : σ} (hs : I s) {es : List ε} (h : M.run s es = some t) {b : β} (hb : held t b) :
    held s b ∨ M.Recorded F s es b := by
  induction es generalizing s with
  | nil =>
    cases h
    exact Or.inl hb
  | cons e es ih =>
    rw [run_cons, Option.bind_eq_some_iff] at h
    obtain ⟨u, hu, h⟩ := h
    rcases ih (hI s e u hs hu) h with hheld | hseen
    · exact (hstep s e u b hs hu hheld).imp id Or.inl
    · exact Or.inr (Or.inr ⟨u, hu, hseen⟩)

end Machine

/-! ### The past of a run -/

/-- In a history, the newest event first, there is one with `P`, and it and those after it are none
with `Q`. -/
def Since {ε : Type*} (P Q : ε → Prop) : List ε → Prop
  | [] => False
  | e :: past => ¬ Q e ∧ (P e ∨ Since P Q past)

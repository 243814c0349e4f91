import Mathlib.Tactic

/-!
# Attempts that may fail

Programs in `Option`: when a sequence succeeds, and what a list that is read element by element
becomes.

* `isSome_bind_iff`: a sequence whose second part succeeds whatever the first one is;
* `mapM_eq_some_iff`, `isSome_mapM_iff`, `mem_of_mapM_eq_some`: reading all elements of a list.
-/

section Attempts

variable {α β : Type}

/-- A sequence whose second part returns under the condition `p`, whatever the first one is. -/
theorem isSome_bind_iff {x : Option α} {f : α → Option β} {p : Prop}
    (h : ∀ a, (f a).isSome ↔ p) : (x >>= f).isSome ↔ x.isSome ∧ p := by
  cases x with
  | none => simp
  | some a => simpa using h a

/-- A sequence returns when its parts do, one after the other. -/
theorem isSome_bind_iff_exists {x : Option α} {f : α → Option β} :
    (x >>= f).isSome ↔ ∃ a, x = some a ∧ (f a).isSome := by
  cases x with
  | none => simp
  | some a => simp

/-- All elements are read, each to its own value. -/
theorem mapM_eq_some_iff {f : α → Option β} {l : List α} {bs : List β} :
    l.mapM f = some bs ↔ List.Forall₂ (fun a b => f a = some b) l bs := by
  induction l generalizing bs with
  | nil => simp [eq_comm]
  | cons a l ih =>
    simp only [List.mapM_cons, Option.bind_eq_bind, Option.bind_eq_some_iff, Option.pure_def,
      Option.some.injEq, List.forall₂_cons_left_iff, ih]
    constructor
    · rintro ⟨b, hb, bs, hbs, rfl⟩
      exact ⟨b, bs, hb, hbs, rfl⟩
    · rintro ⟨b, bs, hb, hbs, rfl⟩
      exact ⟨b, hb, bs, hbs, rfl⟩

/-- A list is read exactly when all of its elements are. -/
theorem isSome_mapM_iff {f : α → Option β} {l : List α} :
    (l.mapM f).isSome ↔ ∀ a ∈ l, (f a).isSome := by
  induction l with
  | nil => simp
  | cons a l ih =>
    rw [List.mapM_cons, List.forall_mem_cons, ← ih]
    refine isSome_bind_iff fun b => ?_
    rw [← and_true (p := (l.mapM f).isSome = true)]
    exact isSome_bind_iff fun bs => iff_of_true rfl trivial

/-- What is read came from an element. -/
theorem mem_of_mapM_eq_some {f : α → Option β} {l : List α} {bs : List β}
    (h : l.mapM f = some bs) {b : β} (hb : b ∈ bs) : ∃ a ∈ l, f a = some b := by
  induction l generalizing bs with
  | nil =>
    cases h
    cases hb
  | cons a l ih =>
    simp only [List.mapM_cons, Option.bind_eq_bind, Option.bind_eq_some_iff, Option.pure_def,
      Option.some.injEq] at h
    obtain ⟨c, hc, cs, hcs, rfl⟩ := h
    rcases List.mem_cons.1 hb with rfl | hb
    · exact ⟨a, List.mem_cons_self, hc⟩
    · exact (ih hcs hb).imp fun _ ha => ⟨List.mem_cons_of_mem _ ha.1, ha.2⟩

end Attempts

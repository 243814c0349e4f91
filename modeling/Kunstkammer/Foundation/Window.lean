import Mathlib.Tactic

/-!
# Instants in a moving window

* `inWindow t w l`: the instants of `l` in `[t, t + w)`;
* `AtMostPer n w l`: every window of width `w` has at most `n` of the instants `l`;
* `Spaced g l`: consecutive instants are at least `g` apart;
* `Spaced.atMostPer`: instants `g` apart keep every limit `n` per `w` with `w ≤ n * g`;
* `not_atMostPer`: what breaks a limit.
-/

namespace Window

/-- The instants in `[t, t + w)`. -/
def inWindow (t w : ℤ) (l : List ℤ) : List ℤ := l.filter fun x => t ≤ x ∧ x < t + w

/-- Every window of width `w` has at most `n` of the instants. -/
def AtMostPer (n w : ℤ) (l : List ℤ) : Prop := ∀ t, ((inWindow t w l).length : ℤ) ≤ n

/-- Each instant is at least `g` later than those before it. -/
def Spaced (g : ℤ) (l : List ℤ) : Prop := l.Pairwise fun x y => x + g ≤ y

/-- The first `g`-spaced instants take their room. -/
theorem Spaced.room {g lo hi : ℤ} {l : List ℤ} (h : Spaced g l) (hlo : ∀ x ∈ l, lo ≤ x)
    (hhi : ∀ x ∈ l, x < hi) (hne : l ≠ []) : lo + (l.length - 1) * g < hi := by
  induction l generalizing lo with
  | nil => exact absurd rfl hne
  | cons x l ih =>
    obtain ⟨hx, hl⟩ := List.pairwise_cons.1 h
    have hxlo : lo ≤ x := hlo x List.mem_cons_self
    by_cases hnil : l = []
    · have hxhi : x < hi := hhi x List.mem_cons_self
      simp [hnil]
      omega
    · have hroom := ih hl hx (fun y hy => hhi y (List.mem_cons_of_mem _ hy)) hnil
      rw [List.length_cons]
      push_cast
      linarith

/-- **Instants far enough apart keep every limit.** -/
theorem Spaced.atMostPer {g n w : ℤ} {l : List ℤ} (h : Spaced g l) (hg : 0 ≤ g) (hn : 0 ≤ n)
    (hw : w ≤ n * g) : AtMostPer n w l := by
  intro t
  by_cases hnil : inWindow t w l = []
  · rw [hnil]
    exact hn
  have hin : ∀ x ∈ inWindow t w l, t ≤ x ∧ x < t + w := fun x hx => by
    simpa using List.of_mem_filter hx
  have hspaced : Spaced g (inWindow t w l) := List.Pairwise.filter _ h
  have hroom := hspaced.room (fun x hx => (hin x hx).1) (fun x hx => (hin x hx).2) hnil
  -- one instant more would need room for `n` gaps, which is the whole window
  by_contra hlt
  have hmul : n * g ≤ ((inWindow t w l).length - 1) * g :=
    mul_le_mul_of_nonneg_right (by omega) hg
  linarith

/-- More than `n` instants within less than `w`. -/
theorem not_atMostPer {n w t : ℤ} {l : List ℤ} (hin : ∀ x ∈ l, t ≤ x ∧ x < t + w)
    (hlen : n < l.length) : ¬ AtMostPer n w l := by
  intro h
  have hall : inWindow t w l = l := List.filter_eq_self.2 fun x hx => by simpa using hin x hx
  have hle := h t
  rw [hall] at hle
  omega

end Window

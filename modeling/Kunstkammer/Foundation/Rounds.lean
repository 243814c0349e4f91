import Mathlib.Tactic

/-!
# Loops that go on while they are told to

A loop makes its rounds `k, k + 1, …`.  What a round learns from outside decides whether the loop
goes on, and nothing the loop knows itself bounds their number.

* `Rounds ends on ok fits`: such a loop.  Round `k` tells it to go on where `on k` holds, which it
  can do where `fits (k + 1)` holds; otherwise it comes to its end, if `ok k` holds;
* `Rounds.ends_iff`: when `n` rounds are enough;
* `Rounds.exists_ends_iff`: the loop comes to its end exactly when some round it can reach does not
  tell it to go on.
-/

/-- A loop in rounds.  `ends n k a` says that the loop comes to its end within `n` rounds from
round `k`, entered with the data `a`, which has no influence on that. -/
structure Rounds {A : Type*} (ends : ℕ → ℕ → A → Prop) (on ok fits : ℕ → Prop) : Prop where
  zero : ∀ k a, ¬ ends 0 k a
  go : ∀ n k a, on k → ∃ b, (ends (n + 1) k a ↔ fits (k + 1) ∧ ends n (k + 1) b)
  stop : ∀ n k a, ¬ on k → (ends (n + 1) k a ↔ ok k)
  antitone : Antitone fits
  ok_of_fits : ∀ k, fits (k + 1) → ok k

namespace Rounds

variable {A : Type*} {ends : ℕ → ℕ → A → Prop} {on ok fits : ℕ → Prop}

/-- Within `n` rounds the loop ends if one of them is the last, and all rounds before it go on. -/
theorem ends_iff (h : Rounds ends on ok fits) (n k : ℕ) (a : A) :
    ends n k a ↔
      ∃ d < n, (¬ on (k + d) ∧ ok (k + d)) ∧ ∀ i < d, on (k + i) ∧ fits (k + i + 1) := by
  induction n generalizing k a with
  | zero =>
    constructor
    · intro hends
      exact absurd hends (h.zero k a)
    · rintro ⟨d, hd, -⟩
      exact absurd hd (Nat.not_lt_zero d)
  | succ n ih =>
    by_cases hon : on k
    · obtain ⟨b, hgo⟩ := h.go n k a hon
      rw [hgo, ih]
      constructor
      · rintro ⟨hfits, d, hd, hlast, hbefore⟩
        refine ⟨d + 1, by omega, by rwa [Nat.add_right_comm] at hlast, fun i hi => ?_⟩
        rcases Nat.eq_zero_or_pos i with rfl | hpos
        · exact ⟨hon, hfits⟩
        · obtain ⟨i, rfl⟩ := Nat.exists_eq_add_of_lt hpos
          have hstep := hbefore i (by omega)
          rwa [show k + 1 + i = k + (0 + i + 1) by omega] at hstep
      · rintro ⟨d, hd, ⟨hoff, hok⟩, hbefore⟩
        obtain ⟨d, rfl⟩ := Nat.exists_eq_succ_of_ne_zero (n := d) fun hzero => by
          subst hzero
          exact hoff hon
        refine ⟨(hbefore 0 (Nat.succ_pos d)).2, d, by omega, ?_, fun i hi => ?_⟩
        · rw [show k + 1 + d = k + d.succ by omega]
          exact ⟨hoff, hok⟩
        · have hstep := hbefore (i + 1) (by omega)
          rwa [show k + (i + 1) = k + 1 + i by omega] at hstep
    · rw [h.stop n k a hon]
      constructor
      · intro hok
        exact ⟨0, Nat.succ_pos n, ⟨hon, hok⟩, fun i hi => absurd hi (Nat.not_lt_zero i)⟩
      · rintro ⟨d, -, hlast, hbefore⟩
        rcases Nat.eq_zero_or_pos d with rfl | hpos
        · exact hlast.2
        · exact absurd (hbefore 0 hpos).1 hon

/-- **When a loop comes to its end**, however many rounds it may make. -/
theorem exists_ends_iff (h : Rounds ends on ok fits) {k : ℕ} (hk : fits k) (a : A) :
    (∃ n, ends n k a) ↔ ∃ j, k ≤ j ∧ ¬ on j ∧ ok j ∧ fits j := by
  classical
  constructor
  · rintro ⟨n, hends⟩
    obtain ⟨d, -, ⟨hoff, hok⟩, hbefore⟩ := (h.ends_iff n k a).1 hends
    refine ⟨k + d, Nat.le_add_right k d, hoff, hok, ?_⟩
    rcases Nat.eq_zero_or_pos d with rfl | hpos
    · exact hk
    · have hlast := (hbefore (d - 1) (by omega)).2
      rwa [show k + (d - 1) + 1 = k + d by omega] at hlast
  · rintro ⟨j, hkj, hoff, hok, hfits⟩
    obtain ⟨e, rfl⟩ := Nat.exists_eq_add_of_le hkj
    -- the first round that does not go on
    have hex : ∃ d, ¬ on (k + d) := ⟨e, hoff⟩
    have hle : Nat.find hex ≤ e := Nat.find_min' hex hoff
    refine ⟨Nat.find hex + 1, (h.ends_iff _ k a).2
      ⟨Nat.find hex, Nat.lt_succ_self _, ⟨Nat.find_spec hex, ?_⟩, fun i hi => ⟨?_, ?_⟩⟩⟩
    · rcases hle.eq_or_lt with heq | hlt
      · rwa [heq]
      · exact h.ok_of_fits _ (h.antitone (by omega) hfits)
    · exact not_not.1 (Nat.find_min hex hi)
    · exact h.antitone (by omega) hfits

end Rounds

import Mathlib.Tactic

/-!
# Clocks that never go back

A program reads a monotone clock and sleeps.  Whatever else happens between two readings is a
delay, and the delays are all the freedom the environment has, so a clock is its last reading
together with the delays still to come.

* `Clock`, `read`, `sleep`;
* `Slept d c c'`: `c'` is `c` after some readings and sleeping for `d` in all;
* `stopped t`: the clock that shows `t` and moves on only while the program sleeps.
-/

/-- A clock: the time that has passed at least, and the delay before each reading to come. -/
structure Clock where
  time : ℤ
  delays : ℕ → ℕ

namespace Clock

/-- The next reading. -/
def read (c : Clock) : ℤ × Clock :=
  (c.time + c.delays 0, ⟨c.time + c.delays 0, fun n => c.delays (n + 1)⟩)

/-- Sleep at least for `d`; sleeping longer is part of the next delay. -/
def sleep (d : ℤ) (c : Clock) : Clock := { c with time := c.time + max d 0 }

/-- The clock that shows `t` at every reading until the program sleeps. -/
def stopped (t : ℤ) : Clock := ⟨t, fun _ => 0⟩

@[simp] theorem read_time (c : Clock) : c.read.2.time = c.read.1 := rfl

@[simp] theorem sleep_time (d : ℤ) (c : Clock) : (c.sleep d).time = c.time + max d 0 := rfl

theorem time_le_read (c : Clock) : c.time ≤ c.read.1 := by
  unfold read; dsimp only; omega

@[simp] theorem stopped_time (t : ℤ) : (stopped t).time = t := rfl

@[simp] theorem read_stopped (t : ℤ) : (stopped t).read = (t, stopped t) := by
  simp [read, stopped]

@[simp] theorem sleep_stopped (d t : ℤ) : (stopped t).sleep d = stopped (t + max d 0) := rfl

/-! ### The time a program sleeps -/

/-- `c'` is `c` after some readings, with their delays, and sleeping for `d` in all. -/
def Slept (d : ℤ) (c c' : Clock) : Prop :=
  ∃ n, (∀ m, c'.delays m = c.delays (n + m)) ∧
    c'.time = c.time + d + ∑ i ∈ Finset.range n, (c.delays i : ℤ)

namespace Slept

theorem refl (c : Clock) : Slept 0 c c := ⟨0, fun m => by rw [Nat.zero_add], by simp⟩

theorem read (c : Clock) : Slept 0 c c.read.2 := by
  refine ⟨1, fun m => ?_, ?_⟩
  · rw [Nat.add_comm]
    rfl
  · simp [Clock.read]

theorem sleep (d : ℤ) (c : Clock) : Slept (max d 0) c (c.sleep d) :=
  ⟨0, fun m => by rw [Nat.zero_add]; rfl, by simp⟩

theorem trans {d d' : ℤ} {c c' c'' : Clock} (h : Slept d c c') (h' : Slept d' c' c'') :
    Slept (d + d') c c'' := by
  obtain ⟨n, hdelays, htime⟩ := h
  obtain ⟨n', hdelays', htime'⟩ := h'
  refine ⟨n + n', fun m => ?_, ?_⟩
  · rw [hdelays', hdelays, Nat.add_assoc]
  · rw [htime', htime, Finset.sum_range_add]
    simp only [hdelays]
    ring

end Slept

end Clock

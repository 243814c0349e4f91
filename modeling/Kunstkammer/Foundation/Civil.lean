import Mathlib.Tactic

/-!
# The proleptic Gregorian calendar

Days are counted from 1 January 1970; months from 1 to 12.

* `isLeap`, `daysInMonth`, `Valid`;
* `toDays`: the day with a given date;
* `ofDays`: the date of a given day;
* `valid_ofDays`, `toDays_ofDays`: every day has a date, and the date gives the day back.
-/

namespace Civil

/-- A year of 366 days. -/
def isLeap (y : ℤ) : Bool := decide (y % 4 = 0 ∧ (y % 100 ≠ 0 ∨ y % 400 = 0))

/-- The days of a year before its month `m + 1`; the days of the year for `m = 12`. -/
def daysBeforeMonth (leap : Bool) (m : ℕ) : ℕ :=
  [0, 31, 59, 90, 120, 151, 181, 212, 243, 273, 304, 334, 365].getD m 0 +
    if leap ∧ 2 ≤ m then 1 else 0

def daysInMonth (leap : Bool) (m : ℕ) : ℕ := daysBeforeMonth leap m - daysBeforeMonth leap (m - 1)

/-- The day on which the year `y` begins. -/
def daysBeforeYear (y : ℤ) : ℤ :=
  365 * (y - 1970) + (y - 1) / 4 - (y - 1) / 100 + (y - 1) / 400 - 477

/-- A date. -/
structure Date where
  year : ℤ
  month : ℕ
  day : ℕ
  deriving DecidableEq

/-- The date exists. -/
structure Date.Valid (d : Date) : Prop where
  month_pos : 1 ≤ d.month
  month_le : d.month ≤ 12
  day_pos : 1 ≤ d.day
  day_le : d.day ≤ daysInMonth (isLeap d.year) d.month

/-- The day with a date. -/
def toDays (d : Date) : ℤ :=
  daysBeforeYear d.year + daysBeforeMonth (isLeap d.year) (d.month - 1) + (d.day - 1)

/-- The year a day is in: the average length of a year leads there up to one year. -/
def yearOf (n : ℤ) : ℤ :=
  let y := 1970 + n * 400 / 146097
  if n < daysBeforeYear y then y - 1 else if daysBeforeYear (y + 1) ≤ n then y + 1 else y

/-- How many months are over on day `r` of a year. -/
def monthsOver (leap : Bool) (r : ℕ) : ℕ :=
  (List.range 12).countP fun m => daysBeforeMonth leap (m + 1) ≤ r

/-- The date of a day. -/
def ofDays (n : ℤ) : Date :=
  let y := yearOf n
  let r := (n - daysBeforeYear y).toNat
  let m := monthsOver (isLeap y) r
  ⟨y, m + 1, r - daysBeforeMonth (isLeap y) m + 1⟩

theorem daysBeforeYear_succ (y : ℤ) :
    daysBeforeYear (y + 1) = daysBeforeYear y + daysBeforeMonth (isLeap y) 12 := by
  have hlength : (daysBeforeMonth (isLeap y) 12 : ℤ) = if isLeap y then 366 else 365 := by
    cases isLeap y <;> rfl
  rw [hlength]
  simp only [isLeap, decide_eq_true_eq, daysBeforeYear]
  split_ifs with h <;> omega

/-- A day lies in its year. -/
theorem yearOf_spec (n : ℤ) :
    daysBeforeYear (yearOf n) ≤ n ∧ n < daysBeforeYear (yearOf n + 1) := by
  unfold yearOf
  dsimp only
  split_ifs with hbefore hafter
  · refine ⟨?_, by rw [sub_add_cancel]; exact hbefore⟩
    unfold daysBeforeYear
    omega
  · refine ⟨hafter, ?_⟩
    unfold daysBeforeYear
    omega
  · omega

/-- Where a sequence goes up, the number of steps that reach up to `r` is the last place before it
passes `r`. -/
theorem countP_steps {f : ℕ → ℕ} {r n : ℕ} (hmono : ∀ j ≤ n, ∀ i ≤ j, f i ≤ f j) (h0 : f 0 ≤ r) :
    let k := (List.range n).countP fun m => f (m + 1) ≤ r
    k ≤ n ∧ f k ≤ r ∧ (k < n → r < f (k + 1)) := by
  induction n with
  | zero => exact ⟨le_rfl, h0, fun h => absurd h (lt_irrefl 0)⟩
  | succ n ih =>
    obtain ⟨hk, hle, hlt⟩ := ih fun j hj => hmono j (hj.trans n.le_succ)
    dsimp only
    rw [List.range_succ, List.countP_append, List.countP_singleton]
    generalize (List.range n).countP (fun m => f (m + 1) ≤ r) = k at *
    by_cases hreach : f (n + 1) ≤ r
    · -- then all steps before reach up to it too
      have hall : k = n := by
        by_contra hne
        have hpass := hlt (by omega)
        have hup := hmono (n + 1) le_rfl (k + 1) (by omega)
        omega
      subst hall
      simp [hreach]
    · have hlast : k = n → r < f (k + 1) := fun h => h ▸ not_le.1 hreach
      simp only [hreach, decide_false, Bool.false_eq_true, if_false, Nat.add_zero]
      exact ⟨hk.trans n.le_succ, hle, fun _ => (Nat.lt_or_eq_of_le hk).elim hlt hlast⟩

theorem daysBeforeMonth_mono : ∀ leap : Bool, ∀ j ≤ 12, ∀ i ≤ j,
    daysBeforeMonth leap i ≤ daysBeforeMonth leap j := by
  decide +kernel

/-- Day `r` of a year lies in the month after those that are over. -/
theorem monthsOver_spec : ∀ leap : Bool, ∀ r < daysBeforeMonth leap 12,
    monthsOver leap r < 12 ∧ daysBeforeMonth leap (monthsOver leap r) ≤ r ∧
      r < daysBeforeMonth leap (monthsOver leap r + 1) := by
  intro leap r hr
  have hzero : daysBeforeMonth leap 0 ≤ r := by cases leap <;> exact Nat.zero_le r
  obtain ⟨hk, hle, hlt⟩ := countP_steps (daysBeforeMonth_mono leap) hzero
  have hbefore : monthsOver leap r < 12 := by
    refine lt_of_le_of_ne hk fun h => ?_
    have hpassed : daysBeforeMonth leap (monthsOver leap r) ≤ r := hle
    rw [h] at hpassed
    omega
  exact ⟨hbefore, hle, hlt hbefore⟩

/-- The day of a date within its year. -/
theorem dayOfYear_lt (n : ℤ) :
    (n - daysBeforeYear (yearOf n)).toNat < daysBeforeMonth (isLeap (yearOf n)) 12 := by
  have h := yearOf_spec n
  have hsucc := daysBeforeYear_succ (yearOf n)
  omega

theorem valid_ofDays (n : ℤ) : (ofDays n).Valid := by
  obtain ⟨hm, hle, hlt⟩ := monthsOver_spec _ _ (dayOfYear_lt n)
  refine ⟨?_, ?_, ?_, ?_⟩
  · exact Nat.le_add_left 1 _
  · exact hm
  · exact Nat.le_add_left 1 _
  · simp only [ofDays, daysInMonth, Nat.add_sub_cancel]
    omega

/-- **The date of a day is the date with that day.** -/
theorem toDays_ofDays (n : ℤ) : toDays (ofDays n) = n := by
  obtain ⟨-, hle, -⟩ := monthsOver_spec _ _ (dayOfYear_lt n)
  have hyear := (yearOf_spec n).1
  simp only [toDays, ofDays, Nat.add_sub_cancel]
  omega

end Civil

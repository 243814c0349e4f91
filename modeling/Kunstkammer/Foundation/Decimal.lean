import Mathlib.Data.List.TakeWhile
import Mathlib.Data.Nat.Digits.Lemmas
import Mathlib.Tactic

/-!
# Decimal numerals as bytes

* `isDigit`, `eval`: the digits `0` to `9` and the number a row of them denotes;
* `print`: the numeral of a natural number, without leading zeros; `printInt` with a sign;
* `scan`: the digits at the front of a text;
* `eval_print`, `scan_append`: reading back what was printed, whatever follows it.
-/

namespace Decimal

/-- The digit `d`. -/
def digit (d : ℕ) : UInt8 := UInt8.ofNat (48 + d)

/-- `0` to `9`. -/
def isDigit (b : UInt8) : Bool := decide (48 ≤ b.toNat ∧ b.toNat ≤ 57)

/-- The number denoted by a row of digits. -/
def eval (l : List UInt8) : ℕ := l.foldl (fun n b => 10 * n + (b.toNat - 48)) 0

/-- The numeral of `n`. -/
def print (n : ℕ) : List UInt8 := if n = 0 then [48] else (Nat.digits 10 n).reverse.map digit

/-- The numeral of an integer. -/
def printInt (n : ℤ) : List UInt8 := if n < 0 then 45 :: print n.natAbs else print n.natAbs

/-- The digits at the front and the rest. -/
def scan (l : List UInt8) : List UInt8 × List UInt8 := (l.takeWhile isDigit, l.dropWhile isDigit)

theorem toNat_digit {d : ℕ} (h : d < 10) : (digit d).toNat = 48 + d := by
  unfold digit
  rw [UInt8.toNat_ofNat']
  omega

theorem isDigit_digit {d : ℕ} (h : d < 10) : isDigit (digit d) = true := by
  simp [isDigit, toNat_digit h]
  omega

theorem eval_append (l : List UInt8) (b : UInt8) :
    eval (l ++ [b]) = 10 * eval l + (b.toNat - 48) := by
  simp [eval]

theorem eval_digits {ds : List ℕ} (h : ∀ d ∈ ds, d < 10) :
    eval (ds.reverse.map digit) = Nat.ofDigits 10 ds := by
  induction ds with
  | nil => rfl
  | cons d ds ih =>
    rw [List.reverse_cons, List.map_append, List.map_singleton, eval_append,
      ih fun e he => h e (List.mem_cons_of_mem _ he), toNat_digit (h d List.mem_cons_self),
      Nat.ofDigits_cons]
    omega

/-- A printed number is read back. -/
@[simp] theorem eval_print (n : ℕ) : eval (print n) = n := by
  unfold print
  split_ifs with h
  · rw [h]; rfl
  · rw [eval_digits fun d hd => Nat.digits_lt_base (by decide) hd, Nat.ofDigits_digits]

theorem isDigit_of_mem_print {n : ℕ} {b : UInt8} (h : b ∈ print n) : isDigit b = true := by
  unfold print at h
  split_ifs at h
  · rw [List.mem_singleton.1 h]; rfl
  · obtain ⟨d, hd, rfl⟩ := List.mem_map.1 h
    exact isDigit_digit (Nat.digits_lt_base (by decide) (List.mem_reverse.1 hd))

theorem print_ne_nil (n : ℕ) : print n ≠ [] := by
  unfold print
  split_ifs with h
  · exact List.cons_ne_nil _ _
  · simpa [Nat.digits_ne_nil_iff_ne_zero] using h

theorem print_injective : Function.Injective print := fun m n h => by
  rw [← eval_print m, h, eval_print]

/-- The sign is no digit. -/
theorem head_print_ne_minus {n : ℕ} {l : List UInt8} : print n ≠ 45 :: l := fun h => by
  have hdigit := isDigit_of_mem_print (n := n) (h ▸ List.mem_cons_self)
  exact absurd hdigit (by decide)

theorem printInt_injective : Function.Injective printInt := fun m n h => by
  unfold printInt at h
  split_ifs at h with hm hn hn
  · have := print_injective (List.cons.inj h).2
    omega
  · exact absurd h.symm head_print_ne_minus
  · exact absurd h head_print_ne_minus
  · have := print_injective h
    omega

/-- Digits that are followed by no digit are all that is scanned. -/
theorem scan_append {l rest : List UInt8} (h : ∀ b ∈ l, isDigit b = true)
    (hrest : ∀ b ∈ rest.head?, isDigit b = false) : scan (l ++ rest) = (l, rest) := by
  unfold scan
  rw [List.takeWhile_append_of_pos h, List.dropWhile_append_of_pos h]
  cases rest with
  | nil => simp
  | cons b rest => simp [hrest b rfl]

/-- What is scanned are digits, and the rest begins with none. -/
theorem scan_spec (l : List UInt8) : l = (scan l).1 ++ (scan l).2 ∧
    (∀ b ∈ (scan l).1, isDigit b = true) ∧ ∀ b ∈ (scan l).2.head?, isDigit b = false := by
  refine ⟨List.takeWhile_append_dropWhile.symm, fun b hb => List.mem_takeWhile_imp hb, ?_⟩
  intro b hb
  have hnot := List.head?_dropWhile_not isDigit l
  rw [show l.dropWhile isDigit = (scan l).2 from rfl, hb] at hnot
  simpa using hnot

end Decimal

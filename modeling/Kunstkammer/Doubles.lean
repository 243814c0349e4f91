import Mathlib.Data.Int.Log
import Kunstkammer.Numbers

/-!
# Doubles

The `double` of the program as far as it reads them: from the numbers of a JSON text, and by
`std::stod` from other texts.

* `Double`, `Double.nearest`: rounding to 53 digits, the even one of two neighbours;
* `readDouble`: the number at the front of a text, as `strtod` finds it, before it is rounded;
* `stod`: `none` where there is no number, or one out of range;
* `stod_intToString`: a printed integer is read as the nearest `double`.
-/

namespace Kaiten

/-- A `double`.  The sign of zero is left out. -/
inductive Double
  | finite (x : ℚ)
  | infinite (negative : Bool)
  | nan
  deriving DecidableEq

namespace Double

/-- The nearest multiple of `2 ^ e`. -/
def roundTo (e : ℤ) (x : ℚ) : ℚ := roundHalfEven (x / 2 ^ e) * 2 ^ e

/-- The last of the 53 digits, however small the number is. -/
def lastDigit (x : ℚ) : ℤ := Int.log 2 |x| - 52

/-- The nearest `double`. -/
def nearest (x : ℚ) : Double :=
  let y := roundTo (max (lastDigit x) (-1074)) x
  if |y| < 2 ^ 1024 then finite y else infinite (x < 0)

/-- `strtod` sets `errno`: the number is too large, or it loses digits below the normal ones. -/
def OutOfRange (x : ℚ) : Prop :=
  match nearest x with
  | finite y => y ≠ x ∧ |roundTo (lastDigit x) x| < 2 ^ (-1022 : ℤ)
  | _ => True

instance instDecidableOutOfRange (x : ℚ) : Decidable (OutOfRange x) := by
  unfold OutOfRange
  split <;> infer_instance

end Double

/-! ### Reading -/

/-- The digit a byte stands for; 16 where it stands for none. -/
def digitValue (b : UInt8) : ℕ :=
  if 48 ≤ b.toNat ∧ b.toNat ≤ 57 then b.toNat - 48
  else if 97 ≤ (toLower b).toNat ∧ (toLower b).toNat ≤ 102 then (toLower b).toNat - 87
  else 16

/-- The digits at the front, and what follows them. -/
def spanDigits (base : ℕ) : Str → List ℕ × Str
  | [] => ([], [])
  | b :: s =>
      if digitValue b < base then
        (digitValue b :: (spanDigits base s).1, (spanDigits base s).2)
      else ([], b :: s)

/-- The number the digits stand for. -/
def ofDigits (base : ℕ) (digits : List ℕ) : ℕ := digits.foldl (fun n d => n * base + d) 0

/-- An exponent behind its letter; zero where there is none. -/
def readExponent (letter : UInt8) (s : Str) : ℤ :=
  match s with
  | [] => 0
  | b :: s =>
      if toLower b = letter then
        let negative : Bool := s.head? = some 45
        let s := if s.head? = some 45 ∨ s.head? = some 43 then s.tail else s
        let n : ℤ := ofDigits 10 (spanDigits 10 s).1
        if negative then -n else n
      else 0

/-- Digits with a point among them, and an exponent. -/
def readFraction (base : ℕ) (letter : UInt8) (radix : ℚ) (s : Str) : Option ℚ :=
  let (whole, s) := spanDigits base s
  let (part, s) := if s.head? = some 46 then spanDigits base s.tail else ([], s)
  if whole ++ part = [] then none
  else some (ofDigits base (whole ++ part) / (base : ℚ) ^ part.length *
    radix ^ readExponent letter s)

/-- The number at the front of a text, as `strtod` finds it, before it is rounded. -/
def readDouble (s : Str) : Option Double :=
  let s := s.dropWhile isSpace
  let negative : Bool := s.head? = some 45
  let s := if s.head? = some 45 ∨ s.head? = some 43 then s.tail else s
  let lower := s.map toLower
  if (lit "inf").isPrefixOf lower then some (.infinite negative)
  else if (lit "nan").isPrefixOf lower then some .nan
  else
    let hex := if (lit "0x").isPrefixOf lower then readFraction 16 112 2 (s.drop 2) else none
    -- without digits behind it, the x ends the number 0
    (hex.or (readFraction 10 101 10 s)).map fun x => .finite (if negative then -x else x)

/-- `std::stod`: throws where there is no number, or one that is out of range. -/
def stod (s : Str) : Option Double :=
  match readDouble s with
  | some (.finite x) => if Double.OutOfRange x then none else some (Double.nearest x)
  | found => found

/-! ### Integers are in range -/

theorem abs_roundHalfEven_sub_le (x : ℚ) : |(roundHalfEven x : ℚ) - x| ≤ 1 := by
  have hle := Int.floor_le x
  have hlt := Int.lt_floor_add_one x
  unfold roundHalfEven
  dsimp only
  rw [abs_le]
  split_ifs
  · constructor <;> linarith
  · push_cast
    constructor <;> linarith

namespace Double

theorem abs_roundTo_sub_le (e : ℤ) (x : ℚ) : |roundTo e x - x| ≤ 2 ^ e := by
  have hpos : (0 : ℚ) < 2 ^ e := by positivity
  have hsplit : roundTo e x - x = (roundHalfEven (x / 2 ^ e) - x / 2 ^ e) * 2 ^ e := by
    rw [roundTo, sub_mul, div_mul_cancel₀ x hpos.ne']
  rw [hsplit, abs_mul, abs_of_pos hpos]
  exact mul_le_of_le_one_left hpos.le (abs_roundHalfEven_sub_le _)

theorem roundTo_zero (e : ℤ) : roundTo e 0 = 0 := by
  have hround : roundHalfEven 0 = 0 := by decide +kernel
  rw [roundTo, zero_div, hround, Int.cast_zero, zero_mul]

/-- Below `2 ^ 64` every number has a finite neighbour. -/
theorem nearest_finite {x : ℚ} (h : |x| < 2 ^ 64) :
    nearest x = finite (roundTo (max (lastDigit x) (-1074)) x) := by
  have hlog : Int.log 2 |x| ≤ 64 := by
    rcases (abs_nonneg x).eq_or_lt with hzero | hpos
    · rw [← hzero, Int.log_zero_right]
      decide
    · have hlt : Int.log 2 |x| < 64 :=
        (Int.lt_zpow_iff_log_lt (b := 2) (by decide) hpos).1 (by exact_mod_cast h)
      omega
  have hdigit : max (lastDigit x) (-1074) ≤ 12 := by
    unfold lastDigit
    omega
  have hulp : (2 : ℚ) ^ max (lastDigit x) (-1074) ≤ 2 ^ (12 : ℤ) :=
    zpow_le_zpow_right₀ (by norm_num) hdigit
  have hclose := abs_roundTo_sub_le (max (lastDigit x) (-1074)) x
  have hsmall : |roundTo (max (lastDigit x) (-1074)) x| < 2 ^ 1024 := by
    have htriangle := abs_sub_abs_le_abs_sub (roundTo (max (lastDigit x) (-1074)) x) x
    calc |roundTo (max (lastDigit x) (-1074)) x| ≤ 2 ^ 64 + 2 ^ (12 : ℤ) := by linarith
      _ < 2 ^ 65 := by norm_num
      _ ≤ 2 ^ 1024 := pow_le_pow_right₀ (by norm_num) (by decide)
  unfold nearest
  dsimp only
  rw [if_pos hsmall]

/-- An integer of 64 bits is in range. -/
theorem not_outOfRange_intCast {n : ℤ} (h : |(n : ℚ)| < 2 ^ 64) : ¬ OutOfRange n := by
  unfold OutOfRange
  rw [nearest_finite h]
  rintro ⟨hne, hsmall⟩
  by_cases hzero : n = 0
  · subst hzero
    rw [Int.cast_zero, roundTo_zero] at hne
    exact hne rfl
  · have hone : (1 : ℚ) ≤ |(n : ℚ)| := by exact_mod_cast Int.one_le_abs hzero
    have hlog : 0 ≤ Int.log 2 |(n : ℚ)| :=
      (Int.zpow_le_iff_le_log (b := 2) (x := 0) (by decide) (by linarith)).1 (by simpa using hone)
    have hpow : ((2 : ℕ) : ℚ) ^ Int.log 2 |(n : ℚ)| ≤ |(n : ℚ)| :=
      Int.zpow_log_le_self (by decide) (by linarith)
    have hulp : (2 : ℚ) ^ lastDigit n = 2 ^ Int.log 2 |(n : ℚ)| / 2 ^ 52 := by
      rw [lastDigit, zpow_sub₀ (by norm_num)]
      norm_num
    have hge : (1 : ℚ) ≤ 2 ^ Int.log 2 |(n : ℚ)| := one_le_zpow₀ (by norm_num) hlog
    have hclose := abs_roundTo_sub_le (lastDigit n) n
    have htriangle := abs_sub_abs_le_abs_sub (n : ℚ) (roundTo (lastDigit n) n)
    rw [abs_sub_comm] at htriangle
    have htiny : (2 : ℚ) ^ (-1022 : ℤ) ≤ 1 / 2 := by
      calc (2 : ℚ) ^ (-1022 : ℤ) ≤ 2 ^ (-1 : ℤ) := zpow_le_zpow_right₀ (by norm_num) (by decide)
        _ = 1 / 2 := by norm_num
    push_cast at hpow
    rw [hulp] at hclose
    linarith

end Double

/-! ### Reading integers -/

theorem spanDigits_digits {l : Str} (h : ∀ b ∈ l, Decimal.isDigit b = true) :
    spanDigits 10 l = (l.map fun b => b.toNat - 48, []) := by
  induction l with
  | nil => rfl
  | cons b l ih =>
    have hb : 48 ≤ b.toNat ∧ b.toNat ≤ 57 := by
      simpa [Decimal.isDigit] using h b List.mem_cons_self
    have hvalue : digitValue b = b.toNat - 48 := if_pos hb
    rw [spanDigits, hvalue, if_pos (by omega), ih fun c hc => h c (List.mem_cons_of_mem _ hc)]
    rfl

theorem ofDigits_digits (l : Str) : ofDigits 10 (l.map fun b => b.toNat - 48) = Decimal.eval l := by
  simp only [ofDigits, Decimal.eval, List.foldl_map, mul_comm]

/-- Digits alone are a number without a fraction. -/
theorem readFraction_digits {l : Str} (hl : l ≠ []) (h : ∀ b ∈ l, Decimal.isDigit b = true)
    (letter : UInt8) (radix : ℚ) :
    readFraction 10 letter radix l = some (Decimal.eval l : ℚ) := by
  unfold readFraction
  rw [spanDigits_digits h]
  simp [hl, ofDigits_digits, readExponent]

/-- A word with something else than digits is not found among digits. -/
theorem isPrefixOf_digits (word : Str) {l : Str} (c : UInt8) (hc : c ∈ word)
    (hdigit : Decimal.isDigit c = false) (h : ∀ b ∈ l, Decimal.isDigit b = true) :
    word.isPrefixOf (l.map toLower) = false := by
  rw [← Bool.not_eq_true, List.isPrefixOf_iff_prefix]
  intro hpre
  obtain ⟨b, hb, rfl⟩ := List.mem_map.1 (hpre.subset hc)
  have hb := h b hb
  have hlower : toLower b = b := by
    unfold toLower
    rw [if_neg]
    simp only [Decimal.isDigit, decide_eq_true_eq] at hb
    omega
  rw [hlower, hb] at hdigit
  cases hdigit

/-- An unsigned integer behind its sign. -/
theorem readDouble_print (n : ℕ) : readDouble (Decimal.print n) = some (.finite n) ∧
    readDouble (45 :: Decimal.print n) = some (.finite (-n)) := by
  have hdigits : ∀ b ∈ Decimal.print n, Decimal.isDigit b = true := fun _ =>
    Decimal.isDigit_of_mem_print
  have hinf := isPrefixOf_digits (lit "inf") 105 (by decide) (by decide) hdigits
  have hnan := isPrefixOf_digits (lit "nan") 110 (by decide) (by decide) hdigits
  have hhex := isPrefixOf_digits (lit "0x") 120 (by decide) (by decide) hdigits
  have hread := readFraction_digits (Decimal.print_ne_nil n) hdigits 101 10
  rw [Decimal.eval_print] at hread
  obtain ⟨b, l, hcons⟩ := List.exists_cons_of_ne_nil (Decimal.print_ne_nil n)
  obtain ⟨hspace, hminus, hplus⟩ := isSpace_of_isDigit (hdigits b (by rw [hcons]; simp))
  constructor
  · have hdrop : (Decimal.print n).dropWhile isSpace = Decimal.print n := by
      rw [hcons, List.dropWhile_cons_of_neg (by rw [hspace]; exact Bool.false_ne_true)]
    have hhead : (Decimal.print n).head? = some b := by rw [hcons, List.head?_cons]
    unfold readDouble
    simp [hdrop, hhead, hminus, hplus, hinf, hnan, hhex, hread]
  · have hdrop : (45 :: Decimal.print n).dropWhile isSpace = 45 :: Decimal.print n :=
      List.dropWhile_cons_of_neg (by decide)
    unfold readDouble
    simp [hdrop, hinf, hnan, hhex, hread]

theorem readDouble_intToString (n : ℤ) : readDouble (intToString n) = some (.finite n) := by
  obtain ⟨hplus, hminus⟩ := readDouble_print n.natAbs
  unfold intToString Decimal.printInt
  split_ifs with hneg
  · rw [hminus, ← Int.cast_natCast, ← Int.cast_neg]
    congr 3
    omega
  · rw [hplus, ← Int.cast_natCast]
    congr 3
    omega

/-- **A printed integer** is read as the nearest `double`. -/
theorem stod_intToString {n : ℤ} (h : |(n : ℚ)| < 2 ^ 64) :
    stod (intToString n) = some (Double.nearest n) := by
  rw [stod, readDouble_intToString]
  exact if_neg (Double.not_outOfRange_intCast h)

end Kaiten

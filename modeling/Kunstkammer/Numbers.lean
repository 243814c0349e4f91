import Kunstkammer.Foundation.Decimal
import Kunstkammer.Json

/-!
# Numbers in text

`std::to_string` and the stream operator for integers, and the conversions `std::stoll` and
`std::stoi`, which read a number at the front of a text and ignore what follows it.

* `intToString`;
* `readInteger`: blanks, a sign, digits, and what is left;
* `stoll`, `stoi`: the number, `none` when they throw;
* `Numeral`: a decimal integer and nothing else;
* `doubleToString`: `std::to_string` of a `double`, with six digits behind the point;
* `readInteger_eq_some_iff`: a number is read exactly behind blanks;
* `readInteger_intToString`: a printed number is read back;
* `readInteger_doubleToString`: of a printed fraction, the part before the point.
-/

namespace Kaiten

/-- `std::to_string` of an integer. -/
def intToString (n : ℤ) : Str := Decimal.printInt n

/-- `isspace`. -/
def isSpace (b : UInt8) : Bool := b = 32 || decide (9 ≤ b.toNat ∧ b.toNat ≤ 13)

/-- `std::tolower` in the C locale. -/
def toLower (b : UInt8) : UInt8 := if 65 ≤ b.toNat ∧ b.toNat ≤ 90 then b + 32 else b

/-- The number at the front of a text, as `strtoll` finds it, and the text after it. -/
def readInteger (s : Str) : Option (ℤ × Str) :=
  let s := s.dropWhile isSpace
  let negative : Bool := s.head? = some 45
  let s := if s.head? = some 45 ∨ s.head? = some 43 then s.tail else s
  let digits := (Decimal.scan s).1
  if digits = [] then none
  else some (if negative then -(Decimal.eval digits : ℤ) else Decimal.eval digits,
    (Decimal.scan s).2)

/-- `std::stoll`: throws where there is no number, or one that does not fit. -/
def stoll (s : Str) : Option Int64 :=
  (readInteger s).bind fun p =>
    if -2 ^ 63 ≤ p.1 ∧ p.1 < 2 ^ 63 then some (Int64.ofInt p.1) else none

/-- `std::stoi`. -/
def stoi (s : Str) : Option Int32 :=
  (readInteger s).bind fun p =>
    if -2 ^ 31 ≤ p.1 ∧ p.1 < 2 ^ 31 then some (Int32.ofInt p.1) else none

/-- A decimal integer: digits, with a sign or without one, and nothing else. -/
inductive Numeral : Str → ℤ → Prop
  | plain {l : Str} (hl : l ≠ []) (h : ∀ b ∈ l, Decimal.isDigit b = true) :
      Numeral l (Decimal.eval l)
  | plus {l : Str} (hl : l ≠ []) (h : ∀ b ∈ l, Decimal.isDigit b = true) :
      Numeral (43 :: l) (Decimal.eval l)
  | minus {l : Str} (hl : l ≠ []) (h : ∀ b ∈ l, Decimal.isDigit b = true) :
      Numeral (45 :: l) (-(Decimal.eval l : ℤ))

/-- The nearest integer, the even one of two. -/
def roundHalfEven (x : ℚ) : ℤ :=
  let r := x - ⌊x⌋
  if r < 1 / 2 ∨ (r = 1 / 2 ∧ ⌊x⌋ % 2 = 0) then ⌊x⌋ else ⌊x⌋ + 1

/-- Six digits. -/
def sixDigits (n : ℕ) : Str :=
  [n / 100000, n / 10000, n / 1000, n / 100, n / 10, n].map fun d => Decimal.digit (d % 10)

/-- `std::to_string` of a `double`: the format `%f`. -/
def doubleToString (x : ℚ) : Str :=
  let n := (roundHalfEven (|x| * 10 ^ 6)).toNat
  let text := Decimal.print (n / 10 ^ 6) ++ 46 :: sixDigits (n % 10 ^ 6)
  if x < 0 then 45 :: text else text

/-! ### Reading back -/

theorem isSpace_of_isDigit {b : UInt8} (h : Decimal.isDigit b = true) :
    isSpace b = false ∧ b ≠ 45 ∧ b ≠ 43 := by
  simp only [Decimal.isDigit, decide_eq_true_eq] at h
  refine ⟨?_, ?_, ?_⟩
  · simp only [isSpace, Bool.or_eq_false_iff, decide_eq_false_iff_not]
    constructor
    · rintro rfl
      exact absurd h (by decide)
    · omega
  · rintro rfl
    exact absurd h (by decide)
  · rintro rfl
    exact absurd h (by decide)

theorem mem_intToString {n : ℤ} {b : UInt8} (h : b ∈ intToString n) :
    Decimal.isDigit b = true ∨ b = 45 := by
  unfold intToString Decimal.printInt at h
  split_ifs at h
  · rcases List.mem_cons.1 h with rfl | h
    · exact Or.inr rfl
    · exact Or.inl (Decimal.isDigit_of_mem_print h)
  · exact Or.inl (Decimal.isDigit_of_mem_print h)

/-- Digits at the front are the number. -/
theorem readInteger_digits {l rest : Str} (hl : l ≠ []) (h : ∀ b ∈ l, Decimal.isDigit b = true)
    (hrest : ∀ b ∈ rest.head?, Decimal.isDigit b = false) :
    readInteger (l ++ rest) = some ((Decimal.eval l : ℤ), rest) := by
  obtain ⟨b, t, rfl⟩ := List.exists_cons_of_ne_nil hl
  obtain ⟨hspace, hminus, hplus⟩ := isSpace_of_isDigit (h b List.mem_cons_self)
  have hdrop : (b :: t ++ rest).dropWhile isSpace = b :: t ++ rest :=
    List.dropWhile_cons_of_neg (by rw [hspace]; exact Bool.false_ne_true)
  have hhead : (b :: t ++ rest).head? = some b := rfl
  simp only [readInteger, hdrop, hhead, Option.some.injEq, hminus, hplus, or_self, if_false,
    Decimal.scan_append h hrest, hl, decide_false, Bool.false_eq_true]

/-- A minus sign and digits at the front. -/
theorem readInteger_minus {l rest : Str} (hl : l ≠ []) (h : ∀ b ∈ l, Decimal.isDigit b = true)
    (hrest : ∀ b ∈ rest.head?, Decimal.isDigit b = false) :
    readInteger (45 :: l ++ rest) = some (-(Decimal.eval l : ℤ), rest) := by
  have hspace : isSpace 45 = false := by decide
  unfold readInteger
  rw [List.cons_append, List.dropWhile_cons_of_neg (by rw [hspace]; exact Bool.false_ne_true)]
  simp [Decimal.scan_append h hrest, hl]

/-- A plus sign and digits at the front. -/
theorem readInteger_plus {l rest : Str} (hl : l ≠ []) (h : ∀ b ∈ l, Decimal.isDigit b = true)
    (hrest : ∀ b ∈ rest.head?, Decimal.isDigit b = false) :
    readInteger (43 :: l ++ rest) = some ((Decimal.eval l : ℤ), rest) := by
  have hspace : isSpace 43 = false := by decide
  unfold readInteger
  rw [List.cons_append, List.dropWhile_cons_of_neg (by rw [hspace]; exact Bool.false_ne_true)]
  simp [Decimal.scan_append h hrest, hl]

theorem Numeral.readInteger {t rest : Str} {n : ℤ} (ht : Numeral t n)
    (hrest : ∀ b ∈ rest.head?, Decimal.isDigit b = false) :
    Kaiten.readInteger (t ++ rest) = some (n, rest) := by
  cases ht with
  | plain hl h => exact readInteger_digits hl h hrest
  | plus hl h => exact readInteger_plus hl h hrest
  | minus hl h => exact readInteger_minus hl h hrest

theorem Numeral.head_not_space {t : Str} {n : ℤ} (ht : Numeral t n) :
    ∀ b ∈ t.head?, isSpace b = false := by
  intro b hb
  cases ht with
  | plain hl h => exact (isSpace_of_isDigit (h b (List.mem_of_mem_head? hb))).1
  | plus hl h =>
    obtain rfl := Option.some.inj hb
    decide
  | minus hl h =>
    obtain rfl := Option.some.inj hb
    decide

theorem readInteger_blanks {blanks : Str} (h : ∀ b ∈ blanks, isSpace b = true) (s : Str) :
    readInteger (blanks ++ s) = readInteger s := by
  unfold readInteger
  rw [List.dropWhile_append_of_pos h]

/-- **A number is read exactly where blanks and a numeral stand at the front.** -/
theorem readInteger_eq_some_iff {s rest : Str} {n : ℤ} : readInteger s = some (n, rest) ↔
    ∃ blanks t, s = blanks ++ (t ++ rest) ∧ (∀ b ∈ blanks, isSpace b = true) ∧ Numeral t n ∧
      ∀ b ∈ rest.head?, Decimal.isDigit b = false := by
  constructor
  · intro h
    have hsplit : s = s.takeWhile isSpace ++ s.dropWhile isSpace :=
      List.takeWhile_append_dropWhile.symm
    have hblanks : ∀ b ∈ s.takeWhile isSpace, isSpace b = true := fun b hb =>
      List.mem_takeWhile_imp hb
    refine ⟨s.takeWhile isSpace, ?_⟩
    unfold readInteger at h
    dsimp only at h
    generalize s.dropWhile isSpace = u at h hsplit
    cases u with
    | nil => simp [Decimal.scan] at h
    | cons b v =>
      by_cases hminus : b = 45
      · subst hminus
        obtain ⟨hscan, hdigits, hrest⟩ := Decimal.scan_spec v
        simp at h
        obtain ⟨hne, rfl, rfl⟩ := h
        refine ⟨45 :: (Decimal.scan v).1, ?_, hblanks, .minus hne hdigits, hrest⟩
        rw [List.cons_append, ← hscan, ← hsplit]
      · by_cases hplus : b = 43
        · subst hplus
          obtain ⟨hscan, hdigits, hrest⟩ := Decimal.scan_spec v
          simp at h
          obtain ⟨hne, rfl, rfl⟩ := h
          refine ⟨43 :: (Decimal.scan v).1, ?_, hblanks, .plus hne hdigits, hrest⟩
          rw [List.cons_append, ← hscan, ← hsplit]
        · obtain ⟨hscan, hdigits, hrest⟩ := Decimal.scan_spec (b :: v)
          simp [hminus, hplus] at h
          obtain ⟨hne, rfl, rfl⟩ := h
          refine ⟨(Decimal.scan (b :: v)).1, ?_, hblanks, .plain hne hdigits, hrest⟩
          rw [← hscan, ← hsplit]
  · rintro ⟨blanks, t, rfl, hblanks, ht, hrest⟩
    rw [readInteger_blanks hblanks, ht.readInteger hrest]

/-- **A printed number is read back**, whatever follows it, as long as that is no digit. -/
theorem readInteger_intToString (n : ℤ) {rest : Str}
    (hrest : ∀ b ∈ rest.head?, Decimal.isDigit b = false) :
    readInteger (intToString n ++ rest) = some (n, rest) := by
  unfold intToString Decimal.printInt
  split_ifs with h
  · rw [readInteger_minus (Decimal.print_ne_nil _) (fun b => Decimal.isDigit_of_mem_print) hrest,
      Decimal.eval_print]
    congr 2
    omega
  · rw [readInteger_digits (Decimal.print_ne_nil _) (fun b => Decimal.isDigit_of_mem_print) hrest,
      Decimal.eval_print]
    congr 2
    omega

theorem isDigit_point : ∀ b ∈ (46 :: rest : Str).head?, Decimal.isDigit b = false := by
  rintro b ⟨⟩
  rfl

/-- Of a printed fraction, the part before the point is read. -/
theorem readInteger_doubleToString (x : ℚ) : ∃ rest, readInteger (doubleToString x) =
    some (if x < 0 then -(((roundHalfEven (|x| * 10 ^ 6)).toNat / 10 ^ 6 : ℕ) : ℤ)
      else ((roundHalfEven (|x| * 10 ^ 6)).toNat / 10 ^ 6 : ℕ), rest) := by
  unfold doubleToString
  dsimp only
  generalize (roundHalfEven (|x| * 10 ^ 6)).toNat = n
  refine ⟨46 :: sixDigits (n % 10 ^ 6), ?_⟩
  split_ifs
  · rw [← List.cons_append, readInteger_minus (Decimal.print_ne_nil _)
      (fun b => Decimal.isDigit_of_mem_print) isDigit_point, Decimal.eval_print]
  · rw [readInteger_digits (Decimal.print_ne_nil _) (fun b => Decimal.isDigit_of_mem_print)
      isDigit_point, Decimal.eval_print]

theorem roundHalfEven_intCast (n : ℤ) : roundHalfEven n = n := by
  simp [roundHalfEven]

/-- An integral `double` is read back. -/
theorem readInteger_doubleToString_intCast (n : ℤ) :
    ∃ rest, readInteger (doubleToString n) = some (n, rest) := by
  obtain ⟨rest, h⟩ := readInteger_doubleToString n
  refine ⟨rest, h.trans ?_⟩
  have habs : |(n : ℚ)| * 10 ^ 6 = ((|n| * 10 ^ 6 : ℤ) : ℚ) := by push_cast; rfl
  rw [habs, roundHalfEven_intCast]
  have hnat : (|n| * 10 ^ 6).toNat / 10 ^ 6 = n.natAbs := by
    rw [Int.abs_eq_natAbs]
    omega
  rw [hnat]
  congr 2
  split_ifs with hneg
  · have := Int.cast_lt_zero.1 hneg
    omega
  · have := not_lt.1 (mt Int.cast_lt_zero.2 hneg)
    omega

theorem readInteger_intToString_self (n : ℤ) : readInteger (intToString n) = some (n, []) := by
  have h : readInteger (intToString n ++ []) = some (n, []) := readInteger_intToString n (by simp)
  rwa [List.append_nil] at h

/-- A conversion to a type of the range `P` returns the number it reads. -/
theorem convert_eq_some_iff {T : Type} {P : ℤ → Prop} [DecidablePred P] {ofInt : ℤ → T}
    {toInt : T → ℤ} (hto : ∀ n, P n → toInt (ofInt n) = n) (hrange : ∀ i, P (toInt i))
    (hof : ∀ i, ofInt (toInt i) = i) {s : Str} {i : T} :
    ((readInteger s).bind fun p => if P p.1 then some (ofInt p.1) else none) = some i ↔
      ∃ rest, readInteger s = some (toInt i, rest) := by
  constructor
  · intro h
    obtain ⟨⟨n, rest⟩, hread, hfits⟩ := Option.bind_eq_some_iff.1 h
    split_ifs at hfits with hn
    obtain rfl := Option.some.inj hfits
    exact ⟨rest, by rw [hread, hto n hn]⟩
  · rintro ⟨rest, hread⟩
    rw [hread, Option.bind_some, if_pos (hrange i), hof]

theorem stoll_eq_some_iff {s : Str} {i : Int64} :
    stoll s = some i ↔ ∃ rest, readInteger s = some (i.toInt, rest) :=
  convert_eq_some_iff (P := fun n => -2 ^ 63 ≤ n ∧ n < 2 ^ 63)
    (fun _ h => Int64.toInt_ofInt_of_le h.1 h.2) (fun i => ⟨i.le_toInt, i.toInt_lt⟩)
    Int64.ofInt_toInt

theorem stoi_eq_some_iff {s : Str} {i : Int32} :
    stoi s = some i ↔ ∃ rest, readInteger s = some (i.toInt, rest) :=
  convert_eq_some_iff (P := fun n => -2 ^ 31 ≤ n ∧ n < 2 ^ 31)
    (fun _ h => Int32.toInt_ofInt_of_le h.1 h.2) (fun i => ⟨i.le_toInt, i.toInt_lt⟩)
    Int32.ofInt_toInt

theorem stoll_intToString (n : Int64) : stoll (intToString n.toInt) = some n :=
  stoll_eq_some_iff.2 ⟨[], readInteger_intToString_self _⟩

theorem stoi_intToString (n : Int32) : stoi (intToString n.toInt) = some n :=
  stoi_eq_some_iff.2 ⟨[], readInteger_intToString_self _⟩

end Kaiten

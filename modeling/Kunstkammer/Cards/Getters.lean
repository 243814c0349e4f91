import Kunstkammer.Cards.Records

/-!
# The numeric getters

`get_int_optional`, `get_int64_optional` and `get_double_optional` on an integer that is written as
a number and on the same integer in a string.

* `asNumber`, `asText`: the two spellings, as a member of any object;
* `GetsInteger`: a getter returns the integer where that fits its type, its default elsewhere, and
  the same for both spellings;
* `getters_agree_iff`: when the two integer getters do;
* `getDoubleOptional_asText`: the third one does always.
-/

namespace Kaiten

/-- The integers of an `int`. -/
def FitsInt32 (n : ℤ) : Prop := -2 ^ 31 ≤ n ∧ n < 2 ^ 31

/-- The integers of an `std::int64_t`. -/
def FitsInt64 (n : ℤ) : Prop := -2 ^ 63 ≤ n ∧ n < 2 ^ 63

instance instDecidableFitsInt32 (n : ℤ) : Decidable (FitsInt32 n) :=
  inferInstanceAs (Decidable (_ ∧ _))

instance instDecidableFitsInt64 (n : ℤ) : Decidable (FitsInt64 n) :=
  inferInstanceAs (Decidable (_ ∧ _))

section Getters

variable (l : List (Str × Json)) (key : Str) (n : ℤ)

/-- An object with the number `n` under `key`. -/
def asNumber : Json := (Json.object l).set key (.integer n)

/-- An object with the numeral of `n` under `key`. -/
def asText : Json := (Json.object l).set key (.string (intToString n))

/-- What a getter should do with the integer `n`. -/
structure GetsInteger {T : Type} (toInt : T → ℤ) (Fits : ℤ → Prop) (get : Json → Str → T → T)
    (default : T) : Prop where
  fits : Fits n → toInt (get (asNumber l key n) key default) = n
  other : ¬ Fits n → get (asNumber l key n) key default = default
  same : get (asText l key n) key default = get (asNumber l key n) key default

theorem present?_asNumber : (asNumber l key n).present? key = some (.integer n) := by
  rw [Json.present?, asNumber, Json.member?_set_self]

theorem present?_asText :
    (asText l key n).present? key = some (.string (intToString n)) := by
  rw [Json.present?, asText, Json.member?_set_self]

/-! ### Integers -/

/-- A number is narrowed. -/
theorem getIntOptional_asNumber (default : Int32) :
    getIntOptional (asNumber l key n) key default = Int32.ofInt n := by
  rw [getIntOptional, present?_asNumber]
  rfl

/-- A numeral is checked. -/
theorem getIntOptional_asText (default : Int32) : getIntOptional (asText l key n) key default =
    if FitsInt32 n then Int32.ofInt n else default := by
  rw [getIntOptional, present?_asText]
  dsimp only
  rw [stoi, readInteger_intToString_self, Option.bind_some]
  show (if FitsInt32 n then some (Int32.ofInt n) else none).getD default = _
  split_ifs <;> rfl

theorem getInt64Optional_asNumber (default : Int64) :
    getInt64Optional (asNumber l key n) key default = Int64.ofInt n := by
  rw [getInt64Optional, present?_asNumber]
  rfl

theorem getInt64Optional_asText (default : Int64) :
    getInt64Optional (asText l key n) key default =
      if FitsInt64 n then Int64.ofInt n else default := by
  rw [getInt64Optional, present?_asText]
  dsimp only
  rw [stoll, readInteger_intToString_self, Option.bind_some]
  show (if FitsInt64 n then some (Int64.ofInt n) else none).getD default = _
  split_ifs <;> rfl

variable {l key n}

/-- A getter that narrows numbers and checks numerals is right where the number fits, and where
narrowing happens to give the default. -/
theorem getsInteger_iff {T : Type} {toInt : T → ℤ} {ofInt : ℤ → T} {Fits : ℤ → Prop}
    [DecidablePred Fits] {get : Json → Str → T → T} {default : T}
    (hexact : Fits n → toInt (ofInt n) = n)
    (hnumber : get (asNumber l key n) key default = ofInt n)
    (htext : get (asText l key n) key default = if Fits n then ofInt n else default) :
    GetsInteger l key n toInt Fits get default ↔ Fits n ∨ ofInt n = default := by
  constructor
  · intro h
    by_cases hfits : Fits n
    · exact Or.inl hfits
    · exact Or.inr (hnumber.symm.trans (h.other hfits))
  · intro h
    constructor
    · intro hfits
      rw [hnumber, hexact hfits]
    · intro hother
      rw [hnumber, h.resolve_left hother]
    · rw [htext, hnumber]
      split_ifs with hfits
      · rfl
      · rw [h.resolve_left hfits]

variable (l key n)

/-- **The integer getters** return an integer that fits and their default for any other, however it
is written, exactly when the integer fits or, narrowed, is the default. -/
theorem getters_agree_iff (default : Int32) (default64 : Int64) :
    (GetsInteger l key n Int32.toInt FitsInt32 getIntOptional default ∧
      GetsInteger l key n Int64.toInt FitsInt64 getInt64Optional default64) ↔
    (FitsInt32 n ∨ Int32.ofInt n = default) ∧ (FitsInt64 n ∨ Int64.ofInt n = default64) := by
  refine and_congr ?_ ?_
  · exact getsInteger_iff (fun h => Int32.toInt_ofInt_of_le h.1 h.2)
      (getIntOptional_asNumber l key n default) (getIntOptional_asText l key n default)
  · exact getsInteger_iff (fun h => Int64.toInt_ofInt_of_le h.1 h.2)
      (getInt64Optional_asNumber l key n default64) (getInt64Optional_asText l key n default64)

/-- The number 4294967301 is read as 5, and in a string it is not read. -/
theorem narrowed_number :
    ¬ GetsInteger [] (lit "size") (2 ^ 32 + 5) Int32.toInt FitsInt32 getIntOptional 0 ∧
      getIntOptional (asNumber [] (lit "size") (2 ^ 32 + 5)) (lit "size") 0 = 5 ∧
      getIntOptional (asText [] (lit "size") (2 ^ 32 + 5)) (lit "size") 0 = 0 := by
  have hnumber : getIntOptional (asNumber [] (lit "size") (2 ^ 32 + 5)) (lit "size") 0 = 5 := by
    decide +kernel
  refine ⟨fun h => ?_, hnumber, by decide +kernel⟩
  have hother := h.other (by decide)
  rw [hnumber] at hother
  cases hother

/-! ### Doubles -/

/-- **The getter of doubles** returns the nearest one for both spellings. -/
theorem getDoubleOptional_asText (hn : |(n : ℚ)| < 2 ^ 64) (default : Double) :
    getDoubleOptional (asText l key n) key default = .nearest n ∧
      getDoubleOptional (asNumber l key n) key default = .nearest n := by
  constructor
  · rw [getDoubleOptional, present?_asText]
    dsimp only
    rw [stod_intToString hn]
    rfl
  · rw [getDoubleOptional, present?_asNumber]
    rfl

end Getters

end Kaiten

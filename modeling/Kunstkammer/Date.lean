import Kunstkammer.Foundation.Civil
import Kunstkammer.Numbers

/-!
# Dates of cards

`Card_date` keeps a point in time and reads and prints it as an RFC 3339 text.

* `timegm`, `gmtime`: seconds since 1970 and calendar time;
* `CardDate.parse`, `CardDate.toIso8601`; `none` where the source throws;
* `Stamp`: a well-formed text by its fields, `Stamp.text` and the instant `Stamp.seconds`.

The clock counts nanoseconds in 64 bits, so a time point carries the instant of a text only where
that count fits (`parse_denotes_iff`).
-/

namespace Kaiten

/-- `std::tm`, with the year from 1900 and the month from 0. -/
structure Tm where
  year : ℤ
  mon : ℤ
  mday : ℤ
  hour : ℤ
  min : ℤ
  sec : ℤ

/-- `timegm`: fields out of their range carry over. -/
def timegm (tm : Tm) : ℤ :=
  let first : Civil.Date := ⟨1900 + tm.year + tm.mon / 12, (tm.mon % 12).toNat + 1, 1⟩
  (Civil.toDays first + (tm.mday - 1)) * 86400 + tm.hour * 3600 + tm.min * 60 + tm.sec

/-- `gmtime`. -/
def gmtime (t : ℤ) : Tm :=
  let date := Civil.ofDays (t / 86400)
  let rest := t % 86400
  ⟨date.year - 1900, date.month - 1, date.day, rest / 3600, rest / 60 % 60, rest % 60⟩

/-- `s.substr(pos, n)`. -/
def substr (s : Str) (pos n : ℕ) : Str := (s.drop pos).take n

/-- `%m` and the like: two digits. -/
def twoDigits (n : ℕ) : Str := [Decimal.digit (n / 10 % 10), Decimal.digit (n % 10)]

/-- `%Y` for the years from 1000. -/
def fourDigits (n : ℕ) : Str := twoDigits (n / 100) ++ twoDigits (n % 100)

/-- `strftime` with the format `%Y-%m-%dT%H:%M:%SZ`. -/
def strftime (tm : Tm) : Str :=
  intToString (1900 + tm.year) ++ 45 :: twoDigits (tm.mon + 1).toNat ++ 45 ::
    twoDigits tm.mday.toNat ++ 84 :: twoDigits tm.hour.toNat ++ 58 :: twoDigits tm.min.toNat ++
    58 :: twoDigits tm.sec.toNat ++ [90]

/-- `Card_date`: nanoseconds since the epoch of the system clock. -/
structure CardDate where
  timePoint : Int64
  deriving DecidableEq

namespace CardDate

/-- `system_clock::from_time_t`. -/
def fromTimeT (t : ℤ) : Int64 := Int64.ofInt (t * 10 ^ 9)

/-- `system_clock::to_time_t`. -/
def toTimeT (tp : Int64) : ℤ := tp.toInt.tdiv (10 ^ 9)

/-- The bytes that may begin the time zone. -/
def isZone (b : UInt8) : Bool := b = 90 || b = 43 || b = 45

/-- The offset written at `pos`, in seconds. -/
def parseOffset (s : Str) (pos : ℕ) : Option ℤ :=
  if s[pos]? = some 90 then some 0
  else if s.length < pos + 6 then none
  else if s[pos + 3]? ≠ some 58 then none
  else do
    let hours ← stoi (substr s (pos + 1) 2)
    let minutes ← stoi (substr s (pos + 4) 2)
    let offset := hours.toInt * 3600 + minutes.toInt * 60
    some (if s[pos]? = some 45 then -offset else offset)

/-- The fields of the date and the time. -/
def parseFields (datetime : Str) : Option Tm :=
  if datetime.length < 19 ∨ datetime[10]? ≠ some 84 then none
  else do
    let year ← stoi (substr datetime 0 4)
    let mon ← stoi (substr datetime 5 2)
    let mday ← stoi (substr datetime 8 2)
    let hour ← stoi (substr datetime 11 2)
    let min ← stoi (substr datetime 14 2)
    let sec ← stoi (substr datetime 17 2)
    some ⟨year.toInt - 1900, mon.toInt - 1, mday.toInt, hour.toInt, min.toInt, sec.toInt⟩

/-- `Card_date::parse`. -/
def parse (s : Str) : Option CardDate :=
  if s = [] then some ⟨0⟩
  else do
    let i ← (s.drop 19).findIdx? isZone
    let pos := 19 + i
    let datetime := s.take pos
    let offset ← parseOffset s pos
    let tm ← parseFields datetime
    some ⟨fromTimeT (timegm tm - offset)⟩

/-- `Card_date::toIso8601`: `strftime` has a buffer of 32 bytes. -/
def toIso8601 (d : CardDate) : Str :=
  let text := strftime (gmtime (toTimeT d.timePoint))
  if text.length < 32 then text else []

end CardDate

/-! ### Well-formed texts -/

/-- `Z`, or a sign, hours and minutes. -/
inductive Zone
  | utc
  | offset (negative : Bool) (hours : Fin 24) (minutes : Fin 60)

/-- The time zone as it is written. -/
def Zone.text : Zone → Str
  | .utc => [90]
  | .offset negative hours minutes =>
      (if negative then 45 else 43) :: twoDigits hours ++ 58 :: twoDigits minutes

/-- Seconds east of Greenwich. -/
def Zone.seconds : Zone → ℤ
  | .utc => 0
  | .offset negative hours minutes =>
      let n : ℤ := hours * 3600 + minutes * 60
      if negative then -n else n

/-- Nothing, or a point or comma and digits. -/
def IsFraction (s : Str) : Prop :=
  s = [] ∨ ∃ b digits, (b = 46 ∨ b = 44) ∧ digits ≠ [] ∧
    (∀ d ∈ digits, Decimal.isDigit d = true) ∧ s = b :: digits

/-- A well-formed text, by its fields.  Second 60 is a leap second, which the clocks count as the
second after it. -/
structure Stamp where
  date : Civil.Date
  hour : ℕ
  minute : ℕ
  second : ℕ
  fraction : Str
  zone : Zone
  date_valid : date.Valid
  year_nonneg : 0 ≤ date.year
  year_lt : date.year < 10000
  hour_lt : hour < 24
  minute_lt : minute < 60
  second_le : second ≤ 60
  fraction_valid : IsFraction fraction

namespace Stamp

/-- The date and the time as they are written. -/
def head (u : Stamp) : Str :=
  fourDigits u.date.year.toNat ++ 45 :: twoDigits u.date.month ++ 45 :: twoDigits u.date.day ++
    84 :: twoDigits u.hour ++ 58 :: twoDigits u.minute ++ 58 :: twoDigits u.second

/-- `YYYY-MM-DDTHH:MM:SS`, the fraction and the zone. -/
def text (u : Stamp) : Str := u.head ++ u.fraction ++ u.zone.text

/-- The instant the text denotes: civil time minus the offset, the fraction dropped. -/
def seconds (u : Stamp) : ℤ :=
  Civil.toDays u.date * 86400 + u.hour * 3600 + u.minute * 60 + u.second - u.zone.seconds

end Stamp

/-! ### Reading the fields -/

theorem stoi_digits {l : Str} (hl : l ≠ []) (h : ∀ b ∈ l, Decimal.isDigit b = true)
    (hsmall : Decimal.eval l < 2 ^ 31) :
    stoi l = some (Int32.ofInt (Decimal.eval l)) := by
  have hread : readInteger (l ++ []) = some ((Decimal.eval l : ℤ), []) :=
    readInteger_digits hl h (by simp)
  rw [List.append_nil] at hread
  rw [stoi, hread, Option.bind_some, if_pos (by omega)]

theorem isDigit_of_mem_twoDigits {n : ℕ} {b : UInt8} (h : b ∈ twoDigits n) :
    Decimal.isDigit b = true := by
  simp only [twoDigits, List.mem_cons, List.not_mem_nil, or_false] at h
  rcases h with rfl | rfl
  · exact Decimal.isDigit_digit (Nat.mod_lt _ (by decide))
  · exact Decimal.isDigit_digit (Nat.mod_lt _ (by decide))

theorem eval_twoDigits_append {n : ℕ} (hn : n < 100) (l : Str) :
    Decimal.eval (l ++ twoDigits n) = 100 * Decimal.eval l + n := by
  have h : l ++ twoDigits n = (l ++ [Decimal.digit (n / 10 % 10)]) ++ [Decimal.digit (n % 10)] := by
    simp [twoDigits]
  rw [h, Decimal.eval_append, Decimal.eval_append, Decimal.toNat_digit (Nat.mod_lt _ (by decide)),
    Decimal.toNat_digit (Nat.mod_lt _ (by decide))]
  omega

theorem stoi_twoDigits {n : ℕ} (hn : n < 100) : stoi (twoDigits n) = some (Int32.ofInt n) := by
  have heval : Decimal.eval (twoDigits n) = n := by
    have h := eval_twoDigits_append hn []
    simpa [Decimal.eval] using h
  have hne : twoDigits n ≠ [] := List.cons_ne_nil _ _
  rw [stoi_digits hne (fun b => isDigit_of_mem_twoDigits) (by omega), heval]

theorem stoi_fourDigits {n : ℕ} (hn : n < 10000) : stoi (fourDigits n) = some (Int32.ofInt n) := by
  have heval : Decimal.eval (fourDigits n) = n := by
    have h := eval_twoDigits_append (show n / 100 < 100 by omega) []
    rw [fourDigits, eval_twoDigits_append (by omega)]
    rw [List.nil_append] at h
    rw [h]
    simp [Decimal.eval]
    omega
  have hdigits : ∀ b ∈ fourDigits n, Decimal.isDigit b = true := by
    intro b hb
    rcases List.mem_append.1 hb with hb | hb
    · exact isDigit_of_mem_twoDigits hb
    · exact isDigit_of_mem_twoDigits hb
  have hne : fourDigits n ≠ [] := List.cons_ne_nil _ _
  rw [stoi_digits hne hdigits (by omega), heval]

theorem toInt_ofInt32 {n : ℕ} (hn : n < 10000) : (Int32.ofInt n).toInt = n := by
  rw [Int32.toInt_ofInt_of_le (by omega) (by omega)]

namespace Stamp

variable (u : Stamp)

theorem length_head : u.head.length = 19 := rfl

theorem day_lt : u.date.day < 100 := by
  have h := u.date_valid.day_le
  have hmonth : ∀ leap : Bool, ∀ m < 13, Civil.daysInMonth leap m < 100 := by decide
  exact h.trans_lt (hmonth _ _ (Nat.lt_succ_of_le u.date_valid.month_le))

/-- The fields are where they are looked for. -/
theorem parseFields_head (rest : Str) : CardDate.parseFields (u.head ++ rest) =
    some ⟨u.date.year - 1900, u.date.month - 1, u.date.day, u.hour, u.minute, u.second⟩ := by
  have hlength : 19 ≤ (u.head ++ rest).length := by
    rw [List.length_append, length_head]
    omega
  have hT : (u.head ++ rest)[10]? = some 84 := rfl
  have hyear : substr (u.head ++ rest) 0 4 = fourDigits u.date.year.toNat := rfl
  have hmonth : substr (u.head ++ rest) 5 2 = twoDigits u.date.month := rfl
  have hday : substr (u.head ++ rest) 8 2 = twoDigits u.date.day := rfl
  have hhour : substr (u.head ++ rest) 11 2 = twoDigits u.hour := rfl
  have hminute : substr (u.head ++ rest) 14 2 = twoDigits u.minute := rfl
  have hsecond : substr (u.head ++ rest) 17 2 = twoDigits u.second := rfl
  have := u.year_nonneg
  have := u.year_lt
  have := u.date_valid.month_le
  have := u.day_lt
  have := u.hour_lt
  have := u.minute_lt
  have := u.second_le
  have hfields : ¬ ((u.head ++ rest).length < 19 ∨ (u.head ++ rest)[10]? ≠ some 84) :=
    not_or.2 ⟨hlength.not_gt, not_not.2 hT⟩
  rw [CardDate.parseFields, if_neg hfields, hyear, hmonth, hday, hhour, hminute, hsecond,
    stoi_fourDigits (by omega), stoi_twoDigits (by omega), stoi_twoDigits (by omega),
    stoi_twoDigits (by omega), stoi_twoDigits (by omega), stoi_twoDigits (by omega)]
  simp (disch := omega) only [Option.bind_eq_bind, Option.bind_some, toInt_ofInt32]
  rw [Int.toNat_of_nonneg u.year_nonneg]

/-- The zone begins behind the fraction. -/
theorem findIdx_zone :
    (u.text.drop 19).findIdx? CardDate.isZone = some u.fraction.length := by
  have hfraction : ∀ b ∈ u.fraction, CardDate.isZone b = false := by
    have hdigit : ∀ b, Decimal.isDigit b = true → CardDate.isZone b = false := by
      intro b hb
      simp only [CardDate.isZone, Bool.or_eq_false_iff, decide_eq_false_iff_not]
      refine ⟨⟨?_, ?_⟩, ?_⟩ <;> rintro rfl <;> exact absurd hb (by decide)
    rcases u.fraction_valid with h | ⟨b, digits, hb, -, hdigits, h⟩
    · simp [h]
    · rw [h]
      intro c hc
      rcases List.mem_cons.1 hc with rfl | hc
      · rcases hb with rfl | rfl <;> decide
      · exact hdigit c (hdigits c hc)
  have hzone : u.zone.text.findIdx? CardDate.isZone = some 0 := by
    cases u.zone with
    | utc => rfl
    | offset negative hours minutes => cases negative <;> rfl
  rw [text, List.append_assoc, List.drop_left' u.length_head, List.findIdx?_append, hzone,
    List.findIdx?_eq_none_iff.2 hfraction]
  simp

theorem parseOffset_zone :
    CardDate.parseOffset u.text (19 + u.fraction.length) = some u.zone.seconds := by
  have hpos : 19 + u.fraction.length = (u.head ++ u.fraction).length := by
    rw [List.length_append, length_head]
  rw [text, hpos]
  generalize u.head ++ u.fraction = before
  cases u.zone with
  | utc =>
    have hZ : (before ++ Zone.utc.text)[before.length]? = some 90 := by
      rw [List.getElem?_append_right (Nat.le_refl _), Nat.sub_self]
      rfl
    rw [CardDate.parseOffset, if_pos hZ]
    rfl
  | offset negative hours minutes =>
    have hat (i : ℕ) : (before ++ (Zone.offset negative hours minutes).text)[before.length + i]? =
        (Zone.offset negative hours minutes).text[i]? := by
      rw [List.getElem?_append_right (Nat.le_add_right _ _), Nat.add_sub_cancel_left]
    have hsub (i n : ℕ) : substr (before ++ (Zone.offset negative hours minutes).text)
        (before.length + i) n = substr (Zone.offset negative hours minutes).text i n := by
      rw [substr, List.drop_append, List.drop_eq_nil_of_le (Nat.le_add_right _ _),
        Nat.add_sub_cancel_left, List.nil_append, substr]
    have hsign : (before ++ (Zone.offset negative hours minutes).text)[before.length]? =
        some (if negative then 45 else 43) := hat 0
    have hhours : substr (Zone.offset negative hours minutes).text 1 2 = twoDigits hours := rfl
    have hminutes : substr (Zone.offset negative hours minutes).text 4 2 = twoDigits minutes := rfl
    have hcolon : (Zone.offset negative hours minutes).text[3]? = some 58 := rfl
    have hlength : (before ++ (Zone.offset negative hours minutes).text).length =
        before.length + 6 := by
      rw [List.length_append]
      rfl
    have := hours.isLt
    have := minutes.isLt
    rw [CardDate.parseOffset, hsign, hlength, hat, hsub, hsub, hhours, hminutes, hcolon,
      stoi_twoDigits (by omega), stoi_twoDigits (by omega)]
    simp (disch := omega) only [Option.bind_eq_bind, Option.bind_some, toInt_ofInt32]
    cases negative <;> simp [Zone.seconds]

/-- **A well-formed text is always accepted**, and the instant it denotes is converted to a time
point. -/
theorem parse_text : CardDate.parse u.text = some ⟨CardDate.fromTimeT u.seconds⟩ := by
  have hne : u.text ≠ [] := List.cons_ne_nil _ _
  have htake : u.text.take (19 + u.fraction.length) = u.head ++ u.fraction := by
    refine List.take_left' ?_
    rw [List.length_append, length_head]
  rw [CardDate.parse, if_neg hne, u.findIdx_zone]
  simp only [Option.bind_eq_bind, Option.bind_some, u.parseOffset_zone, htake, u.parseFields_head]
  congr 3
  have := u.date_valid.month_pos
  have := u.date_valid.month_le
  have hmonths : ((u.date.month : ℤ) - 1) / 12 = 0 := by omega
  have hmonth : (((u.date.month : ℤ) - 1) % 12).toNat = u.date.month - 1 := by omega
  simp only [timegm, seconds, Civil.toDays, hmonths, hmonth, Nat.add_sub_cancel, add_zero,
    show (1900 + (u.date.year - 1900) : ℤ) = u.date.year by ring]
  push_cast
  ring

end Stamp

namespace CardDate

/-- A time point is the instant exactly when the nanoseconds fit. -/
theorem toInt_fromTimeT_iff (t : ℤ) :
    (fromTimeT t).toInt = t * 10 ^ 9 ↔ -2 ^ 63 ≤ t * 10 ^ 9 ∧ t * 10 ^ 9 < 2 ^ 63 := by
  constructor
  · intro h
    rw [← h]
    exact ⟨(fromTimeT t).le_toInt, (fromTimeT t).toInt_lt⟩
  · rintro ⟨hle, hlt⟩
    exact Int64.toInt_ofInt_of_le hle hlt

theorem toTimeT_fromTimeT {t : ℤ} (h : (fromTimeT t).toInt = t * 10 ^ 9) :
    toTimeT (fromTimeT t) = t := by
  rw [toTimeT, h, Int.mul_tdiv_cancel _ (by decide)]

end CardDate

/-- The UTC stamp of an instant. -/
def Stamp.ofSeconds (t : ℤ) (hnonneg : 0 ≤ (Civil.ofDays (t / 86400)).year)
    (hlt : (Civil.ofDays (t / 86400)).year < 10000) : Stamp where
  date := Civil.ofDays (t / 86400)
  hour := (t % 86400 / 3600).toNat
  minute := (t % 86400 / 60 % 60).toNat
  second := (t % 86400 % 60).toNat
  fraction := []
  zone := .utc
  date_valid := Civil.valid_ofDays _
  year_nonneg := hnonneg
  year_lt := hlt
  hour_lt := by omega
  minute_lt := by omega
  second_le := by omega
  fraction_valid := Or.inl rfl

theorem Stamp.seconds_ofSeconds (t : ℤ) (hnonneg hlt) :
    (Stamp.ofSeconds t hnonneg hlt).seconds = t := by
  simp only [seconds, ofSeconds, Civil.toDays_ofDays, Zone.seconds]
  omega

/-- A number with four digits is printed like a year. -/
theorem intToString_fourDigits {n : ℕ} (hle : 1000 ≤ n) (hlt : n < 10000) :
    intToString n = fourDigits n := by
  have hdigits : Nat.digits 10 n = [n % 10, n / 10 % 10, n / 100 % 10, n / 1000 % 10] := by
    rw [Nat.digits_of_two_le_of_pos (by decide) (by omega),
      Nat.digits_of_two_le_of_pos (by decide) (by omega),
      Nat.digits_of_two_le_of_pos (by decide) (by omega),
      Nat.digits_of_lt 10 (n / 10 / 10 / 10) (by omega) (by omega)]
    simp only [List.cons.injEq, and_true, true_and]
    omega
  have hn : ¬ ((n : ℤ) < 0) := by omega
  have hzero : n ≠ 0 := by omega
  rw [intToString, Decimal.printInt, if_neg hn, Int.natAbs_natCast, Decimal.print, if_neg hzero,
    hdigits]
  have h1 : n / 100 / 10 % 10 = n / 1000 % 10 := by omega
  have h2 : n % 100 / 10 % 10 = n / 10 % 10 := by omega
  have h3 : n % 100 % 10 = n % 10 := by omega
  simp only [fourDigits, twoDigits, h1, h2, h3]
  rfl

/-- The years a 64-bit clock reaches. -/
theorem year_of_fits {t : ℤ} (hle : -2 ^ 63 ≤ t * 10 ^ 9) (hlt : t * 10 ^ 9 < 2 ^ 63) :
    1000 ≤ (Civil.ofDays (t / 86400)).year ∧ (Civil.ofDays (t / 86400)).year < 10000 := by
  obtain ⟨hafter, hbefore⟩ := Civil.yearOf_spec (t / 86400)
  have hyear : (Civil.ofDays (t / 86400)).year = Civil.yearOf (t / 86400) := rfl
  rw [hyear]
  unfold Civil.daysBeforeYear at hafter hbefore
  omega

/-- A time point is printed as the UTC stamp of its instant. -/
theorem CardDate.toIso8601_fromTimeT {t : ℤ} (h : (fromTimeT t).toInt = t * 10 ^ 9)
    (hle : 1000 ≤ (Civil.ofDays (t / 86400)).year) (hlt : (Civil.ofDays (t / 86400)).year < 10000) :
    toIso8601 ⟨fromTimeT t⟩ = (Stamp.ofSeconds t (by omega) hlt).text := by
  have hyear : intToString (Civil.ofDays (t / 86400)).year =
      fourDigits (Civil.ofDays (t / 86400)).year.toNat := by
    rw [← intToString_fourDigits (by omega) (by omega), Int.toNat_of_nonneg (by omega)]
  have htext : strftime (gmtime t) = (Stamp.ofSeconds t (by omega) hlt).text := by
    have hcancel (y : ℤ) : 1900 + (y - 1900) = y := by ring
    simp only [strftime, gmtime, Stamp.text, Stamp.head, Stamp.ofSeconds, Zone.text, hcancel, hyear,
      sub_add_cancel, Int.toNat_natCast, List.append_nil]
  have hlength : (Stamp.ofSeconds t (by omega) hlt).text.length < 32 := by
    rw [Stamp.text, List.length_append, List.length_append, Stamp.length_head]
    simp [Stamp.ofSeconds, Zone.text]
  rw [toIso8601, toTimeT_fromTimeT h, htext, if_pos hlength]

/-- The text is read as the instant it denotes, and that instant is printed. -/
def Stamp.Denoted (u : Stamp) : Prop :=
  ∃ d, CardDate.parse u.text = some d ∧ d.timePoint.toInt = u.seconds * 10 ^ 9 ∧
    (0 ≤ (Civil.ofDays (u.seconds / 86400)).year →
      (Civil.ofDays (u.seconds / 86400)).year < 10000 →
      ∃ v : Stamp, v.zone = .utc ∧ v.fraction = [] ∧ v.second < 60 ∧ v.seconds = u.seconds ∧
        d.toIso8601 = v.text)

theorem Stamp.Denoted.fits {u : Stamp} (h : u.Denoted) :
    -2 ^ 63 ≤ u.seconds * 10 ^ 9 ∧ u.seconds * 10 ^ 9 < 2 ^ 63 := by
  obtain ⟨d, hparse, hpoint, -⟩ := h
  rw [u.parse_text, Option.some.injEq] at hparse
  subst hparse
  exact (CardDate.toInt_fromTimeT_iff _).1 hpoint

/-- **Dates are parsed to the instants they denote.**  For every well-formed text this holds
exactly when the instant, in nanoseconds since 1970, fits 64 bits. -/
theorem parse_denotes_iff (u : Stamp) :
    u.Denoted ↔ -2 ^ 63 ≤ u.seconds * 10 ^ 9 ∧ u.seconds * 10 ^ 9 < 2 ^ 63 := by
  constructor
  · exact Stamp.Denoted.fits
  · intro hfits
    have hpoint := (CardDate.toInt_fromTimeT_iff _).2 hfits
    obtain ⟨hyear, -⟩ := year_of_fits hfits.1 hfits.2
    refine ⟨_, u.parse_text, hpoint, fun hnonneg hlt => ?_⟩
    refine ⟨Stamp.ofSeconds u.seconds hnonneg hlt, rfl, rfl, ?_, Stamp.seconds_ofSeconds _ _ _,
      CardDate.toIso8601_fromTimeT hpoint hyear hlt⟩
    simp only [Stamp.ofSeconds]
    omega

/-- The last second of the year 9999. -/
def endOfDays : Stamp where
  date := ⟨9999, 12, 31⟩
  hour := 23
  minute := 59
  second := 59
  fraction := []
  zone := .utc
  date_valid := ⟨by decide, by decide, by decide, by decide⟩
  year_nonneg := by decide
  year_lt := by decide
  hour_lt := by decide
  minute_lt := by decide
  second_le := by decide
  fraction_valid := Or.inl rfl

/-- The date that stands for no end becomes a day in the year 1816. -/
theorem endOfDays_wraps : ¬ endOfDays.Denoted ∧ endOfDays.text = lit "9999-12-31T23:59:59Z" ∧
    (CardDate.parse endOfDays.text).map CardDate.toIso8601 =
      some (lit "1816-03-30T05:56:08Z") := by
  refine ⟨fun h => ?_, by decide, by decide +kernel⟩
  have hfits := h.fits
  revert hfits
  decide +kernel

end Kaiten

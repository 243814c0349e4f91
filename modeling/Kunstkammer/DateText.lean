import Mathlib.Data.List.TakeWhile
import Kunstkammer.Date
import Kunstkammer.Foundation.Attempts

/-!
# The texts of dates

What `Card_date` prints is read back, and what it reads need not be what it prints.

* `parse_toIso8601`: every time point comes back, less the fraction of its second;
* `Readable`: the texts `stoi` finds a number in;
* `Passes s`: the checks `Card_date::parse` makes, position by position;
* `parse_isSome_iff`: it accepts exactly the texts that pass;
* `parse_strict_iff`: the texts on which it is as strict as the format.
-/

namespace Kaiten

namespace CardDate

/-! ### What is printed is read back -/

/-- Whole seconds fit the clock. -/
theorem toTimeT_fits (tp : Int64) :
    -2 ^ 63 ≤ toTimeT tp * 10 ^ 9 ∧ toTimeT tp * 10 ^ 9 < 2 ^ 63 := by
  have hle := tp.le_toInt
  have hlt := tp.toInt_lt
  have hdiv := Int.mul_tdiv_add_tmod tp.toInt (10 ^ 9)
  unfold toTimeT
  by_cases hneg : 0 ≤ tp.toInt
  · have hmod := Int.tmod_nonneg (10 ^ 9) hneg
    have hquot : 0 ≤ tp.toInt.tdiv (10 ^ 9) := Int.tdiv_nonneg hneg (by decide)
    constructor
    · omega
    · omega
  · have hmod : tp.toInt.tmod (10 ^ 9) ≤ 0 := by
      have := Int.tmod_nonneg (10 ^ 9) (show 0 ≤ -tp.toInt by omega)
      rw [Int.neg_tmod] at this
      omega
    have hquot : tp.toInt.tdiv (10 ^ 9) ≤ 0 := by
      have := Int.tdiv_nonneg (show 0 ≤ -tp.toInt by omega) (show (0 : ℤ) ≤ 10 ^ 9 by decide)
      rw [Int.neg_tdiv] at this
      omega
    constructor
    · omega
    · omega

/-- Only the whole seconds are printed. -/
theorem toIso8601_toTimeT (d : CardDate) :
    toIso8601 ⟨fromTimeT (toTimeT d.timePoint)⟩ = toIso8601 d := by
  have hpoint := (toInt_fromTimeT_iff _).2 (toTimeT_fits d.timePoint)
  rw [toIso8601, toTimeT_fromTimeT hpoint, toIso8601]

/-- **The round trip of dates.**  Every time point is printed as a text that is read as the same
time, truncated to whole seconds toward zero, and that is printed as the same text. -/
theorem parse_toIso8601 (d : CardDate) :
    ∃ e, parse d.toIso8601 = some e ∧
      e.timePoint.toInt = d.timePoint.toInt.tdiv (10 ^ 9) * 10 ^ 9 ∧
      e.toIso8601 = d.toIso8601 := by
  have hfits := toTimeT_fits d.timePoint
  have hpoint := (toInt_fromTimeT_iff _).2 hfits
  obtain ⟨hyear, hlt⟩ := year_of_fits hfits.1 hfits.2
  have htext := toIso8601_fromTimeT hpoint hyear hlt
  rw [toIso8601_toTimeT] at htext
  refine ⟨⟨fromTimeT (toTimeT d.timePoint)⟩, ?_, hpoint, toIso8601_toTimeT d⟩
  rw [htext, Stamp.parse_text, Stamp.seconds_ofSeconds]

end CardDate

/-! ### Texts with a number in front -/

/-- Blanks, a sign, and a digit: what `stoi` looks for. -/
def Readable (s : Str) : Prop :=
  ∃ blanks sign digit rest, s = blanks ++ sign ++ digit :: rest ∧
    (∀ b ∈ blanks, isSpace b = true) ∧ (sign = [] ∨ sign = [43] ∨ sign = [45]) ∧
    Decimal.isDigit digit = true

theorem scan_ne_nil_iff {s : Str} :
    (Decimal.scan s).1 ≠ [] ↔ ∃ digit rest, s = digit :: rest ∧ Decimal.isDigit digit = true := by
  cases s with
  | nil => simp [Decimal.scan]
  | cons b s => cases hb : Decimal.isDigit b <;> simp [Decimal.scan, hb]

/-- Behind a sign, if there is one. -/
def unsigned (s : Str) : Str := if s.head? = some 45 ∨ s.head? = some 43 then s.tail else s

theorem readInteger_isSome (s : Str) :
    (readInteger s).isSome ↔ (Decimal.scan (unsigned (s.dropWhile isSpace))).1 ≠ [] := by
  unfold readInteger unsigned
  dsimp only
  split_ifs <;> simp [*]

/-- A number is found exactly where there are blanks, a sign and a digit. -/
theorem readInteger_isSome_iff {s : Str} : (readInteger s).isSome ↔ Readable s := by
  rw [readInteger_isSome, scan_ne_nil_iff]
  constructor
  · rintro ⟨digit, rest, hrest, hdigit⟩
    have hsplit : s.takeWhile isSpace ++ s.dropWhile isSpace = s := List.takeWhile_append_dropWhile
    have hblanks : ∀ b ∈ s.takeWhile isSpace, isSpace b = true := fun b hb =>
      List.mem_takeWhile_imp hb
    unfold unsigned at hrest
    split_ifs at hrest with hsign
    · obtain ⟨sign, hhead, hsign⟩ : ∃ sign, (s.dropWhile isSpace).head? = some sign ∧
          (sign = 43 ∨ sign = 45) := by
        rcases hsign with h | h
        · exact ⟨45, h, Or.inr rfl⟩
        · exact ⟨43, h, Or.inl rfl⟩
      have hcons : s.dropWhile isSpace = sign :: digit :: rest := by
        rw [← hrest, List.eq_cons_of_mem_head? hhead]
        rfl
      refine ⟨_, [sign], digit, rest, ?_, hblanks, Or.inr ?_, hdigit⟩
      · rw [List.append_assoc, List.singleton_append, ← hcons, hsplit]
      · rcases hsign with rfl | rfl
        · exact Or.inl rfl
        · exact Or.inr rfl
    · refine ⟨_, [], digit, rest, ?_, hblanks, Or.inl rfl, hdigit⟩
      rw [List.append_nil, ← hrest, hsplit]
  · rintro ⟨blanks, sign, digit, rest, rfl, hblanks, hsign, hdigit⟩
    obtain ⟨hspace, hminus, hplus⟩ := isSpace_of_isDigit hdigit
    refine ⟨digit, rest, ?_, hdigit⟩
    rw [List.append_assoc, List.dropWhile_append_of_pos hblanks]
    rcases hsign with rfl | rfl | rfl
    · rw [List.nil_append, List.dropWhile_cons_of_neg (by rw [hspace]; exact Bool.false_ne_true)]
      simp [unsigned, hminus, hplus]
    · rfl
    · rfl

/-- The digits in front are a number below the power of ten. -/
theorem eval_lt (l : Str) (h : ∀ b ∈ l, Decimal.isDigit b = true) :
    Decimal.eval l < 10 ^ l.length := by
  induction l using List.reverseRecOn with
  | nil => decide
  | append_singleton l b ih =>
    have hb := h b (by simp)
    have hl := ih fun c hc => h c (List.mem_append_left _ hc)
    simp only [Decimal.isDigit, decide_eq_true_eq] at hb
    rw [Decimal.eval_append, List.length_append, List.length_singleton, pow_succ]
    omega

theorem readInteger_lt {s : Str} {p : ℤ × Str} (h : readInteger s = some p) :
    p.1.natAbs < 10 ^ s.length := by
  have hdigits : (Decimal.scan (unsigned (s.dropWhile isSpace))).1.Sublist s := by
    have hscan : (Decimal.scan (unsigned (s.dropWhile isSpace))).1.Sublist
        (unsigned (s.dropWhile isSpace)) := List.takeWhile_sublist _
    have hsign : (unsigned (s.dropWhile isSpace)).Sublist (s.dropWhile isSpace) := by
      unfold unsigned
      split_ifs
      · exact List.tail_sublist _
      · exact List.Sublist.refl _
    exact hscan.trans (hsign.trans (List.dropWhile_sublist _))
  have heval := eval_lt (Decimal.scan (unsigned (s.dropWhile isSpace))).1 fun b hb =>
    List.mem_takeWhile_imp hb
  have hpow : 10 ^ (Decimal.scan (unsigned (s.dropWhile isSpace))).1.length ≤ 10 ^ s.length :=
    Nat.pow_le_pow_right (by decide) hdigits.length_le
  have habs : p.1.natAbs = Decimal.eval (Decimal.scan (unsigned (s.dropWhile isSpace))).1 := by
    unfold readInteger at h
    dsimp only at h
    split_ifs at h
    all_goals
      cases h
      simp_all [unsigned]
  omega

/-- In a short text every number fits an `int`. -/
theorem stoi_isSome_iff {s : Str} (h : s.length ≤ 4) : (stoi s).isSome ↔ Readable s := by
  rw [← readInteger_isSome_iff, stoi]
  cases hread : readInteger s with
  | none => rfl
  | some p =>
    have hlt := readInteger_lt hread
    have hpow : 10 ^ s.length ≤ 10 ^ 4 := Nat.pow_le_pow_right (by decide) h
    rw [Option.bind_some, if_pos (by omega)]
    rfl

/-! ### What the parser checks -/

namespace CardDate

/-- The places of the fields: position and length. -/
def fieldPlaces : List (ℕ × ℕ) := [(0, 4), (5, 2), (8, 2), (11, 2), (14, 2), (17, 2)]

/-- What `parse` checks in a text whose time zone begins at `pos`: a `T`, something to read at the
place of every field, and `Z`, or a sign with a colon between two more numbers.  What stands
between the fields, behind the seconds and behind the zone does not matter, and neither does the
value of a number. -/
structure Passes (s : Str) (pos : ℕ) : Prop where
  behind : 19 ≤ pos
  zone : ∃ b, s[pos]? = some b ∧ isZone b = true
  first : ∀ i, 19 ≤ i → i < pos → ∀ b ∈ s[i]?, isZone b = false
  separator : s[10]? = some 84
  fields : ∀ p ∈ fieldPlaces, Readable (substr s p.1 p.2)
  offset : s[pos]? = some 90 ∨ pos + 6 ≤ s.length ∧ s[pos + 3]? = some 58 ∧
    Readable (substr s (pos + 1) 2) ∧ Readable (substr s (pos + 4) 2)

theorem substr_take {s : Str} {pos start n : ℕ} (h : start + n ≤ pos) :
    substr (s.take pos) start n = substr s start n := by
  unfold substr
  rw [List.drop_take, List.take_take, min_eq_left (by omega)]

theorem length_substr_le (s : Str) (start n : ℕ) : (substr s start n).length ≤ n :=
  List.length_take_le _ _

/-- The date and the time are read where their fields can be. -/
theorem parseFields_isSome_iff {s : Str} {pos : ℕ} (h : 19 ≤ pos) (hpos : pos ≤ s.length) :
    (parseFields (s.take pos)).isSome ↔
      s[10]? = some 84 ∧ ∀ p ∈ fieldPlaces, Readable (substr s p.1 p.2) := by
  have hT : (s.take pos)[10]? = s[10]? := List.getElem?_take_of_lt (by omega)
  have hlength : (s.take pos).length = pos := List.length_take_of_le hpos
  have hfield (start n : ℕ) (hn : start + n ≤ 19) (hshort : n ≤ 4) :
      (stoi (substr (s.take pos) start n)).isSome ↔ Readable (substr s start n) := by
    rw [substr_take (hn.trans h)]
    exact stoi_isSome_iff ((length_substr_le s start n).trans hshort)
  unfold parseFields
  rw [hT, hlength]
  by_cases hsep : s[10]? = some 84
  · have hchecks : ¬ (pos < 19 ∨ s[10]? ≠ some 84) := not_or.2 ⟨h.not_gt, not_not.2 hsep⟩
    rw [if_neg hchecks, and_iff_right hsep]
    refine (isSome_bind_iff fun _ => isSome_bind_iff fun _ => isSome_bind_iff fun _ =>
      isSome_bind_iff fun _ => isSome_bind_iff fun _ => isSome_bind_iff fun _ =>
      iff_of_true rfl trivial).trans ?_
    rw [hfield 0 4 (by decide) (by decide), hfield 5 2 (by decide) (by decide),
      hfield 8 2 (by decide) (by decide), hfield 11 2 (by decide) (by decide),
      hfield 14 2 (by decide) (by decide), hfield 17 2 (by decide) (by decide)]
    simp [fieldPlaces]
  · rw [if_pos (Or.inr hsep)]
    simp [hsep]

/-- The offset is read where it is a `Z`, or two numbers with a colon between them. -/
theorem parseOffset_isSome_iff {s : Str} {pos : ℕ} : (parseOffset s pos).isSome ↔
    s[pos]? = some 90 ∨ pos + 6 ≤ s.length ∧ s[pos + 3]? = some 58 ∧
      Readable (substr s (pos + 1) 2) ∧ Readable (substr s (pos + 4) 2) := by
  have hnumber (start : ℕ) : (stoi (substr s start 2)).isSome ↔ Readable (substr s start 2) :=
    stoi_isSome_iff ((length_substr_le s start 2).trans (by decide))
  unfold parseOffset
  by_cases hZ : s[pos]? = some 90
  · simp [hZ]
  · by_cases hlength : s.length < pos + 6
    · simp [hZ, hlength]
    · by_cases hcolon : s[pos + 3]? = some 58
      · rw [if_neg hZ, if_neg hlength, if_neg (not_not.2 hcolon), or_iff_right hZ,
          and_iff_right (not_lt.1 hlength), and_iff_right hcolon]
        refine (isSome_bind_iff fun _ => isSome_bind_iff fun _ => iff_of_true rfl trivial).trans ?_
        rw [hnumber, hnumber, and_true]
      · simp [hZ, hlength, hcolon]

/-- The zone begins at the first byte for it behind the seconds. -/
theorem findIdx_isZone_iff {s : Str} {i : ℕ} : (s.drop 19).findIdx? isZone = some i ↔
    (∃ b, s[19 + i]? = some b ∧ isZone b = true) ∧
      ∀ k, 19 ≤ k → k < 19 + i → ∀ b ∈ s[k]?, isZone b = false := by
  have hdrop (k : ℕ) : (s.drop 19)[k]? = s[19 + k]? := List.getElem?_drop
  rw [List.findIdx?_eq_some_iff_getElem]
  constructor
  · rintro ⟨hi, hzone, hfirst⟩
    refine ⟨⟨(s.drop 19)[i], ?_, hzone⟩, fun k hk hlt b hb => ?_⟩
    · rw [← hdrop, List.getElem?_eq_getElem hi]
    · obtain ⟨k, rfl⟩ := Nat.exists_eq_add_of_le hk
      rw [← hdrop, Option.mem_def, List.getElem?_eq_some_iff] at hb
      obtain ⟨hk, rfl⟩ := hb
      exact Bool.not_eq_true _ ▸ hfirst k (by omega)
  · rintro ⟨⟨b, hb, hzone⟩, hfirst⟩
    rw [← hdrop, List.getElem?_eq_some_iff] at hb
    obtain ⟨hi, rfl⟩ := hb
    refine ⟨hi, hzone, fun k hk => ?_⟩
    have hnot := hfirst (19 + k) (by omega) (by omega) (s.drop 19)[k]
    rw [← hdrop, List.getElem?_eq_getElem (by omega)] at hnot
    rw [hnot rfl]
    exact Bool.false_ne_true

/-- **What the parser accepts**: the texts that pass its checks, and no others. -/
theorem parse_isSome_iff {s : Str} (h : s ≠ []) : (parse s).isSome ↔ ∃ pos, Passes s pos := by
  unfold parse
  rw [if_neg h]
  constructor
  · intro hsome
    obtain ⟨i, hfind, hsome⟩ := isSome_bind_iff_exists.1 hsome
    obtain ⟨hzone, hfirst⟩ := findIdx_isZone_iff.1 hfind
    obtain ⟨hoffset, hfields⟩ := (isSome_bind_iff fun _ => isSome_bind_iff fun _ =>
      iff_of_true rfl trivial).1 hsome
    have hpos : 19 + i ≤ s.length := by
      obtain ⟨b, hb, -⟩ := hzone
      exact (List.getElem?_eq_some_iff.1 hb).1.le
    obtain ⟨hT, hfields⟩ := (parseFields_isSome_iff (by omega) hpos).1 hfields.1
    exact ⟨19 + i, ⟨by omega, hzone, hfirst, hT, hfields, parseOffset_isSome_iff.1 hoffset⟩⟩
  · rintro ⟨pos, hpass⟩
    obtain ⟨i, rfl⟩ := Nat.exists_eq_add_of_le hpass.behind
    obtain ⟨b, hb, -⟩ := hpass.zone
    have hpos : 19 + i ≤ s.length := (List.getElem?_eq_some_iff.1 hb).1.le
    refine isSome_bind_iff_exists.2 ⟨i, findIdx_isZone_iff.2 ⟨hpass.zone, hpass.first⟩, ?_⟩
    refine (isSome_bind_iff fun _ => isSome_bind_iff fun _ => iff_of_true rfl trivial).2
      ⟨parseOffset_isSome_iff.2 hpass.offset, ?_, trivial⟩
    exact (parseFields_isSome_iff (by omega) hpos).2 ⟨hpass.separator, hpass.fields⟩

/-- The text has the format, with every field in its range. -/
def WellFormed (s : Str) : Prop := ∃ u : Stamp, u.text = s

theorem parse_isSome_of_wellFormed {s : Str} (h : WellFormed s) : (parse s).isSome := by
  obtain ⟨u, rfl⟩ := h
  rw [u.parse_text]
  rfl

/-- **How strict the parser is.**  On a text that is not empty it keeps to the format, accepting the
text just when it is well formed, exactly when the text fails one of the checks that are made, or
is well formed. -/
theorem parse_strict_iff {s : Str} (h : s ≠ []) :
    ((parse s).isSome ↔ WellFormed s) ↔ (∀ pos, ¬ Passes s pos) ∨ WellFormed s := by
  rw [← not_exists, ← parse_isSome_iff h]
  constructor
  · intro hiff
    rw [hiff]
    exact (em _).symm
  · rintro (hfails | hformed)
    · exact iff_of_false hfails fun hformed => hfails (parse_isSome_of_wellFormed hformed)
    · exact iff_of_true (parse_isSome_of_wellFormed hformed) hformed

/-- The moment clocks count from. -/
def epoch : Stamp := Stamp.ofSeconds 0 (by decide) (by decide)

theorem parse_strict_iff_epoch : epoch.text ≠ [] ∧
    ((parse epoch.text).isSome ↔ WellFormed epoch.text) :=
  ⟨by decide, (parse_strict_iff (s := epoch.text) (by decide)).2 (Or.inr ⟨epoch, rfl⟩)⟩

/-- A date with slashes, in the thirteenth month, with something behind the zone. -/
def looseText : Str := lit "2024/13/01T10:00:00Zulu"

/-- It is read as a day of the next year. -/
theorem loose_text_accepted : ¬ ((parse looseText).isSome ↔ WellFormed looseText) ∧
    (parse looseText).map toIso8601 = some (lit "2025-01-01T10:00:00Z") := by
  refine ⟨fun h => ?_, by decide +kernel⟩
  obtain ⟨u, hu⟩ := h.1 (by decide +kernel)
  have hdash : u.text[4]? = some 45 := rfl
  rw [hu] at hdash
  exact absurd hdash (by decide)

end CardDate

end Kaiten

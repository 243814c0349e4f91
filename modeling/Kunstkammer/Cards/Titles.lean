import Mathlib.Data.List.TakeWhile
import Kunstkammer.Foundation.Utf8
import Kunstkammer.Json
import Kunstkammer.Numbers

/-!
# Work codes and titles

* `extractWorkCode`: the search for `[PRODUCT]:work.code.part` in a title;
* `containsIgnoreCase`, `resolveProductCodeFromRole`;
* `updatedTitle`: the title of a created card;
* `work_code_survives`: the code in a title that was written is found again;
* `extractWorkCode_valid`, `updatedTitle_valid`: the pieces cut out of UTF-8 texts are UTF-8.
-/

namespace Kaiten

/-- `[A-Za-z]`. -/
def isLetter (b : UInt8) : Bool :=
  decide (65 ≤ b.toNat ∧ b.toNat ≤ 90) || decide (97 ≤ b.toNat ∧ b.toNat ≤ 122)

/-- `[^\.\s]`. -/
def isCodeByte (b : UInt8) : Bool := !(b = 46 || isSpace b)

/-- The longest non-empty piece of bytes in a class, and what follows it. -/
def span1 (p : UInt8 → Bool) (s : Str) : Option (Str × Str) :=
  if s.takeWhile p = [] then none else some (s.takeWhile p, s.dropWhile p)

/-- One byte. -/
def expect (b : UInt8) : Str → Option Str
  | [] => none
  | c :: s => if c = b then some s else none

/-- The pattern `\[([A-Za-z]+)\]:([A-Za-z]+\.[^\.\s]+\.[^\.\s]+)` at the front of a text, with its
two groups.  What ends a piece is never in its class, so there is nothing to try again. -/
def matchWorkCode (s : Str) : Option (Str × Str) := do
  let s ← expect 91 s
  let (product, s) ← span1 isLetter s
  let s ← expect 93 s
  let s ← expect 58 s
  let (first, s) ← span1 isLetter s
  let s ← expect 46 s
  let (second, s) ← span1 isCodeByte s
  let s ← expect 46 s
  let (third, _) ← span1 isCodeByte s
  some (product, first ++ 46 :: second ++ 46 :: third)

/-- `std::regex_search`: the leftmost match. -/
def searchWorkCode : Str → Option (Str × Str)
  | [] => none
  | b :: s =>
      match matchWorkCode (b :: s) with
      | some groups => some groups
      | none => searchWorkCode s

/-- `extract_work_code`: the product and the part of the code after its first point; `none` when it
returns false. -/
def extractWorkCode (title : Str) : Option (Str × Str) := do
  let (product, full) ← searchWorkCode title
  let i ← full.findIdx? (· = 46)
  if i + 1 ≥ full.length then none else some (product, full.drop (i + 1))

/-- `contains_ignore_case`. -/
def containsIgnoreCase (haystack needle : Str) : Bool :=
  needle ≠ [] && (haystack.map toLower).tails.any fun t => (needle.map toLower).isPrefixOf t

/-- `resolve_product_code_from_role`; empty where the role names no product. -/
def resolveProductCodeFromRole (role : Str) : Str :=
  if role = [] then []
  else if containsIgnoreCase role (lit "Frontend") || containsIgnoreCase role (lit "React") then
    lit "FE"
  else if containsIgnoreCase role (lit "Backend") || containsIgnoreCase role (lit "Java") then
    lit "BE"
  else []

/-- The title written by `update_card_title_with_work_code`. -/
def updatedTitle (productCode workCode : Str) (cardId : Int64) (originalTitle : Str) : Str :=
  lit "[" ++ productCode ++ lit "]:TS." ++ workCode ++ lit "." ++ intToString cardId.toInt ++
    lit ". " ++ originalTitle

/-! ### What a match is -/

theorem span1_eq_some {p : UInt8 → Bool} {s x r : Str} (h : span1 p s = some (x, r)) :
    x ≠ [] ∧ s = x ++ r ∧ (∀ b ∈ x, p b = true) ∧ ∀ b ∈ r.head?, p b = false := by
  unfold span1 at h
  split_ifs at h with hnil
  obtain ⟨rfl, rfl⟩ := Prod.mk.inj (Option.some.inj h)
  refine ⟨hnil, (List.takeWhile_append_dropWhile).symm, fun b hb => List.mem_takeWhile_imp hb, ?_⟩
  intro b hb
  have hhead := List.head?_dropWhile_not p s
  rw [Option.mem_def.1 hb] at hhead
  exact hhead

theorem expect_eq_some {b : UInt8} {s r : Str} (h : expect b s = some r) : s = b :: r := by
  cases s with
  | nil => simp [expect] at h
  | cons c s =>
    simp only [expect] at h
    split_ifs at h with hc
    rw [hc, Option.some.inj h]

/-- The pieces of a match. -/
structure WorkCodeMatch (s product full : Str) where
  first : Str
  second : Str
  third : Str
  rest : Str
  text : s = 91 :: (product ++ 93 :: 58 :: (first ++ 46 :: (second ++ 46 :: (third ++ rest))))
  full_eq : full = first ++ 46 :: (second ++ 46 :: third)
  product_letters : ∀ b ∈ product, isLetter b = true
  first_letters : ∀ b ∈ first, isLetter b = true
  second_ne_nil : second ≠ []
  rest_head : ∀ b ∈ rest.head?, isCodeByte b = false

theorem matchWorkCode_eq_some {s product full : Str} (h : matchWorkCode s = some (product, full)) :
    Nonempty (WorkCodeMatch s product full) := by
  simp only [matchWorkCode, Option.bind_eq_bind, Option.bind_eq_some_iff, Prod.exists,
    Option.some.injEq, Prod.mk.injEq] at h
  obtain ⟨s1, h1, p, s2, h2, s3, h3, s4, h4, first, s5, h5, s6, h6, second, s7, h7, s8, h8, third,
    s9, h9, rfl, rfl⟩ := h
  obtain ⟨-, hp, hletters, -⟩ := span1_eq_some h2
  obtain ⟨-, hfirst, hfirstLetters, -⟩ := span1_eq_some h5
  obtain ⟨hne, hsecond, -, -⟩ := span1_eq_some h7
  obtain ⟨-, hthird, -, hrest⟩ := span1_eq_some h9
  refine ⟨⟨first, second, third, s9, ?_, ?_, hletters, hfirstLetters, hne, hrest⟩⟩
  · rw [expect_eq_some h1, hp, expect_eq_some h3, expect_eq_some h4, hfirst, expect_eq_some h6,
      hsecond, expect_eq_some h8, hthird]
  · simp

/-- What is found is a match somewhere. -/
theorem matchWorkCode_of_search {s : Str} {groups : Str × Str}
    (h : searchWorkCode s = some groups) :
    ∃ before after, s = before ++ after ∧ matchWorkCode after = some groups := by
  induction s with
  | nil => simp [searchWorkCode] at h
  | cons b s ih =>
    rw [searchWorkCode] at h
    cases hm : matchWorkCode (b :: s) with
    | some groups' =>
      rw [hm] at h
      exact ⟨[], b :: s, rfl, hm.trans h⟩
    | none =>
      rw [hm] at h
      obtain ⟨before, after, rfl, hmatch⟩ := ih h
      exact ⟨b :: before, after, rfl, hmatch⟩

theorem searchWorkCode_eq_some {s product full : Str}
    (h : searchWorkCode s = some (product, full)) :
    ∃ before after, s = before ++ after ∧ Nonempty (WorkCodeMatch after product full) := by
  obtain ⟨before, after, hs, hmatch⟩ := matchWorkCode_of_search h
  exact ⟨before, after, hs, matchWorkCode_eq_some hmatch⟩

/-- The part of the code after its first point. -/
theorem drop_full {first : Str} (rest : Str) (h : ∀ b ∈ first, isLetter b = true) :
    (first ++ 46 :: rest).findIdx? (· = 46) = some first.length ∧
      (first ++ 46 :: rest).drop (first.length + 1) = rest := by
  have hnone : first.findIdx? (fun b => decide (b = 46)) = none := by
    rw [List.findIdx?_eq_none_iff]
    intro b hb
    rw [decide_eq_false_iff_not]
    rintro rfl
    exact absurd (h 46 hb) (by decide)
  constructor
  · rw [List.findIdx?_append, hnone, List.findIdx?_cons]
    simp
  · rw [List.drop_append, List.drop_eq_nil_of_le (Nat.le_add_right _ _), Nat.add_sub_cancel_left]
    rfl

theorem code_of_full {first rest code product product' : Str} {i : ℕ}
    (h : ∀ b ∈ first, isLetter b = true) (hi : (first ++ 46 :: rest).findIdx? (· = 46) = some i)
    (hcode : (if i + 1 ≥ (first ++ 46 :: rest).length then none
      else some (product, (first ++ 46 :: rest).drop (i + 1))) = some (product', code)) :
    product = product' ∧ rest = code := by
  obtain ⟨hfind, hdrop⟩ := drop_full rest h
  rw [hfind, Option.some.injEq] at hi
  subst hi
  rw [hdrop] at hcode
  split_ifs at hcode
  exact Prod.mk.inj (Option.some.inj hcode)

theorem extractWorkCode_eq_some {title product code : Str}
    (h : extractWorkCode title = some (product, code)) :
    ∃ before after full, title = before ++ after ∧
      ∃ m : WorkCodeMatch after product full, code = m.second ++ 46 :: m.third := by
  simp only [extractWorkCode, Option.bind_eq_bind, Option.bind_eq_some_iff, Prod.exists] at h
  obtain ⟨p, full, hsearch, i, hi, hcode⟩ := h
  obtain ⟨before, after, htitle, ⟨m⟩⟩ := searchWorkCode_eq_some hsearch
  rw [m.full_eq] at hi hcode
  obtain ⟨rfl, rfl⟩ := code_of_full m.first_letters hi hcode
  exact ⟨before, after, full, htitle, m, rfl⟩

/-! ### What is written is found again -/

/-- A product. -/
structure IsProduct (product : Str) : Prop where
  ne_nil : product ≠ []
  letters : ∀ b ∈ product, isLetter b = true

/-- A segment of a code. -/
structure IsSegment (segment : Str) : Prop where
  ne_nil : segment ≠ []
  bytes : ∀ b ∈ segment, isCodeByte b = true

/-- A work code: two segments with a point between them. -/
def IsWorkCode (workCode : Str) : Prop :=
  ∃ second third, IsSegment second ∧ IsSegment third ∧ workCode = second ++ 46 :: third

/-- What is found are a product and a work code. -/
theorem isWorkCode_of_extract {title product workCode : Str}
    (h : extractWorkCode title = some (product, workCode)) :
    IsProduct product ∧ IsWorkCode workCode := by
  simp only [extractWorkCode, Option.bind_eq_bind, Option.bind_eq_some_iff, Prod.exists] at h
  obtain ⟨p, full, hsearch, i, hi, hcode⟩ := h
  obtain ⟨before, after, -, hmatch⟩ := matchWorkCode_of_search hsearch
  simp only [matchWorkCode, Option.bind_eq_bind, Option.bind_eq_some_iff, Prod.exists,
    Option.some.injEq, Prod.mk.injEq] at hmatch
  obtain ⟨_, -, _, _, hproduct, _, -, _, -, first, _, hfirst, _, -, second, _, hsecond, _, -, third,
    _, hthird, rfl, rfl⟩ := hmatch
  obtain ⟨hproductNe, -, hproductLetters, -⟩ := span1_eq_some hproduct
  obtain ⟨-, -, hfirstLetters, -⟩ := span1_eq_some hfirst
  obtain ⟨hsecondNe, -, hsecondBytes, -⟩ := span1_eq_some hsecond
  obtain ⟨hthirdNe, -, hthirdBytes, -⟩ := span1_eq_some hthird
  have hfull : first ++ 46 :: second ++ 46 :: third = first ++ 46 :: (second ++ 46 :: third) := by
    simp
  rw [hfull] at hi hcode
  obtain ⟨rfl, rfl⟩ := code_of_full hfirstLetters hi hcode
  exact ⟨⟨hproductNe, hproductLetters⟩,
    second, third, ⟨hsecondNe, hsecondBytes⟩, ⟨hthirdNe, hthirdBytes⟩, rfl⟩

/-- A piece that ends where its class does is taken whole. -/
theorem span1_append {p : UInt8 → Bool} {x r : Str} (hx : x ≠ []) (h : ∀ b ∈ x, p b = true)
    (hr : ∀ b ∈ r.head?, p b = false) : span1 p (x ++ r) = some (x, r) := by
  have htake : (x ++ r).takeWhile p = x := by
    rw [List.takeWhile_append_of_pos h]
    cases r with
    | nil => simp
    | cons b r => simp [hr b rfl]
  have hdrop : (x ++ r).dropWhile p = r := by
    rw [List.dropWhile_append_of_pos h]
    cases r with
    | nil => rfl
    | cons b r => simp [hr b rfl]
  rw [span1, htake, hdrop, if_neg hx]

theorem expect_cons (b : UInt8) (s : Str) : expect b (b :: s) = some s := if_pos rfl

/-- A text in the pattern is matched. -/
theorem matchWorkCode_text {product first second third : Str} (hproduct : IsProduct product)
    (hfirst : IsProduct first) (hsecond : IsSegment second) (hthird : IsSegment third)
    (rest : Str) (hrest : ∀ b ∈ rest.head?, isCodeByte b = false) :
    matchWorkCode
        (91 :: (product ++ 93 :: 58 :: (first ++ 46 :: (second ++ 46 :: (third ++ rest))))) =
      some (product, first ++ 46 :: second ++ 46 :: third) := by
  have hhead (b : UInt8) (l : Str) (p : UInt8 → Bool) (hb : p b = false) :
      ∀ c ∈ (b :: l).head?, p c = false := by
    rintro c ⟨⟩
    exact hb
  unfold matchWorkCode
  rw [expect_cons, Option.bind_eq_bind, Option.bind_some,
    span1_append hproduct.ne_nil hproduct.letters (hhead 93 _ _ (by decide))]
  simp only [Option.bind_eq_bind, Option.bind_some, expect_cons]
  rw [span1_append hfirst.ne_nil hfirst.letters (hhead 46 _ _ (by decide))]
  simp only [Option.bind_some, expect_cons]
  rw [span1_append hsecond.ne_nil hsecond.bytes (hhead 46 _ _ (by decide))]
  simp only [Option.bind_some, expect_cons]
  rw [span1_append hthird.ne_nil hthird.bytes hrest]
  rfl

/-- The code in a title that was written is found at its front, whatever follows it. -/
theorem extractWorkCode_updatedTitle {product workCode : Str} (hproduct : IsProduct product)
    (hcode : IsWorkCode workCode) (cardId : Int64) (originalTitle : Str) :
    extractWorkCode (updatedTitle product workCode cardId originalTitle) =
      some (product, workCode) := by
  obtain ⟨second, third, hsecond, hthird, rfl⟩ := hcode
  have hTS : IsProduct (lit "TS") := ⟨by decide, by decide +kernel⟩
  have hbracket : lit "]:TS." = 93 :: 58 :: (lit "TS" ++ [46]) := by decide
  have hopen : lit "[" = [91] := by decide
  have hpoint : lit "." = [46] := by decide
  have htext : updatedTitle product (second ++ 46 :: third) cardId originalTitle =
      91 :: (product ++ 93 :: 58 :: (lit "TS" ++ 46 :: (second ++ 46 :: (third ++
        46 :: (intToString cardId.toInt ++ lit ". " ++ originalTitle))))) := by
    rw [updatedTitle, hbracket, hopen, hpoint]
    simp
  have hmatch := matchWorkCode_text hproduct hTS hsecond hthird
    (46 :: (intToString cardId.toInt ++ lit ". " ++ originalTitle)) (by rintro b ⟨⟩; rfl)
  have hfull : lit "TS" ++ 46 :: second ++ 46 :: third =
      lit "TS" ++ 46 :: (second ++ 46 :: third) := by
    simp
  obtain ⟨hfind, hdrop⟩ := drop_full (second ++ 46 :: third) hTS.letters
  have hlength : ¬ (lit "TS").length + 1 ≥ (lit "TS" ++ 46 :: (second ++ 46 :: third)).length := by
    simp
  rw [htext, extractWorkCode, searchWorkCode, hmatch, hfull]
  simp only [Option.bind_eq_bind, Option.bind_some, hfind, if_neg hlength, hdrop]

/-- **Work codes survive** the titles they are written into, under the product they came with or
under that of a role. -/
theorem work_code_survives {title product workCode p : Str}
    (h : extractWorkCode title = some (product, workCode))
    (hp : p = product ∨ p = lit "FE" ∨ p = lit "BE") (cardId : Int64) (originalTitle : Str) :
    extractWorkCode (updatedTitle p workCode cardId originalTitle) = some (p, workCode) := by
  obtain ⟨hproduct, hcode⟩ := isWorkCode_of_extract h
  have hletters : IsProduct p := by
    rcases hp with rfl | rfl | rfl
    · exact hproduct
    · exact ⟨by decide, by decide +kernel⟩
    · exact ⟨by decide, by decide +kernel⟩
  exact extractWorkCode_updatedTitle hletters hcode cardId originalTitle

/-- The original title has a code of its own. -/
theorem work_code_survives_code :
    extractWorkCode (updatedTitle (lit "FE") (lit "861.15") 7 (lit "[ABC]:X.y.z")) =
      some (lit "FE", lit "861.15") := by
  have hparent : extractWorkCode (lit "Plan [CAD]:TS.861.15. Interface") =
      some (lit "CAD", lit "861.15") := by
    decide +kernel
  exact work_code_survives hparent (Or.inr (Or.inl rfl)) 7 (lit "[ABC]:X.y.z")

/-! ### UTF-8 -/

theorem validUtf8_iff {s : Str} : s.validUtf8 = true ↔ Utf8.Valid s := by
  unfold Str.validUtf8
  rw [ByteArray.validateUTF8_eq_true_iff]
  constructor
  · rintro ⟨m, hm⟩
    refine ⟨m, ?_⟩
    have hlist := congrArg (fun b : ByteArray => b.data.toList) hm
    simpa [List.utf8Encode] using hlist
  · rintro ⟨m, rfl⟩
    refine ⟨m, ?_⟩
    apply ByteArray.ext
    simp [List.utf8Encode]

theorem valid_lit (s : String) : Utf8.Valid (lit s) := validUtf8_iff.1 (validUtf8_lit s)

theorem ascii_of_letters {l : Str} (h : ∀ b ∈ l, isLetter b = true) : Utf8.Ascii l := by
  intro b hb
  have hb := h b hb
  simp only [isLetter, Bool.or_eq_true, decide_eq_true_eq] at hb
  omega

theorem valid_intToString (n : ℤ) : Utf8.Valid (intToString n) := by
  have hprint : Utf8.Valid (Decimal.print n.natAbs) := by
    refine Utf8.valid_of_ascii fun b hb => ?_
    have hdigit := Decimal.isDigit_of_mem_print hb
    simp only [Decimal.isDigit, decide_eq_true_eq] at hdigit
    omega
  unfold intToString Decimal.printInt
  split_ifs
  · exact Utf8.valid_cons (by decide) hprint
  · exact hprint

/-- The byte behind a match is ASCII: a point or a blank. -/
theorem toNat_of_not_isCodeByte {b : UInt8} (h : isCodeByte b = false) : b.toNat < 128 := by
  simp only [isCodeByte, isSpace, Bool.not_eq_false', Bool.or_eq_true, decide_eq_true_eq] at h
  rcases h with rfl | rfl | h
  · decide
  · decide
  · omega

/-- **What is cut out of a UTF-8 title is UTF-8.** -/
theorem extractWorkCode_valid {title product code : Str} (hvalid : Utf8.Valid title)
    (h : extractWorkCode title = some (product, code)) :
    Utf8.Valid product ∧ Utf8.Valid code := by
  obtain ⟨before, after, full, rfl, m, rfl⟩ := extractWorkCode_eq_some h
  have hproduct := Utf8.valid_of_ascii (ascii_of_letters m.product_letters)
  refine ⟨hproduct, ?_⟩
  -- cut at the bracket, at the colon and at the two points
  have hbracket : ∀ b : UInt8, b = 91 ∨ b = 93 ∨ b = 58 ∨ b = 46 → b.toNat < 128 := by
    rintro b (rfl | rfl | rfl | rfl) <;> decide
  rw [m.text, Utf8.valid_split_iff (hbracket 91 (by simp)),
    Utf8.valid_split_iff (hbracket 93 (by simp)), ← List.nil_append (58 :: _),
    Utf8.valid_split_iff (hbracket 58 (by simp)), Utf8.valid_split_iff (hbracket 46 (by simp)),
    Utf8.valid_split_iff (hbracket 46 (by simp))] at hvalid
  obtain ⟨-, -, -, -, hsecond, hthird⟩ := hvalid
  have hcut : Utf8.Valid m.third := by
    cases hrest : m.rest with
    | nil => rwa [hrest, List.append_nil] at hthird
    | cons b rest =>
      have hhead := m.rest_head b (by rw [hrest]; rfl)
      rw [hrest, Utf8.valid_split_iff (toNat_of_not_isCodeByte hhead)] at hthird
      exact hthird.1
  exact hsecond.append (Utf8.valid_cons (by decide) hcut)

theorem updatedTitle_valid {productCode workCode originalTitle : Str} (cardId : Int64)
    (hproduct : Utf8.Valid productCode) (hwork : Utf8.Valid workCode)
    (htitle : Utf8.Valid originalTitle) :
    Utf8.Valid (updatedTitle productCode workCode cardId originalTitle) :=
  ((((((valid_lit _).append hproduct).append (valid_lit _)).append hwork).append
    (valid_lit _)).append (valid_intToString _)).append (valid_lit _) |>.append htitle

theorem resolveProductCodeFromRole_valid (role : Str) :
    Utf8.Valid (resolveProductCodeFromRole role) := by
  unfold resolveProductCodeFromRole
  split_ifs
  · exact Utf8.valid_nil
  · exact valid_lit _
  · exact valid_lit _
  · exact Utf8.valid_nil

end Kaiten

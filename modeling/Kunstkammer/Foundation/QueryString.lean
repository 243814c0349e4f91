import Mathlib.Data.List.TakeWhile
import Mathlib.Tactic
import Kunstkammer.Foundation.Marks

/-!
# Query strings

The text `name=value&name=value&…` of a list of pairs, and how it is read back: split at `&`, each
part at its first `=`, and both pieces percent-decoded.

* `percentDecode`, `render`, `parse`; `further` for the pairs that follow a first one;
* `Plain p`: the pair `p` has no delimiter in the way and no escape sequence;
* `parse_render_perm_iff`: a rendered list is recovered, in whatever order, exactly when all its
  pairs are plain.
-/

namespace QueryString

/-- The value of a hexadecimal digit. -/
def hexValue (b : UInt8) : Option ℕ :=
  let n := b.toNat
  if 48 ≤ n ∧ n ≤ 57 then some (n - 48)
  else if 65 ≤ n ∧ n ≤ 70 then some (n - 55)
  else if 97 ≤ n ∧ n ≤ 102 then some (n - 87)
  else none

/-- `%` and two hexadecimal digits are one byte; every other byte stands for itself. -/
def percentDecode : List UInt8 → List UInt8
  | [] => []
  | [a] => [a]
  | [a, b] => [a, b]
  | a :: b :: c :: rest =>
      if a = 37 then
        match hexValue b, hexValue c with
        | some x, some y => UInt8.ofNat (16 * x + y) :: percentDecode rest
        | _, _ => a :: percentDecode (b :: c :: rest)
      else a :: percentDecode (b :: c :: rest)

/-- The text of a pair. -/
def renderPair (p : List UInt8 × List UInt8) : List UInt8 := p.1 ++ 61 :: p.2

/-- The text of a list of pairs. -/
def render (pairs : List (List UInt8 × List UInt8)) : List UInt8 :=
  [38].intercalate (pairs.map renderPair)

/-- The text of further pairs. -/
def further (pairs : List (List UInt8 × List UInt8)) : List UInt8 :=
  pairs.flatMap fun p => 38 :: renderPair p

/-- A part of a query is split at its first `=`. -/
def readPart (part : List UInt8) : List UInt8 × List UInt8 :=
  (percentDecode (part.takeWhile (· ≠ 61)), percentDecode ((part.dropWhile (· ≠ 61)).drop 1))

/-- The pairs of a query. -/
def parse (query : List UInt8) : List (List UInt8 × List UInt8) :=
  (query.splitOn 38).map readPart

/-- A pair whose text can be read back. -/
structure Plain (p : List UInt8 × List UInt8) : Prop where
  name_amp : 38 ∉ p.1
  name_eq : 61 ∉ p.1
  name_escape : percentDecode p.1 = p.1
  value_amp : 38 ∉ p.2
  value_escape : percentDecode p.2 = p.2

/-! ### Rendering -/

theorem further_nil : further [] = [] := rfl

theorem further_eq_marks (pairs : List (List UInt8 × List UInt8)) :
    further pairs = Marks.marks 38 (pairs.map renderPair) := by
  rw [further, Marks.marks, List.flatMap_map]

theorem further_append (l m : List (List UInt8 × List UInt8)) :
    further (l ++ m) = further l ++ further m :=
  List.flatMap_append

theorem render_cons (p : List UInt8 × List UInt8) (pairs : List (List UInt8 × List UInt8)) :
    render (p :: pairs) = renderPair p ++ further pairs := by
  unfold render further
  induction pairs generalizing p with
  | nil => simp
  | cons q pairs ih =>
    rw [List.map_cons, List.map_cons, List.intercalate_cons_cons, ← List.map_cons, ih]
    simp

/-! ### Decoding -/

/-- Without a percent sign there is nothing to decode. -/
theorem percentDecode_of_notMem {l : List UInt8} (h : 37 ∉ l) : percentDecode l = l := by
  fun_induction percentDecode l with
  | case1 => rfl
  | case2 a => rfl
  | case3 a b => rfl
  | case4 b c rest x hx y hy ih => simp at h
  | case5 b c rest hnone ih => simp at h
  | case6 a b c rest ha ih => rw [ih fun hmem => h (List.mem_cons_of_mem _ hmem)]

/-- Decoding makes a text shorter, or leaves it alone. -/
theorem percentDecode_shortens (l : List UInt8) :
    percentDecode l = l ∨ (percentDecode l).length < l.length := by
  fun_induction percentDecode l with
  | case1 => exact Or.inl rfl
  | case2 a => exact Or.inl rfl
  | case3 a b => exact Or.inl rfl
  | case4 b c rest x hx y hy ih =>
    refine Or.inr ?_
    rcases ih with ih | ih
    · simp [ih]
    · simp only [List.length_cons]
      omega
  | case5 b c rest hnone ih =>
    rcases ih with ih | ih
    · exact Or.inl (by rw [ih])
    · exact Or.inr (by simpa using ih)
  | case6 a b c rest ha ih =>
    rcases ih with ih | ih
    · exact Or.inl (by rw [ih])
    · exact Or.inr (by simpa using ih)

theorem length_percentDecode_le (l : List UInt8) : (percentDecode l).length ≤ l.length := by
  rcases percentDecode_shortens l with h | h
  · rw [h]
  · exact h.le

theorem percentDecode_eq_of_length {l : List UInt8} (h : l.length ≤ (percentDecode l).length) :
    percentDecode l = l :=
  (percentDecode_shortens l).resolve_right h.not_gt

/-! ### Splitting -/

/-- There is one part more than there are separators. -/
theorem length_splitOn (a : UInt8) (l : List UInt8) : (l.splitOn a).length = l.count a + 1 := by
  induction l with
  | nil => rfl
  | cons b l ih =>
    rw [List.splitOn_cons_eq_if_modifyHead]
    by_cases h : b = a
    · simp [h, ih]
    · simp [h, ih]

theorem count_render {pairs : List (List UInt8 × List UInt8)} (hne : pairs ≠ []) :
    (render pairs).count 38 + 1 =
      pairs.length + (pairs.map fun p => p.1.count 38 + p.2.count 38).sum := by
  unfold render
  induction pairs with
  | nil => exact absurd rfl hne
  | cons p pairs ih =>
    cases pairs with
    | nil => simp [List.intercalate, renderPair]; omega
    | cons q pairs =>
      have ih := ih (List.cons_ne_nil _ _)
      rw [List.map_cons, List.map_cons, List.intercalate_cons_cons, ← List.map_cons,
        List.count_append, List.count_append]
      simp only [List.map_cons, List.sum_cons, List.length_cons, renderPair, List.count_append,
        List.count_cons] at ih ⊢
      simp at ih ⊢
      omega

/-- Pairs without `&` behind a text are parts of their own. -/
theorem splitOn_further (ss : List UInt8) {pairs : List (List UInt8 × List UInt8)}
    (h : ∀ p ∈ pairs, 38 ∉ p.1 ∧ 38 ∉ p.2) :
    (ss ++ further pairs).splitOn 38 = ss.splitOn 38 ++ pairs.map renderPair := by
  have hsegments : ∀ s ∈ pairs.map renderPair, 38 ∉ s := by
    intro s hs
    obtain ⟨p, hp, rfl⟩ := List.mem_map.1 hs
    simp [renderPair, h p hp]
  rw [further_eq_marks, Marks.splitOn_append_marks _ hsegments]

/-- Parts without `&` are the parts of the rendered list. -/
theorem parse_render_of_amp {pairs : List (List UInt8 × List UInt8)} (hne : pairs ≠ [])
    (h : ∀ p ∈ pairs, 38 ∉ p.1 ∧ 38 ∉ p.2) :
    parse (render pairs) = pairs.map fun p => readPart (renderPair p) := by
  unfold parse render
  rw [List.splitOn_intercalate]
  · rw [List.map_map]
    rfl
  · intro part hpart
    obtain ⟨p, hp, rfl⟩ := List.mem_map.1 hpart
    simp [renderPair, h p hp]
  · simpa using hne

/-- The first `=` behind a name without one is where the value begins. -/
theorem cut_renderPair {p : List UInt8 × List UInt8} (h : 61 ∉ p.1) :
    (renderPair p).takeWhile (· ≠ 61) = p.1 ∧
      ((renderPair p).dropWhile (· ≠ 61)).drop 1 = p.2 := by
  have hname : ∀ b ∈ p.1, decide (b ≠ 61) = true := fun b hb => by
    simp only [ne_eq, decide_not, Bool.not_eq_true', decide_eq_false_iff_not]
    rintro rfl
    exact h hb
  unfold renderPair
  rw [List.takeWhile_append_of_pos hname, List.dropWhile_append_of_pos hname]
  simp

/-- A name without `=` is found as it is. -/
theorem readPart_renderPair {p : List UInt8 × List UInt8} (h : 61 ∉ p.1) :
    readPart (renderPair p) = (percentDecode p.1, percentDecode p.2) := by
  obtain ⟨hname, hvalue⟩ := cut_renderPair h
  rw [readPart, hname, hvalue]

/-- The name that is read is no longer than the name that was written, and as long only if it was
written without `=` and without an escape sequence. -/
theorem length_readPart_fst (p : List UInt8 × List UInt8) :
    (readPart (renderPair p)).1.length ≤ p.1.length ∧
      ((readPart (renderPair p)).1.length = p.1.length → 61 ∉ p.1 ∧ percentDecode p.1 = p.1) := by
  by_cases h : 61 ∈ p.1
  · -- the name is cut at its first `=`
    have hcut : (p.1.takeWhile (· ≠ 61)).length < p.1.length := by
      refine lt_of_le_of_ne (List.takeWhile_prefix _).length_le fun hlen => ?_
      have hself := (List.takeWhile_prefix _).eq_of_length hlen
      have hall := List.takeWhile_eq_self_iff.1 hself 61 h
      simp at hall
    have hname : (renderPair p).takeWhile (· ≠ 61) = p.1.takeWhile (· ≠ 61) := by
      rw [renderPair, List.takeWhile_append, if_neg hcut.ne]
    have hle := length_percentDecode_le (p.1.takeWhile (· ≠ 61))
    unfold readPart
    rw [hname]
    dsimp only
    constructor
    · omega
    · intro hlen
      omega
  · rw [readPart_renderPair h]
    exact ⟨length_percentDecode_le _, fun hlen => ⟨h, percentDecode_eq_of_length hlen.ge⟩⟩

/-- Terms below the terms of an equal sum are equal. -/
theorem eq_of_sum_map_eq {α : Type*} {f g : α → ℕ} {l : List α} (hle : ∀ x ∈ l, f x ≤ g x)
    (hsum : (l.map f).sum = (l.map g).sum) : ∀ x ∈ l, f x = g x := by
  induction l with
  | nil => simp
  | cons x l ih =>
    have hl : (l.map f).sum ≤ (l.map g).sum :=
      List.sum_le_sum fun y hy => hle y (List.mem_cons_of_mem _ hy)
    have hx := hle x List.mem_cons_self
    rw [List.map_cons, List.map_cons, List.sum_cons, List.sum_cons] at hsum
    have hrest := ih (fun y hy => hle y (List.mem_cons_of_mem _ hy)) (by omega)
    intro y hy
    rcases List.mem_cons.1 hy with rfl | hy
    · omega
    · exact hrest y hy

/-- Plain pairs are read as they were written. -/
theorem parse_render_of_plain {pairs : List (List UInt8 × List UInt8)} (hne : pairs ≠ [])
    (h : ∀ p ∈ pairs, Plain p) : parse (render pairs) = pairs := by
  rw [parse_render_of_amp hne fun p hp => ⟨(h p hp).name_amp, (h p hp).value_amp⟩]
  have hread : pairs.map (fun p => readPart (renderPair p)) = pairs.map id :=
    List.map_congr_left fun p hp => by
      rw [readPart_renderPair (h p hp).name_eq, (h p hp).name_escape, (h p hp).value_escape]
      rfl
  rw [hread, List.map_id]

/-- **A list of pairs is recovered from its text exactly when every pair is plain.** -/
theorem parse_render_perm_iff {pairs : List (List UInt8 × List UInt8)} (hne : pairs ≠ []) :
    (parse (render pairs)).Perm pairs ↔ ∀ p ∈ pairs, Plain p := by
  constructor
  · intro hperm
    -- as many parts as pairs: no `&` but the delimiters
    have hlen := hperm.length_eq
    rw [parse, List.length_map, length_splitOn] at hlen
    have hcount := count_render hne
    have hsum : (pairs.map fun p => p.1.count 38 + p.2.count 38).sum =
        (pairs.map fun _ => 0).sum := by
      simp only [List.map_const', List.sum_replicate, smul_eq_mul, mul_zero]
      omega
    have hzero := eq_of_sum_map_eq (f := fun _ => 0) (fun _ _ => Nat.zero_le _) hsum.symm
    have hamp : ∀ p ∈ pairs, 38 ∉ p.1 ∧ 38 ∉ p.2 := fun p hp => by
      have hp := hzero p hp
      exact ⟨List.count_eq_zero.1 (by omega), List.count_eq_zero.1 (by omega)⟩
    rw [parse_render_of_amp hne hamp] at hperm
    -- the names have kept their lengths, so they are read as they were written
    have hnames := (hperm.map fun p => p.1.length).sum_eq
    rw [List.map_map] at hnames
    have hname : ∀ p ∈ pairs, 61 ∉ p.1 ∧ percentDecode p.1 = p.1 := fun p hp =>
      (length_readPart_fst p).2
        (eq_of_sum_map_eq (fun p _ => (length_readPart_fst p).1) hnames p hp)
    -- and then the values
    have hvalues := (hperm.map fun p => p.2.length).sum_eq
    rw [List.map_map] at hvalues
    have hread : pairs.map ((fun p => p.2.length) ∘ fun p => readPart (renderPair p)) =
        pairs.map fun p => (percentDecode p.2).length :=
      List.map_congr_left fun p hp => by simp [readPart_renderPair (hname p hp).1]
    rw [hread] at hvalues
    have hvalue := eq_of_sum_map_eq (fun p _ => length_percentDecode_le p.2) hvalues
    exact fun p hp => ⟨(hamp p hp).1, (hname p hp).1, (hname p hp).2, (hamp p hp).2,
      percentDecode_eq_of_length (hvalue p hp).ge⟩
  · intro hplain
    rw [parse_render_of_plain hne hplain]

end QueryString

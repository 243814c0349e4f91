import Mathlib.Tactic

/-!
# UTF-8 texts as lists of bytes

* `Valid`: the encoding of some characters;
* `Valid.append`, `valid_of_ascii`;
* `valid_split_iff`: a text may be cut at any ASCII byte.
-/

namespace Utf8

/-- The encoding of some characters. -/
def Valid (l : List UInt8) : Prop := ∃ m : List Char, l = m.flatMap String.utf8EncodeChar

/-- All bytes are ASCII. -/
def Ascii (l : List UInt8) : Prop := ∀ b ∈ l, b.toNat < 128

theorem valid_nil : Valid [] := ⟨[], rfl⟩

theorem Valid.append {l r : List UInt8} (hl : Valid l) (hr : Valid r) : Valid (l ++ r) := by
  obtain ⟨m, rfl⟩ := hl
  obtain ⟨n, rfl⟩ := hr
  exact ⟨m ++ n, List.flatMap_append.symm⟩

/-- An ASCII byte is the encoding of a character. -/
theorem encode_ascii {b : UInt8} (h : b.toNat < 128) :
    String.utf8EncodeChar (Char.ofNat b.toNat) = [b] := by
  have hvalid : b.toNat.isValidChar := Or.inl (by omega)
  have hval : (Char.ofNat b.toNat).val.toNat = b.toNat := by
    rw [Char.ofNat, dif_pos hvalid]
    rfl
  simp only [String.utf8EncodeChar, hval]
  rw [if_pos (by omega), UInt8.ofNat_toNat]

theorem valid_cons {b : UInt8} (h : b.toNat < 128) {l : List UInt8} (hl : Valid l) :
    Valid (b :: l) := by
  obtain ⟨m, rfl⟩ := hl
  refine ⟨Char.ofNat b.toNat :: m, ?_⟩
  rw [List.flatMap_cons, encode_ascii h, List.singleton_append]

theorem valid_of_ascii {l : List UInt8} (h : Ascii l) : Valid l := by
  induction l with
  | nil => exact valid_nil
  | cons b l ih =>
    exact valid_cons (h b List.mem_cons_self) (ih fun c hc => h c (List.mem_cons_of_mem _ hc))

/-- A character with an ASCII byte in its encoding is that byte. -/
theorem encode_eq_of_mem {c : Char} {b : UInt8} (hb : b ∈ String.utf8EncodeChar c)
    (h : b.toNat < 128) : String.utf8EncodeChar c = [b] := by
  have hlow (n : ℕ) (hle : 128 ≤ n) (hlt : n < 256) : b ≠ UInt8.ofNat n := by
    rintro rfl
    rw [UInt8.toNat_ofNat', Nat.mod_eq_of_lt hlt] at h
    omega
  unfold String.utf8EncodeChar at hb ⊢
  dsimp only at hb ⊢
  split_ifs at hb ⊢ with h1 h2 h3
  · rw [List.mem_singleton.1 hb]
  all_goals
    simp only [List.mem_cons, List.not_mem_nil, or_false] at hb
    exfalso
  · rcases hb with hb | hb
    · exact hlow _ (by omega) (by omega) hb
    · exact hlow _ (by omega) (by omega) hb
  · rcases hb with hb | hb | hb
    · exact hlow _ (by omega) (by omega) hb
    · exact hlow _ (by omega) (by omega) hb
    · exact hlow _ (by omega) (by omega) hb
  · rcases hb with hb | hb | hb | hb
    · exact hlow _ (by omega) (by omega) hb
    · exact hlow _ (by omega) (by omega) hb
    · exact hlow _ (by omega) (by omega) hb
    · exact hlow _ (by omega) (by omega) hb

/-- **A text may be cut at any ASCII byte.** -/
theorem valid_split_iff {l r : List UInt8} {b : UInt8} (h : b.toNat < 128) :
    Valid (l ++ b :: r) ↔ Valid l ∧ Valid r := by
  constructor
  · rintro ⟨m, hm⟩
    induction m generalizing l with
    | nil => simp at hm
    | cons c m ih =>
      rw [List.flatMap_cons, List.append_eq_append_iff] at hm
      rcases hm with ⟨t, hl, ht⟩ | ⟨t, hc, ht⟩
      · -- the byte is in the first character or right behind it
        cases t with
        | nil =>
          have hrest := ih (l := []) ht
          rw [List.append_nil] at hl
          exact ⟨⟨[c], by simp [hl]⟩, hrest.2⟩
        | cons a t =>
          obtain ⟨rfl, rfl⟩ := List.cons.inj ht
          have hchar := encode_eq_of_mem (c := c) (by rw [hl]; simp) h
          rw [hchar] at hl
          have hnil : l = [] := by
            cases l with
            | nil => rfl
            | cons x l => simp at hl
          subst hnil
          have htnil : t = [] := by simpa using hl
          subst htnil
          exact ⟨valid_nil, ⟨m, by simp⟩⟩
      · obtain ⟨hvalid, hr⟩ := ih ht.symm
        refine ⟨?_, hr⟩
        rw [hc]
        exact Valid.append ⟨[c], by simp⟩ hvalid
  · rintro ⟨hl, hr⟩
    exact hl.append (valid_cons h hr)

end Utf8

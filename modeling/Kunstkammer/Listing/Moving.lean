import Kunstkammer.Foundation.Recency
import Kunstkammer.Listing.Tokens

/-!
# Listing cards that change meanwhile

`handle_cards_list` asks for the cards in the order of their last update, the newest first, while
other users create and update cards between its requests.

* `cardsListLoop_pages`: the loop on pages that go on up to page `m`, for any parameters;
* `Observes`: a server whose list is `S k` when page `k` is asked for;
* `untouched_cards_listed`: a card that is not updated meanwhile is listed.
-/

namespace Kaiten

open Paging Recency

namespace CardOperations

variable {Text α : Type} {json : Nlohmann Text} {fromJson : Json → Option α}
  {client : Query CardFilterParams → ℤ × Text} {params : PaginationParams} {L : ℕ}
  {P : ℕ → List α}

/-- The request for page `k`. -/
def pageRequest (params : PaginationParams) (L k : ℕ) : Query CardFilterParams :=
  QueryBuilder.build { params with offset := ((k * L : ℕ) : ℤ) } {}

/-- **The loop makes the requests for the pages up to the first that is not full, and returns
these pages.** -/
theorem cardsListLoop_pages (hlimit : params.limit = L) (hL : 0 < L) (hL100 : L ≤ 100)
    (hpage : ∀ k, decodeItems json fromJson (client (pageRequest params L k)) = some (P k))
    {k d fuel : ℕ} (hfuel : d < fuel) (hfull : ∀ i < d, (P (k + i)).length = L)
    (hlast : (P (k + d)).length < L) (hfit : (k + d + 1) * L ≤ intMax) (cards : List α) :
    cardsListLoop json fromJson client params fuel ((k * L : ℕ) : ℤ) cards =
      ⟨(List.range' k (d + 1)).map (pageRequest params L),
        .returned 200 (cards ++ concat P k (d + 1))⟩ := by
  have hparams : params.limit ≤ 100 := by omega
  have hclamp : ∀ offset : ℤ, PaginationParams.clamp { params with offset := offset } =
      { params with offset := offset } := fun _ => clamp_of_le hparams
  have hresult : ∀ k, PageResult L P k
      (getCardsPaginated json fromJson client { params with offset := ((k * L : ℕ) : ℤ) } {}) := by
    intro k
    have h := hpage k
    unfold pageRequest at h
    unfold getCardsPaginated
    rw [hclamp]
    dsimp only
    rw [h]
    refine ⟨rfl, ?_⟩
    simp only [PaginatedResult.ofItems, hlimit, toSize_natCast (show L < 2 ^ 64 by omega)]
  have hnext : ∀ k : ℕ, (k + 1) * L ≤ intMax →
      addInt ((k * L : ℕ) : ℤ) params.limit = some (((k + 1) * L : ℕ) : ℤ) := by
    intro k hk
    have hsum : ((k * L : ℕ) : ℤ) + params.limit = (((k + 1) * L : ℕ) : ℤ) := by
      rw [hlimit]
      push_cast
      ring
    rw [addInt_eq, hsum, if_pos (fitsInt_natCast.2 hk)]
  induction d generalizing k fuel cards with
  | zero =>
    obtain ⟨fuel, rfl⟩ : ∃ f, fuel = f + 1 := ⟨fuel - 1, by omega⟩
    rw [Nat.add_zero] at hlast hfit
    have hmore : (P k).length ≠ L := hlast.ne
    rw [cardsListLoop]
    simp only [hclamp, (hresult k).items, (hresult k).hasMore, hnext k hfit, hmore,
      decide_false]
    by_cases hnil : P k = []
    · simp [hnil, pageRequest]
    · simp [hnil, pageRequest]
  | succ d ih =>
    obtain ⟨fuel, rfl⟩ : ∃ f, fuel = f + 1 := ⟨fuel - 1, by omega⟩
    have hk : (P k).length = L := hfull 0 (Nat.succ_pos d)
    have hne : (P k).isEmpty = false := by
      rw [List.isEmpty_eq_false_iff, ← List.length_pos_iff, hk]
      exact hL
    have hidx : ∀ i, k + 1 + i = k + (i + 1) := fun i => by omega
    have hfitk : (k + 1) * L ≤ intMax :=
      (Nat.mul_le_mul_right L (by omega : k + 1 ≤ k + (d + 1) + 1)).trans hfit
    have hrest := ih (k := k + 1) (show d < fuel by omega)
      (fun i hi => by rw [hidx]; exact hfull (i + 1) (by omega)) (by rwa [hidx])
      (by rwa [hidx]) (cards ++ P k)
    rw [cardsListLoop]
    simp only [hclamp, (hresult k).items, (hresult k).hasMore, hnext k hfitk, hk, hne, hrest,
      decide_true, if_true, Bool.false_eq_true, if_false]
    rw [Listing.prepend, concat_succ P k (d + 1), List.append_assoc, List.range'_succ]
    rfl

end CardOperations

namespace Modes

open CardOperations

variable {Text α κ : Type} [DecidableEq κ] {json : Nlohmann Text} {fromJson : Json → Option α}

/-- The server answers the request for page `k` from the list `S k`. -/
def Observes (json : Nlohmann Text) (fromJson : Json → Option α)
    (client : Query CardFilterParams → ℤ × Text) (S : ℕ → List α) : Prop :=
  ∀ k, decodeItems json fromJson (client (pageRequest cardsListParams 50 k)) =
    some ((pageRequest cardsListParams 50 k).slice (S k))

/-- **No card is lost that is left alone.**  While `handle_cards_list` asks for one page after the
other, any cards may be created or updated, which puts them in front.  As long as there are never
more than `N` cards, the listing ends, after the request for some page `m`; it has every card of
the beginning that was not updated before that request, and nothing the server has not shown. -/
theorem untouched_cards_listed {key : α → κ} {changes S : ℕ → List α}
    (hmoving : Moving key changes S) {client : Query CardFilterParams → ℤ × Text}
    (hserver : Observes json fromJson client S) {N : ℕ} (hN : ∀ k, (S k).length ≤ N)
    (hfit : N + 50 ≤ intMax) {fuel : ℕ} (hfuel : N < fuel) :
    ∃ m cards, (handleCardsList json fromJson client fuel).2 = .returned 200 cards ∧
      requests (handleCardsList json fromJson client fuel).1 =
        (List.range (m + 1)).map (pageRequest cardsListParams 50) ∧
      (∀ x ∈ S 0, Untouched key changes m x → x ∈ cards) ∧
      ∀ x ∈ cards, ∃ k ≤ m, x ∈ S k := by
  obtain ⟨m, hm, hlast, hfull⟩ := exists_end (L := 50) (by decide) hN
  have hpage : ∀ k, decodeItems json fromJson (client (pageRequest cardsListParams 50 k)) =
      some (page 50 (S k) k) := by
    intro k
    rw [hserver k, Query.slice_eq_page (L := 50) (k := k) rfl rfl]
  have hlistlen : ∀ k, (page 50 (S k) k).length = min 50 ((S k).length - k * 50) := fun k =>
    length_page 50 (S k) k
  have hloop := cardsListLoop_pages (L := 50) (k := 0) (d := m) rfl (by decide) (by decide)
    hpage (show m < fuel by omega)
    (fun i hi => by
      have hi' := hfull i hi
      rw [Nat.zero_add, hlistlen]
      omega)
    (by rw [Nat.zero_add, hlistlen]; omega) (by omega) []
  rw [Nat.zero_mul, Nat.cast_zero, cardsListLoop_eq, List.nil_append] at hloop
  refine ⟨m, _, congrArg Listing.outcome hloop, ?_, fun x hx huntouched => ?_, fun x hx => ?_⟩
  · rw [List.range_eq_range']
    exact congrArg Listing.requests hloop
  · exact hmoving.mem_concat hlast hx huntouched
  · obtain ⟨k, hk, hx⟩ := exists_mem_of_mem_concat hx
    exact ⟨k, Nat.lt_succ_iff.1 hk, List.mem_of_mem_drop (List.mem_of_mem_take hx)⟩

/-- A list that starts as `start` and is changed between the requests. -/
def schedule (start : List Int64) (changes : ℕ → List Int64) : ℕ → List Int64
  | 0 => start
  | k + 1 => (changes k).foldl (touch id) (schedule start changes k)

/-- A server with such a list; it knows by the offset which request it answers. -/
def scheduleClient (S : ℕ → List Int64) (q : Query CardFilterParams) : ℤ × Option Json :=
  slicesClient (S ((q.offset.getD 0).toNat / 50)) q

theorem observes_scheduleClient (S : ℕ → List Int64) :
    Observes .symbolic Json.getInt64 (scheduleClient S) S := by
  intro k
  have hoffset : ((pageRequest cardsListParams 50 k).offset.getD 0).toNat / 50 = k := by
    unfold pageRequest QueryBuilder.build
    dsimp only
    split_ifs
    · rw [Option.getD_some, Int.toNat_natCast, Nat.mul_div_cancel _ (by decide)]
    · rw [Option.getD_none]
      omega
  rw [scheduleClient, hoffset, slicesClient_serves]

/-- After the first request, the last of 51 cards is updated. -/
def oneUpdate : ℕ → List Int64
  | 0 => [50]
  | _ + 1 => []

def updatedCards : ℕ → List Int64 := schedule ((List.range 51).map Int64.ofNat) oneUpdate

theorem untouched_cards_listed_oneUpdate :
    ∃ cards, (handleCardsList .symbolic Json.getInt64 (scheduleClient updatedCards) 52).2 =
      .returned 200 cards ∧ 10 ∈ cards := by
  have hlength : ∀ k, (updatedCards k).length ≤ 51 := by
    intro k
    induction k with
    | zero => decide +kernel
    | succ k ih =>
      cases k with
      | zero => decide +kernel
      | succ k => exact ih
  have hmoving : Moving id oneUpdate updatedCards := fun _ => rfl
  obtain ⟨m, cards, hlist, -, huntouched, -⟩ := untouched_cards_listed hmoving
    (observes_scheduleClient updatedCards) hlength (by decide) (by decide : 51 < 52)
  refine ⟨cards, hlist, huntouched 10 (by decide +kernel) fun k _ a ha => ?_⟩
  cases k with
  | zero =>
    obtain rfl := List.mem_singleton.1 ha
    decide
  | succ k => exact absurd ha List.not_mem_nil

end Modes

end Kaiten

import Kunstkammer.Listing.Failures

/-!
# Batched and sequential listing

`get_all_cards_batched` against the loop of `handle_cards_list` in `modes.cpp`, which requests one
page after the other.

* `cardsListLoop`: the loop; it computes the offset of the next page even when there is none;
* `cardsListLoop_spec`: on pages that end at page `m`, it returns the pages up to `m`;
* `lossy_endsAt_min`: where a reader of a list stops when the pages before `n` are served;
* `getAllCardsBatched_eq_sequential`: both listings return the pages before the first one that
  fails, and only the batched one may run out of offsets before.
-/

namespace Kaiten.CardOperations

open Paging

section Model

variable {Text α : Type} (json : Nlohmann Text) (fromJson : Json → Option α)
  (client : Query CardFilterParams → ℤ × Text)

/-- The loop of `handle_cards_list`, from `current_offset = offset`.  It keeps no status; 200, with
which the other listings start, stands for it. -/
def cardsListLoop (paginationParams : PaginationParams) :
    ℕ → ℤ → List α → Listing CardFilterParams α
  | 0, _, _ => ⟨[], .running⟩
  | fuel + 1, offset, allCards =>
      let current := { paginationParams with offset := offset }
      let page := getCardsPaginated json fromJson client current {}
      let request := QueryBuilder.build current.clamp {}
      if page.items.isEmpty then ⟨[request], .returned 200 allCards⟩
      else
        match addInt offset paginationParams.limit with
        | none => ⟨[request], .overflow⟩
        | some next =>
            if page.hasMore then
              (cardsListLoop paginationParams fuel next (allCards ++ page.items)).prepend
                [request]
            else ⟨[request], .returned 200 (allCards ++ page.items)⟩

end Model

section Loop

variable {Text α : Type} {json : Nlohmann Text} {fromJson : Json → Option α}
  {client : Query CardFilterParams → ℤ × Text} {L : ℕ} {P : ℕ → List α}

/-- One round of the loop at a page with items. -/
theorem cardsListLoop_succ (hL100 : L ≤ 100) {k : ℕ}
    (hpage : PageResult L P k (getCardsPaginated json fromJson client (pageParams L k) {}))
    (hne : P k ≠ []) (hfit : (k + 1) * L ≤ intMax) (fuel : ℕ) (cards : List α) :
    cardsListLoop json fromJson client (pageParams L 0) (fuel + 1) ((k * L : ℕ) : ℤ) cards =
      if (P k).length = L then
        (cardsListLoop json fromJson client (pageParams L 0) fuel (((k + 1) * L : ℕ) : ℤ)
          (cards ++ P k)).prepend [pageQuery L {} k]
      else ⟨[pageQuery L {} k], .returned 200 (cards ++ P k)⟩ := by
  have hempty : (P k).isEmpty = false := by simpa using hne
  have hquery : QueryBuilder.build (pageParams L k) {} = pageQuery L {} k := rfl
  rw [cardsListLoop]
  simp only [pageParams_offset, clamp_pageParams hL100, hquery, hpage.items, hpage.hasMore, hempty,
    addInt_pageParams, hfit, if_true]
  by_cases hfull : (P k).length = L
  · simp [hfull]
  · simp [hfull]

/-- At an empty page the loop stops. -/
theorem cardsListLoop_empty (params : PaginationParams) (offset : ℤ)
    (hnil : (getCardsPaginated json fromJson client { params with offset := offset } {}).items =
      []) {fuel : ℕ} (hfuel : 0 < fuel) (cards : List α) :
    (cardsListLoop json fromJson client params fuel offset cards).outcome =
      .returned 200 cards := by
  obtain ⟨fuel, rfl⟩ := Nat.exists_eq_succ_of_ne_zero hfuel.ne'
  simp [cardsListLoop, hnil]

/-- **The loop returns the pages up to the last one.** -/
theorem cardsListLoop_spec (hL : 0 < L) (hL100 : L ≤ 100)
    (hpage : ∀ k, PageResult L P k (getCardsPaginated json fromJson client (pageParams L k) {}))
    {k d fuel : ℕ} (hend : EndsAt P L (k + d)) (hfuel : d < fuel) (hfit : (k + d) * L ≤ intMax)
    (hlast : P (k + d) ≠ [] → (k + d + 1) * L ≤ intMax) (cards : List α) :
    (cardsListLoop json fromJson client (pageParams L 0) fuel ((k * L : ℕ) : ℤ) cards).outcome =
      .returned 200 (cards ++ concat P k (d + 1)) := by
  induction d generalizing k fuel cards with
  | zero =>
    rw [Nat.add_zero] at hend hlast
    by_cases hnil : P k = []
    · have hitems := (hpage k).items
      rw [hnil] at hitems
      rw [concat_one, hnil, List.append_nil]
      exact cardsListLoop_empty (pageParams L 0) _ hitems hfuel cards
    · obtain ⟨fuel, rfl⟩ : ∃ f, fuel = f + 1 := ⟨fuel - 1, by omega⟩
      rw [cardsListLoop_succ hL100 (hpage k) hnil (hlast hnil), if_neg hend.last.ne, concat_one]
  | succ d ih =>
    obtain ⟨fuel, rfl⟩ : ∃ f, fuel = f + 1 := ⟨fuel - 1, by omega⟩
    have hfull : (P k).length = L := hend.full k (by omega)
    have hne : P k ≠ [] := by
      rw [← List.length_pos_iff, hfull]
      exact hL
    have hidx : k + (d + 1) = k + 1 + d := by ring
    have hk : (k + 1) * L ≤ intMax :=
      (Nat.mul_le_mul_right L (by omega : k + 1 ≤ k + (d + 1))).trans hfit
    rw [hidx] at hend hfit hlast
    rw [cardsListLoop_succ hL100 (hpage k) hne hk, if_pos hfull, Listing.prepend]
    exact (ih hend (by omega) hfit hlast (cards ++ P k)).trans
      (by rw [concat_succ P k (d + 1), List.append_assoc])

end Loop

/-! ### Where a listing ends -/

/-- The pages before `n` are served, and page `n` is not, or the list is over by then: the reader
stops at page `n` or at the end of the list, whichever comes first. -/
theorem lossy_endsAt_min {α : Type*} {L : ℕ} (hL : 0 < L) {S : List α} {fails : ℕ → Prop}
    [DecidablePred fails] {n : ℕ} (hok : ∀ k < n, ¬ fails k)
    (hn : n * L < S.length → fails n) :
    EndsAt (lossy (page L S) fails) L (min n (S.length / L)) ∧
      (lossy (page L S) fails (min n (S.length / L)) ≠ [] ↔
        S.length ≤ n * L ∧ S.length % L ≠ 0) ∧
      concat (lossy (page L S) fails) 0 (min n (S.length / L) + 1) = S.take (n * L) := by
  by_cases hover : S.length ≤ n * L
  · -- every page with items is served
    have hle : S.length / L ≤ n := by
      rw [← Nat.lt_succ_iff, Nat.div_lt_iff_lt_mul hL, Nat.succ_mul]
      omega
    have hall : ∀ k, k * L < S.length → ¬ fails k := fun k hk =>
      hok k (lt_of_mul_lt_mul_right (hk.trans_le hover) (Nat.zero_le L))
    rw [lossy_page_eq hL hall, min_eq_right hle, page_length_div_ne_nil_iff hL,
      concat_page_all hL, List.take_of_length_le hover]
    exact ⟨page_endsAt hL S, by simp [hover], rfl⟩
  · rw [not_le] at hover
    have hfail := hn hover
    have hle : n ≤ S.length / L := (Nat.le_div_iff_mul_le hL).2 hover.le
    rw [min_eq_left hle, lossy_of_fails hfail, concat_lossy_of_fails hfail hok]
    exact ⟨lossy_endsAt_of_fails hL (page_endsAt hL S) hle hfail hok, by simp; omega, rfl⟩

/-- The pages whose offsets the batched listing computes when the pages before `n` are served and
page `n` is not, or the list is over by then. -/
def pagesReached (threads L length n : ℕ) : ℕ :=
  pagesUntil threads (min n (length / L)) (length ≤ n * L ∧ length % L ≠ 0)

section Compare

variable {Text α : Type} {json : Nlohmann Text} {fromJson : Json → Option α}
  {client : Query CardFilterParams → ℤ × Text} {S : List α}

/-- A page size that is not positive lists nothing, in one request. -/
theorem listings_of_nonpos {pageSize : ℤ} (h : pageSize ≤ 0)
    (hserves : Serves json fromJson client {} S) (hardwareConcurrency : ℕ) {fuel : ℕ}
    (hfuel : 0 < fuel) :
    (getAllCardsBatched json fromJson client hardwareConcurrency {} pageSize fuel).outcome =
        .returned 200 [] ∧
      (cardsListLoop json fromJson client { limit := pageSize } fuel 0 []).outcome =
        .returned 200 [] := by
  have hclamp : PaginationParams.clamp { limit := pageSize, offset := 0 } =
      { limit := pageSize, offset := 0 } := if_neg (by dsimp only; omega)
  have hnil : (getCardsPaginated json fromJson client { limit := pageSize, offset := 0 } {}).items =
      [] := by
    unfold getCardsPaginated
    rw [hclamp]
    dsimp only
    rcases hserves (QueryBuilder.build { limit := pageSize, offset := 0 } {}) rfl with hf | hk
    · rw [hf]
    · have hslice : (QueryBuilder.build { limit := pageSize, offset := 0 } {}).slice S = [] := by
        have hlimit : (QueryBuilder.build { limit := pageSize, offset := 0 } {}).limit.toNat = 0 :=
          Int.toNat_eq_zero.2 h
        rw [Query.slice, hlimit, List.take_zero]
      rw [hk, hslice]
      rfl
  have hsize : ¬ pageSize > 100 := by omega
  refine ⟨?_, cardsListLoop_empty { limit := pageSize } 0 hnil hfuel []⟩
  unfold getAllCardsBatched
  rw [if_neg hsize]
  simp [hnil]

section Served

variable (hserves : Serves json fromJson client {} S) {pageSize : ℤ} (hpos : 1 ≤ pageSize)
  {L : ℕ} (hL : L = pageLimit pageSize) {fuel : ℕ} (hfuel : S.length < fuel) {n : ℕ}
  (hok : ∀ k < n, ¬ Fails json fromJson client (pageQuery L {} k))
  (hn : n * L < S.length → Fails json fromJson client (pageQuery L {} n))

include hserves hpos hL hfuel hok hn

/-- The batched listing returns the pages before `n`, if their offsets fit into `int`. -/
theorem getAllCardsBatched_outcome (hardwareConcurrency : ℕ) {r : Outcome α}
    (hr : r =
      (getAllCardsBatched json fromJson client hardwareConcurrency {} pageSize fuel).outcome) :
    (pagesReached (maxThreads hardwareConcurrency) L S.length n * L ≤ intMax →
      r = .returned 200 (S.take (n * L))) ∧
    (intMax < pagesReached (maxThreads hardwareConcurrency) L S.length n * L → r = .overflow) := by
  have hL0 : 0 < L := by rw [hL]; exact pageLimit_pos hpos
  have hreads := reads_getAllCardsBatched hardwareConcurrency fuel hpos hL hserves
  obtain ⟨hend, hshort, hconcat⟩ := lossy_endsAt_min hL0 hok hn
  have hm : min n (S.length / L) < fuel :=
    ((min_le_right _ _).trans (Nat.div_le_self _ _)).trans_lt hfuel
  have hreached : pagesReached (maxThreads hardwareConcurrency) L S.length n =
      pagesUntil (maxThreads hardwareConcurrency) (min n (S.length / L))
        (lossy (page L S) (fun k => Fails json fromJson client (pageQuery L {} k))
          (min n (S.length / L)) ≠ []) := by
    simp only [pagesReached, hshort]
  rw [hreached, hr]
  constructor
  · intro hfit
    have hreturned := hreads.returned _ hm hend hfit
    rw [hconcat] at hreturned
    exact congrArg Listing.outcome hreturned
  · intro hout
    exact hreads.overflow _ hm hend hout

/-- The sequential listing returns the pages before `n`, if the offsets of the pages it requests
and the one after its last page with items fit into `int`. -/
theorem cardsListLoop_outcome (hfit : min n (S.length / L) * L ≤ intMax)
    (hlast : S.length ≤ n * L ∧ S.length % L ≠ 0 → (min n (S.length / L) + 1) * L ≤ intMax) :
    (cardsListLoop json fromJson client { limit := if pageSize > 100 then 100 else pageSize } fuel
      0 []).outcome = .returned 200 (S.take (n * L)) := by
  have hL0 : 0 < L := by rw [hL]; exact pageLimit_pos hpos
  have hL100 : L ≤ 100 := by rw [hL]; exact pageLimit_le pageSize
  obtain ⟨hend, hshort, hconcat⟩ := lossy_endsAt_min hL0 hok hn
  have hm : min n (S.length / L) < fuel :=
    ((min_le_right _ _).trans (Nat.div_le_self _ _)).trans_lt hfuel
  have hpage : ∀ k, PageResult L
      (lossy (page L S) fun k => Fails json fromJson client (pageQuery L {} k)) k
      (getCardsPaginated json fromJson client (pageParams L k) {}) := fun k =>
    pageResult_getCardsPaginated hL0 hL100
      (hserves.items (fun _ => rfl) (fun k => pageQuery_slice L {} k S) k).symm
  have hstart : ({ limit := if pageSize > 100 then 100 else pageSize } : PaginationParams) =
      pageParams L 0 := by
    rw [limit_eq_pageLimit hpos, ← hL]
    simp [pageParams]
  have hspec := cardsListLoop_spec hL0 hL100 hpage (k := 0) (by rwa [Nat.zero_add]) hm
    (by rwa [Nat.zero_add]) (by rw [Nat.zero_add]; exact fun h => hlast (hshort.1 h)) []
  rw [Nat.zero_mul, Nat.cast_zero, hconcat, ← hstart] at hspec
  exact hspec

end Served

/-- The batched listing reaches every page the sequential one requests. -/
theorem lt_pagesReached (hardwareConcurrency L length n : ℕ) :
    min n (length / L) < pagesReached (maxThreads hardwareConcurrency) L length n :=
  lt_pagesUntil (maxThreads_pos hardwareConcurrency) _ _

/-- The pages before some `n` are served, and page `n` is not, or the list is over by then. -/
theorem exists_pages_before_failure {L : ℕ} (hL : 0 < L) (length : ℕ) (fails : ℕ → Prop) :
    ∃ n, (∀ k < n, ¬ fails k) ∧ (n * L < length → fails n) := by
  by_cases h : ∃ k, fails k
  · obtain ⟨k, hk⟩ := h
    obtain ⟨p, -, hp, hfirst⟩ := exists_first fails hk
    exact ⟨p, hfirst, fun _ => hp⟩
  · push Not at h
    exact ⟨length, fun k _ => h k, fun hlt => absurd hlt (Nat.le_mul_of_pos_right _ hL).not_gt⟩

/-- **The batched listing refines the sequential one.**  For every page size and thread count and
every pattern of failing pages, both listings return the pages before the first one that fails,
or all of them, whenever the offsets of the batches stay within `int`; otherwise the batched
listing overflows. -/
theorem getAllCardsBatched_eq_sequential (hserves : Serves json fromJson client {} S)
    (hardwareConcurrency : ℕ) (pageSize : ℤ) {fuel : ℕ} (hfuel : S.length < fuel) {L : ℕ}
    (hL : L = pageLimit pageSize) :
    let batched :=
      (getAllCardsBatched json fromJson client hardwareConcurrency {} pageSize fuel).outcome
    let sequential := (cardsListLoop json fromJson client
      { limit := if pageSize > 100 then 100 else pageSize } fuel 0 []).outcome
    let failed k := Fails json fromJson client (pageQuery L {} k)
    ∃ n, (∀ k < n, ¬ failed k) ∧ (0 < L → n * L < S.length → failed n) ∧
      let reached := pagesReached (maxThreads hardwareConcurrency) L S.length n * L
      (reached ≤ intMax →
        batched = .returned 200 (S.take (n * L)) ∧ sequential = .returned 200 (S.take (n * L))) ∧
      (intMax < reached → batched = .overflow) := by
  intro batched sequential failed
  rcases le_or_gt pageSize 0 with hnonpos | hpos
  · -- nothing is requested after the first page
    have hzero : L = 0 := by rw [hL]; unfold pageLimit; omega
    have hsize : (if pageSize > 100 then 100 else pageSize) = pageSize := if_neg (by omega)
    refine ⟨0, by simp, by simp [hzero], fun _ => ?_, fun hlt => ?_⟩
    · rw [Nat.zero_mul, List.take_zero]
      simp only [batched, sequential, hsize]
      exact listings_of_nonpos hnonpos hserves hardwareConcurrency (Nat.zero_lt_of_lt hfuel)
    · rw [hzero, Nat.mul_zero] at hlt
      exact absurd hlt (Nat.not_lt_zero _)
  · have hL0 : 0 < L := by rw [hL]; exact pageLimit_pos hpos
    obtain ⟨n, hok, hn⟩ := exists_pages_before_failure hL0 S.length failed
    obtain ⟨hret, hover⟩ :=
      getAllCardsBatched_outcome hserves hpos hL hfuel hok hn hardwareConcurrency rfl
    refine ⟨n, hok, fun _ => hn, fun hfit => ⟨hret hfit, ?_⟩, hover⟩
    have hnext : (min n (S.length / L) + 1) * L ≤ intMax :=
      (Nat.mul_le_mul_right L (lt_pagesReached hardwareConcurrency L S.length n)).trans hfit
    exact cardsListLoop_outcome hserves hpos hL hfuel hok hn
      ((Nat.mul_le_mul_right L (Nat.le_succ _)).trans hnext) fun _ => hnext

end Compare

/-- The server of the list `S`, known by ids, that answers every request. -/
def steadyClient (S : List Int64) : Query CardFilterParams → ℤ × Option Json :=
  flakyClient (fun id : Int64 => .integer id.toInt) S fun _ => false

theorem serves_steadyClient (S : List Int64) :
    Serves .symbolic Json.getInt64 (steadyClient S) {} S :=
  serves_flakyClient Json.getInt64_integer S _ _

theorem steadyClient_ok (S : List Int64) (q : Query CardFilterParams) :
    ¬ Fails .symbolic Json.getInt64 (steadyClient S) q := fun h =>
  Option.some_ne_none _ ((decodeItems_pageResponse Json.getInt64_integer (q.slice S)).symm.trans h)

theorem getAllCardsBatched_eq_sequential_three :
    (getAllCardsBatched .symbolic Json.getInt64 (steadyClient [1, 2, 3]) 4 {} 2 4).outcome =
      .returned 200 [1, 2, 3] := by
  obtain ⟨n, -, hn, hret, -⟩ := getAllCardsBatched_eq_sequential (serves_steadyClient [1, 2, 3]) 4
    2 (by decide : ([1, 2, 3] : List Int64).length < 4) rfl
  -- no page fails, so the pages before `n` are the whole list
  have hlen : 3 ≤ n * 2 := by
    by_contra hlt
    exact steadyClient_ok _ _ (hn (by decide) (not_le.1 hlt))
  have hwhole : ([1, 2, 3] : List Int64).take (n * 2) = [1, 2, 3] := List.take_of_length_le hlen
  have hreached : pagesReached (maxThreads 4) 2 3 n = 5 := by
    have hmin : min n (3 / 2) = 1 := by omega
    simp [pagesReached, hmin, hlen]
    decide
  have hfit : pagesReached (maxThreads 4) 2 3 n * 2 ≤ intMax := by rw [hreached]; decide
  exact (hret hfit).1.trans (congrArg (Outcome.returned 200) hwhole)

/-- With 2147483600 cards the sequential listing returns them all, and the batches, which look
ahead, run out of offsets. -/
theorem listings_of_long {S : List Int64} (hlen : S.length = 2147483600) {fuel : ℕ}
    (hfuel : S.length < fuel) :
    (getAllCardsBatched .symbolic Json.getInt64 (steadyClient S) 6 {} 100 fuel).outcome =
        .overflow ∧
      (cardsListLoop .symbolic Json.getInt64 (steadyClient S) { limit := 100 } fuel 0 []).outcome =
        .returned 200 S := by
  have hok : ∀ k < 21474836, ¬ Fails .symbolic Json.getInt64 (steadyClient S)
      (pageQuery 100 {} k) := fun k _ => steadyClient_ok S _
  have hn : 21474836 * 100 < S.length → Fails .symbolic Json.getInt64 (steadyClient S)
      (pageQuery 100 {} 21474836) := fun h => by omega
  have hlimit : 100 = pageLimit 100 := rfl
  have hbatched := getAllCardsBatched_outcome (serves_steadyClient S) (by decide) hlimit hfuel hok
    hn 6 rfl
  have hsequential := cardsListLoop_outcome (serves_steadyClient S) (by decide) hlimit hfuel hok hn
  rw [hlen] at hbatched hsequential
  constructor
  · exact hbatched.2 (by decide)
  · have hlist := hsequential (by decide) (by decide)
    rw [List.take_of_length_le (by omega)] at hlist
    exact hlist

theorem long_list_overflows_batches :
    (getAllCardsBatched .symbolic Json.getInt64 (steadyClient (List.replicate 2147483600 1)) 6 {}
      100 2147483601).outcome = .overflow ∧
    (cardsListLoop .symbolic Json.getInt64 (steadyClient (List.replicate 2147483600 1))
      { limit := 100 } 2147483601 0 []).outcome =
        .returned 200 (List.replicate 2147483600 1) :=
  listings_of_long List.length_replicate (by rw [List.length_replicate]; decide)

end Kaiten.CardOperations

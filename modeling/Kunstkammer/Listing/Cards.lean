import Kunstkammer.Listing.Pagination

/-!
# Listing all cards

`get_cards_paginated`, `fetch_page_result`, `get_all_cards_batched` and `get_all_cards` of
`card_operations.cpp`.  The first page is fetched with the caller's filters; the other pages are
requested in batches of `maxThreads` by `fetchPageResult`, and a batch is collected in the order
of its offsets.  Nothing here looks into a card, so `α` and its decoder are arbitrary.

* `collectBatch_full`, `collectBatch_last`: what the collection of one batch yields;
* `batchLoop_spec`: on pages that end at page `m`, the loop returns exactly the pages up to `m`,
  having requested whole batches;
* `getAllCardsBatched_short`, `getAllCardsBatched_spec`: the two kinds of runs, by whether the
  first page is full.
-/

namespace Kaiten.CardOperations

open Paging

section Model

variable {Text α : Type} (json : Nlohmann Text) (fromJson : Json → Option α)
  (client : Query CardFilterParams → ℤ × Text)

/-- `get_cards_paginated`. -/
def getCardsPaginated (pagination : PaginationParams) (filters : CardFilterParams) :
    PaginatedResult α :=
  let safePagination := pagination.clamp
  match decodeItems json fromJson (client (QueryBuilder.build safePagination filters)) with
  | some items => .ofItems safePagination items
  | none => {}

/-- `fetch_page_result`: the filters parameter is left at its default. -/
def fetchPageResult (params : PaginationParams) : PaginatedResult α :=
  getCardsPaginated json fromJson client params {}

/-- The offsets of a batch of `n` requests and the `current_offset` after it. -/
def batchOffsets (limit : ℤ) : ℕ → ℤ → Option (List ℤ × ℤ)
  | 0, offset => some ([], offset)
  | n + 1, offset =>
      (addInt offset limit).bind fun next =>
        (batchOffsets limit n next).map fun batch => (offset :: batch.1, batch.2)

/-- Collect the futures of a batch in order: the cards so far, `has_more_pages` and
`last_status`.  `none` is a future whose `get` throws. -/
def collectBatch :
    List (Option (PaginatedResult α)) → List α → Bool → ℤ → List α × Bool × ℤ
  | [], cards, hasMorePages, lastStatus => (cards, hasMorePages, lastStatus)
  | none :: futures, cards, hasMorePages, _ => collectBatch futures cards hasMorePages 500
  | some page :: futures, cards, hasMorePages, lastStatus =>
      if page.items.isEmpty then (cards, false, lastStatus)
      else collectBatch futures (cards ++ page.items) (hasMorePages || page.hasMore) lastStatus

/-- The batch loop of `get_all_cards_batched`, from `current_offset = offset`. -/
def batchLoop (maxThreads : ℕ) (params : PaginationParams) :
    ℕ → ℤ → List α → ℤ → Listing CardFilterParams α
  | 0, _, _, _ => ⟨[], .running⟩
  | fuel + 1, offset, cards, lastStatus =>
      match batchOffsets params.limit maxThreads offset with
      | none => ⟨[], .overflow⟩
      | some (offsets, next) =>
          let requests := offsets.map fun o =>
            QueryBuilder.build { params with offset := o }.clamp {}
          -- no exception leaves `get_cards_paginated`, so every future holds a page
          let futures := offsets.map fun o =>
            some (fetchPageResult json fromJson client { params with offset := o })
          match collectBatch futures cards false lastStatus with
          | (cards, true, lastStatus) =>
              (batchLoop maxThreads params fuel next cards lastStatus).prepend requests
          | (cards, false, lastStatus) => ⟨requests, .returned lastStatus cards⟩

/-- The number of threads of a batch, from `std::thread::hardware_concurrency()`. -/
def maxThreads (hardwareConcurrency : ℕ) : ℕ :=
  min (if hardwareConcurrency = 0 then 4 else hardwareConcurrency) 6

/-- `get_all_cards_batched`. -/
def getAllCardsBatched (hardwareConcurrency : ℕ) (filters : CardFilterParams) (pageSize : ℤ)
    (fuel : ℕ) : Listing CardFilterParams α :=
  let params : PaginationParams :=
    { limit := if pageSize > 100 then 100 else pageSize, offset := 0 }
  let first := getCardsPaginated json fromJson client params filters
  let request := QueryBuilder.build params.clamp filters
  if first.items.isEmpty then ⟨[request], .returned 200 []⟩
  else if first.hasMore then
    (batchLoop json fromJson client (maxThreads hardwareConcurrency) params fuel params.limit
      first.items 200).prepend [request]
  else ⟨[request], .returned 200 first.items⟩

/-- `get_all_cards`. -/
def getAllCards (hardwareConcurrency : ℕ) (filters : CardFilterParams) (pageSize : ℤ)
    (fuel : ℕ) : Listing CardFilterParams α :=
  getAllCardsBatched json fromJson client hardwareConcurrency filters pageSize fuel

end Model

theorem maxThreads_pos (hardwareConcurrency : ℕ) : 0 < maxThreads hardwareConcurrency := by
  unfold maxThreads; split_ifs <;> omega

theorem maxThreads_le (hardwareConcurrency : ℕ) : maxThreads hardwareConcurrency ≤ 6 :=
  min_le_right _ _

/-! ### One batch -/

/-- The batch of `n` pages from page `k` on: its offsets fit into `int` as long as the offset
after them does. -/
theorem batchOffsets_eq (limit : ℤ) (n k : ℕ) (hk : n = 0 → FitsInt (k * limit)) :
    batchOffsets limit n (k * limit) =
      if FitsInt ((k + n : ℕ) * limit) then
        some ((List.range' k n).map fun i : ℕ => i * limit, (k + n : ℕ) * limit)
      else none := by
  induction n generalizing k with
  | zero => simp [batchOffsets, hk]
  | succ n ih =>
    have hnext : (k : ℤ) * limit + limit = (k + 1 : ℕ) * limit := by push_cast; ring
    rw [batchOffsets, addInt_eq, hnext]
    by_cases h : FitsInt ((k + 1 : ℕ) * limit)
    · rw [if_pos h, Option.bind_some, ih (k + 1) fun _ => h, show k + 1 + n = k + (n + 1) by ring]
      split_ifs <;> simp [List.range'_succ]
    · have hover : ¬ FitsInt ((k + (n + 1) : ℕ) * limit) := fun hfits =>
        h (antitone_fitsInt_mul limit (by omega : k + 1 ≤ k + (n + 1)) hfits)
      rw [if_neg h, if_neg hover, Option.bind_none]

theorem batchOffsets_page (L : ℕ) (n k : ℕ) (hk : k * L ≤ intMax) :
    batchOffsets (L : ℤ) n ((k * L : ℕ) : ℤ) =
      if (k + n) * L ≤ intMax then
        some ((List.range' k n).map fun i => ((i * L : ℕ) : ℤ), (((k + n) * L : ℕ) : ℤ))
      else none := by
  have hbatch := batchOffsets_eq (L : ℤ) n k fun _ => by
    exact_mod_cast fitsInt_natCast.2 hk
  simp only [← Nat.cast_mul, fitsInt_natCast] at hbatch
  exact hbatch

section Collect

variable {α : Type} {L : ℕ} {P : ℕ → List α} {fetch : ℕ → PaginatedResult α}

/-- Full pages at the front of a batch are added to the cards. -/
theorem collectBatch_full (hL : 0 < L) {k n : ℕ}
    (hfetch : ∀ i, k ≤ i → PageResult L P i (fetch i))
    (hfull : ∀ i, k ≤ i → i < k + n → (P i).length = L)
    (rest : List (Option (PaginatedResult α))) (cards : List α) (more : Bool) (status : ℤ) :
    collectBatch ((List.range' k n).map (fun i => some (fetch i)) ++ rest) cards more status =
      collectBatch rest (cards ++ concat P k n) (more || decide (0 < n)) status := by
  induction n generalizing k cards more with
  | zero => simp
  | succ n ih =>
    have hk : (P k).length = L := hfull k le_rfl (by omega)
    have hne : (fetch k).items.isEmpty = false := by
      rw [(hfetch k le_rfl).items, List.isEmpty_eq_false_iff, ← List.length_pos_iff, hk]; exact hL
    rw [List.range'_succ, List.map_cons, List.cons_append, collectBatch, hne,
      if_neg Bool.false_ne_true, ih (fun i h => hfetch i (by omega))
        (fun i h1 h2 => hfull i (by omega) (by omega)),
      (hfetch k le_rfl).items, (hfetch k le_rfl).hasMore, concat_succ, List.append_assoc]
    simp [hk]

/-- A batch that reaches the last page `k + d` of the listing.  It asks for more pages only when
the last page has items, closes the batch and is not its only page. -/
theorem collectBatch_last (hL : 0 < L) {k d n : ℕ}
    (hfetch : ∀ i, k ≤ i → PageResult L P i (fetch i)) (hend : EndsAt P L (k + d)) (hn : d < n)
    (cards : List α) (status : ℤ) :
    collectBatch ((List.range' k n).map fun i => some (fetch i)) cards false status =
      (cards ++ concat P k (d + 1), decide (P (k + d) ≠ [] ∧ d + 1 = n ∧ 0 < d), status) := by
  obtain ⟨e, rfl⟩ : ∃ e, n = d + (e + 1) := ⟨n - d - 1, by omega⟩
  rw [← List.range'_append_1, List.map_append,
    collectBatch_full hL hfetch (fun i _ h => hend.full i h), Bool.false_or, List.range'_succ,
    List.map_cons, collectBatch, (hfetch _ (by omega)).items, (hfetch _ (by omega)).hasMore,
    concat_add, concat_one]
  by_cases hnil : P (k + d) = []
  · simp [hnil]
  · have hshort : decide ((P (k + d)).length = L) = false := by simp [hend.last.ne]
    rw [if_neg (by simpa using hnil), hshort, Bool.or_false]
    cases e with
    | zero => simp [collectBatch, hnil]
    | succ e =>
      -- the page after a short one is empty and resets `has_more_pages`
      rw [List.range'_succ, List.map_cons, collectBatch, (hfetch _ (by omega)).items,
        hend.after hnil]
      simp

end Collect

/-! ### The batch loop -/

/-- The number of batches of `T` pages requested until page `d` of them is seen to be the last
one, `short` telling whether that page has items. -/
def batches (T d : ℕ) (short : Bool) : ℕ :=
  d / T + 1 + if short ∧ d % T + 1 = T ∧ 1 < T then 1 else 0

theorem batches_pos (T d : ℕ) (short : Bool) : 0 < batches T d short :=
  Nat.add_pos_left (Nat.succ_pos _) _

theorem batches_add (T d : ℕ) (short : Bool) (hT : 0 < T) :
    batches T (d + T) short = batches T d short + 1 := by
  unfold batches
  rw [Nat.add_div_right d hT, Nat.add_mod_right]
  omega

section Loop

variable {Text α : Type} (json : Nlohmann Text) (fromJson : Json → Option α)
  (client : Query CardFilterParams → ℤ × Text)

/-- The request for page `k`. -/
def pageQuery (L : ℕ) (filters : CardFilterParams) (k : ℕ) : Query CardFilterParams :=
  QueryBuilder.build (pageParams L k) filters

variable {L T : ℕ} {P : ℕ → List α}
  (hfetch : ∀ i, 0 < i → PageResult L P i (fetchPageResult json fromJson client (pageParams L i)))

/-- One round of the loop, from page `k`. -/
theorem batchLoop_succ (hL100 : L ≤ 100) (fuel k : ℕ) (hk : k * L ≤ intMax)
    (cards : List α) (status : ℤ) :
    batchLoop json fromJson client T (pageParams L 0) (fuel + 1) ((k * L : ℕ) : ℤ)
        cards status =
      if (k + T) * L ≤ intMax then
        match collectBatch ((List.range' k T).map fun i =>
            some (fetchPageResult json fromJson client (pageParams L i))) cards false status with
        | (cards, true, status) =>
            (batchLoop json fromJson client T (pageParams L 0) fuel
              (((k + T) * L : ℕ) : ℤ) cards status).prepend ((List.range' k T).map (pageQuery L {}))
        | (cards, false, status) => ⟨(List.range' k T).map (pageQuery L {}), .returned status cards⟩
      else ⟨[], .overflow⟩ := by
  have hquery : (fun i => QueryBuilder.build (pageParams L i).clamp {}) = pageQuery L {} := by
    funext i; rw [clamp_pageParams hL100, pageQuery]
  rw [batchLoop, show (pageParams L 0).limit = (L : ℤ) from rfl, batchOffsets_page L T k hk]
  by_cases h : (k + T) * L ≤ intMax
  · rw [if_pos h, if_pos h]
    rw [← hquery]
    simp only [List.map_map, Function.comp_def]
    rfl
  · rw [if_neg h, if_neg h]

variable {json fromJson client}

include hfetch

/-- A batch of full pages: the loop goes on with the next batch. -/
theorem batchLoop_full (hL : 0 < L) (hL100 : L ≤ 100) (hT : 0 < T) {k : ℕ} (hpos : 0 < k)
    (hfull : ∀ i, k ≤ i → i < k + T → (P i).length = L) (hfit : (k + T) * L ≤ intMax)
    (fuel : ℕ) (cards : List α) (status : ℤ) :
    batchLoop json fromJson client T (pageParams L 0) (fuel + 1)
        ((k * L : ℕ) : ℤ) cards status =
      (batchLoop json fromJson client T (pageParams L 0) fuel
        (((k + T) * L : ℕ) : ℤ) (cards ++ concat P k T) status).prepend
          ((List.range' k T).map (pageQuery L {})) := by
  have hk : k * L ≤ intMax := (Nat.mul_le_mul_right L (Nat.le_add_right _ _)).trans hfit
  have hcollect := collectBatch_full hL (fun i h => hfetch i (by omega)) hfull [] cards false status
  rw [List.append_nil] at hcollect
  rw [batchLoop_succ _ _ _ hL100 _ _ hk, if_pos hfit, hcollect, collectBatch,
    decide_eq_true hT]
  rfl

/-- From an empty page the loop stops after one batch. -/
theorem batchLoop_empty (hL100 : L ≤ 100) (hT : 0 < T) {fuel k : ℕ} (hfuel : 0 < fuel)
    (hpos : 0 < k) (hk : k * L ≤ intMax) (hnil : P k = []) (cards : List α) (status : ℤ) :
    batchLoop json fromJson client T (pageParams L 0) fuel ((k * L : ℕ) : ℤ)
        cards status =
      if (k + T) * L ≤ intMax then
        ⟨(List.range' k T).map (pageQuery L {}), .returned status cards⟩
      else ⟨[], .overflow⟩ := by
  obtain ⟨fuel, rfl⟩ := Nat.exists_eq_succ_of_ne_zero hfuel.ne'
  obtain ⟨T, rfl⟩ := Nat.exists_eq_succ_of_ne_zero hT.ne'
  rw [Nat.succ_eq_add_one, batchLoop_succ _ _ _ hL100 _ _ hk, List.range'_succ, List.map_cons,
    collectBatch, (hfetch k hpos).items, hnil]
  rfl

/-- The batch of the last page ends the loop, unless that page closes it: then one more batch, of
empty pages, is requested. -/
theorem batchLoop_last (hL : 0 < L) (hL100 : L ≤ 100) {k d fuel : ℕ} (hpos : 0 < k)
    (hend : EndsAt P L (k + d)) (hlt : d < T) (hfuel : 0 < fuel) (hkT : (k + T) * L ≤ intMax)
    (cards : List α) (status : ℤ) :
    batchLoop json fromJson client T (pageParams L 0) (fuel + 1)
        ((k * L : ℕ) : ℤ) cards status =
      if P (k + d) ≠ [] ∧ d + 1 = T ∧ 0 < d then
        if (k + T + T) * L ≤ intMax then
          ⟨(List.range' k (T + T)).map (pageQuery L {}),
            .returned status (cards ++ concat P k (d + 1))⟩
        else ⟨(List.range' k T).map (pageQuery L {}), .overflow⟩
      else
        ⟨(List.range' k T).map (pageQuery L {}),
          .returned status (cards ++ concat P k (d + 1))⟩ := by
  have hk : k * L ≤ intMax := (Nat.mul_le_mul_right L (Nat.le_add_right _ _)).trans hkT
  rw [batchLoop_succ _ _ _ hL100 _ _ hk, if_pos hkT,
    collectBatch_last hL (fun i h => hfetch i (by omega)) hend hlt]
  by_cases hmore : P (k + d) ≠ [] ∧ d + 1 = T ∧ 0 < d
  · have hnil : P (k + T) = [] := by
      rw [← hmore.2.1, ← Nat.add_assoc]
      exact hend.after hmore.1
    rw [decide_eq_true hmore, if_pos hmore]
    dsimp only
    rw [batchLoop_empty hfetch hL100 (by omega) hfuel (by omega) hkT hnil]
    split_ifs
    · rw [Listing.prepend, ← List.map_append, List.range'_append_1]
    · rw [Listing.prepend, List.append_nil]
  · rw [decide_eq_false hmore, if_neg hmore]

/-- **The batch loop returns the pages up to the last one**, having requested whole batches; it
overflows exactly when the offset after the last batch does not fit into `int`. -/
theorem batchLoop_spec (hL : 0 < L) (hL100 : L ≤ 100) (hT : 0 < T) {k d fuel : ℕ} (hpos : 0 < k)
    (hend : EndsAt P L (k + d)) (hfuel : d + 2 ≤ fuel) (hk : k * L ≤ intMax) (cards : List α)
    (status : ℤ) {r : Listing CardFilterParams α}
    (hr : r = batchLoop json fromJson client T (pageParams L 0) fuel
      ((k * L : ℕ) : ℤ) cards status) {n : ℕ} (hn : n = T * batches T d (P (k + d) ≠ [])) :
    ((k + n) * L ≤ intMax →
      r = ⟨(List.range' k n).map (pageQuery L {}),
        .returned status (cards ++ concat P k (d + 1))⟩) ∧
    (intMax < (k + n) * L → r.outcome = .overflow) := by
  -- on the distance to the last page, which a batch of full pages makes smaller by `T`
  induction d using Nat.strong_induction_on generalizing k fuel cards r n with
  | _ d ih =>
    obtain ⟨fuel, rfl⟩ : ∃ f, fuel = f + 1 := ⟨fuel - 1, by omega⟩
    have hTn : T ≤ n := by rw [hn]; exact Nat.le_mul_of_pos_right T (batches_pos _ _ _)
    by_cases hkT : (k + T) * L ≤ intMax
    swap
    · have hle : (k + T) * L ≤ (k + n) * L := Nat.mul_le_mul_right L (by omega)
      rw [batchLoop_succ _ _ _ hL100 _ _ hk, if_neg hkT] at hr
      constructor
      · intro h
        omega
      · intro _
        rw [hr]
    by_cases hdT : T ≤ d
    · -- a batch of full pages, then the rest
      obtain ⟨e, rfl⟩ : ∃ e, d = e + T := ⟨d - T, by omega⟩
      have hidx : k + (e + T) = k + T + e := by ring
      simp only [hidx, batches_add T e _ hT] at hend hn
      rw [batchLoop_full hfetch hL hL100 hT hpos (fun i _ h => hend.full i (by omega)) hkT] at hr
      obtain ⟨hret, hover⟩ := ih e (by omega) (by omega) hend (by omega : e + 2 ≤ fuel) hkT
        (cards ++ concat P k T) rfl rfl
      have hsum : n = T + T * batches T e (P (k + T + e) ≠ []) := by rw [hn]; ring
      rw [hsum, ← Nat.add_assoc, hr]
      refine ⟨?_, hover⟩
      intro h
      rw [hret h, Listing.prepend, ← List.map_append, List.range'_append_1, List.append_assoc,
        ← concat_add, show T + (e + 1) = e + T + 1 by ring]
    · -- the batch of the last page
      have hlt : d < T := by omega
      rw [batchLoop_last hfetch hL hL100 hpos hend hlt (by omega) hkT] at hr
      unfold batches at hn
      rw [Nat.div_eq_of_lt hlt, Nat.mod_eq_of_lt hlt] at hn
      by_cases hmore : P (k + d) ≠ [] ∧ d + 1 = T ∧ 0 < d
      · rw [if_pos ⟨decide_eq_true hmore.1, hmore.2.1, by omega⟩] at hn
        have hsum : k + n = k + T + T := by rw [hn]; ring
        rw [if_pos hmore, ← hsum, show T + T = n by omega] at hr
        constructor
        · intro h
          rw [hr, if_pos h]
        · intro h
          rw [hr, if_neg (by omega)]
      · rw [if_neg fun h => hmore ⟨of_decide_eq_true h.1, h.2.1, by omega⟩] at hn
        have hsum : n = T := by rw [hn]; ring
        rw [if_neg hmore] at hr
        rw [hsum]
        constructor
        · intro _
          exact hr
        · intro h
          omega

end Loop

/-! ### Whole runs -/

@[simp] theorem pageQuery_filters (L : ℕ) (filters : CardFilterParams) (k : ℕ) :
    (pageQuery L filters k).filters = filters := rfl

theorem pageQuery_slice {α : Type} (L : ℕ) (filters : CardFilterParams) (k : ℕ) (l : List α) :
    (pageQuery L filters k).slice l = page L l k :=
  Query.slice_eq_page rfl rfl l

section Run

variable {Text α : Type} {json : Nlohmann Text} {fromJson : Json → Option α}
  {client : Query CardFilterParams → ℤ × Text}

/-- The items a run gets to see of page `k`: only the first request carries the filters. -/
def pagesSeen (json : Nlohmann Text) (fromJson : Json → Option α)
    (client : Query CardFilterParams → ℤ × Text) (L : ℕ) (filters : CardFilterParams) (k : ℕ) :
    List α :=
  (decodeItems json fromJson (client (pageQuery L (if k = 0 then filters else {}) k))).getD []

theorem pageResult_getCardsPaginated {L : ℕ} (hL : 0 < L) (hL100 : L ≤ 100)
    {filters : CardFilterParams} {P : ℕ → List α} {k : ℕ}
    (hP : P k = (decodeItems json fromJson (client (pageQuery L filters k))).getD []) :
    PageResult L P k (getCardsPaginated json fromJson client (pageParams L k) filters) := by
  unfold getCardsPaginated
  rw [clamp_pageParams hL100]
  refine PageResult.of_decode hL hL100 hP (fun items h => ?_) fun h => ?_
  · rw [pageQuery] at h; simp only [h]; exact ⟨rfl, rfl⟩
  · rw [pageQuery] at h; simp only [h]

variable (json fromJson client) in
theorem pageResult_first {L : ℕ} (hL : 0 < L) (hL100 : L ≤ 100) (filters : CardFilterParams) :
    PageResult L (pagesSeen json fromJson client L filters) 0
      (getCardsPaginated json fromJson client (pageParams L 0) filters) :=
  pageResult_getCardsPaginated hL hL100 rfl

theorem pageResult_later {L : ℕ} (hL : 0 < L) (hL100 : L ≤ 100) (filters : CardFilterParams)
    (i : ℕ) (hi : 0 < i) :
    PageResult L (pagesSeen json fromJson client L filters) i
      (fetchPageResult json fromJson client (pageParams L i)) :=
  pageResult_getCardsPaginated hL hL100 (by rw [pagesSeen, if_neg hi.ne'])

/-- The number of pages requested by a run that ends at page `m`. -/
def pagesUntil (T m : ℕ) (short : Bool) : ℕ :=
  if m = 0 then 1 else 1 + T * batches T (m - 1) short

variable {filters : CardFilterParams} {pageSize : ℤ} {hardwareConcurrency fuel : ℕ}

/-- The run after its first request. -/
theorem getAllCardsBatched_eq (h : 1 ≤ pageSize) {L : ℕ} (hL : L = pageLimit pageSize) :
    getAllCardsBatched json fromJson client hardwareConcurrency filters pageSize fuel =
      let first := getCardsPaginated json fromJson client (pageParams L 0) filters
      if first.items.isEmpty then ⟨[pageQuery L filters 0], .returned 200 []⟩
      else if first.hasMore then
        (batchLoop json fromJson client (maxThreads hardwareConcurrency) (pageParams L 0) fuel
          ((1 * L : ℕ) : ℤ) first.items 200).prepend [pageQuery L filters 0]
      else ⟨[pageQuery L filters 0], .returned 200 first.items⟩ := by
  have hzero : pageParams L 0 = { limit := (L : ℤ), offset := 0 } := by simp [pageParams]
  have hquery : QueryBuilder.build (PaginationParams.clamp { limit := (L : ℤ), offset := 0 })
      filters = pageQuery L filters 0 := by
    rw [← hzero, clamp_pageParams (by rw [hL]; exact pageLimit_le pageSize), pageQuery]
  unfold getAllCardsBatched
  rw [limit_eq_pageLimit h, ← hL]
  dsimp only
  rw [hquery, ← hzero, Nat.one_mul]

/-- A run whose first page is not full ends with it. -/
theorem getAllCardsBatched_short (h : 1 ≤ pageSize) {L : ℕ} (hL : L = pageLimit pageSize)
    (hshort : (pagesSeen json fromJson client L filters 0).length < L) :
    getAllCardsBatched json fromJson client hardwareConcurrency filters pageSize fuel =
      ⟨[pageQuery L filters 0], .returned 200 (pagesSeen json fromJson client L filters 0)⟩ := by
  have hpos : 0 < L := by rw [hL]; exact pageLimit_pos h
  obtain ⟨hitems, hmore⟩ := pageResult_first json fromJson client hpos
    (by rw [hL]; exact pageLimit_le pageSize) filters
  rw [getAllCardsBatched_eq h hL]
  dsimp only
  rw [hitems, hmore, decide_eq_false hshort.ne, if_neg Bool.false_ne_true]
  split_ifs with hnil
  · rw [List.isEmpty_iff.1 hnil]
  · rfl

/-- **A run whose first page is full** returns the pages up to the last one; it overflows
exactly when the offset after the last batch does not fit into `int`. -/
theorem getAllCardsBatched_spec (h : 1 ≤ pageSize) {L : ℕ} (hL : L = pageLimit pageSize) {m : ℕ}
    (hend : EndsAt (pagesSeen json fromJson client L filters) L m)
    (hfull : (pagesSeen json fromJson client L filters 0).length = L) (hfuel : m < fuel)
    {r : Listing CardFilterParams α}
    (hr : r = getAllCardsBatched json fromJson client hardwareConcurrency filters pageSize fuel)
    {n : ℕ} (hn : n = pagesUntil (maxThreads hardwareConcurrency) m
      (pagesSeen json fromJson client L filters m ≠ [])) :
    (n * L ≤ intMax →
      r = ⟨pageQuery L filters 0 :: (List.range' 1 (n - 1)).map (pageQuery L {}),
        .returned 200 (concat (pagesSeen json fromJson client L filters) 0 (m + 1))⟩) ∧
    (intMax < n * L → r.outcome = .overflow) := by
  have hpos : 0 < L := by rw [hL]; exact pageLimit_pos h
  have hle : L ≤ 100 := by rw [hL]; exact pageLimit_le pageSize
  have hm : m ≠ 0 := by rintro rfl; exact hend.last.ne hfull
  obtain ⟨d, rfl⟩ : ∃ d, m = 1 + d := ⟨m - 1, by omega⟩
  obtain ⟨hitems, hmore⟩ := pageResult_first json fromJson client hpos hle filters
  rw [getAllCardsBatched_eq h hL] at hr
  dsimp only at hr
  rw [hitems, hmore, decide_eq_true hfull, if_pos rfl,
    if_neg (by simp [List.isEmpty_iff, ← List.length_eq_zero_iff, hfull, hpos.ne'])] at hr
  rw [pagesUntil, if_neg hm, Nat.add_sub_cancel_left] at hn
  obtain ⟨hret, hover⟩ := batchLoop_spec (pageResult_later hpos hle filters) hpos hle
    (maxThreads_pos hardwareConcurrency) one_pos hend (by omega : d + 2 ≤ fuel)
    (show 1 * L ≤ intMax by unfold intMax; omega)
    (pagesSeen json fromJson client L filters 0) 200 rfl rfl
  rw [hn, hr, Nat.add_sub_cancel_left, show 1 + d + 1 = 1 + (d + 1) by ring, concat_add, concat_one]
  refine ⟨fun hfit => ?_, hover⟩
  rw [hret hfit]
  rfl

end Run

end Kaiten.CardOperations

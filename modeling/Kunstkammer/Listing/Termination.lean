import Kunstkammer.Foundation.Rounds
import Kunstkammer.Listing.Fetchers
import Kunstkammer.Listing.Sequential

/-!
# Listings that come to an end

`get_all_users`, `get_all_cards_batched` and the loop of `handle_cards_list` against servers that
answer as they like.  All three stop at a page that is not full, and none counts its pages, so the
end of a listing is up to the server.

* `Ends`: a listing that returns, however many rounds it takes;
* `rounds_userLoop`, `rounds_batchLoop`, `rounds_cardsListLoop`: the rounds of the three loops;
* `listings_end_iff`: for every server and every page size, a listing returns exactly when it can
  reach a page that stops it before its offset leaves `int`.
-/

namespace Kaiten

/-! ### Pages of any server -/

/-- The listing returned. -/
def Listing.Returns {F α : Type*} (r : Listing F α) : Prop :=
  ∃ status items, r.outcome = .returned status items

@[simp] theorem Listing.returns_prepend {F α : Type*} (qs : List (Query F)) (r : Listing F α) :
    (r.prepend qs).Returns ↔ r.Returns := Iff.rfl

@[simp] theorem Listing.returns_returned {F α : Type*} (qs : List (Query F)) (status : ℤ)
    (items : List α) : (⟨qs, .returned status items⟩ : Listing F α).Returns :=
  ⟨status, items, rfl⟩

@[simp] theorem Listing.not_returns_overflow {F α : Type*} (qs : List (Query F)) :
    ¬ (⟨qs, .overflow⟩ : Listing F α).Returns := by
  rintro ⟨status, items, h⟩
  cases h

@[simp] theorem Listing.not_returns_running {F α : Type*} (qs : List (Query F)) :
    ¬ (⟨qs, .running⟩ : Listing F α).Returns := by
  rintro ⟨status, items, h⟩
  cases h

/-- A listing that goes on after a full page, and returns after any other one. -/
theorem Listing.returns_page_iff {F α β : Type*} {page : PaginatedResult α}
    {empty more last : Listing F β} (hempty : empty.Returns) (hlast : last.Returns) :
    (if page.items.isEmpty then empty else if page.hasMore then more else last).Returns ↔
      (page.items ≠ [] ∧ page.hasMore = true → more.Returns) := by
  split_ifs with hnil hmore
  · simp [List.isEmpty_iff.1 hnil, hempty]
  · have hne := mt List.isEmpty_iff.2 hnil
    simp [hne, hmore]
  · simp [hmore, hlast]

/-- A listing comes to its end: some number of rounds is enough for it to return. -/
def Ends {F α : Type*} (listing : ℕ → Listing F α) : Prop := ∃ fuel, (listing fuel).Returns

theorem limit_eq_min (pageSize : ℤ) :
    (if pageSize > 100 then 100 else pageSize) = min pageSize 100 := by
  split_ifs <;> omega

variable {Text α : Type} (json : Nlohmann Text) (fromJson : Json → Option α)

/-! ### Users -/

namespace UserOperations

variable (client : Query UserFilterParams → ℤ × Text) (filters : UserFilterParams)

variable {json fromJson client filters}

variable (json fromJson client filters) in
/-- One round of the loop of `get_all_users`. -/
theorem userLoop_returns_succ {limit : ℤ} (h : limit ≤ 100) (fuel k : ℕ) (users : List α) :
    ∃ rest, (userLoop json fromJson client { limit := limit } filters (fuel + 1) (k * limit)
        users).Returns ↔
      (FullPage limit (itemsAt json fromJson client filters limit (k * limit)) →
        FitsInt ((k + 1 : ℕ) * limit) ∧ (userLoop json fromJson client { limit := limit } filters
          fuel ((k + 1 : ℕ) * limit) rest).Returns) := by
  have hpage := isPage_getUsersPaginated json fromJson client filters
    { limit := limit, offset := k * limit }
  rw [clamp_of_le h] at hpage
  have hnext : (k : ℤ) * limit + limit = (k + 1 : ℕ) * limit := by push_cast; ring
  refine ⟨users ++ (getUsersPaginated json fromJson client
    { limit := limit, offset := k * limit } filters).items, ?_⟩
  rw [itemsAt, itemsOf, hpage.fullPage_iff, userLoop]
  refine (Listing.returns_page_iff (Listing.returns_returned _ _ _)
    (Listing.returns_returned _ _ _)).trans (imp_congr_right fun _ => ?_)
  simp only [addInt_eq, hnext]
  by_cases hfits : FitsInt ((k + 1 : ℕ) * limit)
  · rw [if_pos hfits, and_iff_right hfits]
    exact Iff.rfl
  · rw [if_neg hfits]
    exact iff_of_false (Listing.not_returns_overflow _) fun hends => hfits hends.1

variable (json fromJson client filters) in
/-- The rounds of the loop of `get_all_users`: round `k` asks for the page at `k * limit`. -/
theorem rounds_userLoop {limit : ℤ} (h : limit ≤ 100) :
    Rounds (fun fuel k (users : List α) =>
        (userLoop json fromJson client { limit := limit } filters fuel (k * limit) users).Returns)
      (fun k => FullPage limit (itemsAt json fromJson client filters limit (k * limit)))
      (fun _ => True) (fun k => FitsInt (k * limit)) where
  zero k users := by
    rw [userLoop]
    exact Listing.not_returns_running _
  go fuel k users hfull := by
    obtain ⟨rest, hround⟩ := userLoop_returns_succ json fromJson client filters h fuel k users
    exact ⟨rest, hround.trans (imp_iff_right hfull)⟩
  stop fuel k users hshort := by
    obtain ⟨rest, hround⟩ := userLoop_returns_succ json fromJson client filters h fuel k users
    exact iff_of_true (hround.2 fun hfull => absurd hfull hshort) trivial
  antitone := antitone_fitsInt_mul limit
  ok_of_fits _ _ := trivial

variable (json fromJson client filters) in
/-- The loop of `get_all_users` is entered after a full first page. -/
theorem getAllUsers_returns_iff {pageSize limit : ℤ} (h : limit = min pageSize 100) (fuel : ℕ) :
    (getAllUsers json fromJson client filters pageSize fuel).Returns ↔
      (FullPage limit (itemsAt json fromJson client filters limit 0) →
        (userLoop json fromJson client { limit := limit } filters fuel limit
          (getUsersPaginated json fromJson client { limit := limit } filters).items).Returns) := by
  have hle : limit ≤ 100 := by omega
  have hpage := isPage_getUsersPaginated json fromJson client filters { limit := limit }
  rw [clamp_of_le hle] at hpage
  rw [itemsAt, itemsOf, hpage.fullPage_iff, getAllUsers, limit_eq_min, ← h]
  exact Listing.returns_page_iff (Listing.returns_returned _ _ _) (Listing.returns_returned _ _ _)

/-- **When `get_all_users` comes to its end.** -/
theorem getAllUsers_ends_iff {pageSize limit : ℤ} (h : limit = min pageSize 100)
    (hsize : FitsInt pageSize) :
    Ends (getAllUsers json fromJson client filters pageSize) ↔
      ∃ k : ℕ, ¬ FullPage limit (itemsAt json fromJson client filters limit (k * limit)) ∧
        FitsInt (k * limit) := by
  have hone : (1 : ℕ) * limit = limit := by push_cast; ring
  have hzero : (0 : ℕ) * limit = 0 := by push_cast; ring
  by_cases hfull : FullPage limit (itemsAt json fromJson client filters limit 0)
  · have hfits : FitsInt ((1 : ℕ) * limit) := by
      rw [hone, h]
      unfold FitsInt intMax at *
      omega
    have hends := (rounds_userLoop json fromJson client filters
      (by omega : limit ≤ 100)).exists_ends_iff hfits
        (getUsersPaginated json fromJson client { limit := limit } filters).items
    rw [hone] at hends
    simp only [Ends, getAllUsers_returns_iff json fromJson client filters h, hfull, true_imp_iff,
      hends, true_and]
    constructor
    · rintro ⟨k, -, hk⟩
      exact ⟨k, hk⟩
    · rintro ⟨k, hk⟩
      refine ⟨k, Nat.one_le_iff_ne_zero.2 fun hk0 => hk.1 ?_, hk⟩
      rwa [hk0, hzero]
  · constructor
    · intro _
      exact ⟨0, by rwa [hzero], by rw [hzero]; decide⟩
    · intro _
      exact ⟨0, (getAllUsers_returns_iff json fromJson client filters h 0).2 fun hpage =>
        absurd hpage hfull⟩

end UserOperations

/-! ### Batches of cards -/

namespace CardOperations

variable (client : Query CardFilterParams → ℤ × Text)

/-- A batch asks for more when none of its pages is empty and one of them is full. -/
theorem collectBatch_more_iff (fetch : ℕ → PaginatedResult α) (l : List ℕ) (cards : List α)
    (more : Bool) (status : ℤ) :
    (collectBatch (l.map fun i => some (fetch i)) cards more status).2.1 = true ↔
      (∀ i ∈ l, (fetch i).items ≠ []) ∧ (more = true ∨ ∃ i ∈ l, (fetch i).hasMore = true) := by
  induction l generalizing cards more with
  | nil => simp [collectBatch]
  | cons i l ih =>
    rw [List.map_cons, collectBatch]
    by_cases hnil : (fetch i).items = []
    · simp [hnil]
    · rw [if_neg (by simpa using hnil), ih]
      simp [hnil, or_assoc]

variable {json fromJson client} {params : PaginationParams} {T : ℕ}

/-- The pages `k, …, k + T - 1` tell the batch loop to go on. -/
def BatchGoesOn (json : Nlohmann Text) (fromJson : Json → Option α)
    (client : Query CardFilterParams → ℤ × Text) (params : PaginationParams) (k T : ℕ) : Prop :=
  (∀ i ∈ List.range' k T, itemsAt json fromJson client params {} (i * params.limit) ≠ []) ∧
    ∃ i ∈ List.range' k T,
      FullPage params.limit (itemsAt json fromJson client params {} (i * params.limit))

variable (json fromJson client) in
/-- One round of the batch loop. -/
theorem batchLoop_returns_succ (h : params.limit ≤ 100) (hT : 0 < T) (fuel k : ℕ)
    (cards : List α) (status : ℤ) : ∃ rest : List α × ℤ,
    (batchLoop json fromJson client T params (fuel + 1) (k * params.limit) cards status).Returns ↔
      FitsInt ((k + T : ℕ) * params.limit) ∧ (BatchGoesOn json fromJson client params k T →
        (batchLoop json fromJson client T params fuel ((k + T : ℕ) * params.limit) rest.1
          rest.2).Returns) := by
  have hpage : ∀ i : ℕ, IsPage params.limit _
      (fetchPageResult json fromJson client { params with offset := i * params.limit }) :=
    fun i => isPage_at json fromJson client h {} (i * params.limit)
  -- what the collection of the batch says
  have hcollect := collectBatch_more_iff
    (fun i => fetchPageResult json fromJson client { params with offset := i * params.limit })
    (List.range' k T) cards false status
  have hgoes : (∀ i ∈ List.range' k T, (fetchPageResult json fromJson client
      { params with offset := i * params.limit }).items ≠ []) ∧
      (∃ i ∈ List.range' k T, (fetchPageResult json fromJson client
        { params with offset := i * params.limit }).hasMore = true) ↔
      BatchGoesOn json fromJson client params k T := by
    unfold BatchGoesOn itemsAt itemsOf
    simp only [(hpage _).items, (hpage _).fullPage_iff]
    constructor
    · rintro ⟨hitems, i, hi, hmore⟩
      exact ⟨hitems, i, hi, hitems i hi, hmore⟩
    · rintro ⟨hitems, i, hi, -, hmore⟩
      exact ⟨hitems, i, hi, hmore⟩
  simp only [Bool.false_eq_true, false_or, hgoes] at hcollect
  obtain ⟨⟨rest, more, last⟩, hbatch⟩ : ∃ r, collectBatch ((List.range' k T).map fun i : ℕ =>
    some (fetchPageResult json fromJson client { params with offset := i * params.limit })) cards
      false status = r := ⟨_, rfl⟩
  rw [hbatch] at hcollect
  refine ⟨(rest, last), ?_⟩
  rw [batchLoop, batchOffsets_eq params.limit T k fun hzero => absurd hzero hT.ne']
  by_cases hfits : FitsInt ((k + T : ℕ) * params.limit)
  · rw [if_pos hfits, and_iff_right hfits]
    simp only [List.map_map, Function.comp_def, hbatch]
    cases more with
    | true => simp [← hcollect]
    | false => simp [← hcollect]
  · rw [if_neg hfits]
    exact iff_of_false (Listing.not_returns_overflow _) fun hends => hfits hends.1

variable (json fromJson client) in
/-- The rounds of the batch loop: round `b` asks for the pages `1 + b * T, …, (b + 1) * T`. -/
theorem rounds_batchLoop (h : params.limit ≤ 100) (hT : 0 < T) :
    Rounds (fun fuel b (rest : List α × ℤ) => (batchLoop json fromJson client T params fuel
        ((1 + b * T : ℕ) * params.limit) rest.1 rest.2).Returns)
      (fun b => BatchGoesOn json fromJson client params (1 + b * T) T)
      (fun b => FitsInt ((1 + (b + 1) * T : ℕ) * params.limit))
      (fun b => FitsInt ((1 + b * T : ℕ) * params.limit)) where
  zero b rest := by
    rw [batchLoop]
    exact Listing.not_returns_running _
  go fuel b rest hgoes := by
    obtain ⟨next, hnext⟩ :=
      batchLoop_returns_succ json fromJson client h hT fuel (1 + b * T) rest.1 rest.2
    refine ⟨next, ?_⟩
    rw [hnext, show 1 + b * T + T = 1 + (b + 1) * T by ring]
    simp only [hgoes, true_imp_iff]
  stop fuel b rest hstops := by
    obtain ⟨next, hnext⟩ :=
      batchLoop_returns_succ json fromJson client h hT fuel (1 + b * T) rest.1 rest.2
    rw [hnext, show 1 + b * T + T = 1 + (b + 1) * T by ring]
    simp only [hstops, false_imp_iff, and_true]
  antitone := by
    intro b c hbc hfits
    have hle : 1 + b * T ≤ 1 + c * T := Nat.add_le_add_left (Nat.mul_le_mul_right T hbc) 1
    exact antitone_fitsInt_mul params.limit hle hfits
  ok_of_fits _ hfits := hfits

variable (json fromJson client) in
/-- The batches are requested after a full first page. -/
theorem getAllCardsBatched_returns_iff {pageSize limit : ℤ} (h : limit = min pageSize 100)
    (filters : CardFilterParams) (hardwareConcurrency fuel : ℕ) :
    (getAllCardsBatched json fromJson client hardwareConcurrency filters pageSize fuel).Returns ↔
      (FullPage limit (itemsAt json fromJson client { limit := limit } filters 0) →
        (batchLoop json fromJson client (maxThreads hardwareConcurrency) { limit := limit } fuel
          limit (getCardsPaginated json fromJson client { limit := limit } filters).items
            200).Returns) := by
  have hle : PaginationParams.limit { limit := limit } ≤ 100 := by
    dsimp only
    omega
  have hpage := isPage_at json fromJson client hle filters 0
  rw [itemsAt, itemsOf, hpage.fullPage_iff, getAllCardsBatched, limit_eq_min, ← h]
  exact Listing.returns_page_iff (Listing.returns_returned _ _ _) (Listing.returns_returned _ _ _)

/-- **When `get_all_cards_batched` comes to its end.** -/
theorem getAllCardsBatched_ends_iff {pageSize limit : ℤ} (h : limit = min pageSize 100)
    (hsize : FitsInt pageSize) (filters : CardFilterParams) (hardwareConcurrency : ℕ)
    (hT : T = maxThreads hardwareConcurrency) :
    Ends (getAllCardsBatched json fromJson client hardwareConcurrency filters pageSize) ↔
      ¬ FullPage limit (itemsAt json fromJson client { limit := limit } filters 0) ∨
        ∃ b : ℕ, ¬ BatchGoesOn json fromJson client { limit := limit } (1 + b * T) T ∧
          FitsInt ((1 + (b + 1) * T : ℕ) * limit) := by
  have hpos : 0 < T := by rw [hT]; exact maxThreads_pos hardwareConcurrency
  have hone : (1 + 0 * T : ℕ) * limit = limit := by push_cast; ring
  by_cases hfull : FullPage limit (itemsAt json fromJson client { limit := limit } filters 0)
  · have hfits : FitsInt ((1 + 0 * T : ℕ) * limit) := by
      rw [hone, h]
      unfold FitsInt intMax at *
      omega
    have hle : PaginationParams.limit { limit := limit } ≤ 100 := by
      dsimp only
      omega
    have hends := (rounds_batchLoop json fromJson client hle hpos).exists_ends_iff hfits
        ((getCardsPaginated json fromJson client { limit := limit } filters).items, 200)
    dsimp only at hends
    rw [hone] at hends
    simp only [Ends, getAllCardsBatched_returns_iff json fromJson client h, hfull, true_imp_iff,
      ← hT, hends, not_true, false_or]
    constructor
    · rintro ⟨b, -, hoff, hok, -⟩
      exact ⟨b, hoff, hok⟩
    · rintro ⟨b, hoff, hok⟩
      have hle : 1 + b * T ≤ 1 + (b + 1) * T := by
        rw [Nat.succ_mul]
        omega
      exact ⟨b, Nat.zero_le b, hoff, hok, antitone_fitsInt_mul limit hle hok⟩
  · refine iff_of_true ⟨0, ?_⟩ (Or.inl hfull)
    rw [getAllCardsBatched_returns_iff json fromJson client h]
    exact fun hpage => absurd hpage hfull

/-! ### The cards list -/

variable (json fromJson client) in
/-- One round of the loop of `handle_cards_list`. -/
theorem cardsListLoop_returns_succ (h : params.limit ≤ 100) (fuel k : ℕ) (cards : List α) :
    ∃ rest, (cardsListLoop json fromJson client params (fuel + 1) (k * params.limit)
        cards).Returns ↔
      (itemsAt json fromJson client params {} (k * params.limit) ≠ [] →
        FitsInt ((k + 1 : ℕ) * params.limit) ∧
          (FullPage params.limit (itemsAt json fromJson client params {} (k * params.limit)) →
            (cardsListLoop json fromJson client params fuel ((k + 1 : ℕ) * params.limit)
              rest).Returns)) := by
  have hpage := isPage_at json fromJson client h {} (k * params.limit)
  have hnext : (k : ℤ) * params.limit + params.limit = (k + 1 : ℕ) * params.limit := by
    push_cast; ring
  refine ⟨cards ++ (getCardsPaginated json fromJson client
    { params with offset := k * params.limit } {}).items, ?_⟩
  rw [itemsAt, itemsOf, hpage.fullPage_iff, ← hpage.items, cardsListLoop]
  simp only [addInt_eq, hnext]
  by_cases hnil : (getCardsPaginated json fromJson client
      { params with offset := k * params.limit } {}).items = []
  · simp [hnil]
  · rw [if_neg (mt List.isEmpty_iff.1 hnil), imp_iff_right hnil]
    by_cases hfits : FitsInt ((k + 1 : ℕ) * params.limit)
    · rw [if_pos hfits, and_iff_right hfits]
      dsimp only
      split_ifs with hmore
      · simp [hnil, hmore]
      · simp [hmore]
    · rw [if_neg hfits]
      exact iff_of_false (Listing.not_returns_overflow _) fun hends => hfits hends.1

variable (json fromJson client) in
/-- The rounds of the loop of `handle_cards_list`. -/
theorem rounds_cardsListLoop (h : params.limit ≤ 100) :
    Rounds (fun fuel k (allCards : List α) =>
        (cardsListLoop json fromJson client params fuel (k * params.limit) allCards).Returns)
      (fun k => FullPage params.limit
        (itemsAt json fromJson client params {} (k * params.limit)))
      (fun k => itemsAt json fromJson client params {} (k * params.limit) ≠ [] →
        FitsInt ((k + 1 : ℕ) * params.limit))
      (fun k => FitsInt (k * params.limit)) where
  zero k cards := by
    rw [cardsListLoop]
    exact Listing.not_returns_running _
  go fuel k cards hfull := by
    obtain ⟨rest, hround⟩ := cardsListLoop_returns_succ json fromJson client h fuel k cards
    refine ⟨rest, hround.trans ?_⟩
    rw [imp_iff_right hfull.1, imp_iff_right hfull]
  stop fuel k cards hshort := by
    obtain ⟨rest, hround⟩ := cardsListLoop_returns_succ json fromJson client h fuel k cards
    refine hround.trans (imp_congr_right fun _ => and_iff_left fun hfull => ?_)
    exact absurd hfull hshort
  antitone := antitone_fitsInt_mul params.limit
  ok_of_fits _ hfits _ := hfits

/-- The parameters of `handle_cards_list`. -/
def cardsListParams : PaginationParams :=
  { limit := 50, sortBy := lit "updated", sortOrder := lit "desc" }

/-- **When the loop of `handle_cards_list` comes to its end.** -/
theorem cardsListLoop_ends_iff (h : params.limit ≤ 100) :
    Ends (fun fuel => cardsListLoop json fromJson client params fuel 0 []) ↔
      ∃ k : ℕ, ¬ FullPage params.limit
          (itemsAt json fromJson client params {} (k * params.limit)) ∧
        FitsInt (k * params.limit) ∧
        (itemsAt json fromJson client params {} (k * params.limit) ≠ [] →
          FitsInt ((k + 1 : ℕ) * params.limit)) := by
  have hzero : (0 : ℕ) * params.limit = 0 := by push_cast; ring
  have hends := (rounds_cardsListLoop json fromJson client h).exists_ends_iff
    (by rw [hzero]; decide) []
  rw [hzero] at hends
  rw [Ends, hends]
  constructor
  · rintro ⟨k, -, hoff, hok, hfits⟩
    exact ⟨k, hoff, hfits, hok⟩
  · rintro ⟨k, hoff, hfits, hok⟩
    exact ⟨k, Nat.zero_le k, hoff, hok, hfits⟩

end CardOperations

/-! ### All listings -/

/-- **When the listings come to their end.**  For every server and every page size, `get_all_users`
and the loop of `handle_cards_list` return exactly when some page they ask for is not full and its
offset, and in the loop of `handle_cards_list` the one after a page with items, is an `int`;
`get_all_cards_batched` returns exactly when the first page is not full or some batch has an empty
page or no full one, the offset after that batch still being an `int`. -/
theorem listings_end_iff {β : Type} (fromUser : Json → Option β)
    (userClient : Query UserFilterParams → ℤ × Text)
    (cardClient : Query CardFilterParams → ℤ × Text) (userFilters : UserFilterParams)
    (cardFilters : CardFilterParams) (hardwareConcurrency : ℕ) (pageSize : Int32) :
    let limit := min pageSize.toInt 100
    let threads := CardOperations.maxThreads hardwareConcurrency
    (Ends (UserOperations.getAllUsers json fromUser userClient userFilters pageSize.toInt) ↔
      ∃ k : ℕ, ¬ FullPage limit
          (UserOperations.itemsAt json fromUser userClient userFilters limit (k * limit)) ∧
        FitsInt (k * limit)) ∧
    (Ends (CardOperations.getAllCardsBatched json fromJson cardClient hardwareConcurrency
        cardFilters pageSize.toInt) ↔
      ¬ FullPage limit
          (CardOperations.itemsAt json fromJson cardClient { limit := limit } cardFilters 0) ∨
        ∃ b : ℕ, ¬ CardOperations.BatchGoesOn json fromJson cardClient { limit := limit }
            (1 + b * threads) threads ∧
          FitsInt ((1 + (b + 1) * threads : ℕ) * limit)) ∧
    (Ends (fun fuel => CardOperations.cardsListLoop json fromJson cardClient
        CardOperations.cardsListParams fuel 0 []) ↔
      ∃ k : ℕ,
        let page := CardOperations.itemsAt json fromJson cardClient CardOperations.cardsListParams
          {} (k * 50)
        ¬ FullPage 50 page ∧ FitsInt (k * 50) ∧ (page ≠ [] → FitsInt ((k + 1 : ℕ) * 50))) := by
  intro limit threads
  have hsize : FitsInt pageSize.toInt := by
    have hlo := pageSize.le_toInt
    have hhi := pageSize.toInt_lt
    unfold FitsInt intMax
    omega
  exact ⟨UserOperations.getAllUsers_ends_iff rfl hsize,
    CardOperations.getAllCardsBatched_ends_iff rfl hsize cardFilters hardwareConcurrency rfl,
    CardOperations.cardsListLoop_ends_iff (by decide)⟩

/-- A server that answers every request with the same 50 items. -/
def stubbornClient {F : Type} (_ : Query F) : ℤ × Option Json :=
  pageResponse (fun id : Int64 => .integer id.toInt) (List.replicate 50 1)

theorem fullPage_stubbornClient {F : Type} (q : Query F) :
    FullPage 50 (itemsOf .symbolic Json.getInt64 (stubbornClient q)) := by
  rw [itemsOf, stubbornClient, decodeItems_pageResponse Json.getInt64_integer, Option.getD_some]
  exact ⟨by decide, rfl⟩

/-- Against it, none of the listings comes to its end. -/
theorem listings_endless :
    ¬ Ends (UserOperations.getAllUsers .symbolic Json.getInt64 stubbornClient {} 50) ∧
      ¬ Ends (CardOperations.getAllCardsBatched .symbolic Json.getInt64 stubbornClient 4 {} 50) ∧
      ¬ Ends (fun fuel => CardOperations.cardsListLoop .symbolic Json.getInt64 stubbornClient
        CardOperations.cardsListParams fuel 0 []) := by
  refine ⟨?_, ?_, ?_⟩
  · rw [UserOperations.getAllUsers_ends_iff rfl (by decide)]
    rintro ⟨k, hshort, -⟩
    exact hshort (fullPage_stubbornClient _)
  · rw [CardOperations.getAllCardsBatched_ends_iff rfl (by decide) {} 4 rfl]
    rintro (hshort | ⟨b, hstops, -⟩)
    · exact hshort (fullPage_stubbornClient _)
    · refine hstops ⟨fun i _ => (fullPage_stubbornClient _).1, _, List.mem_range'_1.2 ⟨le_rfl, ?_⟩,
        fullPage_stubbornClient _⟩
      exact Nat.lt_add_of_pos_right (CardOperations.maxThreads_pos 4)
  · rw [CardOperations.cardsListLoop_ends_iff (by decide)]
    rintro ⟨k, hshort, -⟩
    exact hshort (fullPage_stubbornClient _)

end Kaiten

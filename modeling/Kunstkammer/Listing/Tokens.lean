import Kunstkammer.Listing.OffsetLimit
import Kunstkammer.Listing.Termination
import Kunstkammer.RateLimiter

/-!
# The tokens of a listing

`handle_cards_list`, `handle_users_list` and `handle_boards_list` of `modes.cpp` on the global rate
limiter.  `Http_client::get` calls `wait_if_needed` before every request, and so do the loops of the
three listings after a page, each call taking a token.

* `cardsListPass`, `handleCardsList`, `handleUsersList`, `handleBoardsList`;
* `cardsListLoop_eq`: the requests and the outcome of `cardsListPass` are those of `cardsListLoop`;
* `Undisturbed`: a run that reaches no limit and resets no counter;
* `counted_limiterAfter`: on such a run, the counters grow by the number of tokens taken;
* `waits_paginateLoop`, `waits_cardsListPass`: how many tokens the loops take themselves;
* `tokens_match_requests_iff`: when a listing takes one token for each of its requests.
-/

namespace Kaiten

namespace Modes

open CardOperations RateLimiter

/-! ### The listings -/

section Model

variable {Text α : Type} (json : Nlohmann Text) (fromJson : Json → Option α)

/-- The loop of `handle_cards_list` with its steps; the handler stands for what is done with the
cards of a page. -/
def cardsListPass (client : Query CardFilterParams → ℤ × Text)
    (paginationParams : PaginationParams) :
    ℕ → ℤ → List α → List (Action CardFilterParams α) × Outcome α
  | 0, _, _ => ([], .running)
  | fuel + 1, offset, allCards =>
      let current := { paginationParams with offset := offset }
      let page := getCardsPaginated json fromJson client current {}
      let request := QueryBuilder.build current.clamp {}
      if page.items.isEmpty then ([.fetch request], .returned 200 allCards)
      else
        match addInt offset paginationParams.limit with
        | none => ([.fetch request, .handle page], .overflow)
        | some next =>
            if page.hasMore then
              let rest := cardsListPass client paginationParams fuel next (allCards ++ page.items)
              ([.fetch request, .handle page, .wait] ++ rest.1, rest.2)
            else
              ([.fetch request, .handle page, .wait], .returned 200 (allCards ++ page.items))

/-- `handle_cards_list`: its steps and the cards it prints. -/
def handleCardsList (client : Query CardFilterParams → ℤ × Text) (fuel : ℕ) :
    List (Action CardFilterParams α) × Outcome α :=
  cardsListPass json fromJson client cardsListParams fuel 0 []

/-- The parameters of `handle_users_list` and `handle_boards_list`. -/
def listParams : PaginationParams := { limit := 50 }

/-- `handle_users_list`: its steps and its exit code. -/
def handleUsersList (client : Query UserFilterParams → ℤ × Text) :
    List (Action UserFilterParams α) × Option ℤ :=
  let pass := paginateWithOffsetLimit (userFetcher json fromJson client {}) listParams 1000
  (pass.actions, pass.result.map fun found => if found then 0 else 1)

/-- `handle_boards_list`: its steps and its exit code. -/
def handleBoardsList (client : Query CardFilterParams → ℤ × Text) :
    List (Action CardFilterParams α) × Option ℤ :=
  let pass := paginateWithOffsetLimit (boardFetcher json fromJson client) listParams 1000
  (pass.actions, pass.result.map fun found => if found then 0 else 1)

end Model

/-! ### Steps and tokens -/

section Steps

variable {F α : Type}

/-- The request of a step. -/
def Action.request? : Action F α → Option (Query F)
  | .fetch request => some request
  | .handle _ => none
  | .wait => none

/-- The step calls `wait_if_needed`: in `Http_client::get`, whose limiter is the global one, or in
the loop itself. -/
def Action.takesToken : Action F α → Bool
  | .fetch _ => true
  | .handle _ => false
  | .wait => true

/-- The step is a call of `wait_if_needed` in the loop itself. -/
def Action.isWait : Action F α → Bool
  | .fetch _ => false
  | .handle _ => false
  | .wait => true

/-- The HTTP requests of a run. -/
def requests (actions : List (Action F α)) : List (Query F) := actions.filterMap Action.request?

/-- The number of tokens taken by a run. -/
def tokens (actions : List (Action F α)) : ℕ := actions.countP Action.takesToken

/-- The number of tokens taken by the loop itself. -/
def waits (actions : List (Action F α)) : ℕ := actions.countP Action.isWait

theorem waits_cons (action : Action F α) (actions : List (Action F α)) :
    waits (action :: actions) = waits actions + if action.isWait then 1 else 0 :=
  List.countP_cons

theorem tokens_cons (action : Action F α) (actions : List (Action F α)) :
    tokens (action :: actions) = tokens actions + if action.takesToken then 1 else 0 :=
  List.countP_cons

/-- Every request takes a token, and so does every wait of the loop. -/
theorem tokens_eq (actions : List (Action F α)) :
    tokens actions = (requests actions).length + waits actions := by
  induction actions with
  | nil => rfl
  | cons action actions ih =>
    rw [tokens_cons, waits_cons, ih, requests, requests, List.filterMap_cons]
    cases action with
    | fetch request =>
      simp only [Action.takesToken, Action.request?, Action.isWait, List.length_cons]
      simp
      omega
    | handle page => simp [Action.takesToken, Action.request?, Action.isWait]
    | wait =>
      simp only [Action.takesToken, Action.request?, Action.isWait]
      simp
      omega

/-! ### The counters of the limiter -/

/-- The limiter after a step. -/
def Action.spend (s : RateLimiter × Clock) (action : Action F α) : RateLimiter × Clock :=
  if action.takesToken then RateLimiter.waitIfNeeded s else s

/-- The limiter after a run. -/
def limiterAfter (actions : List (Action F α)) (s : RateLimiter × Clock) : RateLimiter × Clock :=
  actions.foldl Action.spend s

/-- All calls of `wait_if_needed` in a run are undisturbed. -/
def RunsUndisturbed : List (Action F α) → RateLimiter × Clock → Prop
  | [], _ => True
  | action :: actions, s =>
      (action.takesToken = true → Undisturbed s) ∧ RunsUndisturbed actions (action.spend s)

instance decidableRunsUndisturbed : ∀ (actions : List (Action F α)) (s : RateLimiter × Clock),
    Decidable (RunsUndisturbed actions s)
  | [], _ => .isTrue trivial
  | action :: actions, s =>
      haveI := decidableRunsUndisturbed actions (action.spend s)
      inferInstanceAs (Decidable ((action.takesToken = true → Undisturbed s) ∧ _))

/-- **On an undisturbed run, the counters grow by the number of tokens taken.** -/
theorem counted_limiterAfter (actions : List (Action F α)) {s : RateLimiter × Clock}
    (h : s.1.enabled = true) (hs : RunsUndisturbed actions s) :
    Counted (tokens actions) s (limiterAfter actions s) := by
  induction actions generalizing s with
  | nil => exact Counted.refl s
  | cons action actions ih =>
    obtain ⟨hcall, hrest⟩ := hs
    rw [tokens_cons, limiterAfter, List.foldl_cons]
    rw [Action.spend] at hrest ⊢
    cases htoken : action.takesToken with
    | false =>
      rw [htoken, if_neg Bool.false_ne_true] at hrest
      exact ih h hrest
    | true =>
      rw [htoken, if_pos rfl] at hrest
      have hfirst := counted_waitIfNeeded h (hcall htoken)
      have hnext := ih ((released_waitIfNeeded s h).enabled.trans h) hrest
      rw [Nat.add_comm]
      exact hfirst.trans hnext

/-- The counters grow by one for each HTTP request of the run. -/
def OneTokenPerRequest (actions : List (Action F α)) (s : RateLimiter × Clock) : Prop :=
  Counted (requests actions).length s (limiterAfter actions s)

instance (actions : List (Action F α)) (s : RateLimiter × Clock) :
    Decidable (OneTokenPerRequest actions s) := inferInstanceAs (Decidable (Counted _ _ _))

/-- On an undisturbed run there is one token for each request exactly when the loop itself takes
none. -/
theorem oneTokenPerRequest_iff {actions : List (Action F α)} {s : RateLimiter × Clock}
    (h : s.1.enabled = true) (hs : RunsUndisturbed actions s) :
    OneTokenPerRequest actions s ↔ waits actions = 0 := by
  have hcounted := counted_limiterAfter actions h hs
  rw [tokens_eq] at hcounted
  constructor
  · intro hone
    have hsame := hone.minuteRequests.symm.trans hcounted.minuteRequests
    push_cast at hsame
    omega
  · intro hzero
    rwa [hzero, Nat.add_zero] at hcounted

end Steps

/-! ### The tokens of the loops -/

section Loops

variable {F α : Type}

/-- A page was handled after which there is more. -/
def Action.isFull : Action F α → Bool
  | .fetch _ => false
  | .handle page => page.hasMore
  | .wait => false

/-- A page was handled. -/
def Action.isHandle : Action F α → Bool
  | .fetch _ => false
  | .handle _ => true
  | .wait => false

/-- `paginate_with_offset_limit` takes a token after every page it handles that says there is
more. -/
theorem waits_paginateLoop (fetcher : Fetcher F α) (n : ℕ) (params : PaginationParams) (total : ℤ)
    (h : (paginateLoop fetcher n params total).result.isSome) :
    waits (paginateLoop fetcher n params total).actions =
      (paginateLoop fetcher n params total).actions.countP Action.isFull := by
  induction n generalizing params total with
  | zero => rfl
  | succ n ih =>
    rw [paginateLoop] at h ⊢
    dsimp only at h ⊢
    split_ifs at h ⊢ with hnil hmore
    · rfl
    · cases hnext : addInt params.offset params.limit with
      | none =>
        rw [hnext] at h
        cases h
      | some next =>
        rw [hnext] at h
        have hrest := ih { params with offset := next } _ h
        simp only [Pass.prepend, waits, List.countP_append] at hrest ⊢
        rw [hrest]
        simp [List.countP_cons, Action.isWait, Action.isFull, hmore]
    · simp [waits, Action.isWait, Action.isFull, hmore]

/-- A pass whose offsets all fit into `int` comes to its end. -/
theorem result_isSome (fetcher : Fetcher F α) (n : ℕ) (params : PaginationParams) (total : ℤ)
    (hoffset : 0 ≤ params.offset) (hlimit : 0 ≤ params.limit)
    (hfits : params.offset + n * params.limit ≤ intMax) :
    (paginateLoop fetcher n params total).result.isSome := by
  induction n generalizing params total with
  | zero => rfl
  | succ n ih =>
    rw [paginateLoop]
    dsimp only
    have hroom : (0 : ℤ) ≤ n * params.limit := by positivity
    push_cast at hfits
    have hnext : addInt params.offset params.limit = some (params.offset + params.limit) := by
      rw [addInt_of_nonneg (by omega), if_pos (by linarith)]
    split_ifs
    · rfl
    · rw [hnext]
      refine ih { params with offset := params.offset + params.limit } _ ?_ hlimit ?_
      · dsimp only
        omega
      · dsimp only
        linarith
    · rfl

/-- `handle_users_list` and `handle_boards_list` take a token after every full page. -/
theorem waits_listParams (fetcher : Fetcher F α) :
    waits (paginateWithOffsetLimit fetcher listParams 1000).actions =
      (paginateWithOffsetLimit fetcher listParams 1000).actions.countP Action.isFull :=
  waits_paginateLoop fetcher 1000 listParams 0
    (result_isSome fetcher 1000 listParams 0 (by decide) (by decide) (by decide))

/-- The loop takes no token exactly when its first page does not make it go on. -/
theorem waits_paginateLoop_eq_zero_iff (fetcher : Fetcher F α) (n : ℕ) (params : PaginationParams)
    (total : ℤ) (hfits : FitsInt (params.offset + params.limit)) :
    waits (paginateLoop fetcher (n + 1) params total).actions = 0 ↔
      ¬ ((fetcher params).2.items ≠ [] ∧ (fetcher params).2.hasMore = true) := by
  rw [paginateLoop, addInt_eq, if_pos hfits]
  dsimp only
  split_ifs with hnil hmore
  · simp [waits, Action.isWait, List.isEmpty_iff.1 hnil]
  · have hne : (fetcher params).2.items ≠ [] := by simpa using hnil
    simp [waits, Pass.prepend, List.countP_cons, Action.isWait, hne, hmore]
  · simp [waits, Action.isWait, hmore]

variable {Text : Type} (json : Nlohmann Text) (fromJson : Json → Option α)

/-- **The steps of `handle_cards_list` make the requests of its loop**, and come to the same
outcome. -/
theorem cardsListLoop_eq (client : Query CardFilterParams → ℤ × Text) (params : PaginationParams)
    (fuel : ℕ) (offset : ℤ) (cards : List α) :
    cardsListLoop json fromJson client params fuel offset cards =
      ⟨requests (cardsListPass json fromJson client params fuel offset cards).1,
        (cardsListPass json fromJson client params fuel offset cards).2⟩ := by
  induction fuel generalizing offset cards with
  | zero => rfl
  | succ fuel ih =>
    rw [cardsListLoop, cardsListPass]
    dsimp only
    split_ifs with hnil hmore
    · rfl
    · cases addInt offset params.limit with
      | none => rfl
      | some next =>
        dsimp only
        rw [ih]
        rfl
    · cases addInt offset params.limit with
      | none => rfl
      | some next => rfl

/-- The loop of `handle_cards_list` takes a token after every page it handles, the last one
included. -/
theorem waits_cardsListPass (client : Query CardFilterParams → ℤ × Text)
    (params : PaginationParams) (fuel : ℕ) (offset : ℤ) (cards : List α)
    (h : (cardsListPass json fromJson client params fuel offset cards).2 ≠ .overflow) :
    waits (cardsListPass json fromJson client params fuel offset cards).1 =
      (cardsListPass json fromJson client params fuel offset cards).1.countP Action.isHandle := by
  induction fuel generalizing offset cards with
  | zero => rfl
  | succ fuel ih =>
    rw [cardsListPass] at h ⊢
    dsimp only at h ⊢
    split_ifs at h ⊢ with hnil hmore
    · rfl
    · cases hnext : addInt offset params.limit with
      | none =>
        rw [hnext] at h
        exact absurd rfl h
      | some next =>
        rw [hnext] at h
        have hrest := ih next _ h
        simp only [waits, List.countP_append] at hrest ⊢
        rw [hrest]
        simp [List.countP_cons, Action.isWait, Action.isHandle]
    · cases hnext : addInt offset params.limit with
      | none =>
        rw [hnext] at h
        exact absurd rfl h
      | some next => rfl

/-- A run of `handle_cards_list` takes no token in its loop exactly when its first page has no
cards. -/
theorem waits_handleCardsList_eq_zero_iff (client : Query CardFilterParams → ℤ × Text) {fuel : ℕ}
    {status : ℤ} {cards : List α}
    (h : (handleCardsList json fromJson client fuel).2 = .returned status cards) :
    waits (handleCardsList json fromJson client fuel).1 = 0 ↔
      CardOperations.itemsAt json fromJson client cardsListParams {} 0 = [] := by
  have hlimit : cardsListParams.limit ≤ 100 := by decide
  have hitems := (isPage_at json fromJson client hlimit {} 0).items
  rw [CardOperations.itemsAt, itemsOf, ← hitems]
  rw [handleCardsList] at h ⊢
  cases fuel with
  | zero => cases h
  | succ fuel =>
    have hnext : addInt 0 cardsListParams.limit = some 50 := by decide
    rw [cardsListPass, hnext]
    dsimp only
    split_ifs with hnil hmore
    · simp [waits, Action.isWait, List.isEmpty_iff.1 hnil]
    · have hne := mt List.isEmpty_iff.2 hnil
      simp [waits, List.countP_cons, Action.isWait, hne]
    · have hne := mt List.isEmpty_iff.2 hnil
      simp [waits, Action.isWait, hne]

/-- A run of `handle_users_list` takes no token in its loop exactly when its first page is not
full. -/
theorem waits_handleUsersList_eq_zero_iff (client : Query UserFilterParams → ℤ × Text) :
    waits (handleUsersList json fromJson client).1 = 0 ↔
      ¬ FullPage 50 (UserOperations.itemsAt json fromJson client {} 50 0) := by
  have hpage := UserOperations.isPage_getUsersPaginated json fromJson client {} listParams
  have hloop := waits_paginateLoop_eq_zero_iff (userFetcher json fromJson client {}) 999
    listParams 0 (by decide)
  exact hloop.trans (not_congr hpage.fullPage_iff).symm

theorem waits_handleBoardsList_eq_zero_iff (client : Query CardFilterParams → ℤ × Text) :
    waits (handleBoardsList json fromJson client).1 = 0 ↔
      ¬ FullPage 50 (itemsOf json fromJson (client (QueryBuilder.build listParams {}))) := by
  have hpage := BoardOperations.isPage_getBoardsPaginated json fromJson client listParams
  have hloop := waits_paginateLoop_eq_zero_iff (boardFetcher json fromJson client) 999 listParams 0
    (by decide)
  exact hloop.trans (not_congr hpage.fullPage_iff).symm

end Loops

/-! ### One token for each request -/

/-- **When a listing takes one token for each of its requests.**  On a run that reaches no limit
and resets no counter, both counters of the limiter grow by the number of HTTP requests exactly
when the first page of `handle_cards_list` has no cards, and the first page of `handle_users_list`
or `handle_boards_list` is not full. -/
theorem tokens_match_requests_iff {Text α β γ : Type} (json : Nlohmann Text)
    (fromCard : Json → Option α) (fromUser : Json → Option β) (fromBoard : Json → Option γ)
    {s : RateLimiter × Clock} (h : s.1.enabled = true) :
    (∀ client fuel status cards, (handleCardsList json fromCard client fuel).2 =
        .returned status cards →
      RunsUndisturbed (handleCardsList json fromCard client fuel).1 s →
      (OneTokenPerRequest (handleCardsList json fromCard client fuel).1 s ↔
        CardOperations.itemsAt json fromCard client cardsListParams {} 0 = [])) ∧
    (∀ client, RunsUndisturbed (handleUsersList json fromUser client).1 s →
      (OneTokenPerRequest (handleUsersList json fromUser client).1 s ↔
        ¬ FullPage 50 (UserOperations.itemsAt json fromUser client {} 50 0))) ∧
    (∀ client, RunsUndisturbed (handleBoardsList json fromBoard client).1 s →
      (OneTokenPerRequest (handleBoardsList json fromBoard client).1 s ↔
        ¬ FullPage 50 (itemsOf json fromBoard (client (QueryBuilder.build listParams {}))))) := by
  refine ⟨?_, ?_, ?_⟩
  · intro client fuel status cards hreturned hs
    rw [oneTokenPerRequest_iff h hs, waits_handleCardsList_eq_zero_iff json fromCard client
      hreturned]
  · intro client hs
    rw [oneTokenPerRequest_iff h hs, waits_handleUsersList_eq_zero_iff]
  · intro client hs
    rw [oneTokenPerRequest_iff h hs, waits_handleBoardsList_eq_zero_iff]

/-- Three users on one page: one request and one token. -/
theorem tokens_match_requests_iff_three :
    OneTokenPerRequest (handleUsersList .symbolic Json.getInt64 (slicesClient [1, 2, 3])).1
      (globalRateLimiter (Clock.stopped 1)) :=
  ((tokens_match_requests_iff .symbolic Json.getInt64 Json.getInt64 Json.getInt64 rfl).2.1
    (slicesClient [1, 2, 3]) (by decide +kernel)).2 fun hfull => absurd hfull.2 (by decide +kernel)

/-- One card takes two tokens, and two requests for 50 users or boards take three. -/
theorem extra_tokens_taken :
    let s := globalRateLimiter (Clock.stopped 1)
    let cards := handleCardsList .symbolic Json.getInt64 (slicesClient [1]) 1
    let users := handleUsersList .symbolic Json.getInt64 (slicesClient (List.replicate 50 1))
    let boards := handleBoardsList .symbolic Json.getInt64 (slicesClient (List.replicate 50 1))
    (cards.2 = .returned 200 [1] ∧ RunsUndisturbed cards.1 s ∧ (requests cards.1).length = 1 ∧
      (limiterAfter cards.1 s).1.minuteRequests = 2 ∧ ¬ OneTokenPerRequest cards.1 s) ∧
    (RunsUndisturbed users.1 s ∧ (requests users.1).length = 2 ∧
      (limiterAfter users.1 s).1.minuteRequests = 3 ∧ ¬ OneTokenPerRequest users.1 s) ∧
    (RunsUndisturbed boards.1 s ∧ (requests boards.1).length = 2 ∧
      (limiterAfter boards.1 s).1.minuteRequests = 3 ∧ ¬ OneTokenPerRequest boards.1 s) := by
  decide +kernel

end Modes

end Kaiten

import Kunstkammer.Listing.Cards
import Kunstkammer.Listing.Users

/-!
# The paginated fetchers

What `get_users_paginated`, `get_cards_paginated` and `get_boards_paginated` make of a response,
whatever the server and the limit.

* `FullPage`: the items after which a listing goes on;
* `IsPage`: a result that is made of a response, with its items and with `has_more` set for as
  many items as were asked for;
* `getBoardsPaginated`; `isPage_getUsersPaginated`, `isPage_getCardsPaginated` and
  `isPage_getBoardsPaginated`: the three fetchers, all asking for the clamped limit.
-/

namespace Kaiten

/-- The items of a page after which a listing with this limit goes on. -/
def FullPage {α : Type*} (limit : ℤ) (items : List α) : Prop :=
  items ≠ [] ∧ items.length = toSize limit

/-- `r` is made of a response, which holds a list of items or is no page. -/
structure IsPage {α : Type*} (limit : ℤ) (response : Option (List α)) (r : PaginatedResult α) :
    Prop where
  items : r.items = response.getD []
  hasMore : r.hasMore = true ↔ ∃ items, response = some items ∧ items.length = toSize limit

section Pages

variable {α : Type*} {limit : ℤ} {response : Option (List α)} {r : PaginatedResult α}

theorem IsPage.of_response (safe : PaginationParams) (hlimit : safe.limit = limit)
    (hsome : ∀ items, response = some items →
      r.items = items ∧ r.hasMore = (PaginatedResult.ofItems safe items).hasMore)
    (hnone : response = none → r = {}) : IsPage limit response r := by
  cases response with
  | none =>
    rw [hnone rfl]
    exact ⟨rfl, by simp⟩
  | some items =>
    obtain ⟨hitems, hmore⟩ := hsome items rfl
    refine ⟨hitems, ?_⟩
    rw [hmore, PaginatedResult.ofItems, hlimit]
    simp

/-- A listing goes on after the full pages. -/
theorem IsPage.fullPage_iff (h : IsPage limit response r) :
    FullPage limit (response.getD []) ↔ r.items ≠ [] ∧ r.hasMore = true := by
  rw [h.hasMore, h.items, FullPage]
  cases response with
  | none => simp
  | some items => simp

end Pages

variable {Text α : Type} (json : Nlohmann Text) (fromJson : Json → Option α)

/-- The items of a response. -/
def itemsOf (response : ℤ × Text) : List α := (decodeItems json fromJson response).getD []

theorem clamp_of_le {pagination : PaginationParams} (h : pagination.limit ≤ 100) :
    pagination.clamp = pagination := if_neg (by omega)

/-! ### Users -/

namespace UserOperations

variable (client : Query UserFilterParams → ℤ × Text) (filters : UserFilterParams)

/-- The items at `offset`, asked for with this limit. -/
def itemsAt (limit offset : ℤ) : List α :=
  itemsOf json fromJson
    (client (QueryBuilder.buildUsers { limit := limit, offset := offset } filters))

theorem isPage_getUsersPaginated (pagination : PaginationParams) :
    IsPage pagination.clamp.limit
      (decodeItems json fromJson (client (QueryBuilder.buildUsers pagination.clamp filters)))
      (getUsersPaginated json fromJson client pagination filters) := by
  refine IsPage.of_response pagination.clamp rfl (fun items h => ?_) fun h => ?_
  · simp [getUsersPaginated, h, PaginatedResult.ofItems]
  · simp [getUsersPaginated, h]

end UserOperations

/-! ### Cards -/

namespace CardOperations

variable (client : Query CardFilterParams → ℤ × Text)

/-- The items at `offset`, asked for with the other parameters. -/
def itemsAt (pagination : PaginationParams) (filters : CardFilterParams) (offset : ℤ) : List α :=
  itemsOf json fromJson
    (client (QueryBuilder.build { pagination with offset := offset } filters))

theorem isPage_getCardsPaginated (pagination : PaginationParams) (filters : CardFilterParams) :
    IsPage pagination.clamp.limit
      (decodeItems json fromJson (client (QueryBuilder.build pagination.clamp filters)))
      (getCardsPaginated json fromJson client pagination filters) := by
  refine IsPage.of_response pagination.clamp rfl (fun items h => ?_) fun h => ?_
  · simp [getCardsPaginated, h, PaginatedResult.ofItems]
  · simp [getCardsPaginated, h]

theorem isPage_at {params : PaginationParams} (h : params.limit ≤ 100)
    (filters : CardFilterParams) (offset : ℤ) :
    IsPage params.limit
      (decodeItems json fromJson
        (client (QueryBuilder.build { params with offset := offset } filters)))
      (getCardsPaginated json fromJson client { params with offset := offset } filters) := by
  have hclamp : PaginationParams.clamp { params with offset := offset } =
      { params with offset := offset } := clamp_of_le h
  have hpage := isPage_getCardsPaginated json fromJson client { params with offset := offset }
    filters
  rwa [hclamp] at hpage

end CardOperations

/-! ### Boards -/

namespace BoardOperations

variable (client : Query CardFilterParams → ℤ × Text)

/-- `get_boards_paginated`: the query is the one of cards without filters. -/
def getBoardsPaginated (pagination : PaginationParams) : PaginatedResult α :=
  let safePagination := pagination.clamp
  match decodeItems json fromJson (client (QueryBuilder.build safePagination {})) with
  | some items => { PaginatedResult.ofItems safePagination items with totalCount := 0 }
  | none => {}

theorem isPage_getBoardsPaginated (pagination : PaginationParams) :
    IsPage pagination.clamp.limit
      (decodeItems json fromJson (client (QueryBuilder.build pagination.clamp {})))
      (getBoardsPaginated json fromJson client pagination) := by
  refine IsPage.of_response pagination.clamp rfl (fun items h => ?_) fun h => ?_
  · simp [getBoardsPaginated, h, PaginatedResult.ofItems]
  · simp [getBoardsPaginated, h]

end BoardOperations

end Kaiten

import Mathlib.Tactic
import Kunstkammer.Foundation.Paging
import Kunstkammer.Json

/-!
# Pagination: parameters, queries and pages

The data of `pagination.hpp` and what the two paginated fetchers share.

* `PaginationParams`, `CardFilterParams`, `UserFilterParams`, `PaginatedResult`;
* `Query`, `QueryBuilder.build`: the parameters a request carries to the server;
* `decodeItems`: a response is a page only if it has status 200 and its body is an array whose
  elements all decode; anything else yields the same empty result;
* `Listing`: the requests of a run and its outcome.  `int` offsets are integers, and an addition
  that leaves the range of `int` is an outcome of its own, since the source gives it no meaning;
* `Serves`: a server that holds a fixed list and answers each request with its slice or not at
  all; `EndsAt` and `lossy` of `Foundation.Paging` describe what a reader of it sees.
-/

namespace Kaiten

open Paging

/-- Parameters of one page request. -/
structure PaginationParams where
  limit : ℤ := 100
  offset : ℤ := 0
  sortBy : Str := []
  sortOrder : Str := []

/-- Card filters. -/
structure CardFilterParams where
  boardId : Option Int64 := none
  laneId : Option Int64 := none
  columnId : Option Int64 := none
  ownerId : Option Int64 := none
  memberId : Option Int64 := none
  typeId : Option Int64 := none
  typeName : Option Str := none
  state : Option Str := none
  number : Option Str := none
  archived : Option Bool := none
  blocked : Option Bool := none
  asap : Option Bool := none
  condition : Option Int32 := none
  search : Option Str := none
  createdAfter : Option Str := none
  createdBefore : Option Str := none
  updatedAfter : Option Str := none
  updatedBefore : Option Str := none
  customFilters : OrdMap Str Str := OrdMap.empty
  deriving DecidableEq

/-- User filters. -/
structure UserFilterParams where
  activated : Option Bool := none
  virtualUser : Option Bool := none
  search : Option Str := none
  deriving DecidableEq

/-- One page as the fetchers return it; the default value stands for every failure. -/
structure PaginatedResult (α : Type*) where
  items : List α := []
  totalCount : ℤ := 0
  limit : ℤ := 0
  offset : ℤ := 0
  hasMore : Bool := false

/-- The parameters of a request: `limit` always, the others only when they are sent. -/
structure Query (F : Type*) where
  limit : ℤ
  offset : Option ℤ
  sort : Option Str
  order : Option Str
  filters : F

/-- `Query_builder::build` with card filters. -/
def QueryBuilder.build (pagination : PaginationParams) (filters : CardFilterParams) :
    Query CardFilterParams where
  limit := pagination.limit
  offset := if pagination.offset > 0 then some pagination.offset else none
  sort := if pagination.sortBy ≠ [] then some pagination.sortBy else none
  order :=
    if pagination.sortBy ≠ [] ∧ pagination.sortOrder ≠ [] then some pagination.sortOrder else none
  filters := filters

/-- `Query_builder::build` with user filters: the sort parameters are not sent. -/
def QueryBuilder.buildUsers (pagination : PaginationParams) (filters : UserFilterParams) :
    Query UserFilterParams where
  limit := pagination.limit
  offset := if pagination.offset > 0 then some pagination.offset else none
  sort := none
  order := none
  filters := filters

/-! ### Machine arithmetic -/

/-- The largest `int`. -/
def intMax : ℕ := 2147483647

/-- `a + b` on `int`; `none` where it overflows. -/
def addInt (a b : ℤ) : Option ℤ :=
  if -(intMax : ℤ) - 1 ≤ a + b ∧ a + b ≤ intMax then some (a + b) else none

/-- `page()` and `get_current_page()`: without a limit, or out of the range of `int`, there is no
page number. -/
def PaginationParams.page (pagination : PaginationParams) : Option ℤ :=
  if pagination.limit = 0 then none else addInt (pagination.offset.tdiv pagination.limit) 1

/-- `n` is a value of `int`. -/
def FitsInt (n : ℤ) : Prop := -(intMax : ℤ) - 1 ≤ n ∧ n ≤ intMax

instance : DecidablePred FitsInt := fun _ => instDecidableAnd

/-- `static_cast<size_t>` of an `int`. -/
def toSize (n : ℤ) : ℕ := (n % 2 ^ 64).toNat

theorem addInt_eq (a b : ℤ) : addInt a b = if FitsInt (a + b) then some (a + b) else none := rfl

theorem fitsInt_natCast {n : ℕ} : FitsInt (n : ℤ) ↔ n ≤ intMax := by
  unfold FitsInt; omega

/-- The multiples of a number that fit into `int` are the first ones. -/
theorem antitone_fitsInt_mul (L : ℤ) : Antitone fun k : ℕ => FitsInt (k * L) := by
  intro i j hij hfits
  have hcast : (i : ℤ) ≤ j := by exact_mod_cast hij
  have hi : (0 : ℤ) ≤ i := Int.natCast_nonneg i
  unfold FitsInt at *
  rcases le_total 0 L with hL | hL
  · have hle := mul_le_mul_of_nonneg_right hcast hL
    have hpos := mul_nonneg hi hL
    omega
  · have hle := mul_le_mul_of_nonpos_right hcast hL
    have hneg := mul_nonpos_of_nonneg_of_nonpos hi hL
    omega

theorem addInt_of_nonneg {a b : ℤ} (h : 0 ≤ a + b) :
    addInt a b = if a + b ≤ intMax then some (a + b) else none := by
  unfold addInt
  simp only [show -(intMax : ℤ) - 1 ≤ a + b by omega, true_and]

theorem toSize_natCast {L : ℕ} (h : L < 2 ^ 64) : toSize (L : ℤ) = L := by
  unfold toSize
  rw [Int.emod_eq_of_lt (by omega) (by exact_mod_cast h), Int.toNat_natCast]

/-! ### Responses -/

section Responses

variable {Text α : Type*} (json : Nlohmann Text) (fromJson : Json → Option α)

/-- The items of a response, `none` for one that is not a page: a status other than 200 (`-1`
when the request itself failed), a body that does not parse or is no array, or an element that
does not decode. -/
def decodeItems (response : ℤ × Text) : Option (List α) :=
  if response.1 ≠ 200 then none
  else (json.parse response.2).bind fun j => j.elements?.bind fun l => l.mapM fromJson

/-- The limit is cut to the maximum of the API. -/
def PaginationParams.clamp (pagination : PaginationParams) : PaginationParams :=
  if pagination.limit > 100 then { pagination with limit := 100 } else pagination

/-- The result made of the items of a page requested with `safe`. -/
def PaginatedResult.ofItems (safe : PaginationParams) (items : List α) : PaginatedResult α where
  items := items
  totalCount := (items.length : ℤ).bmod (2 ^ 32)
  limit := safe.limit
  offset := safe.offset
  hasMore := items.length = toSize safe.limit

end Responses

/-! ### The pages of a run -/

/-- The `limit` of all requests of a run with this page size. -/
def pageLimit (pageSize : ℤ) : ℕ := (min pageSize 100).toNat

theorem pageLimit_pos {pageSize : ℤ} (h : 1 ≤ pageSize) : 0 < pageLimit pageSize := by
  unfold pageLimit; omega

theorem pageLimit_le (pageSize : ℤ) : pageLimit pageSize ≤ 100 := by unfold pageLimit; omega

theorem limit_eq_pageLimit {pageSize : ℤ} (h : 1 ≤ pageSize) :
    (if pageSize > 100 then 100 else pageSize) = (pageLimit pageSize : ℤ) := by
  unfold pageLimit; split_ifs <;> omega

/-- The parameters for page `k`. -/
def pageParams (L k : ℕ) : PaginationParams := { limit := L, offset := ((k * L : ℕ) : ℤ) }

theorem pageParams_offset (L k : ℕ) :
    ({ pageParams L 0 with offset := ((k * L : ℕ) : ℤ) } : PaginationParams) = pageParams L k :=
  rfl

/-- The offset of the next page, where it fits. -/
theorem addInt_pageParams (L k : ℕ) : addInt ((k * L : ℕ) : ℤ) (pageParams L 0).limit =
    if (k + 1) * L ≤ intMax then some (((k + 1) * L : ℕ) : ℤ) else none := by
  have hnext : ((k * L : ℕ) : ℤ) + (pageParams L 0).limit = (((k + 1) * L : ℕ) : ℤ) := by
    show ((k * L : ℕ) : ℤ) + (L : ℤ) = _
    push_cast; ring
  have hnonneg : 0 ≤ ((k * L : ℕ) : ℤ) + (pageParams L 0).limit := by rw [hnext]; positivity
  rw [addInt_of_nonneg hnonneg, hnext]
  norm_cast

theorem clamp_pageParams {L : ℕ} (hL100 : L ≤ 100) (k : ℕ) :
    (pageParams L k).clamp = pageParams L k := by
  unfold PaginationParams.clamp
  rw [if_neg (by simp only [pageParams]; omega)]

/-- The result of fetching page `k` when its items are `P k`. -/
structure PageResult {α : Type*} (L : ℕ) (P : ℕ → List α) (k : ℕ) (r : PaginatedResult α) :
    Prop where
  items : r.items = P k
  hasMore : r.hasMore = decide ((P k).length = L)

/-- A fetcher that yields the items of a page, or the default result where there is none. -/
theorem PageResult.of_decode {α : Type*} {L : ℕ} (hL : 0 < L) (hL100 : L ≤ 100)
    {P : ℕ → List α} {k : ℕ} {o : Option (List α)} {r : PaginatedResult α} (hP : P k = o.getD [])
    (hsome : ∀ items, o = some items → r.items = items ∧
      r.hasMore = decide (items.length = toSize (L : ℤ)))
    (hnone : o = none → r = {}) : PageResult L P k r := by
  cases o with
  | none =>
    rw [Option.getD_none] at hP
    rw [hnone rfl]
    exact ⟨hP.symm, by simp [hP, hL.ne]⟩
  | some items =>
    rw [Option.getD_some] at hP
    obtain ⟨hitems, hmore⟩ := hsome items rfl
    exact ⟨hitems.trans hP.symm, by rw [hmore, hP, toSize_natCast (by omega)]⟩

/-! ### Runs -/

/-- How a listing ends.  `running` means that the fuel was used up. -/
inductive Outcome (α : Type*)
  | returned (status : ℤ) (items : List α)
  | overflow
  | running
  deriving DecidableEq

/-- A run: the requests in the order they are made, and the outcome. -/
structure Listing (F α : Type*) where
  requests : List (Query F)
  outcome : Outcome α

/-- The run that makes the requests `qs` first. -/
def Listing.prepend {F α : Type*} (qs : List (Query F)) (r : Listing F α) : Listing F α :=
  { r with requests := qs ++ r.requests }

/-- A listing that returns the status 200 has every item of `S`. -/
def Outcome.Complete {α : Type*} (S : List α) : Outcome α → Prop
  | .returned status items => status = 200 → S.Subperm items
  | _ => False

/-- A listing with a failed request returns a status other than 200. -/
def Listing.ReportsFailures {F α : Type*} (fails : Query F → Prop) (r : Listing F α) : Prop :=
  match r.outcome with
  | .returned status _ => (∃ q ∈ r.requests, fails q) → status ≠ 200
  | _ => False

/-! ### Servers -/

section Servers

variable {Text α F : Type*}

/-- The items `[offset, offset + limit)` of `l`. -/
def Query.slice (q : Query F) (l : List α) : List α :=
  (l.drop (q.offset.getD 0).toNat).take q.limit.toNat

/-- The request for page `k`, as `Query_builder::build` makes it, asks for that page. -/
theorem Query.slice_eq_page {q : Query F} {L k : ℕ} (hlimit : q.limit = L)
    (hoffset : q.offset = if ((k * L : ℕ) : ℤ) > 0 then some ((k * L : ℕ) : ℤ) else none)
    (l : List α) : q.slice l = page L l k := by
  have hoff : (q.offset.getD 0).toNat = k * L := by
    rw [hoffset]
    split_ifs with h
    · rw [Option.getD_some, Int.toNat_natCast]
    · rw [Option.getD_none]; omega
  rw [Query.slice, hoff, hlimit, Int.toNat_natCast]
  rfl

variable (json : Nlohmann Text) (fromJson : Json → Option α)

/-- The request `q` fails: the response to it is no page. -/
def Fails (client : Query F → ℤ × Text) (q : Query F) : Prop :=
  decodeItems json fromJson (client q) = none

instance (client : Query F → ℤ × Text) : DecidablePred (Fails json fromJson client) := fun q =>
  decidable_of_iff ((decodeItems json fromJson (client q)).isNone = true) Option.isNone_iff_eq_none

/-- The server behind `client` holds the list `S` under `filters`: every request with these
filters is answered with its slice of `S`, or fails. -/
def Serves (client : Query F → ℤ × Text) (filters : F) (S : List α) : Prop :=
  ∀ q, q.filters = filters →
    Fails json fromJson client q ∨ decodeItems json fromJson (client q) = some (q.slice S)

variable {json fromJson}

/-- What a reader gets to see of page `k`, the page requested by `ask k`. -/
theorem Serves.items {client : Query F → ℤ × Text} {filters : F} {S : List α} {L : ℕ}
    (h : Serves json fromJson client filters S) {ask : ℕ → Query F}
    (hask : ∀ k, (ask k).filters = filters) (hslice : ∀ k, (ask k).slice S = page L S k) (k : ℕ) :
    (decodeItems json fromJson (client (ask k))).getD [] =
      lossy (page L S) (fun k => Fails json fromJson client (ask k)) k := by
  rcases h (ask k) (hask k) with hf | hk
  · rw [lossy_of_fails hf, hf, Option.getD_none]
  · have hok : ¬ Fails json fromJson client (ask k) := by simp [Fails, hk]
    rw [lossy_of_ok hok, hk, Option.getD_some, hslice]

end Servers

/-- A response with the items `l`, as a syntax tree. -/
def pageResponse {α : Type*} (encode : α → Json) (l : List α) : ℤ × Option Json :=
  (200, some (.array (l.map encode)))

theorem mapM_map_of_inverse {α : Type*} {fromJson : Json → Option α} {encode : α → Json}
    (h : ∀ a, fromJson (encode a) = some a) (l : List α) :
    (l.map encode).mapM fromJson = some l := by
  induction l with
  | nil => rfl
  | cons a l ih => rw [List.map_cons, List.mapM_cons, h, ih]; rfl

theorem decodeItems_pageResponse {α : Type*} {fromJson : Json → Option α} {encode : α → Json}
    (h : ∀ a, fromJson (encode a) = some a) (l : List α) :
    decodeItems .symbolic fromJson (pageResponse encode l) = some l := by
  have hstatus : ¬ (pageResponse encode l).1 ≠ 200 := fun hne => hne rfl
  rw [decodeItems, if_neg hstatus]
  exact mapM_map_of_inverse h l

/-- Items that are read back as they are written are read back from a page. -/
theorem decodeItems_written {α : Type*} {fromJson : Json → Option α} {encode : α → Json}
    {l : List α} (h : ∀ a ∈ l, fromJson (encode a) = some a) :
    decodeItems .symbolic fromJson (pageResponse encode l) = some l := by
  have hmap : (l.map encode).mapM fromJson = some l := by
    induction l with
    | nil => rfl
    | cons a l ih =>
      rw [List.forall_mem_cons] at h
      rw [List.map_cons, List.mapM_cons, h.1, ih h.2]
      rfl
  exact hmap

theorem mem_of_mem_slice {F α : Type*} {q : Query F} {S : List α} {a : α} (h : a ∈ q.slice S) :
    a ∈ S := List.mem_of_mem_drop (List.mem_of_mem_take h)

end Kaiten

import Kunstkammer.Listing.Fetchers

/-!
# Pagination by offset and limit

`paginate_with_offset_limit` of `modes.cpp`, with `get_users_paginated` or `get_boards_paginated` as
its fetcher.  The fetcher cuts the limit to 100 and decides by the cut limit whether there is more;
the loop moves on by the limit it was given.

* `Action`, `Pass`: what a pass over a collection does, and its result;
* `paginateWithOffsetLimit`; `Slicing`: a fetcher for a collection served as slices;
* `paginateLoop_full`, `paginateLoop_last`: the rounds of the loop;
* `delivers_iff`: when a pass delivers what is due;
* `paginate_delivers_iff`: the same for users and boards.
-/

namespace Kaiten

namespace Modes

section Model

variable {F α : Type}

/-- A step of a pass: the request of a fetcher, a call of the handler, a call of `wait_if_needed` on
the global limiter. -/
inductive Action (F α : Type)
  | fetch (request : Query F)
  | handle (page : PaginatedResult α)
  | wait

/-- The items a step gives to the handler. -/
def Action.items : Action F α → List α
  | .fetch _ => []
  | .handle page => page.items
  | .wait => []

/-- A pass: its steps, and whether it found any items; `none` if its offset overflows. -/
structure Pass (F α : Type) where
  actions : List (Action F α)
  result : Option Bool

/-- The pass that takes the steps `actions` first. -/
def Pass.prepend (actions : List (Action F α)) (pass : Pass F α) : Pass F α :=
  { pass with actions := actions ++ pass.actions }

/-- The items a pass gives to its handler. -/
def Pass.handled (pass : Pass F α) : List α := pass.actions.flatMap Action.items

/-- A pass that comes to its end delivers what it gives to its handler. -/
def Pass.Delivers (pass : Pass F α) (items : List α) : Prop :=
  pass.result.isSome ∧ pass.handled = items

/-- A fetcher: its request and the page it makes of the response. -/
abbrev Fetcher (F α : Type) := PaginationParams → Query F × PaginatedResult α

/-- `total_items += n`, with the conversions between `int` and `size_t`. -/
def addItems (totalItems : ℤ) (n : ℕ) : ℤ := (totalItems + n).bmod (2 ^ 32)

/-- The loop of `paginate_with_offset_limit`, `remaining` being what is left of `max_requests`. -/
def paginateLoop (fetcher : Fetcher F α) : ℕ → PaginationParams → ℤ → Pass F α
  | 0, _, totalItems => ⟨[], some (totalItems > 0)⟩
  | remaining + 1, params, totalItems =>
      let request := (fetcher params).1
      let page := (fetcher params).2
      if page.items.isEmpty then ⟨[.fetch request], some (totalItems > 0)⟩
      else
        let totalItems := addItems totalItems page.items.length
        if page.hasMore then
          match addInt params.offset params.limit with
          | none => ⟨[.fetch request, .handle page], none⟩
          | some next =>
              (paginateLoop fetcher remaining { params with offset := next } totalItems).prepend
                [.fetch request, .handle page, .wait]
        else ⟨[.fetch request, .handle page], some (totalItems > 0)⟩

/-- `paginate_with_offset_limit`; the default of `max_requests` is 1000. -/
def paginateWithOffsetLimit (fetcher : Fetcher F α) (initialParams : PaginationParams)
    (maxRequests : ℤ) : Pass F α :=
  paginateLoop fetcher maxRequests.toNat initialParams 0

theorem Pass.delivers_prepend {actions : List (Action F α)} {pass : Pass F α} {items : List α} :
    (pass.prepend actions).Delivers items ↔
      ∃ rest, items = actions.flatMap Action.items ++ rest ∧ pass.Delivers rest := by
  unfold Pass.Delivers Pass.handled Pass.prepend
  rw [List.flatMap_append]
  constructor
  · rintro ⟨hresult, rfl⟩
    exact ⟨_, rfl, hresult, rfl⟩
  · rintro ⟨rest, rfl, hresult, rfl⟩
    exact ⟨hresult, rfl⟩

variable {Text : Type} (json : Nlohmann Text) (fromJson : Json → Option α)

/-- `get_users_paginated` as a fetcher. -/
def userFetcher (client : Query UserFilterParams → ℤ × Text) (filters : UserFilterParams) :
    Fetcher UserFilterParams α := fun pagination =>
  (QueryBuilder.buildUsers pagination.clamp filters,
    UserOperations.getUsersPaginated json fromJson client pagination filters)

/-- `get_boards_paginated` as a fetcher. -/
def boardFetcher (client : Query CardFilterParams → ℤ × Text) : Fetcher CardFilterParams α :=
  fun pagination =>
    (QueryBuilder.build pagination.clamp {},
      BoardOperations.getBoardsPaginated json fromJson client pagination)

end Model

/-! ### Collections served as slices -/

section Slices

variable {F α : Type}

/-- The fetcher gets the slices of `S`, with at most 100 items, and tells full ones. -/
structure Slicing (S : List α) (fetcher : Fetcher F α) : Prop where
  items : ∀ params, (fetcher params).2.items =
    (S.drop params.offset.toNat).take (min params.limit 100).toNat
  hasMore : ∀ params, 1 ≤ params.limit →
    ((fetcher params).2.hasMore = true ↔
      (fetcher params).2.items.length = (min params.limit 100).toNat)

theorem clamp_limit (pagination : PaginationParams) :
    pagination.clamp.limit = min pagination.limit 100 := by
  unfold PaginationParams.clamp
  split_ifs with h
  · exact (min_eq_right h.le).symm
  · exact (min_eq_left (not_lt.1 h)).symm

theorem clamp_offset (pagination : PaginationParams) :
    pagination.clamp.offset = pagination.offset := by
  unfold PaginationParams.clamp
  split_ifs <;> rfl

/-- A request for a slice, as `Query_builder::build` makes it. -/
theorem slice_of_offset {q : Query F} {offset : ℤ}
    (h : q.offset = if offset > 0 then some offset else none) (S : List α) :
    q.slice S = (S.drop offset.toNat).take q.limit.toNat := by
  rw [Query.slice, h]
  split_ifs with hpos
  · rfl
  · have hzero : offset.toNat = 0 := Int.toNat_of_nonpos (by omega)
    rw [Option.getD_none, hzero]
    rfl

/-- A page made of a slice. -/
theorem slicing_of_isPage {S : List α} {fetcher : Fetcher F α}
    (hpage : ∀ params, IsPage (min params.limit 100)
      (some ((S.drop params.offset.toNat).take (min params.limit 100).toNat)) (fetcher params).2) :
    Slicing S fetcher where
  items params := (hpage params).items
  hasMore params hlimit := by
    have hsize : toSize (min params.limit 100) = (min params.limit 100).toNat := by
      obtain ⟨n, hn⟩ : ∃ n : ℕ, min params.limit 100 = n := ⟨(min params.limit 100).toNat, by omega⟩
      rw [hn, toSize_natCast (by omega), Int.toNat_natCast]
    rw [(hpage params).hasMore, (hpage params).items, hsize]
    simp

variable {Text : Type} {json : Nlohmann Text} {fromJson : Json → Option α}

theorem slicing_userFetcher {client : Query UserFilterParams → ℤ × Text}
    {filters : UserFilterParams} {S : List α}
    (hserves : ∀ q, q.filters = filters → decodeItems json fromJson (client q) = some (q.slice S)) :
    Slicing S (userFetcher json fromJson client filters) := by
  apply slicing_of_isPage
  intro params
  have hpage := UserOperations.isPage_getUsersPaginated json fromJson client filters params
  rw [hserves _ rfl, slice_of_offset rfl] at hpage
  rw [← clamp_limit, ← clamp_offset]
  exact hpage

theorem slicing_boardFetcher {client : Query CardFilterParams → ℤ × Text} {S : List α}
    (hserves : ∀ q, q.filters = {} → decodeItems json fromJson (client q) = some (q.slice S)) :
    Slicing S (boardFetcher json fromJson client) := by
  apply slicing_of_isPage
  intro params
  have hpage := BoardOperations.isPage_getBoardsPaginated json fromJson client params
  rw [hserves _ rfl, slice_of_offset rfl] at hpage
  rw [← clamp_limit, ← clamp_offset]
  exact hpage

/-! ### The rounds -/

variable {S : List α} {fetcher : Fetcher F α} (hslice : Slicing S fetcher)
  {params : PaginationParams} {o L : ℕ} (ho : params.offset = o) (hL : params.limit = L)
  (hpos : 0 < L)

include hslice ho hL

/-- The items of a page. -/
theorem items_of_slicing : (fetcher params).2.items = (S.drop o).take (min L 100) := by
  rw [hslice.items, ho, hL, Int.toNat_natCast]
  congr 1
  omega

include hpos

/-- A full page: the loop goes on with the next offset, if that is an `int`. -/
theorem paginateLoop_full (hfull : o + min L 100 ≤ S.length) (n : ℕ) (total : ℤ) (items : List α) :
    (paginateLoop fetcher (n + 1) params total).Delivers items ↔
      o + L ≤ intMax ∧ ∃ rest, items = (S.drop o).take (min L 100) ++ rest ∧
        (paginateLoop fetcher n { params with offset := (o + L : ℕ) }
          (addItems total (min L 100))).Delivers rest := by
  have hitems := items_of_slicing hslice ho hL
  have hlength : (fetcher params).2.items.length = min L 100 := by
    rw [hitems, List.length_take, List.length_drop]
    omega
  have hmore : (fetcher params).2.hasMore = true := by
    rw [hslice.hasMore params (by omega), hlength, hL]
    omega
  have hne : ¬ (fetcher params).2.items.isEmpty = true := by
    rw [List.isEmpty_iff, ← List.length_eq_zero_iff, hlength]
    omega
  have hnext : params.offset + params.limit = (o + L : ℕ) := by
    rw [ho, hL, Nat.cast_add]
  rw [paginateLoop]
  simp only [if_neg hne, if_pos hmore, addInt_eq, hnext, fitsInt_natCast, hlength]
  by_cases hfits : o + L ≤ intMax
  · rw [if_pos hfits, and_iff_right hfits, ← hitems]
    have hactions : [Action.fetch (fetcher params).1, .handle (fetcher params).2, .wait].flatMap
        Action.items = (fetcher params).2.items := by
      simp [Action.items]
    rw [← hactions]
    exact Pass.delivers_prepend
  · rw [if_neg hfits]
    simp [Pass.Delivers, hfits]

/-- A page that is not full is the last one. -/
theorem paginateLoop_last (hlast : S.length < o + min L 100) (n : ℕ) (total : ℤ)
    (items : List α) :
    (paginateLoop fetcher (n + 1) params total).Delivers items ↔ S.drop o = items := by
  have hitems := items_of_slicing hslice ho hL
  rw [List.take_of_length_le (by rw [List.length_drop]; omega)] at hitems
  have hmore : ¬ (fetcher params).2.hasMore = true := by
    rw [hslice.hasMore params (by omega), hitems, List.length_drop, hL]
    omega
  rw [paginateLoop]
  simp only [if_neg hmore]
  split_ifs with hnil
  · rw [List.isEmpty_iff, hitems] at hnil
    simp [Pass.Delivers, Pass.handled, Action.items, hnil]
  · simp [Pass.Delivers, Pass.handled, Action.items, hitems]

/-- What a pass delivers begins with the item at its offset. -/
theorem head?_of_delivers (n : ℕ) (total : ℤ) {items : List α}
    (h : (paginateLoop fetcher (n + 1) params total).Delivers items) :
    items.head? = S[o]? := by
  rcases Nat.lt_or_ge S.length (o + min L 100) with hlast | hfull
  · rw [← (paginateLoop_last hslice ho hL hpos hlast n total items).1 h, List.head?_drop]
  · obtain ⟨-, rest, rfl, -⟩ := (paginateLoop_full hslice ho hL hpos hfull n total items).1 h
    rw [List.head?_append_of_ne_nil, List.head?_take, if_neg (by omega), List.head?_drop]
    rw [Ne, ← List.length_eq_zero_iff, List.length_take, List.length_drop]
    omega

/-! ### Whole passes -/

/-- **A limit of at most 100**: everything due is delivered, unless the offset overflows. -/
theorem delivers_iff_of_le (hle : L ≤ 100) (hofits : o ≤ intMax) (n : ℕ) (total : ℤ) :
    (paginateLoop fetcher n params total).Delivers ((S.drop o).take (n * L)) ↔
      o + min n ((S.length - o) / L) * L ≤ intMax := by
  induction n generalizing o params total with
  | zero => simp [paginateLoop, Pass.Delivers, Pass.handled, hofits]
  | succ n ih =>
    have hmin : min L 100 = L := min_eq_left hle
    rcases Nat.lt_or_ge S.length (o + L) with hlast | hfull
    · have hzero : (S.length - o) / L = 0 := Nat.div_eq_of_lt (by omega)
      have hroom : (S.drop o).length ≤ (n + 1) * L := by
        rw [List.length_drop, Nat.succ_mul]
        omega
      rw [paginateLoop_last hslice ho hL hpos (by omega), List.take_of_length_le hroom, hzero]
      simpa using hofits
    · have hdiv : (S.length - o) / L = (S.length - (o + L)) / L + 1 := by
        rw [← Nat.add_div_right _ hpos]
        congr 1
        omega
      have hbound : o + min (n + 1) ((S.length - o) / L) * L =
          o + L + min n ((S.length - (o + L)) / L) * L := by
        rw [hdiv, Nat.add_min_add_right, Nat.succ_mul]
        omega
      have hsplit : (S.drop o).take ((n + 1) * L) =
          (S.drop o).take L ++ (S.drop (o + L)).take (n * L) := by
        rw [Nat.succ_mul, Nat.add_comm, List.take_add, List.drop_drop]
      have hparams : PaginationParams.limit { params with offset := (o + L : ℕ) } = L := hL
      rw [paginateLoop_full hslice ho hL hpos (by omega), hbound, hsplit, hmin]
      constructor
      · rintro ⟨hfits, rest, hrest, hdelivers⟩
        rw [← List.append_cancel_left hrest] at hdelivers
        exact (ih rfl hparams hfits _).1 hdelivers
      · intro hfits
        have hnext : o + L ≤ intMax := (Nat.le_add_right _ _).trans hfits
        exact ⟨hnext, _, rfl, (ih rfl hparams hnext _).2 hfits⟩

/-- The limit loses no items: it is not cut, or what is left fits into one page, or only one page
is asked for. -/
def LosesNothing (length o L maxRequests : ℕ) : Prop :=
  L ≤ 100 ∨ length ≤ o + 100 ∨ maxRequests = 1

/-- The offsets of the pages up to the one after the last full page are values of `int`. -/
def OffsetsFit (length o L maxRequests : ℕ) : Prop :=
  o + min maxRequests ((length - o) / min L 100) * L ≤ intMax

instance (length o L maxRequests : ℕ) : Decidable (LosesNothing length o L maxRequests) :=
  inferInstanceAs (Decidable (_ ∨ _ ∨ _))

instance (length o L maxRequests : ℕ) : Decidable (OffsetsFit length o L maxRequests) :=
  inferInstanceAs (Decidable (_ ≤ _))

/-- A limit above 100, on a full page: the next page is asked for at `o + L`, and it should be the
one at `o + 100`. -/
theorem delivers_iff_of_full (hgt : 100 < L) (hfull : o + 100 ≤ S.length) (n : ℕ) (total : ℤ) :
    (paginateLoop fetcher (n + 1) params total).Delivers ((S.drop o).take ((n + 1) * 100)) ↔
      o + L ≤ intMax ∧ (paginateLoop fetcher n { params with offset := (o + L : ℕ) }
        (addItems total 100)).Delivers ((S.drop (o + 100)).take (n * 100)) := by
  have hmin : min L 100 = 100 := min_eq_right hgt.le
  have hsplit : (S.drop o).take ((n + 1) * 100) =
      (S.drop o).take 100 ++ (S.drop (o + 100)).take (n * 100) := by
    rw [Nat.succ_mul, Nat.add_comm, List.take_add, List.drop_drop]
  rw [paginateLoop_full hslice ho hL hpos (by omega), hsplit, hmin]
  constructor
  · rintro ⟨hfits, rest, hrest, hdelivers⟩
    rw [← List.append_cancel_left hrest] at hdelivers
    exact ⟨hfits, hdelivers⟩
  · rintro ⟨hfits, hdelivers⟩
    exact ⟨hfits, _, rfl, hdelivers⟩

/-- A limit above 100 delivers what is due when it loses no items. -/
theorem delivers_of_gt (hgt : 100 < L) {R : ℕ} (hR : 1 ≤ R) (total : ℤ)
    (hkeeps : LosesNothing S.length o L R) (hfits : OffsetsFit S.length o L R) :
    (paginateLoop fetcher R params total).Delivers ((S.drop o).take (R * 100)) := by
  obtain ⟨n, rfl⟩ := Nat.exists_eq_add_of_le' hR
  rcases Nat.lt_or_ge S.length (o + 100) with hlast | hfull
  · rw [paginateLoop_last hslice ho hL hpos (by omega)]
    exact (List.take_of_length_le (by rw [List.length_drop]; omega)).symm
  · have hpages : 1 ≤ min (n + 1) ((S.length - o) / min L 100) := by
      rw [min_eq_right hgt.le]
      exact le_min (Nat.succ_pos n) ((Nat.one_le_div_iff (by omega)).2 (by omega))
    have hnext : o + L ≤ intMax :=
      (Nat.add_le_add_left (Nat.le_mul_of_pos_left L hpages) o).trans hfits
    rw [delivers_iff_of_full hslice ho hL hpos hgt hfull, and_iff_right hnext]
    cases n with
    | zero => simp [paginateLoop, Pass.Delivers, Pass.handled]
    | succ n =>
      -- nothing is left after the first page
      have hlen : S.length ≤ o + 100 := by
        unfold LosesNothing at hkeeps
        omega
      have hparams : PaginationParams.limit { params with offset := (o + L : ℕ) } = L := hL
      rw [paginateLoop_last hslice rfl hparams hpos (by omega), List.drop_of_length_le hlen,
        List.drop_of_length_le (by omega), List.take_nil]

/-- A limit above 100 that loses items does not deliver what is due, if the items differ. -/
theorem losesNothing_of_delivers (hgt : 100 < L) {R : ℕ} (hR : 1 ≤ R) (total : ℤ)
    (hnodup : S.Nodup)
    (h : (paginateLoop fetcher R params total).Delivers ((S.drop o).take (R * 100))) :
    LosesNothing S.length o L R := by
  obtain ⟨n, rfl⟩ := Nat.exists_eq_add_of_le' hR
  by_contra hloses
  unfold LosesNothing at hloses
  obtain ⟨n, rfl⟩ : ∃ m, n = m + 1 := ⟨n - 1, by omega⟩
  have hparams : PaginationParams.limit { params with offset := (o + L : ℕ) } = L := hL
  have hrest := ((delivers_iff_of_full hslice ho hL hpos hgt (by omega) _ _).1 h).2
  -- the second page begins with the item at `o + L`, and the one at `o + 100` is due
  have hhead := head?_of_delivers hslice rfl hparams hpos n _ hrest
  rw [List.head?_take, if_neg (by omega), List.head?_drop] at hhead
  have hlt : o + 100 < S.length := by omega
  have heq := (List.getElem?_inj hlt hnodup).1 hhead
  omega

/-- The offsets of a pass that delivers what is due are values of `int`. -/
theorem offsetsFit_of_delivers (hgt : 100 < L) (hofits : o ≤ intMax) {R : ℕ} (hR : 1 ≤ R)
    (total : ℤ) (hkeeps : LosesNothing S.length o L R)
    (h : (paginateLoop fetcher R params total).Delivers ((S.drop o).take (R * 100))) :
    OffsetsFit S.length o L R := by
  obtain ⟨n, rfl⟩ := Nat.exists_eq_add_of_le' hR
  unfold OffsetsFit
  rw [min_eq_right hgt.le]
  rcases Nat.lt_or_ge S.length (o + 100) with hlast | hfull
  · rw [Nat.div_eq_of_lt (by omega)]
    simpa using hofits
  · have hnext := ((delivers_iff_of_full hslice ho hL hpos hgt hfull _ _).1 h).1
    have hpages : min (n + 1) ((S.length - o) / 100) ≤ 1 := by
      unfold LosesNothing at hkeeps
      omega
    have hle := Nat.mul_le_mul_right L hpages
    omega

/-- **When a pass delivers what is due.** -/
theorem delivers_iff (hofits : o ≤ intMax) {R : ℕ} (hR : 1 ≤ R) {due : List α}
    (hdue : due = (S.drop o).take (R * min L 100)) :
    (LosesNothing S.length o L R ∧ OffsetsFit S.length o L R →
      (paginateWithOffsetLimit fetcher params R).Delivers due) ∧
    (S.Nodup → (paginateWithOffsetLimit fetcher params R).Delivers due →
      LosesNothing S.length o L R ∧ OffsetsFit S.length o L R) := by
  rw [paginateWithOffsetLimit, Int.toNat_natCast, hdue]
  rcases Nat.lt_or_ge 100 L with hgt | hle
  · rw [min_eq_right hgt.le]
    constructor
    · rintro ⟨hkeeps, hfits⟩
      exact delivers_of_gt hslice ho hL hpos hgt hR 0 hkeeps hfits
    · intro hnodup hdelivers
      have hkeeps := losesNothing_of_delivers hslice ho hL hpos hgt hR 0 hnodup hdelivers
      exact ⟨hkeeps, offsetsFit_of_delivers hslice ho hL hpos hgt hofits hR 0 hkeeps hdelivers⟩
  · rw [min_eq_left hle, delivers_iff_of_le hslice ho hL hpos hle hofits, OffsetsFit,
      min_eq_left hle]
    exact ⟨fun h => h.2, fun _ hfits => ⟨Or.inl hle, hfits⟩⟩

end Slices

/-! ### Users and boards -/

/-- **Offset and limit pagination delivers every item once**, of the users or boards from `o` on, as
many as `R` pages of at most 100 items hold, exactly when its limit loses no items and its offsets
are values of `int`. -/
theorem paginate_delivers_iff {Text α : Type} (json : Nlohmann Text) (fromJson : Json → Option α)
    (S : List α) {o L R : ℕ} (hofits : o ≤ intMax) (hL : 1 ≤ L) (hR : 1 ≤ R)
    {params : PaginationParams} (hoffset : params.offset = o) (hlimit : params.limit = L) :
    let due := (S.drop o).take (R * min L 100)
    let keeps := LosesNothing S.length o L R ∧ OffsetsFit S.length o L R
    (∀ client filters, (∀ q, q.filters = filters →
        decodeItems json fromJson (client q) = some (q.slice S)) →
      let pass := paginateWithOffsetLimit (userFetcher json fromJson client filters) params R
      (keeps → pass.Delivers due) ∧ (S.Nodup → pass.Delivers due → keeps)) ∧
    (∀ client, (∀ q, q.filters = {} → decodeItems json fromJson (client q) = some (q.slice S)) →
      let pass := paginateWithOffsetLimit (boardFetcher json fromJson client) params R
      (keeps → pass.Delivers due) ∧ (S.Nodup → pass.Delivers due → keeps)) := by
  constructor
  · intro client filters hserves
    exact delivers_iff (slicing_userFetcher hserves) hoffset hlimit hL hofits hR rfl
  · intro client hserves
    exact delivers_iff (slicing_boardFetcher hserves) hoffset hlimit hL hofits hR rfl

/-- A server of the items `S`, known by their ids. -/
def slicesClient {F : Type} (S : List Int64) (q : Query F) : ℤ × Option Json :=
  pageResponse (fun id : Int64 => .integer id.toInt) (q.slice S)

theorem slicesClient_serves {F : Type} (S : List Int64) (q : Query F) :
    decodeItems .symbolic Json.getInt64 (slicesClient S q) = some (q.slice S) :=
  decodeItems_pageResponse Json.getInt64_integer (q.slice S)

theorem paginate_delivers_iff_three :
    (paginateWithOffsetLimit (userFetcher .symbolic Json.getInt64 (slicesClient [1, 2, 3]) {})
      { limit := 1, offset := 1 } 5).Delivers [2, 3] :=
  ((paginate_delivers_iff .symbolic Json.getInt64 [1, 2, 3] (o := 1) (L := 1) (R := 5) (by decide)
    le_rfl (by decide) rfl rfl).1 _ {} fun q _ => slicesClient_serves _ q).1
      ⟨Or.inl (by decide), by decide⟩

/-- The ids from 0 to 100. -/
def ids : List Int64 := (List.range 101).map fun n => Int64.ofInt n

/-- With a limit of 101 the item at position 100 is neither on the first page nor on the second. -/
theorem item_between_pages_lost :
    ¬ (paginateWithOffsetLimit (userFetcher .symbolic Json.getInt64 (slicesClient ids) {})
        { limit := 101 } 2).Delivers ids ∧
      ¬ (paginateWithOffsetLimit (boardFetcher .symbolic Json.getInt64 (slicesClient ids))
        { limit := 101 } 2).Delivers ids := by
  have hnodup : ids.Nodup := by
    have hids : ids = (List.range 101).map fun n : ℕ => Int64.ofInt n := by decide +kernel
    rw [hids]
    apply List.Nodup.map_on ?_ List.nodup_range
    intro m hm n hn heq
    have hm := List.mem_range.1 hm
    have hn := List.mem_range.1 hn
    have hint := congrArg Int64.toInt heq
    rw [Int64.toInt_ofInt_of_le (by omega) (by omega),
      Int64.toInt_ofInt_of_le (by omega) (by omega)] at hint
    exact Int.ofNat.inj hint
  have hdue : (ids.drop 0).take (2 * 100) = ids := by decide +kernel
  have hloses : ¬ LosesNothing ids.length 0 101 2 := by decide +kernel
  have hpass : ∀ {F : Type} {fetcher : Fetcher F Int64}, Slicing ids fetcher →
      ¬ (paginateWithOffsetLimit fetcher { limit := 101 } 2).Delivers ids := by
    intro F fetcher hslice h
    rw [← hdue] at h
    exact hloses (losesNothing_of_delivers (L := 101) hslice rfl rfl (by decide) (by decide)
      (by decide) 0 hnodup h)
  exact ⟨hpass (slicing_userFetcher fun q _ => slicesClient_serves ids q),
    hpass (slicing_boardFetcher fun q _ => slicesClient_serves ids q)⟩

end Modes

end Kaiten

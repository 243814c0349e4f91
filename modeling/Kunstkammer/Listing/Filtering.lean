import Kunstkammer.Listing.Cards

/-!
# Filtered card listings

A server that answers every request with the slice of the cards matching the filters of that
request.  The first request of `get_all_cards` carries the caller's filters; the requests of
`fetch_page_result` carry none, so the pages after the first are pages of all cards.

* `CardServer`: such a server;
* `getAllCardsBatched_one_page`, `getAllCardsBatched_more_pages`: the two kinds of runs on it;
* `getAllCards_filtered_iff`: the listing is exact when the matching cards do not fill the first
  page, and otherwise only when every card of the server matches.
-/

namespace Kaiten.CardOperations

open Paging

section Filtering

variable {Text α : Type}

/-- A server with a fixed list of cards. -/
structure CardServer (json : Nlohmann Text) (fromJson : Json → Option α) where
  cards : List α
  selects : CardFilterParams → α → Bool
  selects_all : ∀ c ∈ cards, selects {} c = true
  client : Query CardFilterParams → ℤ × Text
  answers : ∀ q, decodeItems json fromJson (client q) =
    some (q.slice (cards.filter (selects q.filters)))

/-- The cards that match the filters. -/
def CardServer.matching {json : Nlohmann Text} {fromJson : Json → Option α}
    (server : CardServer json fromJson) (filters : CardFilterParams) : List α :=
  server.cards.filter (server.selects filters)

/-- The server of a list of cards. -/
def CardServer.ofCards {fromJson : Json → Option α} (encode : α → Json)
    (h : ∀ a, fromJson (encode a) = some a) (cards : List α)
    (selects : CardFilterParams → α → Bool) (hall : ∀ c ∈ cards, selects {} c = true) :
    CardServer .symbolic fromJson where
  cards := cards
  selects := selects
  selects_all := hall
  client q := pageResponse encode (q.slice (cards.filter (selects q.filters)))
  answers _ := decodeItems_pageResponse h _

/-- The number of pages requested by a run over `n` cards whose first page is full. -/
def requestedPages (n L T : ℕ) : ℕ := pagesUntil T (n / L) (n % L ≠ 0)

/-- A filtered list continued by the unfiltered one after `L` items is the filtered list only
when nothing was filtered out. -/
theorem take_filter_append_drop_eq_iff {p : α → Bool} {l : List α} {L : ℕ}
    (hL : L ≤ (l.filter p).length) :
    (l.filter p).take L ++ l.drop L = l.filter p ↔ ∀ c ∈ l, p c = true := by
  constructor
  · intro h
    have hlen := congrArg List.length h
    have hle := List.length_filter_le p l
    rw [List.length_append, List.length_take, List.length_drop, min_eq_left hL] at hlen
    exact List.length_filter_eq_length_iff.1 (by omega)
  · intro h
    rw [List.filter_eq_self.2 h, List.take_append_drop]

variable {json : Nlohmann Text} {fromJson : Json → Option α} (server : CardServer json fromJson)
  {filters : CardFilterParams} {pageSize : ℤ} {hardwareConcurrency fuel L : ℕ}

theorem CardServer.matching_empty : server.matching {} = server.cards :=
  List.filter_eq_self.2 server.selects_all

theorem CardServer.pagesSeen_zero :
    pagesSeen json fromJson server.client L filters 0 = page L (server.matching filters) 0 := by
  rw [pagesSeen, if_pos rfl, server.answers, Option.getD_some, pageQuery_filters,
    pageQuery_slice]
  rfl

theorem CardServer.pagesSeen_pos {k : ℕ} (hk : 0 < k) :
    pagesSeen json fromJson server.client L filters k = page L server.cards k := by
  rw [pagesSeen, if_neg hk.ne', server.answers, Option.getD_some, pageQuery_filters,
    pageQuery_slice, ← CardServer.matching, server.matching_empty]

/-- What a run sees ends at the last page of all cards, if the first page is full. -/
theorem CardServer.pagesSeen_endsAt (hL : 0 < L) (hfull : L ≤ (server.matching filters).length) :
    EndsAt (pagesSeen json fromJson server.client L filters) L (server.cards.length / L) := by
  have hend := page_endsAt hL server.cards
  have hlen : L ≤ server.cards.length := hfull.trans (List.length_filter_le _ _)
  have hpos : 0 < server.cards.length / L := Nat.div_pos hlen hL
  refine ⟨?_, ?_, ?_⟩
  · intro k hk
    by_cases hk0 : k = 0
    · subst hk0
      rw [server.pagesSeen_zero, length_page]
      omega
    · rw [server.pagesSeen_pos (Nat.pos_of_ne_zero hk0)]
      exact hend.full k hk
  · rw [server.pagesSeen_pos hpos]; exact hend.last
  · intro h
    rw [server.pagesSeen_pos hpos] at h
    rw [server.pagesSeen_pos (Nat.succ_pos _)]; exact hend.after h

/-- Fewer matching cards than a page holds: one request, and its cards are the listing. -/
theorem getAllCardsBatched_one_page (h : 1 ≤ pageSize) (hL : L = pageLimit pageSize)
    (hshort : (server.matching filters).length < L) :
    getAllCardsBatched json fromJson server.client hardwareConcurrency filters pageSize fuel =
      ⟨[pageQuery L filters 0], .returned 200 (server.matching filters)⟩ := by
  have hall : page L (server.matching filters) 0 = server.matching filters := by
    rw [page, Nat.zero_mul, List.drop_zero, List.take_of_length_le hshort.le]
  rw [getAllCardsBatched_short h hL (by rwa [server.pagesSeen_zero, hall]),
    server.pagesSeen_zero, hall]

/-- A full first page: the pages after it are those of all cards. -/
theorem getAllCardsBatched_more_pages (h : 1 ≤ pageSize) (hL : L = pageLimit pageSize)
    (hfull : L ≤ (server.matching filters).length) (hfuel : server.cards.length < fuel)
    {r : Listing CardFilterParams α}
    (hr : r = getAllCardsBatched json fromJson server.client hardwareConcurrency filters pageSize
      fuel) :
    (requestedPages server.cards.length L (maxThreads hardwareConcurrency) * L ≤ intMax →
      r.outcome = .returned 200 ((server.matching filters).take L ++ server.cards.drop L)) ∧
    (intMax < requestedPages server.cards.length L (maxThreads hardwareConcurrency) * L →
      r.outcome = .overflow) := by
  have hpos : 0 < L := by rw [hL]; exact pageLimit_pos h
  have hm : 0 < server.cards.length / L :=
    Nat.div_pos (hfull.trans (List.length_filter_le _ _)) hpos
  have hlt : server.cards.length / L < fuel := (Nat.div_le_self _ _).trans_lt hfuel
  have hshort : pagesSeen json fromJson server.client L filters (server.cards.length / L) ≠ [] ↔
      server.cards.length % L ≠ 0 := by
    rw [server.pagesSeen_pos hm, page_length_div_ne_nil_iff hpos]
  have hlast : server.cards.length ≤ (server.cards.length / L + 1) * L := by
    rw [mul_comm]; exact (Nat.lt_mul_div_succ _ hpos).le
  have hitems : concat (pagesSeen json fromJson server.client L filters) 0
      (server.cards.length / L + 1) =
        (server.matching filters).take L ++ server.cards.drop L := by
    rw [concat_succ, server.pagesSeen_zero, page, Nat.zero_mul, List.drop_zero,
      concat_congr fun i hi _ => server.pagesSeen_pos (by omega), concat_page_one,
      List.take_of_length_le hlast]
  obtain ⟨hret, hover⟩ := getAllCardsBatched_spec h hL (server.pagesSeen_endsAt hpos hfull)
    (by rw [server.pagesSeen_zero, length_page]; omega) hlt hr rfl
  rw [decide_eq_decide.2 hshort, ← requestedPages] at hret hover
  exact ⟨fun hfit => by rw [hret hfit, hitems], hover⟩

/-! ### The filters of the requests -/

/-- No request of the batch loop carries a filter. -/
theorem batchLoop_filters {client : Query CardFilterParams → ℤ × Text} {T : ℕ}
    {params : PaginationParams} {offset : ℤ} {cards : List α} {status : ℤ} :
    ∀ q ∈ (batchLoop json fromJson client T params fuel offset cards status).requests,
      q.filters = {} := by
  induction fuel generalizing offset cards status with
  | zero => intro q hq; cases hq
  | succ fuel ih =>
    intro q hq
    rw [batchLoop] at hq
    cases hb : batchOffsets params.limit T offset with
    | none => rw [hb] at hq; cases hq
    | some batch =>
      obtain ⟨offsets, next⟩ := batch
      simp only [hb] at hq
      split at hq
      · rcases List.mem_append.1 hq with hq | hq
        · obtain ⟨o, -, rfl⟩ := List.mem_map.1 hq; rfl
        · exact ih q hq
      · obtain ⟨o, -, rfl⟩ := List.mem_map.1 hq; rfl

variable (json fromJson) in
/-- The batch loop makes at least one request: its first batch is within the range of `int`. -/
theorem batchLoop_requests_ne_nil (client : Query CardFilterParams → ℤ × Text) {T : ℕ}
    (hL100 : L ≤ 100) (hT : 0 < T) (hT6 : T ≤ 6) (hfuel : 0 < fuel) (cards : List α) (status : ℤ) :
    (batchLoop json fromJson client T (pageParams L 0) fuel ((1 * L : ℕ) : ℤ) cards
      status).requests ≠ [] := by
  obtain ⟨fuel, rfl⟩ := Nat.exists_eq_succ_of_ne_zero hfuel.ne'
  have hfit : (1 + T) * L ≤ intMax := by unfold intMax; nlinarith
  have hbatch : (List.range' 1 T).map (pageQuery L {}) ≠ [] := by simp [hT.ne']
  rw [Nat.succ_eq_add_one, batchLoop_succ _ _ _ hL100 _ _ (by unfold intMax; omega), if_pos hfit]
  split
  · exact List.append_ne_nil_of_left_ne_nil hbatch _
  · exact hbatch

/-- All requests of a run carry the same filters only when there is one request or nothing is
filtered. -/
theorem getAllCardsBatched_filters_iff (h : 1 ≤ pageSize) (hL : L = pageLimit pageSize)
    (hfuel : server.cards.length < fuel) :
    (∀ q ∈ (getAllCardsBatched json fromJson server.client hardwareConcurrency filters pageSize
      fuel).requests, q.filters = filters) ↔
    (server.matching filters).length < L ∨ filters = {} := by
  have hpos : 0 < L := by rw [hL]; exact pageLimit_pos h
  have hle : L ≤ 100 := by rw [hL]; exact pageLimit_le pageSize
  rcases lt_or_ge (server.matching filters).length L with hshort | hfull
  · rw [getAllCardsBatched_one_page server h hL hshort]
    refine iff_of_true ?_ (Or.inl hshort)
    intro q hq
    rw [List.mem_singleton.1 hq]
    rfl
  rw [or_iff_right hfull.not_gt]
  obtain ⟨hitems, hmore⟩ := pageResult_first json fromJson server.client hpos hle filters
  have hlen : (pagesSeen json fromJson server.client L filters 0).length = L := by
    rw [server.pagesSeen_zero, length_page]; omega
  rw [getAllCardsBatched_eq h hL]
  dsimp only
  rw [hitems, hmore, decide_eq_true hlen, if_pos rfl,
    if_neg (by simp [List.isEmpty_iff, ← List.length_eq_zero_iff, hlen, hpos.ne'])]
  constructor
  · intro hall
    obtain ⟨q, hq⟩ := List.exists_mem_of_ne_nil _ (batchLoop_requests_ne_nil json fromJson
      server.client hle (maxThreads_pos hardwareConcurrency) (maxThreads_le _)
      (by omega : 0 < fuel) (pagesSeen json fromJson server.client L filters 0) 200)
    rw [← hall q (List.mem_append_right _ hq)]
    exact batchLoop_filters q hq
  · rintro rfl q hq
    rcases List.mem_append.1 hq with hq | hq
    · rw [List.mem_singleton.1 hq]; rfl
    · exact batchLoop_filters q hq

/-! ### Exactness -/

/-- **When a filtered listing is exact.**  Its requests all carry the caller's filters, and it
returns the matching cards in server order, when these do not fill the first page.  Otherwise
the requests after the first carry no filters, so they all agree only when there are none, and
the cards returned are the matching ones only when every card of the server matches and the
offsets stay within `int`. -/
theorem getAllCards_filtered_iff (h : 1 ≤ pageSize) (hL : L = pageLimit pageSize)
    (hfuel : server.cards.length < fuel) {r : Listing CardFilterParams α}
    (hr : r = getAllCards json fromJson server.client hardwareConcurrency filters pageSize fuel ∨
      r = getAllCardsBatched json fromJson server.client hardwareConcurrency filters pageSize
        fuel) :
    (r.outcome = .returned 200 (server.matching filters) ↔
      (server.matching filters).length < L ∨
        (∀ c ∈ server.cards, server.selects filters c = true) ∧
          requestedPages server.cards.length L (maxThreads hardwareConcurrency) * L ≤ intMax) ∧
    ((∀ q ∈ r.requests, q.filters = filters) ↔
      (server.matching filters).length < L ∨ filters = {}) := by
  have hrun : r = getAllCardsBatched json fromJson server.client hardwareConcurrency filters
      pageSize fuel := hr.elim id id
  refine ⟨?_, by rw [hrun]; exact getAllCardsBatched_filters_iff server h hL hfuel⟩
  rcases lt_or_ge (server.matching filters).length L with hshort | hfull
  · rw [hrun, getAllCardsBatched_one_page server h hL hshort]
    exact iff_of_true rfl (Or.inl hshort)
  rw [or_iff_right hfull.not_gt]
  obtain ⟨hret, hover⟩ := getAllCardsBatched_more_pages server h hL hfull hfuel hrun
  rcases le_or_gt (requestedPages server.cards.length L (maxThreads hardwareConcurrency) * L)
    intMax with hfit | hout
  · rw [hret hfit, and_iff_left hfit, ← take_filter_append_drop_eq_iff hfull]
    constructor
    · intro heq
      injection heq
    · intro heq
      exact congrArg _ heq
  · rw [hover hout]
    constructor
    · intro heq
      cases heq
    · rintro ⟨-, hfit⟩
      exact absurd hfit hout.not_ge

end Filtering

/-- Three cards, known by their ids; card `n` is on board `n`. -/
def threeBoards : CardServer .symbolic Json.getInt64 :=
  .ofCards (fun id => .integer id.toInt) Json.getInt64_integer [1, 2, 3]
    (fun filters id => filters.boardId.all (· == id)) (fun _ _ => rfl)

theorem getAllCards_filtered_iff_short :
    (getAllCards .symbolic Json.getInt64 threeBoards.client 4 { boardId := some 1 } 2 4).outcome =
      .returned 200 [1] :=
  (getAllCards_filtered_iff threeBoards (by decide : (1 : ℤ) ≤ 2) rfl (by decide : 3 < 4)
    (Or.inl rfl)).1.2 (Or.inl (by decide))

/-- With one card per page, the cards of the other boards are returned too. -/
theorem getAllCards_returns_other_boards :
    threeBoards.matching { boardId := some 1 } = [1] ∧
    (getAllCards .symbolic Json.getInt64 threeBoards.client 4 { boardId := some 1 } 1 4).outcome =
      .returned 200 [1, 2, 3] := by
  decide

end Kaiten.CardOperations

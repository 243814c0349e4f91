import Kunstkammer.Listing.Filtering
import Kunstkammer.Listing.Users

/-!
# Listings from a server that fails

A failed page is an empty page to its reader, and an empty page is the end of the list.  So a
failure ends the listing early, with the status 200 that `last_status` starts from.

* `Reads`: what `get_all_cards_batched` and `get_all_users` have in common: the pages seen up to
  the first one that is not full are returned with status 200;
* `Reads.complete_iff`, `Reads.reports_iff`: such a run is complete when every page with items is
  served, and reports its failures only when there are none;
* `listings_complete_and_report_iff`: the same for the two listings.
-/

namespace Kaiten

open Paging

/-- The run `r` asks for the pages `ask 0, ask 1, …` and sees `P`.  When these end at page `m`,
it has made `asked m short` requests, where `short` tells whether the last page has items, and
has computed the offset of page `reach m short`. -/
structure Reads {F α : Type} (r : Listing F α) (ask : ℕ → Query F) (P : ℕ → List α)
    (L fuel : ℕ) (asked reach : ℕ → Bool → ℕ) : Prop where
  covers : ∀ m short, m < asked m short
  returned : ∀ m < fuel, EndsAt P L m → reach m (P m ≠ []) * L ≤ intMax →
    r = ⟨(List.range (asked m (P m ≠ []))).map ask, .returned 200 (concat P 0 (m + 1))⟩
  overflow : ∀ m < fuel, EndsAt P L m → intMax < reach m (P m ≠ []) * L → r.outcome = .overflow

namespace Reads

variable {F α : Type} {r : Listing F α} {ask : ℕ → Query F} {S : List α} {L fuel : ℕ}
  {asked reach : ℕ → Bool → ℕ} {fails : Query F → Prop}

theorem reports_returned_iff {r : Listing F α} {n : ℕ} {items : List α}
    (h : r = ⟨(List.range n).map ask, .returned 200 items⟩) :
    r.ReportsFailures fails ↔ ∀ k < n, ¬ fails (ask k) := by
  subst h
  simp [Listing.ReportsFailures]

theorem overflow_not_complete (h : r.outcome = .overflow) : ¬ r.outcome.Complete S := by
  rw [h]; exact id

theorem overflow_not_reports (h : r.outcome = .overflow) : ¬ r.ReportsFailures fails := by
  unfold Listing.ReportsFailures; rw [h]; exact id

variable [DecidablePred fails]

/-- No page with items fails: the whole list is returned. -/
theorem of_served (h : Reads r ask (lossy (page L S) fun k => fails (ask k)) L fuel asked reach)
    (hL : 0 < L) (hfuel : S.length < fuel) (hok : ∀ k, k * L < S.length → ¬ fails (ask k)) :
    (reach (S.length / L) (S.length % L ≠ 0) * L ≤ intMax →
      r = ⟨(List.range (asked (S.length / L) (S.length % L ≠ 0))).map ask, .returned 200 S⟩) ∧
    (intMax < reach (S.length / L) (S.length % L ≠ 0) * L → r.outcome = .overflow) := by
  rw [lossy_page_eq hL hok] at h
  have hm : S.length / L < fuel := (Nat.div_le_self _ _).trans_lt hfuel
  have hshort : decide (page L S (S.length / L) ≠ []) = decide (S.length % L ≠ 0) :=
    decide_eq_decide.2 (page_length_div_ne_nil_iff hL S)
  have hret := h.returned _ hm (page_endsAt hL S)
  have hover := h.overflow _ hm (page_endsAt hL S)
  rw [hshort] at hret hover
  rw [concat_page_all hL] at hret
  exact ⟨hret, hover⟩

/-- The first page to fail is one with items: the items before it are returned with status
200. -/
theorem of_failed (h : Reads r ask (lossy (page L S) fun k => fails (ask k)) L fuel asked reach)
    (hL : 0 < L) (hfuel : S.length < fuel) {p : ℕ} (hp : p * L < S.length) (hf : fails (ask p))
    (hok : ∀ k < p, ¬ fails (ask k)) :
    r.outcome = .overflow ∨
      ∃ n, p < n ∧ r = ⟨(List.range n).map ask, .returned 200 (S.take (p * L))⟩ := by
  have hple : p ≤ S.length / L := (Nat.le_div_iff_mul_le hL).2 hp.le
  have hm : p < fuel := (hple.trans (Nat.div_le_self _ _)).trans_lt hfuel
  have hend : EndsAt (lossy (page L S) fun k => fails (ask k)) L p :=
    lossy_endsAt_of_fails hL (page_endsAt hL S) hple hf hok
  rcases le_or_gt (reach p (lossy (page L S) (fun k => fails (ask k)) p ≠ []) * L) intMax with
    hfit | hout
  · have hr := h.returned p hm hend hfit
    rw [concat_lossy_of_fails hf hok] at hr
    exact Or.inr ⟨_, h.covers p _, hr⟩
  · exact Or.inl (h.overflow p hm hend hout)

/-- A proper part of the list is not complete. -/
theorem not_complete_take {p : ℕ} (hp : p * L < S.length) :
    ¬ (Outcome.returned 200 (S.take (p * L))).Complete S := fun h => by
  have hlen := (h rfl).length_le
  rw [List.length_take] at hlen
  omega

theorem complete_iff
    (h : Reads r ask (lossy (page L S) fun k => fails (ask k)) L fuel asked reach)
    (hL : 0 < L) (hfuel : S.length < fuel) :
    r.outcome.Complete S ↔ (∀ k, k * L < S.length → ¬ fails (ask k)) ∧
      reach (S.length / L) (S.length % L ≠ 0) * L ≤ intMax := by
  by_cases hok : ∀ k, k * L < S.length → ¬ fails (ask k)
  · rw [and_iff_right hok]
    obtain ⟨hret, hover⟩ := h.of_served hL hfuel hok
    constructor
    · intro hc
      by_contra hout
      exact overflow_not_complete (hover (not_le.1 hout)) hc
    · intro hfit
      rw [hret hfit]
      exact fun _ => List.Subperm.refl S
  · refine iff_of_false (fun hc => ?_) fun hall => hok hall.1
    push Not at hok
    obtain ⟨k, hk, hfk⟩ := hok
    obtain ⟨p, hpk, hf, hfirst⟩ := exists_first (fun k => fails (ask k)) hfk
    have hp : p * L < S.length := (Nat.mul_le_mul_right L hpk).trans_lt hk
    rcases h.of_failed hL hfuel hp hf hfirst with hover | ⟨n, -, hr⟩
    · exact overflow_not_complete hover hc
    · rw [hr] at hc
      exact not_complete_take hp hc

theorem reports_iff
    (h : Reads r ask (lossy (page L S) fun k => fails (ask k)) L fuel asked reach)
    (hL : 0 < L) (hfuel : S.length < fuel) :
    r.ReportsFailures fails ↔
      (∀ k < asked (S.length / L) (S.length % L ≠ 0), ¬ fails (ask k)) ∧
        reach (S.length / L) (S.length % L ≠ 0) * L ≤ intMax := by
  by_cases hok : ∀ k, k * L < S.length → ¬ fails (ask k)
  · obtain ⟨hret, hover⟩ := h.of_served hL hfuel hok
    constructor
    · intro hrep
      by_cases hfit : reach (S.length / L) (S.length % L ≠ 0) * L ≤ intMax
      · exact ⟨(reports_returned_iff (hret hfit)).1 hrep, hfit⟩
      · exact absurd hrep (overflow_not_reports (hover (not_le.1 hfit)))
    · rintro ⟨hnone, hfit⟩
      exact (reports_returned_iff (hret hfit)).2 hnone
  · push Not at hok
    obtain ⟨k, hk, hfk⟩ := hok
    have hkm : k ≤ S.length / L := (Nat.le_div_iff_mul_le hL).2 hk.le
    refine iff_of_false (fun hrep => ?_) fun hall =>
      hall.1 k (hkm.trans_lt (h.covers _ _)) hfk
    obtain ⟨p, hpk, hf, hfirst⟩ := exists_first (fun k => fails (ask k)) hfk
    have hp : p * L < S.length := (Nat.mul_le_mul_right L hpk).trans_lt hk
    rcases h.of_failed hL hfuel hp hf hfirst with hover | ⟨n, hpn, hr⟩
    · exact overflow_not_reports hover hrep
    · exact (reports_returned_iff hr).1 hrep p hpn hf

end Reads

/-! ### The two listings -/

section Listings

variable {Text α : Type} {json : Nlohmann Text} {fromJson : Json → Option α} {S : List α}
  {pageSize : ℤ} {hardwareConcurrency fuel L : ℕ}

theorem CardOperations.lt_pagesUntil {T : ℕ} (hT : 0 < T) (m : ℕ) (short : Bool) :
    m < pagesUntil T m short := by
  unfold pagesUntil
  split_ifs with hm
  · omega
  · have hlt : m - 1 < T * ((m - 1) / T + 1) := Nat.lt_mul_div_succ _ hT
    have hle : T * ((m - 1) / T + 1) ≤ T * batches T (m - 1) short :=
      Nat.mul_le_mul_left T (Nat.le_add_right _ _)
    omega

variable (hardwareConcurrency fuel) in
theorem CardOperations.reads_getAllCardsBatched {client : Query CardFilterParams → ℤ × Text}
    (h : 1 ≤ pageSize) (hL : L = pageLimit pageSize)
    (hserves : Serves json fromJson client {} S) :
    Reads (getAllCardsBatched json fromJson client hardwareConcurrency {} pageSize fuel)
      (pageQuery L {})
      (lossy (page L S) fun k => Fails json fromJson client (pageQuery L {} k)) L fuel
      (pagesUntil (maxThreads hardwareConcurrency))
      (pagesUntil (maxThreads hardwareConcurrency)) := by
  have hseen : pagesSeen json fromJson client L {} =
      lossy (page L S) fun k => Fails json fromJson client (pageQuery L {} k) := by
    funext k
    rw [pagesSeen, ite_self]
    exact hserves.items (fun _ => rfl) (fun k => pageQuery_slice L {} k S) k
  have hpos : 0 < L := by rw [hL]; exact pageLimit_pos h
  rw [← hseen]
  refine ⟨lt_pagesUntil (maxThreads_pos _), fun m hm hend hfit => ?_, fun m hm hend hout => ?_⟩
  · rcases Nat.eq_zero_or_pos m with rfl | hm0
    · rw [getAllCardsBatched_short h hL hend.last, concat_one]
      rfl
    · rw [(getAllCardsBatched_spec h hL hend (hend.full 0 hm0) hm rfl rfl).1 hfit,
        List.range_eq_range']
      obtain ⟨n, hn⟩ := Nat.exists_eq_succ_of_ne_zero
        (Nat.zero_lt_of_lt (lt_pagesUntil (maxThreads_pos hardwareConcurrency) m
          (pagesSeen json fromJson client L {} m ≠ []))).ne'
      rw [hn, Nat.succ_sub_one, List.range'_succ]
      rfl
  · rcases Nat.eq_zero_or_pos m with rfl | hm0
    · have hle : L ≤ 100 := by rw [hL]; exact pageLimit_le pageSize
      rw [pagesUntil, if_pos rfl] at hout
      unfold intMax at hout
      omega
    · exact (getAllCardsBatched_spec h hL hend (hend.full 0 hm0) hm rfl rfl).2 hout

variable (fuel) in
theorem UserOperations.reads_getAllUsers {client : Query UserFilterParams → ℤ × Text}
    {filters : UserFilterParams} (h : 1 ≤ pageSize) (hL : L = pageLimit pageSize)
    (hserves : Serves json fromJson client filters S) :
    Reads (getAllUsers json fromJson client filters pageSize fuel) (pageQuery L filters)
      (lossy (page L S) fun k => Fails json fromJson client (pageQuery L filters k)) L fuel
      (fun m _ => m + 1) (fun m _ => m) := by
  have hseen : pagesSeen json fromJson client L filters =
      lossy (page L S) fun k => Fails json fromJson client (pageQuery L filters k) :=
    funext (hserves.items (fun _ => rfl) fun k => pageQuery_slice L filters k S)
  rw [← hseen]
  exact ⟨fun m _ => Nat.lt_succ_self m,
    fun m hm hend => (getAllUsers_spec h hL rfl hend hm rfl).1,
    fun m hm hend => (getAllUsers_spec h hL rfl hend hm rfl).2⟩

/-- **When a listing is complete, and when it reports its failures.**  With status 200, all items
of the server are returned only if no page with items failed.  The status differs from 200 on
every run with a failed request only if no request fails at all, neither one for a page with
items nor one for a page after them.  In both cases the offsets have to stay within `int`. -/
theorem listings_complete_and_report_iff (h : 1 ≤ pageSize) (hL : L = pageLimit pageSize)
    (hfuel : S.length < fuel) :
    (∀ client, Serves json fromJson client ({} : CardFilterParams) S → ∀ r,
      r = CardOperations.getAllCardsBatched json fromJson client hardwareConcurrency {} pageSize
        fuel →
      let requested := CardOperations.requestedPages S.length L
        (CardOperations.maxThreads hardwareConcurrency)
      let failed k := Fails json fromJson client (CardOperations.pageQuery L {} k)
      (r.outcome.Complete S ↔
        (∀ k, k * L < S.length → ¬ failed k) ∧ requested * L ≤ intMax) ∧
      (r.ReportsFailures (Fails json fromJson client) ↔
        (∀ k < requested, ¬ failed k) ∧ requested * L ≤ intMax)) ∧
    (∀ client filters, Serves json fromJson client filters S → ∀ r,
      r = UserOperations.getAllUsers json fromJson client filters pageSize fuel →
      let failed k := Fails json fromJson client (UserOperations.pageQuery L filters k)
      (r.outcome.Complete S ↔
        (∀ k, k * L < S.length → ¬ failed k) ∧ S.length / L * L ≤ intMax) ∧
      (r.ReportsFailures (Fails json fromJson client) ↔
        (∀ k < S.length / L + 1, ¬ failed k) ∧ S.length / L * L ≤ intMax)) := by
  have hpos : 0 < L := by rw [hL]; exact pageLimit_pos h
  constructor
  · rintro client hserves r rfl
    have hreads := CardOperations.reads_getAllCardsBatched hardwareConcurrency fuel h hL hserves
    exact ⟨hreads.complete_iff hpos hfuel, hreads.reports_iff hpos hfuel⟩
  · rintro client filters hserves r rfl
    have hreads := UserOperations.reads_getAllUsers fuel h hL hserves
    exact ⟨hreads.complete_iff hpos hfuel, hreads.reports_iff hpos hfuel⟩

end Listings

/-- The server of the list `S` that drops the requests `down`. -/
def flakyClient {F α : Type} (encode : α → Json) (S : List α) (down : Query F → Bool)
    (q : Query F) : ℤ × Option Json :=
  if down q then (-1, none) else pageResponse encode (q.slice S)

theorem serves_flakyClient {F α : Type} {fromJson : Json → Option α} {encode : α → Json}
    (h : ∀ a, fromJson (encode a) = some a) (S : List α) (down : Query F → Bool) (filters : F) :
    Serves .symbolic fromJson (flakyClient encode S down) filters S := by
  intro q _
  unfold Fails flakyClient
  split_ifs
  · exact Or.inl rfl
  · exact Or.inr (decodeItems_pageResponse h _)

/-- Three items, known by their ids, of which the requests `down` are dropped. -/
def threeItems {F : Type} (down : Query F → Bool) : Query F → ℤ × Option Json :=
  flakyClient (fun id : Int64 => .integer id.toInt) [1, 2, 3] down

theorem listings_complete_and_report_iff_three :
    (CardOperations.getAllCardsBatched .symbolic Json.getInt64 (threeItems fun _ => false) 4 {} 1
      4).outcome.Complete [1, 2, 3] := by
  have hserves : Serves .symbolic Json.getInt64 (threeItems fun _ => false)
      ({} : CardFilterParams) [1, 2, 3] :=
    serves_flakyClient Json.getInt64_integer _ _ _
  have hup : ∀ k, ¬ Fails .symbolic Json.getInt64 (threeItems fun _ => false)
      (CardOperations.pageQuery 1 {} k) := fun k hk => by
    have hsome := decodeItems_pageResponse Json.getInt64_integer
      ((CardOperations.pageQuery 1 {} k).slice [1, 2, 3])
    exact Option.some_ne_none _ (hsome.symm.trans hk)
  exact (((listings_complete_and_report_iff (by decide : (1 : ℤ) ≤ 1) rfl
    (by decide : ([1, 2, 3] : List Int64).length < 4)).1 _ hserves _ rfl).1).2
      ⟨fun k _ => hup k, by decide⟩

/-- The request for the second page is dropped, and one item of three is returned with status
200. -/
theorem listings_truncated_by_failure :
    ((CardOperations.getAllCardsBatched .symbolic Json.getInt64
        (threeItems fun q => q.offset == some 1) 4 {} 1 4).outcome = .returned 200 [1] ∧
      (UserOperations.getAllUsers .symbolic Json.getInt64
        (threeItems fun q => q.offset == some 1) {} 1 4).outcome = .returned 200 [1]) ∧
    ¬ (Outcome.returned 200 [(1 : Int64)]).Complete [1, 2, 3] := by
  refine ⟨by decide, fun h => ?_⟩
  have hlen := (h rfl).length_le
  exact absurd hlen (by decide)

end Kaiten

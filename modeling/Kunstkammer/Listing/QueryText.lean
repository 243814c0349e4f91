import Kunstkammer.Foundation.QueryString
import Kunstkammer.Listing.Pagination
import Kunstkammer.Numbers

/-!
# The text of a query

`Query_builder::build` writes the parameters of a request into the request target.

* `QueryBuilder.text`, `QueryBuilder.usersText`: the texts, built up as in the source;
* `QueryBuilder.entries`: the built-in parameters in the order they are written, with their
  values; `QueryBuilder.pairs` adds the custom filters;
* `QueryBuilder.Recovered`: what a reader of the text finds is what was asked for;
* `QueryBuilder.Sendable`: the texts typed by the user leave the syntax of the query alone.

Nothing is escaped, so the two are the same (`recovered_iff`).
-/

namespace Kaiten.QueryBuilder

open QueryString

/-- `add_filter`: nothing for a filter that is not set. -/
def addFilter {T : Type*} (print : T → Str) (ss key : Str) (value : Option T) : Str :=
  match value with
  | some value => ss ++ lit "&" ++ key ++ lit "=" ++ print value
  | none => ss

/-- `*value ? "true" : "false"`. -/
def printBool (b : Bool) : Str := if b then lit "true" else lit "false"

/-- `Query_builder::build` without filters. -/
def paginationText (pagination : PaginationParams) : Str :=
  let ss := lit "?limit=" ++ intToString pagination.limit
  let ss :=
    if pagination.offset > 0 then ss ++ lit "&offset=" ++ intToString pagination.offset else ss
  if pagination.sortBy ≠ [] then
    let ss := ss ++ lit "&sort=" ++ pagination.sortBy
    if pagination.sortOrder ≠ [] then ss ++ lit "&order=" ++ pagination.sortOrder else ss
  else ss

/-- `Query_builder::build` with card filters; the pagination is written as in the overload
without filters. -/
def text (pagination : PaginationParams) (filters : CardFilterParams) : Str :=
  let ss := paginationText pagination
  let ss := addFilter (fun n => intToString n.toInt) ss (lit "board_id") filters.boardId
  let ss := addFilter (fun n => intToString n.toInt) ss (lit "lane_id") filters.laneId
  let ss := addFilter (fun n => intToString n.toInt) ss (lit "column_id") filters.columnId
  let ss := addFilter (fun n => intToString n.toInt) ss (lit "owner_id") filters.ownerId
  let ss := addFilter (fun n => intToString n.toInt) ss (lit "member_id") filters.memberId
  let ss := addFilter (fun n => intToString n.toInt) ss (lit "type_id") filters.typeId
  let ss := addFilter id ss (lit "type") filters.typeName
  let ss := addFilter id ss (lit "state") filters.state
  let ss := addFilter id ss (lit "number") filters.number
  let ss := addFilter printBool ss (lit "archived") filters.archived
  let ss := addFilter printBool ss (lit "blocked") filters.blocked
  let ss := addFilter printBool ss (lit "asap") filters.asap
  let ss := addFilter (fun n => intToString n.toInt) ss (lit "condition") filters.condition
  let ss := addFilter id ss (lit "search") filters.search
  let ss := addFilter id ss (lit "created_after") filters.createdAfter
  let ss := addFilter id ss (lit "created_before") filters.createdBefore
  let ss := addFilter id ss (lit "updated_after") filters.updatedAfter
  let ss := addFilter id ss (lit "updated_before") filters.updatedBefore
  filters.customFilters.items.foldl (fun ss p => ss ++ lit "&" ++ p.1 ++ lit "=" ++ p.2) ss

/-- `Query_builder::build` with user filters. -/
def usersText (pagination : PaginationParams) (filters : UserFilterParams) : Str :=
  let ss := lit "?limit=" ++ intToString pagination.limit
  let ss :=
    if pagination.offset > 0 then ss ++ lit "&offset=" ++ intToString pagination.offset else ss
  let ss := addFilter printBool ss (lit "activated") filters.activated
  let ss := addFilter printBool ss (lit "virtual") filters.virtualUser
  addFilter id ss (lit "search") filters.search

/-- The text of a query for users. -/
def usersQueryText (q : Query UserFilterParams) : Str :=
  let ss := addFilter intToString (lit "?limit=" ++ intToString q.limit) (lit "offset") q.offset
  let ss := addFilter printBool ss (lit "activated") q.filters.activated
  let ss := addFilter printBool ss (lit "virtual") q.filters.virtualUser
  addFilter id ss (lit "search") q.filters.search

/-- It is what the source writes for the request. -/
theorem usersQueryText_buildUsers (pagination : PaginationParams) (filters : UserFilterParams) :
    usersQueryText (buildUsers pagination filters) = usersText pagination filters := by
  have hoffset : lit "&" ++ lit "offset" ++ lit "=" = lit "&offset=" := by decide +kernel
  unfold usersQueryText usersText buildUsers
  dsimp only
  split_ifs
  · simp only [addFilter, ← hoffset, List.append_assoc]
  · rfl

/-! ### What is asked for -/

/-- The value of a parameter. -/
inductive Value
  | number (n : ℤ)
  | flag (b : Bool)
  | text (s : Str)

/-- A value as it is written. -/
def Value.print : Value → Str
  | .number n => intToString n
  | .flag b => printBool b
  | .text s => s

/-- The built-in parameters, in the order they are written. -/
def entries (q : Query CardFilterParams) : List (Str × Option Value) :=
  let f := q.filters
  [(lit "limit", some (.number q.limit)),
    (lit "offset", q.offset.map .number),
    (lit "sort", q.sort.map .text),
    (lit "order", q.order.map .text),
    (lit "board_id", f.boardId.map fun n => .number n.toInt),
    (lit "lane_id", f.laneId.map fun n => .number n.toInt),
    (lit "column_id", f.columnId.map fun n => .number n.toInt),
    (lit "owner_id", f.ownerId.map fun n => .number n.toInt),
    (lit "member_id", f.memberId.map fun n => .number n.toInt),
    (lit "type_id", f.typeId.map fun n => .number n.toInt),
    (lit "type", f.typeName.map .text),
    (lit "state", f.state.map .text),
    (lit "number", f.number.map .text),
    (lit "archived", f.archived.map .flag),
    (lit "blocked", f.blocked.map .flag),
    (lit "asap", f.asap.map .flag),
    (lit "condition", f.condition.map fun n => .number n.toInt),
    (lit "search", f.search.map .text),
    (lit "created_after", f.createdAfter.map .text),
    (lit "created_before", f.createdBefore.map .text),
    (lit "updated_after", f.updatedAfter.map .text),
    (lit "updated_before", f.updatedBefore.map .text)]

/-- The names of the built-in parameters. -/
def reserved : List Str :=
  [lit "limit", lit "offset", lit "sort", lit "order", lit "board_id", lit "lane_id",
    lit "column_id", lit "owner_id", lit "member_id", lit "type_id", lit "type", lit "state",
    lit "number", lit "archived", lit "blocked", lit "asap", lit "condition", lit "search",
    lit "created_after", lit "created_before", lit "updated_after", lit "updated_before"]

/-- An entry as a pair of texts, none for a parameter that is not set. -/
def pair (e : Str × Option Value) : Option (Str × Str) := e.2.map fun v => (e.1, v.print)

/-- Each parameter that is set, with its value. -/
def pairs (q : Query CardFilterParams) : List (Str × Str) :=
  (entries q).filterMap pair ++ q.filters.customFilters.items

/-- The pairs a reader finds: the text after the question mark, split and decoded. -/
def decoded (target : Str) : List (Str × Str) := parse ((target.dropWhile (· ≠ 63)).drop 1)

/-- The text says what was asked for. -/
structure Recovered (pagination : PaginationParams) (filters : CardFilterParams) : Prop where
  /-- exactly the parameters that are set, each with its value -/
  recovered : (decoded (text pagination filters)).Perm (pairs (build pagination filters))
  /-- no name twice -/
  once : ((decoded (text pagination filters)).map Prod.fst).Nodup
  /-- the built-in parameters are as they were set -/
  builtIn : ∀ e ∈ entries (build pagination filters),
    (decoded (text pagination filters)).lookup e.1 = e.2.map Value.print

/-- A text without `&` that decodes to itself. -/
def Harmless (s : Str) : Prop := 38 ∉ s ∧ percentDecode s = s

/-- Nothing the user typed touches the syntax of the query. -/
structure Sendable (q : Query CardFilterParams) : Prop where
  texts : ∀ name s, (name, some (Value.text s)) ∈ entries q → Harmless s
  keys : ∀ p ∈ q.filters.customFilters.items, Harmless p.1 ∧ 61 ∉ p.1 ∧ p.1 ∉ reserved
  values : ∀ p ∈ q.filters.customFilters.items, Harmless p.2

/-! ### The text is the rendered list -/

theorem addFilter_eq {T : Type*} (print : T → Str) (ss key : Str) (value : Option T) :
    addFilter print ss key value =
      ss ++ further ((value.map fun v => (key, print v)).toList) := by
  cases value with
  | none => simp [addFilter, further]
  | some v =>
    have hamp : lit "&" = [38] := by decide
    have heq : lit "=" = [61] := by decide
    simp [addFilter, further, renderPair, hamp, heq]

theorem foldl_custom (l : List (Str × Str)) (ss : Str) :
    l.foldl (fun ss p => ss ++ lit "&" ++ p.1 ++ lit "=" ++ p.2) ss = ss ++ further l := by
  have hamp : lit "&" = [38] := by decide
  have heq : lit "=" = [61] := by decide
  induction l generalizing ss with
  | nil => simp [further]
  | cons p l ih =>
    rw [List.foldl_cons, ih]
    simp [further, renderPair, hamp, heq]

/-- The parameters after `limit` that are set. -/
def laterPairs (q : Query CardFilterParams) : List (Str × Str) :=
  (entries q).tail.filterMap pair ++ q.filters.customFilters.items

theorem pairs_eq (q : Query CardFilterParams) :
    pairs q = (lit "limit", intToString q.limit) :: laterPairs q := rfl

theorem paginationText_eq (pagination : PaginationParams) (filters : CardFilterParams) :
    paginationText pagination = 63 :: (renderPair (lit "limit", intToString pagination.limit) ++
      further (((entries (build pagination filters)).tail.take 3).filterMap pair)) := by
  have hlimit : lit "?limit=" = 63 :: (lit "limit" ++ [61]) := by decide
  have hoffset : lit "&offset=" = 38 :: (lit "offset" ++ [61]) := by decide
  have hsort : lit "&sort=" = 38 :: (lit "sort" ++ [61]) := by decide
  have horder : lit "&order=" = 38 :: (lit "order" ++ [61]) := by decide
  rw [List.filterMap_eq_flatMap_toList]
  by_cases h : pagination.offset > 0 <;> by_cases hs : pagination.sortBy ≠ [] <;>
    by_cases ho : pagination.sortOrder ≠ [] <;>
    simp [paginationText, entries, build, pair, further, renderPair, Value.print, h, hs, ho,
      hlimit, hoffset, hsort, horder]

/-- **The text of a query is a question mark and its rendered parameters.** -/
theorem text_eq (pagination : PaginationParams) (filters : CardFilterParams) :
    text pagination filters = 63 :: render (pairs (build pagination filters)) := by
  have hcustom := foldl_custom filters.customFilters.items
  rw [pairs_eq, render_cons, laterPairs, further_append, List.filterMap_eq_flatMap_toList]
  simp only [text, paginationText_eq pagination filters, List.filterMap_eq_flatMap_toList,
    addFilter_eq, entries, List.tail_cons, List.take_succ_cons, List.take_zero,
    List.flatMap_cons, hcustom, List.flatMap_nil, further_append, further_nil, pair,
    Option.map_map, build]
  simp only [List.cons_append, List.append_assoc, List.nil_append]
  rfl

theorem decoded_text (pagination : PaginationParams) (filters : CardFilterParams) :
    decoded (text pagination filters) = parse (render (pairs (build pagination filters))) := by
  rw [text_eq, decoded]
  simp

theorem pairs_ne_nil (q : Query CardFilterParams) : pairs q ≠ [] := by
  rw [pairs_eq]
  exact List.cons_ne_nil _ _

/-! ### Names -/

theorem entries_names (q : Query CardFilterParams) : (entries q).map Prod.fst = reserved := rfl

theorem reserved_nodup : reserved.Nodup := by decide

theorem reserved_plain : ∀ name ∈ reserved, 38 ∉ name ∧ 61 ∉ name ∧ 37 ∉ name := by decide

theorem name_mem_reserved {q : Query CardFilterParams} {e : Str × Option Value}
    (he : e ∈ entries q) : e.1 ∈ reserved := by
  rw [← entries_names q]
  exact List.mem_map_of_mem he

/-- A parameter is looked up among those that are set, with others of other names behind them. -/
theorem lookup_pairs {es : List (Str × Option Value)} {l : List (Str × Str)}
    (hnodup : (es.map Prod.fst).Nodup) (hl : ∀ p ∈ l, p.1 ∉ es.map Prod.fst)
    {e : Str × Option Value} (he : e ∈ es) :
    (es.filterMap pair ++ l).lookup e.1 = e.2.map Value.print := by
  induction es with
  | nil => exact absurd he List.not_mem_nil
  | cons d es ih =>
    obtain ⟨name, v⟩ := d
    rw [List.map_cons, List.nodup_cons] at hnodup
    rcases List.mem_cons.1 he with rfl | he
    · cases v with
      | some v => simp [pair]
      | none =>
        -- not set: no later pair has the name
        rw [List.filterMap_cons_none rfl, Option.map_none, List.lookup_eq_none_iff]
        intro p hp
        rw [bne_iff_ne]
        rintro heq
        rcases List.mem_append.1 hp with hp | hp
        · obtain ⟨c, hc, hpair⟩ := List.mem_filterMap.1 hp
          obtain ⟨w, -, rfl⟩ := Option.map_eq_some_iff.1 hpair
          exact hnodup.1 (List.mem_map.2 ⟨c, hc, heq.symm⟩)
        · exact hl p hp (heq ▸ List.mem_cons_self)
    · have hrest := ih hnodup.2 (fun p hp h => hl p hp (List.mem_cons_of_mem _ h)) he
      have hne : e.1 ≠ name := fun h => hnodup.1 (List.mem_map.2 ⟨e, he, h⟩)
      cases v with
      | none => rwa [List.filterMap_cons_none rfl]
      | some v =>
        have hpair : pair (name, some v) = some (name, v.print) := rfl
        rw [List.filterMap_cons_some hpair, List.cons_append, List.lookup_cons,
          beq_eq_false_iff_ne.2 hne]
        exact hrest

/-! ### What can be read back -/

theorem intToString_plain (n : ℤ) : 38 ∉ intToString n ∧ 37 ∉ intToString n := by
  constructor
  · intro hmem
    exact absurd (mem_intToString hmem) (by decide)
  · intro hmem
    exact absurd (mem_intToString hmem) (by decide)

theorem Value.harmless_print {v : Value} (h : ∀ s, v = .text s → Harmless s) :
    Harmless v.print := by
  cases v with
  | number n =>
    exact ⟨(intToString_plain n).1, percentDecode_of_notMem (intToString_plain n).2⟩
  | flag b => cases b <;> exact ⟨by decide, by decide⟩
  | text s => exact h s rfl

theorem mem_pairs {q : Query CardFilterParams} {p : Str × Str} :
    p ∈ pairs q ↔ (∃ v, (p.1, some v) ∈ entries q ∧ v.print = p.2) ∨
      p ∈ q.filters.customFilters.items := by
  obtain ⟨name, s⟩ := p
  rw [pairs, List.mem_append, List.mem_filterMap]
  constructor
  · rintro (⟨⟨n, v⟩, hv, hpair⟩ | h)
    · obtain ⟨v, rfl, heq⟩ := Option.map_eq_some_iff.1 hpair
      cases heq
      exact Or.inl ⟨v, hv, rfl⟩
    · exact Or.inr h
  · rintro (⟨v, hv, rfl⟩ | h)
    · exact Or.inl ⟨_, hv, rfl⟩
    · exact Or.inr h

theorem Sendable.plain {q : Query CardFilterParams} (h : Sendable q) : ∀ p ∈ pairs q, Plain p := by
  intro p hp
  rcases mem_pairs.1 hp with ⟨v, hv, hprint⟩ | hp
  · obtain ⟨hamp, heq, hpercent⟩ := reserved_plain p.1 (name_mem_reserved hv)
    obtain ⟨hvamp, hvescape⟩ := Value.harmless_print fun s hs => h.texts p.1 s (hs ▸ hv)
    rw [hprint] at hvamp hvescape
    exact ⟨hamp, heq, percentDecode_of_notMem hpercent, hvamp, hvescape⟩
  · obtain ⟨⟨hamp, hescape⟩, heq, -⟩ := h.keys p hp
    exact ⟨hamp, heq, hescape, (h.values p hp).1, (h.values p hp).2⟩

/-- Names of set parameters. -/
theorem filterMap_pair_names (es : List (Str × Option Value)) :
    ((es.filterMap pair).map Prod.fst).Sublist (es.map Prod.fst) := by
  induction es with
  | nil => simp
  | cons e es ih =>
    obtain ⟨name, v⟩ := e
    cases v with
    | none => exact ih.cons name
    | some v => exact ih.cons_cons name

theorem Sendable.names_nodup {q : Query CardFilterParams} (h : Sendable q) :
    ((pairs q).map Prod.fst).Nodup := by
  rw [pairs, List.map_append, List.nodup_append']
  have hsub := filterMap_pair_names (entries q)
  refine ⟨hsub.nodup reserved_nodup, (OrdMap.sorted _).nodup_keys, ?_⟩
  intro name hbuiltIn hcustom
  obtain ⟨p, hp, rfl⟩ := List.mem_map.1 hcustom
  exact (h.keys p hp).2.2 (hsub.subset hbuiltIn)

theorem Sendable.lookup {q : Query CardFilterParams} (h : Sendable q) {e : Str × Option Value}
    (he : e ∈ entries q) : (pairs q).lookup e.1 = e.2.map Value.print := by
  have hnodup : ((entries q).map Prod.fst).Nodup := reserved_nodup
  exact lookup_pairs hnodup (fun p hp => (h.keys p hp).2.2) he

theorem Sendable.decoded {pagination : PaginationParams} {filters : CardFilterParams}
    (h : Sendable (build pagination filters)) :
    decoded (text pagination filters) = pairs (build pagination filters) := by
  rw [decoded_text, parse_render_of_plain (pairs_ne_nil _) h.plain]

/-- **The parameters are recovered from the text exactly when no text the user typed touches the
syntax of the query.** -/
theorem recovered_iff (pagination : PaginationParams) (filters : CardFilterParams) :
    Recovered pagination filters ↔ Sendable (build pagination filters) := by
  constructor
  · intro h
    have hperm := h.recovered
    rw [decoded_text] at hperm
    have hplain := (parse_render_perm_iff (pairs_ne_nil _)).1 hperm
    refine ⟨?_, ?_, ?_⟩
    · intro name s hs
      have hp := hplain (name, s) (mem_pairs.2 (Or.inl ⟨_, hs, rfl⟩))
      exact ⟨hp.value_amp, hp.value_escape⟩
    · intro p hp
      have hmem := mem_pairs.2 (Or.inr hp)
      refine ⟨⟨(hplain p hmem).name_amp, (hplain p hmem).name_escape⟩, (hplain p hmem).name_eq, ?_⟩
      -- a custom filter with the name of a built-in parameter: found under a name that is not
      -- set, or under one that occurs twice
      intro hname
      rw [← entries_names (build pagination filters)] at hname
      obtain ⟨⟨name, v⟩, he, heq⟩ := List.mem_map.1 hname
      have hlookup := h.builtIn _ he
      cases v with
      | none =>
        rw [Option.map_none, List.lookup_eq_none_iff] at hlookup
        exact absurd heq (bne_iff_ne.1 (hlookup p (h.recovered.mem_iff.2 hmem)))
      | some v =>
        have hnodup := (h.recovered.map Prod.fst).nodup_iff.1 h.once
        rw [pairs, List.map_append, List.nodup_append'] at hnodup
        exact hnodup.2.2 (List.mem_map.2 ⟨(name, v.print), List.mem_filterMap.2 ⟨_, he, rfl⟩, heq⟩)
          (List.mem_map_of_mem hp)
    · intro p hp
      have hp := hplain p (mem_pairs.2 (Or.inr hp))
      exact ⟨hp.value_amp, hp.value_escape⟩
  · intro h
    refine ⟨?_, ?_, ?_⟩
    · rw [h.decoded]
    · rw [h.decoded]
      exact h.names_nodup
    · intro e he
      rw [h.decoded]
      exact h.lookup he

/-! ### Different queries have different texts -/

/-- The printed entries are determined by the pairs. -/
theorem Sendable.printed_entries {q : Query CardFilterParams} (h : Sendable q) :
    (entries q).map (fun e => (e.1, e.2.map Value.print)) =
      reserved.map fun name => (name, (pairs q).lookup name) := by
  rw [← entries_names q, List.map_map]
  exact List.map_congr_left fun e he => by rw [Function.comp_apply, h.lookup he]

theorem filterMap_pair (es : List (Str × Option Value)) : es.filterMap pair =
    (es.map fun e => (e.1, e.2.map Value.print)).filterMap fun e => e.2.map fun s => (e.1, s) := by
  rw [List.filterMap_map]
  congr 1
  funext e
  rw [Function.comp_apply, pair, Option.map_map]
  rfl

theorem print_number_injective : Function.Injective (Value.print ∘ Value.number) :=
  Decimal.printInt_injective

theorem print_int64_injective :
    Function.Injective (Value.print ∘ fun n : Int64 => Value.number n.toInt) :=
  fun _ _ h => Int64.toInt_inj.1 (Decimal.printInt_injective h)

theorem print_int_injective :
    Function.Injective (Value.print ∘ fun n : Int32 => Value.number n.toInt) :=
  fun _ _ h => Int32.toInt_inj.1 (Decimal.printInt_injective h)

theorem print_flag_injective : Function.Injective (Value.print ∘ Value.flag) := by
  intro a b h
  cases a <;> cases b <;> first | rfl | exact absurd h (by decide)

theorem print_text_injective : Function.Injective (Value.print ∘ Value.text) := fun _ _ h => h

/-- Queries that can be read back are different when anything in them is. -/
theorem Sendable.pairs_injective {q r : Query CardFilterParams} (hq : Sendable q)
    (hr : Sendable r) (h : pairs q = pairs r) : q = r := by
  have hentries := hq.printed_entries.trans (h ▸ hr.printed_entries.symm)
  have hcustom : q.filters.customFilters = r.filters.customFilters := by
    rw [pairs, pairs, filterMap_pair, filterMap_pair, hentries] at h
    exact OrdMap.ext (List.append_cancel_left h)
  obtain ⟨limit, offset, sort, order, f⟩ := q
  obtain ⟨limit', offset', sort', order', g⟩ := r
  cases f
  cases g
  simp only [entries, List.map_cons, List.map_nil, Option.map_map, List.cons.injEq,
    Prod.mk.injEq, true_and, and_true, Option.map_some, Option.some.injEq, Value.print,
    Decimal.printInt_injective.eq_iff, intToString,
    (Option.map_injective print_number_injective).eq_iff,
    (Option.map_injective print_int64_injective).eq_iff,
    (Option.map_injective print_int_injective).eq_iff,
    (Option.map_injective print_flag_injective).eq_iff,
    (Option.map_injective print_text_injective).eq_iff] at hentries hcustom
  simp only [hentries, hcustom]

/-- **Query strings can be decoded.**  For all parameters and filters, the text of the query says
exactly what was asked for if and only if nothing the user typed touches the syntax of the query;
and two queries of that kind with the same text are the same. -/
theorem build_decodable_iff (pagination : PaginationParams) (filters : CardFilterParams) :
    (Recovered pagination filters ↔ Sendable (build pagination filters)) ∧
    ∀ (pagination' : PaginationParams) (filters' : CardFilterParams),
      Sendable (build pagination filters) → Sendable (build pagination' filters') →
      text pagination filters = text pagination' filters' →
      build pagination filters = build pagination' filters' := by
  refine ⟨recovered_iff pagination filters, fun pagination' filters' h h' htext => ?_⟩
  refine h.pairs_injective h' ?_
  rw [← h.decoded, ← h'.decoded, htext]

/-- Filters for the cards with the number 7 that mention `bug #1`. -/
def sampleFilters : CardFilterParams :=
  { number := some (lit "7"), search := some (lit "bug #1") }

theorem sampleFilters_sendable : Sendable (build {} sampleFilters) := by
  refine ⟨?_, by simp [sampleFilters, build], by simp [sampleFilters, build]⟩
  intro name s hs
  simp [entries, build, sampleFilters] at hs
  rcases hs with ⟨-, rfl⟩ | ⟨-, rfl⟩
  · exact ⟨by decide, by decide⟩
  · exact ⟨by decide, by decide⟩

theorem build_decodable_iff_number : Recovered {} sampleFilters ∧
    (text {} sampleFilters = text { sortOrder := lit "asc" } sampleFilters →
      build {} sampleFilters = build { sortOrder := lit "asc" } sampleFilters) :=
  ⟨(build_decodable_iff {} sampleFilters).1.2 sampleFilters_sendable,
    (build_decodable_iff {} sampleFilters).2 { sortOrder := lit "asc" } sampleFilters
      sampleFilters_sendable sampleFilters_sendable⟩

/-- A search text becomes a second limit, and the same request as two other filters. -/
theorem search_overrides_limit :
    ¬ Recovered {} { search := some (lit "a&limit=1") } ∧
      text {} { search := some (lit "a&limit=1") } =
        text {} { search := some (lit "a"),
                  customFilters := OrdMap.empty.insert (lit "limit") (lit "1") } := by
  refine ⟨fun h => ?_, by decide +kernel⟩
  have honce := h.once
  revert honce
  decide +kernel

end Kaiten.QueryBuilder

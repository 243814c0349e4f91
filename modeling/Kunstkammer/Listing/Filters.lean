import Kunstkammer.Listing.QueryText

/-!
# Filters from the command line

The text `key1=value1,key2=value2` becomes a map, the map becomes the filters of a listing, and
the filters become parameters of the request.

* `parseFilters`: the map of the text;
* `filterHandlers`, `applyFilters`: the handler of each key, and what the whole map does;
* `FilterKind`, `filterKinds`, `filterEntries`: the filters as named values, the kind of each;
* `filterEntries_applyFilters`, `customFilters_applyFilters`: what the filters are afterwards;
* `QueryBuilder.parts_filters`: well-formed filters arrive in the request as they were written.
-/

namespace Kaiten

open QueryString

/-! ### The source -/

/-- `std::getline` with a delimiter, until the stream is at its end. -/
def getlines (delim : UInt8) (s : Str) : List Str :=
  if (s.splitOn delim).getLast? = some [] then (s.splitOn delim).dropLast else s.splitOn delim

/-- `parse_filters`: a part without `=` is skipped. -/
def parseFilters (filtersStr : Str) : OrdMap Str Str :=
  if filtersStr = [] then OrdMap.empty
  else (getlines 44 filtersStr).foldl (fun filters filter =>
    if 61 ∈ filter then
      filters.insert (filter.takeWhile (· ≠ 61)) ((filter.dropWhile (· ≠ 61)).drop 1)
    else filters) OrdMap.empty

/-- `FilterHandler`. -/
abbrev FilterHandler := CardFilterParams → Str → CardFilterParams

/-- The handler of a number: the filter is left alone where the conversion throws. -/
def numberHandler {T : Type} (convert : Str → Option T)
    (set : CardFilterParams → T → CardFilterParams) : FilterHandler := fun params value =>
  match convert value with
  | some n => set params n
  | none => params

/-- `value == "true" || value == "1" || value == "yes"`. -/
def isYes (value : Str) : Bool := value = lit "true" || value = lit "1" || value = lit "yes"

/-- `filter_handlers`. -/
def filterHandlers : List (Str × FilterHandler) :=
  [(lit "board_id", numberHandler stoll fun params n => { params with boardId := some n }),
    (lit "lane_id", numberHandler stoll fun params n => { params with laneId := some n }),
    (lit "column_id", numberHandler stoll fun params n => { params with columnId := some n }),
    (lit "owner_id", numberHandler stoll fun params n => { params with ownerId := some n }),
    (lit "member_id", numberHandler stoll fun params n => { params with memberId := some n }),
    (lit "type_id", numberHandler stoll fun params n => { params with typeId := some n }),
    (lit "type", fun params value => { params with typeName := some value }),
    (lit "state", fun params value => { params with state := some value }),
    (lit "archived", fun params value => { params with archived := some (isYes value) }),
    (lit "blocked", fun params value => { params with blocked := some (isYes value) }),
    (lit "asap", fun params value => { params with asap := some (isYes value) }),
    (lit "search", fun params value => { params with search := some value }),
    (lit "created_after", fun params value => { params with createdAfter := some value }),
    (lit "created_before", fun params value => { params with createdBefore := some value }),
    (lit "updated_after", fun params value => { params with updatedAfter := some value }),
    (lit "updated_before", fun params value => { params with updatedBefore := some value }),
    (lit "condition", numberHandler stoi fun params n => { params with condition := some n }),
    (lit "number", fun params value => { params with number := some value })]

/-- One filter: an unknown one is a custom filter. -/
def applyFilter (params : CardFilterParams) (filter : Str × Str) : CardFilterParams :=
  match OrdAssoc.find? filter.1 filterHandlers with
  | some handler => handler params filter.2
  | none => { params with customFilters := params.customFilters.insert filter.1 filter.2 }

/-- `apply_filters`. -/
def applyFilters (params : CardFilterParams) (filters : OrdMap Str Str) : CardFilterParams :=
  filters.items.foldl applyFilter params

/-! ### Filters as named values -/

/-- How the text of a filter is read. -/
inductive FilterKind
  | int64
  | int
  | flag
  | text

/-- The value of a filter, none where there is none. -/
def FilterKind.read : FilterKind → Str → Option QueryBuilder.Value
  | .int64, s => (stoll s).map fun n => .number n.toInt
  | .int, s => (stoi s).map fun n => .number n.toInt
  | .flag, s => some (.flag (isYes s))
  | .text, s => some (.text s)

/-- The filters that are not custom, in the order of the query. -/
def filterKinds : List (Str × FilterKind) :=
  [(lit "board_id", .int64), (lit "lane_id", .int64), (lit "column_id", .int64),
    (lit "owner_id", .int64), (lit "member_id", .int64), (lit "type_id", .int64),
    (lit "type", .text), (lit "state", .text), (lit "number", .text), (lit "archived", .flag),
    (lit "blocked", .flag), (lit "asap", .flag), (lit "condition", .int), (lit "search", .text),
    (lit "created_after", .text), (lit "created_before", .text), (lit "updated_after", .text),
    (lit "updated_before", .text)]

/-- Their names. -/
def filterNames : List Str := filterKinds.map Prod.fst

/-- What the filters are. -/
def filterEntries (f : CardFilterParams) : List (Str × Option QueryBuilder.Value) :=
  (QueryBuilder.entries (QueryBuilder.build {} f)).drop 4

/-- What a text says about the filter of a name. -/
def readFilter (name value : Str) : Option QueryBuilder.Value :=
  (OrdAssoc.find? name filterKinds).bind (·.read value)

theorem filterEntries_names (f : CardFilterParams) :
    (filterEntries f).map Prod.fst = filterNames := rfl

theorem filterNames_nodup : filterNames.Nodup := by decide +kernel

theorem handler_names : (filterHandlers.map Prod.fst).Perm filterNames := by decide +kernel

theorem number_injective {T : Type} {toInt : T → ℤ} (h : Function.Injective toInt) :
    Function.Injective (Option.map fun n => QueryBuilder.Value.number (toInt n)) :=
  Option.map_injective fun _ _ heq => h (QueryBuilder.Value.number.inj heq)

/-- Filters are the same when their named values and the custom filters are. -/
theorem filters_ext {f g : CardFilterParams} (hentries : filterEntries f = filterEntries g)
    (hcustom : f.customFilters = g.customFilters) : f = g := by
  have hint64 := number_injective fun _ _ => Int64.toInt_inj.1
  have hint := number_injective fun _ _ => Int32.toInt_inj.1
  have hflag := Option.map_injective fun _ _ => QueryBuilder.Value.flag.inj
  have htext := Option.map_injective fun _ _ => QueryBuilder.Value.text.inj
  cases f
  cases g
  simp only [filterEntries, QueryBuilder.entries, QueryBuilder.build, List.drop_succ_cons,
    List.drop_zero, List.cons.injEq, Prod.mk.injEq, true_and, and_true, hint64.eq_iff,
    hint.eq_iff, hflag.eq_iff, htext.eq_iff] at hentries hcustom
  simp only [hentries, hcustom]

/-! ### What one filter does -/

/-- A handler writes one entry, or leaves everything alone. -/
def Writes (i : ℕ) (name : Str) (kind : FilterKind) (handler : FilterHandler) : Prop :=
  ∀ params s, filterEntries (handler params s) =
      (match kind.read s with
      | some v => (filterEntries params).set i (name, some v)
      | none => filterEntries params) ∧
    (handler params s).customFilters = params.customFilters

theorem writes_number {T : Type} {convert : Str → Option T} (toInt : T → ℤ) {kind : FilterKind}
    {set : CardFilterParams → T → CardFilterParams} {i : ℕ} {name : Str}
    (hread : ∀ s, kind.read s = (convert s).map fun n => .number (toInt n))
    (hset : ∀ params n, filterEntries (set params n) =
        (filterEntries params).set i (name, some (.number (toInt n))) ∧
      (set params n).customFilters = params.customFilters) :
    Writes i name kind (numberHandler convert set) := by
  intro params s
  rw [hread]
  unfold numberHandler
  cases convert s with
  | none => exact ⟨rfl, rfl⟩
  | some n => exact hset params n

/-- Every handler writes the entry of its own name. -/
theorem filterHandlers_write : ∀ h ∈ filterHandlers,
    ∃ i kind, filterKinds[i]? = some (h.1, kind) ∧ Writes i h.1 kind h.2 := by
  simp only [filterHandlers, List.forall_mem_cons]
  refine ⟨?_, ?_, ?_, ?_, ?_, ?_, ?_, ?_, ?_, ?_, ?_, ?_, ?_, ?_, ?_, ?_, ?_, ?_,
    fun _ h => absurd h List.not_mem_nil⟩
  · exact ⟨0, .int64, rfl, writes_number Int64.toInt (fun _ => rfl) fun _ _ => ⟨rfl, rfl⟩⟩
  · exact ⟨1, .int64, rfl, writes_number Int64.toInt (fun _ => rfl) fun _ _ => ⟨rfl, rfl⟩⟩
  · exact ⟨2, .int64, rfl, writes_number Int64.toInt (fun _ => rfl) fun _ _ => ⟨rfl, rfl⟩⟩
  · exact ⟨3, .int64, rfl, writes_number Int64.toInt (fun _ => rfl) fun _ _ => ⟨rfl, rfl⟩⟩
  · exact ⟨4, .int64, rfl, writes_number Int64.toInt (fun _ => rfl) fun _ _ => ⟨rfl, rfl⟩⟩
  · exact ⟨5, .int64, rfl, writes_number Int64.toInt (fun _ => rfl) fun _ _ => ⟨rfl, rfl⟩⟩
  · exact ⟨6, .text, rfl, fun _ _ => ⟨rfl, rfl⟩⟩
  · exact ⟨7, .text, rfl, fun _ _ => ⟨rfl, rfl⟩⟩
  · exact ⟨9, .flag, rfl, fun _ _ => ⟨rfl, rfl⟩⟩
  · exact ⟨10, .flag, rfl, fun _ _ => ⟨rfl, rfl⟩⟩
  · exact ⟨11, .flag, rfl, fun _ _ => ⟨rfl, rfl⟩⟩
  · exact ⟨13, .text, rfl, fun _ _ => ⟨rfl, rfl⟩⟩
  · exact ⟨14, .text, rfl, fun _ _ => ⟨rfl, rfl⟩⟩
  · exact ⟨15, .text, rfl, fun _ _ => ⟨rfl, rfl⟩⟩
  · exact ⟨16, .text, rfl, fun _ _ => ⟨rfl, rfl⟩⟩
  · exact ⟨17, .text, rfl, fun _ _ => ⟨rfl, rfl⟩⟩
  · exact ⟨12, .int, rfl, writes_number Int32.toInt (fun _ => rfl) fun _ _ => ⟨rfl, rfl⟩⟩
  · exact ⟨8, .text, rfl, fun _ _ => ⟨rfl, rfl⟩⟩

theorem readFilter_of_notMem {name : Str} (h : name ∉ filterNames) (s : Str) :
    readFilter name s = none := by
  rw [readFilter, OrdAssoc.find?_eq_none_iff.2 h, Option.bind_none]

/-- **One filter changes the value under its own name**, if it has one. -/
theorem filterEntries_applyFilter (params : CardFilterParams) (p : Str × Str) :
    filterEntries (applyFilter params p) = (filterEntries params).map fun e =>
      if e.1 = p.1 then (e.1, (readFilter p.1 p.2).or e.2) else e := by
  unfold applyFilter
  cases hfind : OrdAssoc.find? p.1 filterHandlers with
  | none =>
    have hname : p.1 ∉ filterNames := by
      rwa [← handler_names.mem_iff, ← OrdAssoc.find?_eq_none_iff]
    rw [readFilter_of_notMem hname]
    simp
    rfl
  | some handler =>
    obtain ⟨i, kind, hi, hwrites⟩ := filterHandlers_write _ (OrdAssoc.mem_of_find? hfind)
    have hkind : OrdAssoc.find? p.1 filterKinds = some kind :=
      (OrdAssoc.find?_eq_some_iff filterNames_nodup).2 (List.mem_of_getElem? hi)
    rw [(hwrites params p.2).1, readFilter, hkind, Option.bind_some]
    cases kind.read p.2 with
    | none => simp
    | some v =>
      have hname : ((filterEntries params).map Prod.fst)[i]? = some p.1 := by
        rw [filterEntries_names, filterNames, List.getElem?_map, hi, Option.map_some]
      have hnodup : ((filterEntries params).map Prod.fst).Nodup := filterNames_nodup
      exact OrdAssoc.set_eq_map hnodup hname (some v)

theorem customFilters_applyFilter (params : CardFilterParams) (p : Str × Str) :
    (applyFilter params p).customFilters =
      if p.1 ∈ filterNames then params.customFilters
      else params.customFilters.insert p.1 p.2 := by
  unfold applyFilter
  cases hfind : OrdAssoc.find? p.1 filterHandlers with
  | none =>
    rw [OrdAssoc.find?_eq_none_iff, handler_names.mem_iff] at hfind
    rw [if_neg hfind]
  | some handler =>
    have hmem := OrdAssoc.mem_of_find? hfind
    obtain ⟨i, kind, -, hwrites⟩ := filterHandlers_write _ hmem
    rw [if_pos (handler_names.mem_iff.1 (List.mem_map_of_mem hmem))]
    exact (hwrites params p.2).2

/-- A filter without a value under a name that is known changes nothing. -/
theorem applyFilter_of_unread {params : CardFilterParams} {p : Str × Str}
    (hname : p.1 ∈ filterNames) (h : readFilter p.1 p.2 = none) :
    applyFilter params p = params := by
  apply filters_ext
  · rw [filterEntries_applyFilter, h]
    simp
  · rw [customFilters_applyFilter, if_pos hname]

/-! ### What the whole map does -/

/-- **Every filter has the value that stands under its name**, where that can be read. -/
theorem filterEntries_foldl {l : List (Str × Str)} (h : (l.map Prod.fst).Nodup)
    (params : CardFilterParams) :
    filterEntries (l.foldl applyFilter params) = (filterEntries params).map fun e =>
      (e.1, ((OrdAssoc.find? e.1 l).bind (readFilter e.1)).or e.2) := by
  induction l generalizing params with
  | nil => simp [OrdAssoc.find?]
  | cons p l ih =>
    rw [List.map_cons, List.nodup_cons] at h
    rw [List.foldl_cons, ih h.2, filterEntries_applyFilter, List.map_map]
    apply List.map_congr_left
    intro e _
    rw [Function.comp_apply, OrdAssoc.find?]
    by_cases he : e.1 = p.1
    · have hlater : OrdAssoc.find? p.1 l = none := OrdAssoc.find?_eq_none_iff.2 h.1
      simp [he, hlater]
    · simp [he]

/-- The others are custom filters. -/
theorem customFilters_foldl (l : List (Str × Str)) (params : CardFilterParams) :
    (l.foldl applyFilter params).customFilters =
      (l.filter (·.1 ∉ filterNames)).foldl (fun m p => m.insert p.1 p.2) params.customFilters := by
  induction l generalizing params with
  | nil => rfl
  | cons p l ih =>
    rw [List.foldl_cons, ih, customFilters_applyFilter, List.filter_cons]
    by_cases hname : p.1 ∈ filterNames
    · simp [hname]
    · simp [hname]

theorem filterEntries_applyFilters (params : CardFilterParams) (m : OrdMap Str Str) :
    filterEntries (applyFilters params m) = (filterEntries params).map fun e =>
      (e.1, ((m.find? e.1).bind (readFilter e.1)).or e.2) :=
  filterEntries_foldl m.sorted.nodup_keys params

theorem customFilters_applyFilters (m : OrdMap Str Str) :
    (applyFilters {} m).customFilters.items = m.items.filter (·.1 ∉ filterNames) := by
  rw [applyFilters, customFilters_foldl, OrdMap.foldl_insert_items]
  exact OrdAssoc.foldl_insert (m.sorted.filter _)

/-- After a map has been applied to unset filters, each has what the map says. -/
theorem mem_filterEntries {m : OrdMap Str Str} {name : Str} {v : Option QueryBuilder.Value} :
    (name, v) ∈ filterEntries (applyFilters {} m) ↔
      name ∈ filterNames ∧ v = (m.find? name).bind (readFilter name) := by
  have hunset : filterEntries {} = filterNames.map fun name => (name, none) := rfl
  rw [filterEntries_applyFilters, hunset, List.map_map, List.mem_map]
  constructor
  · rintro ⟨name', hname', heq⟩
    obtain ⟨rfl, rfl⟩ := Prod.mk.inj heq
    exact ⟨hname', by rw [Option.or_none]⟩
  · rintro ⟨hname, rfl⟩
    exact ⟨name, hname, by rw [Function.comp_apply, Option.or_none]⟩

/-! ### From the command line to the request -/

/-- The value as the program itself writes it. -/
def FilterKind.Canonical : FilterKind → Str → Prop
  | .int64, s => ∃ n : Int64, s = intToString n.toInt
  | .int, s => ∃ n : Int32, s = intToString n.toInt
  | .flag, s => s = lit "true" ∨ s = lit "false"
  | .text, _ => True

/-- The filters of a map, in the order they are written. -/
structure WellFormed (l : List (Str × Str)) : Prop where
  distinct : (l.map Prod.fst).Nodup
  keys : ∀ p ∈ l, 44 ∉ p.1 ∧ 61 ∉ p.1 ∧ 38 ∉ p.1
  values : ∀ p ∈ l, 44 ∉ p.2 ∧ 38 ∉ p.2
  canonical : ∀ p ∈ l, ∀ kind, (p.1, kind) ∈ filterKinds → kind.Canonical p.2

/-- `key1=value1,key2=value2`. -/
def written (l : List (Str × Str)) : Str := [44].intercalate (l.map renderPair)

/-- The parts of the query of a request. -/
def QueryBuilder.parts (target : Str) : List Str :=
  ((target.dropWhile (· ≠ 63)).drop 1).splitOn 38

theorem getlines_written {l : List (Str × Str)} (h : WellFormed l) (hne : l ≠ []) :
    getlines 44 (written l) = l.map renderPair := by
  have hsplit : (written l).splitOn 44 = l.map renderPair := by
    apply List.splitOn_intercalate
    · intro part hpart
      obtain ⟨p, hp, rfl⟩ := List.mem_map.1 hpart
      simp [renderPair, (h.keys p hp).1, (h.values p hp).1]
    · simpa using hne
  have hlast : (l.map renderPair).getLast? ≠ some [] := by
    intro hlast
    obtain ⟨p, -, hempty⟩ := List.mem_map.1 (List.mem_of_getLast? hlast)
    simp [renderPair] at hempty
  rw [getlines, hsplit, if_neg hlast]

/-- The map is the one that was written. -/
theorem parseFilters_written {l : List (Str × Str)} (h : WellFormed l) :
    (parseFilters (written l)).items.Perm l := by
  by_cases hne : l = []
  · subst hne
    exact List.Perm.refl _
  · have hwritten : written l ≠ [] := by
      obtain ⟨p, t, rfl⟩ := List.exists_cons_of_ne_nil hne
      cases t <;> simp [written, renderPair]
    have hstep : ∀ (m : OrdMap Str Str), ∀ p ∈ l, (if 61 ∈ renderPair p then
        m.insert ((renderPair p).takeWhile (· ≠ 61)) (((renderPair p).dropWhile (· ≠ 61)).drop 1)
        else m) = m.insert p.1 p.2 := by
      intro m p hp
      obtain ⟨hname, hvalue⟩ := cut_renderPair (h.keys p hp).2.1
      rw [if_pos (by simp [renderPair]), hname, hvalue]
    rw [parseFilters, if_neg hwritten, getlines_written h hne, List.foldl_map,
      List.foldl_ext _ _ _ hstep, OrdMap.foldl_insert_items]
    have hnodup : ((l ++ ([] : List (Str × Str))).map Prod.fst).Nodup := by
      rw [List.append_nil]
      exact h.distinct
    simpa using OrdAssoc.perm_foldl_insert hnodup

/-- What the program writes, it reads, and writes again. -/
theorem FilterKind.Canonical.read {kind : FilterKind} {s : Str} (h : kind.Canonical s) :
    ∃ v, kind.read s = some v ∧ v.print = s := by
  cases kind with
  | int64 =>
    obtain ⟨n, rfl⟩ := h
    exact ⟨.number n.toInt, by rw [FilterKind.read, stoll_intToString, Option.map_some], rfl⟩
  | int =>
    obtain ⟨n, rfl⟩ := h
    exact ⟨.number n.toInt, by rw [FilterKind.read, stoi_intToString, Option.map_some], rfl⟩
  | flag =>
    rcases h with rfl | rfl
    · have hyes : isYes (lit "true") = true := by decide +kernel
      exact ⟨.flag true, by rw [FilterKind.read, hyes], rfl⟩
    · have hno : isYes (lit "false") = false := by decide +kernel
      exact ⟨.flag false, by rw [FilterKind.read, hno], rfl⟩
  | text => exact ⟨.text s, rfl, rfl⟩

/-- A filter that is not custom and written canonically is printed as it was written. -/
theorem readFilter_canonical {name s : Str} (hname : name ∈ filterNames)
    (h : ∀ kind, (name, kind) ∈ filterKinds → kind.Canonical s) :
    ∃ v, readFilter name s = some v ∧ v.print = s := by
  obtain ⟨⟨_, kind⟩, hkind, rfl⟩ := List.mem_map.1 hname
  obtain ⟨v, hread, hprint⟩ := (h kind hkind).read
  refine ⟨v, ?_, hprint⟩
  rw [readFilter, (OrdAssoc.find?_eq_some_iff filterNames_nodup).2 hkind, Option.bind_some, hread]

/-- The filters that are not custom are those of the map. -/
theorem filter_pairs {m : OrdMap Str Str}
    (h : ∀ p ∈ m.items, ∀ kind, (p.1, kind) ∈ filterKinds → kind.Canonical p.2) :
    ((filterEntries (applyFilters {} m)).filterMap QueryBuilder.pair).Perm
      (m.items.filter (·.1 ∈ filterNames)) := by
  have hitems := m.sorted.nodup_keys
  rw [List.perm_ext_iff_of_nodup]
  · rintro ⟨name, s⟩
    rw [List.mem_filterMap, List.mem_filter, decide_eq_true_eq]
    constructor
    · rintro ⟨⟨name', v⟩, hmem, hpair⟩
      obtain ⟨hname, rfl⟩ := mem_filterEntries.1 hmem
      obtain ⟨v, hv, heq⟩ := Option.map_eq_some_iff.1 hpair
      obtain ⟨rfl, rfl⟩ := Prod.mk.inj heq
      obtain ⟨s, hs, hread⟩ := Option.bind_eq_some_iff.1 hv
      have hmem : (name', s) ∈ m.items := OrdAssoc.mem_of_find? hs
      obtain ⟨w, hw, hprint⟩ := readFilter_canonical hname (h _ hmem)
      obtain rfl : w = v := Option.some.inj (hw.symm.trans hread)
      refine ⟨?_, hname⟩
      rw [hprint]
      exact hmem
    · rintro ⟨hmem, hname⟩
      obtain ⟨v, hread, hprint⟩ := readFilter_canonical hname (h _ hmem)
      have hfind : m.find? name = some s := (OrdAssoc.find?_eq_some_iff hitems).2 hmem
      refine ⟨(name, some v), mem_filterEntries.2 ⟨hname, ?_⟩, ?_⟩
      · rw [hfind, Option.bind_some, hread]
      · rw [QueryBuilder.pair, Option.map_some, hprint]
  · have hnodup : ((filterEntries (applyFilters {} m)).map Prod.fst).Nodup := filterNames_nodup
    exact ((QueryBuilder.filterMap_pair_names _).nodup hnodup).of_map _
  · exact (hitems.of_map _).filter _

/-- All filters together are those of the map. -/
theorem perm_pairs {m : OrdMap Str Str}
    (h : ∀ p ∈ m.items, ∀ kind, (p.1, kind) ∈ filterKinds → kind.Canonical p.2) :
    ((filterEntries (applyFilters {} m)).filterMap QueryBuilder.pair ++
      (applyFilters {} m).customFilters.items).Perm m.items := by
  rw [customFilters_applyFilters]
  refine ((filter_pairs h).append_right _).trans ?_
  simpa using List.filter_append_perm (fun p : Str × Str => decide (p.1 ∈ filterNames)) m.items

namespace QueryBuilder

/-- The filters follow the pagination. -/
theorem text_eq_append (pagination : PaginationParams) (f : CardFilterParams) :
    text pagination f = paginationText pagination ++
      further ((filterEntries f).filterMap pair ++ f.customFilters.items) := by
  have hlater : laterPairs (build pagination f) =
      ((entries (build pagination f)).tail.take 3).filterMap pair ++
        ((filterEntries f).filterMap pair ++ f.customFilters.items) := by
    rw [← List.append_assoc, ← List.filterMap_append]
    rfl
  rw [text_eq, pairs_eq, render_cons, paginationText_eq pagination f, hlater, further_append]
  simp [build]

theorem parts_question (query : Str) : parts (63 :: query) = query.splitOn 38 := by
  simp [parts]

theorem parts_append (pagination : PaginationParams) {l : List (Str × Str)}
    (h : ∀ p ∈ l, 38 ∉ p.1 ∧ 38 ∉ p.2) :
    parts (paginationText pagination ++ further l) =
      parts (paginationText pagination) ++ l.map renderPair := by
  rw [paginationText_eq pagination {}, List.cons_append, parts_question, parts_question,
    splitOn_further _ h]

/-- Without an order, the pagination is the limit, and the offset where it is positive. -/
theorem parts_pagination {pagination : PaginationParams} (h : pagination.sortBy = []) :
    parts (paginationText pagination) = (lit "limit=" ++ intToString pagination.limit) ::
      if pagination.offset > 0 then [lit "offset=" ++ intToString pagination.offset] else [] := by
  have hlimit : lit "limit=" = lit "limit" ++ [61] := by decide +kernel
  have hoffset : lit "offset=" = lit "offset" ++ [61] := by decide +kernel
  have hnames : 38 ∉ lit "limit" ∧ 38 ∉ lit "offset" := by decide +kernel
  have hnumber : ∀ n : ℤ, 38 ∉ intToString n := fun n => (intToString_plain n).1
  have hfirst : 38 ∉ renderPair (lit "limit", intToString pagination.limit) := by
    simp [renderPair, hnames.1, hnumber]
  rw [paginationText_eq pagination {}, parts_question]
  by_cases hoff : pagination.offset > 0
  · have hpairs : ((entries (build pagination {})).tail.take 3).filterMap pair =
        [(lit "offset", intToString pagination.offset)] := by
      simp [entries, build, pair, Value.print, h, hoff]
    rw [hpairs, splitOn_further _ (by simp [hnames.2, hnumber]), List.splitOn_eq_singleton hfirst,
      if_pos hoff]
    simp [renderPair, hlimit, hoffset]
  · have hpairs : ((entries (build pagination {})).tail.take 3).filterMap pair = [] := by
      simp [entries, build, pair, h, hoff]
    rw [hpairs, further_nil, List.append_nil, List.splitOn_eq_singleton hfirst, if_neg hoff]
    simp [renderPair, hlimit]

/-- **Filters reach the request unchanged.** -/
theorem parts_filters (pagination : PaginationParams) {l : List (Str × Str)} (h : WellFormed l) :
    (parts (text pagination (applyFilters {} (parseFilters (written l))))).Perm
      (parts (paginationText pagination) ++ l.map renderPair) ∧
    (pagination.sortBy = [] → parts (paginationText pagination) =
      (lit "limit=" ++ intToString pagination.limit) ::
        if pagination.offset > 0 then
          [lit "offset=" ++ intToString pagination.offset] else []) := by
  refine ⟨?_, parts_pagination⟩
  have hparse := parseFilters_written h
  have hpairs := (perm_pairs fun p hp => h.canonical p (hparse.mem_iff.1 hp)).trans hparse
  rw [text_eq_append, parts_append]
  · exact (hpairs.map renderPair).append_left _
  · intro p hp
    have hmem := hpairs.mem_iff.1 hp
    exact ⟨(h.keys p hmem).2.2, (h.values p hmem).2⟩

end QueryBuilder

/-- Board 123, not archived, and a custom filter whose value contains `=`. -/
def sampleWritten : List (Str × Str) :=
  [(lit "board_id", intToString (123 : Int64).toInt), (lit "archived", lit "false"),
    (lit "q", lit "a=b")]

theorem canonical_of_find? {name s : Str} {kind : Option FilterKind}
    (h : OrdAssoc.find? name filterKinds = kind) (hs : ∀ k ∈ kind, k.Canonical s) :
    ∀ k, (name, k) ∈ filterKinds → k.Canonical s := by
  intro k hk
  exact hs k (h ▸ (OrdAssoc.find?_eq_some_iff filterNames_nodup).2 hk)

theorem sampleWritten_wellFormed : WellFormed sampleWritten := by
  refine ⟨by decide +kernel, by decide +kernel, by decide +kernel, ?_⟩
  simp only [sampleWritten, List.forall_mem_cons]
  refine ⟨?_, ?_, ?_, fun _ h => absurd h List.not_mem_nil⟩
  · exact canonical_of_find? rfl (by rintro k ⟨⟩; exact ⟨123, rfl⟩)
  · exact canonical_of_find? rfl (by rintro k ⟨⟩; exact Or.inr rfl)
  · exact canonical_of_find? rfl (by rintro k ⟨⟩)

theorem parts_filters_sample :
    (QueryBuilder.parts (QueryBuilder.text {}
      (applyFilters {} (parseFilters (lit "board_id=123,archived=false,q=a=b"))))).Perm
      [lit "limit=100", lit "board_id=123", lit "archived=false", lit "q=a=b"] := by
  have hwritten : written sampleWritten = lit "board_id=123,archived=false,q=a=b" := by
    decide +kernel
  have hparts : (lit "limit=" ++ intToString 100) :: [] ++ sampleWritten.map renderPair =
      [lit "limit=100", lit "board_id=123", lit "archived=false", lit "q=a=b"] := by
    decide +kernel
  obtain ⟨h, hpagination⟩ := QueryBuilder.parts_filters {} sampleWritten_wellFormed
  rw [hpagination rfl, hwritten] at h
  exact hparts ▸ h

end Kaiten

import Kunstkammer.Listing.Filters

/-!
# Filters that are numbers

Seven filters are integers.  Their handlers convert the text with `stoll` or `stoi` and mean to
leave the filter unset where it is no number, but both conversions skip white space and ignore
what follows the digits.

* `NumericFilter`: the seven, with their names, fields and ranges;
* `NumericFilter.value_eq_some_iff`: the field afterwards, by the text that was given;
* `NumericFilter.Kept`: the field holds the number the whole text denotes, or nothing;
* `NumericFilter.Padded`: a number with white space before it or other text behind it;
* `NumericFilter.kept_iff`: padded numbers are what is reinterpreted.
-/

namespace Kaiten

/-- The filters that are numbers. -/
inductive NumericFilter
  | boardId
  | laneId
  | columnId
  | ownerId
  | memberId
  | typeId
  | condition

namespace NumericFilter

def name : NumericFilter → Str
  | boardId => lit "board_id"
  | laneId => lit "lane_id"
  | columnId => lit "column_id"
  | ownerId => lit "owner_id"
  | memberId => lit "member_id"
  | typeId => lit "type_id"
  | condition => lit "condition"

/-- The field. -/
def value (params : CardFilterParams) : NumericFilter → Option ℤ
  | boardId => params.boardId.map Int64.toInt
  | laneId => params.laneId.map Int64.toInt
  | columnId => params.columnId.map Int64.toInt
  | ownerId => params.ownerId.map Int64.toInt
  | memberId => params.memberId.map Int64.toInt
  | typeId => params.typeId.map Int64.toInt
  | condition => params.condition.map Int32.toInt

/-- The range of the field. -/
def Fits : NumericFilter → ℤ → Prop
  | condition, n => -2 ^ 31 ≤ n ∧ n < 2 ^ 31
  | _, n => -2 ^ 63 ≤ n ∧ n < 2 ^ 63

/-- The field of `k` holds a number only where the text is one, and any other text does nothing. -/
structure Kept (k : NumericFilter) (params : CardFilterParams) (m : OrdMap Str Str) : Prop where
  number : ∀ n, k.value (applyFilters params m) = some n →
    ∃ s, m.find? k.name = some s ∧ Numeral s n ∧ k.Fits n
  other : ∀ s, m.find? k.name = some s → (∀ n, Numeral s n → ¬ k.Fits n) →
    k.value (applyFilters params m) = none ∧
      applyFilters params m = applyFilters params (m.erase k.name)

/-- A number in the range of `k`, with white space before it or other text behind it. -/
def Padded (k : NumericFilter) (s : Str) : Prop :=
  ∃ blanks t rest n, s = blanks ++ (t ++ rest) ∧ (∀ b ∈ blanks, isSpace b = true) ∧
    Numeral t n ∧ k.Fits n ∧ (∀ b ∈ rest.head?, Decimal.isDigit b = false) ∧
    (blanks ≠ [] ∨ rest ≠ [])

/-- A conversion to a type of the range `P` looks at the front of the text only. -/
theorem read_number {T : Type} {convert : Str → Option T} {toInt : T → ℤ} {P : ℤ → Prop}
    (hconvert : ∀ s i, convert s = some i ↔ ∃ rest, readInteger s = some (toInt i, rest))
    (hrange : ∀ n, P n ↔ ∃ i, toInt i = n) (s : Str) (v : QueryBuilder.Value) :
    ((convert s).map fun i => .number (toInt i)) = some v ↔
      ∃ n rest, readInteger s = some (n, rest) ∧ P n ∧ v = .number n := by
  rw [Option.map_eq_some_iff]
  constructor
  · rintro ⟨i, hi, rfl⟩
    obtain ⟨rest, hread⟩ := (hconvert s i).1 hi
    exact ⟨toInt i, rest, hread, (hrange _).2 ⟨i, rfl⟩, rfl⟩
  · rintro ⟨n, rest, hread, hn, rfl⟩
    obtain ⟨i, rfl⟩ := (hrange n).1 hn
    exact ⟨i, (hconvert s i).2 ⟨rest, hread⟩, rfl⟩

theorem int64_range (n : ℤ) : (-2 ^ 63 ≤ n ∧ n < 2 ^ 63) ↔ ∃ i : Int64, i.toInt = n := by
  constructor
  · rintro ⟨hle, hlt⟩
    exact ⟨Int64.ofInt n, Int64.toInt_ofInt_of_le hle hlt⟩
  · rintro ⟨i, rfl⟩
    exact ⟨i.le_toInt, i.toInt_lt⟩

theorem int_range (n : ℤ) : (-2 ^ 31 ≤ n ∧ n < 2 ^ 31) ↔ ∃ i : Int32, i.toInt = n := by
  constructor
  · rintro ⟨hle, hlt⟩
    exact ⟨Int32.ofInt n, Int32.toInt_ofInt_of_le hle hlt⟩
  · rintro ⟨i, rfl⟩
    exact ⟨i.le_toInt, i.toInt_lt⟩

theorem readFilter_eq_some_iff {k : NumericFilter} {s : Str} {v : QueryBuilder.Value} :
    readFilter k.name s = some v ↔
      ∃ n rest, readInteger s = some (n, rest) ∧ k.Fits n ∧ v = .number n := by
  cases k with
  | condition => exact read_number (fun _ _ => stoi_eq_some_iff) int_range s v
  | _ => exact read_number (fun _ _ => stoll_eq_some_iff) int64_range s v

theorem value_mem (k : NumericFilter) (f : CardFilterParams) :
    (k.name, (k.value f).map .number) ∈ filterEntries f := by
  cases k with
  | boardId => exact List.mem_of_getElem? (i := 0) (by rw [value, Option.map_map]; rfl)
  | laneId => exact List.mem_of_getElem? (i := 1) (by rw [value, Option.map_map]; rfl)
  | columnId => exact List.mem_of_getElem? (i := 2) (by rw [value, Option.map_map]; rfl)
  | ownerId => exact List.mem_of_getElem? (i := 3) (by rw [value, Option.map_map]; rfl)
  | memberId => exact List.mem_of_getElem? (i := 4) (by rw [value, Option.map_map]; rfl)
  | typeId => exact List.mem_of_getElem? (i := 5) (by rw [value, Option.map_map]; rfl)
  | condition => exact List.mem_of_getElem? (i := 12) (by rw [value, Option.map_map]; rfl)

theorem name_mem (k : NumericFilter) : k.name ∈ filterNames := by
  rw [← filterEntries_names {}]
  exact List.mem_map_of_mem (k.value_mem {})

/-- The field afterwards, by the text that stands under its name. -/
theorem value_applyFilters {k : NumericFilter} {params : CardFilterParams}
    (hunset : k.value params = none) (m : OrdMap Str Str) :
    (k.value (applyFilters params m)).map .number = (m.find? k.name).bind (readFilter k.name) := by
  have hmem := k.value_mem (applyFilters params m)
  rw [filterEntries_applyFilters] at hmem
  obtain ⟨⟨name, v⟩, hv, heq⟩ := List.mem_map.1 hmem
  obtain ⟨rfl, hvalue⟩ := Prod.mk.inj heq
  have hnodup : ((filterEntries params).map Prod.fst).Nodup := filterNames_nodup
  have hold := k.value_mem params
  rw [hunset, Option.map_none] at hold
  rw [← OrdAssoc.find?_eq_some_iff hnodup] at hv hold
  obtain rfl : v = none := Option.some.inj (hv.symm.trans hold)
  rw [← hvalue, Option.or_none]

theorem value_eq_some_iff {k : NumericFilter} {params : CardFilterParams}
    (hunset : k.value params = none) {m : OrdMap Str Str} {n : ℤ} :
    k.value (applyFilters params m) = some n ↔
      ∃ s rest, m.find? k.name = some s ∧ readInteger s = some (n, rest) ∧ k.Fits n := by
  have hinj : Function.Injective QueryBuilder.Value.number :=
    fun _ _ => QueryBuilder.Value.number.inj
  rw [← (Option.map_injective hinj).eq_iff, value_applyFilters hunset, Option.map_some,
    Option.bind_eq_some_iff]
  constructor
  · rintro ⟨s, hs, hread⟩
    obtain ⟨n', rest, hread, hn, heq⟩ := readFilter_eq_some_iff.1 hread
    obtain rfl := hinj heq
    exact ⟨s, rest, hs, hread, hn⟩
  · rintro ⟨s, rest, hs, hread, hn⟩
    exact ⟨s, hs, readFilter_eq_some_iff.2 ⟨n, rest, hread, hn, rfl⟩⟩

/-- An entry that changes nothing may as well be left out. -/
theorem applyFilters_erase {m : OrdMap Str Str} {name : Str}
    (h : ∀ s, m.find? name = some s → ∀ params, applyFilter params (name, s) = params)
    (params : CardFilterParams) : applyFilters params m = applyFilters params (m.erase name) := by
  unfold applyFilters OrdMap.erase
  rw [List.foldl_filter]
  apply List.foldl_ext
  rintro params ⟨key, s⟩ hmem
  by_cases hkey : key = name
  · subst hkey
    rw [h s ((OrdAssoc.find?_eq_some_iff m.sorted.nodup_keys).2 hmem)]
    simp
  · simp [hkey]

/-- Texts that are not padded are read as a whole. -/
theorem numeral_of_readInteger {k : NumericFilter} {s rest : Str} {n : ℤ} (h : ¬ k.Padded s)
    (hread : readInteger s = some (n, rest)) (hn : k.Fits n) : Numeral s n := by
  obtain ⟨blanks, t, rfl, hblanks, ht, hrest⟩ := readInteger_eq_some_iff.1 hread
  have hempty : blanks = [] ∧ rest = [] := by
    by_contra hne
    rw [not_and_or] at hne
    exact h ⟨blanks, t, rest, n, rfl, hblanks, ht, hn, hrest, hne⟩
  obtain ⟨rfl, rfl⟩ := hempty
  rwa [List.nil_append, List.append_nil]

/-- A padded number is no numeral. -/
theorem Padded.not_numeral {k : NumericFilter} {s : Str} (h : k.Padded s) :
    ∃ n rest, readInteger s = some (n, rest) ∧ k.Fits n ∧ ¬ Numeral s n := by
  obtain ⟨blanks, t, rest, n, rfl, hblanks, ht, hn, hrest, hne⟩ := h
  have hread : readInteger (blanks ++ (t ++ rest)) = some (n, rest) :=
    readInteger_eq_some_iff.2 ⟨blanks, t, rfl, hblanks, ht, hrest⟩
  refine ⟨n, rest, hread, hn, fun hnumeral => ?_⟩
  rcases hne with hne | hne
  · -- white space in front of it
    obtain ⟨b, l, rfl⟩ := List.exists_cons_of_ne_nil hne
    have hspace := hnumeral.head_not_space b rfl
    rw [hblanks b List.mem_cons_self] at hspace
    exact absurd hspace (by decide)
  · have hwhole : readInteger (blanks ++ (t ++ rest) ++ []) = some (n, []) :=
      hnumeral.readInteger (by simp)
    rw [List.append_nil, hread, Option.some.injEq, Prod.mk.injEq] at hwhole
    exact hne hwhole.2

/-- **Malformed numbers are not reinterpreted exactly when no number in range is padded.** -/
theorem kept_iff {k : NumericFilter} {params : CardFilterParams} (hunset : k.value params = none)
    (m : OrdMap Str Str) :
    k.Kept params m ↔ ∀ s, m.find? k.name = some s → ¬ k.Padded s := by
  constructor
  · intro h s hs hpadded
    obtain ⟨n, rest, hread, hn, hnot⟩ := hpadded.not_numeral
    obtain ⟨s', hs', hnumeral, -⟩ :=
      h.number n ((value_eq_some_iff hunset).2 ⟨s, rest, hs, hread, hn⟩)
    obtain rfl : s = s' := Option.some.inj (hs.symm.trans hs')
    exact hnot hnumeral
  · intro h
    refine ⟨fun n hn => ?_, fun s hs hother => ?_⟩
    · obtain ⟨s, rest, hs, hread, hfits⟩ := (value_eq_some_iff hunset).1 hn
      exact ⟨s, hs, numeral_of_readInteger (h s hs) hread hfits, hfits⟩
    · -- nothing is read from the text, so its handler does nothing
      have hunread : readFilter k.name s = none := by
        rw [Option.eq_none_iff_forall_ne_some]
        intro v hv
        obtain ⟨n, rest, hread, hfits, -⟩ := readFilter_eq_some_iff.1 hv
        exact hother n (numeral_of_readInteger (h s hs) hread hfits) hfits
      constructor
      · have hvalue := value_applyFilters hunset m
        rwa [hs, Option.bind_some, hunread, Option.map_eq_none_iff] at hvalue
      · apply applyFilters_erase
        intro s' hs' params
        obtain rfl : s = s' := Option.some.inj (hs.symm.trans hs')
        exact applyFilter_of_unread k.name_mem hunread

/-- A map with one entry. -/
def single (key value : Str) : OrdMap Str Str := OrdMap.empty.insert key value

theorem kept_iff_twelve : boardId.Kept {} (single (lit "board_id") (lit "12")) := by
  refine (kept_iff rfl _).2 fun s hs hpadded => ?_
  obtain rfl : lit "12" = s := Option.some.inj hs
  have hread : readInteger (lit "12") = some (12, []) := by decide +kernel
  obtain ⟨n, rest, hread', -, hnot⟩ := hpadded.not_numeral
  rw [hread] at hread'
  cases hread'
  have hdigits : ∀ b ∈ lit "12", Decimal.isDigit b = true := by decide +kernel
  exact hnot (.plain (by decide +kernel) hdigits)

/-- The board `12abc` is the board 12. -/
theorem reads_12abc : (applyFilters {} (single (lit "board_id") (lit "12abc"))).boardId = some 12 ∧
    ¬ boardId.Kept {} (single (lit "board_id") (lit "12abc")) := by
  have hvalue : (applyFilters {} (single (lit "board_id") (lit "12abc"))).boardId = some 12 := by
    decide +kernel
  refine ⟨hvalue, fun h => ?_⟩
  obtain ⟨s, hs, hnumeral, -⟩ := h.number 12 (by rw [value, hvalue]; rfl)
  obtain rfl : lit "12abc" = s := Option.some.inj hs
  have hwhole : readInteger (lit "12abc" ++ []) = some (12, []) := hnumeral.readInteger (by simp)
  revert hwhole
  decide +kernel

end NumericFilter

end Kaiten

import Kunstkammer.Foundation.Marks
import Kunstkammer.Listing.QueryText

/-!
# Cache keys for lists

`generate_cache_key` names a request for a list by its endpoint, page and size and by five of its
filters, each behind a mark.

* `generateCacheKey`, `ListRequest.key`: the key;
* `ListRequest.Identified`: two requests with one key have one endpoint and one query;
* `ListRequest.SameMarks`: everything the key mentions is the same;
* `ListRequest.Spells`: the endpoint of one request goes on with the marks of the other, whose
  texts spell the rest;
* `ListRequest.key_eq_iff`: there is no other way to share a key;
* `ListRequest.identified_iff`: and what the key leaves out may differ.
-/

namespace Kaiten

open QueryString Marks

/-! ### The key -/

/-- A part of the key, nothing for a filter that is not set. -/
def addMark {T : Type*} (print : T → Str) (key mark : Str) (value : Option T) : Str :=
  match value with
  | some value => key ++ mark ++ print value
  | none => key

/-- `generate_cache_key`; none where there is no page number. -/
def generateCacheKey (endpoint : Str) (pagination : PaginationParams)
    (filters : CardFilterParams) : Option Str :=
  pagination.page.map fun page =>
    let key := endpoint ++ lit "_page_" ++ intToString page ++ lit "_size_" ++
      intToString pagination.limit
    let key := addMark (fun n => intToString n.toInt) key (lit "_b") filters.boardId
    let key := addMark (fun n => intToString n.toInt) key (lit "_l") filters.laneId
    let key := addMark (fun n => intToString n.toInt) key (lit "_c") filters.columnId
    let key := addMark id key (lit "_s") filters.state
    addMark id key (lit "_t") filters.typeName

/-- A request for a list. -/
structure ListRequest where
  endpoint : Str
  pagination : PaginationParams
  filters : CardFilterParams

namespace ListRequest

def key (r : ListRequest) : Option Str := generateCacheKey r.endpoint r.pagination r.filters

def query (r : ListRequest) : Str := QueryBuilder.text r.pagination r.filters

/-- What is cached for one request may be served for the other. -/
def Identified (r r' : ListRequest) : Prop :=
  ∀ key, r.key = some key → r'.key = some key → r.endpoint = r'.endpoint ∧ r.query = r'.query

/-! ### What the key mentions -/

/-- The marks for the page and the numbers. -/
def pageMarks (r : ListRequest) (page : ℤ) : Str :=
  let key := lit "_page_" ++ intToString page ++ lit "_size_" ++ intToString r.pagination.limit
  let key := addMark (fun n => intToString n.toInt) key (lit "_b") r.filters.boardId
  let key := addMark (fun n => intToString n.toInt) key (lit "_l") r.filters.laneId
  addMark (fun n => intToString n.toInt) key (lit "_c") r.filters.columnId

/-- The marks for the texts. -/
def textMarks (r : ListRequest) : Str :=
  addMark id (addMark id [] (lit "_s") r.filters.state) (lit "_t") r.filters.typeName

/-- The requests agree in everything the key mentions. -/
structure SameMarks (r r' : ListRequest) : Prop where
  endpoint : r.endpoint = r'.endpoint
  page : ∃ page, r.pagination.page = some page ∧ r'.pagination.page = some page
  limit : r.pagination.limit = r'.pagination.limit
  board : r.filters.boardId = r'.filters.boardId
  lane : r.filters.laneId = r'.filters.laneId
  column : r.filters.columnId = r'.filters.columnId
  texts : r.textMarks = r'.textMarks

/-- The endpoint of `r'` begins with the endpoint and the marks of `r`, and the texts of `r` spell
what follows in the key of `r'`. -/
def Spells (r r' : ListRequest) : Prop :=
  ∃ page page' d, r.pagination.page = some page ∧ r'.pagination.page = some page' ∧
    r'.endpoint = r.endpoint ++ (r.pageMarks page ++ d) ∧
    r.textMarks = d ++ (r'.pageMarks page' ++ r'.textMarks)

/-- The pieces of the query: the parameters that are set, each with its value, and a new piece
wherever an `&` was typed. -/
def pieces (r : ListRequest) : List Str :=
  ((QueryBuilder.pairs (QueryBuilder.build r.pagination r.filters)).map renderPair).flatMap
    (·.splitOn 38)

/-! ### The key is a row of segments -/

theorem addMark_append {T : Type*} (print : T → Str) (key key' mark : Str) (value : Option T) :
    addMark print (key ++ key') mark value = key ++ addMark print key' mark value := by
  cases value with
  | none => rfl
  | some value => simp [addMark]

theorem key_eq (r : ListRequest) :
    r.key = r.pagination.page.map fun page => r.endpoint ++ (r.pageMarks page ++ r.textMarks) := by
  have htexts : ∀ key, addMark id (addMark id key (lit "_s") r.filters.state) (lit "_t")
      r.filters.typeName = key ++ r.textMarks := by
    intro key
    rw [textMarks, ← addMark_append, ← addMark_append, List.append_nil]
  unfold key generateCacheKey pageMarks
  congr 1
  funext page
  simp only [htexts, List.append_assoc, addMark_append]

/-- The segments behind `page`. -/
def segments (r : ListRequest) (page : ℤ) : List Str :=
  [intToString page, lit "size", intToString r.pagination.limit] ++
    ((r.filters.boardId.map fun n => 98 :: intToString n.toInt).toList ++
      ((r.filters.laneId.map fun n => 108 :: intToString n.toInt).toList ++
        (r.filters.columnId.map fun n => 99 :: intToString n.toInt).toList))

/-- The segments of the texts. -/
def textSegments (r : ListRequest) : List Str :=
  ((r.filters.state.map fun s => 115 :: s).toList ++
    (r.filters.typeName.map fun s => 116 :: s).toList).flatMap (·.splitOn 95)

theorem addMark_eq_marks {T : Type*} (print : T → Str) (key : Str) (tag : UInt8)
    (value : Option T) : addMark print key [95, tag] value =
      key ++ marks 95 (value.map fun v => tag :: print v).toList := by
  cases value with
  | none => simp [addMark, marks]
  | some v => simp [addMark, marks]

theorem pageMarks_eq (r : ListRequest) (page : ℤ) :
    r.pageMarks page = marks 95 (lit "page" :: r.segments page) := by
  have hpage : lit "_page_" = 95 :: lit "page" ++ [95] := by decide +kernel
  have hsize : lit "_size_" = 95 :: lit "size" ++ [95] := by decide +kernel
  have hb : lit "_b" = [95, 98] := by decide +kernel
  have hl : lit "_l" = [95, 108] := by decide +kernel
  have hc : lit "_c" = [95, 99] := by decide +kernel
  unfold pageMarks segments
  rw [hb, hl, hc]
  simp only [addMark_eq_marks]
  simp [marks, hpage, hsize]

theorem textMarks_eq (r : ListRequest) : r.textMarks = marks 95 r.textSegments := by
  have hs : lit "_s" = [95, 115] := by decide +kernel
  have ht : lit "_t" = [95, 116] := by decide +kernel
  rw [textSegments, marks_flatMap_splitOn, marks_append, textMarks, hs, ht, addMark_eq_marks,
    addMark_eq_marks, List.nil_append]
  rfl

theorem mem_segments {r : ListRequest} {page : ℤ} {s : Str} (h : s ∈ r.segments page) :
    (∃ n, s = intToString n) ∨ s = lit "size" ∨
      ∃ tag n, s = tag :: intToString n ∧ (tag = 98 ∨ tag = 108 ∨ tag = 99) := by
  simp only [segments, List.mem_append, List.mem_cons, List.not_mem_nil, or_false,
    Option.mem_toList, Option.map_eq_some_iff] at h
  rcases h with (rfl | rfl | rfl) | ⟨n, -, rfl⟩ | ⟨n, -, rfl⟩ | ⟨n, -, rfl⟩
  · exact Or.inl ⟨_, rfl⟩
  · exact Or.inr (Or.inl rfl)
  · exact Or.inl ⟨_, rfl⟩
  · exact Or.inr (Or.inr ⟨_, _, rfl, Or.inl rfl⟩)
  · exact Or.inr (Or.inr ⟨_, _, rfl, Or.inr (Or.inl rfl)⟩)
  · exact Or.inr (Or.inr ⟨_, _, rfl, Or.inr (Or.inr rfl)⟩)

theorem notMem_intToString (n : ℤ) : 95 ∉ intToString n := fun h =>
  absurd (mem_intToString h) (by decide)

theorem segments_plain {r : ListRequest} {page : ℤ} :
    ∀ s ∈ lit "page" :: r.segments page, 95 ∉ s := by
  intro s hs
  rcases List.mem_cons.1 hs with rfl | hs
  · decide +kernel
  · rcases mem_segments hs with ⟨n, rfl⟩ | rfl | ⟨tag, n, rfl, htag⟩
    · exact notMem_intToString n
    · decide +kernel
    · rw [List.mem_cons, not_or]
      refine ⟨?_, notMem_intToString n⟩
      rintro rfl
      revert htag
      decide

/-- `page` is a segment at the front only. -/
theorem page_notMem_segments (r : ListRequest) (page : ℤ) : lit "page" ∉ r.segments page := by
  have hpage : lit "page" = [112, 97, 103, 101] := by decide +kernel
  rw [hpage]
  intro h
  rcases mem_segments h with ⟨n, hn⟩ | hsize | ⟨tag, n, htag, hor⟩
  · have hdigit := mem_intToString (hn ▸ List.mem_cons_self)
    exact absurd hdigit (by decide)
  · exact absurd hsize (by decide +kernel)
  · obtain ⟨rfl, -⟩ := List.cons.inj htag
    exact absurd hor (by decide)

theorem textSegments_plain {r : ListRequest} : ∀ s ∈ r.textSegments, 95 ∉ s := by
  intro s hs
  obtain ⟨t, -, hs⟩ := List.mem_flatMap.1 hs
  exact notMem_of_mem_splitOn hs

theorem head_toList_append {o : Option Str} {l : List Str} {s : Str}
    (h : s ∈ (o.toList ++ l).head?) : s ∈ o ∨ s ∈ l.head? := by
  cases o with
  | none => exact Or.inr h
  | some t => exact Or.inl h

/-- The texts begin with a tag of their own. -/
theorem head_textSegments {r : ListRequest} :
    ∀ s ∈ r.textSegments.head?, s.head? = some 115 ∨ s.head? = some 116 := by
  intro s hs
  unfold textSegments at hs
  cases hstate : r.filters.state with
  | some state =>
    obtain ⟨t, segs, hsplit⟩ := splitOn_cons_of_ne (show (115 : UInt8) ≠ 95 by decide) state
    simp [hstate, hsplit] at hs
    simp [← hs]
  | none =>
    cases htype : r.filters.typeName with
    | some name =>
      obtain ⟨t, segs, hsplit⟩ := splitOn_cons_of_ne (show (116 : UInt8) ≠ 95 by decide) name
      simp [hstate, htype, hsplit] at hs
      simp [← hs]
    | none => simp [hstate, htype] at hs

theorem head_tagged {tag : UInt8} {o : Option Int64} {s : Str}
    (h : s ∈ o.map fun n => tag :: intToString n.toInt) : s.head? = some tag := by
  obtain ⟨n, -, rfl⟩ := Option.map_eq_some_iff.1 h
  rfl

theorem tagged_injective (tag : UInt8) :
    Function.Injective (Option.map fun n : Int64 => tag :: intToString n.toInt) :=
  Option.map_injective fun _ _ h =>
    Int64.toInt_inj.1 (Decimal.printInt_injective (List.cons.inj h).2)

/-- A row of segments and texts is read in one way only. -/
theorem segments_append_inj {r r' : ListRequest} {page page' : ℤ}
    (h : r.segments page ++ r.textSegments = r'.segments page' ++ r'.textSegments) :
    page = page' ∧ r.pagination.limit = r'.pagination.limit ∧
      r.filters.boardId = r'.filters.boardId ∧ r.filters.laneId = r'.filters.laneId ∧
      r.filters.columnId = r'.filters.columnId ∧ r.textSegments = r'.textSegments := by
  simp only [segments, List.cons_append, List.nil_append, List.append_assoc,
    List.cons.injEq] at h
  obtain ⟨hpage, -, hlimit, h⟩ := h
  -- what follows the column does not begin with `c`, and so on
  have hcolumn (r : ListRequest) : ∀ s ∈ r.textSegments.head?, ¬ s.head? = some 99 := by
    intro s hs
    rcases head_textSegments s hs with h | h <;> simp [h]
  have hlane (r : ListRequest) : ∀ s ∈ ((r.filters.columnId.map fun n =>
      99 :: intToString n.toInt).toList ++ r.textSegments).head?, ¬ s.head? = some 108 := by
    intro s hs
    rcases head_toList_append hs with hs | hs
    · simp [head_tagged hs]
    · rcases head_textSegments s hs with h | h <;> simp [h]
  have hboard (r : ListRequest) : ∀ s ∈ ((r.filters.laneId.map fun n =>
      108 :: intToString n.toInt).toList ++ ((r.filters.columnId.map fun n =>
        99 :: intToString n.toInt).toList ++ r.textSegments)).head?, ¬ s.head? = some 98 := by
    intro s hs
    rcases head_toList_append hs with hs | hs
    · simp [head_tagged hs]
    · rcases head_toList_append hs with hs | hs
      · simp [head_tagged hs]
      · rcases head_textSegments s hs with h | h <;> simp [h]
  obtain ⟨hb, h⟩ := toList_append_inj (fun _ => head_tagged) (fun _ => head_tagged) (hboard r)
    (hboard r') h
  obtain ⟨hl, h⟩ := toList_append_inj (fun _ => head_tagged) (fun _ => head_tagged) (hlane r)
    (hlane r') h
  obtain ⟨hc, h⟩ := toList_append_inj (fun _ => head_tagged) (fun _ => head_tagged) (hcolumn r)
    (hcolumn r') h
  exact ⟨Decimal.printInt_injective hpage, Decimal.printInt_injective hlimit,
    tagged_injective 98 hb, tagged_injective 108 hl, tagged_injective 99 hc, h⟩

theorem splitOn_key (r : ListRequest) (page : ℤ) :
    (r.endpoint ++ (r.pageMarks page ++ r.textMarks)).splitOn 95 =
      r.endpoint.splitOn 95 ++ (lit "page" :: r.segments page ++ r.textSegments) := by
  rw [pageMarks_eq, textMarks_eq, ← marks_append]
  apply splitOn_append_marks
  intro s hs
  rcases List.mem_append.1 hs with hs | hs
  · exact segments_plain s hs
  · exact textSegments_plain s hs

theorem SameMarks.of_segments {r r' : ListRequest} {page page' : ℤ}
    (hpage : r.pagination.page = some page) (hpage' : r'.pagination.page = some page')
    (hendpoint : r.endpoint.splitOn 95 = r'.endpoint.splitOn 95)
    (h : r.segments page ++ r.textSegments = r'.segments page' ++ r'.textSegments) :
    SameMarks r r' := by
  obtain ⟨rfl, hlimit, hboard, hlane, hcolumn, htexts⟩ := segments_append_inj h
  exact
    { endpoint := splitOn_injective hendpoint
      page := ⟨page, hpage, hpage'⟩
      limit := hlimit
      board := hboard
      lane := hlane
      column := hcolumn
      texts := by rw [textMarks_eq, htexts, ← textMarks_eq] }

theorem Spells.of_segments {r r' : ListRequest} {page page' : ℤ} {d : List Str}
    (hpage : r.pagination.page = some page) (hpage' : r'.pagination.page = some page')
    (hendpoint : r'.endpoint.splitOn 95 =
      r.endpoint.splitOn 95 ++ (lit "page" :: r.segments page ++ d))
    (htexts : r.textSegments = d ++ (lit "page" :: r'.segments page' ++ r'.textSegments)) :
    Spells r r' := by
  refine ⟨page, page', marks 95 d, hpage, hpage', ?_, ?_⟩
  · apply splitOn_injective
    rw [pageMarks_eq, ← marks_append, splitOn_append_marks, hendpoint]
    intro s hs
    rcases List.mem_append.1 hs with hs | hs
    · exact segments_plain s hs
    · exact textSegments_plain (r := r) s (htexts ▸ List.mem_append_left _ hs)
  · rw [textMarks_eq, htexts, pageMarks_eq, textMarks_eq, ← marks_append, ← marks_append]

theorem SameMarks.same_key {r r' : ListRequest} (h : SameMarks r r') : r.key = r'.key := by
  obtain ⟨page, hpage, hpage'⟩ := h.page
  rw [key_eq, key_eq, hpage, hpage', Option.map_some, Option.map_some]
  unfold pageMarks
  rw [h.endpoint, h.limit, h.board, h.lane, h.column, h.texts]

theorem Spells.same_key {r r' : ListRequest} (h : Spells r r') : r.key = r'.key := by
  obtain ⟨page, page', d, hpage, hpage', hendpoint, htexts⟩ := h
  rw [key_eq, key_eq, hpage, hpage', Option.map_some, Option.map_some, hendpoint, htexts]
  simp only [List.append_assoc]

/-- **Two requests share a key when they agree in everything it mentions, or when the texts of one
spell the key of the other.** -/
theorem key_eq_iff {r r' : ListRequest} {page page' : ℤ} (hpage : r.pagination.page = some page)
    (hpage' : r'.pagination.page = some page') :
    r.key = r'.key ↔ SameMarks r r' ∨ Spells r r' ∨ Spells r' r := by
  constructor
  · intro h
    rw [key_eq, key_eq, hpage, hpage', Option.map_some, Option.map_some, Option.some.injEq] at h
    have hsplit := congrArg (List.splitOn 95) h
    rw [splitOn_key, splitOn_key] at hsplit
    rcases aligned_or_apart (page_notMem_segments r page) (page_notMem_segments r' page') hsplit
      with ⟨hendpoint, hsegments⟩ | ⟨d, hendpoint, htexts⟩ | ⟨d, hendpoint, htexts⟩
    · exact Or.inl (.of_segments hpage hpage' hendpoint hsegments)
    · exact Or.inr (Or.inl (.of_segments hpage hpage' hendpoint htexts))
    · exact Or.inr (Or.inr (.of_segments hpage' hpage hendpoint htexts))
  · rintro (h | h | h)
    · exact h.same_key
    · exact h.same_key
    · exact h.same_key.symm

/-! ### The query is a row of pieces -/

theorem pieces_plain {r : ListRequest} : ∀ s ∈ r.pieces, 38 ∉ s := by
  intro s hs
  obtain ⟨t, -, hs⟩ := List.mem_flatMap.1 hs
  exact notMem_of_mem_splitOn hs

theorem query_eq_iff {r r' : ListRequest} : r.query = r'.query ↔ r.pieces = r'.pieces := by
  have hmarks : ∀ r : ListRequest,
      38 :: render (QueryBuilder.pairs (QueryBuilder.build r.pagination r.filters)) =
        marks 38 r.pieces := by
    intro r
    have hne := QueryBuilder.pairs_ne_nil (QueryBuilder.build r.pagination r.filters)
    rw [pieces, marks_flatMap_splitOn, marks_eq_intercalate (by simpa using hne)]
    rfl
  rw [← marks_inj pieces_plain pieces_plain, ← hmarks, ← hmarks, query, query,
    QueryBuilder.text_eq, QueryBuilder.text_eq]
  simp

/-- The owner shows in the query. -/
theorem ownerId_of_text {pagination : PaginationParams} {f : CardFilterParams} {o o' : Option Int64}
    (h : QueryBuilder.text pagination { f with ownerId := o } =
      QueryBuilder.text pagination { f with ownerId := o' }) : o = o' := by
  simp only [QueryBuilder.text, QueryBuilder.addFilter_eq, QueryBuilder.foldl_custom] at h
  simp only [List.append_assoc, List.append_cancel_left_eq] at h
  have howner := List.append_cancel_right h
  cases o with
  | none =>
    cases o' with
    | none => rfl
    | some n' => simp [further] at howner
  | some n =>
    cases o' with
    | none => simp [further] at howner
    | some n' =>
      simp [further, renderPair] at howner
      exact congrArg some (Int64.toInt_inj.1 (Decimal.printInt_injective howner))

/-! ### Which requests are told apart -/

theorem Spells.endpoint_ne {r r' : ListRequest} (h : Spells r r') : r.endpoint ≠ r'.endpoint := by
  obtain ⟨page, page', d, -, -, hendpoint, -⟩ := h
  intro heq
  rw [← heq, List.self_eq_append_right, List.append_eq_nil_iff, pageMarks_eq] at hendpoint
  exact absurd hendpoint.1 (List.cons_ne_nil _ _)

theorem key_eq_some {r : ListRequest} {key : Str} (h : r.key = some key) :
    ∃ page, r.pagination.page = some page := by
  rw [key_eq] at h
  obtain ⟨page, hpage, -⟩ := Option.map_eq_some_iff.1 h
  exact ⟨page, hpage⟩

/-- Requests that agree in the marks, or one of which spells the other, share a key. -/
theorem key_shared {r r' : ListRequest} (h : SameMarks r r' ∨ Spells r r' ∨ Spells r' r) :
    ∃ key, r.key = some key ∧ r'.key = some key := by
  obtain ⟨page, page', hpage, hpage'⟩ : ∃ page page', r.pagination.page = some page ∧
      r'.pagination.page = some page' := by
    rcases h with h | ⟨page, page', -, hp, hp', -⟩ | ⟨page', page, -, hp', hp, -⟩
    · obtain ⟨page, hp, hp'⟩ := h.page
      exact ⟨page, page, hp, hp'⟩
    · exact ⟨page, page', hp, hp'⟩
    · exact ⟨page, page', hp, hp'⟩
  have hkey : r.key = some (r.endpoint ++ (r.pageMarks page ++ r.textMarks)) := by
    rw [key_eq, hpage, Option.map_some]
  exact ⟨_, hkey, ((key_eq_iff hpage hpage').2 h) ▸ hkey⟩

theorem identified_iff_query (r r' : ListRequest) : Identified r r' ↔
    (SameMarks r r' → r.query = r'.query) ∧ ¬ Spells r r' ∧ ¬ Spells r' r := by
  constructor
  · intro h
    have hshared (hshare : SameMarks r r' ∨ Spells r r' ∨ Spells r' r) :
        r.endpoint = r'.endpoint ∧ r.query = r'.query := by
      obtain ⟨key, hkey, hkey'⟩ := key_shared hshare
      exact h key hkey hkey'
    refine ⟨fun hsame => (hshared (Or.inl hsame)).2, fun hspells => ?_, fun hspells => ?_⟩
    · exact hspells.endpoint_ne (hshared (Or.inr (Or.inl hspells))).1
    · exact hspells.endpoint_ne (hshared (Or.inr (Or.inr hspells))).1.symm
  · rintro ⟨hsame, hspells, hspells'⟩ key hkey hkey'
    obtain ⟨page, hpage⟩ := key_eq_some hkey
    obtain ⟨page', hpage'⟩ := key_eq_some hkey'
    rcases (key_eq_iff hpage hpage').1 (hkey.trans hkey'.symm) with h | h | h
    · exact ⟨h.endpoint, hsame h⟩
    · exact absurd h hspells
    · exact absurd h hspells'

/-- The key does not mention the owner. -/
theorem exists_other_query {r : ListRequest} {key : Str} (h : r.key = some key) :
    ∃ other : ListRequest, other.key = some key ∧ other.endpoint = r.endpoint ∧
      other.query ≠ r.query := by
  obtain ⟨o, ho⟩ : ∃ o, o ≠ r.filters.ownerId := exists_ne _
  exact ⟨⟨r.endpoint, r.pagination, { r.filters with ownerId := o }⟩, h, rfl,
    fun heq => ho (ownerId_of_text (f := r.filters) heq)⟩

/-- Where nothing the user typed touches the syntax of the queries, what the key leaves out must
be the same. -/
theorem identified_iff_build {r r' : ListRequest}
    (h : QueryBuilder.Sendable (QueryBuilder.build r.pagination r.filters))
    (h' : QueryBuilder.Sendable (QueryBuilder.build r'.pagination r'.filters)) :
    Identified r r' ↔ (SameMarks r r' → QueryBuilder.build r.pagination r.filters =
      QueryBuilder.build r'.pagination r'.filters) ∧ ¬ Spells r r' ∧ ¬ Spells r' r := by
  have hquery : r.query = r'.query ↔ QueryBuilder.build r.pagination r.filters =
      QueryBuilder.build r'.pagination r'.filters := by
    unfold query
    constructor
    · intro heq
      exact h.pairs_injective h' (by rw [← h.decoded, ← h'.decoded, heq])
    · intro heq
      rw [QueryBuilder.text_eq, heq, QueryBuilder.text_eq]
  rw [identified_iff_query, hquery]

/-- **A key identifies two requests exactly when no way to share it leads to another query**, and
every key is shared by requests with different queries. -/
theorem identified_iff (r r' : ListRequest) :
    (Identified r r' ↔ (SameMarks r r' → r.pieces = r'.pieces) ∧ ¬ Spells r r' ∧ ¬ Spells r' r) ∧
      ∀ key, r.key = some key → ∃ other : ListRequest, other.key = some key ∧
        other.endpoint = r.endpoint ∧ other.query ≠ r.query := by
  refine ⟨?_, fun key => exists_other_query⟩
  rw [identified_iff_query, query_eq_iff]

/-- All cards, those of one owner, and those from the fiftieth on. -/
def allCards : ListRequest := ⟨lit "cards", {}, {}⟩

def ownedCards : ListRequest := ⟨lit "cards", {}, { ownerId := some 7 }⟩

def laterCards : ListRequest := ⟨lit "cards", { offset := 50 }, {}⟩

/-- Three different queries, one key. -/
theorem shared_key : ¬ Identified allCards ownedCards ∧ ¬ Identified allCards laterCards := by
  have hall : allCards.key = some (lit "cards_page_1_size_100") := by decide +kernel
  have howned : ownedCards.key = some (lit "cards_page_1_size_100") := by decide +kernel
  have hlater : laterCards.key = some (lit "cards_page_1_size_100") := by decide +kernel
  constructor
  · intro h
    have hquery := (h _ hall howned).2
    revert hquery
    decide +kernel
  · intro h
    have hquery := (h _ hall hlater).2
    revert hquery
    decide +kernel

end ListRequest

end Kaiten

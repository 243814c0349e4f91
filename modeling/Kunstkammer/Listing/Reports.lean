import Kunstkammer.Foundation.Tally
import Kunstkammer.Cards.Codec
import Kunstkammer.Listing.Filters
import Kunstkammer.Listing.Moving

/-!
# The reports of the listings

What `handle_cards_list`, `handle_cards_list_simple` and `handle_cards_filter` print once they have
fetched the cards.  They count the cards by type, state and board; the first of them does so page by
page while it fetches.  `handle_users_list` and `handle_boards_list` print every page they get.

* `Statistics`, `Statistics.lines`: the three counters, and how they are printed; no counter exceeds
  the number of cards, so that it stays within `int` when that does;
* `cardsListReport`, `cardsListSimpleReport`, `cardsFilterReport`, `usersListReport` and
  `boardsListReport`: the commands;
* `cardsListReport_eq`: counting page by page counts the cards that are listed;
* `reports_agree`: from a server that answers, the listings of cards show the same cards and print
  the same counts, which leave out no card;
* `users_and_boards_printed`: what the other two print.
-/

namespace Kaiten

open Paging OrdMap

/-! ### The statistics -/

/-- `name.empty() ? "Unknown" : name`. -/
def orUnknown (name : Str) : Str := if name = [] then lit "Unknown" else name

/-- The key a card is counted under in `type_stats`. -/
def Card.typeKey (card : Card) : Str := orUnknown card.type

/-- The key a card is counted under in `state_stats`. -/
def Card.stateKey (card : Card) : Str := orUnknown card.state

/-- The key a card is counted under in `board_stats`. -/
def Card.boardKey (card : Card) : Str := orUnknown card.board.title

/-- The counters of a listing. -/
structure Statistics where
  typeStats : OrdMap Str ℕ := .empty
  stateStats : OrdMap Str ℕ := .empty
  boardStats : OrdMap Str ℕ := .empty
  deriving DecidableEq

namespace Statistics

/-- Count one card. -/
def add (stats : Statistics) (card : Card) : Statistics where
  typeStats := stats.typeStats.increment card.typeKey
  stateStats := stats.stateStats.increment card.stateKey
  boardStats := stats.boardStats.increment card.boardKey

/-- Count the cards of a page. -/
def addAll (stats : Statistics) (cards : List Card) : Statistics := cards.foldl add stats

/-- The lines of one counter. -/
def countLines (stats : OrdMap Str ℕ) : List Str :=
  stats.items.map fun p => lit "  " ++ p.1 ++ lit ": " ++ intToString p.2

/-- The lines of the counters. -/
def lines (stats : Statistics) : List Str :=
  lit "By type:" :: countLines stats.typeStats ++
    lit "By state:" :: countLines stats.stateStats ++
      lit "By board:" :: countLines stats.boardStats

end Statistics

namespace Modes

open CardOperations

/-- What a command prints of the items it has fetched, line by line, and its exit code. -/
structure Report where
  head : List Str := []
  items : List Str := []
  summary : List Str := []
  exitCode : ℤ
  deriving DecidableEq

/-- The line of a card in the listings of all cards. -/
def cardLine (card : Card) : Str :=
  lit "#" ++ card.number ++ lit " [" ++ intToString card.id.toInt ++ lit "] " ++ card.title ++
    lit " (" ++ card.type ++ lit ", size=" ++ intToString card.size.toInt ++ lit ", state=" ++
    card.state ++ lit ", board=" ++ card.board.title ++ lit ", updated: " ++
    card.updated.toIso8601 ++ lit ")"

/-- The line of a card in `print_cards_list`. -/
def filteredCardLine (card : Card) : Str :=
  lit "#" ++ card.number ++ lit " [" ++ intToString card.id.toInt ++ lit "] " ++ card.title ++
    lit " (" ++ card.type ++ lit ", size=" ++ intToString card.size.toInt ++ lit ", state=" ++
    card.state ++ lit ", owner=" ++ card.owner.fullName ++ lit ")"

/-- `print_cards_statistics`. -/
def printCardsStatistics (cards : List Card) : List Str :=
  if cards.isEmpty then []
  else [[], lit "=== Statistics ==="] ++ (Statistics.addAll {} cards).lines

section Model

variable {Text : Type} (json : Nlohmann Text) (client : Query CardFilterParams → ℤ × Text)

/-- The counters of `handle_cards_list` after some of its steps: every page is counted when it is
handled. -/
def countPages (stats : Statistics) (actions : List (Action CardFilterParams Card)) : Statistics :=
  actions.foldl (fun stats action => stats.addAll action.items) stats

/-- The report of `handle_cards_list`. -/
def cardsListReport (fuel : ℕ) : Option Report :=
  let run := handleCardsList json Card.fromJson client fuel
  match run.2 with
  | .returned _ allCards =>
      if allCards.isEmpty then some { exitCode := 1 }
      else
        some {
          head := [[], lit "=== All Cards Results ===",
            lit "Total cards fetched: " ++ intToString allCards.length]
          items := allCards.map cardLine
          summary := [[], lit "=== Statistics ==="] ++ (countPages {} run.1).lines
          exitCode := 0 }
  | .overflow => none
  | .running => none

/-- The report of `handle_cards_list_simple`. -/
def cardsListSimpleReport (hardwareConcurrency fuel : ℕ) : Option Report :=
  match (getAllCards json Card.fromJson client hardwareConcurrency {} 100 fuel).outcome with
  | .returned status allCards =>
      if status ≠ 200 then some { exitCode := 1 }
      else
        some {
          head := [[], lit "=== All Cards Results ===",
            lit "Total cards fetched: " ++ intToString allCards.length]
          items := allCards.map cardLine
          summary := [[], lit "=== Final Statistics ==="] ++
            (Statistics.addAll {} allCards).lines
          exitCode := if allCards.isEmpty then 1 else 0 }
  | .overflow => none
  | .running => none

/-- The report of `handle_cards_filter`. -/
def cardsFilterReport (filters : OrdMap Str Str) (hardwareConcurrency fuel : ℕ) : Option Report :=
  match (getAllCards json Card.fromJson client hardwareConcurrency (applyFilters {} filters) 100
    fuel).outcome with
  | .returned status cards =>
      if status ≠ 200 then some { exitCode := 1 }
      else
        some {
          head := [[], lit "=== Filtered Cards Results ===",
            lit "Total cards found: " ++ intToString cards.length]
          items := cards.map filteredCardLine
          summary := printCardsStatistics cards
          exitCode := 0 }
  | .overflow => none
  | .running => none

/-- The line of a user. -/
def userLine (user : User) : Str :=
  lit "[" ++ intToString user.id.toInt ++ lit "] " ++ user.fullName ++ lit " (" ++ user.email ++
    lit ")" ++ lit " - " ++ user.username ++
    (if user.activated then lit " [ACTIVE]" else lit " [INACTIVE]") ++
    if user.virtualUser then lit " [VIRTUAL]" else []

/-- The line of a board. -/
def boardLine (board : Board) : Str :=
  lit "[" ++ intToString board.id.toInt ++ lit "] " ++ board.title ++
    match board.externalId with
    | some externalId => lit " (ext: " ++ externalId ++ lit ")"
    | none => []

/-- `total_items` after the steps of a pass. -/
def totalItems {F α : Type} (actions : List (Action F α)) : ℤ :=
  actions.foldl (fun total action => addItems total action.items.length) 0

/-- What a pass prints of its items, and at its end. -/
def passReport {F α : Type} (line : α → Str) (run : List (Action F α) × Option ℤ) :
    Option Report :=
  run.2.map fun exitCode =>
    { items := run.1.flatMap fun action => action.items.map line
      summary := [lit "Completed: " ++ intToString (totalItems run.1) ++ lit " total items"]
      exitCode := exitCode }

/-- The report of `handle_users_list`. -/
def usersListReport (client : Query UserFilterParams → ℤ × Text) : Option Report :=
  passReport userLine (handleUsersList json (fun v => some (User.fromJson v)) client)

/-- The report of `handle_boards_list`. -/
def boardsListReport : Option Report :=
  passReport boardLine (handleBoardsList json Board.fromJson client)

end Model

end Modes

/-! ### What is counted -/

/-- `stats` counts the cards of `l` by `f`: under every key as many as have it, and all of them. -/
structure Counts (f : Card → Str) (stats : OrdMap Str ℕ) (l : List Card) : Prop where
  count : ∀ p ∈ stats.items, p.2 = l.countP (f · = p.1)
  mem : ∀ card ∈ l, f card ∈ stats.items.map Prod.fst
  sum : (stats.items.map Prod.snd).sum = l.length

theorem counts_tally (f : Card → Str) (l : List Card) : Counts f (tally f l) l where
  count p hp := by
    have hfind := find?_eq_some_iff.2 hp
    rw [find?_tally] at hfind
    split_ifs at hfind
    exact (Option.some.inj hfind).symm.trans (List.countP_congr fun a _ => by simp)
  mem card hcard := by
    have hfind := find?_tally f l (f card)
    rw [if_pos (List.mem_map_of_mem hcard)] at hfind
    exact List.mem_map_of_mem (find?_eq_some_iff.1 hfind)
  sum := sum_tally f l

namespace Statistics

theorem addAll_append (stats : Statistics) (cards cards' : List Card) :
    stats.addAll (cards ++ cards') = (stats.addAll cards).addAll cards' := List.foldl_append

/-- Each counter is a tally of its own. -/
theorem addAll_eq (stats : Statistics) (cards : List Card) :
    stats.addAll cards = ⟨tallyFrom Card.typeKey stats.typeStats cards,
      tallyFrom Card.stateKey stats.stateStats cards,
      tallyFrom Card.boardKey stats.boardStats cards⟩ := by
  induction cards generalizing stats with
  | nil => rfl
  | cons card cards ih => exact ih (stats.add card)

/-- The order of the cards does not count. -/
theorem addAll_perm {cards cards' : List Card} (h : cards.Perm cards') :
    addAll {} cards = addAll {} cards' := by
  have htally : ∀ f : Card → Str, tallyFrom f empty cards = tallyFrom f empty cards' := fun f =>
    tally_perm f h
  rw [addAll_eq, addAll_eq]
  simp only [htally]

end Statistics

namespace Modes

open CardOperations

theorem countPages_eq (stats : Statistics) (actions : List (Action CardFilterParams Card)) :
    countPages stats actions = stats.addAll (actions.flatMap Action.items) := by
  induction actions generalizing stats with
  | nil => rfl
  | cons action actions ih =>
    rw [List.flatMap_cons, Statistics.addAll_append]
    exact ih _

section Pass

variable {Text α : Type} {json : Nlohmann Text} {fromJson : Json → Option α}
  {client : Query CardFilterParams → ℤ × Text}

/-- The cards a run returns are the ones of the pages it handled. -/
theorem items_cardsListPass {params : PaginationParams} {fuel : ℕ} {offset : ℤ} {cards : List α}
    {status : ℤ} {all : List α}
    (h : (cardsListPass json fromJson client params fuel offset cards).2 = .returned status all) :
    all = cards ++ (cardsListPass json fromJson client params fuel offset cards).1.flatMap
      Action.items := by
  induction fuel generalizing offset cards with
  | zero => cases h
  | succ fuel ih =>
    rw [cardsListPass] at h ⊢
    dsimp only at h ⊢
    split_ifs at h ⊢ with hempty hmore
    · cases h
      simp [Action.items]
    · cases hnext : addInt offset params.limit with
      | none =>
        rw [hnext] at h
        cases h
      | some next =>
        rw [hnext] at h
        rw [ih h]
        simp [Action.items]
    · cases hnext : addInt offset params.limit with
      | none =>
        rw [hnext] at h
        cases h
      | some next =>
        rw [hnext] at h
        cases h
        simp [Action.items]

end Pass

variable {Text : Type} {json : Nlohmann Text} {client : Query CardFilterParams → ℤ × Text}

/-- **Counting page by page counts the cards that are listed.** -/
theorem cardsListReport_eq {fuel : ℕ} {status : ℤ} {cards : List Card}
    (h : (handleCardsList json Card.fromJson client fuel).2 = .returned status cards) :
    cardsListReport json client fuel =
      if cards.isEmpty then some { exitCode := 1 }
      else
        some {
          head := [[], lit "=== All Cards Results ===",
            lit "Total cards fetched: " ++ intToString cards.length]
          items := cards.map cardLine
          summary := printCardsStatistics cards
          exitCode := 0 } := by
  have hitems : cards =
      (handleCardsList json Card.fromJson client fuel).1.flatMap Action.items :=
    items_cardsListPass h
  unfold cardsListReport printCardsStatistics
  dsimp only
  rw [h, countPages_eq, ← hitems]
  dsimp only
  split_ifs <;> rfl

/-! ### The listings of cards -/

/-- The server answers every request without filters from its cards: those without an order from
`S`, and those for the cards last updated from `T`, which are the same cards. -/
structure Answers (json : Nlohmann Text) (client : Query CardFilterParams → ℤ × Text)
    (S T : List Card) : Prop where
  plain : ∀ q, q.filters = {} → q.sort = none →
    decodeItems json Card.fromJson (client q) = some (q.slice S)
  sorted : ∀ q, q.filters = {} → q.sort = some (lit "updated") → q.order = some (lit "desc") →
    decodeItems json Card.fromJson (client q) = some (q.slice T)
  perm : T.Perm S

/-- A run of batches looks ahead two batches at most. -/
theorem pagesUntil_le {threads : ℕ} (hpos : 0 < threads) (m : ℕ) (short : Bool) :
    pagesUntil threads m short ≤ m + 2 * threads := by
  unfold pagesUntil batches
  split_ifs with hm
  · omega
  · have hfloor := Nat.mul_div_le (m - 1) threads
    rw [Nat.mul_add, Nat.mul_add]
    omega
  · have hfloor := Nat.mul_div_le (m - 1) threads
    rw [Nat.mul_add, Nat.mul_add]
    omega

variable {S T : List Card}

/-- The cards of the sorted listing. -/
theorem Answers.handleCardsList (h : Answers json client S T) {fuel : ℕ} (hfuel : S.length < fuel)
    (hfit : S.length + 50 ≤ intMax) :
    (Modes.handleCardsList json Card.fromJson client fuel).2 = .returned 200 T := by
  have hlen := h.perm.length_eq
  have hpage : ∀ k, decodeItems json Card.fromJson (client (pageRequest cardsListParams 50 k)) =
      some (page 50 T k) := by
    intro k
    have hby : lit "updated" ≠ [] := by decide +kernel
    have hdir : lit "desc" ≠ [] := by decide +kernel
    have hsort : (pageRequest cardsListParams 50 k).sort = some (lit "updated") := by
      simp [pageRequest, QueryBuilder.build, cardsListParams, hby]
    have horder : (pageRequest cardsListParams 50 k).order = some (lit "desc") := by
      simp [pageRequest, QueryBuilder.build, cardsListParams, hby, hdir]
    rw [h.sorted _ rfl hsort horder, Query.slice_eq_page (L := 50) (k := k) rfl rfl]
  have hend := page_endsAt (L := 50) (by decide) T
  have hloop := cardsListLoop_pages (L := 50) (k := 0) (d := T.length / 50) rfl (by decide)
    (by decide) hpage (show T.length / 50 < fuel by omega)
    (fun i hi => by rw [Nat.zero_add]; exact hend.full i hi)
    (by rw [Nat.zero_add]; exact hend.last) (by omega) []
  rw [Nat.zero_mul, Nat.cast_zero, cardsListLoop_eq, List.nil_append,
    concat_page_all (by decide)] at hloop
  exact congrArg Listing.outcome hloop

/-- The cards of the batched listing. -/
theorem Answers.getAllCards (h : Answers json client S T) (hardwareConcurrency : ℕ) {fuel : ℕ}
    (hfuel : S.length < fuel) (hfit : S.length + 1200 ≤ intMax) :
    (CardOperations.getAllCards json Card.fromJson client hardwareConcurrency {} 100 fuel).outcome =
      .returned 200 S := by
  have hseen : pagesSeen json Card.fromJson client 100 {} = page 100 S := by
    funext k
    rw [pagesSeen, ite_self, h.plain (pageQuery 100 {} k) rfl rfl, Option.getD_some,
      pageQuery_slice]
  have hend := page_endsAt (L := 100) (by decide) S
  have hL : 100 = pageLimit 100 := rfl
  unfold CardOperations.getAllCards
  by_cases hfull : (page 100 S 0).length = 100
  · have hle := pagesUntil_le (maxThreads_pos hardwareConcurrency) (S.length / 100)
      (page 100 S (S.length / 100) ≠ [])
    have hthreads := maxThreads_le hardwareConcurrency
    generalize hr : getAllCardsBatched json Card.fromJson client hardwareConcurrency {} 100 fuel = r
    obtain ⟨hreturned, -⟩ := getAllCardsBatched_spec (by decide) hL (by rw [hseen]; exact hend)
      (by rw [hseen]; exact hfull) (show S.length / 100 < fuel by omega) hr.symm rfl
    rw [hseen, concat_page_all (by decide)] at hreturned
    exact congrArg Listing.outcome (hreturned (by omega))
  · have hshort : (page 100 S 0).length < 100 := by
      rw [length_page] at hfull ⊢
      omega
    rw [getAllCardsBatched_short (by decide) hL (by rwa [hseen]), hseen]
    have hall : page 100 S 0 = S := by
      rw [length_page] at hshort
      rw [page, Nat.zero_mul, List.drop_zero, List.take_of_length_le (by omega)]
    rw [hall]

/-- **The three commands agree.**  From a server that answers, they list the same cards and print
the same counts, and these leave out no card.  Without any cards the listings of all cards fail,
while a filter that finds nothing does not. -/
theorem reports_agree (h : Answers json client S T) (hardwareConcurrency : ℕ) {fuel : ℕ}
    (hfuel : S.length < fuel) (hfit : S.length + 1200 ≤ intMax) :
    ∃ sorted simple filtered,
      cardsListReport json client fuel = some sorted ∧
      cardsListSimpleReport json client hardwareConcurrency fuel = some simple ∧
      cardsFilterReport json client .empty hardwareConcurrency fuel = some filtered ∧
      sorted.items.Perm simple.items ∧ simple.items = S.map cardLine ∧
      filtered.items = S.map filteredCardLine ∧
      sorted.exitCode = (if S = [] then 1 else 0) ∧ simple.exitCode = sorted.exitCode ∧
      filtered.exitCode = 0 ∧
      ∃ stats : Statistics, (S ≠ [] →
          sorted.head = simple.head ∧
          sorted.summary = [[], lit "=== Statistics ==="] ++ stats.lines ∧
          filtered.summary = sorted.summary) ∧
        simple.summary = [[], lit "=== Final Statistics ==="] ++ stats.lines ∧
        Counts Card.typeKey stats.typeStats S ∧ Counts Card.stateKey stats.stateStats S ∧
        Counts Card.boardKey stats.boardStats S := by
  have hsorted := cardsListReport_eq (h.handleCardsList hfuel (by omega))
  have hall := h.getAllCards hardwareConcurrency hfuel hfit
  have hcounts : Counts Card.typeKey (Statistics.addAll {} S).typeStats S ∧
      Counts Card.stateKey (Statistics.addAll {} S).stateStats S ∧
      Counts Card.boardKey (Statistics.addAll {} S).boardStats S := by
    rw [Statistics.addAll_eq]
    exact ⟨counts_tally _ S, counts_tally _ S, counts_tally _ S⟩
  have hsimple : cardsListSimpleReport json client hardwareConcurrency fuel = some {
      head := [[], lit "=== All Cards Results ===",
        lit "Total cards fetched: " ++ intToString S.length]
      items := S.map cardLine
      summary := [[], lit "=== Final Statistics ==="] ++ (Statistics.addAll {} S).lines
      exitCode := if S.isEmpty then 1 else 0 } := by
    unfold cardsListSimpleReport
    rw [hall]
    rfl
  have hfiltered : cardsFilterReport json client .empty hardwareConcurrency fuel = some {
      head := [[], lit "=== Filtered Cards Results ===",
        lit "Total cards found: " ++ intToString S.length]
      items := S.map filteredCardLine
      summary := printCardsStatistics S
      exitCode := 0 } := by
    have hnone : applyFilters {} .empty = {} := rfl
    unfold cardsFilterReport
    rw [hnone, hall]
    rfl
  have hempty : T = [] ↔ S = [] := by rw [← List.length_eq_zero_iff, h.perm.length_eq,
    List.length_eq_zero_iff]
  by_cases hnil : S = []
  · rw [hempty.2 hnil] at hsorted
    refine ⟨_, _, _, hsorted, hsimple, hfiltered, ?_, rfl, rfl, ?_, ?_, rfl, _,
      fun hne => absurd hnil hne, rfl, hcounts⟩
    · simp [hnil]
    · simp [hnil]
    · simp [hnil]
  · have hT : T.isEmpty = false := List.isEmpty_eq_false_iff.2 (mt hempty.1 hnil)
    rw [hT] at hsorted
    refine ⟨_, _, _, hsorted, hsimple, hfiltered, h.perm.map _, rfl, rfl, ?_, ?_, rfl, _,
      fun _ => ⟨?_, ?_, ?_⟩, rfl, hcounts⟩
    · simp [hnil]
    · simp [hnil]
    · simp [h.perm.length_eq]
    · simp [printCardsStatistics, hT, Statistics.addAll_perm h.perm]
    · simp [printCardsStatistics, hT, hnil, Statistics.addAll_perm h.perm]

/-- A server that sends its cards as they are written, the newest first when they are sorted. -/
def writingClient (S : List Card) (q : Query CardFilterParams) : ℤ × Option Json :=
  pageResponse Card.toJson (q.slice (if q.sort = none then S else S.reverse))

/-- A server of cards that are read back as they are written. -/
theorem answers_writingClient {S : List Card} (hS : ∀ c ∈ S, Card.fromJson c.toJson = some c) :
    Answers .symbolic (writingClient S) S S.reverse := by
  refine ⟨fun q _ hsort => ?_, fun q _ hsort _ => ?_, S.reverse_perm⟩
  · rw [writingClient, if_pos hsort]
    exact decodeItems_written fun c hc => hS c (mem_of_mem_slice hc)
  · rw [writingClient, if_neg (by rw [hsort]; exact Option.some_ne_none _)]
    exact decodeItems_written fun c hc => hS c (List.mem_reverse.1 (mem_of_mem_slice hc))

/-- A task and a card without a type. -/
def reportedCards : List Card :=
  [{ id := 1, title := lit "Read", type := lit "Task", size := 3 }, { id := 2, title := lit "Go" }]

theorem reports_agree_two : ∃ sorted simple filtered,
    cardsListReport .symbolic (writingClient reportedCards) 3 = some sorted ∧
    cardsListSimpleReport .symbolic (writingClient reportedCards) 4 3 = some simple ∧
    cardsFilterReport .symbolic (writingClient reportedCards) .empty 4 3 = some filtered ∧
    simple.items = reportedCards.map cardLine ∧ sorted.exitCode = 0 := by
  have hread : ∀ c ∈ reportedCards, Card.fromJson c.toJson = some c := by
    intro c hc
    rw [Card.fromJson_toJson]
    rcases List.mem_cons.1 hc with rfl | hc
    · rfl
    · obtain rfl := List.mem_singleton.1 hc
      rfl
  obtain ⟨sorted, simple, filtered, hsorted, hsimple, hfiltered, -, hcards, -, hexit, -⟩ :=
    reports_agree (answers_writingClient hread) 4 (by decide : reportedCards.length < 3) (by decide)
  exact ⟨sorted, simple, filtered, hsorted, hsimple, hfiltered, hcards, hexit⟩

/-! ### The listings of users and boards -/

section Passes

variable {F α : Type}

theorem addItems_of_lt {total : ℤ} {n : ℕ} (h : 0 ≤ total) (hlt : total + n ≤ intMax) :
    addItems total n = total + n := by
  unfold intMax at hlt
  rw [addItems, Int.bmod_def]
  split_ifs <;> omega

/-- The total is the number of items handled, as long as that is an `int`. -/
theorem foldl_addItems {actions : List (Action F α)} {total : ℤ} (h : 0 ≤ total)
    (hlt : total + (actions.flatMap Action.items).length ≤ intMax) :
    actions.foldl (fun total action => addItems total action.items.length) total =
      total + (actions.flatMap Action.items).length := by
  induction actions generalizing total with
  | nil => simp
  | cons action actions ih =>
    rw [List.flatMap_cons, List.length_append] at hlt ⊢
    push_cast at hlt ⊢
    rw [List.foldl_cons, addItems_of_lt h (by omega), ih (by omega) (by omega)]
    ring

/-- A pass that comes to its end tells whether it handled any items. -/
theorem result_of_handled (fetcher : Fetcher F α) {n : ℕ} {params : PaginationParams} {total : ℤ}
    (h : 0 ≤ total) {items : List α}
    (hdelivers : (paginateLoop fetcher n params total).Delivers items)
    (hlt : total + items.length ≤ intMax) :
    (paginateLoop fetcher n params total).result = some (decide (0 < total + items.length)) := by
  induction n generalizing params total items with
  | zero =>
    obtain rfl : [] = items := hdelivers.2
    simp [paginateLoop]
  | succ n ih =>
    rw [paginateLoop] at hdelivers ⊢
    dsimp only at hdelivers ⊢
    split_ifs at hdelivers ⊢ with hempty hmore
    · obtain rfl : [] = items := hdelivers.2
      simp
    · cases hnext : addInt params.offset params.limit with
      | none =>
        rw [hnext] at hdelivers
        exact absurd hdelivers.1 (by simp)
      | some next =>
        rw [hnext] at hdelivers
        obtain ⟨rest, rfl, hrest⟩ := Pass.delivers_prepend.1 hdelivers
        simp only [List.flatMap_cons, List.flatMap_nil, Action.items, List.nil_append,
          List.append_nil, List.length_append] at hlt ⊢
        push_cast at hlt ⊢
        have htotal := addItems_of_lt (n := (fetcher params).2.items.length) h (by omega)
        rw [htotal] at hrest
        have hresult := ih (by omega) hrest (by omega)
        rw [htotal, ← add_assoc]
        exact hresult
    · obtain rfl : (fetcher params).2.items ++ [] = items := hdelivers.2
      rw [List.append_nil] at hlt ⊢
      rw [addItems_of_lt h hlt]

/-- A pass over the slices of `S` prints its first 50000 items. -/
theorem passReport_of_slicing {S : List α} {fetcher : Fetcher F α} (hslice : Slicing S fetcher)
    (line : α → Str) :
    let pass := paginateWithOffsetLimit fetcher listParams 1000
    passReport line (pass.actions, pass.result.map fun found => if found then 0 else 1) =
      some {
        items := (S.take 50000).map line
        summary := [lit "Completed: " ++ intToString (min S.length 50000) ++ lit " total items"]
        exitCode := if S = [] then 1 else 0 } := by
  intro pass
  have hlimit : listParams.limit = (50 : ℕ) := rfl
  have hoffset : listParams.offset = (0 : ℕ) := rfl
  have hdelivers : pass.Delivers (S.take 50000) := by
    have hdue := delivers_iff_of_le hslice hoffset hlimit (by decide) (by decide) (by decide) 1000 0
    rw [List.drop_zero] at hdue
    exact hdue.2 (by unfold intMax; omega)
  have hlength : (S.take 50000).length = min S.length 50000 := by
    rw [List.length_take, min_comm]
  have hresult : pass.result = some (decide (0 < (0 : ℤ) + (S.take 50000).length)) :=
    result_of_handled fetcher le_rfl hdelivers (by unfold intMax; omega)
  have htotal : totalItems pass.actions = (min S.length 50000 : ℕ) := by
    have hall : pass.actions.flatMap Action.items = S.take 50000 := hdelivers.2
    unfold totalItems
    rw [foldl_addItems le_rfl (by rw [hall]; unfold intMax; omega), hall, hlength, zero_add]
  have hitems : (pass.actions.flatMap fun action => action.items.map line) =
      (S.take 50000).map line := by
    rw [← hdelivers.2, Pass.handled, List.map_flatMap]
  have hcode : (if decide (0 < (0 : ℤ) + (S.take 50000).length) then (0 : ℤ) else 1) =
      if S = [] then 1 else 0 := by
    by_cases hnil : S = []
    · simp [hnil]
    · have hpos : 0 < S.length := List.length_pos_iff.2 hnil
      simp [hnil]
  unfold passReport
  rw [hresult, Option.map_some, Option.map_some, htotal, hitems, hcode]
  push_cast
  rfl

end Passes

/-- **The listings of users and boards** print each of the first 50000 once, in their order, and
the number of them; they fail exactly when there is nothing to print. -/
theorem users_and_boards_printed {users : List User} {boards : List Board}
    {userClient : Query UserFilterParams → ℤ × Text}
    (husers : ∀ q, q.filters = {} →
      decodeItems json (fun v => some (User.fromJson v)) (userClient q) = some (q.slice users))
    (hboards : ∀ q, q.filters = {} →
      decodeItems json Board.fromJson (client q) = some (q.slice boards)) :
    usersListReport json userClient = some {
        items := (users.take 50000).map userLine
        summary := [lit "Completed: " ++ intToString (min users.length 50000) ++
          lit " total items"]
        exitCode := if users = [] then 1 else 0 } ∧
      boardsListReport json client = some {
        items := (boards.take 50000).map boardLine
        summary := [lit "Completed: " ++ intToString (min boards.length 50000) ++
          lit " total items"]
        exitCode := if boards = [] then 1 else 0 } :=
  ⟨passReport_of_slicing (slicing_userFetcher husers) userLine,
    passReport_of_slicing (slicing_boardFetcher hboards) boardLine⟩

/-- Two users and a board, on servers that send what is read of them. -/
def printedUsers : List User := [{ id := 7, email := lit "a@b" }, { id := 9 }]

def printedBoards : List Board := [{ id := 3, title := lit "Main" }]

theorem users_and_boards_printed_three :
    usersListReport .symbolic (fun q => pageResponse
        (fun u : User => .object [(lit "id", .integer u.id.toInt), (lit "email", .string u.email)])
        (q.slice printedUsers)) = some {
        items := (printedUsers.take 50000).map userLine
        summary := [lit "Completed: " ++ intToString (min printedUsers.length 50000) ++
          lit " total items"]
        exitCode := 0 } ∧
      boardsListReport .symbolic (fun q => pageResponse
        (fun b : Board => .object [(lit "id", .integer b.id.toInt), (lit "title", .string b.title)])
        (q.slice printedBoards)) = some {
        items := (printedBoards.take 50000).map boardLine
        summary := [lit "Completed: " ++ intToString (min printedBoards.length 50000) ++
          lit " total items"]
        exitCode := 0 } := by
  refine users_and_boards_printed (fun q _ => decodeItems_written fun u hu => ?_)
    fun q _ => decodeItems_written fun b hb => ?_
  · rcases List.mem_cons.1 (mem_of_mem_slice hu) with rfl | hu
    · rfl
    · obtain rfl := List.mem_singleton.1 hu
      rfl
  · obtain rfl := List.mem_singleton.1 (mem_of_mem_slice hb)
    rfl

end Modes

end Kaiten

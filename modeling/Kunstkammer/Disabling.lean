import Kunstkammer.Cards.Caches
import Kunstkammer.Foundation.Transition
import Kunstkammer.Users

/-!
# Disabling the caches

The caches of the process, `--no-cache`, and the calls that look into them.

* `ApiCache`, `ApiCache.noCache`: the five caches, and what `main` does to them;
* `Session`, `lookupMachine`: calls of `get_card` and `get_user` in any order, against a server that
  may have changed before every one of them;
* `Session.Asks`: the call sends its request and returns the answer;
* `asks_iff_missesNumbers`: the runs in which every call does.
-/

namespace Kaiten

/-! ### The caches of the process -/

/-- `Api_cache`. -/
structure ApiCache where
  cardCache : Cache Int64 Card := { defaultTtl := cardTtl }
  cardNumberCache : Cache Str Card := { defaultTtl := cardTtl }
  userCache : Cache Int64 User := { defaultTtl := userTtl }
  boardCache : Cache Int64 Board := { defaultTtl := 1800 }
  listCache : Cache Str Json := { defaultTtl := 60 }

/-- `--no-cache`. -/
def ApiCache.noCache (c : ApiCache) : ApiCache :=
  { c with
    cardCache := c.cardCache.setEnabled false
    userCache := c.userCache.setEnabled false
    listCache := c.listCache.setEnabled false
    boardCache := c.boardCache.setEnabled false }

/-- The process between two calls. -/
structure Session (σ Text : Type) where
  server : σ
  log : List (Exchange Text) := []
  caches : ApiCache := {}
  readings : ℕ → Reading
  reads : ℕ := 0
  userReadings : ℕ → Moment Int64
  userReads : ℕ := 0

/-- The server with a log of its answers beside its state. -/
def Server.logged {σ Text : Type} (server : Server σ Text) :
    Server (σ × List (Exchange Text)) Text where
  answer s r :=
    let (response, state) := server.answer s.1 r
    (response, state, s.2 ++ [.request r response])
  users s :=
    let (answers, state) := server.users s.1
    (answers, state, s.2)

/-! ### Calls -/

/-- A call of `get_card` or of `get_user`. -/
inductive Lookup
  | card (idOrNumber : Str)
  | user (spaceId userId : Int64)

/-- What they return. -/
inductive Found
  | card (answer : ℤ × Card)
  | user (answer : ℤ × User)

/-- A call, and the state the server is in when the call is made. -/
structure LookupEvent (σ : Type) where
  state : σ
  call : Lookup

namespace Session

variable {σ Text : Type}

/-- `--no-cache`. -/
def noCache (s : Session σ Text) : Session σ Text := { s with caches := s.caches.noCache }

/-- What `get_card` sees of the process. -/
def cardWorld (s : Session σ Text) : World σ Text where
  server := s.server
  log := s.log
  cards := s.caches.cardCache
  cardNumbers := s.caches.cardNumberCache
  readings := s.readings
  reads := s.reads

/-- What it leaves. -/
def withCards (s : Session σ Text) (w : World σ Text) : Session σ Text :=
  { s with
    server := w.server
    log := w.log
    caches := { s.caches with cardCache := w.cards, cardNumberCache := w.cardNumbers }
    readings := w.readings
    reads := w.reads }

/-- What `get_user` sees of the process. -/
def userWorld (s : Session σ Text) : UserWorld (σ × List (Exchange Text)) Text where
  server := (s.server, s.log)
  users := s.caches.userCache
  readings := s.userReadings
  reads := s.userReads

/-- What it leaves. -/
def withUsers (s : Session σ Text) (w : UserWorld (σ × List (Exchange Text)) Text) :
    Session σ Text :=
  { s with
    server := w.server.1
    log := w.server.2
    caches := { s.caches with userCache := w.users }
    userReadings := w.readings
    userReads := w.reads }

variable (json : NlohmannText Text) (server : Server σ Text) (apiPath : Str)

/-- One call. -/
def perform (e : LookupEvent σ) (s : Session σ Text) : Option Found × Session σ Text :=
  let s := { s with server := e.state }
  match e.call with
  | .card idOrNumber =>
      match getCard json server apiPath idOrNumber s.cardWorld with
      | .ok answer w => (some (.card answer), s.withCards w)
      | .error _ w => (none, s.withCards w)
  | .user spaceId userId =>
      let (answer, w) := getUser json server.logged apiPath spaceId userId s.userWorld
      (some (.user answer), s.withUsers w)

end Session

section Calls

variable {σ Text : Type} (json : NlohmannText Text) (server : Server σ Text) (apiPath : Str)

/-- The calls as steps. -/
def lookupMachine : Machine (Session σ Text) (LookupEvent σ) (Option Found) where
  step s e :=
    let (found, t) := s.perform json server apiPath e
    some (t, found)

/-- The path of a call. -/
def Lookup.target : Lookup → Str
  | .card idOrNumber => cardTarget apiPath idOrNumber
  | .user spaceId userId => userTarget apiPath spaceId userId

/-- What a call makes of a response. -/
def Lookup.found (response : ℤ × Text) : Lookup → Found
  | .card _ => .card (fetchedAnswer json response)
  | .user _ _ => .user (fetchedUserAnswer json response)

/-- The answer of the server to a call at this moment. -/
def LookupEvent.response (e : LookupEvent σ) : ℤ × Text :=
  (server.answer e.state (.get (e.call.target apiPath))).1

/-- The call sends its request, and returns what the server answers. -/
structure Session.Asks (s : Session σ Text) (e : LookupEvent σ) : Prop where
  found : (s.perform json server apiPath e).1 = some (e.call.found json (e.response server apiPath))
  log : (s.perform json server apiPath e).2.log =
    s.log ++ [.request (.get (e.call.target apiPath)) (e.response server apiPath)]

/-- The call does not find a card by its number. -/
def Session.MissesNumbers (s : Session σ Text) (e : LookupEvent σ) : Prop :=
  match e.call with
  | .card idOrNumber => isCardNumber idOrNumber = true → ∀ entry,
      ¬ s.caches.cardNumberCache.Finds (s.readings s.reads).now idOrNumber entry
  | .user _ _ => True

/-- The caches of cards by id and of users are disabled. -/
structure Session.Disabled (s : Session σ Text) : Prop where
  cards : s.caches.cardCache.enabled = false
  users : s.caches.userCache.enabled = false

theorem Session.disabled_noCache (s : Session σ Text) : s.noCache.Disabled := ⟨rfl, rfl⟩

/-- A disabled cache of users is not asked. -/
theorem getUser_asks {w : UserWorld σ Text} (hw : w.users.enabled = false)
    (spaceId userId : Int64) :
    (getUser json server apiPath spaceId userId w).1 = fetchedUserAnswer json
        (server.answer w.server (.get (userTarget apiPath spaceId userId))).1 ∧
      (getUser json server apiPath spaceId userId w).2.server =
        (server.answer w.server (.get (userTarget apiPath spaceId userId))).2 ∧
      (getUser json server apiPath spaceId userId w).2.users.enabled = false := by
  have hget : w.users.get (w.readings w.reads).now userId = (none, w.users) := by
    unfold Cache.get
    rw [hw]
    rfl
  unfold getUser fetchedUserAnswer fetchedUser
  dsimp only
  rw [hget]
  dsimp only
  split_ifs with hstatus
  · cases hparse : json.parse (server.answer w.server
        (.get (userTarget apiPath spaceId userId))).1.2 with
    | none => exact ⟨rfl, rfl, hw⟩
    | some j => exact ⟨rfl, rfl, (Cache.updates_put _ _ _ _ _ _).enabled.trans hw⟩
  · exact ⟨rfl, rfl, hw⟩

variable {json server apiPath}

/-- A disabled cache of cards is hit by numbers only. -/
theorem Session.Disabled.not_hit_iff {s : Session σ Text} (h : s.Disabled) (state : σ) (t : Str) :
    (∀ entry, ¬ World.Hit ({ s with server := state } : Session σ Text).cardWorld t entry) ↔
      s.MissesNumbers ⟨state, .card t⟩ := by
  unfold World.Hit Session.MissesNumbers
  by_cases hnumber : isCardNumber t = true
  · simp only [hnumber, forall_const]
    rfl
  · simp only [if_neg hnumber]
    refine iff_of_true ?_ fun habs => absurd habs hnumber
    rintro entry ⟨id, -, hfinds⟩
    have hen : s.caches.cardCache.enabled = true := hfinds.enabled
    rw [h.cards] at hen
    cases hen

/-- A call of `get_card` asks the server exactly when its number is not found. -/
theorem Session.Disabled.card_asks_iff {s : Session σ Text} (h : s.Disabled) (state : σ) (t : Str) :
    s.Asks json server apiPath ⟨state, .card t⟩ ↔ s.MissesNumbers ⟨state, .card t⟩ := by
  rw [← h.not_hit_iff]
  obtain ⟨answer, w', hget, hcases⟩ :=
    getCard_cases json server apiPath ({ s with server := state } : Session σ Text).cardWorld t
  have hperform : s.perform json server apiPath ⟨state, .card t⟩ =
      (some (.card answer), ({ s with server := state } : Session σ Text).withCards w') := by
    unfold Session.perform
    dsimp only
    rw [hget]
  rcases hcases with ⟨entry, hentry, -, -, hlog, -⟩ | ⟨hmiss, response, rfl, rfl, -, hlog, -⟩
  · refine iff_of_false (fun hasks => ?_) fun hmiss => hmiss entry hentry
    -- a hit leaves no trace in the log
    have hlonger := hasks.log
    rw [hperform] at hlonger
    have hsame : s.log = s.log ++ [_] := hlog.symm.trans hlonger
    exact absurd (congrArg List.length hsame) (by simp)
  · refine iff_of_true ?_ hmiss
    constructor
    · rw [hperform]
      rfl
    · rw [hperform]
      exact hlog

/-- A call of `get_user` always asks the server. -/
theorem Session.Disabled.user_asks {s : Session σ Text} (h : s.Disabled) (state : σ)
    (spaceId userId : Int64) : s.Asks json server apiPath ⟨state, .user spaceId userId⟩ := by
  obtain ⟨hanswer, hserver, -⟩ := getUser_asks json server.logged apiPath
    (w := ({ s with server := state } : Session σ Text).userWorld) h.users spaceId userId
  constructor
  · exact congrArg (fun answer => some (Found.user answer)) hanswer
  · exact congrArg Prod.snd hserver

/-- **One call** asks the server exactly when it does not find a card by its number. -/
theorem Session.Disabled.asks_iff {s : Session σ Text} (h : s.Disabled) (e : LookupEvent σ) :
    s.Asks json server apiPath e ↔ s.MissesNumbers e := by
  obtain ⟨state, call⟩ := e
  cases call with
  | card t => exact h.card_asks_iff state t
  | user spaceId userId => exact iff_of_true (h.user_asks state spaceId userId) trivial

/-- What is disabled stays disabled. -/
theorem Session.Disabled.perform {s : Session σ Text} (h : s.Disabled) (e : LookupEvent σ) :
    (s.perform json server apiPath e).2.Disabled := by
  obtain ⟨state, call⟩ := e
  cases call with
  | card t =>
    obtain ⟨answer, w', hget, hcases⟩ :=
      getCard_cases json server apiPath ({ s with server := state } : Session σ Text).cardWorld t
    have hcards : w'.cards.enabled = s.caches.cardCache.enabled := by
      rcases hcases with ⟨_, -, -, -, -, hcaches⟩ | ⟨-, _, -, -, -, -, hcaches⟩
      · exact hcaches.cards.enabled
      · exact hcaches.cards.enabled
    unfold Session.perform
    dsimp only
    rw [hget]
    exact ⟨hcards.trans h.cards, h.users⟩
  | user spaceId userId =>
    obtain ⟨-, -, husers⟩ := getUser_asks json server.logged apiPath
      (w := ({ s with server := state } : Session σ Text).userWorld) h.users spaceId userId
    exact ⟨h.cards, husers⟩

/-- **Without caches.**  After `--no-cache`, whatever the caches have held, all calls of a run send
their request and return what the server answers at that moment exactly when none of them finds a
card by its number. -/
theorem asks_iff_missesNumbers (s : Session σ Text) (es : List (LookupEvent σ)) :
    (lookupMachine json server apiPath).Along (fun s e _ => s.Asks json server apiPath e)
        s.noCache es ↔
      (lookupMachine json server apiPath).Along (fun s e _ => s.MissesNumbers e) s.noCache es := by
  refine Machine.along_congr (I := Session.Disabled) (fun s e t hs ht _ => ?_)
    (fun s e t hs _ => hs.asks_iff e) s.disabled_noCache es
  obtain rfl := Option.some.inj ht
  exact hs.perform e

end Calls

/-! ### A card that is renamed -/

/-- The card 5 with the number CARD-5. -/
def renamedCard (title : Str) : Json :=
  .object [(lit "id", .integer 5), (lit "number", .string (lit "CARD-5")),
    (lit "title", .string title)]

theorem renamedCard_valid (renamed : Bool) :
    (renamedCard (if renamed then lit "new" else lit "old")).validUtf8 = true := by
  cases renamed
  · decide +kernel
  · decide +kernel

/-- The server has one card, and its state says whether that was renamed. -/
def renamingServer : Server Bool (Option { j : Json // j.validUtf8 = true }) where
  answer renamed _ := ((200, some ⟨_, renamedCard_valid renamed⟩), renamed)
  users renamed := (fun _ => (404, none), renamed)

/-- The process at its start, at one time. -/
def standingSession : Session Bool (Option { j : Json // j.validUtf8 = true }) where
  server := false
  readings := fun _ => ⟨0, fun _ => 0, fun _ => 0⟩
  userReadings := standing

/-- The card is asked for by its number, before and after it is renamed. -/
def renamedBetween : List (LookupEvent Bool) :=
  [⟨false, .card (lit "CARD-5")⟩, ⟨true, .card (lit "CARD-5")⟩]

/-- The second call sends no request. -/
theorem renamed_card_cached :
    ¬ (lookupMachine .symbolic renamingServer []).Along
      (fun s e _ => s.Asks .symbolic renamingServer [] e) standingSession.noCache
      renamedBetween := by
  intro h
  obtain ⟨-, h⟩ := h _ rfl
  obtain ⟨hasks, -⟩ := h _ rfl
  have hlonger := congrArg List.length hasks.log
  rw [List.length_append, List.length_singleton] at hlonger
  revert hlonger
  decide +kernel

end Kaiten

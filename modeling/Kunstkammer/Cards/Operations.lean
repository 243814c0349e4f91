import Kunstkammer.Cache
import Kunstkammer.Cards.Desired
import Kunstkammer.Cards.Records
import Kunstkammer.Cards.Titles
import Kunstkammer.Foundation.Effects
import Kunstkammer.Listing.Users

/-!
# Operations on cards

`card_operations.cpp` against an arbitrary server.

* `NlohmannText`: the library, with its texts as strings;
* `Server`: how a server answers a request, in a state of its own; a listing of users is answered
  as a whole, since no two of its requests are the same;
* `World`: the server, the caches, the readings of the clock to come, and the log of what was sent;
* `createCard`, `updateCard`, `getCard`, `addChildCard`, `addTagToCard`, `getCurrentUser`,
  `getAllUsers`: the calls, which fail with an exception where the source throws.
-/

namespace Kaiten

/-- `nlohmann::json` with its texts as strings: what is parsed and what is printed is UTF-8. -/
structure NlohmannText (Text : Type) extends Nlohmann Text where
  bytes : Text → Str
  parse_valid : ∀ t j, parse t = some j → j.validUtf8 = true
  bytes_valid : ∀ j t, dump j = some t → (bytes t).validUtf8 = true
  bytes_null : ∀ t, dump .null = some t → bytes t = lit "null"

/-- A value that is no array, object or fraction, as text. -/
def scalarText : Json → Str
  | .null => lit "null"
  | .boolean b => if b then lit "true" else lit "false"
  | .integer n => intToString n
  | .string s => lit "\"" ++ s ++ lit "\""
  | _ => []

theorem scalarText_valid {j : Json} (h : j.validUtf8 = true) : (scalarText j).validUtf8 = true := by
  rw [validUtf8_iff]
  cases j with
  | null => exact valid_lit _
  | boolean b => cases b <;> exact valid_lit _
  | integer n => exact valid_intToString n
  | string s => exact ((valid_lit _).append (validUtf8_iff.1 h)).append (valid_lit _)
  | float x => exact Utf8.valid_nil
  | array l => exact Utf8.valid_nil
  | object l => exact Utf8.valid_nil

/-- A text that is its own syntax tree, or no JSON text at all. -/
def NlohmannText.symbolic : NlohmannText (Option { j : Json // j.validUtf8 = true }) where
  dump j := if h : j.validUtf8 = true then some (some ⟨j, h⟩) else none
  parse t := t.map Subtype.val
  empty := none
  dump_isSome j := by split_ifs with h <;> simp [h]
  parse_dump j t h := by split_ifs at h; cases h; rfl
  parse_empty := rfl
  bytes t := (t.map fun j => scalarText j.1).getD []
  parse_valid t j h := by
    obtain ⟨v, -, rfl⟩ := Option.map_eq_some_iff.1 h
    exact v.2
  bytes_valid j t h := by
    split_ifs at h with hj
    cases h
    exact scalarText_valid hj
  bytes_null t h := by
    have hnull : Json.null.validUtf8 = true := rfl
    rw [dif_pos hnull, Option.some.injEq] at h
    subst h
    rfl

/-! ### Servers and worlds -/

/-- A request of the client: the path, and the body if there is one. -/
inductive Request (Text : Type)
  | get (target : Str)
  | post (target : Str) (body : Text)
  | patch (target : Str) (body : Text)

/-- A server.  The status is -1 when a request fails on the way. -/
structure Server (σ Text : Type) where
  answer : σ → Request Text → (ℤ × Text) × σ
  users : σ → (Query UserFilterParams → ℤ × Text) × σ

/-- What a run leaves in the log. -/
inductive Exchange (Text : Type)
  | request (request : Request Text) (response : ℤ × Text)
  | users (requests : List (Query UserFilterParams))

/-- The readings of the clock during one use of a cache. -/
structure Reading where
  now : ℤ
  sweepCards : Int64 → ℤ
  sweepNumbers : Str → ℤ

/-- The state of a run. -/
structure World (σ Text : Type) where
  server : σ
  log : List (Exchange Text)
  cards : Cache Int64 Card
  cardNumbers : Cache Str Card
  readings : ℕ → Reading
  reads : ℕ

/-- Why a run stops before its end: an exception, or a listing of users that leaves the range of
`int`. -/
inductive Stop
  | exception
  | endless
  deriving DecidableEq

/-- A part of the program. -/
abbrev Run (σ Text α : Type) := EStateM Stop (World σ Text) α

/-- The lifetime of the entries in both caches of cards: two minutes. -/
def cardTtl : ℤ := 120

/-- A world at the start of the program. -/
def World.initial {σ Text : Type} (server : σ) (readings : ℕ → Reading) : World σ Text where
  server := server
  log := []
  cards := { defaultTtl := cardTtl }
  cardNumbers := { defaultTtl := cardTtl }
  readings := readings
  reads := 0

section Operations

variable {σ Text : Type} (json : NlohmannText Text) (server : Server σ Text) (apiPath : Str)

/-- One request and its answer. -/
def send (request : Request Text) : Run σ Text (ℤ × Text) := fun w =>
  let (response, state) := server.answer w.server request
  .ok response { w with server := state, log := w.log ++ [.request request response] }

/-- `dump`. -/
def dump (j : Json) : Run σ Text Text :=
  match json.dump j with
  | some text => pure text
  | none => throw .exception

/-- `parse` and `get<Card>`; `none` where one of them throws. -/
def readCard (text : Text) : Option Card := (json.parse text).bind Card.fromJson

/-- `card_cache().get`. -/
def cachedCard (key : Int64) : Run σ Text (Option Card) := fun w =>
  let (answer, cards) := w.cards.get (w.readings w.reads).now key
  .ok answer { w with cards := cards, reads := w.reads + 1 }

/-- `card_number_cache().get`. -/
def cachedNumber (key : Str) : Run σ Text (Option Card) := fun w =>
  let (answer, cardNumbers) := w.cardNumbers.get (w.readings w.reads).now key
  .ok answer { w with cardNumbers := cardNumbers, reads := w.reads + 1 }

/-- A card is put into both caches, with the default lifetime. -/
def storeCard (card : Card) : Run σ Text Unit := fun w =>
  let first := w.readings w.reads
  let second := w.readings (w.reads + 1)
  .ok () { w with
    cards := w.cards.put first.now first.sweepCards card.id card (-1)
    cardNumbers := w.cardNumbers.put second.now second.sweepNumbers card.number card (-1)
    reads := w.reads + 2 }

/-- A status of success. -/
def IsSuccess (status : ℤ) : Prop := status = 200 ∨ status = 201

instance instDecidableIsSuccess (status : ℤ) : Decidable (IsSuccess status) :=
  inferInstanceAs (Decidable (_ ∨ _))

/-- `create_card`: a response that cannot be parsed is a success with an empty card. -/
def createCard (desired : SimpleCard) : Run σ Text (ℤ × Card) := do
  let body ← dump json desired.payload
  let response ← send server (.post (apiPath ++ lit "/cards") body)
  if IsSuccess response.1 then
    return (response.1, (readCard json response.2).getD {})
  else return (response.1, {})

/-- The payload of `update_card`. -/
def changesPayload (title : Str) : Json :=
  if title ≠ [] then .ofPairs [(lit "title", .string title)] else .ofPairs []

/-- The path of a card. -/
def cardTarget (idOrNumber : Str) : Str := apiPath ++ lit "/cards/" ++ idOrNumber

/-- `update_card`, of whose changes only the title is sent. -/
def updateCard (idOrNumber title : Str) : Run σ Text (ℤ × Card) := do
  let body ← dump json (changesPayload title)
  let response ← send server (.patch (cardTarget apiPath idOrNumber) body)
  if response.1 = 200 then
    return (response.1, (readCard json response.2).getD {})
  else return (response.1, {})

/-- `CARD-` or `card-` at the front. -/
def isCardNumber (idOrNumber : Str) : Bool :=
  (lit "CARD-").isPrefixOf idOrNumber || (lit "card-").isPrefixOf idOrNumber

/-- The cache is asked by number or by id. -/
def cached (idOrNumber : Str) : Run σ Text (Option Card) :=
  if isCardNumber idOrNumber then cachedNumber idOrNumber
  else
    match stoll idOrNumber with
    | some id => cachedCard id
    | none => pure none

/-- `get_card` after a miss. -/
def fetchCard (idOrNumber : Str) : Run σ Text (ℤ × Card) := do
  let response ← send server (.get (cardTarget apiPath idOrNumber))
  if response.1 = 200 then
    match readCard json response.2 with
    | some card =>
        storeCard card
        return (response.1, card)
    | none => return (response.1, {})
  else return (response.1, {})

/-- `get_card`. -/
def getCard (idOrNumber : Str) : Run σ Text (ℤ × Card) := do
  match ← cached idOrNumber with
  | some card => return (200, card)
  | none => fetchCard json server apiPath idOrNumber

/-- `add_child_card`. -/
def addChildCard (parentCardId childCardId : Int64) : Run σ Text (ℤ × Bool) := do
  let body ← dump json (.ofPairs [(lit "card_id", .integer childCardId.toInt)])
  let response ← send server
    (.post (cardTarget apiPath (intToString parentCardId.toInt) ++ lit "/children") body)
  return (response.1, decide (IsSuccess response.1))

/-- `add_tag_to_card`. -/
def addTagToCard (cardId : Int64) (tag : Str) : Run σ Text (ℤ × Bool) := do
  let body ← dump json (.ofPairs [(lit "name", .string tag)])
  let response ← send server
    (.post (cardTarget apiPath (intToString cardId.toInt) ++ lit "/tags") body)
  return (response.1, decide (IsSuccess response.1))

/-- `get_current_user`. -/
def getCurrentUser : Run σ Text (ℤ × User) := do
  let response ← send server (.get (apiPath ++ lit "/users/current"))
  if response.1 = 200 then
    match json.parse response.2 with
    | some j => return (response.1, User.fromJson j)
    | none => return (response.1, {})
  else return (response.1, {})

/-- `get_all_users`: pages of 100 as long as they are full. -/
def getAllUsers : Run σ Text (ℤ × List User) := fun w =>
  let (client, state) := server.users w.server
  let listing := UserOperations.getAllUsers json.toNlohmann (fun j => some (User.fromJson j)) client
    {} 100 intMax
  let w := { w with server := state, log := w.log ++ [.users listing.requests] }
  match listing.outcome with
  | .returned status users => .ok (status, users) w
  | _ => .error .endless w

end Operations

/-- The world after a request. -/
def World.afterSend {σ Text : Type} (server : Server σ Text) (r : Request Text)
    (w : World σ Text) : World σ Text :=
  { w with
    server := (server.answer w.server r).2
    log := w.log ++ [.request r (server.answer w.server r).1] }

end Kaiten

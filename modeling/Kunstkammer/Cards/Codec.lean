import Kunstkammer.Cards.Records
import Kunstkammer.DateText

/-!
# Cards as JSON

`to_json` of `Card` writes fourteen fields; `from_json` reads them back.

* `Card.toJson`, `CardDate.toJson`;
* `CardDate.truncated`: the whole seconds of a date;
* `Card.fromJson_toJson`: the fourteen fields come back, and all others have their defaults.
-/

namespace Kaiten

/-- `to_json` of `Card_date`. -/
def CardDate.toJson (d : CardDate) : Json := .string d.toIso8601

/-- The members that `to_json` of `Card` writes. -/
def Card.assignments (c : Card) : List (Str × Json) :=
  [(lit "id", .integer c.id.toInt), (lit "number", .string c.number),
    (lit "title", .string c.title), (lit "type", .string c.type),
    (lit "size", .integer c.size.toInt), (lit "archived", .boolean c.archived),
    (lit "board_id", .integer c.boardId.toInt), (lit "column_id", .integer c.columnId.toInt),
    (lit "lane_id", .integer c.laneId.toInt), (lit "owner_id", .integer c.ownerId.toInt),
    (lit "type_id", .integer c.typeId.toInt), (lit "created", c.created.toJson),
    (lit "updated", c.updated.toJson), (lit "description", .string c.description)]

/-- `to_json` of `Card`. -/
def Card.toJson (c : Card) : Json := .ofPairs c.assignments

/-- Their keys. -/
def writtenKeys : List Str :=
  [lit "id", lit "number", lit "title", lit "type", lit "size", lit "archived", lit "board_id",
    lit "column_id", lit "lane_id", lit "owner_id", lit "type_id", lit "created", lit "updated",
    lit "description"]

theorem writtenKeys_nodup : writtenKeys.Nodup := by decide +kernel

/-- A member that is written is there. -/
theorem Card.member?_toJson (c : Card) {p : Str × Json} (hp : p ∈ c.assignments) :
    c.toJson.member? p.1 = some p.2 := by
  have hkeys : c.assignments.map Prod.fst = writtenKeys := rfl
  exact Json.member?_ofPairs (hkeys ▸ writtenKeys_nodup) hp

theorem Card.member?_toJson_of_not_mem (c : Card) {key : Str} (h : key ∉ writtenKeys) :
    c.toJson.member? key = none := by
  have hkeys : c.assignments.map Prod.fst = writtenKeys := rfl
  exact Json.member?_ofPairs_of_not_mem (hkeys ▸ h)

/-- The whole seconds of a date. -/
def CardDate.truncated (d : CardDate) : CardDate :=
  ⟨.ofInt (d.timePoint.toInt.tdiv (10 ^ 9) * 10 ^ 9)⟩

theorem CardDate.toInt_truncated (d : CardDate) :
    d.truncated.timePoint.toInt = d.timePoint.toInt.tdiv (10 ^ 9) * 10 ^ 9 :=
  (toInt_fromTimeT_iff _).2 (toTimeT_fits d.timePoint)

theorem CardDate.fromJson_printed (d : CardDate) : fromJson d.toJson = some d.truncated := by
  obtain ⟨⟨timePoint⟩, hparse, hpoint, -⟩ := d.parse_toIso8601
  have htruncated : d.truncated = ⟨timePoint⟩ :=
    congrArg CardDate.mk (Int64.toInt_inj.1 (d.toInt_truncated.trans hpoint.symm))
  rw [htruncated]
  exact hparse

section Reading

variable (c : Card)

/-! ### Members that are not written -/

variable {key : Str} (h : key ∉ writtenKeys)

include h

theorem Card.present?_toJson_of_not_mem : c.toJson.present? key = none := by
  rw [Json.present?, c.member?_toJson_of_not_mem h]

theorem Card.nested_toJson_of_not_mem {T : Type} (read : Json → Option T) (default : T) :
    nested read c.toJson key default = some default := by
  rw [nested, c.present?_toJson_of_not_mem h]

theorem Card.nestedArray_toJson_of_not_mem {T : Type} (read : Json → Option T) :
    nestedArray read c.toJson key = some [] := by
  rw [nestedArray, c.member?_toJson_of_not_mem h]

theorem Card.getOptional_toJson_of_not_mem {T : Type} (get : Json → Option T) (default : T) :
    getOptional get c.toJson key default = default := by
  rw [getOptional, c.present?_toJson_of_not_mem h]

theorem Card.getIntOptional_toJson_of_not_mem (default : Int32) :
    getIntOptional c.toJson key default = default := by
  rw [getIntOptional, c.present?_toJson_of_not_mem h]

theorem Card.getInt64Optional_toJson_of_not_mem (default : Int64) :
    getInt64Optional c.toJson key default = default := by
  rw [getInt64Optional, c.present?_toJson_of_not_mem h]

theorem Card.getDoubleOptional_toJson_of_not_mem (default : Double) :
    getDoubleOptional c.toJson key default = default := by
  rw [getDoubleOptional, c.present?_toJson_of_not_mem h]

omit h

/-! ### Members that are -/

theorem Card.text_toJson (key : Str) {s : Str} (h : (key, .string s) ∈ c.assignments) :
    getOptional Json.getString c.toJson key [] = s := by
  rw [getOptional, Json.present?, c.member?_toJson h]
  rfl

theorem Card.integer_toJson (key : Str) {n : Int64} (h : (key, .integer n.toInt) ∈ c.assignments) :
    getInt64Optional c.toJson key 0 = n := by
  rw [getInt64Optional, Json.present?, c.member?_toJson h]
  exact congrArg (fun o => o.getD 0) (Json.getInt64_integer n)

theorem Card.date_toJson (key : Str) {d : CardDate} (h : (key, d.toJson) ∈ c.assignments) :
    nested CardDate.fromJson c.toJson key ⟨0⟩ = some d.truncated := by
  rw [nested, Json.present?, c.member?_toJson h]
  exact d.fromJson_printed

theorem Card.size_toJson : getIntOptional c.toJson (lit "size") 0 = c.size := by
  have hsize : (lit "size", .integer c.size.toInt) ∈ c.assignments := by simp [Card.assignments]
  rw [getIntOptional, Json.present?, c.member?_toJson hsize]
  exact Int32.ofInt_toInt c.size

theorem Card.archived_toJson :
    getOptional Json.getBool c.toJson (lit "archived") false = c.archived := by
  have harchived : (lit "archived", .boolean c.archived) ∈ c.assignments := by
    simp [Card.assignments]
  rw [getOptional, Json.present?, c.member?_toJson harchived]
  rfl

/-- The type is written as a string. -/
theorem Card.cardTypeMember_toJson : cardTypeMember c.toJson = {} := by
  have htype : (lit "type", .string c.type) ∈ c.assignments := by simp [Card.assignments]
  rw [cardTypeMember, c.member?_toJson htype]

end Reading

/-- **The codec of cards.**  What is written is read back, the dates cut to whole seconds, and every
field that is not written has its default. -/
theorem Card.fromJson_toJson (c : Card) : Card.fromJson c.toJson = some
    { id := c.id, number := c.number, title := c.title, type := c.type, size := c.size,
      archived := c.archived, boardId := c.boardId, columnId := c.columnId, laneId := c.laneId,
      ownerId := c.ownerId, typeId := c.typeId, description := c.description,
      created := c.created.truncated, updated := c.updated.truncated } := by
  have hcreated := c.date_toJson (lit "created") (d := c.created) (by simp [Card.assignments])
  have hupdated := c.date_toJson (lit "updated") (d := c.updated) (by simp [Card.assignments])
  have hid := c.integer_toJson (lit "id") (n := c.id) (by simp [Card.assignments])
  have hboard := c.integer_toJson (lit "board_id") (n := c.boardId) (by simp [Card.assignments])
  have hcolumn := c.integer_toJson (lit "column_id") (n := c.columnId) (by simp [Card.assignments])
  have hlane := c.integer_toJson (lit "lane_id") (n := c.laneId) (by simp [Card.assignments])
  have howner := c.integer_toJson (lit "owner_id") (n := c.ownerId) (by simp [Card.assignments])
  have htypeId := c.integer_toJson (lit "type_id") (n := c.typeId) (by simp [Card.assignments])
  have hnumber := c.text_toJson (lit "number") (s := c.number) (by simp [Card.assignments])
  have htitle := c.text_toJson (lit "title") (s := c.title) (by simp [Card.assignments])
  have htype := c.text_toJson (lit "type") (s := c.type) (by simp [Card.assignments])
  have hdescription := c.text_toJson (lit "description") (s := c.description)
    (by simp [Card.assignments])
  unfold Card.fromJson
  -- every other key is not among those that are written
  simp (disch := decide +kernel) only [hcreated, hupdated, hid, hboard, hcolumn, hlane, howner,
    htypeId, hnumber, htitle, htype, hdescription, c.size_toJson, c.archived_toJson,
    c.cardTypeMember_toJson, c.nested_toJson_of_not_mem, c.nestedArray_toJson_of_not_mem,
    c.getOptional_toJson_of_not_mem, c.getIntOptional_toJson_of_not_mem,
    c.getInt64Optional_toJson_of_not_mem, c.getDoubleOptional_toJson_of_not_mem,
    c.present?_toJson_of_not_mem]
  rfl

end Kaiten

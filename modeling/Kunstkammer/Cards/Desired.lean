import Kunstkammer.Foundation.OrdMap
import Kunstkammer.Json
import Kunstkammer.Numbers

/-!
# Cards to be created

`Simple_card`, the card a request asks for, and the configuration it starts from.

* `PropertyValue`, `propertyValueToJson`;
* `Config`, `Config.fromJson`;
* `SimpleCard`: `setRoleId`, `assignConfig`, `setContent`, `addTags`;
* `createBaseCardFromConfig`: the card all tasks of an entry are copied from;
* `SimpleCard.payload`: the JSON value that is posted.
-/

namespace Kaiten

/-- `PropertyValue`; `monostate` stands for null. -/
inductive PropertyValue
  | monostate
  | int (n : Int32)
  | double (x : ℚ)
  | string (s : Str)
  | strings (l : List Str)
  | json (j : Json)

/-- `property_value_to_json`. -/
def propertyValueToJson : PropertyValue → Json
  | .monostate => .null
  | .int n => .integer n.toInt
  | .double x => .float x
  | .string s => .string s
  | .strings l => .array (l.map .string)
  | .json j => j

/-! ### Configuration -/

/-- `Config`. -/
structure Config where
  token : Str
  baseUrl : Str
  port : Str
  logLevel : Str
  boardId : Int64
  columnId : Int64
  laneId : Int64
  spaceId : Int64
  tags : List Str
  taskTypeId : Int64
  taskSize : Int64
  role : Str

/-- `from_json` of `Config`: every member has to be there. -/
def Config.fromJson (j : Json) : Option Config := do
  let token ← (← j.member? (lit "Token")).getString
  let baseUrl ← (← j.member? (lit "BaseURL")).getString
  let port ← (← j.member? (lit "Port")).getString
  let logLevel ← (← j.member? (lit "LogLevel")).getString
  let boardId ← (← j.member? (lit "BoardID")).getInt64
  let columnId ← (← j.member? (lit "ColumnID")).getInt64
  let laneId ← (← j.member? (lit "LaneID")).getInt64
  let spaceId ← (← j.member? (lit "SpaceID")).getInt64
  let tags ← (← (← j.member? (lit "Tags")).elements?).mapM Json.getString
  let taskTypeId ← (← j.member? (lit "TaskTypeId")).getInt64
  let taskSize ← (← j.member? (lit "TaskSize")).getInt64
  let role ← (← j.member? (lit "Role")).getString
  some
    { token, baseUrl, port, logLevel, boardId, columnId, laneId, spaceId, tags, taskTypeId,
      taskSize, role }

/-! ### `Simple_card` -/

/-- `Simple_card`, with the fields that are sent. -/
structure SimpleCard where
  title : Str := []
  typeId : Int64 := 0
  size : Int64 := 0
  boardId : Int64 := 0
  columnId : Int64 := 0
  laneId : Int64 := 0
  tags : List Str := []
  properties : OrdMap Str PropertyValue := OrdMap.empty
  responsibleId : Int64 := 0
  description : Str := []

/-- The key of the property with the number of the sprint. -/
def sprintNumberProperty : Str := lit "id_12"

/-- The key of the property with the role. -/
def roleIdProperty : Str := lit "id_19"

/-- The codes of the roles. -/
def roles : List (Str × Str) :=
  [(lit "C++", lit "1"), (lit "Backend", lit "2"), (lit "Java", lit "2"),
    (lit "Frontend", lit "3"), (lit "React", lit "3"), (lit "Test", lit "4"),
    (lit "Analyst", lit "8"), (lit "UIUX", lit "9"), (lit "DevOps", lit "11"),
    (lit "Writer", lit "12"), (lit "Approbation", lit "20")]

namespace SimpleCard

/-- `set_property`; `set_property_string`, `set_property_number` and `set_property_null` are this
with a value of their kind. -/
def setProperty (key : Str) (value : PropertyValue) (card : SimpleCard) : SimpleCard :=
  { card with properties := card.properties.insert key value }

/-- `set_role_id`: an unknown role counts as C++. -/
def setRoleId (role : Str) (card : SimpleCard) : SimpleCard :=
  card.setProperty roleIdProperty (.string ((roles.lookup role).getD (lit "1")))

/-- `operator=(const Config&)`. -/
def assignConfig (config : Config) (card : SimpleCard) : SimpleCard :=
  let card := { card with
    boardId := config.boardId
    columnId := config.columnId
    laneId := config.laneId
    typeId := config.taskTypeId }
  let card := if config.taskSize > 0 then { card with size := config.taskSize } else card
  let card := if config.tags ≠ [] then { card with tags := config.tags } else card
  if config.role ≠ [] then card.setRoleId config.role else card

/-- `set_content` without a description. -/
def setContent (title : Str) (size : Int32) (card : SimpleCard) : SimpleCard :=
  let card := { card with title := title }
  if size > 0 then { card with size := size.toInt64 } else card

/-- `add_tags`: the tags are sorted and each stays once. -/
def addTags (tags : List Str) (card : SimpleCard) : SimpleCard :=
  { card with tags := ((card.tags ++ tags).mergeSort (· ≤ ·)).destutter (· ≠ ·) }

end SimpleCard

/-- The value of the sprint property: a number where the text begins with one. -/
def sprintProperty (sprintNumber : Str) : PropertyValue :=
  if sprintNumber ≠ [] then
    match stoi sprintNumber with
    | some n => .int n
    | none => .string sprintNumber
  else .monostate

/-- `create_base_card_from_config`. -/
def createBaseCardFromConfig (config : Config) (sprintNumber role : Str) : SimpleCard :=
  let base := ({} : SimpleCard).assignConfig config
  let base := base.setProperty sprintNumberProperty (sprintProperty sprintNumber)
  if role ≠ [] then base.setRoleId role else base

/-! ### What is sent -/

/-- The properties as JSON. -/
def SimpleCard.propertiesJson (card : SimpleCard) : Json :=
  .ofPairs (card.properties.items.map fun p => (p.1, propertyValueToJson p.2))

/-- The payload of `create_card`. -/
def SimpleCard.payload (card : SimpleCard) : Json :=
  let body := Json.ofPairs [(lit "title", .string card.title),
    (lit "board_id", .integer card.boardId.toInt), (lit "column_id", .integer card.columnId.toInt),
    (lit "lane_id", .integer card.laneId.toInt)]
  let body := if card.typeId > 0 then
    body.set (lit "type_id") (.integer card.typeId.toInt) else body
  let body := if card.responsibleId > 0 then
    body.set (lit "responsible_id") (.integer card.responsibleId.toInt) else body
  let body := if card.size ≠ 0 then
    body.set (lit "size_text") (.string (intToString card.size.toInt ++ lit " ч")) else body
  if card.properties.items ≠ [] then body.set (lit "properties") card.propertiesJson else body

end Kaiten

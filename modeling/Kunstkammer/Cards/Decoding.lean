import Kunstkammer.Cards.Records
import Kunstkammer.Foundation.Attempts

/-!
# Which cards are read

The decoder of cards throws on few values and replaces the others it cannot read.

* `Field`: a field of a record, with what stands for a member that is missing and for one that
  cannot be read;
* `Card.fields`, `User.fields` and so on: the fields of the records;
* `Aborts j`: the members that make the decoder throw;
* `Decoded j card`: every field of `card`, and of the records in it, is what is read of `j`;
* `Card.fromJson_outcome`: the decoder throws exactly on the members named, and every card it
  returns is decoded.
-/

namespace Kaiten

/-! ### Fields -/

/-- A number, or a string that begins with one. -/
def readNumeric {T : Type} (ofText : Str → Option T) (ofNumber : Json → Option T) :
    Json → Option T
  | .string s => ofText s
  | .boolean _ => none
  | v => ofNumber v

section Getters

variable (j : Json) (key : Str)

theorem getOptional_eq {T : Type} (get : Json → Option T) (default : T) :
    getOptional get j key default = ((j.present? key).bind get).getD default := by
  unfold getOptional
  cases j.present? key <;> rfl

theorem getIntOptional_eq (default : Int32) : getIntOptional j key default =
    ((j.present? key).bind (readNumeric stoi Json.getInt)).getD default := by
  unfold getIntOptional
  cases j.present? key with
  | none => rfl
  | some v => cases v <;> rfl

theorem getInt64Optional_eq (default : Int64) : getInt64Optional j key default =
    ((j.present? key).bind (readNumeric stoll Json.getInt64)).getD default := by
  unfold getInt64Optional
  cases j.present? key with
  | none => rfl
  | some v => cases v <;> rfl

theorem getDoubleOptional_eq (default : Double) : getDoubleOptional j key default =
    ((j.present? key).bind (readNumeric stod Json.getDouble)).getD default := by
  unfold getDoubleOptional
  cases j.present? key with
  | none => rfl
  | some v => cases v <;> rfl

end Getters

/-- A field of a record: the member it is read from and how, what it is where that is missing or
null, and what it is where that cannot be read. -/
structure Field (R : Type) where
  {T : Type}
  key : Str
  value : R → T
  get : Json → Option T
  default : T
  fallback : T

namespace Field

variable {R : Type} (key : Str)

/-- What is read from a value: the default where the member is missing or null, and the fallback
where it cannot be read. -/
def read (f : Field R) (j : Json) : f.T :=
  match j.present? f.key with
  | some v => (f.get v).getD f.fallback
  | none => f.default

/-- A field that has one default. -/
def plain {T : Type} (get : Json → Option T) (default : T) (value : R → T) : Field R :=
  ⟨key, value, get, default, default⟩

/-- An `std::optional` of a number: unset where the member is missing, zero where it is wrong. -/
def optional {T : Type} (get : Json → Option T) (zero : T) (value : R → Option T) : Field R :=
  ⟨key, value, fun v => (get v).map some, none, some zero⟩

/-- A string. -/
def text : (R → Str) → Field R := plain key Json.getString []

/-- A flag. -/
def flag : (R → Bool) → Field R := plain key Json.getBool false

/-- An `int`. -/
def int : (R → Int32) → Field R := plain key (readNumeric stoi Json.getInt) 0

/-- An `std::int64_t`. -/
def int64 : (R → Int64) → Field R := plain key (readNumeric stoll Json.getInt64) 0

/-- A `double`. -/
def double : (R → Double) → Field R := plain key (readNumeric stod Json.getDouble) (.finite 0)

/-- An optional `int`. -/
def optInt : (R → Option Int32) → Field R := optional key (readNumeric stoi Json.getInt) 0

/-- An optional `std::int64_t`. -/
def optInt64 : (R → Option Int64) → Field R := optional key (readNumeric stoll Json.getInt64) 0

/-- An optional `double`. -/
def optDouble : (R → Option Double) → Field R :=
  optional key (readNumeric stod Json.getDouble) (.finite 0)

/-- An optional string. -/
def optText : (R → Option Str) → Field R := plain key (fun v => v.getString.map some) none

/-- A date. -/
def date : (R → CardDate) → Field R := plain key CardDate.fromJson ⟨0⟩

/-- A JSON value. -/
def json : (R → Json) → Field R := plain key some .null

/-- An optional JSON value. -/
def optJson : (R → Option Json) → Field R := plain key (fun v => some (some v)) none

/-- The field of `r` is what is read from `j`. -/
def Reads (f : Field R) (j : Json) (r : R) : Prop := f.value r = f.read j

/-! ### The getters read fields -/

variable {key} {j : Json} {r : R} {T : Type} {get : Json → Option T}

theorem reads_plain {default : T} {value : R → T} : (plain key get default value).Reads j r ↔
    value r = ((j.present? key).bind get).getD default := by
  unfold Reads read plain
  dsimp only
  cases j.present? key <;> rfl

/-- An optional number is set where its member is there. -/
theorem reads_optional {zero : T} {value : R → Option T} :
    (optional key get zero value).Reads j r ↔
      value r = (j.present? key).map fun _ => ((j.present? key).bind get).getD zero := by
  unfold Reads read optional
  dsimp only
  cases j.present? key with
  | none => rfl
  | some v => cases hv : get v <;> simp [hv]

@[simp] theorem reads_text {value : R → Str} :
    (text key value).Reads j r ↔ value r = getOptional Json.getString j key [] := by
  rw [getOptional_eq]
  exact reads_plain

@[simp] theorem reads_flag {value : R → Bool} :
    (flag key value).Reads j r ↔ value r = getOptional Json.getBool j key false := by
  rw [getOptional_eq]
  exact reads_plain

@[simp] theorem reads_int {value : R → Int32} :
    (int key value).Reads j r ↔ value r = getIntOptional j key 0 := by
  rw [getIntOptional_eq]
  exact reads_plain

@[simp] theorem reads_int64 {value : R → Int64} :
    (int64 key value).Reads j r ↔ value r = getInt64Optional j key 0 := by
  rw [getInt64Optional_eq]
  exact reads_plain

@[simp] theorem reads_double {value : R → Double} :
    (double key value).Reads j r ↔ value r = getDoubleOptional j key (.finite 0) := by
  rw [getDoubleOptional_eq]
  exact reads_plain

@[simp] theorem reads_optInt {value : R → Option Int32} : (optInt key value).Reads j r ↔
    value r = (j.present? key).map fun _ => getIntOptional j key 0 := by
  simp only [getIntOptional_eq]
  exact reads_optional

@[simp] theorem reads_optInt64 {value : R → Option Int64} : (optInt64 key value).Reads j r ↔
    value r = (j.present? key).map fun _ => getInt64Optional j key 0 := by
  simp only [getInt64Optional_eq]
  exact reads_optional

@[simp] theorem reads_optDouble {value : R → Option Double} : (optDouble key value).Reads j r ↔
    value r = (j.present? key).map fun _ => getDoubleOptional j key (.finite 0) := by
  simp only [getDoubleOptional_eq]
  exact reads_optional

@[simp] theorem reads_json {value : R → Json} :
    (json key value).Reads j r ↔ value r = (j.present? key).getD .null := by
  refine reads_plain.trans ?_
  cases j.present? key <;> rfl

@[simp] theorem reads_optJson {value : R → Option Json} :
    (optJson key value).Reads j r ↔ value r = j.present? key := by
  refine reads_plain.trans ?_
  cases j.present? key <;> rfl

/-- A member that is read without a throw. -/
theorem reads_of_nested {default : T} {value : R → T}
    (h : nested get j key default = some (value r)) : (plain key get default value).Reads j r := by
  rw [reads_plain]
  unfold nested at h
  cases hv : j.present? key with
  | none =>
    rw [hv] at h
    exact (Option.some.inj h).symm
  | some v =>
    rw [hv] at h
    have hget : get v = some (value r) := h
    rw [Option.bind_some, hget, Option.getD_some]

end Field

/-- Every field in the list is what is read from the value `j`. -/
def ReadsAll {R : Type} (fields : List (Field R)) (j : Json) (r : R) : Prop :=
  ∀ f ∈ fields, f.Reads j r

/-! ### The records -/

/-- The fields of `User`. -/
def User.fields : List (Field User) :=
  [.int64 (lit "id") User.id, .text (lit "uid") User.uid, .text (lit "full_name") User.fullName,
    .text (lit "email") User.email, .text (lit "username") User.username,
    .text (lit "avatar_type") User.avatarType,
    .text (lit "avatar_uploaded_url") User.avatarUploadedUrl,
    .text (lit "avatar_initials_url") User.avatarInitialsUrl, .text (lit "theme") User.theme,
    .text (lit "lng") User.lng, .text (lit "timezone") User.timezone,
    .int (lit "ui_version") User.uiVersion, .flag (lit "activated") User.activated,
    .flag (lit "virtual") User.virtualUser, .optInt64 (lit "card_id") User.cardId,
    .optInt (lit "type") User.type]

theorem User.reads (j : Json) : ReadsAll User.fields j (User.fromJson j) := by
  simp [ReadsAll, User.fields, User.fromJson]

/-- The fields of `Board`. -/
def Board.fields : List (Field Board) :=
  [.optText (lit "external_id") Board.externalId, .int64 (lit "id") Board.id,
    .text (lit "title") Board.title]

theorem Board.reads {j : Json} {board : Board} (h : Board.fromJson j = some board) :
    ReadsAll Board.fields j board := by
  obtain ⟨externalId, hexternal, h⟩ := Option.bind_eq_some_iff.1 h
  obtain rfl := Option.some.inj h
  refine List.forall_mem_cons.2 ⟨Field.reads_of_nested hexternal, ?_⟩
  simp

/-- The fields of `Column`. -/
def Column.fields : List (Field Column) :=
  [.int64 (lit "id") Column.id, .text (lit "title") Column.title, .text (lit "uid") Column.uid,
    .int64 (lit "board_id") Column.boardId, .text (lit "type") Column.type,
    .int (lit "sort_order") Column.sortOrder, .int (lit "col_count") Column.colCount,
    .int (lit "rules") Column.rules, .flag (lit "pause_sla") Column.pauseSla,
    .optInt64 (lit "column_id") Column.columnId]

theorem Column.reads (j : Json) : ReadsAll Column.fields j (Column.fromJson j) := by
  simp [ReadsAll, Column.fields, Column.fromJson]

/-- The fields of `Lane`. -/
def Lane.fields : List (Field Lane) :=
  [.optText (lit "external_id") Lane.externalId, .int64 (lit "id") Lane.id,
    .text (lit "title") Lane.title, .int64 (lit "board_id") Lane.boardId,
    .int (lit "condition") Lane.condition, .int (lit "sort_order") Lane.sortOrder,
    .optInt64 (lit "default_card_type_id") Lane.defaultCardTypeId]

theorem Lane.reads {j : Json} {lane : Lane} (h : Lane.fromJson j = some lane) :
    ReadsAll Lane.fields j lane := by
  obtain ⟨externalId, hexternal, h⟩ := Option.bind_eq_some_iff.1 h
  obtain rfl := Option.some.inj h
  refine List.forall_mem_cons.2 ⟨Field.reads_of_nested hexternal, ?_⟩
  simp

/-- The fields of `Card_type`. -/
def CardType.fields : List (Field CardType) :=
  [.int64 (lit "id") CardType.id, .text (lit "name") CardType.name,
    .text (lit "letter") CardType.letter, .int (lit "color") CardType.color,
    .flag (lit "archived") CardType.archived, .int64 (lit "company_id") CardType.companyId,
    .json (lit "properties") CardType.properties]

theorem CardType.reads (j : Json) : ReadsAll CardType.fields j (CardType.fromJson j) := by
  simp [ReadsAll, CardType.fields, CardType.fromJson]

/-- The fields of `Tag`. -/
def Tag.fields : List (Field Tag) :=
  [.int64 (lit "id") Tag.id, .int64 (lit "tag_id") Tag.tagId, .optInt64 (lit "card_id") Tag.cardId,
    .text (lit "name") Tag.name, .int (lit "color") Tag.color]

theorem Tag.reads (j : Json) : ReadsAll Tag.fields j (Tag.fromJson j) := by
  simp [ReadsAll, Tag.fields, Tag.fromJson]

/-- The fields of `Card_permissions`. -/
def CardPermissions.fields : List (Field CardPermissions) :=
  [.flag (lit "comment") CardPermissions.comment, .flag (lit "create") CardPermissions.create,
    .flag (lit "delete") CardPermissions.deletePerm, .flag (lit "move") CardPermissions.move,
    .flag (lit "properties") CardPermissions.properties, .flag (lit "read") CardPermissions.read,
    .flag (lit "read_own") CardPermissions.readOwn, .flag (lit "update") CardPermissions.update]

theorem CardPermissions.reads (j : Json) :
    ReadsAll CardPermissions.fields j (CardPermissions.fromJson j) := by
  simp [ReadsAll, CardPermissions.fields, CardPermissions.fromJson]

/-- The dates of `Parent_card`. -/
def ParentCard.dates : List (Field ParentCard) :=
  [.date (lit "created") ParentCard.created, .date (lit "updated") ParentCard.updated,
    .date (lit "column_changed_at") ParentCard.columnChangedAt,
    .date (lit "lane_changed_at") ParentCard.laneChangedAt,
    .date (lit "last_moved_at") ParentCard.lastMovedAt,
    .date (lit "last_moved_to_done_at") ParentCard.lastMovedToDoneAt]

/-- The other fields of `Parent_card`. -/
def ParentCard.fields : List (Field ParentCard) :=
  [.int64 (lit "id") ParentCard.id, .int64 (lit "card_id") ParentCard.cardId,
    .text (lit "title") ParentCard.title, .text (lit "number") ParentCard.number,
    .flag (lit "archived") ParentCard.archived, .flag (lit "asap") ParentCard.asap,
    .flag (lit "blocked") ParentCard.blocked, .flag (lit "blocking_card") ParentCard.blockingCard,
    .int64 (lit "board_id") ParentCard.boardId, .int64 (lit "column_id") ParentCard.columnId,
    .int64 (lit "lane_id") ParentCard.laneId, .int (lit "state") ParentCard.state,
    .int (lit "size") ParentCard.size, .int (lit "children_count") ParentCard.childrenCount,
    .int (lit "children_done") ParentCard.childrenDone,
    .optInt64 (lit "owner_id") ParentCard.ownerId,
    .optJson (lit "children_ids") ParentCard.childrenIds,
    .optJson (lit "children_number_properties_sum") ParentCard.childrenNumberPropertiesSum]

theorem ParentCard.reads {j : Json} {parent : ParentCard}
    (h : ParentCard.fromJson j = some parent) :
    ReadsAll (ParentCard.dates ++ ParentCard.fields) j parent := by
  obtain ⟨created, hcreated, h⟩ := Option.bind_eq_some_iff.1 h
  obtain ⟨updated, hupdated, h⟩ := Option.bind_eq_some_iff.1 h
  obtain ⟨columnChangedAt, hcolumn, h⟩ := Option.bind_eq_some_iff.1 h
  obtain ⟨laneChangedAt, hlane, h⟩ := Option.bind_eq_some_iff.1 h
  obtain ⟨lastMovedAt, hmoved, h⟩ := Option.bind_eq_some_iff.1 h
  obtain ⟨lastMovedToDoneAt, hdone, h⟩ := Option.bind_eq_some_iff.1 h
  obtain rfl := Option.some.inj h
  refine List.forall_mem_append.2 ⟨?_, by simp [ParentCard.fields]⟩
  simp only [ParentCard.dates, List.forall_mem_cons]
  exact ⟨Field.reads_of_nested hcreated, Field.reads_of_nested hupdated,
    Field.reads_of_nested hcolumn, Field.reads_of_nested hlane, Field.reads_of_nested hmoved,
    Field.reads_of_nested hdone, List.forall_mem_nil _⟩

/-- The dates of `Card`. -/
def Card.dates : List (Field Card) :=
  [.date (lit "created") Card.created, .date (lit "updated") Card.updated,
    .date (lit "column_changed_at") Card.columnChangedAt,
    .date (lit "lane_changed_at") Card.laneChangedAt,
    .date (lit "last_moved_at") Card.lastMovedAt,
    .date (lit "last_moved_to_done_at") Card.lastMovedToDoneAt,
    .date (lit "first_moved_to_in_progress_at") Card.firstMovedToInProgressAt,
    .date (lit "completed_at") Card.completedAt,
    .date (lit "counters_recalculated_at") Card.countersRecalculatedAt,
    .date (lit "comment_last_added_at") Card.commentLastAddedAt]

/-- The other fields of `Card`, less the records and lists in it. -/
def Card.fields : List (Field Card) :=
  [.int64 (lit "id") Card.id, .text (lit "number") Card.number, .text (lit "title") Card.title,
    .text (lit "uid") Card.uid, .int (lit "version") Card.version,
    .flag (lit "archived") Card.archived, .flag (lit "asap") Card.asap,
    .flag (lit "blocked") Card.blocked, .flag (lit "blocking_card") Card.blockingCard,
    .flag (lit "description_filled") Card.descriptionFilled,
    .flag (lit "due_date_time_present") Card.dueDateTimePresent,
    .flag (lit "expires_later") Card.expiresLater,
    .flag (lit "has_access_to_space") Card.hasAccessToSpace,
    .flag (lit "has_blocked_children") Card.hasBlockedChildren, .flag (lit "locked") Card.locked,
    .flag (lit "public") Card.publicCard, .flag (lit "sd_new_comment") Card.sdNewComment,
    .int64 (lit "board_id") Card.boardId, .int64 (lit "column_id") Card.columnId,
    .int64 (lit "lane_id") Card.laneId, .int64 (lit "owner_id") Card.ownerId,
    .int64 (lit "type_id") Card.typeId, .int64 (lit "space_id") Card.spaceId,
    .optInt64 (lit "sprint_id") Card.sprintId, .optInt64 (lit "service_id") Card.serviceId,
    .optInt64 (lit "depends_on_card_id") Card.dependsOnCardId,
    .optInt64 (lit "import_id") Card.importId, .text (lit "type") Card.type,
    .text (lit "description") Card.description, .text (lit "state") Card.state,
    .text (lit "source") Card.source, .text (lit "email") Card.email,
    .text (lit "size_text") Card.sizeText, .text (lit "size_unit") Card.sizeUnit,
    .text (lit "share_id") Card.shareId, .text (lit "fts_version") Card.ftsVersion,
    .int (lit "size") Card.size, .int (lit "condition") Card.condition,
    .int (lit "cardRole") Card.cardRole, .int (lit "comments_total") Card.commentsTotal,
    .int (lit "children_count") Card.childrenCount, .int (lit "children_done") Card.childrenDone,
    .int (lit "goals_done") Card.goalsDone, .int (lit "goals_total") Card.goalsTotal,
    .int (lit "estimate_workload") Card.estimateWorkload,
    .int (lit "time_spent_sum") Card.timeSpentSum,
    .int (lit "time_blocked_sum") Card.timeBlockedSum, .double (lit "sort_order") Card.sortOrder,
    .optDouble (lit "fifo_order") Card.fifoOrder, .json (lit "properties") Card.properties,
    .json (lit "share_settings") Card.shareSettings,
    .json (lit "children_number_properties_sum") Card.childrenNumberPropertiesSum,
    .json (lit "parent_checklist_ids") Card.parentChecklistIds,
    .optJson (lit "external_id") Card.externalId,
    .optJson (lit "external_user_emails") Card.externalUserEmails,
    .optJson (lit "calculated_planned_end") Card.calculatedPlannedEnd,
    .optJson (lit "calculated_planned_start") Card.calculatedPlannedStart,
    .optJson (lit "planned_end") Card.plannedEnd, .optJson (lit "planned_start") Card.plannedStart,
    .optJson (lit "completed_on_time") Card.completedOnTime]

/-! ### What the decoder throws on -/

/-- The member is there and not null, and it is no text of a date. -/
def BadDate (j : Json) (key : Str) : Prop :=
  ∃ v, j.present? key = some v ∧ ∀ s, v = .string s → CardDate.parse s = none

/-- The member is an object whose external id is neither null nor a string. -/
def BadExternalId (j : Json) (key : Str) : Prop :=
  ∃ l v, j.member? key = some (.object l) ∧
    (Json.object l).present? (lit "external_id") = some v ∧ ∀ s, v ≠ .string s

/-- The member is an array with something else than numbers in it. -/
def BadIds (j : Json) (key : Str) : Prop :=
  ∃ l, j.member? key = some (.array l) ∧ ∃ v ∈ l, (∀ n, v ≠ .integer n) ∧ ∀ x, v ≠ .float x

/-- What makes the decoder throw. -/
inductive Aborts (j : Json) : Prop
  | date (f : Field Card) (hf : f ∈ Card.dates) (h : BadDate j f.key)
  | parent (l : List Json) (hl : j.member? (lit "parents") = some (.array l)) (v : Json)
      (hv : v ∈ l) (f : Field ParentCard) (hf : f ∈ ParentCard.dates) (h : BadDate v f.key)
  | externalId (key : Str) (hkey : key ∈ [lit "board", lit "lane"]) (h : BadExternalId j key)
  | ids (key : Str) (hkey : key ∈ [lit "parents_ids", lit "children_ids"]) (h : BadIds j key)

theorem nested_isSome_iff {T : Type} {read : Json → Option T} {j : Json} {key : Str} {default : T} :
    (nested read j key default).isSome ↔ ∀ v, j.present? key = some v → (read v).isSome := by
  unfold nested
  cases j.present? key with
  | none => simp
  | some v => simp

theorem nestedArray_isSome_iff {T : Type} {read : Json → Option T} {j : Json} {key : Str} :
    (nestedArray read j key).isSome ↔
      ∀ l, j.member? key = some (.array l) → ∀ v ∈ l, (read v).isSome := by
  unfold nestedArray
  cases hmember : j.member? key with
  | none => simp
  | some v => cases v <;> simp [isSome_mapM_iff]

theorem present?_ne_null {j v : Json} {key : Str} (h : j.present? key = some v) : v ≠ .null := by
  unfold Json.present? at h
  rintro rfl
  split at h
  · cases h
  · next hnull => exact hnull h

theorem nested_date_isSome_iff {j : Json} {key : Str} {default : CardDate} :
    (nested CardDate.fromJson j key default).isSome ↔ ¬ BadDate j key := by
  rw [nested_isSome_iff, BadDate]
  push Not
  refine forall_congr' fun v => forall_congr' fun hv => ?_
  have hnull := present?_ne_null hv
  cases v with
  | null => exact absurd rfl hnull
  | string s => simp [CardDate.fromJson, Option.isSome_iff_ne_none]
  | _ => simp [CardDate.fromJson]

/-- The external id of a board or a lane. -/
theorem nested_externalId_isSome_iff {v : Json} :
    (nested (fun v => v.getString.map some) v (lit "external_id") none).isSome ↔
      ∀ w, v.present? (lit "external_id") = some w → ∃ s, w = .string s := by
  rw [nested_isSome_iff]
  refine forall_congr' fun w => forall_congr' fun _ => ?_
  cases w <;> simp [Json.getString]

/-- A record that is read but for its external id. -/
theorem nested_record_isSome_iff {T : Type} {read : Json → Option T} {j : Json} {key : Str}
    {default : T} (hread : ∀ v, (read v).isSome ↔
      (nested (fun v => v.getString.map some) v (lit "external_id") none).isSome) :
    (nested read j key default).isSome ↔ ¬ BadExternalId j key := by
  rw [nested_isSome_iff]
  constructor
  · rintro h ⟨l, w, hmember, hw, hstring⟩
    have hpresent : j.present? key = some (.object l) := by rw [Json.present?, hmember]
    obtain ⟨s, rfl⟩ := nested_externalId_isSome_iff.1 ((hread _).1 (h _ hpresent)) w hw
    exact hstring s rfl
  · intro h v hv
    rw [hread, nested_externalId_isSome_iff]
    intro w hw
    by_contra hstring
    -- only an object has an external id
    cases v with
    | object l =>
      refine h ⟨l, w, ?_, hw, fun s hs => hstring ⟨s, hs⟩⟩
      unfold Json.present? at hv
      split at hv
      · cases hv
      · exact hv
    | _ => cases hw

theorem Board.fromJson_isSome_iff (v : Json) : (Board.fromJson v).isSome ↔
    (nested (fun v => v.getString.map some) v (lit "external_id") none).isSome :=
  (isSome_bind_iff fun _ => iff_of_true rfl trivial).trans (and_iff_left trivial)

theorem Lane.fromJson_isSome_iff (v : Json) : (Lane.fromJson v).isSome ↔
    (nested (fun v => v.getString.map some) v (lit "external_id") none).isSome :=
  (isSome_bind_iff fun _ => iff_of_true rfl trivial).trans (and_iff_left trivial)

theorem ParentCard.fromJson_isSome_iff (v : Json) :
    (ParentCard.fromJson v).isSome ↔ ∀ f ∈ ParentCard.dates, ¬ BadDate v f.key := by
  refine (isSome_bind_iff fun _ => isSome_bind_iff fun _ => isSome_bind_iff fun _ =>
    isSome_bind_iff fun _ => isSome_bind_iff fun _ => isSome_bind_iff fun _ =>
    iff_of_true rfl trivial).trans ?_
  simp [nested_date_isSome_iff, ParentCard.dates, Field.date, Field.plain]

theorem nestedArray_ids_isSome_iff {j : Json} {key : Str} :
    (nestedArray Json.getInt64 j key).isSome ↔ ¬ BadIds j key := by
  rw [nestedArray_isSome_iff, BadIds]
  push Not
  refine forall_congr' fun l => forall_congr' fun _ => forall_congr' fun v =>
    forall_congr' fun _ => ?_
  cases v <;> simp [Json.getInt64]

theorem nestedArray_total {T : Type} (read : Json → T) (j : Json) (key : Str) :
    (nestedArray (fun v => some (read v)) j key).isSome :=
  nestedArray_isSome_iff.2 fun _ _ _ _ => rfl

theorem nestedArray_values (j : Json) (key : Str) : (nestedArray some j key).isSome :=
  nestedArray_total (fun v => v) j key

/-- **When a card is read**: when nothing makes the decoder throw. -/
theorem Card.fromJson_isSome_iff {j : Json} : (Card.fromJson j).isSome ↔ ¬ Aborts j := by
  have hchain : (Card.fromJson j).isSome ↔ ¬ BadExternalId j (lit "board") ∧
      ¬ BadExternalId j (lit "lane") ∧ (∀ f ∈ Card.dates, ¬ BadDate j f.key) ∧
      (∀ l, j.member? (lit "parents") = some (.array l) → ∀ v ∈ l,
        ∀ f ∈ ParentCard.dates, ¬ BadDate v f.key) ∧
      ¬ BadIds j (lit "parents_ids") ∧ ¬ BadIds j (lit "children_ids") := by
    refine (isSome_bind_iff fun _ => isSome_bind_iff fun _ => isSome_bind_iff fun _ =>
      isSome_bind_iff fun _ => isSome_bind_iff fun _ => isSome_bind_iff fun _ =>
      isSome_bind_iff fun _ => isSome_bind_iff fun _ => isSome_bind_iff fun _ =>
      isSome_bind_iff fun _ => isSome_bind_iff fun _ => isSome_bind_iff fun _ =>
      isSome_bind_iff fun _ => isSome_bind_iff fun _ => isSome_bind_iff fun _ =>
      isSome_bind_iff fun _ => isSome_bind_iff fun _ => isSome_bind_iff fun _ =>
      isSome_bind_iff fun _ => isSome_bind_iff fun _ => iff_of_true rfl trivial).trans ?_
    simp only [nested_record_isSome_iff Board.fromJson_isSome_iff,
      nested_record_isSome_iff Lane.fromJson_isSome_iff, nested_date_isSome_iff,
      nestedArray_ids_isSome_iff, nestedArray_total, nestedArray_values,
      @nestedArray_isSome_iff _ ParentCard.fromJson, ParentCard.fromJson_isSome_iff]
    simp [Card.dates, Field.date, Field.plain, and_assoc]
  rw [hchain]
  constructor
  · rintro ⟨hboard, hlane, hdates, hparents, hparentIds, hchildrenIds⟩ haborts
    cases haborts with
    | date f hf h => exact hdates f hf h
    | parent l hl v hv f hf h => exact hparents l hl v hv f hf h
    | externalId key hkey h =>
      rcases List.mem_pair.1 hkey with rfl | rfl
      · exact hboard h
      · exact hlane h
    | ids key hkey h =>
      rcases List.mem_pair.1 hkey with rfl | rfl
      · exact hparentIds h
      · exact hchildrenIds h
  · intro h
    refine ⟨?_, ?_, ?_, ?_, ?_, ?_⟩
    · exact fun hbad => h (.externalId _ (by simp) hbad)
    · exact fun hbad => h (.externalId _ (by simp) hbad)
    · exact fun f hf hbad => h (.date f hf hbad)
    · exact fun l hl v hv f hf hbad => h (.parent l hl v hv f hf hbad)
    · exact fun hbad => h (.ids _ (by simp) hbad)
    · exact fun hbad => h (.ids _ (by simp) hbad)

/-! ### What is read -/

/-- The member, or null. -/
def Json.part (j : Json) (key : Str) : Json := (j.present? key).getD .null

/-- The elements of the member; none where it is no array. -/
def Json.parts (j : Json) (key : Str) : List Json := ((j.member? key).bind Json.elements?).getD []

/-- The member where it is an object, or null. -/
def Json.objectPart (j : Json) (key : Str) : Json :=
  match j.member? key with
  | some (.object l) => .object l
  | _ => .null

theorem nested_part {T : Type} {read : Json → Option T} {j : Json} {key : Str} {default r : T}
    (hnull : read .null = some default) (h : nested read j key default = some r) :
    read (j.part key) = some r := by
  unfold nested at h
  unfold Json.part
  cases hv : j.present? key with
  | none =>
    rw [hv] at h
    exact hnull.trans h
  | some v =>
    rw [hv] at h
    exact h

/-- A record that is always read. -/
theorem reads_part {R : Type} {fields : List (Field R)} {read : Json → R}
    (h : ∀ v, ReadsAll fields v (read v)) (j : Json) (key : Str) :
    ReadsAll fields (j.part key) (((j.present? key).map read).getD (read .null)) := by
  unfold Json.part
  cases j.present? key with
  | none => exact h .null
  | some v => exact h v

theorem nestedArray_parts {T : Type} {read : Json → Option T} {j : Json} {key : Str} {l : List T}
    (h : nestedArray read j key = some l) :
    List.Forall₂ (fun v r => read v = some r) (j.parts key) l := by
  unfold nestedArray at h
  unfold Json.parts
  cases hmember : j.member? key with
  | none =>
    rw [hmember] at h
    cases h
    exact .nil
  | some v =>
    rw [hmember] at h
    cases v with
    | array vs => exact mapM_eq_some_iff.1 h
    | _ =>
      cases h
      exact .nil

/-- Every field of the card and of the records in it is what is read of its member.  A record that
is missing is read from null. -/
structure Decoded (j : Json) (card : Card) : Prop where
  fields : ReadsAll (Card.dates ++ Card.fields) j card
  board : ReadsAll Board.fields (j.part (lit "board")) card.board
  column : ReadsAll Column.fields (j.part (lit "column")) card.column
  lane : ReadsAll Lane.fields (j.part (lit "lane")) card.lane
  owner : ReadsAll User.fields (j.part (lit "owner")) card.owner
  cardType : ReadsAll CardType.fields (j.objectPart (lit "type")) card.cardType
  permissions : ReadsAll CardPermissions.fields (j.part (lit "card_permissions"))
    card.permissions
  members : List.Forall₂ (ReadsAll User.fields) (j.parts (lit "members")) card.members
  parents : List.Forall₂ (ReadsAll (ParentCard.dates ++ ParentCard.fields))
    (j.parts (lit "parents")) card.parents
  tags : List.Forall₂ (ReadsAll Tag.fields) (j.parts (lit "tags")) card.tags
  parentIds : List.Forall₂ (fun v n => v.getInt64 = some n) (j.parts (lit "parents_ids"))
    card.parentIds
  childrenIds : List.Forall₂ (fun v n => v.getInt64 = some n) (j.parts (lit "children_ids"))
    card.childrenIds
  externalLinks : card.externalLinks = j.parts (lit "external_links")
  files : card.files = j.parts (lit "files")
  children : card.children = j.parts (lit "children")

theorem nestedArray_values_eq {j : Json} {key : Str} {l : List Json}
    (h : nestedArray some j key = some l) : l = j.parts key := by
  have hparts := nestedArray_parts h
  simp only [Option.some.injEq, List.forall₂_eq_eq_eq] at hparts
  exact hparts.symm

theorem cardTypeMember_eq (j : Json) :
    cardTypeMember j = CardType.fromJson (j.objectPart (lit "type")) := by
  unfold cardTypeMember Json.objectPart
  cases j.member? (lit "type") with
  | none => rfl
  | some v => cases v <;> rfl

/-- What a card that is returned is. -/
theorem Decoded.of_fromJson {j : Json} {card : Card} (h : Card.fromJson j = some card) :
    Decoded j card := by
  obtain ⟨board, hboard, h⟩ := Option.bind_eq_some_iff.1 h
  obtain ⟨lane, hlane, h⟩ := Option.bind_eq_some_iff.1 h
  obtain ⟨created, hcreated, h⟩ := Option.bind_eq_some_iff.1 h
  obtain ⟨updated, hupdated, h⟩ := Option.bind_eq_some_iff.1 h
  obtain ⟨columnChangedAt, hcolumnAt, h⟩ := Option.bind_eq_some_iff.1 h
  obtain ⟨laneChangedAt, hlaneAt, h⟩ := Option.bind_eq_some_iff.1 h
  obtain ⟨lastMovedAt, hmoved, h⟩ := Option.bind_eq_some_iff.1 h
  obtain ⟨lastMovedToDoneAt, hdone, h⟩ := Option.bind_eq_some_iff.1 h
  obtain ⟨firstMovedAt, hfirst, h⟩ := Option.bind_eq_some_iff.1 h
  obtain ⟨completedAt, hcompleted, h⟩ := Option.bind_eq_some_iff.1 h
  obtain ⟨countersAt, hcounters, h⟩ := Option.bind_eq_some_iff.1 h
  obtain ⟨commentAt, hcomment, h⟩ := Option.bind_eq_some_iff.1 h
  obtain ⟨members, hmembers, h⟩ := Option.bind_eq_some_iff.1 h
  obtain ⟨parents, hparents, h⟩ := Option.bind_eq_some_iff.1 h
  obtain ⟨tags, htags, h⟩ := Option.bind_eq_some_iff.1 h
  obtain ⟨parentIds, hparentIds, h⟩ := Option.bind_eq_some_iff.1 h
  obtain ⟨childrenIds, hchildrenIds, h⟩ := Option.bind_eq_some_iff.1 h
  obtain ⟨externalLinks, hlinks, h⟩ := Option.bind_eq_some_iff.1 h
  obtain ⟨files, hfiles, h⟩ := Option.bind_eq_some_iff.1 h
  obtain ⟨children, hchildren, h⟩ := Option.bind_eq_some_iff.1 h
  obtain rfl := Option.some.inj h
  constructor
  case fields =>
    refine List.forall_mem_append.2 ⟨?_, ?_⟩
    · simp only [Card.dates, List.forall_mem_cons]
      exact ⟨Field.reads_of_nested hcreated, Field.reads_of_nested hupdated,
        Field.reads_of_nested hcolumnAt, Field.reads_of_nested hlaneAt,
        Field.reads_of_nested hmoved, Field.reads_of_nested hdone, Field.reads_of_nested hfirst,
        Field.reads_of_nested hcompleted, Field.reads_of_nested hcounters,
        Field.reads_of_nested hcomment, List.forall_mem_nil _⟩
    · simp only [Card.fields, List.forall_mem_cons, Field.reads_int64, Field.reads_text,
        Field.reads_int, Field.reads_flag, Field.reads_optInt64, Field.reads_double,
        Field.reads_optDouble, Field.reads_json, Field.reads_optJson, List.not_mem_nil,
        IsEmpty.forall_iff, implies_true, and_true]
  case board => exact Board.reads (nested_part rfl hboard)
  case lane => exact Lane.reads (nested_part rfl hlane)
  case column => exact reads_part Column.reads j (lit "column")
  case owner => exact reads_part User.reads j (lit "owner")
  case cardType =>
    show ReadsAll CardType.fields _ (cardTypeMember j)
    rw [cardTypeMember_eq]
    exact CardType.reads _
  case permissions => exact reads_part CardPermissions.reads j (lit "card_permissions")
  case members =>
    refine (nestedArray_parts hmembers).imp fun v u hu => ?_
    cases hu
    exact User.reads v
  case parents => exact (nestedArray_parts hparents).imp fun v p hp => ParentCard.reads hp
  case tags =>
    refine (nestedArray_parts htags).imp fun v t ht => ?_
    cases ht
    exact Tag.reads v
  case parentIds => exact nestedArray_parts hparentIds
  case childrenIds => exact nestedArray_parts hchildrenIds
  case externalLinks => exact nestedArray_values_eq hlinks
  case files => exact nestedArray_values_eq hfiles
  case children => exact nestedArray_values_eq hchildren

/-- **The outcome for every value.**  The decoder throws exactly on the members named by `Aborts`.
In every other case it returns a card, in which every field is what is read of its member: a number
also of a string that begins with one, the default where the member is missing, null or of a wrong
type, except that an optional number of a wrong type is set to zero. -/
theorem Card.fromJson_outcome (j : Json) :
    (Card.fromJson j).elim (Aborts j) fun card => ¬ Aborts j ∧ Decoded j card := by
  cases h : Card.fromJson j with
  | none =>
    show Aborts j
    by_contra haborts
    have hsome := Card.fromJson_isSome_iff.2 haborts
    rw [h] at hsome
    cases hsome
  | some card =>
    have hsome : (Card.fromJson j).isSome := by rw [h]; rfl
    exact ⟨Card.fromJson_isSome_iff.1 hsome, .of_fromJson h⟩

/-- A flag where the id of the sprint should be. -/
def flaggedSprint : Json := .object [(lit "sprint_id", .boolean true)]

/-- The id of the sprint is set. -/
theorem flagged_sprint_set : flaggedSprint.present? (lit "sprint_id") = some (.boolean true) ∧
    (Card.fromJson flaggedSprint).map Card.sprintId = some (some 0) ∧
    (Card.sprintId {}) = none := by
  refine ⟨rfl, by decide +kernel, rfl⟩

/-! ### The type of a card -/

/-- The type is the string under `type`, or the name of the object there. -/
structure TypeRead (j : Json) (card : Card) : Prop where
  text : ∀ s, j.member? (lit "type") = some (.string s) → card.type = s
  name : ∀ l n, j.member? (lit "type") = some (.object l) →
    (Json.object l).member? (lit "name") = some (.string n) → card.type = n

/-- The string that is read last is what remains. -/
theorem Card.type_of_fromJson {j : Json} {card : Card} (h : Card.fromJson j = some card) :
    card.type = getOptional Json.getString j (lit "type") [] := by
  unfold Card.fromJson at h
  iterate 20 obtain ⟨_, -, h⟩ := Option.bind_eq_some_iff.1 h
  obtain rfl := Option.some.inj h
  rfl

/-- Of a type that is an object nothing remains. -/
theorem Card.type_of_object {j : Json} {card : Card} (h : Card.fromJson j = some card)
    {l : List (Str × Json)} (hobject : j.member? (lit "type") = some (.object l)) :
    card.type = [] := by
  rw [Card.type_of_fromJson h, getOptional, Json.present?, hobject]
  rfl

/-- **The type of a card** is read in both of its shapes exactly when it is no object with a name
that is not empty. -/
theorem typeRead_iff {j : Json} {card : Card} (h : Card.fromJson j = some card) :
    TypeRead j card ↔ ∀ l n, j.member? (lit "type") = some (.object l) →
      (Json.object l).member? (lit "name") = some (.string n) → n = [] := by
  constructor
  · intro hread l n hobject hname
    rw [← hread.name l n hobject hname, Card.type_of_object h hobject]
  · intro hempty
    constructor
    · intro s hstring
      rw [Card.type_of_fromJson h, getOptional, Json.present?, hstring]
      rfl
    · intro l n hobject hname
      rw [hempty l n hobject hname, Card.type_of_object h hobject]

/-- A type that is a string. -/
def plainType : Json := .object [(lit "type", .string (lit "Bug"))]

theorem plainType_isSome : (Card.fromJson plainType).isSome := by decide +kernel

theorem typeRead_iff_plain :
    TypeRead plainType ((Card.fromJson plainType).get plainType_isSome) := by
  refine (typeRead_iff (Option.some_get _).symm).2 fun l n hobject => ?_
  have hstring : plainType.member? (lit "type") = some (.string (lit "Bug")) := by rfl
  rw [hstring] at hobject
  cases hobject

/-- A type that is an object. -/
def namedType : Json := .object [(lit "type", .object [(lit "name", .string (lit "Bug"))])]

/-- Its name is lost. -/
theorem named_type_lost : ∃ card, Card.fromJson namedType = some card ∧ ¬ TypeRead namedType card ∧
    card.type = [] := by
  have hsome : (Card.fromJson namedType).isSome := by decide +kernel
  obtain ⟨card, hcard⟩ := Option.isSome_iff_exists.1 hsome
  have htype : card.type = [] := Card.type_of_object hcard rfl
  refine ⟨card, hcard, fun hread => ?_, htype⟩
  have hname := hread.name [(lit "name", .string (lit "Bug"))] (lit "Bug") rfl rfl
  rw [htype] at hname
  exact absurd hname (by decide)

end Kaiten

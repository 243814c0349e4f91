import Kunstkammer.Cards.Records
import Kunstkammer.Listing.Pagination

/-!
# Members that are not known

The decoders of `card.hpp` ask for members by name, so that the API may send more of them than the
program knows.

* `Shape`: which members of an object are known, at every depth; `Shape.prune` takes away the
  others;
* `present?_prune` and the lemmas after it: what the readers make of a pruned value;
* `cardShape`, `userShape`, `boardShape`, …: what is known of the records of the API;
* `Card.fromJson_prune`, …: a record is read from what is known of it;
* `unknown_members_ignored`: so are whole pages of them.
-/

namespace Kaiten

/-! ### Shapes -/

/-- What is known of a value: everything, or some members of an object and what is known of these,
or what is known of the elements of an array. -/
inductive Shape
  | whole
  | record (keys : List Str) (member : Str → Shape)
  | list (element : Shape)

namespace Shape

/-- Take away the members that are not known.  A value of another kind stays as it is. -/
def prune : Shape → Json → Json
  | record keys member, .object l =>
      .object ((l.filter fun p => keys.contains p.1).map fun p => (p.1, (member p.1).prune p.2))
  | list element, .array l => .array (l.map element.prune)
  | _, j => j

/-- The object with the members `plain`, of which everything is known, and those of `nested`, which
have a shape of their own. -/
def object (plain : List Str) (nested : List (Str × Shape)) : Shape :=
  record (plain ++ nested.map Prod.fst) fun key => (nested.lookup key).getD whole

@[simp] theorem prune_whole (j : Json) : whole.prune j = j := by
  cases j <;> rfl

theorem prune_eq_null_iff (shape : Shape) (j : Json) : shape.prune j = .null ↔ j = .null := by
  cases shape <;> cases j <;> simp [prune]

theorem getString_prune_record (keys : List Str) (member : Str → Shape) (j : Json) :
    ((record keys member).prune j).getString = j.getString := by
  cases j <;> rfl

/-- A known member is pruned in its turn. -/
theorem member?_prune {keys : List Str} {member : Str → Shape} {key : Str} (h : key ∈ keys)
    (j : Json) :
    ((record keys member).prune j).member? key = (j.member? key).map (member key).prune := by
  cases j with
  | object l =>
    show OrdAssoc.find? key _ = (OrdAssoc.find? key l).map _
    induction l with
    | nil => rfl
    | cons p l ih =>
      by_cases hp : p.1 ∈ keys
      · rw [List.filter_cons_of_pos (by simpa using hp), List.map_cons, OrdAssoc.find?,
          OrdAssoc.find?]
        split_ifs with hk
        · rw [hk, Option.map_some]
        · exact ih
      · have hk : key ≠ p.1 := fun hk => hp (hk ▸ h)
        rw [List.filter_cons_of_neg (by simpa using hp), ih, OrdAssoc.find?, if_neg hk]
  | _ => rfl

end Shape

/-! ### Readers of pruned values -/

section Readers

variable {T : Type*} {plain : List Str} {nested : List (Str × Shape)} {key : Str} {shape : Shape}

/-- A known member that is read as a whole. -/
def ReadWhole (plain : List Str) (nested : List (Str × Shape)) (key : Str) : Prop :=
  key ∈ plain ∧ key ∉ nested.map Prod.fst

instance : Decidable (ReadWhole plain nested key) := inferInstanceAs (Decidable (_ ∧ _))

theorem whole_of_mem (h : key ∈ plain) : ReadWhole plain [] key :=
  ⟨h, List.not_mem_nil⟩

theorem member?_prune_plain (h : ReadWhole plain nested key) (j : Json) :
    ((Shape.object plain nested).prune j).member? key = j.member? key := by
  have hnone : nested.lookup key = none := by
    rw [List.lookup_eq_none_iff]
    rintro p hp
    have hne : key ≠ p.1 := fun he => h.2 (he ▸ List.mem_map_of_mem hp)
    simpa using hne
  have hid : Shape.whole.prune = id := funext Shape.prune_whole
  rw [Shape.object, Shape.member?_prune (List.mem_append_left _ h.1), hnone, Option.getD_none, hid,
    Option.map_id, id]

theorem present?_prune (h : ReadWhole plain nested key) (j : Json) :
    ((Shape.object plain nested).prune j).present? key = j.present? key := by
  rw [Json.present?, Json.present?, member?_prune_plain h]

theorem getOptional_prune (h : ReadWhole plain nested key) (get : Json → Option T) (j : Json)
    (default : T) :
    getOptional get ((Shape.object plain nested).prune j) key default =
      getOptional get j key default := by
  rw [getOptional, getOptional, present?_prune h]

theorem getInt64Optional_prune (h : ReadWhole plain nested key) (j : Json) (default : Int64) :
    getInt64Optional ((Shape.object plain nested).prune j) key default =
      getInt64Optional j key default := by
  rw [getInt64Optional, getInt64Optional, present?_prune h]

theorem getIntOptional_prune (h : ReadWhole plain nested key) (j : Json) (default : Int32) :
    getIntOptional ((Shape.object plain nested).prune j) key default =
      getIntOptional j key default := by
  rw [getIntOptional, getIntOptional, present?_prune h]

theorem getDoubleOptional_prune (h : ReadWhole plain nested key) (j : Json) (default : Double) :
    getDoubleOptional ((Shape.object plain nested).prune j) key default =
      getDoubleOptional j key default := by
  rw [getDoubleOptional, getDoubleOptional, present?_prune h]

theorem nested_prune (h : ReadWhole plain nested key) (read : Json → Option T) (j : Json)
    (default : T) :
    Kaiten.nested read ((Shape.object plain nested).prune j) key default =
      Kaiten.nested read j key default := by
  rw [Kaiten.nested, Kaiten.nested, present?_prune h]

theorem nestedArray_prune (h : ReadWhole plain nested key) (read : Json → Option T) (j : Json) :
    nestedArray read ((Shape.object plain nested).prune j) key = nestedArray read j key := by
  rw [nestedArray, nestedArray, member?_prune_plain h]

/-! ### Members with a shape of their own -/

theorem member?_prune_shaped (hshape : nested.lookup key = some shape) (j : Json) :
    ((Shape.object plain nested).prune j).member? key = (j.member? key).map shape.prune := by
  obtain ⟨l, r, hl, -⟩ := List.lookup_eq_some_iff.1 hshape
  have h : key ∈ plain ++ nested.map Prod.fst := by
    rw [hl]
    simp
  rw [Shape.object, Shape.member?_prune h, hshape, Option.getD_some]

theorem present?_prune_shaped (hshape : nested.lookup key = some shape) (j : Json) :
    ((Shape.object plain nested).prune j).present? key = (j.present? key).map shape.prune := by
  rw [Json.present?, Json.present?, member?_prune_shaped hshape]
  cases hmember : j.member? key with
  | none => rfl
  | some v =>
    by_cases hnull : v = .null
    · subst hnull
      rw [Option.map_some, (shape.prune_eq_null_iff _).2 rfl]
      rfl
    · have hpruned : shape.prune v ≠ .null := mt (shape.prune_eq_null_iff v).1 hnull
      rw [Option.map_some]
      split
      · rename_i heq
        exact absurd (Option.some.inj heq) hpruned
      · split
        · rename_i heq
          exact absurd (Option.some.inj heq) hnull
        · rfl

/-- A member whose reader does not need the members that are taken away. -/
theorem nested_prune_shaped (hshape : nested.lookup key = some shape) {read : Json → Option T}
    (hread : ∀ v, read (shape.prune v) = read v) (j : Json) (default : T) :
    Kaiten.nested read ((Shape.object plain nested).prune j) key default =
      Kaiten.nested read j key default := by
  rw [Kaiten.nested, Kaiten.nested, present?_prune_shaped hshape]
  cases j.present? key with
  | none => rfl
  | some v => exact hread v

theorem map_present?_prune_shaped (hshape : nested.lookup key = some shape) {read : Json → T}
    (hread : ∀ v, read (shape.prune v) = read v) (j : Json) :
    (((Shape.object plain nested).prune j).present? key).map read = (j.present? key).map read := by
  rw [present?_prune_shaped hshape, Option.map_map]
  exact congrArg (fun f => (j.present? key).map f) (funext hread)

theorem mapM_prune {read : Json → Option T} (hread : ∀ v, read (shape.prune v) = read v)
    (l : List Json) : (l.map shape.prune).mapM read = l.mapM read := by
  rw [List.mapM_map]
  exact congrArg (fun f => l.mapM f) (funext hread)

theorem nestedArray_prune_shaped (hshape : nested.lookup key = some (.list shape))
    {read : Json → Option T} (hread : ∀ v, read (shape.prune v) = read v) (j : Json) :
    nestedArray read ((Shape.object plain nested).prune j) key = nestedArray read j key := by
  rw [nestedArray, nestedArray, member?_prune_shaped hshape]
  cases j.member? key with
  | none => rfl
  | some v =>
    cases v with
    | array l => exact mapM_prune hread l
    | _ => rfl

end Readers

/-! ### The records of the API -/

/-- The members that are read of a user. -/
def userKeys : List Str :=
  [lit "id", lit "uid", lit "full_name", lit "email", lit "username", lit "avatar_type",
    lit "avatar_uploaded_url", lit "avatar_initials_url", lit "theme", lit "lng", lit "timezone",
    lit "ui_version", lit "activated", lit "virtual", lit "card_id", lit "type"]

/-- The members that are read of a board. -/
def boardKeys : List Str :=
  [lit "external_id", lit "id", lit "title"]

/-- The members that are read of a column. -/
def columnKeys : List Str :=
  [lit "id", lit "title", lit "uid", lit "board_id", lit "type", lit "sort_order",
    lit "col_count", lit "rules", lit "pause_sla", lit "column_id"]

/-- The members that are read of a lane. -/
def laneKeys : List Str :=
  [lit "external_id", lit "id", lit "title", lit "board_id", lit "condition", lit "sort_order",
    lit "default_card_type_id"]

/-- The members that are read of the type of a card. -/
def cardTypeKeys : List Str :=
  [lit "id", lit "name", lit "letter", lit "color", lit "archived", lit "company_id",
    lit "properties"]

/-- The members that are read of a tag. -/
def tagKeys : List Str :=
  [lit "id", lit "tag_id", lit "card_id", lit "name", lit "color"]

/-- The members that are read of the permissions. -/
def permissionKeys : List Str :=
  [lit "comment", lit "create", lit "delete", lit "move", lit "properties", lit "read",
    lit "read_own", lit "update"]

/-- The members that are read of a parent. -/
def parentCardKeys : List Str :=
  [lit "created", lit "updated", lit "column_changed_at", lit "lane_changed_at",
    lit "last_moved_at", lit "last_moved_to_done_at", lit "id", lit "card_id", lit "title",
    lit "number", lit "archived", lit "asap", lit "blocked", lit "blocking_card", lit "board_id",
    lit "column_id", lit "lane_id", lit "state", lit "size", lit "children_count",
    lit "children_done", lit "owner_id", lit "children_ids", lit "children_number_properties_sum"]

/-- The members of a card that are read as a whole. -/
def cardKeys : List Str :=
  [lit "created", lit "updated", lit "column_changed_at", lit "lane_changed_at",
    lit "last_moved_at", lit "last_moved_to_done_at", lit "first_moved_to_in_progress_at",
    lit "completed_at", lit "counters_recalculated_at", lit "comment_last_added_at",
    lit "parents_ids", lit "children_ids", lit "external_links", lit "files", lit "children",
    lit "id", lit "number", lit "title", lit "uid", lit "version", lit "archived", lit "asap",
    lit "blocked", lit "blocking_card", lit "description_filled", lit "due_date_time_present",
    lit "expires_later", lit "has_access_to_space", lit "has_blocked_children", lit "locked",
    lit "public", lit "sd_new_comment", lit "board_id", lit "column_id", lit "lane_id",
    lit "owner_id", lit "type_id", lit "space_id", lit "sprint_id", lit "service_id",
    lit "depends_on_card_id", lit "import_id", lit "description", lit "state", lit "source",
    lit "email", lit "size_text", lit "size_unit", lit "share_id", lit "fts_version", lit "size",
    lit "condition", lit "cardRole", lit "comments_total", lit "children_count",
    lit "children_done", lit "goals_done", lit "goals_total", lit "estimate_workload",
    lit "time_spent_sum", lit "time_blocked_sum", lit "sort_order", lit "fifo_order",
    lit "properties", lit "share_settings", lit "children_number_properties_sum",
    lit "parent_checklist_ids", lit "external_id", lit "external_user_emails",
    lit "calculated_planned_end", lit "calculated_planned_start", lit "planned_end",
    lit "planned_start", lit "completed_on_time"]

/-- What is known of a user. -/
def userShape : Shape := .object userKeys []

/-- What is known of a board. -/
def boardShape : Shape := .object boardKeys []

/-- What is known of a column. -/
def columnShape : Shape := .object columnKeys []

/-- What is known of a lane. -/
def laneShape : Shape := .object laneKeys []

/-- What is known of the type of a card. -/
def cardTypeShape : Shape := .object cardTypeKeys []

/-- What is known of a tag. -/
def tagShape : Shape := .object tagKeys []

/-- What is known of the permissions. -/
def permissionShape : Shape := .object permissionKeys []

/-- What is known of a parent. -/
def parentCardShape : Shape := .object parentCardKeys []

/-- The members of a card of which not everything is known. -/
def cardNested : List (Str × Shape) :=
  [(lit "board", boardShape), (lit "column", columnShape), (lit "lane", laneShape),
    (lit "owner", userShape), (lit "type", cardTypeShape),
    (lit "card_permissions", permissionShape), (lit "members", .list userShape),
    (lit "parents", .list parentCardShape), (lit "tags", .list tagShape)]

/-- What is known of a card. -/
def cardShape : Shape := .object cardKeys cardNested

/-! ### The decoders -/

theorem User.fromJson_prune (j : Json) : User.fromJson (userShape.prune j) = User.fromJson j := by
  unfold User.fromJson userShape
  simp (disch := exact whole_of_mem (by simp only [userKeys, List.mem_cons, true_or, or_true]))
    only [getInt64Optional_prune, getOptional_prune, getIntOptional_prune, present?_prune]

theorem some_userFromJson_prune (j : Json) :
    some (User.fromJson (userShape.prune j)) = some (User.fromJson j) :=
  congrArg some (User.fromJson_prune j)

theorem Board.fromJson_prune (j : Json) :
    Board.fromJson (boardShape.prune j) = Board.fromJson j := by
  unfold Board.fromJson boardShape
  simp (disch := exact whole_of_mem (by simp only [boardKeys, List.mem_cons, true_or, or_true]))
    only [getInt64Optional_prune, getOptional_prune, nested_prune]

theorem Column.fromJson_prune (j : Json) :
    Column.fromJson (columnShape.prune j) = Column.fromJson j := by
  unfold Column.fromJson columnShape
  simp (disch := exact whole_of_mem (by simp only [columnKeys, List.mem_cons, true_or, or_true]))
    only [getInt64Optional_prune, getOptional_prune, getIntOptional_prune, present?_prune]

theorem Lane.fromJson_prune (j : Json) : Lane.fromJson (laneShape.prune j) = Lane.fromJson j := by
  unfold Lane.fromJson laneShape
  simp (disch := exact whole_of_mem (by simp only [laneKeys, List.mem_cons, true_or, or_true]))
    only [getInt64Optional_prune, getOptional_prune, getIntOptional_prune, nested_prune,
      present?_prune]

theorem CardType.fromJson_prune (j : Json) :
    CardType.fromJson (cardTypeShape.prune j) = CardType.fromJson j := by
  unfold CardType.fromJson cardTypeShape
  simp (disch := exact whole_of_mem (by simp only [cardTypeKeys, List.mem_cons, true_or, or_true]))
    only [getInt64Optional_prune, getOptional_prune, getIntOptional_prune, present?_prune]

theorem Tag.fromJson_prune (j : Json) : Tag.fromJson (tagShape.prune j) = Tag.fromJson j := by
  unfold Tag.fromJson tagShape
  simp (disch := exact whole_of_mem (by simp only [tagKeys, List.mem_cons, true_or, or_true]))
    only [getInt64Optional_prune, getOptional_prune, getIntOptional_prune, present?_prune]

theorem CardPermissions.fromJson_prune (j : Json) :
    CardPermissions.fromJson (permissionShape.prune j) = CardPermissions.fromJson j := by
  unfold CardPermissions.fromJson permissionShape
  simp (disch := exact whole_of_mem (by
      simp only [permissionKeys, List.mem_cons, true_or, or_true]))
    only [getOptional_prune]

theorem ParentCard.fromJson_prune (j : Json) :
    ParentCard.fromJson (parentCardShape.prune j) = ParentCard.fromJson j := by
  unfold ParentCard.fromJson parentCardShape
  simp (disch := exact whole_of_mem (by
      simp only [parentCardKeys, List.mem_cons, true_or, or_true]))
    only [getInt64Optional_prune, getOptional_prune, getIntOptional_prune, nested_prune,
      present?_prune]

/-- The type of a card is read from an object. -/
theorem cardTypeMember_prune (j : Json) :
    cardTypeMember (cardShape.prune j) = cardTypeMember j := by
  have hshape : cardNested.lookup (lit "type") = some cardTypeShape := rfl
  rw [cardTypeMember, cardTypeMember, cardShape, member?_prune_shaped hshape]
  cases j.member? (lit "type") with
  | none => rfl
  | some v =>
    cases v with
    | object l => exact CardType.fromJson_prune (.object l)
    | _ => rfl

/-- Its name is read from a string. -/
theorem typeName_prune (j : Json) :
    getOptional Json.getString (cardShape.prune j) (lit "type") [] =
      getOptional Json.getString j (lit "type") [] := by
  have hshape : cardNested.lookup (lit "type") = some cardTypeShape := rfl
  rw [getOptional, getOptional, cardShape, present?_prune_shaped hshape]
  cases j.present? (lit "type") with
  | none => rfl
  | some v =>
    exact congrArg (fun o => o.getD []) (Shape.getString_prune_record _ _ v)

/-- **A card is read from what is known of it.** -/
theorem Card.fromJson_prune (j : Json) : Card.fromJson (cardShape.prune j) = Card.fromJson j := by
  have hplain : ∀ key ∈ cardKeys, ReadWhole cardKeys cardNested key := by decide +kernel
  -- the members with a shape of their own
  have hboard : nested Board.fromJson (cardShape.prune j) (lit "board") {} =
      nested Board.fromJson j (lit "board") {} :=
    nested_prune_shaped rfl Board.fromJson_prune j {}
  have hlane : nested Lane.fromJson (cardShape.prune j) (lit "lane") {} =
      nested Lane.fromJson j (lit "lane") {} :=
    nested_prune_shaped rfl Lane.fromJson_prune j {}
  have hcolumn : ((cardShape.prune j).present? (lit "column")).map Column.fromJson =
      (j.present? (lit "column")).map Column.fromJson :=
    map_present?_prune_shaped rfl Column.fromJson_prune j
  have howner : ((cardShape.prune j).present? (lit "owner")).map User.fromJson =
      (j.present? (lit "owner")).map User.fromJson :=
    map_present?_prune_shaped rfl User.fromJson_prune j
  have hpermissions : ((cardShape.prune j).present? (lit "card_permissions")).map
      CardPermissions.fromJson = (j.present? (lit "card_permissions")).map
        CardPermissions.fromJson :=
    map_present?_prune_shaped rfl CardPermissions.fromJson_prune j
  have hmembers : nestedArray (fun v => some (User.fromJson v)) (cardShape.prune j)
      (lit "members") = nestedArray (fun v => some (User.fromJson v)) j (lit "members") :=
    nestedArray_prune_shaped rfl some_userFromJson_prune j
  have hparents : nestedArray ParentCard.fromJson (cardShape.prune j) (lit "parents") =
      nestedArray ParentCard.fromJson j (lit "parents") :=
    nestedArray_prune_shaped rfl ParentCard.fromJson_prune j
  have htag (v : Json) : some (Tag.fromJson (tagShape.prune v)) = some (Tag.fromJson v) :=
    congrArg some (Tag.fromJson_prune v)
  have htags : nestedArray (fun v => some (Tag.fromJson v)) (cardShape.prune j) (lit "tags") =
      nestedArray (fun v => some (Tag.fromJson v)) j (lit "tags") :=
    nestedArray_prune_shaped rfl htag j
  have htype := cardTypeMember_prune j
  have htypeName := typeName_prune j
  unfold Card.fromJson
  simp only [hboard, hlane, hcolumn, howner, hpermissions, hmembers, hparents, htags, htype,
    htypeName]
  -- all others are read as a whole
  unfold cardShape
  simp (disch := exact hplain _ (by simp only [cardKeys, List.mem_cons, true_or, or_true]))
    only [getInt64Optional_prune, getOptional_prune, getIntOptional_prune,
      getDoubleOptional_prune, nested_prune, nestedArray_prune, present?_prune]

/-! ### Pages -/

variable {Text : Type} (json : Nlohmann Text)

/-- Two responses say the same as far as it is known what they say. -/
structure SameKnown (shape : Shape) (r r' : ℤ × Text) : Prop where
  status : r.1 = r'.1
  body : (json.parse r.2).map (Shape.list shape).prune =
    (json.parse r'.2).map (Shape.list shape).prune

variable {json}

theorem decodeItems_congr {α : Type*} {shape : Shape} {fromJson : Json → Option α}
    (hread : ∀ v, fromJson (shape.prune v) = fromJson v) {r r' : ℤ × Text}
    (h : SameKnown json shape r r') :
    decodeItems json fromJson r = decodeItems json fromJson r' := by
  have helements : ∀ o : Option Json, (o.bind fun j => j.elements?.bind fun l =>
      l.mapM fromJson) = (o.map (Shape.list shape).prune).bind fun j =>
        j.elements?.bind fun l => l.mapM fromJson := by
    intro o
    cases o with
    | none => rfl
    | some j =>
      cases j with
      | array l => exact (mapM_prune hread l).symm
      | _ => rfl
  unfold decodeItems
  rw [h.status, helements, h.body, ← helements]

/-- **Members that are not known are ignored.**  Whatever members the API adds to the records of a
page, at whatever depth, and whatever it says of those it does not know, the page is the same. -/
theorem unknown_members_ignored (r r' : ℤ × Text) :
    (SameKnown json cardShape r r' →
      decodeItems json Card.fromJson r = decodeItems json Card.fromJson r') ∧
    (SameKnown json userShape r r' →
      decodeItems json (fun v => some (User.fromJson v)) r =
        decodeItems json (fun v => some (User.fromJson v)) r') ∧
    (SameKnown json boardShape r r' →
      decodeItems json Board.fromJson r = decodeItems json Board.fromJson r') :=
  ⟨decodeItems_congr Card.fromJson_prune,
    decodeItems_congr some_userFromJson_prune,
    decodeItems_congr Board.fromJson_prune⟩

/-- A page with one card; the API has added a member to the card and one to its owner. -/
def pageWith (added : List (Str × Json)) : Json :=
  .array [.object
    ([(lit "id", .integer 5), (lit "owner", .object ((lit "id", .integer 7) :: added))] ++ added)]

theorem unknown_members_ignored_avatar :
    decodeItems .symbolic Card.fromJson (200, some (pageWith [])) =
      decodeItems .symbolic Card.fromJson (200, some (pageWith [(lit "avatar", .null)])) := by
  refine (unknown_members_ignored (200, some (pageWith []))
    (200, some (pageWith [(lit "avatar", .null)]))).1 ⟨rfl, ?_⟩
  rfl

end Kaiten

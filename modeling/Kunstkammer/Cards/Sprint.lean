import Kunstkammer.Cards.Modes

/-!
# The sprint of the parent

The property `id_12` of the parent travels from JSON to text, from text to a property and back to
JSON.

* `numericValue`: the number a text denotes as a whole;
* `Inherited v p`: `p` is what a child of a parent with the value `v` is to be posted with;
* `SprintKept v`: the condition under which it is;
* `postedSprint`: what a child is posted with, kind by kind of the value of the parent;
* `HasSprint p payload`: a card is created with the sprint `p`;
* `sprint_inherited_iff`: of every card created below a parent.
-/

namespace Kaiten

/-! ### What is to be posted -/

/-- The digits at the front as a fraction of the last place: their number and how many they are. -/
def scanFraction (s : Str) : ℚ × ℕ × Str :=
  let (digits, rest) := Decimal.scan s
  (Decimal.eval digits / 10 ^ digits.length, digits.length, rest)

/-- A power of ten, `e` and an integer with an optional sign, if there is one. -/
def scanExponent (s : Str) : ℚ × Str :=
  match s with
  | b :: rest =>
      if b = 101 ∨ b = 69 then
        let negative : Bool := rest.head? = some 45
        let rest := if rest.head? = some 45 ∨ rest.head? = some 43 then rest.tail else rest
        let (digits, after) := Decimal.scan rest
        if digits = [] then (1, s)
        else if negative then ((10 ^ Decimal.eval digits)⁻¹, after)
        else (10 ^ Decimal.eval digits, after)
      else (1, s)
  | [] => (1, s)

/-- The number a text denotes as a whole: a decimal numeral, with blanks in front of it. -/
def numericValue (s : Str) : Option ℚ :=
  let s := s.dropWhile isSpace
  let negative : Bool := s.head? = some 45
  let s := if s.head? = some 45 ∨ s.head? = some 43 then s.tail else s
  let (digits, s) := Decimal.scan s
  let (fraction, places, s) := if s.head? = some 46 then scanFraction s.tail else (0, 0, s)
  let (power, s) := scanExponent s
  let value := (Decimal.eval digits + fraction) * power
  if (digits = [] ∧ places = 0) ∨ s ≠ [] then none else some (if negative then -value else value)

/-- What a child is to be posted with: the value of the parent, a numeric text possibly as the
number it denotes, and null where the parent has none. -/
inductive Inherited : Option Json → Json → Prop
  | absent : Inherited none .null
  | same (v : Json) : Inherited (some v) v
  | float (n : ℤ) : Inherited (some (.float n)) (.integer n)
  | numeric (s : Str) (n : ℤ) (h : numericValue s = some n) :
      Inherited (some (.string s)) (.integer n)

/-- An `int`. -/
def IsInt (n : ℤ) : Prop := -2 ^ 31 ≤ n ∧ n < 2 ^ 31

instance instDecidableIsInt (n : ℤ) : Decidable (IsInt n) := inferInstanceAs (Decidable (_ ∧ _))

/-- The values that reach the children: integers that fit `int`, fractions of that kind with
nothing behind the point, and texts that are not empty and, if they begin with an `int`, denote it
as a whole; or no value at all. -/
def SprintKept : Option Json → Prop
  | none => True
  | some (.integer n) => IsInt n
  | some (.float x) => ∃ n : ℤ, x = n ∧ IsInt n
  | some (.string s) => s ≠ [] ∧ ∀ n, stoi s = some n → numericValue s = some (n.toInt : ℚ)
  | some _ => False

/-! ### The property of the new card -/

/-- A property of a card. -/
def SimpleCard.property (key : Str) (card : SimpleCard) : Option PropertyValue :=
  OrdAssoc.find? key card.properties.items

theorem property_setProperty_self (key : Str) (value : PropertyValue) (card : SimpleCard) :
    (card.setProperty key value).property key = some value :=
  OrdAssoc.find?_insert_self _ _ _

theorem property_setProperty_of_ne {key other : Str} (h : key ≠ other) (value : PropertyValue)
    (card : SimpleCard) : (card.setProperty other value).property key = card.property key :=
  OrdAssoc.find?_insert_of_ne h _ _

theorem sprint_ne_role : sprintNumberProperty ≠ roleIdProperty := by decide

/-- The base card has the sprint it is given. -/
theorem property_createBaseCard (config : Config) (sprintNumber role : Str) :
    (createBaseCardFromConfig config sprintNumber role).property sprintNumberProperty =
      some (sprintProperty sprintNumber) := by
  unfold createBaseCardFromConfig
  dsimp only
  split_ifs
  · rw [SimpleCard.setRoleId, property_setProperty_of_ne sprint_ne_role,
      property_setProperty_self]
  · exact property_setProperty_self _ _ _

theorem properties_entryBase (config : Config) (sprintNumber role : Str) (entry : Json) :
    (entryBase config sprintNumber role entry).properties =
      (createBaseCardFromConfig config sprintNumber role).properties := by
  unfold entryBase
  dsimp only
  split <;> rfl

theorem properties_desiredCard (config : Config) (sprintNumber title : Str) (size : Int32)
    (tags : List Str) (userId : Int64) :
    (desiredCard config sprintNumber title size tags userId).properties =
      (createBaseCardFromConfig config sprintNumber config.role).properties := by
  unfold desiredCard
  dsimp only
  split_ifs <;> rfl

/-- A property of the payload. -/
def payloadProperty (key : Str) (payload : Json) : Option Json :=
  (payload.member? (lit "properties")).bind (Json.member? key)

/-- The payload before its properties are set. -/
theorem exists_payload_eq {card : SimpleCard} (h : card.properties.items ≠ []) :
    ∃ l, card.payload = (Json.object l).set (lit "properties") card.propertiesJson := by
  have hset (c : Prop) [Decidable c] (l : List (Str × Json)) (key : Str) (v : Json) :
      ∃ l', (if c then (Json.object l).set key v else Json.object l) = Json.object l' := by
    split_ifs
    · exact ⟨_, rfl⟩
    · exact ⟨l, rfl⟩
  unfold SimpleCard.payload
  dsimp only
  rw [if_pos h, Json.ofPairs_eq]
  obtain ⟨l1, h1⟩ := hset (card.typeId > 0) _ (lit "type_id") (.integer card.typeId.toInt)
  obtain ⟨l2, h2⟩ := hset (card.responsibleId > 0) l1 (lit "responsible_id")
    (.integer card.responsibleId.toInt)
  obtain ⟨l3, h3⟩ := hset (card.size ≠ 0) l2 (lit "size_text")
    (.string (intToString card.size.toInt ++ lit " ч"))
  rw [h1, h2, h3]
  exact ⟨l3, rfl⟩

theorem payloadProperty_payload {card : SimpleCard} {key : Str} {value : PropertyValue}
    (h : card.property key = some value) :
    payloadProperty key card.payload = some (propertyValueToJson value) := by
  have hne : card.properties.items ≠ [] := by
    intro hnil
    rw [SimpleCard.property, hnil] at h
    cases h
  have hjson : card.propertiesJson =
      .object (card.properties.items.map fun p => (p.1, propertyValueToJson p.2)) :=
    Json.ofPairs_sorted (card.properties.sorted.map propertyValueToJson)
  obtain ⟨l, hl⟩ := exists_payload_eq hne
  rw [payloadProperty, hl, Json.member?_set_self, Option.bind_some, hjson, Json.member?,
    OrdAssoc.find?_map, ← SimpleCard.property, h, Option.map_some]

/-! ### The value of the parent as text -/

section Parent

variable {Text : Type} (json : NlohmannText Text)

/-- The text of a value of the parent: empty where there is none, or `dump` throws. -/
def inheritedText (v : Option Json) : Str := (v.bind (propertyText json)).getD []

/-- The value a child is posted with. -/
def postedSprint (v : Option Json) : Json :=
  propertyValueToJson (sprintProperty (inheritedText json v))

theorem postedSprint_of_nil {v : Option Json} (h : inheritedText json v = []) :
    postedSprint json v = .null := by
  rw [postedSprint, h]
  rfl

/-- A text that begins with a number: the number if it is an `int`, else the text. -/
theorem postedSprint_of_readInteger {v : Option Json} {n : ℤ} {rest : Str}
    (h : readInteger (inheritedText json v) = some (n, rest)) :
    postedSprint json v = if IsInt n then .integer n else .string (inheritedText json v) := by
  have hne : inheritedText json v ≠ [] := by
    intro hnil
    rw [hnil] at h
    cases h
  have hstoi : stoi (inheritedText json v) = if IsInt n then some (Int32.ofInt n) else none := by
    rw [stoi, h]
    rfl
  rw [postedSprint, sprintProperty, if_pos hne, hstoi]
  split_ifs with hint
  · exact congrArg Json.integer (Int32.toInt_ofInt_of_le hint.1 hint.2)
  · rfl

/-- A text that begins with no number. -/
theorem postedSprint_of_text {v : Option Json} (hne : inheritedText json v ≠ [])
    (h : stoi (inheritedText json v) = none) :
    postedSprint json v = .string (inheritedText json v) := by
  rw [postedSprint, sprintProperty, if_pos hne, h]
  rfl

/-- What is posted is null, an integer or a text. -/
theorem postedSprint_cases (v : Option Json) :
    postedSprint json v = .null ∨ (∃ n, postedSprint json v = .integer n) ∨
      ∃ s, postedSprint json v = .string s := by
  unfold postedSprint sprintProperty
  split_ifs
  · cases stoi (inheritedText json v) with
    | some n => exact Or.inr (Or.inl ⟨_, rfl⟩)
    | none => exact Or.inr (Or.inr ⟨_, rfl⟩)
  · exact Or.inl rfl

/-! ### Kind by kind -/

theorem inherited_integer_iff (n : ℤ) :
    Inherited (some (.integer n)) (postedSprint json (some (.integer n))) ↔ IsInt n := by
  have htext : inheritedText json (some (.integer n)) = intToString (Int64.ofInt n).toInt := rfl
  have hread : readInteger (inheritedText json (some (.integer n))) =
      some ((Int64.ofInt n).toInt, []) := by
    rw [htext, readInteger_intToString_self]
  rw [postedSprint_of_readInteger json hread]
  constructor
  · intro h
    split_ifs at h with hint
    · generalize (Int64.ofInt n).toInt = m at h hint
      cases h
      exact hint
    · cases h
  · intro h
    have hint : (Int64.ofInt n).toInt = n :=
      Int64.toInt_ofInt_of_le (by have := h.1; omega) (by have := h.2; omega)
    rw [hint, if_pos h]
    exact .same _

theorem inherited_float_iff (x : ℚ) :
    Inherited (some (.float x)) (postedSprint json (some (.float x))) ↔
      ∃ n : ℤ, x = n ∧ IsInt n := by
  have hposted (n : ℤ) : postedSprint json (some (.float n)) =
      if IsInt n then .integer n else .string (inheritedText json (some (.float n))) := by
    obtain ⟨rest, hread⟩ := readInteger_doubleToString_intCast n
    have htext : inheritedText json (some (.float n)) = doubleToString n := rfl
    exact postedSprint_of_readInteger json (htext ▸ hread)
  constructor
  · intro h
    generalize hp : postedSprint json (some (.float x)) = p at h
    cases h with
    | same =>
      obtain h | ⟨n, h⟩ | ⟨s, h⟩ := postedSprint_cases json (some (.float x))
      · rw [h] at hp
        cases hp
      · rw [h] at hp
        cases hp
      · rw [h] at hp
        cases hp
    | float n =>
      refine ⟨n, rfl, ?_⟩
      rw [hposted] at hp
      split_ifs at hp with hint
      exact hint
  · rintro ⟨n, rfl, hint⟩
    rw [hposted, if_pos hint]
    exact .float n

theorem inherited_string_iff (s : Str) :
    Inherited (some (.string s)) (postedSprint json (some (.string s))) ↔
      s ≠ [] ∧ ∀ n, stoi s = some n → numericValue s = some (n.toInt : ℚ) := by
  have htext : inheritedText json (some (.string s)) = s := rfl
  by_cases hnil : s = []
  · rw [postedSprint_of_nil json (htext.trans hnil)]
    constructor
    · rintro ⟨⟩
    · exact fun h => absurd hnil h.1
  cases hstoi : stoi s with
  | none =>
    rw [postedSprint_of_text json (htext ▸ hnil) (htext ▸ hstoi)]
    exact ⟨fun _ => ⟨hnil, by simp⟩, fun _ => .same _⟩
  | some n =>
    have hposted : postedSprint json (some (.string s)) = .integer n.toInt := by
      rw [postedSprint, htext, sprintProperty, if_pos hnil, hstoi]
      rfl
    rw [hposted]
    constructor
    · intro h
      cases h with
      | numeric _ _ h => exact ⟨hnil, by rintro _ ⟨⟩; exact h⟩
    · exact fun h => .numeric s n.toInt (h.2 n rfl)

/-- Null arrives as a text. -/
theorem postedSprint_null : postedSprint json (some .null) = .string (lit "null") := by
  obtain ⟨text, htext⟩ := Option.isSome_iff_exists.1 (json.dump_isSome .null)
  have hinherited : inheritedText json (some .null) = lit "null" := by
    show ((json.dump .null).map json.bytes).getD [] = lit "null"
    rw [htext, Option.map_some, Option.getD_some, json.bytes_null text htext]
  rw [postedSprint_of_text json (hinherited ▸ by decide) (hinherited ▸ by decide), hinherited]

/-- Neither null nor what is printed as true or false, an array or an object arrives. -/
theorem not_inherited_of_not_scalar {v : Json} (hv : v = .null ∨ (∃ b, v = .boolean b) ∨
    (∃ l, v = .array l) ∨ ∃ l, v = .object l) :
    ¬ Inherited (some v) (postedSprint json (some v)) := by
  have hsame : postedSprint json (some v) ≠ v := by
    intro hsame
    obtain rfl | hv := hv
    · rw [postedSprint_null] at hsame
      cases hsame
    · obtain h | ⟨n, h⟩ | ⟨s, h⟩ := postedSprint_cases json (some v)
      all_goals
        rw [← hsame, h] at hv
        simp at hv
  generalize postedSprint json (some v) = p at hsame
  rintro h
  cases h with
  | same => exact hsame rfl
  | float => simp at hv
  | numeric => simp at hv

/-- **What arrives is what is to be posted** exactly for the values that are kept. -/
theorem inherited_postedSprint_iff (v : Option Json) :
    Inherited v (postedSprint json v) ↔ SprintKept v := by
  cases v with
  | none =>
    rw [postedSprint_of_nil json rfl]
    exact ⟨fun _ => trivial, fun _ => .absent⟩
  | some v =>
    cases v with
    | integer n => exact inherited_integer_iff json n
    | float x => exact inherited_float_iff json x
    | string s => exact inherited_string_iff json s
    | null => exact iff_of_false (not_inherited_of_not_scalar json (by simp)) id
    | boolean b => exact iff_of_false (not_inherited_of_not_scalar json (by simp)) id
    | array l => exact iff_of_false (not_inherited_of_not_scalar json (by simp)) id
    | object l => exact iff_of_false (not_inherited_of_not_scalar json (by simp)) id

end Parent

/-! ### The run below a parent -/

section Creations

variable {σ Text : Type} {json : NlohmannText Text} {server : Server σ Text} {apiPath : Str}

/-- The new card has the sprint `p`. -/
def HasSprint (p payload : Json) : Prop := payloadProperty sprintNumberProperty payload = some p

/-- The properties of the card are an object of names and values. -/
def HasFlatProperties (card : Card) (props : List (Str × Json)) : Prop :=
  card.properties = .object props ∧
    ∀ l, OrdAssoc.find? (lit "properties") props ≠ some (.array l)

theorem findPropertyValue_of_flat {card : Card} {props : List (Str × Json)}
    (h : HasFlatProperties card props) :
    (findPropertyValueByName json card sprintNumberProperty).join.getD [] =
      inheritedText json (OrdAssoc.find? sprintNumberProperty props) := by
  have hname : sprintNumberProperty ≠ [] := by decide
  unfold findPropertyValueByName
  rw [h.1]
  dsimp only [Json.member?]
  rw [if_neg hname]
  split
  · exact absurd ‹_› (h.2 _)
  · cases OrdAssoc.find? sprintNumberProperty props with
    | none => rfl
    | some v =>
      rw [inheritedText, Option.bind_some]
      dsimp only
      cases propertyText json v with
      | none => rfl
      | some text => rfl

theorem sprint_readParentInfo {card : Card} {props : List (Str × Json)}
    (h : HasFlatProperties card props) : (readParentInfo json card {}).2.sprintNumber =
      inheritedText json (OrdAssoc.find? sprintNumberProperty props) := by
  rw [← findPropertyValue_of_flat h]
  unfold readParentInfo
  cases findPropertyValueByName json card sprintNumberProperty with
  | none => rfl
  | some sprint =>
    have hjoin : (some sprint).join.getD [] = sprint.getD [] := rfl
    rw [hjoin]
    dsimp only
    split_ifs
    · rfl
    · split
      · rfl
      · rfl

theorem fetchParentCardInfo_of_found {parent : Str} {id : Int64} (hparent : stoll parent = some id)
    (hid : 0 < id) {card : Card} {w t : World σ Text}
    (hget : getCard json server apiPath (intToString id.toInt) w = .ok (200, card) t) :
    fetchParentCardInfo json server apiPath parent {} w = .ok (readParentInfo json card {}) t := by
  have hne : parent ≠ [] := by
    rintro rfl
    cases hparent
  unfold fetchParentCardInfo
  rw [if_neg hne, hparent]
  dsimp only
  rw [if_neg (Int64.not_le.2 hid), Effects.bind_ok hget]
  rfl

theorem entryFields_parent {config : Config} {entry : Json} {fields : EntryFields} {parent : Str}
    (hfields : entryFields config entry = some fields)
    (hparent : entry.member? (lit "parent") = some (.string parent)) : fields.parent = parent := by
  simp only [entryFields, Option.bind_eq_bind, Option.bind_eq_some_iff, Option.some.injEq]
    at hfields
  obtain ⟨p, hp, _, -, _, -, rfl⟩ := hfields
  cases entry with
  | object l =>
    rw [Json.value, show OrdAssoc.find? (lit "parent") l = some (.string parent) from hparent] at hp
    exact (Option.some.inj hp).symm
  | _ => cases hparent

/-- The base card of an entry has the sprint that is found. -/
theorem planEntry_property {config : Config} {entry : Json} {userId : Int64} {w u : World σ Text}
    {plan : EntryPlan} (hplan : planEntry json server apiPath config entry userId w = .ok plan u) :
    ∃ fields all info t, entryFields config entry = some fields ∧
      fetchParentCardInfo json server apiPath fields.parent {} w = .ok (all, info) t ∧
      plan.base.property sprintNumberProperty = some (sprintProperty info.sprintNumber) := by
  obtain ⟨fields, all, info, _, t, hfields, -, hinfo, -, hbase, -⟩ := planEntry_eq_ok hplan
  refine ⟨fields, all, info, t, hfields, hinfo, ?_⟩
  rw [hbase, SimpleCard.property, properties_entryBase, ← SimpleCard.property,
    property_createBaseCard]

/-- The base card of an entry has the sprint of the parent. -/
theorem planEntry_sprint {config : Config} {entry : Json} {userId : Int64} {w u t : World σ Text}
    {plan : EntryPlan} (hplan : planEntry json server apiPath config entry userId w = .ok plan u)
    {parent : Str} (hparent : entry.member? (lit "parent") = some (.string parent)) {id : Int64}
    (hstoll : stoll parent = some id) (hid : 0 < id) {card : Card}
    (hget : getCard json server apiPath (intToString id.toInt) w = .ok (200, card) t)
    {props : List (Str × Json)} (hflat : HasFlatProperties card props) :
    plan.base.property sprintNumberProperty = some
      (sprintProperty (inheritedText json (OrdAssoc.find? sprintNumberProperty props))) := by
  obtain ⟨fields, all, info, _, hfields, hinfo, hproperty⟩ := planEntry_property hplan
  rw [entryFields_parent hfields hparent, fetchParentCardInfo_of_found hstoll hid hget] at hinfo
  have hread : readParentInfo json card {} = (all, info) := (EStateM.Result.ok.inj hinfo).1
  rw [hproperty, ← sprint_readParentInfo hflat, hread]

/-- Every card that is created has the sprint of the parent exactly if that is kept. -/
def CreationsInherit (json : NlohmannText Text) (apiPath : Str) (v : Option Json)
    (es : List (Exchange Text)) : Prop :=
  ∀ e ∈ es, ∀ payload, e.creation json apiPath = some payload →
    ((∃ p, payloadProperty sprintNumberProperty payload = some p ∧ Inherited v p) ↔ SprintKept v)

theorem creationsInherit_of_createsOnly {v : Option Json} {es : List (Exchange Text)}
    (h : ∀ e ∈ es, e.CreatesOnly json apiPath (HasSprint (postedSprint json v))) :
    CreationsInherit json apiPath v es := by
  intro e he payload hpayload
  rw [h e he payload hpayload, ← inherited_postedSprint_iff json v]
  constructor
  · rintro ⟨p, hp, hinherited⟩
    rwa [Option.some.inj hp]
  · exact fun hinherited => ⟨_, rfl, hinherited⟩

theorem processBacklogEntry_creations {config : Config} {entry : Json} {userId : Int64}
    {w t : World σ Text} {parent : Str}
    (hparent : entry.member? (lit "parent") = some (.string parent)) {id : Int64}
    (hstoll : stoll parent = some id) (hid : 0 < id) {card : Card}
    (hget : getCard json server apiPath (intToString id.toInt) w = .ok (200, card) t)
    {props : List (Str × Json)} (hflat : HasFlatProperties card props) :
    ∃ es, (Effects.state (processBacklogEntry json server apiPath config entry userId w)).log =
      w.log ++ es ∧
      CreationsInherit json apiPath (OrdAssoc.find? sprintNumberProperty props) es := by
  have hemits : Effects.EmitsAt World.log (Exchange.CreatesOnly json apiPath
      (HasSprint (postedSprint json (OrdAssoc.find? sprintNumberProperty props))))
      (processBacklogEntry json server apiPath config entry userId) w := by
    refine Effects.EmitsAt.bind (emits_planEntry config entry userId w) fun plan u hplan => ?_
    split
    · refine emits_submitTasks (fun task card hcard => payloadProperty_payload ?_) _ u
      rw [SimpleCard.property, (parseTask_fields hcard).2.2.2]
      exact planEntry_sprint hplan hparent hstoll hid hget hflat
    · exact Effects.Emits.pure _ u
  exact hemits.imp fun _ hes => ⟨hes.1, creationsInherit_of_createsOnly hes.2⟩

theorem handleCreateCard_creations {config : Config} {title : Str} {size : Int32}
    {parentCardId : Int64} {tags : List Str} {userId : Int64} {w u t : World σ Text}
    (huser : currentUserId json server apiPath w = .ok userId u) (hid : 0 < parentCardId)
    {card : Card} (hget : getCard json server apiPath (intToString parentCardId.toInt) u =
      .ok (200, card) t) {props : List (Str × Json)} (hflat : HasFlatProperties card props) :
    ∃ es, (Effects.state (handleCreateCard json server apiPath config title size parentCardId
      tags w)).log = w.log ++ es ∧
      CreationsInherit json apiPath (OrdAssoc.find? sprintNumberProperty props) es := by
  have hfound := fetchParentCardInfo_of_found (stoll_intToString parentCardId) hid hget
  have hproperty : (desiredCard config (readParentInfo json card {}).2.sprintNumber title size tags
      userId).property sprintNumberProperty = some (sprintProperty
        (inheritedText json (OrdAssoc.find? sprintNumberProperty props))) := by
    rw [SimpleCard.property, properties_desiredCard, ← SimpleCard.property, property_createBaseCard,
      sprint_readParentInfo hflat]
  have hemits : Effects.EmitsAt World.log (Exchange.CreatesOnly json apiPath
      (HasSprint (postedSprint json (OrdAssoc.find? sprintNumberProperty props))))
      (handleCreateCard json server apiPath config title size parentCardId tags) w := by
    unfold handleCreateCard
    split_ifs
    · exact Effects.Emits.pure _ w
    · refine Effects.EmitsAt.bind (emits_currentUserId w) fun userId' u' huser' => ?_
      rw [huser] at huser'
      cases huser'
      refine Effects.EmitsAt.bind (emits_fetchParentCardInfo _ _ u) fun info t' hinfo => ?_
      rw [hfound] at hinfo
      cases hinfo
      refine Effects.EmitsAt.bind (emits_createCardWithPostprocessing
        (payloadProperty_payload hproperty) _ _ _ _ t) fun _ _ _ => Effects.Emits.pure _ _
  exact hemits.imp fun _ hes => ⟨hes.1, creationsInherit_of_createsOnly hes.2⟩

end Creations

/-- **A card gets the sprint of its parent exactly when that is kept.**  In every run of
`process_backlog_entry` and `handle_create_card` that finds a parent with flat properties, this
holds of each card that is created. -/
theorem sprint_inherited_iff {σ Text : Type} (json : NlohmannText Text) (server : Server σ Text)
    (apiPath : Str) (config : Config) {card : Card} {props : List (Str × Json)}
    (hflat : HasFlatProperties card props) :
    (∀ (entry : Json) (userId : Int64) (w t : World σ Text) (parent : Str) (id : Int64),
      entry.member? (lit "parent") = some (.string parent) → stoll parent = some id → 0 < id →
      getCard json server apiPath (intToString id.toInt) w = .ok (200, card) t →
      ∃ es, (Effects.state (processBacklogEntry json server apiPath config entry userId w)).log =
        w.log ++ es ∧
        CreationsInherit json apiPath (OrdAssoc.find? sprintNumberProperty props) es) ∧
    ∀ (title : Str) (size : Int32) (parentCardId userId : Int64) (tags : List Str)
      (w u t : World σ Text), 0 < parentCardId →
      currentUserId json server apiPath w = .ok userId u →
      getCard json server apiPath (intToString parentCardId.toInt) u = .ok (200, card) t →
      ∃ es, (Effects.state (handleCreateCard json server apiPath config title size parentCardId
        tags w)).log = w.log ++ es ∧
        CreationsInherit json apiPath (OrdAssoc.find? sprintNumberProperty props) es :=
  ⟨fun _ _ _ _ _ _ hparent hstoll hid hget =>
      processBacklogEntry_creations hparent hstoll hid hget hflat,
    fun _ _ _ _ _ _ _ _ hid huser hget => handleCreateCard_creations huser hid hget hflat⟩

/-! ### Two parents -/

/-- A card with a title, a work code and a sprint. -/
def sprintParent (sprint : Json) : Json :=
  .object [(lit "id", .integer 7), (lit "properties", .object [(sprintNumberProperty, sprint)]),
    (lit "title", .string (lit "[CAD]:TS.A.1"))]

/-- A server that answers every request with one card. -/
def oneCardServer (card : { j : Json // j.validUtf8 = true }) :
    Server Unit (Option { j : Json // j.validUtf8 = true }) where
  answer _ _ := ((200, some card), ())
  users _ := (fun _ => (200, none), ())

/-- The parent has a sprint. -/
theorem sprint_inherited_iff_twelve :
    (∃ es, (Effects.state (processBacklogEntry .symbolic
      (oneCardServer ⟨sprintParent (.integer 12), by decide +kernel⟩) [] emptyConfig oneTaskEntry 0
      quietWorld)).log = quietWorld.log ++ es ∧
      CreationsInherit .symbolic [] (some (.integer 12)) es) ∧
    ∃ es, (Effects.state (handleCreateCard .symbolic
      (oneCardServer ⟨sprintParent (.integer 12), by decide +kernel⟩) [] emptyConfig (lit "task") 0
      7 [] quietWorld)).log = quietWorld.log ++ es ∧
      CreationsInherit .symbolic [] (some (.integer 12)) es := by
  have hflat : HasFlatProperties ((Card.fromJson (sprintParent (.integer 12))).getD {})
      [(sprintNumberProperty, .integer 12)] := ⟨rfl, fun _ h => by cases h⟩
  have h := sprint_inherited_iff .symbolic
    (oneCardServer ⟨sprintParent (.integer 12), by decide +kernel⟩) [] emptyConfig hflat
  exact ⟨h.1 oneTaskEntry 0 quietWorld _ (lit "7") 7 rfl (by decide +kernel) (by decide)
      (by with_unfolding_all rfl),
    h.2 (lit "task") 0 7 7 [] quietWorld _ _ (by decide) (by with_unfolding_all rfl)
      (by with_unfolding_all rfl)⟩

/-- The sprint the first new card of a run of `handle_create_card` is posted with. -/
def createdSprint (sprint : { j : Json // j.validUtf8 = true }) : Option Json :=
  (Effects.state (handleCreateCard .symbolic (oneCardServer sprint) [] emptyConfig (lit "task") 0 7
    [] quietWorld)).log.findSome? fun e =>
      (e.creation .symbolic []).bind (payloadProperty sprintNumberProperty)

/-- A parent whose sprint is null: the card is created with the text of that. -/
theorem null_sprint_posted_as_text :
    ∃ e ∈ (Effects.state (handleCreateCard .symbolic
        (oneCardServer ⟨sprintParent .null, by decide +kernel⟩) [] emptyConfig (lit "task") 0 7 []
        quietWorld)).log,
      ∃ payload, e.creation .symbolic [] = some payload ∧
        ¬ ∃ p, payloadProperty sprintNumberProperty payload = some p ∧
          Inherited (some .null) p := by
  have hcreated : createdSprint ⟨sprintParent .null, by decide +kernel⟩ =
      some (.string (lit "null")) := by
    with_unfolding_all rfl
  obtain ⟨e, he, hposted⟩ := List.exists_of_findSome?_eq_some hcreated
  obtain ⟨payload, hpayload, hproperty⟩ := Option.bind_eq_some_iff.1 hposted
  refine ⟨e, he, payload, hpayload, ?_⟩
  rintro ⟨p, hp, hinherited⟩
  rw [hproperty] at hp
  cases hp
  cases hinherited

end Kaiten

import Mathlib.Data.List.Destutter
import Kunstkammer.Cards.Caches
import Kunstkammer.Cards.Modes
import Kunstkammer.Foundation.Attempts

/-!
# The texts of a run are UTF-8

`dump` throws on any other text.  What the program sends is put together from the configuration,
the backlog and the responses, which all were parsed, and from literals and numbers.

* `Card.Valid`, `ParentInfo.Valid`, `SimpleCard.Valid`: the texts that are passed on are UTF-8;
* `World.Valid`: so are those of all cached cards;
* `payload_valid`: the payload of such a card can be printed;
* `ensures_getCard`, `ensures_createCardWithPostprocessing`: the calls do not throw.
-/

namespace Kaiten

/-! ### Cards that were read -/

/-- The texts of a card that are passed on. -/
structure Card.Valid (card : Card) : Prop where
  title : Utf8.Valid card.title
  properties : card.properties.validUtf8 = true

theorem present?_valid {j v : Json} {key : Str} (hj : j.validUtf8 = true)
    (h : j.present? key = some v) : v.validUtf8 = true := by
  unfold Json.present? at h
  split at h
  · cases h
  · exact Json.validUtf8_of_member? hj h

theorem getOptional_string_valid {j : Json} (hj : j.validUtf8 = true) (key : Str) :
    Utf8.Valid (getOptional Json.getString j key []) := by
  unfold getOptional
  cases h : j.present? key with
  | none => exact Utf8.valid_nil
  | some v =>
    have hv := present?_valid hj h
    cases v with
    | string s => exact validUtf8_iff.1 hv
    | _ => exact Utf8.valid_nil

/-- A card that was read from UTF-8. -/
theorem Card.valid_of_fromJson {j : Json} (hj : j.validUtf8 = true) {card : Card}
    (h : Card.fromJson j = some card) : card.Valid := by
  obtain ⟨-, -, htitle, hproperties⟩ := Card.fromJson_fields h
  constructor
  · rw [htitle]
    exact getOptional_string_valid hj _
  · rw [hproperties]
    cases hpresent : j.present? (lit "properties") with
    | none => rfl
    | some v => exact present?_valid hj hpresent

theorem valid_doubleToString (x : ℚ) : Utf8.Valid (doubleToString x) := by
  have hdigits {l : Str} (h : ∀ b ∈ l, Decimal.isDigit b = true) : Utf8.Valid l := by
    refine Utf8.valid_of_ascii fun b hb => ?_
    have hdigit := h b hb
    simp only [Decimal.isDigit, decide_eq_true_eq] at hdigit
    omega
  have hsix (n : ℕ) : Utf8.Valid (sixDigits n) := hdigits fun b hb => by
    obtain ⟨d, -, rfl⟩ := List.mem_map.1 hb
    exact Decimal.isDigit_digit (Nat.mod_lt _ (by decide))
  have htext (n m : ℕ) : Utf8.Valid (Decimal.print n ++ 46 :: sixDigits m) :=
    (hdigits fun _ => Decimal.isDigit_of_mem_print).append (Utf8.valid_cons (by decide) (hsix m))
  unfold doubleToString
  dsimp only
  split_ifs
  · exact Utf8.valid_cons (by decide) (htext _ _)
  · exact htext _ _

section Parent

variable {Text : Type} {json : NlohmannText Text}

theorem propertyText_valid {v : Json} (hv : v.validUtf8 = true) {s : Str}
    (h : propertyText json v = some s) : Utf8.Valid s := by
  have hdump {w : Json} (h : (json.dump w).map json.bytes = some s) : Utf8.Valid s := by
    obtain ⟨text, htext, rfl⟩ := Option.map_eq_some_iff.1 h
    exact validUtf8_iff.1 (json.bytes_valid w text htext)
  cases v with
  | string t =>
    rw [← Option.some.inj h]
    exact validUtf8_iff.1 hv
  | integer n =>
    rw [← Option.some.inj h]
    exact valid_intToString _
  | float x =>
    rw [← Option.some.inj h]
    exact valid_doubleToString x
  | boolean b =>
    rw [← Option.some.inj h]
    cases b <;> exact valid_lit _
  | null => exact hdump h
  | array l => exact hdump h
  | object l => exact hdump h

theorem findPropertyValueByName_valid {card : Card} (hcard : card.Valid) {name s : Str}
    (h : findPropertyValueByName json card name = some (some s)) : Utf8.Valid s := by
  have htext {v : Json} (hv : v.validUtf8 = true)
      (h : (propertyText json v).map some = some (some s)) : Utf8.Valid s := by
    obtain ⟨text, htext, hs⟩ := Option.map_eq_some_iff.1 h
    rw [← Option.some.inj hs]
    exact propertyText_valid hv htext
  unfold findPropertyValueByName at h
  dsimp only at h
  split_ifs at h
  · cases h
  · split at h
    · rename_i l hl
      split at h
      · rename_i p hp
        have hlist := Json.validUtf8_array_iff.1 (Json.validUtf8_of_member? hcard.properties hl)
        have hp := hlist p (List.mem_of_find?_eq_some hp)
        split at h
        · exact htext (Json.validUtf8_of_member? hp ‹_›) h
        · cases h
      · split at h
        · exact htext (Json.validUtf8_of_member? hcard.properties ‹_›) h
        · cases h
    · split at h
      · exact htext (Json.validUtf8_of_member? hcard.properties ‹_›) h
      · cases h

/-- What is known about the parent is UTF-8. -/
structure ParentInfo.Valid (info : ParentInfo) : Prop where
  sprintNumber : Utf8.Valid info.sprintNumber
  productCode : Utf8.Valid info.productCode
  workCode : Utf8.Valid info.workCode

theorem ParentInfo.valid_default : ({} : ParentInfo).Valid :=
  ⟨Utf8.valid_nil, valid_lit _, valid_lit _⟩

theorem readParentInfo_valid {card : Card} (hcard : card.Valid) {info : ParentInfo}
    (hinfo : info.Valid) : (readParentInfo json card info).2.Valid := by
  unfold readParentInfo
  split
  · exact hinfo
  · rename_i sprint hsprint
    have hsprintValid : Utf8.Valid (sprint.getD info.sprintNumber) := by
      cases sprint with
      | none => exact hinfo.sprintNumber
      | some s => exact findPropertyValueByName_valid hcard hsprint
    dsimp only
    split_ifs
    · exact { hinfo with sprintNumber := hsprintValid }
    · split
      · rename_i product code hextract
        obtain ⟨hproduct, hcode⟩ := extractWorkCode_valid hcard.title hextract
        exact ⟨hsprintValid, hproduct, hcode⟩
      · exact { hinfo with sprintNumber := hsprintValid }

end Parent

/-! ### Cards that are created -/

/-- The texts of a configuration that are passed on. -/
def Config.Valid (config : Config) : Prop := ∀ tag ∈ config.tags, Utf8.Valid tag

theorem getString_valid {j : Json} (hj : j.validUtf8 = true) {s : Str}
    (h : j.getString = some s) : Utf8.Valid s := by
  cases j with
  | string t =>
    rw [← Option.some.inj h]
    exact validUtf8_iff.1 hj
  | _ => cases h

/-- A configuration that was read from UTF-8. -/
theorem Config.valid_of_fromJson {j : Json} (hj : j.validUtf8 = true) {config : Config}
    (h : Config.fromJson j = some config) : config.Valid := by
  unfold Config.fromJson at h
  iterate 16 obtain ⟨_, -, h⟩ := Option.bind_eq_some_iff.1 h
  obtain ⟨v, hv, h⟩ := Option.bind_eq_some_iff.1 h
  obtain ⟨l, hl, h⟩ := Option.bind_eq_some_iff.1 h
  obtain ⟨tags, htags, h⟩ := Option.bind_eq_some_iff.1 h
  iterate 6 obtain ⟨_, -, h⟩ := Option.bind_eq_some_iff.1 h
  obtain rfl := Option.some.inj h
  have hlist : ∀ j ∈ l, j.validUtf8 = true := by
    cases v with
    | array l' =>
      rw [← Option.some.inj hl]
      exact Json.validUtf8_array_iff.1 (Json.validUtf8_of_member? hj hv)
    | _ => cases hl
  intro tag htag
  obtain ⟨t, ht, hget⟩ := mem_of_mapM_eq_some htags htag
  exact getString_valid (hlist t ht) hget

/-- The texts of a card that is to be created. -/
structure SimpleCard.Valid (card : SimpleCard) : Prop where
  title : Utf8.Valid card.title
  tags : ∀ tag ∈ card.tags, Utf8.Valid tag
  properties : ∀ p ∈ card.properties.items,
    p.1.validUtf8 = true ∧ (propertyValueToJson p.2).validUtf8 = true

namespace SimpleCard

theorem Valid.setProperty {card : SimpleCard} (h : card.Valid) {key : Str}
    (hkey : key.validUtf8 = true) {value : PropertyValue}
    (hvalue : (propertyValueToJson value).validUtf8 = true) :
    (card.setProperty key value).Valid where
  title := h.title
  tags := h.tags
  properties p hp := by
    rcases OrdAssoc.mem_insert hp with rfl | hp
    · exact ⟨hkey, hvalue⟩
    · exact h.properties p hp

theorem Valid.setRoleId {card : SimpleCard} (h : card.Valid) (role : Str) :
    (card.setRoleId role).Valid := by
  refine h.setProperty (validUtf8_lit _) ?_
  have hroles : ∀ p ∈ roles, p.2.validUtf8 = true := by decide +kernel
  show ((roles.lookup role).getD (lit "1")).validUtf8 = true
  cases hrole : roles.lookup role with
  | none => exact validUtf8_lit _
  | some code =>
    obtain ⟨l, r, hl, -⟩ := List.lookup_eq_some_iff.1 hrole
    exact hroles (role, code) (by rw [hl]; simp)

theorem Valid.addTags {card : SimpleCard} (h : card.Valid) {tags : List Str}
    (htags : ∀ tag ∈ tags, Utf8.Valid tag) : (card.addTags tags).Valid where
  title := h.title
  tags tag htag := by
    have hmem := (List.destutter_sublist _ _).subset htag
    rcases List.mem_append.1 (List.mem_mergeSort.1 hmem) with hmem | hmem
    · exact h.tags tag hmem
    · exact htags tag hmem
  properties := h.properties

/-- The card before the role is set. -/
theorem assignConfig_eq (config : Config) : ∃ card : SimpleCard, card.title = [] ∧
    card.tags = config.tags ∧ card.properties = OrdMap.empty ∧
    ({} : SimpleCard).assignConfig config =
      if config.role ≠ [] then card.setRoleId config.role else card := by
  refine ⟨_, ?_, ?_, ?_, rfl⟩
  · split_ifs <;> rfl
  · split_ifs with htags
    · rfl
    · rfl
    · exact (not_not.1 htags).symm
    · exact (not_not.1 htags).symm
  · split_ifs <;> rfl

theorem valid_assignConfig {config : Config} (h : config.Valid) :
    (({} : SimpleCard).assignConfig config).Valid := by
  obtain ⟨card, htitle, htags, hproperties, heq⟩ := assignConfig_eq config
  have hcard : card.Valid := by
    refine ⟨htitle ▸ Utf8.valid_nil, htags ▸ h, fun p hp => ?_⟩
    rw [hproperties] at hp
    exact absurd hp List.not_mem_nil
  rw [heq]
  split_ifs
  · exact hcard.setRoleId _
  · exact hcard

end SimpleCard

theorem createBaseCard_valid {config : Config} (h : config.Valid) {sprintNumber : Str}
    (hsprint : Utf8.Valid sprintNumber) (role : Str) :
    (createBaseCardFromConfig config sprintNumber role).Valid := by
  have hvalue : (propertyValueToJson (sprintProperty sprintNumber)).validUtf8 = true := by
    unfold sprintProperty
    split_ifs
    · cases stoi sprintNumber with
      | some n => rfl
      | none => exact validUtf8_iff.2 hsprint
    · rfl
  have hkey : sprintNumberProperty.validUtf8 = true := validUtf8_lit _
  have hbase := (SimpleCard.valid_assignConfig h).setProperty hkey hvalue
  unfold createBaseCardFromConfig
  dsimp only
  split_ifs
  · exact hbase.setRoleId role
  · exact hbase

theorem entryBase_valid {config : Config} (h : config.Valid) {sprintNumber : Str}
    (hsprint : Utf8.Valid sprintNumber) (role : Str) {entry : Json}
    (hentry : entry.validUtf8 = true) : (entryBase config sprintNumber role entry).Valid := by
  have hbase := createBaseCard_valid h hsprint role
  unfold entryBase
  dsimp only
  split
  · rename_i tags htags
    refine hbase.addTags fun tag htag => ?_
    obtain ⟨j, hj, hget⟩ := List.mem_filterMap.1 htag
    have hlist := Json.validUtf8_array_iff.1 (Json.validUtf8_of_member? hentry htags)
    exact getString_valid (hlist j hj) hget
  · exact hbase

theorem parseTask_valid {base card : SimpleCard} (hbase : base.Valid) {task : Json}
    (htask : task.validUtf8 = true) {userId : Int64}
    (h : parseTaskCardFromBacklog base task userId = some card) : card.Valid := by
  obtain ⟨htitle, -, htags, hproperties⟩ := parseTask_fields h
  refine ⟨?_, htags ▸ hbase.tags, hproperties ▸ hbase.properties⟩
  cases task with
  | object l =>
    simp only [Json.value] at htitle
    split at htitle
    · rename_i v hv
      exact getString_valid (Json.validUtf8_of_member? htask hv) htitle
    · rw [← Option.some.inj htitle]
      exact Utf8.valid_nil
  | _ => cases htitle

/-- **The payload of a card with UTF-8 texts can be printed.** -/
theorem payload_valid {card : SimpleCard} (h : card.Valid) : card.payload.validUtf8 = true := by
  have hset (c : Prop) [Decidable c] {j : Json} (hj : j.validUtf8 = true) (key : String) {v : Json}
      (hv : v.validUtf8 = true) : (if c then j.set (lit key) v else j).validUtf8 = true := by
    split_ifs
    · exact Json.validUtf8_set hj (validUtf8_lit _) hv
    · exact hj
  have hproperties : card.propertiesJson.validUtf8 = true := by
    refine Json.validUtf8_ofPairs fun p hp => ?_
    obtain ⟨q, hq, rfl⟩ := List.mem_map.1 hp
    exact h.properties q hq
  have hsize : (Json.string (intToString card.size.toInt ++ lit " ч")).validUtf8 = true :=
    validUtf8_iff.2 ((valid_intToString _).append (valid_lit _))
  have htitle : (Json.string card.title).validUtf8 = true := validUtf8_iff.2 h.title
  refine hset _ (hset _ (hset _ (hset _ ?_ _ rfl) _ rfl) _ hsize) _ hproperties
  refine Json.validUtf8_ofPairs fun p hp => ?_
  simp only [List.mem_cons, List.not_mem_nil, or_false] at hp
  rcases hp with rfl | rfl | rfl | rfl
  · exact ⟨validUtf8_lit _, htitle⟩
  · exact ⟨validUtf8_lit _, rfl⟩
  · exact ⟨validUtf8_lit _, rfl⟩
  · exact ⟨validUtf8_lit _, rfl⟩

/-! ### Worlds -/

/-- All cards in both caches were read from UTF-8. -/
structure World.Valid {σ Text : Type} (w : World σ Text) : Prop where
  cards : ∀ key entry, w.cards.find key = some entry → entry.value.Valid
  cardNumbers : ∀ key entry, w.cardNumbers.find key = some entry → entry.value.Valid

theorem World.valid_initial {σ Text : Type} (state : σ) (readings : ℕ → Reading) :
    (World.initial state readings : World σ Text).Valid :=
  ⟨fun _ _ h => (by cases h), fun _ _ h => (by cases h)⟩

/-- The payloads of the cards that were created, in order. -/
def World.creations {σ Text : Type} (json : NlohmannText Text) (apiPath : Str)
    (w : World σ Text) : List Json :=
  w.log.filterMap (Exchange.creation json apiPath)

/-- The cards `payloads` were created, and all that is cached is UTF-8. -/
structure Created {σ Text : Type} (json : NlohmannText Text) (apiPath : Str)
    (payloads : List Json) (w : World σ Text) : Prop where
  valid : w.Valid
  creations : w.creations json apiPath = payloads

section Calls

variable {σ Text : Type} {json : NlohmannText Text} {server : Server σ Text} {apiPath : Str}
  {payloads : List Json}

theorem ensures_dump {pre : World σ Text → Prop} {j : Json} (hj : j.validUtf8 = true) :
    Effects.Ensures pre (dump json j) fun text w => pre w ∧ json.dump j = some text := by
  intro w hw
  obtain ⟨text, htext, hdump⟩ : ∃ text, json.dump j = some text ∧ dump json j w = .ok text w :=
    dump_of_valid hj w
  exact ⟨text, w, hdump, hw, htext⟩

theorem ensures_send {r : Request Text} {created : Option Json}
    (h : ∀ response, (Exchange.request r response).creation json apiPath = created) :
    Effects.Ensures (Created json apiPath payloads)
      (send server r : Run σ Text (ℤ × Text)) fun _ =>
        Created json apiPath (payloads ++ created.toList) := by
  intro w hw
  refine ⟨_, w.afterSend server r, rfl, ⟨hw.valid.cards, hw.valid.cardNumbers⟩, ?_⟩
  rw [World.creations, World.afterSend, List.filterMap_append, ← World.creations, hw.creations]
  congr 1
  rw [List.filterMap_cons, h, List.filterMap_nil]
  cases created <;> rfl

/-- A request that creates nothing, with a payload that can be printed. -/
theorem ensures_request {α : Type} {j : Json} (hj : j.validUtf8 = true)
    {target : Text → Request Text}
    (htarget : ∀ body response,
      (Exchange.request (target body) response).creation json apiPath = none)
    (f : ℤ × Text → Run σ Text α) {post : α → World σ Text → Prop}
    (hf : ∀ response, Effects.Ensures (Created json apiPath payloads) (f response) post) :
    Effects.Ensures (Created json apiPath payloads) (do
      let body ← dump json j
      let response ← send server (target body)
      f response) post := by
  refine (ensures_dump hj).bind fun body => .of_and fun _ => ?_
  refine (ensures_send (htarget body)).bind fun response => ?_
  rw [Option.toList_none, List.append_nil]
  exact hf response

theorem ensures_updateCard (idOrNumber : Str) {title : Str} (htitle : Utf8.Valid title) :
    Effects.Ensures (Created json apiPath payloads)
      (updateCard json server apiPath idOrNumber title) fun _ =>
        Created json apiPath payloads := by
  have hpayload : (changesPayload title).validUtf8 = true := by
    unfold changesPayload
    split_ifs
    · rw [validUtf8_ofPairs_singleton]
      exact validUtf8_iff.2 htitle
    · rfl
  refine ensures_request hpayload (fun _ _ => rfl) _ fun response => ?_
  split_ifs
  · exact .pure fun _ h => h
  · exact .pure fun _ h => h

theorem ensures_addChildCard (parent id : Int64) :
    Effects.Ensures (Created json apiPath payloads)
      (addChildCard json server apiPath parent id) fun _ => Created json apiPath payloads := by
  refine ensures_request ?_ (creation_of_suffix _ (by decide)) _ fun response =>
    .pure fun _ h => h
  rw [validUtf8_ofPairs_singleton]
  rfl

theorem ensures_addTagToCard (id : Int64) {tag : Str} (htag : Utf8.Valid tag) :
    Effects.Ensures (Created json apiPath payloads)
      (addTagToCard json server apiPath id tag) fun _ => Created json apiPath payloads := by
  refine ensures_request ?_ (creation_of_suffix _ (by decide)) _ fun response =>
    .pure fun _ h => h
  rw [validUtf8_ofPairs_singleton]
  exact validUtf8_iff.2 htag

theorem ensures_addTags (id : Int64) {tags : List Str} (htags : ∀ tag ∈ tags, Utf8.Valid tag) :
    Effects.Ensures (Created json apiPath payloads)
      (addTagsToCreatedCard json server apiPath id tags) fun _ =>
        Created json apiPath payloads := by
  induction tags with
  | nil => exact .pure fun _ h => h
  | cons tag tags ih =>
    refine (ensures_addTagToCard id (htags tag List.mem_cons_self)).bind fun _ => ?_
    exact ih fun t ht => htags t (List.mem_cons_of_mem _ ht)

/-- What follows a creation does not throw. -/
theorem ensures_postprocess {cardData : SimpleCard} (hcard : cardData.Valid) (parent : Int64)
    {product work : Str} (hproduct : Utf8.Valid product) (hwork : Utf8.Valid work)
    (updateTitle : Bool) (id : Int64) : Effects.Ensures (Created json apiPath payloads)
      (postprocess json server apiPath cardData parent product work updateTitle id) fun _ =>
        Created json apiPath payloads := by
  refine Effects.Ensures.bind (Q := fun _ => Created json apiPath payloads) ?_ fun _ =>
    Effects.Ensures.bind (Q := fun _ => Created json apiPath payloads) ?_ fun _ => ?_
  · unfold linkIfWanted linkCardToParent
    split_ifs
    · exact .pure fun _ h => h
    · exact (ensures_addChildCard parent id).bind fun _ => .pure fun _ h => h
    · exact .pure fun _ h => h
  · unfold tagIfWanted
    split_ifs
    · exact ensures_addTags id hcard.tags
    · exact .pure fun _ h => h
  · unfold titleIfWanted
    split_ifs
    · exact (ensures_updateCard _ (updatedTitle_valid id hproduct hwork hcard.title)).bind fun _ =>
        .pure fun _ h => h
    · exact .pure fun _ h => h

theorem ensures_createCard {desired : SimpleCard} (h : desired.Valid) :
    Effects.Ensures (Created json apiPath payloads) (createCard json server apiPath desired)
      fun _ => Created json apiPath (payloads ++ [desired.payload]) := by
  refine (ensures_dump (payload_valid h)).bind fun body => .of_and fun hbody => ?_
  have hcreation (response : ℤ × Text) :
      (Exchange.request (.post (apiPath ++ lit "/cards") body) response).creation json apiPath =
        some desired.payload := by
    rw [Exchange.creation, if_pos rfl, json.parse_dump _ _ hbody]
  refine (ensures_send hcreation).bind fun response => ?_
  split_ifs
  · exact .pure fun _ h => h
  · exact .pure fun _ h => h

/-- A card is created, and what follows does not throw. -/
theorem ensures_createCardWithPostprocessing {cardData : SimpleCard} (hcard : cardData.Valid)
    (parent : Int64) {product work : Str} (hproduct : Utf8.Valid product)
    (hwork : Utf8.Valid work) (updateTitle : Bool) :
    Effects.Ensures (Created json apiPath payloads)
      (createCardWithPostprocessing json server apiPath cardData parent product work updateTitle)
      fun _ => Created json apiPath (payloads ++ [cardData.payload]) := by
  refine (ensures_createCard hcard).bind fun created => ?_
  dsimp only
  split_ifs
  · exact (ensures_postprocess hcard parent hproduct hwork updateTitle _).bind fun _ =>
      .pure fun _ h => h
  · exact .pure fun _ h => h

/-! ### Reading -/

theorem World.Valid.card_of_hit {w : World σ Text} (h : w.Valid) {s : Str}
    {entry : CacheEntry Card} (hhit : w.Hit s entry) : entry.value.Valid := by
  unfold World.Hit at hhit
  split_ifs at hhit
  · exact h.cardNumbers _ _ hhit.find
  · obtain ⟨id, -, hfinds⟩ := hhit
    exact h.cards id _ hfinds.find

theorem World.Valid.of_cachesFrom {w w' : World σ Text} (h : w.Valid) {stored : Option Card}
    (hcaches : CachesFrom w stored w') (hstored : ∀ card ∈ stored, card.Valid) : w'.Valid := by
  have hvalue {κ : Type} (key : Card → κ) :
      ∀ p ∈ stored.map fun card => (key card, card), p.2.Valid := by
    intro p hp
    obtain ⟨card, hcard, rfl⟩ := Option.map_eq_some_iff.1 hp
    exact hstored card hcard
  exact ⟨hcaches.cards.forall_value h.cards (hvalue _),
    hcaches.cardNumbers.forall_value h.cardNumbers (hvalue _)⟩

theorem fetchedCard_valid {response : ℤ × Text} {card : Card}
    (h : fetchedCard json response = some card) : card.Valid := by
  unfold fetchedCard at h
  split_ifs at h
  obtain ⟨j, hj, hcard⟩ := Option.bind_eq_some_iff.1 h
  exact Card.valid_of_fromJson (json.parse_valid _ j hj) hcard

/-- `get_card` returns a card with UTF-8 texts, if only the empty one. -/
theorem ensures_getCard (idOrNumber : Str) : Effects.Ensures (Created json apiPath payloads)
    (getCard json server apiPath idOrNumber) fun answer w =>
      Created json apiPath payloads w ∧ answer.2.Valid := by
  intro w hw
  obtain ⟨answer, w', hget, hcases⟩ := getCard_cases json server apiPath w idOrNumber
  refine ⟨answer, w', hget, ?_⟩
  rcases hcases with ⟨entry, hhit, rfl, -, hlog, hcaches⟩ |
    ⟨-, response, -, rfl, -, hlog, hcaches⟩
  · refine ⟨⟨hw.valid.of_cachesFrom hcaches (by simp), ?_⟩, hw.valid.card_of_hit hhit⟩
    rw [World.creations, hlog]
    exact hw.creations
  · refine ⟨⟨hw.valid.of_cachesFrom hcaches fun _ => fetchedCard_valid, ?_⟩, ?_⟩
    · rw [World.creations, hlog, List.filterMap_append, ← World.creations, hw.creations]
      exact List.append_nil _
    · rw [fetchedAnswer]
      cases hfetched : fetchedCard json response with
      | none => exact ⟨Utf8.valid_nil, rfl⟩
      | some card => exact fetchedCard_valid hfetched

theorem ensures_fetchParentCardInfo (parentId : Str) {info : ParentInfo} (hinfo : info.Valid) :
    Effects.Ensures (Created json apiPath payloads)
      (fetchParentCardInfo json server apiPath parentId info) fun found w =>
        Created json apiPath payloads w ∧ found.2.Valid := by
  unfold fetchParentCardInfo
  split_ifs
  · exact .pure fun _ h => ⟨h, hinfo⟩
  · cases stoll parentId with
    | none => exact .pure fun _ h => ⟨h, hinfo⟩
    | some id =>
      dsimp only
      split_ifs
      · exact .pure fun _ h => ⟨h, hinfo⟩
      · refine (ensures_getCard _).bind fun answer => .of_and fun hcard => .pure fun _ h => ⟨h, ?_⟩
        split_ifs
        · exact hinfo
        · exact readParentInfo_valid hcard hinfo

end Calls

end Kaiten

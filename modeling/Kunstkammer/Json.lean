import Mathlib.Tactic
import Mathlib.Data.List.Lex
import Kunstkammer.Foundation.OrdMap

/-!
# Strings, JSON values and `nlohmann::json`

* `Str`: a `std::string`, a sequence of bytes; `lit` for the literals of the source;
* `Json`: a `nlohmann::json` value with its readers `get<T>` and `value`;
* `Nlohmann`: the printer and the parser of the library.  The text type stays abstract; what
  the program relies on are the laws in the structure's fields.

The library keeps signed and unsigned integers apart, but every reader converts both the same
way, so they are one constructor here.  A finite `double` is a rational number.
-/

namespace Kaiten

/-- A `std::string`. -/
abbrev Str := List UInt8

/-- Bytes are compared as unsigned numbers (`std::char_traits<char>::compare`). -/
instance instLinearOrderUInt8 : LinearOrder UInt8 where
  le_refl := UInt8.le_refl
  le_trans _ _ _ := UInt8.le_trans
  le_antisymm _ _ := UInt8.le_antisymm
  le_total := UInt8.le_total
  lt_iff_le_not_ge a b := by simp [UInt8.lt_iff_toNat_lt, UInt8.le_iff_toNat_le]; omega
  toDecidableLE := inferInstance
  toDecidableEq := inferInstance
  toDecidableLT := inferInstance

/-- A string literal of the source. -/
def lit (s : String) : Str := s.toByteArray.data.toList

/-- Well-formed UTF-8. -/
def Str.validUtf8 (s : Str) : Bool := ByteArray.validateUTF8 ⟨s.toArray⟩

theorem validUtf8_lit (s : String) : (lit s).validUtf8 = true := by
  simpa [Str.validUtf8, lit] using ByteArray.validateUTF8_eq_true_iff.2 s.isValidUTF8

/-- A JSON value.  The members of an object stand in the order of their keys. -/
inductive Json
  | null
  | boolean (b : Bool)
  | integer (n : ℤ)
  | float (x : ℚ)
  | string (s : Str)
  | array (l : List Json)
  | object (l : List (Str × Json))

namespace Json

/-- `is_array()`, with the elements. -/
def elements? : Json → Option (List Json)
  | array l => some l
  | _ => none

/-- The member `key` of an object. -/
def member? (key : Str) : Json → Option Json
  | object l => OrdAssoc.find? key l
  | _ => none

/-- `j[key] = v` on an object. -/
def set (j : Json) (key : Str) (v : Json) : Json :=
  match j with
  | object l => object (OrdAssoc.insert key v l)
  | j => j

/-- The members `l` assigned one after the other, to a value that is null at first. -/
def ofPairs (l : List (Str × Json)) : Json := l.foldl (fun j p => j.set p.1 p.2) (.object [])

/-- `get<std::string>()`; `none` when it throws. -/
def getString : Json → Option Str
  | string s => some s
  | _ => none

/-- `get<bool>()`. -/
def getBool : Json → Option Bool
  | boolean b => some b
  | _ => none

/-- `static_cast` of a `double` to an integer type: toward zero. -/
def truncate (x : ℚ) : ℤ := x.num.tdiv x.den

/-- `get<std::int64_t>()`: any number, narrowed to the type. -/
def getInt64 : Json → Option Int64
  | integer n => some (Int64.ofInt n)
  | float x => some (Int64.ofInt (truncate x))
  | _ => none

/-- `get<int>()`: any number or boolean, narrowed to the type. -/
def getInt : Json → Option Int32
  | integer n => some (Int32.ofInt n)
  | float x => some (Int32.ofInt (truncate x))
  | boolean b => some (if b then 1 else 0)
  | _ => none

/-- `value(key, default)`: throws on anything but an object, and when the member is there but
`get` throws on it. -/
def value {T : Type*} (get : Json → Option T) (key : Str) (default : T) : Json → Option T
  | object l =>
      match OrdAssoc.find? key l with
      | some j => get j
      | none => some default
  | _ => none

/-- `value` returns on an object whose member, if it is there, can be read. -/
theorem value_isSome_iff {T : Type*} {get : Json → Option T} {key : Str} {default : T} {j : Json} :
    (j.value get key default).isSome ↔
      (∃ l, j = .object l) ∧ ∀ v, j.member? key = some v → (get v).isSome := by
  cases j with
  | object l =>
    simp only [value, member?]
    cases hfind : OrdAssoc.find? key l with
    | none => simp
    | some v => simp
  | _ => simp [value]

mutual

/-- All strings and keys of the value are well-formed UTF-8. -/
def validUtf8 : Json → Bool
  | string s => s.validUtf8
  | array l => validUtf8Array l
  | object l => validUtf8Object l
  | _ => true

def validUtf8Array : List Json → Bool
  | [] => true
  | j :: l => j.validUtf8 && validUtf8Array l

def validUtf8Object : List (Str × Json) → Bool
  | [] => true
  | (k, j) :: l => k.validUtf8 && j.validUtf8 && validUtf8Object l

end

@[simp] theorem validUtf8_integer (n : ℤ) : (integer n).validUtf8 = true := rfl
@[simp] theorem validUtf8_boolean (b : Bool) : (boolean b).validUtf8 = true := rfl
@[simp] theorem validUtf8_string (s : Str) : (string s).validUtf8 = s.validUtf8 := rfl

theorem validUtf8_array (l : List Json) : (array l).validUtf8 = l.all validUtf8 := by
  show validUtf8Array l = l.all validUtf8
  induction l with
  | nil => rfl
  | cons j l ih => rw [validUtf8Array, ih, List.all_cons]

theorem validUtf8_object (l : List (Str × Json)) :
    (object l).validUtf8 = l.all fun p => p.1.validUtf8 && p.2.validUtf8 := by
  show validUtf8Object l = _
  induction l with
  | nil => rfl
  | cons p l ih => rw [validUtf8Object, ih, List.all_cons]

theorem getInt64_integer (n : Int64) : (integer n.toInt).getInt64 = some n := by
  rw [getInt64, Int64.ofInt_toInt]

theorem ofPairs_eq (l : List (Str × Json)) :
    ofPairs l = object (l.foldl (fun m p => OrdAssoc.insert p.1 p.2 m) []) := by
  have h : ∀ m : List (Str × Json), l.foldl (fun j p => j.set p.1 p.2) (object m) =
      object (l.foldl (fun m p => OrdAssoc.insert p.1 p.2 m) m) := by
    induction l with
    | nil => exact fun _ => rfl
    | cons p l ih => exact fun m => ih _
  exact h []

/-! ### Well-formed parts -/

theorem validUtf8_object_iff {l : List (Str × Json)} : (object l).validUtf8 = true ↔
    ∀ p ∈ l, p.1.validUtf8 = true ∧ p.2.validUtf8 = true := by
  simp [validUtf8_object]

theorem validUtf8_array_iff {l : List Json} :
    (array l).validUtf8 = true ↔ ∀ j ∈ l, j.validUtf8 = true := by
  simp [validUtf8_array]

theorem validUtf8_of_member? {j v : Json} {key : Str} (hj : j.validUtf8 = true)
    (h : j.member? key = some v) : v.validUtf8 = true := by
  cases j with
  | object l => exact (validUtf8_object_iff.1 hj _ (OrdAssoc.mem_of_find? h)).2
  | _ => cases h

theorem validUtf8_set {j v : Json} {key : Str} (hj : j.validUtf8 = true)
    (hkey : key.validUtf8 = true) (hv : v.validUtf8 = true) : (j.set key v).validUtf8 = true := by
  cases j with
  | object l =>
    refine validUtf8_object_iff.2 fun p hp => ?_
    rcases OrdAssoc.mem_insert hp with rfl | hp
    · exact ⟨hkey, hv⟩
    · exact validUtf8_object_iff.1 hj p hp
  | _ => exact hj

theorem validUtf8_ofPairs {l : List (Str × Json)}
    (h : ∀ p ∈ l, p.1.validUtf8 = true ∧ p.2.validUtf8 = true) : (ofPairs l).validUtf8 = true :=
  List.foldlRecOn l _ (motive := fun j : Json => j.validUtf8 = true) rfl fun _ hj p hp =>
    validUtf8_set hj (h p hp).1 (h p hp).2

/-! ### Members -/

/-- What was assigned to a member is found there. -/
theorem member?_set_self (l : List (Str × Json)) (key : Str) (v : Json) :
    ((object l).set key v).member? key = some v :=
  OrdAssoc.find?_insert_self key v l

theorem member?_set_of_ne {j v : Json} {key i : Str} (h : i ≠ key) :
    (j.set key v).member? i = j.member? i := by
  cases j with
  | object l => exact OrdAssoc.find?_insert_of_ne h v l
  | _ => rfl

theorem ofPairs_concat (l : List (Str × Json)) (p : Str × Json) :
    ofPairs (l ++ [p]) = (ofPairs l).set p.1 p.2 := by
  rw [ofPairs, List.foldl_append]
  rfl

/-- Every member of a list of assignments to different keys is found. -/
theorem member?_ofPairs {l : List (Str × Json)} (h : (l.map Prod.fst).Nodup) {p : Str × Json}
    (hp : p ∈ l) : (ofPairs l).member? p.1 = some p.2 := by
  induction l using List.reverseRecOn with
  | nil => cases hp
  | append_singleton l q ih =>
    rw [List.map_append, List.nodup_append] at h
    rw [ofPairs_concat]
    rcases List.mem_append.1 hp with hp | hp
    · have hne : p.1 ≠ q.1 := h.2.2 p.1 (List.mem_map_of_mem hp) q.1 (by simp)
      rw [member?_set_of_ne hne, ih h.1 hp]
    · rw [List.mem_singleton.1 hp, ofPairs_eq, member?_set_self]

theorem value_ofPairs {T : Type*} {get : Json → Option T} {default : T} {l : List (Str × Json)}
    (h : (l.map Prod.fst).Nodup) {p : Str × Json} (hp : p ∈ l) :
    (ofPairs l).value get p.1 default = get p.2 := by
  have hmember := member?_ofPairs h hp
  rw [ofPairs_eq] at hmember ⊢
  rw [member?] at hmember
  rw [value, hmember]

theorem member?_ofPairs_of_not_mem {l : List (Str × Json)} {key : Str}
    (h : key ∉ l.map Prod.fst) : (ofPairs l).member? key = none := by
  induction l using List.reverseRecOn with
  | nil => rfl
  | append_singleton l q ih =>
    rw [List.map_append, List.mem_append, not_or] at h
    have hne : key ≠ q.1 := by simpa using h.2
    rw [ofPairs_concat, member?_set_of_ne hne, ih h.1]

/-- Members assigned in the order of their keys. -/
theorem ofPairs_sorted {l : List (Str × Json)} (h : OrdAssoc.Sorted l) : ofPairs l = object l := by
  rw [ofPairs_eq, OrdAssoc.foldl_insert h]

end Json

/-- `nlohmann::json` as far as the program relies on it: `dump` throws exactly on ill-formed
UTF-8, `parse` undoes `dump`, and `parse` throws on the empty text. -/
structure Nlohmann (Text : Type*) where
  dump : Json → Option Text
  parse : Text → Option Json
  empty : Text
  dump_isSome : ∀ j, (dump j).isSome = j.validUtf8
  parse_dump : ∀ j t, dump j = some t → parse t = some j
  parse_empty : parse empty = none

/-- A text that is its own syntax tree, or no JSON text at all. -/
def Nlohmann.symbolic : Nlohmann (Option Json) where
  dump j := if j.validUtf8 then some (some j) else none
  parse t := t
  empty := none
  dump_isSome j := by split_ifs with h <;> simp [h]
  parse_dump j t h := by split_ifs at h; cases h; rfl
  parse_empty := rfl

end Kaiten

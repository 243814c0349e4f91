import Kunstkammer.Json

/-!
# Offline operations and their file format

`Offline_operation` of `offline_manager.hpp`, and what `save_operations` and `load_operations` of
`offline_manager.cpp` make of it as JSON.

* `Operation`, `OperationType`;
* `toMillis`, `ofMillis`: time points count nanoseconds, the file has milliseconds;
* `encodeOperation`, `encodeState`: the JSON of one operation and of the whole file;
* `decodeOperation`, `decodeOperations`: the way back; an element that throws ends the loop, and
  what was pushed before it stays;
* `decodeOperation_encodeOperation`, `encodeOperation_validUtf8`.
-/

namespace Kaiten.Offline

/-- `OperationType`: any `int` is one. -/
structure OperationType where
  value : Int32
  deriving DecidableEq

namespace OperationType

def CREATE : OperationType := ⟨0⟩
def UPDATE : OperationType := ⟨1⟩
def DELETE : OperationType := ⟨2⟩
def GET : OperationType := ⟨3⟩

end OperationType

/-- `Offline_operation`; the timestamp counts nanoseconds. -/
structure Operation where
  id : Str
  type : OperationType
  resourceType : Str
  resourceId : Str
  data : Str
  timestamp : Int64
  metadata : OrdMap Str Str
  completed : Bool
  deriving DecidableEq

/-! ### Times -/

/-- `duration_cast<milliseconds>`: toward zero. -/
def toMillis (t : Int64) : Int64 := t / 1000000

/-- The time point of a number of milliseconds. -/
def ofMillis (ms : Int64) : Int64 := ms * 1000000

/-- A time point as it comes back from the file. -/
def truncateMillis (t : Int64) : Int64 := ofMillis (toMillis t)

theorem toInt_toMillis (t : Int64) : (toMillis t).toInt = t.toInt.tdiv 1000000 :=
  Int64.toInt_div_of_ne_right t 1000000 (by decide)

theorem tdiv_mul_range {n : ℤ} (hlo : -2 ^ 63 ≤ n) (hhi : n < 2 ^ 63) :
    -2 ^ 63 ≤ n.tdiv 1000000 * 1000000 ∧ n.tdiv 1000000 * 1000000 < 2 ^ 63 := by
  rw [Int.tdiv_eq_ediv]
  split_ifs with h
  · omega
  · have hsign : Int.sign 1000000 = 1 := rfl
    rw [not_or] at h
    omega

theorem toInt_truncateMillis (t : Int64) :
    (truncateMillis t).toInt = t.toInt.tdiv 1000000 * 1000000 := by
  have hrange := tdiv_mul_range (Int64.le_toInt t) (Int64.toInt_lt t)
  rw [truncateMillis, ofMillis, Int64.toInt_mul, toInt_toMillis,
    show (1000000 : Int64).toInt = 1000000 by decide]
  exact Int.bmod_eq_of_le (by omega) (by omega)

/-- A time point loses its part below a millisecond only once. -/
theorem toMillis_truncateMillis (t : Int64) : toMillis (truncateMillis t) = toMillis t := by
  rw [← Int64.toInt_inj, toInt_toMillis, toInt_truncateMillis, toInt_toMillis,
    Int.mul_tdiv_cancel _ (by decide)]

@[simp] theorem truncateMillis_truncateMillis (t : Int64) :
    truncateMillis (truncateMillis t) = truncateMillis t := by
  rw [truncateMillis, toMillis_truncateMillis, truncateMillis]

/-- An operation as it comes back from the file. -/
def Operation.truncated (op : Operation) : Operation :=
  { op with timestamp := truncateMillis op.timestamp }

-- `op` is taken apart so that the check of `rfl` does not have to look into the arithmetic
@[simp] theorem Operation.truncated_completed (op : Operation) :
    op.truncated.completed = op.completed := by
  cases op; rfl

@[simp] theorem Operation.truncated_truncated (op : Operation) :
    op.truncated.truncated = op.truncated := by
  unfold Operation.truncated
  dsimp only
  rw [truncateMillis_truncateMillis]

/-! ### Encoding -/

def encodeMetadata (metadata : OrdMap Str Str) : Json :=
  .ofPairs (metadata.items.map fun p => (p.1, .string p.2))

/-- The loop body of `save_operations`. -/
def encodeOperation (op : Operation) : Json :=
  .ofPairs [(lit "id", .string op.id), (lit "type", .integer op.type.value.toInt),
    (lit "resource_type", .string op.resourceType), (lit "resource_id", .string op.resourceId),
    (lit "data", .string op.data), (lit "timestamp", .integer (toMillis op.timestamp).toInt),
    (lit "completed", .boolean op.completed), (lit "metadata", encodeMetadata op.metadata)]

/-- The value `save_operations` prints. -/
def encodeState (operations : List Operation) (lastSync : Int64) : Json :=
  .ofPairs [(lit "operations", .array (operations.map encodeOperation)),
    (lit "last_sync", .integer (toMillis lastSync).toInt)]

/-- All strings of the operation are well-formed UTF-8. -/
def Operation.validUtf8 (op : Operation) : Bool :=
  op.id.validUtf8 && op.resourceType.validUtf8 && op.resourceId.validUtf8 && op.data.validUtf8 &&
    op.metadata.items.all fun p => p.1.validUtf8 && p.2.validUtf8

/-! ### Decoding -/

/-- The metadata of an operation: absent or no object, it is empty. -/
def decodeMetadata (j : Json) : Option (OrdMap Str Str) :=
  match j.member? (lit "metadata") with
  | some (.object l) => l.foldlM (fun m p => p.2.getString.map (m.insert p.1)) .empty
  | _ => some .empty

/-- The loop body of `load_operations`; `none` when it throws. -/
def decodeOperation (j : Json) : Option Operation := do
  let id ← j.value Json.getString (lit "id") []
  let type ← j.value Json.getInt (lit "type") 0
  let resourceType ← j.value Json.getString (lit "resource_type") []
  let resourceId ← j.value Json.getString (lit "resource_id") []
  let data ← j.value Json.getString (lit "data") []
  let completed ← j.value Json.getBool (lit "completed") false
  let timestampMs ← j.value Json.getInt64 (lit "timestamp") 0
  let metadata ← decodeMetadata j
  return { id, type := ⟨type⟩, resourceType, resourceId, data, timestamp := ofMillis timestampMs,
           metadata, completed }

/-- The loop of `load_operations`: the operations pushed, and whether it ran to its end. -/
def decodeOperations : List Json → List Operation × Bool
  | [] => ([], true)
  | j :: js =>
      match decodeOperation j with
      | none => ([], false)
      | some op => (op :: (decodeOperations js).1, (decodeOperations js).2)

/-! ### Decoding undoes encoding -/

theorem encodeMetadata_eq (metadata : OrdMap Str Str) :
    encodeMetadata metadata = .object (metadata.items.map fun p => (p.1, .string p.2)) :=
  Json.ofPairs_sorted (metadata.sorted.map Json.string)

/-- The keys of an encoded operation in their order. -/
theorem keys_sorted : [lit "completed", lit "data", lit "id", lit "metadata", lit "resource_id",
    lit "resource_type", lit "timestamp", lit "type"].Pairwise (· < ·) := by
  decide

/-- The members of an encoded operation in the order of their keys. -/
theorem encodeOperation_eq (op : Operation) : encodeOperation op = .object
    [(lit "completed", .boolean op.completed), (lit "data", .string op.data),
      (lit "id", .string op.id), (lit "metadata", encodeMetadata op.metadata),
      (lit "resource_id", .string op.resourceId), (lit "resource_type", .string op.resourceType),
      (lit "timestamp", .integer (toMillis op.timestamp).toInt),
      (lit "type", .integer op.type.value.toInt)] := by
  have h := keys_sorted
  simp only [List.pairwise_cons, List.forall_mem_cons] at h
  simp only [encodeOperation, Json.ofPairs_eq, List.foldl_cons, List.foldl_nil,
    OrdAssoc.insert_nil, OrdAssoc.insert_cons_of_lt, OrdAssoc.insert_cons_of_gt, h]

theorem encodeState_eq (operations : List Operation) (lastSync : Int64) :
    encodeState operations lastSync = .object
      [(lit "last_sync", .integer (toMillis lastSync).toInt),
        (lit "operations", .array (operations.map encodeOperation))] :=
  rfl

theorem foldlM_getString (l : List (Str × Str)) (m : OrdMap Str Str) :
    (l.map fun p => (p.1, Json.string p.2)).foldlM
        (fun (m : OrdMap Str Str) p => p.2.getString.map (m.insert p.1)) m =
      some (l.foldl (fun m p => m.insert p.1 p.2) m) := by
  induction l generalizing m with
  | nil => rfl
  | cons p l ih => exact ih _

theorem decodeMetadata_encodeOperation (op : Operation) :
    decodeMetadata (encodeOperation op) = some op.metadata := by
  have hmember : (encodeOperation op).member? (lit "metadata") =
      some (.object (op.metadata.items.map fun p => (p.1, .string p.2))) := by
    rw [← encodeMetadata_eq]; rfl
  rw [decodeMetadata, hmember]
  exact (foldlM_getString _ _).trans (congrArg some op.metadata.foldl_insert_self)

/-- Every member of an encoded operation is read as it was written. -/
theorem value_encodeOperation (op : Operation) : ∀ p ∈ [(lit "id", Json.string op.id),
    (lit "type", .integer op.type.value.toInt), (lit "resource_type", .string op.resourceType),
    (lit "resource_id", .string op.resourceId), (lit "data", .string op.data),
    (lit "timestamp", .integer (toMillis op.timestamp).toInt),
    (lit "completed", .boolean op.completed), (lit "metadata", encodeMetadata op.metadata)],
    ∀ (T : Type) (get : Json → Option T) (default : T),
      (encodeOperation op).value get p.1 default = get p.2 := by
  have hkeys : [lit "id", lit "type", lit "resource_type", lit "resource_id", lit "data",
      lit "timestamp", lit "completed", lit "metadata"].Nodup := by decide +kernel
  intro p hp T get default
  refine Json.value_ofPairs ?_ hp
  exact hkeys

theorem decodeOperation_encodeOperation (op : Operation) :
    decodeOperation (encodeOperation op) = some op.truncated := by
  have h := value_encodeOperation op
  simp only [List.forall_mem_cons] at h
  obtain ⟨hid, htype, hresourceType, hresourceId, hdata, htimestamp, hcompleted, -⟩ := h
  have hint : Json.getInt (.integer op.type.value.toInt) = some op.type.value :=
    congrArg some (Int32.ofInt_toInt _)
  simp only [decodeOperation, hid, htype, hint, hresourceType, hresourceId, hdata, hcompleted,
    htimestamp, Json.getInt64_integer, decodeMetadata_encodeOperation]
  rfl

theorem decodeOperations_encodeOperation (operations : List Operation) :
    decodeOperations (operations.map encodeOperation) =
      (operations.map Operation.truncated, true) := by
  induction operations with
  | nil => rfl
  | cons op operations ih =>
    rw [List.map_cons, decodeOperations, decodeOperation_encodeOperation, ih]
    rfl

/-! ### What can be printed -/

theorem encodeOperation_validUtf8 (op : Operation) :
    (encodeOperation op).validUtf8 = op.validUtf8 := by
  have hmetadata : (encodeMetadata op.metadata).validUtf8 =
      op.metadata.items.all fun p => p.1.validUtf8 && p.2.validUtf8 := by
    rw [encodeMetadata_eq, Json.validUtf8_object, List.all_map]
    rfl
  rw [encodeOperation_eq, Json.validUtf8_object]
  simp only [List.all_cons, List.all_nil, validUtf8_lit, Json.validUtf8_boolean,
    Json.validUtf8_string, Json.validUtf8_integer, hmetadata, Operation.validUtf8, Bool.true_and,
    Bool.and_true]
  ac_rfl

/-- The file can be printed when every operation can. -/
theorem encodeState_validUtf8 (operations : List Operation) (lastSync : Int64) :
    (encodeState operations lastSync).validUtf8 = operations.all Operation.validUtf8 := by
  rw [encodeState_eq, Json.validUtf8_object]
  simp only [List.all_cons, List.all_nil, validUtf8_lit, Json.validUtf8_integer, Bool.true_and,
    Bool.and_true, Json.validUtf8_array, List.all_map, Function.comp_def, encodeOperation_validUtf8]

end Kaiten.Offline

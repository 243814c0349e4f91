import Kunstkammer.Foundation.Attempts
import Kunstkammer.Offline.Mirror

/-!
# What a failed call leaves behind

The methods that change the queue change it first and save it afterwards; loading empties it first
and reads it afterwards.

* `QueueMethod`: the four methods that change the queue, `QueueMethod.change` what they make of it;
* `LeavesNoTrace`, `leavesNoTrace_iff`: when a call that returns false has changed nothing;
* `IsStoredOperation`: the elements that `load_operations` decodes;
* `AllOrNothing`, `loads_iff`: when a load reads everything or keeps everything, and when
  `initialize` returns true only after such a load.
-/

namespace Kaiten.Offline

variable {Text : Type} {json : Nlohmann Text} {w : World Text}

/-! ### Changing the queue -/

/-- A method that changes the queue. -/
inductive QueueMethod
  | queueOperation (op : Operation)
  | markOperationCompleted (id : Str)
  | removeOperation (id : Str)
  | clearCompletedOperations

namespace QueueMethod

/-- Call the method; `opens` tells whether the file can be opened. -/
def run (json : Nlohmann Text) (opens : Bool) :
    QueueMethod → World Text → Option (Bool × World Text)
  | queueOperation op => Offline.queueOperation json .plain op opens
  | markOperationCompleted id => Offline.markOperationCompleted json .plain id opens
  | removeOperation id => Offline.removeOperation json .plain id opens
  | clearCompletedOperations => Offline.clearCompletedOperations json .plain opens

/-- The queue that is to be saved, if there is anything to do. -/
def change (operations : List Operation) : QueueMethod → Option (List Operation)
  | queueOperation op => some (operations ++ [op])
  | markOperationCompleted id => completeFirst id operations
  | removeOperation id =>
      if operations.any fun op => op.id = id then
        some (operations.filter fun op => !(op.id = id))
      else none
  | clearCompletedOperations =>
      if operations.any fun op => op.completed then some (pendingOf operations) else none

/-- What the method returns when there is nothing to do. -/
def idle : QueueMethod → Bool
  | clearCompletedOperations => true
  | _ => false

/-- The file opens and everything to be saved is UTF-8, if there is anything to do. -/
def Storable (opens : Bool) (operations : List Operation) : QueueMethod → Prop
  | queueOperation op => opens = true ∧ op.validUtf8 = true ∧ ∀ x ∈ operations, x.validUtf8 = true
  | markOperationCompleted id =>
      (∃ x ∈ operations, x.id = id ∧ x.completed = false) →
        opens = true ∧ ∀ x ∈ operations, x.validUtf8 = true
  | removeOperation id =>
      (∃ x ∈ operations, x.id = id) →
        opens = true ∧ ∀ x ∈ operations, x.id ≠ id → x.validUtf8 = true
  | clearCompletedOperations =>
      (∃ x ∈ operations, x.completed = true) →
        opens = true ∧ ∀ x ∈ operations, x.completed = false → x.validUtf8 = true

end QueueMethod

/-- If the call returns false, the operations in memory and the file are what they were. -/
def LeavesNoTrace (json : Nlohmann Text) (opens : Bool) (m : QueueMethod) (w : World Text) : Prop :=
  ∀ w', m.run json opens w = some (false, w') →
    w'.manager.operations = w.manager.operations ∧ w'.file = w.file

/-! #### The queue afterwards -/

theorem completeFirst_eq_none_iff {id : Str} {operations : List Operation} :
    completeFirst id operations = none ↔ ∀ x ∈ operations, x.id = id → x.completed = true := by
  induction operations with
  | nil => simp [completeFirst]
  | cons op operations ih =>
    unfold completeFirst
    by_cases h : op.id = id ∧ op.completed = false
    · simp [h]
    · rw [if_neg h, Option.map_eq_none_iff, ih, List.forall_mem_cons]
      refine (and_iff_right fun hid => ?_).symm
      by_contra hcompleted
      exact h ⟨hid, eq_false_of_ne_true hcompleted⟩

/-- Completing an operation changes none of its strings. -/
theorem validUtf8_completed (op : Operation) (b : Bool) :
    { op with completed := b }.validUtf8 = op.validUtf8 := by
  cases op; rfl

theorem completeFirst_validUtf8 {id : Str} {operations operations' : List Operation}
    (h : completeFirst id operations = some operations') :
    operations'.all Operation.validUtf8 = operations.all Operation.validUtf8 := by
  obtain ⟨front, op, rest, rfl, -, -, rfl⟩ := completeFirst_eq_some h
  rw [List.all_append, List.all_append, List.all_cons, List.all_cons, validUtf8_completed]

theorem completeFirst_ne {id : Str} {operations operations' : List Operation}
    (h : completeFirst id operations = some operations') : operations' ≠ operations := by
  obtain ⟨front, op, rest, rfl, -, hpending, rfl⟩ := completeFirst_eq_some h
  intro heq
  have hop := (List.cons.inj (List.append_cancel_left heq)).1
  have hcompleted : true = op.completed := congrArg Operation.completed hop
  rw [hpending] at hcompleted
  cases hcompleted

/-- A queue that is to be saved is another one. -/
theorem QueueMethod.change_ne {m : QueueMethod} {operations operations' : List Operation}
    (h : m.change operations = some operations') : operations' ≠ operations := by
  cases m with
  | queueOperation op =>
    cases h
    simp
  | markOperationCompleted id => exact completeFirst_ne h
  | removeOperation id =>
    simp only [change] at h
    split_ifs at h with hany
    cases h
    obtain ⟨x, hx, hid⟩ := List.any_eq_true.1 hany
    intro heq
    have hkept := List.filter_eq_self.1 heq x hx
    simp [of_decide_eq_true hid] at hkept
  | clearCompletedOperations =>
    simp only [change] at h
    split_ifs at h with hany
    cases h
    obtain ⟨x, hx, hcompleted⟩ := List.any_eq_true.1 hany
    intro heq
    have hkept := List.filter_eq_self.1 heq x hx
    simp [hcompleted] at hkept

/-- What is to be saved can be, exactly when the queue is storable. -/
theorem QueueMethod.storable_iff {m : QueueMethod} {opens : Bool} {operations : List Operation} :
    m.Storable opens operations ↔ ∀ operations', m.change operations = some operations' →
      opens = true ∧ operations'.all Operation.validUtf8 = true := by
  cases m with
  | queueOperation op =>
    simp only [Storable, change, Option.some.injEq, forall_eq', List.all_eq_true,
      List.forall_mem_append, List.forall_mem_singleton]
    exact and_congr_right fun _ => and_comm
  | markOperationCompleted id =>
    simp only [Storable, change]
    cases hchange : completeFirst id operations with
    | none =>
      refine iff_of_true ?_ (by simp)
      rintro ⟨x, hx, hid, hpending⟩
      have hcompleted := completeFirst_eq_none_iff.1 hchange x hx hid
      rw [hpending] at hcompleted
      cases hcompleted
    | some operations' =>
      have hexists : ∃ x ∈ operations, x.id = id ∧ x.completed = false := by
        by_contra hnone
        push Not at hnone
        have habs := completeFirst_eq_none_iff.2 fun x hx hid =>
          eq_true_of_ne_false (hnone x hx hid)
        rw [habs] at hchange
        cases hchange
      have hvalid := completeFirst_validUtf8 hchange
      simp only [hexists, forall_const, Option.some.injEq, forall_eq']
      rw [hvalid, List.all_eq_true]
  | removeOperation id =>
    simp only [Storable, change]
    by_cases hany : operations.any (fun op => op.id = id) = true
    · have hexists : ∃ x ∈ operations, x.id = id := by simpa using hany
      simp [hexists, hany]
    · have hnone : ¬ ∃ x ∈ operations, x.id = id := by simpa using hany
      simp [hnone, hany]
  | clearCompletedOperations =>
    simp only [Storable, change]
    by_cases hany : operations.any (fun op => op.completed) = true
    · have hexists : ∃ x ∈ operations, x.completed = true := by simpa using hany
      simp [hexists, hany, pendingOf]
    · have hnone : ¬ ∃ x ∈ operations, x.completed = true := by simpa using hany
      simp [hnone, hany]

/-! #### The call -/

/-- **One call of a method**: the change is made and then saved. -/
theorem QueueMethod.run_eq (hdepth : w.depth = 0) (hinit : w.manager.initialized = true)
    (m : QueueMethod) (opens : Bool) : m.run json opens w =
      some ((m.change w.manager.operations).elim (m.idle, w) fun operations =>
        saveOperations json opens (w.setOperations operations)) := by
  cases m with
  | queueOperation op => exact (queueOperation_eq (.inl hdepth) op opens).trans (if_pos hinit)
  | markOperationCompleted id =>
    refine (markOperationCompleted_eq (.inl hdepth) id opens).trans ?_
    simp only [change]
    cases completeFirst id w.manager.operations <;> rfl
  | removeOperation id =>
    refine (removeOperation_eq (.inl hdepth) id opens).trans ?_
    simp only [change]
    split_ifs <;> rfl
  | clearCompletedOperations =>
    refine (clearCompletedOperations_eq (.inl hdepth) opens).trans ?_
    simp only [change]
    split_ifs <;> rfl

theorem saveOperations_fst (opens : Bool) (w : World Text) : (saveOperations json opens w).1 =
    (opens && w.manager.operations.all Operation.validUtf8) := by
  have hdump := json.dump_isSome (encodeState w.manager.operations w.manager.lastSync)
  rw [encodeState_validUtf8] at hdump
  rw [← hdump]
  unfold saveOperations
  cases opens with
  | false => rfl
  | true =>
    cases json.dump (encodeState w.manager.operations w.manager.lastSync) <;> rfl

/-- **A failed call leaves no trace** exactly when what is to be saved can be saved. -/
theorem leavesNoTrace_iff (json : Nlohmann Text) (hdepth : w.depth = 0)
    (hinit : w.manager.initialized = true) (opens : Bool) (m : QueueMethod) :
    LeavesNoTrace json opens m w ↔ m.Storable opens w.manager.operations := by
  rw [QueueMethod.storable_iff]
  unfold LeavesNoTrace
  rw [m.run_eq hdepth hinit]
  cases hchange : m.change w.manager.operations with
  | none =>
    refine iff_of_true (fun w' h => ?_) (by simp)
    obtain ⟨-, rfl⟩ := Prod.mk.inj (Option.some.inj h)
    exact ⟨rfl, rfl⟩
  | some operations =>
    have hfst : (saveOperations json opens (w.setOperations operations)).1 =
        (opens && operations.all Operation.validUtf8) := saveOperations_fst opens _
    rw [Option.elim_some]
    constructor
    · intro h operations' hoperations'
      cases hoperations'
      by_contra hfails
      have hfalse : (saveOperations json opens (w.setOperations operations)).1 = false := by
        rw [hfst]
        simpa using hfails
      -- the save has failed, and the change is still there
      have hsame := (h (saveOperations json opens (w.setOperations operations)).2
        (by rw [← hfalse])).1
      rw [saveOperations_manager] at hsame
      exact QueueMethod.change_ne hchange hsame
    · intro h w' hw'
      have htrue : (saveOperations json opens (w.setOperations operations)).1 = true := by
        rw [hfst]
        simpa using h operations rfl
      rw [Option.some.inj hw'] at htrue
      cases htrue

/-- Nothing has the id, so there is nothing to save. -/
theorem leavesNoTrace_iff_absent : LeavesNoTrace .symbolic false (.removeOperation (lit "op_2"))
    { manager := { operations := [sampleOperation], initialized := true }, file := none } :=
  (leavesNoTrace_iff .symbolic rfl rfl false _).2 fun ⟨x, hx, hid⟩ => by
    rw [List.mem_singleton.1 hx] at hid
    exact absurd hid (by decide)

/-- An operation whose data is a byte that no text has. -/
def unprintableOperation : Operation := { sampleOperation with data := [255] }

/-- The operation is refused and stays in the queue, and the file is gone. -/
theorem refused_operation_stays :
    ∃ w, (machine .symbolic .plain).run (construct none) queueRun = some w ∧
      w.manager.initialized = true ∧ w.file ≠ some Nlohmann.symbolic.empty ∧
      ¬ LeavesNoTrace .symbolic true (.queueOperation unprintableOperation) w ∧
      ∃ w', (QueueMethod.queueOperation unprintableOperation).run .symbolic true w =
          some (false, w') ∧
        w'.manager.operations = [sampleOperation, unprintableOperation] ∧
        w'.file = some Nlohmann.symbolic.empty := by
  refine ⟨_, rfl, rfl, fun h => (by cases h), fun h => ?_, _, rfl, rfl, rfl⟩
  have hsame := congrArg List.length (h _ rfl).1
  exact absurd hsame (by decide)

/-! ### Reading the file -/

/-- An element that `load_operations` decodes: an object whose members, where they are there, have
the types they are read with; metadata that is an object has strings only. -/
structure IsStoredOperation (j : Json) : Prop where
  object : ∃ l, j = .object l
  id : ∀ v, j.member? (lit "id") = some v → v.getString.isSome
  type : ∀ v, j.member? (lit "type") = some v → v.getInt.isSome
  resourceType : ∀ v, j.member? (lit "resource_type") = some v → v.getString.isSome
  resourceId : ∀ v, j.member? (lit "resource_id") = some v → v.getString.isSome
  data : ∀ v, j.member? (lit "data") = some v → v.getString.isSome
  completed : ∀ v, j.member? (lit "completed") = some v → v.getBool.isSome
  timestamp : ∀ v, j.member? (lit "timestamp") = some v → v.getInt64.isSome
  metadata : ∀ l, j.member? (lit "metadata") = some (.object l) → ∀ p ∈ l, p.2.getString.isSome

theorem foldlM_getString_isSome_iff (l : List (Str × Json)) (m : OrdMap Str Str) :
    (l.foldlM (fun (m : OrdMap Str Str) (p : Str × Json) => p.2.getString.map (m.insert p.1))
      m).isSome ↔ ∀ p ∈ l, p.2.getString.isSome := by
  induction l generalizing m with
  | nil => exact iff_of_true rfl (List.forall_mem_nil _)
  | cons p l ih =>
    rw [List.foldlM_cons, List.forall_mem_cons]
    cases hp : p.2.getString with
    | none => simp
    | some t => exact (ih _).trans (by simp)

theorem decodeMetadata_isSome_iff {j : Json} : (decodeMetadata j).isSome ↔
    ∀ l, j.member? (lit "metadata") = some (.object l) → ∀ p ∈ l, p.2.getString.isSome := by
  unfold decodeMetadata
  cases hmember : j.member? (lit "metadata") with
  | none => simp
  | some v =>
    cases v with
    | object l =>
      refine (foldlM_getString_isSome_iff l .empty).trans ⟨fun h l' hl' => ?_, fun h => h l rfl⟩
      cases hl'
      exact h
    | _ => simp

/-- **The elements that can be decoded.** -/
theorem decodeOperation_isSome_iff {j : Json} :
    (decodeOperation j).isSome ↔ IsStoredOperation j := by
  have hsplit : (decodeOperation j).isSome ↔
      (j.value Json.getString (lit "id") []).isSome ∧ (j.value Json.getInt (lit "type") 0).isSome ∧
      (j.value Json.getString (lit "resource_type") []).isSome ∧
      (j.value Json.getString (lit "resource_id") []).isSome ∧
      (j.value Json.getString (lit "data") []).isSome ∧
      (j.value Json.getBool (lit "completed") false).isSome ∧
      (j.value Json.getInt64 (lit "timestamp") 0).isSome ∧ (decodeMetadata j).isSome := by
    unfold decodeOperation
    refine isSome_bind_iff fun _ => isSome_bind_iff fun _ => isSome_bind_iff fun _ =>
      isSome_bind_iff fun _ => isSome_bind_iff fun _ => isSome_bind_iff fun _ =>
      isSome_bind_iff fun _ => ?_
    exact (isSome_bind_iff (p := True) fun _ => by simp).trans (iff_of_eq (and_true _))
  rw [hsplit]
  simp only [Json.value_isSome_iff, decodeMetadata_isSome_iff]
  constructor
  · rintro ⟨⟨hobject, hid⟩, ⟨-, htype⟩, ⟨-, hresourceType⟩, ⟨-, hresourceId⟩, ⟨-, hdata⟩,
      ⟨-, hcompleted⟩, ⟨-, htimestamp⟩, hmetadata⟩
    exact ⟨hobject, hid, htype, hresourceType, hresourceId, hdata, hcompleted, htimestamp,
      hmetadata⟩
  · intro h
    exact ⟨⟨h.object, h.id⟩, ⟨h.object, h.type⟩, ⟨h.object, h.resourceType⟩,
      ⟨h.object, h.resourceId⟩, ⟨h.object, h.data⟩, ⟨h.object, h.completed⟩,
      ⟨h.object, h.timestamp⟩, h.metadata⟩

/-- What is decoded before the loop ends. -/
theorem decodeOperations_fst_eq_iff {js : List Json} {operations : List Operation} :
    (decodeOperations js).1 = operations ↔ ∃ front rest, js = front ++ rest ∧
      List.Forall₂ (fun v op => decodeOperation v = some op) front operations ∧
      ∀ v ∈ rest.head?, ¬ IsStoredOperation v := by
  induction js generalizing operations with
  | nil =>
    constructor
    · rintro rfl
      exact ⟨[], [], rfl, .nil, by simp⟩
    · rintro ⟨front, rest, happend, hall, -⟩
      obtain ⟨rfl, rfl⟩ := List.append_eq_nil_iff.1 happend.symm
      cases hall
      rfl
  | cons v js ih =>
    rw [decodeOperations]
    cases hv : decodeOperation v with
    | none =>
      have hmalformed : ¬ IsStoredOperation v := by
        rw [← decodeOperation_isSome_iff, hv]
        simp
      constructor
      · rintro rfl
        exact ⟨[], v :: js, rfl, .nil, by simpa using hmalformed⟩
      · rintro ⟨front, rest, happend, hall, -⟩
        cases hall with
        | nil => rfl
        | cons hfirst _ =>
          obtain ⟨rfl, -⟩ := List.cons.inj happend
          rw [hv] at hfirst
          cases hfirst
    | some op =>
      constructor
      · rintro rfl
        obtain ⟨front, rest, happend, hall, hend⟩ := ih.1 rfl
        exact ⟨v :: front, rest, congrArg (v :: ·) happend, .cons hv hall, hend⟩
      · rintro ⟨front, rest, happend, hall, hend⟩
        cases hall with
        | nil =>
          -- the loop does not end at an element that can be decoded
          rw [← (show v :: js = rest from happend)] at hend
          refine absurd (decodeOperation_isSome_iff.1 ?_) (hend v rfl)
          rw [hv, Option.isSome_some]
        | cons hfirst hrest =>
          obtain ⟨rfl, hjs⟩ := List.cons.inj happend
          rw [hv] at hfirst
          cases hfirst
          exact congrArg (op :: ·) (ih.2 ⟨_, rest, hjs, hrest, hend⟩)

theorem decodeOperations_snd_iff {js : List Json} :
    (decodeOperations js).2 = true ↔ ∀ v ∈ js, IsStoredOperation v := by
  induction js with
  | nil => simp [decodeOperations]
  | cons v js ih =>
    rw [List.forall_mem_cons, ← decodeOperation_isSome_iff, decodeOperations]
    cases decodeOperation v with
    | none => simp
    | some op => simpa using ih

/-! ### Loading -/

/-- Every element of the operations array of the text is decoded, and these are the operations. -/
def DecodesAll (json : Nlohmann Text) (text : Text) (operations : List Operation) : Prop :=
  ∃ j, json.parse text = some j ∧
    List.Forall₂ (fun v op => decodeOperation v = some op) (storedOperations j) operations

/-- A load returns true and has every element of the file, or returns false and keeps what was in
memory. -/
def AllOrNothing (json : Nlohmann Text) (w : World Text) : Prop :=
  ((loadOperations json w).1 = true ∧ ∀ text, w.file = some text →
      DecodesAll json text (loadOperations json w).2.manager.operations) ∨
    ((loadOperations json w).1 = false ∧
      (loadOperations json w).2.manager.operations = w.manager.operations ∧
      (loadOperations json w).2.manager.lastSync = w.manager.lastSync)

/-- `initialize` returns true only when there is no file, or all of it was loaded. -/
def InitializesInFull (json : Nlohmann Text) (dirOk : Bool) (w : World Text) : Prop :=
  ∀ w', initializeManager json .plain dirOk w = some (true, w') → ∀ text, w.file = some text →
    (loadOperations json w).1 = true ∧ DecodesAll json text w'.manager.operations

/-- A value all of whose elements can be decoded, and whose time of the last synchronisation, if it
is there, is a number. -/
structure IsStoredState (j : Json) : Prop where
  operations : ∀ v ∈ storedOperations j, IsStoredOperation v
  lastSync : ∀ v, j.member? (lit "last_sync") = some v → v.getInt64.isSome

/-- The elements before the first one that cannot be decoded are the operations `operations`. -/
def StopsAt (operations : List Operation) (j : Json) : Prop :=
  ∃ front rest, storedOperations j = front ++ rest ∧
    List.Forall₂ (fun v op => decodeOperation v = some op) front operations ∧
    ∀ v ∈ rest.head?, ¬ IsStoredOperation v

theorem decodeOperations_eq_of_true {js : List Json} (h : (decodeOperations js).2 = true) :
    List.Forall₂ (fun v op => decodeOperation v = some op) js (decodeOperations js).1 := by
  have hfront : (decodeOperations js).1 = (decodeOperations js).1 := rfl
  obtain ⟨front, rest, happend, hall, hend⟩ := decodeOperations_fst_eq_iff.1 hfront
  cases rest with
  | nil =>
    rw [List.append_nil] at happend
    rwa [← happend] at hall
  | cons v rest =>
    have hv := decodeOperations_snd_iff.1 h v (by rw [happend]; simp)
    exact absurd hv (hend v rfl)

/-- What a load does with a file that is JSON. -/
theorem loadOperations_of_parse {text : Text} {j : Json} (hfile : w.file = some text)
    (hparse : json.parse text = some j) :
    ((loadOperations json w).1 = true ↔ IsStoredState j) ∧
      (loadOperations json w).2.manager.operations = (decodeOperations (storedOperations j)).1 ∧
      ((loadOperations json w).1 = false →
        (loadOperations json w).2.manager.lastSync = w.manager.lastSync) := by
  have hstate : IsStoredState j ↔ (decodeOperations (storedOperations j)).2 = true ∧
      ∀ v, j.member? (lit "last_sync") = some v → v.getInt64.isSome := by
    rw [decodeOperations_snd_iff]
    exact ⟨fun h => ⟨h.operations, h.lastSync⟩, fun h => ⟨h.1, h.2⟩⟩
  rw [hstate]
  unfold loadOperations
  rw [hfile]
  dsimp only
  rw [hparse]
  dsimp only
  by_cases hall : (decodeOperations (storedOperations j)).2 = true
  · rw [if_pos hall]
    cases hsync : j.member? (lit "last_sync") with
    | none => simp [hall, World.setOperations]
    | some v =>
      cases hms : v.getInt64 with
      | none => simp [hall, hms, World.setOperations]
      | some ms => simp [hall, hms, World.setOperations]
  · rw [if_neg hall]
    simp [hall, World.setOperations]

/-- A load is all or nothing exactly when the file is absent or no JSON, or can be read to its end,
or stops after the operations that are in memory already. -/
theorem allOrNothing_iff : AllOrNothing json w ↔ ∀ text j, w.file = some text →
    json.parse text = some j → IsStoredState j ∨ StopsAt w.manager.operations j := by
  unfold AllOrNothing
  cases hfile : w.file with
  | none =>
    have hload := loadOperations_of_absent json hfile
    refine iff_of_true (Or.inl ⟨by rw [hload], fun text h => (by cases h)⟩) fun text j h => ?_
    cases h
  | some text =>
    cases hparse : json.parse text with
    | none =>
      have hload := loadOperations_of_unparsed hfile hparse
      refine iff_of_true (Or.inr (by rw [hload]; exact ⟨rfl, rfl, rfl⟩)) fun text' j h hj => ?_
      cases h
      rw [hparse] at hj
      cases hj
    | some j =>
      obtain ⟨htrue, hoperations, hsync⟩ := loadOperations_of_parse hfile hparse
      constructor
      · intro h text' j' htext' hj'
        cases htext'
        rw [hparse] at hj'
        cases hj'
        rcases h with ⟨hok, -⟩ | ⟨-, hkept, -⟩
        · exact Or.inl (htrue.1 hok)
        · rw [hoperations] at hkept
          exact Or.inr (decodeOperations_fst_eq_iff.1 hkept)
      · intro h
        by_cases hok : (loadOperations json w).1 = true
        · refine Or.inl ⟨hok, fun text' htext' => ?_⟩
          cases htext'
          refine ⟨j, hparse, ?_⟩
          rw [hoperations]
          exact decodeOperations_eq_of_true (decodeOperations_snd_iff.2 (htrue.1 hok).operations)
        · rw [Bool.not_eq_true] at hok
          refine Or.inr ⟨hok, ?_, hsync hok⟩
          rcases h text j rfl hparse with hstate | hstops
          · rw [htrue.2 hstate] at hok
            cases hok
          · rw [hoperations]
            exact decodeOperations_fst_eq_iff.2 hstops

/-- `initialize` reports what it has loaded exactly when there is nothing to report. -/
theorem initializesInFull_iff (hdepth : w.depth = 0) (dirOk : Bool) :
    InitializesInFull json dirOk w ↔ (dirOk = true → ∀ text, w.file = some text →
      ∃ j, json.parse text = some j ∧ IsStoredState j) := by
  unfold InitializesInFull
  rw [initializeManager_eq (.inl hdepth)]
  cases dirOk with
  | false => exact iff_of_true (fun w' h => by cases h) fun h => by cases h
  | true =>
    rw [if_pos rfl]
    constructor
    · intro h _ text htext
      obtain ⟨hok, j, hparse, -⟩ := h _ rfl text htext
      exact ⟨j, hparse, (loadOperations_of_parse htext hparse).1.1 hok⟩
    · intro h w' hw' text htext
      cases hw'
      obtain ⟨j, hparse, hstate⟩ := h rfl text htext
      obtain ⟨htrue, hoperations, -⟩ := loadOperations_of_parse htext hparse
      refine ⟨htrue.2 hstate, j, hparse, ?_⟩
      show List.Forall₂ _ _ (loadOperations json w).2.manager.operations
      rw [hoperations]
      exact decodeOperations_eq_of_true (decodeOperations_snd_iff.2 hstate.operations)

/-- **A load reads everything or keeps everything**, and `initialize` returns true only after a load
of everything, exactly under these conditions. -/
theorem loads_iff (json : Nlohmann Text) (hdepth : w.depth = 0) (dirOk : Bool) :
    (AllOrNothing json w ↔ ∀ text j, w.file = some text → json.parse text = some j →
        IsStoredState j ∨ StopsAt w.manager.operations j) ∧
      (InitializesInFull json dirOk w ↔ (dirOk = true → ∀ text, w.file = some text →
        ∃ j, json.parse text = some j ∧ IsStoredState j)) :=
  ⟨allOrNothing_iff, initializesInFull_iff hdepth dirOk⟩

/-- A file with one operation that has no members. -/
def bareFile : Json := .object [(lit "operations", .array [.object []])]

theorem bareFile_stored : IsStoredState bareFile := by
  have habsent (key : Str) : (Json.object []).member? key = none := rfl
  constructor
  · intro v hv
    rw [List.mem_singleton.1 (show v ∈ [Json.object []] from hv)]
    constructor
    · exact ⟨[], rfl⟩
    all_goals simp [habsent]
  · intro v hv
    cases hv

theorem loads_iff_bare : AllOrNothing .symbolic (construct (some (some bareFile))) ∧
    InitializesInFull .symbolic true (construct (some (some bareFile))) := by
  have h := loads_iff .symbolic (w := construct (some (some bareFile))) rfl true
  refine ⟨h.1.2 fun text j htext hj => Or.inl ?_, h.2.2 fun _ text htext => ?_⟩
  · cases htext
    cases hj
    exact bareFile_stored
  · cases htext
    exact ⟨bareFile, rfl, bareFile_stored⟩

/-- A file whose second operation has a number for an id. -/
def brokenFile : Json := .object [(lit "operations", .array
  [.object [(lit "id", .string (lit "op_1"))], .object [(lit "id", .integer 7)]])]

/-- The load fails and leaves the first operation behind, and `initialize` returns true. -/
theorem half_loaded : ¬ AllOrNothing .symbolic (construct (some (some brokenFile))) ∧
    ¬ InitializesInFull .symbolic true (construct (some (some brokenFile))) := by
  constructor
  · rintro (⟨hok, -⟩ | ⟨-, hkept, -⟩)
    · exact absurd hok (by decide)
    · exact absurd (congrArg List.length hkept) (by decide)
  · intro h
    exact absurd (h _ rfl _ rfl).1 (by decide)

end Kaiten.Offline

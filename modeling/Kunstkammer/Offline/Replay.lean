import Kunstkammer.Offline.Durability
import Kunstkammer.Offline.Failures

/-!
# Replaying the pending operations

`process_pending_operations` with a mutex that its owner may lock again, and with an arbitrary
`process_operation`.  It walks over a copy of the pending operations and completes, for each
success, the first operation still pending with the same id.

* `completeAll`: what the loop does to the queue; `replayed`: what it is to do;
* `SuccessesFirst`: among the pending operations with one id, those that succeed come first;
* `completeAll_append_iff`: the two agree exactly then;
* `Replays`: the replay machine, which counts how often each operation was processed successfully;
* `replays_exactly`.
-/

namespace Kaiten.Offline

variable {Text : Type} {json : Nlohmann Text} {w : World Text} {process : Operation → Bool}

/-! ### The loop on the queue -/

/-- The completions of the loop, for the copied operations `pending`. -/
def completeAll (process : Operation → Bool) : List Operation → List Operation → List Operation
  | [], operations => operations
  | op :: pending, operations =>
      if process op then
        completeAll process pending ((completeFirst op.id operations).getD operations)
      else completeAll process pending operations

/-- An operation after the replay: completed if it was pending and succeeded. -/
def replayedOperation (process : Operation → Bool) (op : Operation) : Operation :=
  if op.completed = false ∧ process op = true then { op with completed := true } else op

/-- The queue with exactly those operations completed that were pending and succeeded. -/
def replayed (process : Operation → Bool) (operations : List Operation) : List Operation :=
  operations.map (replayedOperation process)

/-- Of two pending operations with one id, the first one succeeds if the second one does. -/
def SuccessesFirst (process : Operation → Bool) (pending : List Operation) : Prop :=
  pending.Pairwise fun a b => a.id = b.id → process b = true → process a = true

/-- Unique ids are in order. -/
theorem successesFirst_of_nodup {pending : List Operation}
    (h : (pending.map Operation.id).Nodup) : SuccessesFirst process pending :=
  (List.pairwise_map.1 h).imp fun hne hid => absurd hid hne

/-- An operation that succeeds has no pending operation with its id in `done`. -/
def NoClash (process : Operation → Bool) (done operations : List Operation) : Prop :=
  ∀ x ∈ done, x.completed = false → ∀ op ∈ pendingOf operations, x.id = op.id → process op = false

theorem completeFirst_append (id : Str) (front rest : List Operation) :
    completeFirst id (front ++ rest) = ((completeFirst id front).map (· ++ rest)).or
      ((completeFirst id rest).map (front ++ ·)) := by
  induction front with
  | nil => simp [completeFirst]
  | cons op front ih =>
    rw [List.cons_append, completeFirst, completeFirst]
    split_ifs with hop
    · rfl
    · rw [ih]
      cases completeFirst id front with
      | some front' => rfl
      | none => cases completeFirst id rest <;> rfl

/-- Everything completed in the first list is completed in the second one. -/
def KeepsCompleted : List Operation → List Operation → Prop :=
  List.Forall₂ fun a b => a.completed = true → b.completed = true

theorem KeepsCompleted.refl (operations : List Operation) : KeepsCompleted operations operations :=
  List.forall₂_same.2 fun _ _ => id

theorem KeepsCompleted.completeFirst (id : Str) (operations : List Operation) :
    KeepsCompleted operations ((completeFirst id operations).getD operations) := by
  cases h : Offline.completeFirst id operations with
  | none => exact KeepsCompleted.refl operations
  | some operations' =>
    obtain ⟨front, op, rest, rfl, -, -, rfl⟩ := completeFirst_eq_some h
    exact List.rel_append (KeepsCompleted.refl front)
      (.cons (fun _ => rfl) (KeepsCompleted.refl rest))

theorem KeepsCompleted.trans {a b c : List Operation} (h : KeepsCompleted a b)
    (h' : KeepsCompleted b c) : KeepsCompleted a c := by
  induction h generalizing c with
  | nil => exact h'
  | cons hhead _ ih =>
    cases h' with
    | cons hhead' htail' => exact .cons (fun hx => hhead' (hhead hx)) (ih htail')

theorem keepsCompleted_of_map {a b : List Operation}
    (h : a.map Operation.completed = b.map Operation.completed) : KeepsCompleted a b := by
  induction a generalizing b with
  | nil =>
    rw [List.map_nil, eq_comm, List.map_eq_nil_iff] at h
    rw [h]
    exact .nil
  | cons op a ih =>
    cases b with
    | nil => cases h
    | cons op' b =>
      obtain ⟨hhead, htail⟩ := List.cons.inj h
      exact .cons (fun hop => hhead.symm.trans hop) (ih htail)

/-- The loop takes no completion back. -/
theorem keepsCompleted_completeAll (process : Operation → Bool)
    (pending operations : List Operation) :
    KeepsCompleted operations (completeAll process pending operations) := by
  induction pending generalizing operations with
  | nil => exact KeepsCompleted.refl operations
  | cons op pending ih =>
    unfold completeAll
    split_ifs
    · exact (KeepsCompleted.completeFirst op.id operations).trans (ih _)
    · exact ih operations

/-- A list in which an operation was completed is not kept by the one before. -/
theorem not_keepsCompleted_of_completeFirst {id : Str} {operations operations' : List Operation}
    (h : completeFirst id operations = some operations') :
    ¬ KeepsCompleted operations' operations := by
  obtain ⟨front, op, rest, rfl, -, hpending, rfl⟩ := completeFirst_eq_some h
  intro hkept
  have hrest := List.forall₂_drop front.length hkept
  rw [List.drop_left, List.drop_left] at hrest
  have hop := (List.forall₂_cons.1 hrest).1 rfl
  rw [hpending] at hop
  cases hop

theorem KeepsCompleted.of_append {a a' b b' : List Operation}
    (h : KeepsCompleted (a ++ b) (a' ++ b')) (hlength : a.length = a'.length) :
    KeepsCompleted a a' := by
  have htake := List.forall₂_take a.length h
  rwa [List.take_left, hlength, List.take_left] at htake

theorem completeFirst_length {id : Str} {operations operations' : List Operation}
    (h : completeFirst id operations = some operations') :
    operations'.length = operations.length := by
  have hcontent := congrArg List.length (map_content_completeFirst h)
  simpa using hcontent

/-- Once an operation of `done` was completed, it is never again as it was. -/
theorem completeAll_ne_of_clash {id : Str} {done done' : List Operation}
    (h : completeFirst id done = some done') (pending rest rest' : List Operation) :
    completeAll process pending (done' ++ rest) ≠ done ++ rest' := by
  intro heq
  have hkept := keepsCompleted_completeAll process pending (done' ++ rest)
  rw [heq] at hkept
  exact not_keepsCompleted_of_completeFirst h (hkept.of_append (completeFirst_length h))

theorem pendingOf_cons (op : Operation) (operations : List Operation) :
    pendingOf (op :: operations) =
      if op.completed = false then op :: pendingOf operations else pendingOf operations := by
  unfold pendingOf
  rw [List.filter_cons]
  cases op.completed <;> rfl

/-- The operation in front of `operations` moves over to those that are done. -/
theorem noClash_concat_iff {op op' : Operation} {done operations : List Operation}
    (hid : op'.id = op.id) : NoClash process (done ++ [op']) operations ↔
      NoClash process done operations ∧ (op'.completed = false →
        ∀ b ∈ pendingOf operations, op.id = b.id → process b = false) := by
  unfold NoClash
  rw [List.forall_mem_append, List.forall_mem_singleton, hid]

theorem noClash_cons_iff {op : Operation} {done operations : List Operation}
    (hop : op.completed = false) : NoClash process done (op :: operations) ↔
      NoClash process done operations ∧
        ∀ x ∈ done, x.completed = false → x.id = op.id → process op = false := by
  unfold NoClash
  rw [pendingOf_cons, if_pos hop]
  simp only [List.forall_mem_cons]
  constructor
  · intro h
    exact ⟨fun x hx hpending => (h x hx hpending).2, fun x hx hpending => (h x hx hpending).1⟩
  · rintro ⟨hrest, hfirst⟩ x hx hpending
    exact ⟨hfirst x hx hpending, hrest x hx hpending⟩

/-- A success meets no pending operation with its id when there is none to be completed. -/
theorem noClash_head_iff {op : Operation} {done : List Operation} (hsuccess : process op = true) :
    (∀ x ∈ done, x.completed = false → x.id = op.id → process op = false) ↔
      completeFirst op.id done = none := by
  rw [completeFirst_eq_none_iff]
  constructor
  · intro hclear x hx hid
    by_contra hpending
    rw [hclear x hx (eq_false_of_ne_true hpending) hid] at hsuccess
    cases hsuccess
  · intro hdone x hx hpending hid
    rw [hdone x hx hid] at hpending
    cases hpending

section Moving

variable {op : Operation} {done operations : List Operation}

/-- An operation that was completed before is passed by. -/
theorem inOrder_cons_completed (hcompleted : ¬ op.completed = false) :
    NoClash process (done ++ [op]) operations ∧ SuccessesFirst process (pendingOf operations) ↔
      NoClash process done (op :: operations) ∧
        SuccessesFirst process (pendingOf (op :: operations)) := by
  have hskip : NoClash process done (op :: operations) ↔ NoClash process done operations := by
    unfold NoClash
    rw [pendingOf_cons, if_neg hcompleted]
  rw [hskip, pendingOf_cons, if_neg hcompleted, noClash_concat_iff rfl]
  constructor
  · rintro ⟨⟨hrest, -⟩, hpairs⟩
    exact ⟨hrest, hpairs⟩
  · rintro ⟨hrest, hpairs⟩
    exact ⟨⟨hrest, fun h => absurd h hcompleted⟩, hpairs⟩

/-- One that fails stays pending, so no later one with its id may succeed. -/
theorem inOrder_cons_failed (hpending : op.completed = false) (hfails : process op = false) :
    NoClash process (done ++ [op]) operations ∧ SuccessesFirst process (pendingOf operations) ↔
      NoClash process done (op :: operations) ∧
        SuccessesFirst process (pendingOf (op :: operations)) := by
  rw [pendingOf_cons, if_pos hpending, noClash_cons_iff hpending, SuccessesFirst, SuccessesFirst,
    List.pairwise_cons, noClash_concat_iff rfl]
  constructor
  · rintro ⟨⟨hrest, hbehind⟩, hpairs⟩
    refine ⟨⟨hrest, fun _ _ _ _ => hfails⟩, fun b hb hid hb' => ?_, hpairs⟩
    rw [hbehind hpending b hb hid] at hb'
    cases hb'
  · rintro ⟨⟨hrest, -⟩, hfirst, hpairs⟩
    refine ⟨⟨hrest, fun _ b hb hid => ?_⟩, hpairs⟩
    by_contra hb'
    rw [hfirst b hb hid (eq_true_of_ne_false hb')] at hfails
    cases hfails

/-- One that succeeds is completed, unless one with its id is pending before it. -/
theorem inOrder_cons_succeeded (hpending : op.completed = false) (hsuccess : process op = true)
    (hdone : completeFirst op.id done = none) :
    NoClash process (done ++ [{ op with completed := true }]) operations ∧
        SuccessesFirst process (pendingOf operations) ↔
      NoClash process done (op :: operations) ∧
        SuccessesFirst process (pendingOf (op :: operations)) := by
  have hid : ({ op with completed := true } : Operation).id = op.id := rfl
  rw [pendingOf_cons, if_pos hpending, noClash_cons_iff hpending, SuccessesFirst, SuccessesFirst,
    List.pairwise_cons, noClash_head_iff hsuccess, noClash_concat_iff hid]
  constructor
  · rintro ⟨⟨hrest, -⟩, hpairs⟩
    exact ⟨⟨hrest, hdone⟩, fun b _ _ _ => hsuccess, hpairs⟩
  · rintro ⟨⟨hrest, -⟩, -, hpairs⟩
    exact ⟨⟨hrest, fun habs => by cases habs⟩, hpairs⟩

end Moving

/-- **What the loop completes.**  With the operations of `done` behind it, it completes exactly
those of `operations` that are pending and succeed if and only if no success meets a pending
operation with its id before it. -/
theorem completeAll_append_iff (done operations : List Operation) :
    completeAll process (pendingOf operations) (done ++ operations) =
        done ++ replayed process operations ↔
      NoClash process done operations ∧ SuccessesFirst process (pendingOf operations) := by
  induction operations generalizing done with
  | nil => exact iff_of_true rfl ⟨fun x _ _ op hop => (by cases hop), List.Pairwise.nil⟩
  | cons op operations ih =>
    -- the loop goes on behind `op`, or behind what has become of it
    have hmove (op' : Operation) (hop' : replayedOperation process op = op') :
        completeAll process (pendingOf operations) (done ++ op' :: operations) =
            done ++ replayed process (op :: operations) ↔
          NoClash process (done ++ [op']) operations ∧
            SuccessesFirst process (pendingOf operations) := by
      rw [← ih (done ++ [op']), replayed, List.map_cons, hop', List.append_assoc, List.append_assoc]
      rfl
    by_cases hpending : op.completed = false
    · by_cases hsuccess : process op = true
      · have hreplayed : replayedOperation process op = { op with completed := true } :=
          if_pos ⟨hpending, hsuccess⟩
        cases hdone : completeFirst op.id done with
        | none =>
          have hfront : completeFirst op.id (op :: operations) =
              some ({ op with completed := true } :: operations) := by
            rw [completeFirst, if_pos ⟨rfl, hpending⟩]
          rw [← inOrder_cons_succeeded hpending hsuccess hdone, ← hmove _ hreplayed,
            pendingOf_cons, if_pos hpending, completeAll, if_pos hsuccess, completeFirst_append,
            hdone, hfront, Option.map_none, Option.none_or, Option.map_some, Option.getD_some]
        | some done' =>
          -- an operation of `done` is completed in place of `op`, and stays so
          rw [pendingOf_cons, if_pos hpending, completeAll, if_pos hsuccess, completeFirst_append,
            hdone, Option.map_some, Option.some_or, Option.getD_some, noClash_cons_iff hpending,
            noClash_head_iff hsuccess, hdone]
          refine iff_of_false (completeAll_ne_of_clash hdone _ _ _) ?_
          rintro ⟨⟨-, hnone⟩, -⟩
          cases hnone
      · have hreplayed : replayedOperation process op = op := if_neg fun h => hsuccess h.2
        rw [← inOrder_cons_failed hpending (eq_false_of_ne_true hsuccess), ← hmove _ hreplayed,
          pendingOf_cons, if_pos hpending, completeAll, if_neg hsuccess]
    · have hreplayed : replayedOperation process op = op := if_neg fun h => hpending h.1
      rw [← inOrder_cons_completed hpending, ← hmove _ hreplayed, pendingOf_cons, if_neg hpending]

theorem completeAll_eq_iff {operations : List Operation} :
    completeAll process (pendingOf operations) operations = replayed process operations ↔
      SuccessesFirst process (pendingOf operations) := by
  refine (completeAll_append_iff [] operations).trans (and_iff_right fun x hx => ?_)
  cases hx

/-! ### One replay -/

variable (json) in
/-- Marking completes in memory what is there to complete, whether it is saved or not. -/
theorem markOperationCompleted_recursive (id : Str) (opens : Bool) (w : World Text) : ∃ saved w',
    markOperationCompleted json .recursive id opens w = some (saved, w') ∧
      w'.manager = { w.manager with
        operations := (completeFirst id w.manager.operations).getD w.manager.operations } := by
  rw [markOperationCompleted_eq (.inr rfl)]
  cases completeFirst id w.manager.operations with
  | none => exact ⟨false, w, rfl, rfl⟩
  | some operations => exact ⟨_, _, rfl, saveOperations_manager _ _⟩

variable (json process) in
/-- The loop counts the successes. -/
theorem processLoop_recursive (opens : ℕ → Bool) (pending : List Operation) (processed : ℕ)
    (w : World Text) : ∃ w',
    processLoop json .recursive process opens pending processed w =
        some (processed + pending.countP process, w') ∧
      w'.manager = { w.manager with
        operations := completeAll process pending w.manager.operations } := by
  induction pending generalizing processed w with
  | nil => exact ⟨w, rfl, rfl⟩
  | cons op pending ih =>
    rw [processLoop, completeAll]
    by_cases hsuccess : process op = true
    · obtain ⟨saved, u, hmark, hmanager⟩ :=
        markOperationCompleted_recursive json op.id (opens processed) w
      obtain ⟨w', hloop, hmanager'⟩ := ih (processed + 1) u
      rw [if_pos hsuccess, if_pos hsuccess, hmark, Option.bind_some, hloop]
      refine ⟨w', ?_, ?_⟩
      · rw [List.countP_cons_of_pos hsuccess, Nat.add_assoc, Nat.add_comm 1]
      · rw [hmanager', hmanager]
    · rw [if_neg hsuccess, if_neg hsuccess, List.countP_cons_of_neg hsuccess]
      exact ih processed w

variable (json) in
/-- **One call** of `process_pending_operations` on an initialized manager that is online. -/
theorem processPendingOperations_recursive (hinit : w.manager.initialized = true)
    (honline : w.manager.offlineMode = false) (process : Operation → Bool) (now : Int64)
    (opens : ℕ → Bool) : ∃ w',
    processPendingOperations json .recursive process now opens w =
        some ((pendingOf w.manager.operations).countP process, w') ∧
      w'.manager = { w.manager with
        operations := completeAll process (pendingOf w.manager.operations) w.manager.operations
        lastSync := if 0 < (pendingOf w.manager.operations).countP process then now
          else w.manager.lastSync } := by
  have hpending (u : World Text) : getPendingOperations .recursive u =
      some (pendingOf u.manager.operations, u) := by
    unfold getPendingOperations
    exact lockGuard_eq (.inr rfl) fun d => rfl
  obtain ⟨u, hloop, hmanager⟩ := processLoop_recursive json process opens
    (pendingOf w.manager.operations) 0 { w with depth := w.depth + 1 }
  rw [Nat.zero_add] at hloop
  unfold processPendingOperations lockGuard
  have hbusy : (!w.manager.initialized || w.manager.offlineMode) = false := by
    rw [hinit, honline]
    rfl
  rw [if_neg (fun h => by cases h.2)]
  dsimp only
  rw [hbusy, if_neg Bool.false_ne_true, hpending, Option.bind_some]
  dsimp only
  rw [hloop, Option.map_some, Option.map_some]
  by_cases hpos : 0 < (pendingOf w.manager.operations).countP process
  · rw [if_pos hpos, if_pos hpos]
    refine ⟨_, rfl, ?_⟩
    unfold saveState
    dsimp only
    rw [saveOperations_manager, hmanager]
  · rw [if_neg hpos, if_neg hpos]
    exact ⟨_, rfl, hmanager⟩

/-- The call completes exactly the pending operations that are processed successfully, returns how
many they are, and changes nothing else in the queue. -/
def ReplaysExactly (json : Nlohmann Text) (process : Operation → Bool) (now : Int64)
    (opens : ℕ → Bool) (w : World Text) : Prop :=
  ∃ w', processPendingOperations json .recursive process now opens w =
      some ((pendingOf w.manager.operations).countP process, w') ∧
    w'.manager.operations = replayed process w.manager.operations

theorem replaysExactly_iff (hinit : w.manager.initialized = true)
    (honline : w.manager.offlineMode = false) (now : Int64) (opens : ℕ → Bool) :
    ReplaysExactly json process now opens w ↔
      SuccessesFirst process (pendingOf w.manager.operations) := by
  obtain ⟨w', hcall, hmanager⟩ :=
    processPendingOperations_recursive json hinit honline process now opens
  have hoperations : w'.manager.operations =
      completeAll process (pendingOf w.manager.operations) w.manager.operations :=
    congrArg Manager.operations hmanager
  rw [← completeAll_eq_iff, ← hoperations]
  constructor
  · rintro ⟨w'', hcall', hreplayed⟩
    rw [hcall] at hcall'
    cases hcall'
    exact hreplayed
  · intro hreplayed
    exact ⟨w', hcall, hreplayed⟩

/-! ### The queue after a call -/

/-- The operations in memory after a call of the method. -/
def operationsAfter (json : Nlohmann Text) (w : World Text) : Method → List Operation
  | .initializeManager dirOk =>
      if dirOk then (loadOperations json w).2.manager.operations else w.manager.operations
  | .queueOperation op _ =>
      if w.manager.initialized then w.manager.operations ++ [op] else w.manager.operations
  | .markOperationCompleted id _ =>
      (completeFirst id w.manager.operations).getD w.manager.operations
  | .removeOperation id _ => w.manager.operations.filter fun op => !(op.id = id)
  | .clearCompletedOperations _ => pendingOf w.manager.operations
  | .processPendingOperations process _ _ =>
      if !w.manager.initialized || w.manager.offlineMode then w.manager.operations
      else completeAll process (pendingOf w.manager.operations) w.manager.operations
  | .loadState => (loadOperations json w).2.manager.operations
  | _ => w.manager.operations

theorem processPendingOperations_idle (kind : MutexKind)
    (h : (!w.manager.initialized || w.manager.offlineMode) = true) {process : Operation → Bool}
    {now : Int64} {opens : ℕ → Bool} {r : ℕ × World Text}
    (hr : processPendingOperations json kind process now opens w = some r) :
    r.2.manager = w.manager := by
  unfold processPendingOperations lockGuard at hr
  split_ifs at hr
  obtain ⟨r', hr', rfl⟩ := Option.map_eq_some_iff.1 hr
  dsimp only at hr'
  rw [if_pos h] at hr'
  cases hr'
  rfl

/-- A critical section that leaves the queue alone. -/
theorem operations_lockGuard {α : Type} {kind : MutexKind}
    {body : World Text → Option (α × World Text)}
    (hbody : ∀ w r, body w = some r → r.2.manager.operations = w.manager.operations)
    {r : α × World Text} (h : lockGuard kind body w = some r) :
    r.2.manager.operations = w.manager.operations := by
  unfold lockGuard at h
  split_ifs at h
  obtain ⟨r', hr', rfl⟩ := Option.map_eq_some_iff.1 h
  exact hbody { w with depth := w.depth + 1 } r' hr'

/-- A filter that drops nothing. -/
theorem filter_of_not_any {drop : Operation → Bool} {operations : List Operation}
    (h : ¬ operations.any drop = true) : operations.filter (fun op => !drop op) = operations :=
  List.filter_eq_self.2 (keeps_of_not_any h)

/-- **What a call does to the queue.** -/
theorem call_operations {m : Method} {r : World Text × Reply}
    (h : call json .recursive w m = some r) :
    r.1.manager.operations = operationsAfter json w m := by
  have hfree : Lockable .recursive w := .inr rfl
  cases m with
  | initializeManager dirOk =>
    rw [call, initializeManager_eq hfree] at h
    rw [operationsAfter]
    split_ifs at h ⊢
    · cases h; rfl
    · cases h; rfl
  | isInitialized => cases h; rfl
  | isOfflineMode => cases h; rfl
  | setOfflineMode enabled =>
    obtain ⟨r', hr', rfl⟩ := Option.map_eq_some_iff.1 h
    exact operations_lockGuard (fun w r hr => by cases hr; rfl) hr'
  | queueOperation op opens =>
    rw [call, queueOperation_eq hfree] at h
    rw [operationsAfter]
    split_ifs at h ⊢
    · cases h
      exact congrArg Manager.operations (saveOperations_manager _ _)
    · cases h; rfl
  | getPendingOperations =>
    obtain ⟨r', hr', rfl⟩ := Option.map_eq_some_iff.1 h
    exact operations_lockGuard (fun w r hr => by cases hr; rfl) hr'
  | markOperationCompleted id opens =>
    obtain ⟨saved, w', hmark, hmanager⟩ :=
      markOperationCompleted_recursive json id opens w
    rw [call, hmark] at h
    cases h
    exact congrArg Manager.operations hmanager
  | removeOperation id opens =>
    rw [call, removeOperation_eq hfree] at h
    rw [operationsAfter]
    split_ifs at h with hany
    · cases h
      exact congrArg Manager.operations (saveOperations_manager _ _)
    · cases h
      exact (filter_of_not_any hany).symm
  | clearCompletedOperations opens =>
    rw [call, clearCompletedOperations_eq hfree] at h
    rw [operationsAfter]
    split_ifs at h with hany
    · cases h
      exact congrArg Manager.operations (saveOperations_manager _ _)
    · cases h
      exact (filter_of_not_any hany).symm
  | processPendingOperations process now opens =>
    rw [operationsAfter]
    cases hidle : !w.manager.initialized || w.manager.offlineMode with
    | true =>
      obtain ⟨r', hr', rfl⟩ := Option.map_eq_some_iff.1 h
      exact congrArg Manager.operations (processPendingOperations_idle .recursive hidle hr')
    | false =>
      rw [Bool.or_eq_false_iff, Bool.not_eq_false'] at hidle
      obtain ⟨w', hcall, hmanager⟩ :=
        processPendingOperations_recursive json hidle.1 hidle.2 process now opens
      rw [call, hcall] at h
      cases h
      exact congrArg Manager.operations hmanager
  | getStats =>
    obtain ⟨r', hr', rfl⟩ := Option.map_eq_some_iff.1 h
    exact operations_lockGuard (fun w r hr => by cases hr; rfl) hr'
  | saveState opens =>
    cases h
    exact congrArg Manager.operations (saveOperations_manager opens w)
  | loadState => cases h; rfl

/-! ### What a load brings back -/

/-- As long as every save succeeds, a load brings the operations in memory back with the same
completed flags, unless there are none in memory. -/
def Settled (json : Nlohmann Text) (w : World Text) : Prop :=
  w.allSaved = true → w.manager.operations = [] ∨
    (loadOperations json w).2.manager.operations.map Operation.completed =
      w.manager.operations.map Operation.completed

/-- A load depends on the file and on the operations in memory only. -/
theorem loadOperations_operations_congr {w w' : World Text} (hfile : w'.file = w.file)
    (hoperations : w'.manager.operations = w.manager.operations) :
    (loadOperations json w').2.manager.operations =
      (loadOperations json w).2.manager.operations := by
  cases htext : w.file with
  | none =>
    rw [loadOperations_of_absent json htext, loadOperations_of_absent json (hfile.trans htext)]
    exact hoperations
  | some text =>
    cases hparse : json.parse text with
    | none =>
      rw [loadOperations_of_unparsed htext hparse,
        loadOperations_of_unparsed (hfile.trans htext) hparse]
      exact hoperations
    | some j =>
      rw [(loadOperations_of_parse htext hparse).2.1,
        (loadOperations_of_parse (hfile.trans htext) hparse).2.1]

theorem Settled.congr {w w' : World Text} (h : Settled json w) (hfile : w'.file = w.file)
    (hoperations : w'.manager.operations = w.manager.operations)
    (hsaved : w'.allSaved = w.allSaved) : Settled json w' := by
  unfold Settled
  rw [loadOperations_operations_congr hfile hoperations, hoperations, hsaved]
  exact h

/-- A second load brings nothing new. -/
theorem loadOperations_idem (w : World Text) :
    (loadOperations json (loadOperations json w).2).2.manager.operations =
      (loadOperations json w).2.manager.operations := by
  have hfile : (loadOperations json w).2.file = w.file := by rw [loadOperations_snd]
  cases htext : w.file with
  | none =>
    have hload := loadOperations_of_absent json htext
    rw [hload, hload]
  | some text =>
    cases hparse : json.parse text with
    | none =>
      have hload := loadOperations_of_unparsed htext hparse
      rw [hload, hload]
    | some j =>
      rw [(loadOperations_of_parse htext hparse).2.1,
        (loadOperations_of_parse (hfile.trans htext) hparse).2.1]

theorem settled_saveOperations (opens : Bool) (w : World Text) :
    Settled json (saveOperations json opens w).2 := by
  intro hsaved
  rcases mirrors_saveOperations opens w hsaved with ⟨-, hnil⟩ | hstored
  · exact Or.inl hnil
  · refine Or.inr ?_
    rw [hstored.load]
    show (List.map Operation.truncated _).map Operation.completed = _
    rw [List.map_map]
    exact List.map_congr_left fun op _ => op.truncated_completed

theorem covers_settled : Covers json fun w w' => Settled json w → Settled json w' where
  refl _ := id
  trans h h' := h' ∘ h
  flags _ _ _ hw := hw.congr rfl rfl rfl
  save _ _ opens _ := settled_saveOperations opens _
  load w _ _ := Or.inr (by rw [loadOperations_idem])
  locked h hw := (h (hw.congr rfl rfl rfl)).congr rfl rfl rfl

/-! ### Runs of replays -/

/-- A manager, and how often each of its operations was processed successfully. -/
structure Replays (Text : Type) where
  world : World Text
  counts : List ℕ

/-- A manager at its construction. -/
def Replays.start (file : Option Text) : Replays Text := ⟨construct file, []⟩

/-- One more for each pending operation that is processed successfully. -/
def countSuccesses (process : Operation → Bool) (operations : List Operation) (counts : List ℕ) :
    List ℕ :=
  List.zipWith (fun op n => if op.completed = false ∧ process op = true then n + 1 else n)
    operations counts

/-- The counts of the operations with `keep`. -/
def keepCounts (keep : Operation → Bool) (operations : List Operation) (counts : List ℕ) :
    List ℕ :=
  ((operations.zip counts).filter fun x => keep x.1).map Prod.snd

/-- The counts after a load: the operations are those that were in memory, or they are new. -/
def reloadCounts (before after : List Operation) (counts : List ℕ) : List ℕ :=
  if after.map Operation.content = before.map Operation.content then counts
  else after.map fun _ => 0

/-- The counts after a call from `w`, which has left `after` in memory. -/
def recount (w : World Text) (after : List Operation) (counts : List ℕ) : Method → List ℕ
  | .initializeManager _ | .loadState => reloadCounts w.manager.operations after counts
  | .queueOperation _ _ => if w.manager.initialized then counts ++ [0] else counts
  | .removeOperation id _ => keepCounts (fun op => !(op.id = id)) w.manager.operations counts
  | .clearCompletedOperations _ =>
      keepCounts (fun op => !op.completed) w.manager.operations counts
  | .processPendingOperations process _ _ =>
      if !w.manager.initialized || w.manager.offlineMode then counts
      else countSuccesses process w.manager.operations counts
  | _ => counts

/-- The machine of the public methods, with a mutex that its owner may lock again. -/
def replayMachine (json : Nlohmann Text) : Machine (Replays Text) Method Reply where
  step s m := (call json .recursive s.world m).map fun r =>
    (⟨r.1, recount s.world r.1.manager.operations s.counts m⟩, r.2)

/-- No operation was processed successfully twice. -/
def Replays.Once (s : Replays Text) : Prop := ∀ n ∈ s.counts, n ≤ 1

/-- Every save of the run so far succeeds, and in every replay the successes come first. -/
def ReplaysInOrder (s : Replays Text) (m : Method) (t : Replays Text) : Prop :=
  t.world.allSaved = true ∧ ∀ process now opens,
    m = .processPendingOperations process now opens →
      SuccessesFirst process (pendingOf s.world.manager.operations)

/-- The ids of the pending operations are unique, and every save so far succeeds. -/
def Replays.Orderly (s : Replays Text) : Prop :=
  s.world.allSaved = true ∧ ((pendingOf s.world.manager.operations).map Operation.id).Nodup

instance decidableOrderly : DecidablePred (@Replays.Orderly Text) :=
  fun _ => inferInstanceAs (Decidable (_ ∧ _))

/-- As long as the pending ids are unique, all replays are in order. -/
theorem inOrder_of_orderly {s : Replays Text} {es : List Method}
    (h : (replayMachine json).Always Replays.Orderly s es) :
    (replayMachine json).Along ReplaysInOrder s es := by
  induction es generalizing s with
  | nil => trivial
  | cons m es ih =>
    intro t ht
    have hrest := h.2 t ht
    exact ⟨⟨hrest.first.1, fun _ _ _ _ => successesFirst_of_nodup h.1.2⟩, ih hrest⟩

/-- What is known of an operation and its count: it was not processed twice, and what was processed
successfully is completed. -/
def Counted (op : Operation) (n : ℕ) : Prop := n ≤ 1 ∧ (n = 1 → op.completed = true)

theorem counted_of_keepsCompleted {operations operations' : List Operation} {counts : List ℕ}
    (h : List.Forall₂ Counted operations counts) (hkept : KeepsCompleted operations operations') :
    List.Forall₂ Counted operations' counts := by
  induction hkept generalizing counts with
  | nil => exact h
  | cons hhead _ ih =>
    cases h with
    | cons hop hrest => exact .cons ⟨hop.1, fun hn => hhead (hop.2 hn)⟩ (ih hrest)

theorem counted_keepCounts (keep : Operation → Bool) {operations : List Operation}
    {counts : List ℕ} (h : List.Forall₂ Counted operations counts) :
    List.Forall₂ Counted (operations.filter keep) (keepCounts keep operations counts) := by
  induction h with
  | nil => exact .nil
  | @cons op n operations counts hop _ ih =>
    unfold keepCounts at ih ⊢
    rw [List.zip_cons_cons, List.filter_cons, List.filter_cons]
    dsimp only
    split_ifs
    · exact .cons hop ih
    · exact ih

theorem counted_countSuccesses (process : Operation → Bool) {operations : List Operation}
    {counts : List ℕ} (h : List.Forall₂ Counted operations counts) :
    List.Forall₂ Counted (replayed process operations)
      (countSuccesses process operations counts) := by
  induction h with
  | nil => exact .nil
  | @cons op n operations counts hop _ ih =>
    refine .cons ?_ ih
    unfold replayedOperation
    dsimp only
    split_ifs with hnew
    · -- it was pending, so it was not processed successfully before
      have hzero : n = 0 := by
        by_contra hn
        have hone : n = 1 := by have := hop.1; omega
        rw [hop.2 hone] at hnew
        cases hnew.1
      exact ⟨by omega, fun _ => rfl⟩
    · exact hop

theorem counted_reloadCounts {before after : List Operation} {counts : List ℕ}
    (h : List.Forall₂ Counted before counts)
    (hflags : before = [] ∨
      after.map Operation.completed = before.map Operation.completed) :
    List.Forall₂ Counted after (reloadCounts before after counts) := by
  unfold reloadCounts
  split_ifs with hcontent
  · have hkept : KeepsCompleted before after := by
      rcases hflags with rfl | hflags
      · rw [List.map_nil, List.map_eq_nil_iff] at hcontent
        rw [hcontent]
        exact .nil
      · exact keepsCompleted_of_map hflags.symm
    exact counted_of_keepsCompleted h hkept
  · exact List.forall₂_map_right_iff.2 (List.forall₂_same.2 fun _ _ => ⟨by omega, by omega⟩)

/-- The invariant of the replay machine. -/
structure Replays.Sound (json : Nlohmann Text) (s : Replays Text) : Prop where
  saved : s.world.allSaved = true
  settled : Settled json s.world
  counted : List.Forall₂ Counted s.world.manager.operations s.counts

theorem Replays.Sound.once {s : Replays Text} (h : s.Sound json) : s.Once := by
  intro n hn
  obtain ⟨i, hi, rfl⟩ := List.getElem_of_mem hn
  have hlength := h.counted.length_eq
  exact (h.counted.get (by omega) hi).1

/-- **One call** keeps the invariant, if its saves succeed and the successes come first. -/
theorem Replays.Sound.next {s t : Replays Text} {m : Method} (h : s.Sound json)
    (hnext : (replayMachine json).next s m = some t) (horder : ReplaysInOrder s m t) :
    t.Sound json := by
  obtain ⟨reply, hstep⟩ := Machine.next_eq_some.1 hnext
  obtain ⟨r, hcall, hr⟩ := Option.map_eq_some_iff.1 hstep
  obtain ⟨rfl, -⟩ := Prod.mk.inj hr
  have hoperations := call_operations hcall
  refine ⟨horder.1, covers_settled.call hcall h.settled, ?_⟩
  have hreload : List.Forall₂ Counted (loadOperations json s.world).2.manager.operations
      (reloadCounts s.world.manager.operations (loadOperations json s.world).2.manager.operations
        s.counts) :=
    counted_reloadCounts h.counted (h.settled h.saved)
  dsimp only
  rw [hoperations]
  cases m with
  | initializeManager dirOk =>
    rw [operationsAfter, recount]
    split_ifs
    · exact hreload
    · exact counted_reloadCounts h.counted (Or.inr rfl)
  | queueOperation op opens =>
    rw [operationsAfter, recount]
    split_ifs
    · refine List.rel_append h.counted (.cons ⟨by omega, by omega⟩ .nil)
    · exact h.counted
  | markOperationCompleted id opens =>
    exact counted_of_keepsCompleted h.counted (KeepsCompleted.completeFirst id _)
  | removeOperation id opens => exact counted_keepCounts _ h.counted
  | clearCompletedOperations opens => exact counted_keepCounts _ h.counted
  | processPendingOperations process now opens =>
    rw [operationsAfter, recount]
    split_ifs
    · exact h.counted
    · rw [completeAll_eq_iff.2 (horder.2 process now opens rfl)]
      exact counted_countSuccesses process h.counted
  | loadState => exact hreload
  | isInitialized => exact h.counted
  | setOfflineMode enabled => exact h.counted
  | isOfflineMode => exact h.counted
  | getPendingOperations => exact h.counted
  | getStats => exact h.counted
  | saveState opens => exact h.counted

/-- **A replay returns the number of its successes**, and changes nothing of the manager but its
operations and the time of the last success.  It completes what it has processed exactly when, among
the pending operations with one id, the successes come first, as they do when the ids are unique;
and in a run whose replays are such and whose saves succeed, no operation is ever processed
successfully twice. -/
theorem replays_exactly (json : Nlohmann Text) {w : World Text}
    (hinit : w.manager.initialized = true) (honline : w.manager.offlineMode = false)
    (process : Operation → Bool) (now : Int64) (opens : ℕ → Bool) :
    (∃ w', processPendingOperations json .recursive process now opens w =
        some ((pendingOf w.manager.operations).countP process, w') ∧
      w'.manager = { w.manager with
        operations := w'.manager.operations
        lastSync := if 0 < (pendingOf w.manager.operations).countP process then now
          else w.manager.lastSync }) ∧
    (ReplaysExactly json process now opens w ↔
      SuccessesFirst process (pendingOf w.manager.operations)) ∧
    (((pendingOf w.manager.operations).map Operation.id).Nodup →
      SuccessesFirst process (pendingOf w.manager.operations)) ∧
    ∀ (file : Option Text) (es : List Method),
      (replayMachine json).Along ReplaysInOrder (Replays.start file) es →
        (replayMachine json).Always Replays.Once (Replays.start file) es := by
  obtain ⟨w', hcall, hmanager⟩ :=
    processPendingOperations_recursive json hinit honline process now opens
  refine ⟨⟨w', hcall, by rw [hmanager]⟩, replaysExactly_iff hinit honline now opens, successesFirst_of_nodup,
    fun file es halong => ?_⟩
  have hstart : (Replays.start file).Sound json :=
    ⟨rfl, fun _ => Or.inl rfl, .nil⟩
  refine Machine.always_iff_along_post.2 ⟨hstart.once, ?_⟩
  exact Machine.Along.imp (I := Replays.Sound json) (fun s m t hs ht hC => hs.next ht hC)
    (fun s m t hs ht hC => (hs.next ht hC).once) hstart halong

/-- The sample under another id and with another type. -/
def numberedOperation (n : UInt8) (type : OperationType) : Operation :=
  { sampleOperation with id := [n], type := type }

/-- A manager with an operation that nothing processes in front of one that succeeds. -/
def numberedWorld : World (Option Json) where
  manager :=
    { operations := [numberedOperation 1 ⟨7⟩, numberedOperation 2 .CREATE], initialized := true }
  file := none

/-- The two operations are queued, and replayed twice. -/
def numberedRun : List Method :=
  [.initializeManager true, .queueOperation (numberedOperation 1 ⟨7⟩) true,
    .queueOperation (numberedOperation 2 .CREATE) true,
    .processPendingOperations processOperation 0 fun _ => true,
    .processPendingOperations processOperation 0 fun _ => true]

theorem numberedRun_inOrder :
    (replayMachine .symbolic).Along ReplaysInOrder (Replays.start none) numberedRun :=
  inOrder_of_orderly (by decide +kernel)

/-- One of two operations is replayed; of two replays in a run, the second one has nothing left. -/
theorem replays_exactly_sample :
    (∃ w', processPendingOperations .symbolic .recursive processOperation 0 (fun _ => true)
        numberedWorld = some (1, w') ∧
      w'.manager = { numberedWorld.manager with
        operations := w'.manager.operations
        lastSync := 0 }) ∧
    ReplaysExactly .symbolic processOperation 0 (fun _ => true) numberedWorld ∧
    (replayMachine .symbolic).Always Replays.Once (Replays.start none) numberedRun := by
  have hreplay := replays_exactly .symbolic (w := numberedWorld) rfl rfl processOperation 0
    fun _ => true
  exact ⟨hreplay.1, hreplay.2.1.2 (hreplay.2.2.1 (by decide)),
    hreplay.2.2.2 none numberedRun numberedRun_inOrder⟩

/-- An operation of a type that nothing processes, with the id of the sample. -/
def unknownOperation : Operation := { sampleOperation with type := ⟨7⟩ }

/-- The operation that fails and the one that succeeds are queued under one id, and replayed
twice. -/
def sharedIdRun : List Method :=
  [.initializeManager true, .queueOperation unknownOperation true,
    .queueOperation sampleOperation true,
    .processPendingOperations processOperation 0 fun _ => true,
    .processPendingOperations processOperation 0 fun _ => true]

/-- The operation that failed is completed, and the one that succeeded is processed again. -/
theorem shared_id_replayed_twice :
    (∃ w, (machine .symbolic .recursive).run (construct none) (sharedIdRun.take 3) = some w ∧
      w.manager.initialized = true ∧ w.manager.offlineMode = false ∧ w.allSaved = true ∧
      ¬ ReplaysExactly .symbolic processOperation 0 (fun _ => true) w) ∧
    ((replayMachine .symbolic).run (Replays.start none) sharedIdRun).map
      (fun s => (s.world.allSaved, s.counts)) = some (true, [0, 2]) := by
  constructor
  · refine ⟨_, rfl, rfl, rfl, rfl, fun h => ?_⟩
    have horder := (replaysExactly_iff rfl rfl 0 _).1 h
    have hfirst := (List.pairwise_cons.1 horder).1 sampleOperation List.mem_cons_self rfl
    exact absurd (hfirst (by decide)) (by decide)
  · decide +kernel

end Kaiten.Offline

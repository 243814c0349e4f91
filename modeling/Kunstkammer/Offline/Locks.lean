import Kunstkammer.Offline.Manager

/-!
# The mutex of the offline manager

Which calls return.  `_manager_mutex` is not recursive, and `process_pending_operations` calls
`get_pending_operations` with the mutex held.

* `Covers`: what a call is made of, and so what it can do; `call_depth`: it leaves the mutex as
  it was;
* `Lockable`, `lockGuard_eq`: when the mutex can be locked, a method does what its body does;
* `call_isSome_iff`: with the mutex free, a call returns unless it `Relocks`;
* `returns_iff`: the same in every reachable state.
-/

namespace Kaiten.Offline

variable {Text : Type} {json : Nlohmann Text} {kind : MutexKind} {w : World Text}

/-! ### Saving and loading -/

/-- A save changes the file only. -/
theorem saveOperations_snd (opens : Bool) (w : World Text) :
    (saveOperations json opens w).2 = { w with
      file := (saveOperations json opens w).2.file
      allSaved := (saveOperations json opens w).2.allSaved } := by
  unfold saveOperations
  split_ifs
  · split <;> rfl
  · rfl

theorem saveOperations_manager (opens : Bool) (w : World Text) :
    (saveOperations json opens w).2.manager = w.manager := by
  rw [saveOperations_snd]

/-- Loading changes the members only. -/
theorem loadOperations_snd (w : World Text) :
    (loadOperations json w).2 = { w with manager := (loadOperations json w).2.manager } := by
  unfold loadOperations
  split
  · rfl
  split
  · rfl
  dsimp only
  split_ifs
  · split
    · rfl
    · split <;> rfl
  · rfl

theorem loadOperations_of_absent (json : Nlohmann Text) {w : World Text} (h : w.file = none) :
    loadOperations json w = (true, w) := by
  unfold loadOperations
  rw [h]

theorem loadOperations_of_unparsed {w : World Text} {text : Text} (hfile : w.file = some text)
    (hparse : json.parse text = none) : loadOperations json w = (false, w) := by
  unfold loadOperations
  rw [hfile]
  dsimp only
  rw [hparse]

@[simp] theorem saveOperations_depth (opens : Bool) (w : World Text) :
    (saveOperations json opens w).2.depth = w.depth := by
  rw [saveOperations_snd]

@[simp] theorem loadOperations_depth (w : World Text) :
    (loadOperations json w).2.depth = w.depth := by
  rw [loadOperations_snd]

/-! ### What a call can do -/

/-- `R` holds between the states before and after everything a call is made of: a change of the
two flags, a change of the members that is saved, a load, and a locked section of these. -/
structure Covers (json : Nlohmann Text) (R : World Text → World Text → Prop) : Prop where
  refl : ∀ w, R w w
  trans : ∀ {u v w}, R u v → R v w → R u w
  flags : ∀ w initialized offlineMode,
    R w { w with manager := { w.manager with initialized, offlineMode } }
  save : ∀ w manager opens, R w (saveOperations json opens { w with manager }).2
  load : ∀ w, R w (loadOperations json w).2
  locked : ∀ {w w'}, R { w with depth := w.depth + 1 } w' → R w { w' with depth := w'.depth - 1 }

namespace Covers

variable {R : World Text → World Text → Prop} (h : Covers json R)

include h

theorem lockGuard {α : Type} {body : World Text → Option (α × World Text)}
    (hbody : ∀ w r, body w = some r → R w r.2) {r : α × World Text}
    (hr : lockGuard kind body w = some r) : R w r.2 := by
  unfold Offline.lockGuard at hr
  split_ifs at hr
  obtain ⟨r', hr', rfl⟩ := Option.map_eq_some_iff.1 hr
  exact h.locked (hbody _ _ hr')

theorem getPendingOperations {r : List Operation × World Text}
    (hr : getPendingOperations kind w = some r) : R w r.2 :=
  h.lockGuard (fun w r hr => by cases hr; exact h.refl w) hr

theorem markOperationCompleted {id : Str} {opens : Bool} {r : Bool × World Text}
    (hr : markOperationCompleted json kind id opens w = some r) : R w r.2 := by
  refine h.lockGuard (fun w r hr => ?_) hr
  split at hr
  · cases hr; exact h.save w _ opens
  · cases hr; exact h.refl w

theorem processLoop {process : Operation → Bool} {opens : ℕ → Bool} {pending : List Operation}
    {processed : ℕ} {r : ℕ × World Text}
    (hr : processLoop json kind process opens pending processed w = some r) : R w r.2 := by
  induction pending generalizing processed w with
  | nil => cases hr; exact h.refl w
  | cons op pending ih =>
    unfold Offline.processLoop at hr
    split_ifs at hr
    · obtain ⟨r', hr', hr⟩ := Option.bind_eq_some_iff.1 hr
      exact h.trans (h.markOperationCompleted hr') (ih hr)
    · exact ih hr

theorem processPendingOperations {process : Operation → Bool} {now : Int64} {opens : ℕ → Bool}
    {r : ℕ × World Text}
    (hr : processPendingOperations json kind process now opens w = some r) : R w r.2 := by
  refine h.lockGuard (fun w r hr => ?_) hr
  dsimp only at hr
  split_ifs at hr
  · cases hr; exact h.refl w
  · obtain ⟨pending, hpending, hr⟩ := Option.bind_eq_some_iff.1 hr
    obtain ⟨r', hr', rfl⟩ := Option.map_eq_some_iff.1 hr
    have hloop := h.trans (h.getPendingOperations hpending) (h.processLoop hr')
    split_ifs
    · exact h.trans hloop (h.save _ _ _)
    · exact hloop

/-- `R` holds between the states before and after every call that returns. -/
theorem call {m : Method} {r : World Text × Reply} (hr : call json kind w m = some r) :
    R w r.1 := by
  cases m with
  | initializeManager dirOk =>
    obtain ⟨r', hr', rfl⟩ := Option.map_eq_some_iff.1 hr
    refine h.lockGuard (fun w r hr => ?_) hr'
    split_ifs at hr
    · cases hr; exact h.trans (h.load w) (h.flags _ true _)
    · cases hr; exact h.refl w
  | isInitialized => cases hr; exact h.refl w
  | isOfflineMode => cases hr; exact h.refl w
  | setOfflineMode enabled =>
    obtain ⟨r', hr', rfl⟩ := Option.map_eq_some_iff.1 hr
    exact h.lockGuard (fun w r hr => by cases hr; exact h.flags w _ enabled) hr'
  | queueOperation op opens =>
    obtain ⟨r', hr', rfl⟩ := Option.map_eq_some_iff.1 hr
    refine h.lockGuard (fun w r hr => ?_) hr'
    split_ifs at hr
    · cases hr; exact h.save w _ opens
    · cases hr; exact h.refl w
  | getPendingOperations =>
    obtain ⟨r', hr', rfl⟩ := Option.map_eq_some_iff.1 hr
    exact h.getPendingOperations hr'
  | markOperationCompleted id opens =>
    obtain ⟨r', hr', rfl⟩ := Option.map_eq_some_iff.1 hr
    exact h.markOperationCompleted hr'
  | removeOperation id opens =>
    obtain ⟨r', hr', rfl⟩ := Option.map_eq_some_iff.1 hr
    refine h.lockGuard (fun w r hr => ?_) hr'
    split_ifs at hr
    · cases hr; exact h.save w _ opens
    · cases hr; exact h.refl w
  | clearCompletedOperations opens =>
    obtain ⟨r', hr', rfl⟩ := Option.map_eq_some_iff.1 hr
    refine h.lockGuard (fun w r hr => ?_) hr'
    split_ifs at hr
    · cases hr; exact h.save w _ opens
    · cases hr; exact h.refl w
  | processPendingOperations process now opens =>
    obtain ⟨r', hr', rfl⟩ := Option.map_eq_some_iff.1 hr
    exact h.processPendingOperations hr'
  | getStats =>
    obtain ⟨r', hr', rfl⟩ := Option.map_eq_some_iff.1 hr
    exact h.lockGuard (fun w r hr => by cases hr; exact h.refl w) hr'
  | saveState opens => cases hr; exact h.save w w.manager opens
  | loadState => cases hr; exact h.load w

end Covers

theorem covers_depth : Covers json fun w w' => w'.depth = w.depth where
  refl _ := rfl
  trans h h' := h'.trans h
  flags _ _ _ := rfl
  save _ _ opens := saveOperations_depth opens _
  load := loadOperations_depth
  locked h := congrArg (· - 1) h

/-- Every call that returns leaves the mutex as it was. -/
theorem call_depth {m : Method} {r : World Text × Reply} (h : call json kind w m = some r) :
    r.1.depth = w.depth :=
  covers_depth.call h

/-! ### The methods with a mutex that can be locked -/

theorem lockGuard_free {α : Type} (h : w.depth = 0)
    (body : World Text → Option (α × World Text)) :
    lockGuard kind body w = (body { w with depth := 1 }).map fun r =>
      (r.1, { r.2 with depth := r.2.depth - 1 }) := by
  unfold lockGuard
  rw [if_neg fun hheld => hheld.1 h, h]

/-- The mutex can be locked: it is free, or its owner may lock it again. -/
def Lockable (kind : MutexKind) (w : World Text) : Prop := w.depth = 0 ∨ kind = .recursive

/-- A locked section that does not look at the mutex is its body. -/
theorem lockGuard_eq {α : Type} (h : Lockable kind w)
    {body : World Text → Option (α × World Text)}
    (hbody : ∀ d, body { w with depth := d } =
      (body w).map fun r => (r.1, { r.2 with depth := d })) :
    lockGuard kind body w = body w := by
  have hself : (body w).map (fun r => (r.1, { r.2 with depth := w.depth })) = body w :=
    (hbody w.depth).symm
  have hlock : ¬ (w.depth ≠ 0 ∧ kind = .plain) := by
    rintro ⟨hheld, rfl⟩
    rcases h with hfree | hrecursive
    · exact hheld hfree
    · cases hrecursive
  unfold lockGuard
  rw [if_neg hlock, hbody, Option.map_map]
  exact hself

theorem saveOperations_withDepth (opens : Bool) (operations : List Operation) (w : World Text)
    (d : ℕ) :
    saveOperations json opens ({ w with depth := d }.setOperations operations) =
      ((saveOperations json opens (w.setOperations operations)).1,
        { (saveOperations json opens (w.setOperations operations)).2 with depth := d }) := by
  unfold saveOperations World.setOperations
  split_ifs
  · dsimp only
    split <;> rfl
  · rfl

theorem loadOperations_withDepth (w : World Text) (d : ℕ) :
    loadOperations json { w with depth := d } =
      ((loadOperations json w).1, { (loadOperations json w).2 with depth := d }) := by
  unfold loadOperations
  dsimp only
  split
  · rfl
  split
  · rfl
  split_ifs
  · split
    · rfl
    · split <;> rfl
  · rfl

theorem initializeManager_eq (h : Lockable kind w) (dirOk : Bool) :
    initializeManager json kind dirOk w = if dirOk then
      some (true, { (loadOperations json w).2 with
        manager := { (loadOperations json w).2.manager with initialized := true } })
      else some (false, w) := by
  unfold initializeManager
  refine lockGuard_eq h fun d => ?_
  dsimp only
  split_ifs
  · rw [loadOperations_withDepth]
    rfl
  · rfl

theorem queueOperation_eq (h : Lockable kind w) (op : Operation) (opens : Bool) :
    queueOperation json kind op opens w =
      if w.manager.initialized then
        some (saveOperations json opens (w.setOperations (w.manager.operations ++ [op])))
      else some (false, w) := by
  unfold queueOperation
  refine lockGuard_eq h fun d => ?_
  dsimp only
  split_ifs
  · exact congrArg some (saveOperations_withDepth opens _ w d)
  · rfl

theorem markOperationCompleted_eq (h : Lockable kind w) (id : Str) (opens : Bool) :
    markOperationCompleted json kind id opens w =
      match completeFirst id w.manager.operations with
      | some operations => some (saveOperations json opens (w.setOperations operations))
      | none => some (false, w) := by
  unfold markOperationCompleted
  refine lockGuard_eq h fun d => ?_
  dsimp only
  split
  · exact congrArg some (saveOperations_withDepth opens _ w d)
  · rfl

theorem removeOperation_eq (h : Lockable kind w) (id : Str) (opens : Bool) :
    removeOperation json kind id opens w =
      if w.manager.operations.any fun op => op.id = id then
        some (saveOperations json opens
          (w.setOperations (w.manager.operations.filter fun op => !(op.id = id))))
      else some (false, w) := by
  unfold removeOperation
  refine lockGuard_eq h fun d => ?_
  dsimp only
  split_ifs
  · exact congrArg some (saveOperations_withDepth opens _ w d)
  · rfl

theorem clearCompletedOperations_eq (h : Lockable kind w) (opens : Bool) :
    clearCompletedOperations json kind opens w =
      if w.manager.operations.any fun op => op.completed then
        some (saveOperations json opens (w.setOperations (pendingOf w.manager.operations)))
      else some (true, w) := by
  unfold clearCompletedOperations
  refine lockGuard_eq h fun d => ?_
  dsimp only
  split_ifs
  · exact congrArg some (saveOperations_withDepth opens _ w d)
  · rfl

/-- Where nothing is to be dropped, everything is kept. -/
theorem keeps_of_not_any {drop : Operation → Bool} {operations : List Operation}
    (h : ¬ operations.any drop = true) : ∀ op ∈ operations, (!drop op) = true := by
  rw [Bool.not_eq_true, List.any_eq_false] at h
  intro op hop
  rw [Bool.not_eq_true', ← Bool.not_eq_true]
  exact h op hop

/-! ### Calls that return -/

/-- A call that locks the mutex it holds: the processing of an initialized manager that is
online. -/
def Relocks (w : World Text) : Method → Prop
  | .processPendingOperations .. => w.manager.initialized = true ∧ w.manager.offlineMode = false
  | _ => False

theorem lockGuard_isSome {α : Type} (h : w.depth = 0)
    (body : World Text → Option (α × World Text)) :
    (lockGuard kind body w).isSome = (body { w with depth := 1 }).isSome := by
  rw [lockGuard_free h, Option.isSome_map]

/-- A plain mutex that is held cannot be locked. -/
theorem lockGuard_of_held {α : Type} (h : w.depth ≠ 0)
    (body : World Text → Option (α × World Text)) : lockGuard .plain body w = none := by
  unfold lockGuard
  rw [if_pos ⟨h, rfl⟩]

/-- With a plain mutex, processing returns only when it does nothing. -/
theorem processPendingOperations_plain {process : Operation → Bool} {now : Int64}
    {opens : ℕ → Bool} {r : ℕ × World Text}
    (h : processPendingOperations json .plain process now opens w = some r) : r = (0, w) := by
  unfold processPendingOperations lockGuard at h
  split_ifs at h
  obtain ⟨r', hr', rfl⟩ := Option.map_eq_some_iff.1 h
  dsimp only at hr'
  split_ifs at hr'
  · cases hr'; rfl
  · have hpending : getPendingOperations .plain { w with depth := w.depth + 1 } = none :=
      lockGuard_of_held (Nat.succ_ne_zero _) _
    rw [hpending] at hr'
    cases hr'

theorem processPendingOperations_isSome_iff (h : w.depth = 0) (process : Operation → Bool)
    (now : Int64) (opens : ℕ → Bool) :
    (processPendingOperations json .plain process now opens w).isSome ↔
      ¬ (w.manager.initialized = true ∧ w.manager.offlineMode = false) := by
  unfold processPendingOperations
  rw [lockGuard_isSome h]
  show (if !w.manager.initialized || w.manager.offlineMode then _ else _ :
    Option (ℕ × World Text)).isSome ↔ _
  cases hinit : w.manager.initialized with
  | false => simp
  | true =>
    cases hmode : w.manager.offlineMode with
    | true => simp
    | false =>
      -- the mutex is held here, so `get_pending_operations` cannot lock it
      have hpending : getPendingOperations .plain { w with depth := 1 } = none :=
        lockGuard_of_held one_ne_zero _
      rw [hpending]
      simp

/-- With the mutex free, a call returns unless it locks the mutex twice. -/
theorem call_isSome_iff (h : w.depth = 0) (m : Method) :
    (call json .plain w m).isSome ↔ ¬ Relocks w m := by
  cases m with
  | initializeManager dirOk =>
    refine iff_of_true ?_ id
    rw [call, Option.isSome_map, initializeManager, lockGuard_isSome h]
    cases dirOk <;> rfl
  | isInitialized => exact iff_of_true rfl id
  | isOfflineMode => exact iff_of_true rfl id
  | setOfflineMode enabled =>
    refine iff_of_true ?_ id
    rw [call, Option.isSome_map, setOfflineMode, lockGuard_isSome h]
    rfl
  | queueOperation op opens =>
    refine iff_of_true ?_ id
    rw [call, Option.isSome_map, queueOperation, lockGuard_isSome h]
    split_ifs <;> rfl
  | getPendingOperations =>
    refine iff_of_true ?_ id
    rw [call, Option.isSome_map, getPendingOperations, lockGuard_isSome h]
    rfl
  | markOperationCompleted id opens =>
    refine iff_of_true ?_ fun hf => hf
    rw [call, Option.isSome_map, markOperationCompleted, lockGuard_isSome h]
    split <;> rfl
  | removeOperation id opens =>
    refine iff_of_true ?_ fun hf => hf
    rw [call, Option.isSome_map, removeOperation, lockGuard_isSome h]
    split_ifs <;> rfl
  | clearCompletedOperations opens =>
    refine iff_of_true ?_ id
    rw [call, Option.isSome_map, clearCompletedOperations, lockGuard_isSome h]
    split_ifs <;> rfl
  | processPendingOperations process now opens =>
    rw [call, Option.isSome_map]
    exact processPendingOperations_isSome_iff h process now opens
  | getStats =>
    refine iff_of_true ?_ id
    rw [call, Option.isSome_map, getStats, lockGuard_isSome h]
    rfl
  | saveState opens => exact iff_of_true rfl id
  | loadState => exact iff_of_true rfl id

theorem depth_of_reaches {file : Option Text}
    (h : (machine json .plain).Reaches (construct file) w) : w.depth = 0 := by
  refine h.invariant (I := fun w => w.depth = 0) rfl fun s m t hs hnext => ?_
  obtain ⟨reply, hcall⟩ := Machine.next_eq_some.1 hnext
  exact (call_depth hcall).trans hs

/-- **Which calls return**: in every reachable state, all but the processing of an initialized
manager that is online. -/
theorem returns_iff {file : Option Text}
    (h : (machine json .plain).Reaches (construct file) w) (m : Method) :
    (call json .plain w m).isSome ↔ ¬ Relocks w m :=
  call_isSome_iff (depth_of_reaches h) m

/-- A manager that has been initialized, and has no operations. -/
def initializedRun : List Method := [.initializeManager true]

theorem returns_iff_initialized :
    ∃ w, (machine .symbolic .plain).run (construct none) initializedRun = some w ∧
      ((call .symbolic .plain w .getPendingOperations).isSome ↔
        ¬ Relocks w .getPendingOperations) :=
  ⟨_, rfl, returns_iff ⟨initializedRun, rfl⟩ _⟩

/-- The call does not return, although there is nothing to process. -/
theorem process_pending_relocks :
    ((machine .symbolic .plain).run (construct none) (initializedRun ++
      [.processPendingOperations processOperation 0 fun _ => true])).isNone = true ∧
    ((machine .symbolic .plain).run (construct none) initializedRun).isSome = true :=
  ⟨rfl, rfl⟩

end Kaiten.Offline

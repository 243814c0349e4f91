import Kunstkammer.Foundation.Shedding
import Kunstkammer.Foundation.Transition

/-!
# The cache

`Cache` of `cache.hpp`.  Instants are in nanoseconds and lifetimes in seconds; where the two are
compared, the seconds are converted to nanoseconds of signed 64 bits.

* `Cache`: its entries are an association list without a double key, in an arbitrary order;
* `CacheCall`, `CacheEvent`, `Cache.machine`: a call together with its readings of the clock;
* `TimedMap`: what the cache is for, a map whose entries live for a given time, without size and
  without eviction;
* `cache_refines_timedMap`: the answers of the two are the same.
-/

namespace Kaiten

/-! ### Entries -/

/-- `Cache_entry`. -/
@[ext] structure CacheEntry (ν : Type*) where
  value : ν
  timestamp : ℤ
  ttl : ℤ
  deriving DecidableEq

/-- The nanoseconds of a second. -/
def second : ℤ := 1000000000

/-- `std::chrono::seconds` converted to the nanoseconds of the clock. -/
def toNanoseconds (seconds : ℤ) : ℤ := (seconds * second).bmod (2 ^ 64)

/-- A duration in seconds whose nanoseconds are a signed 64-bit number: up to 292 years. -/
def FitsClock (seconds : ℤ) : Prop := -2 ^ 63 ≤ seconds * second ∧ seconds * second < 2 ^ 63

instance instDecidableFitsClock (seconds : ℤ) : Decidable (FitsClock seconds) :=
  inferInstanceAs (Decidable (_ ∧ _))

theorem toNanoseconds_of_fits {seconds : ℤ} (h : FitsClock seconds) :
    toNanoseconds seconds = seconds * second :=
  Int.bmod_eq_of_le (by have := h.1; omega) (by have := h.2; omega)

namespace CacheEntry

variable {ν : Type*}

/-- `is_expired`, the clock showing `now`. -/
def isExpired (now : ℤ) (e : CacheEntry ν) : Bool := now - e.timestamp > toNanoseconds e.ttl

/-- The entry has outlived its lifetime. -/
def Dead (now : ℤ) (e : CacheEntry ν) : Prop := now - e.timestamp > e.ttl * second

instance instDecidableDead (now : ℤ) (e : CacheEntry ν) : Decidable (e.Dead now) :=
  inferInstanceAs (Decidable (_ < _))

theorem Dead.mono {t u : ℤ} {e : CacheEntry ν} (htu : t ≤ u) (h : e.Dead t) : e.Dead u := by
  unfold Dead at *
  omega

theorem isExpired_iff {now : ℤ} {e : CacheEntry ν} (h : FitsClock e.ttl) :
    e.isExpired now = true ↔ e.Dead now := by
  rw [isExpired, toNanoseconds_of_fits h, decide_eq_true_iff, Dead]

end CacheEntry

/-! ### The cache -/

/-- A `Cache`. -/
structure Cache (κ ν : Type*) where
  cache : AList fun _ : κ => CacheEntry ν := ∅
  defaultTtl : ℤ
  maxSize : ℕ := 10000
  enabled : Bool := true
  hits : ℕ := 0
  misses : ℕ := 0

namespace Cache

variable {κ ν : Type*} [DecidableEq κ]

/-- `get`. -/
def get (now : ℤ) (key : κ) (c : Cache κ ν) : Option ν × Cache κ ν :=
  if c.enabled then
    match c.cache.lookup key with
    | some entry =>
        if entry.isExpired now then
          (none, { c with cache := c.cache.erase key, misses := c.misses + 1 })
        else (some entry.value, { c with hits := c.hits + 1 })
    | none => (none, { c with misses := c.misses + 1 })
  else (none, c)

/-- `cleanup_expired`; the entry of `key` is looked at when the clock shows `sweep key`. -/
def cleanupExpired (sweep : κ → ℤ) (c : Cache κ ν) : Cache κ ν :=
  { c with cache := c.cache.sift fun key entry => !entry.isExpired (sweep key) }

/-- The clean-up when there are too many entries. -/
def trim (sweep : κ → ℤ) (c : Cache κ ν) : Cache κ ν :=
  if c.cache.entries.length > c.maxSize then c.cleanupExpired sweep else c

/-- The lifetime of an entry: a negative one means the default. -/
def lifetime (defaultTtl ttl : ℤ) : ℤ := if ttl < 0 then defaultTtl else ttl

/-- `put`. -/
def put (now : ℤ) (sweep : κ → ℤ) (key : κ) (value : ν) (ttl : ℤ) (c : Cache κ ν) : Cache κ ν :=
  if c.enabled then
    trim sweep
      { c with
          cache := c.cache.insert key
            { value := value, timestamp := now, ttl := lifetime c.defaultTtl ttl } }
  else c

/-- `invalidate`. -/
def invalidate (key : κ) (c : Cache κ ν) : Cache κ ν := { c with cache := c.cache.erase key }

/-- `clear`. -/
def clear (c : Cache κ ν) : Cache κ ν := { c with cache := ∅, hits := 0, misses := 0 }

/-- `set_enabled`. -/
def setEnabled (enabled : Bool) (c : Cache κ ν) : Cache κ ν := { c with enabled := enabled }

/-- `set_max_size`. -/
def setMaxSize (sweep : κ → ℤ) (maxSize : ℕ) (c : Cache κ ν) : Cache κ ν :=
  trim sweep { c with maxSize := maxSize }

/-- `set_default_ttl`. -/
def setDefaultTtl (ttl : ℤ) (c : Cache κ ν) : Cache κ ν := { c with defaultTtl := ttl }

end Cache

/-! ### Runs -/

/-- The calls of a `Cache`. -/
inductive CacheCall (κ ν : Type*)
  | put (key : κ) (value : ν) (ttl : ℤ)
  | get (key : κ)
  | invalidate (key : κ)
  | clear
  | setEnabled (enabled : Bool)
  | setMaxSize (maxSize : ℕ)
  | setDefaultTtl (ttl : ℤ)

/-- The readings of the clock during a call: the first one, those of a clean-up, which come after
it in any order of the entries, and a time when the call is over. -/
structure Moment (κ : Type*) where
  now : ℤ
  sweep : κ → ℤ
  done : ℤ
  now_le_sweep : ∀ k, now ≤ sweep k
  sweep_le_done : ∀ k, sweep k ≤ done
  now_le_done : now ≤ done

/-- A call at its moment. -/
structure CacheEvent (κ ν : Type*) where
  call : CacheCall κ ν
  moment : Moment κ

section Runs

variable {κ ν : Type*} [DecidableEq κ]

/-- One call; only `get` has an answer. -/
def Cache.perform (e : CacheEvent κ ν) (c : Cache κ ν) : Option ν × Cache κ ν :=
  match e.call with
  | .put key value ttl => (none, c.put e.moment.now e.moment.sweep key value ttl)
  | .get key => c.get e.moment.now key
  | .invalidate key => (none, c.invalidate key)
  | .clear => (none, c.clear)
  | .setEnabled enabled => (none, c.setEnabled enabled)
  | .setMaxSize maxSize => (none, c.setMaxSize e.moment.sweep maxSize)
  | .setDefaultTtl ttl => (none, c.setDefaultTtl ttl)

variable (κ ν) in
/-- The cache and the time that has passed; the clock never goes back. -/
def Cache.machine : Machine (ℤ × Cache κ ν) (CacheEvent κ ν) (Option ν) where
  step s e :=
    if e.moment.now < s.1 then none
    else
      let (answer, cache) := s.2.perform e
      some ((e.moment.done, cache), answer)

/-! ### The timed map -/

/-- A map whose entries live for a given time.  `gets` counts the lookups since the last
`clear`. -/
structure TimedMap (κ ν : Type*) where
  stored : κ → Option (CacheEntry ν) := fun _ => none
  defaultTtl : ℤ
  enabled : Bool := true
  gets : ℕ := 0

namespace TimedMap

/-- The value under `key` if its lifetime is not over. -/
def lookup (now : ℤ) (key : κ) (m : TimedMap κ ν) : Option ν :=
  match m.stored key with
  | some entry => if now - entry.timestamp ≤ entry.ttl * second then some entry.value else none
  | none => none

/-- One call: an entry is stored by an enabled `put` and stays until it is overwritten,
invalidated or cleared. -/
def perform (e : CacheEvent κ ν) (m : TimedMap κ ν) : Option ν × TimedMap κ ν :=
  match e.call with
  | .put key value ttl =>
      if m.enabled then
        (none, { m with
          stored := Function.update m.stored key
            (some { value := value
                    timestamp := e.moment.now
                    ttl := if ttl < 0 then m.defaultTtl else ttl }) })
      else (none, m)
  | .get key =>
      if m.enabled then (m.lookup e.moment.now key, { m with gets := m.gets + 1 }) else (none, m)
  | .invalidate key => (none, { m with stored := Function.update m.stored key none })
  | .clear => (none, { m with stored := fun _ => none, gets := 0 })
  | .setEnabled enabled => (none, { m with enabled := enabled })
  | .setMaxSize _ => (none, m)
  | .setDefaultTtl ttl => (none, { m with defaultTtl := ttl })

/-- A `put` that stores an entry gives it a lifetime the clock can count. -/
def Counts (m : TimedMap κ ν) (e : CacheEvent κ ν) : Prop :=
  match e.call with
  | .put _ _ ttl => m.enabled = true → FitsClock (if ttl < 0 then m.defaultTtl else ttl)
  | _ => True

end TimedMap

variable (κ ν) in
/-- The timed map on the same clock. -/
def TimedMap.machine : Machine (ℤ × TimedMap κ ν) (CacheEvent κ ν) (Option ν) where
  step s e :=
    if e.moment.now < s.1 then none
    else
      let (answer, map) := s.2.perform e
      some ((e.moment.done, map), answer)

end Runs

/-! ### The refinement -/

/-- What the table of a cache finds under a key. -/
def Cache.find {κ ν : Type*} [DecidableEq κ] (c : Cache κ ν) (key : κ) : Option (CacheEntry ν) :=
  c.cache.lookup key

/-- The cache `c` stands for the map `m` at the time `now`: its table is the map less some dead
entries. -/
structure Represents {κ ν : Type*} [DecidableEq κ] (now : ℤ) (c : Cache κ ν)
    (m : TimedMap κ ν) : Prop where
  enabled : c.enabled = m.enabled
  defaultTtl : c.defaultTtl = m.defaultTtl
  gets : c.hits + c.misses = m.gets
  fits : ∀ key entry, m.stored key = some entry → FitsClock entry.ttl
  sheds : Sheds CacheEntry.Dead now m.stored c.find

section Refinement

variable {κ ν : Type*} [DecidableEq κ] {t u : ℤ} {c : Cache κ ν} {m : TimedMap κ ν}

theorem Represents.later (h : Represents t c m) (htu : t ≤ u) : Represents u c m :=
  { h with sheds := h.sheds.mono CacheEntry.Dead.mono htu }

/-- An entry of the table is an entry of the map. -/
theorem Represents.find_stored (h : Represents t c m) {key : κ} {entry : CacheEntry ν}
    (hfind : c.find key = some entry) : m.stored key = some entry := by
  rcases h.sheds key with heq | ⟨hnone, -⟩
  · rw [← heq, hfind]
  · rw [hnone] at hfind
    cases hfind

/-- `erase` on the table. -/
theorem find_erase (key : κ) (c : Cache κ ν) :
    (fun k => (c.cache.erase key).lookup k) = Function.update c.find key none := by
  funext k
  by_cases hk : k = key
  · subst hk
    rw [AList.lookup_erase, Function.update_self]
  · rw [AList.lookup_erase_ne hk, Function.update_of_ne hk, Cache.find]

/-- `insert` on the table. -/
theorem find_insert (key : κ) (entry : CacheEntry ν) (c : Cache κ ν) :
    (fun k => (c.cache.insert key entry).lookup k) =
      Function.update c.find key (some entry) := by
  funext k
  by_cases hk : k = key
  · subst hk
    rw [AList.lookup_insert, Function.update_self]
  · rw [AList.lookup_insert_ne hk, Function.update_of_ne hk, Cache.find]

/-- The cache has an entry under the key that has not expired. -/
structure Cache.Finds (now : ℤ) (key : κ) (entry : CacheEntry ν) (c : Cache κ ν) : Prop where
  enabled : c.enabled = true
  find : c.find key = some entry
  alive : entry.isExpired now = false

/-- A lookup returns the value of such an entry. -/
theorem Cache.get_eq_some_iff {now : ℤ} {key : κ} {v : ν} :
    (c.get now key).1 = some v ↔ ∃ entry, c.Finds now key entry ∧ entry.value = v := by
  constructor
  · intro h
    unfold Cache.get at h
    split_ifs at h with hen
    cases hfind : c.cache.lookup key with
    | none =>
      rw [hfind] at h
      cases h
    | some entry =>
      rw [hfind] at h
      dsimp only at h
      split_ifs at h with hexpired
      exact ⟨entry, ⟨hen, hfind, Bool.not_eq_true _ ▸ hexpired⟩, Option.some.inj h⟩
  · rintro ⟨entry, ⟨hen, hfind, halive⟩, rfl⟩
    have hlookup : c.cache.lookup key = some entry := hfind
    rw [Cache.get, if_pos hen, hlookup]
    dsimp only
    rw [if_neg (by rw [halive]; exact Bool.false_ne_true)]

/-- The entries of `c'` are entries of `c`, or `stored`, a new value under its key. -/
structure Cache.Updates (c : Cache κ ν) (stored : Option (κ × ν)) (c' : Cache κ ν) : Prop where
  find : ∀ key entry, c'.find key = some entry → stored = some (key, entry.value) ∨
    c.find key = some entry ∧ (c.enabled = true → ∀ value, stored ≠ some (key, value))
  enabled : c'.enabled = c.enabled

theorem Cache.Updates.refl (c : Cache κ ν) : c.Updates none c :=
  ⟨fun _ _ h => Or.inr ⟨h, fun _ _ h => (by cases h)⟩, rfl⟩

theorem Cache.Updates.trans {d e : Cache κ ν} {stored : Option (κ × ν)} (h : c.Updates none d)
    (h' : d.Updates stored e) : c.Updates stored e := by
  refine ⟨fun key entry hfind => ?_, h'.enabled.trans h.enabled⟩
  rcases h'.find key entry hfind with hnew | ⟨hold, hkey⟩
  · exact Or.inl hnew
  · rcases h.find key entry hold with habs | ⟨hold, -⟩
    · cases habs
    · exact Or.inr ⟨hold, fun hen => hkey (h.enabled.trans hen)⟩

/-- A property of all values stays. -/
theorem Cache.Updates.forall_value {d : Cache κ ν} {stored : Option (κ × ν)} {P : ν → Prop}
    (h : c.Updates stored d) (hP : ∀ key entry, c.find key = some entry → P entry.value)
    (hstored : ∀ p ∈ stored, P p.2) : ∀ key entry, d.find key = some entry → P entry.value := by
  intro key entry hfind
  rcases h.find key entry hfind with hnew | ⟨hold, -⟩
  · exact hstored _ hnew
  · exact hP key entry hold

/-- A lookup stores nothing. -/
theorem Cache.updates_get (now : ℤ) (key : κ) (c : Cache κ ν) :
    c.Updates none (c.get now key).2 := by
  unfold Cache.get
  split_ifs with hen
  · cases hfind : c.cache.lookup key with
    | none => exact ⟨(Cache.Updates.refl c).find, rfl⟩
    | some entry =>
      dsimp only
      split_ifs
      · refine ⟨fun k e he => Or.inr ⟨?_, fun _ _ h => (by cases h)⟩, rfl⟩
        have herase := congrFun (find_erase key c) k
        rw [Cache.find, herase] at he
        by_cases hk : k = key
        · rw [hk, Function.update_self] at he
          cases he
        · rwa [Function.update_of_ne hk] at he
      · exact ⟨(Cache.Updates.refl c).find, rfl⟩
  · exact Cache.Updates.refl c

theorem Cache.updates_trim (sweep : κ → ℤ) (c : Cache κ ν) : c.Updates none (c.trim sweep) := by
  unfold Cache.trim
  split_ifs
  · refine ⟨fun k e he => Or.inr ⟨?_, fun _ _ h => (by cases h)⟩, rfl⟩
    rw [Cache.find, Cache.cleanupExpired, AList.lookup_sift] at he
    exact (Option.filter_eq_some_iff.1 he).1
  · exact Cache.Updates.refl c

/-- `put` stores a value under its key. -/
theorem Cache.updates_put (now : ℤ) (sweep : κ → ℤ) (key : κ) (value : ν) (ttl : ℤ)
    (c : Cache κ ν) : c.Updates (some (key, value)) (c.put now sweep key value ttl) := by
  unfold Cache.put
  split_ifs with hen
  · refine ⟨fun k e he => ?_, (Cache.updates_trim sweep _).enabled⟩
    rcases (Cache.updates_trim sweep _).find k e he with habs | ⟨he, -⟩
    · cases habs
    · have hinsert := congrFun (find_insert key ⟨value, now, Cache.lifetime c.defaultTtl ttl⟩ c) k
      rw [Cache.find, hinsert] at he
      by_cases hk : k = key
      · rw [hk, Function.update_self] at he
        exact Or.inl (by rw [hk, ← Option.some.inj he])
      · rw [Function.update_of_ne hk] at he
        refine Or.inr ⟨he, fun _ v habs => hk ?_⟩
        rw [(Prod.mk.inj (Option.some.inj habs)).1]
  · exact ⟨fun k e he => Or.inr ⟨he, fun habs => absurd habs hen⟩, rfl⟩

/-- The cache is enabled and may take one more entry without a clean-up. -/
structure Cache.Roomy (c : Cache κ ν) : Prop where
  enabled : c.enabled = true
  room : c.cache.entries.length < c.maxSize

theorem Cache.Roomy.get (h : c.Roomy) (now : ℤ) (key : κ) : (c.get now key).2.Roomy := by
  have herase : (c.cache.erase key).entries.length ≤ c.cache.entries.length :=
    (List.kerase_sublist key c.cache.entries).length_le
  unfold Cache.get
  rw [if_pos h.enabled]
  split
  · split_ifs
    · exact ⟨h.enabled, herase.trans_lt h.room⟩
    · exact ⟨h.enabled, h.room⟩
  · exact ⟨h.enabled, h.room⟩

/-- A lookup drops no entry that has not expired. -/
theorem Cache.Finds.get {now : ℤ} {key : κ} {entry : CacheEntry ν} (h : c.Finds now key entry)
    (other : κ) : (c.get now other).2.Finds now key entry := by
  refine ⟨(Cache.updates_get now other c).enabled.trans h.enabled, ?_, h.alive⟩
  have hfind : c.find key = some entry := h.find
  unfold Cache.get
  rw [if_pos h.enabled]
  cases hother : c.cache.lookup other with
  | none => exact hfind
  | some e =>
    dsimp only
    split_ifs with hexpired
    · have hne : key ≠ other := by
        rintro rfl
        obtain rfl := Option.some.inj (hother.symm.trans hfind)
        rw [h.alive] at hexpired
        cases hexpired
      have herase := congrFun (find_erase other c) key
      rw [Function.update_of_ne hne] at herase
      exact herase.trans hfind
    · exact hfind

/-- What is stored where there is room is there. -/
theorem Cache.Roomy.find_put (h : c.Roomy) (now : ℤ) (sweep : κ → ℤ) (key : κ) (value : ν)
    (ttl : ℤ) : (c.put now sweep key value ttl).find key =
      some ⟨value, now, Cache.lifetime c.defaultTtl ttl⟩ := by
  have hlength : (c.cache.insert key ⟨value, now, Cache.lifetime c.defaultTtl ttl⟩).entries.length ≤
      c.maxSize := by
    rw [AList.entries_insert, List.length_cons]
    exact (Nat.succ_le_succ (List.kerase_sublist key c.cache.entries).length_le).trans h.room
  rw [Cache.put, if_pos h.enabled, Cache.trim, if_neg hlength.not_gt, Cache.find,
    AList.lookup_insert]

@[simp] theorem Cache.defaultTtl_get (now : ℤ) (key : κ) (c : Cache κ ν) :
    (c.get now key).2.defaultTtl = c.defaultTtl := by
  unfold Cache.get
  split_ifs
  · split
    · split_ifs
      · rfl
      · rfl
    · rfl
  · rfl

theorem Cache.defaultTtl_put (now : ℤ) (sweep : κ → ℤ) (key : κ) (value : ν) (ttl : ℤ)
    (c : Cache κ ν) : (c.put now sweep key value ttl).defaultTtl = c.defaultTtl := by
  unfold Cache.put Cache.trim
  split_ifs <;> rfl

/-- Nothing in the cache expires up to the time `t`. -/
def Cache.AliveUntil (t : ℤ) (c : Cache κ ν) : Prop :=
  ∀ key entry, c.find key = some entry → t - entry.timestamp ≤ toNanoseconds entry.ttl

theorem Cache.AliveUntil.not_expired (h : c.AliveUntil t) (hu : u ≤ t) {key : κ}
    {entry : CacheEntry ν} (hfind : c.find key = some entry) : entry.isExpired u = false := by
  have halive := h key entry hfind
  unfold CacheEntry.isExpired
  apply decide_eq_false
  omega

theorem Cache.AliveUntil.trim (h : c.AliveUntil t) {sweep : κ → ℤ} (hsweep : ∀ k, sweep k ≤ t) :
    (c.trim sweep).find = c.find := by
  unfold Cache.trim
  split_ifs
  · funext k
    refine (AList.lookup_sift _ _ _).trans ?_
    show (c.find k).filter _ = c.find k
    cases hfind : c.find k with
    | none => rfl
    | some entry => rw [Option.filter_some, h.not_expired (hsweep k) hfind]; rfl
  · rfl

/-- A lookup returns what the table has, and leaves it alone. -/
theorem Cache.AliveUntil.get (h : c.AliveUntil t) (hen : c.enabled = true) (hu : u ≤ t) (key : κ) :
    (c.get u key).1 = (c.find key).map CacheEntry.value ∧ (c.get u key).2.find = c.find := by
  unfold Cache.get
  rw [if_pos hen, Cache.find]
  cases hfind : c.cache.lookup key with
  | none => exact ⟨rfl, rfl⟩
  | some entry =>
    dsimp only
    rw [h.not_expired hu hfind]
    exact ⟨rfl, rfl⟩

/-- An entry that lives as long is added, whether there is a clean-up or not. -/
theorem Cache.AliveUntil.put (h : c.AliveUntil t) (hen : c.enabled = true) {now : ℤ}
    {sweep : κ → ℤ} (hsweep : ∀ k, sweep k ≤ t) (key : κ) (value : ν) {ttl : ℤ}
    (hlife : t - now ≤ toNanoseconds (Cache.lifetime c.defaultTtl ttl)) :
    (c.put now sweep key value ttl).find = Function.update c.find key
        (some ⟨value, now, Cache.lifetime c.defaultTtl ttl⟩) ∧
      (c.put now sweep key value ttl).AliveUntil t := by
  have hinsert := find_insert key ⟨value, now, Cache.lifetime c.defaultTtl ttl⟩ c
  have halive : Cache.AliveUntil t { c with
      cache := c.cache.insert key ⟨value, now, Cache.lifetime c.defaultTtl ttl⟩ } := by
    intro k entry hk
    rw [Cache.find, congrFun hinsert k] at hk
    by_cases hkey : k = key
    · subst hkey
      rw [Function.update_self] at hk
      cases hk
      exact hlife
    · rw [Function.update_of_ne hkey] at hk
      exact h k entry hk
  have hfind := halive.trim hsweep
  rw [Cache.put, if_pos hen]
  refine ⟨hfind.trans hinsert, fun k entry hk => ?_⟩
  rw [hfind] at hk
  exact halive k entry hk

/-- A clean-up drops dead entries only. -/
theorem Represents.cleanupExpired (h : Represents t c m) {sweep : κ → ℤ}
    (hsweep : ∀ k, sweep k ≤ t) : Represents t (c.cleanupExpired sweep) m := by
  refine { h with sheds := ?_ }
  have hfind : (c.cleanupExpired sweep).find =
      fun k => (c.find k).filter fun entry => !entry.isExpired (sweep k) := by
    funext k
    exact AList.lookup_sift _ _ _
  rw [hfind]
  refine h.sheds.filter fun k entry hk hexpired => ?_
  rw [Bool.not_eq_false'] at hexpired
  exact ((CacheEntry.isExpired_iff (h.fits k entry hk)).1 hexpired).mono (hsweep k)

theorem Represents.trim (h : Represents t c m) {sweep : κ → ℤ} (hsweep : ∀ k, sweep k ≤ t) :
    Represents t (c.trim sweep) m := by
  unfold Cache.trim
  split_ifs
  · exact h.cleanupExpired hsweep
  · exact h

/-- A lookup finds the same in both. -/
theorem Represents.get (h : Represents t c m) (htu : t ≤ u) (hen : m.enabled = true) (key : κ) :
    (c.get u key).1 = m.lookup u key ∧
      Represents u (c.get u key).2 { m with gets := m.gets + 1 } := by
  have hgets := h.gets
  have hu := h.later htu
  unfold Cache.get TimedMap.lookup
  rw [if_pos (h.enabled.trans hen)]
  cases hfind : c.cache.lookup key with
  | none =>
    refine ⟨?_, { hu with gets := by dsimp only; omega }⟩
    -- nothing in the table: nothing was stored, or what was stored is dead
    rcases h.sheds key with heq | ⟨-, entry, hentry, hdead⟩
    · rw [← heq, Cache.find, hfind]
    · rw [hentry]
      exact (if_neg (not_le.2 (hdead.mono htu))).symm
  | some entry =>
    have hstored := h.find_stored hfind
    have hexp : entry.isExpired u = true ↔ entry.Dead u :=
      CacheEntry.isExpired_iff (h.fits key entry hstored)
    rw [hstored]
    dsimp only
    by_cases hdead : entry.Dead u
    · rw [if_pos (hexp.2 hdead), if_neg (not_le.2 hdead)]
      refine ⟨rfl, { hu with gets := by dsimp only; omega, sheds := ?_ }⟩
      have hdrop := hu.sheds.drop hfind hdead
      rw [← find_erase] at hdrop
      exact hdrop
    · rw [if_neg fun hexpired => hdead (hexp.1 hexpired), if_pos (not_lt.1 hdead)]
      exact ⟨rfl, { hu with gets := by dsimp only; omega }⟩

/-- An entry is stored in both. -/
theorem Represents.insert (h : Represents t c m) (key : κ) (entry : CacheEntry ν)
    (hfits : FitsClock entry.ttl) :
    Represents t { c with cache := c.cache.insert key entry }
      { m with stored := Function.update m.stored key (some entry) } := by
  refine { h with fits := ?_, sheds := ?_ }
  · intro k f hk
    dsimp only at hk
    by_cases hkey : k = key
    · subst hkey
      rw [Function.update_self] at hk
      cases hk
      exact hfits
    · rw [Function.update_of_ne hkey] at hk
      exact h.fits k f hk
  · have hupdate := h.sheds.update key (some entry)
    rw [← find_insert] at hupdate
    exact hupdate

theorem Represents.put (h : Represents t c m) (now : ℤ) {sweep : κ → ℤ}
    (hsweep : ∀ k, sweep k ≤ t) (hen : m.enabled = true) (key : κ) (value : ν) {ttl : ℤ}
    (hfits : FitsClock (if ttl < 0 then m.defaultTtl else ttl)) :
    Represents t (c.put now sweep key value ttl)
      { m with
          stored := Function.update m.stored key
            (some { value := value
                    timestamp := now
                    ttl := if ttl < 0 then m.defaultTtl else ttl }) } := by
  have hlife : Cache.lifetime c.defaultTtl ttl = if ttl < 0 then m.defaultTtl else ttl := by
    rw [Cache.lifetime, h.defaultTtl]
  rw [Cache.put, if_pos (h.enabled.trans hen), hlife]
  exact (h.insert key ⟨value, now, if ttl < 0 then m.defaultTtl else ttl⟩ hfits).trim hsweep

/-- One call keeps the relation and is answered the same. -/
theorem Represents.perform (h : Represents t c m) {e : CacheEvent κ ν} (hnow : t ≤ e.moment.now)
    (hcounts : m.Counts e) :
    (c.perform e).1 = (m.perform e).1 ∧
      Represents e.moment.done (c.perform e).2 (m.perform e).2 := by
  have hdone : t ≤ e.moment.done := hnow.trans e.moment.now_le_done
  have hlater := h.later hdone
  obtain ⟨call, moment⟩ := e
  cases call with
  | put key value ttl =>
    by_cases hen : m.enabled = true
    · have hput := hlater.put moment.now moment.sweep_le_done hen key value (hcounts hen)
      simpa [Cache.perform, TimedMap.perform, hen] using hput
    · have henc : ¬ c.enabled = true := by rwa [h.enabled]
      simpa [Cache.perform, TimedMap.perform, Cache.put, hen, henc] using hlater
  | get key =>
    by_cases hen : m.enabled = true
    · obtain ⟨hanswer, hget⟩ := h.get hnow hen key
      have hget := hget.later moment.now_le_done
      simpa [Cache.perform, TimedMap.perform, hen] using And.intro hanswer hget
    · have henc : ¬ c.enabled = true := by rwa [h.enabled]
      simpa [Cache.perform, TimedMap.perform, Cache.get, hen, henc] using hlater
  | invalidate key =>
    refine ⟨rfl, { hlater with fits := ?_, sheds := ?_ }⟩
    · intro k entry hk
      by_cases hkey : k = key
      · subst hkey
        simp [TimedMap.perform] at hk
      · simp only [TimedMap.perform, Function.update_of_ne hkey] at hk
        exact h.fits k entry hk
    · have hupdate := hlater.sheds.update key none
      rw [← find_erase] at hupdate
      exact hupdate
  | clear =>
    refine ⟨rfl, { hlater with gets := rfl, fits := ?_, sheds := ?_ }⟩
    · intro k entry hk
      simp [TimedMap.perform] at hk
    · exact Sheds.refl _ _ _
  | setEnabled enabled => exact ⟨rfl, { hlater with enabled := rfl }⟩
  | setMaxSize maxSize =>
    refine ⟨rfl, ?_⟩
    have hset : Represents moment.done { c with maxSize := maxSize } m := { hlater with }
    exact hset.trim moment.sweep_le_done
  | setDefaultTtl ttl => exact ⟨rfl, { hlater with defaultTtl := rfl }⟩

/-- **The cache refines the timed map.**  From the constructor on, every run of calls at readings
of a clock that never goes back is answered as the timed map answers it, and `hits` and `misses`
add up to the lookups since the last `clear`, provided that every lifetime an entry is stored
with can be counted by the clock. -/
theorem cache_refines_timedMap (start defaultTtl : ℤ) (es : List (CacheEvent κ ν))
    (hcounts : (TimedMap.machine κ ν).Along (fun s e _ => s.2.Counts e)
      (start, { defaultTtl := defaultTtl }) es) :
    (Cache.machine κ ν).outputs (start, { defaultTtl := defaultTtl }) es =
        (TimedMap.machine κ ν).outputs (start, { defaultTtl := defaultTtl }) es ∧
      ∀ now c, (Cache.machine κ ν).run (start, { defaultTtl := defaultTtl }) es = some (now, c) →
        ∃ m, (TimedMap.machine κ ν).run (start, { defaultTtl := defaultTtl }) es = some (now, m) ∧
          c.hits + c.misses = m.gets := by
  have hstart : Represents start ({ defaultTtl := defaultTtl } : Cache κ ν)
      { defaultTtl := defaultTtl } :=
    ⟨rfl, rfl, rfl, fun _ _ h => (by cases h), Sheds.refl _ _ _⟩
  obtain ⟨hout, hrun⟩ := Machine.simulation (M := Cache.machine κ ν) (N := TimedMap.machine κ ν)
    (R := fun s s' => s.1 = s'.1 ∧ Represents s.1 s.2 s'.2) (C := fun s e => s.2.Counts e)
    (fun s s' e h hrefused => by
      rw [TimedMap.machine] at hrefused
      rw [Cache.machine]
      dsimp only at *
      rw [h.1]
      split_ifs at * with hback
      · rfl)
    (fun s s' e u o h hC hstep => by
      rw [TimedMap.machine] at hstep
      rw [Cache.machine]
      dsimp only at *
      rw [h.1]
      split_ifs at * with hback
      cases hstep
      obtain ⟨hanswer, hrel⟩ := h.2.perform (h.1 ▸ not_lt.1 hback) hC
      exact ⟨_, by rw [hanswer], rfl, hrel⟩)
    (s := (start, { defaultTtl := defaultTtl })) (t := (start, { defaultTtl := defaultTtl }))
    ⟨rfl, hstart⟩ es hcounts
  refine ⟨hout, fun now c hc => ?_⟩
  obtain ⟨⟨now', m⟩, hm, hnow, hrel⟩ := hrun _ hc
  cases hnow
  exact ⟨m, hm, hrel.gets⟩

end Refinement

/-- All readings of a call at once. -/
def Moment.at (κ : Type*) (now : ℤ) : Moment κ :=
  ⟨now, fun _ => now, now, fun _ => le_rfl, fun _ => le_rfl, le_rfl⟩

theorem cache_refines_timedMap_default :
    (Cache.machine ℕ ℕ).outputs (0, { defaultTtl := 120 })
      [⟨.put 1 7 (-1), .at ℕ 0⟩, ⟨.get 1, .at ℕ (120 * second)⟩,
        ⟨.get 1, .at ℕ (120 * second + 1)⟩] = [none, some 7, none] := by
  rw [(cache_refines_timedMap 0 120 _ ?_).1]
  · rfl
  · intro s hs
    refine ⟨fun _ => by decide, fun s hs => ⟨trivial, fun s hs => ⟨trivial, trivial⟩⟩⟩

/-- An entry that is stored for ever is not found a second later. -/
theorem endless_lifetime_expires :
    (Cache.machine ℕ ℕ).outputs (0, { defaultTtl := 120 })
      [⟨.put 1 7 (2 ^ 63 - 1), .at ℕ 0⟩, ⟨.get 1, .at ℕ second⟩] = [none, none] ∧
    (TimedMap.machine ℕ ℕ).outputs (0, { defaultTtl := 120 })
      [⟨.put 1 7 (2 ^ 63 - 1), .at ℕ 0⟩, ⟨.get 1, .at ℕ second⟩] = [none, some 7] := by
  constructor <;> rfl

/-- An entry that is stored with a lifetime of minus 317 years is found a second later. -/
theorem negative_lifetime_lasts :
    (Cache.machine ℕ ℕ).outputs (0, { defaultTtl := -10 ^ 10 })
      [⟨.put 1 7 (-1), .at ℕ 0⟩, ⟨.get 1, .at ℕ second⟩] = [none, some 7] ∧
    (TimedMap.machine ℕ ℕ).outputs (0, { defaultTtl := -10 ^ 10 })
      [⟨.put 1 7 (-1), .at ℕ 0⟩, ⟨.get 1, .at ℕ second⟩] = [none, none] := by
  constructor <;> rfl

end Kaiten

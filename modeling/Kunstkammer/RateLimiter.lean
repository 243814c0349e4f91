import Kunstkammer.Foundation.Clock
import Kunstkammer.Foundation.Window

/-!
# The rate limiter

`Rate_limiter` of `rate_limiter.hpp`.  The body of `wait_if_needed` runs under `_mutex`, so the
calls of all threads come one after the other, and a run is a number of calls on one clock.
Instants and durations are in nanoseconds, as `steady_clock` counts them; an interval in
milliseconds is converted into a signed 64-bit number of them wherever it is used.

* `RateLimiter`, `create`, `waitIfNeeded` with its phases `waitForHour`, `waitForMinute`,
  `waitForInterval` and `countRequest`;
* `releases n s`: the instants stored in `_last_request_time` by `n` calls;
* `spaced_releases`: they are at least the interval apart;
* `releases_keep_interval`: so are those of a run that changes the limits on its way, by the
  interval in force at the later of two requests, if that can be converted;
* `releases_of_idle`: after an idle hour the first request of a burst is forgotten, and no call
  of the burst waits for more than the interval;
* `limits_kept_iff`: what this means for the two limits.
-/

namespace Kaiten

/-- `std::chrono::minutes(1)`. -/
def minute : ℤ := 60000000000

/-- `std::chrono::hours(1)`. -/
def hour : ℤ := 3600000000000

/-- `std::chrono::milliseconds` converted to the nanoseconds of the clock. -/
def milliseconds (n : ℤ) : ℤ := (n * 1000000).bmod (2 ^ 64)

theorem milliseconds_of_fits {n : ℤ} (hlo : -2 ^ 63 ≤ n * 1000000) (hhi : n * 1000000 < 2 ^ 63) :
    milliseconds n = n * 1000000 :=
  Int.bmod_eq_of_le (by omega) (by omega)

/-- The longest wait for an interval of `n` milliseconds. -/
def intervalWait (n : ℤ) : ℤ := max (milliseconds n) 0

theorem intervalWait_nonneg (n : ℤ) : 0 ≤ intervalWait n := le_max_right _ _

theorem milliseconds_le_intervalWait (n : ℤ) : milliseconds n ≤ intervalWait n := le_max_left _ _

/-- An interval that is not positive is too short for every window. -/
theorem le_mul_intervalWait_iff {M w n : ℤ} (hM : 1 ≤ M) (hw : 0 < w) :
    w ≤ M * intervalWait n ↔ w ≤ M * milliseconds n := by
  unfold intervalWait
  rcases le_total 0 (milliseconds n) with hn | hn
  · rw [max_eq_left hn]
  · have hproduct : M * milliseconds n ≤ 0 :=
      mul_nonpos_of_nonneg_of_nonpos (by omega) hn
    rw [max_eq_right hn, mul_zero]
    omega

/-- A `Rate_limiter`. -/
structure RateLimiter where
  lastRequestTime : ℤ
  lastMinuteReset : ℤ
  lastHourReset : ℤ
  maxPerMinute : ℤ
  maxPerHour : ℤ
  minInterval : ℤ
  minuteRequests : ℤ := 0
  hourlyRequests : ℤ := 0
  enabled : Bool := true
  deriving DecidableEq

namespace RateLimiter

open Window

/-! ### The limiter -/

/-- `reset_counters`. -/
def resetCounters (s : RateLimiter × Clock) : RateLimiter × Clock :=
  let (minuteReset, clock) := s.2.read
  let (hourReset, clock) := clock.read
  ({ s.1 with
      lastMinuteReset := minuteReset
      lastHourReset := hourReset
      minuteRequests := 0
      hourlyRequests := 0 }, clock)

/-- `reset_minute_counter`. -/
def resetMinuteCounter (s : RateLimiter × Clock) : RateLimiter × Clock :=
  let (now, clock) := s.2.read
  ({ s.1 with lastMinuteReset := now, minuteRequests := 0 }, clock)

/-- `reset_hourly_counter`. -/
def resetHourlyCounter (s : RateLimiter × Clock) : RateLimiter × Clock :=
  let (now, clock) := s.2.read
  ({ s.1 with lastHourReset := now, hourlyRequests := 0 }, clock)

/-- The constructor; a default `time_point` is the epoch of the clock. -/
def create (maxRequestsPerMinute maxRequestsPerHour minRequestInterval : ℤ) (clock : Clock) :
    RateLimiter × Clock :=
  resetCounters
    ({ lastRequestTime := 0
       lastMinuteReset := 0
       lastHourReset := 0
       maxPerMinute := maxRequestsPerMinute
       maxPerHour := maxRequestsPerHour
       minInterval := minRequestInterval }, clock)

/-- `std::this_thread::sleep_for`. -/
def sleepFor (d : ℤ) (s : RateLimiter × Clock) : RateLimiter × Clock := (s.1, s.2.sleep d)

/-- The hourly limit: wait until the hour is over. -/
def waitForHour (now : ℤ) (s : RateLimiter × Clock) : RateLimiter × Clock :=
  if s.1.hourlyRequests ≥ s.1.maxPerHour then
    let timeSinceHourReset := now - s.1.lastHourReset
    if timeSinceHourReset < hour then resetCounters (sleepFor (hour - timeSinceHourReset) s)
    else s
  else s

/-- The minute limit: wait until the minute is over.  `now` is older than the hourly wait. -/
def waitForMinute (now : ℤ) (s : RateLimiter × Clock) : RateLimiter × Clock :=
  if s.1.minuteRequests ≥ s.1.maxPerMinute then
    let timeSinceMinuteReset := now - s.1.lastMinuteReset
    if timeSinceMinuteReset < minute then
      resetMinuteCounter (sleepFor (minute - timeSinceMinuteReset) s)
    else s
  else s

/-- The minimal interval between requests, again counted from `now`. -/
def waitForInterval (now : ℤ) (s : RateLimiter × Clock) : RateLimiter × Clock :=
  if s.1.lastRequestTime > 0 then
    let timeSinceLastRequest := now - s.1.lastRequestTime
    if timeSinceLastRequest < milliseconds s.1.minInterval then
      sleepFor (milliseconds s.1.minInterval - timeSinceLastRequest) s
    else s
  else s

/-- Release the request and count it. -/
def release (s : RateLimiter × Clock) : RateLimiter × Clock :=
  let (now, clock) := s.2.read
  ({ s.1 with
      lastRequestTime := now
      minuteRequests := s.1.minuteRequests + 1
      hourlyRequests := s.1.hourlyRequests + 1 }, clock)

/-- The minute counter is set back when its minute is over. -/
def resetOverMinute (currentTime : ℤ) (s : RateLimiter × Clock) : RateLimiter × Clock :=
  if currentTime - s.1.lastMinuteReset ≥ minute then resetMinuteCounter s else s

/-- The hourly counter is set back when its hour is over. -/
def resetOverHour (currentTime : ℤ) (s : RateLimiter × Clock) : RateLimiter × Clock :=
  if currentTime - s.1.lastHourReset ≥ hour then resetHourlyCounter s else s

/-- The end of a call: a counter that is set back forgets the request it has just counted. -/
def countRequest (s : RateLimiter × Clock) : RateLimiter × Clock :=
  let s := release s
  let (currentTime, clock) := s.2.read
  resetOverHour currentTime (resetOverMinute currentTime (s.1, clock))

/-- `wait_if_needed`. -/
def waitIfNeeded (s : RateLimiter × Clock) : RateLimiter × Clock :=
  if s.1.enabled then
    let (now, clock) := s.2.read
    countRequest (waitForInterval now (waitForMinute now (waitForHour now (s.1, clock))))
  else s

/-- The instants at which `n` calls release their requests. -/
def releases : ℕ → RateLimiter × Clock → List ℤ
  | 0, _ => []
  | n + 1, s =>
      let s := waitIfNeeded s
      s.1.lastRequestTime :: releases n s

/-- `global_rate_limiter`. -/
def globalRateLimiter (clock : Clock) : RateLimiter × Clock := create 60 1000 500 clock

/-! ### Every call keeps the interval -/

/-- `t` comes from `s` by waiting: the clock has moved on, and neither the last release nor the
interval has changed. -/
structure Waited (s t : RateLimiter × Clock) : Prop where
  time : s.2.time ≤ t.2.time
  last : t.1.lastRequestTime = s.1.lastRequestTime
  interval : t.1.minInterval = s.1.minInterval
  enabled : t.1.enabled = s.1.enabled

theorem Waited.refl (s : RateLimiter × Clock) : Waited s s := ⟨le_rfl, rfl, rfl, rfl⟩

theorem Waited.trans {s t u : RateLimiter × Clock} (h : Waited s t) (h' : Waited t u) :
    Waited s u :=
  ⟨h.time.trans h'.time, h'.last.trans h.last, h'.interval.trans h.interval,
    h'.enabled.trans h.enabled⟩

theorem waited_sleepFor (d : ℤ) (s : RateLimiter × Clock) : Waited s (sleepFor d s) :=
  ⟨by simp [sleepFor], rfl, rfl, rfl⟩

theorem waited_resetMinuteCounter (s : RateLimiter × Clock) : Waited s (resetMinuteCounter s) :=
  ⟨s.2.time_le_read, rfl, rfl, rfl⟩

theorem waited_resetHourlyCounter (s : RateLimiter × Clock) : Waited s (resetHourlyCounter s) :=
  ⟨s.2.time_le_read, rfl, rfl, rfl⟩

theorem waited_resetCounters (s : RateLimiter × Clock) : Waited s (resetCounters s) :=
  ⟨s.2.time_le_read.trans s.2.read.2.time_le_read, rfl, rfl, rfl⟩

theorem waited_waitForHour (now : ℤ) (s : RateLimiter × Clock) :
    Waited s (waitForHour now s) := by
  unfold waitForHour
  dsimp only
  split_ifs
  · exact (waited_sleepFor _ s).trans (waited_resetCounters _)
  · exact Waited.refl s
  · exact Waited.refl s

theorem waited_waitForMinute (now : ℤ) (s : RateLimiter × Clock) :
    Waited s (waitForMinute now s) := by
  unfold waitForMinute
  dsimp only
  split_ifs
  · exact (waited_sleepFor _ s).trans (waited_resetMinuteCounter _)
  · exact Waited.refl s
  · exact Waited.refl s

/-- The last wait of a call: the interval since the last release is over. -/
theorem waited_waitForInterval (now : ℤ) (s : RateLimiter × Clock) (hnow : now ≤ s.2.time) :
    Waited s (waitForInterval now s) ∧ (0 < s.1.lastRequestTime →
      s.1.lastRequestTime + milliseconds s.1.minInterval ≤ (waitForInterval now s).2.time) := by
  unfold waitForInterval
  dsimp only
  split_ifs with hpos hshort
  · refine ⟨waited_sleepFor _ s, fun _ => ?_⟩
    simp only [sleepFor, Clock.sleep_time]
    omega
  · exact ⟨Waited.refl s, fun _ => by omega⟩
  · exact ⟨Waited.refl s, fun h => absurd h hpos⟩

theorem waited_resetOverMinute (now : ℤ) (s : RateLimiter × Clock) :
    Waited s (resetOverMinute now s) := by
  unfold resetOverMinute
  split_ifs
  · exact waited_resetMinuteCounter s
  · exact Waited.refl s

theorem waited_resetOverHour (now : ℤ) (s : RateLimiter × Clock) :
    Waited s (resetOverHour now s) := by
  unfold resetOverHour
  split_ifs
  · exact waited_resetHourlyCounter s
  · exact Waited.refl s

/-- What a call does to the instants: the release lies between the clock before and the clock
after, and at least the interval after the last release. -/
structure Released (s t : RateLimiter × Clock) : Prop where
  after : s.2.time ≤ t.1.lastRequestTime
  before : t.1.lastRequestTime ≤ t.2.time
  spaced : 0 < s.1.lastRequestTime →
    s.1.lastRequestTime + milliseconds s.1.minInterval ≤ t.1.lastRequestTime
  interval : t.1.minInterval = s.1.minInterval
  enabled : t.1.enabled = s.1.enabled

theorem released_waitIfNeeded (s : RateLimiter × Clock) (h : s.1.enabled = true) :
    Released s (waitIfNeeded s) := by
  unfold waitIfNeeded
  rw [if_pos h]
  dsimp only
  -- the state before the last wait
  have hread : Waited s (s.1, s.2.read.2) := ⟨s.2.time_le_read, rfl, rfl, rfl⟩
  have hfirst := (waited_waitForHour s.2.read.1 (s.1, s.2.read.2)).trans
    (waited_waitForMinute s.2.read.1 _)
  have hnow : s.2.read.1 ≤ (waitForMinute s.2.read.1 (waitForHour s.2.read.1
      (s.1, s.2.read.2))).2.time := hfirst.time
  replace hfirst := hread.trans hfirst
  generalize waitForMinute s.2.read.1 (waitForHour s.2.read.1 (s.1, s.2.read.2)) = t at *
  -- the state before the release
  obtain ⟨hwait, hspaced⟩ := waited_waitForInterval s.2.read.1 t hnow
  rw [hfirst.last, hfirst.interval] at hspaced
  replace hwait := hfirst.trans hwait
  generalize waitForInterval s.2.read.1 t = u at *
  have hreset := (waited_resetOverMinute (release u).2.read.1
    ((release u).1, (release u).2.read.2)).trans (waited_resetOverHour (release u).2.read.1 _)
  have hrelease : u.2.time ≤ (release u).1.lastRequestTime := u.2.time_le_read
  have hlast := hreset.last
  have htime := hreset.time
  have hlater : (release u).1.lastRequestTime ≤ (release u).2.read.1 :=
    (release u).2.time_le_read
  unfold countRequest
  dsimp only
  refine ⟨?_, ?_, fun hpos => ?_, ?_, ?_⟩
  · exact hlast ▸ hwait.time.trans hrelease
  · exact hlast ▸ hlater.trans htime
  · exact hlast ▸ (hspaced hpos).trans hrelease
  · exact hreset.interval.trans hwait.interval
  · exact hreset.enabled.trans hwait.enabled

/-- **The releases of every run are at least the interval apart.** -/
theorem spaced_releases (n : ℕ) (s : RateLimiter × Clock) (h : s.1.enabled = true)
    (hpos : 0 < s.2.time) (hI : 0 ≤ milliseconds s.1.minInterval) :
    Spaced (milliseconds s.1.minInterval) (releases n s) ∧
      ∀ x ∈ releases n s, s.2.time ≤ x ∧ (0 < s.1.lastRequestTime →
        s.1.lastRequestTime + milliseconds s.1.minInterval ≤ x) := by
  induction n generalizing s with
  | zero => simp [releases, Spaced]
  | succ n ih =>
    have hcall := released_waitIfNeeded s h
    obtain ⟨hspaced, hlater⟩ := ih (waitIfNeeded s) (hcall.enabled.trans h)
      (hpos.trans_le (hcall.after.trans hcall.before)) (hcall.interval ▸ hI)
    rw [hcall.interval] at hspaced hlater
    have hfirst : 0 < (waitIfNeeded s).1.lastRequestTime := hpos.trans_le hcall.after
    rw [releases]
    constructor
    · exact List.pairwise_cons.2 ⟨fun x hx => (hlater x hx).2 hfirst, hspaced⟩
    · intro x hx
      rcases List.mem_cons.1 hx with rfl | hx
      · exact ⟨hcall.after, hcall.spaced⟩
      · have hx := (hlater x hx).2 hfirst
        refine ⟨?_, fun hlast => ?_⟩
        · have := hcall.after; omega
        · have := hcall.spaced hlast; omega

/-! ### Limits that change -/

/-- `set_limits`. -/
def setLimits (perMinute perHour millisecondsInterval : ℤ) (s : RateLimiter × Clock) :
    RateLimiter × Clock :=
  ({ s.1 with
      maxPerMinute := perMinute
      maxPerHour := perHour
      minInterval := millisecondsInterval }, s.2)

/-- What a thread does to the limiter.  `_mutex` puts the calls of all threads into one order. -/
inductive Event
  | waitIfNeeded
  | setLimits (perMinute perHour millisecondsInterval : ℤ)
  deriving DecidableEq

/-- The limiter after a call. -/
def Event.apply (s : RateLimiter × Clock) : Event → RateLimiter × Clock
  | .waitIfNeeded => RateLimiter.waitIfNeeded s
  | .setLimits perMinute perHour millisecondsInterval =>
      RateLimiter.setLimits perMinute perHour millisecondsInterval s

/-- The instants stored in `_last_request_time` by a run, each with the interval in force. -/
def releasesIn (s : RateLimiter × Clock) : List Event → List (ℤ × ℤ)
  | [] => []
  | .waitIfNeeded :: events =>
      ((waitIfNeeded s).1.lastRequestTime, s.1.minInterval) :: releasesIn (waitIfNeeded s) events
  | .setLimits perMinute perHour millisecondsInterval :: events =>
      releasesIn (setLimits perMinute perHour millisecondsInterval s) events

/-- Neither kind of call stops the clock or switches the limiter off. -/
theorem apply_enabled (s : RateLimiter × Clock) (h : s.1.enabled = true) (event : Event) :
    (event.apply s).1.enabled = true ∧ s.2.time ≤ (event.apply s).2.time := by
  cases event with
  | waitIfNeeded =>
    have hcall := released_waitIfNeeded s h
    exact ⟨hcall.enabled.trans h, hcall.after.trans hcall.before⟩
  | setLimits perMinute perHour millisecondsInterval => exact ⟨h, le_rfl⟩

/-- The first release of a run keeps the interval to the release before the run. -/
theorem first_release_spaced (events : List Event) (s : RateLimiter × Clock)
    (h : s.1.enabled = true) (hlast : 0 < s.1.lastRequestTime)
    (hpast : s.1.lastRequestTime ≤ s.2.time) : ∀ x ∈ (releasesIn s events).head?,
      s.1.lastRequestTime ≤ x.1 ∧ s.1.lastRequestTime + milliseconds x.2 ≤ x.1 := by
  induction events generalizing s with
  | nil =>
    intro x hx
    cases hx
  | cons event events ih =>
    cases event with
    | waitIfNeeded =>
      intro x hx
      rw [releasesIn, List.head?_cons, Option.mem_some_iff] at hx
      subst hx
      have hcall := released_waitIfNeeded s h
      exact ⟨hpast.trans hcall.after, hcall.spaced hlast⟩
    | setLimits perMinute perHour millisecondsInterval =>
      exact ih (setLimits perMinute perHour millisecondsInterval s) h hlast hpast

/-- A negative interval asks for nothing, and one that can be converted is kept. -/
theorem spaced_of_fits {t u n : ℤ} (hle : t ≤ u) (hspaced : t + milliseconds n ≤ u)
    (hfits : n * 1000000 < 2 ^ 63) : t + n * 1000000 ≤ u := by
  rcases lt_or_ge n 0 with hn | hn
  · omega
  · rwa [milliseconds_of_fits (by omega) hfits] at hspaced

/-- **Consecutive releases are at least the interval apart that is in force at the later one**, in
every run of calls and changes of the limits, unless the interval is too long for a signed 64-bit
number of nanoseconds. -/
theorem releases_keep_interval (events : List Event) (s : RateLimiter × Clock)
    (h : s.1.enabled = true) (hpos : 0 < s.2.time) : (releasesIn s events).IsChain fun x y =>
      y.2 * 1000000 < 2 ^ 63 → x.1 + y.2 * 1000000 ≤ y.1 := by
  induction events generalizing s with
  | nil => exact List.isChain_nil
  | cons event events ih =>
    obtain ⟨henabled, htime⟩ := apply_enabled s h event
    have hrest := ih (event.apply s) henabled (hpos.trans_le htime)
    cases event with
    | waitIfNeeded =>
      have hcall := released_waitIfNeeded s h
      rw [releasesIn, List.isChain_cons]
      refine ⟨fun y hy hfits => ?_, hrest⟩
      obtain ⟨hle, hspaced⟩ := first_release_spaced events (waitIfNeeded s) henabled
        (hpos.trans_le hcall.after) hcall.before y hy
      exact spaced_of_fits hle hspaced hfits
    | setLimits perMinute perHour millisecondsInterval => exact hrest

/-- The limits of the default limiter are lowered between its first two requests. -/
theorem releases_keep_interval_lowered :
    (releasesIn (create 60 1000 500 (Clock.stopped 1))
      [.waitIfNeeded, .setLimits 10 100 2000, .waitIfNeeded, .waitIfNeeded]).IsChain
        fun x y => y.2 * 1000000 < 2 ^ 63 → x.1 + y.2 * 1000000 ≤ y.1 :=
  releases_keep_interval _ _ rfl (by decide)

/-- The nanoseconds of 9223372036855 milliseconds are a negative number: no call waits. -/
theorem endless_interval_not_kept :
    ¬ (releasesIn (create 60 1000 9223372036855 (Clock.stopped 1))
      [.waitIfNeeded, .waitIfNeeded]).IsChain fun x y => x.1 + y.2 * 1000000 ≤ y.1 := by
  decide

/-! ### Calls below the limits -/

/-- A call of `wait_if_needed` in `s` finds neither limit reached and resets no counter. -/
structure Undisturbed (s : RateLimiter × Clock) : Prop where
  minuteRequests : s.1.minuteRequests < s.1.maxPerMinute
  hourlyRequests : s.1.hourlyRequests < s.1.maxPerHour
  minuteReset : (waitIfNeeded s).2.time - s.1.lastMinuteReset < minute
  hourReset : (waitIfNeeded s).2.time - s.1.lastHourReset < hour

instance (s : RateLimiter × Clock) : Decidable (Undisturbed s) :=
  decidable_of_iff (_ ∧ _ ∧ _ ∧ _)
    ⟨fun h => ⟨h.1, h.2.1, h.2.2.1, h.2.2.2⟩, fun h => ⟨h.1, h.2, h.3, h.4⟩⟩

/-- The counters of `t` are those of `s` and `n` more. -/
structure Counted (n : ℕ) (s t : RateLimiter × Clock) : Prop where
  minuteRequests : t.1.minuteRequests = s.1.minuteRequests + n
  hourlyRequests : t.1.hourlyRequests = s.1.hourlyRequests + n

instance (n : ℕ) (s t : RateLimiter × Clock) : Decidable (Counted n s t) :=
  decidable_of_iff (_ ∧ _) ⟨fun h => ⟨h.1, h.2⟩, fun h => ⟨h.1, h.2⟩⟩

theorem Counted.refl (s : RateLimiter × Clock) : Counted 0 s s :=
  ⟨(add_zero _).symm, (add_zero _).symm⟩

theorem Counted.trans {m n : ℕ} {s t u : RateLimiter × Clock} (h : Counted m s t)
    (h' : Counted n t u) : Counted (m + n) s u := by
  constructor
  · rw [h'.minuteRequests, h.minuteRequests, Nat.cast_add, add_assoc]
  · rw [h'.hourlyRequests, h.hourlyRequests, Nat.cast_add, add_assoc]

/-- The wait for the interval changes nothing but the clock. -/
theorem waitForInterval_fst (now : ℤ) (s : RateLimiter × Clock) :
    (waitForInterval now s).1 = s.1 := by
  unfold waitForInterval
  dsimp only
  split_ifs <;> rfl

/-- A call that ends before its minute and its hour are over resets no counter. -/
theorem countRequest_fst {s : RateLimiter × Clock}
    (hminute : (countRequest s).2.time - s.1.lastMinuteReset < minute)
    (hhour : (countRequest s).2.time - s.1.lastHourReset < hour) :
    (countRequest s).1 = (release s).1 := by
  have htime := ((waited_resetOverMinute (release s).2.read.1
    ((release s).1, (release s).2.read.2)).trans (waited_resetOverHour (release s).2.read.1 _)).time
  have hcount : countRequest s = resetOverHour (release s).2.read.1
      (resetOverMinute (release s).2.read.1 ((release s).1, (release s).2.read.2)) := rfl
  rw [← hcount, Clock.read_time] at htime
  have hm : ¬ (release s).2.read.1 - (release s).1.lastMinuteReset ≥ minute := by
    show ¬ (release s).2.read.1 - s.1.lastMinuteReset ≥ minute
    omega
  have hh : ¬ (release s).2.read.1 - (release s).1.lastHourReset ≥ hour := by
    show ¬ (release s).2.read.1 - s.1.lastHourReset ≥ hour
    omega
  simp only [hcount, resetOverMinute, if_neg hm, resetOverHour, if_neg hh]

/-- **An undisturbed call adds one to both counters.** -/
theorem counted_waitIfNeeded {s : RateLimiter × Clock} (h : s.1.enabled = true)
    (hs : Undisturbed s) : Counted 1 s (waitIfNeeded s) := by
  obtain ⟨hminute, hhour, hminuteReset, hhourReset⟩ := hs
  have hcall : waitIfNeeded s =
      countRequest (waitForInterval s.2.read.1 (s.1, s.2.read.2)) := by
    rw [waitIfNeeded, if_pos h]
    dsimp only
    rw [waitForHour, if_neg (not_le.2 hhour), waitForMinute, if_neg (not_le.2 hminute)]
  have hfst := waitForInterval_fst s.2.read.1 (s.1, s.2.read.2)
  rw [hcall] at hminuteReset hhourReset ⊢
  generalize waitForInterval s.2.read.1 (s.1, s.2.read.2) = u at *
  dsimp only at hfst
  rw [← hfst] at hminuteReset hhourReset
  constructor
  · rw [countRequest_fst hminuteReset hhourReset, release, ← hfst]
    rfl
  · rw [countRequest_fst hminuteReset hhourReset, release, ← hfst]
    rfl

/-! ### A burst after an idle hour -/

/-- The clock of a program that does nothing for an hour between the constructor of the limiter
and its first request, and nothing but wait for the limiter from then on. -/
def idleClock (t : ℤ) : Clock := ⟨t, fun n => if n = 2 then hour.toNat else 0⟩

/-- The limiter `k` requests after the one it has forgotten at `x`, on a stopped clock. -/
structure Burst (M H I x : ℤ) (k : ℕ) (s : RateLimiter × Clock) : Prop where
  clock : s.2 = Clock.stopped s.1.lastRequestTime
  last : s.1.lastRequestTime = x + k * intervalWait I
  maxPerMinute : s.1.maxPerMinute = M
  maxPerHour : s.1.maxPerHour = H
  minInterval : s.1.minInterval = I
  enabled : s.1.enabled = true
  hourReset : s.1.lastHourReset = x
  hourly : s.1.hourlyRequests = k
  minute_le : s.1.minuteRequests ≤ k
  minute_nonneg : 0 ≤ s.1.minuteRequests
  minuteReset : s.1.lastMinuteReset + s.1.minuteRequests * intervalWait I = s.1.lastRequestTime
  minute_lt : s.1.minuteRequests * intervalWait I < minute

section Burst

variable {M H I x : ℤ} {k : ℕ} {s : RateLimiter × Clock}

/-- The first request after the idle hour is counted and forgotten. -/
theorem burst_zero (hM : 1 ≤ M) (hH : 1 ≤ H) (t : ℤ) :
    Burst M H I (t + hour) 0 (waitIfNeeded (create M H I (idleClock t))) := by
  have hM0 : ¬ (0 ≥ M) := by omega
  have hH0 : ¬ (0 ≥ H) := by omega
  have hidle : waitIfNeeded (create M H I (idleClock t)) =
      ({ lastRequestTime := t + hour
         lastMinuteReset := t + hour
         lastHourReset := t + hour
         maxPerMinute := M
         maxPerHour := H
         minInterval := I }, Clock.stopped (t + hour)) := by
    simp [waitIfNeeded, create, resetCounters, idleClock, Clock.read, waitForHour, hH0,
      waitForMinute, hM0, waitForInterval, countRequest, release, resetOverMinute, resetOverHour,
      resetMinuteCounter, resetHourlyCounter, Clock.stopped, hour, minute]
  rw [hidle]
  constructor <;> simp [minute]

/-- A call of the burst waits for the interval only. -/
theorem Burst.waits (h : Burst M H I x k s) (hx : 0 < x) (hkH : (k : ℤ) < H)
    (hkM : (k : ℤ) < M ∨ minute ≤ M * intervalWait I) :
    waitIfNeeded s = countRequest (s.1, Clock.stopped (x + (k + 1) * intervalWait I)) := by
  have hgap := intervalWait_nonneg I
  have hpos : 0 < s.1.lastRequestTime := by
    rw [h.last]
    positivity
  have hhour : ¬ s.1.hourlyRequests ≥ s.1.maxPerHour := by
    rw [h.hourly, h.maxPerHour]
    omega
  have hminute : ¬ s.1.minuteRequests ≥ s.1.maxPerMinute := by
    rw [h.maxPerMinute]
    intro hge
    rcases hkM with hkM | hkM
    · have := h.minute_le
      omega
    · have hle := mul_le_mul_of_nonneg_right hge hgap
      have := h.minute_lt
      omega
  have hlast : x + (k + 1) * intervalWait I = s.1.lastRequestTime + intervalWait I := by
    rw [h.last]; ring
  rw [waitIfNeeded, if_pos h.enabled, h.clock, Clock.read_stopped, hlast]
  dsimp only
  rw [waitForHour, if_neg hhour, waitForMinute, if_neg hminute, waitForInterval, if_pos hpos,
    h.minInterval, sub_self]
  dsimp only
  unfold intervalWait at hgap ⊢
  split_ifs with hshort
  · simp [sleepFor]
  · rw [max_eq_right (not_lt.1 hshort), add_zero]

/-- The next request of the burst. -/
theorem Burst.succ (h : Burst M H I x k s) (hx : 0 < x) (hkH : (k : ℤ) < H)
    (hkM : (k : ℤ) < M ∨ minute ≤ M * intervalWait I)
    (hfit : (k + 1) * intervalWait I < hour) : Burst M H I x (k + 1) (waitIfNeeded s) := by
  have hlast : x + (k + 1) * intervalWait I = s.1.lastRequestTime + intervalWait I := by
    rw [h.last]; ring
  have hhour : ¬ (x + (k + 1) * intervalWait I - s.1.lastHourReset ≥ hour) := by
    rw [h.hourReset]
    omega
  have hc := h.minuteReset
  have hpos : 0 < minute := by decide
  rw [h.waits hx hkH hkM]
  simp only [countRequest, release, Clock.read_stopped, resetOverMinute]
  split_ifs with hminute
  · -- the minute is over: the counter starts again with this request forgotten
    simp only [resetMinuteCounter, Clock.read_stopped, resetOverHour, if_neg hhour]
    constructor <;> simp [h.maxPerMinute, h.maxPerHour, h.minInterval, h.enabled, h.hourReset,
      h.hourly, hpos]
    omega
  · simp only [resetOverHour, if_neg hhour]
    constructor <;> simp [h.maxPerMinute, h.maxPerHour, h.minInterval, h.enabled, h.hourReset,
      h.hourly, h.minute_le]
    · have := h.minute_nonneg
      omega
    · linarith
    · rw [ge_iff_le, not_le] at hminute
      linarith

/-- The releases of a burst follow each other at the interval. -/
theorem Burst.releases {n : ℕ} (h : Burst M H I x k s) (hx : 0 < x)
    (hH : (k + n : ℤ) ≤ H) (hM : (k + n : ℤ) ≤ M ∨ minute ≤ M * intervalWait I)
    (hfit : (k + n) * intervalWait I < hour) :
    ∀ y ∈ RateLimiter.releases n s, x ≤ y ∧ y ≤ x + (k + n) * intervalWait I := by
  have hgap := intervalWait_nonneg I
  induction n generalizing k s with
  | zero => simp [RateLimiter.releases]
  | succ n ih =>
    push_cast at hH hM hfit ⊢
    have hroom : (k + 1 : ℤ) * intervalWait I ≤ (k + (n + 1)) * intervalWait I :=
      mul_le_mul_of_nonneg_right (by omega) hgap
    have hnext := h.succ hx (by omega) (hM.imp_left fun h => by omega) (by omega)
    have hrest := ih hnext (by push_cast; omega) (hM.imp_left fun h => by push_cast; omega)
      (by push_cast; rw [add_assoc, add_comm (1 : ℤ)]; exact hfit)
    intro y hy
    rcases List.mem_cons.1 hy with rfl | hy
    · rw [hnext.last]
      push_cast
      constructor
      · have : 0 ≤ (k + 1 : ℤ) * intervalWait I := by positivity
        omega
      · omega
    · have hy := hrest y hy
      push_cast at hy
      rw [add_assoc, add_comm (1 : ℤ)] at hy
      exact hy

end Burst

theorem length_releases (n : ℕ) (s : RateLimiter × Clock) : (releases n s).length = n := by
  induction n generalizing s with
  | zero => rfl
  | succ n ih => rw [releases, List.length_cons, ih]

/-- After an idle hour, `n + 1` requests are released within `n` intervals, as long as the
counters do not count more than `n` of them. -/
theorem releases_of_idle {M H I w : ℤ} {n : ℕ} (hM : 1 ≤ M) (hH : 1 ≤ H)
    (hnH : (n : ℤ) ≤ H) (hnM : (n : ℤ) ≤ M ∨ minute ≤ M * intervalWait I)
    (hw : n * intervalWait I < w) (hwhour : w ≤ hour) {t : ℤ} (ht : 0 < t) :
    ¬ AtMostPer n w (releases (n + 1) (create M H I (idleClock t))) := by
  have hburst := burst_zero (I := I) hM hH t
  have hx : 0 < t + hour := by unfold hour; omega
  have hlater := hburst.releases (n := n) hx (by simpa using hnH) (by simpa using hnM)
    (by simpa using hw.trans_le hwhour)
  have hgap := intervalWait_nonneg I
  have hroom : 0 ≤ n * intervalWait I := by positivity
  refine not_atMostPer (t := t + hour) (fun y hy => ?_) (by rw [length_releases]; omega)
  rcases List.mem_cons.1 hy with rfl | hy
  · have hlast := hburst.last
    simp only [Nat.cast_zero, zero_mul, add_zero] at hlast
    omega
  · have hy := hlater y hy
    simp only [Nat.cast_zero, zero_add] at hy
    omega

/-- **When both limits are kept on every run**: exactly when the interval between requests keeps
them by itself.  The counters add nothing, since the request that finds its window over is
counted into the window that is then set back. -/
theorem limits_kept_iff {M H I : ℤ} (hM : 1 ≤ M) (hH : 1 ≤ H) :
    (∀ clock : Clock, 0 < clock.time → ∀ n,
      AtMostPer M minute (releases n (create M H I clock)) ∧
        AtMostPer H hour (releases n (create M H I clock))) ↔
      minute ≤ M * milliseconds I ∧ hour ≤ H * milliseconds I := by
  have hminutePos : 0 < minute := by decide
  have hhourPos : 0 < hour := by decide
  rw [← le_mul_intervalWait_iff hM hminutePos, ← le_mul_intervalWait_iff hH hhourPos]
  have hgap := intervalWait_nonneg I
  constructor
  · intro hkept
    by_contra hshort
    obtain ⟨m, rfl⟩ : ∃ m : ℕ, M = m := ⟨M.toNat, by omega⟩
    obtain ⟨h, rfl⟩ : ∃ h : ℕ, H = h := ⟨H.toNat, by omega⟩
    have hle : minute ≤ hour := by decide
    by_cases hminute : minute ≤ m * intervalWait I
    · -- the minute counter never makes a request of the burst wait
      have hhour : h * intervalWait I < hour := by
        by_contra hge
        exact hshort ⟨hminute, not_lt.1 hge⟩
      exact releases_of_idle hM hH le_rfl (Or.inr hminute) hhour le_rfl one_pos
        (hkept (idleClock 1) one_pos (h + 1)).2
    · rw [not_le] at hminute
      rcases le_or_gt m h with hmh | hhm
      · exact releases_of_idle hM hH (by omega) (Or.inl le_rfl) hminute hle one_pos
          (hkept (idleClock 1) one_pos (m + 1)).1
      · -- the hourly limit is the smaller one
        have hhour : h * intervalWait I < hour :=
          ((mul_le_mul_of_nonneg_right (by omega) hgap).trans_lt hminute).trans_le hle
        exact releases_of_idle hM hH le_rfl (Or.inl (by omega)) hhour le_rfl one_pos
          (hkept (idleClock 1) one_pos (h + 1)).2
  · rintro ⟨hminute, hhour⟩ clock hpos n
    have hstart : 0 < (create M H I clock).2.time :=
      hpos.trans_le (clock.time_le_read.trans clock.read.2.time_le_read)
    have hwait : intervalWait I = milliseconds I := by
      refine max_eq_left (not_lt.1 fun hneg => ?_)
      rw [intervalWait, max_eq_right hneg.le, mul_zero] at hminute
      omega
    rw [hwait] at hminute hhour hgap
    have hspaced := (spaced_releases n (create M H I clock) rfl hstart hgap).1
    exact ⟨hspaced.atMostPer hgap (by omega) hminute, hspaced.atMostPer hgap (by omega) hhour⟩

theorem limits_kept_iff_second :
    AtMostPer 60 minute (releases 100 (create 60 3600 1000 (idleClock 1))) :=
  (((limits_kept_iff (M := 60) (H := 3600) (I := 1000) (by decide) (by decide)).2
    (by decide)) (idleClock 1) one_pos 100).1

/-- The default limiter releases 61 requests within half a minute. -/
theorem default_limit_exceeded :
    ¬ AtMostPer 60 minute (releases 61 (create 60 1000 500 (idleClock 1))) :=
  releases_of_idle (n := 60) (by decide) (by decide) (by decide) (Or.inl (by decide)) (by decide)
    (by decide) one_pos

end RateLimiter

end Kaiten

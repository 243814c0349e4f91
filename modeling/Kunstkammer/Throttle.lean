import Kunstkammer.Foundation.Transition
import Kunstkammer.RateLimiter

/-!
# The rate limiter in use

All that the program does to its limiter: `wait_if_needed` by `Http_client` and the modes,
`set_limits` by `main`, and `set_enabled` by `main` and `Http_client`, in any order.

* `setEnabled`, `Control`, `limiterMachine`;
* `Sane`: the instants of the limiter are in the past;
* `waitBound`: the longest sleep of a call, by its counters;
* `waits_bounded`: no call sleeps for longer;
* `always_within_limits_iff`: when the counters stay within the limits that `print_stats` shows
  beside them.
-/

namespace Kaiten.RateLimiter

/-- `set_enabled`. -/
def setEnabled (enabled : Bool) (s : RateLimiter × Clock) : RateLimiter × Clock :=
  ({ s.1 with enabled := enabled }, s.2)

/-- What the program does to the limiter. -/
inductive Control
  | call (event : Event)
  | setEnabled (enabled : Bool)

/-- The limiter after a call. -/
def Control.apply (s : RateLimiter × Clock) : Control → RateLimiter × Clock
  | .call event => event.apply s
  | .setEnabled enabled => RateLimiter.setEnabled enabled s

/-- The limiter, call by call. -/
def limiterMachine : Machine (RateLimiter × Clock) Control Unit where
  step s e := some (e.apply s, ())

/-! ### The instants -/

/-- No instant of the limiter is in the future. -/
structure Sane (s : RateLimiter × Clock) : Prop where
  request : s.1.lastRequestTime ≤ s.2.time
  minute : s.1.lastMinuteReset ≤ s.2.time
  hour : s.1.lastHourReset ≤ s.2.time

variable {s : RateLimiter × Clock}

/-- Time passes. -/
theorem Sane.later (h : Sane s) {c : Clock} (hc : s.2.time ≤ c.time) : Sane (s.1, c) :=
  ⟨h.request.trans hc, h.minute.trans hc, h.hour.trans hc⟩

theorem Sane.sleepFor (h : Sane s) (d : ℤ) : Sane (sleepFor d s) :=
  h.later (by rw [Clock.sleep_time]; omega)

theorem Sane.resetMinuteCounter (h : Sane s) : Sane (resetMinuteCounter s) :=
  ⟨h.request.trans s.2.time_le_read, le_rfl, h.hour.trans s.2.time_le_read⟩

theorem Sane.resetHourlyCounter (h : Sane s) : Sane (resetHourlyCounter s) :=
  ⟨h.request.trans s.2.time_le_read, h.minute.trans s.2.time_le_read, le_rfl⟩

theorem Sane.resetCounters (h : Sane s) : Sane (resetCounters s) := by
  have hfirst := s.2.time_le_read
  have hsecond := s.2.read.2.time_le_read
  exact ⟨h.request.trans (hfirst.trans hsecond), hsecond, le_rfl⟩

theorem Sane.release (h : Sane s) : Sane (release s) :=
  ⟨le_rfl, h.minute.trans s.2.time_le_read, h.hour.trans s.2.time_le_read⟩

theorem sane_create (maxRequestsPerMinute maxRequestsPerHour minRequestInterval : ℤ) {c : Clock}
    (hc : 0 ≤ c.time) :
    Sane (create maxRequestsPerMinute maxRequestsPerHour minRequestInterval c) :=
  Sane.resetCounters ⟨hc, hc, hc⟩

/-! ### The phases of a call -/

/-- `t` comes from `s` by sleeping for `d`, which is not longer than `bound`. -/
structure Pauses (d bound : ℤ) (s t : RateLimiter × Clock) : Prop where
  slept : Clock.Slept d s.2 t.2
  nonneg : 0 ≤ d
  le : d ≤ bound

theorem Pauses.refl (s : RateLimiter × Clock) : Pauses 0 0 s s :=
  ⟨.refl s.2, le_rfl, le_rfl⟩

theorem Pauses.trans {d d' b b' : ℤ} {s t u : RateLimiter × Clock} (h : Pauses d b s t)
    (h' : Pauses d' b' t u) : Pauses (d + d') (b + b') s u :=
  ⟨h.slept.trans h'.slept, add_nonneg h.nonneg h'.nonneg, add_le_add h.le h'.le⟩

theorem Pauses.mono {d b b' : ℤ} {s t : RateLimiter × Clock} (h : Pauses d b s t) (hb : b ≤ b') :
    Pauses d b' s t := ⟨h.slept, h.nonneg, h.le.trans hb⟩

theorem pauses_resetMinuteCounter (s : RateLimiter × Clock) : Pauses 0 0 s (resetMinuteCounter s) :=
  ⟨.read s.2, le_rfl, le_rfl⟩

theorem pauses_resetHourlyCounter (s : RateLimiter × Clock) : Pauses 0 0 s (resetHourlyCounter s) :=
  ⟨.read s.2, le_rfl, le_rfl⟩

theorem pauses_resetCounters (s : RateLimiter × Clock) : Pauses 0 0 s (resetCounters s) :=
  ⟨(Clock.Slept.read s.2).trans (.read s.2.read.2), le_rfl, le_rfl⟩

theorem pauses_sleepFor {d b : ℤ} (hd : 0 ≤ d) (hb : d ≤ b) (s : RateLimiter × Clock) :
    Pauses d b s (sleepFor d s) := by
  have hslept := Clock.Slept.sleep d s.2
  rw [max_eq_left hd] at hslept
  exact ⟨hslept, hd, hb⟩

/-- The wait for the hour sleeps and sets both counters back, or it does nothing. -/
theorem waitForHour_cases {now : ℤ} (hpast : s.1.lastHourReset ≤ now) :
    ((∃ d, Pauses d hour s (waitForHour now s)) ∧ s.1.hourlyRequests ≥ s.1.maxPerHour ∧
        (waitForHour now s).1.minuteRequests = 0 ∧ (waitForHour now s).1.hourlyRequests = 0) ∨
      waitForHour now s = s ∧
        (s.1.hourlyRequests ≥ s.1.maxPerHour → hour ≤ now - s.1.lastHourReset) := by
  unfold waitForHour
  dsimp only
  split_ifs with hfull hshort
  · refine Or.inl ⟨⟨hour - (now - s.1.lastHourReset) + 0, ?_⟩, hfull, rfl, rfl⟩
    have hsleep := pauses_sleepFor (b := hour) (d := hour - (now - s.1.lastHourReset)) (by omega)
      (by omega) s
    exact (hsleep.trans (pauses_resetCounters _)).mono (add_zero _).le
  · exact Or.inr ⟨rfl, fun _ => not_lt.1 hshort⟩
  · exact Or.inr ⟨rfl, fun h => absurd h hfull⟩

theorem pauses_waitForMinute {now : ℤ}
    (hpast : s.1.minuteRequests ≥ s.1.maxPerMinute → s.1.lastMinuteReset ≤ now) : ∃ d,
    Pauses d (if s.1.minuteRequests ≥ s.1.maxPerMinute then minute else 0) s
      (waitForMinute now s) := by
  unfold waitForMinute
  dsimp only
  split_ifs with hfull hshort
  · have hpast := hpast hfull
    have hsleep := pauses_sleepFor (b := minute) (d := minute - (now - s.1.lastMinuteReset))
      (by omega) (by omega) s
    exact ⟨_, (hsleep.trans (pauses_resetMinuteCounter _)).mono (add_zero _).le⟩
  · exact ⟨0, (Pauses.refl s).mono (by decide)⟩
  · exact ⟨0, .refl s⟩

theorem pauses_waitForInterval {now : ℤ} (hpast : s.1.lastRequestTime ≤ now) : ∃ d,
    Pauses d (intervalWait s.1.minInterval) s (waitForInterval now s) := by
  have hwait := milliseconds_le_intervalWait s.1.minInterval
  unfold waitForInterval
  dsimp only
  split_ifs with hfirst hshort
  · exact ⟨_, pauses_sleepFor (by omega) (by omega) s⟩
  · exact ⟨0, (Pauses.refl s).mono (intervalWait_nonneg _)⟩
  · exact ⟨0, (Pauses.refl s).mono (intervalWait_nonneg _)⟩

theorem pauses_countRequest (s : RateLimiter × Clock) : Pauses 0 0 s (countRequest s) := by
  have hrelease : Pauses 0 0 s (release s) := ⟨.read s.2, le_rfl, le_rfl⟩
  have hread : Pauses 0 0 (release s) ((release s).1, (release s).2.read.2) :=
    ⟨.read (release s).2, le_rfl, le_rfl⟩
  have hminute : ∀ now u, Pauses 0 0 u (resetOverMinute now u) := by
    intro now u
    unfold resetOverMinute
    split_ifs
    · exact pauses_resetMinuteCounter u
    · exact .refl u
  have hhour : ∀ now u, Pauses 0 0 u (resetOverHour now u) := by
    intro now u
    unfold resetOverHour
    split_ifs
    · exact pauses_resetHourlyCounter u
    · exact .refl u
  exact (hrelease.trans hread).trans ((hminute _ _).trans (hhour _ _))

/-! ### How long a call sleeps -/

/-- The longest sleep of a call: the hour if that is full, or else the minute if that is full, and
the interval as it is converted. -/
def waitBound (limiter : RateLimiter) : ℤ :=
  (if limiter.hourlyRequests ≥ limiter.maxPerHour then hour
    else if limiter.minuteRequests ≥ limiter.maxPerMinute then minute else 0) +
    intervalWait limiter.minInterval

theorem waitBound_nonneg (limiter : RateLimiter) : 0 ≤ limiter.waitBound := by
  have hhour : 0 ≤ hour := by decide
  have hminute : 0 ≤ minute := by decide
  have hinterval := intervalWait_nonneg limiter.minInterval
  unfold waitBound
  split_ifs <;> omega

/-- The limits of `t` are those of `s`. -/
structure SameLimits (s t : RateLimiter × Clock) : Prop where
  perMinute : t.1.maxPerMinute = s.1.maxPerMinute
  perHour : t.1.maxPerHour = s.1.maxPerHour

theorem SameLimits.trans {s t u : RateLimiter × Clock} (h : SameLimits s t)
    (h' : SameLimits t u) : SameLimits s u :=
  ⟨h'.perMinute.trans h.perMinute, h'.perHour.trans h.perHour⟩

theorem sameLimits_waitForHour (now : ℤ) (s : RateLimiter × Clock) :
    SameLimits s (waitForHour now s) := by
  unfold waitForHour
  dsimp only
  split_ifs <;> exact ⟨rfl, rfl⟩

theorem sameLimits_waitForMinute (now : ℤ) (s : RateLimiter × Clock) :
    SameLimits s (waitForMinute now s) := by
  unfold waitForMinute
  dsimp only
  split_ifs <;> exact ⟨rfl, rfl⟩

theorem sameLimits_waitForInterval (now : ℤ) (s : RateLimiter × Clock) :
    SameLimits s (waitForInterval now s) := by
  constructor <;> rw [waitForInterval_fst]

theorem sameLimits_countRequest (s : RateLimiter × Clock) : SameLimits s (countRequest s) := by
  have hminute : ∀ now u, SameLimits u (resetOverMinute now u) := by
    intro now u
    unfold resetOverMinute
    split_ifs <;> exact ⟨rfl, rfl⟩
  have hhour : ∀ now u, SameLimits u (resetOverHour now u) := by
    intro now u
    unfold resetOverHour
    split_ifs <;> exact ⟨rfl, rfl⟩
  have hrelease : SameLimits s ((release s).1, (release s).2.read.2) := ⟨rfl, rfl⟩
  exact (hrelease.trans (hminute _ _)).trans (hhour _ _)

/-- **One call** sleeps for no longer than the bound. -/
theorem pauses_waitIfNeeded (hs : Sane s) (hpos : 1 ≤ s.1.maxPerMinute) :
    ∃ d, Pauses d s.1.waitBound s (waitIfNeeded s) := by
  unfold waitIfNeeded
  split_ifs
  · dsimp only
    have hnow := s.2.time_le_read
    have hread : Pauses 0 0 s (s.1, s.2.read.2) := ⟨.read s.2, le_rfl, le_rfl⟩
    have hcases := waitForHour_cases (s := (s.1, s.2.read.2)) (hs.hour.trans hnow)
    have hwaited := waited_waitForHour s.2.read.1 (s.1, s.2.read.2)
    have hmax := (sameLimits_waitForHour s.2.read.1 (s.1, s.2.read.2)).perMinute
    generalize waitForHour s.2.read.1 (s.1, s.2.read.2) = t at *
    obtain ⟨d, hd⟩ : ∃ d, Pauses d (if s.1.hourlyRequests ≥ s.1.maxPerHour then hour
        else if s.1.minuteRequests ≥ s.1.maxPerMinute then minute else 0) (s.1, s.2.read.2)
        (waitForMinute s.2.read.1 t) := by
      rcases hcases with ⟨⟨d, hd⟩, hfull, hzero, -⟩ | ⟨rfl, -⟩
      · -- the minute is empty after the wait for the hour
        have hroom : ¬ t.1.minuteRequests ≥ t.1.maxPerMinute := by
          rw [hzero, hmax]
          exact not_le.2 (zero_lt_one.trans_le hpos)
        obtain ⟨d', hd'⟩ : ∃ d', Pauses d' _ t (waitForMinute s.2.read.1 t) :=
          pauses_waitForMinute fun h => absurd h hroom
        rw [if_neg hroom] at hd'
        rw [if_pos hfull]
        exact ⟨_, (hd.trans hd').mono (add_zero _).le⟩
      · obtain ⟨d, hd⟩ : ∃ d, Pauses d _ (s.1, s.2.read.2)
            (waitForMinute s.2.read.1 (s.1, s.2.read.2)) :=
          pauses_waitForMinute fun _ => hs.minute.trans hnow
        have hlonger : minute ≤ hour := by decide
        have hpositive : 0 ≤ minute := by decide
        refine ⟨d, hd.mono ?_⟩
        dsimp only
        split_ifs <;> omega
    have hwaited' := hwaited.trans (waited_waitForMinute s.2.read.1 t)
    obtain ⟨di, hinterval⟩ := pauses_waitForInterval (s := waitForMinute s.2.read.1 t)
      (hwaited'.last.trans_le (hs.request.trans hnow))
    rw [hwaited'.interval] at hinterval
    refine ⟨_, ((hread.trans hd).trans (hinterval.trans (pauses_countRequest _))).mono ?_⟩
    rw [zero_add, add_zero]
    exact le_rfl
  · exact ⟨0, (Pauses.refl s).mono (waitBound_nonneg s.1)⟩

/-! ### Runs -/

theorem Sane.resetOverMinute (h : Sane s) (now : ℤ) : Sane (resetOverMinute now s) := by
  unfold RateLimiter.resetOverMinute
  split_ifs
  · exact h.resetMinuteCounter
  · exact h

theorem Sane.resetOverHour (h : Sane s) (now : ℤ) : Sane (resetOverHour now s) := by
  unfold RateLimiter.resetOverHour
  split_ifs
  · exact h.resetHourlyCounter
  · exact h

theorem Sane.waitForHour (h : Sane s) (now : ℤ) : Sane (waitForHour now s) := by
  unfold RateLimiter.waitForHour
  dsimp only
  split_ifs
  · exact (h.sleepFor _).resetCounters
  · exact h
  · exact h

theorem Sane.waitForMinute (h : Sane s) (now : ℤ) : Sane (waitForMinute now s) := by
  unfold RateLimiter.waitForMinute
  dsimp only
  split_ifs
  · exact (h.sleepFor _).resetMinuteCounter
  · exact h
  · exact h

theorem Sane.waitForInterval (h : Sane s) (now : ℤ) : Sane (waitForInterval now s) := by
  unfold RateLimiter.waitForInterval
  dsimp only
  split_ifs
  · exact h.sleepFor _
  · exact h
  · exact h

theorem Sane.countRequest (h : Sane s) : Sane (countRequest s) :=
  ((h.release.later (RateLimiter.release s).2.time_le_read).resetOverMinute _).resetOverHour _

theorem Sane.waitIfNeeded (h : Sane s) : Sane (waitIfNeeded s) := by
  unfold RateLimiter.waitIfNeeded
  split_ifs
  · exact (((h.later s.2.time_le_read).waitForHour _).waitForMinute _).waitForInterval _
      |>.countRequest
  · exact h

theorem Sane.apply (h : Sane s) (e : Control) : Sane (e.apply s) := by
  cases e with
  | call event =>
    cases event with
    | waitIfNeeded => exact h.waitIfNeeded
    | setLimits perMinute perHour millisecondsInterval => exact ⟨h.request, h.minute, h.hour⟩
  | setEnabled enabled => exact ⟨h.request, h.minute, h.hour⟩

/-- The limits that are set allow one request a minute and an hour at least. -/
def Control.Positive : Control → Prop
  | .call (.setLimits perMinute perHour _) => 1 ≤ perMinute ∧ 1 ≤ perHour
  | _ => True

/-- The limits are positive. -/
structure Positive (s : RateLimiter × Clock) : Prop where
  perMinute : 1 ≤ s.1.maxPerMinute
  perHour : 1 ≤ s.1.maxPerHour

theorem Positive.congr {t : RateLimiter × Clock} (h : Positive s) (hst : SameLimits s t) :
    Positive t :=
  ⟨h.perMinute.trans_eq hst.perMinute.symm, h.perHour.trans_eq hst.perHour.symm⟩

theorem sameLimits_waitIfNeeded (s : RateLimiter × Clock) : SameLimits s (waitIfNeeded s) := by
  unfold waitIfNeeded
  split_ifs
  · have hread : SameLimits s (s.1, s.2.read.2) := ⟨rfl, rfl⟩
    exact (((hread.trans (sameLimits_waitForHour _ _)).trans (sameLimits_waitForMinute _ _)).trans
      (sameLimits_waitForInterval _ _)).trans (sameLimits_countRequest _)
  · exact ⟨rfl, rfl⟩

theorem Positive.apply (h : Positive s) {e : Control} (he : e.Positive) : Positive (e.apply s) := by
  cases e with
  | call event =>
    cases event with
    | waitIfNeeded => exact h.congr (sameLimits_waitIfNeeded s)
    | setLimits perMinute perHour millisecondsInterval => exact ⟨he.1, he.2⟩
  | setEnabled enabled => exact ⟨h.perMinute, h.perHour⟩

/-- **No call sleeps for longer than its bound**, whatever has been done to the limiter before: at
most the interval, in signed 64-bit nanoseconds, while its counters are below the limits, a minute
more when the minute is full, and an hour more when the hour is. -/
theorem waits_bounded {maxRequestsPerMinute maxRequestsPerHour : ℤ}
    (hminute : 1 ≤ maxRequestsPerMinute) (hhour : 1 ≤ maxRequestsPerHour) (minRequestInterval : ℤ)
    {c : Clock} (hc : 0 ≤ c.time) {es : List Control} (hes : ∀ e ∈ es, e.Positive) :
    limiterMachine.Along
      (fun s e t => e = .call .waitIfNeeded → ∃ d, Pauses d s.1.waitBound s t)
      (create maxRequestsPerMinute maxRequestsPerHour minRequestInterval c) es := by
  refine Machine.Along.imp (I := fun s => Sane s ∧ Positive s) (fun s e t hs hst he => ?_)
    (fun s e t hs hst _ hwait => ?_) ⟨sane_create _ _ _ hc, hminute, hhour⟩
    (Machine.along_of_forall _ hes)
  · obtain rfl := Option.some.inj hst
    exact ⟨hs.1.apply e, hs.2.apply he⟩
  · subst hwait
    obtain rfl := Option.some.inj hst
    exact pauses_waitIfNeeded hs.1 hs.2.perMinute

/-- `main` sets its own limits, and a request is made without the limiter. -/
def mainControls : List Control :=
  [.setEnabled true, .call (.setLimits 30 500 1000), .call .waitIfNeeded, .call .waitIfNeeded,
    .setEnabled false, .call .waitIfNeeded]

theorem mainControls_positive : ∀ e ∈ mainControls, e.Positive := by
  simp [mainControls, Control.Positive]

theorem waits_bounded_main :
    limiterMachine.Along
      (fun s e t => e = .call .waitIfNeeded → ∃ d, Pauses d s.1.waitBound s t)
      (create 60 1000 500 (Clock.stopped 1)) mainControls :=
  waits_bounded (by decide) (by decide) 500 (by decide) mainControls_positive

/-! ### The counters -/

/-- Neither counter is above its limit. -/
structure WithinLimits (s : RateLimiter × Clock) : Prop where
  minute : s.1.minuteRequests ≤ s.1.maxPerMinute
  hour : s.1.hourlyRequests ≤ s.1.maxPerHour

/-- There is room for a request in the minute, or the minute is over; the same for the hour. -/
structure Ready (now : ℤ) (s : RateLimiter × Clock) : Prop where
  inMinute : s.1.minuteRequests < s.1.maxPerMinute ∨ minute ≤ now - s.1.lastMinuteReset
  inHour : s.1.hourlyRequests < s.1.maxPerHour ∨ hour ≤ now - s.1.lastHourReset

/-- The waits make room. -/
theorem ready_waits (h : Positive s) {now : ℤ} (hpast : s.1.lastHourReset ≤ now) :
    Ready now (waitForInterval now (waitForMinute now (waitForHour now s))) := by
  have hpositive := h.congr (sameLimits_waitForHour now s)
  have hhour : (waitForHour now s).1.hourlyRequests < (waitForHour now s).1.maxPerHour ∨
      hour ≤ now - (waitForHour now s).1.lastHourReset := by
    rcases waitForHour_cases hpast with ⟨-, -, -, hzero⟩ | ⟨hsame, hover⟩
    · have := hpositive.perHour
      omega
    · rw [hsame]
      exact (lt_or_ge _ _).imp id hover
  generalize waitForHour now s = t at *
  unfold waitForMinute
  dsimp only
  split_ifs with hfull hshort
  · constructor
    · rw [waitForInterval_fst]
      exact Or.inl (zero_lt_one.trans_le hpositive.perMinute)
    · rw [waitForInterval_fst]
      exact hhour
  · constructor
    · rw [waitForInterval_fst]
      exact Or.inr (not_lt.1 hshort)
    · rw [waitForInterval_fst]
      exact hhour
  · constructor
    · rw [waitForInterval_fst]
      exact Or.inl (not_le.1 hfull)
    · rw [waitForInterval_fst]
      exact hhour

/-- A request that is counted where there is no room is forgotten at once. -/
theorem Ready.countRequest {now : ℤ} (hs : Ready now s) (hpositive : Positive s)
    (hnow : now ≤ s.2.time) : WithinLimits (countRequest s) := by
  have hlater : now ≤ (release s).2.read.1 :=
    hnow.trans (s.2.time_le_read.trans (release s).2.time_le_read)
  have hroomMinute := hs.inMinute
  have hroomHour := hs.inHour
  have hperMinute := hpositive.perMinute
  have hperHour := hpositive.perHour
  have hminute : (release s).1.lastMinuteReset = s.1.lastMinuteReset := rfl
  have hhour : (release s).1.lastHourReset = s.1.lastHourReset := rfl
  have hcountMinute : (release s).1.minuteRequests = s.1.minuteRequests + 1 := rfl
  have hcountHour : (release s).1.hourlyRequests = s.1.hourlyRequests + 1 := rfl
  have hmaxMinute : (release s).1.maxPerMinute = s.1.maxPerMinute := rfl
  have hmaxHour : (release s).1.maxPerHour = s.1.maxPerHour := rfl
  unfold RateLimiter.countRequest
  dsimp only
  generalize (release s).2.read = r at *
  generalize (release s).1 = u at *
  unfold resetOverMinute
  dsimp only
  split_ifs with hoverMinute
  · unfold resetOverHour resetMinuteCounter
    dsimp only
    split_ifs with hoverHour
    · exact ⟨show 0 ≤ u.maxPerMinute by omega, show 0 ≤ u.maxPerHour by omega⟩
    · exact ⟨show 0 ≤ u.maxPerMinute by omega, show u.hourlyRequests ≤ u.maxPerHour by omega⟩
  · unfold resetOverHour
    dsimp only
    split_ifs with hoverHour
    · exact ⟨show u.minuteRequests ≤ u.maxPerMinute by omega, show 0 ≤ u.maxPerHour by omega⟩
    · exact ⟨show u.minuteRequests ≤ u.maxPerMinute by omega,
        show u.hourlyRequests ≤ u.maxPerHour by omega⟩

/-- **After a call** the counters are within the limits, whatever they were before. -/
theorem withinLimits_waitIfNeeded (hs : Sane s) (hpositive : Positive s)
    (henabled : s.1.enabled = true) : WithinLimits (waitIfNeeded s) := by
  unfold waitIfNeeded
  rw [if_pos henabled]
  dsimp only
  have hread : SameLimits s (s.1, s.2.read.2) := ⟨rfl, rfl⟩
  have hready := ready_waits (hpositive.congr hread) (hs.hour.trans s.2.time_le_read)
  have hwaited := (waited_waitForHour s.2.read.1 (s.1, s.2.read.2)).trans
    (waited_waitForMinute s.2.read.1 _)
  refine hready.countRequest (hpositive.congr (((hread.trans (sameLimits_waitForHour _ _)).trans
    (sameLimits_waitForMinute _ _)).trans (sameLimits_waitForInterval _ _))) ?_
  exact hwaited.time.trans (waited_waitForInterval _ _ hwaited.time).1.time

/-- The new limits are below the counters. -/
def Undercuts (s : RateLimiter × Clock) : Control → Prop
  | .call (.setLimits perMinute perHour _) =>
      perMinute < s.1.minuteRequests ∨ perHour < s.1.hourlyRequests
  | _ => False

/-- **The counters stay within the limits** in a run exactly when `set_limits` never sets a limit
below what has been counted already. -/
theorem always_within_limits_iff {maxRequestsPerMinute maxRequestsPerHour : ℤ}
    (hminute : 1 ≤ maxRequestsPerMinute) (hhour : 1 ≤ maxRequestsPerHour) (minRequestInterval : ℤ)
    {c : Clock} (hc : 0 ≤ c.time) {es : List Control} (hes : ∀ e ∈ es, e.Positive) :
    limiterMachine.Always WithinLimits
        (create maxRequestsPerMinute maxRequestsPerHour minRequestInterval c) es ↔
      limiterMachine.Along (fun s e _ => ¬ Undercuts s e)
        (create maxRequestsPerMinute maxRequestsPerHour minRequestInterval c) es := by
  refine Machine.always_iff_along_of_forall (I := fun s => Sane s ∧ Positive s)
    (fun s e t he hs hst => ?_) (fun s e t _ hs hwithin hst => ?_)
    ⟨sane_create _ _ _ hc, hminute, hhour⟩ ⟨zero_le_one.trans hminute, zero_le_one.trans hhour⟩ hes
  · obtain rfl := Option.some.inj hst
    exact ⟨hs.1.apply e, hs.2.apply he⟩
  · obtain rfl := Option.some.inj hst
    cases e with
    | call event =>
      cases event with
      | waitIfNeeded =>
        refine iff_of_true ?_ id
        by_cases henabled : s.1.enabled = true
        · exact withinLimits_waitIfNeeded hs.1 hs.2 henabled
        · show WithinLimits (waitIfNeeded s)
          unfold waitIfNeeded
          rw [if_neg henabled]
          exact hwithin
      | setLimits perMinute perHour millisecondsInterval =>
        constructor
        · rintro h (hbelow | hbelow)
          · exact absurd h.minute (not_le.2 hbelow)
          · exact absurd h.hour (not_le.2 hbelow)
        · exact fun h => ⟨not_lt.1 fun hbelow => h (Or.inl hbelow),
            not_lt.1 fun hbelow => h (Or.inr hbelow)⟩
    | setEnabled enabled => exact iff_of_true ⟨hwithin.minute, hwithin.hour⟩ id

theorem always_within_limits_iff_main :
    limiterMachine.Always WithinLimits (create 60 1000 500 (Clock.stopped 1)) mainControls ↔
      limiterMachine.Along (fun s e _ => ¬ Undercuts s e) (create 60 1000 500 (Clock.stopped 1))
        mainControls :=
  always_within_limits_iff (by decide) (by decide) 500 (by decide) mainControls_positive

end Kaiten.RateLimiter

import IntentCorrection.Config.Basic
import Mathlib.Algebra.Order.Ring.Int

namespace IntentCorrection

namespace Duration

theorem eq_zero_iff {d : Duration} : d = zero ↔ d.nanoseconds = 0 := by
  cases d
  simp [zero]

theorem microseconds_ofMicroseconds (n : Nat) : (ofMicroseconds n).microseconds = n :=
  Nat.mul_div_cancel n (by decide)

theorem ofMilliseconds_eq (n : Nat) : ofMilliseconds n = ofMicroseconds (1000 * n) := by
  rw [ofMilliseconds, ofMicroseconds, mk.injEq]
  omega

end Duration

namespace BackoffPolicy

open Duration (microseconds_ofMicroseconds ofMilliseconds_eq)

variable {p : BackoffPolicy} {attempt later n j : Nat} {offset offset' : Int} {d : Duration}

/-- Twice as long with every attempt, up to the maximum. -/
def doubledDelay (p : BackoffPolicy) (attempt : Nat) : Duration :=
  ⟨min (p.base.nanoseconds * 2 ^ attempt) p.max.nanoseconds⟩

theorem factor_of_lt (h : attempt < 32) : factor attempt = 2 ^ attempt := if_pos h

theorem factor_of_le (h : 32 ≤ attempt) : factor attempt = 2 ^ 32 - 1 := if_neg (Nat.not_lt.2 h)

theorem factor_mono (h : attempt ≤ later) : factor attempt ≤ factor later := by
  by_cases hlater : later < 32
  · rw [factor_of_lt hlater, factor_of_lt (by omega)]
    exact Nat.pow_le_pow_right (by decide) h
  · have hlast : factor later = 2 ^ 32 - 1 := factor_of_le (by omega)
    by_cases hattempt : attempt < 32
    · have hpow : 2 ^ attempt < 2 ^ 32 := Nat.pow_lt_pow_right (by decide) hattempt
      rw [hlast, factor_of_lt hattempt]
      omega
    · have hfirst : factor attempt = 2 ^ 32 - 1 := factor_of_le (by omega)
      exact Nat.le_of_eq (hfirst.trans hlast.symm)

/-- A product that is cut is still not below the maximum. -/
theorem nominalDelay_eq (hmax : p.max.nanoseconds ≤ Duration.longest.nanoseconds) (attempt : Nat) :
    p.nominalDelay attempt = ⟨min (p.base.nanoseconds * factor attempt) p.max.nanoseconds⟩ := by
  unfold nominalDelay Duration.times
  congr 1
  dsimp only
  omega

theorem nominalDelay_mono (p : BackoffPolicy) (h : attempt ≤ later) :
    (p.nominalDelay attempt).nanoseconds ≤ (p.nominalDelay later).nanoseconds := by
  have hproduct := Nat.mul_le_mul_left p.base.nanoseconds (factor_mono h)
  unfold nominalDelay Duration.times
  dsimp only
  omega

theorem nominalDelay_le_max (p : BackoffPolicy) (attempt : Nat) :
    (p.nominalDelay attempt).nanoseconds ≤ p.max.nanoseconds := Nat.min_le_right _ _

/-- From the thirty-second attempt on the factor falls short of the power, and nothing but a base of zero or the
maximum makes up for it. -/
theorem stalled_iff {base max : Nat} (h : 32 ≤ attempt) :
    min (base * (2 ^ 32 - 1)) max = min (base * 2 ^ attempt) max ↔ base = 0 ∨ max ≤ base * (2 ^ 32 - 1) := by
  have hpow : 2 ^ 32 ≤ 2 ^ attempt := Nat.pow_le_pow_right (by decide) h
  have hproduct := Nat.mul_le_mul_left base hpow
  constructor
  · intro hmin
    omega
  · intro hbase
    rcases hbase with rfl | hmax
    · simp
    · omega

/-- The documented delay is the one computed as long as the factor has room in its word, and also after that if the
maximum is reached by then; otherwise the delays stop growing below it. In any case they never get shorter, and are
never above the maximum. -/
theorem nominalDelay_doubles (p : BackoffPolicy) (hmax : p.max.nanoseconds ≤ Duration.longest.nanoseconds)
    (attempt : Nat) :
    (p.nominalDelay attempt = p.doubledDelay attempt ↔
        attempt < 32 ∨ p.base = .zero ∨ p.max.nanoseconds ≤ p.base.nanoseconds * (2 ^ 32 - 1)) ∧
      (32 ≤ attempt →
        p.nominalDelay attempt = ⟨min (p.base.nanoseconds * (2 ^ 32 - 1)) p.max.nanoseconds⟩) ∧
      (∀ later, attempt ≤ later → (p.nominalDelay attempt).nanoseconds ≤ (p.nominalDelay later).nanoseconds) ∧
      (p.nominalDelay attempt).nanoseconds ≤ p.max.nanoseconds := by
  have heq := nominalDelay_eq hmax attempt
  refine ⟨?_, ?_, fun later ↦ p.nominalDelay_mono, p.nominalDelay_le_max attempt⟩
  · rw [heq, doubledDelay, Duration.mk.injEq, Duration.eq_zero_iff]
    by_cases h : attempt < 32
    · simp [factor_of_lt h, h]
    · rw [factor_of_le (by omega), stalled_iff (by omega)]
      simp [h]
  · intro h
    rw [heq, factor_of_le h]

/-- From one millisecond to two to the power of thirty-two of them: the last doubling comes out a millisecond short, and
no later attempt makes up for it. -/
theorem nominalDelay_doubles_stalled :
    let p : BackoffPolicy := ⟨.ofMilliseconds 1, .ofMilliseconds (2 ^ 32), .zero⟩
    p.max.nanoseconds ≤ Duration.longest.nanoseconds ∧ p.nominalDelay 31 = p.doubledDelay 31 ∧
      p.nominalDelay 32 ≠ p.doubledDelay 32 ∧ p.doubledDelay 32 = .ofMilliseconds (2 ^ 32) ∧
      p.nominalDelay 4294967295 = .ofMilliseconds (2 ^ 32 - 1) := by
  intro p
  have hmax : p.max.nanoseconds ≤ Duration.longest.nanoseconds := by decide
  have hdoubles := nominalDelay_doubles p hmax
  refine ⟨hmax, ?_, ?_, by decide +kernel, ?_⟩
  · exact (hdoubles 31).1.2 (.inl (by decide))
  · rw [ne_eq, (hdoubles 32).1]
    decide
  · rw [(hdoubles 4294967295).2.1 (by decide)]
    decide +kernel

def Within (p : BackoffPolicy) (attempt : Nat) (d : Duration) : Prop :=
  (p.nominalDelay attempt).nanoseconds - p.jitter.nanoseconds ≤ d.nanoseconds ∧
    d.nanoseconds ≤ (p.nominalDelay attempt).nanoseconds + p.jitter.nanoseconds

/-- There is a delay to be had, and whatever is drawn, it is within the jitter. -/
structure Jittered (p : BackoffPolicy) (attempt : Nat) : Prop where
  drawable : ∃ offset, (p.delay? attempt offset).isSome = true
  within : ∀ offset d, p.delay? attempt offset = some d → p.Within attempt d

theorem delayWith_of_steady (h : p.jitter = .zero) : p.delayWith attempt offset = p.nominalDelay attempt := if_pos h

theorem delayWith_eq (h : p.jitter ≠ .zero) : p.delayWith attempt offset =
    .ofMicroseconds (saturate (word64 (p.nominalDelay attempt).microseconds + offset)).toNat := if_neg h

theorem delay?_of_steady (h : p.jitter = .zero) : p.delay? attempt offset = some (p.nominalDelay attempt) := by
  rw [delay?, if_pos (.inl h), delayWith_of_steady h]

theorem delay?_eq_some (h : p.jitter ≠ .zero) :
    p.delay? attempt offset = some d ↔ p.MayDraw offset ∧ p.delayWith attempt offset = d := by
  simp [delay?, h]

theorem delay?_of_mayDraw (h : p.jitter ≠ .zero) (hdraw : p.MayDraw offset) :
    p.delay? attempt offset = some (p.delayWith attempt offset) :=
  (delay?_eq_some h).2 ⟨hdraw, rfl⟩

/-- Unless the jitter has gone around to a negative number, the offsets at the ends and none at all can be drawn. -/
theorem mayDraw_of_bound (h : 0 ≤ p.bound) : p.MayDraw (-p.bound) ∧ p.MayDraw 0 ∧ p.MayDraw p.bound := by
  unfold MayDraw
  omega

theorem drawable_iff : p.Drawable ↔ ∃ offset d, p.delay? attempt offset = some d := by
  constructor
  · intro hdraw
    by_cases hsteady : p.jitter = .zero
    · exact ⟨0, _, delay?_of_steady hsteady⟩
    · have hbound := hdraw.resolve_left hsteady
      exact ⟨0, _, delay?_of_mayDraw hsteady (mayDraw_of_bound hbound).2.1⟩
  · rintro ⟨offset, d, hd⟩
    by_cases hsteady : p.jitter = .zero
    · exact .inl hsteady
    · obtain ⟨⟨hlow, hhigh⟩, -⟩ := (delay?_eq_some hsteady).1 hd
      exact .inr (by omega)

theorem toNat_saturate (a : Int) : (saturate a).toNat = min a.toNat (2 ^ 63 - 1) := by
  unfold saturate Word.signedEnd64
  split
  · omega
  · split <;> omega

theorem delayWith_mono (hne : p.jitter ≠ .zero) (h : offset ≤ offset') :
    (p.delayWith attempt offset).nanoseconds ≤ (p.delayWith attempt offset').nanoseconds := by
  rw [delayWith_eq hne, delayWith_eq hne]
  unfold Duration.ofMicroseconds
  dsimp only
  rw [toNat_saturate, toNat_saturate]
  omega

theorem steady_jittered (h : p.jitter = .zero) : p.Jittered attempt := by
  refine ⟨⟨0, by rw [delay?_of_steady h]; rfl⟩, ?_⟩
  intro offset d hd
  rw [delay?_of_steady h] at hd
  cases hd
  unfold Within
  omega

/-- Nothing can be drawn if the jitter has gone around to a negative number. Else it is enough to look at the offsets
at the two ends. -/
theorem jittered_iff_ends (h : p.jitter ≠ .zero) : p.Jittered attempt ↔
    0 ≤ p.bound ∧ p.Within attempt (p.delayWith attempt (-p.bound)) ∧ p.Within attempt (p.delayWith attempt p.bound) := by
  constructor
  · intro ⟨⟨offset, hdraw⟩, hwithin⟩
    obtain ⟨d, hd⟩ := Option.isSome_iff_exists.1 hdraw
    obtain ⟨⟨hlow, hhigh⟩, -⟩ := (delay?_eq_some h).1 hd
    have hbound : 0 ≤ p.bound := by omega
    obtain ⟨hfirst, -, hlast⟩ := mayDraw_of_bound hbound
    exact ⟨hbound, hwithin _ _ (delay?_of_mayDraw h hfirst), hwithin _ _ (delay?_of_mayDraw h hlast)⟩
  · intro ⟨hbound, hfirst, hlast⟩
    obtain ⟨-, hzero, -⟩ := mayDraw_of_bound hbound
    refine ⟨⟨0, by rw [delay?_of_mayDraw h hzero]; rfl⟩, ?_⟩
    intro offset d hd
    obtain ⟨⟨hlow, hhigh⟩, rfl⟩ := (delay?_eq_some h).1 hd
    exact ⟨Nat.le_trans hfirst.1 (delayWith_mono h hlow), Nat.le_trans (delayWith_mono h hhigh) hlast.2⟩

theorem jittered_iff : p.Jittered attempt ↔
    p.jitter = .zero ∨ 0 ≤ p.bound ∧ p.staysWithinJitter attempt = true := by
  by_cases h : p.jitter = .zero
  · simp [h, steady_jittered h]
  · rw [jittered_iff_ends h, or_iff_right h]
    apply and_congr_right
    intro hbound
    obtain ⟨hfirst, -, hlast⟩ := mayDraw_of_bound hbound
    simp [staysWithinJitter, delay?_of_mayDraw h hfirst, delay?_of_mayDraw h hlast, Within]

instance (p : BackoffPolicy) (attempt : Nat) : Decidable (p.Jittered attempt) := decidable_of_iff _ jittered_iff.symm

example : Jittered ⟨.ofMilliseconds 10, .ofMilliseconds 10, .ofMilliseconds 50⟩ 3 := by decide

/-- How often the count has gone around in a signed word of 64 bits. -/
def turns (n : Nat) : Nat := (n + 2 ^ 63) / 2 ^ 64

theorem word64_eq (n : Nat) : word64 n = n - 2 ^ 64 * turns n := by
  unfold word64 turns Word.size64
  rw [Int.bmod_def]
  split <;> omega

theorem turns_eq_zero (h : n < 2 ^ 63) : turns n = 0 := by
  unfold turns
  omega

theorem word64_lt (n : Nat) : -2 ^ 63 ≤ word64 n ∧ word64 n < 2 ^ 63 := by
  rw [word64_eq]
  unfold turns
  omega

theorem within_ofMicroseconds {m : Nat} (hnominal : p.nominalDelay attempt = .ofMicroseconds n)
    (hjitter : p.jitter = .ofMicroseconds j) : p.Within attempt (.ofMicroseconds m) ↔ n - j ≤ m ∧ m ≤ n + j := by
  unfold Within
  rw [hnominal, hjitter]
  unfold Duration.ofMicroseconds
  dsimp only
  omega

/-- With spans of whole microseconds a delay is within the jitter if and only if the jitter has not gone around to a
negative number and the nominal delay has not gone around more often than the jitter. -/
theorem jittered_iff_turns (hnominal : p.nominalDelay attempt = .ofMicroseconds n)
    (hjitter : p.jitter = .ofMicroseconds j) (hj : j ≠ 0) :
    p.Jittered attempt ↔ 0 ≤ word64 j ∧ turns n ≤ turns j := by
  have hne : p.jitter ≠ .zero := by
    rw [hjitter, ne_eq, Duration.eq_zero_iff]
    exact Nat.mul_ne_zero hj (by decide)
  have hbound : p.bound = word64 j := by
    rw [bound, hjitter, microseconds_ofMicroseconds]
  have hshifted : ∀ offset, p.delayWith attempt offset =
      .ofMicroseconds (min (word64 n + offset).toNat (2 ^ 63 - 1)) := by
    intro offset
    rw [delayWith_eq hne, hnominal, microseconds_ofMicroseconds, toNat_saturate]
  rw [jittered_iff_ends hne, hshifted, hshifted, within_ofMicroseconds hnominal hjitter,
    within_ofMicroseconds hnominal hjitter, hbound]
  apply and_congr_right
  intro hpos
  have hnominal := word64_eq n
  have hjitter := word64_eq j
  have hn := word64_lt n
  have hj := word64_lt j
  generalize word64 n = shown at *
  generalize word64 j = bound at *
  constructor
  · intro hwithin
    have hlow := hwithin.1.1
    omega
  · intro hturns
    refine ⟨⟨?_, ?_⟩, ?_, ?_⟩ <;> omega

end BackoffPolicy

open BackoffPolicy Duration

namespace Config

theorem nominalDelay_backoff (c : Config) (hmax : c.backoffMaxMs < Word.size64) (attempt : Nat) :
    c.backoff.nominalDelay attempt = .ofMilliseconds (min (c.backoffBaseMs * factor attempt) c.backoffMaxMs) := by
  have hlongest : c.backoff.max.nanoseconds ≤ Duration.longest.nanoseconds := by
    change c.backoffMaxMs * 1000000 ≤ 18446744073709551616 * 1000000000 - 1
    unfold Word.size64 at hmax
    omega
  rw [nominalDelay_eq hlongest]
  unfold backoff Duration.ofMilliseconds
  dsimp only
  rw [Nat.mul_right_comm c.backoffBaseMs, Duration.mk.injEq]
  omega

/-- With the settings of any configuration, a delay can be drawn and is within the jitter if and only if there is no
jitter, or its count has not gone around to a negative number and that of the nominal delay has not gone around more
often. For spans below `2 ^ 63` microseconds that is always so. -/
theorem backoff_jittered (c : Config) (hmax : c.backoffMaxMs < Word.size64) (attempt : Nat) :
    (c.backoff.Jittered attempt ↔ c.backoffJitterMs = 0 ∨ 0 ≤ c.backoff.bound ∧
        turns (c.backoff.nominalDelay attempt).microseconds ≤ turns c.backoff.jitter.microseconds) ∧
      (c.backoffJitterMs * 1000 < 2 ^ 63 → c.backoffMaxMs * 1000 < 2 ^ 63 → c.backoff.Jittered attempt) := by
  have hnominal := (nominalDelay_backoff c hmax attempt).trans (ofMilliseconds_eq _)
  have hjitter : c.backoff.jitter = .ofMicroseconds (1000 * c.backoffJitterMs) := ofMilliseconds_eq _
  have hbound : c.backoff.bound = word64 (1000 * c.backoffJitterMs) := by
    rw [bound, hjitter, microseconds_ofMicroseconds]
  have hiff : c.backoff.Jittered attempt ↔ c.backoffJitterMs = 0 ∨ 0 ≤ c.backoff.bound ∧
      turns (c.backoff.nominalDelay attempt).microseconds ≤ turns c.backoff.jitter.microseconds := by
    by_cases hzero : c.backoffJitterMs = 0
    · have hsteady : c.backoff.jitter = .zero := by
        rw [hjitter, hzero]
        rfl
      simp [hzero, steady_jittered hsteady]
    · rw [jittered_iff_turns hnominal hjitter (by omega), or_iff_right hzero, hbound, hnominal, hjitter,
        microseconds_ofMicroseconds, microseconds_ofMicroseconds]
  refine ⟨hiff, ?_⟩
  intro hsmall hsmall'
  have hturns : turns (1000 * c.backoffJitterMs) = 0 := turns_eq_zero (by omega)
  rw [hiff, hbound, hnominal, hjitter, microseconds_ofMicroseconds, microseconds_ofMicroseconds, word64_eq, hturns,
    turns_eq_zero (by omega)]
  omega

/-- Spans of three hundred thousand years are accepted. Such a maximum leaves nothing of the delay, and with such a
jitter no delay can be drawn. -/
theorem backoff_jittered_ages :
    let patient : Config :=
      { Config.default with backoffBaseMs := 9223372036854776, backoffMaxMs := 9223372036854776 }
    let erratic : Config := { Config.default with backoffJitterMs := 9223372036854776 }
    patient.validate = .ok () ∧ patient.backoffMaxMs < Word.size64 ∧ ¬patient.backoff.Jittered 0 ∧
      erratic.validate = .ok () ∧ erratic.backoffMaxMs < Word.size64 ∧ ¬erratic.backoff.Jittered 0 ∧
      Config.default.backoff.Jittered 4294967295 := by
  intro patient erratic
  have hpatient : patient.backoffMaxMs < Word.size64 := by decide
  have herratic : erratic.backoffMaxMs < Word.size64 := by decide
  refine ⟨rfl, hpatient, ?_, rfl, herratic, ?_, ?_⟩
  · rw [(backoff_jittered patient hpatient 0).1]
    decide
  · rw [(backoff_jittered erratic herratic 0).1]
    decide
  · exact (backoff_jittered Config.default (by decide) 4294967295).2 (by decide) (by decide)

end Config

end IntentCorrection

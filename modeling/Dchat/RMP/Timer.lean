import Dchat.RMP.Protocol
import Mathlib.Tactic.Common

/-!
# The timer comparison

A `struct timeval` stands for a number of microseconds, `Timeval.micros`. The macros `timersub` and
`timercmp` subtract and compare these numbers, the latter on normalised values, and `timersub` keeps
values normalised whichever of the two times is the later one.

* `micros_timersub`, `normal_timersub` and `timercmpGt_iff`: the two macros on the number line.
* `intervalGreaterThanValue_iff`: the comparison is exact.
-/

namespace Dchat.RMP

/-- What `gettimeofday` gives: less than a second of microseconds. -/
def Timeval.Normal (t : Timeval) : Prop := 0 ≤ t.tvUsec ∧ t.tvUsec < 1000000

/-- A time in microseconds. -/
def Timeval.micros (t : Timeval) : ℤ := 1000000 * t.tvSec + t.tvUsec

/-- `timersub` subtracts, with or without a borrow. -/
theorem micros_timersub (a b : Timeval) : (timersub a b).micros = a.micros - b.micros := by
  unfold timersub Timeval.micros
  dsimp only
  split
  · dsimp only
    omega
  · dsimp only
    omega

/-- One borrow is enough. -/
theorem normal_timersub {a b : Timeval} (ha : a.Normal) (hb : b.Normal) :
    (timersub a b).Normal := by
  obtain ⟨ha₀, ha₁⟩ := ha
  obtain ⟨hb₀, hb₁⟩ := hb
  unfold timersub Timeval.Normal
  dsimp only
  split
  · dsimp only
    omega
  · dsimp only
    omega

/-- The lexicographic comparison of normalised values is that of the microseconds. -/
theorem timercmpGt_iff {a b : Timeval} (ha : a.Normal) (hb : b.Normal) :
    timercmpGt a b = true ↔ b.micros < a.micros := by
  obtain ⟨ha₀, ha₁⟩ := ha
  obtain ⟨hb₀, hb₁⟩ := hb
  unfold timercmpGt Timeval.micros
  split
  · next hsec =>
    rw [decide_eq_true_iff, hsec]
    omega
  · next hsec =>
    rw [decide_eq_true_iff]
    omega

/-- An interval between two clock readings is compared in microseconds. -/
theorem timercmpGt_timersub {first second value : Timeval} (hfirst : first.Normal)
    (hsecond : second.Normal) (hvalue : value.Normal) :
    timercmpGt (timersub second first) value = true ↔
      value.micros < second.micros - first.micros := by
  rw [timercmpGt_iff (normal_timersub hsecond hfirst) hvalue, micros_timersub]

/-- A time of less than a second. -/
theorem micros_mk_zero (usec : ℤ) : Timeval.micros ⟨0, usec⟩ = usec := by
  unfold Timeval.micros
  dsimp only
  omega

/-- **The timer comparison is exact**: whichever of the two times is the later one, the difference
in microseconds is compared. -/
theorem intervalGreaterThanValue_iff {first second : Timeval} (hfirst : first.Normal)
    (hsecond : second.Normal) {comparison : ℤ} (h₀ : 0 ≤ comparison)
    (h₁ : comparison < 1000000) :
    intervalGreaterThanValue first second comparison = true ↔
      comparison < second.micros - first.micros := by
  rw [intervalGreaterThanValue, timercmpGt_timersub hfirst hsecond ⟨h₀, h₁⟩, micros_mk_zero]

/-- From one second to the next, one microsecond behind the timeout. -/
theorem intervalGreaterThanValue_iff_nextSecond :
    intervalGreaterThanValue ⟨5, 999999⟩ ⟨6, 20000⟩ ackTimeoutUsec = true ↔
      ackTimeoutUsec < Timeval.micros ⟨6, 20000⟩ - Timeval.micros ⟨5, 999999⟩ :=
  intervalGreaterThanValue_iff (by unfold Timeval.Normal; decide)
    (by unfold Timeval.Normal; decide) (by decide) (by decide)

end Dchat.RMP

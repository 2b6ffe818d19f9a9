import LlingrKafka.Foundations.FixedWidth

/-!
# Go times

A `time.Time` as the bridge uses it: an instant, given by its Unix seconds and its
nanoseconds within the second.  Go's zero Time is midnight of January 1 of year 1,
which is not the Unix epoch, and `UnixNano` is defined for it only up to the
wrap-around of an int64.
-/

namespace LlingrKafka.Metrics

open FixedWidth

/-- `time.Time`. -/
structure GoTime where
  sec : ℤ
  nsec : ℕ
  nsec_lt : nsec < 1000000000
  deriving DecidableEq, Repr

namespace GoTime

/-- The zero Time. -/
def zero : GoTime := ⟨-62135596800, 0, by decide⟩

/-- `Time.IsZero`. -/
def isZero (t : GoTime) : Bool := t.sec == -62135596800 && t.nsec == 0

/-- The nanoseconds since the Unix epoch, exactly. -/
def nanos (t : GoTime) : ℤ := t.sec * 1000000000 + t.nsec

/-- `Time.UnixNano`. -/
def unixNano (t : GoTime) : ℤ := wrap 64 t.nanos

theorem isZero_iff (t : GoTime) : t.isZero = true ↔ t = zero := by
  obtain ⟨sec, nsec, hnsec⟩ := t
  simp [isZero, zero]

/-- The zero Time is far out of the range of `UnixNano`, and wraps to a value that
is not 0. -/
theorem unixNano_zero : zero.unixNano = -6795364578871345152 := by decide

theorem unixNano_of_fits {t : GoTime} (h : Fits 64 t.nanos) : t.unixNano = t.nanos :=
  wrap_of_fits h

theorem fits_unixNano (t : GoTime) : Fits 64 t.unixNano := fits_wrap (by decide) _

/-- `Time.UnixMilli`. -/
def unixMilli (t : GoTime) : ℤ := wrap 64 (t.sec * 1000 + (t.nsec / 1000000 : ℕ))

/-- `time.UnixMilli`: the instant some milliseconds after the Unix epoch. -/
def ofUnixMilli (millis : ℤ) : GoTime where
  sec := millis / 1000
  nsec := (millis % 1000).toNat * 1000000
  nsec_lt := by omega

theorem unixMilli_ofUnixMilli {millis : ℤ} (h : Fits 64 millis) :
    (ofUnixMilli millis).unixMilli = millis := by
  have hexact : millis / 1000 * 1000 + ((millis % 1000).toNat * 1000000 / 1000000 : ℕ) =
      millis := by omega
  rw [unixMilli, ofUnixMilli, hexact, wrap_of_fits h]

/-- `Time.Before`. -/
def before (t u : GoTime) : Bool := t.nanos < u.nanos

/-- `Time.Add`. -/
def add (t : GoTime) (d : ℤ) : GoTime where
  sec := t.sec + (t.nsec + d) / 1000000000
  nsec := ((t.nsec + d) % 1000000000).toNat
  nsec_lt := by omega

theorem nanos_add (t : GoTime) (d : ℤ) : (t.add d).nanos = t.nanos + d := by
  unfold nanos add
  simp only
  omega

theorem before_iff (t u : GoTime) : t.before u = true ↔ t.nanos < u.nanos := by
  simp [before]

end GoTime

end LlingrKafka.Metrics

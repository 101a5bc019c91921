import ErrorIntake.Calendar.Instant

/-!
# Clock readings

Whoever acts at a time is given that time.  A reading has two hands: universal time, which is what
is recorded, and a steady count of nanoseconds, which never goes back and decides when a claimed
message is visible again.  The steady hand counts its seconds in 64 bits, so there are times that
it cannot show.
-/

namespace ErrorIntake.Calendar

/-- The last nanosecond of a clock that counts its seconds in 64 bits with a sign. -/
def lastMoment : Nat := 9223372036854775808 * nanosPerSecond - 1

/-- The two hands of the clock at one moment. -/
structure Reading where
  wall : Instant
  /-- Nanoseconds since the clock was started. -/
  steady : Nat
  steady_le : steady ≤ lastMoment
  deriving DecidableEq, Repr

namespace Reading

/-- A reading at the epoch, so many nanoseconds after the clock was started; the last one if the
    clock cannot show so many. -/
def atEpoch (nanos : Nat) : Reading := ⟨.epoch, Nat.min nanos lastMoment, Nat.min_le_right ..⟩

@[simp] theorem atEpoch_wall (nanos : Nat) : (atEpoch nanos).wall = .epoch := rfl

instance : Inhabited Reading := ⟨atEpoch 0⟩

/-- The clock can show the time so many nanoseconds later. -/
def Reaches (r : Reading) (nanos : Nat) : Prop := r.steady + nanos ≤ lastMoment

instance (r : Reading) (nanos : Nat) : Decidable (r.Reaches nanos) :=
  inferInstanceAs (Decidable (_ ≤ _))

/-- The clock shows the present. -/
theorem reaches_zero (r : Reading) : r.Reaches 0 := r.steady_le

end Reading

end ErrorIntake.Calendar

/-! # Durations and deadlines

Durations count nanoseconds, and so do instants, from the start of a clock. Timers are coarser: they
act at whole milliseconds. Once a timer has acted its instant is past (`Timer.le_wake`), and an
instant can be past for less than a millisecond before its timer acts (`Timer.wake_lt`).
-/

namespace ReplicaRouter

structure Duration where
  nanos : Nat
deriving Repr, DecidableEq

namespace Duration

def perSecond : Nat := 1000000000

def perMilli : Nat := 1000000

def of (seconds nanos : Nat) : Duration := ⟨seconds * perSecond + nanos⟩

def ofMillis (n : Nat) : Duration := ⟨perMilli * n⟩

/-- Where a duration is wanted, a number is one of milliseconds. -/
instance : Coe Nat Duration := ⟨ofMillis⟩

instance : Add Duration := ⟨fun d d' => ⟨d.nanos + d'.nanos⟩⟩

@[simp] theorem nanos_add (d d' : Duration) : (d + d').nanos = d.nanos + d'.nanos := rfl

def seconds (d : Duration) : Nat := d.nanos / perSecond

/-- The nanoseconds after the whole seconds. -/
def fraction (d : Duration) : Nat := d.nanos % perSecond

end Duration

namespace Timer

/-- When a timer acts that is set for an instant: at the first whole millisecond that is not
before it. -/
def wake (instant : Nat) : Nat :=
  Duration.perMilli * ((Duration.perMilli - 1 + instant) / Duration.perMilli)

theorem le_wake (t : Nat) : t ≤ wake t := by
  simp only [wake, Duration.perMilli]
  omega

theorem wake_lt (t : Nat) : wake t < t + Duration.perMilli := by
  simp only [wake, Duration.perMilli]
  omega

theorem wake_mono {t t' : Nat} (h : t ≤ t') : wake t ≤ wake t' := by
  simp only [wake, Duration.perMilli]
  omega

/-- Whole milliseconds put the timer off by just as much. -/
theorem wake_add_millis (t n : Nat) :
    wake (t + Duration.perMilli * n) = wake t + Duration.perMilli * n := by
  simp only [wake, Duration.perMilli]
  omega

/-- At a whole millisecond there is nothing to wait for. -/
theorem wake_eq {t n : Nat} (h : t = Duration.perMilli * n) : wake t = t := by
  simp only [wake, Duration.perMilli] at h ⊢
  omega

end Timer

/-- An instant by which something must be finished. -/
structure Deadline where
  nanos : Nat
deriving Repr, DecidableEq

namespace Deadline

/-- The deadline a duration after the clock's reading. -/
def after (now : Nat) (d : Duration) : Deadline := ⟨now + d.nanos⟩

/-- Whether the clock has reached the deadline. -/
def passed (d : Deadline) (now : Nat) : Bool := d.nanos ≤ now

/-- When the timer of the deadline acts. -/
def wake (d : Deadline) : Nat := Timer.wake d.nanos

/-- A deadline that has passed stays so. -/
theorem passed_mono {d : Deadline} {now now' : Nat} (h : now ≤ now') (hd : d.passed now = true) :
    d.passed now' = true :=
  decide_eq_true (Nat.le_trans (of_decide_eq_true hd) h)

/-- The timer of a deadline does not act before it has passed. -/
theorem passed_of_wake_le {d : Deadline} {now : Nat} (h : d.wake ≤ now) : d.passed now = true :=
  decide_eq_true (Nat.le_trans (Timer.le_wake d.nanos) h)

/-- The nanoseconds to go, negative once the deadline is behind. -/
def left (d : Deadline) (now : Nat) : Int := (d.nanos : Int) - now

end Deadline

end ReplicaRouter

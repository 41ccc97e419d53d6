import RecordFilter.Text.Digit

/-!
# Times of day

Hours, minutes, seconds and nanoseconds of a day of 24 hours. No second is a leap second.
-/

namespace RecordFilter.Calendar

open RecordFilter.Text

def nanosPerSecond : Nat := 1000000000

def nanosPerDay : Nat := 86400 * nanosPerSecond

def ValidTime (hour minute second nanosecond : Nat) : Prop :=
  hour < 24 ∧ minute < 60 ∧ second < 60 ∧ nanosecond < nanosPerSecond

instance (hour minute second nanosecond : Nat) :
    Decidable (ValidTime hour minute second nanosecond) :=
  inferInstanceAs (Decidable (_ ∧ _))

structure TimeOfDay where
  hour : Nat
  minute : Nat
  second : Nat
  nanosecond : Nat
  valid : ValidTime hour minute second nanosecond
  deriving DecidableEq, Repr

namespace TimeOfDay

def of? (hour minute second nanosecond : Nat) : Option TimeOfDay :=
  if h : ValidTime hour minute second nanosecond then some ⟨hour, minute, second, nanosecond, h⟩
  else none

/-- 00:00. -/
def midnight : TimeOfDay := ⟨0, 0, 0, 0, by decide⟩

/-- 23:59:59.999999999, the last moment of a day. -/
def lastMoment : TimeOfDay := ⟨23, 59, 59, 999999999, by decide⟩

/-- The time that has passed since midnight. -/
def nanos (t : TimeOfDay) : Nat :=
  ((t.hour * 60 + t.minute) * 60 + t.second) * nanosPerSecond + t.nanosecond

theorem nanos_lt (t : TimeOfDay) : t.nanos < nanosPerDay := by
  obtain ⟨hour, minute, second, nanosecond, h1, h2, h3, h4⟩ := t
  have hn : nanosPerSecond = 1000000000 := rfl
  simp only [nanos, nanosPerDay, hn]
  omega

theorem nanos_inj {a b : TimeOfDay} (h : a.nanos = b.nanos) : a = b := by
  obtain ⟨h1, m1, s1, n1, v1, v2, v3, v4⟩ := a
  obtain ⟨h2, m2, s2, n2, w1, w2, w3, w4⟩ := b
  have hn : nanosPerSecond = 1000000000 := rfl
  simp only [nanos, hn] at h
  obtain rfl : n1 = n2 := by omega
  obtain rfl : s1 = s2 := by omega
  obtain rfl : m1 = m2 := by omega
  obtain rfl : h1 = h2 := by omega
  rfl

/-- The time of a moment counted from midnight, days left out. -/
def ofNanos (n : Nat) : TimeOfDay :=
  let seconds := n / nanosPerSecond
  ⟨seconds / 3600 % 24, seconds / 60 % 60, seconds % 60, n % nanosPerSecond,
    Nat.mod_lt _ (by decide), Nat.mod_lt _ (by decide), Nat.mod_lt _ (by decide),
    Nat.mod_lt _ (by decide)⟩

def compare (a b : TimeOfDay) : Ordering := Ord.compare a.nanos b.nanos

/-- Seconds are always written, and nine places of a second when they are not all zero. -/
def text (t : TimeOfDay) : List Char :=
  padded 2 t.hour ++ ':' :: padded 2 t.minute ++ ':' :: padded 2 t.second ++
    if t.nanosecond = 0 then [] else '.' :: padded 9 t.nanosecond

end TimeOfDay

end RecordFilter.Calendar

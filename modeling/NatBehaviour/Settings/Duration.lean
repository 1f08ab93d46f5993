/-!
Spans of time in whole seconds and nanoseconds. A product that has more than 2⁶⁴ - 1 whole seconds
does not exist.
-/

namespace NatBehaviour.Settings

def nanosPerSecond : Nat := 1000000000

def nanosPerMilli : Nat := 1000000

structure Duration where
  seconds : UInt64
  nanos : UInt32
  nanos_lt : nanos.toNat < nanosPerSecond

namespace Duration

theorem nanos_ofMillis_lt (ms : UInt64) :
    ((ms % 1000).toUInt32 * 1000000).toNat < nanosPerSecond := by
  have h : (ms % 1000).toNat < 1000 := by
    rw [UInt64.toNat_mod]
    exact Nat.mod_lt _ (by decide)
  have h' : (ms % 1000).toUInt32.toNat < 1000 := by
    rw [UInt64.toNat_toUInt32]
    omega
  rw [UInt32.toNat_mul, show (1000000 : UInt32).toNat = 1000000 from rfl, nanosPerSecond]
  exact Nat.lt_of_le_of_lt (Nat.mod_le _ _) (by omega)

def ofMillis (ms : UInt64) : Duration :=
  ⟨ms / 1000, (ms % 1000).toUInt32 * 1000000, nanos_ofMillis_lt ms⟩

/-- The whole milliseconds. -/
def millis (d : Duration) : Nat :=
  d.seconds.toNat * 1000 + d.nanos.toNat / nanosPerMilli

/-- A product of seconds, unless it does not fit into a word. -/
def secondsTimes? (seconds : UInt64) (n : UInt32) : Option UInt64 :=
  if seconds.toNat * n.toNat < UInt64.size then some (seconds * n.toUInt64) else none

def secondsPlus? (a b : UInt64) : Option UInt64 :=
  if a.toNat + b.toNat < UInt64.size then some (a + b) else none

theorem nanos_rest_lt (total : UInt64) : (total % 1000000000).toUInt32.toNat < nanosPerSecond := by
  have h : (total % 1000000000).toNat < 1000000000 := by
    rw [UInt64.toNat_mod]
    exact Nat.mod_lt _ (by decide)
  rw [UInt64.toNat_toUInt32, nanosPerSecond]
  omega

/-- Seconds and nanoseconds are multiplied apart; the nanoseconds carry into the seconds. -/
def times? (d : Duration) (n : UInt32) : Option Duration := do
  let total := d.nanos.toUInt64 * n.toUInt64
  let seconds ← secondsTimes? d.seconds n
  let seconds ← secondsPlus? seconds (total / 1000000000)
  return ⟨seconds, (total % 1000000000).toUInt32, nanos_rest_lt total⟩

end Duration

end NatBehaviour.Settings

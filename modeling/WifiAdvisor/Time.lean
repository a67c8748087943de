/-!
Instants and lengths of time in milliseconds, as 64-bit words. Sums and products that would leave
the range stay at the largest word instead of wrapping round.
-/

namespace WifiAdvisor

/-- Milliseconds since the epoch, or a number of milliseconds. -/
abbrev Millis := UInt64

namespace Millis

/-- The largest word, one less than the 64th power of two. -/
def largest : Nat := 18446744073709551615

def clamp (n : Nat) : Millis := UInt64.ofNat (min n largest)

def after (t d : Millis) : Millis := clamp (t.toNat + d.toNat)

def ofSeconds (s : UInt64) : Millis := clamp (s.toNat * 1000)

theorem toNat_clamp (n : Nat) : (clamp n).toNat = min n largest := by
  simp only [clamp, largest, UInt64.toNat_ofNat']
  omega

theorem toNat_after (t d : Millis) : (after t d).toNat = min (t.toNat + d.toNat) largest :=
  toNat_clamp _

theorem toNat_ofSeconds (s : UInt64) : (ofSeconds s).toNat = min (s.toNat * 1000) largest :=
  toNat_clamp _

end Millis

end WifiAdvisor

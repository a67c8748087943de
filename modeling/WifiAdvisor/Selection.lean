import WifiAdvisor.Blocklist
import WifiAdvisor.Candidate
/-!
Which scanned network to recommend: the first of the strongest ones, or nothing at all when its
name is blocklisted. Runners-up are never considered.
-/

namespace WifiAdvisor.Selection

/-- The first of the strongest among `best` and the candidates after it. -/
def strongerOf (best : Candidate) : List Candidate → Candidate
  | [] => best
  | c :: rest => strongerOf (if best.rssi < c.rssi then c else best) rest

def firstStrongest? : List Candidate → Option Candidate
  | [] => none
  | c :: rest => some (strongerOf c rest)

def recommend? (candidates : List Candidate) (blocklist : Blocklist) : Option Candidate :=
  (firstStrongest? candidates).filter fun c => !blocklist.contains c.ssid

theorem not_mem_of_recommend? {candidates : List Candidate} {blocklist : Blocklist} {c : Candidate}
    (h : recommend? candidates blocklist = some c) : c.ssid ∉ blocklist := by
  obtain ⟨-, hc⟩ := Option.filter_eq_some_iff.1 h
  simpa [Blocklist.contains] using hc

/-- Where the recommended candidate stands: nothing before it is as strong. -/
def recommendIndex? (candidates : List Candidate) (blocklist : Blocklist) : Option Nat :=
  (recommend? candidates blocklist).bind fun best =>
    candidates.findIdx? fun c => c.rssi = best.rssi

end WifiAdvisor.Selection

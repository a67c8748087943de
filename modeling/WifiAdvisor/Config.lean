import WifiAdvisor.Admission
import WifiAdvisor.Identity
import WifiAdvisor.SortedMap
/-!
The configuration of a host: where blocklists are stored, how toggles start out, the timing and the
restrictions all advisors share, and which advisors there are.
-/

namespace WifiAdvisor

structure RestrictionConfig where
  currentUser : UInt32 := 0
  /-- Whether the platform knows the restriction on adding configurations. -/
  supportsAddRestriction : Bool := true
  rules : List Rule := []
  deriving DecidableEq, Inhabited, Repr

def RestrictionConfig.toRestrictions (r : RestrictionConfig) : Restrictions :=
  r.rules.foldl Restrictions.restrict { currentUser := r.currentUser }

theorem RestrictionConfig.binds_toRestrictions {r : RestrictionConfig}
    {restriction : Restriction} :
    r.toRestrictions.binds restriction = true ↔ ⟨r.currentUser, restriction⟩ ∈ r.rules := by
  obtain ⟨huser, hrules⟩ := Restrictions.foldl_restrict { currentUser := r.currentUser } r.rules
  have hm := hrules ⟨r.currentUser, restriction⟩
  simpa [Restrictions.binds, Restrictions.has, toRestrictions, huser] using hm

structure Config where
  storePath : Option String := none
  /-- Initial value of toggles; those not listed are on. -/
  settings : SortedMap String Bool := ∅
  timing : Timing := {}
  restrictions : RestrictionConfig := {}
  advisors : List Identity := [.openNetworks]
  deriving DecidableEq, Inhabited

def Config.settingEnabled (c : Config) (key : String) : Bool := c.settings.findD key true

end WifiAdvisor

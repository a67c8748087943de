import WifiAdvisor.Named
/-!
When an advisor may act: its toggle is on and the platform restricts the current user in no way
that matters. Restrictions are looked up anew each time; only the toggle is remembered.
-/

namespace WifiAdvisor

inductive Restriction where
  /-- The user may not change Wi-Fi configuration at all. -/
  | configWifi
  /-- The user may not add new Wi-Fi configurations. -/
  | addWifiConfig
  deriving DecidableEq, Inhabited, Repr

instance : Named Restriction where
  all := [.configWifi, .addWifiConfig]
  name
    | .configWifi => "disallow_config_wifi"
    | .addWifiConfig => "disallow_add_wifi_config"
  find_name a := by cases a <;> decide

structure Rule where
  user : UInt32
  restriction : Restriction
  deriving DecidableEq, Inhabited, Repr

/-- The user in the foreground, and who is restricted in what. -/
structure Restrictions where
  currentUser : UInt32 := 0
  rules : List Rule := []
  deriving DecidableEq, Inhabited, Repr

namespace Restrictions

def none : Restrictions := {}

def has (r : Restrictions) (user : UInt32) (restriction : Restriction) : Bool :=
  r.rules.contains { user, restriction }

def restrict (r : Restrictions) (rule : Rule) : Restrictions :=
  if r.rules.contains rule then r else { r with rules := r.rules ++ [rule] }

def unrestrict (r : Restrictions) (rule : Rule) : Restrictions :=
  { r with rules := r.rules.filter (· ≠ rule) }

def binds (r : Restrictions) (restriction : Restriction) : Bool := r.has r.currentUser restriction

theorem foldl_restrict (r : Restrictions) (rules : List Rule) :
    (rules.foldl restrict r).currentUser = r.currentUser ∧
      ∀ rule, rule ∈ (rules.foldl restrict r).rules ↔ rule ∈ r.rules ∨ rule ∈ rules := by
  induction rules generalizing r with
  | nil => simp
  | cons first rules ih =>
    obtain ⟨huser, hrules⟩ := ih (r.restrict first)
    have hkept : (r.restrict first).currentUser = r.currentUser := by
      unfold restrict
      split <;> rfl
    refine ⟨huser.trans hkept, fun rule => ?_⟩
    have hfirst : rule ∈ (r.restrict first).rules ↔ rule ∈ r.rules ∨ rule = first := by
      unfold restrict
      split
      · rename_i hf
        have hm : first ∈ r.rules := by simpa using hf
        exact ⟨.inl, fun h => h.elim id fun he => he ▸ hm⟩
      · simp
    rw [List.foldl_cons, hrules, hfirst, List.mem_cons, or_assoc]

end Restrictions

structure Admission where
  settingEnabled : Bool := false
  screenOn : Bool := false
  /-- Whether the platform knows the restriction on adding configurations. -/
  supportsAddRestriction : Bool
  deriving DecidableEq, Inhabited, Repr

namespace Admission

def isEnabled (a : Admission) (r : Restrictions) : Bool :=
  a.settingEnabled && !r.binds .configWifi && !(a.supportsAddRestriction && r.binds .addWifiConfig)

theorem isEnabled_eq_false_iff {a : Admission} {r : Restrictions} :
    a.isEnabled r = false ↔ a.settingEnabled = false ∨ r.binds .configWifi = true ∨
      a.supportsAddRestriction = true ∧ r.binds .addWifiConfig = true := by
  simp only [isEnabled, Bool.and_eq_false_iff, Bool.not_eq_false', Bool.and_eq_true, or_assoc]

/-- The remembered flags in one line, for logs. -/
def describe (a : Admission) : String :=
  "AdmissionPolicy \x7b setting_enabled: " ++ toString a.settingEnabled
    ++ ", screen_on: " ++ toString a.screenOn
    ++ ", supports_add_config_restriction: " ++ toString a.supportsAddRestriction ++ ", .. \x7d"

end Admission

end WifiAdvisor

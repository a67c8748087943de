import WifiAdvisor.Proofs.Attempts
import WifiAdvisor.Proofs.Display
import WifiAdvisor.Proofs.Independence
import WifiAdvisor.Proofs.Ledger

/-!
# Advisors that are not admitted

Only a scan asks whether the advisor is admitted; all other handlers trust the phase. That is
enough, since an advisor that is not admitted is idle, and from idle only a scan leads anywhere.
Behind a dispatcher what an advisor remembers of its toggle is what the shared toggles say.
-/
namespace WifiAdvisor

open Effect

/-- The record shows a notice or has to do with getting a network connected. -/
def Record.isLoud : Record → Bool
  | .notify _ _ | .networkAdded _ _ _ | .connect _ => true
  | _ => false

namespace Advisor

variable {s : Surroundings} {a : Advisor} {e : Event}

/-- Nothing goes up and nothing is connected to. -/
structure Silent (r : Advisor × List Effect) : Prop where
  phase : r.1.phase = .idle
  shown : shows r.2 = []
  given : numbers r.2 = []
  connected : connections r.2 = []

theorem step_silent (hp : a.phase = .idle) (h : a.admission.isEnabled s.restrictions = false)
    (e : Event) : Silent (a.step s e) := by
  have hremoval : a.removal = [] := if_pos (congrArg Phase.status hp)
  obtain ⟨hphase, hshown, hgiven⟩ : (a.step s e).1.phase = .idle ∧ shows (a.step s e).2 = [] ∧
      numbers (a.step s e).2 = [] := by
    cases step_phase s a e with
    | kept _ _ _ hl => exact ⟨hl.phase.trans hp, hl.shown, hl.given⟩
    | cleared _ hl => exact ⟨hl.phase, hl.shown.trans hremoval, hl.given⟩
    | dismissed _ hl => exact ⟨hl.phase, hl.shown.trans hremoval, hl.given⟩
    | recommended _ _ _ hadmitted _ _ _ => cases h.symm.trans hadmitted
    | requested _ _ _ hbusy _ _ => cases hp.symm.trans hbusy
    | unconfigured _ _ hbusy _ _ => cases hp.symm.trans hbusy
    | connected _ _ _ hbusy _ => cases hp.symm.trans hbusy
    | failed _ _ _ hbusy _ => cases hp.symm.trans hbusy
  exact ⟨hphase, hshown, hgiven, (step_connections s a e).trans hgiven⟩

/-- An advisor that stops being admitted goes idle at once. -/
theorem idle_of_refused (h : a.admission.isEnabled s.restrictions = false → a.phase = .idle)
    (hafter : (a.step s e).1.admission.isEnabled s.restrictions = false) :
    (a.step s e).1.phase = .idle := by
  rw [(step_books s a e).admission] at hafter
  -- News of the toggle clears; all else leaves the answer what it was.
  by_cases he : e = .settingChanged
  · subst e
    exact (clear_leaves (a.readSetting s) true).phase
  · have hbefore : a.admission.isEnabled s.restrictions = false := by
      cases e with
      | settingChanged => exact (he rfl).elim
      | _ => exact hafter
    exact (step_silent (h hbefore) hbefore e).phase

theorem step_supports (s : Surroundings) (a : Advisor) (e : Event) :
    (a.step s e).1.admission.supportsAddRestriction = a.admission.supportsAddRestriction := by
  rw [(step_books s a e).admission]
  cases e <;> rfl

theorem step_setting (s : Surroundings) (a : Advisor) (e : Event) :
    (a.step s e).1.admission.settingEnabled =
      if e = .settingChanged then s.setting a.identity.settingsKey
      else a.admission.settingEnabled := by
  rw [(step_books s a e).admission]
  cases e <;> rfl

theorem replay_of_idle {before : Option Notice} (h : a.status = .noNotification → before = none)
    (hafter : (a.step s e).1.status = .noNotification) : replay before (a.step s e).2 = none := by
  cases step_display s a e with
  | kept hs hp =>
    have hstatus : a.status = .noNotification := (congrArg Phase.status hp).symm.trans hafter
    rw [replay, hs]
    exact h hstatus
  | removed hs _ _ =>
    rw [replay, hs]
    rfl
  | posted _ _ _ hbusy => exact (hbusy hafter).elim

theorem Silent.not_isLoud {r : Advisor × List Effect} (h : Silent r) {index : Nat} {tag : String}
    {record : Record} (hr : .emit record ∈ r.2.filterMap (Dispatcher.demand? index tag)) :
    record.isLoud = false := by
  obtain ⟨c, hc, hd⟩ := List.mem_filterMap.mp hr
  cases c with
  | post slot notice =>
    have hm : (slot, some notice) ∈ shows r.2 := List.mem_filterMap.mpr ⟨_, hc, rfl⟩
    rw [h.shown] at hm
    cases hm
  | add config owner answer =>
    cases answer with
    | ok id =>
      have hm : id ∈ numbers r.2 := List.mem_filterMap.mpr ⟨_, hc, rfl⟩
      rw [h.given] at hm
      cases hm
    | error rejection => cases hd
  | connect id =>
    have hm : id ∈ connections r.2 := List.mem_filterMap.mpr ⟨_, hc, rfl⟩
    rw [h.connected] at hm
    cases hm
  | cancel slot =>
    cases hd
    rfl
  | openPicker =>
    cases hd
    rfl
  | arm delay timer => cases hd
  | load key => cases hd
  | save key ssids => cases hd

end Advisor

theorem Soloist.findD_toggled {roster : List Identity} {index : Nat} {a : Advisor} {q : Queued}
    (h : heard roster index a q ≠ some .settingChanged) (settings : SortedMap String Bool) :
    (q.toggled settings).findD a.identity.settingsKey true =
      settings.findD a.identity.settingsKey true := by
  cases q with
  | feed event =>
    cases event with
    | setting key enabled =>
      have hk : a.identity.settingsKey ≠ key := fun hk => h (if_pos hk)
      rw [Queued.toggled, SortedMap.findD, SortedMap.find?_insert_of_ne _ hk]
      rfl
    | _ => rfl
  | _ => rfl

namespace Dispatcher

def demandsOf (d : Dispatcher) (p : Identity × Nat) (e : Entry) : List Demand :=
  (d.callsOf p.2 e).filterMap (demand? p.2 p.1.tag)

/-- The notice of the advisor at `index` that is up after a run. -/
def displayedBy (d : Dispatcher) (index : Nat) : List Entry → Option Notice
  | [] => none
  | e :: past => replay (d.displayedBy index past) ((d.after past).callsOf index e)

variable {d : Dispatcher} {p : Identity × Nat} {a : Advisor} {past : List Entry}

/-- The advisor at place `p.2` knows its toggle, and is idle unless it is admitted. -/
structure Attends (d : Dispatcher) (past : List Entry) (p : Identity × Nat) (supports : Bool)
    (a : Advisor) : Prop where
  placed : (d.after past).advisors[p.2]? = some a
  identity : a.identity = p.1
  supports : a.admission.supportsAddRestriction = supports
  toggle : a.admission.settingEnabled = (d.after past).settings.findD p.1.settingsKey true
  gauge : a.metrics.settingEnabled = a.admission.settingEnabled
  idle : a.admission.isEnabled d.restrictions = false → a.phase = .idle
  hidden : a.status = .noNotification → d.displayedBy p.2 past = none

theorem after_restrictions (d : Dispatcher) (past : List Entry) :
    (d.after past).restrictions = d.restrictions := by
  induction past with
  | nil => rfl
  | cons e past ih => rw [after_cons, dispatch_eq, ih]

theorem after_settings (d : Dispatcher) (e : Entry) (past : List Entry) :
    (d.after (e :: past)).settings = e.queued.toggled (d.after past).settings := by
  rw [after_cons, dispatch_eq]

/-- In its turn an advisor does nothing, or it takes a step in which it sees the restrictions and,
if its toggle was changed, the new value. -/
inductive TurnCase (d : Dispatcher) (e : Entry) (a : Advisor) (r : Advisor × List Effect) :
    Prop where
  | passed : r = (a, []) →
      (e.queued.toggled d.settings).findD a.identity.settingsKey true =
        d.settings.findD a.identity.settingsKey true → TurnCase d e a r
  | stepped (s : Surroundings) (event : Event) : r = a.step s event →
      s.restrictions = d.restrictions →
      (e.queued.toggled d.settings).findD a.identity.settingsKey true =
        (if event = .settingChanged then s.setting a.identity.settingsKey
          else d.settings.findD a.identity.settingsKey true) → TurnCase d e a r

theorem turn_cases {index : Nat} (h : d.advisors[index]? = some a) (e : Entry) :
    ∃ b, (d.dispatch e.now e.queued).2.1.advisors[index]? = some b ∧
      TurnCase d e a (b, d.callsOf index e) := by
  obtain ⟨number, hadvisor, hcalls⟩ := turnOn_eq d e h
  rw [turnOn, chosen_eq_heard rfl] at hadvisor hcalls
  refine ⟨_, hadvisor, ?_⟩
  rw [hcalls]
  have hkept : Soloist.heard (d.advisors.map Advisor.identity) index a e.queued ≠
      some .settingChanged → (e.queued.toggled d.settings).findD a.identity.settingsKey true =
        d.settings.findD a.identity.settingsKey true := fun h => Soloist.findD_toggled h d.settings
  cases hq : Soloist.heard (d.advisors.map Advisor.identity) index a e.queued with
  | none => exact .passed rfl (hkept (by simp [hq]))
  | some event =>
    refine .stepped _ event rfl rfl ?_
    split
    · rfl
    · rename_i he
      exact hkept (by simpa [hq] using he)

theorem Attends.turn {supports : Bool} (h : Attends d past p supports a) (e : Entry) :
    ∃ b, Attends d (e :: past) p supports b := by
  obtain ⟨hplaced, hidentity, hsupports, htoggle, hgauge, hidle, hhidden⟩ := h
  obtain ⟨b, hb, hturn⟩ := turn_cases hplaced e
  refine ⟨b, ?_⟩
  have hshown : d.displayedBy p.2 (e :: past) =
    replay (d.displayedBy p.2 past) ((d.after past).callsOf p.2 e) := rfl
  cases hturn with
  | passed hr hkept =>
    obtain ⟨rfl, hcalls⟩ := Prod.mk.inj hr
    refine ⟨hb, hidentity, hsupports, ?_, hgauge, hidle, fun hs => ?_⟩
    · rw [after_settings, ← hidentity, hkept, hidentity]
      exact htoggle
    · rw [hshown, hcalls]
      exact hhidden hs
  | stepped s event hr hrestrictions hsetting =>
    have hcalls : (d.after past).callsOf p.2 e = (a.step s event).2 := congrArg Prod.snd hr
    obtain rfl : b = (a.step s event).1 := congrArg Prod.fst hr
    rw [after_restrictions] at hrestrictions
    refine ⟨hb, ?_, ?_, ?_, ?_, ?_, ?_⟩
    · exact (Advisor.step_identity s a event).trans hidentity
    · exact (Advisor.step_supports s a event).trans hsupports
    · -- The toggle and what is remembered of it change on the same news.
      rw [after_settings, ← hidentity, hsetting, Advisor.step_setting, htoggle, hidentity]
    · exact Advisor.step_settingEnabled hgauge
    · rw [← hrestrictions]
      rw [← hrestrictions] at hidle
      exact Advisor.idle_of_refused hidle
    · intro hs
      rw [hshown, hcalls]
      exact Advisor.replay_of_idle hhidden hs

theorem Attends.not_isLoud {supports : Bool} (h : Attends d past p supports a)
    (hrefused : a.admission.isEnabled d.restrictions = false) {e : Entry} {record : Record}
    (hr : .emit record ∈ (d.after past).demandsOf p e) : record.isLoud = false := by
  obtain ⟨b, -, hturn⟩ := turn_cases h.placed e
  rw [demandsOf] at hr
  cases hturn with
  | passed hpassed _ =>
    have hcalls : (d.after past).callsOf p.2 e = [] := congrArg Prod.snd hpassed
    rw [hcalls] at hr
    cases hr
  | stepped s event hstep hrestrictions _ =>
    have hcalls : (d.after past).callsOf p.2 e = (a.step s event).2 := congrArg Prod.snd hstep
    have hsilent : Advisor.Silent (a.step s event) := by
      refine Advisor.step_silent (h.idle hrefused) ?_ event
      rw [hrestrictions, after_restrictions]
      exact hrefused
    rw [hcalls] at hr
    exact hsilent.not_isLoud hr

/-! ### Runs -/

theorem attends_after {supports : Bool} (h : Attends d [] p supports a) (past : List Entry) :
    ∃ b, Attends d past p supports b := by
  induction past with
  | nil => exact ⟨a, h⟩
  | cons e past ih =>
    obtain ⟨b, hb⟩ := ih
    exact hb.turn e

variable {ε : Type} {config : Config} {opening : Millis} {load : Identity → Except ε Blocklist}
  {describe : ε → String}

theorem attends_start (h : Dispatcher.start config opening load describe = .ok d)
    (hp : p ∈ config.advisors.zipIdx) :
    ∃ a, Attends d [] p config.restrictions.supportsAddRestriction a := by
  obtain ⟨sets, -, hadvisors, hsettings, -⟩ := start_ok h
  refine ⟨(Soloist.start config opening p.1 (sets p.1) []).advisor, ?_, ?_, rfl, ?_, rfl, ?_, ?_⟩
  · rw [after, hadvisors, List.getElem?_map, List.mem_zipIdx_iff_getElem?.mp hp]
    rfl
  · simp only [Soloist.start, Advisor.start_identity]
  · rw [after, hsettings]
    rfl
  · intro _
    rfl
  · intro _
    rfl

/-- What an entry asks of the outside is asked by the advisors, place by place. Each of them knows
its toggle; and one that is off, or restricted in what matters, is idle, has nothing on display and
asks neither for a notice nor for a connection, whatever comes next. -/
theorem unadmitted_silent (h : Dispatcher.start config opening load describe = .ok d)
    (past : List Entry) :
    let now := d.after past
    let limits := config.restrictions
    (∀ e, (now.dispatch e.now e.queued).2.2 =
      dumped now.advisors e ++ config.advisors.zipIdx.flatMap fun p => now.demandsOf p e) ∧
    ∀ p ∈ config.advisors.zipIdx, ∃ a, now.advisors[p.2]? = some a ∧ a.identity = p.1 ∧
      let toggle := now.settings.findD p.1.settingsKey true
      a.admission.settingEnabled = toggle ∧ a.metrics.settingEnabled = toggle ∧
      (toggle = false ∨ ⟨limits.currentUser, .configWifi⟩ ∈ limits.rules ∨
          limits.supportsAddRestriction = true ∧
            ⟨limits.currentUser, .addWifiConfig⟩ ∈ limits.rules →
        a.status = .noNotification ∧ a.held? = none ∧ d.displayedBy p.2 past = none ∧
        ∀ e record, .emit record ∈ now.demandsOf p e → record.isLoud = false) := by
  intro now limits
  obtain ⟨sets, -, hadvisors, hsettings, hrestrictions⟩ := start_ok h
  have hroster : now.advisors.map Advisor.identity = config.advisors :=
    (after_roster d past).trans
      (product_of_start hadvisors hsettings hrestrictions fun _ => []).listed
  refine ⟨dispatch_demands hroster, ?_⟩
  · intro p hp
    obtain ⟨opened, hopened⟩ := attends_start h hp
    obtain ⟨a, ha⟩ := attends_after hopened past
    refine ⟨a, ha.placed, ha.identity, ha.toggle, ha.gauge.trans ha.toggle, fun hoff => ?_⟩
    have hrefused : a.admission.isEnabled d.restrictions = false := by
      rw [Admission.isEnabled_eq_false_iff, hrestrictions, RestrictionConfig.binds_toRestrictions,
        RestrictionConfig.binds_toRestrictions, ha.toggle, ha.supports]
      exact hoff
    have hidle : a.phase = .idle := ha.idle hrefused
    have hstatus : a.status = .noNotification := congrArg Phase.status hidle
    refine ⟨hstatus, congrArg Phase.held? hidle, ha.hidden hstatus, ?_⟩
    intro e record hr
    exact ha.not_isLoud hrefused hr

namespace Lobby

/-- The user in front may not add configurations, but the platform knows no such restriction;
somebody else may change nothing at all. -/
def shared : Config :=
  { advisors := [.openNetworks, .carrierNetworks]
    restrictions :=
      { currentUser := 10
        supportsAddRestriction := false
        rules := [⟨10, .addWifiConfig⟩, ⟨11, .configWifi⟩] } }

def host : Dispatcher where
  advisors := shared.advisors.map fun identity =>
    (Advisor.start (.permissive 0) identity {} false (.ok ∅)).1
  settings := ∅
  restrictions := shared.restrictions.toRestrictions
  nextNetwork := 1

/-- Both advisors recommend a network; then the toggle of one goes off. -/
def muted : List Entry :=
  [⟨30, .feed (.setting Identity.carrierNetworks.settingsKey false)⟩,
    ⟨20, .feed (.scan none [.ofSignal "lobby" (-40)])⟩,
    ⟨10, .feed (.screen true)⟩]

end Lobby

open Lobby in
/-- The one that is off is silent while the other goes on recommending. -/
theorem unadmitted_silent_beside_another :
    Dispatcher.start shared 0 (fun _ => Except.ok ∅) id = .ok host ∧
      (host.displayedBy 0 muted).map Notice.kind = some .recommend ∧
      host.displayedBy 1 muted = none ∧
      ∀ e record, .emit record ∈ (host.after muted).demandsOf (.carrierNetworks, 1) e →
        record.isLoud = false := by
  have hstart : Dispatcher.start shared 0 (fun _ => Except.ok ∅) id = .ok host := rfl
  obtain ⟨-, hplaces⟩ := unadmitted_silent hstart muted
  have hp : (Identity.carrierNetworks, 1) ∈ shared.advisors.zipIdx := by decide +kernel
  obtain ⟨a, -, -, -, -, hsilent⟩ := hplaces _ hp
  have hoff : (host.after muted).settings.findD Identity.carrierNetworks.settingsKey true =
      false := by
    decide +kernel
  obtain ⟨-, -, hhidden, hquiet⟩ := hsilent (.inl hoff)
  exact ⟨hstart, by decide +kernel, hhidden, hquiet⟩

end Dispatcher

end WifiAdvisor

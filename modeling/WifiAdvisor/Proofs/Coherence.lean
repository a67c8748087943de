import WifiAdvisor.Proofs.Attempts

/-!
# The blocklist and the phase

What a run leaves in the blocklist is decided, name by name, by the latest event that touched the
name. With the phase it agrees unless a late load interferes: what is recommended is not blocked,
and while an attempt lasts and after it failed, the network is blocked if it was taken over.
-/
namespace WifiAdvisor

open Effect

/-- The network store took the network over. -/
def Addition.Accepted (offer : Addition) : Prop := ∃ id, offer.answer = .ok id

namespace Advisor

variable {s : Surroundings} {a : Advisor} {e : Event} {held : Candidate} {ssid : String}
  {past : List Input} {i : Input}

/-! ### One event -/

theorem not_rejects (h : a.status ≠ .recommending) (ssid : String) : ¬ Rejects s a e ssid := by
  rintro ⟨held, hp, -⟩
  exact h (congrArg Phase.status hp)

/-- A rejection ends recommending. -/
theorem Rejects.ends (h : Rejects s a e ssid) : (a.step s e).1.status ≠ .recommending := by
  obtain ⟨held, hp, -, rfl | ⟨rfl, config, id, hc, -⟩⟩ := h
  · rw [step_own_dismiss, onDismiss_status]
    decide
  · have hasks : Asks s a (.action ⟨a.identity.tag, .connect⟩) := ⟨held, config, rfl, hp, hc⟩
    rw [((enters_connecting_iff s a _).mpr hasks).2]
    decide

theorem mem_blocklist_of_unrejected (h : ¬ Rejects s a e ssid)
    (hm : ssid ∈ (a.step s e).1.blocklist) : ssid ∈ e.carried ∨ ssid ∈ a.blocklist := by
  obtain ⟨-, hr | hm⟩ := (mem_blocklist_step_iff s a e ssid).mp hm
  · exact (h hr).elim
  · exact hm

theorem not_wifiConnected
    (h : (a.step s e).1.status = .connecting ∨ (a.step s e).1.status = .failed)
    (ssid : Option String) : e ≠ .wifiConnected ssid := by
  rintro rfl
  have hs : (a.step s (.wifiConnected ssid)).1.status =
      if a.status = .connecting then .connected else .noNotification := onConnected_status a ssid
  rw [hs] at h
  split at h <;> simp at h

theorem offers_of_not_asks (h : ¬ Asks s a e) : offers (a.step s e).2 = [] := by
  cases step_attempt s a e with
  | accepted held config id he hp hc _ _ _ => exact (h ⟨held, config, he, hp, hc⟩).elim
  | refused held config rejection he hp hc _ _ _ => exact (h ⟨held, config, he, hp, hc⟩).elim
  | unconfigured held _ _ _ hf => exact hf.offered
  | other _ hq => exact hq.offers

/-! ### Membership over a run -/

/-- The event blocks the network: the user rejects it, or a late load brings it. -/
def Blocks (a : Advisor) (past : List Input) (i : Input) (ssid : String) : Prop :=
  Rejects i.surroundings (a.after past) i.event ssid ∨ ssid ∈ i.event.carried

theorem mem_blocklist_of_blocks (h : a.Blocks past i ssid) :
    ssid ∈ (a.after (i :: past)).blocklist := by
  rw [after_cons, mem_blocklist_step_iff]
  rcases h with hr | hc
  · exact ⟨fun he => not_rejects_of_not_action (by simp [he]) ssid hr, .inl hr⟩
  · refine ⟨fun he => ?_, .inr (.inl hc)⟩
    rw [he] at hc
    cases hc

theorem mem_blocklist_after (h : ssid ∈ a.blocklist)
    (hc : ∀ i ∈ past, i.event ≠ .wifiConnected (some ssid)) :
    ssid ∈ (a.after past).blocklist := by
  induction past with
  | nil => exact h
  | cons i past ih =>
    obtain ⟨hi, hpast⟩ := List.forall_mem_cons.mp hc
    exact mem_blocklist_step (ih hpast) hi

/-- A blocked network was blocked by some event or from the start, and not connected to since. -/
theorem source_of_block (h : ssid ∈ (a.after past).blocklist) :
    (∃ later i earlier, past = later ++ i :: earlier ∧ a.Blocks earlier i ssid ∧
        ∀ j ∈ later, j.event ≠ .wifiConnected (some ssid)) ∨
      ssid ∈ a.blocklist ∧ ∀ j ∈ past, j.event ≠ .wifiConnected (some ssid) := by
  induction past with
  | nil => exact .inr ⟨h, List.forall_mem_nil _⟩
  | cons i past ih =>
    obtain ⟨he, hr | hc | hm⟩ := (mem_blocklist_step_iff _ _ _ ssid).mp h
    · exact .inl ⟨[], i, past, rfl, .inl hr, List.forall_mem_nil _⟩
    · exact .inl ⟨[], i, past, rfl, .inr hc, List.forall_mem_nil _⟩
    · rcases ih hm with ⟨later, j, earlier, rfl, hj, hlater⟩ | ⟨hstart, hpast⟩
      · exact .inl ⟨i :: later, j, earlier, rfl, hj, List.forall_mem_cons.mpr ⟨he, hlater⟩⟩
      · exact .inr ⟨hstart, List.forall_mem_cons.mpr ⟨he, hpast⟩⟩

theorem mem_blocklist_after_iff (a : Advisor) (past : List Input) (ssid : String) :
    ssid ∈ (a.after past).blocklist ↔
      (∃ later i earlier, past = later ++ i :: earlier ∧ a.Blocks earlier i ssid ∧
        ∀ j ∈ later, j.event ≠ .wifiConnected (some ssid)) ∨
      ssid ∈ a.blocklist ∧ ∀ j ∈ past, j.event ≠ .wifiConnected (some ssid) := by
  refine ⟨source_of_block, ?_⟩
  rintro (⟨later, i, earlier, rfl, hi, hlater⟩ | ⟨hm, hpast⟩)
  · rw [after_append]
    exact mem_blocklist_after (mem_blocklist_of_blocks hi) hlater
  · exact mem_blocklist_after hm hpast

/-! ### Agreement with the phase -/

/-- What was offered to the network store last. -/
def lastOffer (a : Advisor) : List Input → Option Addition
  | [] => none
  | i :: past => (offers (a.callsOn past i)).getLast?.or (a.lastOffer past)

/-- The names brought by late loads since the latest recommendation went up. -/
def restoredSincePost (a : Advisor) : List Input → List String
  | [] => []
  | i :: past =>
    if (notices (a.callsOn past i)).any (fun n => n.kind = .recommend) then []
    else i.event.carried ++ a.restoredSincePost past

/-- Late loads apart, the network is not blocked. -/
def Spotless (a : Advisor) (past : List Input) (ssid : String) : Prop :=
  ssid ∉ a.restoredSincePost past → ssid ∉ (a.after past).blocklist

/-- The answer to the latest offer decided whether the network is blocked, late loads apart. -/
structure Decides (a : Advisor) (past : List Input) (ssid : String) (offer : Addition) : Prop where
  latest : a.lastOffer past = some offer
  blocked : offer.Accepted → ssid ∈ (a.after past).blocklist
  accepted : ssid ∉ a.restoredSincePost past → ssid ∈ (a.after past).blocklist → offer.Accepted

/-- The blocklist agrees with the phase after a run. -/
def Agrees (a : Advisor) (past : List Input) : Phase → Prop
  | .idle | .connected _ => True
  | .recommending held => a.Spotless past held.ssid
  | .connecting held | .failed held => ∃ offer, a.Decides past held.ssid offer

theorem restored_of_unrecommended
    (h : ∀ n ∈ notices (a.callsOn past i), n.kind ≠ .recommend) :
    a.restoredSincePost (i :: past) = i.event.carried ++ a.restoredSincePost past := by
  rw [restoredSincePost, if_neg]
  simpa using h

theorem spotless_of_stay (h : a.Spotless past ssid)
    (hn : ∀ n ∈ notices (a.callsOn past i), n.kind ≠ .recommend)
    (hr : ¬ Rejects i.surroundings (a.after past) i.event ssid) : a.Spotless (i :: past) ssid := by
  intro hrestored hm
  rw [restored_of_unrecommended hn, List.mem_append, not_or] at hrestored
  rcases mem_blocklist_of_unrejected hr hm with hc | hbefore
  · exact hrestored.1 hc
  · exact h hrestored.2 hbefore

theorem decides_of_stay (h : ∃ offer, a.Decides past ssid offer)
    (hn : ∀ n ∈ notices (a.callsOn past i), n.kind ≠ .recommend)
    (hbefore : (a.after past).status = .connecting ∨ (a.after past).status = .failed)
    (hafter : (a.after (i :: past)).status = .connecting ∨
      (a.after (i :: past)).status = .failed) : ∃ offer, a.Decides (i :: past) ssid offer := by
  obtain ⟨offer, hlatest, hblocked, haccepted⟩ := h
  have hs : (a.after past).status ≠ .recommending := by
    rcases hbefore with h | h <;> simp [h]
  have hquiet : offers (a.callsOn past i) = [] := by
    refine offers_of_not_asks ?_
    rintro ⟨held, config, -, hp, -⟩
    exact hs (congrArg Phase.status hp)
  refine ⟨offer, ?_, fun ha => ?_, fun hrestored hm => ?_⟩
  · rw [lastOffer, hquiet]
    exact hlatest
  · exact mem_blocklist_step (hblocked ha) (not_wifiConnected hafter (some ssid))
  · rw [restored_of_unrecommended hn, List.mem_append, not_or] at hrestored
    rcases mem_blocklist_of_unrejected (not_rejects hs ssid) hm with hc | hbefore
    · exact (hrestored.1 hc).elim
    · exact haccepted hrestored.2 hbefore

theorem decides_of_request {config : NetworkConfig}
    (he : i.event = .action ⟨(a.after past).identity.tag, .connect⟩)
    (hp : (a.after past).phase = .recommending held)
    (hc : i.surroundings.configure held = some config) (h : a.Spotless past held.ssid)
    (hn : ∀ n ∈ notices (a.callsOn past i), n.kind ≠ .recommend) :
    a.Decides (i :: past) held.ssid ⟨config, ownerUid, i.surroundings.addNetwork config⟩ := by
  have hoffers : offers (a.callsOn past i) =
      [⟨config, ownerUid, i.surroundings.addNetwork config⟩] := by
    obtain ⟨other, used, hother, hused, hb⟩ := step_asks ⟨held, config, he, hp, hc⟩
    cases hp.symm.trans hother
    cases hc.symm.trans hused
    exact hb.offered
  refine ⟨by rw [lastOffer, hoffers]; rfl, ?_, ?_⟩
  · rintro ⟨id, ha⟩
    exact mem_blocklist_of_blocks (.inl ⟨held, hp, rfl, .inr ⟨he, config, id, hc, ha⟩⟩)
  · intro hrestored hm
    refine Classical.byContradiction fun hrefused => ?_
    have hr : ¬ Rejects i.surroundings (a.after past) i.event held.ssid := by
      rintro ⟨other, ho, -, hdismiss | ⟨-, used, id, hused, ha⟩⟩
      · cases he.symm.trans hdismiss
      · cases hp.symm.trans ho
        cases hc.symm.trans hused
        exact hrefused ⟨id, ha⟩
    exact spotless_of_stay h hn hr hrestored hm

theorem spotless_of_recommendation {cs : List Candidate} {c : Candidate} (he : i.event = .scan cs)
    (hc : Selection.recommend? cs (a.after past).blocklist = some c) :
    a.Spotless (i :: past) c.ssid := by
  intro _ hm
  have hr : ¬ Rejects i.surroundings (a.after past) i.event c.ssid :=
    not_rejects_of_not_action (by simp [he]) c.ssid
  rcases mem_blocklist_of_unrejected hr hm with hcarried | hbefore
  · rw [he] at hcarried
    cases hcarried
  · exact Selection.not_mem_of_recommend? hc hbefore

theorem agrees (h : a.phase = .idle) (past : List Input) :
    a.Agrees past (a.after past).phase := by
  induction past with
  | nil =>
    rw [after_nil, h]
    trivial
  | cons i past ih =>
    have hstep : a.after (i :: past) = ((a.after past).step i.surroundings i.event).1 := rfl
    -- A recommendation starts from a clean slate and a request decides; other events that leave
    -- the network held only let late loads through.
    cases step_phase i.surroundings (a.after past) i.event with
    | kept _ _ _ hl =>
      have hs : (a.after (i :: past)).status = (a.after past).status :=
        congrArg Phase.status hl.phase
      have hn : ∀ n ∈ notices (a.callsOn past i), n.kind ≠ .recommend := by
        simp [callsOn, hl.notices_eq]
      rw [hstep, hl.phase]
      cases hp : (a.after past).phase with
      | idle => trivial
      | recommending held =>
        have hbefore : (a.after past).status = .recommending := congrArg Phase.status hp
        rw [hp] at ih
        exact spotless_of_stay ih hn fun hr => hr.ends (hs.trans hbefore)
      | connecting held =>
        have hbefore : (a.after past).status = .connecting := congrArg Phase.status hp
        rw [hp] at ih
        exact decides_of_stay ih hn (.inl hbefore) (.inl (hs.trans hbefore))
      | connected held => trivial
      | failed held =>
        have hbefore : (a.after past).status = .failed := congrArg Phase.status hp
        rw [hp] at ih
        exact decides_of_stay ih hn (.inr hbefore) (.inr (hs.trans hbefore))
    | cleared _ hl =>
      rw [hstep, hl.phase]
      trivial
    | dismissed _ hl =>
      rw [hstep, hl.phase]
      trivial
    | recommended cs c he _ _ hc hl =>
      rw [hstep, hl.phase]
      exact spotless_of_recommendation he hc
    | requested held config he hp hc hl =>
      rw [hp] at ih
      rw [hstep, hl.phase]
      exact ⟨_, decides_of_request he hp hc ih (by simp [callsOn, hl.notices_eq, Notice.compose])⟩
    | unconfigured held _ hp _ hl =>
      rw [hp] at ih
      rw [hstep, hl.phase, hp]
      exact spotless_of_stay ih (by simp [callsOn, hl.notices_eq, Notice.compose]) fun hr =>
        hr.ends (congrArg Phase.status (hl.phase.trans hp))
    | connected held ssid _ _ hl =>
      rw [hstep, hl.phase]
      trivial
    | failed held _ _ hp hl =>
      have hn : ∀ n ∈ notices (a.callsOn past i), n.kind ≠ .recommend := by
        simp [callsOn, hl.notices_eq, Notice.compose]
      have hbefore : (a.after past).status = .connecting := congrArg Phase.status hp
      have hafter : (a.after (i :: past)).status = .failed := congrArg Phase.status hl.phase
      rw [hp] at ih
      rw [hstep, hl.phase]
      exact decides_of_stay ih hn (.inl hbefore) (.inr hafter)

section

variable (opening : Surroundings) (identity : Identity) (timing : Timing) (supports : Bool)
  (loaded : Except StoreFailure Blocklist)

theorem mem_start_blocklist (ssid : String) :
    ssid ∈ (start opening identity timing supports loaded).1.blocklist ↔
      ∃ set, loaded = .ok set ∧ ssid ∈ set := by
  cases loaded with
  | error failure => simp [start, readSetting]
  | ok set => simp [start_blocklist]

/-- A network is blocked if it was loaded at the start, rejected or brought by a late load, and not
connected to since. Late loads since it was recommended apart, the held network is not blocked
while it is recommended; from the request on it is blocked if it was taken over, which late loads
cannot undo. -/
theorem blocklist_coherent (past : List Input) :
    let a := (start opening identity timing supports loaded).1
    let now := a.after past
    (∀ ssid, ssid ∈ now.blocklist ↔
      (∃ later i earlier, past = later ++ i :: earlier ∧
        (Rejects i.surroundings (a.after earlier) i.event ssid ∨ ssid ∈ i.event.carried) ∧
        ∀ j ∈ later, j.event ≠ .wifiConnected (some ssid)) ∨
      (∃ set, loaded = .ok set ∧ ssid ∈ set) ∧
        ∀ j ∈ past, j.event ≠ .wifiConnected (some ssid)) ∧
    (∀ held, now.phase = .recommending held →
      held.ssid ∉ a.restoredSincePost past → held.ssid ∉ now.blocklist) ∧
    (∀ held, now.phase = .connecting held ∨ now.phase = .failed held →
      ∃ offer, a.lastOffer past = some offer ∧
        (offer.Accepted → held.ssid ∈ now.blocklist) ∧
        (held.ssid ∉ a.restoredSincePost past →
          (held.ssid ∈ now.blocklist ↔ offer.Accepted))) := by
  intro a now
  have hagrees : a.Agrees past now.phase :=
    agrees (start_phase opening identity timing supports loaded) past
  refine ⟨?_, ?_, ?_⟩
  · intro ssid
    rw [← mem_start_blocklist opening identity timing supports loaded ssid]
    exact mem_blocklist_after_iff a past ssid
  · intro held hp
    rw [hp] at hagrees
    exact hagrees
  · intro held hp
    obtain ⟨offer, hlatest, hblocked, haccepted⟩ : ∃ offer, a.Decides past held.ssid offer := by
      rcases hp with hp | hp <;>
      · rw [hp] at hagrees
        exact hagrees
    exact ⟨offer, hlatest, hblocked, fun hr => ⟨haccepted hr, hblocked⟩⟩

end

namespace Kiosk

def opened : Advisor :=
  (start (.permissive 0) .openNetworks {} true (.ok (.ofList ["kiosk", "plaza"]))).1

/-- A blocked network is connected to and thereby becomes eligible. -/
def recommended : List Input :=
  [⟨.permissive 30, .scan [.ofSignal "kiosk" (-40)]⟩, ⟨.permissive 20, .screen true⟩,
    ⟨.permissive 10, .wifiConnected (some "kiosk")⟩]

/-- It is taken over while a late load is under way, and the connection fails. -/
def lost : List Input :=
  [⟨.permissive 60, .connectionFailure⟩, ⟨.permissive 50, .restored ["arcade"]⟩,
    ⟨.permissive 40, .action ⟨Identity.openNetworks.tag, .connect⟩⟩]

end Kiosk

open Kiosk in
/-- The block of a network that was taken over outlasts the failure to connect to it. -/
theorem blocklist_coherent_after_failure :
    (opened.after recommended).phase = .recommending (.ofSignal "kiosk" (-40)) ∧
      "kiosk" ∉ (opened.after recommended).blocklist ∧
      (opened.after (lost ++ recommended)).phase = .failed (.ofSignal "kiosk" (-40)) ∧
      ∃ offer, opened.lastOffer (lost ++ recommended) = some offer ∧ offer.Accepted ∧
        "kiosk" ∈ (opened.after (lost ++ recommended)).blocklist := by
  obtain ⟨-, hunblocked, -⟩ := blocklist_coherent (.permissive 0) .openNetworks {} true
    (.ok (.ofList ["kiosk", "plaza"])) recommended
  obtain ⟨-, -, hdecided⟩ := blocklist_coherent (.permissive 0) .openNetworks {} true
    (.ok (.ofList ["kiosk", "plaza"])) (lost ++ recommended)
  have hp : (opened.after recommended).phase = .recommending (.ofSignal "kiosk" (-40)) := by
    decide +kernel
  have hlost : (opened.after (lost ++ recommended)).phase =
      .failed (.ofSignal "kiosk" (-40)) := by
    decide +kernel
  obtain ⟨offer, hlatest, hblocked, -⟩ := hdecided _ (.inr hlost)
  have haccepted : offer.Accepted := by
    have hoffer : some offer = some ⟨⟨"kiosk", .open⟩, ownerUid, .ok 1⟩ := hlatest.symm
    cases hoffer
    exact ⟨1, rfl⟩
  refine ⟨hp, ?_, hlost, offer, hlatest, haccepted, hblocked haccepted⟩
  exact hunblocked _ hp (by decide +kernel)

end Advisor

end WifiAdvisor

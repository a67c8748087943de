import WifiAdvisor.Proofs.BlocklistStep
import WifiAdvisor.Proofs.PhaseStep
import WifiAdvisor.Proofs.Timers

/-!
# The notification slot

An advisor has one slot on the display. What is up there is a function of the phase, except after
a request for a network that cannot be configured: the notice about connecting is up by then, and
the advisor goes on recommending.
-/
namespace WifiAdvisor

open Effect

/-- The notice in the slot after some calls, of which each replaces what was there. -/
def Effect.replay (before : Option Notice) (calls : List Effect) : Option Notice :=
  (shows calls).foldl (fun _ placed => placed.2) before

/-- The notice that belongs to a state. -/
def Status.noticeKind? : Status → Option NoticeKind
  | .noNotification => none
  | .recommending => some .recommend
  | .connecting => some .connecting
  | .connected => some .connected
  | .failed => some .failed

namespace Advisor

variable {s : Surroundings} {a : Advisor} {e : Event} {past : List Input} {i : Input}

/-- What is up after a run that began with an empty slot. -/
def displayed (a : Advisor) : List Input → Option Notice
  | [] => none
  | i :: past => replay (a.displayed past) (a.callsOn past i)

/-- Since it was recommended, the held network was asked for and could not be configured. -/
def stranded (a : Advisor) : List Input → Bool
  | [] => false
  | i :: past =>
    (a.after past).unconfigurable i.surroundings i.event ||
      !(notices (a.callsOn past i)).any (fun n => n.kind = .recommend) && a.stranded past

/-- What is to be up, the notice about connecting having replaced a recommendation or not. -/
def caption (a : Advisor) (replaced : Bool) : Option Notice :=
  let notice (kind : NoticeKind) (held : Candidate) :=
    some (Notice.compose kind a.identity.tag (some held))
  match a.phase with
  | .idle => none
  | .recommending held => if replaced then notice .connecting held else notice .recommend held
  | .connecting held => notice .connecting held
  | .connected held => notice .connected held
  | .failed held => notice .failed held

/-- The calls to the display on one event: none, the removal of what is up, or one notice. -/
inductive DisplayStep (s : Surroundings) (a : Advisor) (e : Event) : Prop where
  | kept : shows (a.step s e).2 = [] → (a.step s e).1.phase = a.phase → DisplayStep s a e
  | removed : shows (a.step s e).2 = [(a.identity.slot, none)] → a.status ≠ .noNotification →
      (a.step s e).1.status = .noNotification → DisplayStep s a e
  | posted (kind : NoticeKind) (network : Candidate) :
      shows (a.step s e).2 = [a.showing kind network] →
      (a.step s e).1.status ≠ .noNotification → DisplayStep s a e

theorem step_display_of_removal
    (h : shows (a.step s e).2 = a.removal) (hp : (a.step s e).1.phase = .idle) :
    DisplayStep s a e := by
  by_cases hs : a.status = .noNotification
  · obtain ⟨-, hi⟩ : ∃ _, a.phase = .idle := phase_of_status hs
    refine .kept ?_ (hp.trans hi.symm)
    rw [h, removal, if_pos hs]
  · refine .removed ?_ hs (congrArg Phase.status hp)
    rw [h, removal, if_neg hs]

theorem step_display (s : Surroundings) (a : Advisor) (e : Event) : DisplayStep s a e := by
  have busy {p : Phase} (hp : (a.step s e).1.phase = p) (hne : p.status ≠ .noNotification) :
      (a.step s e).1.status ≠ .noNotification := by
    rw [status, hp]
    exact hne
  cases step_phase s a e with
  | kept _ _ _ h => exact .kept h.shown h.phase
  | cleared _ h => exact step_display_of_removal h.shown h.phase
  | dismissed _ h => exact step_display_of_removal h.shown h.phase
  | recommended cs c _ _ _ _ h => exact .posted _ _ h.shown (busy h.phase (by simp [Phase.status]))
  | requested held config _ _ _ h =>
    exact .posted _ _ h.shown (busy h.phase (by simp [Phase.status]))
  | unconfigured held _ hp _ h =>
    exact .posted _ _ h.shown (busy (h.phase.trans hp) (by simp [Phase.status]))
  | connected held ssid _ _ h => exact .posted _ _ h.shown (busy h.phase (by simp [Phase.status]))
  | failed held _ _ _ h => exact .posted _ _ h.shown (busy h.phase (by simp [Phase.status]))

/-! ### Runs -/

theorem displayed_of_posted {kind : NoticeKind} {network : Candidate}
    (h : shows (a.callsOn past i) = [(a.after past).showing kind network]) :
    a.displayed (i :: past) =
      some (Notice.compose kind (a.after past).identity.tag (some network)) := by
  rw [displayed, replay, h]
  rfl

theorem displayed_of_removal (h : shows (a.callsOn past i) = (a.after past).removal)
    (hidle : (a.after past).status = .noNotification → a.displayed past = none) :
    a.displayed (i :: past) = none := by
  rw [displayed, replay, h, removal]
  split
  · rename_i hs
    exact hidle hs
  · rfl

theorem displayed_eq (h : a.phase = .idle) (past : List Input) :
    a.displayed past = (a.after past).caption (a.stranded past) := by
  induction past with
  | nil => rw [after_nil, caption, h]; rfl
  | cons i past ih =>
    have hidle (hs : (a.after past).status = .noNotification) : a.displayed past = none := by
      obtain ⟨-, hp⟩ : ∃ _, (a.after past).phase = .idle := phase_of_status hs
      rw [ih, caption, hp]
    have hstep : a.after (i :: past) = ((a.after past).step i.surroundings i.event).1 := rfl
    cases step_phase i.surroundings (a.after past) i.event with
    | kept _ _ hu hl =>
      have hst : a.stranded (i :: past) = a.stranded past := by
        simp [stranded, hu, callsOn, hl.notices_eq]
      have hshown : a.displayed (i :: past) = a.displayed past := by
        simp [displayed, replay, callsOn, hl.shown]
      rw [hshown, ih, hst, hstep, caption, caption, hl.phase, hl.identity]
    | cleared _ hl =>
      rw [displayed_of_removal hl.shown hidle, hstep, caption, hl.phase]
    | dismissed _ hl =>
      rw [displayed_of_removal hl.shown hidle, hstep, caption, hl.phase]
    | recommended cs c he _ _ _ hl =>
      have hu : (a.after past).unconfigurable i.surroundings i.event = false := by rw [he]; rfl
      have hst : a.stranded (i :: past) = false := by
        simp [stranded, hu, callsOn, hl.notices_eq, Notice.compose]
      rw [displayed_of_posted hl.shown, hst, hstep, caption, hl.phase, hl.identity]
      rfl
    | requested held config _ _ _ hl =>
      rw [displayed_of_posted hl.shown, hstep, caption, hl.phase, hl.identity]
    | unconfigured held he hp hc hl =>
      have hst : a.stranded (i :: past) = true := by
        simp [stranded, he, unconfigurable, hp, hc]
      rw [displayed_of_posted hl.shown, hst, hstep, caption, hl.phase, hp, hl.identity]
      rfl
    | connected held ssid _ _ hl =>
      rw [displayed_of_posted hl.shown, hstep, caption, hl.phase, hl.identity]
    | failed held _ _ _ hl =>
      rw [displayed_of_posted hl.shown, hstep, caption, hl.phase, hl.identity]

theorem caption_kind (a : Advisor) (replaced : Bool) :
    (a.caption replaced).map Notice.kind =
      if a.status = .recommending ∧ replaced then some .connecting else a.status.noticeKind? := by
  cases hp : a.phase <;> cases replaced <;>
    simp [caption, hp, status, Phase.status, Status.noticeKind?, Notice.compose]

theorem caption_eq_none_iff (a : Advisor) (replaced : Bool) :
    a.caption replaced = none ↔ a.status = .noNotification := by
  cases hp : a.phase <;> cases replaced <;> simp [caption, hp, status, Phase.status]

theorem caption_of_held {held : Candidate} (h : a.held? = some held) (replaced : Bool) :
    ∃ kind, a.caption replaced = some (Notice.compose kind a.identity.tag (some held)) := by
  cases hp : a.phase with
  | idle => simp [held?, hp, Phase.held?] at h
  | recommending network =>
    obtain rfl : network = held := by simpa [held?, hp, Phase.held?] using h
    cases replaced with
    | false => exact ⟨.recommend, by rw [caption, hp]; rfl⟩
    | true => exact ⟨.connecting, by rw [caption, hp]; rfl⟩
  | _ network =>
    obtain rfl : network = held := by simpa [held?, hp, Phase.held?] using h
    exact ⟨_, by rw [caption, hp]⟩

theorem caption_names_held {n : Notice} {replaced : Bool} (h : a.caption replaced = some n) :
    n.tag = a.identity.tag ∧ ∃ held, a.held? = some held ∧ n.ssid = some held.ssid := by
  have hbusy : a.status ≠ .noNotification := by
    intro hs
    rw [(caption_eq_none_iff a replaced).mpr hs] at h
    cases h
  obtain ⟨held, hheld⟩ := Option.isSome_iff_exists.mp ((held?_isSome_iff a).mpr hbusy)
  obtain ⟨kind, hk⟩ := caption_of_held hheld replaced
  obtain rfl : Notice.compose kind a.identity.tag (some held) = n := by
    rw [hk] at h
    exact Option.some_inj.mp h
  exact ⟨rfl, held, hheld, rfl⟩

/-- How often something was taken down. -/
def cancels (a : Advisor) : List Input → Nat
  | [] => 0
  | i :: past => (shows (a.callsOn past i)).countP (fun placed => placed.2.isNone) + a.cancels past

/-- How often the advisor went back to idle. -/
def returns (a : Advisor) : List Input → Nat
  | [] => 0
  | i :: past =>
    (if (a.after past).status ≠ .noNotification ∧ (a.after (i :: past)).status = .noNotification
      then 1 else 0) + a.returns past

theorem cancels_eq_returns (a : Advisor) (past : List Input) : a.cancels past = a.returns past := by
  induction past with
  | nil => rfl
  | cons i past ih =>
    have hstep : a.after (i :: past) = ((a.after past).step i.surroundings i.event).1 := rfl
    rw [cancels, returns, ih, callsOn, hstep]
    cases step_display i.surroundings (a.after past) i.event with
    | kept hs hp =>
      have hst : ((a.after past).step i.surroundings i.event).1.status = (a.after past).status :=
        congrArg Phase.status hp
      rw [hs, hst, if_neg (fun h => h.1 h.2)]
      rfl
    | removed hs hbusy hidle =>
      rw [hs, if_pos ⟨hbusy, hidle⟩]
      rfl
    | posted kind network hs hbusy =>
      rw [hs, if_neg (fun h => hbusy h.2)]
      rfl

theorem step_display_slot (s : Surroundings) (a : Advisor) (e : Event) :
    (∀ placed ∈ shows (a.step s e).2, placed.1 = a.identity.slot) ∧
      (shows (a.step s e).2).length ≤ 1 := by
  cases step_display s a e with
  | kept hs _ => simp [hs]
  | removed hs _ _ => simp [hs]
  | posted kind network hs _ => simp [hs, showing]

theorem step_cancels_busy {slot : Int32} (h : (slot, none) ∈ shows (a.step s e).2) :
    a.status ≠ .noNotification := by
  cases step_display s a e with
  | kept hs _ => simp [hs] at h
  | removed _ hbusy _ => exact hbusy
  | posted kind network hs _ => simp [hs, showing] at h

theorem step_arms_length (s : Surroundings) (a : Advisor) (e : Event) :
    (arms (a.step s e).2).length ≤ 1 := by
  cases step_timers s a e with
  | armed kind h => simp [h.armed]
  | kept h => simp [h.armed]

section

variable (opening : Surroundings) (identity : Identity) (timing : Timing) (supports : Bool)
  (loaded : Except StoreFailure Blocklist)

/-- The slot is filled exactly outside the idle state, with a notice of the advisor's own about the
held network. An event makes one call to the display at most and arms one timer at most; what is
taken down was up, once for each return to idle. -/
theorem slot_discipline (past : List Input) :
    let opened := start opening identity timing supports loaded
    let a := opened.1
    let now := a.after past
    shows opened.2 = [] ∧
    (a.displayed past = none ↔ now.status = .noNotification) ∧
    (∀ n, a.displayed past = some n →
      n.tag = identity.tag ∧ ∃ held, now.held? = some held ∧ n.ssid = some held.ssid) ∧
    (∀ s e,
      (∀ placed ∈ shows (now.step s e).2, placed.1 = identity.slot) ∧
      (shows (now.step s e).2).length ≤ 1 ∧ (arms (now.step s e).2).length ≤ 1 ∧
      ∀ slot, (slot, none) ∈ shows (now.step s e).2 → a.displayed past ≠ none) ∧
    a.cancels past = a.returns past := by
  intro opened a now
  have hidentity : now.identity = identity :=
    (after_identity a past).trans (start_identity opening identity timing supports loaded)
  have hshown : a.displayed past = now.caption (a.stranded past) :=
    displayed_eq (start_phase opening identity timing supports loaded) past
  have hempty : a.displayed past = none ↔ now.status = .noNotification := by
    rw [hshown, caption_eq_none_iff]
  refine ⟨rfl, hempty, ?_, ?_, cancels_eq_returns a past⟩
  · intro n hn
    rw [hshown] at hn
    rw [← hidentity]
    exact caption_names_held hn
  · intro s e
    obtain ⟨hslot, hone⟩ := step_display_slot s now e
    rw [hidentity] at hslot
    refine ⟨hslot, hone, step_arms_length s now e, ?_⟩
    intro slot hcancel hnone
    exact step_cancels_busy hcancel (hempty.mp hnone)

/-- The kind of notice that is up belongs to the state unless the advisor is stranded. Then it
recommends under a notice about connecting, which offers nothing; otherwise what is up while it
recommends offers to connect, to pick and to dismiss. -/
theorem displayed_kind_exact (past : List Input) :
    let a := (start opening identity timing supports loaded).1
    let now := a.after past
    ((a.displayed past).map Notice.kind = now.status.noticeKind? ↔
      ¬ (now.status = .recommending ∧ a.stranded past)) ∧
    (now.status = .recommending → ∃ n, a.displayed past = some n ∧
      if a.stranded past then n.kind = .connecting ∧ n.actions = [] ∧ n.deleteAction = none
      else n.kind = .recommend ∧ n.actions = [.connect, .pick] ∧
        n.deleteAction = some .dismiss) := by
  intro a now
  have hshown : a.displayed past = now.caption (a.stranded past) :=
    displayed_eq (start_phase opening identity timing supports loaded) past
  constructor
  · rw [hshown, caption_kind]
    split
    · rename_i h
      simp [h.1, h.2, Status.noticeKind?]
    · rename_i h
      simpa using h
  · intro hs
    obtain ⟨held, hp⟩ : ∃ held, now.phase = .recommending held := phase_of_status hs
    rw [hshown, caption, hp]
    cases a.stranded past with
    | false => exact ⟨_, rfl, rfl, rfl, rfl⟩
    | true => exact ⟨_, rfl, rfl, rfl, rfl⟩

end

namespace Harbour

/-- The strongest network asks for a key that no scan record holds; the user asks for it. -/
def unconfigured : List Input :=
  [⟨.permissive 30, .action ⟨Identity.openNetworks.tag, .connect⟩⟩,
    ⟨.permissive 20, .scan [{ Candidate.ofSignal "harbour" (-40) with capabilities := "[WEP]" }]⟩,
    ⟨.permissive 10, .screen true⟩]

end Harbour

open Harbour in
/-- The notice that is up need not belong to the state. -/
theorem recommending_under_connecting_notice :
    let a := (start (.permissive 0) .openNetworks {} true (.ok ∅)).1
    (a.after unconfigured).status = .recommending ∧
      (a.displayed unconfigured).map Notice.kind ≠ (a.after unconfigured).status.noticeKind? ∧
      (a.displayed unconfigured).map Notice.kind = some .connecting ∧
      (a.displayed unconfigured).map Notice.actions = some [] := by
  decide +kernel

end Advisor

end WifiAdvisor

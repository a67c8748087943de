import WifiAdvisor.Proofs.PhaseStep

/-!
# The repeat delay

When the next fresh recommendation may come is settled by the latest recommendation or dismissal,
unless an event that lifts the delay came after it. Clock readings are arbitrary and may run
backwards.
-/
namespace WifiAdvisor.Advisor

open Effect

variable {s : Surroundings} {a : Advisor} {e : Event}

/-- A recommendation goes up, fresh or in place of another, or the user dismisses what is up. -/
def defers (s : Surroundings) (a : Advisor) (e : Event) : Bool :=
  (notices (a.step s e).2).any (fun n => n.kind = .recommend) ||
    e = .action ⟨a.identity.tag, .dismiss⟩

/-- The clock at the latest event that deferred, if none has lifted the delay since. -/
def lastDeferral (a : Advisor) : List Input → Option Millis
  | [] => none
  | i :: past =>
    if (a.after past).resets i.surroundings i.event then none
    else if (a.after past).defers i.surroundings i.event then some i.surroundings.now
    else a.lastDeferral past

/-- When a delay of so many seconds from `since` is over; both operations stop at the largest
word. -/
def delayedUntil (seconds : Nat) : Option Millis → Nat
  | none => 0
  | some since => min (since.toNat + min (seconds * 1000) Millis.largest) Millis.largest

theorem step_repeatAt (s : Surroundings) (a : Advisor) (e : Event) :
    (a.step s e).1.repeatAt =
      if a.resets s e then 0 else if a.defers s e then a.deferral s else a.repeatAt := by
  cases step_phase s a e with
  | kept hr hd _ h =>
    have hn : a.defers s e = false := by simp [defers, h.notices_eq, hd]
    rw [h.repeatAt, hr, hn]
    rfl
  | cleared hd h =>
    have hn : a.defers s e = false := by simp [defers, h.notices_eq, hd]
    rw [h.repeatAt, hn]
    rfl
  | dismissed he h =>
    have hr : a.resets s e = false := by rw [he]; rfl
    have hn : a.defers s e = true := by simp [defers, he]
    rw [h.repeatAt, hr, hn]
    rfl
  | recommended cs c he hen _ _ h =>
    have hr : a.resets s e = false := by simp [he, resets, hen]
    have hn : a.defers s e = true := by simp [defers, h.notices_eq, Notice.compose]
    rw [h.repeatAt, hr, hn]
    rfl
  | requested held config he _ _ h =>
    subst he
    have hr : a.resets s (.action ⟨a.identity.tag, .connect⟩) = false := rfl
    have hn : a.defers s (.action ⟨a.identity.tag, .connect⟩) = false := by
      simp [defers, h.notices_eq, Notice.compose]
    rw [h.repeatAt, hr, hn]
    rfl
  | unconfigured held he _ _ h =>
    subst he
    have hr : a.resets s (.action ⟨a.identity.tag, .connect⟩) = false := rfl
    have hn : a.defers s (.action ⟨a.identity.tag, .connect⟩) = false := by
      simp [defers, h.notices_eq, Notice.compose]
    rw [h.repeatAt, hr, hn]
    rfl
  | connected held ssid he hp h =>
    subst he
    have hr : a.resets s (.wifiConnected ssid) = false := by
      simp [resets, status, hp, Phase.status]
    have hn : a.defers s (.wifiConnected ssid) = false := by
      simp [defers, h.notices_eq, Notice.compose]
    rw [h.repeatAt, hr, hn]
    rfl
  | failed held hr hd _ h =>
    have hn : a.defers s e = false := by simp [defers, h.notices_eq, Notice.compose, hd]
    rw [h.repeatAt, hr, hn]
    rfl

theorem after_timing (a : Advisor) (past : List Input) : (a.after past).timing = a.timing := by
  induction past with
  | nil => rfl
  | cons i past ih => rw [after_cons, step_timing, ih]

theorem toNat_deferral (s : Surroundings) (a : Advisor) :
    (a.deferral s).toNat = delayedUntil a.timing.repeatDelaySecs.toNat (some s.now) := by
  rw [deferral, Millis.toNat_after, Timing.repeatDelay, Millis.toNat_ofSeconds]
  rfl

theorem toNat_repeatAt (h : a.repeatAt = 0) (past : List Input) :
    (a.after past).repeatAt.toNat =
      delayedUntil a.timing.repeatDelaySecs.toNat (a.lastDeferral past) := by
  induction past with
  | nil => rw [after_nil, h]; rfl
  | cons i past ih =>
    rw [after_cons, step_repeatAt, lastDeferral]
    split
    · rfl
    · split
      · rw [toNat_deferral, after_timing]
      · exact ih

/-- Events that have to do with the lifecycle and leave the repeat delay alone. -/
inductive Spares (s : Surroundings) (a : Advisor) : Event → Prop where
  | failedShown (generation : UInt64) : Spares s a (.timer ⟨.failedShown, generation⟩)
  | picked (tag : String) : Spares s a (.action ⟨tag, .pick⟩)
  | pickedAfterFailure (tag : String) : Spares s a (.action ⟨tag, .pickAfterFailure⟩)
  | cleared : Spares s a (.clear false)
  | emptyScan : a.admission.isEnabled s.restrictions = true → Spares s a (.scan [])
  | blockedWinner {cs : List Candidate} {c : Candidate} :
      a.admission.isEnabled s.restrictions = true → Selection.firstStrongest? cs = some c →
      c.ssid ∈ a.blocklist → Spares s a (.scan cs)

theorem Spares.not_resets (h : Spares s a e) : a.resets s e = false := by
  cases h with
  | emptyScan hen => simp [resets, hen]
  | blockedWinner hen _ _ => simp [resets, hen]
  | _ => rfl

theorem Spares.recommend?_eq_none {cs : List Candidate} (h : Spares s a (.scan cs)) :
    Selection.recommend? cs a.blocklist = none := by
  cases h with
  | emptyScan _ => rfl
  | blockedWinner _ hc hb =>
    rw [Selection.recommend?, hc, Option.filter_eq_none_iff]
    simpa using hb

theorem Spares.not_defers (h : Spares s a e) : a.defers s e = false := by
  have hd : e ≠ .action ⟨a.identity.tag, .dismiss⟩ := by
    cases h <;> simp
  have hn : ∀ n ∈ notices (a.step s e).2, n.kind ≠ .recommend := by
    intro n hn hk
    obtain ⟨cs, c, he, -, -, hc, -⟩ := scan_of_recommendation hn hk
    subst he
    rw [h.recommend?_eq_none] at hc
    cases hc
  simpa [defers, hd] using hn

section

variable (opening : Surroundings) (identity : Identity) (timing : Timing) (supports : Bool)
  (loaded : Except StoreFailure Blocklist)

/-- Nothing fresh is recommended before the latest recommendation or dismissal is the repeat delay
ago. Only the events that `resets` lists lift this; the rest of the lifecycle leaves it alone. -/
theorem debounce_law (past : List Input) :
    let a := (start opening identity timing supports loaded).1
    let now := a.after past
    let bound := delayedUntil timing.repeatDelaySecs.toNat (a.lastDeferral past)
    now.repeatAt.toNat = bound ∧
    (∀ s e, now.status = .noNotification →
      (∃ n ∈ notices (now.step s e).2, n.kind = .recommend) → bound ≤ s.now.toNat) ∧
    ∀ s e, Spares s now e → (now.step s e).1.repeatAt = now.repeatAt := by
  intro a now bound
  have hstart : a.repeatAt = 0 := by cases loaded <;> rfl
  have htiming : a.timing = timing := by cases loaded <;> rfl
  have hbound : now.repeatAt.toNat = bound := by
    have h := toNat_repeatAt hstart past
    rwa [htiming] at h
  refine ⟨hbound, ?_, ?_⟩
  · rintro s e hidle ⟨n, hn, hk⟩
    obtain ⟨-, hp⟩ : ∃ _, now.phase = .idle := phase_of_status hidle
    obtain ⟨cs, c, -, -, hnow, -, -⟩ := scan_of_recommendation hn hk
    rw [← hbound]
    exact UInt64.le_iff_toNat_le.mp (hnow hp)
  · intro s e h
    rw [step_repeatAt, h.not_resets, h.not_defers]
    rfl

end

namespace Plaza

def opened : Advisor := (start (.permissive 0) .openNetworks {} true (.ok ∅)).1

/-- The clock is set back between the recommendation and its dismissal. -/
def dismissed : List Input :=
  [⟨.permissive 15, .action ⟨Identity.openNetworks.tag, .dismiss⟩⟩,
    ⟨.permissive 20, .scan [.ofSignal "cafe" (-40)]⟩,
    ⟨.permissive 10, .screen true⟩]

def nextScan : Event := .scan [.ofSignal "plaza" (-50)]

end Plaza

open Plaza in
theorem debounced_after_dismissal :
    (opened.after dismissed).repeatAt.toNat = 900015 ∧
      (opened.after dismissed).status = .noNotification ∧
      (notices ((opened.after dismissed).step (.permissive 900015) nextScan).2).map Notice.kind =
        [.recommend] ∧
      delayedUntil 900 (opened.lastDeferral dismissed) ≤ 900015 ∧
      ((opened.after dismissed).step (.permissive 16) (.clear false)).1.repeatAt =
        (opened.after dismissed).repeatAt := by
  obtain ⟨hbound, hfresh, hspared⟩ :=
    debounce_law (.permissive 0) .openNetworks {} true (.ok ∅) dismissed
  have hidle : (opened.after dismissed).status = .noNotification := by decide +kernel
  refine ⟨hbound.trans (by decide +kernel), hidle, by decide +kernel, ?_, ?_⟩
  · exact hfresh (.permissive 900015) nextScan hidle (by decide +kernel)
  · exact hspared (.permissive 16) _ .cleared

end WifiAdvisor.Advisor

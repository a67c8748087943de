import Mathlib.Data.List.Basic
import Mathlib.Data.List.Forall2
import WifiAdvisor.Proofs.Soloist

/-!
# Advisors do not influence each other

Next to soloists that are given the numbers which the shared host handed out, the dispatcher shows
nothing new: its advisors are in the same states, and what it asks of the outside is what the
soloists ask, woven together.
-/
namespace WifiAdvisor

open Effect

namespace Dispatcher

variable {d : Dispatcher} {roster : List Identity} {index : Nat} {o : Soloist} {e : Entry}
  {rest : List NetworkId}

theorem chosen_eq_heard (h : d.advisors.map Advisor.identity = roster) (q : Queued)
    (index : Nat) (a : Advisor) : d.chosen q index a = Soloist.heard roster index a q := by
  subst roster
  have hi (tag : String) : d.indexOf? tag =
      (d.advisors.map Advisor.identity).findIdx? (fun identity => identity.tag = tag) := by
    rw [List.findIdx?_map]
    rfl
  cases q with
  | feed event =>
    cases event with
    | scan tag cs => cases tag <;> simp [chosen, view, Soloist.heard, hi]
    | sendFailed tag reason => cases tag <;> simp [chosen, view, Soloist.heard, hi]
    | action tag action =>
      cases tag <;> simp [chosen, view, Soloist.heard, addressee?, Function.comp_def]
    | _ => rfl
  | timer i fired => rfl
  | shutdown => rfl

/-- The soloist is where the advisor at `index` is. -/
structure Follows (d : Dispatcher) (index : Nat) (o : Soloist) : Prop where
  advisor : d.advisors[index]? = some o.advisor
  settings : o.settings = d.settings
  restrictions : o.restrictions = d.restrictions

theorem turnOn_eq (d : Dispatcher) (e : Entry) {a : Advisor}
    (h : d.advisors[index]? = some a) :
    ∃ number,
      (d.dispatch e.now e.queued).2.1.advisors[index]? = some (d.turnOn e index a number).1 ∧
        d.callsOf index e = (d.turnOn e index a number).2 := by
  obtain ⟨number, hn⟩ := getElem?_turns d e index
  refine ⟨number, ?_, ?_⟩
  · rw [dispatch_eq]
    simp [hn, h]
  · simp [callsOf, hn, h]

theorem Follows.turn (h : Follows d index o) (hroster : d.advisors.map Advisor.identity = roster)
    (hgiven : o.given = numbers (d.callsOf index e) ++ rest) :
    Follows (d.dispatch e.now e.queued).2.1 index (o.turn roster index e).1 ∧
      (o.turn roster index e).1.given = rest ∧
      (o.turn roster index e).2 = d.callsOf index e := by
  obtain ⟨number, hadvisor, hcalls⟩ := turnOn_eq d e h.advisor
  have hd : (d.dispatch e.now e.queued).2.1.settings = e.queued.toggled d.settings ∧
      (d.dispatch e.now e.queued).2.1.restrictions = d.restrictions := by
    rw [dispatch_eq]
    exact ⟨rfl, rfl⟩
  rw [turnOn, chosen_eq_heard hroster] at hadvisor hcalls
  -- Both hosts give the advisor the same turn.
  have hturn : o.turn roster index e =
      ({ o with
          advisor := ({ d with settings := e.queued.toggled d.settings }.turn e.now
            (Soloist.heard roster index o.advisor e.queued) o.advisor number).1
          settings := e.queued.toggled o.settings
          given := o.given.drop (numbers (d.callsOf index e)).length },
        d.callsOf index e) := by
    rw [hcalls]
    cases hq : Soloist.heard roster index o.advisor e.queued with
    | none => simp [Soloist.turn, Soloist.input?, hq, Dispatcher.turn]
    | some event =>
      -- They differ in the number alone.
      let shared := Surroundings.ofHost (e.queued.toggled d.settings) d.restrictions 0 e.now
      have hs : (o.advisor.step (shared.numbering (o.given.headD 0)) event) =
          o.advisor.step (shared.numbering number) event := by
        rw [hgiven, hcalls, hq]
        exact Advisor.step_numbering_headD shared o.advisor event number 0 rest
      have hi : o.input? roster index e = some ⟨shared.numbering (o.given.headD 0), event⟩ := by
        rw [Soloist.input?, hq, h.settings, h.restrictions]
        rfl
      rw [Soloist.turn, hi]
      simp only [hs]
      rfl
  rw [hturn]
  refine ⟨⟨hadvisor, ?_, ?_⟩, ?_, rfl⟩
  · rw [hd.1, h.settings]
  · rw [hd.2, h.restrictions]
  · rw [hgiven]
    exact List.drop_left

theorem Follows.after (h : Follows d index o) (hroster : d.advisors.map Advisor.identity = roster)
    (past : List Entry) (hgiven : o.given = d.numbersOf index past ++ rest) :
    Follows (d.after past) index (o.after roster index past) ∧
      (o.after roster index past).given = rest ∧
      o.callLog roster index past = d.callLog index past := by
  induction past generalizing rest with
  | nil => exact ⟨h, hgiven, rfl⟩
  | cons e past ih =>
    rw [numbersOf, List.append_assoc] at hgiven
    obtain ⟨hf, hnumbers, hlog⟩ := ih hgiven
    have hnow : (d.after past).advisors.map Advisor.identity = roster := by
      rw [after_roster, hroster]
    obtain ⟨hstep, hrest, hcalls⟩ := hf.turn hnow hnumbers
    refine ⟨hstep, hrest, ?_⟩
    rw [Soloist.callLog, Dispatcher.callLog, hlog, Soloist.callsOn, hcalls]

/-! ### The product -/

/-- Every advisor of the dispatcher is followed by the soloist at its place. -/
structure Product (d : Dispatcher) (roster : List Identity) (solo : Identity × Nat → Soloist) :
    Prop where
  listed : d.advisors.map Advisor.identity = roster
  follows : ∀ p ∈ roster.zipIdx, Follows d p.2 (solo p)

variable {solo : Identity × Nat → Soloist}

theorem Product.advisors (h : Product d roster solo) :
    d.advisors = roster.zipIdx.map fun p => (solo p).advisor := by
  have hlength : roster.length = d.advisors.length := by
    rw [← h.listed, List.length_map]
  apply List.ext_getElem?
  intro i
  by_cases hi : i < roster.length
  · have hp : (roster[i], i) ∈ roster.zipIdx := by
      rw [List.mem_zipIdx_iff_getElem?]
      exact List.getElem?_eq_getElem hi
    rw [(h.follows _ hp).advisor]
    simp [hi]
  · have hd : ¬ i < d.advisors.length := hlength ▸ hi
    simp [hi, hd]

/-- What an entry asks of the outside, place by place. -/
theorem dispatch_demands (hroster : d.advisors.map Advisor.identity = roster) (e : Entry) :
    (d.dispatch e.now e.queued).2.2 =
      dumped d.advisors e ++
        roster.zipIdx.flatMap fun p => (d.callsOf p.2 e).filterMap (demand? p.2 p.1.tag) := by
  have hplaces : (d.turns e).zipIdx.map (fun r => asked r.1 r.2) =
      roster.zipIdx.map fun p => (d.callsOf p.2 e).filterMap (demand? p.2 p.1.tag) := by
    apply List.ext_getElem?
    intro i
    obtain ⟨number, hn⟩ := getElem?_turns d e i
    subst roster
    cases ha : d.advisors[i]? with
    | none => simp [hn, ha]
    | some a => simp [hn, ha, asked, callsOf, turnOn, turn_identity]
  rw [dispatch_eq, List.flatMap_def, List.flatMap_def, hplaces]

theorem Product.after {past : List Entry} {rest : Identity × Nat → List NetworkId}
    (h : Product d roster solo)
    (hgiven : ∀ p ∈ roster.zipIdx, (solo p).given = d.numbersOf p.2 past ++ rest p) :
    Product (d.after past) roster fun p => (solo p).after roster p.2 past where
  listed := by rw [after_roster, h.listed]
  follows p hp := ((h.follows p hp).after h.listed past (hgiven p hp)).1

theorem Product.demands {past : List Entry} {rest : Identity × Nat → List NetworkId}
    (h : Product d roster solo)
    (hgiven : ∀ p ∈ roster.zipIdx, (solo p).given = d.numbersOf p.2 past ++ rest p) :
    d.demands past = Soloist.woven roster solo past := by
  induction past generalizing rest with
  | nil => rfl
  | cons e past ih =>
    -- What is left after `past` still holds the numbers of the entry `e`.
    have hpast : ∀ p ∈ roster.zipIdx, (solo p).given =
        d.numbersOf p.2 past ++ (numbers ((d.after past).callsOf p.2 e) ++ rest p) := by
      intro p hp
      rw [hgiven p hp, numbersOf, List.append_assoc]
    have hnow := h.after hpast
    have hcalls : ∀ p ∈ roster.zipIdx,
        (d.after past).callsOf p.2 e = (solo p).callsOn roster p.2 past e := by
      intro p hp
      have hlog := ((h.follows p hp).after h.listed (e :: past) (hgiven p hp)).2.2
      exact (List.cons.inj hlog).1.symm
    rw [Dispatcher.demands, Soloist.woven, ih hpast, dispatch_demands hnow.listed, hnow.advisors]
    congr 2
    apply List.flatMap_congr
    intro p hp
    rw [hcalls p hp]

/-! ### The start -/

theorem bind_eq_ok {α β ε : Type} {x : Except ε α} {f : α → Except ε β} {b : β}
    (h : (x >>= f) = .ok b) : ∃ a, x = .ok a ∧ f a = .ok b := by
  cases x with
  | error e => cases h
  | ok a => exact ⟨a, rfl, h⟩

theorem forall₂_of_mapM {α β ε : Type} {f : α → Except ε β} {as : List α} {bs : List β}
    (h : as.mapM f = .ok bs) : List.Forall₂ (fun a b => f a = .ok b) as bs := by
  induction as generalizing bs with
  | nil =>
    cases h
    exact .nil
  | cons a as ih =>
    rw [List.mapM_cons] at h
    obtain ⟨b, ha, h⟩ := bind_eq_ok h
    obtain ⟨rest, hrest, h⟩ := bind_eq_ok h
    cases h
    exact .cons ha (ih hrest)

variable {ε : Type} {config : Config} {opening : Millis} {load : Identity → Except ε Blocklist}
  {describe : ε → String}

theorem start_ok (h : Dispatcher.start config opening load describe = .ok d) :
    ∃ sets : Identity → Blocklist,
      (∀ identity ∈ config.advisors, load identity = .ok (sets identity)) ∧
        d.advisors = config.advisors.map (fun identity =>
          (Soloist.start config opening identity (sets identity) []).advisor) ∧
        d.settings = config.settings ∧ d.restrictions = config.restrictions.toRestrictions := by
  obtain ⟨as, hm, h⟩ := bind_eq_ok h
  cases h
  let sets (identity : Identity) : Blocklist := (load identity).toOption.getD ∅
  have hstarted : List.Forall₂
      (fun identity a => load identity = .ok (sets identity) ∧
        (Soloist.start config opening identity (sets identity) []).advisor = a)
      config.advisors as := by
    refine (forall₂_of_mapM hm).imp ?_
    intro identity a ha
    cases hload : load identity with
    | error e => simp [hload] at ha
    | ok set =>
      have hset : sets identity = set := by simp [sets, hload, Except.toOption]
      rw [hload] at ha
      rw [hset]
      exact ⟨rfl, Except.ok.inj ha⟩
  obtain ⟨hsets, has⟩ := (List.forall₂_and_left _ _).mp hstarted
  rw [← List.forall₂_map_left_iff, List.forall₂_eq_eq_eq] at has
  exact ⟨sets, hsets, has.symm, rfl, rfl⟩

theorem product_of_start {sets : Identity → Blocklist}
    (hadvisors : d.advisors = config.advisors.map (fun identity =>
      (Soloist.start config opening identity (sets identity) []).advisor))
    (hsettings : d.settings = config.settings)
    (hrestrictions : d.restrictions = config.restrictions.toRestrictions)
    (given : Identity × Nat → List NetworkId) :
    Product d config.advisors fun p =>
      Soloist.start config opening p.1 (sets p.1) (given p) where
  listed := by
    have hidentity (identity : Identity) :
        (Soloist.start config opening identity (sets identity) []).advisor.identity = identity := by
      simp only [Soloist.start, Advisor.start_identity]
    rw [hadvisors, List.map_map]
    simp [Function.comp_def, hidentity]
  follows p hp := by
    rw [List.mem_zipIdx_iff_getElem?] at hp
    refine ⟨?_, hsettings.symm, hrestrictions.symm⟩
    rw [hadvisors, List.getElem?_map, hp]
    rfl

/-- In every run, the advisors of a dispatcher are where soloists are that loaded the same sets
and are given the numbers which the shared host handed out; each makes the calls of its soloist,
and what the run asks of the outside is what the soloists ask, woven together. -/
theorem product_of_soloists (h : Dispatcher.start config opening load describe = .ok d)
    (past : List Entry) :
    ∃ sets : Identity → Blocklist,
      (∀ identity ∈ config.advisors, load identity = .ok (sets identity)) ∧
      let solo (p : Identity × Nat) : Soloist :=
        .start config opening p.1 (sets p.1) (d.numbersOf p.2 past)
      let roster := config.advisors
      (d.after past).advisors = roster.zipIdx.map (fun p =>
        (solo p).advisor.after ((solo p).inputs roster p.2 past)) ∧
      (∀ p ∈ roster.zipIdx,
        (d.callLog p.2 past).flatten =
            ((solo p).advisor.log ((solo p).inputs roster p.2 past)).flatten ∧
          ((solo p).after roster p.2 past).given = []) ∧
      d.demands past = Soloist.woven roster solo past := by
  obtain ⟨sets, hsets, hadvisors, hsettings, hrestrictions⟩ := start_ok h
  refine ⟨sets, hsets, ?_⟩
  intro solo roster
  have hproduct : Product d roster solo :=
    product_of_start hadvisors hsettings hrestrictions fun p => d.numbersOf p.2 past
  have hgiven : ∀ p ∈ roster.zipIdx, (solo p).given = d.numbersOf p.2 past ++ [] := by
    intro p _
    exact (List.append_nil _).symm
  refine ⟨?_, ?_, hproduct.demands hgiven⟩
  · simp only [(hproduct.after hgiven).advisors, Soloist.after_advisor]
  · intro p hp
    obtain ⟨-, hrest, hlog⟩ := (hproduct.follows p hp).after hproduct.listed past (hgiven p hp)
    rw [← hlog, Soloist.callLog_flatten]
    exact ⟨rfl, hrest⟩

namespace Arcade

/-- Two advisors that answer to one tag and share a stored set. -/
def twins : Config :=
  { advisors := [.openNetworks, { Identity.openNetworks with slot := 18 }] }

def host : Dispatcher where
  advisors := twins.advisors.map fun identity =>
    (Advisor.start (.permissive 0) identity {} true (.ok ∅)).1
  settings := ∅
  restrictions := Restrictions.none
  nextNetwork := 1

def evening : List Entry :=
  [⟨30, .feed (.action none .connect)⟩,
    ⟨20, .feed (.scan none [.ofSignal "arcade" (-40)])⟩,
    ⟨10, .feed (.screen true)⟩]

end Arcade

open Arcade in
/-- Both advisors connect; the host gives them different numbers. -/
theorem product_of_twins :
    Dispatcher.start twins 0 (fun _ => Except.ok ∅) id = .ok host ∧
      host.numbersOf 0 evening = [1] ∧ host.numbersOf 1 evening = [2] ∧
      ∃ sets : Identity → Blocklist, (∀ identity ∈ twins.advisors, sets identity = ∅) ∧
        host.demands evening = Soloist.woven twins.advisors
          (fun p => .start twins 0 p.1 (sets p.1) (host.numbersOf p.2 evening)) evening := by
  have hstart : Dispatcher.start twins 0 (fun _ => Except.ok ∅) id = .ok host := rfl
  obtain ⟨sets, hsets, -, -, hdemands⟩ := product_of_soloists hstart evening
  refine ⟨hstart, by decide +kernel, by decide +kernel, sets, ?_, hdemands⟩
  intro identity hi
  exact (Except.ok.inj (hsets identity hi)).symm

end Dispatcher

end WifiAdvisor

import WifiAdvisor.Proofs.Loop

/-!
# Lines that hold no event

Blank lines, comments and lines that nobody can read leave no trace, and neither do blanks about a
line: a loop over the lines without them can do the same as before, with the same events left to
read at every step.
-/
namespace WifiAdvisor

/-! ### Blanks about a text -/

namespace Text

theorem trim_pad {front back : List Char} (hfront : ∀ c ∈ front, isBlank c)
    (hback : ∀ c ∈ back, isBlank c) (cs : List Char) :
    trim (front ++ cs ++ back) = trim cs := by
  have hreverse : ∀ c ∈ back.reverse, isBlank c := by
    intro c hc
    exact hback c (List.mem_reverse.mp hc)
  rw [trim, trim, List.append_assoc, List.dropWhile_append_of_pos hfront, List.dropWhile_append]
  cases hcs : (cs.dropWhile isBlank).isEmpty with
  | true =>
    have hnone : (back ++ []).dropWhile isBlank = [].dropWhile isBlank :=
      List.dropWhile_append_of_pos hback
    rw [List.append_nil] at hnone
    rw [if_pos rfl, hnone, List.isEmpty_iff.mp hcs]
    rfl
  | false =>
    rw [if_neg Bool.false_ne_true, List.reverse_append, List.dropWhile_append_of_pos hreverse]

theorem trim_blank {cs : List Char} (h : ∀ c ∈ cs, isBlank c) : trim cs = [] := by
  have hpad := trim_pad h (List.forall_mem_nil _) []
  rw [List.append_nil, List.append_nil] at hpad
  exact hpad

end Text

namespace Feed

/-- Lines, and what is left of them without those that hold no event, some set off with blanks. -/
inductive Tidied : List String → List String → Prop where
  | nil : Tidied [] []
  | pad (line : String) {front back : List Char} {lines tidied : List String} :
      (∀ c ∈ front, Text.isBlank c) → (∀ c ∈ back, Text.isBlank c) → Tidied lines tidied →
      Tidied (line :: lines) (String.ofList (front ++ line.toList ++ back) :: tidied)
  | blank {line : String} {lines tidied : List String} :
      (∀ c ∈ line.toList, Text.isBlank c) → Tidied lines tidied → Tidied (line :: lines) tidied
  | comment {line : String} {text : List Char} {lines tidied : List String} :
      Text.trim line.toList = '#' :: text → Tidied lines tidied → Tidied (line :: lines) tidied
  | malformed {line : String} {e : Document.DecodeError} {lines tidied : List String} :
      parseLine line = .error e → Tidied lines tidied → Tidied (line :: lines) tidied

theorem parseLine_pad {front back : List Char} (hfront : ∀ c ∈ front, Text.isBlank c)
    (hback : ∀ c ∈ back, Text.isBlank c) (line : String) :
    parseLine (String.ofList (front ++ line.toList ++ back)) = parseLine line := by
  rw [parseLine, String.toList_ofList, Text.trim_pad hfront hback]
  rfl

theorem Tidied.events_eq {lines tidied : List String} (h : Tidied lines tidied) :
    events tidied = events lines := by
  have hvoid {line : String} (hline : event? line = none) (rest : List String) :
      events (line :: rest) = events rest := by
    rw [events_cons, hline]
    rfl
  induction h with
  | nil => rfl
  | pad line hfront hback _ ih =>
    rw [events_cons, events_cons, event?, event?, parseLine_pad hfront hback, ih]
  | blank hblank _ ih =>
    refine ih.trans (hvoid ?_ _).symm
    rw [event?, parseLine, Text.trim_blank hblank]
  | comment htext _ ih =>
    refine ih.trans (hvoid ?_ _).symm
    rw [event?, parseLine, htext]
    rfl
  | malformed herror _ ih =>
    refine ih.trans (hvoid ?_ _).symm
    rw [event?, herror]

/-! ### A loop over other lines -/

variable {pace : Pace} {linger : Nat}

/-- The reader comes to a line with an event, or to the end. -/
theorem skips {l : Loop} (hreader : l.reader = .reading) (unread : List String) :
    (∃ line rest e, Reaches pace linger { l with unread } { l with unread := line :: rest } ∧
      event? line = some e ∧ events unread = e :: events rest) ∨
    Reaches pace linger { l with unread } { l with unread := [] } ∧ events unread = [] := by
  induction unread with
  | nil => exact .inr ⟨.refl, rfl⟩
  | cons line rest ih =>
    rw [events_cons]
    cases hevent : event? line with
    | some e => exact .inl ⟨line, rest, e, .refl, hevent, rfl⟩
    | none =>
      have hskip : Step pace linger { l with unread := line :: rest } _ :=
        .skip line rest hreader rfl hevent
      rcases ih with ⟨next, left, e, hnext, hevent, hevents⟩ | ⟨hend, hevents⟩
      · exact .inl ⟨next, left, e, .head hskip hnext, hevent, hevents⟩
      · exact .inr ⟨.head hskip hend, hevents⟩

/-- The reader comes to a line with the event that is first. -/
theorem finds {l : Loop} (hreader : l.reader = .reading) {unread : List String} {e : Event}
    {es : List Event} (hevents : events unread = e :: es) :
    ∃ line rest, Reaches pace linger { l with unread } { l with unread := line :: rest } ∧
      event? line = some e ∧ events rest = es := by
  rcases skips hreader unread with ⟨line, rest, x, hreaches, hevent, hx⟩ | ⟨-, hnone⟩
  · obtain ⟨rfl, rfl⟩ := List.cons.inj (hx.symm.trans hevents)
    exact ⟨line, rest, hreaches, hevent, rfl⟩
  · rw [hevents] at hnone
    cases hnone

theorem Step.rereads {l m : Loop} (h : Step pace linger l m) {unread : List String}
    (hevents : events unread = events l.unread) :
    ∃ left, Reaches pace linger { l with unread } { m with unread := left } ∧
      events left = events m.unread := by
  cases h with
  | skip line rest hreader hunread hevent =>
    -- The same events are left, so the other loop can stay where it is.
    refine ⟨unread, .refl, ?_⟩
    rw [hevents, hunread, events_cons, hevent]
    rfl
  | pause line rest ms hreader hunread hevent =>
    rw [hunread, events_cons, hevent] at hevents
    obtain ⟨found, left, hfound, hevent, hleft⟩ := finds hreader hevents
    exact ⟨left, hfound.tail (.pause found left ms hreader rfl hevent), hleft⟩
  | send line rest e hreader hunread hevent he =>
    rw [hunread, events_cons, hevent] at hevents
    obtain ⟨found, left, hfound, hevent, hleft⟩ := finds hreader hevents
    exact ⟨left, hfound.tail (.send found left e hreader rfl hevent he), hleft⟩
  | linger hreader hunread =>
    rw [hunread] at hevents
    rcases skips hreader unread with ⟨line, rest, e, -, -, hsome⟩ | ⟨hend, -⟩
    · cases hsome.symm.trans hevents
    · exact ⟨[], hend.tail (.linger hreader rfl), congrArg events hunread.symm⟩
  | wake due hreader hdue => exact ⟨unread, .single (.wake due hreader hdue), hevents⟩
  | close due hreader hdue => exact ⟨unread, .single (.close due hreader hdue), hevents⟩
  | ring front a back halarms hdue =>
    exact ⟨unread, .single (.ring front a back halarms hdue), hevents⟩
  | handle p rest hrunning hqueue =>
    exact ⟨unread, .single (.handle p rest hrunning hqueue), hevents⟩
  | pass ms hidle => exact ⟨unread, .single (.pass ms fun h => { hidle h with }), hevents⟩

theorem Reaches.rereads {l m : Loop} (h : Reaches pace linger l m) {unread : List String}
    (hevents : events unread = events l.unread) :
    ∃ left, Reaches pace linger { l with unread } { m with unread := left } ∧
      events left = events m.unread := by
  induction h with
  | refl => exact ⟨unread, .refl, hevents⟩
  | tail _ hstep ih =>
    obtain ⟨before, hreaches, hbefore⟩ := ih
    obtain ⟨left, hstep, hleft⟩ := hstep.rereads hbefore
    exact ⟨left, hreaches.trans hstep, hleft⟩

/-- What may have been put out when the loop stops. -/
def Outcome (pace : Pace) (linger : Nat) (origin : Millis) (d : Dispatcher) (lines : List String)
    (records : List Record) : Prop :=
  ∃ l, Reaches pace linger (Loop.start origin d lines) l ∧ l.running = false ∧
    l.timeline.records = records

theorem Outcome.rereads {origin : Millis} {d : Dispatcher} {lines others : List String}
    {records : List Record} (h : Outcome pace linger origin d lines records)
    (hevents : events others = events lines) : Outcome pace linger origin d others records := by
  obtain ⟨l, hreaches, hstopped, hrecords⟩ := h
  obtain ⟨left, hother, -⟩ := hreaches.rereads hevents
  exact ⟨{ l with unread := left }, hother, hstopped, hrecords⟩

theorem run_congr {lines others : List String} (hevents : events others = events lines)
    (interrupt : Option Nat) (t : Timeline) :
    run interrupt linger t others = run interrupt linger t lines := by
  rw [run, run, hevents]

end Feed

end WifiAdvisor

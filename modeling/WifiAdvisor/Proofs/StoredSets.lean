import WifiAdvisor.Proofs.Reopening
import WifiAdvisor.Proofs.Table
import WifiAdvisor.Store.Memory

/-!
# A database in use is a map of sets

Whatever is asked of a database that began empty, and however often it is closed and opened again in
between, its answers are those of a map from keys to sets; on what advisors ask of a store they are
the answers of a store in memory.
-/
namespace WifiAdvisor.Store

/-- What an advisor asks of its store. -/
inductive Access where
  | load (key : String)
  | save (now : Millis) (key : String) (ssids : Blocklist)

inductive Request where
  | access (access : Access)
  | remove (key ssid : String)
  | clear (key : String)
  | keys
  | reopen

inductive Answer where
  | done
  | holds (ssids : Blocklist)
  | removed (found : Bool)
  | cleared (count : Nat)
  | keys (keys : List String)
  deriving DecidableEq

/-! ### The map of sets -/

/-- The sets after a request. A key that was never saved holds the empty set. -/
def revised (sets : String → Blocklist) : Request → String → Blocklist
  | .access (.save _ key ssids) => Function.update sets key ssids
  | .remove key ssid => Function.update sets key ((sets key).erase ssid)
  | .clear key => Function.update sets key ∅
  | _ => sets

/-- The answer tells the truth about the sets. -/
def Fits (sets : String → Blocklist) : Request → Answer → Prop
  | .access (.load key), .holds ssids => ssids = sets key
  | .access (.save _ _ _), .done => True
  | .remove key ssid, .removed found => found = true ↔ ssid ∈ sets key
  | .clear key, .cleared count => count = (sets key).size
  | .keys, .keys keys => keys.Pairwise (· < ·) ∧ ∀ key, key ∈ keys ↔ sets key ≠ ∅
  | .reopen, .done => True
  | _, _ => False

/-- Every request is answered, and the answers fit the sets as they are by then. -/
inductive Agrees : (String → Blocklist) → List Request → List (Except StoreFailure Answer) → Prop
  | nil (sets : String → Blocklist) : Agrees sets [] []
  | cons {sets : String → Blocklist} {r : Request} {rest : List Request} {answer : Answer}
      {answers : List (Except StoreFailure Answer)} : Fits sets r answer →
      Agrees (revised sets r) rest answers → Agrees sets (r :: rest) (.ok answer :: answers)

def Memory.perform (m : Memory) : Access → Answer × Memory
  | .load key => (.holds (m.load key), m)
  | .save _ key ssids => (.done, m.save key ssids)

def Memory.answers (m : Memory) : List Access → List Answer
  | [] => []
  | a :: rest => (m.perform a).1 :: (m.perform a).2.answers rest

/-! ### A database in use -/

/-- An open database, and the files of its host. -/
structure OpenFile where
  files : FileTree
  database : Database

namespace OpenFile

/-- Writes changed rows to the file before the answer is given. -/
def write (s : OpenFile) (rows : Rows) (answer : Answer) : Except StoreFailure Answer × OpenFile :=
  match s.database.write rows with
  | .ok database => (.ok answer, { files := s.files.keep database, database })
  | .error e => (.error e, s)

def save (s : OpenFile) (now : Millis) (key : String) (ssids : Blocklist) :
    Except StoreFailure Answer × OpenFile :=
  match s.database.rows.replaceSet now key ssids with
  | .ok rows => s.write rows .done
  | .error e => (.error e, s)

def reopen (name : String) (s : OpenFile) : Except StoreFailure Answer × OpenFile :=
  let opened := s.files.openDatabase name
  match opened.2 with
  | .ok database => (.ok .done, { files := opened.1, database })
  | .error e => (.error e, { s with files := opened.1 })

/-- Does what is requested; `name` is what the database was opened under. -/
def perform (name : String) (s : OpenFile) : Request → Except StoreFailure Answer × OpenFile
  | .access (.load key) => (.ok (.holds (s.database.rows.loadSet key)), s)
  | .access (.save now key ssids) => s.save now key ssids
  | .remove key ssid =>
    let removed := s.database.rows.removeMember key ssid
    s.write removed.2 (.removed removed.1)
  | .clear key =>
    let cleared := s.database.rows.clearSet key
    s.write cleared.2 (.cleared cleared.1)
  | .keys => (.ok (.keys s.database.rows.keys), s)
  | .reopen => s.reopen name

def after (name : String) (s : OpenFile) : List Request → OpenFile
  | [] => s
  | r :: rest => (s.perform name r).2.after name rest

def answers (name : String) (s : OpenFile) : List Request → List (Except StoreFailure Answer)
  | [] => []
  | r :: rest => (s.perform name r).1 :: (s.perform name r).2.answers name rest

variable {name : String} {s : OpenFile} {sets : String → Blocklist} {again : Prop} {rows : Rows}

/-- The database holds the sets and takes changes; if it is ever to be opened `again`, its name
leads to it. -/
structure Holds (name : String) (again : Prop) (s : OpenFile) (sets : String → Blocklist) :
    Prop where
  writable : s.database.writable = true
  unique : s.database.rows.Unique
  sets : s.database.rows.loadSet = sets
  found : again → ∃ a p, s.files.Leads name a p ∧ a.isWritable = true ∧ s.database.place = some p ∧
    s.files.node? p = some (.database s.database.rows)

theorem Holds.write (h : Holds name again s sets) (answer : Answer) {revised : String → Blocklist}
    (hunique : rows.Unique) (hsets : rows.loadSet = revised) :
    ∃ u, s.write rows answer = (.ok answer, u) ∧ Holds name again u revised := by
  refine ⟨⟨s.files.keep { s.database with rows }, { s.database with rows }⟩, ?_, ?_⟩
  · simp [OpenFile.write, Database.write, h.writable]
  · refine ⟨h.writable, hunique, hsets, fun hagain => ?_⟩
    obtain ⟨a, p, hleads, ha, hplace, hnode⟩ := h.found hagain
    have hkeep : s.files.keep { s.database with rows } = s.files.put p (.database rows) := by
      simp [FileTree.keep, hplace]
    rw [hkeep]
    exact ⟨a, p, hleads.put hnode rows, ha, hplace,
      FileTree.node?_put_self (by rw [hnode]; simp) _⟩

theorem save_ok {now : Millis} {key : String} {ssids : Blocklist}
    (h : s.database.rows.replaceSet now key ssids = .ok rows) :
    s.save now key ssids = s.write rows .done := by
  unfold save
  rw [h]

theorem Holds.reopen (h : Holds name again s sets) (hagain : again) :
    s.reopen name = (.ok .done, s) := by
  obtain ⟨a, p, hleads, ha, hplace, hnode⟩ := h.found hagain
  have hopen := hleads.openDatabase hnode
  rw [ha, ← hplace, ← h.writable] at hopen
  delta reopen
  rw [hopen]

theorem Holds.perform (h : Holds name again s sets) (r : Request) (hr : r = .reopen → again) :
    ∃ answer, (s.perform name r).1 = .ok answer ∧ Fits sets r answer ∧
      Holds name again (s.perform name r).2 (revised sets r) := by
  obtain rfl := h.sets
  cases r with
  | access access =>
    cases access with
    | load key => exact ⟨_, rfl, rfl, h⟩
    | save now key ssids =>
      obtain ⟨rows, hrows, hunique, hsets⟩ := h.unique.replaceSet now key ssids
      obtain ⟨u, hwrite, hu⟩ := h.write .done hunique hsets
      have hsave : s.save now key ssids = (.ok .done, u) := (save_ok hrows).trans hwrite
      have hstep : s.perform name (.access (.save now key ssids)) = (.ok .done, u) := hsave
      rw [hstep]
      exact ⟨.done, rfl, trivial, hu⟩
  | remove key ssid =>
    have hfound := s.database.rows.removeMember_found key ssid
    obtain ⟨u, hwrite, hu⟩ := h.write
      (.removed (s.database.rows.removeMember key ssid).1)
      (h.unique.removeMember key ssid) (s.database.rows.loadSet_removeMember key ssid)
    have hstep : s.perform name (.remove key ssid) = (.ok (.removed _), u) := hwrite
    rw [hstep]
    refine ⟨_, rfl, ?_, hu⟩
    rw [Fits, hfound, Blocklist.contains_iff]
  | clear key =>
    obtain ⟨u, hwrite, hu⟩ := h.write (.cleared (s.database.rows.clearSet key).1)
      (h.unique.clearSet key) (s.database.rows.loadSet_clearSet key)
    have hstep : s.perform name (.clear key) = (.ok (.cleared _), u) := hwrite
    rw [hstep]
    exact ⟨_, rfl, h.unique.clearSet_count key, hu⟩
  | keys => exact ⟨_, rfl, ⟨Rows.keys_ascending _, fun key => Rows.mem_keys⟩, h⟩
  | reopen =>
    have hstep : s.perform name .reopen = (.ok .done, s) := h.reopen (hr rfl)
    rw [hstep]
    exact ⟨.done, rfl, trivial, h⟩

theorem Holds.run {requests : List Request} (h : Holds name again s sets)
    (hr : .reopen ∈ requests → again) :
    Agrees sets requests (s.answers name requests) ∧
      Holds name again (s.after name requests) (requests.foldl revised sets) := by
  induction requests generalizing s sets with
  | nil => exact ⟨.nil sets, h⟩
  | cons r rest ih =>
    obtain ⟨answer, hanswer, hfits, hnext⟩ := h.perform r fun he => hr (he ▸ List.mem_cons_self)
    obtain ⟨hagrees, hafter⟩ := ih hnext fun hmem => hr (List.mem_cons_of_mem _ hmem)
    refine ⟨?_, hafter⟩
    rw [answers, hanswer]
    exact .cons hfits hagrees

/-- A store in memory that holds the same sets gives the same answers. -/
theorem Holds.answers_eq {m : Memory} (h : Holds name again s sets)
    (hm : ∀ key, m.load key = sets key) (accesses : List Access) :
    s.answers name (accesses.map .access) = (m.answers accesses).map .ok := by
  induction accesses generalizing s sets m with
  | nil => rfl
  | cons access rest ih =>
    obtain ⟨answer, hanswer, hfits, hnext⟩ := h.perform (.access access) (by simp)
    have hsame : answer = (m.perform access).1 := by
      cases access <;> cases answer <;> simp_all [Fits, Memory.perform]
    have hrest : ∀ key, (m.perform access).2.load key = revised sets (.access access) key := by
      intro key
      cases access with
      | load other => exact hm key
      | save now other ssids =>
        by_cases hk : key = other
        · subst key
          simp [Memory.perform, revised]
        · simp [Memory.perform, revised, Memory.load_save_of_ne m hk, Function.update_of_ne hk, hm]
    rw [List.map_cons, answers, Memory.answers, List.map_cons, hanswer, hsame, ih hnext hrest]

end OpenFile

theorem Rows.holds_empty {rows : Rows} (h : rows = {}) :
    rows.Unique ∧ rows.loadSet = fun _ => ∅ := by
  subst h
  exact ⟨List.nodup_nil, rfl⟩

/-- A database that was opened empty answers every list of requests as a map of sets does that
begins with none: so it answers each of them, which it could not if an insertion hit a row. No two
rows ever share their key and name; and what advisors ask of it is answered as a store in memory
answers it. Between requests it may be closed and opened again, if it is in a file at all. -/
theorem rows_refine_sets {files opened : FileTree} {name : String} {database : Database}
    (hopen : files.openDatabase name = (opened, .ok database))
    (hempty : database.rows = {}) (hwritable : database.writable = true) (requests : List Request)
    (hagain : .reopen ∈ requests → database.place ≠ none ∧ opened.LeadsBack name database) :
    let s : OpenFile := { files := opened, database }
    Agrees (fun _ => ∅) requests (s.answers name requests) ∧
      (s.after name requests).database.rows.Unique ∧
      ∀ accesses : List Access, s.answers name (accesses.map .access) =
        (({} : Memory).answers accesses).map .ok := by
  intro s
  obtain ⟨hunique, hsets⟩ := Rows.holds_empty hempty
  have hholds : s.Holds name (.reopen ∈ requests) fun _ => ∅ := by
    refine ⟨hwritable, hunique, hsets, fun hr => ?_⟩
    obtain ⟨hplace, hback⟩ := hagain hr
    obtain ⟨p, hp⟩ := Option.ne_none_iff_exists'.mp hplace
    obtain ⟨a, hleads, hnode, ha⟩ := FileTree.leads_of_open hopen hp hback
    exact ⟨a, p, hleads, ha ▸ hwritable, hp, hnode⟩
  obtain ⟨hagrees, hafter⟩ := hholds.run id
  exact ⟨hagrees, hafter.unique, hholds.answers_eq fun _ => rfl⟩

namespace Cellar

def name : String := "/wifi/blocklist.db"

def files : FileTree := (({} : FileTree).openDatabase name).1

/-- Two sets change in turn, and the database is closed in the middle. -/
def requests : List Request :=
  [.access (.save 10 "open" (.ofList ["cafe", "harbour"])),
    .access (.save 20 "carrier" (.ofList ["cafe"])),
    .remove "open" "cafe", .reopen, .remove "open" "cafe", .clear "carrier", .keys,
    .access (.load "open")]

end Cellar

open Cellar in
theorem rows_refine_sets_reopened :
    let s : OpenFile := { files, database := { place := some ["wifi", "blocklist.db"] } }
    ({} : FileTree).openDatabase name = (files, .ok s.database) ∧ files.LeadsBack name s.database ∧
      s.answers name requests = [.ok .done, .ok .done, .ok (.removed true), .ok .done,
        .ok (.removed false), .ok (.cleared 1), .ok (.keys ["open"]),
        .ok (.holds (.ofList ["harbour"]))] ∧
      Agrees (fun _ => ∅) requests (s.answers name requests) := by
  intro s
  have hopen : ({} : FileTree).openDatabase name = (files, .ok s.database) := rfl
  have hback : files.LeadsBack name s.database := .inl rfl
  have hrefines := rows_refine_sets hopen rfl rfl requests fun _ => ⟨Option.some_ne_none _, hback⟩
  exact ⟨hopen, hback, by decide +kernel, hrefines.1⟩

end WifiAdvisor.Store

import WifiAdvisor.Program
import WifiAdvisor.Proofs.Table

/-!
# A listing read back

A listing has a line for each name in each set: the key, a tab and the name. It is read back by
taking the key up to the first tab and the name up to the first line feed. That gives the entries of
the store as long as no key holds a tab and no name a line feed; a name that does hold one spells
the lines of entries that are not there.
-/
namespace WifiAdvisor

namespace Store.Rows

variable {t u : Rows} {key ssid : String}

/-- No key holds a tab, and no name a line feed. -/
def Legible (t : Rows) : Prop := ∀ r ∈ t.rows, '\t' ∉ r.key.toList ∧ '\n' ∉ r.ssid.toList

instance (t : Rows) : Decidable t.Legible :=
  inferInstanceAs (Decidable (∀ r ∈ t.rows, '\t' ∉ r.key.toList ∧ '\n' ∉ r.ssid.toList))

theorem mem_listing : (key, ssid) ∈ t.listing t.keys ↔ ssid ∈ t.loadSet key := by
  have hkey : ssid ∈ t.loadSet key → key ∈ t.keys := by
    intro h
    refine mem_keys.mpr fun hempty => ?_
    rw [hempty] at h
    exact Blocklist.not_mem_empty _ h
  simp only [listing, List.mem_flatMap, List.mem_map, Prod.mk.injEq, Blocklist.mem_toList]
  constructor
  · rintro ⟨_, -, _, h, rfl, rfl⟩
    exact h
  · intro h
    exact ⟨key, hkey h, ssid, h, rfl, rfl⟩

theorem Legible.of_mem_listing (h : t.Legible) {entry : String × String}
    (hentry : entry ∈ t.listing t.keys) : '\t' ∉ entry.1.toList ∧ '\n' ∉ entry.2.toList := by
  obtain ⟨r, hr, hkey, hssid⟩ := mem_loadSet.mp (mem_listing.mp hentry)
  rw [← hkey, ← hssid]
  exact h r hr

theorem keys_eq_of_loadSet (h : t.loadSet = u.loadSet) : t.keys = u.keys := by
  have hsame : Blocklist.ofList (t.rows.map Row.key) = Blocklist.ofList (u.rows.map Row.key) := by
    refine Blocklist.eq_of_mem_iff fun key => ?_
    have ht : key ∈ Blocklist.ofList (t.rows.map Row.key) ↔ t.loadSet key ≠ ∅ := mem_keys
    have hu : key ∈ Blocklist.ofList (u.rows.map Row.key) ↔ u.loadSet key ≠ ∅ := mem_keys
    rw [ht, hu, h]
  exact congrArg Blocklist.toList hsame

end Store.Rows

namespace Listing

variable {part l rest : List Char} {key : Option String}

/-- What ends a key, and what ends the name that follows one. -/
def mark : Option String → Char
  | none => '\t'
  | some _ => '\n'

/-- The entries on from within a key, or within the name that follows a key; `part` of it has been
read. -/
def entriesFrom (key : Option String) (part : List Char) : List Char → List (String × String)
  | [] => []
  | c :: rest =>
    if c = mark key then
      match key with
      | none => entriesFrom (some (String.ofList part)) [] rest
      | some key => (key, String.ofList part) :: entriesFrom none [] rest
    else entriesFrom key (part ++ [c]) rest

/-- The entries that a listing shows. -/
def entries (text : String) : List (String × String) := entriesFrom none [] text.toList

theorem entriesFrom_append (h : mark key ∉ l) :
    entriesFrom key part (l ++ rest) = entriesFrom key (part ++ l) rest := by
  induction l generalizing part with
  | nil => rw [List.nil_append, List.append_nil]
  | cons c l ih =>
    rw [List.mem_cons, not_or] at h
    have hread : entriesFrom key part (c :: (l ++ rest)) =
        entriesFrom key (part ++ [c]) (l ++ rest) := by
      rw [entriesFrom.eq_def]
      exact if_neg (Ne.symm h.1)
    rw [List.cons_append, hread, ih h.2, List.append_assoc, List.singleton_append]

theorem entriesFrom_line {key ssid : String} (hkey : '\t' ∉ key.toList)
    (hssid : '\n' ∉ ssid.toList) :
    entriesFrom none [] ((Program.line (key ++ "\t" ++ ssid)).toList ++ rest) =
      (key, ssid) :: entriesFrom none [] rest := by
  have htext : (Program.line (key ++ "\t" ++ ssid)).toList ++ rest =
      key.toList ++ '\t' :: (ssid.toList ++ '\n' :: rest) := by
    simp [Program.line]
  have hname : entriesFrom (some key) [] (ssid.toList ++ '\n' :: rest) =
      (key, ssid) :: entriesFrom none [] rest := by
    rw [entriesFrom_append hssid]
    simp [entriesFrom, mark]
  rw [htext, entriesFrom_append hkey, ← hname]
  simp [entriesFrom, mark]

theorem entries_lines {es : List (String × String)}
    (h : ∀ e ∈ es, '\t' ∉ e.1.toList ∧ '\n' ∉ e.2.toList) :
    entries (String.join (es.map fun (key, ssid) => Program.line (key ++ "\t" ++ ssid))) = es := by
  induction es with
  | nil => rfl
  | cons e es ih =>
    obtain ⟨⟨hkey, hssid⟩, hes⟩ := List.forall_mem_cons.mp h
    rw [List.map_cons, String.join_cons, entries, String.toList_append]
    exact (entriesFrom_line hkey hssid).trans (congrArg _ (ih hes))

theorem entries_listing {t : Store.Rows} (h : t.Legible) :
    entries (Program.listing none t) = t.listing t.keys :=
  entries_lines fun _ => h.of_mem_listing

theorem mem_entries_listing {t : Store.Rows} (h : t.Legible) {key ssid : String} :
    (key, ssid) ∈ entries (Program.listing none t) ↔ ssid ∈ t.loadSet key := by
  rw [entries_listing h, Store.Rows.mem_listing]

theorem loadSet_eq_of_listing {t u : Store.Rows} (ht : t.Legible) (hu : u.Legible)
    (h : Program.listing none t = Program.listing none u) : t.loadSet = u.loadSet := by
  funext key
  refine Blocklist.eq_of_mem_iff fun ssid => ?_
  rw [← mem_entries_listing ht, h, mem_entries_listing hu]

theorem listing_eq_of_loadSet {t u : Store.Rows} (h : t.loadSet = u.loadSet) :
    Program.listing none t = Program.listing none u := by
  have hentries : t.listing t.keys = u.listing u.keys := by
    rw [Store.Rows.keys_eq_of_loadSet h, Store.Rows.listing, Store.Rows.listing, h]
  rw [Program.listing, Program.listing, hentries]

end Listing

namespace Program

variable {w v : World} {name other : String} {opened reopened : FileTree} {d e : Database}

theorem command_list (config : Config) (key : Option String)
    (hopen : w.files.openDatabase name = (opened, .ok d)) :
    (command w config name (.list key)).2 = .ok (listing key d.rows) := by
  delta command withStore
  dsimp only
  rw [hopen]

/-- What is printed of all keys of two stores, in which no key holds a tab and no name a line feed:
each of the texts shows just the entries of its store, and they are the same if and only if the
stores have the same keys and the same set under each. -/
theorem listing_shows_store (config settings : Config)
    (hopen : w.files.openDatabase name = (opened, .ok d))
    (hreopen : v.files.openDatabase other = (reopened, .ok e))
    (hd : d.rows.Legible) (he : e.rows.Legible) :
    ∃ text retext, (command w config name (.list none)).2 = .ok text ∧
      (command v settings other (.list none)).2 = .ok retext ∧
      (∀ key ssid, (key, ssid) ∈ Listing.entries text ↔ ssid ∈ d.rows.loadSet key) ∧
      (text = retext ↔ d.rows.keys = e.rows.keys ∧ d.rows.loadSet = e.rows.loadSet) := by
  refine ⟨_, _, command_list config none hopen, command_list settings none hreopen, ?_, ?_⟩
  · exact fun key ssid => Listing.mem_entries_listing hd
  · constructor
    · intro h
      have hsets := Listing.loadSet_eq_of_listing hd he h
      exact ⟨Store.Rows.keys_eq_of_loadSet hsets, hsets⟩
    · rintro ⟨-, hsets⟩
      exact Listing.listing_eq_of_loadSet hsets

namespace Depot

def path : String := "/depot/blocklist.db"

def files (rows : Store.Rows) : FileTree :=
  (({} : FileTree).openDatabase path).1.put ["depot", "blocklist.db"] (.database rows)

/-- A host with a database of these rows. -/
def world (rows : Store.Rows) : World :=
  { environment := {}, now := 0, input := [], files := files rows }

def database (rows : Store.Rows) : Database := { place := some ["depot", "blocklist.db"], rows }

theorem opens (rows : Store.Rows) :
    (world rows).files.openDatabase path = (files rows, .ok (database rows)) := rfl

/-- The key of the open networks. -/
def key : String := Identity.openNetworks.storeKey

/-- Two networks. -/
def pair : Store.Rows := ⟨[⟨key, "a", 0⟩, ⟨key, "b", 0⟩]⟩

/-- A network whose name holds a tab. -/
def tabbed : Store.Rows := ⟨[⟨key, "a\tb", 0⟩]⟩

/-- A network whose name, of 32 bytes, spells the end of its own line and the line of another. -/
def forged : Store.Rows := ⟨[⟨key, "a\nOpenNetworkNotifierBlacklist\tb", 0⟩]⟩

end Depot

open Depot in
theorem listing_shows_tabbed_name :
    tabbed.Legible ∧ pair.Legible ∧
    ∃ text retext, (command (world tabbed) {} path (.list none)).2 = .ok text ∧
      (command (world pair) {} path (.list none)).2 = .ok retext ∧
      (key, "a\tb") ∈ Listing.entries text ∧ text ≠ retext := by
  have htabbed : tabbed.Legible := by decide
  have hpair : pair.Legible := by decide
  obtain ⟨text, retext, htext, hretext, hentries, hsame⟩ :=
    listing_shows_store {} {} (opens tabbed) (opens pair) htabbed hpair
  have hmem : "a\tb" ∈ tabbed.loadSet key := by decide
  have hnot : "a\tb" ∉ pair.loadSet key := by decide
  refine ⟨htabbed, hpair, text, retext, htext, hretext, (hentries _ _).mpr hmem, fun h => ?_⟩
  exact hnot (congrFun (hsame.mp h).2 key ▸ hmem)

open Depot in
/-- A name with a line feed is listed as entries that are not in the store. -/
theorem forged_name_lists_entries :
    let list := ["blocklist", "list", "--store-path", path]
    let text := "OpenNetworkNotifierBlacklist\ta\nOpenNetworkNotifierBlacklist\tb\n"
    (execute (world forged) list).output = text ∧ (execute (world pair) list).output = text ∧
      forged.loadSet key = .ofList ["a\nOpenNetworkNotifierBlacklist\tb"] ∧
      pair.loadSet key = .ofList ["a", "b"] ∧ forged.loadSet key ≠ pair.loadSet key := by
  decide +kernel

end Program

end WifiAdvisor

import Mathlib.Data.List.Nodup
import Mathlib.Logic.Function.Basic
import WifiAdvisor.Store.Rows

/-!
# Rows as a map of sets

Rows stand for a map from keys to sets: under a key are the names that have a row with it. As long
as no two rows share their primary key, each statement does to the map what it is meant for and
says of the map what it reports, and no insertion is refused.
-/
namespace WifiAdvisor.Store

def Row.primary (r : Row) : String × String := (r.key, r.ssid)

namespace Rows

variable {t : Rows} {key ssid : String} {now : Millis}

/-- No two rows share their primary key. -/
def Unique (t : Rows) : Prop := (t.rows.map Row.primary).Nodup

theorem mem_loadSet : ssid ∈ t.loadSet key ↔ ∃ r ∈ t.rows, r.key = key ∧ r.ssid = ssid := by
  simp [loadSet, and_assoc]

/-! ### Insertions -/

theorem taken_iff : t.taken key ssid = true ↔ ssid ∈ t.loadSet key := by
  simp [taken, mem_loadSet]

theorem insert_of_free {r : Row} (h : r.ssid ∉ t.loadSet r.key) :
    t.insert r = .ok ⟨t.rows ++ [r]⟩ := by
  rw [← taken_iff] at h
  exact if_neg h

theorem Unique.append {r : Row} (h : t.Unique) (hr : r.ssid ∉ t.loadSet r.key) :
    Unique ⟨t.rows ++ [r]⟩ := by
  have hfree : r.primary ∉ t.rows.map Row.primary := by
    rw [List.mem_map]
    rintro ⟨q, hq, heq⟩
    obtain ⟨hkey, hssid⟩ := Prod.mk.inj heq
    exact hr (mem_loadSet.mpr ⟨q, hq, hkey, hssid⟩)
  simp only [Unique, List.map_append, List.map_singleton]
  exact List.nodup_append.mpr ⟨h, List.nodup_singleton _, by
    rintro a ha b hb rfl
    exact hfree (List.mem_singleton.mp hb ▸ ha)⟩

theorem mem_loadSet_append {r : Row} :
    ssid ∈ loadSet ⟨t.rows ++ [r]⟩ key ↔ ssid ∈ t.loadSet key ∨ r.key = key ∧ r.ssid = ssid := by
  simp [mem_loadSet, or_and_right, exists_or]

/-- New names are inserted one after the other, and none of them hits a row that is there. -/
theorem Unique.insert_all {names : List String} (h : t.Unique) (hnames : names.Nodup)
    (hfree : ∀ s ∈ names, s ∉ t.loadSet key) :
    ∃ u, names.foldlM (fun t ssid => t.insert { key, ssid, updatedAt := now }) t = .ok u ∧
      u.Unique ∧ ∀ k s, s ∈ u.loadSet k ↔ s ∈ t.loadSet k ∨ key = k ∧ s ∈ names := by
  induction names generalizing t with
  | nil => exact ⟨t, rfl, h, by simp⟩
  | cons x rest ih =>
    obtain ⟨hx, hrest⟩ := List.nodup_cons.mp hnames
    let r : Row := { key, ssid := x, updatedAt := now }
    have hr : r.ssid ∉ t.loadSet r.key := hfree x List.mem_cons_self
    have hlater : ∀ s ∈ rest, s ∉ loadSet ⟨t.rows ++ [r]⟩ key := by
      intro s hs hmem
      rcases mem_loadSet_append.mp hmem with ht | ⟨-, rfl⟩
      · exact hfree s (List.mem_cons_of_mem _ hs) ht
      · exact hx hs
    obtain ⟨u, hu, hunique, hmem⟩ := ih (h.append hr) hrest hlater
    refine ⟨u, ?_, hunique, ?_⟩
    · rw [List.foldlM_cons, insert_of_free hr]
      exact hu
    · intro k s
      rw [hmem, mem_loadSet_append, List.mem_cons, or_assoc, ← and_or_left, eq_comm (a := s)]

/-! ### Deletions -/

theorem Unique.deleteWhere (h : t.Unique) (p : Row → Bool) : (t.deleteWhere p).2.Unique :=
  h.sublist (List.filter_sublist.map _)

theorem mem_loadSet_deleteWhere {p : Row → Bool} :
    ssid ∈ (t.deleteWhere p).2.loadSet key ↔
      ∃ r ∈ t.rows, p r = false ∧ r.key = key ∧ r.ssid = ssid := by
  simp [mem_loadSet, Rows.deleteWhere, and_assoc]

theorem Unique.clearSet (h : t.Unique) (key : String) : (t.clearSet key).2.Unique :=
  h.deleteWhere _

theorem Unique.removeMember (h : t.Unique) (key ssid : String) :
    (t.removeMember key ssid).2.Unique :=
  h.deleteWhere _

theorem loadSet_clearSet (t : Rows) (key : String) :
    (t.clearSet key).2.loadSet = Function.update t.loadSet key ∅ := by
  funext k
  apply Blocklist.eq_of_mem_iff
  intro s
  rw [Rows.clearSet, mem_loadSet_deleteWhere]
  by_cases hk : k = key
  · subst k
    simp only [Function.update_self, Blocklist.not_mem_empty, iff_false]
    rintro ⟨r, -, hp, hkey, -⟩
    exact of_decide_eq_false hp hkey
  · rw [Function.update_of_ne hk, mem_loadSet]
    constructor
    · rintro ⟨r, hr, -, rfl, rfl⟩
      exact ⟨r, hr, rfl, rfl⟩
    · rintro ⟨r, hr, rfl, rfl⟩
      exact ⟨r, hr, decide_eq_false hk, rfl, rfl⟩

theorem loadSet_removeMember (t : Rows) (key ssid : String) :
    (t.removeMember key ssid).2.loadSet =
      Function.update t.loadSet key ((t.loadSet key).erase ssid) := by
  funext k
  apply Blocklist.eq_of_mem_iff
  intro s
  rw [Rows.removeMember, mem_loadSet_deleteWhere]
  by_cases hk : k = key
  · subst k
    rw [Function.update_self, Blocklist.mem_erase, mem_loadSet]
    constructor
    · rintro ⟨r, hr, hp, rfl, rfl⟩
      exact ⟨by simpa using hp, r, hr, rfl, rfl⟩
    · rintro ⟨hs, r, hr, rfl, rfl⟩
      exact ⟨r, hr, by simpa using hs, rfl, rfl⟩
  · rw [Function.update_of_ne hk, mem_loadSet]
    constructor
    · rintro ⟨r, hr, -, rfl, rfl⟩
      exact ⟨r, hr, rfl, rfl⟩
    · rintro ⟨r, hr, rfl, rfl⟩
      exact ⟨r, hr, by simp [hk], rfl, rfl⟩

theorem removeMember_found (t : Rows) (key ssid : String) :
    (t.removeMember key ssid).1 = (t.loadSet key).contains ssid := by
  rw [Bool.eq_iff_iff, Blocklist.contains_iff, mem_loadSet]
  simp [Rows.removeMember, Rows.deleteWhere, List.countP_eq_zero]

/-- The rows under a key are as many as the names. -/
theorem Unique.clearSet_count (h : t.Unique) (key : String) :
    (t.clearSet key).1 = (t.loadSet key).size := by
  let under := t.rows.filter fun r => r.key = key
  have hnodup : (under.map Row.ssid).Nodup := by
    refine (List.Nodup.of_map Row.primary (h.sublist (List.filter_sublist.map _))).map_on ?_
    intro q hq r hr hssid
    have hkeys : q.key = r.key := by
      have hqk : q.key = key := by simpa using (List.mem_filter.mp hq).2
      have hrk : r.key = key := by simpa using (List.mem_filter.mp hr).2
      rw [hqk, hrk]
    exact List.inj_on_of_nodup_map h (List.mem_of_mem_filter hq) (List.mem_of_mem_filter hr)
      (Prod.ext hkeys hssid)
  have hperm : (under.map Row.ssid).Perm (t.loadSet key).toList := by
    refine (List.perm_ext_iff_of_nodup hnodup (Blocklist.nodup _)).mpr fun s => ?_
    rw [Blocklist.mem_toList, loadSet, Blocklist.mem_ofList]
  calc (t.clearSet key).1 = under.length := List.countP_eq_length_filter
    _ = (under.map Row.ssid).length := (List.length_map Row.ssid).symm
    _ = (t.loadSet key).size := hperm.length_eq

/-! ### Whole sets and the keys -/

theorem Unique.replaceSet (h : t.Unique) (now : Millis) (key : String) (set : Blocklist) :
    ∃ u, t.replaceSet now key set = .ok u ∧ u.Unique ∧
      u.loadSet = Function.update t.loadSet key set := by
  have hcleared := t.loadSet_clearSet key
  have hfree : ∀ s ∈ set.toList, s ∉ (t.clearSet key).2.loadSet key := by simp [hcleared]
  obtain ⟨u, hu, hunique, hmem⟩ := (h.clearSet key).insert_all set.nodup hfree
  refine ⟨u, hu, hunique, ?_⟩
  funext k
  apply Blocklist.eq_of_mem_iff
  intro s
  rw [hmem, hcleared]
  by_cases hk : k = key
  · subst k
    simp
  · simp [Function.update_of_ne hk, Ne.symm hk]

theorem keys_ascending (t : Rows) : t.keys.Pairwise (· < ·) := Blocklist.ascending _

theorem mem_keys : key ∈ t.keys ↔ t.loadSet key ≠ ∅ := by
  constructor
  · intro h hempty
    obtain ⟨r, hr, rfl⟩ := List.mem_map.mp (Blocklist.mem_ofList.mp h)
    have hmem : r.ssid ∈ t.loadSet r.key := mem_loadSet.mpr ⟨r, hr, rfl, rfl⟩
    rw [hempty] at hmem
    exact Blocklist.not_mem_empty _ hmem
  · intro h
    by_contra hkey
    refine h (Blocklist.eq_of_mem_iff fun s => ?_)
    simp only [Blocklist.not_mem_empty, iff_false]
    intro hs
    obtain ⟨r, hr, rfl, -⟩ := mem_loadSet.mp hs
    exact hkey (Blocklist.mem_ofList.mpr (List.mem_map_of_mem hr))

end Rows

end WifiAdvisor.Store

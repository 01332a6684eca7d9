import Mathlib.Data.List.Induction
import Mathlib.Data.List.Nodup

/-! # Dictionaries in insertion order

A dictionary is the list of its entries. Setting a present key keeps its place, and two dictionaries
with the same answers are the same up to the order of their entries.
-/
namespace Dictionaries

variable {κ α β : Type*} [DecidableEq κ]

abbrev Dict (κ α : Type*) := List (κ × α)

namespace Dict

def get? : Dict κ α → κ → Option α
  | [], _ => none
  | (name, value) :: entries, key => if name = key then some value else get? entries key

def set : Dict κ α → κ → α → Dict κ α
  | [], key, value => [(key, value)]
  | (name, old) :: entries, key, value =>
      if name = key then (name, value) :: entries else (name, old) :: set entries key value

def pop : Dict κ α → κ → Dict κ α
  | [], _ => []
  | (name, value) :: entries, key =>
      if name = key then pop entries key else (name, value) :: pop entries key

/-- `entries.update(other)`. -/
def update (entries other : Dict κ α) : Dict κ α :=
  other.foldl (fun merged entry => set merged entry.1 entry.2) entries

/-- The records under their keys; of two records with one key the later stays. -/
def ofRecords (key : β → κ) (value : β → α) (records : List β) : Dict κ α :=
  records.foldl (fun entries record => set entries (key record) (value record)) []

/-- The records of each key in their order. -/
def groupRecords (key : β → κ) (records : List β) : Dict κ (List β) :=
  records.foldl (fun grouped record =>
    set grouped (key record) ((get? grouped (key record)).getD [] ++ [record])) []

/-- Both dictionaries answer every key alike. -/
def Same (d e : Dict κ α) : Prop := ∀ key, get? d key = get? e key

theorem get?_set (entries : Dict κ α) (key key' : κ) (value : α) :
    (entries.set key value).get? key' = if key = key' then some value else entries.get? key' := by
  induction entries with
  | nil => simp [set, get?]
  | cons entry entries ih =>
      obtain ⟨name, old⟩ := entry
      by_cases hname : name = key
      · subst hname
        by_cases hkey : name = key' <;> simp [set, get?, hkey]
      · by_cases hkey : name = key'
        · subst hkey
          simp [set, get?, hname, Ne.symm hname]
        · simp [set, get?, hname, hkey, ih]

theorem get?_pop (entries : Dict κ α) (key key' : κ) :
    (entries.pop key).get? key' = if key = key' then none else entries.get? key' := by
  induction entries with
  | nil => simp [pop, get?]
  | cons entry entries ih =>
      obtain ⟨name, value⟩ := entry
      by_cases hname : name = key
      · subst hname
        by_cases hkey : name = key'
        · simpa [pop, hkey] using ih
        · simpa [pop, get?, hkey] using ih
      · by_cases hkey : name = key'
        · subst hkey
          simp [pop, get?, hname, Ne.symm hname]
        · simp [pop, get?, hname, hkey, ih]

theorem mem_keys_set {entries : Dict κ α} {key key' : κ} {value : α} :
    key' ∈ (entries.set key value).map Prod.fst ↔ key' = key ∨ key' ∈ entries.map Prod.fst := by
  induction entries with
  | nil => simp [set]
  | cons entry entries ih =>
      obtain ⟨name, old⟩ := entry
      by_cases hname : name = key
      · subst hname
        simp [set]
      · simp only [set, if_neg hname, List.map_cons, List.mem_cons, ih]
        tauto

/-- Setting a key keeps the keys distinct. -/
theorem nodup_set {entries : Dict κ α} (h : (entries.map Prod.fst).Nodup) (key : κ) (value : α) :
    ((entries.set key value).map Prod.fst).Nodup := by
  induction entries with
  | nil => simp [set]
  | cons entry entries ih =>
      obtain ⟨name, old⟩ := entry
      rw [List.map_cons, List.nodup_cons] at h
      by_cases hname : name = key
      · subst hname
        simpa [set] using h
      · simp only [set, if_neg hname, List.map_cons, List.nodup_cons, mem_keys_set]
        refine ⟨?_, ih h.2⟩
        rintro (heq | hmem)
        · exact hname heq
        · exact h.1 hmem

theorem mem_of_get? {entries : Dict κ α} {key : κ} {value : α} (h : entries.get? key = some value) :
    (key, value) ∈ entries := by
  induction entries with
  | nil => cases h
  | cons entry entries ih =>
      obtain ⟨name, old⟩ := entry
      by_cases hname : name = key
      · rw [get?, if_pos hname] at h
        rw [← hname, ← Option.some.inj h]
        exact List.mem_cons_self
      · rw [get?, if_neg hname] at h
        exact List.mem_cons_of_mem _ (ih h)

theorem get?_of_mem {entries : Dict κ α} (h : (entries.map Prod.fst).Nodup) {key : κ} {value : α}
    (hmem : (key, value) ∈ entries) : entries.get? key = some value := by
  induction entries with
  | nil => cases hmem
  | cons entry entries ih =>
      obtain ⟨name, old⟩ := entry
      rw [List.map_cons, List.nodup_cons] at h
      rcases List.mem_cons.mp hmem with heq | hlater
      · obtain ⟨rfl, rfl⟩ := Prod.mk.inj heq
        simp [get?]
      · have hname : name ≠ key := by
          rintro rfl
          exact h.1 (List.mem_map.mpr ⟨_, hlater, rfl⟩)
        rw [get?, if_neg hname]
        exact ih h.2 hlater

theorem mem_iff_get? {entries : Dict κ α} (h : (entries.map Prod.fst).Nodup) {key : κ} {value : α} :
    (key, value) ∈ entries ↔ entries.get? key = some value :=
  ⟨get?_of_mem h, mem_of_get?⟩

section

variable (key : β → κ) (value : β → α) (records : List β)

theorem nodup_ofRecords : ((ofRecords key value records).map Prod.fst).Nodup := by
  induction records using List.reverseRecOn with
  | nil => exact List.nodup_nil
  | append_singleton records record ih =>
      rw [ofRecords, List.foldl_append]
      exact nodup_set ih _ _

theorem get?_ofRecords (k : κ) :
    (ofRecords key value records).get? k = (records.reverse.find? (key · = k)).map value := by
  induction records using List.reverseRecOn with
  | nil => rfl
  | append_singleton records record ih =>
      rw [ofRecords] at ih
      rw [ofRecords, List.foldl_append, List.reverse_append, List.foldl_cons, List.foldl_nil,
        get?_set, ih, List.reverse_singleton, List.singleton_append, List.find?_cons]
      by_cases hkey : key record = k <;> simp [hkey]

theorem nodup_groupRecords : ((groupRecords key records).map Prod.fst).Nodup := by
  induction records using List.reverseRecOn with
  | nil => exact List.nodup_nil
  | append_singleton records record ih =>
      rw [groupRecords, List.foldl_append]
      exact nodup_set ih _ _

theorem get?_groupRecords (k : κ) :
    (groupRecords key records).get? k =
      if records.filter (key · = k) = [] then none else some (records.filter (key · = k)) := by
  induction records using List.reverseRecOn with
  | nil => rfl
  | append_singleton records record ih =>
      rw [groupRecords] at ih
      rw [groupRecords, List.foldl_append, List.foldl_cons, List.foldl_nil, get?_set,
        List.filter_append]
      by_cases hkey : key record = k
      · rw [if_pos hkey, hkey, ih]
        by_cases hnone : records.filter (key · = k) = [] <;> simp [hnone, hkey]
      · rw [if_neg hkey, ih]
        simp [hkey]

variable {key value records}

/-- A record joins its group, and the other groups stay. -/
theorem perm_addRecord (grouped : Dict κ (List β)) (k : κ) (record : β) :
    ((set grouped k ((get? grouped k).getD [] ++ [record])).flatMap Prod.snd).Perm
      (grouped.flatMap Prod.snd ++ [record]) := by
  induction grouped with
  | nil => exact List.Perm.refl _
  | cons entry grouped ih =>
      obtain ⟨name, group⟩ := entry
      by_cases hname : name = k
      · simp only [set, get?, if_pos hname, Option.getD_some, List.flatMap_cons, List.append_assoc]
        exact List.Perm.append_left group List.perm_append_comm
      · simp only [set, get?, if_neg hname, List.flatMap_cons, List.append_assoc]
        exact List.Perm.append_left group ih

/-- Grouping neither loses nor repeats a record. -/
theorem perm_groupRecords : ((groupRecords key records).flatMap Prod.snd).Perm records := by
  induction records using List.reverseRecOn with
  | nil => exact List.Perm.refl _
  | append_singleton records record ih =>
      rw [groupRecords, List.foldl_append]
      exact (perm_addRecord _ _ _).trans (List.Perm.append_right [record] ih)

/-- Records of one key are one group. -/
theorem groupRecords_same {k : κ} (h : ∀ record ∈ records, key record = k) (hne : records ≠ []) :
    groupRecords key records = [(k, records)] := by
  induction records using List.reverseRecOn with
  | nil => exact absurd rfl hne
  | append_singleton records record ih =>
      have hkey : key record = k := h record (by simp)
      rw [groupRecords, List.foldl_append, List.foldl_cons, List.foldl_nil, ← groupRecords, hkey]
      by_cases hnil : records = []
      · subst hnil
        rfl
      · rw [ih (fun other hother => h other (by simp [hother])) hnil]
        simp [get?, set]

/-- The dictionary of records with distinct keys holds every record. -/
theorem mem_ofRecords (h : (records.map key).Nodup) {k : κ} {v : α} :
    (k, v) ∈ ofRecords key value records ↔
      ∃ record ∈ records, key record = k ∧ value record = v := by
  rw [mem_iff_get? (nodup_ofRecords _ _ _), get?_ofRecords, Option.map_eq_some_iff]
  constructor
  · rintro ⟨record, hfind, hvalue⟩
    have hmem := List.mem_of_find?_eq_some hfind
    exact ⟨record, List.mem_reverse.mp hmem, by simpa using List.find?_some hfind, hvalue⟩
  · rintro ⟨record, hmem, hkey, hvalue⟩
    refine ⟨record, ?_, hvalue⟩
    cases hfind : records.reverse.find? (key · = k) with
    | none =>
        have hnot := List.find?_eq_none.mp hfind record (List.mem_reverse.mpr hmem)
        exact absurd hkey (by simpa using hnot)
    | some other =>
        have hother := List.mem_reverse.mp (List.mem_of_find?_eq_some hfind)
        have hkeys : key other = key record := by
          rw [hkey]
          simpa using List.find?_some hfind
        rw [List.inj_on_of_nodup_map h hother hmem hkeys]

theorem mem_groupRecords {k : κ} {group : List β} :
    (k, group) ∈ groupRecords key records ↔
      group = records.filter (key · = k) ∧ group ≠ [] := by
  rw [mem_iff_get? (nodup_groupRecords _ _), get?_groupRecords]
  by_cases hnone : records.filter (key · = k) = []
  · rw [if_pos hnone, hnone]
    simp
  · rw [if_neg hnone, Option.some.injEq]
    constructor
    · rintro rfl
      exact ⟨rfl, hnone⟩
    · rintro ⟨rfl, -⟩
      rfl

end

end Dict

end Dictionaries

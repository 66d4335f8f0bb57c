import Mathlib.Tactic.Common

/-! Association lists with one entry a key, as a program keeps a map in a vector: find the entry and
change it, or push a new one. Then lists of records that carry their key. -/
namespace SecOutfall.AssocList
set_option autoImplicit false

variable {κ β : Type*} [DecidableEq κ]

/-- Change the first entry of the key, or push one behind the others. -/
def upsert (key : κ) (f : Option β → β) : List (κ × β) → List (κ × β)
  | [] => [(key, f none)]
  | (k, value) :: rest => if k = key then (k, f (some value)) :: rest else (k, value) :: upsert key f rest

def erase (key : κ) (entries : List (κ × β)) : List (κ × β) := entries.filter fun entry => entry.1 != key

theorem lookup_cons_of_ne {key k : κ} (h : k ≠ key) (value : β) (rest : List (κ × β)) :
    ((key, value) :: rest).lookup k = rest.lookup k := by
  simp [List.lookup_cons, beq_false_of_ne h]

theorem lookup_upsert (key k : κ) (f : Option β → β) (entries : List (κ × β)) :
    (upsert key f entries).lookup k = if k = key then some (f (entries.lookup key)) else entries.lookup k := by
  induction entries with
  | nil =>
    by_cases hk : k = key
    · simp [upsert, hk]
    · rw [upsert, lookup_cons_of_ne hk, if_neg hk]
  | cons entry rest ih =>
    obtain ⟨key', value⟩ := entry
    rw [upsert]
    by_cases hkey : key' = key
    · subst hkey
      by_cases hk : k = key'
      · simp [hk]
      · rw [if_pos rfl, lookup_cons_of_ne hk, lookup_cons_of_ne hk, if_neg hk]
    · rw [if_neg hkey]
      by_cases hk : k = key'
      · subst hk
        simp [hkey]
      · rw [lookup_cons_of_ne hk, lookup_cons_of_ne hk, ih, lookup_cons_of_ne (Ne.symm hkey)]

theorem keys_upsert (key : κ) (f : Option β → β) (entries : List (κ × β)) :
    (upsert key f entries).map (·.1) =
      if key ∈ entries.map (·.1) then entries.map (·.1) else entries.map (·.1) ++ [key] := by
  induction entries with
  | nil => rfl
  | cons entry rest ih =>
    obtain ⟨key', value⟩ := entry
    rw [upsert]
    by_cases hkey : key' = key
    · simp [hkey]
    · have hne : ¬ key = key' := fun h => hkey h.symm
      rw [if_neg hkey, List.map_cons, ih]
      simp only [List.map_cons, List.mem_cons, hne, false_or]
      split <;> rfl

theorem lookup_erase (key k : κ) (entries : List (κ × β)) :
    (erase key entries).lookup k = if k = key then none else entries.lookup k := by
  induction entries with
  | nil => simp [erase]
  | cons entry rest ih =>
    obtain ⟨key', value⟩ := entry
    by_cases hkey : key' = key
    · have hskip : erase key ((key', value) :: rest) = erase key rest := by simp [erase, hkey]
      rw [hskip, ih]
      by_cases hk : k = key
      · rw [if_pos hk, if_pos hk]
      · rw [if_neg hk, if_neg hk, lookup_cons_of_ne (hkey ▸ hk)]
    · have hkeep : erase key ((key', value) :: rest) = (key', value) :: erase key rest := by simp [erase, hkey]
      rw [hkeep]
      by_cases hk : k = key'
      · subst hk
        simp [hkey]
      · rw [lookup_cons_of_ne hk, lookup_cons_of_ne hk, ih]

theorem keys_erase (key : κ) (entries : List (κ × β)) :
    (erase key entries).map (·.1) = (entries.map (·.1)).filter (· != key) := by
  rw [erase, List.filter_map]
  rfl

theorem mem_keys_iff (key : κ) (entries : List (κ × β)) :
    key ∈ entries.map (·.1) ↔ (entries.lookup key).isSome := by
  rw [List.lookup_isSome_iff, List.mem_map]
  constructor
  · rintro ⟨entry, hentry, rfl⟩
    exact ⟨entry, hentry, beq_self_eq_true _⟩
  · rintro ⟨entry, hentry, hkey⟩
    exact ⟨entry, hentry, (eq_of_beq hkey).symm⟩

/-- A new entry that is overwritten at once. -/
theorem upsert_pushed {key : κ} {entries : List (κ × β)} (h : key ∉ entries.map (·.1)) (value value' : β) :
    upsert key (fun _ => value') (entries ++ [(key, value)]) = upsert key (fun _ => value') entries := by
  induction entries with
  | nil => simp [upsert]
  | cons entry rest ih =>
    obtain ⟨key', value''⟩ := entry
    obtain ⟨hkey, hrest⟩ := not_or.mp (List.mem_cons.not.mp h)
    rw [List.cons_append, upsert, upsert, if_neg (Ne.symm hkey), if_neg (Ne.symm hkey), ih hrest]

/-! ## Records with a key -/

section
variable {α : Type*} {key : α → κ} {records : List α}

/-- Erasing the first record of a key erases all there are. -/
theorem eraseP_eq_filter (h : (records.map key).Nodup) (k : κ) :
    records.eraseP (fun record => key record == k) = records.filter fun record => key record ≠ k := by
  induction records with
  | nil => rfl
  | cons record rest ih =>
    rw [List.map_cons, List.nodup_cons] at h
    by_cases hkey : key record = k
    · have hother : ∀ x ∈ rest, decide (key x ≠ k) = true := by
        intro x hx
        rw [decide_eq_true_eq]
        rintro rfl
        exact h.1 (hkey ▸ List.mem_map_of_mem hx)
      rw [List.eraseP_cons_of_pos (by simpa using hkey), List.filter_cons_of_neg (by simpa using hkey)]
      exact (List.filter_eq_self.mpr hother).symm
    · rw [List.eraseP_cons_of_neg (by simpa using hkey), List.filter_cons_of_pos (by simpa using hkey), ih h.2]

theorem mem_eraseP_iff (h : (records.map key).Nodup) {k : κ} {record : α} :
    record ∈ records.eraseP (fun record => key record == k) ↔ record ∈ records ∧ key record ≠ k := by
  rw [eraseP_eq_filter h, List.mem_filter, decide_eq_true_eq]

theorem find?_eraseP (h : (records.map key).Nodup) (k k' : κ) :
    (records.eraseP fun record => key record == k).find? (fun record => key record == k') =
      if k' = k then none else records.find? fun record => key record == k' := by
  rw [eraseP_eq_filter h, List.find?_filter]
  by_cases hkey : k' = k
  · rw [if_pos hkey, List.find?_eq_none]
    intro record _ hboth
    simp_all
  · rw [if_neg hkey]
    congr 1
    funext record
    by_cases hrecord : key record = k'
    · simp [hrecord, hkey]
    · simp [hrecord]

end

end SecOutfall.AssocList

import Mathlib.Data.List.Nodup
import Mathlib.Data.List.Lookmap

/-!
# Dictionaries as association lists

A `dict` keeps its keys in the order of their first assignment. Assigning to a
present key replaces the value in place.
-/
namespace TxLookup.Library.Assoc

variable {κ β : Type}

def keys (d : List (κ × β)) : List κ := d.map Prod.fst

theorem keys_map_replace [DecidableEq κ] (d : List (κ × β)) (key : κ) (value : β) :
    keys (d.map (fun kv => if kv.1 = key then (key, value) else kv)) = keys d := by
  unfold keys
  rw [List.map_map]
  refine List.map_congr_left fun kv _ => ?_
  by_cases h : kv.1 = key
  · simp [h]
  · simp [h]

variable [BEq κ] [LawfulBEq κ]

theorem mem_of_lookup {d : List (κ × β)} {key : κ} {value : β} (h : d.lookup key = some value) :
    (key, value) ∈ d := by
  obtain ⟨pre, post, rfl, -⟩ := List.lookup_eq_some_iff.mp h
  simp

theorem lookup_eq_none_iff {d : List (κ × β)} {key : κ} :
    d.lookup key = none ↔ key ∉ keys d := by
  rw [List.lookup_eq_none_iff, keys, List.mem_map]
  constructor
  · rintro h ⟨kv, hkv, rfl⟩
    exact absurd (h kv hkv) (by simp)
  · intro h kv hkv
    simp only [bne_iff_ne, ne_eq]
    exact fun heq => h ⟨kv, hkv, heq.symm⟩

variable [DecidableEq κ]

/-- `d[key] = value`. -/
def set (d : List (κ × β)) (key : κ) (value : β) : List (κ × β) :=
  if (d.lookup key).isSome then d.map (fun kv => if kv.1 = key then (key, value) else kv)
  else d ++ [(key, value)]

theorem lookup_cons (kv : κ × β) (d : List (κ × β)) (k : κ) :
    (kv :: d).lookup k = if k = kv.1 then some kv.2 else d.lookup k := by
  by_cases h : k = kv.1
  · rw [List.lookup_cons, if_pos h, beq_iff_eq.mpr h]
  · rw [List.lookup_cons, if_neg h, beq_eq_false_iff_ne.mpr h]

/-- With distinct keys, an entry is what its key is mapped to. -/
theorem lookup_of_mem {d : List (κ × β)} (hd : (keys d).Nodup) {key : κ} {value : β}
    (h : (key, value) ∈ d) : d.lookup key = some value := by
  induction d with
  | nil => cases h
  | cons kv d ih =>
    rw [keys, List.map_cons, List.nodup_cons] at hd
    rcases List.mem_cons.mp h with rfl | h
    · rw [lookup_cons, if_pos rfl]
    · have hne : key ≠ kv.1 := by
        rintro rfl
        exact hd.1 (List.mem_map.mpr ⟨_, h, rfl⟩)
      rw [lookup_cons, if_neg hne]
      exact ih hd.2 h

theorem lookup_map_replace (d : List (κ × β)) (key k : κ) (value : β) :
    (d.map (fun kv => if kv.1 = key then (key, value) else kv)).lookup k =
      if k = key then (d.lookup key).map (fun _ => value) else d.lookup k := by
  induction d with
  | nil => simp
  | cons kv d ih =>
    rw [List.map_cons, lookup_cons, ih, lookup_cons, lookup_cons]
    by_cases hk : k = key
    · subst hk
      by_cases hkv : kv.1 = k
      · simp [hkv]
      · simp [hkv, Ne.symm hkv]
    · by_cases hkv : kv.1 = key
      · simp [hkv, hk]
      · simp [hkv, hk]

theorem lookup_set (d : List (κ × β)) (key k : κ) (value : β) :
    (set d key value).lookup k = if k = key then some value else d.lookup k := by
  unfold set
  split
  · next h =>
    rw [lookup_map_replace]
    obtain ⟨v, hv⟩ := Option.isSome_iff_exists.mp h
    rw [hv, Option.map_some]
  · next h =>
    rw [List.lookup_append, lookup_cons, List.lookup_nil]
    by_cases hk : k = key
    · rw [hk, Option.not_isSome_iff_eq_none.mp h]
      simp
    · simp [hk]

/-- Keys stay distinct. -/
theorem nodup_keys_set {d : List (κ × β)} (h : (keys d).Nodup) (key : κ) (value : β) :
    (keys (set d key value)).Nodup := by
  unfold set
  split
  · rw [keys_map_replace]
    exact h
  · next hnone =>
    have hkey : key ∉ keys d := lookup_eq_none_iff.mp (Option.not_isSome_iff_eq_none.mp hnone)
    rw [keys, List.map_append]
    refine List.nodup_append.mpr ⟨h, List.nodup_singleton key, fun k hk k' hk' heq => hkey ?_⟩
    have hkey' : k' = key := List.mem_singleton.mp hk'
    rw [← hkey', ← heq]
    exact hk

/-- Assigning the value a key already has changes nothing. -/
theorem set_of_lookup {d : List (κ × β)} (hd : (keys d).Nodup) {key : κ} {value : β}
    (h : d.lookup key = some value) : set d key value = d := by
  rw [set, if_pos (by rw [h]; rfl)]
  calc d.map (fun kv => if kv.1 = key then (key, value) else kv)
      = d.map (fun kv => kv) := by
        refine List.map_congr_left fun kv hkv => ?_
        by_cases hkey : kv.1 = key
        · have hvalue := lookup_of_mem hd hkv
          rw [hkey, h] at hvalue
          rw [if_pos hkey, ← hkey, Option.some.inj hvalue]
        · rw [if_neg hkey]
    _ = d := List.map_id' d

omit [LawfulBEq κ] in
theorem mem_set {d : List (κ × β)} {key : κ} {value : β} {kv : κ × β}
    (h : kv ∈ set d key value) : kv = (key, value) ∨ kv ∈ d := by
  unfold set at h
  split at h
  · obtain ⟨kv', hkv', rfl⟩ := List.mem_map.mp h
    by_cases hkey : kv'.1 = key
    · exact .inl (if_pos hkey)
    · rw [if_neg hkey]
      exact .inr hkv'
  · exact (List.mem_append.mp h).symm.imp_left List.mem_singleton.mp

/-- With distinct keys, a key has one value in the whole list or none. -/
theorem values_filter_key {d : List (κ × β)} (hd : (keys d).Nodup) (key : κ) :
    (d.filter (fun kv => kv.1 = key)).map Prod.snd = (d.lookup key).toList := by
  induction d with
  | nil => rfl
  | cons kv d ih =>
    rw [keys, List.map_cons, List.nodup_cons] at hd
    rw [lookup_cons]
    by_cases hkv : kv.1 = key
    · have hnone : d.lookup key = none := lookup_eq_none_iff.mpr (hkv ▸ hd.1)
      rw [List.filter_cons_of_pos (by simp [hkv]), List.map_cons, ih hd.2, hnone, if_pos hkv.symm]
      rfl
    · rw [List.filter_cons_of_neg (by simp [hkv]), ih hd.2, if_neg (Ne.symm hkv)]

/-- `del d[key]`. -/
def erase (d : List (κ × β)) (key : κ) : List (κ × β) := d.filter (fun kv => kv.1 ≠ key)

theorem lookup_erase (d : List (κ × β)) (key k : κ) :
    (erase d key).lookup k = if k = key then none else d.lookup k := by
  induction d with
  | nil => simp [erase]
  | cons kv d ih =>
    rw [erase] at ih
    rw [erase, lookup_cons]
    by_cases hkv : kv.1 = key
    · rw [List.filter_cons_of_neg (by simp [hkv]), ih]
      by_cases hk : k = key
      · rw [if_pos hk, if_pos hk]
      · rw [if_neg hk, if_neg hk, if_neg (hkv ▸ hk)]
    · rw [List.filter_cons_of_pos (by simp [hkv]), lookup_cons, ih]
      by_cases hk : k = kv.1
      · rw [if_pos hk, if_pos hk, if_neg (hk ▸ hkv)]
      · rw [if_neg hk, if_neg hk]

/-! ## Several assignments -/

/-- `d.update(updates)`. -/
def update (d updates : List (κ × β)) : List (κ × β) :=
  updates.foldl (fun d kv => set d kv.1 kv.2) d

theorem lookup_update {updates : List (κ × β)} (h : (keys updates).Nodup) (d : List (κ × β))
    (k : κ) : (update d updates).lookup k = (updates.lookup k).or (d.lookup k) := by
  induction updates generalizing d with
  | nil => rfl
  | cons kv updates ih =>
    rw [keys, List.map_cons, List.nodup_cons] at h
    rw [update, List.foldl_cons, ← update, ih h.2, lookup_set, lookup_cons]
    by_cases hk : k = kv.1
    · have hnone : updates.lookup k = none := lookup_eq_none_iff.mpr (hk ▸ h.1)
      simp [hk ▸ hnone, hk]
    · rw [if_neg hk, if_neg hk]

/-- New keys come at the end, in order. -/
theorem update_of_new {d updates : List (κ × β)} (h : (keys (d ++ updates)).Nodup) :
    update d updates = d ++ updates := by
  induction updates generalizing d with
  | nil => rw [List.append_nil]; rfl
  | cons kv updates ih =>
    have hnew : d.lookup kv.1 = none := by
      rw [lookup_eq_none_iff]
      intro hmem
      rw [keys, List.map_append] at h
      exact (List.nodup_append.mp h).2.2 _ hmem _ (List.mem_map_of_mem List.mem_cons_self) rfl
    have hset : set d kv.1 kv.2 = d ++ [kv] := by rw [set, hnew]; rfl
    rw [update, List.foldl_cons, hset, List.append_cons d kv updates]
    refine ih ?_
    rw [← List.append_cons]
    exact h

theorem nodup_keys_update {d : List (κ × β)} (h : (keys d).Nodup) (updates : List (κ × β)) :
    (keys (update d updates)).Nodup := by
  induction updates generalizing d with
  | nil => exact h
  | cons kv updates ih => exact ih (nodup_keys_set h kv.1 kv.2)

/-- Assigning what is already there changes nothing. -/
theorem update_of_lookup {d : List (κ × β)} (hd : (keys d).Nodup) {updates : List (κ × β)}
    (h : ∀ kv ∈ updates, d.lookup kv.1 = some kv.2) : update d updates = d := by
  induction updates with
  | nil => rfl
  | cons kv updates ih =>
    obtain ⟨hkv, hrest⟩ := List.forall_mem_cons.mp h
    rw [update, List.foldl_cons, set_of_lookup hd hkv]
    exact ih hrest

/-! ## Keys under another name -/

variable {κ' : Type} [DecidableEq κ'] [BEq κ'] [LawfulBEq κ']

/-- The dictionary with its keys renamed. -/
def rename (f : κ → κ') (d : List (κ × β)) : List (κ' × β) := d.map fun kv => (f kv.1, kv.2)

omit [DecidableEq κ] [DecidableEq κ'] in
theorem lookup_rename {f : κ → κ'} (hf : Function.Injective f) (d : List (κ × β)) (key : κ) :
    (rename f d).lookup (f key) = d.lookup key := by
  induction d with
  | nil => rfl
  | cons kv d ih =>
    rw [rename, List.map_cons, List.lookup_cons, List.lookup_cons]
    by_cases hkey : key = kv.1
    · simp [hkey]
    · rw [beq_eq_false_iff_ne.mpr hkey, beq_eq_false_iff_ne.mpr (fun h => hkey (hf h))]
      exact ih

/-- An assignment does not see names that differ where the keys do. -/
theorem set_rename {f : κ → κ'} (hf : Function.Injective f) (d : List (κ × β)) (key : κ)
    (value : β) : set (rename f d) (f key) value = rename f (set d key value) := by
  rw [set, set, lookup_rename hf]
  split_ifs
  · rw [rename, rename, List.map_map, List.map_map]
    refine List.map_congr_left fun kv _ => ?_
    by_cases hkey : kv.1 = key
    · simp [hkey]
    · simp [hkey, hf.ne hkey]
  · simp [rename]

end TxLookup.Library.Assoc

import TxLookup.Library.Settle
import Mathlib.Data.List.Nodup
import Mathlib.Data.List.Perm.Basic

/-!
# Tables with a primary key

Rows carry their key, keys are unique, and the one write is "insert, or on a
conflict replace the row if a relation allows it". A column of a table seen at
one key is a register (`Settle`), which is how runs of writes are analysed.
-/
namespace TxLookup.Library

open Settle

/-- Rows whose keys are pairwise distinct. -/
structure KeyedTable {κ ρ : Type*} (key : ρ → κ) where
  rows : List ρ
  nodup : (rows.map key).Nodup

namespace KeyedTable

variable {κ ρ β : Type*} {key : ρ → κ}

def empty : KeyedTable key := ⟨[], List.nodup_nil⟩

theorem eq_of_key (t : KeyedTable key) {x y : ρ} (hx : x ∈ t.rows) (hy : y ∈ t.rows)
    (h : key x = key y) : x = y :=
  List.inj_on_of_nodup_map t.nodup hx hy h

variable [DecidableEq κ]

def find? (t : KeyedTable key) (k : κ) : Option ρ := t.rows.find? (fun r => key r = k)

theorem find?_eq_some_iff (t : KeyedTable key) {k : κ} {r : ρ} :
    t.find? k = some r ↔ r ∈ t.rows ∧ key r = k := by
  constructor
  · intro h
    exact ⟨List.mem_of_find?_eq_some h, by simpa using List.find?_some h⟩
  · rintro ⟨hr, hk⟩
    cases hf : t.find? k with
    | none =>
      have h := List.find?_eq_none.mp hf r hr
      simp [hk] at h
    | some x =>
      have hx : key x = k := by simpa using List.find?_some hf
      exact congrArg some (t.eq_of_key (List.mem_of_find?_eq_some hf) hr (hx.trans hk.symm))

theorem find?_eq_none_iff (t : KeyedTable key) {k : κ} :
    t.find? k = none ↔ ∀ r ∈ t.rows, key r ≠ k := by
  simp [find?, List.find?_eq_none]

theorem find?_of_mem (t : KeyedTable key) {r : ρ} (h : r ∈ t.rows) : t.find? (key r) = some r :=
  t.find?_eq_some_iff.mpr ⟨h, rfl⟩

theorem key_of_find? (t : KeyedTable key) {k : κ} {r : ρ} (h : t.find? k = some r) : key r = k :=
  (t.find?_eq_some_iff.mp h).2

/-- The row a conflicting insert leaves in place of `old`. -/
def resolve (key : ρ → κ) (wins : ρ → ρ → Bool) (new old : ρ) : ρ :=
  if key old = key new ∧ wins new old = true then new else old

theorem key_resolve (key : ρ → κ) (wins : ρ → ρ → Bool) (new old : ρ) :
    key (resolve key wins new old) = key old := by
  unfold resolve
  split
  · rename_i h; exact h.1.symm
  · rfl

/-- `INSERT … ON CONFLICT (key) DO UPDATE SET <all other columns> WHERE wins`. -/
def upsert (wins : ρ → ρ → Bool) (new : ρ) (t : KeyedTable key) : KeyedTable key :=
  if h : ∃ r ∈ t.rows, key r = key new then
    ⟨t.rows.map (resolve key wins new), by
      have he : (t.rows.map (resolve key wins new)).map key = t.rows.map key := by
        rw [List.map_map]
        exact List.map_congr_left (fun r _ => key_resolve key wins new r)
      rw [he]
      exact t.nodup⟩
  else
    ⟨t.rows ++ [new], by
      rw [List.map_append, List.nodup_append]
      refine ⟨t.nodup, List.nodup_singleton _, ?_⟩
      intro a ha b hb
      obtain ⟨r, hr, rfl⟩ := List.mem_map.mp ha
      rw [List.map_singleton, List.mem_singleton] at hb
      subst hb
      exact fun hk => h ⟨r, hr, hk⟩⟩

/-- A write reaches the row of its own key as one offer to a register. -/
theorem find?_upsert_self (wins : ρ → ρ → Bool) (new : ρ) (t : KeyedTable key) :
    (t.upsert wins new).find? (key new) = offer wins (t.find? (key new)) new := by
  unfold upsert
  split
  · rename_i h
    obtain ⟨old, ho, hk⟩ := h
    have hf : t.find? (key new) = some old := t.find?_eq_some_iff.mpr ⟨ho, hk⟩
    rw [find?_eq_some_iff _ |>.mpr ⟨List.mem_map_of_mem ho, (key_resolve key wins new old).trans hk⟩, hf]
    by_cases hw : wins new old <;> simp [resolve, offer, hk, hw]
  · rename_i h
    have hf : t.find? (key new) = none :=
      t.find?_eq_none_iff.mpr (fun r hr hk => h ⟨r, hr, hk⟩)
    rw [hf]
    exact (find?_eq_some_iff _).mpr ⟨List.mem_append_right _ (List.mem_singleton_self new), rfl⟩

/-- Every other key is untouched. -/
theorem find?_upsert_ne (wins : ρ → ρ → Bool) (new : ρ) (t : KeyedTable key) {k : κ}
    (hk : k ≠ key new) : (t.upsert wins new).find? k = t.find? k := by
  unfold upsert
  split
  · have hres : ∀ r, key r = k → resolve key wins new r = r := by
      intro r hr
      have hn : ¬ (key r = key new ∧ wins new r = true) := fun h => hk (hr.symm.trans h.1)
      simp only [resolve, hn, ↓reduceIte]
    cases hf : t.find? k with
    | none =>
      rw [find?_eq_none_iff] at hf ⊢
      intro r hr
      obtain ⟨x, hx, rfl⟩ := List.mem_map.mp hr
      rw [key_resolve key wins new x]
      exact hf x hx
    | some r =>
      obtain ⟨hr, hrk⟩ := t.find?_eq_some_iff.mp hf
      refine (find?_eq_some_iff _).mpr ⟨?_, hrk⟩
      exact List.mem_map.mpr ⟨r, hr, hres r hrk⟩
  · change (t.rows ++ [new]).find? _ = t.rows.find? _
    rw [List.find?_append, List.find?_singleton]
    simp [Ne.symm hk]

theorem find?_upsert (wins : ρ → ρ → Bool) (new : ρ) (t : KeyedTable key) (k : κ) :
    (t.upsert wins new).find? k = if k = key new then offer wins (t.find? k) new else t.find? k := by
  by_cases h : k = key new
  · rw [if_pos h, h, find?_upsert_self]
  · rw [if_neg h, find?_upsert_ne wins new t h]

/-- After a write, a row is the new one or an old one. -/
theorem mem_upsert {wins : ρ → ρ → Bool} {new x : ρ} {t : KeyedTable key}
    (h : x ∈ (t.upsert wins new).rows) : x = new ∨ x ∈ t.rows := by
  have hf := find?_of_mem _ h
  rw [find?_upsert] at hf
  by_cases hk : key x = key new
  · rw [if_pos hk] at hf
    rcases offer_cases wins (t.find? (key x)) new with ho | ho
    · exact Or.inl (Option.some.inj (hf.symm.trans ho))
    · exact Or.inr (t.find?_eq_some_iff.mp (ho.symm.trans hf)).1
  · rw [if_neg hk] at hf
    exact Or.inr (t.find?_eq_some_iff.mp hf).1

/-- A row of another key survives the write. -/
theorem mem_upsert_of_ne {wins : ρ → ρ → Bool} {new x : ρ} {t : KeyedTable key}
    (h : x ∈ t.rows) (hk : key x ≠ key new) : x ∈ (t.upsert wins new).rows := by
  have hf := t.find?_of_mem h
  rw [← find?_upsert_ne wins new t hk] at hf
  exact ((find?_eq_some_iff _).mp hf).1

theorem filter_map_resolve {wins : ρ → ρ → Bool} {new : ρ} {p : ρ → Bool}
    (hnew : p new = false) {rows : List ρ} (hold : ∀ r ∈ rows, key r = key new → p r = false) :
    (rows.map (resolve key wins new)).filter p = rows.filter p := by
  induction rows with
  | nil => rfl
  | cons r rows ih =>
    have ih := ih (fun x hx => hold x (List.mem_cons_of_mem r hx))
    rw [List.map_cons]
    by_cases hk : key r = key new
    · have hr := hold r List.mem_cons_self hk
      have hres : p (resolve key wins new r) = false := by
        unfold resolve
        split
        · exact hnew
        · exact hr
      rw [List.filter_cons_of_neg (by simp [hres]), List.filter_cons_of_neg (by simp [hr]), ih]
    · have hres : resolve key wins new r = r := if_neg (fun h => hk h.1)
      rw [hres, List.filter_cons, List.filter_cons, ih]

/-- A write whose row, old and new, lies outside a selection leaves the selection alone. -/
theorem filter_upsert {wins : ρ → ρ → Bool} {new : ρ} {t : KeyedTable key} {p : ρ → Bool}
    (hnew : p new = false) (hold : ∀ r ∈ t.rows, key r = key new → p r = false) :
    (t.upsert wins new).rows.filter p = t.rows.filter p := by
  unfold upsert
  split
  · exact filter_map_resolve hnew hold
  · change (t.rows ++ [new]).filter p = t.rows.filter p
    rw [List.filter_append, List.filter_singleton, hnew]
    exact List.append_nil _

/-! ## Runs of writes -/

def upsertAll (wins : ρ → ρ → Bool) (news : List ρ) (t : KeyedTable key) : KeyedTable key :=
  news.foldl (fun t new => t.upsert wins new) t

/-- At one key a run of writes is a run of offers, whatever happens at other keys. -/
theorem find?_upsertAll (wins : ρ → ρ → Bool) (news : List ρ) (t : KeyedTable key) (k : κ) :
    (t.upsertAll wins news).find? k =
      settleFrom wins (t.find? k) (news.filter (fun r => key r = k)) := by
  induction news generalizing t with
  | nil => rfl
  | cons new news ih =>
    change ((t.upsert wins new).upsertAll wins news).find? k = _
    rw [ih, find?_upsert]
    by_cases hk : k = key new
    · rw [if_pos hk, List.filter_cons_of_pos (by simp [hk])]
      rfl
    · rw [if_neg hk, List.filter_cons_of_neg (by simp [Ne.symm hk])]

/-! ## Tables that agree after a projection -/

/-- Equal at every key once both rows are projected by `f`. -/
def Agree (f : ρ → β) (t₁ t₂ : KeyedTable key) : Prop :=
  ∀ k, (t₁.find? k).map f = (t₂.find? k).map f

theorem Agree.symm {f : ρ → β} {t₁ t₂ : KeyedTable key} (h : Agree f t₁ t₂) : Agree f t₂ t₁ :=
  fun k => (h k).symm

theorem Agree.exists_mem {f : ρ → β} {t₁ t₂ : KeyedTable key} (h : Agree f t₁ t₂) {x : ρ}
    (hx : x ∈ t₁.rows) : ∃ y ∈ t₂.rows, key y = key x ∧ f y = f x := by
  have hk := h (key x)
  rw [t₁.find?_of_mem hx] at hk
  cases hf : t₂.find? (key x) with
  | none => rw [hf] at hk; cases hk
  | some y =>
    rw [hf] at hk
    obtain ⟨hy, hyk⟩ := t₂.find?_eq_some_iff.mp hf
    exact ⟨y, hy, hyk, (Option.some.inj hk).symm⟩

end KeyedTable

end TxLookup.Library

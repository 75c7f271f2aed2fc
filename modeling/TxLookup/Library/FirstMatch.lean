import Mathlib.Data.List.Perm.Basic

/-!
# The first match of a list

`find?` returns the first element that passes a test. A rearrangement of the
list changes it exactly if more than one element passes.
-/
namespace TxLookup.Library.FirstMatch

variable {α : Type*} {p : α → Bool} {l l' : List α}

/-- At most one element of the list passes the test. -/
def AtMostOne (p : α → Bool) (l : List α) : Prop :=
  ∀ x ∈ l, ∀ y ∈ l, p x = true → p y = true → x = y

theorem AtMostOne.find?_perm (hu : AtMostOne p l) (hp : l'.Perm l) : l'.find? p = l.find? p := by
  cases h : l.find? p with
  | none =>
    rw [List.find?_eq_none] at h ⊢
    exact fun x hx => h x (hp.mem_iff.mp hx)
  | some x =>
    have hx := List.mem_of_find?_eq_some h
    have hpx := List.find?_some h
    have hsome : (l'.find? p).isSome := List.find?_isSome.mpr ⟨x, hp.mem_iff.mpr hx, hpx⟩
    obtain ⟨y, hy⟩ := Option.isSome_iff_exists.mp hsome
    have hyl := hp.mem_iff.mp (List.mem_of_find?_eq_some hy)
    rw [hy, hu x hx y hyl hpx (List.find?_some hy)]

/-- Any element can be brought to the front. -/
theorem exists_perm_front {x : α} (hx : x ∈ l) : ∃ rest, (x :: rest).Perm l := by
  obtain ⟨pre, post, rfl⟩ := List.append_of_mem hx
  exact ⟨pre ++ post, List.perm_middle.symm⟩

/-- An element that passes is the first match of some rearrangement. -/
theorem exists_perm_find? {x : α} (hx : x ∈ l) (hpx : p x = true) :
    ∃ l' : List α, l'.Perm l ∧ l'.find? p = some x := by
  obtain ⟨rest, hrest⟩ := exists_perm_front hx
  exact ⟨x :: rest, hrest, List.find?_cons_of_pos hpx⟩

end TxLookup.Library.FirstMatch

import TxLookup.Library.PyValue
import TxLookup.Library.Assoc
import Mathlib.Algebra.Order.Ring.Int
import Mathlib.Data.List.Perm.Subperm
import Mathlib.Tactic.Ring

/-!
# Python's equality

Off NaN, and for objects with distinct keys, `==` is an equivalence: numbers are
compared by value across their types, lists item by item, and dictionaries key
by key in any order.
-/
namespace TxLookup.Library

/-! ## Numbers -/

/-- The mantissa at a lower exponent. -/
def aligned (low : Int) (mantissa : Nat) (exponent : Int) : Nat :=
  mantissa * 2 ^ (exponent - low).toNat

theorem aligned_eq_iff {low lower e e' : Int} {m m' : Nat} (hlow : lower ≤ low) (he : low ≤ e)
    (he' : low ≤ e') : aligned lower m e = aligned lower m' e' ↔
      aligned low m e = aligned low m' e' := by
  have hsplit : ∀ {x : Int}, low ≤ x → (x - lower).toNat = (x - low).toNat + (low - lower).toNat := by
    intro x hx
    omega
  unfold aligned
  rw [hsplit he, hsplit he', pow_add, pow_add, ← mul_assoc, ← mul_assoc]
  exact mul_left_inj' (Nat.two_pow_pos _).ne'

theorem aligned_eq_zero {low e : Int} {m : Nat} : aligned low m e = 0 ↔ m = 0 := by
  simp [aligned]

/-- Any common lower exponent decides. -/
theorem numEq_finite_iff {low e e' : Int} {n n' : Bool} {m m' : Nat} (he : low ≤ e) (he' : low ≤ e') :
    (PyFloat.finite n m e).numEq (.finite n' m' e') = true ↔
      aligned low m e = aligned low m' e' ∧ (n = n' ∨ m = 0) := by
  rw [aligned_eq_iff (le_min he he') (min_le_left e e') (min_le_right e e')]
  simp only [PyFloat.numEq, aligned, Bool.and_eq_true, Bool.or_eq_true, beq_iff_eq]

namespace PyFloat

theorem numEq_refl {x : PyFloat} (h : x ≠ .nan) : x.numEq x = true := by
  cases x with
  | finite n m e => exact (numEq_finite_iff le_rfl le_rfl).mpr ⟨rfl, .inl rfl⟩
  | inf n => exact beq_self_eq_true n
  | nan => exact absurd rfl h

theorem numEq_symm {x y : PyFloat} (h : x.numEq y = true) : y.numEq x = true := by
  cases x with
  | finite n m e =>
    cases y with
    | finite n' m' e' =>
      obtain ⟨hm, hn⟩ := (numEq_finite_iff (min_le_left e e') (min_le_right e e')).mp h
      refine (numEq_finite_iff (min_le_right e e') (min_le_left e e')).mpr ⟨hm.symm, ?_⟩
      rcases hn with hn | hn
      · exact .inl hn.symm
      · exact .inr (aligned_eq_zero.mp (hm ▸ aligned_eq_zero.mpr hn))
    | inf _ => cases h
    | nan => cases h
  | inf n =>
    cases y with
    | inf n' => exact beq_iff_eq.mpr (beq_iff_eq.mp h).symm
    | finite _ _ _ => cases h
    | nan => cases h
  | nan => cases y <;> cases h

theorem numEq_trans {x y z : PyFloat} (h : x.numEq y = true) (h' : y.numEq z = true) :
    x.numEq z = true := by
  cases y with
  | finite n' m' e' =>
    cases x with
    | finite n m e =>
      cases z with
      | finite n'' m'' e'' =>
        have he : min (min e e') e'' ≤ e := (min_le_left _ _).trans (min_le_left _ _)
        have he' : min (min e e') e'' ≤ e' := (min_le_left _ _).trans (min_le_right _ _)
        have he'' : min (min e e') e'' ≤ e'' := min_le_right _ _
        obtain ⟨hm, hn⟩ := (numEq_finite_iff he he').mp h
        obtain ⟨hm', hn'⟩ := (numEq_finite_iff he' he'').mp h'
        refine (numEq_finite_iff he he'').mpr ⟨hm.trans hm', ?_⟩
        rcases hn with hn | hn
        · rcases hn' with hn' | hn'
          · exact .inl (hn.trans hn')
          · exact .inr (aligned_eq_zero.mp (hm ▸ aligned_eq_zero.mpr hn'))
        · exact .inr hn
      | inf _ => cases h'
      | nan => cases h'
    | inf _ => cases h
    | nan => cases h
  | inf n' =>
    cases x with
    | inf n =>
      cases z with
      | inf n'' => exact beq_iff_eq.mpr ((beq_iff_eq.mp h).trans (beq_iff_eq.mp h'))
      | finite _ _ _ => cases h'
      | nan => cases h'
    | finite _ _ _ => cases h
    | nan => cases h
  | nan => cases x <;> cases h

end PyFloat

/-! ## Values -/

namespace Json

/-- Induction over the values inside lists and objects. -/
theorem induction {P : Json → Prop} (null : P .null) (bool : ∀ b, P (.bool b))
    (int : ∀ n, P (.int n)) (float : ∀ x, P (.float x)) (str : ∀ s, P (.str s))
    (arr : ∀ items, (∀ x ∈ items, P x) → P (.arr items))
    (obj : ∀ fields, (∀ kv ∈ fields, P kv.2) → P (.obj fields)) (a : Json) : P a := by
  refine @Json.rec P (fun items => ∀ x ∈ items, P x) (fun fields => ∀ kv ∈ fields, P kv.2)
    (fun kv => P kv.2) null bool int float str arr obj ?_ ?_ ?_ ?_ ?_ a
  · exact fun x hx => by cases hx
  · exact fun x items hx hitems => List.forall_mem_cons.mpr ⟨hx, hitems⟩
  · exact fun kv hkv => by cases hkv
  · exact fun kv fields hkv hfields => List.forall_mem_cons.mpr ⟨hkv, hfields⟩
  · exact fun _ _ h => h

mutual

/-- A value without NaN whose objects have distinct keys. -/
def Proper : Json → Prop
  | .float x => x ≠ .nan
  | .arr items => ProperItems items
  | .obj fields => (Assoc.keys fields).Nodup ∧ ProperFields fields
  | _ => True

def ProperItems : List Json → Prop
  | [] => True
  | x :: items => x.Proper ∧ ProperItems items

def ProperFields : List (PyStr × Json) → Prop
  | [] => True
  | (_, x) :: fields => x.Proper ∧ ProperFields fields

end

theorem properItems_iff {items : List Json} : ProperItems items ↔ ∀ x ∈ items, x.Proper := by
  induction items with
  | nil => simp [ProperItems]
  | cons x items ih => rw [ProperItems, ih, List.forall_mem_cons]

theorem properFields_iff {fields : List (PyStr × Json)} :
    ProperFields fields ↔ ∀ kv ∈ fields, kv.2.Proper := by
  induction fields with
  | nil => simp [ProperFields]
  | cons kv fields ih =>
    obtain ⟨k, x⟩ := kv
    rw [ProperFields, ih, List.forall_mem_cons]

theorem pyEqItems_iff {xs ys : List Json} :
    pyEqItems xs ys = true ↔ List.Forall₂ (fun x y => x.pyEq y = true) xs ys := by
  induction xs generalizing ys with
  | nil => cases ys <;> simp [pyEqItems]
  | cons x xs ih => cases ys <;> simp [pyEqItems, ih]

theorem pyEqFields_iff {xs ys : List (PyStr × Json)} : pyEqFields xs ys = true ↔
    ∀ kv ∈ xs, ∃ y, ys.lookup kv.1 = some y ∧ kv.2.pyEq y = true := by
  induction xs with
  | nil => simp [pyEqFields]
  | cons kv xs ih =>
    obtain ⟨k, x⟩ := kv
    rw [pyEqFields, Bool.and_eq_true, ih, List.forall_mem_cons]
    cases ys.lookup k <;> simp

/-- A number equals exactly the numbers of its value. -/
theorem pyEq_number {a b : Json} {x : PyFloat} (ha : a.number = some x) :
    a.pyEq b = true ↔ ∃ y, b.number = some y ∧ x.numEq y = true := by
  cases a with
  | bool _ | int _ | float _ =>
    cases b <;> simp_all [pyEq, number]
  | null => cases ha
  | str _ => cases ha
  | arr _ => cases ha
  | obj _ => cases ha

theorem pyEq_number_symm {a b : Json} {x : PyFloat} (ha : a.number = some x)
    (h : a.pyEq b = true) : b.pyEq a = true := by
  obtain ⟨y, hy, heq⟩ := (pyEq_number ha).mp h
  exact (pyEq_number hy).mpr ⟨x, ha, PyFloat.numEq_symm heq⟩

theorem pyEq_null {b : Json} : pyEq .null b = true ↔ b = .null := by
  cases b with
  | null => exact iff_of_true rfl rfl
  | _ => exact iff_of_false Bool.false_ne_true (fun h => by cases h)

theorem pyEq_str {s : PyStr} {b : Json} : (str s).pyEq b = true ↔ b = .str s := by
  cases b with
  | str t =>
    show (s == t) = true ↔ str t = str s
    rw [beq_iff_eq, Json.str.injEq, eq_comm]
  | _ => exact iff_of_false Bool.false_ne_true (fun h => by cases h)

theorem pyEq_str_right {s : PyStr} {a : Json} : a.pyEq (.str s) = true ↔ a = .str s := by
  cases a with
  | str t =>
    show (t == s) = true ↔ str t = str s
    rw [beq_iff_eq, Json.str.injEq]
  | _ => exact iff_of_false Bool.false_ne_true (fun h => by cases h)

theorem pyEq_arr {items : List Json} {b : Json} : (arr items).pyEq b = true ↔
    ∃ ys, b = .arr ys ∧ List.Forall₂ (fun x y => x.pyEq y = true) items ys := by
  cases b with
  | arr ys =>
    show pyEqItems items ys = true ↔ _
    rw [pyEqItems_iff]
    constructor
    · exact fun h => ⟨ys, rfl, h⟩
    · rintro ⟨_, hys, h⟩
      cases hys
      exact h
  | _ => exact iff_of_false Bool.false_ne_true (by rintro ⟨_, h, -⟩; cases h)

theorem pyEq_obj {fields : List (PyStr × Json)} {b : Json} : (obj fields).pyEq b = true ↔
    ∃ ys, b = .obj ys ∧ fields.length = ys.length ∧
      ∀ kv ∈ fields, ∃ y, ys.lookup kv.1 = some y ∧ kv.2.pyEq y = true := by
  cases b with
  | obj ys =>
    show (fields.length == ys.length && pyEqFields fields ys) = true ↔ _
    rw [Bool.and_eq_true, beq_iff_eq, pyEqFields_iff]
    constructor
    · exact fun ⟨hlength, h⟩ => ⟨ys, rfl, hlength, h⟩
    · rintro ⟨_, hys, hlength, h⟩
      cases hys
      exact ⟨hlength, h⟩
  | _ => exact iff_of_false Bool.false_ne_true (by rintro ⟨_, h, -⟩; cases h)

/-- Only numbers equal a number. -/
theorem pyEq_number_right {a b : Json} {x : PyFloat} (hb : b.number = some x)
    (h : a.pyEq b = true) : b.pyEq a = true := by
  cases a with
  | bool _ | int _ | float _ => exact pyEq_number_symm rfl h
  | null =>
    cases pyEq_null.mp h
    cases hb
  | str s =>
    cases pyEq_str.mp h
    cases hb
  | arr items =>
    obtain ⟨ys, rfl, -⟩ := pyEq_arr.mp h
    cases hb
  | obj fields =>
    obtain ⟨ys, rfl, -⟩ := pyEq_obj.mp h
    cases hb

theorem pyEq_refl {a : Json} (h : a.Proper) : a.pyEq a = true := by
  induction a using induction with
  | null => exact pyEq_null.mpr rfl
  | bool b => exact (pyEq_number rfl).mpr ⟨_, rfl, PyFloat.numEq_refl (by simp)⟩
  | int n => exact (pyEq_number rfl).mpr ⟨_, rfl, PyFloat.numEq_refl (by simp)⟩
  | float x => exact (pyEq_number rfl).mpr ⟨_, rfl, PyFloat.numEq_refl h⟩
  | str s => exact pyEq_str.mpr rfl
  | arr items ih =>
    refine pyEq_arr.mpr ⟨items, rfl, List.forall₂_same.mpr fun x hx => ?_⟩
    exact ih x hx (properItems_iff.mp h x hx)
  | obj fields ih =>
    refine pyEq_obj.mpr ⟨fields, rfl, rfl, fun kv hkv => ⟨kv.2, Assoc.lookup_of_mem h.1 hkv, ?_⟩⟩
    exact ih kv hkv (properFields_iff.mp h.2 kv hkv)

/-- With as many distinct keys on both sides, equal fields cover all keys. -/
theorem fields_covered {xs ys : List (PyStr × Json)} (hxs : (Assoc.keys xs).Nodup)
    (hlength : xs.length = ys.length)
    (h : ∀ kv ∈ xs, ∃ y, ys.lookup kv.1 = some y ∧ kv.2.pyEq y = true) {k : PyStr} {y : Json}
    (hy : (k, y) ∈ ys) : ∃ x, (k, x) ∈ xs := by
  have hsub : Assoc.keys xs ⊆ Assoc.keys ys := by
    intro k hk
    obtain ⟨kv, hkv, rfl⟩ := List.mem_map.mp hk
    obtain ⟨y, hy, -⟩ := h kv hkv
    exact List.mem_map.mpr ⟨_, Assoc.mem_of_lookup hy, rfl⟩
  have hperm : List.Subperm (Assoc.keys xs) (Assoc.keys ys) := List.subperm_of_subset hxs hsub
  have hall : (Assoc.keys xs).Perm (Assoc.keys ys) :=
    List.Subperm.perm_of_length_le hperm (by simp [Assoc.keys, hlength])
  have hk : k ∈ Assoc.keys xs := hall.mem_iff.mpr (List.mem_map.mpr ⟨_, hy, rfl⟩)
  obtain ⟨kv, hkv, rfl⟩ := List.mem_map.mp hk
  exact ⟨kv.2, hkv⟩

theorem forall₂_flip {R S : Json → Json → Prop} {xs ys : List Json} (h : List.Forall₂ R xs ys)
    (hRS : ∀ x ∈ xs, ∀ y ∈ ys, R x y → S y x) : List.Forall₂ S ys xs := by
  induction h with
  | nil => exact .nil
  | cons hxy _ ih =>
    refine .cons (hRS _ List.mem_cons_self _ List.mem_cons_self hxy) (ih fun x hx y hy => ?_)
    exact hRS x (List.mem_cons_of_mem _ hx) y (List.mem_cons_of_mem _ hy)

theorem forall₂_trans {R S T : Json → Json → Prop} {xs ys zs : List Json}
    (h : List.Forall₂ R xs ys) (h' : List.Forall₂ S ys zs)
    (hRST : ∀ x ∈ xs, ∀ y ∈ ys, ∀ z ∈ zs, R x y → S y z → T x z) : List.Forall₂ T xs zs := by
  induction h generalizing zs with
  | nil =>
    cases h'
    exact .nil
  | cons hxy _ ih =>
    cases h' with
    | cons hyz h' =>
      refine .cons (hRST _ List.mem_cons_self _ List.mem_cons_self _ List.mem_cons_self hxy hyz)
        (ih h' fun x hx y hy z hz => ?_)
      exact hRST x (List.mem_cons_of_mem _ hx) y (List.mem_cons_of_mem _ hy) z
        (List.mem_cons_of_mem _ hz)

theorem pyEq_symm {a b : Json} (ha : a.Proper) (hb : b.Proper) (h : a.pyEq b = true) :
    b.pyEq a = true := by
  induction a using induction generalizing b with
  | null => rw [pyEq_null.mp h, pyEq_null]
  | bool _ | int _ | float _ =>
    obtain ⟨y, hy, heq⟩ := (pyEq_number rfl).mp h
    exact (pyEq_number hy).mpr ⟨_, rfl, PyFloat.numEq_symm heq⟩
  | str s => rw [pyEq_str.mp h, pyEq_str]
  | arr items ih =>
    obtain ⟨ys, rfl, hitems⟩ := pyEq_arr.mp h
    refine pyEq_arr.mpr ⟨items, rfl, forall₂_flip hitems fun x hx y hy => ?_⟩
    exact ih x hx (properItems_iff.mp ha x hx) (properItems_iff.mp hb y hy)
  | obj fields ih =>
    obtain ⟨ys, rfl, hlength, hfields⟩ := pyEq_obj.mp h
    refine pyEq_obj.mpr ⟨fields, rfl, hlength.symm, fun kv hkv => ?_⟩
    obtain ⟨x, hx⟩ := fields_covered ha.1 hlength hfields hkv
    obtain ⟨y, hy, heq⟩ := hfields _ hx
    rw [Assoc.lookup_of_mem hb.1 hkv] at hy
    obtain rfl := Option.some.inj hy
    exact ⟨x, Assoc.lookup_of_mem ha.1 hx, ih _ hx (properFields_iff.mp ha.2 _ hx)
      (properFields_iff.mp hb.2 kv hkv) heq⟩

theorem pyEq_trans {a b c : Json} (h : a.pyEq b = true) (h' : b.pyEq c = true) :
    a.pyEq c = true := by
  induction a using induction generalizing b c with
  | null =>
    obtain rfl := pyEq_null.mp h
    exact h'
  | bool _ | int _ | float _ =>
    obtain ⟨y, hy, heq⟩ := (pyEq_number rfl).mp h
    obtain ⟨z, hz, heq'⟩ := (pyEq_number hy).mp h'
    exact (pyEq_number rfl).mpr ⟨z, hz, PyFloat.numEq_trans heq heq'⟩
  | str s =>
    obtain rfl := pyEq_str.mp h
    exact h'
  | arr items ih =>
    obtain ⟨ys, rfl, hitems⟩ := pyEq_arr.mp h
    obtain ⟨zs, rfl, hitems'⟩ := pyEq_arr.mp h'
    exact pyEq_arr.mpr ⟨zs, rfl, forall₂_trans hitems hitems' fun x hx y _ z _ => ih x hx⟩
  | obj fields ih =>
    obtain ⟨ys, rfl, hlength, hfields⟩ := pyEq_obj.mp h
    obtain ⟨zs, rfl, hlength', hfields'⟩ := pyEq_obj.mp h'
    refine pyEq_obj.mpr ⟨zs, rfl, hlength.trans hlength', fun kv hkv => ?_⟩
    obtain ⟨y, hy, heq⟩ := hfields kv hkv
    obtain ⟨z, hz, heq'⟩ := hfields' _ (Assoc.mem_of_lookup hy)
    exact ⟨z, hz, ih kv hkv heq heq'⟩

end Json

end TxLookup.Library

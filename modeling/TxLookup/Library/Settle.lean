import Mathlib.Data.List.Perm.Basic
import Mathlib.Data.List.Nodup
import Mathlib.Data.List.Induction
import Mathlib.Order.Lattice

/-!
# Registers that keep the last accepted offer

A register starts empty, takes its first offer, and afterwards replaces its
value by an offer only when a relation `rep new old` says so. Nothing here
assumes that `rep` is an order; each result names the part of an order it uses.
-/
namespace TxLookup.Library.Settle

variable {α β : Type*}

/-- One offer to a register. -/
def offer (rep : α → α → Bool) : Option α → α → Option α
  | none, new => some new
  | some old, new => if rep new old then some new else some old

def settleFrom (rep : α → α → Bool) (cur : Option α) (offers : List α) : Option α :=
  offers.foldl (offer rep) cur

/-- The value an initially empty register holds after a list of offers. -/
def settle (rep : α → α → Bool) (offers : List α) : Option α := settleFrom rep none offers

theorem settleFrom_append (rep : α → α → Bool) (cur : Option α) (l₁ l₂ : List α) :
    settleFrom rep cur (l₁ ++ l₂) = settleFrom rep (settleFrom rep cur l₁) l₂ :=
  List.foldl_append

theorem settle_append (rep : α → α → Bool) (l₁ l₂ : List α) :
    settle rep (l₁ ++ l₂) = settleFrom rep (settle rep l₁) l₂ :=
  settleFrom_append rep none l₁ l₂

theorem settle_concat (rep : α → α → Bool) (l : List α) (x : α) :
    settle rep (l ++ [x]) = offer rep (settle rep l) x := by
  rw [settle_append]
  rfl

theorem offer_cases (rep : α → α → Bool) (cur : Option α) (x : α) :
    offer rep cur x = some x ∨ offer rep cur x = cur := by
  cases cur with
  | none => exact Or.inl rfl
  | some old => by_cases h : rep x old <;> simp [offer, h]

theorem offer_isSome (rep : α → α → Bool) (cur : Option α) (x : α) :
    ∃ y, offer rep cur x = some y := by
  cases cur with
  | none => exact ⟨x, rfl⟩
  | some old => by_cases h : rep x old <;> simp [offer, h]

/-- The register never holds anything that was not offered. -/
theorem settle_mem {rep : α → α → Bool} {l : List α} {m : α} (h : settle rep l = some m) :
    m ∈ l := by
  induction l using List.reverseRecOn generalizing m with
  | nil => cases h
  | append_singleton l x ih =>
    rw [settle_concat] at h
    rcases offer_cases rep (settle rep l) x with hx | hx
    · rw [hx] at h
      obtain rfl := Option.some.inj h
      exact List.mem_append_right l (List.mem_singleton_self x)
    · rw [hx] at h
      exact List.mem_append_left [x] (ih h)

theorem settle_isSome (rep : α → α → Bool) {l : List α} (hl : l ≠ []) :
    ∃ m, settle rep l = some m := by
  induction l using List.reverseRecOn with
  | nil => exact absurd rfl hl
  | append_singleton l x _ =>
    rw [settle_concat]
    exact offer_isSome rep _ x

theorem settle_map {rep : α → α → Bool} {rep' : β → β → Bool} (f : α → β) {l : List α}
    (h : l.Pairwise (fun old new => rep new old = rep' (f new) (f old))) :
    (settle rep l).map f = settle rep' (l.map f) := by
  induction l using List.reverseRecOn with
  | nil => rfl
  | append_singleton l x ih =>
    rw [List.pairwise_append] at h
    rw [List.map_append, List.map_singleton, settle_concat, settle_concat, ← ih h.1]
    cases hs : settle rep l with
    | none => rfl
    | some old =>
      have hr := h.2.2 old (settle_mem hs) x (List.mem_singleton_self x)
      simp only [offer, Option.map_some, ← hr]
      by_cases hc : rep x old <;> simp [hc]

/-! ## A strict top decides every order of arrival -/

/-- `m` displaces every other offer and is displaced by none of them. -/
def Top (rep : α → α → Bool) (l : List α) (m : α) : Prop :=
  m ∈ l ∧ ∀ x ∈ l, x ≠ m → rep m x = true ∧ rep x m = false

theorem Top.perm {rep : α → α → Bool} {l l' : List α} {m : α} (hp : l.Perm l')
    (h : Top rep l m) : Top rep l' m :=
  ⟨hp.mem_iff.mp h.1, fun x hx => h.2 x (hp.mem_iff.mpr hx)⟩

/-- Once the top has arrived, it stays; when it arrives, it is accepted. -/
theorem settle_of_top {rep : α → α → Bool} {l : List α} {m : α} (h : Top rep l m) :
    settle rep l = some m := by
  obtain ⟨hm, hl⟩ := h
  induction l using List.reverseRecOn with
  | nil => cases hm
  | append_singleton l x ih =>
    rw [settle_concat]
    have hl' : ∀ y ∈ l, y ≠ m → rep m y = true ∧ rep y m = false :=
      fun y hy => hl y (List.mem_append_left _ hy)
    by_cases hx : x = m
    · subst hx
      cases hs : settle rep l with
      | none => rfl
      | some old =>
        by_cases ho : old = x
        · subst ho
          by_cases hr : rep old old <;> simp [offer, hr]
        · simp only [offer, (hl' old (settle_mem hs) ho).1, ↓reduceIte]
    · have hml : m ∈ l := by
        rcases List.mem_append.mp hm with h | h
        · exact h
        · exact absurd (List.mem_singleton.mp h).symm hx
      have hr := (hl x (List.mem_append_right l (List.mem_singleton_self x)) hx).2
      rw [ih hml hl']
      simp [offer, hr]

theorem settleFrom_eq_or_mem (rep : α → α → Bool) (cur : Option α) (l : List α) :
    settleFrom rep cur l = cur ∨ ∃ x ∈ l, settleFrom rep cur l = some x := by
  induction l generalizing cur with
  | nil => exact Or.inl rfl
  | cons y l ih =>
    change settleFrom rep (offer rep cur y) l = cur ∨ ∃ x ∈ y :: l, settleFrom rep (offer rep cur y) l = some x
    rcases ih (offer rep cur y) with h | ⟨x, hx, h⟩
    · rcases offer_cases rep cur y with ho | ho
      · exact Or.inr ⟨y, List.mem_cons_self, h.trans ho⟩
      · exact Or.inl (h.trans ho)
    · exact Or.inr ⟨x, List.mem_cons_of_mem y hx, h⟩

/-- Offers without repetition settle independently of their order exactly when
they have a top. Two-element prefixes of suitable orders show the necessity. -/
theorem settle_perm_iff {rep : α → α → Bool} {s : List α} (hn : s.Nodup) :
    (∀ l₁ l₂ : List α, l₁.Perm s → l₂.Perm s → settle rep l₁ = settle rep l₂) ↔
      s = [] ∨ ∃ m, Top rep s m := by
  classical
  constructor
  · intro h
    by_cases hs : s = []
    · exact Or.inl hs
    obtain ⟨m, hm⟩ := settle_isSome rep hs
    refine Or.inr ⟨m, settle_mem hm, fun x hx hne => ?_⟩
    have hms := settle_mem hm
    -- every order that starts with two given offers ends in `m`
    have key : ∀ a b, a ∈ s → b ∈ s → a ≠ b → settle rep (a :: b :: (s.erase a).erase b) = some m := by
      intro a b ha hb hab
      have hb' : b ∈ s.erase a := (List.mem_erase_of_ne (Ne.symm hab)).mpr hb
      have hp : (a :: b :: (s.erase a).erase b).Perm s :=
        (((List.perm_cons_erase hb').symm).cons a).trans (List.perm_cons_erase ha).symm
      rw [h _ s hp (List.Perm.refl s), hm]
    have hnot : ∀ a b, m ∉ (s.erase a).erase b ∨ (m ≠ a ∧ m ≠ b) := by
      intro a b
      by_cases ha : m = a
      · left
        intro hmem
        rw [ha] at hmem
        exact hn.not_mem_erase (List.mem_of_mem_erase hmem)
      · by_cases hb : m = b
        · left
          intro hmem
          rw [hb] at hmem
          exact (hn.erase a).not_mem_erase hmem
        · exact Or.inr ⟨ha, hb⟩
    constructor
    · by_contra hr
      have hk := key x m hx hms hne
      have hstep : settle rep (x :: m :: (s.erase x).erase m) =
          settleFrom rep (some x) ((s.erase x).erase m) := by
        change settleFrom rep (offer rep (some x) m) _ = _
        simp only [offer, hr, ↓reduceIte]
      rw [hstep] at hk
      rcases settleFrom_eq_or_mem rep (some x) ((s.erase x).erase m) with he | ⟨y, hy, he⟩
      · rw [he] at hk
        exact hne (Option.some.inj hk)
      · rw [he] at hk
        obtain rfl := Option.some.inj hk
        rcases hnot x y with h' | h'
        · exact h' hy
        · exact h'.2 rfl
    · by_contra hr
      have hr' : rep x m = true := by simpa using hr
      have hk := key m x hms hx (Ne.symm hne)
      have hstep : settle rep (m :: x :: (s.erase m).erase x) =
          settleFrom rep (some x) ((s.erase m).erase x) := by
        change settleFrom rep (offer rep (some m) x) _ = _
        simp only [offer, hr', ↓reduceIte]
      rw [hstep] at hk
      rcases settleFrom_eq_or_mem rep (some x) ((s.erase m).erase x) with he | ⟨y, hy, he⟩
      · rw [he] at hk
        exact hne (Option.some.inj hk)
      · rw [he] at hk
        obtain rfl := Option.some.inj hk
        rcases hnot y x with h' | h'
        · exact h' hy
        · exact h'.1 rfl
  · rintro (rfl | ⟨m, hm⟩) l₁ l₂ h₁ h₂
    · rw [List.perm_nil.mp h₁, List.perm_nil.mp h₂]
    · rw [settle_of_top (hm.perm h₁.symm), settle_of_top (hm.perm h₂.symm)]

/-! ## Offers compared by a rank -/

/-- `m` is the last offer of greatest rank. -/
def LastMax {ι : Type*} [LinearOrder ι] (rank : α → ι) (l : List α) (m : α) : Prop :=
  ∃ pre post, l = pre ++ m :: post ∧ (∀ x ∈ pre, rank x ≤ rank m) ∧ ∀ x ∈ post, rank x < rank m

theorem LastMax.le {ι : Type*} [LinearOrder ι] {rank : α → ι} {l : List α} {m : α}
    (h : LastMax rank l m) : ∀ x ∈ l, rank x ≤ rank m := by
  obtain ⟨pre, post, rfl, hpre, hpost⟩ := h
  intro x hx
  rcases List.mem_append.mp hx with hx | hx
  · exact hpre x hx
  · rcases List.mem_cons.mp hx with rfl | hx
    · exact le_refl _
    · exact (hpost x hx).le

/-- When the relation is "rank not smaller", ties go to the later offer. -/
theorem settle_lastMax {ι : Type*} [LinearOrder ι] {rep : α → α → Bool} {rank : α → ι}
    {l : List α} (hrep : ∀ x ∈ l, ∀ y ∈ l, rep x y = decide (rank y ≤ rank x)) (hl : l ≠ []) :
    ∃ m, settle rep l = some m ∧ LastMax rank l m := by
  induction l using List.reverseRecOn with
  | nil => exact absurd rfl hl
  | append_singleton l x ih =>
    have hx := List.mem_append_right l (List.mem_singleton_self x)
    have hrep' : ∀ a ∈ l, ∀ b ∈ l, rep a b = decide (rank b ≤ rank a) :=
      fun a ha b hb => hrep a (List.mem_append_left _ ha) b (List.mem_append_left _ hb)
    rw [settle_concat]
    by_cases hnil : l = []
    · subst hnil
      exact ⟨x, rfl, [], [], rfl, by simp, by simp⟩
    obtain ⟨m, hm, hmax⟩ := ih hrep' hnil
    rw [hm]
    have hr := hrep x hx m (List.mem_append_left _ (settle_mem hm))
    by_cases hle : rank m ≤ rank x
    · refine ⟨x, by simp [offer, hr, hle], l, [], rfl, ?_, by simp⟩
      intro y hy
      exact (hmax.le y hy).trans hle
    · refine ⟨m, by simp [offer, hr, hle], ?_⟩
      obtain ⟨pre, post, rfl, hpre, hpost⟩ := hmax
      refine ⟨pre, post ++ [x], by simp, hpre, ?_⟩
      intro y hy
      rcases List.mem_append.mp hy with hy | hy
      · exact hpost y hy
      · rw [List.mem_singleton.mp hy]
        exact lt_of_not_ge hle

/-- Offering a suffix of the offers again leaves the register where it was. -/
theorem LastMax.replay {ι : Type*} [LinearOrder ι] {rank : α → ι} {l s : List α} {m : α}
    (h : LastMax rank l m) (hs : s <:+ l) : LastMax rank (l ++ s) m := by
  have hle := h.le
  obtain ⟨pre, post, rfl, hpre, hpost⟩ := h
  by_cases hlen : s.length ≤ post.length
  · have hsp : s <:+ post := by
      have hp : post <:+ pre ++ m :: post := ⟨pre ++ [m], by simp⟩
      exact List.suffix_of_suffix_length_le hs hp hlen
    refine ⟨pre, post ++ s, by simp, hpre, ?_⟩
    intro y hy
    rcases List.mem_append.mp hy with hy | hy
    · exact hpost y hy
    · exact hpost y (hsp.subset hy)
  · have hmp : (m :: post) <:+ s := by
      have hp : (m :: post) <:+ pre ++ m :: post := ⟨pre, rfl⟩
      exact List.suffix_of_suffix_length_le hp hs (by simp; omega)
    obtain ⟨t, rfl⟩ := hmp
    refine ⟨pre ++ m :: post ++ t, post, by simp, ?_, hpost⟩
    intro y hy
    rcases List.mem_append.mp hy with hy | hy
    · exact hle y hy
    · exact hle y (hs.subset (List.mem_append_left _ hy))

theorem LastMax.of_map {β ι : Type*} [LinearOrder ι] {rank : α → ι} {f : β → α} {l : List β}
    {m : α} (h : LastMax rank (l.map f) m) :
    ∃ x, f x = m ∧ LastMax (fun y => rank (f y)) l x := by
  obtain ⟨_, _, hl, hpre, hpost⟩ := h
  obtain ⟨pre, rest, rfl, rfl, hrest⟩ := List.map_eq_append_iff.mp hl
  obtain ⟨x, post, rfl, rfl, rfl⟩ := List.map_eq_cons_iff.mp hrest
  refine ⟨x, rfl, pre, post, rfl, fun y hy => ?_, fun y hy => ?_⟩
  · exact hpre (f y) (List.mem_map_of_mem hy)
  · exact hpost (f y) (List.mem_map_of_mem hy)

theorem LastMax.unique {ι : Type*} [LinearOrder ι] {rank : α → ι} {l : List α} {m m' : α}
    (h : LastMax rank l m) (h' : LastMax rank l m') : m = m' := by
  obtain ⟨pre, post, hl, hpre, hpost⟩ := h
  obtain ⟨pre', post', hl', hpre', hpost'⟩ := h'
  rw [hl] at hl'
  rcases List.append_eq_append_iff.mp hl' with ⟨t, ht, ht'⟩ | ⟨t, ht, ht'⟩
  · cases t with
    | nil => simpa using congrArg List.head? ht'
    | cons a t =>
      obtain ⟨rfl, rfl⟩ := List.cons.inj ht'
      have h1 := hpost m' (by simp)
      have h2 := hpre' m (by rw [ht]; simp)
      exact absurd h1 (not_lt.mpr h2)
  · cases t with
    | nil => simpa using (congrArg List.head? ht').symm
    | cons a t =>
      obtain ⟨rfl, rfl⟩ := List.cons.inj ht'
      have h1 := hpost' m (by simp)
      have h2 := hpre m' (by rw [ht]; simp)
      exact absurd h1 (not_lt.mpr h2)

/-- Where ties are identical, the same offers settle alike, in any order and
however often each is made. -/
theorem settle_same_of_rank {ι : Type*} [LinearOrder ι] {rep : α → α → Bool} {rank : α → ι}
    {l₁ l₂ : List α} (hsame : ∀ x, x ∈ l₁ ↔ x ∈ l₂)
    (hrep : ∀ x ∈ l₁, ∀ y ∈ l₁, rep x y = decide (rank y ≤ rank x))
    (hties : ∀ x ∈ l₁, ∀ y ∈ l₁, rank x = rank y → x = y) : settle rep l₁ = settle rep l₂ := by
  by_cases hnil : l₁ = []
  · subst hnil
    rw [List.eq_nil_iff_forall_not_mem.mpr fun x hx => List.not_mem_nil ((hsame x).mpr hx)]
  have hnil₂ : l₂ ≠ [] := by
    rintro rfl
    exact hnil (List.eq_nil_iff_forall_not_mem.mpr fun x hx => List.not_mem_nil ((hsame x).mp hx))
  have hrep₂ : ∀ x ∈ l₂, ∀ y ∈ l₂, rep x y = decide (rank y ≤ rank x) :=
    fun x hx y hy => hrep x ((hsame x).mpr hx) y ((hsame y).mpr hy)
  obtain ⟨m₁, hm₁, hmax₁⟩ := settle_lastMax hrep hnil
  obtain ⟨m₂, hm₂, hmax₂⟩ := settle_lastMax hrep₂ hnil₂
  have hmem₂ : m₂ ∈ l₁ := (hsame m₂).mpr (settle_mem hm₂)
  have hle := hmax₂.le m₁ ((hsame m₁).mp (settle_mem hm₁))
  have heq := hties m₁ (settle_mem hm₁) m₂ hmem₂ (le_antisymm hle (hmax₁.le m₂ hmem₂))
  rw [hm₁, hm₂, heq]

/-- Offering a suffix again changes nothing, whatever the ties. -/
theorem settle_replay {ι : Type*} [LinearOrder ι] {rep : α → α → Bool} {rank : α → ι}
    {l s : List α} (hrep : ∀ x ∈ l, ∀ y ∈ l, rep x y = decide (rank y ≤ rank x))
    (hs : s <:+ l) : settle rep (l ++ s) = settle rep l := by
  by_cases hnil : l = []
  · subst hnil
    obtain rfl := List.suffix_nil.mp hs
    rfl
  have hsub : ∀ x ∈ l ++ s, x ∈ l := by
    intro x hx
    rcases List.mem_append.mp hx with h | h
    · exact h
    · exact hs.subset h
  obtain ⟨m, hm, hmax⟩ := settle_lastMax hrep hnil
  obtain ⟨m', hm', hmax'⟩ := settle_lastMax
    (fun x hx y hy => hrep x (hsub x hx) y (hsub y hy)) (List.append_ne_nil_of_left_ne_nil hnil s)
  rw [hm, hm', (hmax.replay hs).unique hmax']

/-! ## Offers that never count -/

/-- If offers in `p` always displace the others and the others never displace
them, the others may be dropped as soon as one offer in `p` is present. -/
theorem settle_filter {rep : α → α → Bool} (p : α → Bool) {l : List α}
    (hwin : ∀ x ∈ l, ∀ y ∈ l, p x = true → p y = false → rep x y = true)
    (hlose : ∀ x ∈ l, ∀ y ∈ l, p x = false → p y = true → rep x y = false)
    (hp : ∃ x ∈ l, p x = true) : settle rep l = settle rep (l.filter p) := by
  induction l using List.reverseRecOn with
  | nil => obtain ⟨x, hx, _⟩ := hp; cases hx
  | append_singleton l x ih =>
    have hx := List.mem_append_right l (List.mem_singleton_self x)
    have hwin' : ∀ a ∈ l, ∀ b ∈ l, p a = true → p b = false → rep a b = true :=
      fun a ha b hb => hwin a (List.mem_append_left _ ha) b (List.mem_append_left _ hb)
    have hlose' : ∀ a ∈ l, ∀ b ∈ l, p a = false → p b = true → rep a b = false :=
      fun a ha b hb => hlose a (List.mem_append_left _ ha) b (List.mem_append_left _ hb)
    rw [List.filter_append, settle_concat]
    by_cases hl : ∃ y ∈ l, p y = true
    · have heq := ih hwin' hlose' hl
      cases hpx : p x with
      | true => rw [heq, List.filter_singleton, hpx]; exact (settle_concat rep _ x).symm
      | false =>
        have hne : l.filter p ≠ [] := by
          obtain ⟨y, hy, hpy⟩ := hl
          intro hnil
          have hyf := List.mem_filter.mpr ⟨hy, hpy⟩
          rw [hnil] at hyf
          cases hyf
        obtain ⟨m, hm⟩ := settle_isSome rep hne
        obtain ⟨hml, hpm⟩ := List.mem_filter.mp (settle_mem hm)
        have hr := hlose x hx m (List.mem_append_left _ hml) hpx hpm
        rw [heq, List.filter_singleton, hpx]
        simp [hm, offer, hr]
    · have hpl : ∀ y ∈ l, p y = false := by
        intro y hy
        cases hpy : p y with
        | false => rfl
        | true => exact absurd ⟨y, hy, hpy⟩ hl
      have hpx : p x = true := by
        obtain ⟨y, hy, hpy⟩ := hp
        rcases List.mem_append.mp hy with hy | hy
        · rw [hpl y hy] at hpy; cases hpy
        · rwa [← List.mem_singleton.mp hy]
      have hnil : l.filter p = [] := List.filter_eq_nil_iff.mpr (fun y hy => by simp [hpl y hy])
      rw [hnil, List.filter_singleton, hpx]
      cases hs : settle rep l with
      | none => rfl
      | some old =>
        have ho := settle_mem hs
        have hr := hwin x hx old (List.mem_append_left _ ho) hpx (hpl old ho)
        simp [offer, hr, settle, settleFrom]

end TxLookup.Library.Settle

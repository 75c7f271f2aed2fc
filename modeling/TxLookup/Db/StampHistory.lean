import TxLookup.Db.LatestWins
import TxLookup.Library.Runs

/-!
# The update stamp of one row over time

A write replaces all columns at once, also when the versions decided. The update
stamp therefore goes back exactly when an event that has a version and no stamp
overwrites a stamped row.
-/
namespace TxLookup.Db.LatestWins

open Library KeyedTable Library.Runs

/-- The later stamp is present if the earlier one is, and not smaller. -/
def NotBack (earlier later : Option DateTime) : Prop :=
  ∀ u, earlier = some u → ∃ u', later = some u' ∧ u ≤ u'

theorem NotBack.refl (u : Option DateTime) : NotBack u u := fun u h => ⟨u, h, le_refl u⟩

theorem NotBack.trans {u v w : Option DateTime} (h : NotBack u v) (h' : NotBack v w) :
    NotBack u w := by
  intro a ha
  obtain ⟨b, hb, hab⟩ := h a ha
  obtain ⟨c, hc, hbc⟩ := h' b hb
  exact ⟨c, hc, hab.trans hbc⟩

/-- The new row has a version and no update stamp, the stored row has a stamp,
and the versions let the new row win. -/
def Stamp.Erases (new old : Stamp) : Prop :=
  old.updatedAt.isSome = true ∧ new.updatedAt = none ∧
    ∃ v, new.sourceVersion = some v ∧ old.sourceVersion.all (· ≤ v) = true

theorem notBack_iff_not_erases (new old : Stamp) :
    NotBack old.updatedAt (if new.replaces old then new else old).updatedAt ↔
      ¬ Stamp.Erases new old := by
  obtain ⟨u, v, i⟩ := new
  obtain ⟨u', v', i'⟩ := old
  cases u' with
  | none => simp [NotBack, Stamp.Erases]
  | some a =>
    cases u with
    | some b =>
      -- the stamps decide
      by_cases h : a ≤ b
      · simp [NotBack, Stamp.Erases, Stamp.replaces, h]
      · simp [NotBack, Stamp.Erases, Stamp.replaces, h]
    | none =>
      cases v with
      | none => simp [NotBack, Stamp.Erases, Stamp.replaces]
      | some w =>
        -- the versions decide, and the stamp is lost with the row
        cases hw : v'.all (· ≤ w) with
        | false => simp [NotBack, Stamp.Erases, Stamp.replaces, hw]
        | true => simp [NotBack, Stamp.Erases, Stamp.replaces, hw]

variable {ρ : Type} (T : StampedTable ρ) (k : PyStr)

/-- The `updated_at` stored under the key. -/
def storedUpdatedAt (t : T.Table) : Option DateTime :=
  (t.find? k).bind (fun r => (T.stamp r).updatedAt)

/-- The event does not erase the update stamp of the row it meets. -/
def KeepsStamp (t : T.Table) (event : ρ) : Prop :=
  T.key event = k → ∀ r, t.find? k = some r → ¬ Stamp.Erases (T.stamp event) (T.stamp r)

/-- One upsert sends the stored stamp back exactly if its event erases it. -/
theorem upsert_notBack_iff (t : T.Table) (event : ρ) :
    NotBack (storedUpdatedAt T k t)
      (storedUpdatedAt T k (upsertRow T.toTableDef event t)) ↔ KeepsStamp T k t event := by
  rw [storedUpdatedAt, storedUpdatedAt, upsertRow, find?_upsert]
  by_cases hk : k = T.key event
  · rw [if_pos hk]
    cases hr : t.find? k with
    | none =>
      constructor
      · intro _ _ r hr'
        rw [hr] at hr'
        cases hr'
      · intro _ u hu
        cases hu
    | some r =>
      have hoffer : (Settle.offer T.wins (some r) event).bind (fun r => (T.stamp r).updatedAt) =
          (if (T.stamp event).replaces (T.stamp r) then T.stamp event else T.stamp r).updatedAt := by
        rw [Settle.offer, T.wins_stamp]
        split <;> rfl
      rw [hoffer]
      refine (notBack_iff_not_erases _ _).trans ⟨fun h _ r' hr' => ?_, fun h => ?_⟩
      · rw [hr] at hr'
        obtain rfl := Option.some.inj hr'
        exact h
      · exact h hk.symm r hr
  · rw [if_neg hk]
    exact ⟨fun _ hkey => absurd hkey.symm hk, fun _ => NotBack.refl _⟩

/-- Along a run the stored `updated_at` is never lost and never decreases exactly
if no event with a version alone overwrites a stamped row of the key. -/
theorem updatedAt_never_back_iff (t : T.Table) (events : List ρ) :
    (∀ pre mid post, events = pre ++ mid ++ post →
      NotBack (storedUpdatedAt T k (upsertRun T pre t))
        (storedUpdatedAt T k (upsertRun T (pre ++ mid) t))) ↔
      Along (fun t r => upsertRow T.toTableDef r t) (KeepsStamp T k) t events := by
  have hrelated := @related_iff_along T.Table ρ (fun t r => upsertRow T.toTableDef r t)
    (fun t t' => NotBack (storedUpdatedAt T k t) (storedUpdatedAt T k t'))
    (fun _ => NotBack.refl _) (fun _ _ _ => NotBack.trans) t events
  refine hrelated.trans ?_
  rw [along_iff, along_iff]
  exact forall₄_congr fun pre event post _ => upsert_notBack_iff T k _ event

/-- A stamped order is overwritten by an event with a version alone. -/
theorem versioned_order_erases_stamp :
    ¬ ∀ pre mid post, mixedOrders = pre ++ mid ++ post →
      NotBack (storedUpdatedAt paymentOrdersStamped (py "po-1")
          (upsertRun paymentOrdersStamped pre KeyedTable.empty))
        (storedUpdatedAt paymentOrdersStamped (py "po-1")
          (upsertRun paymentOrdersStamped (pre ++ mid) KeyedTable.empty)) := by
  intro h
  have hback := h [sampleOrder "PAID" (some 5) none 0] [sampleOrder "NEW" none (some 1) 0] [] rfl
  obtain ⟨u, hu, -⟩ := hback 5 (by decide)
  revert hu
  have hgone : storedUpdatedAt paymentOrdersStamped (py "po-1")
      (upsertRun paymentOrdersStamped ([sampleOrder "PAID" (some 5) none 0] ++
        [sampleOrder "NEW" none (some 1) 0]) KeyedTable.empty) = none := by decide
  rw [hgone]
  exact fun hu => by cases hu

end TxLookup.Db.LatestWins

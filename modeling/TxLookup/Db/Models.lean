import TxLookup.Library.PyText
import Mathlib.Data.Int.Order.Basic

/-!
# Rows of the business tables

One structure for each mapped class, with the columns in the order of the
source. A nullable column is an `Option`. Index definitions and server defaults
are not modelled: every write below supplies all columns.
-/
namespace TxLookup.Db

open Library

/-- A `timestamptz` as microseconds since the epoch. -/
abbrev DateTime := Int

/-- A `decimal.Decimal`: sign, coefficient and exponent, or a special value. -/
inductive Decimal where
  | finite (negative : Bool) (coefficient : Nat) (exponent : Int)
  | infinity (negative : Bool)
  | nan (negative signaling : Bool) (payload : Nat)
  deriving DecidableEq, Repr

def Decimal.isFinite : Decimal → Bool
  | .finite .. => true
  | .infinity _ | .nan .. => false

structure LedgerEntry where
  txId : PyStr
  walletId : PyStr
  entryType : PyStr
  amount : Decimal
  amountSigned : Option Decimal
  relatedId : Option PyStr
  relatedType : Option PyStr
  eventTime : DateTime
  createdAt : DateTime
  updatedAt : Option DateTime
  sourceVersion : Option Int
  ingestedAt : DateTime
  deriving DecidableEq, Repr

structure PaymentOrder where
  orderId : PyStr
  userId : Option PyStr
  merchantName : Option PyStr
  amount : Decimal
  status : PyStr
  createdAt : DateTime
  updatedAt : Option DateTime
  sourceVersion : Option Int
  ingestedAt : DateTime
  deriving DecidableEq, Repr

structure PaymentLedgerPair where
  paymentOrderId : PyStr
  paymentTxId : Option PyStr
  receiveTxId : Option PyStr
  payerWalletId : Option PyStr
  payeeWalletId : Option PyStr
  amount : Option Decimal
  status : Option PyStr
  eventTime : Option DateTime
  updatedAt : DateTime
  ingestedAt : DateTime
  deriving DecidableEq, Repr

/-- Both legs of the pair are present. -/
def PaymentLedgerPair.Complete (p : PaymentLedgerPair) : Prop :=
  p.paymentTxId.isSome ∧ p.receiveTxId.isSome

instance (p : PaymentLedgerPair) : Decidable p.Complete :=
  inferInstanceAs (Decidable (_ ∧ _))

/-! ## Entry types and legs -/

def PAYMENT : PyStr := py "PAYMENT"
def RECEIVE : PyStr := py "RECEIVE"
def PAYMENT_ORDER : PyStr := py "PAYMENT_ORDER"

theorem payment_ne_receive : PAYMENT ≠ RECEIVE := by decide

/-- A leg of a pair: an entry type with a transaction and a wallet column. -/
inductive Leg where
  | payment
  | receive
  deriving DecidableEq

namespace Leg

def entryType : Leg → PyStr
  | .payment => PAYMENT
  | .receive => RECEIVE

def opposite : Leg → Leg
  | .payment => .receive
  | .receive => .payment

def tx : Leg → PaymentLedgerPair → Option PyStr
  | .payment => PaymentLedgerPair.paymentTxId
  | .receive => PaymentLedgerPair.receiveTxId

def wallet : Leg → PaymentLedgerPair → Option PyStr
  | .payment => PaymentLedgerPair.payerWalletId
  | .receive => PaymentLedgerPair.payeeWalletId

instance {p : Leg → Prop} [DecidablePred p] : Decidable (∀ leg, p leg) :=
  decidable_of_iff (p .payment ∧ p .receive)
    ⟨fun h leg => by cases leg with | payment => exact h.1 | receive => exact h.2,
      fun h => ⟨h .payment, h .receive⟩⟩

@[simp] theorem opposite_opposite (leg : Leg) : leg.opposite.opposite = leg := by
  cases leg <;> rfl

theorem forall_iff_opposite {p : Leg → Prop} (leg : Leg) :
    (∀ l, p l) ↔ p leg ∧ p leg.opposite := by
  constructor
  · intro h
    exact ⟨h leg, h leg.opposite⟩
  · rintro ⟨h, h'⟩ l
    cases leg <;> cases l <;> first | exact h | exact h'

theorem entryType_opposite (leg : Leg) : leg.opposite.entryType ≠ leg.entryType := by
  cases leg with
  | payment => exact payment_ne_receive.symm
  | receive => exact payment_ne_receive

end Leg

theorem complete_iff (p : PaymentLedgerPair) : p.Complete ↔ ∀ leg : Leg, (leg.tx p).isSome := by
  constructor
  · rintro ⟨hp, hr⟩ (_ | _)
    · exact hp
    · exact hr
  · intro h
    exact ⟨h .payment, h .receive⟩

end TxLookup.Db

import Mathlib.Data.List.Basic

/-!
# Mapped instances and their session

An instance keeps the row it was loaded from. A commit expires it, unless the
session is made to keep loaded values, and closing the session detaches it. A
column of an expired instance is loaded again, for which it must be attached.
-/
namespace TxLookup.Library

structure OrmInstance (ρ : Type) where
  row : ρ
  expired : Bool
  attached : Bool

namespace OrmInstance

variable {ρ ε α : Type}

def loaded (row : ρ) : OrmInstance ρ := ⟨row, false, true⟩

/-- What `Session.commit` does to an instance. -/
def commit (expireOnCommit : Bool) (i : OrmInstance ρ) : OrmInstance ρ :=
  { i with expired := i.expired || expireOnCommit }

/-- What `Session.close` does to an instance. -/
def close (i : OrmInstance ρ) : OrmInstance ρ := { i with attached := false }

/-- The value of a column; `detached` is raised when it cannot be loaded. -/
def read (detached : ε) (column : ρ → α) (i : OrmInstance ρ) : Except ε α :=
  if i.expired && !i.attached then .error detached else .ok (column i.row)

/-- The instances of a query once its session has committed and closed. -/
def afterScope (expireOnCommit : Bool) (rows : List ρ) : List (OrmInstance ρ) :=
  rows.map (fun row => ((loaded row).commit expireOnCommit).close)

/-- Under the default setting nothing can be read after the scope. -/
theorem read_afterScope {rows : List ρ} {i : OrmInstance ρ} (h : i ∈ afterScope true rows)
    (detached : ε) (column : ρ → α) : i.read detached column = .error detached := by
  obtain ⟨row, -, rfl⟩ := List.mem_map.mp h
  rfl

/-- A session that keeps loaded values leaves every column readable. -/
theorem read_afterScope_kept (row : ρ) (detached : ε) (column : ρ → α) :
    (((loaded row).commit false).close).read detached column = .ok (column row) :=
  rfl

end OrmInstance

end TxLookup.Library

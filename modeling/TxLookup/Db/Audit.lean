import TxLookup.Db.Models

/-!
# The audit log

One row for each lookup an admin endpoint answers. The identity column is not
modelled: nothing reads it.
-/
namespace TxLookup.Db

open Library

structure AdminAuditLog where
  actorId : Option PyStr
  actorRoles : Option PyStr
  action : PyStr
  resourceType : PyStr
  resourceId : Option PyStr
  result : PyStr
  statusCode : Nat
  ip : Option PyStr
  userAgent : Option PyStr
  requestMethod : PyStr
  requestPath : PyStr
  requestQuery : Option PyStr
  requestedAt : DateTime
  durationMs : Option Int
  resultCount : Option Nat
  deriving DecidableEq, Repr

/-- `session.add`: the row is inserted when the session commits. -/
def recordAdminAudit (adminAuditLogs : List AdminAuditLog) (row : AdminAuditLog) :
    List AdminAuditLog :=
  adminAuditLogs ++ [row]

end TxLookup.Db

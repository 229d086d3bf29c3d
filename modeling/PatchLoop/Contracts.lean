import PatchLoop.Execution.Models

/-!
# Persistence contracts

The structured errors of the persistence boundary, with their details, and the opaque fencing data
that execution-owned writes must present.
-/

namespace PatchLoop

/-- What a store operation raises. The first nine are `ContractError` classes; the others are the
`TaskNotFoundError`, `KeyError`, `ValueError` and `sqlite3.IntegrityError` that escape it. -/
inductive StoreError where
  | staleVersion (entityId : String) (expected actual : Nat)
  | leaseConflict (resourceId : String) (ownerId : Option String)
  | leaseLost (resourceId : String)
  | approvalConflict (approvalId actual requested : String)
  | effectIdentityConflict (effectId : String) (identityKey : String × String × Nat)
  | recoveryRequired (taskId : String) (effectId : Option String)
  | submissionConflict (sessionId clientSubmissionId : String)
  | inputRevisionConflict (sessionId : String) (expected actual : Nat)
  | controlRequested (taskId requestId : String)
  | taskNotFound (taskId : String)
  | keyError (message : String)
  | valueError (message : String)
  | integrityError (constraint : String)
deriving DecidableEq

/-- Fencing data of an execution lease. -/
structure LeaseGuard where
  executionId : String
  taskId : String
  token : String
  generation : Nat
  ownerId : String
deriving DecidableEq

/-- Fencing data of a workspace writer. -/
structure WorkspaceLeaseGuard where
  workspaceId : String
  executionId : String
  token : String
  generation : Nat
  ownerId : String
deriving DecidableEq

/-- The fields of an execution that a guard is compared with. -/
def Execution.guard (execution : Execution) : LeaseGuard where
  executionId := execution.id
  taskId := execution.taskId
  token := execution.leaseToken
  generation := execution.generation
  ownerId := execution.ownerId

/-- The fields of a workspace lease that a guard is compared with. -/
def WorkspaceLease.guard (lease : WorkspaceLease) : WorkspaceLeaseGuard where
  workspaceId := lease.workspaceId
  executionId := lease.executionId
  token := lease.leaseToken
  generation := lease.generation
  ownerId := lease.ownerId

end PatchLoop

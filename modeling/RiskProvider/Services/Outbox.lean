import RiskProvider.Database.Repositories

/-!
# The outbox service

`OutboxService` of `backend/services/outbox.py`.
-/

namespace RiskProvider.OutboxService

/-- The publish loop of `send_batch`: the events published, and those that failed with the
text of the exception. -/
def publishAll : List OutboxEvent → Py (List UUID × List (UUID × String))
  | [] => return ([], [])
  | event :: rest => do
      match ← attempt (perform (.publish event.routingKey event.id event.payload)) with
      | .ok _ =>
          let (published, failed) ← publishAll rest
          return (event.id :: published, failed)
      | .error (.publishError text) =>
          let (published, failed) ← publishAll rest
          return (published, (event.id, text) :: failed)
      | .error e => throw e

/-- The loop that marks failed events. -/
def markAllFailed : List (UUID × String) → Py Unit
  | [] => return ()
  | (eventId, error) :: rest => do
      OutboxRepository.markFailed eventId error
      markAllFailed rest

/-- `send_batch` -/
def sendBatch (batchSize : ℕ) : Py ℕ :=
  AsyncSession.scope do
    let pending ← OutboxRepository.fetchPending batchSize
    if pending.isEmpty then return 0
    else
      let (published, failed) ← publishAll pending
      OutboxRepository.markPublishedMany published
      markAllFailed failed
      AsyncSession.commit
      return published.length

end RiskProvider.OutboxService

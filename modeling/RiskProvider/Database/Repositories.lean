import RiskProvider.Effects

/-!
# Repositories

The repositories of `backend/db/repositories` and `session_scope` of `backend/db/session.py`.
-/

namespace RiskProvider

/-- `datetime.now(tz=UTC)` -/
def utcNow : Py Time := perform .utcNow

/-- `uuid.uuid4()` -/
def uuid4 : Py UUID := perform .uuid4

namespace AsyncSession

/-- `session.commit()`: pending changes are flushed first. -/
def commit : Py Unit := do
  perform .flush
  perform .commit

/-- `session.rollback()` -/
def rollback : Py Unit := perform .rollback

/-- `async with session_scope() as session`: an exception rolls the session back and is
raised again; leaving the block closes the session. -/
def scope {α : Type} (body : Py α) : Py α := do
  match ← attempt body with
  | .ok a =>
      perform .rollback
      return a
  | .error e =>
      rollback
      perform .rollback
      throw e

end AsyncSession

namespace TicketRepository

/-- `TicketRepository.add` -/
def add (ticket : Ticket) : Py Unit := do
  perform (.add (.ticket ticket))
  perform .flush

/-- `TicketRepository.get_by_id_for_update` -/
def getByIdForUpdate (ticketId : UUID) : Py (Option Ticket) :=
  perform (.selectTicketForUpdate ticketId)

/-- `TicketRepository.get_by_idempotency_key` -/
def getByIdempotencyKey (key : String) : Py (Option Ticket) :=
  perform (.selectTicketByKey key)

/-- `TicketRepository.find_stuck` -/
def findStuck (olderThan : Time) (limit : ℕ) : Py (List Ticket) :=
  perform (.selectStuck olderThan limit)

end TicketRepository

namespace OutboxRepository

/-- `OutboxRepository.add` -/
def add (entityId : UUID) (eventType routingKey : String) (payload : Dict) : Py Unit := do
  let id ← uuid4
  perform (.add (.event { id, entityId, eventType, routingKey, payload }))
  perform .flush

/-- `OutboxRepository.fetch_pending` -/
def fetchPending (limit : ℕ) : Py (List OutboxEvent) := perform (.selectPending limit)

/-- `OutboxRepository.mark_published_many` -/
def markPublishedMany (eventIds : List UUID) : Py Unit := do
  if eventIds.isEmpty then return ()
  else
    let now ← utcNow
    perform (.updatePublished eventIds now)

/-- `OutboxRepository.mark_failed` -/
def markFailed (eventId : UUID) (error : String) : Py Unit :=
  perform (.updateFailed eventId error)

end OutboxRepository

namespace InboxRepository

/-- `InboxRepository.try_claim` -/
def tryClaim (messageId : UUID) (messageType : String) (ticketId : Option UUID) : Py Bool :=
  perform (.insertInbox messageId messageType ticketId)

end InboxRepository

end RiskProvider

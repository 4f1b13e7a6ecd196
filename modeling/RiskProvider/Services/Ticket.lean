import RiskProvider.Database.Repositories
import RiskProvider.Payloads

/-!
# The ticket service

`TicketService` of `backend/services/ticket.py`, statement by statement. Every assignment to a
ticket's attributes is made on the session's instance by `Effect.assign`; nothing is written
before a flush. `mark_provider_ack_delivered` has no caller in the repository.
-/

namespace RiskProvider

variable [Codecs]

/-- `Message.build` without a message id, as the service calls it. -/
def buildMessage (type : ProviderMessageType) (payload : type.Payload) (ticketId : Option UUID) :
    Py Message := do
  let uuid ← uuid4
  let now ← utcNow
  return Message.build type payload none ticketId uuid now

/-- `MonolithClient.process_ticket` -/
def processTicket (ticketId : UUID) (action : Option RecommendationAction)
    (providerReason : Option String) : Py Unit :=
  perform (.processTicket ticketId action providerReason)

namespace TicketService

/-- `_change_status` -/
def changeStatus (ticket : Ticket) (target : TicketStatus) (commit : Bool) : Py Ticket := do
  let fromStatus := ticket.status
  if fromStatus = target then return ticket
  else
    let ticket := { ticket with status := target }
    perform (.assign ticket)
    perform (.countTransition fromStatus target)
    perform .flush
    if commit then
      AsyncSession.commit
      return ticket
    else return ticket

/-- `_build_ticket_message` -/
def buildTicketMessage (ticket : Ticket) : Py Message := do
  match ticket.selections.mapM Selection.modelValidate with
  | none => throw .validationError
  | some selections =>
      let placedAt ← utcNow
      let payload : TicketPayload :=
        { ticketId := ticket.id, userId := ticket.userId, stakeAmount := ticket.stakeAmount,
          currency := ticket.currency.value, selections, placedAt }
      buildMessage .ticket payload (some ticket.id)

/-- `_build_ack_message` -/
def buildAckMessage (ticket : Ticket) (action : RecommendationAction) : Py Message :=
  if action = .accept then
    buildMessage .confirmRecommendation { ticketId := ticket.id } (some ticket.id)
  else
    buildMessage .declineRecommendation { ticketId := ticket.id } (some ticket.id)

/-- `create_ticket`: the ticket and whether this call created it. -/
def createTicket (idempotencyKey : String) (request : CreateTicketRequest) :
    Py (Ticket × Bool) := do
  match ← TicketRepository.getByIdempotencyKey idempotencyKey with
  | some existing => return (existing, false)
  | none =>
    let id ← uuid4
    match Currency.ofValue? request.currency with
    | none => throw .valueError
    | some currency =>
      let ticket : Ticket :=
        { id, idempotencyKey, userId := request.userId, stakeAmount := request.stakeAmount,
          currency, selections := request.selections, status := .new }
      let insert : Py Unit := do
        TicketRepository.add ticket
        let message ← buildTicketMessage ticket
        OutboxRepository.add ticket.id eventTypeTicketOutbound topology.providerOutRoutingKey
          message.modelDump
        AsyncSession.commit
      match ← attempt insert with
      | .ok _ => return (ticket, true)
      | .error .integrityError =>
          AsyncSession.rollback
          match ← TicketRepository.getByIdempotencyKey idempotencyKey with
          | none => throw .integrityError
          | some existing => return (existing, false)
      | .error e => throw e

/-- `request_cancellation` -/
def requestCancellation (ticketId : UUID) (reason : String) : Py Unit := do
  match ← TicketRepository.getByIdForUpdate ticketId with
  | none => return ()
  | some ticket =>
    match ← attempt (processTicket ticket.id none none) with
    | .error (.monolithError _) | .ok _ =>
        let now ← utcNow
        let ticket := { ticket with
          failureReason := some (textPrefix 1024 reason)
          cancelledAt := some now }
        perform (.assign ticket)
        let ticket ← changeStatus ticket .cancellationRequested false
        let message ← buildMessage .requestCancellation { ticketId := ticket.id, reason }
          (some ticket.id)
        OutboxRepository.add ticket.id eventTypeTicketOutbound topology.providerOutRoutingKey
          message.modelDump
        AsyncSession.commit
    | .error e => throw e

/-- `apply_recommendation` -/
def applyRecommendation (payload : RecommendationPayload) : Py Unit := do
  match ← TicketRepository.getByIdForUpdate payload.ticketId with
  | none => return ()
  | some ticket =>
    if ticket.status.Terminal then return ()
    else
      let target :=
        if payload.action = .accept then TicketStatus.recommendedConfirm
        else TicketStatus.recommendedDecline
      let now ← utcNow
      let ticket := { ticket with
        providerRecommendation := some payload.action
        providerReason := payload.reason
        providerRecommendationAt := some now }
      perform (.assign ticket)
      let ticket ← changeStatus ticket target false
      AsyncSession.commit
      match ← attempt (processTicket ticket.id (some payload.action) payload.reason) with
      | .error (.monolithError text) =>
          requestCancellation ticket.id ("monolith_error: " ++ text)
      | .error e => throw e
      | .ok _ =>
        match ← TicketRepository.getByIdForUpdate ticket.id with
        | none => AsyncSession.commit
        | some ticket =>
          if ticket.status.Terminal then AsyncSession.commit
          else
            let now ← utcNow
            let ticket := { ticket with settledAt := some now }
            perform (.assign ticket)
            let ticket ← changeStatus ticket .settled false
            let message ← buildAckMessage ticket payload.action
            OutboxRepository.add ticket.id eventTypeTicketOutbound
              topology.providerOutRoutingKey message.modelDump
            AsyncSession.commit

/-- `mark_cancellation_applied` -/
def markCancellationApplied (ticketId : UUID) : Py Unit := do
  match ← TicketRepository.getByIdForUpdate ticketId with
  | none => return ()
  | some ticket =>
    if ticket.status = .cancelled then return ()
    else
      let now ← utcNow
      let ticket := { ticket with cancelledAt := some (ticket.cancelledAt.getD now) }
      perform (.assign ticket)
      let _ ← changeStatus ticket .cancelled false
      AsyncSession.commit

end TicketService

end RiskProvider

import RiskProvider.Services.Outbox
import RiskProvider.Services.Ticket

/-!
# Handlers

The entry points of the processes: the endpoint `create_ticket`, the subscribers of the
gateway and the consumer, the gateway's receive loop and the reconciler's tick.
-/

namespace RiskProvider

variable [Codecs]

/-- `Message.model_validate(payload)` -/
def Message.validate (payload : Dict) : Py Message := do
  let messageId ← uuid4
  let timestamp ← utcNow
  match Message.modelValidate messageId timestamp payload with
  | some m => return m
  | none => throw .validationError

/-- A validated payload; `ValidationError` when it is rejected. -/
def validated {α : Type} : Option α → Py α
  | some a => return a
  | none => throw .validationError

/-- A subscriber of a queue with `AckPolicy.NACK_ON_ERROR`. -/
def subscribe (q : Queue) (handler : Dict → Py Unit) : Py Unit := do
  let payload ← perform (.receive q)
  match ← attempt (handler payload) with
  | .ok _ => perform .ack
  | .error _ => perform .nack

namespace ProviderGatewayWorker

/-- The status that an accepted frame gives its ticket, if any. -/
def ackTarget : ProviderMessageType → Option TicketStatus
  | .ticket => some .sentToProvider
  | .confirmRecommendation => some .confirmed
  | .declineRecommendation => some .declined
  | _ => none

/-- `_handle_message_success_ack` -/
def handleMessageSuccessAck (message : Message) : Py Unit := do
  match message.ticketId, ackTarget message.type with
  | none, _ => return ()
  | some _, none => return ()
  | some ticketId, some target =>
    let transition ← AsyncSession.scope do
      match ← TicketRepository.getByIdForUpdate ticketId with
      | none => return none
      | some ticket =>
        if ticket.status.Terminal then return none
        else if target = .sentToProvider ∧ ticket.status ≠ .new then return none
        else
          let previous := ticket.status
          if target = .confirmed ∨ target = .declined then
            let now ← utcNow
            perform (.assign { ticket with
              status := target, confirmedAt := some (ticket.confirmedAt.getD now) })
            AsyncSession.commit
            return some previous
          else
            perform (.assign { ticket with status := target })
            AsyncSession.commit
            return some previous
    match transition with
    | none => return ()
    | some previous => perform (.countTransition previous target)

/-- `_handle_message_rejection` -/
def handleMessageRejection (_message : Message) (_code : ProviderErrorCode) : Py Unit :=
  return ()

/-- `_send_to_provider` -/
def sendToProvider (payload : Dict) : Py Unit := do
  let message ← Message.validate payload
  match ← attempt (perform (.send message)) with
  | .error (.providerAckError code) => handleMessageRejection message code
  | .error e => throw e
  | .ok _ => handleMessageSuccessAck message

/-- `_recieve_from_provider`, on the frames that the provider's session yields. A publish that
fails ends the loop; an acknowledgement that fails does not. -/
def recieveFromProvider : List Message → Py Unit
  | [] => return ()
  | message :: rest => do
      match ← attempt (perform (.publish topology.providerInRoutingKey message.messageId
          message.modelDump)) with
      | .error _ => return ()
      | .ok _ =>
          let _ ← attempt (perform (.sendAck message.messageId))
          recieveFromProvider rest

end ProviderGatewayWorker

namespace ProviderConsumerWorker

/-- `HANDLED_TYPES` -/
def handledTypes : List ProviderMessageType := [.recommendation, .cancellationApplied]

/-- `_handle` -/
def handle (payload : Dict) : Py Unit := do
  let message ← Message.validate payload
  if message.type ∉ handledTypes then return ()
  else
    AsyncSession.scope do
      let claimed ← InboxRepository.tryClaim message.messageId message.type.value
        message.ticketId
      if ¬ claimed then return ()
      else if message.type = .recommendation then
        let recommendation ← validated (RecommendationPayload.modelValidate message.payload)
        TicketService.applyRecommendation recommendation
      else
        let cancellation ← validated (CancellationAppliedPayload.modelValidate message.payload)
        TicketService.markCancellationApplied cancellation.ticketId

end ProviderConsumerWorker

namespace ReconcilerWorker

/-- The loop of `_recover_stuck_tickets`: an exception for one ticket is logged with the ticket's
id, and the loop goes on when the id can be read. -/
def recoverAll : List Ticket → Py Unit
  | [] => return ()
  | ticket :: rest => do
      match ← attempt (TicketService.requestCancellation ticket.id
          ("reconciler: stuck in " ++ ticket.status.value)) with
      | .ok _ => recoverAll rest
      | .error _ =>
          perform (.readAttribute ticket.id)
          recoverAll rest

/-- `_recover_stuck_tickets` -/
def recoverStuckTickets (stuckAfterSec batchSize : ℕ) : Py Unit := do
  let now ← utcNow
  AsyncSession.scope do
    let stuck ← TicketRepository.findStuck (now - stuckAfterSec) batchSize
    recoverAll stuck

end ReconcilerWorker

/-- The endpoint `create_ticket`, on a request that the schema accepts. -/
def createTicketEndpoint (idempotencyKey : String) (request : CreateTicketRequest) : Py Unit := do
  perform (.request idempotencyKey request)
  match ← attempt (AsyncSession.scope (TicketService.createTicket idempotencyKey request)) with
  | .ok (ticket, created) => perform (.respond (.ok (ticket.id, created)))
  | .error e => perform (.respond (.error e))

end RiskProvider

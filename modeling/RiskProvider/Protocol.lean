import RiskProvider.Isolation

/-!
# The protocol of the processes

What each process may do next, stated on histories alone. `Permitted l e` lists the entries
that may follow a history `l`, one constructor for each point of a program at which it acts:
what the acting thread has done so far, what it must have found in the committed rows, and
what its transaction then writes. It is an abstract model of the system at the granularity of
transactions and remote calls; `Conformance` proves that the programs refine it.

* `Ticket.recommended`, `settled`, `cancelRequested`, `cancelled`, `acknowledged`: the five
  changes of a ticket.
* `rewrite`: the update that a flush emits for a changed instance. It sets the columns in which
  the instance differs from the row *that it was loaded from*, which need not be the committed
  row by then.
* `Permitted`, `Conforms`.
-/

namespace RiskProvider

/-! ### Changes of a ticket -/

namespace RecommendationAction

/-- The status that records a recommendation. -/
def status : RecommendationAction → TicketStatus
  | accept => .recommendedConfirm
  | decline => .recommendedDecline

/-- The target that `apply_recommendation` computes. -/
theorem ite_eq_status (action : RecommendationAction) :
    (if action = .accept then TicketStatus.recommendedConfirm
      else TicketStatus.recommendedDecline) = action.status := by
  cases action <;> rfl

/-- The status of a ticket whose recommendation has been acknowledged. -/
def finalStatus : RecommendationAction → TicketStatus
  | accept => .confirmed
  | decline => .declined

/-- The frame type that acknowledges a recommendation. -/
def ackType : RecommendationAction → ProviderMessageType
  | accept => .confirmRecommendation
  | decline => .declineRecommendation

end RecommendationAction

namespace Ticket

/-- First transaction of `apply_recommendation`. -/
def recommended (t : Ticket) (p : RecommendationPayload) (now : Time) : Ticket :=
  { t with
    providerRecommendation := some p.action
    providerReason := p.reason
    providerRecommendationAt := some now
    status := p.action.status }

/-- Second transaction of `apply_recommendation`. -/
def settled (t : Ticket) (now : Time) : Ticket :=
  { t with settledAt := some now, status := .settled }

/-- `request_cancellation`. -/
def cancelRequested (t : Ticket) (reason : String) (now : Time) : Ticket :=
  { t with
    failureReason := some (textPrefix 1024 reason)
    cancelledAt := some now
    status := .cancellationRequested }

/-- `mark_cancellation_applied`. -/
def cancelled (t : Ticket) (now : Time) : Ticket :=
  { t with cancelledAt := some (t.cancelledAt.getD now), status := .cancelled }

/-- `_handle_message_success_ack`. -/
def acknowledged (t : Ticket) (target : TicketStatus) (now : Time) : Ticket :=
  { t with
    status := target
    confirmedAt :=
      if target = .confirmed ∨ target = .declined then some (t.confirmedAt.getD now)
      else t.confirmedAt }

/-- The payload of the frame that opens a ticket. -/
def payload (t : Ticket) (selections : List Selection) (placedAt : Time) : TicketPayload :=
  { ticketId := t.id, userId := t.userId, stakeAmount := t.stakeAmount,
    currency := t.currency.value, selections, placedAt }

end Ticket

/-- The ticket that a request creates. -/
def CreateTicketRequest.ticket (request : CreateTicketRequest) (idempotencyKey : String)
    (id : UUID) (currency : Currency) (began : Time) : Ticket :=
  { id, idempotencyKey, userId := request.userId, stakeAmount := request.stakeAmount, currency,
    selections := request.selections, status := .new, createdAt := began, updatedAt := began }

/-! ### Writes -/

/-- The update of an instance loaded as `row` whose attributes are those of `row'`. -/
def rewrite (row row' : Ticket) (began : Time) : List Write :=
  (Instance.update ⟨row, row'⟩ began).toList

/-- The inbox row that claims a frame. -/
def Message.claim (m : Message) (began : Time) : ProcessedProviderMessage :=
  { messageId := m.messageId, ticketId := m.ticketId, messageType := m.type.value,
    processedAt := began }

/-- The identifiers of the events that a batch has published. -/
def publishedIds (acts : History) : List UUID :=
  acts.filterMap fun
    | .published _ _ id _ true => some id
    | _ => none

/-- The identifiers of the events that a batch has failed to publish. -/
def failedIds (acts : History) : List UUID :=
  acts.filterMap fun
    | .published _ _ id _ false => some id
    | _ => none

/-- The writes of a batch. -/
def relayWrites (published : List UUID) (failed : List (UUID × String))
    (publishedAt began : Time) : List Write :=
  (if published.isEmpty then [] else [.markPublished published publishedAt began]) ++
    failed.map fun f => .markFailed f.1 f.2 began

namespace Entry

/-- The entry is a commit. -/
def isCommit : Entry → Bool
  | committed _ _ => true
  | _ => false

/-- The entry records a publish. -/
def isPublished : Entry → Bool
  | published _ _ _ _ _ => true
  | _ => false

/-- The entry is the fetch of a batch or a publish, the actions of the relay. -/
def isRelay : Entry → Bool
  | fetched _ _ _ _ | published _ _ _ _ _ => true
  | _ => false

/-- The entry is a find, a cancel call or a commit, the actions of a reconciler. -/
def isRecovery : Entry → Bool
  | found _ _ _ | processed _ _ none _ | committed _ _ => true
  | _ => false

/-- The entry is a cancel call for the ticket, or a commit. -/
def recovers (ticketId : UUID) : Entry → Bool
  | processed _ id none _ => id = ticketId
  | committed _ _ => true
  | _ => false

theorem isRecovery_of_recovers {ticketId : UUID} {e : Entry} (h : e.recovers ticketId = true) :
    e.isRecovery = true := by
  cases e with
  | processed i id action error => cases action <;> first | rfl | cases h
  | committed i ws => rfl
  | _ => cases h

end Entry

variable [Codecs]

/-- The insert of the outbox event of a frame. -/
def outbound (eventId ticketId : UUID) (m : Message) (began : Time) : Write :=
  .insertEvent
    { id := eventId, entityId := ticketId, eventType := eventTypeTicketOutbound,
      routingKey := topology.providerOutRoutingKey, payload := m.modelDump,
      createdAt := began, updatedAt := began }

/-! ### Frames -/

/-- A delivery's body decodes to a frame, for some values of the default factories. -/
def Decodes (body : Dict) (m : Message) : Prop :=
  ∃ u t, Message.modelValidate u t body = some m

/-- The delivery is a recommendation. -/
structure Recommends (d : Delivery) (m : Message) (p : RecommendationPayload) : Prop where
  decodes : Decodes d.body m
  type : m.type = .recommendation
  payload : RecommendationPayload.modelValidate m.payload = some p

/-- The delivery is the provider's answer to a request for cancellation. -/
structure AppliesCancellation (d : Delivery) (m : Message) (p : CancellationAppliedPayload) :
    Prop where
  decodes : Decodes d.body m
  type : m.type = .cancellationApplied
  payload : CancellationAppliedPayload.modelValidate m.payload = some p

/-- The frame acknowledges the recommendation `action` on a ticket. -/
structure Acknowledges (m : Message) (ticketId : UUID) (action : RecommendationAction) :
    Prop where
  type : m.type = action.ackType
  ticket : m.ticketId = some ticketId
  payload : m.payload = (ConfirmRecommendationPayload.mk ticketId).modelDump

/-- The frame requests the cancellation of a ticket. -/
structure RequestsCancellation (m : Message) (ticketId : UUID) (reason : String) : Prop where
  type : m.type = .requestCancellation
  ticket : m.ticketId = some ticketId
  payload : m.payload = (RequestCancellationPayload.mk ticketId reason).modelDump

/-- The frame opens a ticket. -/
structure Opens (m : Message) (t : Ticket) : Prop where
  type : m.type = .ticket
  ticket : m.ticketId = some t.id
  payload : ∃ selections placedAt, t.selections.mapM Selection.modelValidate = some selections ∧
    m.payload = (t.payload selections placedAt).modelDump

/-- The actions of a consumer that has committed the recommendation `p`. -/
def HasRecommended (i : ℕ) (p : RecommendationPayload) (acts : History) : Prop :=
  ∃ n d m row now began, Recommends d m p ∧ row.id = p.ticketId ∧
    acts = [.committed i (.insertInbox (m.claim began) :: rewrite row (row.recommended p now) began),
      .received i .providerIn n d]

/-- How thread `i` may answer a request, by what it has done: it has created the ticket, it has
found one, it has found none after a conflict, or it has failed without a commit. -/
inductive Answers (i : ℕ) (key : String) (request : CreateTicketRequest) :
    History → Except Exn (UUID × Bool) → Prop
  | created {ws row} (hrow : .insertTicket row ∈ ws) :
      Answers i key request
        [.committed i ws, .looked i key none, .requested i key request] (.ok (row.id, true))
  | found {id} :
      Answers i key request [.looked i key (some id), .requested i key request] (.ok (id, false))
  | foundLater {id} :
      Answers i key request
        [.looked i key (some id), .looked i key none, .requested i key request] (.ok (id, false))
  | conflicted :
      Answers i key request
        [.looked i key none, .looked i key none, .requested i key request]
        (.error .integrityError)
  | failed {acts x}
      (hacts : acts = [.requested i key request] ∨
        acts = [.looked i key none, .requested i key request])
      (hx : x ≠ .integrityError) : Answers i key request acts (.error x)

/-! ### The protocol -/

/-- The entries that may follow a history. -/
inductive Permitted (l : History) : Entry → Prop
  /-- A subscriber receives a message. -/
  | received {i q n d} (hacts : l.actions i = []) (hqueue : (l.broker.queue q)[n]? = some d) :
      Permitted l (.received i q n d)
  /-- The consumer has handled its message. -/
  | ackedIn {i d} (hunacked : l.broker.unacked i = some (.providerIn, d)) : Permitted l (.acked i)
  /-- The gateway has sent its message, and the provider accepted or rejected it. -/
  | ackedOut {i d m outcome} (hunacked : l.broker.unacked i = some (.providerOut, d))
      (hdecodes : Decodes d.body m) (hsent : .sent i m outcome ∈ l.actions i)
      (houtcome : outcome ≠ .transportError) : Permitted l (.acked i)
  /-- A handler raises or dies. -/
  | returned {i} : Permitted l (.returned i)
  /-- A request arrives. -/
  | requested {i key request} (hacts : l.actions i = []) : Permitted l (.requested i key request)
  /-- `get_by_idempotency_key`, before and after the attempt to insert. -/
  | looked {i key request result}
      (hacts : l.actions i = [.requested i key request] ∨
        l.actions i = [.looked i key none, .requested i key request])
      (hfound : ∀ id, result = some id →
        ∃ row, l.database.tickets.lookup id = some row ∧ row.idempotencyKey = key)
      (hmissed : result = none → ¬ l.database.HasKey key) : Permitted l (.looked i key result)
  /-- `create_ticket` -/
  | create {i key id currency eventId m began} {request : CreateTicketRequest}
      (hacts : l.actions i = [.looked i key none, .requested i key request])
      (hcurrency : Currency.ofValue? request.currency = some currency)
      (hkey : ¬ l.database.HasKey key)
      (hticket : l.database.tickets.lookup id = none)
      (hevent : l.database.outbox.lookup eventId = none)
      (hframe : Opens m (request.ticket key id currency began)) :
      Permitted l (.committed i
        [.insertTicket (request.ticket key id currency began), outbound eventId id m began])
  /-- The first commit of `apply_recommendation`. -/
  | recommend {i n d m p row now began}
      (hacts : l.actions i = [.received i .providerIn n d])
      (hframe : Recommends d m p)
      (hunclaimed : l.database.inbox.lookup m.messageId = none)
      (hrow : l.database.tickets.lookup p.ticketId = some row)
      (hopen : ¬ row.status.Terminal) :
      Permitted l (.committed i
        (.insertInbox (m.claim began) :: rewrite row (row.recommended p now) began))
  /-- The settle call of `apply_recommendation`. -/
  | settleCall {i p error} (hacts : HasRecommended i p (l.actions i)) :
      Permitted l (.processed i p.ticketId (some p.action) error)
  /-- The second commit of `apply_recommendation`. -/
  | settle {i p acts loaded row now eventId m began}
      (hacts : l.actions i = .processed i p.ticketId (some p.action) none :: acts)
      (hrecommended : HasRecommended i p acts)
      (hrow : l.database.tickets.lookup p.ticketId = some row)
      (hid : loaded.id = p.ticketId)
      (hloaded : loaded.status = p.action.status)
      (hevent : l.database.outbox.lookup eventId = none)
      (hframe : Acknowledges m p.ticketId p.action) :
      Permitted l (.committed i
        (rewrite loaded (loaded.settled now) began ++ [outbound eventId p.ticketId m began]))
  /-- The cancel call after a failed settle call. -/
  | cancelCall {i p acts text error}
      (hacts : l.actions i = .processed i p.ticketId (some p.action) (some text) :: acts)
      (hrecommended : HasRecommended i p acts) :
      Permitted l (.processed i p.ticketId none error)
  /-- `find_stuck` -/
  | found {i olderThan ids} (hacts : l.actions i = []) (hnodup : ids.Nodup)
      (hstuck : ∀ id ∈ ids, ∃ row, l.database.tickets.lookup id = some row ∧ row.stuck olderThan) :
      Permitted l (.found i olderThan ids)
  /-- The cancel call of the reconciler, for a ticket that it has found and not yet called
  about. Up to its first commit it holds the locks of all that it has found. -/
  | recoverCall {i olderThan ids ticketId error} (hacts : ∀ e ∈ l.actions i, e.isRecovery)
      (hfound : .found i olderThan ids ∈ l.actions i) (hmem : ticketId ∈ ids)
      (hfirst : ∀ error, .processed i ticketId none error ∉ l.actions i)
      (hlocked : (∀ ws, .committed i ws ∉ l.actions i) →
        ∃ row, l.database.tickets.lookup ticketId = some row ∧ row.stuck olderThan) :
      Permitted l (.processed i ticketId none error)
  /-- The commit of `request_cancellation`; the row has been locked since before the call. -/
  | requestCancellation {i ticketId error loaded row reason now eventId m began}
      (hlocked : (l.focus i ticketId).head? = some (.processed i ticketId none error))
      (hrow : l.database.tickets.lookup ticketId = some row)
      (hid : loaded.id = ticketId)
      (hevent : l.database.outbox.lookup eventId = none)
      (hframe : RequestsCancellation m ticketId reason) :
      Permitted l (.committed i
        (rewrite loaded (loaded.cancelRequested reason now) began ++
          [outbound eventId ticketId m began]))
  /-- The commit of `mark_cancellation_applied`. -/
  | cancellationApplied {i n d m p row now began}
      (hacts : l.actions i = [.received i .providerIn n d])
      (hframe : AppliesCancellation d m p)
      (hunclaimed : l.database.inbox.lookup m.messageId = none)
      (hrow : l.database.tickets.lookup p.ticketId = some row)
      (hstatus : row.status ≠ .cancelled) :
      Permitted l (.committed i
        (.insertInbox (m.claim began) :: rewrite row (row.cancelled now) began))
  /-- The commit of `_handle_message_success_ack`. -/
  | acknowledge {i n d m ticketId target row now began}
      (hacts : l.actions i = [.sent i m .ok, .received i .providerOut n d])
      (hdecodes : Decodes d.body m)
      (hticket : m.ticketId = some ticketId)
      (htarget : ProviderGatewayWorker.ackTarget m.type = some target)
      (hrow : l.database.tickets.lookup ticketId = some row)
      (hopen : ¬ row.status.Terminal)
      (hnew : target = .sentToProvider → row.status = .new) :
      Permitted l (.committed i (rewrite row (row.acknowledged target now) began))
  /-- `fetch_pending`: of the pending events that it does not skip, the oldest ones. -/
  | fetched {i limit ids skipped} (hacts : l.actions i = [])
      (hbatch : IsBatch l.database.outbox (· ∉ skipped) (·.pending) (·.createdAt) limit ids) :
      Permitted l (.fetched i limit ids skipped)
  /-- The commit of `send_batch`. -/
  | relay {i failed publishedAt began}
      (hacts : ∀ e ∈ l.actions i, e.isRelay)
      (hfailed : failed.map Prod.fst = failedIds (l.actions i).reverse)
      (hpending : ∀ e ∈ l.actions i, e.isPublished →
        ∃ row ok, l.database.outbox.lookup row.id = some row ∧ row.status = .pending ∧
          e = .published i row.routingKey row.id row.payload ok) :
      Permitted l (.committed i
        (relayWrites (publishedIds (l.actions i).reverse) failed publishedAt began))
  /-- The second commit of `apply_recommendation` on a ticket that is not there. -/
  | commitNothing {i p acts}
      (hacts : l.actions i = .processed i p.ticketId (some p.action) none :: acts)
      (hrecommended : HasRecommended i p acts) : Permitted l (.committed i [])
  /-- `send_batch` publishes the next event of its batch, once. -/
  | publishEvent {i row ok limit} {before after skipped : List UUID}
      (hacts : ∀ e ∈ l.actions i, e.isRelay)
      (hbatch : .fetched i limit (before ++ row.id :: after) skipped ∈ l.actions i)
      (hbefore : ∀ id ∈ before, ∃ row ok, l.database.outbox.lookup id = some row ∧
        .published i row.routingKey id row.payload ok ∈ l.actions i)
      (honce : ∀ key body ok, .published i key row.id body ok ∉ l.actions i)
      (hrow : l.database.outbox.lookup row.id = some row)
      (hpending : row.status = .pending) :
      Permitted l (.published i row.routingKey row.id row.payload ok)
  /-- The gateway's receive loop publishes a frame of the provider. -/
  | publishFrame {i ok} {m : Message} :
      Permitted l (.published i topology.providerInRoutingKey m.messageId m.modelDump ok)
  /-- The gateway hands its message to the provider. -/
  | send {i n d m outcome} (hacts : l.actions i = [.received i .providerOut n d])
      (hdecodes : Decodes d.body m) : Permitted l (.sent i m outcome)
  | sendAck {i messageId ok} : Permitted l (.ackSent i messageId ok)
  | respond {i key request result} (hanswers : Answers i key request (l.actions i) result) :
      Permitted l (.responded i result)
  | load {i ticketId} : Permitted l (.loaded i ticketId)
  | count {i fromStatus toStatus} : Permitted l (.counted i fromStatus toStatus)

/-- Every entry of the history was permitted, and satisfies `C` of the history before it. -/
inductive Conforms (C : History → Entry → Prop) : History → Prop
  | nil : Conforms C []
  | cons {l : History} {e : Entry} (h : Conforms C l) (hpermitted : Permitted l e) (he : C l e) :
      Conforms C (e :: l)

namespace Conforms

variable {C : History → Entry → Prop} {l l' : History}

theorem of_suffix_history (h : Conforms C l) (hsuffix : l' <:+ l) : Conforms C l' := by
  induction h with
  | nil => exact List.suffix_nil.mp hsuffix ▸ .nil
  | cons h hpermitted he ih =>
      rcases List.suffix_cons_iff.mp hsuffix with rfl | hsuffix
      · exact .cons h hpermitted he
      · exact ih hsuffix

/-- Every entry of a conforming history was permitted and satisfies the condition. -/
theorem of_suffix {e : Entry} (h : Conforms C l) (hsuffix : (e :: l') <:+ l) :
    Permitted l' e ∧ C l' e := by
  cases h.of_suffix_history hsuffix with
  | cons _ hpermitted he => exact ⟨hpermitted, he⟩

end Conforms

end RiskProvider

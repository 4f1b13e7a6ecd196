import RiskProvider.Limits.Contract

/-!
# Handlers cut their texts

Every handler follows the contract `limited` (`Limited.program`): an assigned ticket is one that was
selected, with a failure reason cut to its column's length; only the first transaction of
`apply_recommendation` assigns a text that may be longer.
-/

namespace RiskProvider

open Interleaving

theorem length_textPrefix (n : ℕ) (text : String) : (textPrefix n text).length ≤ n := by
  simp [textPrefix, List.length_take]

theorem ProviderMessageType.length_value (type : ProviderMessageType) : type.value.length ≤ 64 := by
  cases type <;> decide

variable [Codecs]

namespace Limited

variable {α : Type} {φ : Phase} {Q : α → Phase → Prop} {F : Exn → Phase → Prop}

/-! ### Rules -/

/-- An effect that neither flushes, nor commits, nor ends the session, nor receives a message or a
request. -/
theorem effect {e : Effect} {Q : e.Value → Phase → Prop} (hmay : φ.May e)
    (hkind : e.changesPhase = false) (hok : ∀ a, Q a φ.next) (herror : ∀ x, F x φ.next) :
    limited.Fulfils (perform e) Q F φ := by
  have hnext : ∀ (r : e.Result) φ', limited.next φ e r φ' → φ' = φ.next := by
    intro r φ' h
    cases e with
    | receive q | request key r | flush | commit | rollback => cases hkind
    | selectTicketForUpdate id =>
        rcases r with x | _ | t
        · exact h
        · exact h
        · exact h.2
    | utcNow | uuid4 =>
        cases r with
        | error x => exact h.elim
        | ok a => exact h
    | _ => cases r <;> exact h
  refine Undertaking.perform hmay (fun a φ' h => ?_) fun x φ' h => ?_
  · exact hnext _ _ h ▸ hok a
  · exact hnext _ _ h ▸ herror x

theorem flush {Q : Unit → Phase → Prop} (hok : Q () φ.flushed) (herror : ∀ x, F x φ.next) :
    limited.Fulfils (perform .flush) Q F φ := by
  refine Undertaking.perform (by cases φ <;> trivial) (fun a φ' h => ?_) fun x φ' h => ?_
  · obtain rfl : φ' = φ.flushed := h
    exact hok
  · obtain rfl : φ' = φ.next := h
    exact herror x

theorem commit {Q : Unit → Phase → Prop} (hok : Q () φ.flushed.committed)
    (hfailed : ∀ x, F x φ.next) (herror : ∀ x, F x φ.flushed.next) :
    limited.Fulfils AsyncSession.commit Q F φ := by
  refine Contract.Fulfils.bind (flush ?_ hfailed)
  refine Undertaking.perform (by cases φ <;> trivial) (fun a φ' h => ?_) fun x φ' h => ?_
  · obtain rfl : φ' = φ.flushed.committed := h
    exact hok
  · obtain rfl : φ' = φ.flushed.next := h
    exact herror x

theorem rollback {Q : Unit → Phase → Prop} (hok : Q () .applied) (herror : ∀ x, F x .applied) :
    limited.Fulfils (perform .rollback) Q F φ := by
  refine Undertaking.perform (by cases φ <;> trivial) (fun a φ' h => ?_) fun x φ' h => ?_
  · obtain rfl : φ' = .applied := h
    exact hok
  · obtain rfl : φ' = .applied := h
    exact herror x

/-- A request is received by a thread that has done nothing. -/
theorem request {key : String} {r : CreateTicketRequest} {Q : Unit → Phase → Prop}
    (hok : Q () (.idle (some key))) (herror : ∀ x, F x (.idle none)) :
    limited.Fulfils (perform (.request key r)) Q F .fresh := by
  refine Undertaking.perform trivial (fun a φ' h => ?_) fun x φ' h => ?_
  · obtain rfl : φ' = .idle (some key) := h
    exact hok
  · obtain rfl : φ' = .idle none := h
    exact herror x

/-- A ticket that is selected is within the declared lengths. -/
theorem getByIdForUpdate {id : UUID} {Q : Option Ticket → Phase → Prop}
    (hmay : φ.May (.selectTicketForUpdate id)) (hnone : Q none φ.next)
    (hsome : ∀ t : Ticket, t.Fits → Q (some t) φ.next) (herror : ∀ x, F x φ.next) :
    limited.Fulfils (TicketRepository.getByIdForUpdate id) Q F φ := by
  refine Undertaking.perform hmay (fun found φ' h => ?_) fun x φ' h => ?_
  · cases found with
    | none =>
        obtain rfl : φ' = φ.next := h
        exact hnone
    | some t =>
        obtain ⟨hfits, rfl⟩ : t.Fits ∧ φ' = φ.next := h
        exact hsome t hfits
  · obtain rfl : φ' = φ.next := h
    exact herror x

theorem utcNow {Q : Time → Phase → Prop} (h : ∀ now, Q now φ.next) :
    limited.Fulfils utcNow Q F φ :=
  Undertaking.perform (by cases φ <;> trivial)
    (fun now φ' hnext => by obtain rfl : φ' = φ.next := hnext; exact h now) fun _ _ => False.elim

theorem uuid4 {Q : UUID → Phase → Prop} (h : ∀ u, Q u φ.next) :
    limited.Fulfils uuid4 Q F φ :=
  Undertaking.perform (by cases φ <;> trivial)
    (fun u φ' hnext => by obtain rfl : φ' = φ.next := hnext; exact h u) fun _ _ => False.elim

theorem assign {t : Ticket} {Q : Unit → Phase → Prop} (hmay : φ.May (.assign t))
    (hok : Q () φ.next) (herror : ∀ x, F x φ.next) :
    limited.Fulfils (perform (.assign t)) Q F φ :=
  effect hmay rfl (fun _ => hok) herror

theorem countTransition {fromStatus toStatus : TicketStatus} {Q : Unit → Phase → Prop}
    (hok : Q () φ.next) (herror : ∀ x, F x φ.next) :
    limited.Fulfils (perform (.countTransition fromStatus toStatus)) Q F φ :=
  effect (by cases φ <;> trivial) rfl (fun _ => hok) herror

/-! ### Services -/

theorem changeStatus {ticket : Ticket} {target : TicketStatus} {Q : Ticket → Phase → Prop}
    (hφ : φ.next = φ) (hmay : φ.May (.assign { ticket with status := target }))
    (hsame : Q ticket φ) (hchanged : Q { ticket with status := target } φ.flushed)
    (herror : ∀ x, F x φ) :
    limited.Fulfils (TicketService.changeStatus ticket target false) Q F φ := by
  unfold TicketService.changeStatus
  dsimp only
  split
  · exact Contract.Fulfils.pure hsame
  · rw [← hφ] at herror
    refine Contract.Fulfils.bind (assign hmay ?_ herror)
    rw [hφ]
    refine Contract.Fulfils.bind (countTransition ?_ herror)
    rw [hφ]
    exact Contract.Fulfils.bind (flush (Contract.Fulfils.pure hchanged) herror)

theorem build {type : ProviderMessageType} {payload : type.Payload} {ticketId : Option UUID}
    {key : Option String} {Q : Message → Phase → Prop} (h : ∀ m, Q m (.idle key)) :
    limited.Fulfils (buildMessage type payload ticketId) Q F (.idle key) :=
  Contract.Fulfils.bind (uuid4 fun _ => Contract.Fulfils.bind (utcNow
    fun _ => Contract.Fulfils.pure (h _)))

/-- The event type and the routing key of an outbound frame are short. -/
theorem addEvent {ticketId : UUID} {payload : Dict} {key : Option String} {Q : Unit → Phase → Prop}
    (hok : Q () (.idle key)) (herror : ∀ x, F x (.idle key)) :
    limited.Fulfils (OutboxRepository.add ticketId eventTypeTicketOutbound
      topology.providerOutRoutingKey payload) Q F (.idle key) := by
  refine Contract.Fulfils.bind (uuid4 fun id => ?_)
  refine Contract.Fulfils.bind (effect ?_ rfl (fun _ => flush hok herror) herror)
  have htype : eventTypeTicketOutbound.length ≤ 128 := by decide
  have hkey : topology.providerOutRoutingKey.length ≤ 255 := by decide
  exact ⟨htype, hkey⟩

theorem requestCancellation {id : UUID} {reason : String} {Q : Unit → Phase → Prop}
    (hok : Q () (.idle none)) (herror : ∀ x, F x (.idle none)) :
    limited.Fulfils (TicketService.requestCancellation id reason) Q F (.idle none) := by
  refine Contract.Fulfils.bind (getByIdForUpdate trivial (Contract.Fulfils.pure hok)
    (fun ticket hticket => ?_) herror)
  have hcancel : limited.Fulfils (do
      let now ← RiskProvider.utcNow
      let ticket := { ticket with
        failureReason := some (textPrefix 1024 reason)
        cancelledAt := some now }
      perform (.assign ticket)
      let ticket ← TicketService.changeStatus ticket .cancellationRequested false
      let message ← buildMessage .requestCancellation { ticketId := ticket.id, reason }
        (some ticket.id)
      OutboxRepository.add ticket.id eventTypeTicketOutbound topology.providerOutRoutingKey
        message.modelDump
      AsyncSession.commit) Q F (.idle none) := by
    refine Contract.Fulfils.bind (utcNow fun now => ?_)
    have hfits : { ticket with
        failureReason := some (textPrefix 1024 reason)
        cancelledAt := some now }.Fits :=
      ⟨hticket.1, hticket.2.1, fun r hr => Option.some.inj hr ▸ length_textPrefix 1024 reason⟩
    have hrest : ∀ t : Ticket, limited.Fulfils (do
        let message ← buildMessage .requestCancellation { ticketId := t.id, reason } (some t.id)
        OutboxRepository.add t.id eventTypeTicketOutbound topology.providerOutRoutingKey
          message.modelDump
        AsyncSession.commit) Q F (.idle none) := fun t =>
      Contract.Fulfils.bind (build fun m => Contract.Fulfils.bind (addEvent
        (commit hok herror herror) herror))
    refine Contract.Fulfils.bind (assign hfits ?_ herror)
    exact Contract.Fulfils.bind (changeStatus rfl hfits (hrest _) (hrest _) herror)
  refine Contract.Fulfils.bind (Undertaking.attempt (effect trivial rfl
    (fun _ => hcancel) fun x => ?_))
  cases x with
  | monolithError text => exact hcancel
  | _ => exact Contract.Fulfils.throw (herror _)

/-! ### The services of the consumer -/

/-- The acknowledging frame is added and committed. -/
theorem acknowledge {ticket : Ticket} {action : RecommendationAction} :
    limited.Fulfils (do
      let message ← TicketService.buildAckMessage ticket action
      OutboxRepository.add ticket.id eventTypeTicketOutbound topology.providerOutRoutingKey
        message.modelDump
      AsyncSession.commit) (fun _ _ => True) (fun _ _ => True) (.idle none) := by
  refine Contract.Fulfils.bind ?_
  unfold TicketService.buildAckMessage
  split <;> exact build fun m => Contract.Fulfils.bind (addEvent
    (commit trivial (fun _ => trivial) fun _ => trivial) fun _ => trivial)

/-- The recommendation's reason is assigned and flushed; from then on the texts are short. -/
theorem applyRecommendation {payload : RecommendationPayload} :
    limited.Fulfils (TicketService.applyRecommendation payload) (fun _ _ => True)
      (fun _ _ => True) (.applying payload.reason) := by
  refine Contract.Fulfils.bind (getByIdForUpdate trivial (Contract.Fulfils.pure trivial)
    (fun ticket hticket => ?_) fun _ => trivial)
  dsimp only
  split
  · exact Contract.Fulfils.pure trivial
  refine Contract.Fulfils.bind (utcNow fun now => ?_)
  have hmay : ∀ status : TicketStatus, (Phase.applying payload.reason).May (.assign { ticket with
      providerRecommendation := some payload.action
      providerReason := payload.reason
      providerRecommendationAt := some now
      status }) := fun _ => ⟨rfl, hticket.1, by simp, hticket.2.2⟩
  refine Contract.Fulfils.bind (assign (hmay ticket.status) ?_ fun _ => trivial)
  -- the commit flushes the reason, if it has not been flushed
  have hchange : ∀ ticket : Ticket,
      (∀ target : TicketStatus,
        (Phase.applying payload.reason).May (.assign { ticket with status := target })) →
      ∀ target, limited.Fulfils (TicketService.changeStatus ticket target false)
        (fun _ φ => φ.flushed.committed = .idle none) (fun _ _ => True) (.applying payload.reason) :=
    fun _ hmay target => changeStatus rfl (hmay target) rfl rfl fun _ => trivial
  refine Contract.Fulfils.bind (Contract.Fulfils.mono (hchange _ hmay _) (fun ticket φ hφ => ?_)
    fun _ _ _ => trivial)
  refine Contract.Fulfils.bind (commit ?_ (fun _ => trivial) fun _ => trivial)
  rw [hφ]
  refine Contract.Fulfils.bind (Undertaking.attempt (effect trivial rfl (fun _ => ?_) fun x => ?_))
  · -- the second transaction
    refine Contract.Fulfils.bind (getByIdForUpdate trivial
      (commit trivial (fun _ => trivial) fun _ => trivial) (fun ticket hticket => ?_)
      fun _ => trivial)
    dsimp only
    split
    · exact commit trivial (fun _ => trivial) fun _ => trivial
    refine Contract.Fulfils.bind (utcNow fun now => ?_)
    refine Contract.Fulfils.bind (assign hticket ?_ fun _ => trivial)
    exact Contract.Fulfils.bind
      (changeStatus rfl hticket acknowledge acknowledge fun _ => trivial)
  · cases x with
    | monolithError text => exact requestCancellation trivial fun _ => trivial
    | _ => exact Contract.Fulfils.throw trivial

theorem markCancellationApplied {ticketId : UUID} :
    limited.Fulfils (TicketService.markCancellationApplied ticketId) (fun _ _ => True)
      (fun _ _ => True) (.idle none) := by
  refine Contract.Fulfils.bind (getByIdForUpdate trivial (Contract.Fulfils.pure trivial)
    (fun ticket hticket => ?_) fun _ => trivial)
  dsimp only
  split
  · exact Contract.Fulfils.pure trivial
  refine Contract.Fulfils.bind (utcNow fun now => ?_)
  refine Contract.Fulfils.bind (assign hticket ?_ fun _ => trivial)
  have hcommit : limited.Fulfils AsyncSession.commit (fun _ _ => True) (fun _ _ => True) (.idle none) :=
    commit trivial (fun _ => trivial) fun _ => trivial
  exact Contract.Fulfils.bind (changeStatus rfl hticket hcommit hcommit fun _ => trivial)

theorem createTicket {key : String} {request : CreateTicketRequest} :
    limited.Fulfils (TicketService.createTicket key request) (fun _ _ => True)
      (fun _ _ => True) (.idle (some key)) := by
  have hcommit : limited.Fulfils AsyncSession.commit (fun _ _ => True) (fun _ _ => True)
      (.idle (some key)) := commit trivial (fun _ => trivial) fun _ => trivial
  refine Contract.Fulfils.bind (effect trivial rfl (fun found => ?_)
    fun _ => trivial)
  cases found with
  | some existing => exact Contract.Fulfils.pure trivial
  | none =>
      refine Contract.Fulfils.bind (uuid4 fun id => ?_)
      dsimp only
      split
      · exact Contract.Fulfils.throw trivial
      next currency hcurrency =>
        have hinsert : ∀ ticket : Ticket, (Phase.idle (some key)).May (.add (.ticket ticket)) →
            limited.Fulfils (do
            TicketRepository.add ticket
            let message ← TicketService.buildTicketMessage ticket
            OutboxRepository.add ticket.id eventTypeTicketOutbound topology.providerOutRoutingKey
              message.modelDump
            AsyncSession.commit) (fun _ _ => True) (fun _ _ => True) (.idle (some key)) := by
          intro ticket hmay
          refine Contract.Fulfils.bind (Contract.Fulfils.bind (effect hmay rfl
            (fun _ => flush ?_ fun _ => trivial) fun _ => trivial))
          refine Contract.Fulfils.bind ?_
          unfold TicketService.buildTicketMessage
          split
          · exact Contract.Fulfils.throw trivial
          · exact Contract.Fulfils.bind (utcNow fun _ => build fun m =>
              Contract.Fulfils.bind (addEvent hcommit fun _ => trivial))
        -- the ticket has no other texts than the key
        refine Contract.Fulfils.bind (Undertaking.attempt (Contract.Fulfils.mono (hinsert _
            ⟨rfl, by simp, by simp, by simp⟩)
          (fun _ _ _ => Contract.Fulfils.pure trivial) fun x φ _ => ?_))
        cases x with
        | integrityError =>
            refine Contract.Fulfils.bind (rollback ?_ fun _ => trivial)
            refine Contract.Fulfils.bind (effect trivial rfl (fun found => ?_)
              fun _ => trivial)
            cases found with
            | none => exact Contract.Fulfils.throw trivial
            | some existing => exact Contract.Fulfils.pure trivial
        | _ => exact Contract.Fulfils.throw trivial

/-! ### Handlers -/

/-- The session of a handler ends. -/
theorem scope {body : Py α}
    (h : limited.Fulfils body (fun a _ => Q a .applied) (fun _ _ => True) φ)
    (herror : ∀ x, F x .applied) : limited.Fulfils (AsyncSession.scope body) Q F φ :=
  Undertaking.scope (fun φ => by cases φ <;> trivial) id
    (Contract.Fulfils.mono h (fun _ _ hQ => ⟨hQ, herror⟩) fun _ _ _ => herror)

theorem validate {body : Dict} {Q : Message → Phase → Prop} (hφ : φ.next = φ)
    (hok : ∀ u t m, Message.modelValidate u t body = some m → Q m φ)
    (herror : ∀ u t, Message.modelValidate u t body = none → F .validationError φ) :
    limited.Fulfils (Message.validate body) Q F φ := by
  refine Contract.Fulfils.bind (uuid4 fun u => Contract.Fulfils.bind (utcNow fun t => ?_))
  rw [hφ, hφ]
  split
  next m hm => exact Contract.Fulfils.pure (hok u t m hm)
  next hm => exact Contract.Fulfils.throw (herror u t hm)

/-- A handler of a queue's messages is done with the recommendation, if it has received one. -/
theorem subscribe {q : Queue} {handler : Dict → Py Unit}
    (h : ∀ body, limited.Fulfils (handler body) (fun _ φ => φ.May .ack) (fun _ φ => φ.May .ack)
      (.ofBody q body)) :
    limited.Fulfils (subscribe q handler) (fun _ _ => True) (fun _ _ => True) .fresh := by
  refine Contract.Fulfils.bind (Undertaking.perform trivial (fun body φ hφ => ?_) fun _ _ _ => trivial)
  obtain rfl : φ = .ofBody q body := hφ
  refine Contract.Fulfils.bind (Undertaking.attempt (Contract.Fulfils.mono (h body) ?_ ?_))
  · intro _ φ hmay
    exact effect hmay rfl (fun _ => trivial) fun _ => trivial
  · intro _ φ hmay
    have hnack : φ.May .nack := by cases φ <;> exact hmay
    exact effect hnack rfl (fun _ => trivial) fun _ => trivial

/-- The phase of a consumer that has validated its message. -/
theorem ofBody_eq {u : UUID} {t : Time} {body : Dict} {m : Message}
    (h : Message.modelValidate u t body = some m) : Phase.ofBody .providerIn body =
      (if m.type = .recommendation then
        (RecommendationPayload.modelValidate m.payload).map (·.reason)
      else none).elim (.idle none) .applying := by
  rw [Phase.ofBody, recommendedReason?_eq h]

theorem handle {payload : Dict} :
    limited.Fulfils (ProviderConsumerWorker.handle payload) (fun _ φ => φ.May .ack)
      (fun _ φ => φ.May .ack) (.ofBody .providerIn payload) := by
  have hnext : ∀ φ : Phase, φ = .ofBody .providerIn payload → φ.next = φ := by
    rintro _ rfl
    unfold Phase.ofBody
    cases recommendedReason? payload <;> rfl
  refine Contract.Fulfils.bind (validate (hnext _ rfl) (fun u t m hm => ?_) fun u t hm => ?_)
  · have hφ := ofBody_eq hm
    split
    next hunhandled =>
      have htype : m.type ≠ .recommendation := fun heq => hunhandled (by simp [heq,
        ProviderConsumerWorker.handledTypes])
      rw [hφ, if_neg htype]
      exact Contract.Fulfils.pure trivial
    refine scope ?_ fun _ => trivial
    have hclaim : (Phase.ofBody .providerIn payload).May
        (.insertInbox m.messageId m.type.value m.ticketId) := by
      cases Phase.ofBody .providerIn payload <;> exact m.type.length_value
    refine Contract.Fulfils.bind (effect hclaim rfl (fun claimed => ?_)
      fun _ => trivial)
    rw [hnext _ rfl]
    split
    · exact Contract.Fulfils.pure trivial
    split
    next htype =>
      rw [if_pos htype] at hφ
      refine Contract.Fulfils.bind ?_
      cases hp : RecommendationPayload.modelValidate m.payload with
      | none => exact Contract.Fulfils.throw trivial
      | some p =>
          rw [hφ, hp]
          exact Contract.Fulfils.pure (Contract.Fulfils.mono applyRecommendation
            (fun _ _ _ => trivial) fun _ _ _ => trivial)
    next htype =>
      rw [if_neg htype] at hφ
      refine Contract.Fulfils.bind ?_
      cases CancellationAppliedPayload.modelValidate m.payload with
      | none => exact Contract.Fulfils.throw trivial
      | some p =>
          rw [hφ]
          exact Contract.Fulfils.pure (Contract.Fulfils.mono markCancellationApplied
            (fun _ _ _ => trivial) fun _ _ _ => trivial)
  · rw [Phase.ofBody, recommendedReason?_eq_none hm]
    trivial

theorem handleMessageSuccessAck {message : Message} :
    limited.Fulfils (ProviderGatewayWorker.handleMessageSuccessAck message)
      (fun _ φ => φ.May .ack) (fun _ φ => φ.May .ack) (.idle none) := by
  unfold ProviderGatewayWorker.handleMessageSuccessAck
  split
  · exact Contract.Fulfils.pure trivial
  · exact Contract.Fulfils.pure trivial
  next target _ _ =>
  have hcount : ∀ previous : TicketStatus, limited.Fulfils
      (perform (.countTransition previous target)) (fun _ φ => φ.May .ack) (fun _ φ => φ.May .ack)
      .applied := fun previous => countTransition trivial fun _ => trivial
  refine Contract.Fulfils.bind (scope ?_ fun _ => trivial)
  refine Contract.Fulfils.bind (getByIdForUpdate trivial
    (Contract.Fulfils.pure (Contract.Fulfils.pure trivial)) (fun ticket hticket => ?_)
    fun _ => trivial)
  dsimp only
  split
  · exact Contract.Fulfils.pure (Contract.Fulfils.pure trivial)
  split
  · exact Contract.Fulfils.pure (Contract.Fulfils.pure trivial)
  split
  · refine Contract.Fulfils.bind (utcNow fun now => Contract.Fulfils.bind (assign hticket ?_
      fun _ => trivial))
    exact Contract.Fulfils.bind (commit (Contract.Fulfils.pure (hcount _)) (fun _ => trivial)
      fun _ => trivial)
  · refine Contract.Fulfils.bind (assign hticket ?_ fun _ => trivial)
    exact Contract.Fulfils.bind (commit (Contract.Fulfils.pure (hcount _)) (fun _ => trivial)
      fun _ => trivial)

theorem sendToProvider {payload : Dict} :
    limited.Fulfils (ProviderGatewayWorker.sendToProvider payload) (fun _ φ => φ.May .ack)
      (fun _ φ => φ.May .ack) (.idle none) := by
  refine Contract.Fulfils.bind (validate rfl (fun _ _ message _ => ?_) fun _ _ _ => trivial)
  refine Contract.Fulfils.bind (Undertaking.attempt (effect trivial rfl
    (fun _ => handleMessageSuccessAck) fun x => ?_))
  cases x with
  | providerAckError code => exact Contract.Fulfils.pure trivial
  | _ => exact Contract.Fulfils.throw trivial

theorem recieveFromProvider (frames : List Message) (hφ : φ.next = .idle none) :
    limited.Fulfils (ProviderGatewayWorker.recieveFromProvider frames) (fun _ _ => True)
      (fun _ _ => True) φ := by
  induction frames generalizing φ with
  | nil => exact Contract.Fulfils.pure trivial
  | cons message frames ih =>
      have hmay : φ.May (.publish topology.providerInRoutingKey message.messageId
          message.modelDump) := by
        cases φ with
        | fresh | idle => trivial
        | _ => cases hφ
      refine Contract.Fulfils.bind (Undertaking.attempt (effect hmay rfl
        (fun _ => ?_) fun _ => Contract.Fulfils.pure trivial))
      rw [hφ]
      have hrest : limited.Fulfils (ProviderGatewayWorker.recieveFromProvider frames)
          (fun _ _ => True) (fun _ _ => True) (.idle none) := ih rfl
      exact Contract.Fulfils.bind (Undertaking.attempt (effect trivial rfl
        (fun _ => hrest) fun _ => hrest))

theorem publishAll (pending : List OutboxEvent) {Q : List UUID × List (UUID × String) →
    Phase → Prop} (h : ∀ outcome, Q outcome (.idle none)) :
    limited.Fulfils (OutboxService.publishAll pending) Q (fun _ _ => True) (.idle none) := by
  induction pending generalizing Q with
  | nil => exact Contract.Fulfils.pure (h _)
  | cons event pending ih =>
      refine Contract.Fulfils.bind (Undertaking.attempt (effect trivial rfl
        (fun _ => ?_) fun x => ?_))
      · exact Contract.Fulfils.bind (ih fun _ => Contract.Fulfils.pure (h _))
      · cases x with
        | publishError text => exact Contract.Fulfils.bind (ih fun _ => Contract.Fulfils.pure (h _))
        | _ => exact Contract.Fulfils.throw trivial

theorem markAllFailed (failed : List (UUID × String)) {Q : Unit → Phase → Prop} (h : Q () (.idle none)) :
    limited.Fulfils (OutboxService.markAllFailed failed) Q (fun _ _ => True) (.idle none) := by
  induction failed with
  | nil => exact Contract.Fulfils.pure h
  | cons f failed ih =>
      exact Contract.Fulfils.bind (effect trivial rfl (fun _ => ih)
        fun _ => trivial)

theorem sendBatch {batchSize : ℕ} :
    limited.Fulfils (OutboxService.sendBatch batchSize) (fun _ _ => True) (fun _ _ => True)
      .fresh := by
  refine scope ?_ fun _ => trivial
  refine Contract.Fulfils.bind (effect trivial rfl (fun pending => ?_)
    fun _ => trivial)
  split
  · exact Contract.Fulfils.pure trivial
  refine Contract.Fulfils.bind (publishAll pending fun outcome => ?_)
  have hrest : limited.Fulfils (do
      OutboxService.markAllFailed outcome.2
      AsyncSession.commit
      return outcome.1.length) (fun _ _ => True) (fun _ _ => True) (.idle none) :=
    Contract.Fulfils.bind (markAllFailed outcome.2 (Contract.Fulfils.bind
      (commit (Contract.Fulfils.pure trivial) (fun _ => trivial) fun _ => trivial)))
  refine Contract.Fulfils.bind ?_
  unfold OutboxRepository.markPublishedMany
  split
  · exact Contract.Fulfils.pure hrest
  · exact Contract.Fulfils.bind (utcNow fun now =>
      effect trivial rfl (fun _ => hrest) fun _ => trivial)

theorem recoverAll (tickets : List Ticket) :
    limited.Fulfils (ReconcilerWorker.recoverAll tickets) (fun _ _ => True) (fun _ _ => True)
      (.idle none) := by
  induction tickets with
  | nil => exact Contract.Fulfils.pure trivial
  | cons ticket tickets ih =>
      exact Contract.Fulfils.bind (Undertaking.attempt (requestCancellation ih fun _ =>
        Contract.Fulfils.bind (effect trivial rfl (fun _ => ih) fun _ => trivial)))

theorem recoverStuckTickets {stuckAfterSec batchSize : ℕ} :
    limited.Fulfils (ReconcilerWorker.recoverStuckTickets stuckAfterSec batchSize)
      (fun _ _ => True) (fun _ _ => True) .fresh := by
  refine Contract.Fulfils.bind (utcNow fun now => scope ?_ fun _ => trivial)
  exact Contract.Fulfils.bind (effect trivial rfl (fun stuck =>
    recoverAll stuck) fun _ => trivial)

theorem createTicketEndpoint {key : String} {request : CreateTicketRequest} :
    limited.Fulfils (createTicketEndpoint key request) (fun _ _ => True) (fun _ _ => True)
      .fresh := by
  refine Contract.Fulfils.bind (Limited.request ?_ fun _ => trivial)
  refine Contract.Fulfils.bind (Undertaking.attempt (scope (Contract.Fulfils.mono createTicket
    (fun created _ _ => ?_) fun _ _ _ => trivial) fun x => ?_))
  · exact effect trivial rfl (fun _ => trivial) fun _ => trivial
  · exact effect trivial rfl (fun _ => trivial) fun _ => trivial

/-- Every handler cuts its texts, except for the reason of a recommendation. -/
theorem program (invocation : Invocation) :
    limited.Follows invocation.program (fun _ _ => True) .fresh := by
  cases invocation with
  | createTicket key request => exact Undertaking.toThread createTicketEndpoint
  | sendBatch batchSize => exact Undertaking.toThread sendBatch
  | sendToProvider => exact Undertaking.toThread (subscribe fun _ => sendToProvider)
  | recieveFromProvider frames => exact Undertaking.toThread (recieveFromProvider frames rfl)
  | handle => exact Undertaking.toThread (subscribe fun _ => handle)
  | recoverStuckTickets stuckAfterSec batchSize => exact Undertaking.toThread recoverStuckTickets

end Limited

end RiskProvider

import RiskProvider.Audit.Contract

/-!
# Handlers keep the audit columns

Every handler follows the contract `audited` (`Audited.program`): it sets the columns of a status
before it sets the status, or together with it, on the attributes that it has selected.
-/

namespace RiskProvider

open Interleaving

theorem Ticket.Stamped.of_kept {t t' : Ticket} (h : t.Stamped) (hstatus : t'.status = t.status)
    (hkept : t.Kept t') : t'.Stamped := by
  intro c hc
  rw [hstatus] at hc
  exact hkept c (h c hc)

variable [Codecs]

namespace Audited

variable {α : Type} {σ : Option Ticket} {Q : α → Option Ticket → Prop}
variable {F : Exn → Option Ticket → Prop}

/-! ### Rules -/

/-- The effect changes what its thread knows of a ticket. -/
def updates : Effect → Bool
  | .assign _ | .selectTicketForUpdate _ | .rollback => true
  | _ => false

omit [Codecs] in
/-- An effect after which the thread knows what it has known. -/
theorem effect {e : Effect} {Q : e.Value → Option Ticket → Prop} (hmay : audited.may σ e)
    (hkind : updates e = false) (hok : ∀ a, Q a σ) (herror : ∀ x, F x σ) :
    audited.Fulfils (perform e) Q F σ := by
  have hnext : ∀ (r : e.Result) σ', audited.next σ e r σ' → σ' = σ := by
    intro r σ' h
    cases e with
    | assign t | selectTicketForUpdate id | rollback => cases hkind
    | utcNow | uuid4 =>
        cases r with
        | error x => exact h.elim
        | ok a => exact h
    | _ => cases r <;> exact h
  refine Undertaking.perform hmay (fun a σ' h => ?_) fun x σ' h => ?_
  · rw [hnext _ _ h]
    exact hok a
  · rw [hnext _ _ h]
    exact herror x

omit [Codecs] in
theorem utcNow {Q : Time → Option Ticket → Prop} (h : ∀ now, Q now σ) :
    audited.Fulfils utcNow Q F σ :=
  Undertaking.perform trivial (fun now σ' hnext => by obtain rfl : σ' = σ := hnext; exact h now)
    fun _ _ => False.elim

omit [Codecs] in
theorem uuid4 {Q : UUID → Option Ticket → Prop} (h : ∀ u, Q u σ) :
    audited.Fulfils uuid4 Q F σ :=
  Undertaking.perform trivial (fun u σ' hnext => by obtain rfl : σ' = σ := hnext; exact h u)
    fun _ _ => False.elim

omit [Codecs] in
theorem rollback {Q : Unit → Option Ticket → Prop} (hok : Q () none) (herror : ∀ x, F x none) :
    audited.Fulfils (perform .rollback) Q F σ := by
  refine Undertaking.perform trivial (fun _ σ' h => ?_) fun x σ' h => ?_
  · obtain rfl : σ' = none := h
    exact hok
  · obtain rfl : σ' = none := h
    exact herror x

omit [Codecs] in
theorem commit {Q : Unit → Option Ticket → Prop} (hok : Q () σ) (herror : ∀ x, F x σ) :
    audited.Fulfils AsyncSession.commit Q F σ :=
  Contract.Fulfils.bind (effect trivial rfl (fun _ => effect trivial rfl (fun _ => hok) herror)
    herror)

omit [Codecs] in
/-- A ticket is selected; if it is the one that the thread knows, with the attributes known. -/
theorem getByIdForUpdate {id : UUID} {Q : Option Ticket → Option Ticket → Prop} (hnone : Q none σ)
    (hsome : ∀ t : Ticket, t.id = id → (∀ t₀ ∈ σ, t₀.id = id → t = t₀) → Q (some t) (some t))
    (herror : ∀ x, F x σ) : audited.Fulfils (TicketRepository.getByIdForUpdate id) Q F σ := by
  refine Undertaking.perform trivial (fun found σ' h => ?_) fun x σ' h => ?_
  · cases found with
    | none =>
        obtain rfl : σ' = σ := h
        exact hnone
    | some t =>
        obtain ⟨hid, hsame, rfl⟩ := h
        exact hsome t hid hsame
  · obtain rfl : σ' = σ := h
    exact herror x

omit [Codecs] in
/-- Attributes of the known ticket are assigned. -/
theorem assign {t t' : Ticket} {Q : Unit → Option Ticket → Prop} (hid : t.id = t'.id)
    (hkept : t.Kept t') (hstamped : t.Stamped → t'.Stamped) (hok : Q () (some t'))
    (herror : ∀ x, F x (some t)) :
    audited.Fulfils (perform (.assign t')) Q F (some t) := by
  refine Undertaking.perform ⟨t, rfl, hid, hkept, hstamped⟩ (fun _ σ' h => ?_) fun x σ' h => ?_
  · obtain rfl : σ' = some t' := h
    exact hok
  · obtain rfl : σ' = some t := h
    exact herror x

/-! ### Services -/

omit [Codecs] in
/-- The status is changed to one whose columns are set. -/
theorem changeStatus {ticket : Ticket} {target : TicketStatus} {Q : Ticket → Option Ticket → Prop}
    (hstamps : ∀ c ∈ target.stamps, ticket.has c) (hsame : Q ticket (some ticket))
    (hchanged : Q { ticket with status := target } (some { ticket with status := target }))
    (herror : ∀ x σ, F x σ) :
    audited.Fulfils (TicketService.changeStatus ticket target false) Q F (some ticket) := by
  have hhas : ∀ c, Ticket.has { ticket with status := target } c = ticket.has c := by
    intro c
    cases c <;> rfl
  unfold TicketService.changeStatus
  dsimp only
  split
  · exact Contract.Fulfils.pure hsame
  · refine Contract.Fulfils.bind (assign rfl (.of_has hhas) (fun _ c hc => ?_) ?_ fun x => herror x _)
    · rw [hhas]
      exact hstamps c hc
    refine Contract.Fulfils.bind (effect trivial rfl (fun _ => ?_) fun x => herror x _)
    exact Contract.Fulfils.bind (effect trivial rfl (fun _ => Contract.Fulfils.pure hchanged)
      fun x => herror x _)

theorem build {type : ProviderMessageType} {payload : type.Payload} {ticketId : Option UUID}
    {Q : Message → Option Ticket → Prop} (h : ∀ m, Q m σ) :
    audited.Fulfils (buildMessage type payload ticketId) Q F σ :=
  Contract.Fulfils.bind (uuid4 fun _ => Contract.Fulfils.bind (utcNow
    fun _ => Contract.Fulfils.pure (h _)))

omit [Codecs] in
theorem addEvent {ticketId : UUID} {eventType routingKey : String} {payload : Dict}
    {Q : Unit → Option Ticket → Prop} (hok : Q () σ) (herror : ∀ x, F x σ) :
    audited.Fulfils (OutboxRepository.add ticketId eventType routingKey payload) Q F σ :=
  Contract.Fulfils.bind (uuid4 fun _ => Contract.Fulfils.bind (effect trivial rfl
    (fun _ => effect trivial rfl (fun _ => hok) herror) herror))

/-- The reason and the time of a cancellation are set before its status. -/
theorem requestCancellation {id : UUID} {reason : String} {Q : Unit → Option Ticket → Prop}
    (hok : ∀ σ, Q () σ) (herror : ∀ x σ, F x σ) :
    audited.Fulfils (TicketService.requestCancellation id reason) Q F σ := by
  refine Contract.Fulfils.bind (getByIdForUpdate (Contract.Fulfils.pure (hok _))
    (fun ticket _ _ => ?_) fun x => herror x _)
  -- the same is done whether or not the monolith has answered
  have hcancel : audited.Fulfils (do
      let now ← RiskProvider.utcNow
      let ticket := { ticket with
        failureReason := some (textPrefix 1024 reason)
        cancelledAt := some now }
      perform (.assign ticket)
      let ticket ← TicketService.changeStatus ticket .cancellationRequested false
      let message ← buildMessage .requestCancellation { ticketId := ticket.id, reason }
        (some ticket.id)
      OutboxRepository.add ticket.id eventTypeTicketOutbound topology.providerOutRoutingKey
        message.modelDump
      AsyncSession.commit) Q F (some ticket) := by
    refine Contract.Fulfils.bind (utcNow fun now => ?_)
    have hkept : ticket.Kept { ticket with
        failureReason := some (textPrefix 1024 reason)
        cancelledAt := some now } := by
      intro c hc
      cases c <;> first | exact hc | rfl
    have hrest : ∀ t : Ticket, audited.Fulfils (do
        let message ← buildMessage .requestCancellation { ticketId := t.id, reason } (some t.id)
        OutboxRepository.add t.id eventTypeTicketOutbound topology.providerOutRoutingKey
          message.modelDump
        AsyncSession.commit) Q F (some t) := fun t =>
      Contract.Fulfils.bind (build fun m => Contract.Fulfils.bind (addEvent
        (commit (hok _) fun x => herror x _) fun x => herror x _))
    refine Contract.Fulfils.bind (assign rfl hkept (fun h => h.of_kept rfl hkept) ?_
      fun x => herror x _)
    refine Contract.Fulfils.bind (changeStatus (fun c hc => ?_) (hrest _) (hrest _) herror)
    simp only [TicketStatus.stamps, List.mem_cons, List.not_mem_nil, or_false] at hc
    rcases hc with rfl | rfl <;> rfl
  refine Contract.Fulfils.bind (Undertaking.attempt (effect trivial rfl
    (fun _ => hcancel) fun x => ?_))
  cases x with
  | monolithError text => exact hcancel
  | _ => exact Contract.Fulfils.throw (herror _ _)

theorem acknowledge {ticket : Ticket} {action : RecommendationAction} :
    audited.Fulfils (do
      let message ← TicketService.buildAckMessage ticket action
      OutboxRepository.add ticket.id eventTypeTicketOutbound topology.providerOutRoutingKey
        message.modelDump
      AsyncSession.commit) (fun _ _ => True) (fun _ _ => True) σ := by
  refine Contract.Fulfils.bind ?_
  unfold TicketService.buildAckMessage
  split <;> exact build fun m => Contract.Fulfils.bind (addEvent
    (commit trivial fun _ => trivial) fun _ => trivial)

/-- The instance that is settled is the one on which the recommendation has been recorded. -/
theorem settle {recommended : Ticket} {payload : RecommendationPayload}
    (hrecommendation : recommended.has .recommendation)
    (hrecommendedAt : recommended.has .recommendedAt) :
    audited.Fulfils (do
      match ← TicketRepository.getByIdForUpdate recommended.id with
      | none => AsyncSession.commit
      | some ticket =>
        if ticket.status.Terminal then AsyncSession.commit
        else
          let now ← RiskProvider.utcNow
          let ticket := { ticket with settledAt := some now }
          perform (.assign ticket)
          let ticket ← TicketService.changeStatus ticket .settled false
          let message ← TicketService.buildAckMessage ticket payload.action
          OutboxRepository.add ticket.id eventTypeTicketOutbound
            topology.providerOutRoutingKey message.modelDump
          AsyncSession.commit) (fun _ _ => True) (fun _ _ => True) (some recommended) := by
  refine Contract.Fulfils.bind (getByIdForUpdate (commit trivial fun _ => trivial)
    (fun ticket _ hsame => ?_) fun _ => trivial)
  -- the select returns the live instance, not the row
  obtain rfl : ticket = recommended := hsame recommended rfl rfl
  dsimp only
  split
  · exact commit trivial fun _ => trivial
  refine Contract.Fulfils.bind (utcNow fun now => ?_)
  have hkept : ticket.Kept { ticket with settledAt := some now } := by
    intro c hc
    cases c <;> first | exact hc | rfl
  refine Contract.Fulfils.bind (assign rfl hkept (fun h => h.of_kept rfl hkept) ?_
    fun _ => trivial)
  refine Contract.Fulfils.bind (changeStatus (fun c hc => ?_) acknowledge acknowledge
    fun _ _ => trivial)
  simp only [TicketStatus.stamps, List.mem_cons, List.not_mem_nil, or_false] at hc
  rcases hc with rfl | rfl | rfl
  · exact hrecommendation
  · exact hrecommendedAt
  · rfl

theorem applyRecommendation {payload : RecommendationPayload} :
    audited.Fulfils (TicketService.applyRecommendation payload) (fun _ _ => True)
      (fun _ _ => True) σ := by
  refine Contract.Fulfils.bind (getByIdForUpdate (Contract.Fulfils.pure trivial)
    (fun ticket _ _ => ?_) fun _ => trivial)
  dsimp only
  split
  · exact Contract.Fulfils.pure trivial
  refine Contract.Fulfils.bind (utcNow fun now => ?_)
  have hkept : ticket.Kept { ticket with
      providerRecommendation := some payload.action
      providerReason := payload.reason
      providerRecommendationAt := some now } := by
    intro c hc
    cases c <;> first | exact hc | rfl
  refine Contract.Fulfils.bind (assign rfl hkept (fun h => h.of_kept rfl hkept) ?_
    fun _ => trivial)
  -- what is known from here on: the recommendation is recorded
  have hchange : ∀ ticket : Ticket, ticket.has .recommendation → ticket.has .recommendedAt →
      audited.Fulfils (TicketService.changeStatus ticket
        (if payload.action = .accept then .recommendedConfirm else .recommendedDecline) false)
        (fun t σ => σ = some t ∧ t.has .recommendation ∧ t.has .recommendedAt)
        (fun _ _ => True) (some ticket) := by
    intro ticket hrecommendation hrecommendedAt
    refine changeStatus (fun c hc => ?_) ⟨rfl, hrecommendation, hrecommendedAt⟩
      ⟨rfl, hrecommendation, hrecommendedAt⟩ fun _ _ => trivial
    split at hc <;> simp only [TicketStatus.stamps, List.mem_cons, List.not_mem_nil, or_false] at hc
    · rcases hc with rfl | rfl
      · exact hrecommendation
      · exact hrecommendedAt
    · rcases hc with rfl | rfl
      · exact hrecommendation
      · exact hrecommendedAt
  refine Contract.Fulfils.bind (Contract.Fulfils.mono (hchange _ rfl rfl) (fun ticket σ hσ => ?_)
    fun _ _ _ => trivial)
  obtain ⟨rfl, hrecommendation, hrecommendedAt⟩ := hσ
  refine Contract.Fulfils.bind (commit ?_ fun _ => trivial)
  refine Contract.Fulfils.bind (Undertaking.attempt (effect trivial rfl (fun _ => ?_) fun x => ?_))
  · exact settle hrecommendation hrecommendedAt
  · cases x with
    | monolithError text => exact requestCancellation (fun _ => trivial) fun _ _ => trivial
    | _ => exact Contract.Fulfils.throw trivial

omit [Codecs] in
theorem markCancellationApplied {ticketId : UUID} :
    audited.Fulfils (TicketService.markCancellationApplied ticketId) (fun _ _ => True)
      (fun _ _ => True) σ := by
  refine Contract.Fulfils.bind (getByIdForUpdate (Contract.Fulfils.pure trivial)
    (fun ticket _ _ => ?_) fun _ => trivial)
  dsimp only
  split
  · exact Contract.Fulfils.pure trivial
  refine Contract.Fulfils.bind (utcNow fun now => ?_)
  have hkept : ticket.Kept { ticket with cancelledAt := some (ticket.cancelledAt.getD now) } := by
    intro c hc
    cases c <;> first | exact hc | rfl
  refine Contract.Fulfils.bind (assign rfl hkept (fun h => h.of_kept rfl hkept) ?_
    fun _ => trivial)
  have hcommit : ∀ σ, audited.Fulfils AsyncSession.commit (fun _ _ => True) (fun _ _ => True) σ :=
    fun _ => commit trivial fun _ => trivial
  refine Contract.Fulfils.bind (changeStatus (fun c hc => ?_) (hcommit _) (hcommit _)
    fun _ _ => trivial)
  obtain rfl := List.mem_singleton.mp hc
  rfl

/-- A new ticket needs no audit column. -/
theorem createTicket {key : String} {request : CreateTicketRequest} :
    audited.Fulfils (TicketService.createTicket key request) (fun _ _ => True)
      (fun _ _ => True) σ := by
  refine Contract.Fulfils.bind (effect trivial rfl (fun found => ?_) fun _ => trivial)
  cases found with
  | some existing => exact Contract.Fulfils.pure trivial
  | none =>
      refine Contract.Fulfils.bind (uuid4 fun id => ?_)
      dsimp only
      split
      · exact Contract.Fulfils.throw trivial
      next currency hcurrency =>
        have hinsert : ∀ ticket : Ticket, ticket.status = .new → audited.Fulfils (do
            TicketRepository.add ticket
            let message ← TicketService.buildTicketMessage ticket
            OutboxRepository.add ticket.id eventTypeTicketOutbound topology.providerOutRoutingKey
              message.modelDump
            AsyncSession.commit) (fun _ _ => True) (fun _ _ => True) σ := by
          intro ticket hnew
          have hstamped : ticket.Stamped := by
            intro c hc
            rw [hnew] at hc
            cases hc
          refine Contract.Fulfils.bind (Contract.Fulfils.bind (effect hstamped rfl
            (fun _ => effect trivial rfl (fun _ => ?_) fun _ => trivial) fun _ => trivial))
          refine Contract.Fulfils.bind ?_
          unfold TicketService.buildTicketMessage
          split
          · exact Contract.Fulfils.throw trivial
          · exact Contract.Fulfils.bind (utcNow fun _ => build fun m => Contract.Fulfils.bind
              (addEvent (commit trivial fun _ => trivial) fun _ => trivial))
        refine Contract.Fulfils.bind (Undertaking.attempt (Contract.Fulfils.mono (hinsert _ rfl)
          (fun _ _ _ => Contract.Fulfils.pure trivial) fun x σ _ => ?_))
        cases x with
        | integrityError =>
            refine Contract.Fulfils.bind (rollback ?_ fun _ => trivial)
            refine Contract.Fulfils.bind (effect trivial rfl (fun found => ?_) fun _ => trivial)
            cases found with
            | none => exact Contract.Fulfils.throw trivial
            | some existing => exact Contract.Fulfils.pure trivial
        | _ => exact Contract.Fulfils.throw trivial

/-! ### Handlers -/

omit [Codecs] in
/-- The session of a handler ends. -/
theorem scope {body : Py α} (h : audited.Fulfils body (fun _ _ => True) (fun _ _ => True) σ)
    (hok : ∀ a, Q a none) (herror : ∀ x, F x none) :
    audited.Fulfils (AsyncSession.scope body) Q F σ :=
  Undertaking.scope (fun _ => trivial) id
    (Contract.Fulfils.mono h (fun a _ _ => ⟨hok a, herror⟩) fun _ _ _ => herror)

theorem validate {body : Dict} {Q : Message → Option Ticket → Prop} (hok : ∀ m, Q m σ)
    (herror : ∀ x, F x σ) : audited.Fulfils (Message.validate body) Q F σ := by
  refine Contract.Fulfils.bind (uuid4 fun u => Contract.Fulfils.bind (utcNow fun t => ?_))
  split
  · exact Contract.Fulfils.pure (hok _)
  · exact Contract.Fulfils.throw (herror _)

omit [Codecs] in
theorem subscribe {q : Queue} {handler : Dict → Py Unit}
    (h : ∀ body σ, audited.Fulfils (handler body) (fun _ _ => True) (fun _ _ => True) σ) :
    audited.Fulfils (subscribe q handler) (fun _ _ => True) (fun _ _ => True) σ := by
  refine Contract.Fulfils.bind (effect trivial rfl (fun body => ?_) fun _ => trivial)
  refine Contract.Fulfils.bind (Undertaking.attempt (Contract.Fulfils.mono (h body _) ?_ ?_))
  · exact fun _ _ _ => effect trivial rfl (fun _ => trivial) fun _ => trivial
  · exact fun _ _ _ => effect trivial rfl (fun _ => trivial) fun _ => trivial

theorem handle {payload : Dict} :
    audited.Fulfils (ProviderConsumerWorker.handle payload) (fun _ _ => True)
      (fun _ _ => True) σ := by
  refine Contract.Fulfils.bind (validate (fun m => ?_) fun _ => trivial)
  split
  · exact Contract.Fulfils.pure trivial
  refine scope ?_ (fun _ => trivial) fun _ => trivial
  refine Contract.Fulfils.bind (effect trivial rfl (fun claimed => ?_) fun _ => trivial)
  split
  · exact Contract.Fulfils.pure trivial
  split
  · refine Contract.Fulfils.bind ?_
    cases RecommendationPayload.modelValidate m.payload with
    | none => exact Contract.Fulfils.throw trivial
    | some p => exact Contract.Fulfils.pure applyRecommendation
  · refine Contract.Fulfils.bind ?_
    cases CancellationAppliedPayload.modelValidate m.payload with
    | none => exact Contract.Fulfils.throw trivial
    | some p => exact Contract.Fulfils.pure markCancellationApplied

omit [Codecs] in
/-- A final status is set together with its time. -/
theorem handleMessageSuccessAck {message : Message} :
    audited.Fulfils (ProviderGatewayWorker.handleMessageSuccessAck message) (fun _ _ => True)
      (fun _ _ => True) σ := by
  unfold ProviderGatewayWorker.handleMessageSuccessAck
  split
  · exact Contract.Fulfils.pure trivial
  · exact Contract.Fulfils.pure trivial
  next target _ htarget =>
  refine Contract.Fulfils.bind (scope ?_ (fun transition => ?_) fun _ => trivial)
  · refine Contract.Fulfils.bind (getByIdForUpdate (Contract.Fulfils.pure trivial)
      (fun ticket _ _ => ?_) fun _ => trivial)
    dsimp only
    split
    · exact Contract.Fulfils.pure trivial
    split
    · exact Contract.Fulfils.pure trivial
    split
    next hfinal =>
      refine Contract.Fulfils.bind (utcNow fun now => ?_)
      refine Contract.Fulfils.bind (assign rfl (fun c hc => ?_) (fun _ c hc => ?_) ?_
        fun _ => trivial)
      · cases c <;> first | exact hc | rfl
      · rcases hfinal with rfl | rfl <;> obtain rfl := List.mem_singleton.mp hc <;> rfl
      · exact Contract.Fulfils.bind (commit (Contract.Fulfils.pure trivial) fun _ => trivial)
    next hfinal =>
      refine Contract.Fulfils.bind (assign rfl (fun c hc => ?_) (fun _ c hc => ?_) ?_
        fun _ => trivial)
      · cases c <;> exact hc
      · -- the only other target is `SENT_TO_PROVIDER`
        have hsent : target = .sentToProvider := by
          unfold ProviderGatewayWorker.ackTarget at htarget
          split at htarget <;> cases htarget <;> simp_all
        subst hsent
        cases hc
      · exact Contract.Fulfils.bind (commit (Contract.Fulfils.pure trivial) fun _ => trivial)
  · cases transition with
    | none => exact Contract.Fulfils.pure trivial
    | some previous => exact effect trivial rfl (fun _ => trivial) fun _ => trivial

theorem sendToProvider {payload : Dict} :
    audited.Fulfils (ProviderGatewayWorker.sendToProvider payload) (fun _ _ => True)
      (fun _ _ => True) σ := by
  refine Contract.Fulfils.bind (validate (fun message => ?_) fun _ => trivial)
  refine Contract.Fulfils.bind (Undertaking.attempt (effect trivial rfl
    (fun _ => handleMessageSuccessAck) fun x => ?_))
  cases x with
  | providerAckError code => exact Contract.Fulfils.pure trivial
  | _ => exact Contract.Fulfils.throw trivial

theorem recieveFromProvider (frames : List Message) :
    audited.Fulfils (ProviderGatewayWorker.recieveFromProvider frames) (fun _ _ => True)
      (fun _ _ => True) σ := by
  induction frames with
  | nil => exact Contract.Fulfils.pure trivial
  | cons message frames ih =>
      refine Contract.Fulfils.bind (Undertaking.attempt (effect trivial rfl
        (fun _ => ?_) fun _ => Contract.Fulfils.pure trivial))
      exact Contract.Fulfils.bind (Undertaking.attempt (effect trivial rfl
        (fun _ => ih) fun _ => ih))

omit [Codecs] in
theorem publishAll (pending : List OutboxEvent) {Q : List UUID × List (UUID × String) →
    Option Ticket → Prop} (h : ∀ outcome, Q outcome σ) :
    audited.Fulfils (OutboxService.publishAll pending) Q (fun _ _ => True) σ := by
  induction pending generalizing Q with
  | nil => exact Contract.Fulfils.pure (h _)
  | cons event pending ih =>
      refine Contract.Fulfils.bind (Undertaking.attempt (effect trivial rfl
        (fun _ => ?_) fun x => ?_))
      · exact Contract.Fulfils.bind (ih fun _ => Contract.Fulfils.pure (h _))
      · cases x with
        | publishError text => exact Contract.Fulfils.bind (ih fun _ => Contract.Fulfils.pure (h _))
        | _ => exact Contract.Fulfils.throw trivial

omit [Codecs] in
theorem markAllFailed (failed : List (UUID × String)) {Q : Unit → Option Ticket → Prop}
    (h : Q () σ) : audited.Fulfils (OutboxService.markAllFailed failed) Q (fun _ _ => True) σ := by
  induction failed with
  | nil => exact Contract.Fulfils.pure h
  | cons f failed ih => exact Contract.Fulfils.bind (effect trivial rfl (fun _ => ih) fun _ => trivial)

omit [Codecs] in
theorem sendBatch {batchSize : ℕ} :
    audited.Fulfils (OutboxService.sendBatch batchSize) (fun _ _ => True) (fun _ _ => True) σ := by
  refine scope ?_ (fun _ => trivial) fun _ => trivial
  refine Contract.Fulfils.bind (effect trivial rfl (fun pending => ?_) fun _ => trivial)
  split
  · exact Contract.Fulfils.pure trivial
  refine Contract.Fulfils.bind (publishAll pending fun outcome => ?_)
  have hrest : audited.Fulfils (do
      OutboxService.markAllFailed outcome.2
      AsyncSession.commit
      return outcome.1.length) (fun _ _ => True) (fun _ _ => True) σ :=
    Contract.Fulfils.bind (markAllFailed outcome.2 (Contract.Fulfils.bind
      (commit (Contract.Fulfils.pure trivial) fun _ => trivial)))
  refine Contract.Fulfils.bind ?_
  unfold OutboxRepository.markPublishedMany
  split
  · exact Contract.Fulfils.pure hrest
  · exact Contract.Fulfils.bind (utcNow fun now =>
      effect trivial rfl (fun _ => hrest) fun _ => trivial)

/-- The reconciler goes on with the next ticket, whatever it has come to know of the last one. -/
theorem recoverAll (tickets : List Ticket) :
    audited.Fulfils (ReconcilerWorker.recoverAll tickets) (fun _ _ => True) (fun _ _ => True) σ := by
  induction tickets generalizing σ with
  | nil => exact Contract.Fulfils.pure trivial
  | cons ticket tickets ih =>
      exact Contract.Fulfils.bind (Undertaking.attempt (requestCancellation (fun _ => ih)
        fun _ _ => Contract.Fulfils.bind (effect trivial rfl (fun _ => ih) fun _ => trivial)))

theorem recoverStuckTickets {stuckAfterSec batchSize : ℕ} :
    audited.Fulfils (ReconcilerWorker.recoverStuckTickets stuckAfterSec batchSize)
      (fun _ _ => True) (fun _ _ => True) σ := by
  refine Contract.Fulfils.bind (utcNow fun now => scope ?_ (fun _ => trivial) fun _ => trivial)
  exact Contract.Fulfils.bind (effect trivial rfl (fun stuck => recoverAll stuck) fun _ => trivial)

theorem createTicketEndpoint {key : String} {request : CreateTicketRequest} :
    audited.Fulfils (createTicketEndpoint key request) (fun _ _ => True) (fun _ _ => True) σ := by
  refine Contract.Fulfils.bind (effect trivial rfl (fun _ => ?_) fun _ => trivial)
  refine Contract.Fulfils.bind (Undertaking.attempt (scope createTicket (fun created => ?_)
    fun x => ?_))
  · exact effect trivial rfl (fun _ => trivial) fun _ => trivial
  · exact effect trivial rfl (fun _ => trivial) fun _ => trivial

/-- Every handler keeps the audit columns. -/
theorem program (invocation : Invocation) :
    audited.Follows invocation.program (fun _ _ => True) none := by
  cases invocation with
  | createTicket key request => exact Undertaking.toThread createTicketEndpoint
  | sendBatch batchSize => exact Undertaking.toThread sendBatch
  | sendToProvider => exact Undertaking.toThread (subscribe fun _ _ => sendToProvider)
  | recieveFromProvider frames => exact Undertaking.toThread (recieveFromProvider frames)
  | handle => exact Undertaking.toThread (subscribe fun _ _ => handle)
  | recoverStuckTickets stuckAfterSec batchSize => exact Undertaking.toThread recoverStuckTickets

end Audited

end RiskProvider

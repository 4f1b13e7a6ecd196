import RiskProvider.Locking.Contract

/-!
# Handlers take locks in order

Every handler follows the contract `ordered` (`Ordered.program`). A rule is stated for any local
state `σ`: what is said of the holdings in it holds of none when a statement has failed.
-/

namespace RiskProvider

open Interleaving

namespace Ordered

variable {α : Type} {σ : Option Holdings} {Q : α → Option Holdings → Prop}
variable {F : Exn → Option Holdings → Prop}

/-! ### Rules -/

theorem effect {e : Effect} {Q : e.Value → Option Holdings → Prop} (hrollback : e ≠ .rollback)
    (hmay : ∀ H ∈ σ, H.May e) (hok : ∀ a, Q a (σ.map (·.after e a)))
    (herror : ∀ x, e.Raises x → F x (if e.isStatement then none else σ)) :
    ordered.Fulfils (perform e) Q F σ := by
  refine Undertaking.perform hmay (fun a σ' hnext => ?_) fun x σ' hnext => ?_
  · have hnext : σ' = σ.map (·.after e a) := by
      cases e <;> first | exact absurd rfl hrollback | exact hnext
    exact hnext ▸ hok a
  · have hnext : e.Raises x ∧ σ' = if e.isStatement then none else σ := by
      cases e <;> first | exact absurd rfl hrollback | exact hnext
    exact hnext.2 ▸ herror x hnext.1

theorem rollback {Q : Unit → Option Holdings → Prop} (hok : Q () (some {}))
    (herror : ∀ x, F x (some {})) : ordered.Fulfils (perform .rollback) Q F σ := by
  refine Undertaking.perform (fun _ _ => trivial) (fun _ σ' hnext => ?_) fun x σ' hnext => ?_
  · obtain rfl : σ' = some {} := hnext
    exact hok
  · obtain rfl : σ' = some {} := hnext
    exact herror x

/-- An effect that changes no locks and is no statement. -/
theorem quiet {e : Effect} {Q : e.Value → Option Holdings → Prop}
    (hquiet : ∀ H a, Holdings.after H e a = H) (hmay : ∀ H, Holdings.May H e)
    (hstatement : e.isStatement = false) (hrollback : e ≠ .rollback) (hok : ∀ a, Q a σ)
    (herror : ∀ x, e.Raises x → F x σ) : ordered.Fulfils (perform e) Q F σ := by
  refine effect hrollback (fun H _ => hmay H) (fun a => ?_) fun x hx => ?_
  · have hσ : σ.map (fun H => H.after e a) = σ := by
      rw [funext fun H => hquiet H a]
      exact Option.map_id'
    rw [hσ]
    exact hok a
  · rw [hstatement]
    exact herror x hx

theorem utcNow {Q : Time → Option Holdings → Prop} (h : ∀ now, Q now σ) :
    ordered.Fulfils utcNow Q F σ :=
  quiet (fun _ _ => rfl) (fun _ => trivial) rfl nofun h fun _ => False.elim

theorem uuid4 {Q : UUID → Option Holdings → Prop} (h : ∀ u, Q u σ) :
    ordered.Fulfils uuid4 Q F σ :=
  quiet (fun _ _ => rfl) (fun _ => trivial) rfl nofun h fun _ => False.elim

theorem assign {t : Ticket} {Q : Unit → Option Holdings → Prop} (h : Q () σ) :
    ordered.Fulfils (perform (.assign t)) Q F σ :=
  quiet (fun _ _ => rfl) (fun _ => trivial) rfl nofun (fun _ => h) fun _ => False.elim

theorem countTransition {fromStatus toStatus : TicketStatus} {Q : Unit → Option Holdings → Prop}
    (h : Q () σ) : ordered.Fulfils (perform (.countTransition fromStatus toStatus)) Q F σ :=
  quiet (fun _ _ => rfl) (fun _ => trivial) rfl nofun (fun _ => h) fun _ => False.elim

theorem processTicket {id : UUID} {action : Option RecommendationAction} {reason : Option String}
    {Q : Unit → Option Holdings → Prop} (hok : Q () σ) (herror : ∀ text, F (.monolithError text) σ) :
    ordered.Fulfils (processTicket id action reason) Q F σ :=
  quiet (fun _ _ => rfl) (fun _ => trivial) rfl nofun (fun _ => hok) fun _ ⟨text, hx⟩ =>
    hx ▸ herror text

/-- A flush by a session that has nothing to insert. -/
theorem flush {Q : Unit → Option Holdings → Prop} (hσ : ∀ H ∈ σ, H.added = []) (hok : Q () σ)
    (herror : ∀ x, F x none) : ordered.Fulfils (perform .flush) Q F σ := by
  refine effect nofun (fun H hH => ?_) (fun _ => ?_) fun x _ => herror x
  · simp [Holdings.May, hσ H hH]
  · have hsame : σ.map (fun H => H.after .flush ()) = σ := by
      cases σ with
      | none => rfl
      | some H =>
          have hadded := hσ H rfl
          cases H
          simp_all [Holdings.after]
    rw [hsame]
    exact hok

/-- A commit by a session that has nothing to insert. -/
theorem commit {Q : Unit → Option Holdings → Prop} (hσ : ∀ H ∈ σ, H.added = [])
    (hok : ∀ σ', (∀ H ∈ σ', H = {}) → Q () σ') (herror : ∀ x, F x none) :
    ordered.Fulfils AsyncSession.commit Q F σ := by
  refine Contract.Fulfils.bind (flush hσ ?_ herror)
  refine effect nofun (fun _ _ => trivial) (fun _ => hok _ fun H hH => ?_) fun x _ => herror x
  obtain ⟨H', hH', rfl⟩ := Option.map_eq_some_iff.mp hH
  simp [Holdings.after, hσ H' hH']

/-- An event is inserted by a transaction that has locked none. -/
theorem addEvent {entityId : UUID} {eventType routingKey : String} {payload : Dict}
    {Q : Unit → Option Holdings → Prop} (hσ : ∀ H ∈ σ, H.added = [] ∧ H.events = false)
    (hok : ∀ σ', (∀ H ∈ σ', H.added = []) → Q () σ') (herror : ∀ x, F x none) :
    ordered.Fulfils (OutboxRepository.add entityId eventType routingKey payload) Q F σ := by
  refine Contract.Fulfils.bind (uuid4 fun id => ?_)
  refine Contract.Fulfils.bind (effect nofun (fun _ _ => trivial) (fun _ => ?_) fun _ => False.elim)
  refine effect nofun (fun H hH => ?_) (fun _ => hok _ fun H hH => ?_) fun x _ => herror x
  · obtain ⟨H', hH', rfl⟩ := Option.map_eq_some_iff.mp hH
    obtain ⟨hadded, hevents⟩ := hσ H' hH'
    simp [Holdings.May, Holdings.after, hadded, hevents, NewObject.ticket?]
  · obtain ⟨H', -, rfl⟩ := Option.map_eq_some_iff.mp hH
    rfl

/-! ### Services -/

theorem build [Codecs] {type : ProviderMessageType} {payload : type.Payload}
    {ticketId : Option UUID} {Q : Message → Option Holdings → Prop} (h : ∀ m, Q m σ) :
    ordered.Fulfils (buildMessage type payload ticketId) Q F σ :=
  Contract.Fulfils.bind (uuid4 fun _ => Contract.Fulfils.bind (utcNow fun _ =>
    Contract.Fulfils.pure (h _)))

theorem changeStatus {ticket : Ticket} {target : TicketStatus} {Q : Ticket → Option Holdings → Prop}
    (hσ : ∀ H ∈ σ, H.added = []) (hok : ∀ t, Q t σ) (herror : ∀ x, F x none) :
    ordered.Fulfils (TicketService.changeStatus ticket target false) Q F σ := by
  unfold TicketService.changeStatus
  dsimp only
  split
  · exact Contract.Fulfils.pure (hok _)
  · refine Contract.Fulfils.bind (assign ?_)
    refine Contract.Fulfils.bind (countTransition ?_)
    exact Contract.Fulfils.bind (flush hσ (Contract.Fulfils.pure (hok _)) herror)

/-- The transaction has nothing to insert and has locked at most tickets, either none or at least
the given ones. -/
structure Calm (ids : List UUID) (H : Holdings) : Prop where
  added : H.added = []
  key : H.key = false
  events : H.events = false
  tickets : H.tickets = [] ∨ ids ⊆ H.tickets

theorem calm_of_eq {ids : List UUID} {σ : Option Holdings} (h : ∀ H ∈ σ, H = {}) :
    ∀ H ∈ σ, Calm ids H := by
  intro H hH
  obtain rfl := h H hH
  exact ⟨rfl, rfl, rfl, .inl rfl⟩

variable [Codecs]

theorem requestCancellation {id : UUID} {ids : List UUID} {reason : String}
    {Q : Unit → Option Holdings → Prop} (hσ : ∀ H ∈ σ, Calm (id :: ids) H)
    (hok : ∀ σ', (∀ H ∈ σ', Calm (id :: ids) H) → Q () σ')
    (herror : ∀ x, F x none) :
    ordered.Fulfils (TicketService.requestCancellation id reason) Q F σ := by
  refine Contract.Fulfils.bind (effect nofun (fun H hH => ?_) (fun found => ?_) fun x _ => herror x)
  · rcases (hσ H hH).tickets with hnone | hlocked
    · exact .inr ⟨hnone, (hσ H hH).key, (hσ H hH).events⟩
    · exact .inl (hlocked List.mem_cons_self)
  cases found with
  | none =>
      refine Contract.Fulfils.pure (hok _ fun H hH => ?_)
      obtain ⟨H', hH', rfl⟩ := Option.map_eq_some_iff.mp hH
      exact hσ H' hH'
  | some ticket =>
      have hcalm : ∀ H ∈ σ.map (·.after (.selectTicketForUpdate id) (some ticket)),
          H.added = [] ∧ H.events = false := by
        intro H hH
        obtain ⟨H', hH', rfl⟩ := Option.map_eq_some_iff.mp hH
        exact ⟨(hσ H' hH').added, (hσ H' hH').events⟩
      have hcancel : ∀ σ', σ' = σ.map (·.after (.selectTicketForUpdate id) (some ticket)) →
          ordered.Fulfils (do
            let now ← RiskProvider.utcNow
            let ticket := { ticket with
              failureReason := some (textPrefix 1024 reason)
              cancelledAt := some now }
            perform (.assign ticket)
            let ticket ← TicketService.changeStatus ticket .cancellationRequested false
            let message ← buildMessage .requestCancellation { ticketId := ticket.id, reason }
              (some ticket.id)
            OutboxRepository.add ticket.id eventTypeTicketOutbound topology.providerOutRoutingKey
              message.modelDump
            AsyncSession.commit) Q F σ' := by
        rintro σ' rfl
        refine Contract.Fulfils.bind (utcNow fun now => ?_)
        refine Contract.Fulfils.bind (assign ?_)
        refine Contract.Fulfils.bind (changeStatus (fun H hH => (hcalm H hH).1) (fun t => ?_) herror)
        refine Contract.Fulfils.bind (build fun m => ?_)
        refine Contract.Fulfils.bind (addEvent hcalm (fun σ' hσ' => ?_) herror)
        exact commit hσ' (fun σ'' hσ'' => hok _ (calm_of_eq hσ'')) herror
      refine Contract.Fulfils.bind (Undertaking.attempt (processTicket ?_ fun text => ?_))
      · exact hcancel _ rfl
      · exact hcancel _ rfl

omit [Codecs] in
/-- A select of a ticket by a transaction that has locked no ticket. -/
theorem getByIdForUpdate {id : UUID} {Q : Option Ticket → Option Holdings → Prop}
    (hσ : ∀ H ∈ σ, H.Free ∧ H.added = [])
    (hok : ∀ found σ', (∀ H ∈ σ', H.added = [] ∧ H.events = false) → Q found σ')
    (herror : ∀ x, F x none) :
    ordered.Fulfils (TicketRepository.getByIdForUpdate id) Q F σ := by
  refine effect nofun (fun H hH => .inr (hσ H hH).1) (fun found => hok found _ fun H hH => ?_)
    fun x _ => herror x
  obtain ⟨H', hH', rfl⟩ := Option.map_eq_some_iff.mp hH
  obtain ⟨⟨-, -, hevents⟩, hadded⟩ := hσ H' hH'
  cases found <;> exact ⟨hadded, hevents⟩

omit [Codecs] in
theorem free_of_eq {σ : Option Holdings} (h : ∀ H ∈ σ, H = {}) :
    ∀ H ∈ σ, H.Free ∧ H.added = [] := by
  intro H hH
  obtain rfl := h H hH
  exact ⟨⟨rfl, rfl, rfl⟩, rfl⟩

theorem buildAckMessage {ticket : Ticket} {action : RecommendationAction}
    {Q : Message → Option Holdings → Prop} (h : ∀ m, Q m σ) :
    ordered.Fulfils (TicketService.buildAckMessage ticket action) Q F σ := by
  unfold TicketService.buildAckMessage
  split
  · exact build h
  · exact build h

theorem applyRecommendation {payload : RecommendationPayload}
    (hσ : ∀ H ∈ σ, H.Free ∧ H.added = []) :
    ordered.Fulfils (TicketService.applyRecommendation payload) (fun _ _ => True)
      (fun _ _ => True) σ := by
  refine Contract.Fulfils.bind (getByIdForUpdate hσ (fun found σ hσ => ?_) fun _ => trivial)
  cases found with
  | none => exact Contract.Fulfils.pure trivial
  | some ticket =>
      dsimp only
      split
      · exact Contract.Fulfils.pure trivial
      refine Contract.Fulfils.bind (utcNow fun now => ?_)
      refine Contract.Fulfils.bind (assign ?_)
      refine Contract.Fulfils.bind
        (changeStatus (fun H hH => (hσ H hH).1) (fun ticket => ?_) fun _ => trivial)
      refine Contract.Fulfils.bind
        (commit (fun H hH => (hσ H hH).1) (fun σ hσ => ?_) fun _ => trivial)
      refine Contract.Fulfils.bind (Undertaking.attempt (processTicket ?_ fun text => ?_))
      · -- the second transaction
        refine Contract.Fulfils.bind
          (getByIdForUpdate (free_of_eq hσ) (fun found σ hσ => ?_) fun _ => trivial)
        cases found with
        | none => exact commit (fun H hH => (hσ H hH).1) (fun _ _ => trivial) fun _ => trivial
        | some ticket =>
            dsimp only
            split
            · exact commit (fun H hH => (hσ H hH).1) (fun _ _ => trivial) fun _ => trivial
            refine Contract.Fulfils.bind (utcNow fun now => ?_)
            refine Contract.Fulfils.bind (assign ?_)
            refine Contract.Fulfils.bind
              (changeStatus (fun H hH => (hσ H hH).1) (fun ticket => ?_) fun _ => trivial)
            refine Contract.Fulfils.bind (buildAckMessage fun m => ?_)
            refine Contract.Fulfils.bind (addEvent hσ (fun σ hσ => ?_) fun _ => trivial)
            exact commit hσ (fun _ _ => trivial) fun _ => trivial
      · have hcalm : ∀ H ∈ σ, Calm [ticket.id] H := calm_of_eq hσ
        exact requestCancellation hcalm (fun _ _ => trivial) fun _ => trivial

omit [Codecs] in
theorem markCancellationApplied {ticketId : UUID} (hσ : ∀ H ∈ σ, H.Free ∧ H.added = []) :
    ordered.Fulfils (TicketService.markCancellationApplied ticketId) (fun _ _ => True)
      (fun _ _ => True) σ := by
  refine Contract.Fulfils.bind (getByIdForUpdate hσ (fun found σ hσ => ?_) fun _ => trivial)
  cases found with
  | none => exact Contract.Fulfils.pure trivial
  | some ticket =>
      dsimp only
      split
      · exact Contract.Fulfils.pure trivial
      refine Contract.Fulfils.bind (utcNow fun now => ?_)
      refine Contract.Fulfils.bind (assign ?_)
      refine Contract.Fulfils.bind
        (changeStatus (fun H hH => (hσ H hH).1) (fun ticket => ?_) fun _ => trivial)
      exact commit (fun H hH => (hσ H hH).1) (fun _ _ => trivial) fun _ => trivial

theorem buildTicketMessage {ticket : Ticket} {Q : Message → Option Holdings → Prop}
    (hok : ∀ m, Q m σ) (herror : F .validationError σ) :
    ordered.Fulfils (TicketService.buildTicketMessage ticket) Q F σ := by
  unfold TicketService.buildTicketMessage
  split
  · exact Contract.Fulfils.throw herror
  · exact Contract.Fulfils.bind (utcNow fun _ => build hok)

omit [Codecs] in
/-- A ticket is inserted by a transaction that has locked nothing. -/
theorem addTicket {ticket : Ticket} {Q : Unit → Option Holdings → Prop} (hσ : ∀ H ∈ σ, H = {})
    (hok : ∀ σ', (∀ H ∈ σ', H.added = [] ∧ H.events = false) → Q () σ') (herror : ∀ x, F x none) :
    ordered.Fulfils (TicketRepository.add ticket) Q F σ := by
  refine Contract.Fulfils.bind (effect nofun (fun _ _ => trivial) (fun _ => ?_) fun _ => False.elim)
  refine effect nofun (fun H hH => ?_) (fun _ => hok _ fun H hH => ?_) fun x _ => herror x
  · obtain ⟨H', hH', rfl⟩ := Option.map_eq_some_iff.mp hH
    obtain rfl := hσ H' hH'
    exact ⟨fun _ => ⟨rfl, rfl, rfl⟩, fun _ => rfl⟩
  · obtain ⟨H', hH', rfl⟩ := Option.map_eq_some_iff.mp hH
    obtain ⟨H'', hH'', rfl⟩ := Option.map_eq_some_iff.mp hH'
    obtain rfl := hσ H'' hH''
    exact ⟨rfl, rfl⟩

omit [Codecs] in
/-- A lookup by idempotency key locks nothing. -/
theorem getByIdempotencyKey {key : String} {Q : Option Ticket → Option Holdings → Prop}
    (hok : ∀ found, Q found σ) (herror : ∀ x, F x none) :
    ordered.Fulfils (TicketRepository.getByIdempotencyKey key) Q F σ := by
  refine effect nofun (fun _ _ => trivial) (fun found => ?_) fun x _ => herror x
  rw [show (fun H : Holdings => H.after (.selectTicketByKey key) found) = fun H => H from rfl,
    Option.map_id']
  exact hok found

theorem insertTicket {ticket : Ticket} (hσ : ∀ H ∈ σ, H = {}) :
    ordered.Fulfils (do
      TicketRepository.add ticket
      let message ← TicketService.buildTicketMessage ticket
      OutboxRepository.add ticket.id eventTypeTicketOutbound topology.providerOutRoutingKey
        message.modelDump
      AsyncSession.commit) (fun _ _ => True) (fun _ _ => True) σ := by
  refine Contract.Fulfils.bind (addTicket hσ (fun σ hσ => ?_) fun _ => trivial)
  refine Contract.Fulfils.bind (buildTicketMessage (fun m => ?_) trivial)
  refine Contract.Fulfils.bind (addEvent hσ (fun σ hσ => ?_) fun _ => trivial)
  exact commit hσ (fun _ _ => trivial) fun _ => trivial

theorem createTicket {key : String} {request : CreateTicketRequest} (hσ : ∀ H ∈ σ, H = {}) :
    ordered.Fulfils (TicketService.createTicket key request) (fun _ _ => True)
      (fun _ _ => True) σ := by
  refine Contract.Fulfils.bind (getByIdempotencyKey (fun found => ?_) fun _ => trivial)
  cases found with
  | some existing => exact Contract.Fulfils.pure trivial
  | none =>
      refine Contract.Fulfils.bind (uuid4 fun id => ?_)
      dsimp only
      split
      · exact Contract.Fulfils.throw trivial
      refine Contract.Fulfils.bind (Undertaking.attempt (Contract.Fulfils.mono (insertTicket hσ)
        (fun _ _ _ => Contract.Fulfils.pure trivial) fun x σ _ => ?_))
      cases x with
      | integrityError =>
          refine Contract.Fulfils.bind (rollback ?_ fun _ => trivial)
          refine Contract.Fulfils.bind (getByIdempotencyKey (fun found => ?_) fun _ => trivial)
          cases found with
          | none => exact Contract.Fulfils.throw trivial
          | some existing => exact Contract.Fulfils.pure trivial
      | _ => exact Contract.Fulfils.throw trivial

/-! ### Handlers -/

omit [Codecs] in
theorem scope {α : Type} {body : Py α} {Q : α → Option Holdings → Prop}
    (h : ordered.Fulfils body (fun a _ => Q a (some {})) (fun _ _ => True) σ)
    (herror : ∀ x, F x (some {})) : ordered.Fulfils (AsyncSession.scope body) Q F σ :=
  Undertaking.scope (fun _ _ _ => trivial) id
    (Contract.Fulfils.mono h (fun _ _ hQ => ⟨hQ, herror⟩) fun _ _ _ => herror)

omit [Codecs] in
/-- An effect that changes no locks, when what it raises does not matter. -/
theorem perform_quiet {e : Effect} {Q : e.Value → Option Holdings → Prop}
    (hquiet : ∀ H a, Holdings.after H e a = H) (hmay : ∀ H, Holdings.May H e)
    (hstatement : e.isStatement = false) (hrollback : e ≠ .rollback) (hok : ∀ a, Q a σ) :
    ordered.Fulfils (perform e) Q (fun _ _ => True) σ :=
  quiet hquiet hmay hstatement hrollback hok fun _ _ => trivial

theorem validate {body : Dict} {Q : Message → Option Holdings → Prop} (h : ∀ m, Q m σ) :
    ordered.Fulfils (Message.validate body) Q (fun _ _ => True) σ := by
  refine Contract.Fulfils.bind (uuid4 fun _ => Contract.Fulfils.bind (utcNow fun _ => ?_))
  split
  · exact Contract.Fulfils.pure (h _)
  · exact Contract.Fulfils.throw trivial

omit [Codecs] in
theorem subscribe {q : Queue} {handler : Dict → Py Unit}
    (h : ∀ body, ordered.Fulfils (handler body) (fun _ _ => True) (fun _ _ => True) σ) :
    ordered.Fulfils (subscribe q handler) (fun _ _ => True) (fun _ _ => True) σ := by
  refine Contract.Fulfils.bind
    (perform_quiet (fun _ _ => rfl) (fun _ => trivial) rfl nofun fun body => ?_)
  refine Contract.Fulfils.bind (Undertaking.attempt (Contract.Fulfils.mono (h body) ?_ ?_))
  · intro _ σ _
    exact perform_quiet (fun _ _ => rfl) (fun _ => trivial) rfl nofun fun _ => trivial
  · intro _ σ _
    exact perform_quiet (fun _ _ => rfl) (fun _ => trivial) rfl nofun fun _ => trivial

omit [Codecs] in
theorem validated {α : Type} {a : Option α} {Q : α → Option Holdings → Prop} (h : ∀ a, Q a σ) :
    ordered.Fulfils (validated a) Q (fun _ _ => True) σ := by
  cases a with
  | none => exact Contract.Fulfils.throw trivial
  | some a => exact Contract.Fulfils.pure (h a)

theorem handle {payload : Dict} (hσ : ∀ H ∈ σ, H = {}) :
    ordered.Fulfils (ProviderConsumerWorker.handle payload) (fun _ _ => True)
      (fun _ _ => True) σ := by
  refine Contract.Fulfils.bind (validate fun message => ?_)
  split
  · exact Contract.Fulfils.pure trivial
  refine scope ?_ fun _ => trivial
  refine Contract.Fulfils.bind (effect nofun (fun H hH => ?_) (fun claimed => ?_) fun _ _ => trivial)
  · obtain rfl := hσ H hH
    exact ⟨⟨rfl, rfl, rfl⟩, rfl⟩
  have hclaimed : ∀ H ∈ σ.map (·.after
      (.insertInbox message.messageId message.type.value message.ticketId) claimed),
      H.Free ∧ H.added = [] := by
    intro H hH
    obtain ⟨H', hH', rfl⟩ := Option.map_eq_some_iff.mp hH
    obtain rfl := hσ H' hH'
    exact ⟨⟨rfl, rfl, rfl⟩, rfl⟩
  split
  · exact Contract.Fulfils.pure trivial
  split
  · exact Contract.Fulfils.bind (validated fun p => applyRecommendation hclaimed)
  · exact Contract.Fulfils.bind (validated fun p => markCancellationApplied hclaimed)

omit [Codecs] in
theorem handleMessageSuccessAck {message : Message} (hσ : ∀ H ∈ σ, H = {}) :
    ordered.Fulfils (ProviderGatewayWorker.handleMessageSuccessAck message) (fun _ _ => True)
      (fun _ _ => True) σ := by
  unfold ProviderGatewayWorker.handleMessageSuccessAck
  split
  · exact Contract.Fulfils.pure trivial
  · exact Contract.Fulfils.pure trivial
  refine Contract.Fulfils.bind (scope ?_ fun _ => trivial)
  refine Contract.Fulfils.bind
    (getByIdForUpdate (free_of_eq hσ) (fun found σ hσ => ?_) fun _ => trivial)
  cases found with
  | none => exact Contract.Fulfils.pure (Contract.Fulfils.pure trivial)
  | some ticket =>
      dsimp only
      split
      · exact Contract.Fulfils.pure (Contract.Fulfils.pure trivial)
      split
      · exact Contract.Fulfils.pure (Contract.Fulfils.pure trivial)
      split
      · refine Contract.Fulfils.bind (utcNow fun now => Contract.Fulfils.bind (assign ?_))
        exact Contract.Fulfils.bind (commit (fun H hH => (hσ H hH).1)
          (fun _ _ => Contract.Fulfils.pure (countTransition trivial)) fun _ => trivial)
      · refine Contract.Fulfils.bind (assign ?_)
        exact Contract.Fulfils.bind (commit (fun H hH => (hσ H hH).1)
          (fun _ _ => Contract.Fulfils.pure (countTransition trivial)) fun _ => trivial)

theorem sendToProvider {payload : Dict} (hσ : ∀ H ∈ σ, H = {}) :
    ordered.Fulfils (ProviderGatewayWorker.sendToProvider payload) (fun _ _ => True)
      (fun _ _ => True) σ := by
  refine Contract.Fulfils.bind (validate fun message => ?_)
  refine Contract.Fulfils.bind (Undertaking.attempt (quiet (fun _ _ => rfl) (fun _ => trivial) rfl
    nofun (fun _ => handleMessageSuccessAck hσ) fun x _ => ?_))
  cases x with
  | providerAckError code => exact Contract.Fulfils.pure trivial
  | _ => exact Contract.Fulfils.throw trivial

theorem recieveFromProvider (frames : List Message) :
    ordered.Fulfils (ProviderGatewayWorker.recieveFromProvider frames) (fun _ _ => True)
      (fun _ _ => True) σ := by
  induction frames with
  | nil => exact Contract.Fulfils.pure trivial
  | cons message frames ih =>
      refine Contract.Fulfils.bind (Undertaking.attempt (quiet (fun _ _ => rfl) (fun _ => trivial)
        rfl nofun (fun _ => ?_) fun _ _ => Contract.Fulfils.pure trivial))
      exact Contract.Fulfils.bind (Undertaking.attempt (quiet (fun _ _ => rfl) (fun _ => trivial)
        rfl nofun (fun _ => ih) fun _ _ => ih))

omit [Codecs] in
theorem publishAll (pending : List OutboxEvent) {Q : List UUID × List (UUID × String) →
    Option Holdings → Prop} (h : ∀ outcome, Q outcome σ) :
    ordered.Fulfils (OutboxService.publishAll pending) Q (fun _ _ => True) σ := by
  induction pending generalizing Q with
  | nil => exact Contract.Fulfils.pure (h _)
  | cons event pending ih =>
      refine Contract.Fulfils.bind (Undertaking.attempt (quiet (fun _ _ => rfl) (fun _ => trivial)
        rfl nofun (fun _ => ?_) fun x _ => ?_))
      · exact Contract.Fulfils.bind (ih fun _ => Contract.Fulfils.pure (h _))
      · cases x with
        | publishError text => exact Contract.Fulfils.bind (ih fun _ => Contract.Fulfils.pure (h _))
        | _ => exact Contract.Fulfils.throw trivial

omit [Codecs] in
/-- An update of outbox rows. -/
theorem update {e : Effect} {Q : e.Value → Option Holdings → Prop} (hrollback : e ≠ .rollback)
    (hmay : ∀ H, Holdings.May H e) (hadded : ∀ H a, (Holdings.after H e a).added = H.added)
    (hσ : ∀ H ∈ σ, H.added = []) (h : ∀ a σ', (∀ H ∈ σ', H.added = []) → Q a σ') :
    ordered.Fulfils (perform e) Q (fun _ _ => True) σ := by
  refine effect hrollback (fun H _ => hmay H) (fun a => h a _ fun H hH => ?_) fun _ _ => trivial
  obtain ⟨H', hH', rfl⟩ := Option.map_eq_some_iff.mp hH
  exact (hadded H' a).trans (hσ H' hH')

omit [Codecs] in
theorem markAllFailed (failed : List (UUID × String)) {Q : Unit → Option Holdings → Prop}
    (hσ : ∀ H ∈ σ, H.added = []) (h : ∀ σ', (∀ H ∈ σ', H.added = []) → Q () σ') :
    ordered.Fulfils (OutboxService.markAllFailed failed) Q (fun _ _ => True) σ := by
  induction failed generalizing σ with
  | nil => exact Contract.Fulfils.pure (h σ hσ)
  | cons f failed ih =>
      exact Contract.Fulfils.bind (update nofun (fun _ => trivial) (fun _ _ => rfl) hσ
        fun _ σ' hσ' => ih hσ')

omit [Codecs] in
theorem sendBatch {batchSize : ℕ} (hσ : ∀ H ∈ σ, H = {}) :
    ordered.Fulfils (OutboxService.sendBatch batchSize) (fun _ _ => True) (fun _ _ => True) σ := by
  have hadded : ∀ H ∈ σ, H.added = [] := fun H hH => (free_of_eq hσ H hH).2
  refine scope ?_ fun _ => trivial
  refine Contract.Fulfils.bind
    (update nofun (fun _ => trivial) (fun _ _ => rfl) hadded fun pending σ hσ => ?_)
  split
  · exact Contract.Fulfils.pure trivial
  refine Contract.Fulfils.bind (publishAll pending fun outcome => ?_)
  refine Contract.Fulfils.bind ?_
  have hrest : ∀ σ, (∀ H ∈ σ, H.added = []) → ordered.Fulfils (do
      OutboxService.markAllFailed outcome.2
      AsyncSession.commit
      return outcome.1.length) (fun _ _ => True) (fun _ _ => True) σ := fun σ hσ =>
    Contract.Fulfils.bind (markAllFailed outcome.2 hσ fun σ hσ =>
      Contract.Fulfils.bind (commit hσ (fun _ _ => Contract.Fulfils.pure trivial)
        fun _ => trivial))
  unfold OutboxRepository.markPublishedMany
  split
  · exact Contract.Fulfils.pure (hrest _ hσ)
  · refine Contract.Fulfils.bind (utcNow fun now => ?_)
    exact update nofun (fun _ => trivial) (fun _ _ => rfl) hσ fun _ σ hσ => hrest σ hσ

theorem recoverAll (tickets : List Ticket)
    (hσ : ∀ H ∈ σ, Calm (tickets.map (·.id)) H) :
    ordered.Fulfils (ReconcilerWorker.recoverAll tickets) (fun _ _ => True)
      (fun _ _ => True) σ := by
  induction tickets generalizing σ with
  | nil => exact Contract.Fulfils.pure trivial
  | cons ticket tickets ih =>
      have hrest : ∀ σ' : Option Holdings, (∀ H ∈ σ', Calm (ticket.id :: tickets.map (·.id)) H) →
          ∀ H ∈ σ', Calm (tickets.map (·.id)) H := fun σ' hσ' H hH =>
        { hσ' H hH with
          tickets := (hσ' H hH).tickets.imp_right
            (List.Subset.trans (List.subset_cons_self _ _)) }
      refine Contract.Fulfils.bind (Undertaking.attempt (requestCancellation hσ
        (fun σ' hσ' => ih (hrest σ' hσ')) fun x =>
          Contract.Fulfils.bind (effect nofun nofun (fun _ => ih nofun) fun _ _ => trivial)))

theorem recoverStuckTickets {stuckAfterSec batchSize : ℕ} (hσ : ∀ H ∈ σ, H = {}) :
    ordered.Fulfils (ReconcilerWorker.recoverStuckTickets stuckAfterSec batchSize)
      (fun _ _ => True) (fun _ _ => True) σ := by
  refine Contract.Fulfils.bind (utcNow fun now => scope ?_ fun _ => trivial)
  refine Contract.Fulfils.bind
    (effect nofun (fun _ _ => trivial) (fun stuck => ?_) fun _ _ => trivial)
  refine recoverAll stuck fun H hH => ?_
  obtain ⟨H', hH', rfl⟩ := Option.map_eq_some_iff.mp hH
  obtain rfl := hσ H' hH'
  exact ⟨rfl, rfl, rfl, .inr (by simp [Holdings.after])⟩

theorem createTicketEndpoint {key : String} {request : CreateTicketRequest}
    (hσ : ∀ H ∈ σ, H = {}) :
    ordered.Fulfils (createTicketEndpoint key request) (fun _ _ => True) (fun _ _ => True) σ := by
  refine Contract.Fulfils.bind
    (perform_quiet (fun _ _ => rfl) (fun _ => trivial) rfl nofun fun _ => ?_)
  refine Contract.Fulfils.bind (Undertaking.attempt (scope (Contract.Fulfils.mono (createTicket hσ)
    (fun created _ _ => ?_) fun _ _ _ => trivial) fun x => ?_))
  · exact perform_quiet (fun _ _ => rfl) (fun _ => trivial) rfl nofun fun _ => trivial
  · exact perform_quiet (fun _ _ => rfl) (fun _ => trivial) rfl nofun fun _ => trivial

/-- Every handler takes its locks in order. -/
theorem program (invocation : Invocation) :
    ordered.Follows invocation.program (fun _ _ => True) (some {}) := by
  have hfresh : ∀ H ∈ some ({} : Holdings), H = {} := fun H hH => (Option.some.inj hH).symm
  cases invocation with
  | createTicket key request => exact Undertaking.toThread (createTicketEndpoint hfresh)
  | sendBatch batchSize => exact Undertaking.toThread (sendBatch hfresh)
  | sendToProvider => exact Undertaking.toThread (subscribe fun _ => sendToProvider hfresh)
  | recieveFromProvider frames => exact Undertaking.toThread (recieveFromProvider frames)
  | handle => exact Undertaking.toThread (subscribe fun _ => handle hfresh)
  | recoverStuckTickets stuckAfterSec batchSize =>
      exact Undertaking.toThread (recoverStuckTickets hfresh)

end Ordered

end RiskProvider

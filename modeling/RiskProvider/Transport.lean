import RiskProvider.Schemas

/-!
# Message transport

The broker of `backend/transport`: the two provider queues, their dead-letter queue, and the
deliveries that are being handled. A handler that returns acknowledges its delivery; one that
raises or dies returns it, and a delivery returned more than `rmqMaxAttempts` times goes to
the dead-letter queue.
-/

namespace RiskProvider

/-- `Topology`: the names of exchanges, queues and routing keys. -/
structure Topology where
  ticketsExchange : String := "tickets"
  ticketsDlxExchange : String := "tickets.dlx"
  providerOutQueue : String := "provider.out"
  providerInQueue : String := "provider.in"
  ticketsDlqQueue : String := "tickets.dlq"
  providerOutRoutingKey : String := "provider.out"
  providerInRoutingKey : String := "provider.in"
  ticketsDlqRoutingKey : String := "tickets.dlq"

/-- `TOPOLOGY`. -/
def topology : Topology := {}

/-- `settings.rmq_max_attempts`, the `x-delivery-limit` of the provider queues. -/
def rmqMaxAttempts : ℕ := 3

/-- The queues with consumers. -/
inductive Queue where
  | providerOut
  | providerIn
deriving DecidableEq, Repr

/-- The queue that the tickets exchange routes a key to. -/
def Queue.ofRoutingKey? (key : String) : Option Queue :=
  if key = topology.providerOutRoutingKey then some .providerOut
  else if key = topology.providerInRoutingKey then some .providerIn
  else none

/-- A message in a queue. -/
structure Delivery where
  /-- The `message_id` property: the outbox event or the provider's message. -/
  messageId : UUID
  /-- The frame. -/
  body : Dict
  /-- How often the message has been returned to the queue. -/
  returns : ℕ := 0

/-- The broker's state. -/
structure Broker where
  providerOut : List Delivery := []
  providerIn : List Delivery := []
  dlq : List Delivery := []
  /-- The delivery that handler `i` has not acknowledged yet, with its queue. -/
  unacked : ℕ → Option (Queue × Delivery) := fun _ => none

namespace Broker

/-- The messages waiting in a queue. -/
def queue (b : Broker) : Queue → List Delivery
  | .providerOut => b.providerOut
  | .providerIn => b.providerIn

/-- The broker with the messages of one queue replaced. -/
def setQueue (b : Broker) (q : Queue) (ds : List Delivery) : Broker :=
  match q with
  | .providerOut => { b with providerOut := ds }
  | .providerIn => { b with providerIn := ds }

/-- A message is published under a routing key. -/
def publish (b : Broker) (routingKey : String) (d : Delivery) : Broker :=
  match Queue.ofRoutingKey? routingKey with
  | some q => b.setQueue q (b.queue q ++ [d])
  | none => b

/-- Handler `i` receives the `n`-th message `d` of queue `q`. -/
def receive (b : Broker) (i : ℕ) (q : Queue) (n : ℕ) (d : Delivery) : Broker :=
  { b.setQueue q ((b.queue q).eraseIdx n) with
    unacked := Function.update b.unacked i (some (q, d)) }

/-- Handler `i` acknowledges its delivery. -/
def ack (b : Broker) (i : ℕ) : Broker :=
  { b with unacked := Function.update b.unacked i none }

/-- The delivery of handler `i` goes back to its queue, or to the dead-letter queue. -/
def nack (b : Broker) (i : ℕ) : Broker :=
  match b.unacked i with
  | none => b
  | some (q, d) =>
      if rmqMaxAttempts < d.returns + 1 then
        { b.ack i with dlq := b.dlq ++ [{ d with returns := d.returns + 1 }] }
      else (b.ack i).setQueue q (b.queue q ++ [{ d with returns := d.returns + 1 }])

section Queues

variable (b : Broker) {q q' : Queue} {i : ℕ}

@[simp]
theorem queue_setQueue_self (q : Queue) (ds : List Delivery) : (b.setQueue q ds).queue q = ds := by
  cases q <;> rfl

theorem queue_setQueue_ne (ds : List Delivery) (h : q' ≠ q) :
    (b.setQueue q ds).queue q' = b.queue q' := by
  cases q <;> cases q' <;> first | rfl | exact absurd rfl h

@[simp]
theorem queue_ack : (b.ack i).queue q = b.queue q := by
  cases q <;> rfl

end Queues

section Unacked

variable (b : Broker) {i j : ℕ}

@[simp]
theorem unacked_setQueue (q : Queue) (ds : List Delivery) :
    (b.setQueue q ds).unacked = b.unacked := by
  cases q <;> rfl

@[simp]
theorem unacked_publish (routingKey : String) (d : Delivery) :
    (b.publish routingKey d).unacked = b.unacked := by
  unfold publish
  split <;> simp

@[simp]
theorem unacked_receive_self (q : Queue) (n : ℕ) (d : Delivery) :
    (b.receive i q n d).unacked i = some (q, d) := by
  simp [receive]

theorem unacked_receive_ne (q : Queue) (n : ℕ) (d : Delivery) (h : j ≠ i) :
    (b.receive i q n d).unacked j = b.unacked j := by
  simp [receive, h]

@[simp]
theorem unacked_ack_self : (b.ack i).unacked i = none := by simp [ack]

theorem unacked_ack_ne (h : j ≠ i) : (b.ack i).unacked j = b.unacked j := by simp [ack, h]

theorem unacked_nack_self : (b.nack i).unacked i = none := by
  unfold nack
  split
  next h => exact h
  · split <;> simp

theorem unacked_nack_ne (h : j ≠ i) : (b.nack i).unacked j = b.unacked j := by
  unfold nack
  split
  · rfl
  · split <;> simp [unacked_ack_ne b h]

end Unacked

end Broker

end RiskProvider

import RiskProvider.Workers.Handlers

/-!
# The system

The processes of the platform as one transition system: any number of invocations of the
handlers run concurrently, interleaved at every effect, and each may die before any effect.
Time passes as the environment's move. Runs start from an empty database and empty queues.
-/

namespace RiskProvider

open Interleaving

/-- The invocations of handlers. -/
inductive Invocation where
  /-- A request to the API endpoint `create_ticket`. -/
  | createTicket (idempotencyKey : String) (request : CreateTicketRequest)
  /-- A batch of the outbox producer. -/
  | sendBatch (batchSize : ℕ)
  /-- The gateway handles a message of `provider.out`. -/
  | sendToProvider
  /-- The gateway's receive loop on the frames of one provider session. -/
  | recieveFromProvider (frames : List Message)
  /-- The consumer handles a message of `provider.in`. -/
  | handle
  /-- A tick of the reconciler. -/
  | recoverStuckTickets (stuckAfterSec batchSize : ℕ)

/-- A thread's program: what it raises at the end is logged. -/
def toThread {α : Type} (p : Py α) : Program Effect Effect.Result Unit :=
  p.run >>= fun _ => .done ()

variable [Codecs]

/-- The program of an invocation. -/
def Invocation.program : Invocation → Program Effect Effect.Result Unit
  | createTicket key request => toThread (createTicketEndpoint key request)
  | sendBatch batchSize => toThread (OutboxService.sendBatch batchSize)
  | sendToProvider =>
      toThread (subscribe .providerOut ProviderGatewayWorker.sendToProvider)
  | recieveFromProvider frames => toThread (ProviderGatewayWorker.recieveFromProvider frames)
  | handle => toThread (subscribe .providerIn ProviderConsumerWorker.handle)
  | recoverStuckTickets stuckAfterSec batchSize =>
      toThread (ReconcilerWorker.recoverStuckTickets stuckAfterSec batchSize)

/-- The machine of the platform. -/
def machine : Machine Effect Effect.Result Choice Invocation ℕ World where
  exec i e c w := e.exec i c w
  crash := World.crash
  environment elapsed w := { w with now := w.now + elapsed }
  program := Invocation.program

/-- States of the platform. -/
abbrev System := Pool Effect Effect.Result World

/-- The state in which nothing has happened. -/
def System.initial : System := Pool.initial {}

/-- A state that the platform can reach. -/
def System.Reachable (s : System) : Prop := machine.Run System.initial s

end RiskProvider

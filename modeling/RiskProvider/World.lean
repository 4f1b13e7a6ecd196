import RiskProvider.Database.Session
import RiskProvider.Transport

/-!
# The shared world

Everything the processes share: the committed rows, the locks of open transactions, the
sessions, the broker, the clock, and the history of what has happened. Committed rows and the
broker change only by `World.record`, which appends an entry to the history and carries out
its effect, so the history determines both.
-/

namespace RiskProvider

/-- How the provider answered a frame. -/
inductive SendOutcome where
  /-- `provider.send` returned an acknowledgement with `status="ok"`. -/
  | ok
  /-- It raised `ProviderAckError`. -/
  | rejected (code : ProviderErrorCode)
  /-- It raised a transport error. -/
  | transportError
deriving DecidableEq, Repr

/-- Exceptions. Those that the code formats into a text carry it. -/
inductive Exn where
  | databaseError
  /-- PostgreSQL rejects a value: it is longer than its column, or has U+0000. -/
  | dataError
  | integrityError
  | pendingRollback
  | validationError
  | valueError
  | monolithError (text : String)
  | publishError (text : String)
  | providerAckError (code : ProviderErrorCode)
  | connectionError (text : String)
deriving DecidableEq, Repr

/-- What the thread `i` named first in an entry has done. -/
inductive Entry where
  /-- It received the `n`-th message of a queue. -/
  | received (i : ℕ) (q : Queue) (n : ℕ) (d : Delivery)
  /-- It acknowledged its delivery. -/
  | acked (i : ℕ)
  /-- Its delivery was returned: the handler raised or died. -/
  | returned (i : ℕ)
  /-- Its transaction committed with these writes. -/
  | committed (i : ℕ) (ws : List Write)
  /-- It called `process_ticket`, which returned or raised `MonolithError` with a text. -/
  | processed (i : ℕ) (ticketId : UUID) (action : Option RecommendationAction)
      (error : Option String)
  /-- It published a frame under a routing key, successfully (`ok`) or not. -/
  | published (i : ℕ) (routingKey : String) (messageId : UUID) (body : Dict) (ok : Bool)
  /-- It handed a frame to `provider.send`. -/
  | sent (i : ℕ) (m : Message) (outcome : SendOutcome)
  /-- It called `provider.send_ack`. -/
  | ackSent (i : ℕ) (messageId : UUID) (ok : Bool)
  /-- The API endpoint `create_ticket` got a request. -/
  | requested (i : ℕ) (idempotencyKey : String) (request : CreateTicketRequest)
  /-- It looked up the ticket with an idempotency key. -/
  | looked (i : ℕ) (idempotencyKey : String) (result : Option UUID)
  /-- It fetched the pending events `ids`, and skipped those that others had locked. -/
  | fetched (i : ℕ) (limit : ℕ) (ids skipped : List UUID)
  /-- It found the stuck tickets `ids`. -/
  | found (i : ℕ) (olderThan : Time) (ids : List UUID)
  /-- It answered its caller: a ticket id with the `created` flag, or an exception. -/
  | responded (i : ℕ) (result : Except Exn (UUID × Bool))
  /-- Its session loaded an instance of a ticket. -/
  | loaded (i : ℕ) (ticketId : UUID)
  /-- It incremented `ticket_state_transition_total`. -/
  | counted (i : ℕ) (fromStatus toStatus : TicketStatus)

namespace Entry

/-- A publish that returned, or raised an exception with a text. -/
@[simp]
def publishEnded (i : ℕ) (routingKey : String) (messageId : UUID) (body : Dict)
    (error : Option String) : Entry := published i routingKey messageId body error.isNone

/-- A `send_ack` that returned, or raised an exception with a text. -/
@[simp]
def sendAckEnded (i : ℕ) (messageId : UUID) (error : Option String) : Entry :=
  ackSent i messageId error.isNone

/-- The thread that an entry is about. -/
def thread : Entry → ℕ
  | received i _ _ _ | acked i | returned i | committed i _ | processed i _ _ _
  | published i _ _ _ _ | sent i _ _ | ackSent i _ _ | requested i _ _ | looked i _ _
  | fetched i _ _ _ | found i _ _ | responded i _ | loaded i _ | counted i _ _ => i

/-- The entry is an action visible outside the thread's own process. -/
def isAction : Entry → Bool
  | loaded _ _ | counted _ _ _ => false
  | _ => true

end Entry

/-- The ticket row that a write locks. -/
def Write.ticketKey : Write → Option UUID
  | insertTicket row => some row.id
  | updateTicket id _ _ => some id
  | _ => none

/-- The entry commits a write to the row of a ticket. -/
def Entry.touches (ticketId : UUID) : Entry → Bool
  | .committed _ ws => ws.any fun wr => wr.ticketKey = some ticketId
  | _ => false

/-- The committed rows after an entry. -/
def Database.after (db : Database) : Entry → Database
  | .committed _ ws => db.writeAll ws
  | _ => db

/-- The broker after an entry. -/
def Broker.after (b : Broker) : Entry → Broker
  | .received i q n d => b.receive i q n d
  | .acked i => b.ack i
  | .returned i => b.nack i
  | .published _ routingKey messageId body true => b.publish routingKey { messageId, body }
  | _ => b

/-! ### Histories -/

/-- What has happened, latest entry first. -/
abbrev History := List Entry

namespace History

/-- The committed rows that a history leads to. -/
def database : History → Database
  | [] => {}
  | e :: l => (database l).after e

/-- The broker that a history leads to. -/
def broker : History → Broker
  | [] => {}
  | e :: l => (broker l).after e

/-- The entry is an action of thread `i`. -/
def actionOf (i : ℕ) (e : Entry) : Bool := e.thread = i && e.isAction

/-- The actions of thread `i`. -/
def actions (i : ℕ) (l : History) : History := l.filter (actionOf i)

/-- The actions of thread `i` and the commits to the row of a ticket. -/
def focus (i : ℕ) (ticketId : UUID) (l : History) : History :=
  l.filter fun e => actionOf i e || e.touches ticketId

/-- The committed status of a ticket. -/
def status? (ticketId : UUID) (l : History) : Option TicketStatus :=
  (l.database.tickets.lookup ticketId).map (·.status)

@[simp]
theorem database_cons (e : Entry) (l : History) : database (e :: l) = (database l).after e := rfl

@[simp]
theorem broker_cons (e : Entry) (l : History) : broker (e :: l) = (broker l).after e := rfl

end History

/-! ### The world -/

/-- The state that all processes share. -/
structure World where
  /-- The clock. -/
  now : Time := 0
  db : Database := {}
  broker : Broker := {}
  /-- The history, latest entry first. -/
  log : History := []
  /-- The transaction that holds the lock of a ticket row. -/
  ticketLock : UUID → Option ℕ := fun _ => none
  /-- The transaction that holds the lock of an outbox row. -/
  eventLock : UUID → Option ℕ := fun _ => none
  /-- The transaction with an uncommitted inbox row. -/
  inboxLock : UUID → Option ℕ := fun _ => none
  /-- The transaction with an uncommitted ticket under an idempotency key. -/
  keyLock : String → Option ℕ := fun _ => none
  /-- The session of each thread. -/
  session : ℕ → Session := fun _ => {}

/-- Keys whose lock transaction `i` can have: nobody else holds it. -/
def Available {κ : Type} (lock : κ → Option ℕ) (i : ℕ) (k : κ) : Prop :=
  lock k = none ∨ lock k = some i

instance {κ : Type} (lock : κ → Option ℕ) (i : ℕ) (k : κ) : Decidable (Available lock i k) := by
  unfold Available
  infer_instance

/-- Transaction `i` takes the locks of `ks`. -/
def acquire {κ : Type} [DecidableEq κ] (lock : κ → Option ℕ) (i : ℕ) (ks : List κ) :
    κ → Option ℕ :=
  fun k => if k ∈ ks then some i else lock k

/-- Transaction `i` releases its locks. -/
def release {κ : Type} (lock : κ → Option ℕ) (i : ℕ) : κ → Option ℕ :=
  fun k => if lock k = some i then none else lock k

namespace World

/-- An entry is appended to the history and takes effect. -/
def record (w : World) (e : Entry) : World :=
  { w with db := w.db.after e, broker := w.broker.after e, log := e :: w.log }

/-- The session of thread `i` is replaced. -/
def setSession (w : World) (i : ℕ) (s : Session) : World :=
  { w with session := Function.update w.session i s }

/-- The locks of transaction `i` are released. -/
def releaseLocks (w : World) (i : ℕ) : World :=
  { w with
    ticketLock := release w.ticketLock i
    eventLock := release w.eventLock i
    inboxLock := release w.inboxLock i
    keyLock := release w.keyLock i }

/-- The rows as transaction `i` sees them: what is committed and what it has written. -/
def visible (w : World) (i : ℕ) : Database := w.db.writeAll (w.session i).writes

/-- The status of a ticket, as committed. -/
def status? (w : World) (id : UUID) : Option TicketStatus := (w.db.tickets.lookup id).map (·.status)

section Fields

variable (w : World) (i : ℕ) (s : Session) (e : Entry)

@[simp] theorem session_setSession_self : (w.setSession i s).session i = s := by simp [setSession]

@[simp]
theorem session_setSession_ne {j : ℕ} (h : j ≠ i) :
    (w.setSession i s).session j = w.session j := by
  simp [setSession, Function.update_of_ne h]

@[simp] theorem now_setSession : (w.setSession i s).now = w.now := rfl
@[simp] theorem db_setSession : (w.setSession i s).db = w.db := rfl
@[simp] theorem broker_setSession : (w.setSession i s).broker = w.broker := rfl
@[simp] theorem log_setSession : (w.setSession i s).log = w.log := rfl
@[simp] theorem ticketLock_setSession : (w.setSession i s).ticketLock = w.ticketLock := rfl
@[simp] theorem eventLock_setSession : (w.setSession i s).eventLock = w.eventLock := rfl
@[simp] theorem inboxLock_setSession : (w.setSession i s).inboxLock = w.inboxLock := rfl
@[simp] theorem keyLock_setSession : (w.setSession i s).keyLock = w.keyLock := rfl

@[simp] theorem now_record : (w.record e).now = w.now := rfl
@[simp] theorem db_record : (w.record e).db = w.db.after e := rfl
@[simp] theorem broker_record : (w.record e).broker = w.broker.after e := rfl
@[simp] theorem log_record : (w.record e).log = e :: w.log := rfl
@[simp] theorem session_record : (w.record e).session = w.session := rfl
@[simp] theorem ticketLock_record : (w.record e).ticketLock = w.ticketLock := rfl
@[simp] theorem eventLock_record : (w.record e).eventLock = w.eventLock := rfl
@[simp] theorem inboxLock_record : (w.record e).inboxLock = w.inboxLock := rfl
@[simp] theorem keyLock_record : (w.record e).keyLock = w.keyLock := rfl

@[simp] theorem db_releaseLocks : (w.releaseLocks i).db = w.db := rfl
@[simp] theorem broker_releaseLocks : (w.releaseLocks i).broker = w.broker := rfl
@[simp] theorem log_releaseLocks : (w.releaseLocks i).log = w.log := rfl
@[simp] theorem session_releaseLocks : (w.releaseLocks i).session = w.session := rfl

end Fields

end World

end RiskProvider

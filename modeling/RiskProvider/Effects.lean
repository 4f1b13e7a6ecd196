import RiskProvider.Interleaving.Program
import RiskProvider.World

/-!
# Effects

The calls with which the services act on the shared world, one for each `await` of a database
statement, the monolith, the broker or the provider, and for each read of the clock, and how
the world answers them. PostgreSQL runs at `READ COMMITTED`: a statement waits (`none`) while
another transaction holds a lock that it needs, and a select for update then sees the row as
last committed. A `Choice` resolves what the world leaves open.
-/

namespace RiskProvider

open Interleaving

/-- What an effect's environment decides. -/
inductive Choice where
  /-- The call succeeds. -/
  | succeed
  /-- The statement succeeds after it has waited that long, since its `BEGIN` or a lock. -/
  | waited (elapsed : ℕ)
  /-- The database statement or the commit fails. -/
  | databaseError
  /-- The remote call raises an exception with this text. -/
  | raises (text : String)
  /-- The provider rejects the frame. -/
  | rejects (code : ProviderErrorCode)
  /-- The rows that a `SKIP LOCKED` select returns, in order. -/
  | rows (ids : List UUID)
  /-- The identifier that `uuid4()` returns. -/
  | uuid (u : UUID)
  /-- The position of the message that a consumer receives. -/
  | message (n : ℕ)
deriving DecidableEq, Repr

namespace Choice

/-- The choice of success. -/
def succeed? (c : Choice) : Option Unit := if c = succeed then some () else none

/-- How long the statement has waited. -/
def wait : Choice → ℕ
  | waited elapsed => elapsed
  | _ => 0

/-- The rows chosen. -/
def rows? : Choice → Option (List UUID)
  | rows ids => some ids
  | _ => none

/-- The identifier chosen. -/
def uuid? : Choice → Option UUID
  | uuid u => some u
  | _ => none

/-- The message chosen. -/
def message? : Choice → Option ℕ
  | message n => some n
  | _ => none

end Choice

/-- The calls on the shared world. -/
inductive Effect where
  /-- `datetime.now(tz=UTC)` -/
  | utcNow
  /-- `uuid.uuid4()` -/
  | uuid4
  /-- `select(Ticket).where(Ticket.id == id).with_for_update()` -/
  | selectTicketForUpdate (id : UUID)
  /-- `select(Ticket).where(Ticket.idempotency_key == key)` -/
  | selectTicketByKey (key : String)
  /-- the select of `find_stuck` -/
  | selectStuck (olderThan : Time) (limit : ℕ)
  /-- the select of `fetch_pending` -/
  | selectPending (limit : ℕ)
  /-- the insert of `try_claim` -/
  | insertInbox (messageId : UUID) (messageType : String) (ticketId : Option UUID)
  /-- the update of `mark_published_many` -/
  | updatePublished (ids : List UUID) (publishedAt : Time)
  /-- the update of `mark_failed` -/
  | updateFailed (id : UUID) (error : String)
  /-- assignments to attributes of a loaded ticket -/
  | assign (t : Ticket)
  /-- the read of an attribute of a loaded ticket, where a flush may have failed before -/
  | readAttribute (id : UUID)
  /-- `session.add(object)` -/
  | add (object : NewObject)
  /-- `session.flush()` -/
  | flush
  /-- the `COMMIT` of `session.commit()` -/
  | commit
  /-- `session.rollback()`, and the end of a session -/
  | rollback
  /-- `monolith.process_ticket(id, action, provider_reason)` -/
  | processTicket (id : UUID) (action : Option RecommendationAction) (reason : Option String)
  /-- `broker.publish(body, routing_key=..., message_id=...)` -/
  | publish (routingKey : String) (messageId : UUID) (body : Dict)
  /-- the delivery of a message to a subscriber -/
  | receive (q : Queue)
  /-- the acknowledgement of the delivery -/
  | ack
  /-- its rejection, `AckPolicy.NACK_ON_ERROR` -/
  | nack
  /-- `provider.send(message)` -/
  | send (m : Message)
  /-- `provider.send_ack(message_id)` -/
  | sendAck (messageId : UUID)
  /-- `ticket_state_transition_total.labels(...).inc()` -/
  | countTransition (fromStatus toStatus : TicketStatus)
  /-- the arrival of a request at the API endpoint `create_ticket` -/
  | request (idempotencyKey : String) (r : CreateTicketRequest)
  /-- the answer to the caller of the API -/
  | respond (result : Except Exn (UUID × Bool))

namespace Effect

/-- What an effect returns. -/
@[reducible]
def Value : Effect → Type
  | utcNow => Time
  | uuid4 => UUID
  | selectTicketForUpdate _ => Option Ticket
  | selectTicketByKey _ => Option Ticket
  | selectStuck _ _ => List Ticket
  | selectPending _ => List OutboxEvent
  | insertInbox _ _ _ => Bool
  | receive _ => Dict
  | _ => Unit

/-- What an effect answers: a value or an exception. -/
abbrev Result (e : Effect) : Type := Except Exn e.Value

end Effect

/-! ### The rows that a select returns -/

/-- `ids` is what `SELECT ... ORDER BY at LIMIT limit FOR UPDATE SKIP LOCKED` can return: the
eligible rows that are not locked by another transaction, oldest first, up to the limit. -/
def IsBatch {ρ : Type} (t : Table ρ) (free : UUID → Prop) (eligible : ρ → Bool)
    (time : ρ → Time) (limit : ℕ) (ids : List UUID) : Prop :=
  ids.Nodup ∧ ids.length ≤ limit ∧
    (∀ id ∈ ids, free id ∧ (t.lookup id).any eligible) ∧
    (ids.filterMap t.lookup).Pairwise (fun r r' => time r ≤ time r') ∧
    ∀ e ∈ t.entries, free e.1 → eligible e.2 → e.1 ∉ ids →
      ids.length = limit ∧ ∀ r ∈ ids.filterMap t.lookup, time r ≤ time e.2

instance {ρ : Type} (t : Table ρ) (free : UUID → Prop) [DecidablePred free]
    (eligible : ρ → Bool) (time : ρ → Time) (limit : ℕ) (ids : List UUID) :
    Decidable (IsBatch t free eligible time limit ids) := by
  unfold IsBatch
  infer_instance

/-- The condition of `find_stuck`. -/
def Ticket.stuck (olderThan : Time) (t : Ticket) : Bool :=
  !decide t.status.Terminal && decide (t.updatedAt < olderThan)

/-- The condition of `fetch_pending`. -/
def OutboxEvent.pending (e : OutboxEvent) : Bool := e.status = .pending

/-! ### What a write needs -/

namespace Write

/-- The outbox rows that a write locks. -/
def eventKeys : Write → List UUID
  | insertEvent row => [row.id]
  | markPublished ids _ _ => ids
  | markFailed id _ _ => [id]
  | _ => []

/-- The inbox row that a write locks. -/
def inboxKey : Write → Option UUID
  | insertInbox row => some row.messageId
  | _ => none

/-- The idempotency key that a write locks. -/
def uniqueKey : Write → Option String
  | insertTicket row => some row.idempotencyKey
  | _ => none

/-- The text that an update of an outbox row writes has no U+0000. -/
def storable : Write → Bool
  | markFailed _ error _ => storableText (textPrefix 2000 error)
  | _ => true

/-- A unique or check constraint rejects the write. -/
def Conflicts (db : Database) : Write → Prop
  | insertTicket row =>
      row.id ∈ db.tickets ∨ (∃ r ∈ db.tickets.rows, r.idempotencyKey = row.idempotencyKey) ∨
        row.stakeAmount.coefficient ≤ 0
  | insertEvent row => row.id ∈ db.outbox
  | _ => False

instance (db : Database) (w : Write) : Decidable (w.Conflicts db) := by
  cases w <;> unfold Conflicts <;> infer_instance

end Write

namespace World

variable {α : Type}

/-! ### Database statements -/

/-- When a statement of session `i` that succeeds now has been issued: after its last commit, and
earlier than now if it has waited. -/
def issuedAt (w : World) (i : ℕ) (c : Choice) : Time :=
  max (w.session i).committedAt (w.now - c.wait)

/-- Session `i` executes its next statement; the first one has begun the transaction. -/
def beginTx (w : World) (i : ℕ) (c : Choice) : World :=
  w.setSession i ((w.session i).beginTx (w.issuedAt i c))

/-- A statement of session `i` fails. -/
def fail (w : World) (i : ℕ) : World := w.setSession i (w.session i).fail

/-- Session `i` executes a statement: after a failure it accepts none, and the statement may
itself fail. -/
def statement (w : World) (i : ℕ) (c : Choice) (act : World → Option (Except Exn α × World)) :
    Option (Except Exn α × World) :=
  if (w.session i).failed then some (.error .pendingRollback, w)
  else match c with
    | .databaseError => some (.error .databaseError, (w.beginTx i c).fail i)
    | _ => act (w.beginTx i c)

/-- Session `i` loads a selected row, unless its instance is live. -/
def loadRow (w : World) (i : ℕ) (row : Ticket) : World :=
  match (w.session i).identityMap row.id with
  | some _ => w
  | none => (w.record (.loaded i row.id)).setSession i ((w.session i).load row)

/-- Session `i` loads selected rows. -/
def loadRows (w : World) (i : ℕ) (rows : List Ticket) : World :=
  rows.foldl (·.loadRow i ·) w

/-- A select of one ticket for update. -/
def selectTicketForUpdate (w : World) (i : ℕ) (id : UUID) :
    Option (Except Exn (Option Ticket) × World) :=
  if Available w.ticketLock i id then
    match (w.visible i).tickets.lookup id with
    | none => some (.ok none, w)
    | some row => some (.ok (some ((w.session i).attrs row)),
        { w.loadRow i row with ticketLock := acquire w.ticketLock i [id] })
  else none

/-- A select of the ticket with an idempotency key. -/
def selectTicketByKey (w : World) (i : ℕ) (key : String) :
    Option (Except Exn (Option Ticket) × World) :=
  match (w.visible i).tickets.rows.find? (·.idempotencyKey = key) with
  | none => some (.ok none, w.record (.looked i key none))
  | some row => some (.ok (some ((w.session i).attrs row)),
      (w.record (.looked i key (some row.id))).loadRow i row)

/-- A select of stuck tickets for update, skipping locked rows. -/
def selectStuck (w : World) (i : ℕ) (olderThan : Time) (limit : ℕ) (ids : List UUID) :
    Option (Except Exn (List Ticket) × World) :=
  if IsBatch w.db.tickets (Available w.ticketLock i) (·.stuck olderThan) (·.updatedAt) limit ids
  then
    let rows := ids.filterMap w.db.tickets.lookup
    some (.ok (rows.map (w.session i).attrs),
      { (w.record (.found i olderThan ids)).loadRows i rows with
        ticketLock := acquire w.ticketLock i ids })
  else none

/-- The pending events that a select of session `i` skips. -/
def skipped (w : World) (i : ℕ) : List UUID :=
  (w.db.outbox.entries.filter fun e => e.2.pending ∧ ¬ Available w.eventLock i e.1).map (·.1)

/-- A select of pending events for update, skipping locked rows. -/
def selectPending (w : World) (i : ℕ) (limit : ℕ) (ids : List UUID) :
    Option (Except Exn (List OutboxEvent) × World) :=
  if IsBatch w.db.outbox (Available w.eventLock i) (·.pending) (·.createdAt) limit ids
  then some (.ok (ids.filterMap w.db.outbox.lookup),
    { w.record (.fetched i limit ids (w.skipped i)) with
      eventLock := acquire w.eventLock i ids })
  else none

/-- An insert into the inbox that does nothing on conflict. -/
def insertInbox (w : World) (i : ℕ) (messageId : UUID) (messageType : String)
    (ticketId : Option UUID) : Option (Except Exn Bool × World) :=
  if Available w.inboxLock i messageId then
    if messageId ∈ (w.visible i).inbox then some (.ok false, w)
    else
      let row := { messageId, ticketId, messageType, processedAt := (w.session i).startedAt }
      some (.ok true,
        { w.setSession i
            { w.session i with writes := (w.session i).writes ++ [.insertInbox row] } with
          inboxLock := acquire w.inboxLock i [messageId] })
  else none

/-- An update of outbox rows. -/
def updateEvents (w : World) (i : ℕ) (wr : Write) : Option (Except Exn Unit × World) :=
  if ∀ id ∈ wr.eventKeys, Available w.eventLock i id then
    if ¬ wr.storable then some (.error .dataError, w.fail i)
    else some (.ok (),
      { w.setSession i { w.session i with writes := (w.session i).writes ++ [wr] } with
        eventLock := acquire w.eventLock i wr.eventKeys })
  else none

/-- The statements of a flush. -/
def flush (w : World) (i : ℕ) : Option (Except Exn Unit × World) :=
  let s := w.session i
  let ws := s.flushWrites
  if (∀ id ∈ ws.filterMap Write.ticketKey, Available w.ticketLock i id) ∧
      (∀ id ∈ ws.flatMap Write.eventKeys, Available w.eventLock i id) ∧
      (∀ key ∈ ws.filterMap Write.uniqueKey, Available w.keyLock i key) then
    if ¬ (s.FlushFits ∧ s.FlushStorable) then some (.error .dataError, w.fail i)
    else if ∃ wr ∈ ws, wr.Conflicts (w.visible i) then
      some (.error .integrityError, w.fail i)
    else some (.ok (),
      { w.setSession i s.flushed with
        ticketLock := acquire w.ticketLock i (ws.filterMap Write.ticketKey)
        eventLock := acquire w.eventLock i (ws.flatMap Write.eventKeys)
        keyLock := acquire w.keyLock i (ws.filterMap Write.uniqueKey) })
  else none

/-- The writes of transaction `i` become the committed rows. -/
def commit (w : World) (i : ℕ) : World :=
  ((w.record (.committed i (w.session i).writes)).setSession i
    ((w.session i).committed w.now)).releaseLocks i

/-- Transaction `i` is rolled back; its session forgets every instance. -/
def rollback (w : World) (i : ℕ) : World := (w.setSession i {}).releaseLocks i

/-! ### Remote calls -/

/-- A call that returns or raises with a text, as recorded in the history. -/
def call (w : World) (c : Choice) (entry : Option String → Entry) (exn : String → Exn) :
    Option (Except Exn Unit × World) :=
  match c with
  | .succeed => some (.ok (), w.record (entry none))
  | .raises text => some (.error (exn text), w.record (entry (some text)))
  | _ => none

/-- `provider.send`. -/
def send (w : World) (i : ℕ) (c : Choice) (m : Message) : Option (Except Exn Unit × World) :=
  match c with
  | .succeed => some (.ok (), w.record (.sent i m .ok))
  | .rejects code => some (.error (.providerAckError code), w.record (.sent i m (.rejected code)))
  | .raises text => some (.error (.connectionError text), w.record (.sent i m .transportError))
  | _ => none

/-- A message of a queue is delivered to handler `i`. -/
def receive (w : World) (i : ℕ) (q : Queue) (n : ℕ) : Option (Except Exn Dict × World) :=
  match (w.broker.queue q)[n]? with
  | some d => some (.ok d.body, w.record (.received i q n d))
  | none => none

end World

/-- How the world answers an effect of thread `i`. -/
def Effect.exec (i : ℕ) (c : Choice) (w : World) : (e : Effect) → Option (e.Result × World)
  | .utcNow => c.succeed?.map fun _ => (.ok w.now, w)
  | .uuid4 => c.uuid?.map fun u => (.ok u, w)
  | .selectTicketForUpdate id => w.statement i c (·.selectTicketForUpdate i id)
  | .selectTicketByKey key => w.statement i c (·.selectTicketByKey i key)
  | .selectStuck olderThan limit => w.statement i c fun w =>
      c.rows?.bind (w.selectStuck i olderThan limit)
  | .selectPending limit => w.statement i c fun w => c.rows?.bind (w.selectPending i limit)
  | .insertInbox messageId messageType ticketId =>
      w.statement i c (·.insertInbox i messageId messageType ticketId)
  | .updatePublished ids publishedAt => w.statement i c fun w =>
      w.updateEvents i (.markPublished ids publishedAt (w.session i).startedAt)
  | .updateFailed id error => w.statement i c fun w =>
      w.updateEvents i (.markFailed id error (w.session i).startedAt)
  | .assign t => c.succeed?.map fun _ => (.ok (), w.setSession i ((w.session i).assign t))
  | .readAttribute _ =>
      -- an expired attribute is selected anew, which a failed session rejects
      c.succeed?.map fun _ => (if (w.session i).expired then .error .pendingRollback else .ok (), w)
  | .add object => c.succeed?.map fun _ => (.ok (), w.setSession i ((w.session i).add object))
  | .flush =>
      -- a flush without changes executes no statement
      if (w.session i).dirty = [] ∧ (w.session i).added.isEmpty then some (.ok (), w)
      else w.statement i c (·.flush i)
  | .commit =>
      if (w.session i).failed then some (.error .pendingRollback, w)
      else match c with
        | .succeed => some (.ok (), w.commit i)
        | .databaseError => some (.error .databaseError, w.fail i)
        | _ => none
  | .rollback => c.succeed?.map fun _ => (.ok (), w.rollback i)
  | .processTicket id action _ => w.call c (.processed i id action) .monolithError
  | .publish routingKey messageId body =>
      w.call c (.publishEnded i routingKey messageId body) .publishError
  | .receive q => c.message?.bind (w.receive i q)
  | .ack => c.succeed?.map fun _ => (.ok (), w.record (.acked i))
  | .nack => c.succeed?.map fun _ => (.ok (), w.record (.returned i))
  | .send m => w.send i c m
  | .sendAck messageId => w.call c (.sendAckEnded i messageId) .connectionError
  | .countTransition fromStatus toStatus =>
      c.succeed?.map fun _ => (.ok (), w.record (.counted i fromStatus toStatus))
  | .request idempotencyKey r =>
      c.succeed?.map fun _ => (.ok (), w.record (.requested i idempotencyKey r))
  | .respond result => c.succeed?.map fun _ => (.ok (), w.record (.responded i result))

/-- What the world does with what thread `i` held when it dies: its transaction is rolled back
and its delivery is returned. -/
def World.crash (i : ℕ) (w : World) : World :=
  let w := w.rollback i
  if (w.broker.unacked i).isSome then w.record (.returned i) else w

/-- Services: programs with the effects above, raising the exceptions of Python. -/
abbrev Py (α : Type) : Type := ExceptT Exn (Program Effect Effect.Result) α

/-- Perform one effect. -/
def perform (e : Effect) : Py e.Value := ExceptT.mk (.perform e .done)

/-- The outcome of a program, as a value. -/
def attempt {α : Type} (p : Py α) : Py (Except Exn α) := ExceptT.lift p.run

end RiskProvider

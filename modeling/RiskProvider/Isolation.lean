import RiskProvider.System

/-!
# Isolation of transactions

What a thread's effects can do to the shared world, said once: every effect of thread `i` is a
sequence of the moves of `World.Act i` (`exec_acts`). From the moves follow

* `World.Isolated`: a transaction has locked every row that it has written, sessions are
  coherent, and the committed rows and the broker are what the history leads to;
* the frame: the moves of one thread leave the `World.view` of every other thread as it is. A
  view holds the thread's session, its own actions, its delivery, and the committed rows and
  the commits to them for the rows that its transaction has locked.
-/

namespace RiskProvider

open Interleaving

/-! ### Locks -/

section Locks

variable {κ β : Type} {lock : κ → Option ℕ} {i j : ℕ} {f g : κ → β}

/-- The values of `f` at the keys that transaction `i` has locked. -/
def held (lock : κ → Option ℕ) (i : ℕ) (f : κ → β) : κ → Option β :=
  fun k => if lock k = some i then some (f k) else none

theorem held_eq_some {k : κ} {b : β} : held lock i f k = some b ↔ lock k = some i ∧ f k = b := by
  simp [held]

theorem held_congr (h : ∀ k, lock k = some i → f k = g k) : held lock i f = held lock i g := by
  funext k
  by_cases hk : lock k = some i
  · simp [held, hk, h k hk]
  · simp [held, hk]

theorem acquire_of_mem [DecidableEq κ] {ks : List κ} {k : κ} (h : k ∈ ks) :
    acquire lock i ks k = some i := if_pos h

theorem acquire_eq_of_ne [DecidableEq κ] {ks : List κ} (h : ∀ k ∈ ks, Available lock i k)
    (hj : j ≠ i) {k : κ} : acquire lock i ks k = some j ↔ lock k = some j := by
  unfold acquire
  split
  next hk =>
    rcases h k hk with hnone | hsome
    · simp [hnone, hj.symm]
    · simp [hsome]
  next => rfl

theorem held_acquire_ne [DecidableEq κ] {ks : List κ} (h : ∀ k ∈ ks, Available lock i k)
    (hj : j ≠ i) : held (acquire lock i ks) j f = held lock j f := by
  funext k
  simp [held, acquire_eq_of_ne h hj]

/-- Transaction `i` sees the keys that it has locked before and those it locks now. -/
theorem held_acquire_self [DecidableEq κ] {ks : List κ} :
    held (acquire lock i ks) i f = fun k => if k ∈ ks then some (f k) else held lock i f k := by
  funext k
  unfold held acquire
  split <;> simp_all

@[simp]
theorem acquire_nil [DecidableEq κ] : acquire lock i [] = lock := by
  funext k
  simp [acquire]

theorem release_eq_of_ne (hj : j ≠ i) {k : κ} : release lock i k = some j ↔ lock k = some j := by
  unfold release
  split
  next hk => simp [hk, hj.symm]
  next => rfl

theorem held_release_ne (hj : j ≠ i) : held (release lock i) j f = held lock j f := by
  funext k
  simp [held, release_eq_of_ne hj]

theorem release_ne_self {k : κ} : release lock i k ≠ some i := by
  unfold release
  split <;> simp_all

@[simp]
theorem held_release_self : held (release lock i) i f = fun _ => none := by
  funext k
  simp [held, release_ne_self]

end Locks

/-! ### Writes leave other rows alone -/

namespace Database

variable {db : Database} {id : UUID}

theorem lookup_tickets_write {wr : Write} (h : wr.ticketKey ≠ some id) :
    (db.write wr).tickets.lookup id = db.tickets.lookup id := by
  cases wr with
  | insertTicket row =>
      exact AList.lookup_insert_ne fun heq => h (by simp [Write.ticketKey, heq])
  | updateTicket k p now =>
      exact Table.lookup_modify_ne _ _ fun heq => h (by simp [Write.ticketKey, heq])
  | _ => rfl

theorem lookup_tickets_writeAll {ws : List Write} (h : ∀ wr ∈ ws, wr.ticketKey ≠ some id) :
    (db.writeAll ws).tickets.lookup id = db.tickets.lookup id := by
  induction ws generalizing db with
  | nil => rfl
  | cons wr ws ih =>
      rw [writeAll_cons, ih fun wr' hwr' => h wr' (List.mem_cons_of_mem _ hwr'),
        lookup_tickets_write (h wr List.mem_cons_self)]

theorem lookup_foldl_modify {t : Table OutboxEvent} {ids : List UUID}
    {f : OutboxEvent → OutboxEvent} (h : id ∉ ids) :
    (ids.foldl (·.modify · f) t).lookup id = t.lookup id := by
  induction ids generalizing t with
  | nil => rfl
  | cons k ks ih =>
      obtain ⟨hk, hks⟩ := not_or.mp (List.mem_cons.not.mp h)
      rw [List.foldl_cons, ih hks, Table.lookup_modify_ne _ _ hk]

theorem lookup_outbox_write {wr : Write} (h : id ∉ wr.eventKeys) :
    (db.write wr).outbox.lookup id = db.outbox.lookup id := by
  cases wr with
  | insertEvent row =>
      exact AList.lookup_insert_ne fun heq => h (by simp [Write.eventKeys, heq])
  | markPublished ids publishedAt now =>
      exact lookup_foldl_modify h
  | markFailed k error now =>
      exact Table.lookup_modify_ne _ _ fun heq => h (by simp [Write.eventKeys, heq])
  | _ => rfl

theorem lookup_outbox_writeAll {ws : List Write} (h : ∀ wr ∈ ws, id ∉ wr.eventKeys) :
    (db.writeAll ws).outbox.lookup id = db.outbox.lookup id := by
  induction ws generalizing db with
  | nil => rfl
  | cons wr ws ih =>
      rw [writeAll_cons, ih fun wr' hwr' => h wr' (List.mem_cons_of_mem _ hwr'),
        lookup_outbox_write (h wr List.mem_cons_self)]

theorem lookup_inbox_write {wr : Write} (h : wr.inboxKey ≠ some id) :
    (db.write wr).inbox.lookup id = db.inbox.lookup id := by
  cases wr with
  | insertInbox row =>
      exact AList.lookup_insert_ne fun heq => h (by simp [Write.inboxKey, heq])
  | _ => rfl

theorem lookup_inbox_writeAll {ws : List Write} (h : ∀ wr ∈ ws, wr.inboxKey ≠ some id) :
    (db.writeAll ws).inbox.lookup id = db.inbox.lookup id := by
  induction ws generalizing db with
  | nil => rfl
  | cons wr ws ih =>
      rw [writeAll_cons, ih fun wr' hwr' => h wr' (List.mem_cons_of_mem _ hwr'),
        lookup_inbox_write (h wr List.mem_cons_self)]

end Database

/-! ### Idempotency keys -/

/-- A ticket has the idempotency key. -/
def Database.HasKey (db : Database) (key : String) : Prop :=
  ∃ id row, db.tickets.lookup id = some row ∧ row.idempotencyKey = key

namespace Database

variable {db : Database} {key : String}

/-- A key that writes bring about is that of an inserted ticket. -/
theorem HasKey.of_writeAll {ws : List Write} (h : (db.writeAll ws).HasKey key)
    (hws : ∀ wr ∈ ws, wr.uniqueKey ≠ some key) : db.HasKey key := by
  induction ws generalizing db with
  | nil => exact h
  | cons wr ws ih =>
      obtain ⟨id, row, hrow, hkey⟩ := ih h fun wr' hwr' => hws wr' (List.mem_cons_of_mem _ hwr')
      by_cases hid : wr.ticketKey = some id
      · cases wr with
        | insertTicket r =>
            obtain rfl : r.id = id := Option.some.inj hid
            obtain rfl : r = row := by simpa [write] using hrow
            exact absurd (congrArg some hkey) (hws _ List.mem_cons_self)
        | updateTicket k p now =>
            obtain rfl : k = id := Option.some.inj hid
            simp only [write, Table.lookup_modify_self, Option.map_eq_some_iff] at hrow
            obtain ⟨row₀, hrow₀, rfl⟩ := hrow
            exact ⟨k, row₀, hrow₀, hkey⟩
        | _ => cases hid
      · exact ⟨id, row, lookup_tickets_write hid ▸ hrow, hkey⟩

/-- Writes that insert only new tickets lose no key. -/
theorem HasKey.writeAll {ws : List Write} (h : db.HasKey key)
    (hws : ∀ row, .insertTicket row ∈ ws → row.id ∉ db.tickets) :
    (db.writeAll ws).HasKey key := by
  obtain ⟨id, row, hrow, hkey⟩ := h
  have hmem : id ∈ db.tickets := AList.lookup_isSome.mp (by simp [hrow])
  have hne : ∀ r, .insertTicket r ∈ ws → r.id ≠ id := fun r hr heq => hws r hr (heq ▸ hmem)
  clear hws hmem
  induction ws generalizing db row with
  | nil => exact ⟨id, row, hrow, hkey⟩
  | cons wr ws ih =>
      have hrest : ∀ r, .insertTicket r ∈ ws → r.id ≠ id := fun r hr =>
        hne r (List.mem_cons_of_mem _ hr)
      by_cases hid : wr.ticketKey = some id
      · cases wr with
        | insertTicket r => exact absurd (Option.some.inj hid) (hne r List.mem_cons_self)
        | updateTicket k p now =>
            obtain rfl : k = id := Option.some.inj hid
            exact ih (row.patch p now) (by simp [write, hrow]) hkey hrest
        | _ => cases hid
      · exact ih row (by rw [lookup_tickets_write hid, hrow]) hkey hrest

end Database

/-! ### Moves -/

namespace World

/-- Transaction `i` has locked what the write needs, and a ticket that it inserts is new. -/
structure Holds (w : World) (i : ℕ) (wr : Write) : Prop where
  ticket : ∀ k, wr.ticketKey = some k → w.ticketLock k = some i
  event : ∀ k ∈ wr.eventKeys, w.eventLock k = some i
  inbox : ∀ k, wr.inboxKey = some k → w.inboxLock k = some i
  key : ∀ k, wr.uniqueKey = some k → w.keyLock k = some i
  fresh : ∀ row, wr = .insertTicket row →
    row.id ∉ w.db.tickets ∧ ¬ w.db.HasKey row.idempotencyKey

/-- Transaction `i` takes locks. -/
def acquireLocks (w : World) (i : ℕ) (tickets events inbox : List UUID) (keys : List String) :
    World :=
  { w with
    ticketLock := acquire w.ticketLock i tickets
    eventLock := acquire w.eventLock i events
    inboxLock := acquire w.inboxLock i inbox
    keyLock := acquire w.keyLock i keys }

/-- The moves that effects of thread `i` are made of. -/
inductive Act (i : ℕ) (w : World) : World → Prop
  /-- An entry other than a commit is recorded. -/
  | record (e : Entry) (hthread : e.thread = i) (hquiet : ∀ j ws, e ≠ .committed j ws) :
      Act i w (w.record e)
  /-- The session changes; writes are only added for rows that are locked. -/
  | session (s : Session) (ws : List Write) (hwrites : s.writes = (w.session i).writes ++ ws)
      (hheld : ∀ wr ∈ ws, w.Holds i wr)
      (hcoherent : (w.session i).Coherent → s.Coherent) : Act i w (w.setSession i s)
  /-- Locks are taken that no other transaction holds. -/
  | lock (tickets events inbox : List UUID) (keys : List String)
      (htickets : ∀ k ∈ tickets, Available w.ticketLock i k)
      (hevents : ∀ k ∈ events, Available w.eventLock i k)
      (hinbox : ∀ k ∈ inbox, Available w.inboxLock i k)
      (hkeys : ∀ k ∈ keys, Available w.keyLock i k) :
      Act i w (w.acquireLocks i tickets events inbox keys)
  /-- The transaction commits. -/
  | commit : Act i w (w.commit i)
  /-- The transaction is rolled back. -/
  | rollback : Act i w (w.rollback i)

/-- Sequences of moves. -/
abbrev Acts (i : ℕ) : World → World → Prop := Relation.ReflTransGen (Act i)

/-! ### The invariant -/

/-- Transactions have locked what they have written, sessions are coherent, and the history
determines the committed rows and the broker. -/
structure Isolated (w : World) : Prop where
  writes_held : ∀ i, ∀ wr ∈ (w.session i).writes, w.Holds i wr
  coherent : ∀ i, (w.session i).Coherent
  db_eq : w.db = w.log.database
  broker_eq : w.broker = w.log.broker

theorem isolated_initial : Isolated {} where
  writes_held _ _ h := by simp at h
  coherent _ := Session.coherent_empty
  db_eq := rfl
  broker_eq := rfl

variable {w w' : World} {i j : ℕ}

/-- Time passes. -/
theorem Isolated.tick (h : w.Isolated) (elapsed : ℕ) :
    Isolated { w with now := w.now + elapsed } where
  writes_held k wr hwr := by
    obtain ⟨h₁, h₂, h₃, h₄, h₅⟩ := h.writes_held k wr hwr
    exact ⟨h₁, h₂, h₃, h₄, h₅⟩
  coherent := h.coherent
  db_eq := h.db_eq
  broker_eq := h.broker_eq

/-- Only a commit changes the committed rows. -/
theorem db_record_of_quiet {e : Entry} (hquiet : ∀ j ws, e ≠ .committed j ws) :
    (w.record e).db = w.db := by
  cases e with
  | committed j ws => exact absurd rfl (hquiet j ws)
  | _ => rfl

theorem Isolated.record (h : w.Isolated) {e : Entry} (hquiet : ∀ j ws, e ≠ .committed j ws) :
    (w.record e).Isolated where
  writes_held k wr hwr := by
    obtain ⟨h₁, h₂, h₃, h₄, h₅⟩ := h.writes_held k wr hwr
    exact ⟨h₁, h₂, h₃, h₄, by rwa [db_record_of_quiet hquiet]⟩
  coherent := h.coherent
  db_eq := by simp [World.record, h.db_eq]
  broker_eq := by simp [World.record, h.broker_eq]

theorem Isolated.setSession (h : w.Isolated) {s : Session}
    (hs : ∀ wr ∈ s.writes, w.Holds i wr) (hcoherent : s.Coherent) :
    (w.setSession i s).Isolated where
  writes_held k wr hwr := by
    have hk : w.Holds k wr := by
      by_cases hki : k = i
      · subst hki
        exact hs wr (by simpa using hwr)
      · exact h.writes_held k wr (by simpa [hki] using hwr)
    exact ⟨hk.ticket, hk.event, hk.inbox, hk.key, hk.fresh⟩
  coherent k := by
    by_cases hki : k = i
    · subst hki
      simpa using hcoherent
    · simpa [hki] using h.coherent k
  db_eq := h.db_eq
  broker_eq := h.broker_eq

/-- Taking available locks takes none away. -/
theorem acquire_keeps {κ : Type} [DecidableEq κ] {lock : κ → Option ℕ} {ks : List κ}
    (h : ∀ k ∈ ks, Available lock i k) {k : κ} (hk : lock k = some j) :
    acquire lock i ks k = some j := by
  by_cases hj : j = i
  · subst hj
    unfold acquire
    split <;> simp_all
  · exact (acquire_eq_of_ne h hj).2 hk

theorem Isolated.lock (h : w.Isolated) {tickets events inbox : List UUID} {keys : List String}
    (htickets : ∀ k ∈ tickets, Available w.ticketLock i k)
    (hevents : ∀ k ∈ events, Available w.eventLock i k)
    (hinbox : ∀ k ∈ inbox, Available w.inboxLock i k)
    (hkeys : ∀ k ∈ keys, Available w.keyLock i k) :
    (w.acquireLocks i tickets events inbox keys).Isolated where
  writes_held j wr hwr := by
    have hj := h.writes_held j wr hwr
    exact ⟨fun k hk => acquire_keeps htickets (hj.ticket k hk),
      fun k hk => acquire_keeps hevents (hj.event k hk),
      fun k hk => acquire_keeps hinbox (hj.inbox k hk),
      fun k hk => acquire_keeps hkeys (hj.key k hk), hj.fresh⟩
  coherent := h.coherent
  db_eq := h.db_eq
  broker_eq := h.broker_eq

/-- A transaction that ends with no writes left can release its locks. -/
theorem Isolated.releaseLocks (h : w.Isolated) (hwrites : (w.session i).writes = []) :
    (w.releaseLocks i).Isolated where
  writes_held j wr hwr := by
    have hj := h.writes_held j wr hwr
    have hji : j ≠ i := by
      rintro rfl
      change wr ∈ (w.session j).writes at hwr
      simp [hwrites] at hwr
    exact ⟨fun k hk => (release_eq_of_ne hji).2 (hj.ticket k hk),
      fun k hk => (release_eq_of_ne hji).2 (hj.event k hk),
      fun k hk => (release_eq_of_ne hji).2 (hj.inbox k hk),
      fun k hk => (release_eq_of_ne hji).2 (hj.key k hk), hj.fresh⟩
  coherent := h.coherent
  db_eq := h.db_eq
  broker_eq := h.broker_eq

/-- The rows that transaction `i` commits are not among those that others have locked. -/
theorem Isolated.commit (h : w.Isolated) : (w.commit i).Isolated where
  writes_held j wr hwr := by
    have hji : j ≠ i := by
      rintro rfl
      simp [World.commit, Session.committed] at hwr
    have hwr : wr ∈ (w.session j).writes := by simpa [World.commit, hji] using hwr
    have hj := h.writes_held j wr hwr
    refine ⟨fun k hk => (release_eq_of_ne hji).2 (hj.ticket k hk),
      fun k hk => (release_eq_of_ne hji).2 (hj.event k hk),
      fun k hk => (release_eq_of_ne hji).2 (hj.inbox k hk),
      fun k hk => (release_eq_of_ne hji).2 (hj.key k hk), ?_⟩
    rintro row rfl
    obtain ⟨hid, hkey⟩ := hj.fresh row rfl
    change row.id ∉ (w.db.writeAll (w.session i).writes).tickets ∧
      ¬ (w.db.writeAll (w.session i).writes).HasKey row.idempotencyKey
    refine ⟨?_, fun hhas => hkey (hhas.of_writeAll fun wr hwr heq => hji ?_)⟩
    · rw [← AList.lookup_eq_none] at hid ⊢
      rw [Database.lookup_tickets_writeAll fun wr hwr heq => hji ?_, hid]
      exact Option.some.inj ((hj.ticket _ rfl).symm.trans ((h.writes_held i wr hwr).ticket _ heq))
    · exact Option.some.inj ((hj.key _ rfl).symm.trans ((h.writes_held i wr hwr).key _ heq))
  coherent j := by
    by_cases hji : j = i
    · subst hji
      have hsession : (w.commit j).session j = (w.session j).committed w.now := by simp [World.commit]
      rw [hsession]
      exact (h.coherent j).of_eq rfl rfl
    · simpa [World.commit, hji] using h.coherent j
  db_eq := by simp [World.commit, h.db_eq]
  broker_eq := by simp [World.commit, h.broker_eq]

theorem Act.isolated (hact : Act i w w') (h : w.Isolated) : w'.Isolated := by
  cases hact with
  | record e hthread hquiet => exact h.record hquiet
  | session s ws hwrites hheld hcoherent =>
      refine h.setSession (fun wr hwr => ?_) (hcoherent (h.coherent i))
      rw [hwrites, List.mem_append] at hwr
      exact hwr.elim (h.writes_held i wr) (hheld wr)
  | lock tickets events inbox keys htickets hevents hinbox hkeys =>
      exact h.lock htickets hevents hinbox hkeys
  | commit => exact h.commit
  | rollback =>
      exact (h.setSession (fun wr hwr => by simp at hwr) Session.coherent_empty).releaseLocks
        (by simp)

theorem Acts.isolated (hacts : Acts i w w') (h : w.Isolated) : w'.Isolated := by
  induction hacts with
  | refl => exact h
  | tail _ hact ih => exact hact.isolated ih

/-! ### Views -/

end World

/-- What a thread owns: nobody else changes it. -/
@[ext]
structure View where
  session : Session
  /-- Its own actions. -/
  actions : History
  /-- The delivery that it handles. -/
  unacked : Option (Queue × Delivery)
  /-- The committed rows of the tickets that it has locked. -/
  tickets : UUID → Option (Option Ticket)
  /-- Its own actions and the commits to a ticket, for the tickets that it has locked. -/
  focus : UUID → Option History
  /-- The committed rows of the outbox events that it has locked. -/
  events : UUID → Option (Option OutboxEvent)
  /-- The committed rows of the messages that it has claimed. -/
  claims : UUID → Option (Option ProcessedProviderMessage)

namespace World

variable {w w' : World} {i j : ℕ}

/-- The view of thread `i`. -/
def view (i : ℕ) (w : World) : View where
  session := w.session i
  actions := w.log.actions i
  unacked := w.broker.unacked i
  tickets := held w.ticketLock i fun k => w.db.tickets.lookup k
  focus := held w.ticketLock i fun k => w.log.focus i k
  events := held w.eventLock i fun k => w.db.outbox.lookup k
  claims := held w.inboxLock i fun k => w.db.inbox.lookup k

theorem not_actionOf {e : Entry} (h : e.thread ≠ j) : History.actionOf j e = false := by
  simp [History.actionOf, h]

theorem unacked_after {b : Broker} {e : Entry} (h : e.thread ≠ j) :
    (b.after e).unacked j = b.unacked j := by
  cases e with
  | received i q n d => exact Broker.unacked_receive_ne b q n d (Ne.symm h)
  | acked i => exact Broker.unacked_ack_ne b (Ne.symm h)
  | returned i => exact Broker.unacked_nack_ne b (Ne.symm h)
  | published i routingKey messageId body ok =>
      cases ok with
      | false => rfl
      | true => simp [Broker.after]
  | _ => rfl

theorem view_record_ne {e : Entry} (hthread : e.thread ≠ j)
    (hquiet : ∀ k ws, e ≠ .committed k ws) : (w.record e).view j = w.view j := by
  have hdb : w.db.after e = w.db := by
    cases e with
    | committed k ws => exact absurd rfl (hquiet k ws)
    | _ => rfl
  have htouch : ∀ t, e.touches t = false := by
    cases e with
    | committed k ws => exact absurd rfl (hquiet k ws)
    | _ => exact fun _ => rfl
  ext1 <;>
    simp [view, hdb, History.actions, History.focus, not_actionOf hthread, htouch,
      unacked_after hthread]

theorem view_setSession_ne (s : Session) (hj : j ≠ i) : (w.setSession i s).view j = w.view j := by
  ext1 <;> simp [view, hj]

theorem view_releaseLocks_ne (hj : j ≠ i) : (w.releaseLocks i).view j = w.view j := by
  ext1 <;> simp [view, releaseLocks, held_release_ne hj]

/-- A commit leaves the view of the others as it is: it writes only rows that it has locked. -/
theorem view_commit_ne (h : w.Isolated) (hj : j ≠ i) : (w.commit i).view j = w.view j := by
  have hheld := h.writes_held i
  have hkey : ∀ k, w.ticketLock k = some j → ∀ wr ∈ (w.session i).writes,
      wr.ticketKey ≠ some k := by
    intro k hk wr hwr heq
    have := (hheld wr hwr).ticket k heq
    rw [hk, Option.some.injEq] at this
    exact hj this
  rw [commit, view_releaseLocks_ne hj, view_setSession_ne _ hj]
  ext1
  · rfl
  · simp [view, History.actions, not_actionOf (e := .committed i _) hj.symm]
  · rfl
  · exact held_congr fun k hk => Database.lookup_tickets_writeAll (hkey k hk)
  · refine held_congr fun k hk => ?_
    have htouch : Entry.touches k (.committed i (w.session i).writes) = false := by
      simpa [Entry.touches] using hkey k hk
    simp [History.focus, not_actionOf (e := .committed i _) hj.symm, htouch]
  · refine held_congr fun k hk => Database.lookup_outbox_writeAll fun wr hwr hmem => ?_
    have hi := (hheld wr hwr).event k hmem
    exact hj (Option.some.inj (hk.symm.trans hi))
  · refine held_congr fun k hk => Database.lookup_inbox_writeAll fun wr hwr heq => ?_
    have hi := (hheld wr hwr).inbox k heq
    exact hj (Option.some.inj (hk.symm.trans hi))

theorem Act.frame (hact : Act i w w') (h : w.Isolated) (hj : j ≠ i) :
    w'.view j = w.view j := by
  cases hact with
  | record e hthread hquiet => exact view_record_ne (hthread ▸ hj.symm) hquiet
  | session s ws hwrites hheld hcoherent => exact view_setSession_ne s hj
  | lock tickets events inbox keys htickets hevents hinbox hkeys =>
      ext1 <;>
        simp [view, acquireLocks, held_acquire_ne htickets hj, held_acquire_ne hevents hj,
          held_acquire_ne hinbox hj]
  | commit => exact view_commit_ne h hj
  | rollback => rw [World.rollback, view_releaseLocks_ne hj, view_setSession_ne _ hj]

theorem Acts.frame (hacts : Acts i w w') (h : w.Isolated) (hj : j ≠ i) :
    w'.view j = w.view j := by
  induction hacts with
  | refl => rfl
  | tail hacts hact ih => exact (hact.frame (Acts.isolated hacts h) hj).trans ih

/-! ### Effects are made of moves -/

theorem Acts.of (hact : Act i w w') : Acts i w w' := Relation.ReflTransGen.single hact

/-- A change of the session that adds no writes. -/
theorem act_session {s : Session} (hs : s.writes = (w.session i).writes)
    (hcoherent : (w.session i).Coherent → s.Coherent) : Act i w (w.setSession i s) :=
  .session s [] (by simpa using hs) (by simp) hcoherent

theorem acts_beginTx : Acts i w (w.beginTx i c) :=
  Acts.of (act_session rfl fun h => h.of_eq rfl rfl)

theorem acts_fail : Acts i w (w.fail i) := Acts.of (act_session rfl fun h => h.of_eq rfl rfl)

theorem acts_statement {α : Type} {c : Choice} {act : World → Option (Except Exn α × World)}
    {r : Except Exn α} (hiso : w.Isolated)
    (hact : ∀ v : World, v.Isolated → act v = some (r, w') → Acts i v w')
    (h : w.statement i c act = some (r, w')) : Acts i w w' := by
  unfold statement at h
  split at h
  · cases h
    exact .refl
  · split at h
    · cases h
      exact acts_beginTx.trans acts_fail
    · exact acts_beginTx.trans (hact _ (acts_beginTx.isolated hiso) h)

theorem acts_loadRow (row : Ticket) : Acts i w (w.loadRow i row) := by
  unfold loadRow
  split
  · exact .refl
  next hnone =>
    have hwrites : ((w.session i).load row).writes = (w.session i).writes := by
      unfold Session.load
      rw [hnone]
    exact .tail (Acts.of (.record (.loaded i row.id) rfl (by simp)))
      (act_session (by simpa using hwrites) fun h => h.load row)

theorem acts_loadRows (rows : List Ticket) : Acts i w (w.loadRows i rows) := by
  induction rows generalizing w with
  | nil => exact .refl
  | cons row rows ih => exact (acts_loadRow row).trans ih

@[simp]
theorem ticketLock_loadRow (row : Ticket) : (w.loadRow i row).ticketLock = w.ticketLock := by
  unfold loadRow
  split <;> rfl

@[simp]
theorem ticketLock_loadRows (rows : List Ticket) :
    (w.loadRows i rows).ticketLock = w.ticketLock := by
  induction rows generalizing w with
  | nil => rfl
  | cons row rows ih => exact ih.trans (ticketLock_loadRow row)

@[simp]
theorem db_loadRow (row : Ticket) : (w.loadRow i row).db = w.db := by
  unfold loadRow
  split <;> rfl

@[simp]
theorem db_loadRows (rows : List Ticket) : (w.loadRows i rows).db = w.db := by
  induction rows generalizing w with
  | nil => rfl
  | cons row rows ih => exact ih.trans (db_loadRow row)

/-- Taking the locks of tickets only. -/
theorem act_lockTickets (ks : List UUID) (h : ∀ k ∈ ks, Available w.ticketLock i k) :
    Act i w { w with ticketLock := acquire w.ticketLock i ks } := by
  have := Act.lock (w := w) ks [] [] [] h (by simp) (by simp) (by simp)
  simpa [acquireLocks] using this

/-- Taking the locks of outbox rows only. -/
theorem act_lockEvents (ks : List UUID) (h : ∀ k ∈ ks, Available w.eventLock i k) :
    Act i w { w with eventLock := acquire w.eventLock i ks } := by
  have := Act.lock (w := w) [] ks [] [] (by simp) h (by simp) (by simp)
  simpa [acquireLocks] using this

/-- Taking the lock of a message only. -/
theorem act_lockInbox (ks : List UUID) (h : ∀ k ∈ ks, Available w.inboxLock i k) :
    Act i w { w with inboxLock := acquire w.inboxLock i ks } := by
  have := Act.lock (w := w) [] [] ks [] (by simp) (by simp) h (by simp)
  simpa [acquireLocks] using this

theorem acts_selectTicketForUpdate {id : UUID} {r : Except Exn (Option Ticket)}
    (h : w.selectTicketForUpdate i id = some (r, w')) : Acts i w w' := by
  unfold selectTicketForUpdate at h
  split at h
  next havailable =>
    split at h
    · cases h
      exact .refl
    next row _ =>
      cases h
      refine (acts_loadRow row).tail ?_
      have hlock : Act i (w.loadRow i row) _ :=
        act_lockTickets [id] (by simpa using havailable)
      simpa using hlock
  · cases h

theorem acts_selectTicketByKey {key : String} {r : Except Exn (Option Ticket)}
    (h : w.selectTicketByKey i key = some (r, w')) : Acts i w w' := by
  unfold selectTicketByKey at h
  split at h
  · cases h
    exact Acts.of (.record _ rfl (by simp))
  · cases h
    exact (Acts.of (.record (.looked i key _) rfl (by simp))).trans (acts_loadRow _)

theorem acts_selectStuck {olderThan : Time} {limit : ℕ} {ids : List UUID}
    {r : Except Exn (List Ticket)} (h : w.selectStuck i olderThan limit ids = some (r, w')) :
    Acts i w w' := by
  unfold selectStuck at h
  split at h
  next hbatch =>
    cases h
    have hfound : Acts i w (w.record (.found i olderThan ids)) :=
      Acts.of (.record _ rfl (by simp))
    refine hfound.trans ((acts_loadRows (ids.filterMap w.db.tickets.lookup)).tail ?_)
    have hlock : Act i ((w.record (.found i olderThan ids)).loadRows i
        (ids.filterMap w.db.tickets.lookup)) _ :=
      act_lockTickets ids fun k hk => by simpa using (hbatch.2.2.1 k hk).1
    simpa using hlock
  · cases h

theorem acts_selectPending {limit : ℕ} {ids : List UUID} {r : Except Exn (List OutboxEvent)}
    (h : w.selectPending i limit ids = some (r, w')) : Acts i w w' := by
  unfold selectPending at h
  split at h
  next hbatch =>
    cases h
    have hfetched : Acts i w (w.record (.fetched i limit ids (w.skipped i))) :=
      Acts.of (.record _ rfl (by simp))
    exact hfetched.tail (act_lockEvents ids fun k hk => (hbatch.2.2.1 k hk).1)
  · cases h

theorem acts_insertInbox {messageId : UUID} {messageType : String} {ticketId : Option UUID}
    {r : Except Exn Bool} (h : w.insertInbox i messageId messageType ticketId = some (r, w')) :
    Acts i w w' := by
  unfold insertInbox at h
  split at h
  next havailable =>
    split at h
    · cases h
      exact .refl
    · cases h
      refine .tail (Acts.of (act_lockInbox [messageId] (by simpa using havailable))) ?_
      refine .session _ [.insertInbox _] rfl (fun wr hwr => ?_) fun h => h.of_eq rfl rfl
      obtain rfl := List.mem_singleton.mp hwr
      exact ⟨by simp [Write.ticketKey], by simp [Write.eventKeys],
        by simp [Write.inboxKey, acquire], by simp [Write.uniqueKey], by simp⟩
  · cases h

theorem acts_updateEvents {wr : Write} {r : Except Exn Unit}
    (hticket : wr.ticketKey = none) (hinbox : wr.inboxKey = none) (hkey : wr.uniqueKey = none)
    (h : w.updateEvents i wr = some (r, w')) : Acts i w w' := by
  unfold updateEvents at h
  split at h
  next havailable =>
    split at h
    · cases h
      exact acts_fail
    · cases h
      refine .tail (Acts.of (act_lockEvents wr.eventKeys havailable)) ?_
      refine .session _ [wr] rfl (fun wr' hwr' => ?_) fun h => h.of_eq rfl rfl
      obtain rfl := List.mem_singleton.mp hwr'
      exact ⟨by simp [hticket], by simp +contextual [acquire], by simp [hinbox], by simp [hkey],
        fun row hrow => by simp [hrow, Write.ticketKey] at hticket⟩
  · cases h

/-- Transaction `i` takes the locks that the statements of a flush need. -/
def lockWrites (w : World) (i : ℕ) (ws : List Write) : World :=
  w.acquireLocks i (ws.filterMap Write.ticketKey) (ws.flatMap Write.eventKeys) []
    (ws.filterMap Write.uniqueKey)

theorem holds_lockWrites {ws : List Write} (hinbox : ∀ wr ∈ ws, wr.inboxKey = none)
    (hfresh : ∀ row, .insertTicket row ∈ ws →
      row.id ∉ w.db.tickets ∧ ¬ w.db.HasKey row.idempotencyKey) :
    ∀ wr ∈ ws, (w.lockWrites i ws).Holds i wr := by
  intro wr hwr
  refine ⟨fun k hk => ?_, fun k hk => ?_, by simp [hinbox wr hwr], fun k hk => ?_,
    fun row hrow => hfresh row (hrow ▸ hwr)⟩
  · exact acquire_of_mem (List.mem_filterMap.mpr ⟨wr, hwr, hk⟩)
  · exact acquire_of_mem (List.mem_flatMap.mpr ⟨wr, hwr, hk⟩)
  · exact acquire_of_mem (List.mem_filterMap.mpr ⟨wr, hwr, hk⟩)

theorem inboxKey_flushWrites {s : Session} : ∀ wr ∈ s.flushWrites, wr.inboxKey = none := by
  intro wr hwr
  rcases List.mem_append.mp hwr with hwr | hwr
  · obtain ⟨inst, -, hinst⟩ := List.mem_filterMap.mp hwr
    simp only [Instance.update] at hinst
    split at hinst <;> cases hinst
    rfl
  · obtain ⟨o, -, rfl⟩ := List.mem_map.mp hwr
    cases o <;> rfl

/-- A ticket that does not conflict with what the transaction sees is new. -/
theorem Isolated.fresh_of_visible (h : w.Isolated) {row : Ticket}
    (hrow : ¬ (Write.insertTicket row).Conflicts (w.visible i)) :
    row.id ∉ w.db.tickets ∧ ¬ w.db.HasKey row.idempotencyKey := by
  simp only [Write.Conflicts, not_or] at hrow
  refine ⟨fun hid => hrow.1 (Database.mem_tickets_writeAll _ hid), fun hkey => hrow.2.1 ?_⟩
  obtain ⟨id, r, hr, hr'⟩ := hkey.writeAll fun row' hrow' =>
    ((h.writes_held i _ hrow').fresh row' rfl).1
  exact ⟨r, Table.mem_rows.mpr ⟨id, hr⟩, hr'⟩

theorem acts_flush {r : Except Exn Unit} (hiso : w.Isolated)
    (h : w.flush i = some (r, w')) : Acts i w w' := by
  unfold flush at h
  dsimp only at h
  split at h
  next havailable =>
    obtain ⟨htickets, hevents, hkeys⟩ := havailable
    split at h
    · cases h
      exact acts_fail
    · split at h
      · cases h
        exact acts_fail
      next hconflict =>
        cases h
        have hlocked : Act i w (w.lockWrites i (w.session i).flushWrites) :=
          .lock _ _ [] _ htickets hevents (by simp) hkeys
        refine .tail (Acts.of hlocked) ?_
        have hact : Act i (w.lockWrites i (w.session i).flushWrites) _ :=
          .session (w.session i).flushed (w.session i).flushWrites rfl
            (holds_lockWrites inboxKey_flushWrites fun row hrow =>
              hiso.fresh_of_visible fun hrow' => hconflict ⟨_, hrow, hrow'⟩)
            Session.Coherent.flushed
        simpa [lockWrites, acquireLocks, setSession] using hact
  · cases h

theorem acts_call {c : Choice} {entry : Option String → Entry} {exn : String → Exn} {r : Except Exn Unit}
    (hthread : ∀ error, (entry error).thread = i)
    (hquiet : ∀ error j ws, entry error ≠ .committed j ws)
    (h : w.call c entry exn = some (r, w')) : Acts i w w' := by
  unfold call at h
  split at h
  · cases h
    exact Acts.of (.record _ (hthread _) (hquiet _))
  · cases h
    exact Acts.of (.record _ (hthread _) (hquiet _))
  · cases h

/-- Every effect of thread `i` is a sequence of its moves. -/
theorem exec_acts {e : Effect} {c : Choice} {r : e.Result} (hiso : w.Isolated)
    (h : e.exec i c w = some (r, w')) : Acts i w w' := by
  cases e with
  | utcNow | readAttribute id =>
      obtain ⟨-, -, heq⟩ := Option.map_eq_some_iff.mp h
      cases heq
      exact .refl
  | uuid4 =>
      obtain ⟨u, -, heq⟩ := Option.map_eq_some_iff.mp h
      cases heq
      exact .refl
  | selectTicketForUpdate id => exact acts_statement hiso (fun _ _ => acts_selectTicketForUpdate) h
  | selectTicketByKey key => exact acts_statement hiso (fun _ _ => acts_selectTicketByKey) h
  | selectStuck olderThan limit =>
      simp only [Effect.exec] at h
      refine acts_statement hiso (fun v _ hv => ?_) h
      obtain ⟨ids, -, hids⟩ := Option.bind_eq_some_iff.mp hv
      exact acts_selectStuck hids
  | selectPending limit =>
      simp only [Effect.exec] at h
      refine acts_statement hiso (fun v _ hv => ?_) h
      obtain ⟨ids, -, hids⟩ := Option.bind_eq_some_iff.mp hv
      exact acts_selectPending hids
  | insertInbox messageId messageType ticketId =>
      exact acts_statement hiso (fun _ _ => acts_insertInbox) h
  | updatePublished ids publishedAt =>
      exact acts_statement hiso (fun _ _ => acts_updateEvents rfl rfl rfl) h
  | updateFailed id error => exact acts_statement hiso (fun _ _ => acts_updateEvents rfl rfl rfl) h
  | assign t =>
      obtain ⟨-, -, heq⟩ := Option.map_eq_some_iff.mp h
      cases heq
      refine Acts.of (act_session ?_ fun h => h.assign t)
      unfold Session.assign
      split <;> rfl
  | add object =>
      obtain ⟨-, -, heq⟩ := Option.map_eq_some_iff.mp h
      cases heq
      exact Acts.of (act_session rfl fun h => h.of_eq rfl rfl)
  | flush =>
      simp only [Effect.exec] at h
      split at h
      · cases h
        exact .refl
      · exact acts_statement hiso (fun _ => acts_flush) h
  | commit =>
      simp only [Effect.exec] at h
      split at h
      · cases h
        exact .refl
      · split at h
        · cases h
          exact Acts.of .commit
        · cases h
          exact acts_fail
        · cases h
  | rollback =>
      obtain ⟨-, -, heq⟩ := Option.map_eq_some_iff.mp h
      cases heq
      exact Acts.of .rollback
  | processTicket id action reason =>
      exact acts_call (fun _ => rfl) (fun _ _ _ => by simp) h
  | publish routingKey messageId body =>
      exact acts_call (fun _ => rfl) (fun _ _ _ => by simp) h
  | receive q =>
      obtain ⟨n, -, hn⟩ := Option.bind_eq_some_iff.mp h
      simp only [receive] at hn
      split at hn
      · cases hn
        exact Acts.of (.record _ rfl (by simp))
      · cases hn
  | ack | nack | countTransition fromStatus toStatus | request key r | respond result =>
      obtain ⟨-, -, heq⟩ := Option.map_eq_some_iff.mp h
      cases heq
      exact Acts.of (.record _ rfl (by simp))
  | send m =>
      simp only [Effect.exec, send] at h
      split at h <;> cases h <;> exact Acts.of (.record _ rfl (by simp))
  | sendAck messageId => exact acts_call (fun _ => rfl) (fun _ _ _ => by simp) h

/-- A crash is a sequence of moves of the thread that dies. -/
theorem crash_acts : Acts i w (w.crash i) := by
  unfold crash
  dsimp only
  split
  · exact .tail (Acts.of .rollback) (.record _ rfl (by simp))
  · exact Acts.of .rollback

end World

end RiskProvider

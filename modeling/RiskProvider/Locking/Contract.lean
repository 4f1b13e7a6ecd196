import RiskProvider.Conformance
import RiskProvider.Fulfilment
import RiskProvider.Interleaving.LockOrder

/-!
# Locks and the order in which they are taken

An effect waits (`Effect.locks`, `exec_eq_none_iff`) while another transaction has locked an inbox
key, a ticket row, an idempotency key or an outbox row that it needs; the selects with `SKIP LOCKED`
wait for nothing. `Holdings` is what a transaction has locked, and `ordered` is the contract that it
waits for a lock only while it holds none of the same or a higher `Lock.level`: inbox keys come
first, then ticket rows and idempotency keys, then outbox rows.
-/

namespace RiskProvider

open Interleaving

/-! ### Waiting -/

/-- The locks of the database that transactions hold until they end. -/
inductive Lock where
  /-- The row of a ticket. -/
  | ticket (id : UUID)
  /-- The row of an outbox event. -/
  | event (id : UUID)
  /-- The inbox row of a message. -/
  | message (id : UUID)
  /-- The idempotency key of a new ticket. -/
  | key (key : String)
deriving DecidableEq

namespace Lock

/-- The level of a lock: locks are waited for in the order of their levels. -/
def level : Lock → ℕ
  | message _ => 0
  | ticket _ | key _ => 1
  | event _ => 2

/-- The transaction that holds a lock. -/
def holder (w : World) : Lock → Option ℕ
  | .ticket id => w.ticketLock id
  | .event id => w.eventLock id
  | .message id => w.inboxLock id
  | .key k => w.keyLock k

end Lock

/-- The locks that a write of a flush needs. -/
def Write.locks (wr : Write) : List Lock :=
  wr.ticketKey.toList.map .ticket ++ wr.eventKeys.map .event ++ wr.uniqueKey.toList.map .key

/-- The locks that an effect needs before it can go on. -/
def Effect.locks (s : Session) : Effect → List Lock
  | selectTicketForUpdate id => [.ticket id]
  | insertInbox messageId _ _ => [.message messageId]
  | updatePublished ids _ => ids.map .event
  | updateFailed id _ => [.event id]
  | flush => s.flushWrites.flatMap Write.locks
  | _ => []

/-- Thread `i` cannot go on without the lock `l`. A session of which a statement has failed sends
none to the database. -/
def System.Waits (s : System) (i : ℕ) (l : Lock) : Prop :=
  ∃ e cont, s.threads i = .perform e cont ∧ (s.world.session i).failed = false ∧
    l ∈ e.locks (s.world.session i) ∧ l.holder s.world ≠ some i

/-- Thread `i` holds the lock `l`. -/
def System.Holds (s : System) (i : ℕ) (l : Lock) : Prop := l.holder s.world = some i

/-- Transaction `i` waits for a lock that transaction `j` holds. -/
abbrev System.WaitsFor (s : System) : ℕ → ℕ → Prop := Interleaving.WaitsFor s.Waits s.Holds

theorem available_iff {κ : Type} {lock : κ → Option ℕ} {i : ℕ} {k : κ} :
    Available lock i k ↔ ∀ j, lock k = some j → j = i := by
  unfold Available
  cases lock k <;> simp [eq_comm]

section Flush

variable {s : Session} {ws : List Write}

theorem ticket_mem_locks {id : UUID} :
    .ticket id ∈ ws.flatMap Write.locks ↔ id ∈ ws.filterMap Write.ticketKey := by
  simp [Write.locks]

theorem event_mem_locks {id : UUID} :
    .event id ∈ ws.flatMap Write.locks ↔ id ∈ ws.flatMap Write.eventKeys := by
  simp [Write.locks]

theorem key_mem_locks {key : String} :
    .key key ∈ ws.flatMap Write.locks ↔ key ∈ ws.filterMap Write.uniqueKey := by
  simp [Write.locks]

theorem message_not_mem_locks {id : UUID} : .message id ∉ ws.flatMap Write.locks := by
  simp [Write.locks]

theorem locks_update {inst : Instance} (now : Time) {l : Lock}
    (h : l ∈ (inst.update now).toList.flatMap Write.locks) : l = .ticket inst.loaded.id := by
  unfold Instance.update at h
  dsimp only at h
  split at h
  · cases h
  · simpa [Write.locks, Write.ticketKey, Write.eventKeys, Write.uniqueKey] using h

/-- The locks that a flush needs do not depend on when the transaction has begun. -/
theorem Session.locks_flushWrites_beginTx (s : Session) (now : Time) :
    (s.beginTx now).flushWrites.flatMap Write.locks = s.flushWrites.flatMap Write.locks := by
  have hupdate : ∀ (insts : List Instance) (now now' : Time),
      (insts.filterMap (·.update now)).flatMap Write.locks =
        (insts.filterMap (·.update now')).flatMap Write.locks := by
    intro insts now now'
    induction insts with
    | nil => rfl
    | cons inst insts ih =>
        by_cases hdiff : inst.loaded.diff inst.attrs = {}
        · simpa [Instance.update, hdiff] using ih
        · simpa [Instance.update, hdiff, Write.locks, Write.ticketKey, Write.eventKeys,
            Write.uniqueKey] using ih
  have hinsert : ∀ (objects : List NewObject) (now now' : Time),
      (objects.map (·.insert now)).flatMap Write.locks =
        (objects.map (·.insert now')).flatMap Write.locks := by
    intro objects now now'
    induction objects with
    | nil => rfl
    | cons o objects ih => cases o <;> simpa [NewObject.insert, Write.locks, Write.ticketKey,
        Write.eventKeys, Write.uniqueKey] using ih
  simp only [Session.flushWrites, List.flatMap_append]
  exact congrArg₂ (· ++ ·) (hupdate _ _ _) (hinsert _ _ _)

/-- A flush locks the tickets that have changed, and the new tickets and events. -/
theorem mem_locks_flush {l : Lock} (h : l ∈ Effect.flush.locks s) :
    (∃ inst ∈ s.dirtyInstances, l = .ticket inst.loaded.id) ∨
      (∃ row, .ticket row ∈ s.added ∧ (l = .ticket row.id ∨ l = .key row.idempotencyKey)) ∨
      ∃ row, .event row ∈ s.added ∧ l = .event row.id := by
  obtain ⟨wr, hwr, hl⟩ := List.mem_flatMap.mp h
  rcases List.mem_append.mp hwr with hwr | hwr
  · obtain ⟨inst, hinst, hupdate⟩ := List.mem_filterMap.mp hwr
    exact .inl ⟨inst, hinst, locks_update s.startedAt (by simpa [hupdate] using hl)⟩
  · obtain ⟨o, ho, rfl⟩ := List.mem_map.mp hwr
    cases o with
    | ticket row =>
        refine .inr (.inl ⟨row, ho, ?_⟩)
        simpa [Write.locks, NewObject.insert, Write.ticketKey, Write.eventKeys,
          Write.uniqueKey] using hl
    | event row =>
        refine .inr (.inr ⟨row, ho, ?_⟩)
        simpa [Write.locks, NewObject.insert, Write.ticketKey, Write.eventKeys,
          Write.uniqueKey] using hl

end Flush

theorem statement_succeed {α : Type} {w : World} {i : ℕ}
    {act : World → Option (Except Exn α × World)} (hlive : (w.session i).failed = false) :
    w.statement i .succeed act = act (w.beginTx i .succeed) := by
  simp [World.statement, hlive]

/-- A flush waits for its locks. -/
theorem flush_eq_none_iff {w : World} {i : ℕ} :
    w.flush i = none ↔
      ¬ ∀ l ∈ (w.session i).flushWrites.flatMap Write.locks, ∀ j, l.holder w = some j → j = i := by
  have hkeys : (∀ l ∈ (w.session i).flushWrites.flatMap Write.locks,
        ∀ j, l.holder w = some j → j = i) ↔
      (∀ id ∈ (w.session i).flushWrites.filterMap Write.ticketKey, Available w.ticketLock i id) ∧
      (∀ id ∈ (w.session i).flushWrites.flatMap Write.eventKeys, Available w.eventLock i id) ∧
      ∀ key ∈ (w.session i).flushWrites.filterMap Write.uniqueKey, Available w.keyLock i key := by
    simp only [available_iff, ← ticket_mem_locks, ← event_mem_locks, ← key_mem_locks]
    refine ⟨fun h => ⟨fun id => h (.ticket id), fun id => h (.event id), fun k => h (.key k)⟩, ?_⟩
    rintro ⟨htickets, hevents, hkeys⟩ (id | id | id | key) hl
    · exact htickets id hl
    · exact hevents id hl
    · exact absurd hl message_not_mem_locks
    · exact hkeys key hl
  rw [hkeys]
  unfold World.flush
  dsimp only
  split
  next havailable =>
    refine ⟨fun h => ?_, fun h => absurd havailable h⟩
    split at h
    · cases h
    · split at h <;> cases h
  next havailable => exact ⟨fun _ => havailable, fun _ => rfl⟩

/-- An effect that needs locks waits exactly while one of them is held by another transaction. -/
theorem exec_eq_none_iff {e : Effect} {i : ℕ} {w : World} (hlive : (w.session i).failed = false)
    (hlocks : e.locks (w.session i) ≠ []) :
    e.exec i .succeed w = none ↔
      ∃ l ∈ e.locks (w.session i), ∃ j, l.holder w = some j ∧ j ≠ i := by
  have hfree : ∀ ls : List Lock, (∃ l ∈ ls, ∃ j, l.holder w = some j ∧ j ≠ i) ↔
      ¬ ∀ l ∈ ls, ∀ j, l.holder w = some j → j = i := by
    intro ls
    push Not
    rfl
  rw [hfree]
  cases e with
  | selectTicketForUpdate id =>
      simp only [Effect.exec, statement_succeed hlive, World.selectTicketForUpdate, available_iff,
        Effect.locks, List.mem_singleton, forall_eq]
      split
      next havailable =>
        refine ⟨fun h => ?_, fun h => absurd havailable h⟩
        split at h <;> cases h
      next havailable => exact ⟨fun _ => havailable, fun _ => rfl⟩
  | insertInbox messageId messageType ticketId =>
      simp only [Effect.exec, statement_succeed hlive, World.insertInbox, available_iff,
        Effect.locks, List.mem_singleton, forall_eq]
      split
      next havailable =>
        refine ⟨fun h => ?_, fun h => absurd havailable h⟩
        split at h <;> cases h
      next havailable => exact ⟨fun _ => havailable, fun _ => rfl⟩
  | updatePublished ids publishedAt =>
      simp only [Effect.exec, statement_succeed hlive, World.updateEvents, available_iff,
        Effect.locks, List.forall_mem_map, Write.eventKeys]
      split
      next havailable =>
        refine ⟨fun h => ?_, fun h => absurd havailable h⟩
        split at h <;> cases h
      next havailable => exact ⟨fun _ => havailable, fun _ => rfl⟩
  | updateFailed id error =>
      simp only [Effect.exec, statement_succeed hlive, World.updateEvents, available_iff,
        Effect.locks, List.mem_singleton, forall_eq, Write.eventKeys]
      split
      next havailable =>
        refine ⟨fun h => ?_, fun h => absurd havailable h⟩
        split at h <;> cases h
      next havailable => exact ⟨fun _ => havailable, fun _ => rfl⟩
  | flush =>
      have hpending : ¬ ((w.session i).dirty = [] ∧ (w.session i).added.isEmpty) := by
        rintro ⟨hdirty, hadded⟩
        refine hlocks ?_
        simp [Effect.locks, Session.flushWrites, Session.dirtyInstances, hdirty,
          List.isEmpty_iff.mp hadded]
      simp only [Effect.exec, if_neg hpending, statement_succeed hlive, flush_eq_none_iff]
      simp only [World.beginTx, World.session_setSession_self, Session.locks_flushWrites_beginTx]
      rfl
  | _ => exact absurd rfl hlocks

/-! ### The contract -/

/-- What a transaction has locked, and what its session has still to insert. -/
structure Holdings where
  /-- The tickets of which it has locked the rows. -/
  tickets : List UUID := []
  /-- It has locked an outbox row. -/
  events : Bool := false
  /-- It has locked an inbox key. -/
  message : Bool := false
  /-- It has locked an idempotency key. -/
  key : Bool := false
  /-- The objects added since the last flush. -/
  added : List NewObject := []

namespace NewObject

/-- The ticket that an object adds. -/
def ticket? : NewObject → Option Ticket
  | ticket row => some row
  | event _ => none

/-- The event that an object adds. -/
def event? : NewObject → Option OutboxEvent
  | ticket _ => none
  | event row => some row

end NewObject

namespace Holdings

/-- What is locked after an effect that has returned a value. -/
def after (H : Holdings) : (e : Effect) → e.Value → Holdings
  | .selectTicketForUpdate id, some _ => { H with tickets := id :: H.tickets }
  | .selectStuck _ _, stuck => { H with tickets := stuck.map (·.id) ++ H.tickets }
  | .selectPending _, _ | .updatePublished _ _, _ | .updateFailed _ _, _ =>
      { H with events := true }
  | .insertInbox _ _ _, claimed => { H with message := H.message || claimed }
  | .add o, _ => { H with added := H.added ++ [o] }
  | .flush, _ =>
      { H with
        tickets := (H.added.filterMap NewObject.ticket?).map (·.id) ++ H.tickets
        events := H.events || (H.added.filterMap NewObject.event?).isEmpty.not
        key := H.key || (H.added.filterMap NewObject.ticket?).isEmpty.not
        added := [] }
  | .commit, _ => { added := H.added }
  | _, _ => H

/-- Neither tickets, nor idempotency keys, nor events are locked. -/
def Free (H : Holdings) : Prop := H.tickets = [] ∧ H.key = false ∧ H.events = false

/-- The transaction may go on with an effect. -/
def May (H : Holdings) : Effect → Prop
  | .selectTicketForUpdate id => id ∈ H.tickets ∨ H.Free
  | .insertInbox _ _ _ => H.Free ∧ H.message = false
  | .flush => (H.added.filterMap NewObject.ticket? ≠ [] → H.Free) ∧
      (H.added.filterMap NewObject.event? ≠ [] → H.events = false)
  | _ => True

end Holdings

/-- The effect is a statement or a commit: when it raises, the transaction has failed. -/
def Effect.isStatement : Effect → Bool
  | selectTicketForUpdate _ | selectTicketByKey _ | selectStuck _ _ | selectPending _
  | insertInbox _ _ _ | updatePublished _ _ | updateFailed _ _ | flush | commit => true
  | _ => false

/-- The exceptions that an effect may raise. -/
def Effect.Raises : Effect → Exn → Prop
  | utcNow, _ | uuid4, _ | assign _, _ | add _, _ | countTransition _ _, _ | receive _, _ | ack, _
  | nack, _ | request _ _, _ | respond _, _ => False
  | processTicket _ _ _, x => ∃ text, x = .monolithError text
  | _, _ => True

/-- The contract of transactions that lock in the order of levels. The local state is `none` from
the failure of a statement to the rollback. -/
def ordered : Undertaking (Option Holdings) where
  may σ e := ∀ H ∈ σ, H.May e
  next
    | _, .rollback, _, σ' => σ' = some {}
    | σ, e, .ok a, σ' => σ' = σ.map (·.after e a)
    | σ, e, .error x, σ' => e.Raises x ∧ σ' = if e.isStatement then none else σ

end RiskProvider

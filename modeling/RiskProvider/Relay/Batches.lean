import RiskProvider.Executions
import RiskProvider.Relay.Events

/-!
# The relay

A batch holds the events that its select has returned until its transaction ends, and no two
batches hold the same event (`System.InBatch.eventLock`). `relay_invariant` puts this together
with the accounts of the events.
-/

namespace RiskProvider

open Interleaving

/-! ### Locks of events -/

namespace World

variable {w w' : World} {i : ℕ} {c : Choice} {id : UUID} {α : Type}

theorem eventLock_statement {act : World → Option (Except Exn α × World)} {r : Except Exn α}
    (hact : ∀ v : World, v.eventLock id = some i → act v = some (r, w') → w'.eventLock id = some i)
    (hlock : w.eventLock id = some i) (h : w.statement i c act = some (r, w')) :
    w'.eventLock id = some i := by
  unfold statement at h
  split at h
  · cases h
    exact hlock
  · split at h
    · cases h
      exact hlock
    · exact hact (w.beginTx i c) hlock h

@[simp]
theorem eventLock_loadRow (row : Ticket) : (w.loadRow i row).eventLock = w.eventLock := by
  unfold loadRow
  split <;> rfl

@[simp]
theorem eventLock_loadRows (rows : List Ticket) : (w.loadRows i rows).eventLock = w.eventLock := by
  induction rows generalizing w with
  | nil => rfl
  | cons row rows ih => exact ih.trans (eventLock_loadRow row)

theorem eventLock_call {entry : Option String → Entry} {exn : String → Exn} {r : Except Exn Unit}
    (h : w.call c entry exn = some (r, w')) : w'.eventLock = w.eventLock := by
  unfold call at h
  split at h <;> cases h <;> rfl

/-- A transaction gives an event back only where it ends. -/
theorem eventLock_exec {e : Effect} {r : e.Result} (hcommit : e ≠ .commit)
    (hrollback : e ≠ .rollback) (hlock : w.eventLock id = some i)
    (h : e.exec i c w = some (r, w')) : w'.eventLock id = some i := by
  have hacquire : ∀ {v : World} {ks}, v.eventLock id = some i →
      acquire v.eventLock i ks id = some i := fun hv => by
    unfold acquire
    split
    · rfl
    · exact hv
  cases e with
  | commit => exact absurd rfl hcommit
  | rollback => exact absurd rfl hrollback
  | utcNow | assign | add | ack | nack | countTransition | request | respond =>
      obtain ⟨-, -, h⟩ := Option.map_eq_some_iff.mp h
      cases h
      exact hlock
  | uuid4 =>
      obtain ⟨u, -, h⟩ := Option.map_eq_some_iff.mp h
      cases h
      exact hlock
  | readAttribute k =>
      obtain ⟨-, -, h⟩ := Option.map_eq_some_iff.mp h
      obtain ⟨-, rfl⟩ := Prod.mk.inj h
      exact hlock
  | selectTicketForUpdate k =>
      simp only [Effect.exec] at h
      refine eventLock_statement (fun v hv hact => ?_) hlock h
      unfold selectTicketForUpdate at hact
      split at hact
      · split at hact <;> cases hact
        · exact hv
        · simpa using hv
      · cases hact
  | selectTicketByKey key =>
      simp only [Effect.exec] at h
      refine eventLock_statement (fun v hv hact => ?_) hlock h
      unfold selectTicketByKey at hact
      split at hact <;> cases hact
      · exact hv
      · simpa using hv
  | selectStuck olderThan limit =>
      simp only [Effect.exec] at h
      refine eventLock_statement (fun v hv hact => ?_) hlock h
      obtain ⟨ids, -, hact⟩ := Option.bind_eq_some_iff.mp hact
      unfold selectStuck at hact
      split at hact
      · cases hact
        simpa using hv
      · cases hact
  | selectPending limit =>
      simp only [Effect.exec] at h
      refine eventLock_statement (fun v hv hact => ?_) hlock h
      obtain ⟨ids, -, hact⟩ := Option.bind_eq_some_iff.mp hact
      unfold selectPending at hact
      split at hact
      · cases hact
        exact hacquire hv
      · cases hact
  | insertInbox messageId messageType ticketId =>
      simp only [Effect.exec] at h
      refine eventLock_statement (fun v hv hact => ?_) hlock h
      unfold insertInbox at hact
      split at hact
      · split at hact <;> cases hact <;> exact hv
      · cases hact
  | updatePublished | updateFailed =>
      simp only [Effect.exec] at h
      refine eventLock_statement (fun v hv hact => ?_) hlock h
      unfold updateEvents at hact
      split at hact
      · split at hact <;> cases hact
        · exact hv
        · exact hacquire hv
      · cases hact
  | flush =>
      simp only [Effect.exec] at h
      split at h
      · cases h
        exact hlock
      refine eventLock_statement (fun v hv hact => ?_) hlock h
      unfold flush at hact
      dsimp only at hact
      split at hact
      · split at hact
        · cases hact
          exact hv
        · split at hact <;> cases hact
          · exact hv
          · exact hacquire hv
      · cases hact
  | processTicket | publish | sendAck =>
      rw [eventLock_call h]
      exact hlock
  | receive q =>
      obtain ⟨n, -, h⟩ := Option.bind_eq_some_iff.mp h
      unfold receive at h
      split at h <;> cases h
      exact hlock
  | send m =>
      simp only [Effect.exec, send] at h
      split at h <;> cases h <;> exact hlock

end World

/-! ### Open batches -/

section General

variable [Codecs] {s s' : System} {i j : ℕ} {id : UUID}

/-- The step ends the transaction of thread `i`, or kills the thread. -/
def System.Ends (s : System) (i : ℕ) : Label Choice Invocation ℕ → Prop
  | .crash j => j = i
  | .run j _ => j = i ∧ ∃ next, s.threads i = .perform .commit next ∨
      s.threads i = .perform .rollback next
  | _ => False

/-- Thread `i` has fetched event `id` in a batch that is still open. -/
inductive System.InBatch (i : ℕ) (id : UUID) : System → Prop
  | fetched {s s' : System} {limit next c rows} (hs : s.Reachable)
      (hthread : s.threads i = .perform (.selectPending limit) next)
      (hstep : machine.step s (.run i c) = some s')
      (hexec : machine.exec i (.selectPending limit) c s.world = some (.ok rows, s'.world))
      (hrow : id ∈ rows.map OutboxEvent.id) : InBatch i id s'
  | stays {s s' : System} {label} (h : InBatch i id s) (hstep : machine.step s label = some s')
      (hopen : ¬ s.Ends i label) : InBatch i id s'

omit [Codecs] in
/-- A fetched event is locked. -/
theorem World.eventLock_of_fetched {w w' : World} {c : Choice} {limit : ℕ} {rows : List OutboxEvent}
    (hiso : w.Isolated) (h : (Effect.selectPending limit).exec i c w = some (.ok rows, w'))
    (hrow : id ∈ rows.map OutboxEvent.id) : w'.eventLock id = some i := by
  simp only [Effect.exec, statement] at h
  split at h
  · cases h
  · split at h
    · cases h
    obtain ⟨ids, -, h⟩ := Option.bind_eq_some_iff.mp h
    unfold selectPending at h
    split at h
    · cases h
      obtain ⟨row, hmem, rfl⟩ := List.mem_map.mp hrow
      obtain ⟨id, hid, hlookup⟩ := List.mem_filterMap.mp hmem
      have hkeyed := (hiso.db_eq ▸ w.log.keyed_database.outbox) id row hlookup
      rw [hkeyed]
      exact acquire_of_mem hid
    · cases h

/-- The batch of thread `i` holds the lock of the event. -/
theorem System.InBatch.eventLock (h : s.InBatch i id) :
    s.Reachable ∧ s.world.eventLock id = some i := by
  induction h with
  | @fetched s s' limit next c rows hs hthread hstep hexec hrow =>
      exact ⟨hs.tail ⟨⟨_, hstep⟩, trivial⟩, World.eventLock_of_fetched (isolated hs) hexec hrow⟩
  | @stays s s' label h hstep hopen ih =>
      obtain ⟨hs, hlock⟩ := ih
      refine ⟨hs.tail ⟨⟨_, hstep⟩, trivial⟩, ?_⟩
      -- what another thread does leaves the view of thread `i` as it is
      have hframe : ∀ {k w}, World.Acts k s.world w → k ≠ i → w.eventLock id = some i := by
        intro k w hacts hk
        have hview := hacts.frame (isolated hs) hk.symm
        exact World.eventLock_of_view hview ⟨_, World.view_events.mpr ⟨hlock, rfl⟩⟩
      cases label with
      | start h =>
          simp only [Machine.step, Option.some.injEq] at hstep
          exact hstep ▸ hlock
      | environment x =>
          simp only [Machine.step, Option.some.injEq] at hstep
          exact hstep ▸ hlock
      | crash k =>
          have hk : k ≠ i := hopen
          cases hthread : s.threads k with
          | done a => simp [Machine.step, hthread] at hstep
          | perform e next =>
              simp only [Machine.step, hthread, Option.some.injEq] at hstep
              exact hstep ▸ hframe World.crash_acts hk
      | run k c =>
          cases hthread : s.threads k with
          | done a => simp [Machine.step, hthread] at hstep
          | perform e next =>
              simp only [Machine.step, hthread, Option.map_eq_some_iff] at hstep
              obtain ⟨⟨r, w⟩, hexec, rfl⟩ := hstep
              by_cases hk : k = i
              · subst hk
                refine World.eventLock_exec ?_ ?_ hlock hexec
                · rintro rfl
                  exact hopen ⟨rfl, next, .inl hthread⟩
                · rintro rfl
                  exact hopen ⟨rfl, next, .inr hthread⟩
              · exact hframe (World.exec_acts (isolated hs) hexec) hk

/-- In every reachable state: the rows of the outbox account for the publishes of their events;
an event that is published was pending; no event is deleted; and no event is in two open
batches. -/
theorem relay_invariant (h : s.Reachable) :
    (∀ id row, s.world.db.outbox.lookup id = some row → row.Accounted s.world.log) ∧
    (∀ (l l' : History) j id body ok row, l <:+ l' →
      (.published j topology.providerOutRoutingKey id body ok :: l') <:+ s.world.log →
      l.database.outbox.lookup id = some row → row.status = .pending) ∧
    (∀ (l : History) id row, l <:+ s.world.log → l.database.outbox.lookup id = some row →
      ∃ row', s.world.db.outbox.lookup id = some row' ∧ row.Same row') ∧
    ∀ i j id, s.InBatch i id → s.InBatch j id → i = j := by
  have hl := h.conforms
  rw [(System.isolated h).db_eq]
  refine ⟨fun id row hrow => (hl.accounted id).2 row hrow, ?_,
    fun l id row hsuffix hrow => hl.event_kept hsuffix hrow, fun i j id hi hj => ?_⟩
  · intro l l' j id body ok row hle hsuffix hrow
    have hl' := hl.of_suffix_history ((List.suffix_cons _ _).trans hsuffix)
    obtain ⟨row', hrow', hpending, -⟩ := hl.pending_of_published hsuffix
    by_contra hstatus
    rw [hl'.published_kept hle hrow hstatus, Option.some.injEq] at hrow'
    exact hstatus (hrow' ▸ hpending)
  · have hlock := hi.eventLock.2.symm.trans hj.eventLock.2
    exact Option.some.inj hlock

end General

open Script in
/-- The first publish of event 3 fails, the second one succeeds. -/
theorem relay_invariant_retried : ∃ (s : System) (row : OutboxEvent), s.Reachable ∧
    s.world.db.outbox.lookup 3 = some row ∧ row.Accounted s.world.log ∧
    row.status = .published ∧ row.attempts = 1 := by
  obtain ⟨s, hs, hst⟩ := System.exists_reaches (s := System.initial) anyEntry
    ([.start (.createTicket "k" sampleRequest)] ++ runs 0 (create 1 2 3) ++
      [.start (.sendBatch 10)] ++ runs 1 (.rows [3] :: .raises "unreachable" :: ok 3) ++
      [.start (.sendBatch 10)] ++ runs 2 (relay [3]))
    (fun s => (s.world.db.outbox.lookup 3).any fun row =>
      row.status = .published ∧ row.attempts = 1) (by decide +kernel)
  simp only [Option.any_eq_true, decide_eq_true_eq] at hst
  obtain ⟨row, hrow, hstatus, hattempts⟩ := hst
  exact ⟨s, row, hs.run, hrow, (relay_invariant hs.run).1 3 row hrow, hstatus, hattempts⟩

end RiskProvider

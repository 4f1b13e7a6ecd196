import RiskProvider.Sequential.Settlement

/-!
# Batches of the reconciler

All tickets of a batch share one session, and nothing rolls it back after a database error. After a
failed select or commit every later ticket of the batch fails as well; after a failed flush the loop
cannot even log which ticket has failed, and the tick ends. `Isolates` is what the `try` around each
ticket is for; it holds exactly when no ticket outside the failing ones comes after one of them
(`recoverStuckTickets_isolates_iff`).

* `recoverOutcomes`: the tick, returning what it has done.
-/

namespace RiskProvider

open Interleaving

section General

variable [Codecs]

/-! ### Outcomes -/

/-- What a tick has done. -/
structure Tick where
  /-- The tickets of its batch. -/
  batch : List UUID
  /-- What has become of the tickets that it has tried. -/
  outcomes : List (UUID × Except Exn Unit)
deriving DecidableEq

/-- What the loop does before it goes on to the next ticket. -/
def logOutcome (ticket : Ticket) : Except Exn Unit → Py Unit
  | .ok _ => return ()
  | .error _ => perform (.readAttribute ticket.id)

/-- `recoverAll`, returning what has become of each ticket that it has tried, and how it ends. -/
def recoverEach : List Ticket → Py (List (UUID × Except Exn Unit) × Except Exn Unit)
  | [] => return ([], .ok ())
  | ticket :: rest => do
      let r ← attempt (TicketService.requestCancellation ticket.id
        ("reconciler: stuck in " ++ ticket.status.value))
      match ← attempt (logOutcome ticket r) with
      | .ok _ =>
          let (outcomes, last) ← recoverEach rest
          return ((ticket.id, r) :: outcomes, last)
      | .error x => return ([(ticket.id, r)], .error x)

/-- `AsyncSession.scope`, for a body that returns how it ends. -/
def scopeOf {α β : Type} (body : Py (β × Except Exn α)) : Py (β × Except Exn α) := do
  match ← attempt body with
  | .ok (b, .ok a) =>
      perform .rollback
      return (b, .ok a)
  | .ok (b, .error x) =>
      AsyncSession.rollback
      perform .rollback
      return (b, .error x)
  | .error x =>
      AsyncSession.rollback
      perform .rollback
      throw x

/-- `recoverStuckTickets`, returning what it has done and how it ends. -/
def recoverOutcomes (stuckAfterSec batchSize : ℕ) : Py (Tick × Except Exn Unit) := do
  let now ← utcNow
  scopeOf do
    let stuck ← TicketRepository.findStuck (now - stuckAfterSec) batchSize
    let (outcomes, last) ← recoverEach stuck
    return (⟨stuck.map (·.id), outcomes⟩, last)

omit [Codecs] in
/-- An attempt of which the exception is raised again. -/
theorem attempt_bind {α β : Type} (p : Py α) (g : α → Py β) :
    (attempt p >>= fun r => liftExcept r >>= g) = p >>= g := by
  ext
  simp only [attempt, ExceptT.run_bind, ExceptT.run_lift, bind_map_left]
  refine bind_congr fun r => ?_
  cases r <;> rfl

/-- The loop only forgets the outcomes. -/
theorem recoverAll_eq (tickets : List Ticket) :
    ReconcilerWorker.recoverAll tickets = recoverEach tickets >>= fun o => liftExcept o.2 := by
  induction tickets with
  | nil => rfl
  | cons ticket rest ih =>
      simp only [ReconcilerWorker.recoverAll, recoverEach, bind_assoc]
      refine bind_congr fun r => ?_
      have hlog : (logOutcome ticket r >>= fun _ => ReconcilerWorker.recoverAll rest) =
          attempt (logOutcome ticket r) >>= fun r => liftExcept r >>= fun _ =>
            ReconcilerWorker.recoverAll rest := (attempt_bind _ _).symm
      calc _ = logOutcome ticket r >>= fun _ => ReconcilerWorker.recoverAll rest := by
            cases r <;> simp [logOutcome]
        _ = _ := hlog
        _ = _ := by
            refine bind_congr fun last => ?_
            cases last with
            | error x => rfl
            | ok a => simp [liftExcept, ih]

omit [Codecs] in
/-- A program that ends as another one has noted. -/
theorem run_bind_liftExcept {α β : Type} (p : Py (β × Except Exn α)) :
    (p >>= fun o => liftExcept o.2).run = (fun r => r.bind (·.2)) <$> p.run := by
  rw [ExceptT.run_bind, map_eq_pure_bind]
  refine bind_congr fun r => ?_
  rcases r with x | ⟨b, x | a⟩ <;> rfl

omit [Codecs] in
/-- A scope passes the end of its body on. -/
theorem scope_eq {α β : Type} (body : Py (β × Except Exn α)) :
    AsyncSession.scope (body >>= fun o => liftExcept o.2) =
      scopeOf body >>= fun o => liftExcept o.2 := by
  have hattempt : attempt (body >>= fun o => liftExcept o.2) =
      (fun r => r.bind (·.2)) <$> attempt body := by
    ext
    simp only [attempt, run_bind_liftExcept, ExceptT.run_lift, ExceptT.run_map, Functor.map_map]
    rfl
  unfold AsyncSession.scope scopeOf
  rw [hattempt]
  simp only [bind_map_left, bind_assoc]
  refine bind_congr fun r => ?_
  rcases r with x | ⟨b, x | a⟩ <;> simp [Except.bind, liftExcept]

/-- The tick only forgets what it has done. -/
theorem recoverStuckTickets_eq (stuckAfterSec batchSize : ℕ) :
    ReconcilerWorker.recoverStuckTickets stuckAfterSec batchSize =
      recoverOutcomes stuckAfterSec batchSize >>= fun o => liftExcept o.2 := by
  simp only [ReconcilerWorker.recoverStuckTickets, recoverOutcomes, bind_assoc, recoverAll_eq,
    ← scope_eq, pure_bind]

/-! ### What becomes of a ticket -/

/-- The outbox events of a ticket. -/
def Database.eventsOf (db : Database) (id : UUID) : UUID → Option OutboxEvent :=
  fun eventId => (db.outbox.lookup eventId).filter (·.entityId = id)

/-- The ticket and its events are as before. -/
def Untouched (db db' : Database) (id : UUID) : Prop :=
  db'.tickets.lookup id = db.tickets.lookup id ∧ db'.eventsOf id = db.eventsOf id

/-- The cancellation of the ticket has been requested, with exactly one new event, whose payload
decodes as a `REQUEST_CANCELLATION` frame. -/
def Requested (db db' : Database) (id : UUID) : Prop :=
  (∃ row, db'.tickets.lookup id = some row ∧ row.status = .cancellationRequested) ∧
    ∃ event m reason, event.id ∉ db.outbox ∧ event.frameType = some .requestCancellation ∧
      event.payload = m.modelDump ∧ RequestsCancellation m id reason ∧
      db'.eventsOf id = Function.update (db.eventsOf id) event.id (some event)

/-- The tickets of a batch that fail are untouched, and those that do not are recovered. -/
def Isolates (fails : UUID → Bool) (ids : List UUID) (db db' : Database) : Prop :=
  ∀ id ∈ ids, if fails id then Untouched db db' id else Requested db db' id

/-- The database raises an exception of its own in the request for exactly the tickets that fail;
when it rejects the statements of a session that has failed before, it is not asked. -/
def Agrees (fails : UUID → Bool) (outcome : UUID × Except Exn Unit) : Prop :=
  match outcome.2 with
  | .ok _ => fails outcome.1 = false
  | .error .pendingRollback => True
  | .error _ => fails outcome.1 = true

section Databases

variable {db₀ db db' : Database} {id : UUID}

omit [Codecs] in
theorem Untouched.refl (db : Database) (id : UUID) : Untouched db db id := ⟨rfl, rfl⟩

omit [Codecs] in
theorem Untouched.trans (h : Untouched db₀ db id) (h' : Untouched db db' id) :
    Untouched db₀ db' id := ⟨h'.1.trans h.1, h'.2.trans h.2⟩

theorem Requested.untouched (h : Requested db₀ db id) (h' : Untouched db db' id) :
    Requested db₀ db' id := by
  obtain ⟨⟨row, hrow, hstatus⟩, event, m, reason, hnew, htype, hpayload, hframe, hevents⟩ := h
  exact ⟨⟨row, h'.1.trans hrow, hstatus⟩, event, m, reason, hnew, htype, hpayload, hframe,
    h'.2.trans hevents⟩

/-- A ticket cannot be both. -/
theorem Requested.not_untouched (h : Requested db db' id) : ¬ Untouched db db' id := by
  rintro ⟨-, huntouched⟩
  obtain ⟨-, event, m, reason, hnew, -, -, -, hevents⟩ := h
  have hnone : db.eventsOf id event.id = none := by
    simp [Database.eventsOf, AList.lookup_eq_none.mpr hnew]
  have hsome : db'.eventsOf id event.id = some event := by simp [hevents]
  rw [huntouched, hnone] at hsome
  cases hsome

/-- An event added for one ticket is no event of another. -/
theorem Database.Notifies.untouched {t : UUID} {m : Message} (h : db.Notifies t m db')
    (hne : id ≠ t) : Untouched db db' id := by
  obtain ⟨⟨eventId, began, hnew, houtbox⟩, -, hothers⟩ := h
  refine ⟨hothers id hne, funext fun k => ?_⟩
  by_cases hk : k = eventId
  · subst hk
    simp [Database.eventsOf, houtbox, AList.lookup_eq_none.mpr hnew, hne.symm]
  · simp [Database.eventsOf, houtbox, AList.lookup_insert_ne hk]

/-- The event added for a ticket is its only new one. -/
theorem Database.Notifies.requested {m : Message} {reason : String} {row : Ticket}
    (h : db.Notifies id m db') (hframe : RequestsCancellation m id reason)
    (hrow : db'.tickets.lookup id = some row) (hstatus : row.status = .cancellationRequested) :
    Requested db db' id := by
  obtain ⟨⟨eventId, began, hnew, houtbox⟩, -⟩ := h
  let event : OutboxEvent :=
    { id := eventId, entityId := id, eventType := eventTypeTicketOutbound,
      routingKey := topology.providerOutRoutingKey, payload := m.modelDump,
      createdAt := began, updatedAt := began }
  refine ⟨⟨row, hrow, hstatus⟩, event, m, reason, hnew,
    hframe.type ▸ OutboxEvent.frameType_of_payload rfl, rfl, hframe, funext fun k => ?_⟩
  by_cases hk : k = eventId
  · subst hk
    simp [Database.eventsOf, houtbox, event]
  · have hk' : k ≠ event.id := hk
    simp [Database.eventsOf, houtbox, AList.lookup_insert_ne hk, Function.update_of_ne hk']

/-- What is new after a first step was new before it. -/
theorem Untouched.requested (h : Untouched db₀ db id) (h' : Requested db db' id)
    (hmono : ∀ k ∈ db₀.outbox, k ∈ db.outbox) : Requested db₀ db' id := by
  obtain ⟨hrow, event, m, reason, hnew, htype, hpayload, hframe, hevents⟩ := h'
  exact ⟨hrow, event, m, reason, fun hmem => hnew (hmono _ hmem), htype, hpayload, hframe,
    h.2 ▸ hevents⟩

/-- What the loop does to the tickets of a batch: they are recovered in turn, until the first one
that fails; none after it is recovered. -/
inductive Recovers (fails : UUID → Bool) : List UUID → Database → Database → Prop
  | nil (db : Database) : Recovers fails [] db db
  | cons {id : UUID} {ids : List UUID} {db db₁ db' : Database} (hfails : fails id = false)
      (hrequested : Requested db db₁ id) (hmono : ∀ k ∈ db.outbox, k ∈ db₁.outbox)
      (hothers : ∀ id', id' ≠ id → Untouched db db₁ id') (hrest : Recovers fails ids db₁ db') :
      Recovers fails (id :: ids) db db'
  | stop {id : UUID} (ids : List UUID) (db : Database) (hfails : fails id = true) :
      Recovers fails (id :: ids) db db

variable {fails : UUID → Bool} {ids : List UUID}

/-- The tickets that are recovered are followed by those that are untouched, the first of which
fails. -/
theorem Recovers.split (h : Recovers fails ids db db') (hnodup : ids.Nodup) :
    ∃ done rest, ids = done ++ rest ∧ (∀ id ∈ done, fails id = false ∧ Requested db db' id) ∧
      (∀ id, id ∉ done → Untouched db db' id) ∧ ∀ id ∈ rest.head?, fails id = true := by
  induction h with
  | nil db => exact ⟨[], [], rfl, by simp, fun id _ => .refl db id, by simp⟩
  | stop ids db hfails => exact ⟨[], _ :: ids, rfl, by simp, fun id _ => .refl db id, by simpa⟩
  | @cons id ids db db₁ db' hfails hrequested hmono hothers hrest ih =>
      obtain ⟨hid, hids⟩ := List.nodup_cons.mp hnodup
      obtain ⟨done, rest, rfl, hdone, hrest, hhead⟩ := ih hids
      have hid' : id ∉ done := fun hmem => hid (List.mem_append_left _ hmem)
      refine ⟨id :: done, rest, rfl, ?_, fun k hk => ?_, hhead⟩
      · refine List.forall_mem_cons.mpr ⟨⟨hfails, hrequested.untouched (hrest id hid')⟩, ?_⟩
        intro k hk
        have hne : k ≠ id := fun heq => hid' (heq ▸ hk)
        exact ⟨(hdone k hk).1, (hothers k hne).requested (hdone k hk).2 hmono⟩
      · obtain ⟨hne, hk⟩ := not_or.mp (List.mem_cons.not.mp hk)
        exact (hothers k hne).trans (hrest k hk)

/-- The failures of a batch are isolated when no ticket outside them comes after one of them. -/
theorem Recovers.isolates_iff (h : Recovers fails ids db db') (hnodup : ids.Nodup) :
    Isolates fails ids db db' ↔ ids.Pairwise fun id id' => fails id = true → fails id' = true := by
  obtain ⟨done, rest, rfl, hdone, hrest, hhead⟩ := h.split hnodup
  have hdisjoint := (List.nodup_append.mp hnodup).2.2
  have hundone : ∀ id ∈ rest, id ∉ done := fun id hid hmem => hdisjoint id hmem id hid rfl
  constructor
  · intro hisolates
    have hfails : ∀ id ∈ rest, fails id = true := by
      intro id hid
      have hcase := hisolates id (List.mem_append_right _ hid)
      by_contra hnot
      rw [if_neg hnot] at hcase
      exact hcase.not_untouched (hrest id (hundone id hid))
    refine List.pairwise_append.mpr ⟨?_, ?_, fun id _ id' hid' _ => hfails id' hid'⟩
    · exact List.pairwise_of_forall_mem_list fun id hid _ _ hfail => by
        simp [(hdone id hid).1] at hfail
    · exact List.pairwise_of_forall_mem_list fun _ _ id' hid' _ => hfails id' hid'
  · intro hpairwise id hid
    rcases List.mem_append.mp hid with hid | hid
    · rw [if_neg (by simp [(hdone id hid).1])]
      exact (hdone id hid).2
    · have hfails : fails id = true := by
        cases rest with
        | nil => cases hid
        | cons first rest =>
            rcases List.mem_cons.mp hid with rfl | hid
            · exact hhead _ rfl
            · have hcons := (List.pairwise_append.mp hpairwise).2.1
              exact (List.pairwise_cons.mp hcons).1 id hid (hhead first rfl)
      rw [if_pos hfails]
      exact hrest id (hundone id hid)

end Databases

/-! ### The session of a batch -/

/-- The instances of the session have the attributes of the committed rows. -/
def Session.Mirrors (s : Session) (db : Database) : Prop :=
  ∀ id inst, s.identityMap id = some inst → db.tickets.lookup id = some inst.attrs

namespace Session.Mirrors

variable {s : Session} {db : Database} {row : Ticket}

omit [Codecs] in
theorem load (h : s.Mirrors db) (hrow : db.tickets.lookup row.id = some row) :
    (s.load row).Mirrors db := by
  unfold Session.load
  split
  · exact h
  · intro id inst hinst
    by_cases hid : id = row.id
    · subst hid
      obtain rfl : Instance.mk row row = inst := by simpa using hinst
      exact hrow
    · exact h id inst (by simpa [hid] using hinst)

omit [Codecs] in
theorem attrs (h : s.Mirrors db) (hrow : db.tickets.lookup row.id = some row) :
    s.attrs row = row := by
  unfold Session.attrs
  split
  next inst hinst =>
    have hattrs := h _ _ hinst
    rw [hrow] at hattrs
    exact (Option.some.inj hattrs).symm
  · rfl

end Session.Mirrors

omit [Codecs] in
/-- Committed rows are loaded. -/
theorem World.mirrors_loadRows {w : World} {i : ℕ} {rows : List Ticket}
    (hclean : (w.session i).Clean []) (hmirrors : (w.session i).Mirrors w.db)
    (hrows : ∀ row ∈ rows, w.db.tickets.lookup row.id = some row) :
    ((w.loadRows i rows).session i).Clean [] ∧
      ((w.loadRows i rows).session i).Mirrors w.db := by
  induction rows generalizing w with
  | nil => exact ⟨hclean, hmirrors⟩
  | cons row rest ih =>
      obtain ⟨hrow, hrest⟩ := List.forall_mem_cons.mp hrows
      have hsession : (w.loadRow i row).session i = (w.session i).load row :=
        congrArg Solo.session (World.solo_loadRow (f := none) row)
      have hdb : (w.loadRow i row).db = w.db :=
        congrArg Solo.db (World.solo_loadRow (i := i) (f := none) row)
      have hnext := ih (w := w.loadRow i row) (by rw [hsession]; exact hclean.load row)
        (by rw [hsession, hdb]; exact hmirrors.load hrow) (by rwa [hdb])
      rwa [hdb] at hnext

/-! ### The loop -/

namespace Alone

variable {faults : Faults} {i : ℕ} {v : Solo}

/-- `find_stuck`, by a fresh session: the rows of pairwise distinct tickets, which it loads. -/
theorem findStuck {olderThan : Time} {limit : ℕ} {F : Exn → Solo → Prop}
    {Q : List Ticket → Solo → Prop} (hfresh : v.session = {})
    (herror : ∀ x v', v.Faulted faults False x v' → F x v')
    (hok : ∀ rows v', v'.db = v.db → v'.session.Clean [] → (rows.map (·.id)).Nodup →
      (∀ row ∈ rows, v.db.tickets.lookup row.id = some row ∧ v'.session.attrs row = row) →
      Q rows v') : Alone faults i (TicketRepository.findStuck olderThan limit) Q F v := by
  refine statement (fun c w => c.rows?.bind (w.selectStuck i olderThan limit))
    (fun _ _ _ _ => rfl) herror fun now w f c r w' hlive hinv hv hact => ?_
  obtain ⟨ids, -, hact⟩ := Option.bind_eq_some_iff.mp hact
  unfold World.selectStuck at hact
  split at hact
  next hbatch =>
    cases hact
    refine ⟨?_, by simp [Effect.raises]⟩
    have hsession : w.session i = Session.beginTx {} now := by
      rw [World.session_of_solo hv, hfresh]
      rfl
    have hdb := World.db_of_solo hv
    rw [Solo.db_setSession] at hdb
    have hkeyed : w.db.Keyed := hinv.db_eq ▸ History.keyed_database w.log
    have hids : (ids.filterMap w.db.tickets.lookup).map (·.id) = ids := by
      refine hkeyed.tickets.map_filterMap fun id hid => ?_
      exact Option.isSome_of_any (hbatch.2.2.1 id hid).2
    have hrows : ∀ row ∈ ids.filterMap w.db.tickets.lookup,
        w.db.tickets.lookup row.id = some row := by
      intro row hrow
      obtain ⟨id, -, hlookup⟩ := List.mem_filterMap.mp hrow
      rwa [hkeyed.tickets id row hlookup]
    have hempty : (w.session i).Mirrors w.db := by
      intro id inst hinst
      simp [hsession, Session.beginTx] at hinst
    -- what the session returns are the rows that it has just loaded
    have hattrs : (ids.filterMap w.db.tickets.lookup).map (w.session i).attrs =
        ids.filterMap w.db.tickets.lookup :=
      (List.map_congr_left fun row hrow => hempty.attrs (hrows row hrow)).trans (List.map_id _)
    obtain ⟨hclean, hmirrors⟩ := World.mirrors_loadRows (w := w.record (.found i olderThan ids))
      (i := i) (by rw [World.session_record, hsession]; exact Session.clean_empty.beginTx now)
      hempty hrows
    change Q ((ids.filterMap w.db.tickets.lookup).map (w.session i).attrs) _
    rw [hattrs]
    refine hok _ _ ?_ hclean (hids.symm ▸ hbatch.1) fun row hrow => ?_
    · exact (World.db_loadRows _).trans hdb
    · exact ⟨hdb ▸ hrows row hrow, hmirrors.attrs (hrows row hrow)⟩
  · cases hact

/-- The request for one ticket of a batch. Either it is recovered, and the session can go on; or
the database raises an exception, and the session has failed. -/
theorem requestOne {row : Ticket} {reason : String} (hclean : v.session.Clean [])
    (hrow : v.db.tickets.lookup row.id = some row) (hattrs : v.session.attrs row = row) :
    Alone faults i (TicketService.requestCancellation row.id reason)
      (fun _ v' => v'.session.Clean [] ∧ Requested v.db v'.db row.id ∧
        (∀ k ∈ v.db.outbox, k ∈ v'.db.outbox) ∧
        (∀ id, id ≠ row.id → Untouched v.db v'.db id) ∧
        ∀ row', row'.id ≠ row.id → v'.session.attrs row' = v.session.attrs row')
      (fun x v' => x ≠ .pendingRollback ∧ v'.session.failed = true ∧ v'.db = v.db) v := by
  refine requestCancellation (fun _ => hclean) (fun x v' _ _ hx => ?_)
    (fun v' _ hnone => by simp [hrow] at hnone) ?_
  · rcases hx with hx | ⟨error, hx⟩
    · exact ⟨fun heq => by simpa [hclean.failed] using hx.own.mp heq, hx.failed, hx.db⟩
    · exact ⟨fun heq => by simpa [hclean.failed] using hx.own.mp heq, hx.failed, hx.db⟩
  · intro v' row₁ error now began eventId m _ hrow₁ _ hframe hevent hcommits
    obtain rfl : row = row₁ := by simpa [hrow] using hrow₁
    rw [hattrs] at hcommits
    have hnotifies : v.db.Notifies row.id m v'.db := hcommits.notifies rfl hevent
    obtain ⟨row', hrow', hmatches⟩ := Database.lookup_edits_matches
      (Edits.of_outbound eventId row.id m began) hrow row.matches_self
      (row.revises_cancelRequested reason now)
    obtain ⟨now', rfl⟩ := hmatches
    refine ⟨hcommits.clean, hnotifies.requested hframe (hcommits.db ▸ hrow') rfl, fun k hk => ?_,
      fun id hne => hnotifies.untouched hne, hcommits.others⟩
    rw [hcommits.db]
    exact Database.mem_outbox_writeAll _ hk

/-- A session that has failed has every further request rejected. -/
theorem requestRejected {id : UUID} {reason : String} (hfailed : v.session.failed = true) :
    Alone faults i (TicketService.requestCancellation id reason) (fun _ _ => False)
      (fun x v' => x = .pendingRollback ∧ v'.session.failed = true ∧ v'.db = v.db) v := by
  refine requestCancellation (by simp [hfailed]) (fun x v' _ _ hx => ?_) (by simp [hfailed])
    (by simp [hfailed])
  rcases hx with hx | ⟨error, hx⟩
  · exact ⟨hx.own.mpr hfailed, hx.failed, hx.db⟩
  · exact ⟨hx.own.mpr hfailed, hx.failed, hx.db⟩

/-- The read of an attribute. -/
theorem readAttribute {id : UUID} {Q : Unit → Solo → Prop} {F : Exn → Solo → Prop} (hok : Q () v)
    (herror : ∀ x, F x (v.after faults x)) :
    Alone faults i (RiskProvider.perform (.readAttribute id)) Q F v := by
  refine perform fun w f c r w' _ hv hexec => ?_
  obtain ⟨-, -, heq⟩ := Option.map_eq_some_iff.mp hexec
  obtain ⟨rfl, rfl⟩ := Prod.mk.inj heq
  refine ⟨?_, fun _ => rfl⟩
  rw [hv]
  split
  · exact herror _
  · exact hok

/-- Between two tickets the loop changes nothing. -/
theorem logOutcome {ticket : Ticket} {r : Except Exn Unit} {Q : Except Exn Unit → Solo → Prop}
    {F : Exn → Solo → Prop} (hok : Q (.ok ()) v)
    (herror : ∀ x y, r = .error x → Q (.error y) (v.after faults y)) :
    Alone faults i (RiskProvider.attempt (RiskProvider.logOutcome ticket r)) Q F v := by
  cases r with
  | ok a => exact attempt (pure hok)
  | error x => exact attempt (readAttribute hok fun y => herror x y rfl)

/-- The loop recovers the tickets up to the first one that fails, and no other. -/
theorem recoverEach (fails : UUID → Bool) {rows : List Ticket} (hnodup : (rows.map (·.id)).Nodup)
    (hstart : v.session.failed = false → v.session.Clean [] ∧
      ∀ row ∈ rows, v.db.tickets.lookup row.id = some row ∧ v.session.attrs row = row) :
    Alone faults i (recoverEach rows)
      (fun o v' => (v.session.failed = true → v'.db = v.db) ∧
        (v.session.failed = false → (∀ outcome ∈ o.1, Agrees fails outcome) →
          Recovers fails (rows.map (·.id)) v.db v'.db))
      (fun _ _ => False) v := by
  induction rows generalizing v with
  | nil => exact pure ⟨fun _ => rfl, fun _ _ => .nil v.db⟩
  | cons row rest ih =>
      obtain ⟨hrow, hnodup⟩ := List.nodup_cons.mp hnodup
      have hne : ∀ row' ∈ rest, row'.id ≠ row.id := fun row' hrow' heq =>
        hrow (List.mem_map.mpr ⟨row', hrow', heq⟩)
      cases hfailed : v.session.failed with
      | true =>
          refine bind (attempt ((requestRejected hfailed).mono (fun _ _ h => h.elim) ?_))
          rintro x v₁ ⟨rfl, hfailed₁, hdb₁⟩
          refine bind (logOutcome ?_ fun x y _ => pure ⟨fun _ => by simpa using hdb₁, by simp⟩)
          refine bind ((ih hnodup (by simp [hfailed₁])).mono ?_ fun _ _ h => h)
          rintro ⟨outcomes, last⟩ v₂ ⟨hrejected, -⟩
          exact pure ⟨fun _ => (hrejected hfailed₁).trans hdb₁, by simp⟩
      | false =>
          obtain ⟨hclean, hrows⟩ := hstart hfailed
          obtain ⟨⟨hlookup, hattrs⟩, hrest⟩ := List.forall_mem_cons.mp hrows
          refine bind (attempt ((requestOne hclean hlookup hattrs).mono ?_ ?_))
          · rintro ⟨⟩ v₁ ⟨hclean₁, hrequested, hmono, hothers, hsame⟩
            have hrest₁ : ∀ row' ∈ rest, v₁.db.tickets.lookup row'.id = some row' ∧
                v₁.session.attrs row' = row' := fun row' hrow' =>
              ⟨(hothers _ (hne row' hrow')).1.trans (hrest row' hrow').1,
                (hsame _ (hne row' hrow')).trans (hrest row' hrow').2⟩
            refine bind (logOutcome ?_ fun x y hx => by cases hx)
            refine bind ((ih hnodup fun _ => ⟨hclean₁, hrest₁⟩).mono ?_ fun _ _ h => h)
            rintro ⟨outcomes, last⟩ v₂ ⟨-, hrecovers⟩
            refine pure ⟨by simp, fun _ hagrees => ?_⟩
            obtain ⟨hhead, htail⟩ := List.forall_mem_cons.mp hagrees
            exact .cons hhead hrequested hmono hothers (hrecovers hclean₁.failed htail)
          · rintro x v₁ ⟨hown, hfailed₁, hdb₁⟩
            -- the ticket fails, and no later one is recovered
            have hstop : ∀ (outcomes : List (UUID × Except Exn Unit)) (v' : Solo), v'.db = v₁.db →
                (∀ outcome ∈ (row.id, .error x) :: outcomes, Agrees fails outcome) →
                Recovers fails ((row :: rest).map (·.id)) v.db v'.db := by
              intro outcomes v' hdb hagrees
              have hhead := hagrees _ List.mem_cons_self
              rw [hdb, hdb₁]
              refine .stop _ _ ?_
              cases x with
              | pendingRollback => exact absurd rfl hown
              | _ => exact hhead
            refine bind (logOutcome ?_ fun _ y _ => pure ⟨by simp, fun _ => hstop [] _ (by simp)⟩)
            refine bind ((ih hnodup (by simp [hfailed₁])).mono ?_ fun _ _ h => h)
            rintro ⟨outcomes, last⟩ v₂ ⟨hrejected, -⟩
            exact pure ⟨by simp, fun _ => hstop outcomes v₂ (hrejected hfailed₁)⟩

/-- A scope of a body that returns how it ends. -/
theorem scopeOf {α β : Type} {body : Py (β × Except Exn α)}
    {Q : β × Except Exn α → Solo → Prop} {F : Exn → Solo → Prop}
    (h : Alone faults i body (fun o v => Q o (v.setSession {})) (fun x v => F x (v.setSession {})) v) :
    Alone faults i (scopeOf body) Q F v := by
  refine bind (attempt (h.mono ?_ fun x v hv => bind (rollback (bind (rollback (throw hv))))))
  rintro ⟨b, x | a⟩ v hv
  · exact bind (rollback (bind (rollback (pure hv))))
  · exact bind (rollback (pure hv))

/-- The tick of the reconciler. -/
theorem recoverOutcomes (fails : UUID → Bool) {stuckAfterSec batchSize : ℕ}
    (hfresh : v.session = {}) :
    Alone faults i (recoverOutcomes stuckAfterSec batchSize)
      (fun o v' => o.1.batch.Nodup ∧ ((∀ outcome ∈ o.1.outcomes, Agrees fails outcome) →
        Recovers fails o.1.batch v.db v'.db))
      (fun _ _ => True) v := by
  refine bind (utcNow fun now => scopeOf (bind (findStuck hfresh (fun _ _ _ => trivial) ?_)))
  intro rows v₁ hdb hclean hnodup hrows
  refine bind ((recoverEach fails hnodup fun _ => ⟨hclean, hdb ▸ hrows⟩).mono ?_ fun _ _ h => h.elim)
  rintro ⟨outcomes, last⟩ v₂ ⟨-, hrecovers⟩
  exact pure ⟨hnodup, fun hagrees => hdb ▸ hrecovers hclean.failed hagrees⟩

end Alone

/-- In a complete tick, the failures of the batch are isolated if and only if no ticket outside them
comes after one of them. -/
theorem recoverStuckTickets_isolates_iff {i stuckAfterSec batchSize : ℕ} {fails : UUID → Bool}
    {w w' : World} {cs : List Choice} {r last : Except Exn Unit} {tick : Tick}
    (hinv : w.Isolated) (hfresh : w.session i = {})
    (hrun : machine.complete i
      (ReconcilerWorker.recoverStuckTickets stuckAfterSec batchSize).run cs w = some (r, w'))
    (htick : (machine.complete i (recoverOutcomes stuckAfterSec batchSize).run cs w).map (·.1) =
      some (.ok (tick, last)))
    (hagrees : ∀ outcome ∈ tick.outcomes, Agrees fails outcome) :
    Isolates fails tick.batch w.db w'.db ↔
      tick.batch.Pairwise fun id id' => fails id = true → fails id' = true := by
  rw [recoverStuckTickets_eq, run_bind_liftExcept, Machine.complete_map] at hrun
  obtain ⟨⟨r₁, w₁⟩, hrun₁, heq⟩ := Option.map_eq_some_iff.mp hrun
  obtain rfl : r₁ = .ok (tick, last) := by simpa [hrun₁] using htick
  cases heq
  have halone := (Alone.recoverOutcomes fails hfresh : Alone .database i _ _ _ (w.solo i none)) w
    none hinv rfl cs _ _ hrun₁
  obtain ⟨-, hnodup, hrecovers⟩ := halone
  exact (hrecovers hagrees).isolates_iff hnodup

end General

/-- A world in which tickets 1 and 2 are stuck and nobody is at work. -/
def stuckWorld : World :=
  { World.record {} (.committed 0
      [.insertTicket (sampleRequest.ticket "k1" 1 .rub 0),
        .insertTicket (sampleRequest.ticket "k2" 2 .rub 0)]) with now := 100 }

theorem isolated_stuckWorld : stuckWorld.Isolated where
  writes_held _ _ h := by simp [stuckWorld] at h
  coherent _ := Session.coherent_empty
  db_eq := rfl
  broker_eq := rfl

/-- A tick of the reconciler in `stuckWorld`. -/
theorem exists_tick (cs : List Choice) (tick : Tick) (last : Except Exn Unit) (test : World → Bool)
    (h : ((machine.complete 1 (recoverOutcomes 10 5).run cs stuckWorld).any
      fun rw => rw.1 = .ok (tick, last) && test rw.2) = true) :
    ∃ w', machine.complete 1 (ReconcilerWorker.recoverStuckTickets 10 5).run cs stuckWorld =
        some (last, w') ∧
      (machine.complete 1 (recoverOutcomes 10 5).run cs stuckWorld).map (·.1) =
        some (.ok (tick, last)) ∧ test w' = true := by
  obtain ⟨⟨r₁, w'⟩, hrun, hcheck⟩ := (Option.any_eq_true _ _).mp h
  obtain ⟨hr, htest⟩ := (Bool.and_eq_true _ _).mp hcheck
  obtain rfl : r₁ = .ok (tick, last) := of_decide_eq_true hr
  refine ⟨w', ?_, by rw [hrun]; rfl, htest⟩
  rw [recoverStuckTickets_eq, run_bind_liftExcept, Machine.complete_map, hrun]
  rfl

open Script in
/-- The second ticket of the batch fails, and the first one is recovered. -/
theorem recoverStuckTickets_isolates_last : ∃ w' : World,
    Isolates (· = 2) [1, 2] stuckWorld.db w'.db := by
  obtain ⟨w', hrun, htick, -⟩ := exists_tick
    ([.succeed, .rows [1, 2]] ++ ok 2 ++ requestCancellation 20 21 ++ [.databaseError] ++ ok 2)
    ⟨[1, 2], [(1, .ok ()), (2, .error .databaseError)]⟩ (.ok ()) (fun _ => true) (by decide +kernel)
  exact ⟨w', (recoverStuckTickets_isolates_iff isolated_stuckWorld rfl hrun htick
    (by simp [Agrees])).mpr (by decide)⟩

/-- A new ticket has not been recovered. -/
theorem Isolates.not_new {fails : UUID → Bool} {tick : Tick} {w w' : World} {id : UUID}
    (h : Isolates fails tick.batch w.db w'.db) (hid : id ∈ tick.batch) (hfails : fails id = false) :
    w'.status? id ≠ some .new := by
  have hrequested := h id hid
  rw [if_neg (by simp [hfails])] at hrequested
  obtain ⟨⟨row, hrow, hstatus⟩, -⟩ := hrequested
  simp [World.status?, hrow, hstatus]

open Script in
/-- The first ticket of the batch fails, at its select or at its flush, and the second one is not
recovered: its request is rejected, or the tick has ended before. -/
theorem recovery_stops :
    (∃ cs tick w', machine.complete 1 (ReconcilerWorker.recoverStuckTickets 10 5).run cs stuckWorld =
        some (.ok (), w') ∧
      (machine.complete 1 (recoverOutcomes 10 5).run cs stuckWorld).map (·.1) =
        some (.ok (tick, .ok ())) ∧
      (∀ outcome ∈ tick.outcomes, Agrees (· = 1) outcome) ∧
      ¬ Isolates (· = 1) tick.batch stuckWorld.db w'.db) ∧
    ∃ cs tick w', machine.complete 1 (ReconcilerWorker.recoverStuckTickets 10 5).run cs stuckWorld =
        some (.error .pendingRollback, w') ∧
      (machine.complete 1 (recoverOutcomes 10 5).run cs stuckWorld).map (·.1) =
        some (.ok (tick, .error .pendingRollback)) ∧
      (∀ outcome ∈ tick.outcomes, Agrees (· = 1) outcome) ∧
      ¬ Isolates (· = 1) tick.batch stuckWorld.db w'.db := by
  obtain ⟨w', hrun, htick, htest⟩ := exists_tick
    ([.succeed, .rows [1, 2], .databaseError] ++ ok 4)
    ⟨[1, 2], [(1, .error .databaseError), (2, .error .pendingRollback)]⟩ (.ok ())
    (fun w => w.status? 2 = some .new) (by decide +kernel)
  obtain ⟨w₂, hrun₂, htick₂, htest₂⟩ := exists_tick
    ([.succeed, .rows [1, 2]] ++ ok 6 ++ [.databaseError] ++ ok 3)
    ⟨[1, 2], [(1, .error .databaseError)]⟩ (.error .pendingRollback)
    (fun w => w.status? 2 = some .new) (by decide +kernel)
  exact ⟨⟨_, _, w', hrun, htick, by simp [Agrees], fun h =>
      h.not_new (by simp) (by decide) (of_decide_eq_true htest)⟩,
    _, _, w₂, hrun₂, htick₂, by simp [Agrees], fun h =>
      h.not_new (by simp) (by decide) (of_decide_eq_true htest₂)⟩

end RiskProvider

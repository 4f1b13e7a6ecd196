import RiskProvider.Isolation
import RiskProvider.Protocol

/-!
# Views

What the view of a thread says about the world, and how the thread's own moves change it. The
moves of other threads do not (`World.Acts.frame`).
-/

namespace RiskProvider

/-! ### Facts in a view -/

theorem History.keyed_database (l : History) : l.database.Keyed := by
  induction l with
  | nil => exact Database.keyed_empty
  | cons e l ih =>
      cases e with
      | committed i ws => exact ih.writeAll ws
      | _ => exact ih

namespace World

variable {w : World} {i : ℕ} {v : View} {k : UUID}

theorem view_tickets {x : Option Ticket} :
    (w.view i).tickets k = some x ↔ w.ticketLock k = some i ∧ w.db.tickets.lookup k = x := by
  simp only [view, held_eq_some]

theorem view_focus {x : History} :
    (w.view i).focus k = some x ↔ w.ticketLock k = some i ∧ w.log.focus i k = x := by
  simp only [view, held_eq_some]

theorem view_events {x : Option OutboxEvent} :
    (w.view i).events k = some x ↔ w.eventLock k = some i ∧ w.db.outbox.lookup k = x := by
  simp only [view, held_eq_some]

theorem view_claims {x : Option ProcessedProviderMessage} :
    (w.view i).claims k = some x ↔ w.inboxLock k = some i ∧ w.db.inbox.lookup k = x := by
  simp only [view, held_eq_some]

theorem Isolated.lookup_ticket (h : w.Isolated) (hv : w.view i = v) {x : Option Ticket}
    (hk : v.tickets k = some x) : w.log.database.tickets.lookup k = x := by
  subst hv
  rw [← h.db_eq]
  exact (view_tickets.mp hk).2

theorem Isolated.lookup_event (h : w.Isolated) (hv : w.view i = v) {x : Option OutboxEvent}
    (hk : v.events k = some x) : w.log.database.outbox.lookup k = x := by
  subst hv
  rw [← h.db_eq]
  exact (view_events.mp hk).2

theorem Isolated.lookup_claim (h : w.Isolated) (hv : w.view i = v)
    {x : Option ProcessedProviderMessage} (hk : v.claims k = some x) :
    w.log.database.inbox.lookup k = x := by
  subst hv
  rw [← h.db_eq]
  exact (view_claims.mp hk).2

theorem eventLock_of_view (hv : w.view i = v) (hk : ∃ x, v.events k = some x) :
    w.eventLock k = some i := by
  subst hv
  obtain ⟨x, hx⟩ := hk
  exact (view_events.mp hx).1

theorem focus_of_view (hv : w.view i = v) {f : History} (hk : v.focus k = some f) :
    w.log.focus i k = f := by
  subst hv
  exact (view_focus.mp hk).2

theorem actions_of_view (hv : w.view i = v) : w.log.actions i = v.actions := by
  subst hv
  rfl

theorem unacked_of_view (h : w.Isolated) (hv : w.view i = v) :
    w.log.broker.unacked i = v.unacked := by
  subst hv
  rw [← h.broker_eq]
  rfl

theorem session_of_view (hv : w.view i = v) : w.session i = v.session := by
  subst hv
  rfl

end World

namespace View

/-- The view with another session. -/
def setSession (v : View) (s : Session) : View := { v with session := s }

/-- The view after an action of the thread. -/
def act (v : View) (e : Entry) : View :=
  { v with
    actions := e :: v.actions
    unacked := match e with
      | .received _ q _ d => some (q, d)
      | .acked _ | .returned _ => none
      | _ => v.unacked
    focus := fun k => (v.focus k).map (e :: ·) }

/-- The view after the end of the transaction. -/
def ended (v : View) (s : Session) : View :=
  { v with
    session := s
    tickets := fun _ => none
    focus := fun _ => none
    events := fun _ => none
    claims := fun _ => none }

/-- The view after a commit of thread `i`. -/
def committed (v : View) (i : ℕ) (now : Time) : View :=
  { v.ended (v.session.committed now) with
    actions := .committed i v.session.writes :: v.actions }

/-- What `v` has locked and seen, `v'` has too. -/
structure Keeps (v v' : View) : Prop where
  actions : v'.actions = v.actions
  unacked : v'.unacked = v.unacked
  tickets : ∀ {k x}, v.tickets k = some x → v'.tickets k = some x
  focus : ∀ {k x}, v.focus k = some x → v'.focus k = some x
  events : ∀ {k x}, v.events k = some x → v'.events k = some x
  claims : ∀ {k x}, v.claims k = some x → v'.claims k = some x

theorem Keeps.refl (v : View) : v.Keeps v := ⟨rfl, rfl, id, id, id, id⟩

theorem Keeps.trans {v₁ v₂ v₃ : View} (h : v₁.Keeps v₂) (h' : v₂.Keeps v₃) : v₁.Keeps v₃ :=
  ⟨h'.actions.trans h.actions, h'.unacked.trans h.unacked, h'.tickets ∘ h.tickets,
    h'.focus ∘ h.focus, h'.events ∘ h.events, h'.claims ∘ h.claims⟩

theorem keeps_setSession (v : View) (s : Session) : v.Keeps (v.setSession s) :=
  ⟨rfl, rfl, id, id, id, id⟩

/-- The thread's actions since `v` are those of a reconciler on one ticket. -/
structure Recovered (ticketId : UUID) (v v' : View) : Prop where
  unacked : v'.unacked = v.unacked
  actions : ∃ acts, v'.actions = acts ++ v.actions ∧ ∀ e ∈ acts, e.recovers ticketId = true

theorem Recovered.of_keeps {ticketId : UUID} {v v' : View} (h : v.Keeps v') :
    v.Recovered ticketId v' :=
  ⟨h.unacked, [], h.actions, by simp⟩

end View

namespace World

variable {w : World} {i : ℕ}

theorem view_setSession_self (s : Session) :
    (w.setSession i s).view i = (w.view i).setSession s := by
  ext1 <;> simp [view, View.setSession]

theorem view_record_act (e : Entry) (hthread : e.thread = i) (haction : e.isAction = true)
    (hquiet : ∀ j ws, e ≠ .committed j ws) : (w.record e).view i = (w.view i).act e := by
  have hact : History.actionOf i e = true := by simp [History.actionOf, hthread, haction]
  have hdb : w.db.after e = w.db := by
    cases e with
    | committed k ws => exact absurd rfl (hquiet k ws)
    | _ => rfl
  subst hthread
  ext1
  · rfl
  · simp [view, View.act, History.actions, hact]
  · cases e with
    | received i q n d => simp [view, View.act, Broker.after, Entry.thread]
    | acked i => simp [view, View.act, Broker.after, Entry.thread]
    | returned i =>
        simp only [view, View.act, Entry.thread, broker_record, Broker.after, Broker.nack]
        split
        next h => exact h
        · split <;> simp
    | published i routingKey messageId body ok =>
        cases ok <;> simp [view, View.act, Broker.after, Entry.thread]
    | _ => rfl
  · simp [view, View.act, hdb]
  · funext k
    by_cases hk : w.ticketLock k = some e.thread <;>
      simp [view, View.act, held, History.focus, hact, hk]
  · simp [view, View.act, hdb]
  · simp [view, View.act, hdb]

theorem view_record_quiet {e : Entry} (haction : e.isAction = false) :
    (w.record e).view i = w.view i := by
  cases e with
  | loaded j k => ext1 <;> simp [view, Database.after, Broker.after, History.actions,
      History.focus, History.actionOf, Entry.isAction, Entry.touches]
  | counted j s s' => ext1 <;> simp [view, Database.after, Broker.after, History.actions,
      History.focus, History.actionOf, Entry.isAction, Entry.touches]
  | _ => cases haction

theorem view_commit_self : (w.commit i).view i = (w.view i).committed i w.now := by
  have hact : History.actionOf i (.committed i (w.session i).writes) = true := by
    simp [History.actionOf, Entry.thread, Entry.isAction]
  ext1 <;> simp [view, View.committed, View.ended, commit, releaseLocks, History.actions, hact,
    Broker.after]

/-- Transaction `i` sees the rows that it locks. -/
theorem view_acquireLocks_self (tickets events inbox : List UUID) (keys : List String) :
    (w.acquireLocks i tickets events inbox keys).view i =
      { w.view i with
        tickets := fun k =>
          if k ∈ tickets then some (w.db.tickets.lookup k) else (w.view i).tickets k
        focus := fun k => if k ∈ tickets then some (w.log.focus i k) else (w.view i).focus k
        events := fun k => if k ∈ events then some (w.db.outbox.lookup k) else (w.view i).events k
        claims := fun k => if k ∈ inbox then some (w.db.inbox.lookup k) else (w.view i).claims k } := by
  ext1 <;> simp [view, acquireLocks, held_acquire_self]

theorem keeps_acquireLocks (tickets events inbox : List UUID) (keys : List String) :
    (w.view i).Keeps ((w.acquireLocks i tickets events inbox keys).view i) := by
  rw [view_acquireLocks_self]
  refine ⟨rfl, rfl, fun {k x} h => ?_, fun {k x} h => ?_, fun {k x} h => ?_, fun {k x} h => ?_⟩
  · simpa [h] using fun _ => (view_tickets.mp h).2
  · simpa [h] using fun _ => (view_focus.mp h).2
  · simpa [h] using fun _ => (view_events.mp h).2
  · simpa [h] using fun _ => (view_claims.mp h).2

theorem view_loadRow_self (row : Ticket) :
    (w.loadRow i row).view i = (w.view i).setSession ((w.session i).load row) := by
  unfold loadRow
  split
  next inst hinst => simp [View.setSession, view, Session.load, hinst]
  next hnone =>
    rw [view_setSession_self, view_record_quiet rfl]

theorem view_loadRows_self (rows : List Ticket) :
    (w.loadRows i rows).view i = (w.view i).setSession (rows.foldl (·.load ·) (w.session i)) := by
  induction rows generalizing w with
  | nil => rfl
  | cons row rows ih =>
      change ((w.loadRow i row).loadRows i rows).view i = _
      rw [ih, view_loadRow_self]
      have hsession : (w.loadRow i row).session i = (w.session i).load row :=
        congrArg View.session (view_loadRow_self row)
      rw [hsession]
      rfl

/-- The view after an update of outbox rows. -/
theorem view_updateEvents {w' : World} {wr : Write} {r : Except Exn Unit}
    (h : w.updateEvents i wr = some (r, w')) :
    (∃ x, r = .error x ∧ w' = w.fail i) ∨
      r = .ok () ∧ (w.view i).Keeps (w'.view i) ∧
        (w'.view i).session =
          { w.session i with writes := (w.session i).writes ++ [wr] } := by
  unfold updateEvents at h
  split at h
  · split at h
    · cases h
      exact .inl ⟨_, rfl, rfl⟩
    · cases h
      rw [show ∀ s, { w.setSession i s with eventLock := acquire w.eventLock i wr.eventKeys } =
        (w.setSession i s).acquireLocks i [] wr.eventKeys [] [] by simp [acquireLocks]]
      refine .inr ⟨rfl, View.Keeps.trans ?_ (keeps_acquireLocks _ _ _ _), ?_⟩
      · rw [view_setSession_self]
        exact View.keeps_setSession _ _
      · rw [view_acquireLocks_self, view_setSession_self]
        rfl
  · cases h

/-- The view after the statements of a flush. -/
theorem view_flush {w' : World} {r : Except Exn Unit}
    (h : w.flush i = some (r, w')) :
    (∃ x, r = .error x ∧ w' = w.fail i) ∨
      r = .ok () ∧ (w.view i).Keeps (w'.view i) ∧ (w'.view i).session = (w.session i).flushed ∧
        (∀ row, .ticket row ∈ (w.session i).added → (w'.view i).tickets row.id = some none) ∧
        ∀ row, .event row ∈ (w.session i).added → (w'.view i).events row.id = some none := by
  unfold flush at h
  dsimp only at h
  split at h
  · split at h
    · cases h
      exact .inl ⟨_, rfl, rfl⟩
    · split at h
      · cases h
        exact .inl ⟨_, rfl, rfl⟩
      next hconflict =>
        cases h
        right
        have hwrites : ∀ o ∈ (w.session i).added,
            o.insert (w.session i).startedAt ∈ (w.session i).flushWrites := fun o ho =>
          List.mem_append_right _ (List.mem_map_of_mem ho)
        rw [show ∀ s ws, ({ w.setSession i s with
              ticketLock := acquire w.ticketLock i (ws.filterMap Write.ticketKey)
              eventLock := acquire w.eventLock i (ws.flatMap Write.eventKeys)
              keyLock := acquire w.keyLock i (ws.filterMap Write.uniqueKey) } : World) =
            (w.setSession i s).lockWrites i ws by
          intro s ws
          simp [lockWrites, acquireLocks, setSession]]
        refine ⟨rfl, View.Keeps.trans ?_ (keeps_acquireLocks _ _ _ _), ?_, ?_, ?_⟩
        · rw [view_setSession_self]
          exact View.keeps_setSession _ _
        · rw [lockWrites, view_acquireLocks_self, view_setSession_self]
          rfl
        · intro row hrow
          have hmem := hwrites _ hrow
          have hkey : row.id ∈ (w.session i).flushWrites.filterMap Write.ticketKey :=
            List.mem_filterMap.mpr ⟨_, hmem, rfl⟩
          have hfresh : row.id ∉ w.db.tickets := fun hdb => hconflict
            ⟨_, hmem, .inl (Database.mem_tickets_writeAll _ hdb)⟩
          rw [lockWrites, view_acquireLocks_self]
          simp [-List.mem_filterMap, hkey, AList.lookup_eq_none.mpr hfresh]
        · intro row hrow
          have hmem := hwrites _ hrow
          have hkey : row.id ∈ (w.session i).flushWrites.flatMap Write.eventKeys :=
            List.mem_flatMap.mpr ⟨_, hmem, List.mem_singleton_self _⟩
          have hfresh : row.id ∉ w.db.outbox := fun hdb => hconflict
            ⟨_, hmem, Database.mem_outbox_writeAll _ hdb⟩
          rw [lockWrites, view_acquireLocks_self]
          simp [-List.mem_flatMap, hkey, AList.lookup_eq_none.mpr hfresh]
  · cases h

/-- The view after a remote call. -/
theorem view_call {w' : World} {c : Choice} (entry : Option String → Entry) (exn : String → Exn)
    {r : Except Exn Unit} (hthread : ∀ error, (entry error).thread = i)
    (haction : ∀ error, (entry error).isAction = true)
    (hquiet : ∀ error j ws, entry error ≠ .committed j ws)
    (h : w.call c entry exn = some (r, w')) :
    r = .ok () ∧ w'.view i = (w.view i).act (entry none) ∨
      ∃ text, r = .error (exn text) ∧ w'.view i = (w.view i).act (entry (some text)) := by
  unfold call at h
  split at h
  · cases h
    exact .inl ⟨rfl, view_record_act _ (hthread _) (haction _) (hquiet _)⟩
  · cases h
    exact .inr ⟨_, rfl, view_record_act _ (hthread _) (haction _) (hquiet _)⟩
  · cases h

theorem view_rollback_self : (w.rollback i).view i = (w.view i).ended {} := by
  ext1 <;> simp [view, View.ended, rollback, releaseLocks]

end World

end RiskProvider

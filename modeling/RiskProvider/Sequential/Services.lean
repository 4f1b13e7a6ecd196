import RiskProvider.Limits.Stored
import RiskProvider.Sequential.Rules

/-!
# The ticket service, running alone

Rules for the operations of `TicketService` in complete runs without concurrent writers. Each says
which writes the operation commits, so that the rows after it follow from `Database.writeAll`.
`Ticket.Matches` relates a committed row to the instance that the session has of it: they agree in
all columns but `updated_at`, which the database sets.
-/

namespace RiskProvider

/-! ### Rows and instances -/

namespace Ticket

variable {row loaded attrs : Ticket}

/-- The columns are those of the instance, except for `updated_at`. -/
def Matches (row attrs : Ticket) : Prop := ∃ now, row = { attrs with updatedAt := now }

/-- The instance has been loaded as `loaded`; only columns that an update can set have changed. -/
def Revises (attrs loaded : Ticket) : Prop :=
  attrs = loaded.patch (loaded.diff attrs) attrs.updatedAt

theorem matches_self (row : Ticket) : row.Matches row := ⟨row.updatedAt, rfl⟩

theorem revises_recommended (t : Ticket) (p : RecommendationPayload) (now : Time) :
    (t.recommended p now).Revises t := by
  simp [Revises, patch, diff, recommended]

theorem revises_settled (t : Ticket) (now : Time) : (t.settled now).Revises t := by
  simp [Revises, patch, diff, settled]

theorem revises_cancelRequested (t : Ticket) (reason : String) (now : Time) :
    (t.cancelRequested reason now).Revises t := by
  simp [Revises, patch, diff, cancelRequested]

theorem revises_cancelled (t : Ticket) (now : Time) : (t.cancelled now).Revises t := by
  simp [Revises, patch, diff, cancelled]

/-- The update that a flush emits makes the row match the instance again. -/
theorem Matches.patch_diff (h : row.Matches loaded) (hrevises : attrs.Revises loaded)
    (now : Time) : (row.patch (loaded.diff attrs) now).Matches attrs := by
  obtain ⟨u, rfl⟩ := h
  refine ⟨now, ?_⟩
  calc Ticket.patch { loaded with updatedAt := u } (loaded.diff attrs) now
      = { loaded.patch (loaded.diff attrs) attrs.updatedAt with updatedAt := now } := rfl
    _ = { attrs with updatedAt := now } := by rw [← hrevises]

/-- No update is emitted when the row matches already. -/
theorem Matches.of_diff_eq (h : row.Matches loaded) (hrevises : attrs.Revises loaded)
    (hdiff : loaded.diff attrs = {}) : row.Matches attrs := by
  obtain ⟨u, rfl⟩ := h
  refine ⟨u, ?_⟩
  rw [hrevises, hdiff]
  rfl

end Ticket

/-! ### Texts that the database takes -/

/-- An event for the provider can be added when its payload can. -/
theorem NewObject.recordable_outbound {id entityId : UUID} {payload : Dict}
    (h : Json.storableFields payload = true) :
    (NewObject.event
      { id, entityId, payload, eventType := eventTypeTicketOutbound,
        routingKey := topology.providerOutRoutingKey }).Recordable := by
  have htype : eventTypeTicketOutbound.length ≤ 128 ∧ storableText eventTypeTicketOutbound = true := by
    decide
  have hkey : topology.providerOutRoutingKey.length ≤ 255 ∧
      storableText topology.providerOutRoutingKey = true := by
    decide
  exact ⟨⟨htype.1, hkey.1⟩, htype.2, hkey.2, h⟩

namespace Session.Editing

variable {s : Session} {t : UUID} {loaded attrs : Ticket} {began : Time} {ws : List Write}

theorem attrs_of_dirty (h : s.Editing t loaded attrs began ws) {inst : Instance}
    (hinst : inst ∈ s.dirtyInstances) : inst.attrs = attrs := by
  obtain ⟨k, hk, hlive⟩ := List.mem_filterMap.mp hinst
  rcases h.dirty with hdirty | ⟨hdirty, -⟩
  · obtain rfl : k = t := by simpa [hdirty] using hk
    rw [h.live] at hlive
    exact congrArg Instance.attrs (Option.some.inj hlive).symm
  · simp [hdirty] at hk

/-- A flush of the edited ticket is not rejected when its texts can be recorded. -/
theorem recordable (h : s.Editing t loaded attrs began ws) (hattrs : attrs.Recordable) :
    s.FlushFits ∧ s.FlushStorable := by
  have hadded : ∀ o, o ∉ s.added := fun o ho => by simp [h.added] at ho
  exact ⟨⟨fun inst hinst => h.attrs_of_dirty hinst ▸ hattrs.1, fun o ho => absurd ho (hadded o)⟩,
    fun inst hinst => h.attrs_of_dirty hinst ▸ hattrs.2, fun o ho => absurd ho (hadded o)⟩

/-- The same with an event added. -/
theorem recordable_add (h : s.Editing t loaded attrs began ws) (hattrs : attrs.Recordable)
    {o : NewObject} (ho : o.Recordable) : (s.add o).FlushFits ∧ (s.add o).FlushStorable := by
  have hadded : ∀ o' ∈ (s.add o).added, o' = o := fun o' ho' => by
    simpa [Session.add, h.added] using ho'
  have hdirty : ∀ inst ∈ (s.add o).dirtyInstances, inst.attrs = attrs :=
    fun inst hinst => h.attrs_of_dirty hinst
  exact ⟨⟨fun inst hinst => hdirty inst hinst ▸ hattrs.1, fun o' ho' => hadded o' ho' ▸ ho.1⟩,
    fun inst hinst => hdirty inst hinst ▸ hattrs.2, fun o' ho' => hadded o' ho' ▸ ho.2⟩

end Session.Editing

namespace Database

variable {db : Database} {row loaded attrs : Ticket} {began : Time} {ws : List Write}

/-- The row of the edited ticket after the writes matches the instance. -/
theorem lookup_edits_matches (h : Edits ws loaded attrs began)
    (hrow : db.tickets.lookup loaded.id = some row) (hmatches : row.Matches loaded)
    (hrevises : attrs.Revises loaded) :
    ∃ row', (db.writeAll ws).tickets.lookup loaded.id = some row' ∧ row'.Matches attrs := by
  obtain ⟨before, after, rfl, hbefore, hafter⟩ := h
  have hrow' : (db.writeAll before).tickets.lookup loaded.id = some row := by
    rw [lookup_tickets_writeAll fun wr hwr => by simp [hbefore wr hwr], hrow]
  rw [writeAll_append, writeAll_append,
    lookup_tickets_writeAll fun wr hwr => by simp [hafter wr hwr]]
  unfold rewrite Instance.update
  dsimp only
  split
  next hdiff => exact ⟨row, hrow', hmatches.of_diff_eq hrevises hdiff⟩
  next => exact ⟨_, by simp [write, hrow'], hmatches.patch_diff hrevises began⟩

/-- An update of a ticket leaves the outbox and the inbox as they are. -/
theorem writeAll_rewrite (db : Database) (loaded attrs : Ticket) (began : Time) :
    (db.writeAll (rewrite loaded attrs began)).outbox = db.outbox ∧
      (db.writeAll (rewrite loaded attrs began)).inbox = db.inbox := by
  unfold rewrite Instance.update
  dsimp only
  split
  · exact ⟨rfl, rfl⟩
  · exact ⟨rfl, rfl⟩

/-- Claims leave the outbox as it is. -/
theorem outbox_writeAll_claims (h : ∀ wr ∈ ws, ∃ claim, wr = .insertInbox claim) :
    (db.writeAll ws).outbox = db.outbox := by
  induction ws generalizing db with
  | nil => rfl
  | cons wr ws ih =>
      obtain ⟨claim, rfl⟩ := h wr List.mem_cons_self
      exact ih fun wr' hwr' => h wr' (List.mem_cons_of_mem _ hwr')

end Database

/-! ### Commits -/

namespace Solo

/-- The transaction of thread `i`, which has worked on ticket `t`, is committed with the writes
`ws`. -/
structure Commits (v : Solo) (i : ℕ) (t : UUID) (ws : List Write) (v' : Solo) : Prop where
  db : v'.db = v.db.writeAll ws
  actions : v'.actions = .committed i ws :: v.actions
  fault : v'.fault = v.fault
  clean : v'.session.Clean []
  others : ∀ row, row.id ≠ t → v'.session.attrs row = v.session.attrs row

theorem Keeps.commits {v v₁ v₂ : Solo} {i : ℕ} {t : UUID} {ws : List Write} (h : v.Keeps t v₁)
    (h' : v₁.Commits i t ws v₂) : v.Commits i t ws v₂ where
  db := by rw [h'.db, h.db]
  actions := by rw [h'.actions, h.actions]
  fault := h'.fault.trans h.fault
  clean := h'.clean
  others row hrow := (h'.others row hrow).trans (h.others row hrow)

theorem Keeps.act {v v₁ : Solo} {t : UUID} (h : v.Keeps t v₁) (e : Entry) :
    (v.act e).Keeps t (v₁.act e) where
  db := h.db
  actions := by simp [h.actions]
  fault := h.fault
  failed := h.failed
  others := h.others

end Solo

namespace Alone

variable [Codecs] {faults : Faults} {i : ℕ} {v : Solo} {F : Exn → Solo → Prop}
variable {t : UUID} {loaded attrs : Ticket} {began : Time} {ws : List Write}

/-- A flush of the edited ticket. -/
theorem flush_editing {Q : Unit → Solo → Prop}
    (h : v.session.Editing t loaded attrs began ws)
    (herror : ∀ x v', v.Faulted faults (¬attrs.Recordable) x v' → F x v')
    (hok : ∀ v', v.Keeps t v' →
      v'.session.Editing t attrs attrs began (ws ++ rewrite loaded attrs began) →
      v'.session.dirty = [] → Q () v') :
    Alone faults i (RiskProvider.perform .flush) Q F v := by
  refine flush (fun x v' hx => herror x v' (hx.mono (mt h.recordable)))
    (fun hdirty _ => hok v (Solo.Keeps.refl v) (h.of_clean hdirty) hdirty) fun now _ _ => ?_
  rw [Session.beginTx_of_begun h.begun]
  have hnone : ∀ id, v.session.addedInstance id = none := fun id => by
    simp [Session.addedInstance, h.added]
  exact hok _ ⟨rfl, rfl, rfl, rfl, fun row _ => Session.attrs_flushed (hnone _)⟩ h.flushed rfl

/-- `session.commit()` with changes of one ticket. -/
theorem commit_staged {Q : Unit → Solo → Prop} (h : v.session.Staged t attrs began ws)
    (herror : ∀ x v', v.Faulted faults (¬attrs.Recordable) x v' → F x v')
    (hok : ∀ v', v.Commits i t ws v' → v'.session.identityMap t = some ⟨attrs, attrs⟩ → Q () v') :
    Alone faults i AsyncSession.commit Q F v := by
  obtain ⟨loaded, ws', hediting, rfl⟩ := h
  refine bind (flush_editing hediting herror fun v₁ hkeeps h₁ hdirty => ?_)
  refine commitTx (fun x v' hx => herror x v' (hkeeps.faulted (hx.mono False.elim))) fun _ now => ?_
  obtain ⟨hclean, hlive⟩ := h₁.committed hdirty now
  refine hok _ (hkeeps.commits ⟨?_, ?_, rfl, hclean, fun _ _ => rfl⟩) hlive
  · simp [Solo.committed, h₁.writes]
  · simp [Solo.committed, h₁.writes]

/-- Attributes of the edited ticket are assigned. -/
theorem assign_editing {attrs' : Ticket} {Q : Unit → Solo → Prop}
    (h : v.session.Editing t loaded attrs began ws) (hid : attrs'.id = t)
    (hok : ∀ v', v.Keeps t v' → v'.session.Editing t loaded attrs' began ws → Q () v') :
    Alone faults i (RiskProvider.perform (.assign attrs')) Q F v := by
  have hediting := h.assign attrs' hid
  refine assign (hok _ ⟨rfl, rfl, rfl, ?_, fun row hrow => ?_⟩ hediting)
  · exact hediting.failed.trans h.failed.symm
  · exact Session.attrs_assign_of_ne (hid ▸ hrow)

/-- `_change_status` -/
theorem changeStatus {target : TicketStatus} {Q : Ticket → Solo → Prop}
    (h : v.session.Editing t loaded attrs began ws)
    (herror : ∀ x v',
      v.Faulted faults (¬{ attrs with status := target }.Recordable) x v' → F x v')
    (hok : ∀ v', v.Keeps t v' →
      v'.session.Staged t { attrs with status := target } began
        (ws ++ rewrite loaded { attrs with status := target } began) →
      Q { attrs with status := target } v') :
    Alone faults i (TicketService.changeStatus attrs target false) Q F v := by
  unfold TicketService.changeStatus
  dsimp only
  split
  next heq =>
    have hsame : { attrs with status := target } = attrs := by rw [← heq]
    rw [hsame] at hok
    exact pure (hok v (Solo.Keeps.refl v) h.staged)
  next =>
    refine bind (assign_editing h h.attrs_id fun v₁ hk₁ h₁ => ?_)
    refine bind (countTransition (bind (flush_editing h₁
      (fun x v' hx => herror x v' (hk₁.faulted hx)) fun v₂ hk₂ h₂ _ => ?_)))
    exact pure (hok v₂ (hk₁.trans hk₂) ⟨_, _, h₂, by simp⟩)

/-- `OutboxRepository.add`, with changes of one ticket. -/
theorem addEvent {entityId : UUID} {eventType routingKey : String} {payload : Dict}
    {Q : Unit → Solo → Prop} (h : v.session.Staged t attrs began ws)
    (herror : ∀ x v', v.Faulted faults (¬(attrs.Recordable ∧ ∀ id, (NewObject.event
      { id, entityId, eventType, routingKey, payload }).Recordable)) x v' → F x v')
    (hok : ∀ v' eventId, v.Keeps t v' → eventId ∉ v.db.outbox →
      v'.session.Staged t attrs began (ws ++ [.insertEvent
        { id := eventId, entityId, eventType, routingKey, payload, createdAt := began,
          updatedAt := began }]) → Q () v') :
    Alone faults i (OutboxRepository.add entityId eventType routingKey payload) Q F v := by
  obtain ⟨loaded, ws', hediting, rfl⟩ := h
  refine bind (uuid4 fun eventId => bind (add ?_))
  let row : OutboxEvent := { id := eventId, entityId, eventType, routingKey, payload }
  have hbegun : (v.session.add (.event row)).begun = some began := hediting.begun
  have hkeeps : v.Keeps t (v.setSession (v.session.add (.event row))) :=
    ⟨rfl, rfl, rfl, rfl, fun _ _ => rfl⟩
  refine flush (fun x v' hx => herror x v' (hkeeps.faulted (hx.mono (mt fun hrecordable =>
    hediting.recordable_add hrecordable.1 (hrecordable.2 eventId))))) (fun _ hadded => ?_)
    fun now _ hfits => ?_
  · simp [Session.add] at hadded
  · simp only [Solo.session_setSession, Solo.db_setSession] at hfits ⊢
    rw [Session.beginTx_of_begun hbegun] at hfits ⊢
    have hflushed := hediting.flushed_add row
    refine hok _ eventId ⟨rfl, rfl, rfl, rfl, fun row' _ => ?_⟩ (fun hmem => ?_) ?_
    · refine Session.attrs_flushed ?_
      simp [Session.addedInstance, Session.add, hediting.added]
    · -- the insert would have been rejected
      refine hfits _ (List.mem_append_right _ (List.mem_map_of_mem (a := .event row) ?_)) ?_
      · simp [Session.add]
      · exact Database.mem_outbox_writeAll _ hmem
    · simpa using hflushed.staged

/-- `Message.build` -/
theorem build {type : ProviderMessageType} {payload : type.Payload} {ticketId : Option UUID}
    {Q : Message → Solo → Prop} (hok : ∀ m : Message, m.type = type → m.ticketId = ticketId →
      m.payload = (payloadByType type).dump payload → Q m v) :
    Alone faults i (buildMessage type payload ticketId) Q F v :=
  bind (uuid4 fun _ => bind (utcNow fun _ => pure (hok _ rfl rfl rfl)))

/-- `_build_ack_message` -/
theorem buildAckMessage {ticket : Ticket} {action : RecommendationAction}
    {Q : Message → Solo → Prop} (hok : ∀ m, Acknowledges m ticket.id action → Q m v) :
    Alone faults i (TicketService.buildAckMessage ticket action) Q F v := by
  unfold TicketService.buildAckMessage
  cases action with
  | accept => exact build fun m htype hticket hpayload => hok m ⟨htype, hticket, hpayload⟩
  | decline => exact build fun m htype hticket hpayload => hok m ⟨htype, hticket, hpayload⟩

/-- The common end of the operations that notify the provider: attributes of the ticket are
assigned, its status is changed, a frame is added to the outbox, and the session is committed. -/
theorem notify {attrs' : Ticket} {target : TicketStatus} {buildMessage : Ticket → Py Message}
    {P : Message → Prop} (h : v.session.Editing t loaded attrs began ws)
    (hid : attrs'.id = t)
    (hbuild : ∀ Q v, (∀ m, P m → Q m v) →
      Alone faults i (buildMessage { attrs' with status := target }) Q F v)
    (herror : ∀ x v', v.Faulted faults (¬({ attrs' with status := target }.Recordable ∧
      ∀ m, P m → Json.storableFields m.modelDump = true)) x v' → F x v')
    {Q : Unit → Solo → Prop}
    (hok : ∀ v' eventId m, P m → eventId ∉ v.db.outbox →
      v.Commits i t (ws ++ rewrite loaded { attrs' with status := target } began ++
        [outbound eventId t m began]) v' → Q () v') :
    Alone faults i (do
      RiskProvider.perform (.assign attrs')
      let ticket ← TicketService.changeStatus attrs' target false
      let message ← buildMessage ticket
      OutboxRepository.add ticket.id eventTypeTicketOutbound topology.providerOutRoutingKey
        message.modelDump
      AsyncSession.commit) Q F v := by
  refine bind (assign_editing h hid fun v₁ hk₁ h₁ => ?_)
  refine bind (changeStatus h₁ (fun x v' hx => herror x v' (hk₁.faulted (hx.mono (mt And.left))))
    fun v₂ hk₂ h₂ => ?_)
  replace hk₂ := hk₁.trans hk₂
  refine bind (hbuild _ _ fun m hm => ?_)
  refine bind (addEvent h₂ (fun x v' hx => herror x v' (hk₂.faulted (hx.mono (mt fun h =>
    ⟨h.1, fun _ => NewObject.recordable_outbound (h.2 m hm)⟩)))) fun v₃ eventId hk₃ hevent h₃ => ?_)
  replace hk₃ := hk₂.trans hk₃
  refine commit_staged h₃ (fun x v' hx => herror x v' (hk₃.faulted (hx.mono (mt And.left))))
    fun v₄ hcommits _ => ?_
  refine hok v₄ eventId m hm (hk₂.db ▸ hevent) (hk₃.commits ?_)
  rw [← hid]
  exact hid ▸ hcommits

/-! ### Operations of the ticket service -/

/-- The database takes what `request_cancellation` writes for the ticket. -/
def Cancellable (t : Ticket) (reason : String) : Prop :=
  (∀ now, (t.cancelRequested reason now).Recordable) ∧
    ∀ m, RequestsCancellation m t.id reason → Json.storableFields m.modelDump = true

/-- The database takes what the second transaction of `apply_recommendation` writes for the ticket
after a settle call that has ended with `error`. -/
def Answerable (t : Ticket) (action : RecommendationAction) : Option String → Prop
  | none => (∀ now, (t.settled now).Recordable) ∧
      ∀ m, Acknowledges m t.id action → Json.storableFields m.modelDump = true
  | some text => Cancellable t ("monolith_error: " ++ text)

/-- `request_cancellation` -/
theorem requestCancellation {id : UUID} {reason : String} {Q : Unit → Solo → Prop}
    (hstart : v.session.failed = false → v.session.Clean [])
    (herror : ∀ x v' D, (D → ∃ row, v.db.tickets.lookup id = some row ∧
        ¬ Cancellable (v.session.attrs row) reason) →
      v.Faulted faults D x v' ∨ (∃ error, (v.act (.processed i id none error)).Faulted faults D x v') →
      F x v')
    (hnone : ∀ v', v.session.failed = false → v.db.tickets.lookup id = none →
      v'.session.Clean [] → v.Keeps id v' → Q () v')
    (hok : ∀ v' row error now began eventId m, v.session.failed = false →
      v.db.tickets.lookup id = some row → row.id = id → RequestsCancellation m id reason →
      eventId ∉ v.db.outbox → (v.act (.processed i id none error)).Commits i id
        (rewrite (v.session.attrs row) ((v.session.attrs row).cancelRequested reason now) began ++
          [outbound eventId id m began]) v' → Q () v') :
    Alone faults i (TicketService.requestCancellation id reason) Q F v := by
  unfold TicketService.requestCancellation
  refine bind (getByIdForUpdate (by simp) hstart
    (fun x v' hx => herror x v' False False.elim (.inl hx)) (fun v' hkeeps hlookup hclean =>
      pure (hnone v' (hkeeps.failed.symm.trans hclean.failed) hlookup hclean hkeeps))
    fun row v₁ began hkeeps hlookup hrow h₁ => ?_)
  have hid : (v.session.attrs row).id = id := h₁.attrs_id
  generalize hticket : v.session.attrs row = ticket at h₁ hid
  subst hid
  -- whether the cancel call has succeeded makes no difference to what follows
  have hcommit : ∀ error, Alone faults i (do
      let now ← RiskProvider.utcNow
      let ticket := { ticket with
        failureReason := some (textPrefix 1024 reason)
        cancelledAt := some now }
      RiskProvider.perform (.assign ticket)
      let ticket ← TicketService.changeStatus ticket .cancellationRequested false
      let message ← buildMessage .requestCancellation { ticketId := ticket.id, reason }
        (some ticket.id)
      OutboxRepository.add ticket.id eventTypeTicketOutbound topology.providerOutRoutingKey
        message.modelDump
      AsyncSession.commit) Q F (v₁.act (.processed i ticket.id none error)) := by
    intro error
    have hkeeps' := hkeeps.act (.processed i ticket.id none error)
    refine bind (utcNow fun now => ?_)
    dsimp only
    refine notify (v := v₁.act (.processed i ticket.id none error))
      (P := (RequestsCancellation · ticket.id reason)) h₁ ?_
      (fun Q v hQ => build fun m htype hid hpayload => hQ m ⟨htype, hid, hpayload⟩)
      (fun x v' hx => herror x v' _ (fun hrejected => ⟨row, hlookup, fun hcancellable => ?_⟩)
        (.inr ⟨error, hkeeps'.faulted hx⟩)) fun v' eventId m hm hevent hcommits => ?_
    · rfl
    · rw [hticket] at hcancellable
      exact hrejected ⟨hcancellable.1 now, hcancellable.2⟩
    · refine hok v' row error now began eventId m (hkeeps.failed.symm.trans h₁.failed) hlookup hrow
        hm (hkeeps.db ▸ hevent) ?_
      rw [hticket]
      exact hkeeps'.commits hcommits
  exact bind (attempt (processTicket (hcommit none) fun text => hcommit (some text)))

/-- The second phase of `apply_recommendation`, after a successful settle call. -/
theorem settle {p : RecommendationPayload} {id : UUID} {row a : Ticket} {Q : Unit → Solo → Prop}
    (hclean : v.session.Clean []) (hlive : v.session.identityMap p.ticketId = some ⟨a, a⟩)
    (hid : id = p.ticketId) (hstatus : a.status = p.action.status)
    (hlookup : v.db.tickets.lookup p.ticketId = some row)
    (herror : ∀ x v', v.Faulted faults (¬Answerable a p.action none) x v' → F x v')
    (hok : ∀ v' now began eventId m, Acknowledges m p.ticketId p.action → eventId ∉ v.db.outbox →
      v.Commits i p.ticketId
        (rewrite a (a.settled now) began ++ [outbound eventId p.ticketId m began]) v' → Q () v') :
    Alone faults i (do
      match ← TicketRepository.getByIdForUpdate id with
      | none => AsyncSession.commit
      | some ticket =>
        if ticket.status.Terminal then AsyncSession.commit
        else
          let now ← RiskProvider.utcNow
          let ticket := { ticket with settledAt := some now }
          RiskProvider.perform (.assign ticket)
          let ticket ← TicketService.changeStatus ticket .settled false
          let message ← TicketService.buildAckMessage ticket p.action
          OutboxRepository.add ticket.id eventTypeTicketOutbound
            topology.providerOutRoutingKey message.modelDump
          AsyncSession.commit) Q F v := by
  subst hid
  refine bind (getByIdForUpdate (by simp) (fun _ => hclean)
    (fun x v' hx => herror x v' (hx.mono False.elim))
    (fun v' _ hnone _ => by simp [hlookup] at hnone) fun row v₁ began hkeeps hrow hid h₁ => ?_)
  -- the instance is live, so the select returns it as it was after the first commit
  have hattrs : v.session.attrs row = a := Session.attrs_of_live hlive hid
  rw [hattrs] at h₁ ⊢
  have hopen : ¬ a.status.Terminal := by
    rw [hstatus]
    cases p.action <;> decide
  simp only [hopen, ↓reduceIte]
  have hid' : a.id = p.ticketId := h₁.attrs_id
  refine bind (utcNow fun now => ?_)
  refine notify (P := (Acknowledges · p.ticketId p.action)) h₁ ?_
    (fun Q v hQ => buildAckMessage fun m hm => hQ m (hid' ▸ hm)) (fun x v' hx => ?_)
    fun v' eventId m hm hevent hcommits => ?_
  · exact hid'
  · exact herror x v' (hkeeps.faulted (hx.mono (mt fun h => ⟨h.1 now, hid' ▸ h.2⟩)))
  · exact hok v' now began eventId m hm (hkeeps.db ▸ hevent) (hkeeps.commits hcommits)

/-- How `apply_recommendation` ends that returns, started by a session that has made the writes
`ws`. -/
inductive Applied (i : ℕ) (p : RecommendationPayload) (ws : List Write) (v v' : Solo) : Prop
  /-- The ticket is missing or terminal. -/
  | ignored (hclosed : ∀ row, v.db.tickets.lookup p.ticketId = some row → row.status.Terminal)
      (hkeeps : v.Keeps p.ticketId v')
  /-- The settle call has succeeded. -/
  | settled {row now began v₁ now' began' eventId m}
      (hrow : v.db.tickets.lookup p.ticketId = some row) (hid : row.id = p.ticketId)
      (hopen : ¬ row.status.Terminal)
      (hfirst : v.Commits i p.ticketId (ws ++ rewrite row (row.recommended p now) began) v₁)
      (hevent : eventId ∉ v₁.db.outbox) (hframe : Acknowledges m p.ticketId p.action)
      (hsecond : (v₁.act (.processed i p.ticketId (some p.action) none)).Commits i p.ticketId
        (rewrite (row.recommended p now) ((row.recommended p now).settled now') began' ++
          [outbound eventId p.ticketId m began']) v')
  /-- The settle call has failed; a cancel call has been made. -/
  | cancelled {row now began v₁ text error now' began' eventId m}
      (hrow : v.db.tickets.lookup p.ticketId = some row) (hid : row.id = p.ticketId)
      (hopen : ¬ row.status.Terminal)
      (hfirst : v.Commits i p.ticketId (ws ++ rewrite row (row.recommended p now) began) v₁)
      (hevent : eventId ∉ v₁.db.outbox)
      (hframe : RequestsCancellation m p.ticketId ("monolith_error: " ++ text))
      (hsecond : ((v₁.act (.processed i p.ticketId (some p.action) (some text))).act
          (.processed i p.ticketId none error)).Commits i p.ticketId
        (rewrite (row.recommended p now)
            ((row.recommended p now).cancelRequested ("monolith_error: " ++ text) now') began' ++
          [outbound eventId p.ticketId m began']) v')

/-- How `apply_recommendation` ends that raises: before its first commit or after it. -/
inductive Interrupted (i : ℕ) (p : RecommendationPayload) (ws : List Write) (v : Solo) (x : Exn)
    (v' : Solo) : Prop
  | early (hfaulted : v.Faulted .database True x v')
  | late {row now began v₁ acts} (hrow : v.db.tickets.lookup p.ticketId = some row)
      (hopen : ¬ row.status.Terminal)
      (hfirst : v.Commits i p.ticketId (ws ++ rewrite row (row.recommended p now) began) v₁)
      (hfaulted : { v₁ with actions := acts ++ v₁.actions }.Faulted .database True x v')

/-- It returns without a commit, or after its first commit and another one. -/
theorem Applied.ignored_or_committed {p : RecommendationPayload} {v' : Solo}
    (h : Applied i p ws v v') :
    (v.Keeps p.ticketId v' ∧
      ∀ row, v.db.tickets.lookup p.ticketId = some row → row.status.Terminal) ∨
    ∃ row now began v₁ ws', v.db.tickets.lookup p.ticketId = some row ∧ ¬ row.status.Terminal ∧
      v.Commits i p.ticketId (ws ++ rewrite row (row.recommended p now) began) v₁ ∧
      v'.db = v₁.db.writeAll ws' ∧ v'.fault = v.fault := by
  cases h with
  | ignored hclosed hkeeps => exact .inl ⟨hkeeps, hclosed⟩
  | settled hrow _ hopen hfirst _ _ hsecond =>
      exact .inr ⟨_, _, _, _, _, hrow, hopen, hfirst, hsecond.db,
        hsecond.fault.trans hfirst.fault⟩
  | cancelled hrow _ hopen hfirst _ _ hsecond =>
      exact .inr ⟨_, _, _, _, _, hrow, hopen, hfirst, hsecond.db,
        hsecond.fault.trans hfirst.fault⟩

omit [Codecs] in
/-- It is the database that has raised. -/
theorem Interrupted.fault_isSome {p : RecommendationPayload} {x : Exn} {v' : Solo}
    (h : Interrupted i p ws v x v') : v'.fault.isSome := by
  cases h with
  | early hfaulted => simp [hfaulted.fault_database]
  | late _ _ _ hfaulted => simp [hfaulted.fault_database]

/-- `apply_recommendation` has committed its first transaction and made its settle call, and the
database has raised `x` after that. -/
structure Abandoned (faults : Faults) (i : ℕ) (p : RecommendationPayload) (ws : List Write)
    (v : Solo) (row : Ticket) (v₁ : Solo) (x : Exn) (v' : Solo) : Prop where
  found : v.db.tickets.lookup p.ticketId = some row
  opened : ¬ row.status.Terminal
  first : ∃ now began,
    v.Commits i p.ticketId (ws ++ rewrite row (row.recommended p now) began) v₁
  calls : ∃ (acts : History) (error : Option String),
    (∀ e ∈ acts, ∃ error, e = .processed i p.ticketId none error) ∧
    { v₁ with
      actions := acts ++ Entry.processed i p.ticketId (some p.action) error :: v₁.actions }.Faulted
        faults (∃ now, ¬ Answerable (row.recommended p now) p.action error) x v'

/-- `apply_recommendation`, with the calls that it has made when it raises. -/
theorem applyRecommendation_abandoned {p : RecommendationPayload} (hclean : v.session.Clean ws)
    (hws : ∀ wr ∈ ws, wr.ticketKey = none) (hfresh : ∀ row, v.session.attrs row = row) :
    Alone faults i (TicketService.applyRecommendation p) (fun _ => Applied i p ws v)
      (fun x v' => v.Faulted faults (∃ row now, v.db.tickets.lookup p.ticketId = some row ∧
          ¬ row.status.Terminal ∧ ¬(row.recommended p now).Recordable) x v' ∨
        ∃ row v₁, Abandoned faults i p ws v row v₁ x v') v := by
  unfold TicketService.applyRecommendation
  refine bind (getByIdForUpdate hws (fun _ => hclean)
    (fun x v' hx => .inl (hx.mono False.elim))
    (fun v' hkeeps hnone _ => pure (.ignored (by simp [hnone]) hkeeps)) ?_)
  intro row v₁ began hk₁ hrow hid h₁
  rw [hfresh] at h₁ ⊢
  dsimp only
  split
  next hclosed =>
    refine pure (.ignored (fun row' hrow' => ?_) hk₁)
    obtain rfl : row = row' := by simpa [hrow] using hrow'
    exact hclosed
  next hopen =>
  simp only [RecommendationAction.ite_eq_status]
  refine bind (utcNow fun now => bind (assign_editing h₁ hid fun v₂ hk₂ h₂ => ?_))
  replace hk₂ := hk₁.trans hk₂
  have hlong : ¬(row.recommended p now).Recordable → ∃ row now,
      v.db.tickets.lookup p.ticketId = some row ∧ ¬ row.status.Terminal ∧
        ¬(row.recommended p now).Recordable := fun h => ⟨row, now, hrow, hopen, h⟩
  refine bind (changeStatus h₂ (fun x v' hx => .inl (hk₂.faulted (hx.mono hlong)))
    fun v₃ hk₃ h₃ => ?_)
  replace hk₃ := hk₂.trans hk₃
  refine bind (commit_staged h₃ (fun x v' hx => .inl (hk₃.faulted (hx.mono hlong)))
    fun v₄ hcommits hlive => ?_)
  have hfirst : v.Commits i p.ticketId (ws ++ rewrite row (row.recommended p now) began) v₄ :=
    hk₃.commits hcommits
  replace hlive : v₄.session.identityMap p.ticketId =
    some ⟨row.recommended p now, row.recommended p now⟩ := hlive
  have hlate : ∀ (acts : History) error x v',
      (∀ e ∈ acts, ∃ error, e = .processed i p.ticketId none error) →
      { v₄ with actions := acts ++ Entry.processed i p.ticketId (some p.action) error ::
        v₄.actions }.Faulted faults (¬ Answerable (row.recommended p now) p.action error) x v' →
      ∃ row v₁, Abandoned faults i p ws v row v₁ x v' := fun acts error x v' hacts hx =>
    ⟨row, v₄, hrow, hopen, ⟨now, began, hfirst⟩, acts, error, hacts, hx.mono fun h => ⟨now, h⟩⟩
  -- the row that the first commit has left
  have hedits : Edits (ws ++ rewrite row (row.recommended p now) began) row
      (row.recommended p now) began := ⟨ws, [], by simp, hws, by simp⟩
  obtain ⟨row₄, hrow₄, hmatches₄⟩ := Database.lookup_edits_matches hedits (hid ▸ hrow)
    row.matches_self (row.revises_recommended p now)
  rw [← hfirst.db, hid] at hrow₄
  have hid₄ : row₄.id = p.ticketId := by
    obtain ⟨u, rfl⟩ := hmatches₄
    exact hid
  dsimp only [Ticket.recommended]
  rw [hid]
  refine bind (attempt (processTicket ?_ fun text => ?_))
  · refine settle hfirst.clean hlive rfl rfl hrow₄
      (fun x v' hx => .inr (hlate [] none x v' (by simp) hx)) ?_
    intro v' now' began' eventId m hframe hevent hsecond
    exact .settled hrow hid hopen hfirst hevent hframe hsecond
  · refine requestCancellation (fun _ => hfirst.clean) (fun x v' D hD hx => ?_)
      (fun v' _ hnone => by simp [hrow₄] at hnone) ?_
    · have hrejected : D → ¬ Answerable (row.recommended p now) p.action (some text) := by
        intro h
        obtain ⟨row', hrow', hnot⟩ := hD h
        obtain rfl : row₄ = row' := Option.some.inj (hrow₄.symm.trans hrow')
        have hattrs : v₄.session.attrs row₄ = row.recommended p now :=
          Session.attrs_of_live hlive hid₄
        rwa [Solo.session_act, hattrs] at hnot
      rcases hx with hx | ⟨error, hx⟩
      · exact .inr (hlate [] (some text) x v' (by simp) (hx.mono hrejected))
      · exact .inr (hlate [_] (some text) x v' (by simp) (hx.mono hrejected))
    · intro v' row' error now' began' eventId m _ hrow' hid' hframe hevent hsecond
      have hattrs : v₄.session.attrs row' = row.recommended p now :=
        Session.attrs_of_live hlive hid'
      simp only [Solo.session_act, hattrs] at hsecond
      exact .cancelled hrow hid hopen hfirst hevent hframe hsecond

/-- `apply_recommendation` -/
theorem applyRecommendation {p : RecommendationPayload} (hclean : v.session.Clean ws)
    (hws : ∀ wr ∈ ws, wr.ticketKey = none) (hfresh : ∀ row, v.session.attrs row = row) :
    Alone .database i (TicketService.applyRecommendation p) (fun _ => Applied i p ws v)
      (Interrupted i p ws v) v := by
  refine (applyRecommendation_abandoned hclean hws hfresh).mono (fun _ _ h => h) ?_
  rintro x v' (hx | ⟨row, v₁, hrow, hopen, ⟨now, began, hfirst⟩, acts, error, -, hx⟩)
  · exact .early (hx.mono fun _ => trivial)
  · have hcalls : { v₁ with
        actions := (acts ++ [Entry.processed i p.ticketId (some p.action) error]) ++
          v₁.actions }.Faulted .database True x v' := by
      simpa using hx.mono fun _ => trivial
    exact .late hrow hopen hfirst hcalls

/-- `mark_cancellation_applied` -/
theorem markCancellationApplied {ticketId : UUID} {Q : Unit → Solo → Prop}
    (hclean : v.session.Clean ws) (hws : ∀ wr ∈ ws, wr.ticketKey = none)
    (hfresh : ∀ row, v.session.attrs row = row)
    (herror : ∀ x v' D, (D → ∃ row now, v.db.tickets.lookup ticketId = some row ∧
      ¬(row.cancelled now).Recordable) → v.Faulted faults D x v' → F x v')
    (hclosed : ∀ v', v.Keeps ticketId v' →
      (∀ row, v.db.tickets.lookup ticketId = some row → row.status = .cancelled) → Q () v')
    (hok : ∀ v' row now began, v.db.tickets.lookup ticketId = some row →
      row.status ≠ .cancelled →
      v.Commits i ticketId (ws ++ rewrite row (row.cancelled now) began) v' → Q () v') :
    Alone faults i (TicketService.markCancellationApplied ticketId) Q F v := by
  unfold TicketService.markCancellationApplied
  refine bind (getByIdForUpdate hws (fun _ => hclean)
    (fun x v' => herror x v' False False.elim)
    (fun v' hkeeps hnone _ => pure (hclosed v' hkeeps (by simp [hnone]))) ?_)
  intro row v₁ began hk₁ hrow hid h₁
  rw [hfresh] at h₁ ⊢
  dsimp only
  split
  next hcancelled =>
    refine pure (hclosed v₁ hk₁ fun row' hrow' => ?_)
    obtain rfl : row = row' := by simpa [hrow] using hrow'
    exact hcancelled
  next hopen =>
    refine bind (utcNow fun now => bind (assign_editing h₁ hid fun v₂ hk₂ h₂ => ?_))
    replace hk₂ := hk₁.trans hk₂
    have hlong : ¬(row.cancelled now).Recordable → ∃ row now,
        v.db.tickets.lookup ticketId = some row ∧ ¬(row.cancelled now).Recordable :=
      fun h => ⟨row, now, hrow, h⟩
    refine bind (changeStatus h₂ (fun x v' hx => herror x v' _ hlong (hk₂.faulted hx))
      fun v₃ hk₃ h₃ => ?_)
    replace hk₃ := hk₂.trans hk₃
    refine commit_staged h₃ (fun x v' hx => herror x v' _ hlong (hk₃.faulted hx))
      fun v₄ hcommits _ => ?_
    exact hok v₄ row now began hrow hopen (hk₃.commits hcommits)

end Alone

end RiskProvider

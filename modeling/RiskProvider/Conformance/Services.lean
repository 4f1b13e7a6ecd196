import RiskProvider.Conformance.Rules

/-!
# The ticket service keeps the protocol

Rules for the operations of `TicketService`, assembled from the rules for their effects. A
service that works on one ticket takes its session from `Clean` through `Editing` and `Staged`
back to `Clean`, and its commits are those of `Permitted`.
-/

namespace RiskProvider.Wp

variable [Codecs] {α : Type} {i : ℕ} {v : View} {F : Exn → View → Prop}
variable {t : UUID} {loaded attrs : Ticket} {began : Time} {ws : List Write}

/-! ### Flushes and commits -/

/-- A flush of the edited ticket. -/
theorem flush_editing {Q : Unit → View → Prop}
    (h : v.session.Editing t loaded attrs began ws) (hlocked : ∃ x, v.tickets t = some x)
    (herror : ∀ x v', v.Keeps v' → v'.session.failed = true → F x v')
    (hok : ∀ v', v.Keeps v' →
      v'.session.Editing t attrs attrs began (ws ++ rewrite loaded attrs began) →
      v'.session.dirty = [] → Q () v') :
    Wp i (RiskProvider.perform .flush) Q F v := by
  refine flush (fun k hk => ?_) (by simp [h.failed])
    (fun x s hs => herror x _ (View.keeps_setSession _ _) hs)
    (fun hdirty _ => hok v (View.Keeps.refl v) (h.of_clean hdirty) hdirty)
    fun now v' _ hkeeps hsession _ _ => ?_
  · obtain rfl : k = t := by
      rcases h.dirty with hdirty | ⟨hdirty, -⟩
      · simpa [hdirty] using hk
      · simp [hdirty] at hk
    exact hlocked
  · rw [Session.beginTx_of_begun h.begun] at hsession
    exact hok v' hkeeps (hsession ▸ h.flushed) (hsession ▸ rfl)

/-- `session.commit()` with changes of one ticket. -/
theorem commit_staged {Q : Unit → View → Prop}
    (h : v.session.Staged t attrs began ws) (hlocked : ∃ x, v.tickets t = some x)
    (herror : ∀ x v', v.Keeps v' → v'.session.failed = true → F x v')
    (hrecancels : ∀ wr ∈ ws, ∀ k ∈ wr.recancels,
      k = t ∧ attrs.status = .cancellationRequested)
    (hallows : ∀ v', v.Keeps v' → Allows i v' (.committed i ws))
    (hok : ∀ v', v'.actions = .committed i ws :: v.actions → v'.unacked = v.unacked →
      v'.session.Clean [] → v'.session.identityMap t = some ⟨attrs, attrs⟩ → Q () v') :
    Wp i AsyncSession.commit Q F v := by
  obtain ⟨loaded, ws', hediting, rfl⟩ := h
  refine bind (flush_editing hediting hlocked herror fun v₁ hkeeps h₁ hdirty => ?_)
  have hwrites := h₁.writes
  refine commitTx ?_ (fun wr hwr k hk => ?_) (by simp [h₁.failed])
    (fun s hs => herror _ _ (hkeeps.trans (View.keeps_setSession _ _)) hs) fun _ now => ?_
  · rw [hwrites]
    exact hallows v₁ hkeeps
  · obtain ⟨rfl, hstatus⟩ := hrecancels wr (hwrites ▸ hwr) k hk
    exact ⟨_, h₁.live, hstatus⟩
  · obtain ⟨hclean, hlive⟩ := h₁.committed hdirty now
    refine hok _ ?_ hkeeps.unacked hclean hlive
    simp [View.committed, View.ended, hwrites, hkeeps.actions]

/-- `session.commit()` without changes. -/
theorem commit_clean {Q : Unit → View → Prop} (h : v.session.Clean ws)
    (herror : ∀ x v', v.Keeps v' → v'.session.failed = true → F x v')
    (hrecancels : ∀ wr ∈ ws, wr.recancels = none)
    (hallows : Allows i v (.committed i ws))
    (hok : ∀ v', v'.actions = .committed i ws :: v.actions → v'.unacked = v.unacked →
      v'.session.Clean [] → Q () v') :
    Wp i AsyncSession.commit Q F v := by
  have hcommit : Wp i (RiskProvider.perform .commit) Q F v := by
    refine commitTx (h.writes ▸ hallows)
      (fun wr hwr k hk => by simp [hrecancels wr (h.writes ▸ hwr)] at hk) (by simp [h.failed])
      (fun s hs => herror _ _ (View.keeps_setSession _ _) hs) fun _ now => ?_
    refine hok _ ?_ rfl (h.committed now)
    simp [View.committed, View.ended, h.writes]
  exact bind (flush (by simp [h.dirty]) (by simp [h.failed])
    (fun x s hs => herror x _ (View.keeps_setSession _ _) hs) (fun _ _ => hcommit)
    fun _ _ hpending => absurd ⟨h.dirty, h.added⟩ hpending)

/-! ### Steps of the services -/

/-- Attributes of the edited ticket are assigned. -/
theorem assign_editing {attrs' : Ticket} {Q : Unit → View → Prop}
    (h : v.session.Editing t loaded attrs began ws) (hid : attrs'.id = t)
    (hok : ∀ v', v.Keeps v' → v'.session.Editing t loaded attrs' began ws → Q () v') :
    Wp i (RiskProvider.perform (.assign attrs')) Q F v :=
  assign (hok _ (View.keeps_setSession _ _) (h.assign attrs' hid))

/-- `_change_status` -/
theorem changeStatus {target : TicketStatus} {Q : Ticket → View → Prop}
    (h : v.session.Editing t loaded attrs began ws) (hlocked : ∃ x, v.tickets t = some x)
    (herror : ∀ x v', v.Keeps v' → v'.session.failed = true → F x v')
    (hok : ∀ v', v.Keeps v' →
      v'.session.Staged t { attrs with status := target } began
        (ws ++ rewrite loaded { attrs with status := target } began) →
      Q { attrs with status := target } v') :
    Wp i (TicketService.changeStatus attrs target false) Q F v := by
  unfold TicketService.changeStatus
  dsimp only
  split
  next heq =>
    have hsame : { attrs with status := target } = attrs := by rw [← heq]
    rw [hsame] at hok
    exact pure (hok v (View.Keeps.refl v) h.staged)
  next =>
    refine bind (assign_editing h h.attrs_id fun v₁ hk₁ h₁ => ?_)
    refine bind (countTransition (bind (flush_editing h₁ (hlocked.imp fun _ => hk₁.tickets)
      (fun x v' hv' => herror x v' (hk₁.trans hv')) fun v₂ hk₂ h₂ _ => ?_)))
    exact pure (hok v₂ (hk₁.trans hk₂) ⟨_, _, h₂, by simp⟩)

/-- `OutboxRepository.add`, with changes of one ticket. -/
theorem addEvent {entityId : UUID} {eventType routingKey : String} {payload : Dict}
    {Q : Unit → View → Prop} (h : v.session.Staged t attrs began ws)
    (hlocked : ∃ x, v.tickets t = some x)
    (herror : ∀ x v', v.Keeps v' → v'.session.failed = true → F x v')
    (hok : ∀ v' eventId, v.Keeps v' → v'.events eventId = some none →
      v'.session.Staged t attrs began (ws ++ [.insertEvent
        { id := eventId, entityId, eventType, routingKey, payload, createdAt := began,
          updatedAt := began }]) → Q () v') :
    Wp i (OutboxRepository.add entityId eventType routingKey payload) Q F v := by
  obtain ⟨loaded, ws', hediting, rfl⟩ := h
  refine bind (uuid4 fun eventId => bind (add hediting.added ?_))
  refine flush (fun k hk => ?_) (by simp [View.setSession, Session.add, hediting.failed])
    (fun x s hs => herror x _ (View.keeps_setSession _ _) hs)
    (fun _ hadded => ?_) fun now v' _ hkeeps hsession _ hevents => ?_
  · change k ∈ v.session.dirty at hk
    obtain rfl : k = t := by
      rcases hediting.dirty with hdirty | ⟨hdirty, -⟩
      · simpa [hdirty] using hk
      · simp [hdirty] at hk
    exact hlocked
  · simp [View.setSession, Session.add] at hadded
  · let row : OutboxEvent := { id := eventId, entityId, eventType, routingKey, payload }
    have hbegun : (v.session.add (.event row)).begun = some began := hediting.begun
    change v'.session = ((v.session.add (.event row)).beginTx now).flushed at hsession
    rw [Session.beginTx_of_begun hbegun] at hsession
    refine hok v' eventId ((View.keeps_setSession _ _).trans hkeeps) (hevents row ?_) ?_
    · simp [View.setSession, Session.add, row]
    · rw [hsession]
      simpa using (hediting.flushed_add row).staged

/-- `Message.build` -/
theorem build {type : ProviderMessageType} {payload : type.Payload} {ticketId : Option UUID}
    {Q : Message → View → Prop}
    (hok : ∀ m : Message, m.type = type → m.ticketId = ticketId →
      m.payload = (payloadByType type).dump payload → Q m v) :
    Wp i (buildMessage type payload ticketId) Q F v :=
  bind (uuid4 fun _ => bind (utcNow fun _ => pure (hok _ rfl rfl rfl)))

/-! ### Operations of the ticket service -/

/-- `request_cancellation` -/
theorem requestCancellation {id : UUID} {reason : String} {Q : Unit → View → Prop}
    (hstart : v.session.failed = false → v.session.Clean [])
    (hallows : ∀ v' error, v.session.failed = false → v.Keeps v' →
      Allows i v' (.processed i id none error))
    (herror : ∀ x v', v'.session.failed = true → v.Recovered id v' → F x v')
    (hok : ∀ v', v'.session.Clean [] → v.Recovered id v' →
      (v.session.failed = false ∧ v.Keeps v' ∨ ∃ ws, .committed i ws ∈ v'.actions) → Q () v') :
    Wp i (TicketService.requestCancellation id reason) Q F v := by
  unfold TicketService.requestCancellation
  refine bind (getByIdForUpdate [] (by simp) hstart
    (fun hfail => herror _ v hfail (.of_keeps (View.Keeps.refl v)))
    (fun s hs => herror _ _ hs (.of_keeps (View.keeps_setSession _ _)))
    (fun s hclean hs => pure (hok _ hs (.of_keeps (View.keeps_setSession _ _))
      (.inl ⟨hclean.failed, View.keeps_setSession _ _⟩))) ?_)
  intro row v₁ began hclean hrow hkeeps _ h₁ htickets hfocus
  obtain ⟨f, hfocus⟩ := hfocus
  have hid : (v.session.attrs row).id = id := h₁.attrs_id
  generalize v.session.attrs row = ticket at h₁ hid
  subst hid
  -- whether the cancel call has succeeded makes no difference to what follows
  have hcommit : ∀ error, Wp i (do
      let now ← RiskProvider.utcNow
      let ticket := { ticket with
        failureReason := some (textPrefix 1024 reason)
        cancelledAt := some now }
      RiskProvider.perform (.assign ticket)
      let ticket ← TicketService.changeStatus ticket .cancellationRequested false
      let message ← buildMessage .requestCancellation { ticketId := ticket.id, reason }
        (some ticket.id)
      OutboxRepository.add ticket.id eventTypeTicketOutbound topology.providerOutRoutingKey
        message.modelDump
      AsyncSession.commit) Q F (v₁.act (.processed i ticket.id none error)) := by
    intro error
    have hrecovered : ∀ v', (v₁.act (.processed i ticket.id none error)).Keeps v' →
        v.Recovered ticket.id v' := by
      intro v' hv'
      refine ⟨hv'.unacked.trans hkeeps.unacked, [.processed i ticket.id none error], ?_, ?_⟩
      · rw [hv'.actions, ← hkeeps.actions]
        rfl
      · simp [Entry.recovers]
    have herror' : ∀ x v', (v₁.act (.processed i ticket.id none error)).Keeps v' →
        v'.session.failed = true → F x v' := fun x v' hv' hfail =>
      herror x v' hfail (hrecovered v' hv')
    refine bind (utcNow fun now => bind (assign_editing h₁ rfl fun v₂ hk₂ h₂ => ?_))
    refine bind (changeStatus h₂ ⟨_, hk₂.tickets htickets⟩
      (fun x v' hv' => herror' x v' (hk₂.trans hv')) fun v₃ hk₃ h₃ => ?_)
    replace hk₃ := hk₂.trans hk₃
    refine bind (build fun m htype hticket hpayload => ?_)
    refine bind (addEvent h₃ ⟨_, hk₃.tickets htickets⟩
      (fun x v' hv' => herror' x v' (hk₃.trans hv')) fun v₄ eventId hk₄ hevent h₄ => ?_)
    replace hk₄ := hk₃.trans hk₄
    have hfocus₄ : v₄.focus ticket.id = some (.processed i ticket.id none error :: f) :=
      hk₄.focus (by simp [View.act, hfocus])
    refine commit_staged h₄ ⟨_, hk₄.tickets htickets⟩
      (fun x v' hv' => herror' x v' (hk₄.trans hv')) (fun wr hwr k hk => ?_)
      (fun v₅ hk₅ w hinv hv => ?_) fun v₅ hactions hunacked hclean _ => ?_
    · rcases List.mem_append.mp hwr with hwr | hwr
      · exact ⟨(recancels_rewrite hwr hk).1, rfl⟩
      · cases List.mem_singleton.mp hwr
        cases hk
    · have hlocked : (w.log.focus i ticket.id).head? = some (.processed i ticket.id none error) := by
        rw [World.focus_of_view hv (hk₅.focus hfocus₄)]
        rfl
      exact .requestCancellation hlocked
        (hinv.lookup_ticket hv (hk₅.tickets (hk₄.tickets htickets))) rfl
        (hinv.lookup_event hv (hk₅.events hevent)) ⟨htype, hticket, hpayload⟩
    · obtain ⟨hunacked₄, acts, hacts, hrecovers⟩ := hrecovered v₄ hk₄
      rw [hacts] at hactions
      exact hok v₅ hclean ⟨hunacked.trans hunacked₄, .committed i _ :: acts, hactions,
        List.forall_mem_cons.mpr ⟨rfl, hrecovers⟩⟩ (.inr ⟨_, hactions ▸ List.mem_cons_self⟩)
  refine bind (attempt (processTicket (fun error => ?_) (hcommit none)
    fun text => hcommit (some text)))
  exact hallows v₁ error hclean.failed hkeeps

/-- `_build_ack_message` -/
theorem buildAckMessage {ticket : Ticket} {action : RecommendationAction}
    {Q : Message → View → Prop} (hok : ∀ m, Acknowledges m ticket.id action → Q m v) :
    Wp i (TicketService.buildAckMessage ticket action) Q F v := by
  unfold TicketService.buildAckMessage
  cases action with
  | accept => exact build fun m htype hticket hpayload => hok m ⟨htype, hticket, hpayload⟩
  | decline => exact build fun m htype hticket hpayload => hok m ⟨htype, hticket, hpayload⟩

/-- What the handlers of the consumer start from: the frame is claimed and nothing else has
happened. -/
structure Claimed (i : ℕ) (d : Delivery) (m : Message) (began : Time) (v : View) : Prop where
  clean : v.session.Clean [.insertInbox (m.claim began)]
  fresh : ∀ id, v.session.identityMap id = none
  begun : v.session.begun = some began
  claim : v.claims m.messageId = some none
  actions : ∃ n, v.actions = [.received i .providerIn n d]

/-- The second phase of `apply_recommendation`, after a successful settle call. -/
theorem settle {p : RecommendationPayload} {id : UUID} {a : Ticket} {Q : Unit → View → Prop}
    {acts : History} (hclean : v.session.Clean [])
    (hlive : v.session.identityMap p.ticketId = some ⟨a, a⟩) (hid : id = p.ticketId)
    (hstatus : a.status = p.action.status)
    (hacts : v.actions = .processed i p.ticketId (some p.action) none :: acts)
    (hrecommended : HasRecommended i p acts)
    (herror : ∀ x v', F x v') (hok : ∀ v', v'.unacked = v.unacked → Q () v') :
    Wp i (do
      match ← TicketRepository.getByIdForUpdate id with
      | none => AsyncSession.commit
      | some ticket =>
        if ticket.status.Terminal then AsyncSession.commit
        else
          let now ← RiskProvider.utcNow
          let ticket := { ticket with settledAt := some now }
          RiskProvider.perform (.assign ticket)
          let ticket ← TicketService.changeStatus ticket .settled false
          let message ← TicketService.buildAckMessage ticket p.action
          OutboxRepository.add ticket.id eventTypeTicketOutbound
            topology.providerOutRoutingKey message.modelDump
          AsyncSession.commit) Q F v := by
  subst hid
  refine bind (getByIdForUpdate [] (by simp) (fun _ => hclean) (by simp [hclean.failed])
    (fun s _ => herror _ _) (fun s _ hs => ?_) ?_)
  · exact commit_clean hs (fun x v' _ _ => herror x v') (by simp)
      (fun w _ hv => .commitNothing ((World.actions_of_view hv).trans hacts) hrecommended)
      fun v' _ hunacked _ => hok v' hunacked
  intro row v₁ began _ hrow hk₁ _ h₁ htickets _
  -- the instance is live, so the select returns it as it was after the first commit
  have hattrs : v.session.attrs row = a := by simp [Session.attrs, hrow, hlive]
  rw [hattrs] at h₁ ⊢
  have hid : a.id = p.ticketId := h₁.attrs_id
  have hopen : ¬ a.status.Terminal := by
    rw [hstatus]
    cases p.action <;> decide
  simp only [hopen, ↓reduceIte]
  refine bind (utcNow fun now => bind (assign_editing h₁ hid fun v₂ hk₂ h₂ => ?_))
  refine bind (changeStatus h₂ ⟨_, hk₂.tickets htickets⟩ (fun x v' _ _ => herror x v')
    fun v₃ hk₃ h₃ => ?_)
  replace hk₃ := hk₂.trans hk₃
  refine bind (buildAckMessage fun m hm => ?_)
  refine bind (addEvent h₃ ⟨_, hk₃.tickets htickets⟩ (fun x v' _ _ => herror x v')
    fun v₄ eventId hk₄ hevent h₄ => ?_)
  replace hk₄ := hk₃.trans hk₄
  refine commit_staged h₄ ⟨_, hk₄.tickets htickets⟩ (fun x v' _ _ => herror x v')
    (fun wr hwr k hk => ?_) (fun v₅ hk₅ w hinv hv => ?_)
    fun v₅ _ hunacked _ _ => hok v₅ (hunacked.trans (hk₁.trans hk₄).unacked)
  · rcases List.mem_append.mp hwr with hwr | hwr
    · exact absurd rfl (recancels_rewrite hwr hk).2.2
    · cases List.mem_singleton.mp hwr
      cases hk
  have hacts₅ : w.log.actions i = .processed i p.ticketId (some p.action) none :: acts := by
    rw [World.actions_of_view hv, (hk₁.trans (hk₄.trans hk₅)).actions, hacts]
  have hevent₅ := hinv.lookup_event hv (hk₅.events hevent)
  have hticket₅ := hinv.lookup_ticket hv (hk₅.tickets (hk₄.tickets htickets))
  dsimp only at hm
  rw [hid] at hm ⊢
  exact .settle hacts₅ hrecommended hticket₅ hid hstatus hevent₅ hm

/-- `apply_recommendation`, on a frame that has been claimed. -/
theorem applyRecommendation {d : Delivery} {m : Message} {p : RecommendationPayload}
    {claimed : Time} {Q : Unit → View → Prop} (h : Claimed i d m claimed v)
    (hframe : Recommends d m p)
    (herror : ∀ x v', F x v') (hok : ∀ v', v'.unacked = v.unacked → Q () v') :
    Wp i (TicketService.applyRecommendation p) Q F v := by
  unfold TicketService.applyRecommendation
  obtain ⟨n, hacts⟩ := h.actions
  refine bind (getByIdForUpdate _ (by simp [Write.ticketKey]) (fun _ => h.clean)
    (by simp [h.clean.failed]) (fun s _ => herror _ _) (fun s _ _ => pure (hok _ rfl)) ?_)
  intro row v₁ began _ hrow hk₁ hbegan h₁ htickets _
  obtain rfl := hbegan _ h.begun
  have hattrs : v.session.attrs row = row := by simp [Session.attrs, h.fresh]
  rw [hattrs] at h₁ ⊢
  dsimp only
  split
  · exact pure (hok v₁ hk₁.unacked)
  next hopen =>
  simp only [RecommendationAction.ite_eq_status]
  refine bind (utcNow fun now => bind (assign_editing h₁ hrow fun v₂ hk₂ h₂ => ?_))
  refine bind (changeStatus h₂ ⟨_, hk₂.tickets htickets⟩ (fun x v' _ _ => herror x v')
    fun v₃ hk₃ h₃ => ?_)
  replace hk₃ := hk₂.trans hk₃
  refine bind (commit_staged h₃ ⟨_, hk₃.tickets htickets⟩ (fun x v' _ _ => herror x v')
    (fun wr hwr k hk => ?_) (fun v₄ hk₄ w hinv hv => ?_)
    fun v₄ hacts₄ hunacked₄ hclean₄ hlive₄ => ?_)
  · rcases List.mem_append.mp hwr with hwr | hwr
    · cases List.mem_singleton.mp hwr
      cases hk
    · exact absurd rfl (recancels_rewrite hwr hk).2.2
  · have hk₄ := hk₃.trans hk₄
    have hacts₄ : w.log.actions i = [.received i .providerIn n d] := by
      rw [World.actions_of_view hv, (hk₁.trans hk₄).actions, hacts]
    exact .recommend hacts₄ hframe (hinv.lookup_claim hv ((hk₁.trans hk₄).claims h.claim))
      (hinv.lookup_ticket hv (hk₄.tickets htickets)) hopen
  · have hrecommended : HasRecommended i p v₄.actions :=
      ⟨n, d, m, row, now, began, hframe, hrow, by
        rw [hacts₄, (hk₁.trans hk₃).actions, hacts]
        rfl⟩
    have hunacked : v₄.unacked = v.unacked := hunacked₄.trans (hk₁.trans hk₃).unacked
    refine bind (attempt (processTicket (fun error w _ hv => ?_) ?_ fun text => ?_))
    · change Permitted w.log (.processed i row.id (some p.action) error)
      rw [hrow]
      exact .settleCall (World.actions_of_view hv ▸ hrecommended)
    · exact settle hclean₄ hlive₄ hrow rfl (by rw [← hrow]; rfl) hrecommended herror
        fun v' hv' => hok v' (hv'.trans hunacked)
    · refine requestCancellation (fun _ => hclean₄) (fun v' error _ hv' w _ hv => ?_)
        (fun x v' _ _ => herror x v') fun v' _ hv' _ => hok v' (hv'.unacked.trans hunacked)
      have hacts' : w.log.actions i =
          .processed i p.ticketId (some p.action) (some text) :: v₄.actions := by
        rw [World.actions_of_view hv, hv'.actions, ← hrow]
        rfl
      change Permitted w.log (.processed i row.id none error)
      rw [hrow]
      exact .cancelCall hacts' hrecommended

/-- `mark_cancellation_applied`, on a frame that has been claimed. -/
theorem markCancellationApplied {d : Delivery} {m : Message} {p : CancellationAppliedPayload}
    {claimed : Time} {Q : Unit → View → Prop} (h : Claimed i d m claimed v)
    (hframe : AppliesCancellation d m p)
    (herror : ∀ x v', F x v') (hok : ∀ v', v'.unacked = v.unacked → Q () v') :
    Wp i (TicketService.markCancellationApplied p.ticketId) Q F v := by
  unfold TicketService.markCancellationApplied
  obtain ⟨n, hacts⟩ := h.actions
  refine bind (getByIdForUpdate _ (by simp [Write.ticketKey]) (fun _ => h.clean)
    (by simp [h.clean.failed]) (fun s _ => herror _ _) (fun s _ _ => pure (hok _ rfl)) ?_)
  intro row v₁ began _ hrow hk₁ hbegan h₁ htickets _
  obtain rfl := hbegan _ h.begun
  have hattrs : v.session.attrs row = row := by simp [Session.attrs, h.fresh]
  rw [hattrs] at h₁ ⊢
  dsimp only
  split
  · exact pure (hok v₁ hk₁.unacked)
  next hstatus =>
  refine bind (utcNow fun now => bind (assign_editing h₁ hrow fun v₂ hk₂ h₂ => ?_))
  refine bind (changeStatus h₂ ⟨_, hk₂.tickets htickets⟩ (fun x v' _ _ => herror x v')
    fun v₃ hk₃ h₃ => ?_)
  replace hk₃ := hk₂.trans hk₃
  refine commit_staged h₃ ⟨_, hk₃.tickets htickets⟩ (fun x v' _ _ => herror x v')
    (fun wr hwr k hk => ?_) (fun v₄ hk₄ w hinv hv => ?_)
    fun v₄ _ hunacked _ _ => hok v₄ (hunacked.trans (hk₁.trans hk₃).unacked)
  · rcases List.mem_append.mp hwr with hwr | hwr
    · cases List.mem_singleton.mp hwr
      cases hk
    · exact absurd (recancels_rewrite hwr hk).2.1.symm hstatus
  have hk₄ := hk₃.trans hk₄
  have hacts₄ : w.log.actions i = [.received i .providerIn n d] := by
    rw [World.actions_of_view hv, (hk₁.trans hk₄).actions, hacts]
  exact .cancellationApplied hacts₄ hframe
    (hinv.lookup_claim hv ((hk₁.trans hk₄).claims h.claim))
    (hinv.lookup_ticket hv (hk₄.tickets htickets)) hstatus

end RiskProvider.Wp

import RiskProvider.Conformance.Services

/-!
# The handlers keep the protocol

Rules for the entry points of the processes, and `discipline_sound`: every program of the
platform is safe from the view of a thread that has not started.
-/

namespace RiskProvider

open Interleaving

namespace Wp

variable [Codecs] {α : Type} {i : ℕ} {v : View} {F : Exn → View → Prop}

/-! ### Scopes and subscribers -/

/-- `async with session_scope()` -/
theorem scope {body : Py α} {Q : α → View → Prop}
    (h : Wp i body (fun a v' => Q a (v'.ended {})) (fun x v' => F x (v'.ended {})) v) :
    Wp i (AsyncSession.scope body) Q F v :=
  bind (attempt (h.mono (fun _ _ hQ => bind (rollback (pure hQ)))
    fun _ _ hF => bind (rollback (bind (rollback (throw hF))))))

/-- `Message.model_validate` -/
theorem validate {body : Dict} {Q : Message → View → Prop} (hF : ∀ x v', F x v')
    (hok : ∀ m, Decodes body m → Q m v) : Wp i (Message.validate body) Q F v := by
  refine bind (uuid4 fun u => bind (utcNow fun now => ?_))
  split
  next m hm => exact pure (hok m ⟨u, now, hm⟩)
  next => exact throw (hF _ _)

theorem subscribe {q : Queue} {handler : Dict → Py Unit} (hacts : v.actions = [])
    (hfresh : v.session = {})
    (hhandler : ∀ n d v', v'.actions = [.received i q n d] → v'.unacked = some (q, d) →
      v'.session = {} →
      Wp i (handler d.body) (fun _ v' => Allows i v' (.acked i)) (fun _ _ => True) v') :
    Wp i (RiskProvider.subscribe q handler) (fun _ _ => True) (fun _ _ => True) v := by
  refine bind (receive (fun n d w _ hv hqueue => ?_) fun n d => ?_)
  · exact .received (World.actions_of_view hv ▸ hacts) hqueue
  · have hacts₁ : (v.act (.received i q n d)).actions = [.received i q n d] := by
      simp [View.act, hacts]
    exact bind (attempt ((hhandler n d _ hacts₁ rfl hfresh).mono
      (fun _ _ hack => ack hack trivial) fun _ _ _ => nack trivial))

/-! ### The consumer -/

/-- A consumer's delivery can be acknowledged. -/
theorem allows_acked {d : Delivery} (h : v.unacked = some (.providerIn, d)) :
    Allows i v (.acked i) := fun _ hinv hv =>
  .ackedIn (d := d) ((World.unacked_of_view hinv hv).trans h)

/-- `ProviderConsumerWorker._handle` -/
theorem handle {n : ℕ} {d : Delivery} (hacts : v.actions = [.received i .providerIn n d])
    (hunacked : v.unacked = some (.providerIn, d)) (hfresh : v.session = {}) :
    Wp i (ProviderConsumerWorker.handle d.body) (fun _ v' => Allows i v' (.acked i))
      (fun _ _ => True) v := by
  unfold ProviderConsumerWorker.handle
  refine bind (validate (fun _ _ => trivial) fun m hdecodes => ?_)
  split
  · exact pure (allows_acked hunacked)
  next hhandled =>
  refine scope (bind (tryClaim (hfresh ▸ Session.clean_empty) (fun _ _ => trivial) ?_ ?_))
  · exact fun v₁ _ hk₁ => pure (allows_acked (hk₁.unacked.trans hunacked))
  intro v₁ began hk₁ hclean₁ hmap₁ hbegun₁ hclaim₁
  have hclaimed : Claimed i d m began v₁ :=
    { clean := hclean₁
      fresh := fun id => by rw [hmap₁, hfresh]
      begun := hbegun₁
      claim := hclaim₁
      actions := ⟨n, hk₁.actions.trans hacts⟩ }
  have hacked : ∀ v₂ : View, v₂.unacked = v₁.unacked →
      Allows i (v₂.ended {}) (.acked i) := fun v₂ hv₂ =>
    allows_acked (hv₂.trans (hk₁.unacked.trans hunacked))
  simp only [not_true_eq_false, ↓reduceIte]
  split
  next htype =>
    unfold validated
    split
    next p hp =>
      exact bind (pure (applyRecommendation hclaimed ⟨hdecodes, htype, hp⟩ (fun _ _ => trivial)
        hacked))
    next => exact bind (throw trivial)
  next htype =>
    have htype : m.type = .cancellationApplied := by
      simpa [ProviderConsumerWorker.handledTypes, htype] using hhandled
    unfold validated
    split
    next p hp =>
      exact bind (pure (markCancellationApplied hclaimed ⟨hdecodes, htype, hp⟩
        (fun _ _ => trivial) hacked))
    next => exact bind (throw trivial)

/-! ### The gateway -/

/-- The gateway's delivery can be acknowledged once its frame has been sent. -/
theorem allows_acked_sent {d : Delivery} {m : Message} {outcome : SendOutcome}
    (hunacked : v.unacked = some (.providerOut, d)) (hdecodes : Decodes d.body m)
    (hsent : .sent i m outcome ∈ v.actions) (houtcome : outcome ≠ .transportError) :
    Allows i v (.acked i) := fun _ hinv hv =>
  .ackedOut ((World.unacked_of_view hinv hv).trans hunacked) hdecodes
    (World.actions_of_view hv ▸ hsent) houtcome

/-- `_handle_message_success_ack` -/
theorem handleMessageSuccessAck {n : ℕ} {d : Delivery} {m : Message}
    (hacts : v.actions = [.sent i m .ok, .received i .providerOut n d])
    (hunacked : v.unacked = some (.providerOut, d)) (hdecodes : Decodes d.body m)
    (hfresh : v.session = {}) :
    Wp i (ProviderGatewayWorker.handleMessageSuccessAck m)
      (fun _ v' => Allows i v' (.acked i)) (fun _ _ => True) v := by
  have hacked : ∀ v' : View, v'.unacked = v.unacked → .sent i m .ok ∈ v'.actions →
      Allows i v' (.acked i) := fun v' hv' hsent =>
    allows_acked_sent (hv'.trans hunacked) hdecodes hsent (by simp)
  have hsent : .sent i m .ok ∈ v.actions := by simp [hacts]
  unfold ProviderGatewayWorker.handleMessageSuccessAck
  split
  · exact pure (hacked v rfl hsent)
  · exact pure (hacked v rfl hsent)
  next ticketId target hticket htarget =>
  have hclean : v.session.Clean [] := hfresh ▸ Session.clean_empty
  refine bind (scope (bind (getByIdForUpdate [] (by simp) (fun _ => hclean)
    (fun _ => trivial) (fun _ _ => trivial) (fun s _ _ => ?_) ?_)))
  · exact pure (pure (hacked _ rfl hsent))
  intro row v₁ began _ hrow hk₁ _ h₁ htickets _
  have hattrs : v.session.attrs row = row := by simp [Session.attrs, hfresh]
  rw [hattrs] at h₁ ⊢
  have hsent₁ : .sent i m .ok ∈ v₁.actions := hk₁.actions ▸ hsent
  dsimp only
  split
  · exact pure (pure (hacked _ hk₁.unacked hsent₁))
  next hopen =>
  split
  · exact pure (pure (hacked _ hk₁.unacked hsent₁))
  next hnew =>
  have hcommit : ∀ (count : Option TicketStatus → Py Unit) now v₂,
      count (some row.status) = RiskProvider.perform (.countTransition row.status target) →
      v₁.Keeps v₂ → v₂.session.Editing ticketId row (row.acknowledged target now) began [] →
      Wp i (do AsyncSession.commit; return some row.status)
        (fun transition v' => Wp i (count transition)
          (fun _ v' => Allows i v' (.acked i)) (fun _ _ => True) (v'.ended {}))
        (fun _ _ => True) v₂ := by
    intro count now v₂ hcount hk₂ h₂
    refine bind (commit_staged h₂.staged ⟨_, hk₂.tickets htickets⟩ (fun _ _ _ _ => trivial)
      (fun wr hwr k hk => absurd rfl (recancels_rewrite hwr hk).2.2)
      (fun v₃ hk₃ w hinv hv => ?_) fun v₃ hacts₃ hunacked₃ _ _ => ?_)
    · have hk₃ := hk₂.trans hk₃
      have hacts₃ : w.log.actions i = [.sent i m .ok, .received i .providerOut n d] := by
        rw [World.actions_of_view hv, (hk₁.trans hk₃).actions, hacts]
      exact .acknowledge hacts₃ hdecodes hticket htarget
        (hinv.lookup_ticket hv (hk₃.tickets htickets)) hopen
        (by simpa using hnew)
    · refine pure ?_
      rw [hcount]
      refine countTransition (hacked _ ?_ ?_)
      · exact hunacked₃.trans (hk₁.trans hk₂).unacked
      · change _ ∈ v₃.actions
        rw [hacts₃, hk₂.actions]
        exact List.mem_cons_of_mem _ hsent₁
  split
  next htarget' =>
    refine bind (utcNow fun now => bind (assign_editing h₁ hrow fun v₂ hk₂ h₂ => ?_))
    refine hcommit _ now v₂ rfl hk₂ ?_
    simpa [Ticket.acknowledged, htarget'] using h₂
  next htarget' =>
    refine bind (assign_editing h₁ hrow fun v₂ hk₂ h₂ => ?_)
    refine hcommit _ 0 v₂ rfl hk₂ ?_
    simpa [Ticket.acknowledged, htarget'] using h₂

/-- `_send_to_provider` -/
theorem sendToProvider {n : ℕ} {d : Delivery}
    (hacts : v.actions = [.received i .providerOut n d])
    (hunacked : v.unacked = some (.providerOut, d)) (hfresh : v.session = {}) :
    Wp i (ProviderGatewayWorker.sendToProvider d.body) (fun _ v' => Allows i v' (.acked i))
      (fun _ _ => True) v := by
  refine bind (validate (fun _ _ => trivial) fun m hdecodes => bind (attempt (send
    (fun outcome w _ hv => ?_) ?_ (fun code => ?_) fun text => ?_)))
  · exact .send (World.actions_of_view hv ▸ hacts) hdecodes
  · exact handleMessageSuccessAck (n := n) (by simp [View.act, hacts]) hunacked hdecodes hfresh
  · exact pure (allows_acked_sent hunacked hdecodes (List.mem_cons_self ..) (by simp))
  · exact throw trivial

/-- `_recieve_from_provider` -/
theorem recieveFromProvider (frames : List Message) :
    Wp i (ProviderGatewayWorker.recieveFromProvider frames) (fun _ _ => True) (fun _ _ => True)
      v := by
  induction frames generalizing v with
  | nil => exact pure trivial
  | cons m frames ih =>
      exact bind (attempt (publish (fun _ _ _ _ => .publishFrame) (.inl rfl)
        (bind (attempt (sendAck ih fun _ => ih))) fun _ => pure trivial))

/-! ### The relay -/

/-- The thread has published events of its batch, all of them pending and locked. -/
def Relaying (i : ℕ) (v : View) : Prop :=
  ∀ e ∈ v.actions, (∃ limit ids skipped, e = .fetched i limit ids skipped) ∨
    ∃ row ok, row.status = .pending ∧ v.events row.id = some (some row) ∧
      e = .published i row.routingKey row.id row.payload ok

omit [Codecs] in
theorem Relaying.isRelay (h : Relaying i v) : ∀ e ∈ v.actions, e.isRelay = true := by
  intro e he
  obtain ⟨limit, ids, skipped, rfl⟩ | ⟨row, ok, -, -, rfl⟩ := h e he <;> rfl

omit [Codecs] in
/-- The events that the thread has published, or failed to publish, are locked. -/
theorem Relaying.locked (h : Relaying i v) {id : UUID}
    (hid : id ∈ publishedIds v.actions.reverse ∨ id ∈ failedIds v.actions.reverse) :
    ∃ x, v.events id = some x := by
  obtain ⟨j, key, body, ok, hmem⟩ : ∃ j key body ok, .published j key id body ok ∈ v.actions := by
    rcases hid with hid | hid
    all_goals
      obtain ⟨e, he, hsome⟩ := List.mem_filterMap.mp hid
      cases e with
      | published j key id' body ok =>
          cases ok <;> cases hsome
          exact ⟨j, key, body, _, List.mem_reverse.mp he⟩
      | _ => cases hsome
  obtain ⟨limit, ids, skipped, heq⟩ | ⟨row, ok', -, hevent, heq⟩ := h _ hmem
  · cases heq
  · injection heq with _ _ hrow
    exact ⟨_, hrow ▸ hevent⟩

/-- The loop that publishes the events of a batch. -/
theorem publishAll {pending : List OutboxEvent} {limit : ℕ} {before skipped : List UUID}
    (hbatch : .fetched i limit (before ++ pending.map OutboxEvent.id) skipped ∈ v.actions)
    (hbefore : ∀ id ∈ before, ∃ row ok, v.events id = some (some row) ∧
      .published i row.routingKey id row.payload ok ∈ v.actions)
    (hnodup : (pending.map OutboxEvent.id).Nodup)
    (hpending : ∀ row ∈ pending, row.status = .pending ∧ v.events row.id = some (some row))
    (honce : ∀ row ∈ pending, ∀ key body ok, .published i key row.id body ok ∉ v.actions)
    (hrelaying : Relaying i v) :
    Wp i (OutboxService.publishAll pending)
      (fun r v' => v'.session = v.session ∧ v'.events = v.events ∧ Relaying i v' ∧
        publishedIds v'.actions.reverse = publishedIds v.actions.reverse ++ r.1 ∧
        failedIds v'.actions.reverse = failedIds v.actions.reverse ++ r.2.map Prod.fst)
      (fun _ _ => True) v := by
  induction pending generalizing v before with
  | nil => exact pure ⟨rfl, rfl, hrelaying, by simp, by simp⟩
  | cons row rest ih =>
      obtain ⟨hfresh, hnodup⟩ := List.nodup_cons.mp hnodup
      obtain ⟨hstatus, hevent⟩ := hpending row List.mem_cons_self
      have hact : ∀ ok, Relaying i (v.act (.published i row.routingKey row.id row.payload ok)) := by
        intro ok e he
        rcases List.mem_cons.mp he with rfl | he
        · exact .inr ⟨row, ok, hstatus, hevent, rfl⟩
        · exact hrelaying e he
      have hbefore' : ∀ ok, ∀ id ∈ before ++ [row.id], ∃ row' ok',
          v.events id = some (some row') ∧ .published i row'.routingKey id row'.payload ok' ∈
            (v.act (.published i row.routingKey row.id row.payload ok)).actions := by
        intro ok id hid
        rcases List.mem_append.mp hid with hid | hid
        · obtain ⟨row', ok', hevent', hmem⟩ := hbefore id hid
          exact ⟨row', ok', hevent', List.mem_cons_of_mem _ hmem⟩
        · rw [List.mem_singleton.mp hid]
          exact ⟨row, ok, hevent, List.mem_cons_self⟩
      have honce' : ∀ ok, ∀ row' ∈ rest, ∀ key body ok', .published i key row'.id body ok' ∉
          (v.act (.published i row.routingKey row.id row.payload ok)).actions := by
        intro ok row' hrow' key body ok' hmem
        rcases List.mem_cons.mp hmem with heq | hmem
        · injection heq with _ _ hid
          exact hfresh (List.mem_map.mpr ⟨row', hrow', hid⟩)
        · exact honce row' (List.mem_cons_of_mem _ hrow') key body ok' hmem
      have hrest := fun ok => ih (v := v.act (.published i row.routingKey row.id row.payload ok))
        (List.mem_cons_of_mem _ (by simpa using hbatch)) (hbefore' ok) hnodup
        (fun row' hrow' => hpending row' (List.mem_cons_of_mem _ hrow')) (honce' ok) (hact ok)
      refine bind (attempt (publish (fun ok w hinv hv => ?_) (.inr ⟨_, hevent⟩) ?_ fun text => ?_))
      · have hacts := World.actions_of_view hv
        have hbefore : ∀ id ∈ before, ∃ row ok, w.log.database.outbox.lookup id = some row ∧
            .published i row.routingKey id row.payload ok ∈ w.log.actions i := fun id hid => by
          obtain ⟨row', ok', hevent', hmem⟩ := hbefore id hid
          exact ⟨row', ok', hinv.lookup_event hv hevent', hacts ▸ hmem⟩
        exact .publishEvent (hacts ▸ hrelaying.isRelay) (hacts ▸ hbatch) hbefore
          (hacts ▸ honce row List.mem_cons_self) (hinv.lookup_event hv hevent) hstatus
      · refine bind ((hrest true).mono ?_ fun _ _ _ => trivial)
        rintro ⟨published, failed⟩ v' ⟨hsession, hevents, hrelaying', hpublished, hfailed⟩
        refine pure ⟨hsession, hevents, hrelaying', ?_, ?_⟩
        · simpa [View.act, publishedIds] using hpublished
        · simpa [View.act, failedIds] using hfailed
      · refine bind ((hrest false).mono ?_ fun _ _ _ => trivial)
        rintro ⟨published, failed⟩ v' ⟨hsession, hevents, hrelaying', hpublished, hfailed⟩
        refine pure ⟨hsession, hevents, hrelaying', ?_, ?_⟩
        · simpa [View.act, publishedIds] using hpublished
        · simpa [View.act, failedIds] using hfailed

/-- The loop that marks failed events. -/
theorem markAllFailed {failed : List (UUID × String)} {began : Time} {ws : List Write}
    (hclean : v.session.Clean ws) (hbegun : v.session.begun = some began)
    (hlocked : ∀ id ∈ failed.map Prod.fst, ∃ x, v.events id = some x) :
    Wp i (OutboxService.markAllFailed failed)
      (fun _ v' => v.Keeps v' ∧
        v'.session.Clean (ws ++ failed.map fun f => .markFailed f.1 f.2 began))
      (fun _ _ => True) v := by
  induction failed generalizing v ws with
  | nil => exact pure ⟨View.Keeps.refl v, by simpa using hclean⟩
  | cons f failed ih =>
      refine bind (updateFailed hclean hbegun (hlocked _ List.mem_cons_self) (fun _ _ _ => trivial)
        fun v₁ hk₁ hclean₁ hbegun₁ => ?_)
      have hlocked₁ : ∀ id ∈ failed.map Prod.fst, ∃ x, v₁.events id = some x := fun id hid =>
        (hlocked id (List.mem_cons_of_mem _ hid)).imp fun _ => hk₁.events
      refine (ih hclean₁ hbegun₁ hlocked₁).mono (fun _ v' hv' => ?_) fun _ _ _ => trivial
      exact ⟨hk₁.trans hv'.1, by simpa using hv'.2⟩

/-- `mark_published_many` -/
theorem markPublishedMany {ids : List UUID} {began : Time}
    (hclean : v.session.Clean []) (hbegun : v.session.begun = some began)
    (hlocked : ∀ id ∈ ids, ∃ x, v.events id = some x) :
    Wp i (OutboxRepository.markPublishedMany ids)
      (fun _ v' => v.Keeps v' ∧ v'.session.begun = some began ∧ ∃ publishedAt,
        v'.session.Clean (relayWrites ids [] publishedAt began))
      (fun _ _ => True) v := by
  unfold OutboxRepository.markPublishedMany
  split
  next hids => exact pure ⟨View.Keeps.refl v, hbegun, 0, by simpa [relayWrites, hids] using hclean⟩
  next hids =>
    refine bind (utcNow fun now => updatePublished hclean hbegun hlocked (fun _ _ _ => trivial)
      fun v₁ hk₁ hclean₁ hbegun₁ => ⟨hk₁, hbegun₁, now, ?_⟩)
    simpa [relayWrites, hids] using hclean₁

/-- `send_batch` -/
theorem sendBatch {batchSize : ℕ} (hacts : v.actions = []) (hfresh : v.session = {}) :
    Wp i (OutboxService.sendBatch batchSize) (fun _ _ => True) (fun _ _ => True) v := by
  refine scope (bind (fetchPending (hfresh ▸ Session.clean_empty) hacts (fun _ _ => trivial)
    fun rows skipped v₁ began hclean₁ hbegun₁ hk₁ hnodup hrows => ?_))
  split
  · exact pure trivial
  have hacts₁ : v₁.actions = [.fetched i batchSize (rows.map OutboxEvent.id) skipped] := by
    rw [hk₁.actions]
    simp [View.act, hacts]
  have hrelaying : Relaying i v₁ := by
    intro e he
    rw [hacts₁] at he
    exact .inl ⟨_, _, _, List.mem_singleton.mp he⟩
  have honce : ∀ row ∈ rows, ∀ key body ok, .published i key row.id body ok ∉ v₁.actions := by
    simp [hacts₁]
  have hbatch : .fetched i batchSize ([] ++ rows.map OutboxEvent.id) skipped ∈ v₁.actions := by
    simp [hacts₁]
  refine bind ((publishAll hbatch (by simp) hnodup hrows honce hrelaying).mono ?_
    fun _ _ _ => trivial)
  rintro ⟨published, failed⟩ v₂ ⟨hsession, hevents, hrelaying₂, hpublished, hfailed⟩
  rw [hacts₁] at hpublished hfailed
  have hlockedPublished : ∀ id ∈ published, ∃ x, v₂.events id = some x := fun id hid =>
    hrelaying₂.locked (.inl (by rw [hpublished]; simpa [publishedIds] using hid))
  have hlockedFailed : ∀ id ∈ failed.map Prod.fst, ∃ x, v₂.events id = some x := fun id hid =>
    hrelaying₂.locked (.inr (by rw [hfailed]; simpa [failedIds] using hid))
  have hclean₂ : v₂.session.Clean [] := hsession ▸ hclean₁
  have hbegun₂ : v₂.session.begun = some began := hsession ▸ hbegun₁
  refine bind ((markPublishedMany hclean₂ hbegun₂ hlockedPublished).mono ?_ fun _ _ _ => trivial)
  rintro - v₃ ⟨hk₃, hbegun₃, publishedAt, hclean₃⟩
  refine bind ((markAllFailed hclean₃ hbegun₃ fun id hid =>
    (hlockedFailed id hid).imp fun _ => hk₃.events).mono ?_ fun _ _ _ => trivial)
  rintro - v₄ ⟨hk₄, hclean₄⟩
  replace hk₄ := hk₃.trans hk₄
  refine bind (commit_clean hclean₄ (fun _ _ _ _ => trivial) (fun wr hwr => ?_)
    (fun w hinv hv => ?_) fun v₅ _ _ _ => pure trivial)
  · simp only [relayWrites, List.map_nil, List.append_nil, List.mem_append] at hwr
    rcases hwr with hwr | hwr
    · split at hwr
      · cases hwr
      · cases List.mem_singleton.mp hwr
        rfl
    · obtain ⟨f, -, rfl⟩ := List.mem_map.mp hwr
      rfl
  have hacts₄ : w.log.actions i = v₂.actions := (World.actions_of_view hv).trans hk₄.actions
  have hpublished₄ : published = publishedIds (w.log.actions i).reverse := by
    simpa [hacts₄, publishedIds] using hpublished.symm
  have hfailed₄ : failed.map Prod.fst = failedIds (w.log.actions i).reverse := by
    simpa [hacts₄, failedIds] using hfailed.symm
  have hwrites : relayWrites published [] publishedAt began ++
      failed.map (fun f => .markFailed f.1 f.2 began) =
        relayWrites (publishedIds (w.log.actions i).reverse) failed publishedAt began := by
    rw [← hpublished₄]
    simp [relayWrites]
  rw [hwrites]
  refine .relay (hacts₄ ▸ hrelaying₂.isRelay) hfailed₄ fun e he hpublishes => ?_
  rw [hacts₄] at he
  obtain ⟨limit, ids, skipped, rfl⟩ | ⟨row, ok, hstatus, hevent, rfl⟩ := hrelaying₂ e he
  · cases hpublishes
  exact ⟨row, ok, hinv.lookup_event hv (hk₄.events hevent), hstatus, rfl⟩

/-! ### The reconciler -/

/-- The loop of `_recover_stuck_tickets` -/
theorem recoverAll {tickets : List Ticket} {olderThan : Time} {ids : List UUID}
    (hacts : ∀ e ∈ v.actions, e.isRecovery = true) (hfound : .found i olderThan ids ∈ v.actions)
    (hmem : ∀ t ∈ tickets, t.id ∈ ids) (hnodup : (tickets.map Ticket.id).Nodup)
    (hfirst : ∀ t ∈ tickets, ∀ error, .processed i t.id none error ∉ v.actions)
    (hstart : v.session.failed = false → v.session.Clean [])
    (hlocked : v.session.failed = false → (∀ ws, .committed i ws ∉ v.actions) →
      ∀ t ∈ tickets, ∃ row, row.stuck olderThan ∧ v.tickets t.id = some (some row)) :
    Wp i (ReconcilerWorker.recoverAll tickets) (fun _ _ => True) (fun _ _ => True) v := by
  induction tickets generalizing v with
  | nil => exact pure trivial
  | cons ticket rest ih =>
      obtain ⟨hticket, hnodup⟩ := List.nodup_cons.mp hnodup
      have hrest : ∀ v', v.Recovered ticket.id v' →
          (v'.session.failed = false → v'.session.Clean [] ∧
            (v.session.failed = false ∧ v.Keeps v' ∨ ∃ ws, .committed i ws ∈ v'.actions)) →
          Wp i (ReconcilerWorker.recoverAll rest) (fun _ _ => True) (fun _ _ => True) v' := by
        rintro v' ⟨-, acts, hacts', hrecovers⟩ hstart'
        refine ih ?_ ?_ (fun t ht => hmem t (List.mem_cons_of_mem _ ht)) hnodup ?_
          (fun hfail => (hstart' hfail).1) fun hfail hcommits t ht => ?_
        · intro e he
          rw [hacts'] at he
          rcases List.mem_append.mp he with he | he
          · exact Entry.isRecovery_of_recovers (hrecovers e he)
          · exact hacts e he
        · rw [hacts']
          exact List.mem_append_right _ hfound
        · intro t ht error hprocessed
          rw [hacts'] at hprocessed
          rcases List.mem_append.mp hprocessed with hprocessed | hprocessed
          · have hid : t.id = ticket.id := by simpa [Entry.recovers] using hrecovers _ hprocessed
            exact hticket (List.mem_map.mpr ⟨t, ht, hid⟩)
          · exact hfirst t (List.mem_cons_of_mem _ ht) error hprocessed
        · rcases (hstart' hfail).2 with ⟨hfail', hkeeps⟩ | ⟨ws, hws⟩
          · obtain ⟨row, hstuck, hrow⟩ := hlocked hfail' (fun ws => hkeeps.actions ▸ hcommits ws) t
              (List.mem_cons_of_mem _ ht)
            exact ⟨row, hstuck, hkeeps.tickets hrow⟩
          · exact absurd hws (hcommits ws)
      refine bind (attempt (requestCancellation hstart (fun v' error hfail hv' w hinv hv => ?_)
        (fun x v' hfail hv' => bind (readAttribute (hrest v' hv' (by simp [hfail])) trivial))
        fun v' hclean hv' hkeeps => hrest v' hv' fun _ => ⟨hclean, hkeeps⟩))
      have hacts' : w.log.actions i = v.actions := (World.actions_of_view hv).trans hv'.actions
      refine .recoverCall (hacts' ▸ hacts) (hacts' ▸ hfound) (hmem ticket List.mem_cons_self)
        (hacts' ▸ hfirst ticket List.mem_cons_self) fun hcommits => ?_
      obtain ⟨row, hstuck, hrow⟩ := hlocked hfail (fun ws => hacts' ▸ hcommits ws) ticket
        List.mem_cons_self
      exact ⟨row, hinv.lookup_ticket hv (hv'.tickets hrow), hstuck⟩

/-- `_recover_stuck_tickets` -/
theorem recoverStuckTickets {stuckAfterSec batchSize : ℕ} (hacts : v.actions = [])
    (hfresh : v.session = {}) :
    Wp i (ReconcilerWorker.recoverStuckTickets stuckAfterSec batchSize) (fun _ _ => True)
      (fun _ _ => True) v :=
  bind (utcNow fun _ => scope (bind (findStuck hfresh hacts (fun _ _ => trivial)
    fun rows v' hclean hk hnodup hstuck => by
      have hacts' := hk.actions
      simp only [View.act, hacts] at hacts'
      exact recoverAll (by simp [hacts', Entry.isRecovery]) (hacts' ▸ List.mem_singleton_self _)
        (fun t ht => List.mem_map.mpr ⟨t, ht, rfl⟩) hnodup (by simp [hacts']) (fun _ => hclean)
        fun _ _ t ht => ⟨t, hstuck t ht⟩)))

/-! ### The API -/

/-- `session.add` and `session.flush` of a ticket. -/
theorem addTicket {ticket : Ticket} {Q : Unit → View → Prop} (hclean : v.session.Clean [])
    (herror : ∀ x v', v.Keeps v' → F x v')
    (hok : ∀ v' began, v.Keeps v' → v'.session.begun = some began →
      v'.session.Clean [.insertTicket { ticket with createdAt := began, updatedAt := began }] →
      v'.tickets ticket.id = some none → Q () v') :
    Wp i (TicketRepository.add ticket) Q F v := by
  refine bind (add hclean.added (flush ?_ (fun _ => herror _ _ (View.keeps_setSession _ _))
    (fun x s _ => herror x _ (View.keeps_setSession _ _)) (fun _ hadded => ?_)
    fun now v' _ hk hsession htickets _ => ?_))
  · simp [View.setSession, Session.add, hclean.dirty]
  · simp [View.setSession, Session.add] at hadded
  · refine hok v' (v.session.begun.getD now) ((View.keeps_setSession _ _).trans hk) ?_ ?_ ?_
    · rw [hsession]
      rfl
    · rw [hsession]
      refine ⟨hclean.failed, rfl, rfl, ?_⟩
      simp [View.setSession, Session.add, Session.beginTx, Session.flushed, Session.flushWrites,
        Session.dirtyInstances, NewObject.insert, Session.startedAt, hclean.dirty, hclean.added,
        hclean.writes]
    · exact htickets ticket (by simp [View.setSession, Session.add])

/-- `OutboxRepository.add` in a session without other changes. -/
theorem addEvent_clean {entityId : UUID} {eventType routingKey : String} {payload : Dict}
    {Q : Unit → View → Prop} {began : Time} {ws : List Write} (hclean : v.session.Clean ws)
    (hbegun : v.session.begun = some began) (herror : ∀ x v', v.Keeps v' → F x v')
    (hok : ∀ v' eventId, v.Keeps v' → v'.events eventId = some none →
      v'.session.Clean (ws ++ [.insertEvent
        { id := eventId, entityId, eventType, routingKey, payload, createdAt := began,
          updatedAt := began }]) → Q () v') :
    Wp i (OutboxRepository.add entityId eventType routingKey payload) Q F v := by
  refine bind (uuid4 fun eventId => bind (add hclean.added (flush ?_
    (fun _ => herror _ _ (View.keeps_setSession _ _))
    (fun x s _ => herror x _ (View.keeps_setSession _ _)) (fun _ hadded => ?_)
    fun now v' _ hk hsession _ hevents => ?_)))
  · simp [View.setSession, Session.add, hclean.dirty]
  · simp [View.setSession, Session.add] at hadded
  · let row : OutboxEvent := { id := eventId, entityId, eventType, routingKey, payload }
    refine hok v' eventId ((View.keeps_setSession _ _).trans hk) (hevents row ?_) ?_
    · simp [View.setSession, Session.add, row]
    · rw [hsession]
      refine ⟨hclean.failed, rfl, rfl, ?_⟩
      simp [View.setSession, Session.add, Session.beginTx, Session.flushed, Session.flushWrites,
        Session.dirtyInstances, NewObject.insert, Session.startedAt, hclean.dirty, hclean.added,
        hclean.writes, hbegun]

/-- `_build_ticket_message` -/
theorem buildTicketMessage {ticket : Ticket} {Q : Message → View → Prop}
    (herror : F .validationError v) (hok : ∀ m, Opens m ticket → Q m v) :
    Wp i (TicketService.buildTicketMessage ticket) Q F v := by
  unfold TicketService.buildTicketMessage
  split
  · exact throw herror
  next selections hselections =>
    exact bind (utcNow fun placedAt => build fun m htype hticket hpayload =>
      hok m ⟨htype, hticket, selections, placedAt, hselections, hpayload⟩)

/-- The transaction of `create_ticket`. -/
theorem insertTicket {request : CreateTicketRequest} {key : String} {id : UUID}
    {currency : Currency} (hcurrency : Currency.ofValue? request.currency = some currency)
    (hacts : v.actions = [.looked i key none, .requested i key request])
    (hclean : v.session.Clean []) :
    Wp i (do
      let ticket : Ticket :=
        { id, idempotencyKey := key, userId := request.userId, stakeAmount := request.stakeAmount,
          currency, selections := request.selections, status := .new }
      TicketRepository.add ticket
      let message ← TicketService.buildTicketMessage ticket
      OutboxRepository.add ticket.id eventTypeTicketOutbound topology.providerOutRoutingKey
        message.modelDump
      AsyncSession.commit)
      (fun _ v' => Answers i key request v'.actions (.ok (id, true)))
      (fun _ v' => v'.actions = v.actions) v := by
  refine bind (addTicket hclean (fun _ _ hk => hk.actions)
    fun v₁ began hk₁ hbegun₁ hclean₁ hticket₁ => ?_)
  refine bind (buildTicketMessage hk₁.actions fun m hm => ?_)
  refine bind (addEvent_clean hclean₁ hbegun₁ (fun _ _ hk => (hk₁.trans hk).actions)
    fun v₂ eventId hk₂ hevent₂ hclean₂ => ?_)
  have hticket₂ := hk₂.tickets hticket₁
  replace hk₂ := hk₁.trans hk₂
  refine commit_clean hclean₂ (fun _ _ hk _ => (hk₂.trans hk).actions)
    (by simp [Write.recancels]) (fun w hinv hv => ?_) fun v₃ hacts₃ _ _ => ?_
  · have hframe : Opens m (request.ticket key id currency began) :=
      ⟨hm.type, hm.ticket, hm.payload⟩
    have hkey : ¬ w.log.database.HasKey key := by
      rw [← hinv.db_eq]
      refine ((hinv.writes_held i (.insertTicket (request.ticket key id currency began)) ?_).fresh
        _ rfl).2
      rw [World.session_of_view hv, hclean₂.writes]
      exact List.mem_cons_self
    exact .create ((World.actions_of_view hv).trans (hk₂.actions.trans hacts)) hcurrency hkey
      (hinv.lookup_ticket hv hticket₂) (hinv.lookup_event hv hevent₂) hframe
  · rw [hacts₃, hk₂.actions, hacts]
    have hrow : Write.insertTicket (request.ticket key id currency began) ∈
        [.insertTicket (request.ticket key id currency began), outbound eventId id m began] :=
      List.mem_cons_self
    exact .created hrow

/-- `create_ticket` -/
theorem createTicket {key : String} {request : CreateTicketRequest}
    (hacts : v.actions = [.requested i key request]) (hfresh : v.session = {}) :
    Wp i (TicketService.createTicket key request)
      (fun r v' => Answers i key request v'.actions (.ok (r.1.id, r.2)))
      (fun x v' => Answers i key request v'.actions (.error x)) v := by
  have hlookup : ∀ (answer : Option Ticket → Py (Ticket × Bool)) (v' : View),
      answer none = MonadExcept.throw Exn.integrityError →
      (∀ existing, answer (some existing) = Pure.pure (existing, false)) →
      v'.actions = [.looked i key none, .requested i key request] → v'.session = {} →
      Wp i (TicketRepository.getByIdempotencyKey key >>= answer)
        (fun r v' => Answers i key request v'.actions (.ok (r.1.id, r.2)))
        (fun x v' => Answers i key request v'.actions (.error x)) v' := by
    intro answer v' hnone hsome hacts' hfresh'
    refine bind (selectTicketByKey (by simp [hfresh']) (by simp [hfresh']) ⟨request, .inr hacts'⟩
      (by simp [hfresh']) (fun s _ => .failed (.inr hacts') (by simp))
      (fun now _ => ?_) fun row s => ?_)
    · rw [hnone]
      refine throw ?_
      simp only [View.act, View.setSession, hacts']
      exact .conflicted
    · rw [hsome]
      refine pure ?_
      simp only [View.act, View.setSession, hacts']
      exact .foundLater
  unfold TicketService.createTicket
  refine bind (selectTicketByKey (by simp [hfresh]) (by simp [hfresh]) ⟨request, .inl hacts⟩
    (by simp [hfresh]) (fun s _ => .failed (.inl hacts) (by simp)) (fun now _ => ?_)
    fun row s => pure ?_)
  · have hacts₁ : ((v.setSession (v.session.beginTx now)).act (.looked i key none)).actions =
        [.looked i key none, .requested i key request] := by
      simp [View.act, View.setSession, hacts]
    have hclean : ((v.setSession (v.session.beginTx now)).act (.looked i key none)).session.Clean
        [] := by
      simp only [View.act, View.setSession, hfresh]
      exact Session.clean_empty.beginTx now
    refine bind (uuid4 fun id => ?_)
    split
    · exact throw (.failed (.inr hacts₁) (by simp))
    next currency hcurrency =>
    refine bind (attempt ((insertTicket hcurrency hacts₁ hclean).mono (fun _ _ h => pure h)
      fun x v' hx => ?_))
    replace hx := hx.trans hacts₁
    cases x with
    | integrityError => exact bind (rollback (hlookup _ _ rfl (fun _ => rfl) hx rfl))
    | _ => exact throw (.failed (.inr hx) (by simp))
  · simp only [View.act, View.setSession, hacts]
    exact .found

/-- The endpoint `create_ticket` -/
theorem createTicketEndpoint {key : String} {request : CreateTicketRequest}
    (hacts : v.actions = []) (hfresh : v.session = {}) :
    Wp i (RiskProvider.createTicketEndpoint key request) (fun _ _ => True) (fun _ _ => True) v := by
  refine bind (Wp.request (fun w _ hv => .requested (World.actions_of_view hv ▸ hacts)) ?_)
  have hacts₁ : (v.act (.requested i key request)).actions = [.requested i key request] := by
    simp [View.act, hacts]
  refine bind (attempt (scope ((createTicket hacts₁ hfresh).mono (fun r v' hr => ?_)
    fun x v' hx => ?_)))
  · exact respond (fun w _ hv => .respond (World.actions_of_view hv ▸ hr)) trivial
  · exact respond (fun w _ hv => .respond (World.actions_of_view hv ▸ hx)) trivial

end Wp

/-! ### Soundness -/

variable [Codecs]

/-- The view of a thread that has not started. -/
def View.fresh : View where
  session := {}
  actions := []
  unacked := none
  tickets := fun _ => none
  focus := fun _ => none
  events := fun _ => none
  claims := fun _ => none

theorem safe_toThread {α : Type} {p : Py α} {i : ℕ} {v : View} {w : World}
    (h : Wp i p (fun _ _ => True) (fun _ _ => True) v) (hw : w.view i = v) :
    discipline.Safe i (toThread p) (fun _ _ => True) w :=
  Discipline.Safe.bind (Discipline.Safe.mono (h w hw) fun _ _ _ => trivial)

/-- Every program of the platform keeps the guarantee. -/
theorem safe_program {i : ℕ} (invocation : Invocation) {w : World}
    (hw : w.view i = View.fresh) :
    discipline.Safe i invocation.program (fun _ _ => True) w := by
  cases invocation with
  | createTicket key request => exact safe_toThread (Wp.createTicketEndpoint rfl rfl) hw
  | sendBatch batchSize => exact safe_toThread (Wp.sendBatch rfl rfl) hw
  | sendToProvider =>
      exact safe_toThread (Wp.subscribe rfl rfl fun n d v' => Wp.sendToProvider) hw
  | recieveFromProvider frames => exact safe_toThread (Wp.recieveFromProvider frames) hw
  | handle => exact safe_toThread (Wp.subscribe rfl rfl fun n d v' => Wp.handle) hw
  | recoverStuckTickets stuckAfterSec batchSize =>
      exact safe_toThread (Wp.recoverStuckTickets rfl rfl) hw

/-- The discipline is sound: no thread can break what another one relies on, and every program
of the platform keeps the protocol. -/
theorem discipline_sound : discipline.Sound View.fresh {} where
  inv_init := World.isolated_initial
  view_init _ := rfl
  inv_exec hinv h := World.Acts.isolated (World.exec_acts hinv h) hinv
  frame_exec hinv h hj := World.Acts.frame (World.exec_acts hinv h) hinv hj
  inv_crash hinv := World.Acts.isolated World.crash_acts hinv
  frame_crash hinv hj := World.Acts.frame World.crash_acts hinv hj
  inv_environment hinv := World.Isolated.tick hinv _
  frame_environment := rfl
  safe_program hw := safe_program _ hw

end RiskProvider

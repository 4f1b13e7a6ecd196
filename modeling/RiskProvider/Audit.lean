import RiskProvider.Audit.Handlers
import RiskProvider.Provenance

/-!
# Audit columns agree with the status

In every reachable state the columns of a ticket say how it has got its status (`System.ticket_audited`),
although sessions write on top of outdated instances: no column is emptied, the columns of a status
are set with it, and what has led to a final status has left its columns behind.
-/

namespace RiskProvider

open Interleaving

/-- The columns of a ticket say how it has got its status. -/
def Ticket.Audited (t : Ticket) : Prop :=
  match t.status with
  | .new | .sentToProvider | .expired => True
  | .recommendedConfirm =>
      t.providerRecommendation = some .accept ∧ t.providerRecommendationAt.isSome
  | .recommendedDecline =>
      t.providerRecommendation = some .decline ∧ t.providerRecommendationAt.isSome
  | .settled => t.settledAt.isSome ∧ t.providerRecommendation.isSome
  | .confirmed | .declined =>
      t.settledAt.isSome ∧ t.providerRecommendation.isSome ∧ t.confirmedAt.isSome
  | .cancellationRequested => t.failureReason.isSome ∧ t.cancelledAt.isSome
  | .cancelled => t.cancelledAt.isSome

section General

variable [Codecs]

/-! ### The run -/

omit [Codecs] in
/-- Another thread acts. -/
theorem Knows.frame {σ : Option Ticket} {i : ℕ} {w w' : World} (h : Knows i σ w)
    (hview : w'.view i = w.view i) : Knows i σ w' := h.of_eq (congrArg View.session hview)

/-- The contract is kept, and so are the audit columns. -/
theorem audited_sound : audited.Sound machine (fun _ _ => True)
    (fun w => w.Isolated ∧ w.Audited) Knows none {} where
  inv_init := ⟨World.isolated_initial, .initial⟩
  fits_init i := .nothing i {}
  exec := by
    intro s s' i σ e c r hrun _ ⟨cont, hthread⟩ hexec ⟨hiso, haudited⟩ hknows hmay
    have hguar := discipline_sound.guarantee hrun hthread
    have hacts := World.exec_acts hiso hexec
    have hcurrent : s.world.Current := System.current hrun
    refine ⟨⟨hacts.isolated hiso, haudited.exec hiso hcurrent hguar hknows hmay hexec⟩,
      hknows.exec hiso hguar hmay hexec, fun j τ hj hτ => ?_⟩
    exact hτ.frame (hacts.frame hiso hj)
  crash := by
    intro i w ⟨hiso, haudited⟩
    have hacts : World.Acts i w (w.crash i) := World.crash_acts
    exact ⟨⟨hacts.isolated hiso, haudited.crash hiso⟩, ⟨none, .nothing i _⟩,
      fun j τ hj hτ => hτ.frame (hacts.frame hiso hj)⟩
  environment := by
    intro elapsed w ⟨hiso, haudited⟩
    exact ⟨⟨hiso.tick elapsed, haudited.of_eq rfl rfl rfl⟩, fun i σ h => h.of_eq rfl⟩
  program := Audited.program

variable {C : History → Entry → Prop} {l : History} {i : ℕ} {ws : List Write} {t : UUID}

theorem System.audited {s : System} (h : s.Reachable) : s.world.Audited :=
  (audited_sound.holds (Machine.Reaches.mono (fun _ _ _ => trivial) h)).inv.2

/-! ### Which recommendation -/

/-- A ticket that waits for a recommendation to be settled has it recorded. -/
def Ticket.Recommended (t : Ticket) : Prop :=
  ∀ action : RecommendationAction, t.status = action.status → t.providerRecommendation = some action

omit [Codecs] in
theorem RecommendationAction.status_injective {action action' : RecommendationAction}
    (h : action.status = action'.status) : action = action' := by
  cases action <;> cases action' <;> first | rfl | cases h

omit [Codecs] in
/-- An edit keeps the recommendation that belongs to the status, if what it makes of a row does. -/
theorem Ticket.Recommended.edited {db : Database} {row row' : Ticket} {began : Time}
    (hdb : ∀ id r, db.tickets.lookup id = some r → r.Recommended) (hedits : Edits ws row row' began)
    (hedit : ∀ r, db.tickets.lookup row.id = some r → ∀ r' : Ticket,
      r'.status = (changed row.status row'.status).getD r.status →
      r'.providerRecommendation = (changed row.providerRecommendation
        row'.providerRecommendation).getD r.providerRecommendation → r'.Recommended)
    {r : Ticket} (hr : db.tickets.lookup row.id = some r) :
    ∀ id r, (db.writeAll ws).tickets.lookup id = some r → r.Recommended := by
  intro id r₁ hr₁
  by_cases hid : id = row.id
  · subst hid
    obtain ⟨r', hr', hstatus, hrecommendation⟩ := Database.lookup_edits_self hedits hr
    obtain rfl := Option.some.inj (hr'.symm.trans hr₁)
    exact hedit r hr r' hstatus hrecommendation
  · rw [Database.lookup_edits_ne hedits hid] at hr₁
    exact hdb id r₁ hr₁

omit [Codecs] in
/-- A status that is not waiting needs no recommendation. -/
theorem Ticket.Recommended.of_ne {t : Ticket} (h : ∀ action : RecommendationAction,
    t.status ≠ action.status) : t.Recommended := fun action haction => absurd haction (h action)

omit [Codecs] in
theorem Ticket.Recommended.of_changed {r' : Ticket} {st target : TicketStatus}
    (hstatus : r'.status = (changed st target).getD st)
    (htarget : ∀ action : RecommendationAction, target ≠ action.status) : r'.Recommended := by
  rw [changed_getD] at hstatus
  exact .of_ne fun action => hstatus ▸ htarget action

theorem Permitted.recommended (h : Permitted l (.committed i ws))
    (hold : ∀ id r, l.database.tickets.lookup id = some r → r.Recommended) :
    ∀ id r, (l.database.writeAll ws).tickets.lookup id = some r → r.Recommended := by
  have hkeyed := l.keyed_database.tickets
  cases h with
  | @create _ key id currency eventId m began request hacts hcurrency hkey hticket hevent hframe =>
      intro id' r hr
      by_cases hid : id' = id
      · subst hid
        obtain rfl : request.ticket key id' currency began = r := by
          simpa [Database.write, outbound, CreateTicketRequest.ticket] using hr
        exact .of_ne fun action => by cases action <;> simp [CreateTicketRequest.ticket,
          RecommendationAction.status]
      · refine hold id' r ?_
        rwa [Database.lookup_tickets_writeAll] at hr
        simp [outbound, Write.ticketKey, CreateTicketRequest.ticket, Ne.symm hid]
  | @recommend _ n d m p row now began hacts hframe hunclaimed hrow hopen =>
      have hid := hkeyed _ _ hrow
      refine Ticket.Recommended.edited hold (Edits.of_claim _) (fun r hr r' hstatus hrec => ?_)
        (hid ▸ hrow)
      obtain rfl := Option.some.inj ((hid ▸ hrow : _ = some row).symm.trans hr)
      rw [changed_getD] at hstatus hrec
      intro action haction
      rw [RecommendationAction.status_injective (haction.symm.trans hstatus)]
      exact hrec
  | @settle _ p acts loaded row now eventId m began hacts hrecommended hrow hid hloaded hevent
      hframe =>
      refine Ticket.Recommended.edited hold (Edits.of_outbound _ _ _ _)
        (fun r hr r' hstatus hrec => .of_ne fun action => ?_) (hid ▸ hrow)
      -- the instance is `RECOMMENDED_*`, so `SETTLED` is written whatever the row holds
      have hne : (loaded.settled now).status ≠ loaded.status := by
        rw [hloaded]
        cases p.action <;> simp [Ticket.settled, RecommendationAction.status]
      rw [hstatus, changed_of_ne hne]
      cases action <;> simp [Ticket.settled, RecommendationAction.status]
  | @requestCancellation _ ticketId ok loaded row reason now eventId m began hlocked hrow hid hevent
      hframe =>
      refine Ticket.Recommended.edited hold (Edits.of_outbound _ _ _ _)
        (fun r hr r' hstatus hrec => ?_) (hid ▸ hrow)
      have hsame : r'.providerRecommendation = r.providerRecommendation := by
        simpa [Ticket.cancelRequested, changed] using hrec
      by_cases hne : (loaded.cancelRequested reason now).status = loaded.status
      · -- nothing is written, and the row keeps its status with its recommendation
        intro action haction
        rw [hsame]
        refine hold _ r hr action ?_
        simpa [hstatus, changed, hne] using haction
      · -- the session's instance may be outdated, but what it writes is `CANCELLATION_REQUESTED`
        rw [changed_of_ne hne] at hstatus
        refine .of_ne fun action => ?_
        rw [hstatus]
        cases action <;> simp [Ticket.cancelRequested, RecommendationAction.status]
  | @cancellationApplied _ n d m p row now began hacts hframe hunclaimed hrow hstatus =>
      have hid := hkeyed _ _ hrow
      refine Ticket.Recommended.edited hold (Edits.of_claim _) (fun r hr r' hstatus _ => ?_)
        (hid ▸ hrow)
      obtain rfl := Option.some.inj ((hid ▸ hrow : _ = some row).symm.trans hr)
      refine .of_changed hstatus fun action => ?_
      cases action <;> simp [Ticket.cancelled, RecommendationAction.status]
  | @acknowledge _ n d m ticketId target row now began hacts hdecodes hticket htarget hrow hopen
      hnew =>
      have hid := hkeyed _ _ hrow
      refine Ticket.Recommended.edited hold Edits.of_rewrite (fun r hr r' hstatus _ => ?_)
        (hid ▸ hrow)
      obtain rfl := Option.some.inj ((hid ▸ hrow : _ = some row).symm.trans hr)
      refine .of_changed hstatus fun action heq => ?_
      have htarget' : target = action.status := heq
      subst htarget'
      cases htype : m.type <;> cases action <;> simp [htype, ProviderGatewayWorker.ackTarget,
        RecommendationAction.status] at htarget
  | relay hacts hfailed hpending =>
      intro id r hr
      rw [Database.lookup_tickets_writeAll fun wr hwr => by simp [ticketKey_relayWrites wr hwr]] at hr
      exact hold id r hr
  | commitNothing => exact hold

theorem Conforms.hasRecommendation (h : Conforms C l) {r : Ticket}
    (hr : l.database.tickets.lookup t = some r) : r.Recommended := by
  induction h generalizing t r with
  | nil => cases hr
  | @cons l e h hpermitted he ih =>
      cases e with
      | committed i ws => exact hpermitted.recommended (fun _ _ hr => ih hr) _ _ hr
      | _ => exact ih hr

/-! ### What a final status has behind it -/

/-- The commit that settles a ticket brings it to `SETTLED`. -/
theorem Permitted.status_of_settles (h : Permitted l (.committed i ws))
    (hsets : Sets ws t .settled) : History.status? t (.committed i ws :: l) = some .settled := by
  cases h with
  | create => simp [Sets, outbound, Write.setsStatus] at hsets
  | @recommend _ n d m p row now began hacts hframe hunclaimed hrow hopen =>
      obtain ⟨-, hstatus⟩ := hsets.of_edits (Edits.of_claim _)
      cases haction : p.action <;>
        simp [Ticket.recommended, haction, RecommendationAction.status] at hstatus
  | @settle _ p acts loaded row now eventId m began hacts hrecommended hrow hid hloaded hevent
      hframe =>
      obtain ⟨rfl, -⟩ := hsets.of_edits (Edits.of_outbound _ _ _ _)
      have hne : (loaded.settled now).status ≠ loaded.status := by
        rw [hloaded]
        cases p.action <;> simp [Ticket.settled, RecommendationAction.status]
      obtain ⟨r', hr', hstatus, -⟩ := Database.lookup_edits_self
        (Edits.of_outbound eventId p.ticketId m began) (hid ▸ hrow)
      rw [changed_of_ne hne] at hstatus
      exact History.status?_eq_some.mpr ⟨r', hr', hstatus⟩
  | requestCancellation hlocked hrow hid hevent hframe =>
      obtain ⟨-, hstatus⟩ := hsets.of_edits (Edits.of_outbound _ _ _ _)
      cases hstatus
  | cancellationApplied hacts hframe hunclaimed hrow hstatus =>
      obtain ⟨-, hstatus⟩ := hsets.of_edits (Edits.of_claim _)
      cases hstatus
  | @acknowledge _ n d m ticketId target row now began hacts hdecodes hticket htarget hrow hopen
      hnew =>
      obtain ⟨-, hstatus⟩ := hsets.of_edits Edits.of_rewrite
      obtain rfl : target = .settled := hstatus
      cases htype : m.type <;> simp [htype, ProviderGatewayWorker.ackTarget] at htarget
  | relay hacts hfailed hpending =>
      obtain ⟨wr, hwr, hset⟩ := List.mem_filterMap.mp hsets
      have hkey := ticketKey_relayWrites wr hwr
      cases wr <;> first | cases hset | cases hkey
  | commitNothing => cases hsets

/-- A ticket with a final status has been `SETTLED`. -/
theorem Conforms.settled_of_finalStatus (h : Conforms C l) {action : RecommendationAction}
    (hst : l.status? t = some action.finalStatus) :
    ∃ l' : History, l' <:+ l ∧ l'.status? t = some .settled := by
  refine h.of_finalStatus (P := fun l => ∃ l' : History, l' <:+ l ∧ l'.status? t = some .settled)
    (fun l e hl => ?_) (fun l k n d frame hl hacts hdecodes hticket htarget => ?_) hst
  · obtain ⟨l', hsuffix, hsettled⟩ := hl
    exact ⟨l', hsuffix.trans (List.suffix_cons _ _), hsettled⟩
  · obtain ⟨l₁, l₂, publishing, emitting, j, i, key, settle, row, p, acts, hsent, hreceived,
      hrelayed, -, -, -, -, -, hsets, -⟩ := hl.settles_of_sent hacts hdecodes hticket htarget
    -- the commit that has emitted the frame, within the history
    have hcommitted : (.committed i settle :: emitting) <:+ l :=
      hrelayed.committed.trans ((List.suffix_cons _ _).trans (hrelayed.published.trans
        ((List.suffix_cons _ _).trans (hreceived.trans ((List.suffix_cons _ _).trans hsent)))))
    exact ⟨_, hcommitted, (hl.of_suffix hcommitted).1.status_of_settles hsets⟩

/-- In every reachable state, the columns of every ticket say how it has got its status. -/
theorem System.ticket_audited {s : System} (h : s.Reachable) {id : UUID} {t : Ticket}
    (ht : s.world.db.tickets.lookup id = some t) : t.Audited := by
  have hiso : s.world.Isolated := discipline_sound.invariant h
  have haudited := System.audited h
  have hstamped : t.Stamped := haudited.stamped hiso id t ht
  have hrow : s.world.log.database.tickets.lookup id = some t := hiso.db_eq ▸ ht
  have hrecommended := h.conforms.hasRecommendation hrow
  -- a ticket with a final status keeps the columns that it had when it was settled
  have hsettled : ∀ action : RecommendationAction, t.status = action.finalStatus →
      t.has .settledAt ∧ t.has .recommendation := by
    intro action hstatus
    have hst : s.world.log.status? id = some action.finalStatus :=
      History.status?_eq_some.mpr ⟨t, hrow, hstatus⟩
    obtain ⟨l', hsuffix, hst'⟩ := h.conforms.settled_of_finalStatus hst
    -- no column is emptied after that point of the history
    obtain ⟨hdb, hgrows⟩ := haudited.history l' hsuffix
    obtain ⟨t', ht', hstatus'⟩ := History.status?_eq_some.mp hst'
    obtain ⟨t'', ht'', hkept⟩ := hgrows id t' ht'
    obtain rfl := Option.some.inj (ht''.symm.trans ht)
    have hstamped' := hdb id t' ht'
    unfold Ticket.Stamped at hstamped'
    rw [hstatus'] at hstamped'
    exact ⟨hkept _ (hstamped' _ (by decide)), hkept _ (hstamped' _ (by decide))⟩
  -- the other columns are set with the status
  unfold Ticket.Stamped at hstamped
  unfold Ticket.Audited
  cases hstatus : t.status <;> rw [hstatus] at hstamped
  case new | sentToProvider | expired => trivial
  case recommendedConfirm =>
    exact ⟨hrecommended .accept hstatus, hstamped .recommendedAt (by decide)⟩
  case recommendedDecline =>
    exact ⟨hrecommended .decline hstatus, hstamped .recommendedAt (by decide)⟩
  case settled => exact ⟨hstamped .settledAt (by decide), hstamped .recommendation (by decide)⟩
  case confirmed =>
    obtain ⟨hsettledAt, hrecommendation⟩ := hsettled .accept hstatus
    exact ⟨hsettledAt, hrecommendation, hstamped .confirmedAt (by decide)⟩
  case declined =>
    obtain ⟨hsettledAt, hrecommendation⟩ := hsettled .decline hstatus
    exact ⟨hsettledAt, hrecommendation, hstamped .confirmedAt (by decide)⟩
  case cancellationRequested =>
    exact ⟨hstamped .failureReason (by decide), hstamped .cancelledAt (by decide)⟩
  case cancelled => exact hstamped .cancelledAt (by decide)

end General

/-- A ticket that has been confirmed has its decision, its settlement and its confirmation
recorded. -/
theorem System.ticket_audited_confirmed : ∃ (s : System) (t : Ticket), s.Reachable ∧
    s.world.db.tickets.lookup 1 = some t ∧ t.status = .confirmed ∧ t.Audited := by
  obtain ⟨s, hs, htest⟩ := System.exists_reaches (s := System.initial) anyEntry
    (confirmedRun .accept)
    (fun s => (s.world.db.tickets.lookup 1).any fun t => t.status = .confirmed) (by decide +kernel)
  simp only [Option.any_eq_true, decide_eq_true_eq] at htest
  obtain ⟨t, ht, hstatus⟩ := htest
  exact ⟨s, t, hs.run, ht, hstatus, System.ticket_audited hs.run ht⟩

end RiskProvider

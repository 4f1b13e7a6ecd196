import RiskProvider.Coherence
import RiskProvider.Sequential.Services

/-!
# Outcome of a recommendation

How a complete run of `apply_recommendation` without concurrent writers ends
(`applyRecommendation_outcome`): the ticket is ignored, settled or cancelled, depending on its
status and on the settle call only.
-/

namespace RiskProvider

open Interleaving

section General

variable [Codecs]

/-- Between `db` and `db'`, one event with the frame `m` of ticket `t` is added to the outbox, and
no ticket but `t` changes. -/
structure Database.Notifies (db : Database) (t : UUID) (m : Message) (db' : Database) : Prop where
  /-- The event is pending, and its payload is the frame. -/
  added : ∃ eventId began, eventId ∉ db.outbox ∧ db'.outbox = db.outbox.insert eventId
    { id := eventId, entityId := t, eventType := eventTypeTicketOutbound,
      routingKey := topology.providerOutRoutingKey, payload := m.modelDump,
      createdAt := began, updatedAt := began }
  /-- Its payload decodes as a frame of this type. -/
  decoded : ∀ eventId row, eventId ∉ db.outbox → db'.outbox.lookup eventId = some row →
    row.frameType = some m.type
  others : ∀ id, id ≠ t → db'.tickets.lookup id = db.tickets.lookup id

/-- How a complete run of `apply_recommendation` by thread `i` ends. -/
inductive Outcome (i : ℕ) (p : RecommendationPayload) (w w' : World) : Prop
  /-- The ticket is missing or terminal: nothing is written, and the monolith is not called. -/
  | ignored (hclosed : ∀ row, w.db.tickets.lookup p.ticketId = some row → row.status.Terminal)
      (hdb : w'.db = w.db) (hactions : w'.log.actions i = w.log.actions i)
  /-- The settle call succeeds. -/
  | settled {row row' now now' m ws ws'} (hrow : w.db.tickets.lookup p.ticketId = some row)
      (hopen : ¬ row.status.Terminal)
      (hactions : w'.log.actions i = .committed i ws' ::
        .processed i p.ticketId (some p.action) none :: .committed i ws :: w.log.actions i)
      (hrow' : w'.db.tickets.lookup p.ticketId = some row')
      (hmatches : row'.Matches ((row.recommended p now).settled now'))
      (hframe : Acknowledges m p.ticketId p.action) (hadded : w.db.Notifies p.ticketId m w'.db)
  /-- The settle call fails with `text`, and the cancel call ends with `error`, if it fails. -/
  | cancelled {row row' now now' m text error ws ws'}
      (hrow : w.db.tickets.lookup p.ticketId = some row) (hopen : ¬ row.status.Terminal)
      (hactions : w'.log.actions i = .committed i ws' :: .processed i p.ticketId none error ::
        .processed i p.ticketId (some p.action) (some text) :: .committed i ws :: w.log.actions i)
      (hrow' : w'.db.tickets.lookup p.ticketId = some row')
      (hmatches : row'.Matches
        ((row.recommended p now).cancelRequested ("monolith_error: " ++ text) now'))
      (hframe : RequestsCancellation m p.ticketId ("monolith_error: " ++ text))
      (hadded : w.db.Notifies p.ticketId m w'.db)

variable {i : ℕ} {p : RecommendationPayload} {w w' : World} {ws : List Write}

/-- The outbox after a commit that edits a ticket and adds an event about it. -/
theorem Solo.Commits.outbox_outbound {v v' : Solo} {t : UUID} {loaded attrs : Ticket} {began : Time}
    {eventId : UUID} {m : Message} (h : v.Commits i t
      (rewrite loaded attrs began ++ [outbound eventId t m began]) v') :
    v'.db.outbox = v.db.outbox.insert eventId
      { id := eventId, entityId := t, eventType := eventTypeTicketOutbound,
        routingKey := topology.providerOutRoutingKey, payload := m.modelDump,
        createdAt := began, updatedAt := began } := by
  rw [h.db, Database.writeAll_append, ← (Database.writeAll_rewrite v.db loaded attrs began).1]
  rfl

/-- A commit that edits a ticket and adds an event about it. -/
theorem Solo.Commits.notifies {v v' : Solo} {t : UUID} {loaded attrs : Ticket} {began : Time}
    {eventId : UUID} {m : Message} (h : v.Commits i t
      (rewrite loaded attrs began ++ [outbound eventId t m began]) v') (hid : loaded.id = t)
    (hevent : eventId ∉ v.db.outbox) : v.db.Notifies t m v'.db where
  added := ⟨eventId, began, hevent, h.outbox_outbound⟩
  decoded k row hnew hrow := by
    rw [h.outbox_outbound] at hrow
    by_cases hk : k = eventId
    · subst hk
      rw [AList.lookup_insert] at hrow
      cases hrow
      exact OutboxEvent.frameType_of_payload rfl
    · rw [AList.lookup_insert_ne hk] at hrow
      exact absurd (AList.lookup_isSome.mp (hrow ▸ rfl)) hnew
  others id hne := by
    rw [h.db, Database.lookup_edits_ne (Edits.of_outbound eventId t m began) (hid.symm ▸ hne)]

/-- The rows after the two transactions of `apply_recommendation`, the second one having written
the ticket as `attrs`. -/
theorem rows_of_commits {v v₁ v₂ v' : Solo} {row attrs : Ticket} {now began began' : Time}
    {eventId : UUID} {m : Message} (hrow : v.db.tickets.lookup p.ticketId = some row)
    (hid : row.id = p.ticketId) (hws : ∀ wr ∈ ws, ∃ claim, wr = .insertInbox claim)
    (hfirst : v.Commits i p.ticketId (ws ++ rewrite row (row.recommended p now) began) v₁)
    (hevent : eventId ∉ v₁.db.outbox) (hrevises : attrs.Revises (row.recommended p now))
    (hsecond : v₂.Commits i p.ticketId
      (rewrite (row.recommended p now) attrs began' ++ [outbound eventId p.ticketId m began']) v')
    (hdb : v₂.db = v₁.db) :
    v.db.Notifies p.ticketId m v'.db ∧
      ∃ row', v'.db.tickets.lookup p.ticketId = some row' ∧ row'.Matches attrs := by
  have hid' : (row.recommended p now).id = p.ticketId := hid
  have hedits₁ : Edits (ws ++ rewrite row (row.recommended p now) began) row
      (row.recommended p now) began :=
    ⟨ws, [], by simp, fun wr hwr => (hws wr hwr).elim fun _ heq => heq ▸ rfl, by simp⟩
  have hedits₂ : Edits (rewrite (row.recommended p now) attrs began' ++
      [outbound eventId p.ticketId m began']) (row.recommended p now) attrs began' :=
    Edits.of_outbound eventId p.ticketId m began'
  have houtbox : v₁.db.outbox = v.db.outbox := by
    rw [hfirst.db, Database.writeAll_append, (Database.writeAll_rewrite _ _ _ _).1]
    exact Database.outbox_writeAll_claims hws
  have hnotifies := hsecond.notifies hid' (hdb ▸ hevent)
  rw [hdb] at hnotifies
  refine ⟨⟨houtbox ▸ hnotifies.added, houtbox ▸ hnotifies.decoded, fun id hne => ?_⟩, ?_⟩
  · rw [hnotifies.others id hne, hfirst.db, Database.lookup_edits_ne hedits₁ (hid.symm ▸ hne)]
  · obtain ⟨row₁, hrow₁, hmatches₁⟩ := Database.lookup_edits_matches hedits₁ (hid ▸ hrow)
      row.matches_self (row.revises_recommended p now)
    rw [← hfirst.db, ← hdb] at hrow₁
    have hfinal := Database.lookup_edits_matches hedits₂ hrow₁ hmatches₁ hrevises
    rwa [← hsecond.db, hid'] at hfinal

/-- A complete run of `apply_recommendation` in which the database raises no exception returns, and
leaves the world as `Outcome` says. It is started by a session that has loaded no ticket and
written at most the claim of its frame. -/
theorem applyRecommendation_outcome {cs : List Choice} {r : Except Exn Unit} (hinv : w.Isolated)
    (hclean : (w.session i).Clean ws) (hws : ∀ wr ∈ ws, ∃ claim, wr = .insertInbox claim)
    (hfresh : ∀ id, (w.session i).identityMap id = none)
    (hrun : machine.complete i (TicketService.applyRecommendation p).run cs w = some (r, w'))
    (hfault : machine.firstFault Effect.fault i (TicketService.applyRecommendation p).run cs w =
      none) : r = .ok () ∧ Outcome i p w w' := by
  have hkeys : ∀ wr ∈ ws, wr.ticketKey = none := fun wr hwr =>
    (hws wr hwr).elim fun _ heq => heq ▸ rfl
  have halone := Alone.applyRecommendation (v := w.solo i none) (p := p) hclean hkeys
    (fun row => by simp [World.solo, Session.attrs, hfresh]) w none hinv rfl cs r w' hrun
  rw [hfault] at halone
  cases r with
  | error x =>
      have hsome := halone.2.fault_isSome
      cases hsome
  | ok a =>
      refine ⟨rfl, ?_⟩
      obtain ⟨-, happlied⟩ := halone
      cases happlied with
      | ignored hclosed hkeeps => exact .ignored hclosed hkeeps.db hkeeps.actions
      | settled hrow hid hopen hfirst hevent hframe hsecond =>
          obtain ⟨hadded, row', hrow', hmatches⟩ := rows_of_commits hrow hid hws hfirst hevent
            (Ticket.revises_settled _ _) hsecond rfl
          have hactions := hsecond.actions
          rw [Solo.actions_act, hfirst.actions] at hactions
          exact .settled hrow hopen hactions hrow' hmatches hframe hadded
      | cancelled hrow hid hopen hfirst hevent hframe hsecond =>
          obtain ⟨hadded, row', hrow', hmatches⟩ := rows_of_commits hrow hid hws hfirst hevent
            (Ticket.revises_cancelRequested _ _ _) hsecond rfl
          have hactions := hsecond.actions
          rw [Solo.actions_act, Solo.actions_act, hfirst.actions] at hactions
          exact .cancelled hrow hopen hactions hrow' hmatches hframe hadded

end General

/-- A world in which ticket 1 has been created and nobody is at work. -/
def createdWorld : World :=
  World.record {} (.committed 0 [.insertTicket (sampleRequest.ticket "k" 1 .rub 0)])

theorem isolated_createdWorld : createdWorld.Isolated where
  writes_held _ _ h := by simp [createdWorld] at h
  coherent _ := Session.coherent_empty
  db_eq := rfl
  broker_eq := rfl

/-- A complete run of `apply_recommendation` from `createdWorld`, in which the database raises no
exception. -/
theorem exists_applied (cs : List Choice) (test : World → Bool)
    (h : ((machine.complete 1 (TicketService.applyRecommendation ⟨1, .accept, some "late", 5⟩).run cs
      createdWorld).any fun rw => test rw.2) = true) :
    ∃ r w', machine.complete 1 (TicketService.applyRecommendation ⟨1, .accept, some "late", 5⟩).run
      cs createdWorld = some (r, w') ∧ test w' = true := by
  obtain ⟨⟨r, w'⟩, hrun, htest⟩ := (Option.any_eq_true _ _).mp h
  exact ⟨r, w', hrun, htest⟩

open Script in
/-- The settle call succeeds, or both calls of the monolith fail. -/
theorem applyRecommendation_outcome_created :
    (∃ w', Outcome 1 ⟨1, .accept, some "late", 5⟩ createdWorld w' ∧
      w'.status? 1 = some .settled) ∧
    ∃ w', Outcome 1 ⟨1, .accept, some "late", 5⟩ createdWorld w' ∧
      w'.status? 1 = some .cancellationRequested := by
  obtain ⟨r, w', hrun, htest⟩ := exists_applied
    (ok 15 ++ [.uuid 20, .succeed, .uuid 21] ++ ok 4) (fun w => w.status? 1 = some .settled)
    (by decide +kernel)
  obtain ⟨r₂, w₂, hrun₂, htest₂⟩ := exists_applied
    (ok 8 ++ [.raises "down", .succeed, .raises "down"] ++ requestCancellation 20 21)
    (fun w => w.status? 1 = some .cancellationRequested) (by decide +kernel)
  exact ⟨⟨w', (applyRecommendation_outcome isolated_createdWorld Session.clean_empty (by simp)
      (fun _ => rfl) hrun (Option.isNone_iff_eq_none.mp (by decide +kernel))).2,
      of_decide_eq_true htest⟩,
    w₂, (applyRecommendation_outcome isolated_createdWorld Session.clean_empty (by simp)
      (fun _ => rfl) hrun₂ (Option.isNone_iff_eq_none.mp (by decide +kernel))).2,
      of_decide_eq_true htest₂⟩

end RiskProvider

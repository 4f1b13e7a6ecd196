import RiskProvider.Sequential.Settlement

/-!
# Retries of the consumer

A handler that raises has its message delivered again, and `try_claim` skips a message that has
been handled. `Retryable` is what this needs: a handler that raises has left the database as it
was, and one that returns has claimed its message. A complete run of `_handle` satisfies it exactly
when the database does not fail after the first commit, and the frame is not about a ticket that
the services leave alone (`handle_retryable_iff`).
-/

namespace RiskProvider

open Interleaving

section General

variable [Codecs]

/-- A run of the handler of frame `m` that has ended with `r`, between `db` and `db'`, can be
followed by another delivery. -/
def Retryable (m : Message) (r : Except Exn Unit) (db db' : Database) : Prop :=
  match r with
  | .ok _ => m.messageId ∈ db'.inbox
  | .error _ => db' = db

/-- The services do something about the frame: its payload is rejected, or its ticket exists and
has not reached the end of its life. -/
def Message.Concerns (m : Message) (db : Database) : Prop :=
  if m.type = .recommendation then
    ∀ p, RecommendationPayload.modelValidate m.payload = some p →
      ∃ row, db.tickets.lookup p.ticketId = some row ∧ ¬ row.status.Terminal
  else
    ∀ p, CancellationAppliedPayload.modelValidate m.payload = some p →
      ∃ row, db.tickets.lookup p.ticketId = some row ∧ row.status ≠ .cancelled

/-- When the handler of frame `m`, run by thread `i` from the rows `db`, meets its first database
exception with the actions in `fault`, it has not committed; when it meets none, the frame
concerns the services. -/
def Interruptible (i : ℕ) (m : Message) (db : Database) (fault : Option History) : Prop :=
  match fault with
  | some acts => ∀ ws, .committed i ws ∉ acts
  | none => m.Concerns db

omit [Codecs] in
/-- A commit that claims the frame. -/
theorem Solo.Commits.claims {v v' : Solo} {i : ℕ} {t : UUID} {m : Message} {began : Time}
    {ws : List Write} (h : v.Commits i t ([.insertInbox (m.claim began)] ++ ws) v') :
    m.messageId ∈ v'.db.inbox := by
  rw [h.db]
  exact Database.mem_inbox_of_insert List.mem_cons_self

namespace Alone

variable {faults : Faults} {i : ℕ} {v : Solo} {F : Exn → Solo → Prop}

/-- `try_claim`, by a fresh session. -/
theorem tryClaim_or {m : Message} {Q : Bool → Solo → Prop} (hfresh : v.session = {})
    (herror : ∀ x v', v.Faulted faults False x v' → F x v')
    (hknown : m.messageId ∈ v.db.inbox → ∀ s, Q false (v.setSession s))
    (hok : m.messageId ∉ v.db.inbox → ∀ s began, s.Clean [.insertInbox (m.claim began)] →
      s.identityMap = (fun _ => none) → Q true (v.setSession s)) :
    Alone faults i (InboxRepository.tryClaim m.messageId m.type.value m.ticketId) Q F v := by
  refine statement (fun _ w => w.insertInbox i m.messageId m.type.value m.ticketId)
    (fun _ _ _ _ => rfl) herror fun now w f c r w' hlive hinv hv hact => ?_
  have hsession : w.session i = Session.beginTx {} now := by
    rw [World.session_of_solo hv, hfresh]
    rfl
  have hvisible : (w.visible i).inbox = v.db.inbox := by
    rw [World.visible, hsession, World.db_of_solo hv]
    rfl
  unfold World.insertInbox at hact
  split at hact
  · rw [hvisible] at hact
    split at hact
    next hclaimed =>
      cases hact
      refine ⟨?_, by simp [Effect.raises]⟩
      change Q false (w.solo i f)
      rw [hv]
      exact hknown hclaimed _
    next hnew =>
    cases hact
    refine ⟨?_, by simp [Effect.raises]⟩
    let s : Session := { w.session i with
      writes := (w.session i).writes ++ [.insertInbox (m.claim (w.session i).startedAt)] }
    have hsolo : (w.setSession i s).solo i f = v.setSession s := by
      rw [World.solo_setSession, hv]
      rfl
    change Q true ((w.setSession i s).solo i f)
    rw [hsolo]
    refine hok hnew s (w.session i).startedAt ?_ ?_
    · simp only [s, hsession]
      exact ⟨rfl, rfl, rfl, rfl⟩
    · simp only [s, hsession]
      rfl
  · cases hact

/-- `try_claim` of a new message, by a fresh session. -/
theorem tryClaim {m : Message} {Q : Bool → Solo → Prop} (hfresh : v.session = {})
    (hnew : m.messageId ∉ v.db.inbox) (herror : ∀ x v', v.Faulted faults False x v' → F x v')
    (hok : ∀ s began, s.Clean [.insertInbox (m.claim began)] → s.identityMap = (fun _ => none) →
      Q true (v.setSession s)) :
    Alone faults i (InboxRepository.tryClaim m.messageId m.type.value m.ticketId) Q F v :=
  tryClaim_or hfresh herror (fun hclaimed => absurd hclaimed hnew) fun _ => hok

/-- `_handle`, on a new frame of a handled type. -/
theorem handle {m : Message} {body : Dict} (hfresh : v.session = {}) (hfault : v.fault = none)
    (hidle : ∀ ws, .committed i ws ∉ v.actions)
    (hframe : ∀ u t, Message.modelValidate u t body = some m)
    (htype : m.type ∈ ProviderConsumerWorker.handledTypes) (hnew : m.messageId ∉ v.db.inbox) :
    Alone .database i (ProviderConsumerWorker.handle body)
      (fun a v' => Retryable m (.ok a) v.db v'.db ↔ Interruptible i m v.db v'.fault)
      (fun x v' => Retryable m (.error x) v.db v'.db ↔ Interruptible i m v.db v'.fault) v := by
  have hearly : ∀ D x v', v.Faulted .database D x v' →
      (Retryable m (.error x) v.db v'.db ↔ Interruptible i m v.db v'.fault) := by
    intro D x v' hx
    simp [Retryable, Interruptible, hx.db, hx.fault_database, hfault, hidle]
  have hvalidate : Alone .database i (Message.validate body) (fun m' v' => m' = m ∧ v' = v)
      (fun _ _ => False) v := by
    refine bind (uuid4 fun u => bind (utcNow fun t => ?_))
    rw [hframe]
    exact pure ⟨rfl, rfl⟩
  refine bind (hvalidate.mono ?_ fun _ _ h => h.elim)
  rintro m v ⟨rfl, rfl⟩
  simp only [htype, not_true_eq_false, ↓reduceIte]
  refine scope (bind (tryClaim hfresh hnew (fun x v' hx => ?_) fun s began hclean hmap => ?_))
  · simpa using hearly _ x v' hx
  have hkeys : ∀ wr ∈ [Write.insertInbox (m.claim began)], wr.ticketKey = none := by
    simp [Write.ticketKey]
  have hattrs : ∀ row, (v.setSession s).session.attrs row = row := by
    simp [Session.attrs, hmap]
  -- what follows starts from `v`, but for the session
  have hearly' : ∀ D x v', (v.setSession s).Faulted .database D x v' →
      (Retryable m (.error x) v.db v'.db ↔ Interruptible i m v.db v'.fault) := by
    intro D x v' hx
    simp [Retryable, Interruptible, hx.db, hx.fault_database, hfault, hidle]
  simp only [not_true_eq_false, ↓reduceIte]
  -- a handler that returns has claimed the frame, unless the frame does not concern it
  have hreturned : ∀ v' : Solo, v'.fault = none → (m.messageId ∈ v'.db.inbox ↔ m.Concerns v.db) →
      (Retryable m (.ok ()) v.db v'.db ↔ Interruptible i m v.db v'.fault) := by
    intro v' hnone hiff
    rw [hnone]
    exact hiff
  split
  next htype =>
    cases hpayload : RecommendationPayload.modelValidate m.payload with
    | none =>
        refine bind (throw ?_)
        simp [Retryable, Interruptible, hfault, Message.Concerns, htype, hpayload]
    | some p =>
        have hconcerns : m.Concerns v.db ↔
            ∃ row, v.db.tickets.lookup p.ticketId = some row ∧ ¬ row.status.Terminal := by
          simp [Message.Concerns, htype, hpayload]
        refine bind (pure ((applyRecommendation hclean hkeys hattrs).mono ?_ ?_))
        · rintro ⟨⟩ v' happlied
          rcases happlied.ignored_or_committed with
            ⟨hkeeps, hclosed⟩ | ⟨row, _, _, v₁, _, hrow, hopen, hfirst, hdb, hsame⟩
          · refine hreturned _ (hkeeps.fault.trans hfault) (iff_of_false ?_ ?_)
            · rw [Solo.db_setSession, hkeeps.db]
              exact hnew
            · rw [hconcerns]
              rintro ⟨row, hrow, hopen⟩
              exact hopen (hclosed row hrow)
          · refine hreturned _ (hsame.trans hfault) (iff_of_true ?_ ?_)
            · rw [Solo.db_setSession, hdb]
              exact Database.mem_inbox_writeAll _ hfirst.claims
            · exact hconcerns.mpr ⟨row, hrow, hopen⟩
        · rintro x v' (hfaulted | @⟨_, _, _, v₁, acts, _, _, hfirst, hfaulted⟩)
          · exact hearly' _ x v' hfaulted
          · have hlate : v'.fault = some (acts ++ v₁.actions) := by
              simp [hfaulted.fault_database, hfirst.fault, hfault]
            rw [Solo.fault_setSession, hlate]
            refine iff_of_false (fun heq => hnew ?_) fun hnever => ?_
            · rw [← heq, Solo.db_setSession, hfaulted.db]
              exact hfirst.claims
            · obtain ⟨ws', hmem⟩ : ∃ ws', Entry.committed i ws' ∈ v₁.actions :=
                ⟨_, by rw [hfirst.actions]; exact List.mem_cons_self⟩
              exact hnever ws' (List.mem_append_right acts hmem)
  next htype =>
    cases hpayload : CancellationAppliedPayload.modelValidate m.payload with
    | none =>
        refine bind (throw ?_)
        simp [Retryable, Interruptible, hfault, Message.Concerns, htype, hpayload]
    | some p =>
        have hconcerns : m.Concerns v.db ↔
            ∃ row, v.db.tickets.lookup p.ticketId = some row ∧ row.status ≠ .cancelled := by
          simp [Message.Concerns, htype, hpayload]
        refine bind (pure (markCancellationApplied hclean hkeys hattrs
          (fun x v' D _ => hearly' D x v') ?_ ?_))
        · intro v' hkeeps hclosed
          refine hreturned _ (hkeeps.fault.trans hfault) (iff_of_false ?_ ?_)
          · rw [Solo.db_setSession, hkeeps.db]
            exact hnew
          · rw [hconcerns]
            rintro ⟨row, hrow, hopen⟩
            exact hopen (hclosed row hrow)
        · intro v' row _ _ hrow hopen hcommits
          exact hreturned _ (hcommits.fault.trans hfault)
            (iff_of_true hcommits.claims (hconcerns.mpr ⟨row, hrow, hopen⟩))

end Alone

/-- A complete run of `_handle` on a new frame of a handled type can be followed by another delivery
if and only if the database does not fail after the first commit, and the frame concerns the
services unless the database fails before. -/
theorem handle_retryable_iff {i : ℕ} {m : Message} {body : Dict} {w w' : World}
    {cs : List Choice} {r : Except Exn Unit} (hinv : w.Isolated) (hfresh : w.session i = {})
    (hidle : ∀ ws, .committed i ws ∉ w.log.actions i)
    (hframe : ∀ u t, Message.modelValidate u t body = some m)
    (htype : m.type ∈ ProviderConsumerWorker.handledTypes) (hnew : m.messageId ∉ w.db.inbox)
    (hrun : machine.complete i (ProviderConsumerWorker.handle body).run cs w = some (r, w')) :
    Retryable m r w.db w'.db ↔ Interruptible i m w.db
      ((machine.firstFault Effect.fault i (ProviderConsumerWorker.handle body).run cs w).map
        (·.log.actions i)) := by
  have halone := Alone.handle (v := w.solo i none) hfresh rfl hidle hframe htype hnew w none hinv
    rfl cs r w' hrun
  cases r with
  | ok a => exact halone.2
  | error x => exact halone.2

end General

/-- A recommendation for ticket 1. -/
def sampleDelivery : Dict := (recommendation 10 1 .accept).modelDump

/-- A complete run of the handler. -/
theorem exists_handled (body : Dict) (cs : List Choice) (test : Except Exn Unit × World → Bool)
    (h : ((machine.complete 1 (ProviderConsumerWorker.handle body).run cs
      createdWorld).any test) = true) :
    ∃ r w', machine.complete 1 (ProviderConsumerWorker.handle body).run cs
      createdWorld = some (r, w') ∧ test (r, w') = true := by
  obtain ⟨⟨r, w'⟩, hrun, htest⟩ := (Option.any_eq_true _ _).mp h
  exact ⟨r, w', hrun, htest⟩

open Script in
/-- The recommendation is handled. -/
theorem handle_retryable_settled : ∃ w' : World,
    Retryable (recommendation 10 1 .accept) (.ok ()) createdWorld.db w'.db := by
  obtain ⟨r, w', hrun, hr⟩ := exists_handled sampleDelivery
    ([.uuid 0] ++ ok 17 ++ [.uuid 20, .succeed, .uuid 21] ++ ok 5) (fun rw => rw.1 = .ok ())
    (by decide +kernel)
  obtain rfl : r = .ok () := of_decide_eq_true hr
  refine ⟨w', (handle_retryable_iff isolated_createdWorld rfl (fun _ => List.not_mem_nil)
    (fun u t => Message.modelValidate_modelDump u t _) (by decide) (by decide) hrun).mpr ?_⟩
  have hnone : (machine.firstFault Effect.fault 1
      (ProviderConsumerWorker.handle sampleDelivery).run
      ([.uuid 0] ++ ok 17 ++ [.uuid 20, .succeed, .uuid 21] ++ ok 5) createdWorld).isNone = true := by
    decide +kernel
  rw [Option.isNone_iff_eq_none, sampleDelivery] at hnone
  rw [hnone]
  rintro p hp
  have hticket : (RecommendationPayload.modelValidate
      (recommendation 10 1 .accept).payload).all (·.ticketId = 1) = true := by decide +kernel
  rw [hp] at hticket
  have hid : p.ticketId = 1 := of_decide_eq_true hticket
  exact ⟨sampleRequest.ticket "k" 1 .rub 0, by rw [hid]; rfl, by decide⟩

open Script in
/-- The second commit of `apply_recommendation` fails: the handler raises, its frame stays claimed,
and a redelivery is skipped. -/
theorem handle_loses_recommendation : ∃ cs r w',
    machine.complete 1 (ProviderConsumerWorker.handle sampleDelivery).run cs createdWorld =
      some (r, w') ∧ ¬ Retryable (recommendation 10 1 .accept) r createdWorld.db w'.db := by
  obtain ⟨r, w', hrun, htest⟩ := exists_handled sampleDelivery
    ([.uuid 0] ++ ok 17 ++ [.uuid 20, .succeed, .uuid 21] ++ ok 3 ++ [.databaseError] ++ ok 2)
    (fun rw => rw.1 = .error .databaseError && (rw.2.db.inbox.lookup 10).isSome)
    (by decide +kernel)
  obtain ⟨hr, hclaimed⟩ := (Bool.and_eq_true _ _).mp htest
  obtain rfl : r = .error .databaseError := of_decide_eq_true hr
  refine ⟨_, _, w', hrun, fun heq => ?_⟩
  rw [show w'.db = createdWorld.db from heq] at hclaimed
  cases hclaimed

end RiskProvider

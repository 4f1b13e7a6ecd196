import RiskProvider.Lifecycle.Standing
import RiskProvider.Sequential.Settlement

/-!
# Operations on one ticket

The services and the gateway's success handler, one after the other on one ticket, carry out the
operations of `Standing` (`standing_of_carry`). So what is recorded of the ticket in the end does not
depend on when, or how often, the acceptance of its `TICKET` frame has been handled
(`acknowledgement_timing`).
-/

namespace RiskProvider

open Interleaving

/-! ### The standing of a row -/

/-- What a row records, together with the frames of its ticket. -/
def Ticket.standing (row : Ticket) (frames : List ProviderMessageType) : Standing where
  status := row.status
  recommendation := row.providerRecommendation
  reason := row.providerReason
  recommended := row.providerRecommendationAt.isSome
  settled := row.settledAt.isSome
  confirmed := row.confirmedAt.isSome
  cancelled := row.cancelledAt.isSome
  frames := frames

theorem Ticket.Matches.standing {row attrs : Ticket} (h : row.Matches attrs)
    (frames : List ProviderMessageType) : row.standing frames = attrs.standing frames := by
  obtain ⟨now, rfl⟩ := h
  rfl

theorem Ticket.revises_acknowledged (t : Ticket) (target : TicketStatus) (now : Time) :
    (t.acknowledged target now).Revises t := by
  simp [Revises, patch, diff, acknowledged]

theorem Ticket.standing_acknowledged (row : Ticket) (target : TicketStatus) (now : Time)
    (frames : List ProviderMessageType) :
    (row.acknowledged target now).standing frames = (row.standing frames).accept target := by
  by_cases h : target = .confirmed ∨ target = .declined
  · simp [standing, acknowledged, Standing.accept, h]
  · simp [standing, acknowledged, Standing.accept, h]

section General

variable [Codecs]

/-- The types of a ticket's outbound frames. -/
def Database.frameTypes (db : Database) (t : UUID) : List ProviderMessageType :=
  db.outbox.rows.filterMap fun row =>
    if row.entityId = t then (Message.modelValidate 0 0 row.payload).map (·.type) else none

/-- The standing of a ticket. -/
def Database.standing? (db : Database) (t : UUID) : Option Standing :=
  (db.tickets.lookup t).map (·.standing (db.frameTypes t))

variable {i : ℕ} {t : UUID} {v v' : Solo} {row row' attrs : Ticket} {began : Time}

theorem Database.Notifies.frameTypes {db db' : Database} {m : Message} (h : db.Notifies t m db') :
    db'.frameTypes t = m.type :: db.frameTypes t := by
  obtain ⟨eventId, began, hnew, houtbox⟩ := h.added
  rw [Database.frameTypes, houtbox, Table.rows, AList.entries_insert_of_notMem hnew]
  simp [Database.frameTypes, Table.rows]

/-- A commit that edits a ticket. -/
theorem Solo.Commits.standing (h : v.Commits i t (rewrite row attrs began) v') (hid : row.id = t)
    (hrow : v.db.tickets.lookup t = some row) (hrevises : attrs.Revises row) :
    v'.db.standing? t = some (attrs.standing (v.db.frameTypes t)) := by
  subst hid
  obtain ⟨row', hrow', hmatches⟩ :=
    Database.lookup_edits_matches Edits.of_rewrite hrow row.matches_self hrevises
  have houtbox := (Database.writeAll_rewrite v.db row attrs began).1
  rw [← h.db] at hrow' houtbox
  rw [Database.standing?, hrow', Option.map_some, hmatches.standing, Database.frameTypes, houtbox]
  rfl

/-- A ticket that has been edited and the provider told about it. -/
theorem Database.Notifies.standing {db db' : Database} {m : Message} (h : db.Notifies t m db')
    (hrow : db'.tickets.lookup t = some row') (hmatches : row'.Matches attrs) :
    db'.standing? t = some (attrs.standing (m.type :: db.frameTypes t)) := by
  rw [Database.standing?, hrow, Option.map_some, hmatches.standing, h.frameTypes]

/-! ### Operations -/

/-- What carries out an operation on ticket `t`. -/
def Operation.program (t : UUID) : Operation → Py Unit
  | applyRecommendation action reason expiresAt _ =>
      AsyncSession.scope (TicketService.applyRecommendation ⟨t, action, reason, expiresAt⟩)
  | requestCancellation reason => AsyncSession.scope (TicketService.requestCancellation t reason)
  | markCancellationApplied => AsyncSession.scope (TicketService.markCancellationApplied t)
  | acknowledge message =>
      ProviderGatewayWorker.handleMessageSuccessAck { message with ticketId := some t }

/-- A settle call is answered as the operation says. -/
def Operation.answeredBy : Operation → Entry → Bool
  | applyRecommendation _ _ _ settles, .processed _ _ (some _) error => error.isNone = settles
  | _, _ => true

/-- Thread `i` carries out an operation on ticket `t` under the given choices, nobody else acting in
between, without an exception of the database and with the answers of the monolith that the operation
says. -/
def Operation.carry (i : ℕ) (t : UUID) (o : Operation) (cs : List Choice) (w : World) :
    Option World :=
  (machine.complete i (o.program t).run cs w).bind fun rw =>
    let acts := (rw.2.log.actions i).take
      ((rw.2.log.actions i).length - (w.log.actions i).length)
    if (machine.firstFault Effect.fault i (o.program t).run cs w).isNone ∧ acts.all o.answeredBy then
      some rw.2
    else none

/-- What holds after an operation on ticket `t`. -/
def Solo.Carried (t : UUID) (o : Operation) (v v' : Solo) : Prop :=
  v'.session = {} ∧ ∃ acts, v'.actions = acts ++ v.actions ∧
    (acts.all o.answeredBy = true → v'.db.standing? t = (v.db.standing? t).map (·.step o))

/-- The operation has left the ticket as it was. -/
theorem Solo.carried_of_db {o : Operation} (hdb : v'.db = v.db) (hactions : v'.actions = v.actions)
    (hfresh : v'.session = {}) (hstep : ∀ row, v.db.tickets.lookup t = some row →
      (row.standing (v.db.frameTypes t)).step o = row.standing (v.db.frameTypes t)) :
    v.Carried t o v' := by
  refine ⟨hfresh, [], hactions, fun _ => ?_⟩
  rw [hdb, Database.standing?]
  cases hrow : v.db.tickets.lookup t with
  | none => rfl
  | some row => simp [hstep row hrow]

namespace Alone

/-- The gateway's success handler. -/
theorem handleMessageSuccessAck {message : Message} (hfresh : v.session = {}) :
    Alone .database i (ProviderGatewayWorker.handleMessageSuccessAck { message with ticketId := some t })
      (fun _ => v.Carried t (.acknowledge message)) (fun _ v' => v'.fault.isSome) v := by
  have hfault : ∀ D x v', v.Faulted .database D x v' → v'.fault.isSome := fun D x v' hx => by
    simp [hx.fault_database]
  have hclean : v.session.Clean [] := hfresh ▸ Session.clean_empty
  unfold ProviderGatewayWorker.handleMessageSuccessAck
  dsimp only
  cases htarget : ProviderGatewayWorker.ackTarget message.type with
  | none =>
      refine pure (Solo.carried_of_db rfl rfl hfresh fun row _ => ?_)
      simp [Standing.step, Standing.acknowledge, htarget]
  | some target =>
      -- a ticket that is left alone
      have hskip : ∀ v', v.Keeps t v' →
          (∀ row, v.db.tickets.lookup t = some row →
            row.status.Terminal ∨ target = .sentToProvider ∧ row.status ≠ .new) →
          v.Carried t (.acknowledge message) (v'.setSession {}) := by
        intro v' hkeeps hclosed
        refine Solo.carried_of_db hkeeps.db hkeeps.actions rfl fun row hrow => ?_
        have hstatus := hclosed row hrow
        simp only [Standing.step, Standing.acknowledge, htarget]
        exact if_pos hstatus
      refine bind (scope (bind (getByIdForUpdate (by simp) (fun _ => hclean)
        (hfault _) (fun v' hkeeps hnone _ => ?_) fun row v₁ began hk₁ hrow hid h₁ => ?_)))
      · exact pure (pure (hskip v' hkeeps (by simp [hnone])))
      have hattrs : v.session.attrs row = row := by simp [hfresh, Session.attrs]
      rw [hattrs] at h₁ ⊢
      have honly : ∀ row', v.db.tickets.lookup t = some row' → row' = row := fun row' hrow' =>
        Option.some.inj (hrow'.symm.trans hrow)
      dsimp only
      split
      next hterminal =>
        exact pure (pure (hskip v₁ hk₁ fun row' hrow' => honly row' hrow' ▸ .inl hterminal))
      next hopen =>
      split
      next hlate =>
        exact pure (pure (hskip v₁ hk₁ fun row' hrow' => honly row' hrow' ▸ .inr hlate))
      next hnow =>
      -- both branches commit the row as accepted
      have hcommit : ∀ attrs now, attrs = row.acknowledged target now →
          Alone .database i (do
            RiskProvider.perform (.assign attrs)
            AsyncSession.commit
            return some row.status)
          (fun previous v₂ => previous = some row.status ∧
            v.Carried t (.acknowledge message) (v₂.setSession {}))
          (fun _ v₂ => (v₂.setSession {}).fault.isSome) v₁ := by
        rintro attrs now rfl
        -- the instance is edited, flushed and committed
        refine bind (assign_editing h₁ hid fun v₂ hk₂ h₂ => ?_)
        replace hk₂ := hk₁.trans hk₂
        refine bind (commit_staged h₂.staged (fun x v' hx => hfault _ x v' (hk₂.faulted hx))
          fun v₃ hcommits _ => ?_)
        refine pure ⟨rfl, rfl, [.committed i _], (hk₂.commits hcommits).actions, fun _ => ?_⟩
        have hstanding := (hk₂.commits hcommits).standing hid hrow
          (row.revises_acknowledged target now)
        rw [Solo.db_setSession, hstanding, Database.standing?, hrow, Option.map_some, Option.map_some,
          Ticket.standing_acknowledged]
        have hnot : ¬ (row.status.Terminal ∨ target = .sentToProvider ∧ row.status ≠ .new) :=
          fun h => h.elim hopen hnow
        simp only [Standing.step, Standing.acknowledge, htarget]
        rw [if_neg]
        exact hnot
      split
      next hfinal =>
        refine bind (utcNow fun now => (hcommit _ now ?_).mono ?_ fun _ _ h => h)
        · simp [Ticket.acknowledged, hfinal]
        · rintro _ v₂ ⟨rfl, hcarried⟩
          exact countTransition hcarried
      next hsent =>
        refine (hcommit _ 0 ?_).mono ?_ fun _ _ h => h
        · simp [Ticket.acknowledged, hsent]
        · rintro _ v₂ ⟨rfl, hcarried⟩
          exact countTransition hcarried

/-- Every operation does to the ticket's standing what it says. -/
theorem program (o : Operation) (hkeyed : v.db.Keyed) (hfresh : v.session = {}) :
    Alone .database i (o.program t) (fun _ => v.Carried t o) (fun _ v' => v'.fault.isSome) v := by
  have hfault : ∀ D x v', v.Faulted .database D x v' → v'.fault.isSome := fun D x v' hx => by
    simp [hx.fault_database]
  have hclean : v.session.Clean [] := hfresh ▸ Session.clean_empty
  have hattrs : ∀ row, v.session.attrs row = row := fun row => by simp [hfresh, Session.attrs]
  cases o with
  | applyRecommendation action reason expiresAt settles =>
      refine scope ((applyRecommendation (p := ⟨t, action, reason, expiresAt⟩) hclean (by simp)
        hattrs).mono ?_ fun x v' hx => hx.fault_isSome)
      rintro ⟨⟩ v' happlied
      cases happlied with
      | ignored hclosed hkeeps =>
          refine Solo.carried_of_db hkeeps.db hkeeps.actions rfl fun row hrow => ?_
          exact if_pos (hclosed row hrow)
      | @settled row now began v₁ now' began' eventId m hrow hid hopen hfirst hevent hframe hsecond =>
          obtain ⟨hnotifies, row', hrow', hmatches⟩ := rows_of_commits hrow hid (by simp) hfirst hevent
            (Ticket.revises_settled _ _) hsecond rfl
          have hactions := hsecond.actions
          rw [Solo.actions_act, hfirst.actions] at hactions
          refine ⟨rfl, [_, _, _], hactions, fun hanswered => ?_⟩
          have hok : true = settles := by simpa [Operation.answeredBy] using hanswered
          subst hok
          rw [Solo.db_setSession, hnotifies.standing hrow' hmatches, Database.standing?, hrow,
            Option.map_some, Option.map_some, hframe.type]
          refine congrArg some (Eq.symm ?_)
          exact if_neg hopen
      | @cancelled row now began v₁ text error now' began' eventId m hrow hid hopen hfirst hevent hframe
          hsecond =>
          obtain ⟨hnotifies, row', hrow', hmatches⟩ := rows_of_commits hrow hid (by simp) hfirst hevent
            (Ticket.revises_cancelRequested _ _ _) hsecond rfl
          have hactions := hsecond.actions
          rw [Solo.actions_act, Solo.actions_act, hfirst.actions] at hactions
          refine ⟨rfl, [_, _, _, _], hactions, fun hanswered => ?_⟩
          have hok : false = settles := by simpa [Operation.answeredBy] using hanswered
          subst hok
          rw [Solo.db_setSession, hnotifies.standing hrow' hmatches, Database.standing?, hrow,
            Option.map_some, Option.map_some, hframe.type]
          refine congrArg some (Eq.symm ?_)
          exact if_neg hopen
  | requestCancellation reason =>
      refine scope (requestCancellation (fun _ => hclean) ?_ ?_ ?_)
      · rintro x v' D - (hx | ⟨error, hx⟩)
        · exact hfault D x v' hx
        · simp [hx.fault_database]
      · intro v' _ hnone _ hkeeps
        exact Solo.carried_of_db hkeeps.db hkeeps.actions rfl (by simp [hnone])
      · intro v' row error now began eventId m _ hrow hid hframe hevent hcommits
        rw [hattrs] at hcommits
        have hnotifies := hcommits.notifies hid hevent
        obtain ⟨row', hrow', hmatches⟩ := Database.lookup_edits_matches
          (Edits.of_outbound eventId t m began) (hid ▸ hrow) row.matches_self
          (row.revises_cancelRequested reason now)
        rw [hid, ← Solo.db_act v (.processed i t none error), ← hcommits.db] at hrow'
        refine ⟨rfl, [_, _], hcommits.actions, fun _ => ?_⟩
        rw [Solo.db_setSession, hnotifies.standing hrow' hmatches, Solo.db_act, Database.standing?,
          hrow, Option.map_some, Option.map_some, hframe.type]
        rfl
  | markCancellationApplied =>
      refine scope (markCancellationApplied hclean (by simp) hattrs
        (fun x v' D _ => hfault D x v') ?_ ?_)
      · intro v' hkeeps hclosed
        refine Solo.carried_of_db hkeeps.db hkeeps.actions rfl fun row hrow => ?_
        exact if_pos (hclosed row hrow)
      · intro v' row now began hrow hopen hcommits
        have hid : row.id = t := hkeyed.tickets _ _ hrow
        have hstanding := hcommits.standing hid hrow (row.revises_cancelled now)
        refine ⟨rfl, [_], hcommits.actions, fun _ => ?_⟩
        rw [Solo.db_setSession, hstanding, Database.standing?, hrow, Option.map_some, Option.map_some]
        refine congrArg some (Eq.symm ?_)
        exact if_neg hopen
  | acknowledge message => exact handleMessageSuccessAck hfresh

end Alone

/-! ### Runs -/

/-- Operations are carried out one after the other. -/
def Operation.carryAll (i : ℕ) (t : UUID) (os : List (Operation × List Choice)) (w : World) :
    Option World := os.foldlM (fun w o => o.1.carry i t o.2 w) w

variable {w w' : World} {o : Operation} {cs : List Choice}

/-- An operation that is carried out does to the ticket's standing what it says. -/
theorem standing_of_carry (hinv : w.Isolated) (hfresh : w.session i = {})
    (h : o.carry i t cs w = some w') : w'.Isolated ∧ w'.session i = {} ∧
      w'.db.standing? t = (w.db.standing? t).map (·.step o) := by
  obtain ⟨⟨r, w₁⟩, hrun, hrest⟩ := Option.bind_eq_some_iff.mp h
  dsimp only at hrest
  split at hrest
  next hanswered =>
    cases hrest
    have hkeyed : w.db.Keyed := hinv.db_eq ▸ w.log.keyed_database
    have halone := Alone.program (v := w.solo i none) o hkeyed hfresh w none hinv rfl cs r w' hrun
    rw [Option.isNone_iff_eq_none.mp hanswered.1] at halone
    -- a run that raises has had a fault
    cases r with
    | error x => cases halone.2
    | ok a =>
        obtain ⟨hinv', hfresh', acts, hactions, hstanding⟩ := halone
        refine ⟨hinv', hfresh', hstanding ?_⟩
        replace hactions : w'.log.actions i = acts ++ w.log.actions i := hactions
        simpa [hactions] using hanswered.2
  · cases hrest

/-- Operations that are carried out one after the other run as `Standing.run`. -/
theorem standing_of_carryAll {os : List (Operation × List Choice)} (hinv : w.Isolated)
    (hfresh : w.session i = {}) (h : Operation.carryAll i t os w = some w') :
    w'.db.standing? t = (w.db.standing? t).map (·.run (os.map (·.1))) := by
  induction os generalizing w with
  | nil =>
      cases h
      simp [Standing.run]
  | cons o os ih =>
      obtain ⟨w₁, hfirst, hrest⟩ := Option.bind_eq_some_iff.mp h
      obtain ⟨hinv₁, hfresh₁, hstanding⟩ := standing_of_carry hinv hfresh hfirst
      rw [ih hinv₁ hfresh₁ hrest, hstanding, Option.map_map]
      rfl

/-- When, and how often, the acceptance of the `TICKET` frame is handled makes no difference to what
is recorded of the ticket in the end. -/
theorem acknowledgement_timing {j : ℕ} {v v' : World} {os os' : List (Operation × List Choice)}
    (hw : w.Isolated) (hv : v.Isolated) (hfresh : w.session i = {}) (hfresh' : v.session j = {})
    (hstanding : w.db.standing? t = v.db.standing? t)
    (h : Operation.carryAll i t os w = some w') (h' : Operation.carryAll j t os' v = some v')
    (hsame : (os.map (·.1)).filter (fun o => !o.opens) = (os'.map (·.1)).filter fun o => !o.opens)
    (hopens : ∃ o ∈ os.map (·.1), o.opens = true) (hopens' : ∃ o ∈ os'.map (·.1), o.opens = true) :
    w'.db.standing? t = v'.db.standing? t := by
  rw [standing_of_carryAll hw hfresh h, standing_of_carryAll hv hfresh' h', hstanding]
  congr 1
  funext s
  exact Standing.run_eq hsame hopens hopens'

end General

/-- The frame that opens ticket 1. -/
def openingFrame : Message := { recommendation 10 1 .accept with type := .ticket }

open Script in
/-- A recommendation that is settled. -/
def settledOperation : Operation × List Choice :=
  (.applyRecommendation .accept none 5 true, ok 15 ++ [.uuid 20, .succeed, .uuid 21] ++ ok 5)

open Script in
/-- Ticket 1 is accepted before or after its recommendation. -/
theorem acknowledgement_timing_settled : ∃ w' v' : World,
    Operation.carryAll 1 1 [(.acknowledge openingFrame, ok 6), settledOperation] createdWorld =
      some w' ∧
    Operation.carryAll 1 1 [settledOperation, (.acknowledge openingFrame, ok 2)] createdWorld =
      some v' ∧
    w'.db.standing? 1 = v'.db.standing? 1 := by
  obtain ⟨w', hw'⟩ := Option.isSome_iff_exists.mp (by decide +kernel : (Operation.carryAll 1 1
    [(.acknowledge openingFrame, ok 6), settledOperation] createdWorld).isSome = true)
  obtain ⟨v', hv'⟩ := Option.isSome_iff_exists.mp (by decide +kernel : (Operation.carryAll 1 1
    [settledOperation, (.acknowledge openingFrame, ok 2)] createdWorld).isSome = true)
  refine ⟨w', v', hw', hv', ?_⟩
  exact acknowledgement_timing isolated_createdWorld isolated_createdWorld rfl rfl rfl hw' hv' rfl
    ⟨_, List.mem_cons_self, rfl⟩ ⟨_, List.mem_cons_of_mem _ List.mem_cons_self, rfl⟩

end RiskProvider

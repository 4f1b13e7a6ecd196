import RiskProvider.Audit
import RiskProvider.Records

/-!
# The ticket state machine

The documented state machine as an order on statuses, `TicketStatus.Forward`. The code tests
whether a ticket is terminal, never what has been recorded on the way: a late recommendation, a
late acknowledgement or an early `CANCELLATION_APPLIED` moves a ticket off it.

* `Ticket.Ready`: what the columns of a row must show before a status is set that the code sets
  without looking at them: no recommendation before a recommendation, no cancellation before a
  recommendation, a settlement or an acknowledgement, a cancellation before `CANCELLED`.
* `System.cancelling`: as long as commits find tickets ready, only the last two statuses have a
  cancellation recorded.
* `forward_only`: in these runs, all changes of open tickets follow the state machine.
-/

namespace RiskProvider

open Interleaving

namespace TicketStatus

/-- The place of a status on the successful path. -/
def place : TicketStatus → Option ℕ
  | new => some 0
  | sentToProvider => some 1
  | recommendedConfirm | recommendedDecline => some 2
  | settled => some 3
  | confirmed | declined => some 4
  | cancellationRequested | cancelled | expired => none

/-- The changes of the documented state machine: forward on the successful path, to
`CANCELLATION_REQUESTED`, and from there to `CANCELLED`. -/
def Forward (st st' : TicketStatus) : Prop :=
  (∃ n ∈ st.place, ∃ n' ∈ st'.place, n < n') ∨
    (¬ st.Terminal ∧ st' = cancellationRequested) ∨
    (st = cancellationRequested ∧ st' = cancelled)

instance (st st' : TicketStatus) : Decidable (st.Forward st') := by
  cases st <;> cases st' <;> unfold Forward place <;> infer_instance

end TicketStatus

/-- The columns of a row before its status is set to `target`. -/
def Ticket.Ready (row : Ticket) : TicketStatus → Prop
  | .recommendedConfirm | .recommendedDecline =>
      row.providerRecommendation = none ∧ row.cancelledAt = none
  | .settled | .confirmed | .declined => row.cancelledAt = none
  | .cancelled => row.cancelledAt.isSome
  | .new | .sentToProvider | .cancellationRequested | .expired => True

instance (row : Ticket) (target : TicketStatus) : Decidable (row.Ready target) := by
  cases target <;> unfold Ticket.Ready <;> infer_instance

/-- A commit that sets the status of a ticket finds its row ready. -/
def FindsReady (l : History) : Entry → Prop
  | .committed _ ws => ∀ c ∈ ws.filterMap Write.setsStatus,
      ∀ row ∈ l.database.tickets.lookup c.1, row.Ready c.2
  | _ => True

instance (l : History) (e : Entry) : Decidable (FindsReady l e) :=
  e.decidableOfCommitted
    (fun _ _ => by unfold FindsReady; infer_instance)
    (fun e he => by cases e <;> first | trivial | exact absurd rfl (he _ _))

theorem FindsReady.allowsReads : System.AllowsReads FindsReady where
  loaded _ _ _ := trivial
  read _ e he := by
    cases e <;> trivial

/-! ### Recorded cancellations -/

/-- A ticket whose cancellation is recorded waits for it or is cancelled. -/
def Ticket.Cancelling (t : Ticket) : Prop :=
  t.cancelledAt.isSome → t.status = .cancellationRequested ∨ t.status = .cancelled

/-- Every ticket is `Cancelling`. -/
def Database.Cancelling (db : Database) : Prop :=
  ∀ id row, db.tickets.lookup id = some row → row.Cancelling

/-- A commit that records the cancellation of a ticket anew, without setting its status, leaves it
`CANCELLATION_REQUESTED` or finds a cancellation recorded. -/
def Recancels (l : History) : Entry → Prop
  | .committed _ ws => ∀ wr ∈ ws, ∀ t ∈ wr.recancels,
      (∃ row, (l.database.writeAll ws).tickets.lookup t = some row ∧
        row.status = .cancellationRequested) ∨
      ∀ row, l.database.tickets.lookup t = some row → row.cancelledAt.isSome
  | _ => True

section General

variable {l : History} {i : ℕ} {ws : List Write} {t : UUID} {row row' r : Ticket} {began : Time}

/-- The row of an edited ticket is ready for the status that the commit sets. -/
theorem FindsReady.of_edits (h : FindsReady l (.committed i ws)) (hedits : Edits ws row row' began)
    (hne : row'.status ≠ row.status) (hr : l.database.tickets.lookup row.id = some r) :
    r.Ready row'.status := by
  refine h (row.id, row'.status) (List.mem_filterMap.mpr ⟨_, hedits.mem_of_status_ne hne, ?_⟩) r hr
  simp [Write.setsStatus, Ticket.diff, changed_of_ne hne]

/-- An edit that records a cancellation and keeps the status of the instance. -/
theorem Edits.recancels (h : Edits ws row row' began) (hstatus : row'.status = row.status)
    (hne : row'.cancelledAt ≠ row.cancelledAt) : ∃ wr ∈ ws, wr.recancels = some row.id := by
  refine ⟨_, h.mem_of_diff_ne fun hdiff => ?_, ?_⟩
  · have hnone := congrArg TicketPatch.cancelledAt hdiff
    simp [Ticket.diff, changed_of_ne hne] at hnone
  · simp [Write.recancels, Ticket.diff, hstatus, changed_of_ne hne]

/-- An update that records no cancellation, and finds none where it sets the status. -/
theorem Ticket.Cancelling.patch {now : Time} (h : r.Cancelling)
    (hcancelled : row'.cancelledAt = row.cancelledAt)
    (hnone : row'.status ≠ row.status → r.cancelledAt = none) :
    (r.patch (row.diff row') now).Cancelling := by
  intro hset
  replace hset : ((changed row.cancelledAt row'.cancelledAt).getD r.cancelledAt).isSome := hset
  rw [hcancelled, changed_self, Option.getD_none] at hset
  change (changed row.status row'.status).getD r.status = _ ∨
    (changed row.status row'.status).getD r.status = _
  by_cases hne : row'.status = row.status
  · rw [hne, changed_self]
    exact h hset
  · rw [hnone hne] at hset
    cases hset

/-- A commit that edits one ticket. -/
theorem Database.Cancelling.edits (h : l.database.Cancelling) (hedits : Edits ws row row' began)
    (hr : l.database.tickets.lookup row.id = some r)
    (hedit : ∀ now, (l.database.writeAll ws).tickets.lookup row.id =
      some (r.patch (row.diff row') now) → (r.patch (row.diff row') now).Cancelling) :
    (l.database.writeAll ws).Cancelling := by
  obtain ⟨now, hnow⟩ := Database.lookup_edits_patch hedits hr
  intro id r' hr'
  by_cases hid : id = row.id
  · subst hid
    obtain rfl := Option.some.inj (hnow.symm.trans hr')
    exact hedit now hnow
  · rw [Database.lookup_edits_ne hedits hid] at hr'
    exact h id r' hr'

/-- A commit that leaves the rows of the tickets as they are. -/
theorem Database.Cancelling.quiet (h : l.database.Cancelling) (hws : ∀ wr ∈ ws, wr.ticketKey = none) :
    (l.database.writeAll ws).Cancelling := by
  intro id r hr
  rw [Database.lookup_tickets_writeAll fun wr hwr => by simp [hws wr hwr]] at hr
  exact h id r hr

variable [Codecs]

/-- A permitted commit that finds tickets ready keeps them `Cancelling`. -/
theorem Permitted.cancelling (h : Permitted l (.committed i ws))
    (hready : FindsReady l (.committed i ws)) (hrecancels : Recancels l (.committed i ws))
    (hold : l.database.Cancelling) : (l.database.writeAll ws).Cancelling := by
  have hkeyed := l.keyed_database.tickets
  cases h with
  | @create _ key id currency eventId m began request hacts hcurrency hkey hticket hevent hframe =>
      intro id' r hr hset
      by_cases hid : id' = id
      · subst hid
        obtain rfl : request.ticket key id' currency began = r := by
          simpa [Database.write, outbound, CreateTicketRequest.ticket] using hr
        cases hset
      · refine hold id' r ?_ hset
        rwa [Database.lookup_tickets_writeAll] at hr
        simp [outbound, Write.ticketKey, CreateTicketRequest.ticket, Ne.symm hid]
  | @recommend _ n d m p row now began hacts hframe hunclaimed hrow hopen =>
      have hr : l.database.tickets.lookup row.id = some row := hkeyed _ _ hrow ▸ hrow
      have hedits : Edits _ row (row.recommended p now) began := Edits.of_claim (m.claim began)
      refine hold.edits hedits hr fun now' _ => (hold _ _ hr).patch rfl fun hne => ?_
      have hnone := hready.of_edits hedits hne hr
      cases haction : p.action <;> rw [Ticket.recommended, haction] at hnone <;> exact hnone.2
  | @settle _ p acts loaded row now eventId m began hacts hrecommended hrow hid hloaded hevent
      hframe =>
      have hr : l.database.tickets.lookup loaded.id = some row := hid ▸ hrow
      have hedits : Edits _ loaded (loaded.settled now) began :=
        Edits.of_outbound eventId p.ticketId m began
      exact hold.edits hedits hr fun now' _ =>
        (hold _ _ hr).patch rfl fun hne => hready.of_edits hedits hne hr
  | @requestCancellation _ ticketId error loaded row reason now eventId m began hlocked hrow hid
      hevent hframe =>
      have hr : l.database.tickets.lookup loaded.id = some row := hid ▸ hrow
      have hedits : Edits _ loaded (loaded.cancelRequested reason now) began :=
        Edits.of_outbound eventId ticketId m began
      refine hold.edits hedits hr fun now' hnow hset => ?_
      by_cases hstatus : (loaded.cancelRequested reason now).status = loaded.status
      · by_cases hcancelled : (loaded.cancelRequested reason now).cancelledAt = loaded.cancelledAt
        · exact (hold _ _ hr).patch hcancelled (fun hne => absurd hstatus hne) hset
        · -- the session's instance was `CANCELLATION_REQUESTED` before, and may be outdated
          obtain ⟨wr, hwr, hloaded⟩ := hedits.recancels hstatus hcancelled
          obtain ⟨row', hrow', hshown⟩ | hrecorded := hrecancels wr hwr loaded.id hloaded
          · obtain rfl := Option.some.inj (hnow.symm.trans hrow')
            exact .inl hshown
          · have hsame : (changed loaded.status (loaded.cancelRequested reason now).status).getD
                row.status = row.status := by rw [hstatus, changed_self, Option.getD_none]
            rcases hold _ _ hr (hrecorded row hr) with heq | heq
            · exact .inl (hsame.trans heq)
            · exact .inr (hsame.trans heq)
      · refine .inl ?_
        change (changed loaded.status (loaded.cancelRequested reason now).status).getD _ = _
        rw [changed_of_ne hstatus]
        rfl
  | @cancellationApplied _ n d m p row now began hacts hframe hunclaimed hrow hstatus =>
      have hr : l.database.tickets.lookup row.id = some row := hkeyed _ _ hrow ▸ hrow
      refine hold.edits (Edits.of_claim _) hr fun now' _ _ => .inr ?_
      exact changed_getD row.status (row.cancelled now).status
  | @acknowledge _ n d m ticketId target row now began hacts hdecodes hticket htarget hrow hopen
      hnew =>
      have hr : l.database.tickets.lookup row.id = some row := hkeyed _ _ hrow ▸ hrow
      have hedits : Edits _ row (row.acknowledged target now) began := Edits.of_rewrite
      refine hold.edits hedits hr fun now' _ => (hold _ _ hr).patch rfl fun hne => ?_
      have hnone := hready.of_edits hedits hne hr
      unfold ProviderGatewayWorker.ackTarget at htarget
      split at htarget <;> cases htarget
      · -- a new ticket has no cancellation recorded
        by_contra hset
        rcases hold _ _ hr (Option.isSome_iff_ne_none.mpr hset) with heq | heq <;>
          rw [hnew rfl] at heq <;> cases heq
      · exact hnone
      · exact hnone
  | relay hacts hfailed hpending => exact hold.quiet ticketKey_relayWrites
  | commitNothing => exact hold.quiet (by simp)

theorem Conforms.cancelling (h : Conforms (fun l e => FindsReady l e ∧ Recancels l e) l) :
    l.database.Cancelling := by
  induction h with
  | nil =>
      intro id row hrow
      cases hrow
  | @cons l e h hpermitted he ih =>
      cases e with
      | committed i ws => exact hpermitted.cancelling he.1 he.2 ih
      | _ => exact ih

/-! ### Runs -/

namespace System

variable {s s' : System}

/-- A commit of a run records cancellations anew only on tickets that have one recorded: the
session's instance was `CANCELLATION_REQUESTED`, and so is its row, or has been. -/
theorem recancels_of_commit (h : s.Reachable)
    {next : Effect.Result .commit → Interleaving.Program Effect Effect.Result Unit}
    (hthread : s.threads i = .perform .commit next) (hlive : (s.world.session i).failed = false) :
    Recancels s.world.log (.committed i (s.world.session i).writes) := by
  intro wr hwr t ht
  have hiso := isolated h
  obtain ⟨inst, hinst, hstatus⟩ := (discipline_sound.guarantee h hthread hlive).2 wr hwr t ht
  obtain ⟨row, hrow, -, hshown⟩ := (current h).instances i t inst hinst
  rw [hiso.db_eq] at hrow
  rcases hshown with heq | ⟨l', hsuffix, hst⟩
  · exact .inl ⟨row, hrow, heq.trans hstatus⟩
  · refine .inr fun row' hrow' => ?_
    -- the columns that the ticket had with that status are still set
    obtain ⟨hstamped, hgrows⟩ := (audited h).history l' hsuffix
    obtain ⟨old, hold, heq⟩ := History.status?_eq_some.mp hst
    have hset : old.has .cancelledAt := by
      refine hstamped t old hold _ ?_
      rw [heq, hstatus]
      decide
    obtain ⟨row'', hrow'', hkept⟩ := hgrows t old hold
    rw [hiso.db_eq, hrow', Option.some.injEq] at hrow''
    exact hrow'' ▸ hkept _ hset

theorem meets_recancels (h : s.Reachable) (hstep : machine.Step s s') : Meets Recancels s s' := by
  intro e hlog
  cases e with
  | committed i ws =>
      obtain ⟨x, hworld⟩ | hworld | ⟨j, hworld⟩ | ⟨j, e, next, c, r, hthread, hexec, -⟩ :=
        Machine.step_cases hstep
      · rw [hworld] at hlog
        exact absurd hlog.symm (List.cons_ne_self _ _)
      · rw [hworld] at hlog
        exact absurd hlog.symm (List.cons_ne_self _ _)
      · rw [hworld] at hlog
        rcases World.log_crash (w := s.world) (i := j) with hcrash | hcrash
        · exact absurd (hcrash.symm.trans hlog).symm (List.cons_ne_self _ _)
        · cases hcrash.symm.trans hlog
      · obtain ⟨rfl, rfl, hlive, rfl⟩ := World.writes_of_committed hexec hlog
        exact recancels_of_commit h hthread hlive
  | _ => trivial

/-- In every run in which commits find tickets ready, only tickets with the last two statuses have
a cancellation recorded. -/
theorem cancelling (hs : machine.Reaches (Meets FindsReady) System.initial s)
    (hsuffix : l <:+ s.world.log) : l.database.Cancelling := by
  have hboth : machine.Reaches (Meets fun l e => FindsReady l e ∧ Recancels l e) System.initial s :=
    hs.invariant (I := fun t => machine.Reaches _ System.initial t) .refl
      fun t t' hrun hstep hready ih =>
        ih.tail ⟨hstep, fun e hlog => ⟨hready e hlog, meets_recancels hrun hstep e hlog⟩⟩
  refine ((System.conforms ⟨fun _ _ _ => ⟨trivial, trivial⟩, fun l e he => ?_⟩
    hboth).of_suffix_history hsuffix).cancelling
  cases e <;> first | exact ⟨trivial, trivial⟩ | cases he

end System

/-- A change of an open ticket that is found ready follows the state machine. -/
theorem Change.forward {row : Ticket} {st' : TicketStatus} (h : Change l i t row.status st')
    (hopen : ¬ row.status.Terminal) (hready : row.Ready st') (hstamped : row.Stamped)
    (hcancelling : row.Cancelling) (hne : st' ≠ row.status) : row.status.Forward st' := by
  -- what the columns say about the status
  have hfree : row.cancelledAt = none → row.status ≠ .cancellationRequested := by
    intro hnone heq
    have hset : row.has .cancelledAt := hstamped _ (by rw [heq]; decide)
    simp [Ticket.has, hnone] at hset
  have hearly : row.providerRecommendation = none → row.status ≠ .recommendedConfirm ∧
      row.status ≠ .recommendedDecline ∧ row.status ≠ .settled := by
    intro hnone
    refine ⟨fun heq => ?_, fun heq => ?_, fun heq => ?_⟩ <;>
    · have hset : row.has .recommendation := hstamped _ (by rw [heq]; decide)
      simp [Ticket.has, hnone] at hset
  cases h with
  | @recommend n d m p hacts hframe ht _ =>
      obtain ⟨hnone, hcancelled⟩ : row.providerRecommendation = none ∧ row.cancelledAt = none := by
        cases haction : p.action <;> rwa [haction] at hready
      obtain ⟨hconfirm, hdecline, hsettled⟩ := hearly hnone
      have hfree := hfree hcancelled
      revert hopen hconfirm hdecline hsettled hfree
      cases p.action <;> cases row.status <;> decide
  | settle hacts hrecommended ht =>
      have hfree := hfree hready
      revert hopen hne hfree
      cases row.status <;> decide
  | requestCancellation hlocked => exact .inr (.inl ⟨hopen, rfl⟩)
  | cancel hacts hframe ht hstatus =>
      exact .inr (.inr ⟨(hcancelling hready).resolve_right hstatus, rfl⟩)
  | acknowledge hacts hdecodes hticket htarget _ hnew =>
      -- only acceptances of a `TICKET`, a `CONFIRM` or a `DECLINE` frame have a target
      unfold ProviderGatewayWorker.ackTarget at htarget
      split at htarget <;> cases htarget
      · rw [hnew rfl]
        decide
      · have hfree := hfree hready
        revert hopen hfree
        cases row.status <;> decide
      · have hfree := hfree hready
        revert hopen hfree
        cases row.status <;> decide

/-- In every run in which commits find tickets ready, every change of an open ticket's committed
status follows the state machine. -/
theorem forward_only {s : System} (hs : machine.Reaches (System.Meets FindsReady) System.initial s)
    {l : History} {e : Entry} (hsuffix : (e :: l) <:+ s.world.log) {t : UUID}
    {st st' : TicketStatus} (hst : l.status? t = some st) (hopen : ¬ st.Terminal)
    (hst' : History.status? t (e :: l) = some st') (hne : st' ≠ st) : st.Forward st' := by
  obtain ⟨hpermitted, hready⟩ : Permitted l e ∧ FindsReady l e :=
    (System.conforms FindsReady.allowsReads hs).of_suffix hsuffix
  have hl : l <:+ s.world.log := (List.suffix_cons _ _).trans hsuffix
  obtain ⟨i, ws, rfl⟩ := History.committed_of_status_ne hst hst' hne
  obtain ⟨hsets, hchange⟩ := change_of_permitted hpermitted hst hst' hne
  obtain ⟨row, hrow, rfl⟩ := History.status?_eq_some.mp hst
  have hstamped : row.Stamped := ((System.audited hs.run).history l hl).1 t row hrow
  exact hchange.forward hopen (hready _ hsets row hrow) hstamped
    (System.cancelling hs hl t row hrow) hne

end General

/-- The latest entry has changed the status of ticket 1. -/
def History.changedTo (st st' : TicketStatus) : History → Bool
  | [] => false
  | e :: l => History.status? 1 l = some st ∧ History.status? 1 (e :: l) = some st'

/-- Ticket 1 goes forward from `SENT_TO_PROVIDER` to `RECOMMENDED_CONFIRM`. -/
theorem forward_only_recommended : ∃ s : System,
    machine.Reaches (System.Meets FindsReady) System.initial s ∧
      ∃ e l, s.world.log = e :: l ∧
        TicketStatus.Forward .sentToProvider .recommendedConfirm := by
  obtain ⟨s, hs, htest⟩ := System.exists_reaches (s := System.initial) FindsReady
    (recommendedRun .accept)
    (fun s => s.world.log.changedTo .sentToProvider .recommendedConfirm) (by decide +kernel)
  cases hlog : s.world.log with
  | nil => simp [hlog, History.changedTo] at htest
  | cons e l =>
      simp only [hlog, History.changedTo, decide_eq_true_eq] at htest
      exact ⟨s, hs, e, l, hlog, forward_only hs (hlog ▸ List.suffix_refl _) htest.1 (by decide)
        htest.2 (by decide)⟩

open Script in
/-- A second recommendation takes a settled ticket back to `RECOMMENDED_DECLINE`. -/
theorem settled_recommended : ∃ s : System, s.Reachable ∧ ∃ e l, s.world.log = e :: l ∧
    History.status? 1 l = some .settled ∧
    History.status? 1 (e :: l) = some .recommendedDecline ∧
    ¬ TicketStatus.Forward .settled .recommendedDecline := by
  obtain ⟨s, hs, htest⟩ := System.exists_reaches (s := System.initial) anyEntry
    (settledRun .accept ++ [.start (.recieveFromProvider [recommendation 20 1 .decline])] ++
      runs 5 (ok 2) ++ [.start .handle] ++ runs 6 (recommend 0))
    (fun s => s.world.log.changedTo .settled .recommendedDecline) (by decide +kernel)
  cases hlog : s.world.log with
  | nil => simp [hlog, History.changedTo] at htest
  | cons e l =>
      simp only [hlog, History.changedTo, decide_eq_true_eq] at htest
      exact ⟨s, hs.run, e, l, hlog, htest.1, htest.2, by decide⟩

end RiskProvider

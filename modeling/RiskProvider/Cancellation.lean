import RiskProvider.Coherence
import RiskProvider.Lifecycle.Terminal
import RiskProvider.Provenance

/-!
# Causes and effects of a cancellation

Two facts about tickets that are given up, for every interleaving of the processes.

* `cancellation_cause`: cancellation is requested for a cause, a settle call that has failed or a
  reconciler that has found the ticket stuck, and after the monolith has been asked to cancel.
* `emitted_before_terminal`: a ticket with a terminal status emits no frame that opens, confirms or
  declines it any more. What the provider is still sent was on its way before.
-/

namespace RiskProvider

open Interleaving

section General

variable [Codecs] {C : History → Entry → Prop} {l l' : History} {i : ℕ} {ws : List Write} {t : UUID}
  {st : TicketStatus} {row : OutboxEvent}

/-! ### The commit of a status -/

/-- A status other than `NEW` has been set by a commit that changed the status. -/
theorem Conforms.changed (h : Conforms C l) (hst : l.status? t = some st) (hne : st ≠ .new) :
    ∃ l' i ws st', (.committed i ws :: l') <:+ l ∧ Sets ws t st ∧ Change l' i t st' st := by
  induction h with
  | nil => cases hst
  | @cons l e h hpermitted he ih =>
      cases hold : l.status? t with
      | none => exact absurd (status_of_created hpermitted hold hst) hne
      | some st' =>
          -- the last entry has set the status, or left it as it was
          by_cases heq : st = st'
          · obtain ⟨l', i, ws, st'', hsuffix, hchange⟩ := ih (heq ▸ hold)
            exact ⟨l', i, ws, st'', hsuffix.trans (List.suffix_cons _ _), hchange⟩
          · obtain ⟨i, ws, rfl⟩ := History.committed_of_status_ne hold hst heq
            obtain ⟨hsets, hchange⟩ := change_of_permitted hpermitted hold hst heq
            exact ⟨l, i, ws, st', List.suffix_refl _, hsets, hchange⟩

/-! ### Why a ticket is given up -/

/-- Why thread `i` gives up ticket `t`, with the actions that say so, latest first. -/
inductive GivesUp (l : History) (i : ℕ) (t : UUID) : History → Prop
  /-- It has recorded a recommendation on the ticket, and the settle call has failed. -/
  | failed {n d m p text row now began} (hframe : Recommends d m p) (hticket : p.ticketId = t) :
      GivesUp l i t
        [.processed i t (some p.action) (some text),
          .committed i (.insertInbox (m.claim began) :: rewrite row (row.recommended p now) began),
          .received i .providerIn n d]
  /-- It is a reconciler, and has found the ticket among those that are stuck. -/
  | stuck {olderThan ids row} {l₀ : History} (hfound : (.found i olderThan ids :: l₀) <:+ l)
      (hmem : t ∈ ids)
      (hrow : l₀.database.tickets.lookup t = some row)
      (hstuck : row.stuck olderThan) : GivesUp l i t [.found i olderThan ids]

theorem GivesUp.mono {cause : History} (h : GivesUp l' i t cause) (hsuffix : l' <:+ l) :
    GivesUp l i t cause := by
  cases h with
  | failed hframe hticket => exact .failed hframe hticket
  | stuck hfound hmem hrow hstuck => exact .stuck (hfound.trans hsuffix) hmem hrow hstuck

/-- Thread `i` commits `ws`, which requests the cancellation of ticket `t` with the event `row`, after
the monolith has been asked to cancel the ticket. Nothing is committed to the ticket in between. -/
structure RequestedFor (l : History) (i : ℕ) (t : UUID) (error : Option String) (ws : List Write)
    (row : OutboxEvent) (frame : Message) (reason : String) (cause : History) : Prop where
  gaveUp : GivesUp l i t cause
  sublist : (.committed i ws :: .processed i t none error :: cause).Sublist l
  committed : ∃ l' : History, (.committed i ws :: l') <:+ l ∧
    (l'.focus i t).head? = some (.processed i t none error)
  sets : Sets ws t .cancellationRequested
  event : .insertEvent row ∈ ws
  entityId : row.entityId = t
  frameType : row.frameType = some .requestCancellation
  payload : row.payload = frame.modelDump
  frame : RequestsCancellation frame t reason

/-- The monolith is asked to cancel a ticket by a thread that gives the ticket up. -/
theorem Conforms.givesUp (h : Conforms C l) {error : Option String}
    (hprocessed : (.processed i t none error :: l') <:+ l) :
    ∃ cause, GivesUp l' i t cause ∧ cause.Sublist l' := by
  have hl' : Conforms C l' := h.of_suffix_history ((List.suffix_cons _ _).trans hprocessed)
  cases (h.of_suffix hprocessed).1 with
  | cancelCall hacts hrecommended =>
      obtain ⟨n, d, m, row, now, began, hframe, -, rfl⟩ := hrecommended
      refine ⟨l'.actions i, ?_, List.filter_sublist⟩
      rw [hacts]
      exact .failed hframe rfl
  | recoverCall hacts hfound hmem hfirst hlocked =>
      obtain ⟨l₀, hl₀⟩ := exists_suffix_of_mem (History.mem_of_mem_actions hfound)
      cases (hl'.of_suffix hl₀).1 with
      | found hnothing hnodup hstuck =>
          obtain ⟨row, hrow, hrowStuck⟩ := hstuck _ hmem
          refine ⟨_, .stuck hl₀ hmem hrow hrowStuck, ?_⟩
          exact List.singleton_sublist.mpr (History.mem_of_mem_actions hfound)

/-- A commit that sets the status `CANCELLATION_REQUESTED` emits the request. -/
theorem Permitted.requests (h : Permitted l (.committed i ws))
    (hsets : Sets ws t .cancellationRequested) :
    ∃ error row m reason, (l.focus i t).head? = some (.processed i t none error) ∧
      .insertEvent row ∈ ws ∧ row.entityId = t ∧ row.payload = m.modelDump ∧
      RequestsCancellation m t reason := by
  cases h with
  | create => simp [Sets, outbound, Write.setsStatus] at hsets
  | @recommend _ n d m p row now began hacts hframe hunclaimed hrow hopen =>
      obtain ⟨-, hstatus⟩ := hsets.of_edits (Edits.of_claim _)
      cases haction : p.action <;>
        simp [Ticket.recommended, haction, RecommendationAction.status] at hstatus
  | settle hacts hrecommended hrow hid hloaded hevent hframe =>
      obtain ⟨-, hstatus⟩ := hsets.of_edits (Edits.of_outbound _ _ _ _)
      cases hstatus
  | requestCancellation hlocked hrow hid hevent hframe =>
      obtain ⟨rfl, -⟩ := hsets.of_edits (Edits.of_outbound _ _ _ _)
      subst hid
      exact ⟨_, _, _, _, hlocked, List.mem_append_right _ List.mem_cons_self, rfl, rfl, hframe⟩
  | cancellationApplied hacts hframe hunclaimed hrow hstatus =>
      obtain ⟨-, hstatus⟩ := hsets.of_edits (Edits.of_claim _)
      cases hstatus
  | @acknowledge _ n d m ticketId target row now began hacts hdecodes hticket htarget hrow hopen
      hnew =>
      obtain ⟨-, hstatus⟩ := hsets.of_edits Edits.of_rewrite
      obtain rfl : target = .cancellationRequested := hstatus
      cases htype : m.type <;> simp [htype, ProviderGatewayWorker.ackTarget] at htarget
  | relay hacts hfailed hpending =>
      obtain ⟨wr, hwr, hset⟩ := List.mem_filterMap.mp hsets
      have hkey := ticketKey_relayWrites wr hwr
      cases wr <;> first | cases hset | cases hkey
  | commitNothing => cases hsets

/-- A ticket whose cancellation is requested has been given up. -/
theorem Conforms.requestedFor (h : Conforms C l)
    (hst : l.status? t = some .cancellationRequested) :
    ∃ i error ws row frame reason cause, RequestedFor l i t error ws row frame reason cause := by
  obtain ⟨l₁, i, ws, -, hcommitted, hsets, -⟩ := h.changed hst (by decide)
  obtain ⟨error, row, m, reason, hfocus, hevent, hentity, hpayload, hframe⟩ :=
    (h.of_suffix hcommitted).1.requests hsets
  -- back from the commit to the call of the monolith, and from there to its cause
  obtain ⟨acts, hacts⟩ := History.actions_of_focus hfocus
    (by simp [History.actionOf, Entry.thread, Entry.isAction])
  obtain ⟨l₂, hprocessed, -⟩ := History.suffix_of_actions hacts
  have hl₁ : l₁ <:+ l := (List.suffix_cons _ _).trans hcommitted
  obtain ⟨cause, hgaveUp, hsublist⟩ := (h.of_suffix_history hl₁).givesUp hprocessed
  have hl₂ : l₂ <:+ l := (List.suffix_cons _ _).trans (hprocessed.trans hl₁)
  exact ⟨i, error, ws, row, m, reason, cause, hgaveUp.mono hl₂,
    sublist_of_suffix hcommitted (sublist_of_suffix hprocessed hsublist),
    ⟨l₁, hcommitted, hfocus⟩, hsets, hevent, hentity,
    hframe.type ▸ OutboxEvent.frameType_of_payload hpayload, hpayload, hframe⟩

/-- In every reachable state, a ticket that is `CANCELLATION_REQUESTED` has been given up for a cause,
and the provider is told so. -/
theorem cancellation_cause {s : System} (hs : s.Reachable)
    (hst : s.world.status? t = some .cancellationRequested) :
    ∃ i error ws row frame reason cause,
      RequestedFor s.world.log i t error ws row frame reason cause :=
  hs.conforms.requestedFor (System.status?_eq hs t ▸ hst)

/-! ### Frames of a terminal ticket -/

/-- A commit that overwrites only open tickets emits nothing for a terminal one, except for a request
for cancellation. -/
theorem Emits.not_terminal {m : Message} (h : Emits l i ws t m)
    (hopen : OverwritesOpen l (.committed i ws)) (htype : m.type ≠ .requestCancellation)
    (hst : l.status? t = some st) : ¬ st.Terminal := by
  cases h with
  | opens hrow hid hframe hticket =>
      rw [History.status?, hticket] at hst
      cases hst
  | settles hacts hrecommended hid hsets hframe => exact hopen _ hsets (by simp) st hst
  | cancels hlocked hframe => exact absurd hframe.type htype

/-- A frame that the provider is handed for a ticket, and that does not request its cancellation, was
committed before the ticket became terminal. -/
theorem emitted_of_sent (h : Conforms OverwritesOpen l) (hl' : l' <:+ l)
    (hst : l'.status? t = some st) (hterminal : st.Terminal) {k : ℕ} {m : Message}
    {outcome : SendOutcome} (hsent : .sent k m outcome ∈ l) (hticket : m.ticketId = some t)
    (htype : m.type ≠ .requestCancellation) :
    ∃ j ws row, .committed j ws ∈ l' ∧ .insertEvent row ∈ ws ∧ row.entityId = t ∧
      row.payload = m.modelDump := by
  obtain ⟨l₁, hl₁⟩ := exists_suffix_of_mem hsent
  have hconforms₁ := h.of_suffix_history ((List.suffix_cons _ _).trans hl₁)
  cases (h.of_suffix hl₁).1 with
  | @send _ n d _ _ hacts hdecodes =>
      -- back from the provider through the broker to the commit of the event
      obtain ⟨l₂, hl₂, -⟩ := History.suffix_of_actions hacts
      obtain ⟨publishing, emitting, j, i, key, ws, row, m', hbody, hrelayed⟩ :=
        hconforms₁.relayed_of_received hl₂
      rw [hbody] at hdecodes
      obtain rfl := hdecodes.eq
      obtain rfl : row.entityId = t :=
        Option.some.inj (hrelayed.emits.ticketId.symm.trans hticket)
      have hcommitted : (.committed i ws :: emitting) <:+ l :=
        hrelayed.committed.trans ((List.suffix_cons _ _).trans (hrelayed.published.trans
          ((List.suffix_cons _ _).trans (hl₂.trans ((List.suffix_cons _ _).trans hl₁)))))
      obtain ⟨-, hopen⟩ := h.of_suffix hcommitted
      have hemitting := h.of_suffix_history ((List.suffix_cons _ _).trans hcommitted)
      refine ⟨i, ws, row, ?_, hrelayed.event, rfl, hrelayed.payload⟩
      -- the commit comes before the ticket is terminal, or finds it terminal
      rcases List.suffix_or_suffix_of_suffix hcommitted hl' with hbefore | hafter
      · exact hbefore.subset List.mem_cons_self
      rcases List.suffix_cons_iff.mp hafter with rfl | hafter
      · exact List.mem_cons_self
      have hst' := terminal_suffix hemitting hafter hst hterminal
      exact absurd hterminal (hrelayed.emits.not_terminal hopen htype hst')

/-- In every run in which commits that set the status `SETTLED`, `CANCELLATION_REQUESTED` or
`CANCELLED` find the ticket open, the frames that open, confirm or decline a ticket were committed
before the ticket became terminal, whenever the provider is handed them. -/
theorem emitted_before_terminal {s s' : System}
    (hs : machine.Reaches (System.Meets OverwritesOpen) System.initial s)
    (hst : s.world.status? t = some st) (hterminal : st.Terminal)
    (hrun : machine.Reaches (System.Meets OverwritesOpen) s s') {k : ℕ} {m : Message}
    {outcome : SendOutcome} (hsent : .sent k m outcome ∈ s'.world.log)
    (hticket : m.ticketId = some t) (htype : m.type ≠ .requestCancellation) :
    ∃ j ws row, .committed j ws ∈ s.world.log ∧ .insertEvent row ∈ ws ∧ row.entityId = t ∧
      row.payload = m.modelDump := by
  have hs' : machine.Reaches (System.Meets OverwritesOpen) System.initial s' :=
    Relation.ReflTransGen.trans hs hrun
  exact emitted_of_sent (System.conforms OverwritesOpen.allowsReads hs')
    (System.suffix_of_run hs.run hrun.run) (System.status?_eq hs.run t ▸ hst) hterminal hsent hticket
    htype

end General

open Script in
/-- Ticket 1 is created, and a reconciler finds it stuck. -/
def givenUpRun : List (Label Choice Invocation ℕ) :=
  [.start (.createTicket "k" sampleRequest)] ++ runs 0 (create 1 2 3) ++
  [.environment 10, .start (.recoverStuckTickets 0 10)] ++
  runs 1 (ok 1 ++ .rows [1] :: ok 2 ++ requestCancellation 11 12)

/-- Ticket 1 is cancelled because it was stuck. -/
theorem cancellation_cause_stuck : ∃ s : System, s.Reachable ∧
    s.world.status? 1 = some .cancellationRequested ∧
    ∃ i error ws row frame reason cause,
      RequestedFor s.world.log i 1 error ws row frame reason cause := by
  obtain ⟨s, hs, hst⟩ := System.exists_reaches (s := System.initial) anyEntry givenUpRun
    (fun s => s.world.status? 1 = some .cancellationRequested) (by decide +kernel)
  simp only [decide_eq_true_eq] at hst
  exact ⟨s, hs.run, hst, cancellation_cause hs.run hst⟩

open Script in
/-- Ticket 1 is cancelled while its `TICKET` frame waits for the gateway. -/
def cancelledRun : List (Label Choice Invocation ℕ) :=
  [.start (.createTicket "k" sampleRequest)] ++ runs 0 (create 1 2 3) ++
  [.start (.sendBatch 10)] ++ runs 1 (relay [3]) ++
  [.start (.recieveFromProvider [cancellationApplied 20 1])] ++ runs 2 (ok 2) ++
  [.start .handle] ++ runs 3 (applyCancellation 0)

/-- The history hands the provider the `TICKET` frame of ticket 1. -/
def opensTicket (l : History) : Bool :=
  l.any fun
    | .sent _ m _ => m.ticketId = some 1 ∧ m.type = .ticket
    | _ => false

theorem exists_of_opensTicket {l : History} (h : opensTicket l = true) :
    ∃ k m outcome, .sent k m outcome ∈ l ∧ m.ticketId = some 1 ∧ m.type = .ticket := by
  obtain ⟨e, he, hframe⟩ := List.any_eq_true.mp h
  split at hframe
  next k m outcome =>
    obtain ⟨hticket, htype⟩ := of_decide_eq_true hframe
    exact ⟨k, m, outcome, he, hticket, htype⟩
  · cases hframe

open Script in
/-- The frame that the provider is handed after ticket 1 is cancelled was committed before. -/
theorem emitted_before_terminal_cancelled : ∃ (s s' : System) (m : Message),
    s.Reachable ∧ s.world.status? 1 = some .cancelled ∧ ¬ opensTicket s.world.log ∧
    machine.Run s s' ∧ opensTicket s'.world.log ∧
    ∃ j ws row, .committed j ws ∈ s.world.log ∧ .insertEvent row ∈ ws ∧ row.entityId = 1 ∧
      row.payload = m.modelDump := by
  obtain ⟨s, s', hs, hst, hs', hst'⟩ := System.exists_reaches_twice OverwritesOpen cancelledRun
    ([.start .sendToProvider] ++ runs 4 (deliver 0 ++ ok 1))
    (fun s => s.world.status? 1 = some .cancelled ∧ ¬ opensTicket s.world.log)
    (fun s' => opensTicket s'.world.log) (by decide +kernel)
  simp only [decide_eq_true_eq] at hst
  obtain ⟨k, m, outcome, hsent, hticket, htype⟩ := exists_of_opensTicket hst'
  refine ⟨s, s', m, hs.run, hst.1, hst.2, hs'.run, hst', ?_⟩
  exact emitted_before_terminal hs hst.1 (by decide) hs' hsent hticket (by simp [htype])

end RiskProvider

import RiskProvider.Executions
import RiskProvider.Frames

/-!
# The outbox agrees with the tickets

A ticket and the event of its `TICKET` frame are inserted by one commit, a status that is the
outcome of a decision is set by the commit that inserts the event of the decision's frame, and
events are never deleted. `outbox_coherent` is what follows for the committed rows of every
reachable state.
-/

namespace RiskProvider

open Interleaving

namespace Database

variable {db : Database} {t : UUID}

/-- A ticket that writes bring about is inserted by one of them. -/
theorem inserted_of_mem_tickets {ws : List Write} (h : t ∈ (db.writeAll ws).tickets)
    (hold : t ∉ db.tickets) : ∃ row, .insertTicket row ∈ ws ∧ row.id = t := by
  induction ws generalizing db with
  | nil => exact absurd h hold
  | cons wr ws ih =>
      by_cases hwr : wr.ticketKey = some t
      · cases wr with
        | insertTicket row => exact ⟨row, List.mem_cons_self, Option.some.inj hwr⟩
        | updateTicket id p now =>
            obtain rfl : id = t := Option.some.inj hwr
            have hsame : (db.write (.updateTicket id p now)).tickets = db.tickets := by
              simp [write, Table.modify, AList.lookup_eq_none.mpr hold]
            obtain ⟨row, hrow, hid⟩ := ih h (hsame ▸ hold)
            exact ⟨row, List.mem_cons_of_mem _ hrow, hid⟩
        | _ => cases hwr
      · have hlookup : (db.write wr).tickets.lookup t = db.tickets.lookup t :=
          lookup_tickets_write hwr
        obtain ⟨row, hrow, hid⟩ := ih h (by
          rw [← AList.lookup_eq_none] at hold ⊢
          rw [hlookup, hold])
        exact ⟨row, List.mem_cons_of_mem _ hrow, hid⟩

end Database

section General

variable [Codecs]

/-- The type of the frame that an event carries. -/
def OutboxEvent.frameType (e : OutboxEvent) : Option ProviderMessageType :=
  (Message.modelValidate 0 0 e.payload).map (·.type)

/-- The outbox has an event of the ticket that carries a frame of one of the types. -/
def Database.HasEvent (db : Database) (t : UUID) (types : List ProviderMessageType) : Prop :=
  ∃ id e, db.outbox.lookup id = some e ∧ e.entityId = t ∧ ∃ type ∈ types, e.frameType = some type

variable {C : History → Entry → Prop} {l l' : History} {t : UUID} {e : Entry}

omit [Codecs] in
theorem Database.frames_eq_some {db : Database} {id : UUID} {body : Dict} :
    db.frames id = some (t, body) ↔
      ∃ e, db.outbox.lookup id = some e ∧ e.entityId = t ∧ e.payload = body := by
  simp [Database.frames, Option.map_eq_some_iff]

/-! ### Events are kept -/

/-- A permitted entry keeps every event with its ticket and its frame. -/
theorem Permitted.frames_kept (h : Permitted l e) {id : UUID} {x : UUID × Dict}
    (hx : l.database.frames id = some x) : (l.database.after e).frames id = some x := by
  rcases h.frames with hsame | ⟨i, ws, row, m, hemission⟩
  · rw [hsame, hx]
  · have hne : id ≠ row.id := fun heq => by
      rw [heq, hemission.fresh] at hx
      cases hx
    rw [hemission.frames, Function.update_of_ne hne, hx]

/-- Events are never deleted. -/
theorem Conforms.frames_kept (h : Conforms C l) (hsuffix : l' <:+ l) {id : UUID} {x : UUID × Dict}
    (hx : l'.database.frames id = some x) : l.database.frames id = some x := by
  induction h with
  | nil => exact List.suffix_nil.mp hsuffix ▸ hx
  | cons h hpermitted he ih =>
      rcases List.suffix_cons_iff.mp hsuffix with rfl | hsuffix
      · exact hx
      · exact hpermitted.frames_kept (ih hsuffix)

/-- The event that carries `m`, on behalf of a ticket. -/
def History.Carries (l : History) (t : UUID) (m : Message) : Prop :=
  ∃ id, l.database.frames id = some (t, m.modelDump)

theorem Emission.carries {i : ℕ} {ws : List Write} {row : OutboxEvent} {m : Message}
    (h : Emission l e i ws row m) : History.Carries (e :: l) row.entityId m :=
  ⟨row.id, by rw [History.database_cons, h.frames, Function.update_self]⟩

theorem Conforms.carries_of_suffix (h : Conforms C l) (hsuffix : l' <:+ l) {m : Message}
    (hm : l'.Carries t m) : l.Carries t m :=
  hm.imp fun _ => h.frames_kept hsuffix

/-- The event of a frame that was sent to the provider is in the outbox. -/
theorem Conforms.carries_of_relayed (h : Conforms C l) {id : UUID} {m : Message}
    {publishing emitting : History} {j k : ℕ} {key : String} {ws : List Write} {row : OutboxEvent}
    (hrelayed : Relayed l id m publishing emitting j k key ws row) : l.Carries row.entityId m := by
  have hsuffix := hrelayed.committed.trans ((List.suffix_cons _ _).trans hrelayed.published)
  obtain ⟨m', hemission⟩ := (h.of_suffix hsuffix).1.emission hrelayed.event
  obtain rfl : m' = m :=
    Message.modelDump_injective (hemission.payload.symm.trans hrelayed.payload)
  exact h.carries_of_suffix hsuffix hemission.carries

/-! ### Events of a ticket -/

/-- A ticket that a permitted entry brings about comes with the event that opens it. -/
theorem Permitted.opens_of_created (h : Permitted l e) (hold : t ∉ l.database.tickets)
    (hnew : t ∈ (l.database.after e).tickets) :
    ∃ i ws row m, Emission l e i ws row m ∧ row.entityId = t ∧ m.type = .ticket := by
  cases e with
  | committed i ws =>
      obtain ⟨r, hr, rfl⟩ := Database.inserted_of_mem_tickets hnew hold
      have hpermitted := h
      cases h with
      | create hacts hcurrency hkey hticket hevent hframe =>
          simp only [outbound, List.mem_cons, List.not_mem_nil, or_false, reduceCtorEq] at hr
          cases hr
          obtain ⟨m, hemission⟩ := hpermitted.emission (List.mem_cons_of_mem _ List.mem_cons_self)
          refine ⟨i, _, _, m, hemission, rfl, ?_⟩
          rw [Message.modelDump_injective hemission.payload.symm]
          exact hframe.type
      | recommend | cancellationApplied =>
          rcases List.mem_cons.mp hr with hr | hr
          · cases hr
          · cases mem_rewrite hr
      | settle | requestCancellation =>
          rcases List.mem_append.mp hr with hr | hr
          · cases mem_rewrite hr
          · cases List.mem_singleton.mp hr
      | acknowledge => cases mem_rewrite hr
      | relay =>
          have hkey := ticketKey_relayWrites _ hr
          cases hkey
      | commitNothing => cases hr
  | _ => exact absurd hnew hold

omit [Codecs] in
/-- Every frame names the ticket of its event. -/
theorem Emits.ticketId [Codecs] {i : ℕ} {ws : List Write} {m : Message} (h : Emits l i ws t m) :
    m.ticketId = some t := by
  cases h with
  | opens hrow hid hframe => rw [hframe.ticket, hid]
  | settles hacts hrecommended hid hsets hframe => exact hframe.ticket
  | cancels hlocked hframe => exact hframe.ticket

/-- The types of frames one of which a ticket with this status has emitted. -/
def TicketStatus.evidence : TicketStatus → List ProviderMessageType
  | settled | confirmed | declined => [.confirmRecommendation, .declineRecommendation]
  | cancellationRequested => [.requestCancellation]
  | _ => []

omit [Codecs] in
theorem RecommendationAction.evidence_status (action : RecommendationAction) :
    action.status.evidence = [] := by
  cases action <;> rfl

/-- The commit that sets a ticket to `SETTLED` or `CANCELLATION_REQUESTED` emits the frame. -/
theorem Permitted.emission_of_sets {i : ℕ} {ws : List Write} {st : TicketStatus}
    (h : Permitted l (.committed i ws)) (hsets : Sets ws t st)
    (hst : st = .settled ∨ st = .cancellationRequested) :
    ∃ row m, Emission l (.committed i ws) i ws row m ∧ row.entityId = t ∧ m.type ∈ st.evidence := by
  have hpermitted := h
  cases h with
  | create => simp [Sets, outbound, Write.setsStatus] at hsets
  | @recommend _ n d m p row now began hacts hframe hunclaimed hrow hopen =>
      obtain ⟨-, rfl⟩ := hsets.of_edits (Edits.of_claim _)
      cases haction : p.action <;>
        simp [Ticket.recommended, haction, RecommendationAction.status] at hst
  | @settle _ p acts loaded row now eventId m began hacts hrecommended hrow hid hloaded hevent
      hframe =>
      obtain ⟨rfl, rfl⟩ := hsets.of_edits (Edits.of_outbound _ _ _ _)
      obtain ⟨m', hemission⟩ :=
        hpermitted.emission (List.mem_append_right _ (List.mem_singleton_self _))
      refine ⟨_, m', hemission, hid.symm, ?_⟩
      rw [Message.modelDump_injective hemission.payload.symm, hframe.type]
      cases p.action <;> simp [Ticket.settled, TicketStatus.evidence, RecommendationAction.ackType]
  | requestCancellation hlocked hrow hid hevent hframe =>
      obtain ⟨rfl, rfl⟩ := hsets.of_edits (Edits.of_outbound _ _ _ _)
      obtain ⟨m', hemission⟩ :=
        hpermitted.emission (List.mem_append_right _ (List.mem_singleton_self _))
      refine ⟨_, m', hemission, hid.symm, ?_⟩
      rw [Message.modelDump_injective hemission.payload.symm, hframe.type]
      exact List.mem_singleton_self _
  | cancellationApplied hacts hframe hunclaimed hrow hstatus =>
      obtain ⟨-, rfl⟩ := hsets.of_edits (Edits.of_claim _)
      simp [Ticket.cancelled] at hst
  | acknowledge hacts hdecodes hticket htarget hrow hopen hnew =>
      obtain ⟨-, rfl⟩ := hsets.of_edits Edits.of_rewrite
      simp only [Ticket.acknowledged] at hst
      revert htarget
      generalize Message.type _ = type
      rcases hst with rfl | rfl <;> cases type <;> simp [ProviderGatewayWorker.ackTarget]
  | relay hacts hfailed hpending =>
      obtain ⟨wr, hwr, hset⟩ := List.mem_filterMap.mp hsets
      have hkey := ticketKey_relayWrites wr hwr
      cases wr <;> first | cases hset | cases hkey
  | commitNothing => cases hsets

omit [Codecs] in
/-- The acceptance of a frame by the provider is evidence of the status that it sets. -/
theorem mem_evidence_of_ackTarget {type : ProviderMessageType} {target : TicketStatus}
    (h : ProviderGatewayWorker.ackTarget type = some target) (hne : target.evidence ≠ []) :
    type ∈ target.evidence := by
  cases type <;> cases h <;> simp_all [TicketStatus.evidence]

/-- A ticket whose status is an outcome has emitted the outcome's frame. -/
theorem Conforms.evidence (h : Conforms C l) {st : TicketStatus} (hst : l.status? t = some st)
    (hne : st.evidence ≠ []) : ∃ m, l.Carries t m ∧ m.type ∈ st.evidence := by
  induction h with
  | nil => cases hst
  | @cons l e h hpermitted he ih =>
      have hl : Conforms C (e :: l) := h.cons hpermitted he
      have hkept : ∀ m, l.Carries t m → History.Carries (e :: l) t m := fun m =>
        hl.carries_of_suffix (List.suffix_cons _ _)
      cases hold : l.status? t with
      | none => exact absurd (by rw [status_of_created hpermitted hold hst]; rfl) hne
      | some st' =>
          by_cases hsame : st = st'
          · obtain ⟨m, hm, htype⟩ := ih (hsame ▸ hold)
            exact ⟨m, hkept m hm, htype⟩
          obtain ⟨i, ws, rfl⟩ := History.committed_of_status_ne hold hst hsame
          obtain ⟨hsets, hchange⟩ := change_of_permitted hpermitted hold hst hsame
          have hemitted : st = .settled ∨ st = .cancellationRequested →
              ∃ m, History.Carries (.committed i ws :: l) t m ∧ m.type ∈ st.evidence := by
            intro hst
            obtain ⟨row, m, hemission, rfl, htype⟩ := hpermitted.emission_of_sets hsets hst
            exact ⟨m, hemission.carries, htype⟩
          cases hchange with
          | recommend => exact absurd (RecommendationAction.evidence_status _) hne
          | settle => exact hemitted (.inl rfl)
          | requestCancellation => exact hemitted (.inr rfl)
          | cancel => exact absurd rfl hne
          | @acknowledge n d m _ hacts hdecodes hticket htarget hopen hnew =>
              -- the frame whose acceptance is recorded was emitted for the ticket
              obtain ⟨l₁, hsent, hacts₁⟩ := History.suffix_of_actions hacts
              obtain ⟨l₂, hreceived, -⟩ := History.suffix_of_actions hacts₁
              have hsuffix := hreceived.trans ((List.suffix_cons _ _).trans hsent)
              obtain ⟨publishing, emitting, j, k, key, settle, row, m', hbody, hrelayed⟩ :=
                h.relayed_of_received hsuffix
              rw [hbody] at hdecodes
              obtain rfl := hdecodes.eq
              obtain rfl : row.entityId = t :=
                Option.some.inj (hrelayed.emits.ticketId.symm.trans hticket)
              have hl₂ := h.of_suffix_history ((List.suffix_cons _ _).trans hsuffix)
              exact ⟨m, hkept m (h.carries_of_suffix ((List.suffix_cons _ _).trans hsuffix)
                (hl₂.carries_of_relayed hrelayed)), mem_evidence_of_ackTarget htarget hne⟩

/-! ### The `TICKET` event -/

/-- Every event is a frame of a ticket that exists. -/
theorem Conforms.ticket_of_frames (h : Conforms C l) {id : UUID} {body : Dict}
    (hx : l.database.frames id = some (t, body)) :
    t ∈ l.database.tickets ∧ ∃ m : Message, body = m.modelDump := by
  induction h with
  | nil => cases hx
  | @cons l e h hpermitted he ih =>
      have hold : l.database.frames id = some (t, body) →
          t ∈ (l.database.after e).tickets ∧ ∃ m : Message, body = m.modelDump := fun hx => by
        obtain ⟨hmem, hbody⟩ := ih hx
        refine ⟨?_, hbody⟩
        cases e with
        | committed i ws => exact Database.mem_tickets_writeAll ws hmem
        | _ => exact hmem
      rcases hpermitted.frames with hsame | ⟨i, ws, row, m, hemission⟩
      · exact hold (hsame ▸ hx)
      · rw [History.database_cons, hemission.frames] at hx
        by_cases hid : id = row.id
        · subst hid
          rw [Function.update_self, Option.some.injEq] at hx
          cases hx
          exact ⟨hemission.ticket, m, rfl⟩
        · rw [Function.update_of_ne hid] at hx
          exact hold hx

/-- An emitted `TICKET` frame is of a ticket that did not exist before. -/
theorem Emits.new_of_type {i : ℕ} {ws : List Write} {m : Message} (h : Emits l i ws t m)
    (htype : m.type = .ticket) : t ∉ l.database.tickets := by
  cases h with
  | opens hrow hid hframe hnone => exact AList.lookup_eq_none.mp hnone
  | @settles p acts hacts hrecommended hid hsets hframe =>
      rw [hframe.type] at htype
      cases haction : p.action <;> simp [haction, RecommendationAction.ackType] at htype
  | cancels hlocked hframe =>
      rw [hframe.type] at htype
      cases htype

/-- Every ticket has one event that carries a `TICKET` frame. -/
theorem Conforms.unique_open (h : Conforms C l) (ht : t ∈ l.database.tickets) :
    ∃! id, ∃ m : Message, l.database.frames id = some (t, m.modelDump) ∧ m.type = .ticket := by
  induction h with
  | nil => cases ht
  | @cons l e h hpermitted he ih =>
      have hl : Conforms C (e :: l) := h.cons hpermitted he
      by_cases hold : t ∈ l.database.tickets
      · -- the ticket keeps its event, and gets no other one
        obtain ⟨id, ⟨m, hm, htype⟩, hunique⟩ := ih hold
        refine ⟨id, ⟨m, hpermitted.frames_kept hm, htype⟩, ?_⟩
        rintro id' ⟨m', hm', htype'⟩
        refine hunique id' ⟨m', ?_, htype'⟩
        rcases hpermitted.frames with hsame | ⟨i, ws, row, m'', hemission⟩
        · exact hsame ▸ hm'
        · rw [History.database_cons, hemission.frames] at hm'
          by_cases hid : id' = row.id
          · subst hid
            rw [Function.update_self, Option.some.injEq, Prod.mk.injEq] at hm'
            obtain rfl := Message.modelDump_injective hm'.2
            exact absurd (hm'.1 ▸ hold) (hemission.emits.new_of_type htype')
          · rwa [Function.update_of_ne hid] at hm'
      · -- the ticket is new, and so is its event
        obtain ⟨i, ws, row, m, hemission, rfl, htype⟩ := hpermitted.opens_of_created hold ht
        rw [History.database_cons, hemission.frames]
        refine ⟨row.id, ⟨m, Function.update_self _ _ _, htype⟩, ?_⟩
        rintro id' ⟨m', hm', -⟩
        by_contra hid
        rw [Function.update_of_ne hid] at hm'
        exact hold (h.ticket_of_frames hm').1

/-! ### Coherence -/

theorem OutboxEvent.frameType_of_payload {row : OutboxEvent} {m : Message}
    (h : row.payload = m.modelDump) : row.frameType = some m.type := by
  simp [frameType, h]

/-- The events with a `TICKET` frame, in terms of the frames. -/
theorem Conforms.lookup_frameType (h : Conforms C l) {id : UUID} {type : ProviderMessageType} :
    (∃ row, l.database.outbox.lookup id = some row ∧ row.entityId = t ∧
      row.frameType = some type) ↔
    ∃ m : Message, l.database.frames id = some (t, m.modelDump) ∧ m.type = type := by
  constructor
  · rintro ⟨row, hrow, rfl, htype⟩
    have hframe := Database.frames_eq_some.mpr ⟨row, hrow, rfl, rfl⟩
    obtain ⟨-, m, hbody⟩ := h.ticket_of_frames hframe
    refine ⟨m, hbody ▸ hframe, ?_⟩
    rwa [OutboxEvent.frameType_of_payload hbody, Option.some.injEq] at htype
  · rintro ⟨m, hm, rfl⟩
    obtain ⟨row, hrow, hid, hbody⟩ := Database.frames_eq_some.mp hm
    exact ⟨row, hrow, hid, OutboxEvent.frameType_of_payload hbody⟩

/-- In every reachable state: a ticket has exactly one `TICKET` event; the entity of an event is
a ticket; a ticket that is `SETTLED`, `CONFIRMED` or `DECLINED` has an event that acknowledges
its recommendation, and one that is `CANCELLATION_REQUESTED` an event that requests it. -/
theorem outbox_coherent {s : System} (h : s.Reachable) :
    (∀ t ∈ s.world.db.tickets, ∃! id, ∃ row, s.world.db.outbox.lookup id = some row ∧
      row.entityId = t ∧ row.frameType = some .ticket) ∧
    (∀ id row, s.world.db.outbox.lookup id = some row → row.entityId ∈ s.world.db.tickets) ∧
    (∀ t, s.world.status? t ∈ [some .settled, some .confirmed, some .declined] →
      s.world.db.HasEvent t [.confirmRecommendation, .declineRecommendation]) ∧
    ∀ t, s.world.status? t = some .cancellationRequested →
      s.world.db.HasEvent t [.requestCancellation] := by
  have hl := h.conforms
  have hstatus : ∀ t, s.world.status? t = s.world.log.status? t := System.status?_eq h
  simp only [hstatus, (System.isolated h).db_eq]
  generalize s.world.log = l at hl
  have hevidence : ∀ {t st}, l.status? t = some st → st.evidence ≠ [] →
      l.database.HasEvent t st.evidence := by
    intro t st hst hne
    obtain ⟨m, ⟨id, hid⟩, htype⟩ := hl.evidence hst hne
    obtain ⟨row, hrow, hentity, hbody⟩ := Database.frames_eq_some.mp hid
    exact ⟨id, row, hrow, hentity, m.type, htype, OutboxEvent.frameType_of_payload hbody⟩
  refine ⟨fun t ht => ?_, fun id row hrow => ?_, fun t ht => ?_, fun t ht => ?_⟩
  · simpa only [hl.lookup_frameType] using hl.unique_open ht
  · exact (hl.ticket_of_frames (Database.frames_eq_some.mpr ⟨row, hrow, rfl, rfl⟩)).1
  · simp only [List.mem_cons, List.not_mem_nil, or_false] at ht
    rcases ht with ht | ht | ht <;> exact hevidence ht (by simp [TicketStatus.evidence])
  · exact hevidence ht (by simp [TicketStatus.evidence])

end General

/-- Ticket 1 has been confirmed, and the event that confirms it is in the outbox. -/
theorem outbox_coherent_confirmed : ∃ s : System, s.Reachable ∧
    s.world.status? 1 = some .confirmed ∧
    s.world.db.HasEvent 1 [.confirmRecommendation, .declineRecommendation] := by
  obtain ⟨s, hs, hst⟩ := System.exists_reaches (s := System.initial) anyEntry
    (confirmedRun .accept) (fun s => s.world.status? 1 = some .confirmed) (by decide +kernel)
  simp only [decide_eq_true_eq] at hst
  exact ⟨s, hs.run, hst, (outbox_coherent hs.run).2.2.1 1 (by simp [hst])⟩

end RiskProvider

import RiskProvider.Conformance

/-!
# Changes of a ticket's status

What a permitted commit does to the committed row of a ticket. A commit that changes the
committed status is one of the five changes of `Change`; which of them test the status that
they overwrite is visible there: `recommend` and `acknowledge` find a ticket that is not
terminal, the other three may find any.
-/

namespace RiskProvider

/-! ### Rows after a rewrite -/

@[simp]
theorem changed_getD {α : Type} [DecidableEq α] (old new : α) :
    (changed old new).getD old = new := by
  unfold changed
  split <;> simp_all

theorem changed_of_ne {α : Type} [DecidableEq α] {old new : α} (h : new ≠ old) :
    changed old new = some new := if_neg h

theorem mem_rewrite {row row' : Ticket} {began : Time} {wr : Write}
    (h : wr ∈ rewrite row row' began) : wr = .updateTicket row.id (row.diff row') began := by
  simp only [rewrite, Instance.update, Option.mem_toList] at h
  split at h <;> cases h
  rfl

theorem ticketKey_rewrite {row row' : Ticket} {began : Time} {wr : Write}
    (h : wr ∈ rewrite row row' began) : wr.ticketKey = some row.id := by
  rw [mem_rewrite h]
  rfl

theorem ticketKey_relayWrites {published : List UUID} {failed : List (UUID × String)}
    {publishedAt began : Time} :
    ∀ wr ∈ relayWrites published failed publishedAt began, wr.ticketKey = none := by
  intro wr hwr
  rcases List.mem_append.mp hwr with hwr | hwr
  · split at hwr
    · cases hwr
    · obtain rfl := List.mem_singleton.mp hwr
      rfl
  · obtain ⟨f, -, rfl⟩ := List.mem_map.mp hwr
    rfl

/-- The writes to tickets are those of one rewrite. -/
def Edits (ws : List Write) (row row' : Ticket) (began : Time) : Prop :=
  ∃ before after, ws = before ++ rewrite row row' began ++ after ∧
    (∀ wr ∈ before, wr.ticketKey = none) ∧ ∀ wr ∈ after, wr.ticketKey = none

namespace Edits

variable {row row' : Ticket} {began : Time}

theorem of_rewrite : Edits (rewrite row row' began) row row' began :=
  ⟨[], [], by simp, by simp, by simp⟩

theorem of_claim (inb : ProcessedProviderMessage) :
    Edits (.insertInbox inb :: rewrite row row' began) row row' began :=
  ⟨[.insertInbox inb], [], by simp, by simp [Write.ticketKey], by simp⟩

theorem of_outbound [Codecs] (eventId ticketId : UUID) (m : Message) (began' : Time) :
    Edits (rewrite row row' began ++ [outbound eventId ticketId m began']) row row' began :=
  ⟨[], [outbound eventId ticketId m began'], by simp, by simp,
    by simp [outbound, Write.ticketKey]⟩

/-- The update of an instance that has changed is among the writes. -/
theorem mem_of_diff_ne {ws : List Write} (h : Edits ws row row' began) (hdiff : row.diff row' ≠ {}) :
    .updateTicket row.id (row.diff row') began ∈ ws := by
  obtain ⟨before, after, rfl, -, -⟩ := h
  simp [rewrite, Instance.update, hdiff]

theorem mem_of_status_ne {ws : List Write} (h : Edits ws row row' began)
    (hne : row'.status ≠ row.status) : .updateTicket row.id (row.diff row') began ∈ ws := by
  refine h.mem_of_diff_ne fun hdiff => ?_
  have hstatus := congrArg TicketPatch.status hdiff
  simp [Ticket.diff, changed_of_ne hne] at hstatus

end Edits

namespace Database

variable {db : Database} {row row' r : Ticket} {began : Time} {t : UUID}

/-- A rewrite patches the committed row with the columns in which the instance differs. -/
theorem lookup_rewrite_patch (hr : db.tickets.lookup row.id = some r) :
    ∃ now, (db.writeAll (rewrite row row' began)).tickets.lookup row.id =
      some (r.patch (row.diff row') now) := by
  unfold rewrite Instance.update
  dsimp only
  split
  next hdiff =>
    -- nothing is written, not even `updated_at`
    exact ⟨r.updatedAt, by rw [hdiff]; exact hr⟩
  next => exact ⟨began, by simp [write, hr]⟩

/-- The row of the edited ticket after the writes. -/
theorem lookup_edits_patch {ws : List Write} (h : Edits ws row row' began)
    (hr : db.tickets.lookup row.id = some r) :
    ∃ now, (db.writeAll ws).tickets.lookup row.id = some (r.patch (row.diff row') now) := by
  obtain ⟨before, after, rfl, hbefore, hafter⟩ := h
  rw [writeAll_append, writeAll_append,
    lookup_tickets_writeAll fun wr hwr => by simp [hafter wr hwr]]
  refine lookup_rewrite_patch ?_
  rw [lookup_tickets_writeAll fun wr hwr => by simp [hbefore wr hwr], hr]

/-- The status and the recommendation of the edited ticket after the writes. -/
theorem lookup_edits_self {ws : List Write} (h : Edits ws row row' began)
    (hr : db.tickets.lookup row.id = some r) :
    ∃ r', (db.writeAll ws).tickets.lookup row.id = some r' ∧
      r'.status = (changed row.status row'.status).getD r.status ∧
      r'.providerRecommendation =
        (changed row.providerRecommendation row'.providerRecommendation).getD
          r.providerRecommendation := by
  obtain ⟨now, hnow⟩ := lookup_edits_patch h hr
  exact ⟨_, hnow, rfl, rfl⟩

/-- The rows of the other tickets after the writes. -/
theorem lookup_edits_ne {ws : List Write} (h : Edits ws row row' began) (ht : t ≠ row.id) :
    (db.writeAll ws).tickets.lookup t = db.tickets.lookup t := by
  obtain ⟨before, after, rfl, hbefore, hafter⟩ := h
  refine lookup_tickets_writeAll fun wr hwr => ?_
  rcases List.mem_append.mp hwr with hwr | hwr
  · rcases List.mem_append.mp hwr with hwr | hwr
    · simp [hbefore wr hwr]
    · simpa [ticketKey_rewrite hwr] using ht.symm
  · simp [hafter wr hwr]

end Database

/-! ### Changes -/

/-- The ticket whose status a write sets, and the status. -/
def Write.setsStatus : Write → Option (UUID × TicketStatus)
  | updateTicket id p _ => p.status.map (id, ·)
  | _ => none

/-- The writes set the status of a ticket. -/
def Sets (ws : List Write) (ticketId : UUID) (status : TicketStatus) : Prop :=
  (ticketId, status) ∈ ws.filterMap Write.setsStatus

/-- A rewrite sets at most one status, that of the instance. -/
theorem statuses_rewrite (row row' : Ticket) (began : Time) :
    (rewrite row row' began).filterMap Write.setsStatus = [] ∨
      (rewrite row row' began).filterMap Write.setsStatus = [(row.id, row'.status)] := by
  unfold rewrite Instance.update
  dsimp only
  split
  · exact .inl rfl
  · by_cases hstatus : row'.status = row.status
    · exact .inl (by simp [Write.setsStatus, Ticket.diff, hstatus])
    · exact .inr (by simp [Write.setsStatus, Ticket.diff, changed_of_ne hstatus])

/-- An edit of one ticket sets the status of this ticket only, to that of the instance. -/
theorem Sets.of_edits {ws : List Write} {t : UUID} {status : TicketStatus} {row row' : Ticket}
    {began : Time} (h : Sets ws t status) (hedits : Edits ws row row' began) :
    t = row.id ∧ row'.status = status := by
  obtain ⟨wr, hwr, hset⟩ := List.mem_filterMap.mp h
  have hkey : wr.ticketKey = some t := by
    cases wr with
    | updateTicket id p now =>
        obtain ⟨st, -, heq⟩ := Option.map_eq_some_iff.mp hset
        cases heq
        rfl
    | _ => cases hset
  obtain ⟨before, after, rfl, hbefore, hafter⟩ := hedits
  rcases List.mem_append.mp hwr with hwr | hwr
  · rcases List.mem_append.mp hwr with hwr | hwr
    · rw [hbefore wr hwr] at hkey
      cases hkey
    · have hmem : (t, status) ∈ (rewrite row row' began).filterMap Write.setsStatus :=
        List.mem_filterMap.mpr ⟨wr, hwr, hset⟩
      rcases statuses_rewrite row row' began with hnil | hone
      · rw [hnil] at hmem
        cases hmem
      · rw [hone, List.mem_singleton] at hmem
        cases hmem
        exact ⟨rfl, rfl⟩
  · rw [hafter wr hwr] at hkey
    cases hkey

namespace History

variable {l : History} {i : ℕ} {ws : List Write} {t : UUID}

theorem status?_eq_some {status : TicketStatus} : l.status? t = some status ↔
    ∃ row, l.database.tickets.lookup t = some row ∧ row.status = status := by
  simp [status?, Option.map_eq_some_iff]

theorem status?_cons {e : Entry} (h : ∀ i ws, e ≠ .committed i ws) :
    status? t (e :: l) = status? t l := by
  cases e with
  | committed i ws => exact absurd rfl (h i ws)
  | _ => rfl

/-- Tickets are never deleted. -/
theorem status?_isSome_cons {e : Entry} (h : (l.status? t).isSome) :
    (status? t (e :: l)).isSome := by
  cases e with
  | committed i ws =>
      simp only [status?, Option.isSome_map] at h ⊢
      have hmem : t ∈ l.database.tickets := AList.lookup_isSome.mp h
      exact AList.lookup_isSome.mpr (Database.mem_tickets_writeAll ws hmem)
  | _ => exact h

/-- Only a commit changes a status. -/
theorem committed_of_status_ne {e : Entry} {st st' : TicketStatus} (hst : l.status? t = some st)
    (hst' : status? t (e :: l) = some st') (hne : st' ≠ st) :
    ∃ i ws, e = .committed i ws := by
  by_contra hnot
  push Not at hnot
  rw [status?_cons hnot, hst, Option.some.injEq] at hst'
  exact hne hst'.symm

/-- A commit that does not write to the ticket. -/
theorem status?_committed_of_ne (h : ∀ wr ∈ ws, wr.ticketKey ≠ some t) :
    status? t (.committed i ws :: l) = status? t l := by
  change ((l.database.writeAll ws).tickets.lookup t).map _ = _
  rw [Database.lookup_tickets_writeAll h]
  rfl

/-- A commit that edits one ticket changes no other status, and sets the status of this one if
the instance's status differs from the one that it was loaded with. -/
theorem status?_edits {row row' r : Ticket} {began : Time} (h : Edits ws row row' began)
    (hr : l.database.tickets.lookup row.id = some r) {st st' : TicketStatus}
    (hst : l.status? t = some st) (hst' : status? t (.committed i ws :: l) = some st')
    (hne : st' ≠ st) : t = row.id ∧ r.status = st ∧ row'.status = st' ∧ Sets ws t st' := by
  obtain ⟨r₀, hr₀, rfl⟩ := status?_eq_some.mp hst
  obtain ⟨r₁, hr₁, rfl⟩ := status?_eq_some.mp hst'
  change (l.database.writeAll ws).tickets.lookup t = some r₁ at hr₁
  by_cases ht : t = row.id
  · subst ht
    obtain rfl : r₀ = r := Option.some.inj (hr₀.symm.trans hr)
    obtain ⟨r', hr', hstatus, -⟩ := Database.lookup_edits_self h hr
    obtain rfl : r₁ = r' := Option.some.inj (hr₁.symm.trans hr')
    have hchanged : row'.status ≠ row.status := fun heq => hne (by simp [hstatus, heq])
    rw [changed_of_ne hchanged, Option.getD_some] at hstatus
    refine ⟨rfl, rfl, hstatus.symm,
      List.mem_filterMap.mpr ⟨_, h.mem_of_status_ne hchanged, ?_⟩⟩
    simp [Write.setsStatus, Ticket.diff, changed_of_ne hchanged, hstatus]
  · rw [Database.lookup_edits_ne h ht, hr₀] at hr₁
    cases hr₁
    exact absurd rfl hne

end History

/-- The ways in which thread `i` changes the committed status of ticket `t` from `st`. -/
inductive Change [Codecs] (l : History) (i : ℕ) (t : UUID) (st : TicketStatus) :
    TicketStatus → Prop
  /-- The first transaction of `apply_recommendation`. -/
  | recommend {n d m p} (hacts : l.actions i = [.received i .providerIn n d])
      (hframe : Recommends d m p) (ht : p.ticketId = t) (hopen : ¬ st.Terminal) :
      Change l i t st p.action.status
  /-- The second transaction of `apply_recommendation`. -/
  | settle {p acts} (hacts : l.actions i = .processed i t (some p.action) none :: acts)
      (hrecommended : HasRecommended i p acts) (ht : p.ticketId = t) : Change l i t st .settled
  /-- The transaction of `request_cancellation`. -/
  | requestCancellation {error} (hlocked : (l.focus i t).head? = some (.processed i t none error)) :
      Change l i t st .cancellationRequested
  /-- The transaction of `mark_cancellation_applied`. -/
  | cancel {n d m p} (hacts : l.actions i = [.received i .providerIn n d])
      (hframe : AppliesCancellation d m p) (ht : p.ticketId = t) (hstatus : st ≠ .cancelled) :
      Change l i t st .cancelled
  /-- The transaction of `_handle_message_success_ack`. -/
  | acknowledge {n d m target}
      (hacts : l.actions i = [.sent i m .ok, .received i .providerOut n d])
      (hdecodes : Decodes d.body m) (hticket : m.ticketId = some t)
      (htarget : ProviderGatewayWorker.ackTarget m.type = some target) (hopen : ¬ st.Terminal)
      (hnew : target = .sentToProvider → st = .new) : Change l i t st target

variable [Codecs] {l : History} {i : ℕ} {ws : List Write} {t : UUID} {st st' : TicketStatus}

/-- Every permitted commit that changes a status makes one of the five changes. -/
theorem change_of_permitted (h : Permitted l (.committed i ws)) (hst : l.status? t = some st)
    (hst' : History.status? t (.committed i ws :: l) = some st') (hne : st' ≠ st) :
    Sets ws t st' ∧ Change l i t st st' := by
  have hkeyed := l.keyed_database.tickets
  have hquiet : (∀ wr ∈ ws, wr.ticketKey ≠ some t) → False := fun hws => by
    rw [History.status?_committed_of_ne hws, hst, Option.some.injEq] at hst'
    exact hne hst'.symm
  cases h with
  | create hacts hcurrency hkey hticket hevent hframe =>
      refine (hquiet fun wr hwr => ?_).elim
      obtain ⟨r, hr, -⟩ := History.status?_eq_some.mp hst
      simp only [List.mem_cons, List.not_mem_nil, or_false] at hwr
      rcases hwr with rfl | rfl
      · rintro ⟨⟩
        simp [CreateTicketRequest.ticket, hticket] at hr
      · simp [outbound, Write.ticketKey]
  | recommend hacts hframe hunclaimed hrow hopen =>
      have hid := hkeyed _ _ hrow
      obtain ⟨rfl, rfl, rfl, hsets⟩ :=
        History.status?_edits (Edits.of_claim _) (hid ▸ hrow) hst hst' hne
      exact ⟨hsets, .recommend hacts hframe hid.symm hopen⟩
  | settle hacts hrecommended hrow hid hloaded hevent hframe =>
      obtain ⟨rfl, -, rfl, hsets⟩ :=
        History.status?_edits (Edits.of_outbound _ _ _ _) (hid ▸ hrow) hst hst' hne
      exact ⟨hsets, .settle (hid ▸ hacts) hrecommended hid.symm⟩
  | requestCancellation hlocked hrow hid hevent hframe =>
      obtain ⟨rfl, -, rfl, hsets⟩ :=
        History.status?_edits (Edits.of_outbound _ _ _ _) (hid ▸ hrow) hst hst' hne
      exact ⟨hsets, .requestCancellation (hid ▸ hlocked)⟩
  | cancellationApplied hacts hframe hunclaimed hrow hstatus =>
      have hid := hkeyed _ _ hrow
      obtain ⟨rfl, rfl, rfl, hsets⟩ :=
        History.status?_edits (Edits.of_claim _) (hid ▸ hrow) hst hst' hne
      exact ⟨hsets, .cancel hacts hframe hid.symm hstatus⟩
  | acknowledge hacts hdecodes hticket htarget hrow hopen hnew =>
      have hid := hkeyed _ _ hrow
      obtain ⟨rfl, rfl, rfl, hsets⟩ :=
        History.status?_edits Edits.of_rewrite (hid ▸ hrow) hst hst' hne
      exact ⟨hsets, .acknowledge hacts hdecodes (hid ▸ hticket) htarget hopen hnew⟩
  | relay hacts hfailed hpending =>
      exact (hquiet fun wr hwr => by simp [ticketKey_relayWrites wr hwr]).elim
  | commitNothing => exact (hquiet (by simp)).elim

/-- A ticket that a permitted entry creates is new. -/
theorem status_of_created {e : Entry} (h : Permitted l e) (hnone : l.status? t = none)
    (hst : History.status? t (e :: l) = some st) : st = .new := by
  have hlookup : l.database.tickets.lookup t = none := by
    simpa [History.status?] using hnone
  have hkeyed := l.keyed_database.tickets
  -- an edit leaves the ticket without a row
  have hedits : ∀ {i ws row row' began r}, Edits ws row row' began →
      l.database.tickets.lookup row.id = some r →
      History.status? t (.committed i ws :: l) = some st → st = .new := by
    intro i ws row row' began r hedits hr hst
    have hne : t ≠ row.id := fun heq => by
      rw [← heq, hlookup] at hr
      cases hr
    obtain ⟨r', hr', -⟩ := History.status?_eq_some.mp hst
    change (l.database.writeAll ws).tickets.lookup t = some r' at hr'
    rw [Database.lookup_edits_ne hedits hne, hlookup] at hr'
    cases hr'
  cases h with
  | @create i key id currency eventId m began request hacts hticket hevent hframe =>
      obtain ⟨r, hr, rfl⟩ := History.status?_eq_some.mp hst
      by_cases ht : t = id
      · subst ht
        have hr : (l.database.tickets.insert t
            (request.ticket key t currency began)).lookup t = some r := hr
        rw [AList.lookup_insert, Option.some.injEq] at hr
        rw [← hr]
        rfl
      · have hr : (l.database.tickets.insert id
            (request.ticket key id currency began)).lookup t = some r := hr
        rw [AList.lookup_insert_ne ht, hlookup] at hr
        cases hr
  | recommend hacts hframe hunclaimed hrow hopen =>
      exact hedits (Edits.of_claim _) (hkeyed _ _ hrow ▸ hrow) hst
  | settle hacts hrecommended hrow hid hloaded hevent hframe =>
      exact hedits (Edits.of_outbound _ _ _ _) (hid ▸ hrow) hst
  | requestCancellation hlocked hrow hid hevent hframe =>
      exact hedits (Edits.of_outbound _ _ _ _) (hid ▸ hrow) hst
  | cancellationApplied hacts hframe hunclaimed hrow hstatus =>
      exact hedits (Edits.of_claim _) (hkeyed _ _ hrow ▸ hrow) hst
  | acknowledge hacts hdecodes hticket htarget hrow hopen hnew =>
      exact hedits Edits.of_rewrite (hkeyed _ _ hrow ▸ hrow) hst
  | relay hacts hfailed hpending =>
      rw [History.status?_committed_of_ne fun wr hwr => by simp [ticketKey_relayWrites wr hwr],
        hnone] at hst
      cases hst
  | commitNothing =>
      rw [History.status?_committed_of_ne (by simp), hnone] at hst
      cases hst
  | _ =>
      rw [History.status?_cons (by simp), hnone] at hst
      cases hst

end RiskProvider

import RiskProvider.Api
import RiskProvider.Idempotence

/-!
# A bet reaches the provider as it was placed

A `TICKET` frame is made of a ticket in the transaction that inserts it, and what the gateway
receives is what a transaction has emitted. `bet_fidelity`: every `TICKET` frame that is handed
to the provider carries what the request asked for.
-/

namespace RiskProvider

open Interleaving

section General

variable [Codecs]

/-- The payload carries the bet of the request. -/
structure TicketPayload.Carries (p : TicketPayload) (r : TicketCreateRequest) : Prop where
  userId : p.userId = r.userId
  stakeAmount : p.stakeAmount = r.stakeAmount.amount
  currency : p.currency = r.currency.value
  selections : p.selections = r.selections.map SelectionIn.selection

variable {C : History → Entry → Prop} {l l' : History} {i : ℕ} {ws : List Write}

/-- An inserted ticket is that of the request of its thread. -/
theorem Conforms.ticket_of_request (h : Conforms C l) {key : String}
    {request : CreateTicketRequest} (hrequest : .requested i key request ∈ l)
    (hsuffix : (.committed i ws :: l') <:+ l) {row : Ticket} (hrow : .insertTicket row ∈ ws) :
    ∃ id currency began, Currency.ofValue? request.currency = some currency ∧
      row = request.ticket key id currency began := by
  obtain ⟨request₁, currency, began, hacts, hcurrency, heq⟩ := (h.creation hsuffix hrow).call
  have hmem : .requested i row.idempotencyKey request₁ ∈ l :=
    hsuffix.subset (List.mem_cons_of_mem _
      (History.mem_of_mem_actions (i := i) (by simp [hacts])))
  obtain ⟨rfl, rfl⟩ := h.requested_unique hmem hrequest
  exact ⟨row.id, currency, began, hcurrency, heq⟩

/-- The payload of a frame that opens a ticket. -/
theorem Opens.modelValidate_payload {m : Message} {row : Ticket} (h : Opens m row) :
    ∃ selections placedAt, row.selections.mapM Selection.modelValidate = some selections ∧
      TicketPayload.modelValidate m.payload = some (row.payload selections placedAt) := by
  obtain ⟨selections, placedAt, hselections, hpayload⟩ := h.payload
  refine ⟨selections, placedAt, hselections, ?_⟩
  rw [hpayload]
  exact TicketPayload.model.validate_dump _

/-- The ticket of a request is opened with the bet of the request. -/
theorem Opens.carries {m : Message} {r : TicketCreateRequest} {key : String} {id : UUID}
    {currency : Currency} {began : Time} {p : TicketPayload}
    (hcurrency : Currency.ofValue? r.toService.currency = some currency)
    (h : Opens m (r.toService.ticket key id currency began))
    (hp : TicketPayload.modelValidate m.payload = some p) : p.Carries r := by
  obtain ⟨selections, placedAt, hselections, hpayload⟩ := h.modelValidate_payload
  obtain rfl := Option.some.inj (hp.symm.trans hpayload)
  have hread : selections = r.selections.map SelectionIn.selection :=
    Option.some.inj (hselections.symm.trans (mapM_modelValidate r.selections))
  have hsame : currency = r.currency :=
    Option.some.inj (hcurrency.symm.trans (Currency.ofValue?_value r.currency))
  exact ⟨rfl, rfl, congrArg Currency.value hsame, hread⟩

/-- A `TICKET` frame that the gateway sends was emitted by the commit that inserts its ticket. -/
theorem Conforms.opened_of_sent (h : Conforms C l) {j : ℕ} {m : Message} {outcome : SendOutcome}
    (hsent : .sent j m outcome ∈ l) (htype : m.type = .ticket) :
    ∃ k ws row, ∃ l' : History, (.committed k ws :: l') <:+ l ∧ .insertTicket row ∈ ws ∧
      Opens m row ∧ l.Carries row.id m := by
  obtain ⟨l₁, hl₁⟩ := exists_suffix_of_mem hsent
  cases (h.of_suffix hl₁).1 with
  | send hacts hdecodes =>
      obtain ⟨l₂, hl₂, -⟩ := History.suffix_of_actions hacts
      have hreceived := hl₂.trans ((List.suffix_cons _ _).trans hl₁)
      obtain ⟨publishing, emitting, k, i, key, ws, event, m', hbody, hrelayed⟩ :=
        h.relayed_of_received hreceived
      rw [hbody] at hdecodes
      obtain rfl := hdecodes.eq
      have hbefore : l₂ <:+ l := (List.suffix_cons _ _).trans hreceived
      have hcarries := h.carries_of_suffix hbefore
        ((h.of_suffix_history hbefore).carries_of_relayed hrelayed)
      have hcommitted := hrelayed.committed.trans
        ((List.suffix_cons _ _).trans (hrelayed.published.trans hbefore))
      cases hrelayed.emits with
      | @opens row hrow hid hframe hnone =>
          exact ⟨i, ws, row, emitting, hcommitted, hrow, hframe, hid ▸ hcarries⟩
      | @settles p acts hacts hrecommended hid hsets hframe =>
          rw [hframe.type] at htype
          cases haction : p.action <;> simp [haction, RecommendationAction.ackType] at htype
      | cancels hlocked hframe =>
          rw [hframe.type] at htype
          cases htype

/-- In every run: the gateway decodes every delivery; a `TICKET` frame that it hands to the
provider is that of an outbox event, whose ticket the envelope and the payload name; and if the
ticket is that of a request that the API has accepted, the payload carries its bet. -/
theorem bet_fidelity {s : System} (h : s.Reachable) :
    (∀ i n d, .received i .providerOut n d ∈ s.world.log → ∃ m, ∀ messageId timestamp,
      Message.modelValidate messageId timestamp d.body = some m) ∧
    ∀ j m outcome, .sent j m outcome ∈ s.world.log → m.type = .ticket →
      ∃ id event p, s.world.db.outbox.lookup id = some event ∧ event.payload = m.modelDump ∧
        m.ticketId = some event.entityId ∧ TicketPayload.modelValidate m.payload = some p ∧
        p.ticketId = event.entityId ∧
        ∀ (r : TicketCreateRequest) i key ws row, .requested i key r.toService ∈ s.world.log →
          .committed i ws ∈ s.world.log → .insertTicket row ∈ ws → row.id = event.entityId →
          p.Carries r := by
  have hl := h.conforms
  refine ⟨fun i n d hreceived => ?_, fun j m outcome hsent htype => ?_⟩
  · obtain ⟨l', hsuffix⟩ := exists_suffix_of_mem hreceived
    obtain ⟨-, -, -, -, -, -, -, m, hbody, -⟩ := hl.relayed_of_received hsuffix
    exact ⟨m, fun messageId timestamp => by rw [hbody, Message.modelValidate_modelDump]⟩
  obtain ⟨k, ws, row, l', hsuffix, hrow, hframe, id, hframes⟩ := hl.opened_of_sent hsent htype
  obtain ⟨event, hevent, hentity, hpayload⟩ := Database.frames_eq_some.mp hframes
  obtain ⟨selections, placedAt, -, hp⟩ := hframe.modelValidate_payload
  refine ⟨id, event, _, by rwa [(System.isolated h).db_eq], hpayload, by rw [hentity, hframe.ticket],
    hp, hentity.symm, fun r i key ws' row' hrequest hcommitted hrow' hid' => ?_⟩
  obtain ⟨l₁, hl₁⟩ := exists_suffix_of_mem hcommitted
  -- the commit of the request is the one that emitted the frame
  have hsame := hl.creation_unique hsuffix hl₁ hrow hrow' (.inr (hentity ▸ hid'.symm))
  simp only [List.cons.injEq, Entry.committed.injEq] at hsame
  obtain ⟨⟨rfl, rfl⟩, rfl⟩ := hsame
  obtain ⟨id, currency, began, hcurrency, rfl⟩ := hl.ticket_of_request hrequest hsuffix hrow
  exact Opens.carries hcurrency hframe hp

end General

/-- A bet that the API accepts. -/
def sampleBet : TicketCreateRequest where
  userId := 5
  stakeAmount := ⟨⟨500, 0⟩, by norm_num [Decimal.toRat], by norm_num [Decimal.toRat],
    50000, by norm_num [Decimal.toRat]⟩
  currency := .rub
  selections := [⟨"match", "1x2", ⟨2, 0⟩, by decide, by decide⟩]
  selections_length := by decide

/-- The frame of ticket 1 has been sent. -/
def Entry.sendsSample : Entry → Bool
  | .sent 2 m .ok => m.type = .ticket ∧ m.ticketId = some 1
  | _ => false

/-- The sample bet has been requested. -/
def Entry.requestsSample : Entry → Bool
  | .requested 0 "k" ⟨5, ⟨500, 0⟩, "RUB",
      [[("event_id", .str "match"), ("market", .str "1x2"), ("odds", .str "2")]]⟩ => true
  | _ => false

/-- Ticket 1 has been created. -/
def Entry.createsSample : Entry → Bool
  | .committed 0 (.insertTicket row :: _) => row.id = 1
  | _ => false

/-- The provider is told about the sample bet. -/
theorem bet_fidelity_sample : ∃ (s : System) (m : Message) (p : TicketPayload), s.Reachable ∧
    .sent 2 m .ok ∈ s.world.log ∧ m.ticketId = some 1 ∧
    TicketPayload.modelValidate m.payload = some p ∧ p.ticketId = 1 ∧ p.Carries sampleBet := by
  obtain ⟨s, hs, hst⟩ := System.exists_reaches (s := System.initial) anyEntry
    (recommendedRun .accept)
    (fun s => s.world.log.any Entry.sendsSample && s.world.log.any Entry.requestsSample &&
      s.world.log.any Entry.createsSample) (by decide +kernel)
  simp only [Bool.and_eq_true, List.any_eq_true] at hst
  obtain ⟨⟨⟨e₁, hsent, h₁⟩, e₂, hrequest, h₂⟩, e₃, hcommitted, h₃⟩ := hst
  unfold Entry.sendsSample at h₁
  split at h₁ <;> try cases h₁
  next m =>
  unfold Entry.requestsSample at h₂
  split at h₂ <;> try cases h₂
  unfold Entry.createsSample at h₃
  split at h₃ <;> try cases h₃
  next row rest =>
  obtain ⟨htype, hticket⟩ := of_decide_eq_true h₁
  obtain ⟨-, hbets⟩ := bet_fidelity hs.run
  obtain ⟨id, event, p, -, -, hentity, hp, hid, hcarries⟩ := hbets 2 m .ok hsent htype
  have hone : (1 : UUID) = event.entityId := Option.some.inj (hticket.symm.trans hentity)
  exact ⟨s, m, p, hs.run, hsent, hticket, hp, hid.trans hone.symm,
    hcarries sampleBet 0 "k" _ row hrequest hcommitted List.mem_cons_self
      ((of_decide_eq_true h₃).trans hone)⟩

end RiskProvider

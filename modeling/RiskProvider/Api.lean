import RiskProvider.Executions

/-!
# Requests of the API

The request schema of `backend/api/v1/schemas/ticket.py`, with its constraints as fields, and
the request that the endpoint hands to the service.
-/

namespace RiskProvider

/-- The number that a decimal stands for. -/
def Decimal.toRat (d : Decimal) : ℚ := d.coefficient * 10 ^ d.exponent

/-- `StakeAmount`: positive, at most 999999999999.99, with two decimal places. -/
structure StakeAmount where
  amount : Decimal
  pos : 0 < amount.toRat
  le : amount.toRat ≤ 99999999999999 / 100
  places : ∃ n : ℤ, amount.toRat = n / 100

/-- `SelectionIn`; the texts have 1 to 128 characters. -/
structure SelectionIn where
  eventId : String
  market : String
  odds : Decimal
  eventId_length : eventId.length ∈ Set.Icc 1 128
  market_length : market.length ∈ Set.Icc 1 128

/-- `TicketCreateRequest`, with 1 to 20 selections. -/
structure TicketCreateRequest where
  userId : UUID
  stakeAmount : StakeAmount
  currency : Currency
  selections : List SelectionIn
  selections_length : selections.length ∈ Set.Icc 1 20

/-- The selection that the provider is told about. -/
def SelectionIn.selection (s : SelectionIn) : Selection where
  eventId := s.eventId
  market := s.market
  odds := s.odds

section General

variable [Codecs]

/-- `SelectionIn.model_dump(mode="json")`. -/
def SelectionIn.modelDump (s : SelectionIn) : Dict :=
  [("event_id", Codec.string.dump s.eventId),
    ("market", Codec.string.dump s.market),
    ("odds", Codecs.decimal.dump s.odds)]

/-- The request that the endpoint `create_ticket` makes to the service. -/
def TicketCreateRequest.toService (r : TicketCreateRequest) : CreateTicketRequest where
  userId := r.userId
  stakeAmount := r.stakeAmount.amount
  currency := r.currency.value
  selections := r.selections.map SelectionIn.modelDump

/-- The service reads the selections back. -/
theorem mapM_modelValidate (selections : List SelectionIn) :
    (selections.map SelectionIn.modelDump).mapM Selection.modelValidate =
      some (selections.map SelectionIn.selection) := by
  induction selections with
  | nil => rfl
  | cons s selections ih =>
      have hs : Selection.modelValidate s.modelDump = some s.selection :=
        Selection.model.validate_dump s.selection
      simp only [List.map_cons, List.mapM_cons, hs, ih]
      rfl

end General

end RiskProvider

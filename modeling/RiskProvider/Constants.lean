import Mathlib

/-!
# Domain constants

The enumerations of `backend/constants.py`, each with the text its members have in Python.
-/

namespace RiskProvider

/-- Universally unique identifiers. Only their equality matters. -/
abbrev UUID := ℕ

/-- Points in time, in seconds since the epoch. -/
abbrev Time := ℕ

/-- Currencies of a stake. -/
inductive Currency where
  | rub
  | usd
  | eur
deriving DecidableEq, Repr

namespace Currency

/-- The text of a currency. -/
def value : Currency → String
  | rub => "RUB"
  | usd => "USD"
  | eur => "EUR"

/-- `Currency(text)`, which raises `ValueError` on any other text. -/
def ofValue? : String → Option Currency
  | "RUB" => some rub
  | "USD" => some usd
  | "EUR" => some eur
  | _ => none

/-- Every currency is read back from its text. -/
@[simp]
theorem ofValue?_value (c : Currency) : ofValue? c.value = some c := by
  cases c <;> rfl

end Currency

/-- Delivery states of an outbox event. -/
inductive OutboxStatus where
  | pending
  | published
  | failed
deriving DecidableEq, Repr

/-- Lifecycle states of a ticket. The successful path is `new`, `sentToProvider`,
`recommendedConfirm` or `recommendedDecline`, `settled`, `confirmed` or `declined`; a ticket
with a problem goes to `cancellationRequested` and then `cancelled`. -/
inductive TicketStatus where
  | new
  | sentToProvider
  | recommendedConfirm
  | recommendedDecline
  | settled
  | confirmed
  | declined
  | cancellationRequested
  | cancelled
  | expired
deriving DecidableEq, Repr

/-- The text of a ticket status. -/
def TicketStatus.value : TicketStatus → String
  | new => "new"
  | sentToProvider => "sent_to_provider"
  | recommendedConfirm => "recommended_confirm"
  | recommendedDecline => "recommended_decline"
  | settled => "settled"
  | confirmed => "confirmed"
  | declined => "declined"
  | cancellationRequested => "cancellation_requested"
  | cancelled => "cancelled"
  | expired => "expired"

/-- `TERMINAL_TICKET_STATUSES`. -/
def terminalTicketStatuses : List TicketStatus :=
  [.confirmed, .declined, .cancelled, .expired]

/-- The status is one of `terminalTicketStatuses`. -/
abbrev TicketStatus.Terminal (s : TicketStatus) : Prop := s ∈ terminalTicketStatuses

/-- Types of the frames exchanged with the provider, requests and answers. -/
inductive ProviderMessageType where
  | ticket
  | recommendation
  | confirmRecommendation
  | declineRecommendation
  | requestCancellation
  | cancellationApplied
  | ack
deriving DecidableEq, Repr

namespace ProviderMessageType

/-- The text of a frame type. -/
def value : ProviderMessageType → String
  | ticket => "TICKET"
  | recommendation => "RECOMMENDATION"
  | confirmRecommendation => "CONFIRM_RECOMMENDATION"
  | declineRecommendation => "DECLINE_RECOMMENDATION"
  | requestCancellation => "REQUEST_CANCELLATION"
  | cancellationApplied => "CANCELLATION_APPLIED"
  | ack => "ACK"

/-- The frame type with a given text. -/
def ofValue? : String → Option ProviderMessageType
  | "TICKET" => some ticket
  | "RECOMMENDATION" => some recommendation
  | "CONFIRM_RECOMMENDATION" => some confirmRecommendation
  | "DECLINE_RECOMMENDATION" => some declineRecommendation
  | "REQUEST_CANCELLATION" => some requestCancellation
  | "CANCELLATION_APPLIED" => some cancellationApplied
  | "ACK" => some ack
  | _ => none

/-- Every frame type is read back from its text. -/
@[simp]
theorem ofValue?_value (t : ProviderMessageType) : ofValue? t.value = some t := by
  cases t <;> rfl

end ProviderMessageType

/-- The provider's recommendation on a ticket. -/
inductive RecommendationAction where
  | accept
  | decline
deriving DecidableEq, Repr

namespace RecommendationAction

/-- The text of a recommendation. -/
def value : RecommendationAction → String
  | accept => "accept"
  | decline => "decline"

/-- The recommendation with a given text. -/
def ofValue? : String → Option RecommendationAction
  | "accept" => some accept
  | "decline" => some decline
  | _ => none

/-- Every recommendation is read back from its text. -/
@[simp]
theorem ofValue?_value (a : RecommendationAction) : ofValue? a.value = some a := by
  cases a <;> rfl

end RecommendationAction

/-- `EVENT_TYPE_TICKET_OUTBOUND`. -/
def eventTypeTicketOutbound : String := "ticket.outbound"

end RiskProvider

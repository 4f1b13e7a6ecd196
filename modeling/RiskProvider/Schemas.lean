import RiskProvider.Json

/-!
# Provider frames

The models of `backend/workers/provider_gateway/schemas.py`: the payloads of the frame types
and the envelope `Message`. Payload models forbid unknown fields, the envelope ignores them.
`Message.modelValidate_modelDump` is the round trip of the envelope.
-/

namespace RiskProvider

/-- Error codes of a rejecting acknowledgement. -/
inductive ProviderErrorCode where
  | ticketExpired
  | providerBusy
  | riskEngineTimeout
  | invalidTicket
deriving DecidableEq, Repr

/-- One selection of a bet. -/
structure Selection where
  eventId : String
  market : String
  odds : Decimal
deriving DecidableEq, Repr

/-- Payload of a `TICKET` frame. -/
structure TicketPayload where
  ticketId : UUID
  userId : UUID
  stakeAmount : Decimal
  currency : String
  selections : List Selection
  placedAt : Time
deriving DecidableEq, Repr

/-- Payload of a `RECOMMENDATION` frame. -/
structure RecommendationPayload where
  ticketId : UUID
  action : RecommendationAction
  reason : Option String
  expiresAt : Time
deriving DecidableEq, Repr

/-- Payload of a `CONFIRM_RECOMMENDATION` frame. -/
structure ConfirmRecommendationPayload where
  ticketId : UUID
deriving DecidableEq, Repr

/-- Payload of a `DECLINE_RECOMMENDATION` frame. -/
structure DeclineRecommendationPayload where
  ticketId : UUID
deriving DecidableEq, Repr

/-- Payload of a `REQUEST_CANCELLATION` frame. -/
structure RequestCancellationPayload where
  ticketId : UUID
  reason : String
deriving DecidableEq, Repr

/-- Payload of a `CANCELLATION_APPLIED` frame. -/
structure CancellationAppliedPayload where
  ticketId : UUID
deriving DecidableEq, Repr

/-- `CreateTicketRequest` -/
structure CreateTicketRequest where
  userId : UUID
  stakeAmount : Decimal
  currency : String
  selections : List Dict

/-- The envelope of a frame. -/
structure Message where
  messageId : UUID
  ticketId : Option UUID
  type : ProviderMessageType
  timestamp : Time
  payload : Dict

/-- The codec of frame types. -/
def ProviderMessageType.codec : Codec ProviderMessageType :=
  .enum value ofValue? ofValue?_value

/-- The codec of recommendations. -/
def RecommendationAction.codec : Codec RecommendationAction :=
  .enum value ofValue? ofValue?_value

variable [Codecs]

namespace Selection

/-- `Selection.model_dump(mode="json")`. -/
def modelDump (s : Selection) : Dict :=
  [("event_id", Codec.string.dump s.eventId),
    ("market", Codec.string.dump s.market),
    ("odds", Codecs.decimal.dump s.odds)]

/-- `Selection(**d)` and `Selection.model_validate(d)`. -/
def modelValidate (d : Dict) : Option Selection :=
  if d.onlyFields ["event_id", "market", "odds"] then do
    let eventId ← Codec.string.field "event_id" d
    let market ← Codec.string.field "market" d
    let odds ← Codecs.decimal.field "odds" d
    return { eventId, market, odds }
  else none

/-- A JSON value read as a selection. -/
def ofJson : Json → Option Selection
  | .obj d => modelValidate d
  | _ => none

end Selection

/-- `TicketPayload.model_dump(mode="json")`. -/
def TicketPayload.modelDump (p : TicketPayload) : Dict :=
  [("ticket_id", Codecs.uuid.dump p.ticketId),
    ("user_id", Codecs.uuid.dump p.userId),
    ("stake_amount", Codecs.decimal.dump p.stakeAmount),
    ("currency", Codec.string.dump p.currency),
    ("selections", .arr (p.selections.map fun s => .obj s.modelDump)),
    ("placed_at", Codecs.datetime.dump p.placedAt)]

namespace RecommendationPayload

/-- `RecommendationPayload.model_dump(mode="json")`. -/
def modelDump (p : RecommendationPayload) : Dict :=
  [("ticket_id", Codecs.uuid.dump p.ticketId),
    ("action", RecommendationAction.codec.dump p.action),
    ("reason", Codec.string.dumpOption p.reason),
    ("expires_at", Codecs.datetime.dump p.expiresAt)]

/-- `RecommendationPayload.model_validate(d)`. -/
def modelValidate (d : Dict) : Option RecommendationPayload :=
  if d.onlyFields ["ticket_id", "action", "reason", "expires_at"] then do
    let ticketId ← Codecs.uuid.field "ticket_id" d
    let action ← RecommendationAction.codec.field "action" d
    let reason ← Codec.string.optionalField "reason" d
    let expiresAt ← Codecs.datetime.field "expires_at" d
    return { ticketId, action, reason, expiresAt }
  else none

end RecommendationPayload

/-- `ConfirmRecommendationPayload.model_dump(mode="json")`. -/
def ConfirmRecommendationPayload.modelDump (p : ConfirmRecommendationPayload) : Dict :=
  [("ticket_id", Codecs.uuid.dump p.ticketId)]

/-- `DeclineRecommendationPayload.model_dump(mode="json")`. -/
def DeclineRecommendationPayload.modelDump (p : DeclineRecommendationPayload) : Dict :=
  [("ticket_id", Codecs.uuid.dump p.ticketId)]

/-- `RequestCancellationPayload.model_dump(mode="json")`. -/
def RequestCancellationPayload.modelDump (p : RequestCancellationPayload) : Dict :=
  [("ticket_id", Codecs.uuid.dump p.ticketId),
    ("reason", Codec.string.dump p.reason)]

namespace CancellationAppliedPayload

/-- `CancellationAppliedPayload.model_dump(mode="json")`. -/
def modelDump (p : CancellationAppliedPayload) : Dict :=
  [("ticket_id", Codecs.uuid.dump p.ticketId)]

/-- `CancellationAppliedPayload.model_validate(d)`. -/
def modelValidate (d : Dict) : Option CancellationAppliedPayload :=
  if d.onlyFields ["ticket_id"] then do
    let ticketId ← Codecs.uuid.field "ticket_id" d
    return { ticketId }
  else none

end CancellationAppliedPayload

namespace Message

/-- The codec of the `payload` field: any JSON object. -/
def payloadCodec : Codec Dict where
  dump := .obj
  validate
    | .obj d => some d
    | _ => none
  validate_dump _ := rfl
  dump_ne_null _ := by simp

/-- `Message.model_dump(mode="json")`. -/
def modelDump (m : Message) : Dict :=
  [("message_id", Codecs.uuid.dump m.messageId),
    ("ticket_id", Codecs.uuid.dumpOption m.ticketId),
    ("type", ProviderMessageType.codec.dump m.type),
    ("timestamp", Codecs.datetime.dump m.timestamp),
    ("payload", payloadCodec.dump m.payload)]

/-- `Message.model_validate(d)`, where `messageId` and `timestamp` are what the default
factories give for missing fields. -/
def modelValidate (messageId : UUID) (timestamp : Time) (d : Dict) : Option Message := do
  let messageId ← Codecs.uuid.fieldWithDefault "message_id" messageId d
  let ticketId ← Codecs.uuid.optionalField "ticket_id" d
  let type ← ProviderMessageType.codec.field "type" d
  let timestamp ← Codecs.datetime.fieldWithDefault "timestamp" timestamp d
  let payload ← payloadCodec.field "payload" d
  return { messageId, ticketId, type, timestamp, payload }

/-- What is decoded differs between default factories at most in the identifier and the time. -/
theorem modelValidate_defaults {messageId : UUID} {timestamp : Time} {d : Dict} {m : Message}
    (messageId' : UUID) (timestamp' : Time) (h : modelValidate messageId timestamp d = some m) :
    ∃ m', modelValidate messageId' timestamp' d = some m' ∧ m'.ticketId = m.ticketId ∧
      m'.type = m.type ∧ m'.payload = m.payload := by
  have hdefault : ∀ {α : Type} {c : Codec α} {name : String} {a v : α} (b : α),
      c.fieldWithDefault name a d = some v → ∃ v', c.fieldWithDefault name b d = some v' := by
    intro α c name a v b hv
    unfold Codec.fieldWithDefault at hv ⊢
    cases hfield : d.lookup name with
    | none => exact ⟨b, rfl⟩
    | some j => exact ⟨v, by simpa [hfield] using hv⟩
  simp only [modelValidate, Option.bind_eq_bind, Option.bind_eq_some_iff, Option.pure_def,
    Option.some.injEq] at h
  obtain ⟨u, hu, ticketId, hticketId, type, htype, t, ht, payload, hpayload, rfl⟩ := h
  obtain ⟨u', hu'⟩ := hdefault messageId' hu
  obtain ⟨t', ht'⟩ := hdefault timestamp' ht
  refine ⟨⟨u', ticketId, type, t', payload⟩, ?_, rfl, rfl, rfl⟩
  simp [modelValidate, hu', hticketId, htype, ht', hpayload]

/-- A dumped frame decodes to itself; the default factories are not consulted. -/
@[simp]
theorem modelValidate_modelDump (messageId : UUID) (timestamp : Time) (m : Message) :
    modelValidate messageId timestamp m.modelDump = some m := by
  simp [modelValidate, modelDump, Codec.fieldWithDefault, Codec.optionalField, Codec.field,
    List.lookup]

theorem modelDump_injective : Function.Injective modelDump := by
  intro m m' h
  have hm := modelValidate_modelDump 0 0 m
  rw [h, modelValidate_modelDump] at hm
  exact (Option.some.inj hm).symm

end Message

end RiskProvider

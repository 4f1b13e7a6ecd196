import RiskProvider.Schemas

/-!
# Payload models

`_PAYLOAD_BY_TYPE` and `Message.build`: the payload model of each frame type, and the frame that
is built of a payload. A `Model` carries its own round trip, as a `Codec` does for a field.
-/

namespace RiskProvider

/-- A pydantic model: how its values are written to JSON objects and validated from them. -/
structure Model (α : Type) where
  /-- `model_dump(mode="json")`. -/
  dump : α → Dict
  /-- `model_validate`. -/
  validate : Dict → Option α
  /-- What is dumped is validated to the same value. -/
  validate_dump : ∀ a, validate (dump a) = some a

attribute [simp] Model.validate_dump

namespace Codec

variable {α : Type}

/-- A nested model. -/
def model (m : Model α) : Codec α where
  dump a := .obj (m.dump a)
  validate
    | .obj d => m.validate d
    | _ => none
  validate_dump := m.validate_dump
  dump_ne_null _ := by simp

/-- A list. -/
def list (c : Codec α) : Codec (List α) where
  dump items := .arr (items.map c.dump)
  validate
    | .arr items => items.mapM c.validate
    | _ => none
  validate_dump items := by
    induction items with
    | nil => rfl
    | cons a items ih =>
        have hitems : (items.map c.dump).mapM c.validate = some items := ih
        simp only [List.map_cons, List.mapM_cons, validate_dump, hitems]
        rfl
  dump_ne_null _ := by simp

end Codec

/-! ### Payload models -/

/-- The text of an error code. -/
def ProviderErrorCode.value : ProviderErrorCode → String
  | ticketExpired => "ticket_expired"
  | providerBusy => "provider_busy"
  | riskEngineTimeout => "risk_engine_timeout"
  | invalidTicket => "invalid_ticket"

/-- The error code with a given text. -/
def ProviderErrorCode.ofValue? : String → Option ProviderErrorCode
  | "ticket_expired" => some ticketExpired
  | "provider_busy" => some providerBusy
  | "risk_engine_timeout" => some riskEngineTimeout
  | "invalid_ticket" => some invalidTicket
  | _ => none

/-- The codec of error codes. -/
def ProviderErrorCode.codec : Codec ProviderErrorCode :=
  .enum value ofValue? fun code => by cases code <;> rfl

/-- `Literal["ok", "error"]`. -/
inductive AckStatus where
  | ok
  | error
deriving DecidableEq, Repr

/-- The codec of acknowledgement statuses. -/
def AckStatus.codec : Codec AckStatus :=
  .enum (fun
      | ok => "ok"
      | error => "error")
    (fun
      | "ok" => some ok
      | "error" => some error
      | _ => none)
    fun status => by cases status <;> rfl

/-- Payload of an `ACK` frame. -/
structure AckPayload where
  ackOf : UUID
  status : AckStatus
  errorCode : Option ProviderErrorCode
  errorDetail : Option String
deriving DecidableEq, Repr

variable [Codecs]

/-- The model of one selection. -/
def Selection.model : Model Selection where
  dump := modelDump
  validate := modelValidate
  validate_dump s := by
    simp [modelValidate, modelDump, Dict.onlyFields, Codec.field, List.lookup]

/-- `TicketPayload.model_validate(d)`. -/
def TicketPayload.modelValidate (d : Dict) : Option TicketPayload :=
  if d.onlyFields ["ticket_id", "user_id", "stake_amount", "currency", "selections", "placed_at"]
  then do
    let ticketId ← Codecs.uuid.field "ticket_id" d
    let userId ← Codecs.uuid.field "user_id" d
    let stakeAmount ← Codecs.decimal.field "stake_amount" d
    let currency ← Codec.string.field "currency" d
    let selections ← (Codec.list (.model Selection.model)).field "selections" d
    let placedAt ← Codecs.datetime.field "placed_at" d
    return { ticketId, userId, stakeAmount, currency, selections, placedAt }
  else none

/-- The model `TicketPayload`. -/
def TicketPayload.model : Model TicketPayload where
  dump := modelDump
  validate := modelValidate
  validate_dump p := by
    have hdump : Json.arr (p.selections.map fun s => .obj s.modelDump) =
        (Codec.list (.model Selection.model)).dump p.selections := rfl
    simp [modelValidate, modelDump, Dict.onlyFields, Codec.field, List.lookup, hdump]

/-- The model `RecommendationPayload`. -/
def RecommendationPayload.model : Model RecommendationPayload where
  dump := modelDump
  validate := modelValidate
  validate_dump p := by
    simp [modelValidate, modelDump, Dict.onlyFields, Codec.field, Codec.optionalField,
      List.lookup]

/-- A model whose only field is `ticket_id`. -/
def Model.ofTicketId {α : Type} (mk : UUID → α) (ticketId : α → UUID)
    (h : ∀ a, mk (ticketId a) = a) : Model α where
  dump a := [("ticket_id", Codecs.uuid.dump (ticketId a))]
  validate d :=
    if d.onlyFields ["ticket_id"] then (Codecs.uuid.field "ticket_id" d).map mk else none
  validate_dump a := by
    simp [Dict.onlyFields, Codec.field, List.lookup, h]

/-- The model `ConfirmRecommendationPayload`. -/
def ConfirmRecommendationPayload.model : Model ConfirmRecommendationPayload :=
  .ofTicketId mk ticketId fun _ => rfl

/-- The model `DeclineRecommendationPayload`. -/
def DeclineRecommendationPayload.model : Model DeclineRecommendationPayload :=
  .ofTicketId mk ticketId fun _ => rfl

/-- The model `CancellationAppliedPayload`. -/
def CancellationAppliedPayload.model : Model CancellationAppliedPayload where
  dump := modelDump
  validate := modelValidate
  validate_dump p := by
    simp [modelValidate, modelDump, Dict.onlyFields, Codec.field]

/-- The model `RequestCancellationPayload`. -/
def RequestCancellationPayload.model : Model RequestCancellationPayload where
  dump := modelDump
  validate d :=
    if d.onlyFields ["ticket_id", "reason"] then do
      let ticketId ← Codecs.uuid.field "ticket_id" d
      let reason ← Codec.string.field "reason" d
      return { ticketId, reason }
    else none
  validate_dump p := by
    simp [modelDump, Dict.onlyFields, Codec.field, List.lookup]

/-- The model `AckPayload`. -/
def AckPayload.model : Model AckPayload where
  dump p :=
    [("ack_of", Codecs.uuid.dump p.ackOf),
      ("status", AckStatus.codec.dump p.status),
      ("error_code", ProviderErrorCode.codec.dumpOption p.errorCode),
      ("error_detail", Codec.string.dumpOption p.errorDetail)]
  validate d :=
    if d.onlyFields ["ack_of", "status", "error_code", "error_detail"] then do
      let ackOf ← Codecs.uuid.field "ack_of" d
      let status ← AckStatus.codec.field "status" d
      let errorCode ← ProviderErrorCode.codec.optionalField "error_code" d
      let errorDetail ← Codec.string.optionalField "error_detail" d
      return { ackOf, status, errorCode, errorDetail }
    else none
  validate_dump p := by
    simp [Dict.onlyFields, Codec.field, Codec.optionalField, List.lookup]

/-- The payload models by frame type. -/
@[reducible]
def ProviderMessageType.Payload : ProviderMessageType → Type
  | ticket => TicketPayload
  | recommendation => RecommendationPayload
  | confirmRecommendation => ConfirmRecommendationPayload
  | declineRecommendation => DeclineRecommendationPayload
  | requestCancellation => RequestCancellationPayload
  | cancellationApplied => CancellationAppliedPayload
  | ack => AckPayload

/-- `_PAYLOAD_BY_TYPE`. -/
def payloadByType : (type : ProviderMessageType) → Model type.Payload
  | .ticket => TicketPayload.model
  | .recommendation => RecommendationPayload.model
  | .confirmRecommendation => ConfirmRecommendationPayload.model
  | .declineRecommendation => DeclineRecommendationPayload.model
  | .requestCancellation => RequestCancellationPayload.model
  | .cancellationApplied => CancellationAppliedPayload.model
  | .ack => AckPayload.model

/-! ### Frames -/

/-- `Message.build(payload, type, message_id, ticket_id)`, where `uuid` and `now` are what
`uuid4()` and the default factory of `timestamp` give. -/
def Message.build (type : ProviderMessageType) (payload : type.Payload)
    (messageId ticketId : Option UUID) (uuid : UUID) (now : Time) : Message where
  messageId := messageId.getD uuid
  ticketId := ticketId
  type := type
  timestamp := now
  payload := (payloadByType type).dump payload

end RiskProvider

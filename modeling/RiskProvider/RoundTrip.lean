import RiskProvider.Executions

/-!
# Round trips of frames

The two encodings of a frame: its payload model is dumped to a JSON object, which is a field of
the envelope, which is dumped to JSON again. `frame_round_trip` puts the round trips of the
payload models and of the envelope together, for all frame types and in both directions.
-/

namespace RiskProvider

/-- A frame that `Message.build` makes of a payload decodes to itself, and its payload to the
payload; and a JSON object that is accepted, with a payload that its type's model accepts,
decodes after re-encoding to the same frame and payload, whether the frame is dumped as it is
or built anew from its payload. -/
theorem frame_round_trip [Codecs] :
    (∀ (type : ProviderMessageType) (payload : type.Payload) (messageId ticketId : Option UUID)
      (uuid uuid' : UUID) (now now' : Time),
      let m := Message.build type payload messageId ticketId uuid now
      Message.modelValidate uuid' now' m.modelDump = some m ∧
        (payloadByType type).validate m.payload = some payload) ∧
    ∀ (d : Dict) (uuid uuid' : UUID) (now now' : Time) (m : Message) (payload : m.type.Payload),
      Message.modelValidate uuid now d = some m →
      (payloadByType m.type).validate m.payload = some payload →
      Message.modelValidate uuid' now' m.modelDump = some m ∧
        let m' := Message.build m.type payload (some m.messageId) m.ticketId uuid' m.timestamp
        m'.messageId = m.messageId ∧ m'.ticketId = m.ticketId ∧ m'.type = m.type ∧
          m'.timestamp = m.timestamp ∧ Message.modelValidate uuid' now' m'.modelDump = some m' ∧
          (payloadByType m.type).validate m'.payload = some payload := by
  refine ⟨fun type payload messageId ticketId uuid uuid' now now' => ?_,
    fun d uuid uuid' now now' m payload _ _ => ?_⟩
  · exact ⟨Message.modelValidate_modelDump _ _ _, Model.validate_dump _ payload⟩
  · exact ⟨Message.modelValidate_modelDump _ _ m, rfl, rfl, rfl, rfl,
      Message.modelValidate_modelDump _ _ _, Model.validate_dump _ payload⟩

/-- A recommendation without message id, timestamp and reason, and with a field of the envelope
that is ignored. -/
def sampleFrame : Dict :=
  [("type", .str "RECOMMENDATION"), ("version", .null),
    ("payload", .obj
      [("ticket_id", .str "00000000-0000-0000-0000-000000000001"), ("action", .str "accept"),
        ("expires_at", .str "1970-01-01T00:00:05Z")])]

/-- The frame as first decoded. -/
def sampleMessage : Message where
  messageId := 7
  ticketId := none
  type := .recommendation
  timestamp := 9
  payload :=
    [("ticket_id", .str "00000000-0000-0000-0000-000000000001"), ("action", .str "accept"),
      ("expires_at", .str "1970-01-01T00:00:05Z")]

/-- The frame gets the defaults of its first decoding, and keeps them. -/
theorem frame_round_trip_defaults : Message.modelValidate 7 9 sampleFrame = some sampleMessage ∧
    Message.modelValidate 8 10 sampleMessage.modelDump = some sampleMessage := by
  have hdecodes : Message.modelValidate 7 9 sampleFrame = some sampleMessage := rfl
  have hpayload : RecommendationPayload.modelValidate sampleMessage.payload =
      some ⟨1, .accept, none, 5⟩ := by decide +kernel
  exact ⟨hdecodes, (frame_round_trip.2 sampleFrame 7 8 9 10 sampleMessage _ hdecodes hpayload).1⟩

end RiskProvider

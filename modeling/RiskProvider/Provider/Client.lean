import RiskProvider.Executions

/-!
# The mock provider

`MockProviderClient` of `backend/workers/provider_gateway/client.py`, the provider with which the
gateway runs. It answers an accepted frame later, from a background task: a `TICKET` with a
recommendation, a `REQUEST_CANCELLATION` with a `CANCELLATION_APPLIED`. The delays are left out; what
is random is a parameter.

* `MockProviderClient.send`, `scheduleResponse`, `anext`, `start`, `stop`.
* `Response.frame`: the frame that a background task delivers.
-/

namespace RiskProvider

/-- The settings of the mock provider. -/
structure ProviderSettings where
  transportErrorRate : ℚ := 1 / 20
  ackErrorRate : ℚ := 1 / 20
  acceptProbability : ℚ := 7 / 10
  ticketRecommendationTimeoutSec : ℕ := 30

/-- A background task of the mock provider. -/
inductive Response where
  /-- `_push_recommendation(ticket_id)` -/
  | pushRecommendation (ticketId : UUID)
  /-- `_push_cancellation_applied(ticket_id)` -/
  | pushCancellationApplied (ticketId : UUID)
deriving DecidableEq, Repr

namespace Response

/-- The ticket that a task answers for. -/
def ticketId : Response → UUID
  | pushRecommendation t | pushCancellationApplied t => t

/-- The type of the frames that a task answers. -/
def request : Response → ProviderMessageType
  | pushRecommendation _ => .ticket
  | pushCancellationApplied _ => .requestCancellation

/-- The type of the frame with which a task answers. -/
def type : Response → ProviderMessageType
  | pushRecommendation _ => .recommendation
  | pushCancellationApplied _ => .cancellationApplied

/-- The payload with which a task answers, and its `datetime.now()`. -/
def payload [Codecs] (settings : ProviderSettings) (roll : ℚ) (now : Time) : Response → Dict
  | pushRecommendation t =>
      (RecommendationPayload.mk t
        (if roll < settings.acceptProbability then .accept else .decline)
        (some "mock risk engine decision")
        (now + settings.ticketRecommendationTimeoutSec)).modelDump
  | pushCancellationApplied t => (CancellationAppliedPayload.mk t).modelDump

/-- The frame that a task builds. -/
def frame [Codecs] (settings : ProviderSettings) (roll : ℚ) (messageId : UUID) (now : Time)
    (r : Response) : Message where
  messageId := messageId
  ticketId := some r.ticketId
  type := r.type
  timestamp := now
  payload := r.payload settings roll now

end Response

/-- `MockProviderClient`. -/
structure MockProviderClient where
  /-- `_inbound`, with `none` for `_CLOSED`. -/
  inbound : List (Option Message) := []
  /-- `_background_tasks` -/
  backgroundTasks : List Response := []
  /-- `_connected` -/
  connected : Bool := false

namespace MockProviderClient

variable (p : MockProviderClient)

/-- `start` -/
def start : MockProviderClient := { p with connected := true }

/-- `stop`: the background tasks are cancelled, and the iteration over inbound frames will end. -/
def stop : MockProviderClient where
  inbound := p.inbound ++ [none]
  backgroundTasks := []
  connected := false

/-- `__anext__`: nothing while the queue is empty, and `StopAsyncIteration` as `none`. -/
def anext : Option (Option Message × MockProviderClient) :=
  match p.inbound with
  | [] => none
  | item :: rest => some (item, { p with inbound := rest })

/-- The answer to a frame, if it has one. -/
def response? (message : Message) : Option Response :=
  match message.ticketId with
  | none => none
  | some ticketId =>
      if message.type = .ticket then some (.pushRecommendation ticketId)
      else if message.type = .requestCancellation then some (.pushCancellationApplied ticketId)
      else none

/-- `_schedule_response` -/
def scheduleResponse (message : Message) : MockProviderClient :=
  { p with backgroundTasks := p.backgroundTasks ++ (response? message).toList }

/-- `send`, when `random.random()` returns `roll` and `random.choice` returns `code`. -/
def send (settings : ProviderSettings) (roll : ℚ) (code : ProviderErrorCode) (message : Message) :
    Except Exn AckPayload × MockProviderClient :=
  if roll < settings.transportErrorRate then
    (.error (.connectionError "mock provider: simulated transport failure"), p)
  else if roll < settings.transportErrorRate + settings.ackErrorRate then
    (.error (.providerAckError code), p)
  else
    (.ok { ackOf := message.messageId, status := .ok, errorCode := none, errorDetail := none },
      p.scheduleResponse message)

/-- `_deliver_message_from_provider` -/
def deliverMessageFromProvider (message : Message) : MockProviderClient :=
  { p with inbound := p.inbound ++ [some message] }

/-- The `n`-th background task builds its frame, delivers it and is done. -/
def respond [Codecs] (settings : ProviderSettings) (n : ℕ) (roll : ℚ) (messageId : UUID)
    (now : Time) : Option MockProviderClient :=
  match p.backgroundTasks[n]? with
  | none => none
  | some r => some
      (deliverMessageFromProvider { p with backgroundTasks := p.backgroundTasks.eraseIdx n }
        (r.frame settings roll messageId now))

/-- The frames that wait for the receive loop. -/
def frames : List Message := p.inbound.reduceOption

@[simp]
theorem frames_start : p.start.frames = p.frames := rfl

@[simp]
theorem frames_stop : p.stop.frames = p.frames := by
  simp [frames, stop, List.reduceOption_append]

/-- What the receive loop takes comes first. -/
theorem frames_of_anext {item : Option Message} {p' : MockProviderClient}
    (h : p.anext = some (item, p')) :
    p.frames = item.toList ++ p'.frames ∧ p'.backgroundTasks = p.backgroundTasks := by
  unfold anext at h
  split at h
  · cases h
  next hinbound =>
    cases h
    refine ⟨?_, rfl⟩
    rw [frames, hinbound]
    cases item <;> rfl

/-- A task that responds delivers its frame last. -/
theorem frames_of_respond [Codecs] {settings : ProviderSettings} {n : ℕ} {roll : ℚ}
    {messageId : UUID} {now : Time} {p' : MockProviderClient}
    (h : p.respond settings n roll messageId now = some p') :
    ∃ r, p.backgroundTasks[n]? = some r ∧ p'.backgroundTasks = p.backgroundTasks.eraseIdx n ∧
      p'.frames = p.frames ++ [r.frame settings roll messageId now] := by
  unfold respond at h
  split at h
  · cases h
  next r hr =>
    cases h
    refine ⟨r, hr, rfl, ?_⟩
    simp [frames, deliverMessageFromProvider, List.reduceOption_append]

/-- An answer is to a frame of the type that it answers. -/
theorem response?_eq {message : Message} {r : Response} (h : response? message = some r) :
    message.type = r.request ∧ message.ticketId = some r.ticketId := by
  unfold response? at h
  split at h
  · cases h
  next ticketId hticket =>
    split at h
    next htype =>
      cases h
      exact ⟨htype, hticket⟩
    · split at h
      next htype =>
        cases h
        exact ⟨htype, hticket⟩
      · cases h

/-- Only a frame that is accepted is answered. -/
theorem send_cases (settings : ProviderSettings) (roll : ℚ) (code : ProviderErrorCode)
    (message : Message) :
    (∃ x, p.send settings roll code message = (.error x, p)) ∨
      ∃ ack, p.send settings roll code message = (.ok ack, p.scheduleResponse message) := by
  unfold send
  split
  · exact .inl ⟨_, rfl⟩
  · split
    · exact .inl ⟨_, rfl⟩
    · exact .inr ⟨_, rfl⟩

end MockProviderClient

end RiskProvider

import RiskProvider.Conformance

/-!
# Executing the system

Everything in the model computes, so the system can be run. `textCodecs` writes identifiers and
points in time as pydantic does, for those whose digits fit; `System.exists_reaches` turns an
execution into a run; and the scripts below list what the environment chooses in complete or
partial invocations of each handler.
-/

namespace RiskProvider

open Interleaving

/-! ### Textual codecs -/

/-- The decimal digits of `n`, padded to a width. -/
def digits (width n : ℕ) : List Char :=
  List.replicate (width - (Nat.toDigits 10 n).length) '0' ++ Nat.toDigits 10 n

/-- The number that digits denote. -/
def ofDigits (cs : List Char) : ℕ := Nat.ofDigitChars 10 cs 0

@[simp]
theorem ofDigits_digits (width n : ℕ) : ofDigits (digits width n) = n := by
  simp [ofDigits, digits, Nat.ofDigitChars_append, Nat.ofDigitChars_replicate_zero,
    Nat.ofDigitChars_toDigits]

/-- The number that a text between two fixed ones denotes. -/
def readDigits (before after : String) (width : ℕ) : Json → Option ℕ
  | .str s =>
      let n := ofDigits ((s.toList.drop before.length).take
        (s.length - before.length - after.length))
      if before ++ String.ofList (digits width n) ++ after = s then some n
      else none
  | _ => none

/-- Numbers as texts between two fixed ones. -/
def Codec.digits (before after : String) (width : ℕ) : Codec ℕ where
  dump n := .str (before ++ String.ofList (RiskProvider.digits width n) ++ after)
  validate := readDigits before after width
  validate_dump n := by
    have hlength : before.length + (RiskProvider.digits width n).length + after.length -
        before.length - after.length = (RiskProvider.digits width n).length := by omega
    have hdrop : (before.toList ++ (RiskProvider.digits width n ++ after.toList)).drop
        before.length = RiskProvider.digits width n ++ after.toList := by
      rw [← String.length_toList, List.drop_left]
    simp [readDigits, hlength, hdrop]
  dump_ne_null _ := by simp

/-- Decimal numbers: natural numbers as texts, the others as JSON numbers. -/
def Decimal.codec : Codec Decimal where
  dump d :=
    if 0 ≤ d.coefficient ∧ d.exponent = 0 then .str (String.ofList (digits 1 d.coefficient.toNat))
    else .num d
  validate
    | .num d => some d
    | .str s =>
        let n := ofDigits s.toList
        if String.ofList (digits 1 n) = s then some ⟨n, 0⟩ else none
    | _ => none
  validate_dump d := by
    obtain ⟨coefficient, exponent⟩ := d
    by_cases h : 0 ≤ coefficient ∧ exponent = 0
    · simp [h.1, h.2]
    · simp [h]
  dump_ne_null d := by split <;> simp

/-- Scalar codecs that write texts. -/
instance textCodecs : Codecs where
  uuid := Codec.digits "00000000-0000-0000-0000-" "" 12
  datetime := Codec.digits "1970-01-01T00:00:" "Z" 2
  decimal := Decimal.codec

/-! ### Executions -/

/-- A condition on commits alone is decided on them. -/
@[reducible]
def Entry.decidableOfCommitted {C : Entry → Prop}
    (hcommitted : ∀ i ws, Decidable (C (.committed i ws)))
    (hother : ∀ e, (∀ i ws, e ≠ .committed i ws) → C e) (e : Entry) : Decidable (C e) :=
  match e with
  | .committed i ws => hcommitted i ws
  | .received _ _ _ _ | .acked _ | .returned _ | .processed _ _ _ _ | .published _ _ _ _ _
  | .sent _ _ _ | .ackSent _ _ _ | .requested _ _ _ | .looked _ _ _ | .fetched _ _ _ _
  | .found _ _ _ | .responded _ _ | .loaded _ _ | .counted _ _ _ => isTrue (hother _ (by simp))

/-- A step's only new entry, if there is one, satisfies `C`. -/
def System.checks (C : History → Entry → Prop) [∀ l e, Decidable (C l e)] (s s' : System) : Bool :=
  match s'.world.log with
  | [] => true
  | e :: l => l.length ≠ s.world.log.length ∨ C s.world.log e

theorem System.meets_of_checks {C : History → Entry → Prop} [∀ l e, Decidable (C l e)]
    {s s' : System} (h : System.checks C s s' = true) : System.Meets C s s' := by
  intro e he
  unfold checks at h
  rw [he] at h
  simpa using h

/-- An execution whose last state passes a test is a run. -/
theorem System.exists_reaches (C : History → Entry → Prop) [∀ l e, Decidable (C l e)]
    {s : System} (ls : List (Label Choice Invocation ℕ)) (test : System → Bool)
    (h : (machine.execute (System.checks C) s ls).any test = true) :
    ∃ s', machine.Reaches (System.Meets C) s s' ∧ test s' = true := by
  obtain ⟨s', hs', htest⟩ := (Option.any_eq_true _ _).mp h
  exact ⟨s', Machine.reaches_of_execute (fun _ _ => System.meets_of_checks) hs', htest⟩

/-- Two executions one after the other, from the initial state. -/
theorem System.exists_reaches_twice (C : History → Entry → Prop) [∀ l e, Decidable (C l e)]
    (ls ls' : List (Label Choice Invocation ℕ)) (test test' : System → Bool)
    (h : ((machine.execute (System.checks C) System.initial ls).any fun s =>
      test s && (machine.execute (System.checks C) s ls').any test') = true) :
    ∃ s s', machine.Reaches (System.Meets C) System.initial s ∧ test s = true ∧
      machine.Reaches (System.Meets C) s s' ∧ test' s' = true := by
  obtain ⟨s, hs, htest⟩ := System.exists_reaches C ls _ h
  obtain ⟨hs₁, hs₂⟩ := (Bool.and_eq_true _ _).mp htest
  obtain ⟨s', hs', htest'⟩ := System.exists_reaches C ls' test' hs₂
  exact ⟨s, s', hs, hs₁, hs', htest'⟩

/-- The condition that every entry satisfies. -/
abbrev anyEntry (_ : History) (_ : Entry) : Prop := True

/-! ### Scripts

What the environment chooses in the course of an invocation. Every effect is one choice. -/

/-- Thread `i` performs its next effects under the given choices. -/
def runs (i : ℕ) (cs : List Choice) : List (Label Choice Invocation ℕ) := cs.map (.run i)

namespace Script

open Choice

/-- `n` effects that succeed. -/
def ok (n : ℕ) : List Choice := List.replicate n succeed

/-- `create_ticket`: the ticket, its frame and its event get the given identifiers. -/
def create (ticketId messageId eventId : UUID) : List Choice :=
  ok 2 ++ [uuid ticketId] ++ ok 3 ++ [uuid messageId, succeed, uuid eventId] ++ ok 6

/-- `send_batch` on the given events, all of them published. -/
def relay (events : List UUID) : List Choice := rows events :: ok (events.length + 5)

/-- A subscriber receives the `n`-th message of its queue and validates it. -/
def deliver (n : ℕ) : List Choice := [message n, uuid 0, succeed]

/-- `_send_to_provider` on a `TICKET` frame that is accepted. -/
def sendTicket (n : ℕ) : List Choice := deliver n ++ ok 8

/-- `_send_to_provider` on an acknowledging frame that is accepted. -/
def sendDecision (n : ℕ) : List Choice := deliver n ++ ok 9

/-- `_handle` on a recommendation, up to its first commit; the status changes. -/
def recommend (n : ℕ) : List Choice := deliver n ++ ok 9

/-- The second transaction of `apply_recommendation`, to the end of the handler. -/
def settle (messageId eventId : UUID) : List Choice :=
  ok 6 ++ [uuid messageId, succeed, uuid eventId] ++ ok 6

/-- `_handle` on a cancellation that has been applied. -/
def applyCancellation (n : ℕ) : List Choice := deliver n ++ ok 11

/-- `request_cancellation` after its cancel call; the status changes. -/
def requestCancellation (messageId eventId : UUID) : List Choice :=
  ok 5 ++ [uuid messageId, succeed, uuid eventId] ++ ok 4

end Script

/-- A request that the API accepts. -/
def sampleRequest : CreateTicketRequest where
  userId := 5
  stakeAmount := ⟨500, 0⟩
  currency := "RUB"
  selections := [[("event_id", .str "match"), ("market", .str "1x2"), ("odds", .str "2")]]

/-- A recommendation of the provider. -/
def recommendation (messageId ticketId : UUID) (action : RecommendationAction) : Message where
  messageId := messageId
  ticketId := some ticketId
  type := .recommendation
  timestamp := 1
  payload := (RecommendationPayload.mk ticketId action none 5).modelDump

/-- The provider's answer to a request for cancellation. -/
def cancellationApplied (messageId ticketId : UUID) : Message where
  messageId := messageId
  ticketId := some ticketId
  type := .cancellationApplied
  timestamp := 1
  payload := (CancellationAppliedPayload.mk ticketId).modelDump

open Script in
/-- Ticket 1 is created, sent to the provider, recommended with frame 10, and its settle call
is about to be made by thread 4. -/
def recommendedRun (action : RecommendationAction) : List (Label Choice Invocation ℕ) :=
  [.start (.createTicket "k" sampleRequest)] ++ runs 0 (create 1 2 3) ++
  [.start (.sendBatch 10)] ++ runs 1 (relay [3]) ++
  [.start .sendToProvider] ++ runs 2 (sendTicket 0) ++
  [.start (.recieveFromProvider [recommendation 10 1 action])] ++ runs 3 (ok 2) ++
  [.start .handle] ++ runs 4 (recommend 0)

open Script in
/-- Thread 4 settles ticket 1 with the acknowledging frame 11 in event 12. -/
def settledRun (action : RecommendationAction) : List (Label Choice Invocation ℕ) :=
  recommendedRun action ++ runs 4 (ok 1 ++ settle 11 12)

open Script in
/-- The provider accepts the acknowledging frame of ticket 1. -/
def confirmedRun (action : RecommendationAction) : List (Label Choice Invocation ℕ) :=
  settledRun action ++ [.start (.sendBatch 10)] ++ runs 5 (relay [12]) ++
  [.start .sendToProvider] ++ runs 6 (sendDecision 0)

end RiskProvider

import RiskProvider.Protocol

/-!
# The standing of a ticket

An abstract model of a ticket's life: what is recorded of it, without points in time, and the
operations on it one after the other. `NEW` and `SENT_TO_PROVIDER` differ for one operation only, the
acceptance of the `TICKET` frame, and this one commutes with every operation
(`Standing.step_acknowledge`). So it does not matter when, or how often, it is carried out
(`Standing.run_eq`).

* `Standing`: the status, the recommendation, which points in time are set, and the frames.
* `Operation`, `Standing.step`, `Standing.run`.
-/

namespace RiskProvider

/-- What is recorded of a ticket. -/
@[ext]
structure Standing where
  status : TicketStatus
  recommendation : Option RecommendationAction
  reason : Option String
  /-- `provider_recommendation_at` is set. -/
  recommended : Bool
  /-- `settled_at` is set. -/
  settled : Bool
  /-- `confirmed_at` is set. -/
  confirmed : Bool
  /-- `cancelled_at` is set. -/
  cancelled : Bool
  /-- The types of the ticket's outbound frames, latest first. -/
  frames : List ProviderMessageType
deriving DecidableEq, Repr

/-- An operation on a ticket. -/
inductive Operation where
  /-- A recommendation is applied, and the settle call succeeds (`settles`) or fails. -/
  | applyRecommendation (action : RecommendationAction) (reason : Option String) (expiresAt : Time)
      (settles : Bool)
  /-- Its cancellation is requested. -/
  | requestCancellation (reason : String)
  /-- Its cancellation has been applied. -/
  | markCancellationApplied
  /-- The provider has accepted one of its frames. -/
  | acknowledge (message : Message)

/-- The provider has accepted the `TICKET` frame. -/
def Operation.opens : Operation → Bool
  | acknowledge message => message.type = .ticket
  | _ => false

namespace Standing

variable (s : Standing)

/-- A recommendation is recorded. -/
def recommend (action : RecommendationAction) (reason : Option String) : Standing :=
  { s with
    status := action.status
    recommendation := some action
    reason := reason
    recommended := true }

/-- The ticket is settled, and the provider told. -/
def settle (action : RecommendationAction) : Standing :=
  { s with status := .settled, settled := true, frames := action.ackType :: s.frames }

/-- The provider is asked to cancel the ticket. -/
def requestCancellation : Standing :=
  { s with
    status := .cancellationRequested
    cancelled := true
    frames := .requestCancellation :: s.frames }

/-- The provider has cancelled the ticket. -/
def cancel : Standing := { s with status := .cancelled, cancelled := true }

/-- The provider has accepted a frame that gives the ticket a status. -/
def accept (target : TicketStatus) : Standing :=
  { s with
    status := target
    confirmed := s.confirmed || decide (target = .confirmed ∨ target = .declined) }

/-- The provider has accepted a frame. -/
def acknowledge (type : ProviderMessageType) : Standing :=
  match ProviderGatewayWorker.ackTarget type with
  | none => s
  | some target =>
      if s.status.Terminal ∨ target = .sentToProvider ∧ s.status ≠ .new then s else s.accept target

/-- An operation is carried out. -/
def step : Operation → Standing
  | .applyRecommendation action reason _ settles =>
      if s.status.Terminal then s
      else if settles then (s.recommend action reason).settle action
      else (s.recommend action reason).requestCancellation
  | .requestCancellation _ => s.requestCancellation
  | .markCancellationApplied => if s.status = .cancelled then s else s.cancel
  | .acknowledge message => s.acknowledge message.type

/-- Operations are carried out one after the other. -/
def run (os : List Operation) : Standing := os.foldl step s

variable {s}

/-! ### The acceptance of the `TICKET` frame -/

/-- A ticket that is not `NEW` is left alone. -/
theorem acknowledge_of_ne (h : s.status ≠ .new) : s.acknowledge .ticket = s := by
  simp [acknowledge, ProviderGatewayWorker.ackTarget, h]

/-- A `NEW` ticket is sent. -/
theorem acknowledge_of_new (h : s.status = .new) :
    s.acknowledge .ticket = { s with status := .sentToProvider } := by
  have hopen : ¬ TicketStatus.Terminal .new := by decide
  simp [acknowledge, ProviderGatewayWorker.ackTarget, accept, h, hopen]

theorem acknowledge_acknowledge :
    (s.acknowledge .ticket).acknowledge .ticket = s.acknowledge .ticket := by
  by_cases h : s.status = .new
  · rw [acknowledge_of_new h]
    exact acknowledge_of_ne (by simp)
  · rw [acknowledge_of_ne h, acknowledge_of_ne h]

/-- Every operation treats `NEW` and `SENT_TO_PROVIDER` alike. -/
theorem step_acknowledge (o : Operation) :
    (s.acknowledge .ticket).step o = (s.step o).acknowledge .ticket := by
  by_cases hnew : s.status = .new
  · -- each operation that changes the status leads to the same one from both
    have hopen : ¬ TicketStatus.Terminal .new := by decide
    have hsent : ¬ TicketStatus.Terminal .sentToProvider := by decide
    rw [acknowledge_of_new hnew]
    cases o with
    | applyRecommendation action reason expiresAt settles =>
        cases settles
        · rw [acknowledge_of_ne (by simp [step, hnew, hopen, requestCancellation])]
          simp [step, hnew, hopen, hsent, requestCancellation, recommend]
        · rw [acknowledge_of_ne (by simp [step, hnew, hopen, settle])]
          simp [step, hnew, hopen, hsent, settle, recommend]
    | requestCancellation reason =>
        rw [acknowledge_of_ne (by simp [step, requestCancellation])]
        rfl
    | markCancellationApplied =>
        rw [acknowledge_of_ne (by simp [step, hnew, cancel])]
        simp [step, hnew, cancel]
    | acknowledge message =>
        cases htype : message.type with
        | ticket =>
            simp only [step, htype]
            rw [acknowledge_of_ne (by simp), acknowledge_of_new hnew,
              acknowledge_of_ne (by simp)]
        | confirmRecommendation | declineRecommendation =>
            rw [acknowledge_of_ne (by
              simp [step, htype, acknowledge, ProviderGatewayWorker.ackTarget, hnew, hopen, accept])]
            simp [step, htype, acknowledge, ProviderGatewayWorker.ackTarget, hnew, hopen, hsent, accept]
        | _ =>
            have hsame : ∀ s : Standing, s.step (.acknowledge message) = s := fun s => by
              simp [step, htype, acknowledge, ProviderGatewayWorker.ackTarget]
            rw [hsame, hsame, acknowledge_of_new hnew]
  · -- no operation leads back to `NEW`
    have hstep : (s.step o).status ≠ .new := by
      cases o with
      | applyRecommendation action reason expiresAt settles =>
          simp only [step]
          split
          · exact hnew
          · split <;> simp [settle, requestCancellation]
      | requestCancellation reason => simp [step, requestCancellation]
      | markCancellationApplied =>
          simp only [step]
          split
          · exact hnew
          · simp [cancel]
      | acknowledge message =>
          simp only [step, acknowledge]
          split
          · exact hnew
          next target htarget =>
            split
            · exact hnew
            · unfold ProviderGatewayWorker.ackTarget at htarget
              split at htarget <;> cases htarget <;> simp [accept]
    rw [acknowledge_of_ne hnew, acknowledge_of_ne hstep]

theorem step_of_opens {o : Operation} (h : o.opens = true) : s.step o = s.acknowledge .ticket := by
  cases o with
  | acknowledge message =>
      have htype : message.type = .ticket := of_decide_eq_true h
      rw [step, htype]
  | _ => cases h

/-! ### Runs -/

theorem run_acknowledge (os : List Operation) :
    (s.acknowledge .ticket).run os = (s.run os).acknowledge .ticket :=
  List.foldl_hom (acknowledge · .ticket) fun _ o => step_acknowledge o

/-- Wherever the `TICKET` frame is accepted, it may as well be accepted at the end. -/
theorem run_of_opens {os : List Operation} (h : ∃ o ∈ os, o.opens = true) :
    s.run os = (s.run (os.filter fun o => !o.opens)).acknowledge .ticket := by
  induction os generalizing s with
  | nil => simp at h
  | cons o os ih =>
      cases hopens : o.opens with
      | false =>
          obtain ⟨o', ho', hopens'⟩ := h
          have hmem : o' ∈ os := List.mem_of_ne_of_mem (fun heq => by simp [heq, hopens] at hopens') ho'
          have hrest := ih (s := s.step o) ⟨o', hmem, hopens'⟩
          simpa [run, hopens] using hrest
      | true =>
          -- it is put off to the end, past the operations that follow
          have hfirst : s.run (o :: os) = (s.run os).acknowledge .ticket := by
            rw [← run_acknowledge, ← step_of_opens hopens]
            rfl
          rw [hfirst, List.filter_cons_of_neg (by simp [hopens])]
          by_cases hrest : ∃ o ∈ os, o.opens = true
          · rw [ih hrest, acknowledge_acknowledge]
          · -- no other one follows
            have hnone : os.filter (fun o => !o.opens) = os :=
              List.filter_eq_self.mpr fun o ho => by
                simpa using fun hopens => hrest ⟨o, ho, hopens⟩
            rw [hnone]

/-- Two runs that differ in when and how often the `TICKET` frame is accepted end alike. -/
theorem run_eq {os os' : List Operation}
    (hsame : os.filter (fun o => !o.opens) = os'.filter fun o => !o.opens)
    (h : ∃ o ∈ os, o.opens = true) (h' : ∃ o ∈ os', o.opens = true) : s.run os = s.run os' := by
  rw [run_of_opens h, run_of_opens h', hsame]

end Standing

end RiskProvider

import RiskProvider.Limits
import RiskProvider.Sequential.Envelope

/-!
# Texts of a frame

Validation bounds no text. The services cut the reason of a cancellation and the error of a failed
publish; the reason of a recommendation goes to its column as it is, and the error of its settle
call goes to the event that requests the cancellation. A complete run of `_handle` on a valid frame
processes it exactly when the database does not fail and takes these two texts
(`handle_processed_iff`).

* `Message.Writable`: the database takes what the frame and the monolith's answer have it write.
* `Processed`: the handler returns, with the frame in the inbox if it concerns the services.
-/

namespace RiskProvider

open Interleaving

/-! ### Texts without U+0000 -/

theorem storableText_append (a b : String) :
    storableText (a ++ b) = (storableText a && storableText b) := by
  simp [storableText]

theorem storableText_textPrefix {text : String} (n : ℕ) (h : storableText text = true) :
    storableText (textPrefix n text) = true := by
  simp only [storableText, textPrefix, String.toList_ofList, Bool.not_eq_true',
    List.contains_eq_mem, decide_eq_false_iff_not] at h ⊢
  exact mt List.mem_of_mem_take h

/-- The reason that `apply_recommendation` gives for a cancellation is storable when the error of
the settle call is. -/
theorem storableText_monolithError (text : String) :
    storableText ("monolith_error: " ++ text) = storableText text := by
  have hfixed : storableText "monolith_error: " = true := by decide
  rw [storableText_append, hfixed, Bool.true_and]

namespace Ticket

variable {t : Ticket} {now : Time}

theorem Recordable.settled (h : t.Recordable) : (t.settled now).Recordable := h

theorem Recordable.cancelled (h : t.Recordable) : (t.cancelled now).Recordable := h

theorem Recordable.recommended (h : t.Recordable) {p : RecommendationPayload}
    (hreason : ∀ reason ∈ p.reason, reason.length ≤ 512 ∧ storableText reason = true) :
    (t.recommended p now).Recordable :=
  ⟨⟨h.1.1, fun reason hr => (hreason reason hr).1, h.1.2.2⟩,
    h.2.1, fun reason hr => (hreason reason hr).2, h.2.2.2⟩

theorem Recordable.cancelRequested (h : t.Recordable) {reason : String}
    (hreason : storableText reason = true) : (t.cancelRequested reason now).Recordable := by
  refine ⟨⟨h.1.1, h.1.2.1, ?_⟩, h.2.1, h.2.2.1, ?_, h.2.2.2.2⟩
  · rintro _ ⟨⟩
    exact length_textPrefix 1024 reason
  · rintro _ ⟨⟩
    exact storableText_textPrefix 1024 hreason

end Ticket

section General

variable [Codecs]

/-! ### Frames that the outbox can hold -/

/-- The outbox can hold a frame when it can hold the frame's payload. -/
theorem Message.storable_modelDump (hcodecs : Codecs.Storable) (m : Message) :
    Json.storableFields m.modelDump = Json.storableFields m.payload := by
  have hticket : (Codecs.uuid.dumpOption m.ticketId).storable = true := by
    cases m.ticketId with
    | none => rfl
    | some id => exact hcodecs.uuid id
  have htype : (ProviderMessageType.codec.dump m.type).storable = true := by
    cases m.type <;> decide
  have hnames : ∀ name ∈ ["message_id", "ticket_id", "type", "timestamp", "payload"],
      storableText name = true := by decide
  simp [modelDump, Json.storableFields, hcodecs.uuid m.messageId, hticket, htype,
    hcodecs.datetime m.timestamp, hnames, payloadCodec, Json.storable]

theorem Acknowledges.storable {m : Message} {id : UUID} {action : RecommendationAction}
    (h : Acknowledges m id action) (hcodecs : Codecs.Storable) :
    Json.storableFields m.modelDump = true := by
  have hname : storableText "ticket_id" = true := by decide
  simp [m.storable_modelDump hcodecs, h.payload, ConfirmRecommendationPayload.modelDump,
    Json.storableFields, hcodecs.uuid id, hname]

theorem RequestsCancellation.storable {m : Message} {id : UUID} {reason : String}
    (h : RequestsCancellation m id reason) (hcodecs : Codecs.Storable) :
    Json.storableFields m.modelDump = storableText reason := by
  have hnames : storableText "ticket_id" = true ∧ storableText "reason" = true := by decide
  simp [m.storable_modelDump hcodecs, h.payload, RequestCancellationPayload.modelDump,
    Json.storableFields, hcodecs.uuid id, hnames, Codec.string, Json.storable]

/-! ### What the database takes -/

/-- The database takes the texts of a recommendation: its reason, and the error of its settle call,
if `acts` have one. -/
structure RecommendationPayload.Writable (p : RecommendationPayload) (acts : History) : Prop where
  /-- The reason goes uncut to `provider_reason`. -/
  reason : ∀ reason ∈ p.reason, reason.length ≤ 512 ∧ storableText reason = true
  /-- The error goes uncut to the event that requests the cancellation. -/
  error : ∀ i text, .processed i p.ticketId (some p.action) (some text) ∈ acts →
    storableText text = true

/-- The database takes what the handler of frame `m` writes from the rows `db`, with the monolith's
answer in `acts`: a new recommendation of an open ticket has texts that it takes. -/
def Message.Writable (m : Message) (db : Database) (acts : History) : Prop :=
  m.type = .recommendation → m.messageId ∉ db.inbox → ∀ p row,
    RecommendationPayload.modelValidate m.payload = some p →
    db.tickets.lookup p.ticketId = some row → ¬ row.status.Terminal → p.Writable acts

/-- How the handler of frame `m` ends that returns. -/
structure Accepted (m : Message) (v v' : Solo) : Prop where
  fault : v'.fault = none
  claims : m.Concerns v.db → m.messageId ∈ v'.db.inbox
  writable : v'.db.Recordable → m.Writable v.db v'.actions

/-- How the handler of frame `m` ends that raises `x`. -/
structure Rejected (faults : Faults) (m : Message) (v : Solo) (x : Exn) (v' : Solo) : Prop where
  fault : v'.fault.isSome = faults.includes x
  cause : x.isOutage = true ∨ x = .dataError ∧ ¬ m.Writable v.db v'.actions

/-- The handler's session is closed. -/
theorem Rejected.setSession {m : Message} {v v' : Solo} {faults : Faults} {x : Exn} {s : Session}
    (h : Rejected faults m v x v') : Rejected faults m v x (v'.setSession s) :=
  ⟨h.fault, h.cause⟩

/-- The database has raised an exception; when it has rejected data, it does not take a text. -/
theorem Solo.Faulted.rejected {m : Message} {v v' v₀ : Solo} {faults : Faults} {D : Prop} {x : Exn}
    (h : v.Faulted faults D x v') (hlive : v.session.failed = false) (hnone : v.fault = none)
    (hD : D → ¬ m.Writable v₀.db v'.actions) : Rejected faults m v₀ x v' :=
  ⟨h.fault_isSome hnone, (h.cause hlive).imp_right fun hx => ⟨hx.1, hD hx.2⟩⟩

namespace Alone

variable {faults : Faults} {i : ℕ} {m : Message} {p : RecommendationPayload} {v v' : Solo}

theorem Applied.accepted {began : Time}
    (h : Applied i p [.insertInbox (m.claim began)] v v') (hcodecs : Codecs.Storable)
    (hfault : v.fault = none)
    (hidle : ∀ j id action error, .processed j id action error ∉ v.actions)
    (htype : m.type = .recommendation)
    (hpayload : RecommendationPayload.modelValidate m.payload = some p) : Accepted m v v' := by
  have hclaims : ∀ wr ∈ [Write.insertInbox (m.claim began)], ∃ claim, wr = .insertInbox claim := by
    simp
  -- the writes were taken, so the row that the second commit has left has the reason
  have hwritable : ∀ {row attrs : Ticket}, v'.db.tickets.lookup p.ticketId = some row →
      row.Matches attrs → attrs.providerReason = p.reason →
      (v'.db.Recordable → ∀ j text,
        .processed j p.ticketId (some p.action) (some text) ∈ v'.actions →
          storableText text = true) → v'.db.Recordable → m.Writable v.db v'.actions := by
    rintro row attrs hrow ⟨now, rfl⟩ hreason herror hrecordable - - p' _ hp' - -
    obtain rfl : p = p' := Option.some.inj (hpayload.symm.trans hp')
    have htexts := hrecordable.tickets _ _ hrow
    refine ⟨fun reason hr => ?_, herror hrecordable⟩
    exact ⟨htexts.1.2.1 reason (hreason ▸ hr), htexts.2.2.1 reason (hreason ▸ hr)⟩
  cases h with
  | ignored hclosed hkeeps =>
      refine ⟨hkeeps.fault.trans hfault, fun hconcerns => ?_, fun _ _ _ p' row hp' hrow hopen => ?_⟩
      · have hopen : ∃ row, v.db.tickets.lookup p.ticketId = some row ∧ ¬ row.status.Terminal := by
          simpa [Message.Concerns, htype, hpayload] using hconcerns
        obtain ⟨row, hrow, hopen⟩ := hopen
        exact absurd (hclosed row hrow) hopen
      · obtain rfl : p = p' := Option.some.inj (hpayload.symm.trans hp')
        exact absurd (hclosed row hrow) hopen
  | settled hrow hid hopen hfirst hevent hframe hsecond =>
      obtain ⟨-, row', hrow', hmatches⟩ := rows_of_commits hrow hid hclaims hfirst hevent
        (Ticket.revises_settled _ _) hsecond rfl
      refine ⟨hsecond.fault.trans (hfirst.fault.trans hfault), fun _ => ?_,
        hwritable hrow' hmatches rfl fun _ j text hmem => ?_⟩
      · rw [hsecond.db]
        exact Database.mem_inbox_writeAll _ hfirst.claims
      · simp [hsecond.actions, hfirst.actions, hidle] at hmem
  | @cancelled _ _ _ _ text _ _ _ eventId frame hrow hid hopen hfirst hevent hframe hsecond =>
      obtain ⟨hadded, row', hrow', hmatches⟩ := rows_of_commits hrow hid hclaims hfirst hevent
        (Ticket.revises_cancelRequested _ _ _) hsecond rfl
      refine ⟨hsecond.fault.trans (hfirst.fault.trans hfault), fun _ => ?_,
        hwritable hrow' hmatches rfl fun hrecordable j text' hmem => ?_⟩
      · rw [hsecond.db]
        exact Database.mem_inbox_writeAll _ hfirst.claims
      · obtain ⟨-, rfl⟩ : j = i ∧ text' = text := by
          simpa [hsecond.actions, hfirst.actions, hidle] using hmem
        -- the event's payload has the error
        have hpayload := hrecordable.outbox eventId _ (by
          rw [hsecond.outbox_outbound, AList.lookup_insert])
        rw [← storableText_monolithError, ← hframe.storable hcodecs]
        exact hpayload

theorem Abandoned.rejected {ws : List Write} {row : Ticket} {v₁ : Solo} {x : Exn}
    (h : Abandoned faults i p ws v row v₁ x v') (hcodecs : Codecs.Storable)
    (hrecordable : v.db.Recordable) (hfault : v.fault = none) (htype : m.type = .recommendation)
    (hnew : m.messageId ∉ v.db.inbox)
    (hpayload : RecommendationPayload.modelValidate m.payload = some p) :
    Rejected faults m v x v' := by
  obtain ⟨now, began, hfirst⟩ := h.first
  obtain ⟨acts, error, -, hfaulted⟩ := h.calls
  refine hfaulted.rejected hfirst.clean.failed (hfirst.fault.trans hfault) ?_
  rintro ⟨now, hnot⟩ hwritable
  have htexts : p.Writable v'.actions := hwritable htype hnew p row hpayload h.found h.opened
  have hrow : (row.recommended p now).Recordable :=
    (hrecordable.tickets _ _ h.found).recommended htexts.reason
  refine hnot ?_
  cases error with
  | none => exact ⟨fun now' => hrow.settled, fun frame hframe => hframe.storable hcodecs⟩
  | some text =>
      have htext : storableText text = true := htexts.error i text (by simp [hfaulted.actions])
      rw [← storableText_monolithError] at htext
      exact ⟨fun now' => hrow.cancelRequested htext, fun frame hframe =>
        (hframe.storable hcodecs).trans htext⟩

end Alone

end General

end RiskProvider

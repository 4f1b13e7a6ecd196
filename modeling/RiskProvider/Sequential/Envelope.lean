import RiskProvider.Frames
import RiskProvider.Sequential.Consumer

/-!
# Envelopes and payloads

A frame names its ticket twice: in the envelope and in the payload. The inbox records the envelope's
copy, the services act on the payload's, and nothing compares the two. `TouchesOnly` says that a run
of `_handle` has touched only the envelope's ticket; a complete run satisfies it exactly when the two
agree, or the frame is not carried out (`handle_touches_only_iff`).

* `handle_eq`: `_handle` as validation and what follows, for runs from given default factories.
* `Handled`: how a run of the handler ends.
-/

namespace RiskProvider

open Interleaving

/-- Between `db` and `db'`, with the actions `acts`, a handler has touched only the ticket that the
envelope of its frame names, and no ticket when the payload names another one. -/
structure TouchesOnly (envelope subject : Option UUID) (db db' : Database) (acts : History) :
    Prop where
  /-- The rows of other tickets have not changed. -/
  tickets : ∀ id, envelope ≠ some id → db'.tickets.lookup id = db.tickets.lookup id
  /-- The events inserted are the ticket's. -/
  events : ∀ id row, id ∉ db.outbox → db'.outbox.lookup id = some row →
    envelope = some row.entityId
  /-- The monolith has been called for the ticket. -/
  calls : ∀ i id action error, .processed i id action error ∈ acts → envelope = some id
  /-- The inbox row records the ticket. -/
  claims : ∀ id row, id ∉ db.inbox → db'.inbox.lookup id = some row → row.ticketId = envelope
  /-- A frame whose envelope and payload name different tickets changes none. -/
  mismatch : envelope ≠ subject → ∀ id, db'.tickets.lookup id = db.tickets.lookup id

/-! ### Writes about one ticket -/

/-- A write that the handler of frame `m`, whose payload names ticket `t`, can make. -/
def Write.About (m : Message) (t : UUID) : Write → Prop
  | .insertInbox row => row.ticketId = m.ticketId
  | .updateTicket id _ _ => id = t
  | .insertEvent row => row.entityId = t
  | _ => False

theorem about_rewrite {m : Message} {row attrs : Ticket} {t : UUID} {began : Time}
    (hid : row.id = t) : ∀ wr ∈ rewrite row attrs began, wr.About m t := by
  intro wr hwr
  rw [mem_rewrite hwr]
  exact hid

namespace Database

variable {m : Message} {t id : UUID} {db : Database} {ws : List Write}

theorem lookup_tickets_of_about (h : ∀ wr ∈ ws, wr.About m t) (hid : id ≠ t) :
    (db.writeAll ws).tickets.lookup id = db.tickets.lookup id := by
  refine lookup_tickets_writeAll fun wr hwr => ?_
  have habout := h wr hwr
  cases wr with
  | updateTicket k p now =>
      have hk : k = t := habout
      simp [Write.ticketKey, hk, Ne.symm hid]
  | insertTicket row => exact habout.elim
  | _ => simp [Write.ticketKey]

theorem entityId_of_about {row : OutboxEvent} (h : ∀ wr ∈ ws, wr.About m t)
    (hid : id ∉ db.outbox) (hrow : (db.writeAll ws).outbox.lookup id = some row) :
    row.entityId = t := by
  rcases outbox_of_writeAll hrow with ⟨row₀, hrow₀, -⟩ | ⟨row₀, hmem, hsame⟩
  · exact absurd (AList.lookup_isSome.mp (hrow₀ ▸ rfl)) hid
  · exact hsame.entityId.trans (h _ hmem)

theorem ticketId_of_about {row : ProcessedProviderMessage} (h : ∀ wr ∈ ws, wr.About m t)
    (hrow : (db.writeAll ws).inbox.lookup id = some row) :
    db.inbox.lookup id = some row ∨ row.ticketId = m.ticketId := by
  induction ws generalizing db with
  | nil => exact .inl hrow
  | cons wr ws ih =>
      rcases ih (fun wr' hwr' => h wr' (List.mem_cons_of_mem _ hwr')) hrow with hlookup | habout
      · cases wr with
        | insertInbox claim =>
            by_cases hid : id = claim.messageId
            · subst hid
              obtain rfl : claim = row := by simpa [write] using hlookup
              exact .inr (h _ List.mem_cons_self)
            · exact .inl (by simpa [write, hid] using hlookup)
        | _ => exact .inl hlookup
      · exact .inr habout

end Database

/-- An entry of thread `i` that commits writes of the handler of frame `m`, or calls the monolith
for ticket `t`. -/
def Entry.About (i : ℕ) (m : Message) (t : UUID) : Entry → Prop
  | .committed j ws => j = i ∧ ∀ wr ∈ ws, wr.About m t
  | .processed j id _ _ => j = i ∧ id = t
  | _ => False

namespace Solo

/-- The thread has done only what the handler of frame `m`, whose payload names ticket `t`, can
do. -/
def Confined (i : ℕ) (m : Message) (t : UUID) (v v' : Solo) : Prop :=
  ∃ ws : List Write, ∃ acts : History, v'.db = v.db.writeAll ws ∧ (∀ wr ∈ ws, wr.About m t) ∧
    v'.actions = acts ++ v.actions ∧ ∀ e ∈ acts, e.About i m t

variable {i : ℕ} {m : Message} {t : UUID} {v v₁ v₂ : Solo} {ws : List Write}

theorem Confined.refl (v : Solo) : Confined i m t v v := ⟨[], [], rfl, by simp, rfl, by simp⟩

theorem Confined.trans (h : Confined i m t v v₁) (h' : Confined i m t v₁ v₂) :
    Confined i m t v v₂ := by
  obtain ⟨ws, acts, hdb, hws, hactions, hacts⟩ := h
  obtain ⟨ws', acts', hdb', hws', hactions', hacts'⟩ := h'
  refine ⟨ws ++ ws', acts' ++ acts, ?_, ?_, ?_, ?_⟩
  · rw [hdb', hdb, Database.writeAll_append]
  · simpa [or_imp, forall_and] using ⟨hws, hws'⟩
  · rw [hactions', hactions, List.append_assoc]
  · simpa [or_imp, forall_and] using ⟨hacts', hacts⟩

theorem Commits.confined (h : v.Commits i t ws v₁) (hws : ∀ wr ∈ ws, wr.About m t) :
    Confined i m t v v₁ :=
  ⟨ws, [.committed i ws], h.db, hws, h.actions, by simpa [Entry.About] using hws⟩

theorem confined_act {e : Entry} (h : e.About i m t) : Confined i m t v (v.act e) :=
  ⟨[], [e], rfl, by simp, rfl, by simpa using h⟩

end Solo

section General

variable [Codecs]

/-! ### What a frame is about -/

/-- The ticket that the frame's payload names, when the payload is valid. -/
def Message.subject? (m : Message) : Option UUID :=
  if m.type = .recommendation then
    (RecommendationPayload.modelValidate m.payload).map (·.ticketId)
  else (CancellationAppliedPayload.modelValidate m.payload).map (·.ticketId)

/-- The handler of frame `m`, run by thread `i` from the rows `db`, carries it out: the frame is of
a handled type, new and valid, its payload names a ticket that has not reached the end of its life,
and the database does not fail before the first commit (what the thread had done at the first
failure is in `fault`). -/
def CarriedOut (i : ℕ) (m : Message) (db : Database) (fault : Option History) : Prop :=
  m.type ∈ ProviderConsumerWorker.handledTypes ∧ m.messageId ∉ db.inbox ∧ m.subject?.isSome ∧
    m.Concerns db ∧ ∀ acts ∈ fault, ∃ ws, .committed i ws ∈ acts

/-- How the handler of frame `m` ends: it does nothing that others see, or it carries the frame
out, with what the payload's ticket shows of it. -/
inductive Handled (i : ℕ) (m : Message) (v v' : Solo) : Prop
  | skipped (hdb : v'.db = v.db) (hactions : v'.actions = v.actions)
      (hskipped : ¬ CarriedOut i m v.db v'.fault)
  | carried {t : UUID} (hsubject : m.subject? = some t) (hcarried : CarriedOut i m v.db v'.fault)
      (hconfined : Solo.Confined i m t v v')
      (hshown : (∃ action error, .processed i t action error ∈ v'.actions) ∨
        v'.db.tickets.lookup t ≠ v.db.tickets.lookup t)

theorem Handled.setSession {i : ℕ} {m : Message} {v v' : Solo} (h : Handled i m v v')
    (s : Session) : Handled i m v (v'.setSession s) := by
  cases h with
  | skipped hdb hactions hskipped => exact .skipped hdb hactions hskipped
  | carried hsubject hcarried hconfined hshown =>
      exact .carried hsubject hcarried hconfined hshown

/-- A handler that has ended touches only the envelope's ticket if and only if the two copies agree
or it has not carried its frame out. -/
theorem Handled.touchesOnly_iff {i : ℕ} {m : Message} {v v' : Solo} (h : Handled i m v v')
    (hreceived : ∀ e ∈ v.actions, ∃ q n d, e = .received i q n d) :
    TouchesOnly m.ticketId m.subject? v.db v'.db v'.actions ↔
      (CarriedOut i m v.db v'.fault → m.ticketId = m.subject?) := by
  have hcalls : ∀ j id action error, .processed j id action error ∉ v.actions := by
    intro j id action ok hmem
    obtain ⟨q, n, d, heq⟩ := hreceived _ hmem
    cases heq
  cases h with
  | skipped hdb hactions hskipped =>
      refine iff_of_true ?_ fun hcarried => absurd hcarried hskipped
      rw [hdb, hactions]
      have hnone : ∀ {ρ : Type} {t : Table ρ} {id : UUID} {row : ρ}, id ∉ t →
          t.lookup id ≠ some row := fun hid hrow => hid (AList.lookup_isSome.mp (hrow ▸ rfl))
      exact {
        tickets := fun _ _ => rfl
        events := fun id row hid hrow => absurd hrow (hnone hid)
        calls := fun j id action ok hmem => absurd hmem (hcalls j id action ok)
        claims := fun id row hid hrow => absurd hrow (hnone hid)
        mismatch := fun _ _ => rfl }
  | @carried t hsubject hcarried hconfined hshown =>
      rw [hsubject]
      refine ⟨fun htouches _ => ?_, fun himp => ?_⟩
      · -- a call or a change shows the payload's ticket
        rcases hshown with ⟨action, ok, hmem⟩ | hchanged
        · exact htouches.calls i t action ok hmem
        · by_contra hne
          exact hchanged (htouches.tickets t hne)
      · have henvelope : m.ticketId = some t := himp hcarried
        obtain ⟨ws, acts, hdb, hws, hactions, hacts⟩ := hconfined
        rw [hdb, hactions, henvelope]
        exact {
          tickets := fun id hid => Database.lookup_tickets_of_about hws fun heq => hid (heq ▸ rfl)
          events := fun id row hid hrow => by rw [Database.entityId_of_about hws hid hrow]
          calls := fun j id action ok hmem => by
            rcases List.mem_append.mp hmem with hmem | hmem
            · rw [(hacts _ hmem).2]
            · exact absurd hmem (hcalls j id action ok)
          claims := fun id row hid hrow => by
            rcases Database.ticketId_of_about hws hrow with hold | habout
            · exact absurd (AList.lookup_isSome.mp (hold ▸ rfl)) hid
            · rw [habout, henvelope]
          mismatch := fun hne => absurd rfl hne }

namespace Alone

variable {i : ℕ} {m : Message} {p : RecommendationPayload} {ws : List Write} {v v' : Solo}

/-- What `apply_recommendation` has done when it returns, if it has done anything. -/
theorem Applied.confined (h : Applied i p ws v v') (hws : ∀ wr ∈ ws, wr.About m p.ticketId) :
    (v.Keeps p.ticketId v' ∧
      ∀ row, v.db.tickets.lookup p.ticketId = some row → row.status.Terminal) ∨
    Solo.Confined i m p.ticketId v v' ∧ v'.fault = v.fault ∧
      (∃ row, v.db.tickets.lookup p.ticketId = some row ∧ ¬ row.status.Terminal) ∧
      ∃ action error, .processed i p.ticketId action error ∈ v'.actions := by
  have hnotified : ∀ {a a' : Ticket} {began eventId m'}, a.id = p.ticketId →
      ∀ wr ∈ rewrite a a' began ++ [outbound eventId p.ticketId m' began],
        wr.About m p.ticketId :=
    fun hid => List.forall_mem_append.mpr ⟨about_rewrite hid, by simp [outbound, Write.About]⟩
  have hcall : ∀ (v : Solo) action error, Solo.Confined i m p.ticketId v
      (v.act (.processed i p.ticketId action error)) := fun _ _ _ => Solo.confined_act ⟨rfl, rfl⟩
  cases h with
  | ignored hclosed hkeeps => exact .inl ⟨hkeeps, hclosed⟩
  | settled hrow hid hopen hfirst _ _ hsecond =>
      have hfirst' := hfirst.confined (List.forall_mem_append.mpr ⟨hws, about_rewrite hid⟩)
      refine .inr ⟨hfirst'.trans ((hcall _ _ _).trans (hsecond.confined (hnotified hid))),
        hsecond.fault.trans hfirst.fault, ⟨_, hrow, hopen⟩, some p.action, none, ?_⟩
      simp [hsecond.actions]
  | @cancelled _ _ _ _ text _ _ _ _ _ hrow hid hopen hfirst _ _ hsecond =>
      have hfirst' := hfirst.confined (List.forall_mem_append.mpr ⟨hws, about_rewrite hid⟩)
      refine .inr ⟨hfirst'.trans ((hcall _ _ _).trans
          ((hcall _ _ _).trans (hsecond.confined (hnotified hid)))),
        hsecond.fault.trans hfirst.fault, ⟨_, hrow, hopen⟩, some p.action, some text, ?_⟩
      simp [hsecond.actions]

/-- What `apply_recommendation` has done when it raises after its first commit. -/
theorem Abandoned.confined {row : Ticket} {v₁ : Solo} {x : Exn}
    (h : Abandoned .database i p ws v row v₁ x v') (hkeyed : v.db.Keyed)
    (hws : ∀ wr ∈ ws, wr.About m p.ticketId) :
    Solo.Confined i m p.ticketId v v' ∧
      (v.fault = none → ∃ acts ws, v'.fault = some acts ∧ .committed i ws ∈ acts) ∧
      ∃ action error, .processed i p.ticketId action error ∈ v'.actions := by
  obtain ⟨now, began, hfirst⟩ := h.first
  obtain ⟨acts, error, hacts, hfaulted⟩ := h.calls
  have hfirst' := hfirst.confined
    (List.forall_mem_append.mpr ⟨hws, about_rewrite (hkeyed.tickets _ _ h.found)⟩)
  refine ⟨hfirst'.trans ⟨[], acts ++ [.processed i p.ticketId (some p.action) error], ?_, by simp,
    ?_, ?_⟩, fun hnone => ?_, some p.action, error, ?_⟩
  · exact hfaulted.db
  · rw [hfaulted.actions]
    simp
  · intro e he
    rcases List.mem_append.mp he with he | he
    · obtain ⟨error', rfl⟩ := hacts e he
      exact ⟨rfl, rfl⟩
    · obtain rfl := List.mem_singleton.mp he
      exact ⟨rfl, rfl⟩
  · have hfault := hfaulted.fault_database
    simp only [hfirst.fault, hnone, Option.none_or] at hfault
    refine ⟨_, ws ++ rewrite row (row.recommended p now) began, hfault, ?_⟩
    rw [hfirst.actions]
    exact List.mem_append_right _ (List.mem_cons_of_mem _ List.mem_cons_self)
  · rw [hfaulted.actions]
    simp

end Alone

/-! ### Validation and what follows -/

namespace ProviderConsumerWorker

/-- `_handle`, after `Message.model_validate`. -/
def handleValidated (message : Message) : Py Unit :=
  if message.type ∉ handledTypes then return ()
  else
    AsyncSession.scope do
      let claimed ← InboxRepository.tryClaim message.messageId message.type.value
        message.ticketId
      if ¬ claimed then return ()
      else if message.type = .recommendation then
        let recommendation ← validated (RecommendationPayload.modelValidate message.payload)
        TicketService.applyRecommendation recommendation
      else
        let cancellation ← validated (CancellationAppliedPayload.modelValidate message.payload)
        TicketService.markCancellationApplied cancellation.ticketId

/-- `_handle`, with default factories. -/
def handleWith (messageId : Py UUID) (timestamp : Py Time) (payload : Dict) : Py Unit := do
  let messageId ← messageId
  let timestamp ← timestamp
  let message ← validated (Message.modelValidate messageId timestamp payload)
  handleValidated message

theorem handle_eq (payload : Dict) : handle payload = handleWith uuid4 utcNow payload := by
  have hvalidate : Message.validate payload = (do
      let messageId ← uuid4
      let timestamp ← utcNow
      validated (Message.modelValidate messageId timestamp payload)) := by
    unfold Message.validate
    congr 1
    funext messageId
    congr 1
    funext timestamp
    cases Message.modelValidate messageId timestamp payload <;> rfl
  change Message.validate payload >>= handleValidated = _
  rw [hvalidate]
  simp only [handleWith, bind_assoc]

theorem run_handleWith (timestamp : Py Time) (payload : Dict) :
    (handleWith uuid4 timestamp payload).run =
      .perform .uuid4 fun r => (handleWith (ExceptT.mk (.done r)) timestamp payload).run := rfl

theorem run_handleWith_ok (messageId : UUID) (payload : Dict) :
    (handleWith (ExceptT.mk (.done (.ok messageId))) utcNow payload).run = .perform .utcNow fun r =>
      (handleWith (ExceptT.mk (.done (.ok messageId))) (ExceptT.mk (.done r)) payload).run := rfl

end ProviderConsumerWorker

open ProviderConsumerWorker in
/-- A run of `_handle` that decodes its frame as `m` is a run of what follows. -/
theorem complete_handle {i : ℕ} {u : UUID} {body : Dict} {m : Message} {w w' : World}
    {cs : List Choice} {r : Except Exn Unit} (hframe : Message.modelValidate u w.now body = some m)
    (h : machine.complete i (handle body).run (.uuid u :: cs) w = some (r, w')) :
    ∃ cs', machine.complete i (handleValidated m).run cs' w = some (r, w') ∧ ∀ faults,
      machine.firstFault (Effect.raises faults) i (handle body).run (.uuid u :: cs) w =
        machine.firstFault (Effect.raises faults) i (handleValidated m).run cs' w := by
  rw [handle_eq, run_handleWith] at h ⊢
  obtain ⟨c, cs₁, r₁, w₁, hcs, hexec, hrest⟩ := Machine.complete_perform h
  cases hcs
  cases hexec
  rw [run_handleWith_ok] at hrest
  obtain ⟨c, cs₂, r₂, w₂, rfl, hexec₂, hrest⟩ := Machine.complete_perform hrest
  obtain ⟨_, -, heq⟩ := Option.map_eq_some_iff.mp hexec₂
  cases heq
  have hdecoded : handleWith (ExceptT.mk (.done (.ok u))) (ExceptT.mk (.done (.ok w.now))) body =
      handleValidated m := by
    change (validated (Message.modelValidate u w.now body) >>= handleValidated) = _
    rw [hframe]
    rfl
  rw [hdecoded] at hrest
  refine ⟨cs₂, hrest, fun faults => ?_⟩
  have huuid : machine.exec i .uuid4 (.uuid u) w = some (.ok u, w) := rfl
  rw [Machine.firstFault, huuid, Option.bind_some, run_handleWith_ok]
  simp only [Effect.raises, Bool.false_eq_true, ↓reduceIte]
  rw [Machine.firstFault, hexec₂, Option.bind_some, hdecoded]
  simp only [Effect.raises, Bool.false_eq_true, ↓reduceIte]

open ProviderConsumerWorker in
/-- `_handle`, after validation, started by a fresh session of a thread that has not committed. -/
theorem Alone.handleValidated {i : ℕ} {m : Message} {v : Solo} (hkeyed : v.db.Keyed)
    (hfresh : v.session = {}) (hfault : v.fault = none)
    (hidle : ∀ ws, .committed i ws ∉ v.actions) :
    Alone .database i (handleValidated m) (fun _ => Handled i m v) (fun _ => Handled i m v) v := by
  have hearly : ∀ s D x v', (v.setSession s).Faulted .database D x v' → Handled i m v v' := by
    intro s D x v' hx
    refine .skipped hx.db hx.actions fun hcarried => ?_
    obtain ⟨ws, hmem⟩ := hcarried.2.2.2.2 v.actions (by
      rw [hx.fault_database, Solo.fault_setSession, hfault]
      rfl)
    exact hidle ws hmem
  unfold ProviderConsumerWorker.handleValidated
  split
  next hunhandled => exact pure (.skipped rfl rfl fun hcarried => hunhandled hcarried.1)
  next hhandled =>
  rw [not_not] at hhandled
  refine scope (bind (tryClaim_or hfresh
    (fun x v' hx => (hearly v.session _ x v' hx).setSession {}) (fun hclaimed s => ?_)
    fun hnew s began hclean hmap => ?_))
  · -- the frame has been claimed before
    exact pure (.skipped rfl rfl fun hcarried => hcarried.2.1 hclaimed)
  have hkeys : ∀ wr ∈ [Write.insertInbox (m.claim began)], wr.ticketKey = none := by
    simp [Write.ticketKey]
  have hattrs : ∀ row, (v.setSession s).session.attrs row = row := by
    simp [Session.attrs, hmap]
  have hclaim : ∀ t, ∀ wr ∈ [Write.insertInbox (m.claim began)], wr.About m t := by
    simp [Write.About, Message.claim]
  simp only [not_true_eq_false, ↓reduceIte]
  split
  next htype =>
    cases hpayload : RecommendationPayload.modelValidate m.payload with
    | none =>
        refine bind (throw (.skipped rfl rfl fun hcarried => ?_))
        have hsubject := hcarried.2.2.1
        simp [Message.subject?, htype, hpayload] at hsubject
    | some p =>
        have hsubject : m.subject? = some p.ticketId := by
          simp [Message.subject?, htype, hpayload]
        have hconcerns : m.Concerns v.db ↔
            ∃ row, v.db.tickets.lookup p.ticketId = some row ∧ ¬ row.status.Terminal := by
          simp [Message.Concerns, htype, hpayload]
        refine bind (pure ((applyRecommendation_abandoned hclean hkeys hattrs).mono ?_ ?_))
        · rintro ⟨⟩ v' happlied
          refine Handled.setSession ?_ {}
          rcases Applied.confined happlied (hclaim p.ticketId) with
            ⟨hkeeps, hclosed⟩ | ⟨hconfined, hsame, hopen, hcalled⟩
          · refine .skipped hkeeps.db hkeeps.actions fun hcarried => ?_
            obtain ⟨row, hrow, hopen⟩ := hconcerns.mp hcarried.2.2.2.1
            exact hopen (hclosed row hrow)
          · refine .carried hsubject ⟨hhandled, hnew, by simp [hsubject], hconcerns.mpr hopen, ?_⟩
              hconfined (.inl hcalled)
            rw [hsame, Solo.fault_setSession, hfault]
            simp
        · rintro x v' (hx | ⟨row, v₁, habandoned⟩)
          · exact (hearly s _ x v' hx).setSession {}
          · obtain ⟨hconfined, hlate, hcalled⟩ := habandoned.confined hkeyed (hclaim p.ticketId)
            obtain ⟨acts, ws, hacts, hmem⟩ := hlate hfault
            refine Handled.setSession (.carried hsubject ⟨hhandled, hnew, by simp [hsubject],
              hconcerns.mpr ⟨row, habandoned.found, habandoned.opened⟩, ?_⟩ hconfined
              (.inl hcalled)) {}
            rw [hacts]
            rintro _ ⟨⟩
            exact ⟨ws, hmem⟩
  next htype =>
    cases hpayload : CancellationAppliedPayload.modelValidate m.payload with
    | none =>
        refine bind (throw (.skipped rfl rfl fun hcarried => ?_))
        have hsubject := hcarried.2.2.1
        simp [Message.subject?, htype, hpayload] at hsubject
    | some p =>
        have hsubject : m.subject? = some p.ticketId := by
          simp [Message.subject?, htype, hpayload]
        have hconcerns : m.Concerns v.db ↔
            ∃ row, v.db.tickets.lookup p.ticketId = some row ∧ row.status ≠ .cancelled := by
          simp [Message.Concerns, htype, hpayload]
        refine bind (pure (markCancellationApplied hclean hkeys hattrs
          (fun x v' D _ hx => (hearly s D x v' hx).setSession {}) ?_ ?_))
        · intro v' hkeeps hclosed
          refine Handled.setSession ?_ {}
          refine .skipped hkeeps.db hkeeps.actions fun hcarried => ?_
          obtain ⟨row, hrow, hopen⟩ := hconcerns.mp hcarried.2.2.2.1
          exact hopen (hclosed row hrow)
        · intro v' row now began' hrow hopen hcommits
          have hid : row.id = p.ticketId := hkeyed.tickets _ _ hrow
          -- the row is cancelled now
          have hedits : Edits ([.insertInbox (m.claim began)] ++
              rewrite row (row.cancelled now) began') row (row.cancelled now) began' :=
            Edits.of_claim _
          obtain ⟨row', hrow', hmatches⟩ := Database.lookup_edits_matches hedits (hid ▸ hrow)
            row.matches_self (row.revises_cancelled now)
          rw [← hcommits.db, hid] at hrow'
          have hconfined := hcommits.confined
            (List.forall_mem_append.mpr ⟨hclaim p.ticketId, about_rewrite hid⟩)
          refine Handled.setSession ?_ {}
          refine .carried hsubject ⟨hhandled, hnew, by simp [hsubject],
            hconcerns.mpr ⟨row, hrow, hopen⟩, ?_⟩ hconfined (.inr ?_)
          · rw [hcommits.fault, Solo.fault_setSession, hfault]
            simp
          · intro heq
            obtain rfl : row' = row := Option.some.inj (hrow'.symm.trans (heq.trans hrow))
            obtain ⟨u, hrow''⟩ := hmatches
            exact hopen (hrow'' ▸ rfl)

/-- A complete run of `_handle` that decodes its frame as `m` touches only the ticket that the
envelope names if and only if the payload names the same ticket, or the frame is not carried
out. -/
theorem handle_touches_only_iff {i : ℕ} {u : UUID} {m : Message} {body : Dict} {w w' : World}
    {cs : List Choice} {r : Except Exn Unit} (hinv : w.Isolated) (hfresh : w.session i = {})
    (hreceived : ∀ e ∈ w.log.actions i, ∃ q n d, e = .received i q n d)
    (hframe : Message.modelValidate u w.now body = some m)
    (hrun : machine.complete i (ProviderConsumerWorker.handle body).run (.uuid u :: cs) w =
      some (r, w')) :
    TouchesOnly m.ticketId m.subject? w.db w'.db (w'.log.actions i) ↔
      (CarriedOut i m w.db ((machine.firstFault Effect.fault i
        (ProviderConsumerWorker.handle body).run (.uuid u :: cs) w).map (·.log.actions i)) →
        m.ticketId = m.subject?) := by
  obtain ⟨cs', hrun', hsame⟩ := complete_handle hframe hrun
  have hkeyed : w.db.Keyed := hinv.db_eq ▸ w.log.keyed_database
  have hidle : ∀ ws, .committed i ws ∉ w.log.actions i := by
    intro ws hmem
    obtain ⟨q, n, d, heq⟩ := hreceived _ hmem
    cases heq
  have halone := Alone.handleValidated (v := w.solo i none) hkeyed hfresh rfl hidle w none hinv rfl
    cs' r w' hrun'
  rw [← hsame] at halone
  have hhandled : Handled i m (w.solo i none) (w'.solo i (machine.firstFault Effect.fault i
      (ProviderConsumerWorker.handle body).run (.uuid u :: cs) w)) := by
    cases r with
    | ok a => exact halone.2
    | error x => exact halone.2
  exact hhandled.touchesOnly_iff hreceived

end General

open Script in
/-- The envelope of `sampleDelivery` names the payload's ticket. -/
theorem handle_touches_only_named : ∃ w' : World, w'.status? 1 = some .settled ∧
    TouchesOnly (some 1) (some 1) createdWorld.db w'.db (w'.log.actions 1) := by
  obtain ⟨r, w', hrun, hstatus⟩ := exists_handled sampleDelivery
    ([.uuid 0] ++ ok 17 ++ [.uuid 20, .succeed, .uuid 21] ++ ok 5)
    (fun rw => rw.2.status? 1 = some .settled) (by decide +kernel)
  have hsubject : (recommendation 10 1 .accept).subject? = some 1 := by decide +kernel
  have hnamed := (handle_touches_only_iff isolated_createdWorld rfl
    (fun _ he => absurd he List.not_mem_nil) (Message.modelValidate_modelDump _ _ _) hrun).mpr
    fun _ => hsubject.symm
  rw [hsubject] at hnamed
  exact ⟨w', of_decide_eq_true hstatus, hnamed⟩

/-- A frame whose envelope names ticket 2, and whose payload recommends ticket 1. -/
def misdirected : Message := { recommendation 10 1 .accept with ticketId := some 2 }

open Script in
/-- The consumer settles ticket 1. -/
theorem handle_settles_another : ∃ cs r w',
    machine.complete 1 (ProviderConsumerWorker.handle misdirected.modelDump).run cs createdWorld =
      some (r, w') ∧ w'.status? 1 = some .settled ∧
      ¬ TouchesOnly misdirected.ticketId misdirected.subject? createdWorld.db w'.db
        (w'.log.actions 1) := by
  obtain ⟨r, w', hrun, hstatus⟩ := exists_handled misdirected.modelDump
    ([.uuid 0] ++ ok 17 ++ [.uuid 20, .succeed, .uuid 21] ++ ok 5)
    (fun rw => rw.2.status? 1 = some .settled) (by decide +kernel)
  have hsettled : w'.status? 1 = some .settled := of_decide_eq_true hstatus
  refine ⟨_, r, w', hrun, hsettled, fun htouches => ?_⟩
  have hsame := htouches.tickets 1 (by decide)
  rw [World.status?, hsame] at hsettled
  cases hsettled

end RiskProvider

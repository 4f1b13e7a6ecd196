import RiskProvider.Executions
import RiskProvider.Relay.Events

/-!
# Frames are conserved

An event that has been published has a copy at the broker until the gateway acknowledges it. The
gateway does so after every answer of the provider, also after an error, for which
`_handle_message_rejection` does nothing. When the provider answers no frame with an error
(`NeverRejects`), the copies that are acknowledged have been accepted, and no frame vanishes
(`frames_conserved`); `frame_vanished` is a run in which one does.
-/

namespace RiskProvider

open Interleaving

/-! ### Copies at the broker -/

namespace Broker

variable {b : Broker} {q : Queue} {d : Delivery} {i : ℕ}

theorem dlq_setQueue (q : Queue) (ds : List Delivery) : (b.setQueue q ds).dlq = b.dlq := by
  cases q <;> rfl

theorem Carries.publish (h : b.Carries q d) (key : String) (d' : Delivery) :
    (b.publish key d').Carries q d := by
  unfold Broker.publish
  split
  next q' hkey =>
    rcases h with h | ⟨i, h⟩
    · left
      by_cases hq : q = q'
      · subst hq
        rw [queue_setQueue_self]
        exact List.mem_append_left _ h
      · rwa [queue_setQueue_ne _ _ hq]
    · exact .inr ⟨i, by simpa using h⟩
  · exact h

theorem carries_publish {key : String} (hkey : Queue.ofRoutingKey? key = some q) :
    (b.publish key d).Carries q d := by
  left
  simp [Broker.publish, hkey]

/-- A handler that has no delivery takes one over from its queue. -/
theorem Carries.receive (h : b.Carries q d) {q' : Queue} {n : ℕ} {d' : Delivery}
    (hidle : b.unacked i = none) (hqueue : (b.queue q')[n]? = some d') :
    (b.receive i q' n d').Carries q d := by
  rcases h with h | ⟨j, h⟩
  · by_cases hq : q = q'
    · subst hq
      obtain ⟨k, hk⟩ := List.mem_iff_getElem?.mp h
      by_cases hn : k = n
      · subst hn
        rw [hk, Option.some.injEq] at hqueue
        subst hqueue
        exact .inr ⟨i, unacked_receive_self b q k d⟩
      · left
        have hmem : d ∈ (b.queue q).eraseIdx n := List.mem_eraseIdx_iff_getElem?.mpr ⟨k, hn, hk⟩
        cases q <;> exact hmem
    · left
      have hmem : d ∈ (b.setQueue q' ((b.queue q').eraseIdx n)).queue q := by
        rwa [queue_setQueue_ne _ _ hq]
      cases q <;> exact hmem
  · right
    refine ⟨j, ?_⟩
    rw [unacked_receive_ne b q' n d' (fun hj => by
      rw [hj, hidle] at h
      cases h), h]

/-- Only the delivery that is acknowledged goes. -/
theorem Carries.ack (h : b.Carries q d) (hne : b.unacked i ≠ some (q, d)) :
    (b.ack i).Carries q d := by
  rcases h with h | ⟨j, h⟩
  · exact .inl (by simpa using h)
  · have hj : j ≠ i := fun hj => hne (by rw [← hj, h])
    exact .inr ⟨j, by rw [unacked_ack_ne b hj, h]⟩

/-- The broker has a copy of a message that was published on a queue: it waits or is being
handled, or it is in the dead-letter queue. -/
def Holds (b : Broker) (q : Queue) (id : UUID) (body : Dict) : Prop :=
  ∃ d : Delivery, d.messageId = id ∧ d.body = body ∧ (b.Carries q d ∨ d ∈ b.dlq)

variable {id : UUID} {body : Dict}

theorem Holds.publish (h : b.Holds q id body) (key : String) (d : Delivery) :
    (b.publish key d).Holds q id body := by
  obtain ⟨d', hid, hbody, hd'⟩ := h
  refine ⟨d', hid, hbody, hd'.imp (·.publish key d) fun hdlq => ?_⟩
  unfold Broker.publish
  split
  · rwa [dlq_setQueue]
  · exact hdlq

theorem Holds.receive (h : b.Holds q id body) {q' : Queue} {n : ℕ} (hidle : b.unacked i = none)
    (hqueue : (b.queue q')[n]? = some d) : (b.receive i q' n d).Holds q id body := by
  obtain ⟨d', hid, hbody, hd'⟩ := h
  refine ⟨d', hid, hbody, hd'.imp (·.receive hidle hqueue) fun hdlq => ?_⟩
  exact (dlq_setQueue q' _).symm ▸ hdlq

theorem Holds.ack (h : b.Holds q id body) : (b.ack i).Holds q id body ∨
    ∃ d, b.unacked i = some (q, d) ∧ d.messageId = id ∧ d.body = body := by
  obtain ⟨d, hid, hbody, hd⟩ := h
  by_cases hunacked : b.unacked i = some (q, d)
  · exact .inr ⟨d, hunacked, hid, hbody⟩
  · exact .inl ⟨d, hid, hbody, hd.imp_left (·.ack hunacked)⟩

/-- A delivery that is returned waits again, or is in the dead-letter queue. -/
theorem Holds.nack (h : b.Holds q id body) : (b.nack i).Holds q id body := by
  unfold Broker.nack
  split
  · exact h
  next q' d' hunacked =>
    split
    · rcases h.ack (i := i) with ⟨d, hid, hbody, hd⟩ | ⟨d, hd, hid, hbody⟩
      · refine ⟨d, hid, hbody, hd.imp (fun hd => ?_) (List.mem_append_left _)⟩
        cases q <;> exact hd
      · obtain ⟨rfl, rfl⟩ : q' = q ∧ d' = d := by simpa [hunacked] using hd
        exact ⟨{ d' with returns := d'.returns + 1 }, hid, hbody,
          .inr (List.mem_append_right _ (List.mem_singleton_self _))⟩
    · rcases h.ack (i := i) with ⟨d, hid, hbody, hd⟩ | ⟨d, hd, hid, hbody⟩
      · refine ⟨d, hid, hbody, ?_⟩
        rw [dlq_setQueue]
        refine hd.imp_left fun hd => ?_
        rcases hd with hd | ⟨j, hd⟩
        · left
          by_cases hq : q = q'
          · subst hq
            rw [queue_setQueue_self]
            exact List.mem_append_left _ (queue_ack b (i := i) ▸ hd)
          · rwa [queue_setQueue_ne _ _ hq]
        · exact .inr ⟨j, by rwa [unacked_setQueue]⟩
      · obtain ⟨rfl, rfl⟩ : q' = q ∧ d' = d := by simpa [hunacked] using hd
        refine ⟨{ d' with returns := d'.returns + 1 }, hid, hbody, .inl (.inl ?_)⟩
        rw [queue_setQueue_self]
        exact List.mem_append_right _ (List.mem_singleton_self _)

end Broker

/-! ### Copies of an event -/

section General

variable [Codecs] {C : History → Entry → Prop} {l : History} {i : ℕ} {q : Queue} {d : Delivery}
  {id : UUID} {body : Dict}

/-- A handler has received its delivery first of all. -/
theorem Conforms.received_of_unacked (h : Conforms C l)
    (hunacked : l.broker.unacked i = some (q, d)) : ∃ n, [.received i q n d] <:+ l.actions i := by
  induction h with
  | nil => cases hunacked
  | @cons l e h hpermitted he ih =>
      have hold : l.broker.unacked i = some (q, d) →
          ∃ n, [.received i q n d] <:+ History.actions i (e :: l) := fun hunacked =>
        (ih hunacked).imp fun n hn => hn.trans (History.actions_suffix (List.suffix_cons _ _))
      by_cases hi : e.thread = i
      · cases e with
        | received j q' n d' =>
            obtain rfl : j = i := hi
            rw [History.broker_cons, Broker.after, Broker.unacked_receive_self] at hunacked
            cases hunacked
            cases hpermitted with
            | received hacts =>
                have haction : History.actionOf j (.received j q n d) = true := by
                  simp [History.actionOf, Entry.thread, Entry.isAction]
                have hactions : History.actions j (.received j q n d :: l) =
                    [.received j q n d] := by
                  rw [History.actions, List.filter_cons_of_pos haction, ← History.actions, hacts]
                exact ⟨n, hactions ▸ List.suffix_refl _⟩
        | acked j =>
            obtain rfl : j = i := hi
            rw [History.broker_cons, Broker.after, Broker.unacked_ack_self] at hunacked
            cases hunacked
        | returned j =>
            obtain rfl : j = i := hi
            rw [History.broker_cons, Broker.after, Broker.unacked_nack_self] at hunacked
            cases hunacked
        | published j key id body ok =>
            refine hold ?_
            cases ok <;> simpa [Broker.after] using hunacked
        | _ => exact hold hunacked
      · exact hold (World.unacked_after hi ▸ hunacked)

/-- The provider has accepted the frame of an event: a handler has received it, and its send was
answered without an error. -/
def History.Accepted (l : History) (id : UUID) (body : Dict) : Prop :=
  ∃ i n d m, d.messageId = id ∧ d.body = body ∧ Decodes body m ∧
    [.sent i m .ok, .received i .providerOut n d] <:+ l.actions i

theorem History.Accepted.cons (h : l.Accepted id body) (e : Entry) :
    History.Accepted (e :: l) id body := by
  obtain ⟨i, n, d, m, hid, hbody, hdecodes, hacts⟩ := h
  exact ⟨i, n, d, m, hid, hbody, hdecodes,
    hacts.trans (History.actions_suffix (List.suffix_cons _ _))⟩

/-- The provider answers no frame with an error. -/
def NeverRejects (_ : History) : Entry → Prop
  | .sent _ _ (.rejected _) => False
  | _ => True

instance (l : History) (e : Entry) : Decidable (NeverRejects l e) := by
  unfold NeverRejects
  split <;> infer_instance

omit [Codecs] in
theorem NeverRejects.allowsReads : System.AllowsReads NeverRejects where
  loaded _ _ _ := trivial
  read _ e he := by
    cases e <;> trivial

/-- The gateway acknowledges a delivery only when the provider has accepted it. -/
theorem Conforms.accepted_of_acked (h : Conforms NeverRejects l) (hpermitted : Permitted l (.acked i))
    (hunacked : l.broker.unacked i = some (.providerOut, d)) : l.Accepted d.messageId d.body := by
  cases hpermitted with
  | ackedIn hunacked' =>
      rw [hunacked] at hunacked'
      cases hunacked'
  | @ackedOut _ d' m outcome hunacked' hdecodes hsent houtcome =>
      obtain rfl : d = d' := by simpa [hunacked] using hunacked'
      obtain ⟨l', hsuffix⟩ := exists_suffix_of_mem (History.mem_of_mem_actions hsent)
      obtain ⟨hsend, hnever⟩ := h.of_suffix hsuffix
      obtain rfl : outcome = .ok := by
        cases outcome with
        | ok => rfl
        | rejected code => exact hnever.elim
        | transportError => exact absurd rfl houtcome
      cases hsend with
      | @send _ n d' _ _ hacts hdecodes' =>
          have hacts' : [.sent i m .ok, .received i .providerOut n d'] <:+ l.actions i := by
            have hle := History.actions_suffix (i := i) hsuffix
            rwa [History.actions, List.filter_cons_of_pos (by
              simp [History.actionOf, Entry.thread, Entry.isAction]), ← History.actions, hacts]
              at hle
          -- the delivery sent is the one that the handler has received
          obtain ⟨n', hreceived⟩ := h.received_of_unacked hunacked
          have heq := (List.suffix_of_suffix_length_le hreceived
            ((List.suffix_cons _ _).trans hacts') (by simp)).eq_of_length (by simp)
          cases heq
          exact ⟨i, n, d, m, rfl, rfl, hdecodes, hacts'⟩

/-- A permitted entry loses no copy of a frame that has not been accepted. -/
theorem Conforms.holds_kept (h : Conforms NeverRejects l) {e : Entry} (hpermitted : Permitted l e)
    (hholds : l.broker.Holds .providerOut id body) :
    (History.broker (e :: l)).Holds .providerOut id body ∨ History.Accepted (e :: l) id body := by
  cases e with
  | received i q n d =>
      cases hpermitted with
      | received hacts hqueue =>
          left
          refine hholds.receive ?_ hqueue
          cases hunacked : l.broker.unacked i with
          | none => rfl
          | some x =>
              obtain ⟨n, hn⟩ := h.received_of_unacked hunacked
              rw [hacts] at hn
              cases List.suffix_nil.mp hn
  | acked i =>
      rcases hholds.ack (i := i) with hholds | ⟨d, hunacked, rfl, rfl⟩
      · exact .inl hholds
      · exact .inr ((h.accepted_of_acked hpermitted hunacked).cons _)
  | returned i => exact .inl hholds.nack
  | published i key id' body' ok =>
      left
      cases ok with
      | true => exact hholds.publish key _
      | false => exact hholds
  | _ => exact .inl hholds

/-- A frame that has been published on `provider.out` is at the broker until it is accepted. -/
theorem Conforms.holds_of_published (h : Conforms NeverRejects l) {key : String}
    (hkey : Queue.ofRoutingKey? key = some .providerOut)
    (hpublished : .published i key id body true ∈ l) :
    l.broker.Holds .providerOut id body ∨ l.Accepted id body := by
  induction h with
  | nil => cases hpublished
  | @cons l e h hpermitted he ih =>
      rcases List.mem_cons.mp hpublished with rfl | hpublished
      · exact .inl ⟨_, rfl, rfl, .inl (Broker.carries_publish hkey)⟩
      · rcases ih hpublished with hholds | haccepted
        · exact h.holds_kept hpermitted hholds
        · exact .inr (haccepted.cons e)

/-- In every run in which the provider answers no frame with an error, every committed event is
pending or failed, or the broker has a copy of it, or the provider has accepted it. -/
theorem frames_conserved {s : System}
    (hs : machine.Reaches (System.Meets NeverRejects) System.initial s) {row : OutboxEvent}
    (hrow : s.world.db.outbox.lookup id = some row) :
    row.status = .pending ∨ row.status = .failed ∨
      s.world.broker.Holds .providerOut id row.payload ∨ s.world.log.Accepted id row.payload := by
  have hl := System.conforms NeverRejects.allowsReads hs
  rw [(System.isolated hs.run).db_eq] at hrow
  rw [(System.isolated hs.run).broker_eq]
  cases hstatus : row.status with
  | pending => exact .inl rfl
  | failed => exact .inr (.inl rfl)
  | published =>
      obtain ⟨⟨i, hpublished⟩, -⟩ := ((hl.accounted id).2 row hrow).published hstatus
      obtain rfl : row.id = id := s.world.log.keyed_database.outbox _ _ hrow
      have hkey : Queue.ofRoutingKey? row.routingKey = some .providerOut := by
        rw [hl.routingKey_of_lookup hrow]
        decide
      exact .inr (.inr (hl.holds_of_published hkey hpublished))

end General

open Script in
/-- Event 3 is published, and its frame is answered by the provider under choice `c`. -/
def answeredRun (c : Choice) : List (Label Choice Invocation ℕ) :=
  [.start (.createTicket "k" sampleRequest)] ++ runs 0 (create 1 2 3) ++
  [.start (.sendBatch 10)] ++ runs 1 (relay [3]) ++
  [.start .sendToProvider] ++ runs 2 (deliver 0 ++ [c])

/-- The send of event 3 fails on the way: the broker has a copy. -/
theorem frames_conserved_transportError : ∃ (s : System) (row : OutboxEvent),
    machine.Reaches (System.Meets NeverRejects) System.initial s ∧
      s.world.db.outbox.lookup 3 = some row ∧ row.status = .published ∧
      (row.status = .pending ∨ row.status = .failed ∨
        s.world.broker.Holds .providerOut 3 row.payload ∨ s.world.log.Accepted 3 row.payload) := by
  obtain ⟨s, hs, hst⟩ := System.exists_reaches (s := System.initial) NeverRejects
    (answeredRun (.raises "connection lost"))
    (fun s => (s.world.db.outbox.lookup 3).any fun row => row.status = .published)
    (by decide +kernel)
  simp only [Option.any_eq_true, decide_eq_true_eq] at hst
  obtain ⟨row, hrow, hstatus⟩ := hst
  exact ⟨s, row, hs, hrow, hstatus, frames_conserved hs hrow⟩

/-- The provider has accepted a frame. -/
def Entry.isAccepted : Entry → Bool
  | .sent _ _ .ok => true
  | _ => false

/-- The provider answers the frame of event 3 with an error: the handler acknowledges its
delivery, and the frame is nowhere any more. -/
theorem frame_vanished : ∃ (s : System) (row : OutboxEvent), s.Reachable ∧
    s.world.db.outbox.lookup 3 = some row ∧ row.status = .published ∧
    ¬ s.world.broker.Holds .providerOut 3 row.payload ∧
    ¬ s.world.log.Accepted 3 row.payload := by
  obtain ⟨s, hs, htest⟩ := System.exists_reaches (s := System.initial) anyEntry
    (answeredRun (.rejects .providerBusy) ++ runs 2 (Script.ok 1))
    (fun s => ((s.world.db.outbox.lookup 3).any fun row => row.status = .published) &&
      s.world.broker.providerOut.isEmpty && s.world.broker.dlq.isEmpty &&
      s.world.log.all fun e => (s.world.broker.unacked e.thread).isNone && !e.isAccepted)
      (by decide +kernel)
  simp only [Bool.and_eq_true, Option.any_eq_true, decide_eq_true_eq, List.isEmpty_iff,
    List.all_eq_true] at htest
  obtain ⟨⟨⟨⟨row, hrow, hstatus⟩, hqueue⟩, hdlq⟩, hall⟩ := htest
  refine ⟨s, row, hs.run, hrow, hstatus, ?_, ?_⟩
  · rintro ⟨d, -, -, (hd | ⟨i, hd⟩) | hd⟩
    · rw [Broker.queue, hqueue] at hd
      cases hd
    · -- a handler with a delivery is the thread of an entry
      rw [(System.isolated hs.run).broker_eq] at hd
      obtain ⟨n, hn⟩ := (System.Reachable.conforms hs.run).received_of_unacked hd
      have hmem := History.mem_of_mem_actions (hn.subset (List.mem_singleton_self _))
      rw [← (System.isolated hs.run).broker_eq] at hd
      have hnone := (hall _ hmem).1
      rw [Entry.thread, hd] at hnone
      cases hnone
    · rw [hdlq] at hd
      cases hd
  · rintro ⟨i, n, d, m, -, -, -, hacts⟩
    have hmem := History.mem_of_mem_actions (hacts.subset List.mem_cons_self)
    have hsent := (hall _ hmem).2
    cases hsent

end RiskProvider

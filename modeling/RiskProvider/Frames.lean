import RiskProvider.Lifecycle.Changes

/-!
# Where frames come from

Every delivery of a queue was published (`Conforms.published_of_carries`), and what is
published on `provider.out` is the payload of an outbox event that a commit has inserted
(`Conforms.emitted_of_received`). `Emits` lists what such a commit does besides: it creates the
ticket, settles it, or requests its cancellation.
-/

namespace RiskProvider

/-! ### Entries of a history -/

theorem exists_suffix_of_mem {l : History} {e : Entry} (h : e ∈ l) :
    ∃ l' : History, (e :: l') <:+ l := by
  obtain ⟨l₁, l', rfl⟩ := List.append_of_mem h
  exact ⟨l', List.suffix_append l₁ _⟩

namespace History

variable {l l' : History} {i : ℕ} {e : Entry}

theorem mem_actions : e ∈ l.actions i ↔ e ∈ l ∧ e.thread = i ∧ e.isAction = true := by
  simp [actions, actionOf]

theorem thread_of_actionOf (h : actionOf i e = true) : e.thread = i := by
  have hthread : e.thread = i ∧ e.isAction = true := by simpa [actionOf] using h
  exact hthread.1

theorem mem_of_mem_actions (h : e ∈ l.actions i) : e ∈ l := (mem_actions.mp h).1

theorem actions_suffix (h : l' <:+ l) : l'.actions i <:+ l.actions i := h.filter _

/-- The last action of a thread, with what the thread has done before. -/
theorem suffix_of_actions {acts : History} (h : l.actions i = e :: acts) :
    ∃ l' : History, (e :: l') <:+ l ∧ l'.actions i = acts := by
  induction l with
  | nil => simp [actions] at h
  | cons e' l ih =>
      by_cases he : actionOf i e'
      · rw [actions, List.filter_cons_of_pos he] at h
        obtain ⟨rfl, rfl⟩ := List.cons.inj h
        exact ⟨l, List.suffix_refl _, rfl⟩
      · rw [actions, List.filter_cons_of_neg he] at h
        obtain ⟨l', hsuffix, hacts⟩ := ih h
        exact ⟨l', hsuffix.trans (List.suffix_cons _ _), hacts⟩

theorem actions_eq_filter_focus (l : History) (i : ℕ) (ticketId : UUID) :
    l.actions i = (l.focus i ticketId).filter (actionOf i) := by
  rw [actions, focus, List.filter_filter]
  congr 1
  funext e
  cases actionOf i e <;> simp

/-- What comes last of a thread's actions and the commits to a ticket, if it is an action, comes
last of the actions. -/
theorem actions_of_focus {ticketId : UUID} (h : (l.focus i ticketId).head? = some e)
    (he : actionOf i e = true) : ∃ acts, l.actions i = e :: acts := by
  obtain ⟨f, hf⟩ := List.head?_eq_some_iff.mp h
  exact ⟨f.filter (actionOf i), by
    rw [actions_eq_filter_focus l i ticketId, hf, List.filter_cons_of_pos he]⟩

end History

/-! ### Deliveries were published -/

namespace Broker

/-- A delivery waits in a queue or is being handled. -/
def Carries (b : Broker) (q : Queue) (d : Delivery) : Prop :=
  d ∈ b.queue q ∨ ∃ i, b.unacked i = some (q, d)

variable {b : Broker} {q : Queue} {d : Delivery} {i : ℕ}

theorem Carries.of_publish {key : String} {d' : Delivery} (h : (b.publish key d').Carries q d) :
    b.Carries q d ∨ Queue.ofRoutingKey? key = some q ∧ d = d' := by
  unfold publish at h
  split at h
  next q' hkey =>
    rcases h with h | ⟨i, h⟩
    · by_cases hq : q = q'
      · subst hq
        rw [queue_setQueue_self] at h
        rcases List.mem_append.mp h with h | h
        · exact .inl (.inl h)
        · exact .inr ⟨hkey, List.mem_singleton.mp h⟩
      · exact .inl (.inl (queue_setQueue_ne b _ hq ▸ h))
    · exact .inl (.inr ⟨i, by simpa using h⟩)
  · exact .inl h

theorem Carries.of_receive {q' : Queue} {n : ℕ} {d' : Delivery} (hqueue : (b.queue q')[n]? = some d')
    (h : (b.receive i q' n d').Carries q d) : b.Carries q d := by
  rcases h with h | ⟨j, h⟩
  · have h : d ∈ (b.setQueue q' ((b.queue q').eraseIdx n)).queue q := by
      cases q <;> exact h
    by_cases hq : q = q'
    · subst hq
      rw [queue_setQueue_self] at h
      exact .inl (List.mem_of_mem_eraseIdx h)
    · exact .inl (queue_setQueue_ne b _ hq ▸ h)
  · by_cases hj : j = i
    · subst hj
      obtain ⟨rfl, rfl⟩ : q' = q ∧ d' = d := by simpa using h
      exact .inl (List.mem_of_getElem? hqueue)
    · exact .inr ⟨j, unacked_receive_ne b q' n d' hj ▸ h⟩

theorem Carries.of_ack (h : (b.ack i).Carries q d) : b.Carries q d := by
  rcases h with h | ⟨j, h⟩
  · exact .inl (by simpa using h)
  · by_cases hj : j = i
    · subst hj
      simp at h
    · exact .inr ⟨j, unacked_ack_ne b hj ▸ h⟩

/-- A delivery that is returned keeps its identifier and its body. -/
theorem Carries.of_nack (h : (b.nack i).Carries q d) :
    ∃ d', b.Carries q d' ∧ d'.messageId = d.messageId ∧ d'.body = d.body := by
  unfold nack at h
  split at h
  · exact ⟨d, h, rfl, rfl⟩
  next q' d' hunacked =>
    split at h
    · have h : (b.ack i).Carries q d := by
        cases q <;> exact h
      exact ⟨d, h.of_ack, rfl, rfl⟩
    · rcases h with h | ⟨j, h⟩
      · by_cases hq : q = q'
        · subst hq
          rw [queue_setQueue_self] at h
          rcases List.mem_append.mp h with h | h
          · exact ⟨d, .inl h, rfl, rfl⟩
          · obtain rfl := List.mem_singleton.mp h
            exact ⟨d', .inr ⟨i, hunacked⟩, rfl, rfl⟩
        · rw [queue_setQueue_ne _ _ hq, queue_ack] at h
          exact ⟨d, .inl h, rfl, rfl⟩
      · rw [unacked_setQueue] at h
        exact ⟨d, Carries.of_ack (.inr ⟨j, h⟩), rfl, rfl⟩

end Broker

namespace Conforms

variable [Codecs] {C : History → Entry → Prop} {l : History}

/-- Every delivery was published under a key of its queue. -/
theorem published_of_carries (h : Conforms C l) {q : Queue} {d : Delivery}
    (hd : l.broker.Carries q d) : ∃ i key, Queue.ofRoutingKey? key = some q ∧
      .published i key d.messageId d.body true ∈ l := by
  induction h generalizing d with
  | nil => rcases hd with hd | ⟨i, hd⟩ <;> cases q <;> simp [History.broker, Broker.queue] at hd
  | @cons l e h hpermitted he ih =>
      have hold : ∀ d', l.broker.Carries q d' → d'.messageId = d.messageId → d'.body = d.body →
          ∃ i key, Queue.ofRoutingKey? key = some q ∧
            .published i key d.messageId d.body true ∈ e :: l := by
        intro d' hd' hid hbody
        obtain ⟨i, key, hkey, hmem⟩ := ih hd'
        exact ⟨i, key, hkey, List.mem_cons_of_mem _ (hid ▸ hbody ▸ hmem)⟩
      cases hpermitted with
      | received hacts hqueue => exact hold d (hd.of_receive hqueue) rfl rfl
      | ackedIn | ackedOut => exact hold d hd.of_ack rfl rfl
      | returned =>
          obtain ⟨d', hd', hid, hbody⟩ := Broker.Carries.of_nack hd
          exact hold d' hd' hid hbody
      | @publishEvent i row ok _ _ _ _ =>
          cases ok with
          | false => exact hold d hd rfl rfl
          | true =>
              rcases Broker.Carries.of_publish hd with hd | ⟨hkey, rfl⟩
              · exact hold d hd rfl rfl
              · exact ⟨_, _, hkey, List.mem_cons_self⟩
      | @publishFrame i ok m =>
          cases ok with
          | false => exact hold d hd rfl rfl
          | true =>
              rcases Broker.Carries.of_publish hd with hd | ⟨hkey, rfl⟩
              · exact hold d hd rfl rfl
              · exact ⟨_, _, hkey, List.mem_cons_self⟩
      | _ => exact hold d hd rfl rfl

end Conforms

/-! ### Events were inserted -/

/-- The row is about the same event: updates change only what the relay reports. -/
structure OutboxEvent.Same (row row' : OutboxEvent) : Prop where
  id : row'.id = row.id
  entityId : row'.entityId = row.entityId
  createdAt : row'.createdAt = row.createdAt
  routingKey : row'.routingKey = row.routingKey
  payload : row'.payload = row.payload

theorem OutboxEvent.Same.refl (row : OutboxEvent) : row.Same row := ⟨rfl, rfl, rfl, rfl, rfl⟩

theorem OutboxEvent.Same.trans {r₁ r₂ r₃ : OutboxEvent} (h : r₁.Same r₂) (h' : r₂.Same r₃) :
    r₁.Same r₃ :=
  ⟨h'.id.trans h.id, h'.entityId.trans h.entityId, h'.createdAt.trans h.createdAt,
    h'.routingKey.trans h.routingKey, h'.payload.trans h.payload⟩

namespace Database

variable {db : Database} {id : UUID} {row : OutboxEvent}

private theorem same_of_modify {t : Table OutboxEvent} {k : UUID} {f : OutboxEvent → OutboxEvent}
    (hf : ∀ r : OutboxEvent, r.Same (f r)) (h : (t.modify k f).lookup id = some row) :
    ∃ row₀, t.lookup id = some row₀ ∧ row₀.Same row := by
  by_cases hid : id = k
  · subst hid
    rw [Table.lookup_modify_self, Option.map_eq_some_iff] at h
    obtain ⟨row₀, hrow₀, rfl⟩ := h
    exact ⟨row₀, hrow₀, hf row₀⟩
  · rw [Table.lookup_modify_ne _ _ hid] at h
    exact ⟨row, h, .refl row⟩

/-- A row of the outbox after a write was there before, or is inserted. -/
theorem outbox_of_write {wr : Write} (h : (db.write wr).outbox.lookup id = some row) :
    (∃ row₀, db.outbox.lookup id = some row₀ ∧ row₀.Same row) ∨ wr = .insertEvent row := by
  cases wr with
  | insertEvent r =>
      by_cases hid : id = r.id
      · subst hid
        simp only [write, AList.lookup_insert, Option.some.injEq] at h
        exact .inr (h ▸ rfl)
      · simp only [write, AList.lookup_insert_ne hid] at h
        exact .inl ⟨row, h, .refl row⟩
  | markPublished ids publishedAt now =>
      left
      simp only [write] at h
      generalize db.outbox = t at h
      induction ids generalizing t with
      | nil => exact ⟨row, h, .refl row⟩
      | cons k ids ih =>
          obtain ⟨row₁, hrow₁, hsame₁⟩ := ih _ h
          obtain ⟨row₀, hrow₀, hsame₀⟩ :=
            same_of_modify (fun _ => by exact ⟨rfl, rfl, rfl, rfl, rfl⟩) hrow₁
          exact ⟨row₀, hrow₀, hsame₀.trans hsame₁⟩
  | markFailed k error now => exact .inl (same_of_modify (fun _ => by exact ⟨rfl, rfl, rfl, rfl, rfl⟩) h)
  | _ => exact .inl ⟨row, h, .refl row⟩

theorem outbox_of_writeAll {ws : List Write} (h : (db.writeAll ws).outbox.lookup id = some row) :
    (∃ row₀, db.outbox.lookup id = some row₀ ∧ row₀.Same row) ∨
      ∃ row₀, .insertEvent row₀ ∈ ws ∧ row₀.Same row := by
  induction ws generalizing db with
  | nil => exact .inl ⟨row, h, .refl row⟩
  | cons wr ws ih =>
      rcases ih h with ⟨row₁, hrow₁, hsame₁⟩ | ⟨row₁, hmem, hsame⟩
      · rcases outbox_of_write hrow₁ with ⟨row₀, hrow₀, hsame₀⟩ | rfl
        · exact .inl ⟨row₀, hrow₀, hsame₀.trans hsame₁⟩
        · exact .inr ⟨row₁, List.mem_cons_self, hsame₁⟩
      · exact .inr ⟨row₁, List.mem_cons_of_mem _ hmem, hsame⟩

end Database

/-- Every event of the outbox was inserted by a commit. -/
theorem History.inserted_of_lookup {l : History} {id : UUID} {row : OutboxEvent}
    (h : l.database.outbox.lookup id = some row) :
    ∃ i ws, ∃ l' : History, ∃ row₀, (.committed i ws :: l') <:+ l ∧ .insertEvent row₀ ∈ ws ∧
      row₀.Same row := by
  induction l generalizing row with
  | nil => cases h
  | cons e l ih =>
      have hold : ∀ row₀ : OutboxEvent, (History.database l).outbox.lookup id = some row₀ →
          row₀.Same row →
          ∃ i ws, ∃ l' : History, ∃ row₀, (.committed i ws :: l') <:+ e :: l ∧
            .insertEvent row₀ ∈ ws ∧ row₀.Same row := by
        intro row₀ hrow₀ hsame
        obtain ⟨i, ws, l', row₁, hsuffix, hmem, hsame₁⟩ := ih hrow₀
        exact ⟨i, ws, l', row₁, hsuffix.trans (List.suffix_cons _ _), hmem, hsame₁.trans hsame⟩
      cases e with
      | committed i ws =>
          rcases Database.outbox_of_writeAll h with ⟨row₀, hrow₀, hsame⟩ | ⟨row₀, hmem, hsame⟩
          · exact hold row₀ hrow₀ hsame
          · exact ⟨i, ws, l, row₀, List.suffix_refl _, hmem, hsame⟩
      | _ => exact hold row h (.refl row)

/-! ### The frames of the outbox -/

/-- The event that a write inserts. -/
def Write.event? : Write → Option OutboxEvent
  | insertEvent row => some row
  | _ => none

theorem events_rewrite {row row' : Ticket} {began : Time} :
    (rewrite row row' began).filterMap Write.event? = [] := by
  refine List.filterMap_eq_nil_iff.mpr fun wr hwr => ?_
  rw [mem_rewrite hwr]
  rfl

theorem events_relayWrites {published : List UUID} {failed : List (UUID × String)}
    {publishedAt began : Time} :
    (relayWrites published failed publishedAt began).filterMap Write.event? = [] := by
  refine List.filterMap_eq_nil_iff.mpr fun wr hwr => ?_
  rcases List.mem_append.mp hwr with hwr | hwr
  · split at hwr
    · cases hwr
    · rw [List.mem_singleton.mp hwr]
      rfl
  · obtain ⟨f, -, rfl⟩ := List.mem_map.mp hwr
    rfl

/-- The ticket and the frame of each event. -/
def Database.frames (db : Database) (id : UUID) : Option (UUID × Dict) :=
  (db.outbox.lookup id).map fun e => (e.entityId, e.payload)

namespace Database

variable {db : Database} {ws : List Write}

private theorem frames_modify {t : Table OutboxEvent} {k id : UUID} {f : OutboxEvent → OutboxEvent}
    (hf : ∀ e, (f e).entityId = e.entityId ∧ (f e).payload = e.payload) :
    ((t.modify k f).lookup id).map (fun e => (e.entityId, e.payload)) =
      (t.lookup id).map fun e => (e.entityId, e.payload) := by
  by_cases hid : id = k
  · subst hid
    rw [Table.lookup_modify_self, Option.map_map]
    congr 1
    funext e
    simp [hf e]
  · rw [Table.lookup_modify_ne _ _ hid]

theorem frames_write {wr : Write} (h : wr.event? = none) : (db.write wr).frames = db.frames := by
  funext id
  cases wr with
  | insertEvent row => cases h
  | markPublished ids publishedAt now =>
      simp only [frames, write]
      clear h
      generalize db.outbox = t
      induction ids generalizing t with
      | nil => rfl
      | cons k ids ih =>
          rw [List.foldl_cons, ih]
          exact frames_modify fun e => ⟨rfl, rfl⟩
  | markFailed k error now => exact frames_modify fun e => ⟨rfl, rfl⟩
  | _ => rfl

theorem frames_writeAll (h : ws.filterMap Write.event? = []) :
    (db.writeAll ws).frames = db.frames := by
  induction ws generalizing db with
  | nil => rfl
  | cons wr ws ih =>
      have hnone := List.filterMap_eq_nil_iff.mp h
      rw [writeAll_cons, ih (List.filterMap_eq_nil_iff.mpr fun wr' hwr' =>
        hnone wr' (List.mem_cons_of_mem _ hwr')), frames_write (hnone wr List.mem_cons_self)]

/-- The frames after writes that insert one event last. -/
theorem frames_insertEvent (h : ws.filterMap Write.event? = []) (row : OutboxEvent) :
    (db.writeAll (ws ++ [.insertEvent row])).frames =
      Function.update db.frames row.id (some (row.entityId, row.payload)) := by
  have hbefore : (db.writeAll ws).frames = db.frames := frames_writeAll h
  rw [← hbefore, writeAll_append]
  funext id
  by_cases hid : id = row.id
  · subst hid
    simp [frames, write]
  · simp [frames, write, hid, AList.lookup_insert_ne hid]

end Database

/-! ### Commits that emit frames -/

/-- What a commit of thread `i` that inserts the event of frame `m` for a ticket does besides. -/
inductive Emits [Codecs] (l : History) (i : ℕ) (ws : List Write) (ticketId : UUID) (m : Message) :
    Prop
  /-- It creates the ticket. -/
  | opens {row} (hrow : .insertTicket row ∈ ws) (hid : row.id = ticketId) (hframe : Opens m row)
      (hticket : l.database.tickets.lookup ticketId = none)
  /-- It settles the ticket, after a settle call that has succeeded. -/
  | settles {p acts} (hacts : l.actions i = .processed i ticketId (some p.action) none :: acts)
      (hrecommended : HasRecommended i p acts) (hid : p.ticketId = ticketId)
      (hsets : Sets ws ticketId .settled) (hframe : Acknowledges m ticketId p.action)
  /-- It requests the ticket's cancellation, after a cancel call. -/
  | cancels {error reason}
      (hlocked : (l.focus i ticketId).head? = some (.processed i ticketId none error))
      (hframe : RequestsCancellation m ticketId reason)

variable [Codecs]

omit [Codecs] in
theorem insertEvent_not_mem_rewrite {row row' : Ticket} {began : Time} {r : OutboxEvent} :
    .insertEvent r ∉ rewrite row row' began := fun h => by
  have := mem_rewrite h
  cases this

/-- A permitted commit that inserts an event emits its frame. -/
theorem Permitted.emits {l : History} {i : ℕ} {ws : List Write} {row : OutboxEvent}
    (h : Permitted l (.committed i ws)) (hmem : .insertEvent row ∈ ws) :
    ∃ ticketId m, row.entityId = ticketId ∧ row.routingKey = topology.providerOutRoutingKey ∧
      row.payload = m.modelDump ∧ row.status = .pending ∧
      l.database.outbox.lookup row.id = none ∧ Emits l i ws ticketId m := by
  cases h with
  | create hacts hcurrency hkey hticket hevent hframe =>
      simp only [List.mem_cons, List.not_mem_nil, or_false, reduceCtorEq, false_or] at hmem
      cases hmem
      exact ⟨_, _, rfl, rfl, rfl, rfl, hevent, .opens List.mem_cons_self rfl hframe hticket⟩
  | recommend hacts hframe hunclaimed hrow hopen =>
      rcases List.mem_cons.mp hmem with hmem | hmem
      · cases hmem
      · exact absurd hmem insertEvent_not_mem_rewrite
  | @settle _ p acts loaded row₁ now eventId m began hacts hrecommended hrow hid hloaded hevent
      hframe =>
      rcases List.mem_append.mp hmem with hmem | hmem
      · exact absurd hmem insertEvent_not_mem_rewrite
      cases List.mem_singleton.mp hmem
      have hne : TicketStatus.settled ≠ loaded.status := by
        rw [hloaded]
        cases p.action <;> simp [RecommendationAction.status]
      have hsets : Sets (rewrite loaded (loaded.settled now) began ++
          [outbound eventId p.ticketId m began]) p.ticketId .settled := by
        refine List.mem_filterMap.mpr
          ⟨_, (Edits.of_outbound eventId p.ticketId m began).mem_of_status_ne hne, ?_⟩
        simp [Write.setsStatus, Ticket.diff, changed_of_ne hne, hid, Ticket.settled]
      exact ⟨_, _, rfl, rfl, rfl, rfl, hevent, .settles hacts hrecommended rfl hsets hframe⟩
  | requestCancellation hlocked hrow hid hevent hframe =>
      rcases List.mem_append.mp hmem with hmem | hmem
      · exact absurd hmem insertEvent_not_mem_rewrite
      cases List.mem_singleton.mp hmem
      exact ⟨_, _, rfl, rfl, rfl, rfl, hevent, .cancels hlocked hframe⟩
  | cancellationApplied hacts hframe hunclaimed hrow hstatus =>
      rcases List.mem_cons.mp hmem with hmem | hmem
      · cases hmem
      · exact absurd hmem insertEvent_not_mem_rewrite
  | acknowledge => exact absurd hmem insertEvent_not_mem_rewrite
  | @relay _ failed publishedAt began =>
      rcases List.mem_append.mp hmem with hmem | hmem
      · split at hmem
        · cases hmem
        · cases List.mem_singleton.mp hmem
      · obtain ⟨f, -, hf⟩ := List.mem_map.mp hmem
        cases hf
  | commitNothing => cases hmem

/-- Thread `i` commits `ws`, which emits the frame `m` for a ticket as the event `id`. -/
structure Emission (l : History) (e : Entry) (i : ℕ) (ws : List Write) (row : OutboxEvent)
    (m : Message) : Prop where
  entry : e = .committed i ws
  event : .insertEvent row ∈ ws
  payload : row.payload = m.modelDump
  fresh : l.database.frames row.id = none
  emits : Emits l i ws row.entityId m
  ticket : row.entityId ∈ (l.database.after e).tickets
  frames : (l.database.after e).frames =
    Function.update l.database.frames row.id (some (row.entityId, m.modelDump))

/-- A permitted commit that inserts an event inserts no other. -/
theorem Permitted.emission {l : History} {i : ℕ} {ws : List Write} {row : OutboxEvent}
    (h : Permitted l (.committed i ws)) (hmem : .insertEvent row ∈ ws) :
    ∃ m, Emission l (.committed i ws) i ws row m := by
  have hlocked : ∀ {t r}, l.database.tickets.lookup t = some r →
      t ∈ (l.database.writeAll ws).tickets := fun hr =>
    Database.mem_tickets_writeAll ws (AList.lookup_isSome.mp (by simp [hr]))
  have hnone : ws.filterMap Write.event? ≠ [] := fun hnil => by
    cases List.filterMap_eq_nil_iff.mp hnil _ hmem
  have hlast : ∃ before r, ws = before ++ [Write.insertEvent r] ∧
      before.filterMap Write.event? = [] ∧
      r.entityId ∈ (l.database.writeAll ws).tickets := by
    cases h with
    | create => exact ⟨[_], _, rfl, rfl, (AList.mem_insert _).mpr (.inl rfl)⟩
    | settle hacts hrecommended hrow | requestCancellation hlast hrow =>
        exact ⟨_, _, rfl, events_rewrite, hlocked hrow⟩
    | recommend | cancellationApplied =>
        exact absurd (by rw [List.filterMap_cons_none rfl, events_rewrite]) hnone
    | acknowledge => exact absurd events_rewrite hnone
    | relay => exact absurd events_relayWrites hnone
    | commitNothing => exact absurd rfl hnone
  obtain ⟨_, m, rfl, -, hpayload, -, hfresh, hemits⟩ := h.emits hmem
  obtain ⟨before, r, rfl, hbefore, hticket⟩ := hlast
  obtain rfl : row = r := by
    have hevent : row ∈ (before ++ [Write.insertEvent r]).filterMap Write.event? :=
      List.mem_filterMap.mpr ⟨_, hmem, rfl⟩
    simpa [hbefore, Write.event?] using hevent
  refine ⟨m, rfl, hmem, hpayload, by simp [Database.frames, hfresh], hemits, hticket, ?_⟩
  exact hpayload ▸ Database.frames_insertEvent hbefore row

/-- A permitted entry leaves the frames of the outbox as they are, or emits one. -/
theorem Permitted.frames {l : History} {e : Entry} (h : Permitted l e) :
    (l.database.after e).frames = l.database.frames ∨ ∃ i ws row m, Emission l e i ws row m := by
  cases e with
  | committed i ws =>
      by_cases hevents : ws.filterMap Write.event? = []
      · exact .inl (Database.frames_writeAll hevents)
      · obtain ⟨row, hrow⟩ := List.exists_mem_of_ne_nil _ hevents
        obtain ⟨wr, hwr, hevent⟩ := List.mem_filterMap.mp hrow
        cases wr with
        | insertEvent r =>
            cases hevent
            exact .inr ⟨i, ws, row, h.emission hwr⟩
        | _ => cases hevent
  | _ => exact .inl rfl

/-! ### Deliveries -/

/-- Frame `m` was emitted by a commit as the event `id`, and then published. -/
structure Relayed (l : History) (id : UUID) (m : Message) (publishing emitting : History)
    (j k : ℕ) (key : String) (ws : List Write) (row : OutboxEvent) : Prop where
  published : (.published j key id m.modelDump true :: publishing) <:+ l
  committed : (.committed k ws :: emitting) <:+ publishing
  event : .insertEvent row ∈ ws
  id : row.id = id
  payload : row.payload = m.modelDump
  emits : Emits emitting k ws row.entityId m

/-- A frame is decoded to itself. -/
theorem Decodes.eq {m m' : Message} (h : Decodes m.modelDump m') : m' = m := by
  obtain ⟨u, t, h⟩ := h
  simpa using h.symm

namespace Conforms

variable {C : History → Entry → Prop} {l l' : History}

/-- What is published on a queue: frames of the provider on `provider.in`, and frames that
commits have emitted on `provider.out`. -/
theorem of_published (h : Conforms C l) {j : ℕ} {key : String} {id : UUID} {body : Dict}
    (hsuffix : (.published j key id body true :: l') <:+ l) :
    (Queue.ofRoutingKey? key = some .providerIn ∧ ∃ m : Message, body = m.modelDump) ∨
      Queue.ofRoutingKey? key = some .providerOut ∧ ∃ emitting k ws row m,
        body = m.modelDump ∧ Relayed l id m l' emitting j k key ws row := by
  cases (h.of_suffix hsuffix).1 with
  | publishFrame => exact .inl ⟨by decide, _, rfl⟩
  | @publishEvent _ row _ _ _ _ _ hacts hbatch hbefore honce hrow hpending =>
      obtain ⟨k, ws, emitting, row₀, hcommitted, hmem, hsame⟩ := History.inserted_of_lookup hrow
      have hpermitted := (h.of_suffix (hcommitted.trans
        ((List.suffix_cons _ _).trans hsuffix))).1
      obtain ⟨t, m, rfl, hkey, hpayload, -, -, hemits⟩ := hpermitted.emits hmem
      have hbody : row.payload = m.modelDump := hsame.payload.trans hpayload
      refine .inr ⟨?_, emitting, k, ws, row₀, m, hbody, ?_⟩
      · rw [hsame.routingKey, hkey]
        decide
      · exact ⟨hbody ▸ hsuffix, hcommitted, hmem, hsame.id.symm, hpayload, hemits⟩

/-- A consumer receives dumped frames. -/
theorem frame_of_received (h : Conforms C l) {i n : ℕ} {d : Delivery}
    (hmem : .received i .providerIn n d ∈ l) : ∃ m : Message, d.body = m.modelDump := by
  obtain ⟨l', hsuffix⟩ := exists_suffix_of_mem hmem
  have hl' := h.of_suffix_history ((List.suffix_cons _ _).trans hsuffix)
  cases (h.of_suffix hsuffix).1 with
  | received hacts hqueue =>
      obtain ⟨j, key, hkey, hpublished⟩ :=
        hl'.published_of_carries (.inl (List.mem_of_getElem? hqueue))
      obtain ⟨l'', hsuffix'⟩ := exists_suffix_of_mem hpublished
      rcases hl'.of_published hsuffix' with ⟨-, hframe⟩ | ⟨hkey', -⟩
      · exact hframe
      · rw [hkey] at hkey'
        cases hkey'

/-- A delivery of `provider.out` holds a frame that a commit has emitted. -/
theorem relayed_of_carries (h : Conforms C l) {d : Delivery}
    (hd : l.broker.Carries .providerOut d) : ∃ publishing emitting j k key ws row m,
      d.body = m.modelDump ∧ Relayed l d.messageId m publishing emitting j k key ws row := by
  obtain ⟨j, key, hkey, hpublished⟩ := h.published_of_carries hd
  obtain ⟨publishing, hsuffix⟩ := exists_suffix_of_mem hpublished
  rcases h.of_published hsuffix with ⟨hkey', -⟩ | ⟨-, emitting, k, ws, row, m, hbody, hrelayed⟩
  · rw [hkey] at hkey'
    cases hkey'
  · exact ⟨publishing, emitting, j, k, key, ws, row, m, hbody, hrelayed⟩

/-- The gateway receives frames that commits have emitted. -/
theorem relayed_of_received (h : Conforms C l) {i n : ℕ} {d : Delivery}
    (hsuffix : (.received i .providerOut n d :: l') <:+ l) :
    ∃ publishing emitting j k key ws row m,
      d.body = m.modelDump ∧ Relayed l' d.messageId m publishing emitting j k key ws row := by
  have hl' := h.of_suffix_history ((List.suffix_cons _ _).trans hsuffix)
  cases (h.of_suffix hsuffix).1 with
  | received hacts hqueue => exact hl'.relayed_of_carries (.inl (List.mem_of_getElem? hqueue))

end Conforms

end RiskProvider

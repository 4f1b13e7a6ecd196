import RiskProvider.Database.Tables

/-!
# How the status of an event is stored

The column `outbox_events.status` holds a text. The column's type `Enum(OutboxStatus)` writes and
reads the *name* of a member, wherever the type applies: for the default of an added event, in the
bulk update of `mark_published_many` and in the condition of `fetch_pending`. The literal in the
`case` of `mark_failed` is not given the column's type and is bound as its *value*, and the index
`ix_outbox_pending` is declared with a value as well.

* `StoredEvent`: a row as it is stored, and what the operations of the repository do to it.
* `OutboxOp`: the operations; what they store (`OutboxOp.stored`) and what they mean
  (`OutboxOp.meant`, by the writes of `Database.write`).
* `stored_eq_meant`: the texts that stand for the statuses meant.
* `encoding_consistent_iff`: when these texts are consistent with the readers.
-/

namespace RiskProvider

namespace OutboxStatus

/-- The name of a member. -/
def name : OutboxStatus → String
  | pending => "PENDING"
  | published => "PUBLISHED"
  | failed => "FAILED"

/-- The value of a member. -/
def value : OutboxStatus → String
  | pending => "pending"
  | published => "published"
  | failed => "failed"

/-- The member that the column reads a text as; other texts raise `LookupError`. -/
def ofName? : String → Option OutboxStatus
  | "PENDING" => some pending
  | "PUBLISHED" => some published
  | "FAILED" => some failed
  | _ => none

/-- The text that the writers store for a member. -/
def text : OutboxStatus → String
  | pending => pending.name
  | published => published.name
  | failed => failed.value

/-- A text is read back as the member meant, unless that is `failed`. -/
theorem ofName?_text (st : OutboxStatus) : ofName? st.text = some st ↔ st ≠ .failed := by
  cases st <;> decide

end OutboxStatus

/-- A row of `outbox_events` as it is stored. -/
structure StoredEvent where
  id : UUID
  entityId : UUID
  eventType : String
  routingKey : String
  payload : Dict
  status : String
  attempts : ℕ
  lastError : Option String
  publishedAt : Option Time
  createdAt : Time
  updatedAt : Time

namespace StoredEvent

/-- The row that an `INSERT` of an added event stores. The default of the model is passed, so the
server default of the migration is not used. -/
def insert (row : OutboxEvent) : StoredEvent where
  id := row.id
  entityId := row.entityId
  eventType := row.eventType
  routingKey := row.routingKey
  payload := row.payload
  status := row.status.name
  attempts := row.attempts
  lastError := row.lastError
  publishedAt := row.publishedAt
  createdAt := row.createdAt
  updatedAt := row.updatedAt

/-- The row after `mark_published_many` at `publishedAt`, in a transaction begun at `now`. -/
def markPublished (row : StoredEvent) (publishedAt now : Time) : StoredEvent :=
  { row with status := OutboxStatus.published.name, publishedAt := some publishedAt,
             lastError := none, updatedAt := now }

/-- The row after `mark_failed` with `max_attempts=3`. -/
def markFailed (row : StoredEvent) (error : String) (now : Time) : StoredEvent :=
  { row with
    attempts := row.attempts + 1
    lastError := some (textPrefix 2000 error)
    -- the literal in the `case` is bound as its value
    status := if 3 ≤ row.attempts + 1 then OutboxStatus.failed.value else row.status
    updatedAt := now }

/-- The row is in the index `ix_outbox_pending`. -/
def Indexed (row : StoredEvent) : Prop := row.status = "pending"

/-- The condition of `fetch_pending` selects the row. -/
def Selected (row : StoredEvent) : Prop := row.status = OutboxStatus.pending.name

instance (row : StoredEvent) : Decidable row.Indexed := by
  unfold Indexed
  infer_instance

instance (row : StoredEvent) : Decidable row.Selected := by
  unfold Selected
  infer_instance

/-- The row that stands for an event. -/
def ofEvent (row : OutboxEvent) : StoredEvent := { insert row with status := row.status.text }

theorem ofEvent_markPublished (row : OutboxEvent) (publishedAt now : Time) :
    ofEvent (row.markPublished publishedAt now) = (ofEvent row).markPublished publishedAt now := rfl

theorem ofEvent_markFailed (row : OutboxEvent) (error : String) (now : Time) :
    ofEvent (row.markFailed error now) = (ofEvent row).markFailed error now := by
  unfold OutboxEvent.markFailed markFailed ofEvent insert
  dsimp only
  split <;> rfl

end StoredEvent

/-! ### Operations -/

/-- The operations of `OutboxRepository`, with the identifier and the points in time that they
read. -/
inductive OutboxOp where
  | add (id entityId : UUID) (eventType routingKey : String) (payload : Dict) (now : Time)
  | fetchPending (limit : ℕ)
  | markPublishedMany (eventIds : List UUID) (publishedAt now : Time)
  | markFailed (eventId : UUID) (error : String) (now : Time)

namespace OutboxOp

/-- The table after an operation, as it is stored. An event with an identifier that is there
already is rejected. -/
def store (t : Table StoredEvent) : OutboxOp → Table StoredEvent
  | add id entityId eventType routingKey payload now =>
      if id ∈ t then t
      else t.insert id (.insert
        { id, entityId, eventType, routingKey, payload, createdAt := now, updatedAt := now })
  | fetchPending _ => t
  | markPublishedMany eventIds publishedAt now =>
      eventIds.foldl (·.modify · (·.markPublished publishedAt now)) t
  | markFailed eventId error now => t.modify eventId (·.markFailed error now)

/-- What an operation means: its writes to the rows. -/
def writes (db : Database) : OutboxOp → List Write
  | add id entityId eventType routingKey payload now =>
      if id ∈ db.outbox then []
      else [.insertEvent
        { id, entityId, eventType, routingKey, payload, createdAt := now, updatedAt := now }]
  | fetchPending _ => []
  | markPublishedMany eventIds publishedAt now => [.markPublished eventIds publishedAt now]
  | markFailed eventId error now => [.markFailed eventId error now]

/-- The table that operations, latest first, have stored. -/
def stored : List OutboxOp → Table StoredEvent
  | [] => ∅
  | op :: ops => op.store (stored ops)

/-- The rows that operations, latest first, mean. -/
def meant : List OutboxOp → Database
  | [] => {}
  | op :: ops => (meant ops).writeAll (op.writes (meant ops))

end OutboxOp

/-! ### What is stored stands for what is meant -/

section Stored

variable {t : Table OutboxEvent} {t' : Table StoredEvent} {id : UUID}

/-- Each row of a table stands for the event under the same key. -/
def Stores (t : Table OutboxEvent) (t' : Table StoredEvent) : Prop :=
  ∀ id, t'.lookup id = (t.lookup id).map StoredEvent.ofEvent

theorem Stores.mem (h : Stores t t') : id ∈ t' ↔ id ∈ t := by
  rw [← AList.lookup_isSome, ← AList.lookup_isSome, h id, Option.isSome_map]

theorem Stores.insert (h : Stores t t') (k : UUID) (row : OutboxEvent) :
    Stores (t.insert k row) (t'.insert k (.ofEvent row)) := by
  intro id
  by_cases hid : id = k
  · subst hid
    simp
  · rw [AList.lookup_insert_ne hid, AList.lookup_insert_ne hid, h id]

theorem Stores.modify (h : Stores t t') (k : UUID) {f : OutboxEvent → OutboxEvent}
    {g : StoredEvent → StoredEvent} (hfg : ∀ row, .ofEvent (f row) = g (.ofEvent row)) :
    Stores (t.modify k f) (t'.modify k g) := by
  intro id
  by_cases hid : id = k
  · subst hid
    rw [Table.lookup_modify_self, Table.lookup_modify_self, h id, Option.map_map, Option.map_map]
    congr 1
    funext row
    exact (hfg row).symm
  · rw [Table.lookup_modify_ne _ _ hid, Table.lookup_modify_ne _ _ hid, h id]

theorem Stores.foldl_modify (h : Stores t t') (ids : List UUID) {f : OutboxEvent → OutboxEvent}
    {g : StoredEvent → StoredEvent} (hfg : ∀ row, .ofEvent (f row) = g (.ofEvent row)) :
    Stores (ids.foldl (·.modify · f) t) (ids.foldl (·.modify · g) t') := by
  induction ids generalizing t t' with
  | nil => exact h
  | cons k ids ih => exact ih (h.modify k hfg)

/-- One operation keeps what is stored in step with what is meant. -/
theorem Stores.store {db : Database} (h : Stores db.outbox t') (op : OutboxOp) :
    Stores (db.writeAll (op.writes db)).outbox (op.store t') := by
  cases op with
  | add id entityId eventType routingKey payload now =>
      simp only [OutboxOp.store, OutboxOp.writes, h.mem]
      split
      · exact h
      · exact h.insert id _
  | fetchPending limit => exact h
  | markPublishedMany eventIds publishedAt now =>
      exact h.foldl_modify eventIds fun row => StoredEvent.ofEvent_markPublished row publishedAt now
  | markFailed eventId error now =>
      exact h.modify eventId fun row => StoredEvent.ofEvent_markFailed row error now

/-- The rows that are stored stand for the rows that are meant. -/
theorem stored_eq_meant (ops : List OutboxOp) :
    Stores (OutboxOp.meant ops).outbox (OutboxOp.stored ops) := by
  induction ops with
  | nil => exact fun _ => rfl
  | cons op ops ih => exact ih.store op

end Stored

/-! ### Statuses after a sequence of operations -/

namespace OutboxOp

/-- An event with the identifier has been added. -/
def added (id : UUID) (ops : List OutboxOp) : Bool :=
  ops.any fun
    | add k _ _ _ _ _ => k = id
    | _ => false

/-- How often the event has been marked as failed. -/
def failures (id : UUID) : List OutboxOp → ℕ
  | [] => 0
  | markFailed k _ _ :: ops => failures id ops + if k = id ∧ added id ops then 1 else 0
  | _ :: ops => failures id ops

/-- The event has been marked as published, and not as failed for the third or a later time
since. -/
def publishedLast (id : UUID) : List OutboxOp → Bool
  | [] => false
  | markPublishedMany ids _ _ :: ops => (id ∈ ids && added id ops) || publishedLast id ops
  | markFailed k _ _ :: ops => publishedLast id ops && !(k = id && 3 ≤ failures id ops + 1)
  | _ :: ops => publishedLast id ops

/-- What a row says about its event after some operations. -/
structure Describes (id : UUID) (ops : List OutboxOp) (row : OutboxEvent) : Prop where
  attempts : row.attempts = failures id ops
  published : row.status = .published ↔ publishedLast id ops = true

variable {id : UUID} {ops : List OutboxOp} {op : OutboxOp}

theorem not_added_of_failures (h : added id ops = false) :
    failures id ops = 0 ∧ publishedLast id ops = false := by
  induction ops with
  | nil => exact ⟨rfl, rfl⟩
  | cons op ops ih =>
      cases op with
      | add k entityId eventType routingKey payload now =>
          have hrest : added id ops = false := (Bool.or_eq_false_iff.mp h).2
          exact ih hrest
      | markPublishedMany ids publishedAt now =>
          obtain ⟨hzero, hpublished⟩ := ih h
          exact ⟨hzero, by simp [publishedLast, hpublished, show added id ops = false from h]⟩
      | markFailed k error now =>
          obtain ⟨hzero, hpublished⟩ := ih h
          refine ⟨?_, by simp [publishedLast, hpublished]⟩
          simp [failures, hzero, show added id ops = false from h]
      | fetchPending limit => exact ih h

/-- Marking events as published once or several times is the same. -/
theorem lookup_markPublishedMany (t : Table OutboxEvent) (ids : List UUID) (id : UUID)
    (publishedAt now : Time) :
    (ids.foldl (·.modify · (·.markPublished publishedAt now)) t).lookup id =
      (t.lookup id).map fun row => if id ∈ ids then row.markPublished publishedAt now else row := by
  induction ids generalizing t with
  | nil => simp
  | cons k ids ih =>
      rw [List.foldl_cons, ih]
      by_cases hid : id = k
      · subst hid
        rw [Table.lookup_modify_self, Option.map_map]
        congr 1
        funext row
        by_cases hmem : id ∈ ids
        · simp [hmem, OutboxEvent.markPublished]
        · simp [hmem]
      · rw [Table.lookup_modify_ne _ _ hid]
        simp [hid]

/-- The rows that operations mean are those of the added events, each as `Describes` says. -/
theorem meant_describes (ops : List OutboxOp) (id : UUID) :
    (added id ops = false → (meant ops).outbox.lookup id = none) ∧
      (added id ops = true → ∃ row, (meant ops).outbox.lookup id = some row ∧
        Describes id ops row) := by
  induction ops with
  | nil => exact ⟨fun _ => rfl, by simp [added]⟩
  | cons op ops ih =>
      obtain ⟨hnone, hsome⟩ := ih
      cases op with
      | add k entityId eventType routingKey payload now =>
          have hadded : added id (.add k entityId eventType routingKey payload now :: ops) =
              (decide (k = id) || added id ops) := rfl
          rw [hadded]
          simp only [meant, writes]
          by_cases hmem : k ∈ (meant ops).outbox
          · -- the event is there already
            have hk : k = id → added id ops = true := fun hk => by
              by_contra hnot
              rw [← AList.lookup_isSome, hk, hnone (by simpa using hnot)] at hmem
              cases hmem
            have hor : (decide (k = id) || added id ops) = added id ops := by
              by_cases hkid : k = id
              · simp [hkid, hk hkid]
              · simp [hkid]
            rw [hor, if_pos hmem]
            refine ⟨hnone, fun h => ?_⟩
            obtain ⟨row, hrow, hattempts, hpublished⟩ := hsome h
            exact ⟨row, hrow, hattempts, hpublished⟩
          · rw [if_neg hmem]
            by_cases hkid : k = id
            · subst hkid
              have hnot : added k ops = false := by
                by_contra hadded
                obtain ⟨row, hrow, -⟩ := hsome (by simpa using hadded)
                exact hmem (AList.lookup_isSome.mp (by simp [hrow]))
              obtain ⟨hzero, hpublished⟩ := not_added_of_failures hnot
              refine ⟨by simp, fun _ => ⟨_, AList.lookup_insert _, ?_, ?_⟩⟩
              · exact hzero.symm
              · simp [publishedLast, hpublished]
            · have hlookup : ((meant ops).outbox.insert k
                  { id := k, entityId, eventType, routingKey, payload, createdAt := now,
                    updatedAt := now }).lookup id = (meant ops).outbox.lookup id :=
                AList.lookup_insert_ne (Ne.symm hkid)
              simp only [hkid, decide_false, Bool.false_or]
              refine ⟨fun h => hlookup.trans (hnone h), fun h => ?_⟩
              obtain ⟨row, hrow, hattempts, hpublished⟩ := hsome h
              exact ⟨row, hlookup.trans hrow, hattempts, hpublished⟩
      | fetchPending limit =>
          refine ⟨hnone, fun h => ?_⟩
          obtain ⟨row, hrow, hattempts, hpublished⟩ := hsome h
          exact ⟨row, hrow, hattempts, hpublished⟩
      | markPublishedMany ids publishedAt now =>
          have hlookup := lookup_markPublishedMany (meant ops).outbox ids id publishedAt now
          refine ⟨fun h => hlookup.trans (by rw [hnone h]; rfl), fun h => ?_⟩
          obtain ⟨row, hrow, hattempts, hpublished⟩ := hsome h
          rw [hrow, Option.map_some] at hlookup
          refine ⟨_, hlookup, ?_⟩
          by_cases hmem : id ∈ ids
          · rw [if_pos hmem]
            refine ⟨hattempts, ?_⟩
            simp [OutboxEvent.markPublished, publishedLast, hmem, show added id ops = true from h]
          · rw [if_neg hmem]
            exact ⟨hattempts, by simp [publishedLast, hmem, hpublished]⟩
      | markFailed k error now =>
          by_cases hkid : k = id
          · subst hkid
            have hlookup := (meant ops).outbox.lookup_modify_self k (·.markFailed error now)
            refine ⟨fun h => hlookup.trans (by rw [hnone h]; rfl), fun h => ?_⟩
            obtain ⟨row, hrow, hattempts, hpublished⟩ := hsome h
            rw [hrow, Option.map_some] at hlookup
            refine ⟨_, hlookup, ?_, ?_⟩
            · simp [OutboxEvent.markFailed, failures, hattempts, show added k ops = true from h]
            · simp only [OutboxEvent.markFailed, publishedLast, ← hattempts]
              by_cases hlast : 3 ≤ row.attempts + 1
              · simp [hlast]
              · simp [hlast, hpublished]
          · have hlookup := (meant ops).outbox.lookup_modify_ne (·.markFailed error now)
              (Ne.symm hkid)
            refine ⟨fun h => hlookup.trans (hnone h), fun h => ?_⟩
            obtain ⟨row, hrow, hattempts, hpublished⟩ := hsome h
            refine ⟨row, hlookup.trans hrow, ?_, ?_⟩
            · simp [failures, hkid, hattempts]
            · simp [publishedLast, hkid, hpublished]

end OutboxOp

/-! ### Consistency -/

/-- Every text that is stored is read back as the member that the writer meant, and a row is in the
index exactly when `fetch_pending` selects it. -/
def Consistent (ops : List OutboxOp) : Prop :=
  ∀ id s, (OutboxOp.stored ops).lookup id = some s →
    (∃ row, (OutboxOp.meant ops).outbox.lookup id = some row ∧
      OutboxStatus.ofName? s.status = some row.status) ∧ (s.Indexed ↔ s.Selected)

theorem StoredEvent.indexed_iff_selected (row : OutboxEvent) :
    ((ofEvent row).Indexed ↔ (ofEvent row).Selected) ↔ row.status ≠ .pending := by
  unfold Indexed Selected ofEvent
  dsimp only
  cases row.status <;> decide

/-- `fetch_pending` selects the events that are meant to be pending. -/
theorem StoredEvent.selected_iff (row : OutboxEvent) :
    (ofEvent row).Selected ↔ row.status = .pending := by
  unfold Selected ofEvent
  dsimp only
  cases row.status <;> decide

/-- After any sequence of operations, the stored statuses are consistent if and only if every event
has been marked as published, and not as failed for the third or a later time since. -/
theorem encoding_consistent_iff (ops : List OutboxOp) :
    Consistent ops ↔ ∀ id, OutboxOp.added id ops = true → OutboxOp.publishedLast id ops = true := by
  have hstored := stored_eq_meant ops
  constructor
  · intro h id hadded
    obtain ⟨row, hrow, hdescribes⟩ := (OutboxOp.meant_describes ops id).2 hadded
    have hlookup := hstored id
    rw [hrow, Option.map_some] at hlookup
    obtain ⟨⟨row', hrow', hread⟩, hindex⟩ := h id _ hlookup
    obtain rfl := Option.some.inj (hrow.symm.trans hrow')
    have hpending := (StoredEvent.indexed_iff_selected row).mp hindex
    have hfailed := (OutboxStatus.ofName?_text row.status).mp hread
    refine hdescribes.published.mp ?_
    cases hstatus : row.status with
    | pending => exact absurd hstatus hpending
    | published => rfl
    | failed => exact absurd hstatus hfailed
  · intro h id s hs
    rw [hstored id, Option.map_eq_some_iff] at hs
    obtain ⟨row, hrow, rfl⟩ := hs
    have hadded : OutboxOp.added id ops = true := by
      by_contra hnot
      rw [(OutboxOp.meant_describes ops id).1 (by simpa using hnot)] at hrow
      cases hrow
    obtain ⟨row', hrow', hdescribes⟩ := (OutboxOp.meant_describes ops id).2 hadded
    obtain rfl := Option.some.inj (hrow.symm.trans hrow')
    have hstatus := hdescribes.published.mpr (h id hadded)
    refine ⟨⟨row, hrow, (OutboxStatus.ofName?_text _).mpr ?_⟩,
      (StoredEvent.indexed_iff_selected row).mpr ?_⟩ <;> simp [hstatus]

/-- An added event is selected by `fetch_pending` and not in the index; after its third failure,
its status cannot be read back. -/
theorem status_encoding_drifts :
    ¬ Consistent [.add 1 2 "ticket.outbound" "provider.out" [] 0] ∧
    ¬ Consistent [.markFailed 1 "unreachable" 3, .markFailed 1 "unreachable" 2,
      .markFailed 1 "unreachable" 1, .add 1 2 "ticket.outbound" "provider.out" [] 0] := by
  constructor
  · intro h
    obtain ⟨-, hindex⟩ := h 1 _ rfl
    exact absurd hindex (by decide)
  · intro h
    obtain ⟨⟨row, -, hread⟩, -⟩ := h 1 _ rfl
    have hnone : OutboxStatus.ofName? "failed" = none := by decide
    cases hnone.symm.trans hread

end RiskProvider

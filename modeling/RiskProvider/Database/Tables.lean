import RiskProvider.Schemas

/-!
# Tables

The rows of `backend/db/models` and the writes that a transaction makes to them. A table is an
association list with pairwise distinct keys, so a second row under a primary key cannot be
built. An update of a ticket carries only the columns that it sets, as a flush of SQLAlchemy
does; the new values of an outbox event are computed from the row's current ones.
-/

namespace RiskProvider

/-- Rows of type `ρ` under their primary keys. -/
abbrev Table (ρ : Type) := AList fun _ : UUID => ρ

namespace Table

variable {ρ : Type}

/-- The rows of a table. -/
def rows (t : Table ρ) : List ρ := t.entries.map (·.2)

theorem mem_rows {t : Table ρ} {row : ρ} : row ∈ t.rows ↔ ∃ id, t.lookup id = some row := by
  simp only [rows, List.mem_map]
  constructor
  · rintro ⟨⟨id, r⟩, hr, rfl⟩
    exact ⟨id, AList.mem_lookup_iff.mpr hr⟩
  · rintro ⟨id, h⟩
    exact ⟨⟨id, row⟩, AList.mem_lookup_iff.mp h, rfl⟩

/-- Replace the row under `id`, if there is one, by its image under `f`. -/
def modify (t : Table ρ) (id : UUID) (f : ρ → ρ) : Table ρ :=
  match t.lookup id with
  | none => t
  | some row => t.insert id (f row)

@[simp]
theorem lookup_modify_self (t : Table ρ) (id : UUID) (f : ρ → ρ) :
    (t.modify id f).lookup id = (t.lookup id).map f := by
  unfold modify
  cases h : t.lookup id with
  | none => simp [h]
  | some row => simp

@[simp]
theorem lookup_modify_ne (t : Table ρ) {id k : UUID} (f : ρ → ρ) (h : k ≠ id) :
    (t.modify id f).lookup k = t.lookup k := by
  unfold modify
  cases t.lookup id with
  | none => rfl
  | some row => exact AList.lookup_insert_ne h

theorem mem_modify {t : Table ρ} {id k : UUID} {f : ρ → ρ} (h : id ∈ t) : id ∈ t.modify k f := by
  unfold modify
  split
  · exact h
  · exact (AList.mem_insert _).mpr (.inr h)

/-- Every row is stored under its key. -/
def Keyed (key : ρ → UUID) (t : Table ρ) : Prop := ∀ id row, t.lookup id = some row → key row = id

variable {key : ρ → UUID} {t : Table ρ}

/-- The rows under given keys have these keys. -/
theorem Keyed.map_filterMap (h : t.Keyed key) {ids : List UUID}
    (hids : ∀ id ∈ ids, (t.lookup id).isSome) : (ids.filterMap t.lookup).map key = ids := by
  induction ids with
  | nil => rfl
  | cons id ids ih =>
      obtain ⟨row, hrow⟩ := Option.isSome_iff_exists.mp (hids id List.mem_cons_self)
      simp only [List.filterMap_cons, hrow, List.map_cons, h id row hrow]
      rw [ih fun id' hid' => hids id' (List.mem_cons_of_mem _ hid')]

theorem Keyed.insert (h : t.Keyed key) {k : UUID} {row : ρ} (hrow : key row = k) :
    Keyed key (AList.insert k row t) := by
  intro id row' h'
  by_cases hid : id = k
  · subst hid
    obtain rfl : row = row' := by simpa using h'
    exact hrow
  · exact h id row' (by rwa [AList.lookup_insert_ne hid] at h')

theorem Keyed.modify (h : t.Keyed key) {k : UUID} {f : ρ → ρ} (hf : ∀ row, key (f row) = key row) :
    Keyed key (t.modify k f) := by
  intro id row' h'
  by_cases hid : id = k
  · subst hid
    rw [lookup_modify_self, Option.map_eq_some_iff] at h'
    obtain ⟨row, hrow, rfl⟩ := h'
    exact (hf row).trans (h id row hrow)
  · exact h id row' (by rwa [lookup_modify_ne _ _ hid] at h')

end Table

/-! ### Rows -/

/-- A row of `tickets`. -/
structure Ticket where
  id : UUID
  idempotencyKey : String
  userId : UUID
  stakeAmount : Decimal
  currency : Currency
  selections : List Dict
  status : TicketStatus := .new
  providerRecommendation : Option RecommendationAction := none
  providerReason : Option String := none
  providerRecommendationAt : Option Time := none
  settledAt : Option Time := none
  confirmedAt : Option Time := none
  cancelledAt : Option Time := none
  failureReason : Option String := none
  createdAt : Time := 0
  updatedAt : Time := 0

/-- A row of `outbox_events`. -/
structure OutboxEvent where
  id : UUID
  entityId : UUID
  eventType : String
  routingKey : String
  payload : Dict
  status : OutboxStatus := .pending
  attempts : ℕ := 0
  lastError : Option String := none
  publishedAt : Option Time := none
  createdAt : Time := 0
  updatedAt : Time := 0

/-- A row of `processed_provider_messages`. -/
structure ProcessedProviderMessage where
  messageId : UUID
  ticketId : Option UUID
  messageType : String
  processedAt : Time

/-! ### Updates of a ticket -/

/-- Columns of a ticket that an update sets, each with its new value. -/
structure TicketPatch where
  status : Option TicketStatus := none
  providerRecommendation : Option (Option RecommendationAction) := none
  providerReason : Option (Option String) := none
  providerRecommendationAt : Option (Option Time) := none
  settledAt : Option (Option Time) := none
  confirmedAt : Option (Option Time) := none
  cancelledAt : Option (Option Time) := none
  failureReason : Option (Option String) := none
deriving DecidableEq

/-- The new value of a column, when it differs from the old one. -/
def changed {α : Type} [DecidableEq α] (old new : α) : Option α :=
  if new = old then none else some new

namespace Ticket

/-- The columns in which the attributes of an instance differ from the row it stands for. -/
def diff (loaded attrs : Ticket) : TicketPatch where
  status := changed loaded.status attrs.status
  providerRecommendation := changed loaded.providerRecommendation attrs.providerRecommendation
  providerReason := changed loaded.providerReason attrs.providerReason
  providerRecommendationAt :=
    changed loaded.providerRecommendationAt attrs.providerRecommendationAt
  settledAt := changed loaded.settledAt attrs.settledAt
  confirmedAt := changed loaded.confirmedAt attrs.confirmedAt
  cancelledAt := changed loaded.cancelledAt attrs.cancelledAt
  failureReason := changed loaded.failureReason attrs.failureReason

/-- The row after an `UPDATE` in a transaction begun at `now`; `updated_at` is
`onupdate=func.now()`. -/
def patch (row : Ticket) (p : TicketPatch) (now : Time) : Ticket :=
  { row with
    status := p.status.getD row.status
    providerRecommendation := p.providerRecommendation.getD row.providerRecommendation
    providerReason := p.providerReason.getD row.providerReason
    providerRecommendationAt := p.providerRecommendationAt.getD row.providerRecommendationAt
    settledAt := p.settledAt.getD row.settledAt
    confirmedAt := p.confirmedAt.getD row.confirmedAt
    cancelledAt := p.cancelledAt.getD row.cancelledAt
    failureReason := p.failureReason.getD row.failureReason
    updatedAt := now }

/-- The text columns are within their declared lengths. -/
def Fits (t : Ticket) : Prop :=
  t.idempotencyKey.length ≤ 128 ∧ (∀ r ∈ t.providerReason, r.length ≤ 512) ∧
    ∀ r ∈ t.failureReason, r.length ≤ 1024

instance (t : Ticket) : Decidable t.Fits := by
  unfold Fits
  infer_instance

/-- The text and JSON columns have no U+0000. -/
def Storable (t : Ticket) : Prop :=
  storableText t.idempotencyKey ∧ (∀ r ∈ t.providerReason, storableText r) ∧
    (∀ r ∈ t.failureReason, storableText r) ∧ ∀ d ∈ t.selections, Json.storableFields d

instance (t : Ticket) : Decidable t.Storable := by
  unfold Storable
  infer_instance

end Ticket

/-- `text[:n]`. -/
def textPrefix (n : ℕ) (text : String) : String := String.ofList (text.toList.take n)

namespace OutboxEvent

/-- The row after `mark_published_many` at `publishedAt`, in a transaction begun at `now`. -/
def markPublished (row : OutboxEvent) (publishedAt now : Time) : OutboxEvent :=
  { row with status := .published, publishedAt := some publishedAt, lastError := none,
             updatedAt := now }

/-- The row after `mark_failed` with `max_attempts=3`. -/
def markFailed (row : OutboxEvent) (error : String) (now : Time) : OutboxEvent :=
  { row with
    attempts := row.attempts + 1
    lastError := some (textPrefix 2000 error)
    status := if 3 ≤ row.attempts + 1 then .failed else row.status
    updatedAt := now }

end OutboxEvent

/-! ### Writes -/

/-- A write that a transaction has made. -/
inductive Write where
  | insertTicket (row : Ticket)
  | updateTicket (id : UUID) (p : TicketPatch) (now : Time)
  | insertEvent (row : OutboxEvent)
  | markPublished (ids : List UUID) (publishedAt now : Time)
  | markFailed (id : UUID) (error : String) (now : Time)
  | insertInbox (row : ProcessedProviderMessage)

/-- The committed rows. -/
structure Database where
  tickets : Table Ticket := ∅
  outbox : Table OutboxEvent := ∅
  inbox : Table ProcessedProviderMessage := ∅

namespace Database

/-- The database after a write. -/
def write (db : Database) : Write → Database
  | .insertTicket row => { db with tickets := db.tickets.insert row.id row }
  | .updateTicket id p now => { db with tickets := db.tickets.modify id (·.patch p now) }
  | .insertEvent row => { db with outbox := db.outbox.insert row.id row }
  | .markPublished ids publishedAt now =>
      { db with outbox := ids.foldl (·.modify · (·.markPublished publishedAt now)) db.outbox }
  | .markFailed id error now => { db with outbox := db.outbox.modify id (·.markFailed error now) }
  | .insertInbox row => { db with inbox := db.inbox.insert row.messageId row }

/-- The database after a list of writes. -/
def writeAll (db : Database) (ws : List Write) : Database := ws.foldl write db

@[simp]
theorem writeAll_nil (db : Database) : db.writeAll [] = db := rfl

@[simp]
theorem writeAll_cons (db : Database) (w : Write) (ws : List Write) :
    db.writeAll (w :: ws) = (db.write w).writeAll ws := rfl

theorem writeAll_append (db : Database) (ws ws' : List Write) :
    db.writeAll (ws ++ ws') = (db.writeAll ws).writeAll ws' := by
  simp [writeAll]

/-! ### Rows are never deleted -/

section Growth

variable {db : Database} {id : UUID}

theorem mem_tickets_write (wr : Write) (h : id ∈ db.tickets) : id ∈ (db.write wr).tickets := by
  cases wr with
  | insertTicket row => exact (AList.mem_insert _).mpr (.inr h)
  | updateTicket k p now => exact Table.mem_modify h
  | _ => exact h

theorem mem_tickets_writeAll (ws : List Write) (h : id ∈ db.tickets) :
    id ∈ (db.writeAll ws).tickets := by
  induction ws generalizing db with
  | nil => exact h
  | cons wr ws ih => exact ih (mem_tickets_write wr h)

theorem mem_outbox_write (wr : Write) (h : id ∈ db.outbox) : id ∈ (db.write wr).outbox := by
  cases wr with
  | insertEvent row => exact (AList.mem_insert _).mpr (.inr h)
  | markPublished ids publishedAt now =>
      exact List.foldlRecOn (motive := fun t => id ∈ t) ids _ h fun t ht k _ => Table.mem_modify ht
  | markFailed k error now => exact Table.mem_modify h
  | _ => exact h

theorem mem_outbox_writeAll (ws : List Write) (h : id ∈ db.outbox) :
    id ∈ (db.writeAll ws).outbox := by
  induction ws generalizing db with
  | nil => exact h
  | cons wr ws ih => exact ih (mem_outbox_write wr h)

theorem mem_inbox_write (wr : Write) (h : id ∈ db.inbox) : id ∈ (db.write wr).inbox := by
  cases wr with
  | insertInbox row => exact (AList.mem_insert _).mpr (.inr h)
  | _ => exact h

theorem mem_inbox_writeAll (ws : List Write) (h : id ∈ db.inbox) : id ∈ (db.writeAll ws).inbox := by
  induction ws generalizing db with
  | nil => exact h
  | cons wr ws ih => exact ih (mem_inbox_write wr h)

theorem mem_inbox_of_insert {ws : List Write} {row : ProcessedProviderMessage}
    (h : .insertInbox row ∈ ws) : row.messageId ∈ (db.writeAll ws).inbox := by
  induction ws generalizing db with
  | nil => cases h
  | cons wr ws ih =>
      rcases List.mem_cons.mp h with rfl | h
      · exact mem_inbox_writeAll ws ((AList.mem_insert _).mpr (.inl rfl))
      · exact ih h

end Growth

/-! ### Rows are stored under their keys -/

/-- Every row is stored under its own primary key. -/
structure Keyed (db : Database) : Prop where
  tickets : db.tickets.Keyed Ticket.id
  outbox : db.outbox.Keyed OutboxEvent.id

theorem keyed_empty : Keyed {} := by
  constructor <;> intro id row h <;> cases h

variable {db : Database}

theorem Keyed.after_write (h : db.Keyed) (wr : Write) : (db.write wr).Keyed := by
  cases wr with
  | insertTicket row => exact ⟨h.tickets.insert rfl, h.outbox⟩
  | updateTicket id p now => exact ⟨h.tickets.modify fun _ => rfl, h.outbox⟩
  | insertEvent row => exact ⟨h.tickets, h.outbox.insert rfl⟩
  | markPublished ids publishedAt now =>
      refine ⟨h.tickets, ?_⟩
      exact List.foldlRecOn ids _ h.outbox fun t ht k _ => Table.Keyed.modify ht fun _ => rfl
  | markFailed id error now => exact ⟨h.tickets, h.outbox.modify fun _ => rfl⟩
  | insertInbox row => exact ⟨h.tickets, h.outbox⟩

theorem Keyed.writeAll (h : db.Keyed) (ws : List Write) : (db.writeAll ws).Keyed := by
  induction ws generalizing db with
  | nil => exact h
  | cons wr ws ih => exact ih (h.after_write wr)

end Database

end RiskProvider

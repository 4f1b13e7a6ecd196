import RiskProvider.Database.Tables

/-!
# Database sessions

The client side of `AsyncSession` with `autoflush=False` and `expire_on_commit=False`: an
identity map with one live instance for each loaded ticket, the attributes assigned and the
objects added since the last flush, and the open transaction.

Selecting a row whose instance is live returns that instance with the attributes it has
(`Session.load`): no query of the repository asks for `populate_existing`. The handlers keep
every ticket they load referenced as long as its session is open, so instances stay live.
-/

namespace RiskProvider

/-- A loaded ticket. -/
structure Instance where
  /-- The column values as last loaded or flushed. -/
  loaded : Ticket
  /-- The current attribute values. -/
  attrs : Ticket

/-- Objects added to a session. -/
inductive NewObject where
  | ticket (row : Ticket)
  | event (row : OutboxEvent)

/-- A session and its transaction. -/
structure Session where
  /-- The live instances of tickets. -/
  identityMap : UUID → Option Instance := fun _ => none
  /-- The tickets with attributes assigned since the last flush. -/
  dirty : List UUID := []
  /-- The objects added since the last flush. -/
  added : List NewObject := []
  /-- When the open transaction began. -/
  begun : Option Time := none
  /-- When the last transaction was committed. -/
  committedAt : Time := 0
  /-- What the open transaction has written. -/
  writes : List Write := []
  /-- A statement of the transaction has failed; only a rollback is accepted. -/
  failed : Bool := false
  /-- A failed flush has expired the attributes of the instances. -/
  expired : Bool := false

namespace Instance

/-- The `UPDATE` that a flush emits for an instance, if any attribute changed. -/
def update (inst : Instance) (now : Time) : Option Write :=
  let p := inst.loaded.diff inst.attrs
  if p = {} then none else some (.updateTicket inst.loaded.id p now)

/-- The instance after a flush. -/
def flushed (inst : Instance) : Instance := { loaded := inst.attrs, attrs := inst.attrs }

end Instance

/-- The `INSERT` that a flush emits for an added object. -/
def NewObject.insert (now : Time) : NewObject → Write
  | .ticket row => .insertTicket { row with createdAt := now, updatedAt := now }
  | .event row => .insertEvent { row with createdAt := now, updatedAt := now }

namespace NewObject

/-- The text columns of an added object are within their declared lengths. -/
def Fits : NewObject → Prop
  | .ticket row => row.Fits
  | .event row => row.eventType.length ≤ 128 ∧ row.routingKey.length ≤ 255

instance (o : NewObject) : Decidable o.Fits := by
  cases o <;> unfold Fits <;> infer_instance

/-- The text and JSON columns of an added object have no U+0000. -/
def Storable : NewObject → Prop
  | .ticket row => row.Storable
  | .event row =>
      storableText row.eventType ∧ storableText row.routingKey ∧ Json.storableFields row.payload

instance (o : NewObject) : Decidable o.Storable := by
  cases o <;> unfold Storable <;> infer_instance

end NewObject

namespace Session

/-- The instance of a selected row, loaded from the row unless it is live. -/
def load (s : Session) (row : Ticket) : Session :=
  match s.identityMap row.id with
  | some _ => s
  | none =>
      { s with
        identityMap := Function.update s.identityMap row.id (some { loaded := row, attrs := row }) }

/-- The attribute values of the instance of a selected row. -/
def attrs (s : Session) (row : Ticket) : Ticket :=
  match s.identityMap row.id with
  | some inst => inst.attrs
  | none => row

/-- Attributes of a loaded ticket are assigned. -/
def assign (s : Session) (t : Ticket) : Session :=
  match s.identityMap t.id with
  | none => s
  | some inst =>
      { s with
        identityMap := Function.update s.identityMap t.id (some { inst with attrs := t })
        dirty := if t.id ∈ s.dirty then s.dirty else s.dirty ++ [t.id] }

/-- An object is added. -/
def add (s : Session) (object : NewObject) : Session := { s with added := s.added ++ [object] }

/-- A statement issued at a point in time is executed; the first one has begun the transaction. -/
def beginTx (s : Session) (issuedAt : Time) : Session :=
  { s with begun := some (s.begun.getD issuedAt) }

/-- A statement of the transaction has failed. A flush that fails rolls the transaction back and
expires every instance; it is the only statement that the services execute while changes are
pending. -/
def fail (s : Session) : Session :=
  { s with failed := true, expired := s.expired || !s.dirty.isEmpty || !s.added.isEmpty }

/-- The start of the open transaction, PostgreSQL's `now()`. -/
def startedAt (s : Session) : Time := s.begun.getD 0

/-- The tickets with attributes to flush, with their instances. -/
def dirtyInstances (s : Session) : List Instance := s.dirty.filterMap s.identityMap

/-- The statements of a flush: updates of changed tickets, then inserts. -/
def flushWrites (s : Session) : List Write :=
  s.dirtyInstances.filterMap (·.update s.startedAt) ++ s.added.map (·.insert s.startedAt)

/-- What a flush writes is within the declared lengths. -/
def FlushFits (s : Session) : Prop :=
  (∀ inst ∈ s.dirtyInstances, inst.attrs.Fits) ∧ ∀ o ∈ s.added, o.Fits

instance (s : Session) : Decidable s.FlushFits := by
  unfold FlushFits
  infer_instance

/-- What a flush writes has no U+0000. -/
def FlushStorable (s : Session) : Prop :=
  (∀ inst ∈ s.dirtyInstances, inst.attrs.Storable) ∧ ∀ o ∈ s.added, o.Storable

instance (s : Session) : Decidable s.FlushStorable := by
  unfold FlushStorable
  infer_instance

/-- The instance that a flush makes of an added ticket. -/
def addedInstance (s : Session) (id : UUID) : Option Instance :=
  s.added.findSome? fun
    | .ticket row =>
        if row.id = id then
          let row := { row with createdAt := s.startedAt, updatedAt := s.startedAt }
          some { loaded := row, attrs := row }
        else none
    | .event _ => none

/-- The session after a flush. -/
def flushed (s : Session) : Session :=
  { s with
    identityMap := fun id =>
      match s.identityMap id with
      | some inst => some inst.flushed
      | none => s.addedInstance id
    dirty := []
    added := []
    writes := s.writes ++ s.flushWrites }

/-- The session after a commit: instances stay live and are not expired. -/
def committed (s : Session) (now : Time) : Session :=
  { s with begun := none, committedAt := now, writes := [] }

/-! ### Coherent sessions -/

/-- Instances are filed under their tickets, and only dirty ones differ from what was last
loaded or flushed. -/
def Coherent (s : Session) : Prop :=
  ∀ id inst, s.identityMap id = some inst →
    inst.loaded.id = id ∧ inst.attrs.id = id ∧ (id ∉ s.dirty → inst.attrs = inst.loaded)

theorem coherent_empty : Coherent {} := by
  intro id inst h
  cases h

variable {s : Session}

theorem Coherent.of_eq {s' : Session} (h : s.Coherent) (hmap : s'.identityMap = s.identityMap)
    (hdirty : s'.dirty = s.dirty) : s'.Coherent := by
  unfold Coherent
  rw [hmap, hdirty]
  exact h

theorem Coherent.load (h : s.Coherent) (row : Ticket) : (s.load row).Coherent := by
  unfold Session.load
  split
  · exact h
  · intro id inst hinst
    by_cases hid : id = row.id
    · subst hid
      obtain rfl : Instance.mk row row = inst := by simpa using hinst
      exact ⟨rfl, rfl, fun _ => rfl⟩
    · exact h id inst (by simpa [hid] using hinst)

theorem Coherent.assign (h : s.Coherent) (t : Ticket) : (s.assign t).Coherent := by
  unfold Session.assign
  split
  · exact h
  next inst₀ hinst₀ =>
    intro id inst hinst
    by_cases hid : id = t.id
    · subst hid
      obtain rfl : { inst₀ with attrs := t } = inst := by simpa using hinst
      refine ⟨(h _ _ hinst₀).1, rfl, fun hnot => absurd ?_ hnot⟩
      dsimp only
      split <;> simp_all
    · obtain ⟨hloaded, hattrs, hclean⟩ := h id inst (by simpa [hid] using hinst)
      refine ⟨hloaded, hattrs, fun hnot => hclean fun hdirty => hnot ?_⟩
      dsimp only
      split <;> simp_all

/-- The instance of an added ticket is filed under it and clean. -/
theorem addedInstance_eq_some {id : UUID} {inst : Instance}
    (h : s.addedInstance id = some inst) : inst.attrs.id = id ∧ inst.attrs = inst.loaded := by
  obtain ⟨o, -, ho⟩ := List.exists_of_findSome?_eq_some h
  cases o with
  | event row => simp at ho
  | ticket row =>
      dsimp only at ho
      split at ho
      next hid =>
        cases ho
        exact ⟨hid, rfl⟩
      · cases ho

theorem flushed_identityMap {id : UUID} {inst : Instance}
    (h : s.flushed.identityMap id = some inst) :
    (∃ inst₀, s.identityMap id = some inst₀ ∧ inst = inst₀.flushed) ∨
      (s.identityMap id = none ∧ s.addedInstance id = some inst) := by
  simp only [flushed] at h
  split at h
  next inst₀ hinst₀ => exact .inl ⟨inst₀, hinst₀, (Option.some.inj h).symm⟩
  next hnone => exact .inr ⟨hnone, h⟩

theorem Coherent.flushed (h : s.Coherent) : s.flushed.Coherent := by
  intro id inst hinst
  rcases flushed_identityMap hinst with ⟨inst₀, hinst₀, rfl⟩ | ⟨-, hadded⟩
  · exact ⟨(h _ _ hinst₀).2.1, (h _ _ hinst₀).2.1, fun _ => rfl⟩
  · obtain ⟨hid, heq⟩ := addedInstance_eq_some hadded
    exact ⟨heq ▸ hid, hid, fun _ => heq⟩

end Session

end RiskProvider

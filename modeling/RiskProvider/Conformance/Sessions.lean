import RiskProvider.Protocol

/-!
# Sessions at work on one ticket

The handlers use a session in one way: a ticket is selected, attributes of its instance are
assigned, and flushes at some points write what has changed. `Session.Editing` describes a
session between these steps, with the writes of its transaction; `Session.Staged` forgets how
much has been flushed and keeps what the transaction will have written after the next flush.
-/

namespace RiskProvider

/-! ### Updates of unchanged instances -/

@[simp]
theorem changed_self {α : Type} [DecidableEq α] (a : α) : changed a a = none := by
  simp [changed]

@[simp]
theorem Ticket.diff_self (t : Ticket) : t.diff t = {} := by
  simp [Ticket.diff]

@[simp]
theorem rewrite_self (t : Ticket) (began : Time) : rewrite t t began = [] := by
  simp [rewrite, Instance.update]

/-! ### Cancellations recorded anew -/

/-- The ticket of which a write records `cancelled_at` without setting the status. -/
def Write.recancels : Write → Option UUID
  | updateTicket id p _ => if p.status = none ∧ p.cancelledAt.isSome then some id else none
  | _ => none

/-- The update of an instance records a cancellation without setting the status only if it keeps
the status. -/
theorem recancels_rewrite {row row' : Ticket} {began : Time} {wr : Write} {t : UUID}
    (hwr : wr ∈ rewrite row row' began) (h : wr.recancels = some t) :
    t = row.id ∧ row'.status = row.status ∧ row'.cancelledAt ≠ row.cancelledAt := by
  simp only [rewrite, Instance.update, Option.mem_toList] at hwr
  split at hwr
  · cases hwr
  cases hwr
  simp only [Write.recancels, Ticket.diff, changed] at h
  grind

namespace Session

variable {s : Session} {t : UUID} {loaded attrs : Ticket} {began : Time} {ws : List Write}

/-! ### Sessions without pending changes -/

/-- A session with nothing to flush, in a transaction that has made the writes `ws`. -/
structure Clean (s : Session) (ws : List Write) : Prop where
  failed : s.failed = false
  dirty : s.dirty = []
  added : s.added = []
  writes : s.writes = ws

theorem clean_empty : Clean {} [] := ⟨rfl, rfl, rfl, rfl⟩

theorem Clean.beginTx (h : s.Clean ws) (now : Time) : (s.beginTx now).Clean ws :=
  ⟨h.failed, h.dirty, h.added, h.writes⟩

theorem Clean.load (h : s.Clean ws) (row : Ticket) : (s.load row).Clean ws := by
  unfold Session.load
  split
  · exact h
  · exact ⟨h.failed, h.dirty, h.added, h.writes⟩

theorem Clean.committed (h : s.Clean ws) (now : Time) : (s.committed now).Clean [] :=
  ⟨h.failed, h.dirty, h.added, rfl⟩

/-- The attributes of a live instance. -/
theorem attrs_of_live {row : Ticket} (h : s.identityMap t = some ⟨loaded, attrs⟩)
    (hid : row.id = t) : s.attrs row = attrs := by
  simp [Session.attrs, hid, h]

/-- Loading a row leaves the instances of other tickets as they are. -/
theorem attrs_load_of_ne {row row' : Ticket} (h : row'.id ≠ row.id) :
    (s.load row).attrs row' = s.attrs row' := by
  unfold Session.load
  split
  · rfl
  · simp [Session.attrs, Function.update_of_ne h]

/-- Assigning to one ticket leaves the instances of others as they are. -/
theorem attrs_assign_of_ne {attrs row' : Ticket} (h : row'.id ≠ attrs.id) :
    (s.assign attrs).attrs row' = s.attrs row' := by
  unfold Session.assign
  split
  · rfl
  · simp [Session.attrs, Function.update_of_ne h]

/-- A flush changes no attributes, unless it makes the instance of an added ticket. -/
theorem attrs_flushed {row : Ticket} (h : s.addedInstance row.id = none) :
    s.flushed.attrs row = s.attrs row := by
  cases hinst : s.identityMap row.id with
  | none => simp [Session.attrs, Session.flushed, hinst, h]
  | some inst => simp [Session.attrs, Session.flushed, hinst, Instance.flushed]

theorem beginTx_of_begun (h : s.begun = some began) (now : Time) : s.beginTx now = s := by
  cases s
  simp_all [Session.beginTx]

/-! ### Sessions with changes of one ticket -/

/-- The session holds an instance of ticket `t`, loaded or last flushed as `loaded`, with the
attributes `attrs`; nothing else waits to be flushed, and the transaction begun at `began` has
made the writes `ws`. -/
structure Editing (s : Session) (t : UUID) (loaded attrs : Ticket) (began : Time)
    (ws : List Write) : Prop where
  failed : s.failed = false
  live : s.identityMap t = some ⟨loaded, attrs⟩
  dirty : s.dirty = [t] ∨ s.dirty = [] ∧ attrs = loaded
  added : s.added = []
  begun : s.begun = some began
  writes : s.writes = ws
  attrs_id : attrs.id = t

/-- After its next flush, the transaction will have made the writes `ws`. -/
def Staged (s : Session) (t : UUID) (attrs : Ticket) (began : Time) (ws : List Write) : Prop :=
  ∃ loaded ws', s.Editing t loaded attrs began ws' ∧ ws' ++ rewrite loaded attrs began = ws

theorem Editing.staged (h : s.Editing t loaded attrs began ws) :
    s.Staged t attrs began (ws ++ rewrite loaded attrs began) := ⟨loaded, ws, h, rfl⟩

theorem Editing.assign (h : s.Editing t loaded attrs began ws) (attrs' : Ticket)
    (hid : attrs'.id = t) : (s.assign attrs').Editing t loaded attrs' began ws := by
  obtain ⟨hfailed, hlive, hdirty, hadded, hbegun, hwrites, -⟩ := h
  subst hid
  unfold Session.assign
  rw [hlive]
  refine ⟨hfailed, by simp, .inl ?_, hadded, hbegun, hwrites, rfl⟩
  rcases hdirty with hdirty | ⟨hdirty, -⟩ <;> simp [hdirty]

/-- What a flush writes for the edited ticket. -/
theorem Editing.updates (h : s.Editing t loaded attrs began ws) :
    s.dirtyInstances.filterMap (·.update s.startedAt) = rewrite loaded attrs began := by
  have hstarted : s.startedAt = began := by simp [Session.startedAt, h.begun]
  rcases h.dirty with hdirty | ⟨hdirty, rfl⟩
  · cases hupdate : Instance.update ⟨loaded, attrs⟩ began <;>
      simp [dirtyInstances, hdirty, h.live, hstarted, rewrite, hupdate]
  · simp [dirtyInstances, hdirty]

theorem Editing.flushed (h : s.Editing t loaded attrs began ws) :
    s.flushed.Editing t attrs attrs began (ws ++ rewrite loaded attrs began) where
  failed := h.failed
  live := by simp [Session.flushed, h.live, Instance.flushed]
  dirty := .inr ⟨rfl, rfl⟩
  added := rfl
  begun := h.begun
  writes := by simp [Session.flushed, flushWrites, h.updates, h.writes, h.added]
  attrs_id := h.attrs_id

/-- A flush without changes executes no statement; it may as well have executed. -/
theorem Editing.of_clean (h : s.Editing t loaded attrs began ws) (hdirty : s.dirty = []) :
    s.Editing t attrs attrs began (ws ++ rewrite loaded attrs began) := by
  rcases h.dirty with hdirty' | ⟨-, rfl⟩
  · simp [hdirty] at hdirty'
  · simpa using h

/-- A flush of the edited ticket together with a new outbox event. -/
theorem Editing.flushed_add (h : s.Editing t loaded attrs began ws) (row : OutboxEvent) :
    (s.add (.event row)).flushed.Editing t attrs attrs began
      (ws ++ rewrite loaded attrs began ++
        [.insertEvent { row with createdAt := began, updatedAt := began }]) where
  failed := h.failed
  live := by simp [Session.flushed, Session.add, h.live, Instance.flushed]
  dirty := .inr ⟨rfl, rfl⟩
  added := rfl
  begun := h.begun
  writes := by
    have hupdates := h.updates
    have hstarted : s.startedAt = began := by simp [Session.startedAt, h.begun]
    simp only [dirtyInstances, hstarted] at hupdates
    simp [Session.flushed, flushWrites, Session.add, dirtyInstances, Session.startedAt, h.begun,
      hupdates, h.writes, h.added, NewObject.insert]
  attrs_id := h.attrs_id

/-- A select of a ticket by a clean session. -/
theorem Clean.editing (h : s.Clean ws) (hcoherent : s.Coherent) {row : Ticket} (hrow : row.id = t)
    (now : Time) : ∃ began, (∀ b, s.begun = some b → began = b) ∧
      ((s.beginTx now).load row).Editing t (s.attrs row) (s.attrs row) began ws := by
  subst hrow
  refine ⟨s.begun.getD now, fun b hb => by simp [hb], ?_⟩
  cases hinst : s.identityMap row.id with
  | none =>
      have hattrs : s.attrs row = row := by simp [Session.attrs, hinst]
      rw [hattrs]
      refine ⟨?_, ?_, .inr ⟨?_, rfl⟩, ?_, ?_, ?_, rfl⟩ <;>
        simp [Session.load, Session.beginTx, hinst, h.failed, h.dirty, h.added, h.writes]
  | some inst =>
      have hattrs : s.attrs row = inst.attrs := by simp [Session.attrs, hinst]
      obtain ⟨-, hid, hclean⟩ := hcoherent _ _ hinst
      have hinst_eq : inst = ⟨inst.attrs, inst.attrs⟩ := by
        have := hclean (by simp [h.dirty])
        cases inst
        simp_all
      rw [hattrs]
      refine ⟨?_, ?_, .inr ⟨?_, rfl⟩, ?_, ?_, ?_, hid⟩ <;>
        simp [Session.load, Session.beginTx, hinst, h.failed, h.dirty, h.added, h.writes]
      exact hinst_eq

/-- A flushed session that commits is clean, and its instance stays live. -/
theorem Editing.committed (h : s.Editing t attrs attrs began ws) (hdirty : s.dirty = [])
    (now : Time) :
    (s.committed now).Clean [] ∧ (s.committed now).identityMap t = some ⟨attrs, attrs⟩ :=
  ⟨⟨h.failed, hdirty, h.added, rfl⟩, h.live⟩

end Session

end RiskProvider

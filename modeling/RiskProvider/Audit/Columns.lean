import RiskProvider.Freshness.Instances

/-!
# Audit columns

The columns of a ticket in which the handlers record what has been done about it. None of them is
ever emptied (`Ticket.Kept`), and a status comes with the columns that say how it was reached
(`Ticket.Stamped`). An `UPDATE` carries only the attributes that its session has changed, so it may
be built on outdated attributes; `Ticket.has_patch_diff` says that it still adds up.

* `Ticket.has`: the audit columns that are set.
* `Database.Grows`: rows stay, and so do their audit columns.
* `Database.Shows`: a row shows at least the audit columns of given attributes.
-/

namespace RiskProvider

/-- An audit column. -/
inductive Stamp where
  | recommendation
  | recommendedAt
  | settledAt
  | confirmedAt
  | cancelledAt
  | failureReason
deriving DecidableEq, Repr

/-- The audit columns that a status comes with. -/
def TicketStatus.stamps : TicketStatus → List Stamp
  | .new | .sentToProvider | .expired => []
  | .recommendedConfirm | .recommendedDecline => [.recommendation, .recommendedAt]
  | .settled => [.recommendation, .recommendedAt, .settledAt]
  | .confirmed | .declined => [.confirmedAt]
  | .cancellationRequested => [.failureReason, .cancelledAt]
  | .cancelled => [.cancelledAt]

namespace Ticket

/-- The audit column is set. -/
def has (t : Ticket) : Stamp → Bool
  | .recommendation => t.providerRecommendation.isSome
  | .recommendedAt => t.providerRecommendationAt.isSome
  | .settledAt => t.settledAt.isSome
  | .confirmedAt => t.confirmedAt.isSome
  | .cancelledAt => t.cancelledAt.isSome
  | .failureReason => t.failureReason.isSome

/-- Every audit column that is set in `t` is set in `t'`. -/
def Kept (t t' : Ticket) : Prop := ∀ c, t.has c → t'.has c

/-- The audit columns of the ticket's status are set. -/
def Stamped (t : Ticket) : Prop := ∀ c ∈ t.status.stamps, t.has c

variable {t t' t'' row loaded attrs : Ticket} {now : Time}

theorem Kept.refl (t : Ticket) : t.Kept t := fun _ hc => hc

theorem Kept.trans (h : t.Kept t') (h' : t'.Kept t'') : t.Kept t'' := fun c hc => h' c (h c hc)

theorem Kept.of_has (h : ∀ c, t'.has c = t.has c) : t.Kept t' := fun c hc => (h c).trans hc

/-- A column that is changed, but not emptied, is set afterwards if it was set in the row or in the
attributes. -/
theorem isSome_changed {α : Type} [DecidableEq α] {loaded attrs row : Option α}
    (hrow : loaded.isSome → row.isSome) (hattrs : loaded.isSome → attrs.isSome) :
    ((changed loaded attrs).getD row).isSome = (row.isSome || attrs.isSome) := by
  unfold changed
  split
  next heq =>
    subst heq
    cases hset : attrs.isSome with
    | false => simp
    | true => simpa using hrow hset
  next hne =>
    cases attrs with
    | some a => simp
    | none =>
        -- the column would have been emptied
        cases loaded with
        | none => exact absurd rfl hne
        | some a => exact absurd (hattrs rfl) (by simp)

/-- An update built on attributes that the row has kept sets what the attributes have set, and
empties nothing. -/
theorem has_patch_diff (hrow : loaded.Kept row) (hattrs : loaded.Kept attrs) (c : Stamp) :
    (row.patch (loaded.diff attrs) now).has c = (row.has c || attrs.has c) := by
  cases c with
  | recommendation => exact isSome_changed (hrow .recommendation) (hattrs .recommendation)
  | recommendedAt => exact isSome_changed (hrow .recommendedAt) (hattrs .recommendedAt)
  | settledAt => exact isSome_changed (hrow .settledAt) (hattrs .settledAt)
  | confirmedAt => exact isSome_changed (hrow .confirmedAt) (hattrs .confirmedAt)
  | cancelledAt => exact isSome_changed (hrow .cancelledAt) (hattrs .cancelledAt)
  | failureReason => exact isSome_changed (hrow .failureReason) (hattrs .failureReason)

theorem kept_patch (hrow : loaded.Kept row) (hattrs : loaded.Kept attrs) :
    row.Kept (row.patch (loaded.diff attrs) now) := by
  intro c hc
  rw [has_patch_diff hrow hattrs, hc, Bool.true_or]

theorem attrs_kept_patch (hrow : loaded.Kept row) (hattrs : loaded.Kept attrs) :
    attrs.Kept (row.patch (loaded.diff attrs) now) := by
  intro c hc
  rw [has_patch_diff hrow hattrs, hc, Bool.or_true]

/-- The status after an update is that of the row or that of the attributes. -/
theorem status_patch_diff (row loaded attrs : Ticket) (now : Time) :
    (row.patch (loaded.diff attrs) now).status = row.status ∨
      (row.patch (loaded.diff attrs) now).status = attrs.status := by
  change (changed loaded.status attrs.status).getD row.status = row.status ∨
    (changed loaded.status attrs.status).getD row.status = attrs.status
  unfold changed
  split
  · exact .inl rfl
  · exact .inr rfl

theorem Stamped.patch (h : row.Stamped) (hattrs : attrs.Stamped) (hrow : loaded.Kept row)
    (hkept : loaded.Kept attrs) : (row.patch (loaded.diff attrs) now).Stamped := by
  intro c hc
  rcases status_patch_diff row loaded attrs now with hstatus | hstatus
  · rw [hstatus] at hc
    exact kept_patch hrow hkept c (h c hc)
  · rw [hstatus] at hc
    exact attrs_kept_patch hrow hkept c (hattrs c hc)

/-- Attributes that change no column have set nothing that the loaded ones have not. -/
theorem kept_of_diff_eq (hrow : loaded.Kept row) (hattrs : loaded.Kept attrs)
    (hdiff : loaded.diff attrs = {}) : attrs.Kept row := by
  intro c hc
  have hpatch : (row.patch (loaded.diff attrs) 0).has c = (row.has c || attrs.has c) :=
    has_patch_diff hrow hattrs c
  rw [hdiff, hc, Bool.or_true] at hpatch
  cases c <;> exact hpatch

end Ticket

/-! ### Databases -/

namespace Database

/-- Every ticket has the audit columns of its status. -/
def Stamped (db : Database) : Prop := ∀ id row, db.tickets.lookup id = some row → row.Stamped

/-- Every ticket of `db` is one of `db'`, with all audit columns that it has had. -/
def Grows (db db' : Database) : Prop := ∀ id row, db.tickets.lookup id = some row →
  ∃ row', db'.tickets.lookup id = some row' ∧ row.Kept row'

/-- The ticket's row has every audit column that `t` has. -/
def Shows (db : Database) (id : UUID) (t : Ticket) : Prop :=
  ∃ row, db.tickets.lookup id = some row ∧ t.Kept row

variable {db db' db'' : Database} {id : UUID} {t t' : Ticket}

theorem Grows.refl (db : Database) : db.Grows db := fun _ row hrow => ⟨row, hrow, .refl row⟩

theorem Grows.trans (h : db.Grows db') (h' : db'.Grows db'') : db.Grows db'' := by
  intro id row hrow
  obtain ⟨row', hrow', hkept⟩ := h id row hrow
  obtain ⟨row'', hrow'', hkept'⟩ := h' id row' hrow'
  exact ⟨row'', hrow'', hkept.trans hkept'⟩

theorem Grows.of_eq (h : ∀ id, db'.tickets.lookup id = db.tickets.lookup id) : db.Grows db' :=
  fun id row hrow => ⟨row, (h id).trans hrow, .refl row⟩

theorem Shows.mono (h : db.Shows id t) (hgrows : db.Grows db') : db'.Shows id t := by
  obtain ⟨row, hrow, hkept⟩ := h
  obtain ⟨row', hrow', hkept'⟩ := hgrows id row hrow
  exact ⟨row', hrow', hkept.trans hkept'⟩

theorem shows_self {row : Ticket} (hrow : db.tickets.lookup id = some row) : db.Shows id row :=
  ⟨row, hrow, .refl row⟩

end Database

/-! ### Instances -/

/-- An instance stands for a row of `db`: it has emptied no audit column, and has those of its
status. -/
structure Instance.Stamped (inst : Instance) (db : Database) : Prop where
  attrs : inst.attrs.Stamped
  kept : inst.loaded.Kept inst.attrs
  shows : db.Shows inst.loaded.id inst.loaded

namespace Instance.Stamped

variable {inst : Instance} {db db' : Database}

theorem mono (h : inst.Stamped db) (hgrows : db.Grows db') : inst.Stamped db' :=
  ⟨h.attrs, h.kept, h.shows.mono hgrows⟩

/-- The update of an instance gives its row what the instance has. -/
theorem update {now : Time} (h : inst.Stamped db) (hdb : db.Stamped) :
    (db.writeAll (inst.update now).toList).Stamped ∧
      db.Grows (db.writeAll (inst.update now).toList) ∧
      (db.writeAll (inst.update now).toList).Shows inst.loaded.id inst.attrs := by
  obtain ⟨row, hrow, hkept⟩ := h.shows
  unfold Instance.update
  dsimp only
  split
  next hdiff =>
    -- nothing is written
    exact ⟨hdb, .refl db, row, hrow, Ticket.kept_of_diff_eq hkept h.kept hdiff⟩
  next =>
    have hself :
        (db.write (.updateTicket inst.loaded.id (inst.loaded.diff inst.attrs) now)).tickets.lookup
          inst.loaded.id = some (row.patch (inst.loaded.diff inst.attrs) now) := by
      simp [Database.write, hrow]
    refine ⟨fun id r hr => ?_, fun id r hr => ?_, _, hself, Ticket.attrs_kept_patch hkept h.kept⟩
    · by_cases hid : id = inst.loaded.id
      · subst hid
        obtain rfl := Option.some.inj (hself.symm.trans hr)
        exact (hdb _ _ hrow).patch h.attrs hkept h.kept
      · have hother : Write.ticketKey (.updateTicket inst.loaded.id (inst.loaded.diff inst.attrs) now)
            ≠ some id := by simpa [Write.ticketKey] using Ne.symm hid
        rw [Option.toList_some, Database.writeAll_cons, Database.writeAll_nil,
          Database.lookup_tickets_write hother] at hr
        exact hdb id r hr
    · by_cases hid : id = inst.loaded.id
      · subst hid
        obtain rfl := Option.some.inj (hrow.symm.trans hr)
        exact ⟨_, hself, Ticket.kept_patch hkept h.kept⟩
      · refine ⟨r, ?_, .refl r⟩
        rw [← hr]
        apply Database.lookup_tickets_writeAll
        intro wr hwr
        obtain rfl := Option.some.inj (Option.mem_toList.mp hwr)
        simpa [Write.ticketKey] using Ne.symm hid

end Instance.Stamped

end RiskProvider

import RiskProvider.Lifecycle.Changes

/-!
# Live instances and the rows they stand for

An instance keeps the attributes with which it was loaded, whatever other sessions commit.
`History.staleFor` says from the history alone whether one of them has committed a write to the
status of a ticket since a session loaded it. Until then the session's instance shows the status
of the row that its transaction sees, and afterwards a status that the ticket has had
(`Session.Current`); every step keeps this.
-/

namespace RiskProvider

/-- The ticket whose status column a write sets. -/
def Write.statusKey : Write → Option UUID
  | insertTicket row => some row.id
  | updateTicket id p _ => if p.status.isSome then some id else none
  | _ => none

theorem Write.ticketKey_of_statusKey {wr : Write} {t : UUID} (h : wr.statusKey = some t) :
    wr.ticketKey = some t := by
  cases wr with
  | insertTicket row => exact h
  | updateTicket id p now =>
      simp only [statusKey] at h
      split at h
      · exact h
      · cases h
  | _ => cases h

/-- Another session has committed a write to the status of the ticket since session `i` last
loaded it. -/
def History.staleFor (i : ℕ) (ticketId : UUID) : History → Bool
  | [] => false
  | .loaded j k :: l => !decide (j = i ∧ k = ticketId) && staleFor i ticketId l
  | .committed j ws :: l =>
      (decide (j ≠ i) && ws.any fun wr => wr.statusKey = some ticketId) || staleFor i ticketId l
  | _ :: l => staleFor i ticketId l

/-- The committed status of the ticket has been `status`. -/
def History.HasHad (t : UUID) (status : TicketStatus) (l : History) : Prop :=
  ∃ l' : History, l' <:+ l ∧ l'.status? t = some status

namespace History

variable {i : ℕ} {t : UUID} {l : History}

theorem HasHad.cons {status : TicketStatus} (h : l.HasHad t status) (e : Entry) :
    HasHad t status (e :: l) := by
  obtain ⟨l', hsuffix, hstatus⟩ := h
  exact ⟨l', hsuffix.trans (List.suffix_cons _ _), hstatus⟩

theorem staleFor_loaded_ne {j : ℕ} {k : UUID} (h : ¬(j = i ∧ k = t)) :
    staleFor i t (.loaded j k :: l) = staleFor i t l := by
  simp [staleFor, h]

theorem staleFor_committed_self {ws : List Write} :
    staleFor i t (.committed i ws :: l) = staleFor i t l := by
  simp [staleFor]

theorem staleFor_committed_of_ne {j : ℕ} {ws : List Write}
    (h : ∀ wr ∈ ws, wr.statusKey ≠ some t) :
    staleFor i t (.committed j ws :: l) = staleFor i t l := by
  have hany : (ws.any fun wr => wr.statusKey = some t) = false := by
    simpa using h
  simp [staleFor, hany]

theorem staleFor_of_committed {j : ℕ} {ws : List Write} (hj : j ≠ i)
    (h : staleFor i t (.committed j ws :: l) = false) :
    (∀ wr ∈ ws, wr.statusKey ≠ some t) ∧ staleFor i t l = false := by
  simpa [staleFor, hj] using h

end History

/-! ### Rows under writes -/

namespace Database

variable {db db' : Database} {t : UUID} {row : Ticket}

/-- What a list of writes makes of a row depends on this row only. -/
theorem lookup_writeAll_congr (ws : List Write)
    (h : db.tickets.lookup t = db'.tickets.lookup t) :
    (db.writeAll ws).tickets.lookup t = (db'.writeAll ws).tickets.lookup t := by
  induction ws generalizing db db' with
  | nil => exact h
  | cons wr ws ih =>
      refine ih ?_
      by_cases hkey : wr.ticketKey = some t
      · cases wr with
        | insertTicket row =>
            obtain rfl : row.id = t := Option.some.inj hkey
            simp [write]
        | updateTicket id p now =>
            obtain rfl : id = t := Option.some.inj hkey
            simp [write, h]
        | _ => cases hkey
      · rw [lookup_tickets_write hkey, lookup_tickets_write hkey, h]

/-- Writes that do not set the status of a ticket keep it. -/
theorem status_writeAll {ws : List Write} (hws : ∀ wr ∈ ws, wr.statusKey ≠ some t)
    (hrow : db.tickets.lookup t = some row) :
    ∃ row', (db.writeAll ws).tickets.lookup t = some row' ∧ row'.status = row.status := by
  induction ws generalizing db row with
  | nil => exact ⟨row, hrow, rfl⟩
  | cons wr ws ih =>
      have hwr := hws wr List.mem_cons_self
      have hrest := fun wr' hwr' => hws wr' (List.mem_cons_of_mem _ hwr')
      by_cases hkey : wr.ticketKey = some t
      · cases wr with
        | insertTicket r => exact absurd hkey hwr
        | updateTicket id p now =>
            obtain rfl : id = t := Option.some.inj hkey
            have hstatus : p.status = none := by simpa [Write.statusKey] using hwr
            have hpatched : (db.write (.updateTicket id p now)).tickets.lookup id =
                some (row.patch p now) := by
              simp [write, hrow]
            obtain ⟨row', hrow', heq⟩ := ih hrest hpatched
            exact ⟨row', hrow', by simpa [Ticket.patch, hstatus] using heq⟩
        | _ => cases hkey
      · exact ih hrest ((lookup_tickets_write hkey).trans hrow)

/-- Flushing instances brings the row of one of them to the instance's status, if the instance has
changed it. -/
theorem lookup_updates {s : Session} (hcoherent : s.Coherent) {inst : Instance}
    (hinst : s.identityMap t = some inst) (now : Time) (ks : List UUID)
    (hrow : db.tickets.lookup t = some row) :
    ∃ row', (db.writeAll ((ks.filterMap s.identityMap).filterMap
        (·.update now))).tickets.lookup t = some row' ∧
      row'.status = if t ∈ ks then (changed inst.loaded.status inst.attrs.status).getD row.status
        else row.status := by
  induction ks generalizing db row with
  | nil => exact ⟨row, hrow, by simp⟩
  | cons k ks ih =>
      cases hk : s.identityMap k with
      | none =>
          have hne : t ≠ k := fun heq => by simp [← heq, hinst] at hk
          simpa [hk, hne] using ih hrow
      | some inst' =>
          -- the update of the first instance, then those of the others
          have hwrites : ((k :: ks).filterMap s.identityMap).filterMap (·.update now) =
              rewrite inst'.loaded inst'.attrs now ++
                (ks.filterMap s.identityMap).filterMap (·.update now) := by
            cases hupdate : inst'.update now <;> simp [hk, rewrite, hupdate]
          have hid : inst'.loaded.id = k := (hcoherent _ _ hk).1
          rw [hwrites, writeAll_append]
          by_cases hne : t = k
          · subst hne
            obtain rfl : inst = inst' := Option.some.inj (hinst.symm.trans hk)
            have hloaded : db.tickets.lookup inst.loaded.id = some row := hid ▸ hrow
            have hedits : Edits (rewrite inst.loaded inst.attrs now) inst.loaded inst.attrs now :=
              .of_rewrite
            obtain ⟨row₁, hrow₁, hstatus₁, -⟩ := lookup_edits_self hedits hloaded
            obtain ⟨row', hrow', hstatus⟩ := ih (hid ▸ hrow₁)
            refine ⟨row', hrow', ?_⟩
            rw [hstatus, hstatus₁, if_pos List.mem_cons_self]
            -- a second update changes nothing more
            cases changed inst.loaded.status inst.attrs.status <;> simp
          · have hrow₁ : (db.writeAll (rewrite inst'.loaded inst'.attrs now)).tickets.lookup t =
                some row := by
              rw [lookup_tickets_writeAll fun wr hwr => ?_, hrow]
              simpa [ticketKey_rewrite hwr, hid] using Ne.symm hne
            simpa [hne] using ih hrow₁

end Database

/-! ### Current sessions -/

namespace Session

/-- Every live instance stands for a row that the transaction sees, and was last loaded or
flushed with its status, unless another session has committed one since. Even then the ticket has
had the status of the instance. -/
def Current (s : Session) (i : ℕ) (db : Database) (l : History) : Prop :=
  ∀ t inst, s.identityMap t = some inst →
    ∃ row, (db.writeAll s.writes).tickets.lookup t = some row ∧
      (l.staleFor i t = false → row.status = inst.loaded.status) ∧
      (row.status = inst.loaded.status ∨ l.HasHad t inst.loaded.status)

variable {s s' : Session} {i j : ℕ} {db : Database} {l : History}

theorem current_empty : Current {} i db l := by
  intro t inst h
  cases h

theorem Current.of_eq (h : s.Current i db l) (hmap : s'.identityMap = s.identityMap)
    (hwrites : s'.writes = s.writes) : s'.Current i db l := by
  unfold Current
  rw [hmap, hwrites]
  exact h

/-- Writes that are not about tickets change no instance's row. -/
theorem Current.of_write (h : s.Current i db l) {wr : Write} (hkey : wr.ticketKey = none)
    (hmap : s'.identityMap = s.identityMap) (hwrites : s'.writes = s.writes ++ [wr]) :
    s'.Current i db l := by
  intro t inst hinst
  obtain ⟨row, hrow, hstatus, hhad⟩ := h t inst (hmap ▸ hinst)
  refine ⟨row, ?_, hstatus, hhad⟩
  rw [hwrites, Database.writeAll_append,
    Database.lookup_tickets_writeAll (fun wr' hwr' => ?_), hrow]
  simp [List.mem_singleton.mp hwr', hkey]

theorem Current.cons (h : s.Current i db l) {e : Entry} (hload : ∀ k, e ≠ .loaded i k)
    (hcommit : ∀ j ws, e ≠ .committed j ws) : s.Current i db (e :: l) := by
  intro t inst hinst
  obtain ⟨row, hrow, hstatus, hhad⟩ := h t inst hinst
  refine ⟨row, hrow, fun hstale => hstatus ?_, hhad.imp_right (·.cons e)⟩
  cases e with
  | loaded j k =>
      have hji : ¬(j = i ∧ k = t) := fun heq => hload k (by rw [heq.1])
      rwa [History.staleFor_loaded_ne hji] at hstale
  | committed j ws => exact absurd rfl (hcommit j ws)
  | _ => exact hstale

theorem Current.assign (h : s.Current i db l) (a : Ticket) : (s.assign a).Current i db l := by
  unfold Session.assign
  split
  · exact h
  next inst₀ hinst₀ =>
    intro t inst hinst
    by_cases ht : t = a.id
    · subst ht
      obtain rfl : { inst₀ with attrs := a } = inst := by simpa using hinst
      obtain ⟨row, hrow, hstatus⟩ := h _ _ hinst₀
      exact ⟨row, hrow, hstatus⟩
    · exact h t inst (by simpa [ht] using hinst)

/-- A session loads a row that it sees. -/
theorem Current.load (h : s.Current i db l) {row : Ticket}
    (hrow : (db.writeAll s.writes).tickets.lookup row.id = some row)
    (hnone : s.identityMap row.id = none) : (s.load row).Current i db (.loaded i row.id :: l) := by
  unfold Session.load
  rw [hnone]
  intro t inst hinst
  by_cases ht : t = row.id
  · subst ht
    obtain rfl : Instance.mk row row = inst := by simpa using hinst
    exact ⟨row, hrow, fun _ => rfl, .inl rfl⟩
  · obtain ⟨row', hrow', hstatus, hhad⟩ := h t inst (by simpa [ht] using hinst)
    refine ⟨row', hrow', fun hstale => hstatus ?_, hhad.imp_right (·.cons _)⟩
    rwa [History.staleFor_loaded_ne fun heq => ht heq.2.symm] at hstale

/-- The only object of a flush, if it is a ticket, has the row that the flush inserts. -/
theorem lookup_added {t : UUID} {inst : Instance} (hadded : s.added.length ≤ 1)
    (h : s.addedInstance t = some inst) (db : Database) :
    (db.writeAll (s.added.map (·.insert s.startedAt))).tickets.lookup t = some inst.loaded := by
  unfold addedInstance at h
  match hlist : s.added with
  | [] => simp [hlist] at h
  | [.event row] => simp [hlist] at h
  | [.ticket row] =>
      simp only [hlist, List.findSome?_cons] at h
      split at h
      next inst' heq =>
        split at heq
        next hid =>
          subst hid
          cases heq
          cases h
          simp [NewObject.insert, Database.write]
        · cases heq
      · cases h
  | _ :: _ :: _ => simp [hlist] at hadded

/-- A flush brings the rows of changed tickets to the status of their instances. -/
theorem Current.flushed (h : s.Current i db l) (hcoherent : s.Coherent)
    (hadded : s.added.length ≤ 1)
    (hconflict : ∀ wr ∈ s.flushWrites, ¬ wr.Conflicts (db.writeAll s.writes)) :
    s.flushed.Current i db l := by
  intro t inst hinst
  simp only [Session.flushed, Database.writeAll_append, flushWrites]
  rcases flushed_identityMap hinst with ⟨inst₀, hinst₀, rfl⟩ | ⟨-, hinst⟩
  · obtain ⟨row, hrow, hstatus, hhad⟩ := h t inst₀ hinst₀
    -- a ticket with a row is not added again
    have hinserts : ∀ wr ∈ s.added.map (·.insert s.startedAt), wr.ticketKey ≠ some t := by
      intro wr hwr hkey
      obtain ⟨o, -, rfl⟩ := List.mem_map.mp hwr
      cases o with
      | event row => cases hkey
      | ticket r =>
          refine hconflict _ (List.mem_append_right _ hwr) (.inl ?_)
          obtain rfl : r.id = t := Option.some.inj hkey
          exact AList.lookup_isSome.mp (Option.isSome_of_eq_some hrow)
    rw [Database.lookup_tickets_writeAll hinserts]
    obtain ⟨row', hrow', hstatus'⟩ := Database.lookup_updates hcoherent hinst₀ s.startedAt s.dirty
      hrow
    have hattrs : row.status = inst₀.loaded.status → row'.status = inst₀.attrs.status := by
      intro hloaded
      rw [hstatus', hloaded]
      split
      · exact changed_getD _ _
      next hclean => rw [(hcoherent _ _ hinst₀).2.2 hclean]
    refine ⟨row', hrow', fun hstale => hattrs (hstatus hstale), ?_⟩
    rcases hhad with hloaded | hhad
    · exact .inl (hattrs hloaded)
    · by_cases hchanged : inst₀.attrs.status = inst₀.loaded.status
      · exact .inr (hchanged ▸ hhad)
      · -- the flush writes the changed status
        have hdirty : t ∈ s.dirty := by
          by_contra hclean
          exact hchanged (by rw [(hcoherent _ _ hinst₀).2.2 hclean])
        refine .inl ?_
        rw [hstatus', if_pos hdirty, changed_of_ne hchanged]
        rfl
  · exact ⟨inst.loaded, lookup_added hadded hinst _, fun _ => rfl, .inl rfl⟩

/-- The transaction of the session commits. -/
theorem Current.committed (h : s.Current i db l) (now : Time) :
    (s.committed now).Current i (db.writeAll s.writes) (.committed i s.writes :: l) := by
  intro t inst hinst
  obtain ⟨row, hrow, hstatus, hhad⟩ := h t inst hinst
  refine ⟨row, hrow, fun hstale => hstatus ?_, hhad.imp_right (·.cons _)⟩
  rwa [History.staleFor_committed_self] at hstale

/-- Another transaction commits, which has not written to the rows that this one has written
to. -/
theorem Current.committed_ne (h : s.Current i db l) (hj : j ≠ i) (hdb : db = l.database)
    {ws : List Write} (hdisjoint : ∀ t, (∃ wr ∈ ws, wr.ticketKey = some t) → ∀ wr ∈ s.writes,
      wr.ticketKey ≠ some t) :
    s.Current i (db.writeAll ws) (.committed j ws :: l) := by
  intro t inst hinst
  obtain ⟨row, hrow, hstatus, hhad⟩ := h t inst hinst
  by_cases htouch : ∃ wr ∈ ws, wr.ticketKey = some t
  · have hown := hdisjoint t htouch
    rw [Database.lookup_tickets_writeAll hown] at hrow ⊢
    -- the row that the instance stands for is the committed one
    have hhad' : History.HasHad t inst.loaded.status (.committed j ws :: l) := by
      refine History.HasHad.cons (hhad.elim (fun hloaded => ⟨l, List.suffix_refl l, ?_⟩) id) _
      exact History.status?_eq_some.mpr ⟨row, hdb ▸ hrow, hloaded⟩
    by_cases hstale : History.staleFor i t (.committed j ws :: l) = false
    · obtain ⟨hws, hstale'⟩ := History.staleFor_of_committed hj hstale
      obtain ⟨row', hrow', heq⟩ := Database.status_writeAll hws hrow
      exact ⟨row', hrow', fun _ => heq.trans (hstatus hstale'), .inr hhad'⟩
    · obtain ⟨row', hrow'⟩ := Option.isSome_iff_exists.mp (AList.lookup_isSome.mpr
        (Database.mem_tickets_writeAll ws (AList.lookup_isSome.mp (Option.isSome_of_eq_some hrow))))
      exact ⟨row', hrow', fun hfalse => absurd hfalse hstale, .inr hhad'⟩
  · push Not at htouch
    refine ⟨row, ?_, fun hstale => hstatus (History.staleFor_of_committed hj hstale).2,
      hhad.imp_right (·.cons _)⟩
    rw [← hrow]
    exact Database.lookup_writeAll_congr _ (Database.lookup_tickets_writeAll htouch)

end Session

end RiskProvider

import RiskProvider.Frames
import RiskProvider.Moves

/-!
# Stored texts

A flush checks the texts of the tickets and events that it writes, so that what is committed, and
what transactions have written so far, is within the declared lengths and has no U+0000
(`World.Stored`). No effect of any thread changes this (`World.Stored.exec`).
-/

namespace RiskProvider

open Interleaving

/-- The texts of the ticket go into their columns. -/
def Ticket.Recordable (t : Ticket) : Prop := t.Fits ∧ t.Storable

/-- The texts of an added object go into their columns. -/
def NewObject.Recordable (o : NewObject) : Prop := o.Fits ∧ o.Storable

namespace Write

/-- The texts that a write puts into tickets and events go into their columns. -/
def Recordable : Write → Prop
  | insertTicket row => row.Recordable
  | updateTicket _ p _ =>
      (∀ r, p.providerReason = some (some r) → r.length ≤ 512 ∧ storableText r) ∧
        ∀ r, p.failureReason = some (some r) → r.length ≤ 1024 ∧ storableText r
  | insertEvent row => (NewObject.event row).Recordable
  | _ => True

theorem recordable_of_ticketKey {wr : Write} (h : wr.ticketKey = none)
    (hevent : ∀ row, wr ≠ .insertEvent row) : wr.Recordable := by
  cases wr with
  | insertTicket row => cases h
  | updateTicket id p now => cases h
  | insertEvent row => exact absurd rfl (hevent row)
  | _ => trivial

end Write

theorem Ticket.Recordable.patch {row : Ticket} (h : row.Recordable) {p : TicketPatch} {id : UUID}
    {now now' : Time} (hp : (Write.updateTicket id p now').Recordable) :
    (row.patch p now).Recordable := by
  -- a patched text comes from the patch or from the row
  have hreason : ∀ r ∈ (row.patch p now).providerReason, r.length ≤ 512 ∧ storableText r := by
    intro r hr
    cases hreason : p.providerReason with
    | none =>
        have hrow : row.providerReason = some r := by simpa [Ticket.patch, hreason] using hr
        exact ⟨h.1.2.1 r hrow, h.2.2.1 r hrow⟩
    | some reason => exact hp.1 r (by simpa [Ticket.patch, hreason] using hr)
  have hfailure : ∀ r ∈ (row.patch p now).failureReason, r.length ≤ 1024 ∧ storableText r := by
    intro r hr
    cases hreason : p.failureReason with
    | none =>
        have hrow : row.failureReason = some r := by simpa [Ticket.patch, hreason] using hr
        exact ⟨h.1.2.2 r hrow, h.2.2.2.1 r hrow⟩
    | some reason => exact hp.2 r (by simpa [Ticket.patch, hreason] using hr)
  exact ⟨⟨h.1.1, fun r hr => (hreason r hr).1, fun r hr => (hfailure r hr).1⟩,
    h.2.1, fun r hr => (hreason r hr).2, fun r hr => (hfailure r hr).2, h.2.2.2.2⟩

/-- An update of an instance whose texts go into their columns. -/
theorem Instance.recordable_update {inst : Instance} {now : Time} {wr : Write}
    (h : inst.attrs.Recordable) (hwr : inst.update now = some wr) : wr.Recordable := by
  have hmem : wr ∈ rewrite inst.loaded inst.attrs now := Option.mem_toList.mpr hwr
  obtain rfl := mem_rewrite hmem
  have hchanged : ∀ {old new : Option String} {r : String}, changed old new = some (some r) →
      new = some r := by
    intro old new r h
    unfold changed at h
    split at h
    · cases h
    · exact Option.some.inj h
  exact ⟨fun r hr => ⟨h.1.2.1 r (hchanged hr), h.2.2.1 r (hchanged hr)⟩,
    fun r hr => ⟨h.1.2.2 r (hchanged hr), h.2.2.2.1 r (hchanged hr)⟩⟩

namespace Database

/-- The texts of all tickets and the payloads of all events can be held. -/
structure Recordable (db : Database) : Prop where
  tickets : ∀ id row, db.tickets.lookup id = some row → row.Recordable
  outbox : ∀ id row, db.outbox.lookup id = some row → Json.storableFields row.payload = true

theorem Recordable.write {db : Database} (h : db.Recordable) {wr : Write} (hwr : wr.Recordable) :
    (db.write wr).Recordable := by
  refine ⟨fun id row hrow => ?_, fun id row hrow => ?_⟩
  · cases wr with
    | insertTicket row' =>
        by_cases hid : id = row'.id
        · subst hid
          obtain rfl : row' = row := by simpa [Database.write] using hrow
          exact hwr
        · exact h.tickets id row (by rwa [Database.write, AList.lookup_insert_ne hid] at hrow)
    | updateTicket k p now =>
        by_cases hid : id = k
        · subst hid
          simp only [Database.write, Table.lookup_modify_self, Option.map_eq_some_iff] at hrow
          obtain ⟨row₀, hrow₀, rfl⟩ := hrow
          exact (h.tickets id row₀ hrow₀).patch hwr
        · exact h.tickets id row (by rwa [Database.write, Table.lookup_modify_ne _ _ hid] at hrow)
    | _ => exact h.tickets id row hrow
  · rcases outbox_of_write hrow with ⟨row₀, hrow₀, hsame⟩ | rfl
    · rw [hsame.payload]
      exact h.outbox id row₀ hrow₀
    · exact hwr.2.2.2

theorem Recordable.writeAll {db : Database} (h : db.Recordable) {ws : List Write}
    (hws : ∀ wr ∈ ws, wr.Recordable) : (db.writeAll ws).Recordable := by
  induction ws generalizing db with
  | nil => exact h
  | cons wr ws ih =>
      exact ih (h.write (hws wr List.mem_cons_self)) fun wr' hwr' =>
        hws wr' (List.mem_cons_of_mem _ hwr')

end Database

/-- What is committed and what transactions have written can be held. -/
structure World.Stored (w : World) : Prop where
  committed : w.db.Recordable
  written : ∀ i, ∀ wr ∈ (w.session i).writes, wr.Recordable

namespace World

variable {w w' : World} {i : ℕ} {e : Effect} {c : Choice}

theorem stored_initial : Stored {} where
  committed := ⟨fun _ _ h => (by cases h), fun _ _ h => by cases h⟩
  written _ _ h := by cases h

/-- What a transaction sees can be held. -/
theorem Stored.visible (h : w.Stored) (i : ℕ) : (w.visible i).Recordable :=
  h.committed.writeAll (h.written i)

theorem Stored.setSession (h : w.Stored) {s : Session} (hs : ∀ wr ∈ s.writes, wr.Recordable) :
    (w.setSession i s).Stored where
  committed := h.committed
  written j wr hwr := by
    by_cases hj : j = i
    · subst hj
      exact hs wr (by simpa using hwr)
    · exact h.written j wr (by simpa [hj] using hwr)

theorem Stored.rollback (h : w.Stored) : (w.rollback i).Stored := by
  have hset : (w.setSession i {}).Stored := h.setSession (by simp)
  exact ⟨hset.committed, hset.written⟩

theorem Stored.crash (h : w.Stored) : (w.crash i).Stored := by
  have hrollback : (w.rollback i).Stored := h.rollback
  rcases crash_eq (w := w) (i := i) with heq | heq
  · rw [heq]
    exact hrollback
  · rw [heq]
    exact ⟨hrollback.committed, hrollback.written⟩

theorem Stored.move (h : w.Stored) (hmove : Move i e w w') : w'.Stored := by
  cases hmove with
  | record entry hthread hquiet haction hreceived =>
      exact ⟨(db_record_of_quiet hquiet).symm ▸ h.committed, h.written⟩
  | session s hmap hdirty hadded hwrites => exact h.setSession (hwrites ▸ h.written i)
  | lock hdb hlog hsession => exact ⟨hdb ▸ h.committed, hsession ▸ h.written⟩
  | load row hrow =>
      refine h.setSession ?_
      unfold Session.load
      split <;> exact h.written i
  | assign t =>
      refine h.setSession ?_
      unfold Session.assign
      split <;> exact h.written i
  | add o => exact h.setSession (h.written i)
  | write wr hkey hevent =>
      refine h.setSession fun wr' hwr' => ?_
      rcases List.mem_append.mp hwr' with hwr' | hwr'
      · exact h.written i wr' hwr'
      · obtain rfl := List.mem_singleton.mp hwr'
        exact Write.recordable_of_ticketKey hkey hevent
  | flush hfits hconflict hstorable =>
      refine h.setSession fun wr hwr => ?_
      rcases List.mem_append.mp hwr with hwr | hwr
      · exact h.written i wr hwr
      rcases List.mem_append.mp hwr with hwr | hwr
      · obtain ⟨inst, hinst, hupdate⟩ := List.mem_filterMap.mp hwr
        exact Instance.recordable_update ⟨hfits.1 inst hinst, hstorable.1 inst hinst⟩ hupdate
      · obtain ⟨o, ho, rfl⟩ := List.mem_map.mp hwr
        have hobject : o.Recordable := ⟨hfits.2 o ho, hstorable.2 o ho⟩
        cases o <;> exact hobject
  | commit =>
      have hset : (w.setSession i ((w.session i).committed w.now)).Stored :=
        h.setSession (by simp [Session.committed])
      exact ⟨h.committed.writeAll (h.written i), hset.written⟩
  | rollback => exact h.rollback

theorem Stored.moves (h : w.Stored) (hmoves : Moves i e w w') : w'.Stored := by
  induction hmoves with
  | refl => exact h
  | tail _ hmove ih => exact ih.move hmove

theorem Stored.loadRow (h : w.Stored) (row : Ticket) : (w.loadRow i row).Stored := by
  unfold World.loadRow
  split
  · exact h
  · have hrecorded : (w.record (.loaded i row.id)).Stored := ⟨h.committed, h.written⟩
    refine hrecorded.setSession ?_
    unfold Session.load
    split <;> exact h.written i

theorem Stored.loadRows (h : w.Stored) (rows : List Ticket) : (w.loadRows i rows).Stored := by
  induction rows generalizing w with
  | nil => exact h
  | cons row rows ih => exact ih (h.loadRow row)

/-- An effect keeps what is stored as it is required to be. -/
theorem Stored.exec [Codecs] {r : e.Result} (h : w.Stored) (hiso : w.Isolated)
    (hexec : e.exec i c w = some (r, w')) : w'.Stored := by
  by_cases hstuck : ∃ olderThan limit, e = .selectStuck olderThan limit
  · -- the only effect that is no sequence of moves loads rows, and writes nothing
    obtain ⟨olderThan, limit, rfl⟩ := hstuck
    simp only [Effect.exec, statement] at hexec
    split at hexec
    · cases hexec
      exact h
    have hbegun : (w.beginTx i c).Stored := h.setSession (h.written i)
    split at hexec
    · cases hexec
      exact hbegun.setSession (hbegun.written i)
    · obtain ⟨ids, -, hids⟩ := Option.bind_eq_some_iff.mp hexec
      unfold selectStuck at hids
      split at hids
      · cases hids
        have hfound : ((w.beginTx i c).record (.found i olderThan ids)).Stored :=
          ⟨hbegun.committed, hbegun.written⟩
        have hloaded := hfound.loadRows (i := i) (ids.filterMap (w.beginTx i c).db.tickets.lookup)
        exact ⟨hloaded.committed, hloaded.written⟩
      · cases hids
  · exact h.moves (exec_moves_of_fresh hiso (fun olderThan limit he =>
      absurd ⟨olderThan, limit, he⟩ hstuck) hexec)

end World

end RiskProvider

import RiskProvider.Audit.Columns
import RiskProvider.Coherence
import RiskProvider.Freshness
import RiskProvider.Fulfilment

/-!
# Assignments keep the audit columns

`audited` is the contract of threads that assign to a ticket only attributes which empty no audit
column and set those of the status: in terms of the ticket that the thread has last selected or
assigned to. `World.Audited` is what follows for the rows: those that are committed and those that
transactions have written have the columns of their statuses, whatever instances were outdated.
-/

namespace RiskProvider

open Interleaving

/-- The contract of threads that keep the audit columns. The local state is the ticket that the
thread has last selected for update or assigned to. -/
def audited : Undertaking (Option Ticket) where
  may
    | σ, .assign t => ∃ t₀ ∈ σ, t₀.id = t.id ∧ t₀.Kept t ∧ (t₀.Stamped → t.Stamped)
    | _, .add (.ticket row) => row.Stamped
    | _, _ => True
  next
    | _, .utcNow, .error _, _ | _, .uuid4, .error _, _ => False
    | σ, .selectTicketForUpdate id, .ok (some t), σ' =>
        t.id = id ∧ (∀ t₀ ∈ σ, t₀.id = id → t = t₀) ∧ σ' = some t
    | _, .assign t, .ok _, σ' => σ' = some t
    | _, .rollback, _, σ' => σ' = none
    | σ, _, _, σ' => σ' = σ

/-- The session of thread `i` has a live instance with the attributes that the thread knows. -/
def Knows (i : ℕ) (σ : Option Ticket) (w : World) : Prop :=
  ∀ t ∈ σ, ∃ inst, (w.session i).identityMap t.id = some inst ∧ inst.attrs = t

/-- What a session has loaded, assigned, added and written keeps the audit columns. -/
structure Session.Stamped (s : Session) (db : Database) : Prop where
  visible : (db.writeAll s.writes).Stamped
  grows : db.Grows (db.writeAll s.writes)
  added : ∀ row, .ticket row ∈ s.added → row.Stamped
  instances : ∀ id inst, s.identityMap id = some inst → inst.Stamped (db.writeAll s.writes)

namespace Session.Stamped

variable {s s' : Session} {db db' : Database}

theorem empty (h : db.Stamped) : Session.Stamped {} db :=
  ⟨h, .refl db, by simp, fun _ _ hinst => by cases hinst⟩

/-- The session changes in nothing that matters. -/
theorem of_eq (h : s.Stamped db) (hmap : s'.identityMap = s.identityMap)
    (hadded : s'.added = s.added) (hwrites : s'.writes = s.writes) : s'.Stamped db := by
  refine ⟨?_, ?_, ?_, ?_⟩
  · rw [hwrites]
    exact h.visible
  · rw [hwrites]
    exact h.grows
  · rw [hadded]
    exact h.added
  · rw [hmap, hwrites]
    exact h.instances

/-- A row that is no ticket is written. -/
theorem write (h : s.Stamped db) {wr : Write} (hkey : wr.ticketKey = none) :
    Session.Stamped { s with writes := s.writes ++ [wr] } db := by
  have hlookup : ∀ id, (db.writeAll (s.writes ++ [wr])).tickets.lookup id =
      (db.writeAll s.writes).tickets.lookup id := by
    intro id
    rw [Database.writeAll_append]
    apply Database.lookup_tickets_write
    simp [hkey]
  refine ⟨fun id row hrow => h.visible id row ((hlookup id).symm.trans hrow),
    h.grows.trans (.of_eq hlookup), h.added, fun id inst hinst => ?_⟩
  exact (h.instances id inst hinst).mono (.of_eq hlookup)

/-- A row that the transaction sees is loaded. -/
theorem load (h : s.Stamped db) {row : Ticket}
    (hrow : (db.writeAll s.writes).tickets.lookup row.id = some row) : (s.load row).Stamped db := by
  unfold Session.load
  split
  · exact h
  next =>
    refine ⟨h.visible, h.grows, h.added, fun id inst hinst => ?_⟩
    by_cases hid : id = row.id
    · subst hid
      obtain rfl : Instance.mk row row = inst := by simpa using hinst
      exact ⟨h.visible _ _ hrow, .refl row, Database.shows_self hrow⟩
    · exact h.instances id inst (by simpa [hid] using hinst)

/-- Attributes are assigned that empty no audit column and set those of the status. -/
theorem assign (h : s.Stamped db) {t : Ticket} {inst : Instance}
    (hinst : s.identityMap t.id = some inst) (hkept : inst.attrs.Kept t)
    (hstamped : inst.attrs.Stamped → t.Stamped) : (s.assign t).Stamped db := by
  obtain ⟨hattrs, hloaded, hshows⟩ := h.instances _ _ hinst
  unfold Session.assign
  rw [hinst]
  refine ⟨h.visible, h.grows, h.added, fun id inst' hinst' => ?_⟩
  by_cases hid : id = t.id
  · subst hid
    obtain rfl : { inst with attrs := t } = inst' := by simpa using hinst'
    exact ⟨hstamped hattrs, hloaded.trans hkept, hshows⟩
  · exact h.instances id inst' (by simpa [hid] using hinst')

/-- An object is added. -/
theorem add (h : s.Stamped db) {o : NewObject} (ho : ∀ row, o = .ticket row → row.Stamped) :
    (s.add o).Stamped db := by
  refine ⟨h.visible, h.grows, fun row hrow => ?_, h.instances⟩
  rcases List.mem_append.mp hrow with hrow | hrow
  · exact h.added row hrow
  · exact ho row (List.mem_singleton.mp hrow).symm

/-- The transaction commits. -/
theorem committed (h : s.Stamped db) (now : Time) :
    (s.committed now).Stamped (db.writeAll s.writes) :=
  ⟨h.visible, .refl _, h.added, h.instances⟩

/-- Another transaction commits rows that this one has not written. -/
theorem frame (h : s.Stamped db) {ws : List Write} (hstamped : (db.writeAll ws).Stamped)
    (hgrows : db.Grows (db.writeAll ws))
    (hdisjoint : ∀ t, (∃ wr ∈ ws, wr.ticketKey = some t) → ∀ wr ∈ s.writes,
      wr.ticketKey ≠ some t) : s.Stamped (db.writeAll ws) := by
  -- a row is as this transaction has written it, or as it is committed
  have hrow : ∀ id, ((db.writeAll ws).writeAll s.writes).tickets.lookup id =
      (db.writeAll s.writes).tickets.lookup id ∨
      (db.writeAll s.writes).tickets.lookup id = db.tickets.lookup id ∧
      ((db.writeAll ws).writeAll s.writes).tickets.lookup id =
        (db.writeAll ws).tickets.lookup id := by
    intro id
    by_cases htouch : ∃ wr ∈ ws, wr.ticketKey = some id
    · have hown := hdisjoint id htouch
      exact .inr ⟨Database.lookup_tickets_writeAll hown, Database.lookup_tickets_writeAll hown⟩
    · push Not at htouch
      exact .inl (Database.lookup_writeAll_congr _ (Database.lookup_tickets_writeAll htouch))
  have hvisible : (db.writeAll s.writes).Grows ((db.writeAll ws).writeAll s.writes) := by
    intro id row hid
    rcases hrow id with heq | ⟨hold, hnew⟩
    · exact ⟨row, heq.trans hid, .refl row⟩
    · rw [hold] at hid
      rw [hnew]
      exact hgrows id row hid
  refine ⟨fun id row hid => ?_, fun id row hid => ?_, h.added, fun id inst hinst =>
    (h.instances id inst hinst).mono hvisible⟩
  · rcases hrow id with heq | ⟨-, hnew⟩
    · exact h.visible id row (heq.symm.trans hid)
    · exact hstamped id row (hnew.symm.trans hid)
  · by_cases htouch : ∃ wr ∈ ws, wr.ticketKey = some id
    · rw [Database.lookup_tickets_writeAll (hdisjoint id htouch)]
      exact ⟨row, hid, .refl row⟩
    · push Not at htouch
      rw [Database.lookup_tickets_writeAll htouch] at hid
      rw [Database.lookup_writeAll_congr _ (Database.lookup_tickets_writeAll htouch)]
      exact h.grows id row hid

/-! ### Flushes -/

/-- The updates of a flush, one instance after the other. -/
theorem updates (hdb : db.Stamped) {insts : List Instance} (h : ∀ inst ∈ insts, inst.Stamped db)
    (now : Time) :
    (db.writeAll (insts.filterMap (·.update now))).Stamped ∧
      db.Grows (db.writeAll (insts.filterMap (·.update now))) ∧
      ∀ inst ∈ insts, (db.writeAll (insts.filterMap (·.update now))).Shows inst.loaded.id
        inst.attrs := by
  induction insts generalizing db with
  | nil => exact ⟨hdb, .refl db, by simp⟩
  | cons inst insts ih =>
      have hwrites : (inst :: insts).filterMap (·.update now) =
          (inst.update now).toList ++ insts.filterMap (·.update now) := by
        cases hupdate : inst.update now <;> simp [hupdate]
      rw [hwrites, Database.writeAll_append]
      obtain ⟨hstamped, hgrows, hshows⟩ := (h inst List.mem_cons_self).update hdb
      obtain ⟨hstamped', hgrows', hshows'⟩ := ih hstamped fun inst' hinst' =>
        (h inst' (List.mem_cons_of_mem _ hinst')).mono hgrows
      refine ⟨hstamped', hgrows.trans hgrows', fun inst' hinst' => ?_⟩
      rcases List.mem_cons.mp hinst' with rfl | hinst'
      · exact hshows.mono hgrows'
      · exact hshows' inst' hinst'

/-- The insert of at most one object, which is new. -/
theorem inserts (hdb : db.Stamped) {added : List NewObject} (hadded : added.length ≤ 1)
    (hstamped : ∀ row, .ticket row ∈ added → row.Stamped ∧ row.id ∉ db.tickets) (now : Time) :
    (db.writeAll (added.map (·.insert now))).Stamped ∧
      db.Grows (db.writeAll (added.map (·.insert now))) := by
  have hquiet : ∀ db' : Database, (∀ id, db'.tickets.lookup id = db.tickets.lookup id) →
      db'.Stamped ∧ db.Grows db' := fun db' heq =>
    ⟨fun id row hrow => hdb id row ((heq id).symm.trans hrow), .of_eq heq⟩
  rcases added with _ | ⟨o, _ | ⟨o', added⟩⟩
  · exact hquiet db fun _ => rfl
  · cases o with
    | event row => exact hquiet _ fun _ => rfl
    | ticket row =>
      obtain ⟨hrow, hnew⟩ := hstamped row (List.mem_singleton.mpr rfl)
      refine ⟨fun id row' hrow' => ?_, fun id row' hrow' => ⟨row', ?_, .refl row'⟩⟩
      · by_cases hid : id = row.id
        · subst hid
          obtain rfl : { row with createdAt := now, updatedAt := now } = row' := by
            simpa [NewObject.insert, Database.write] using hrow'
          exact hrow
        · exact hdb id row' (by simpa [NewObject.insert, Database.write,
            AList.lookup_insert_ne hid] using hrow')
      · have hid : id ≠ row.id := by
          rintro rfl
          exact hnew (AList.lookup_isSome.mp (Option.isSome_of_eq_some hrow'))
        simpa [NewObject.insert, Database.write, AList.lookup_insert_ne hid] using hrow'
  · simp at hadded

/-- A flush without conflicts. -/
theorem flushed (h : s.Stamped db) (hcoherent : s.Coherent) (hadded : s.added.length ≤ 1)
    (hconflict : ∀ wr ∈ s.flushWrites, ¬ wr.Conflicts (db.writeAll s.writes)) :
    s.flushed.Stamped db := by
  have hdirty : ∀ inst ∈ s.dirtyInstances, inst.Stamped (db.writeAll s.writes) := by
    intro inst hinst
    obtain ⟨id, -, hid⟩ := List.mem_filterMap.mp hinst
    exact h.instances id inst hid
  obtain ⟨hupdated, hupdates, hshows⟩ := updates h.visible hdirty s.startedAt
  have hnew : ∀ row, .ticket row ∈ s.added → row.Stamped ∧
      row.id ∉ ((db.writeAll s.writes).writeAll
        (s.dirtyInstances.filterMap (·.update s.startedAt))).tickets := by
    intro row hrow
    refine ⟨h.added row hrow, fun hmem => ?_⟩
    have hwrite : .insertTicket { row with createdAt := s.startedAt, updatedAt := s.startedAt } ∈
        s.flushWrites := List.mem_append_right _ (List.mem_map.mpr ⟨_, hrow, rfl⟩)
    refine hconflict _ hwrite (.inl ?_)
    by_contra hold
    obtain ⟨row', hrow', -⟩ := Database.inserted_of_mem_tickets hmem hold
    -- the updates insert no row
    obtain ⟨inst, -, hupdate⟩ := List.mem_filterMap.mp hrow'
    obtain ⟨⟩ := mem_rewrite (Option.mem_toList.mpr hupdate)
  obtain ⟨hinserted, hinserts⟩ := inserts hupdated hadded hnew s.startedAt
  have hwrites : db.writeAll s.flushed.writes = ((db.writeAll s.writes).writeAll
      (s.dirtyInstances.filterMap (·.update s.startedAt))).writeAll
        (s.added.map (·.insert s.startedAt)) := by
    simp [Session.flushed, Session.flushWrites, Database.writeAll_append]
  refine ⟨?_, ?_, by simp [Session.flushed], fun id inst hinst => ?_⟩
  · rw [hwrites]
    exact hinserted
  · rw [hwrites]
    exact h.grows.trans (hupdates.trans hinserts)
  rw [hwrites]
  rcases Session.flushed_identityMap hinst with ⟨inst₀, hinst₀, rfl⟩ | ⟨-, hnewInst⟩
  · have hstamped := h.instances id inst₀ hinst₀
    obtain ⟨hloaded, hattrs, hclean⟩ := hcoherent id inst₀ hinst₀
    refine ⟨hstamped.attrs, .refl _, ?_⟩
    refine Database.Shows.mono ?_ hinserts
    change Database.Shows _ inst₀.attrs.id inst₀.attrs
    -- an instance that is not dirty shows what it has loaded
    by_cases hmem : id ∈ s.dirty
    · have hshown := hshows inst₀ (List.mem_filterMap.mpr ⟨id, hmem, hinst₀⟩)
      rwa [hloaded, ← hattrs] at hshown
    · rw [hclean hmem]
      exact hstamped.shows.mono hupdates
  · have hrow := Session.lookup_added hadded hnewInst ((db.writeAll s.writes).writeAll
      (s.dirtyInstances.filterMap (·.update s.startedAt)))
    obtain ⟨hid, heq⟩ := Session.addedInstance_eq_some hnewInst
    rw [← hid, heq] at hrow
    refine ⟨?_, heq ▸ .refl _, _, hrow, .refl _⟩
    rw [heq]
    exact hinserted _ _ hrow

end Session.Stamped

/-! ### The rows -/

/-- The audit columns are kept: in what is committed, in what transactions have written, and since
every earlier point of the history. -/
structure World.Audited (w : World) : Prop where
  sessions : ∀ i, (w.session i).Stamped w.db
  history : ∀ l : History, l <:+ w.log → l.database.Stamped ∧ l.database.Grows w.db

namespace World

variable {w w' : World} {i j : ℕ} {e : Effect} {c : Choice} {σ : Option Ticket}

namespace Audited

theorem initial : Audited {} where
  sessions _ := .empty fun _ _ h => by cases h
  history l hl := by
    obtain rfl := List.suffix_nil.mp hl
    refine ⟨fun _ _ h => ?_, .refl _⟩
    cases h

/-- What is committed. -/
theorem stamped (h : w.Audited) (hiso : w.Isolated) : w.db.Stamped := by
  rw [hiso.db_eq]
  exact (h.history w.log List.suffix_rfl).1

theorem setSession (h : w.Audited) {s : Session} (hs : s.Stamped w.db) :
    (w.setSession i s).Audited where
  sessions j := by
    by_cases hj : j = i
    · subst hj
      simpa using hs
    · simpa [hj] using h.sessions j
  history := h.history

theorem record (h : w.Audited) {entry : Entry} (hquiet : ∀ j ws, entry ≠ .committed j ws) :
    (w.record entry).Audited where
  sessions j := by
    rw [db_record_of_quiet hquiet]
    exact h.sessions j
  history l hl := by
    rw [db_record_of_quiet hquiet]
    rcases List.suffix_cons_iff.mp hl with rfl | hl
    · have hdb : History.database (entry :: w.log) = w.log.database := by
        cases entry with
        | committed j ws => exact absurd rfl (hquiet j ws)
        | _ => rfl
      rw [hdb]
      exact h.history w.log List.suffix_rfl
    · exact h.history l hl

theorem of_eq (h : w.Audited) (hdb : w'.db = w.db) (hlog : w'.log = w.log)
    (hsession : w'.session = w.session) : w'.Audited where
  sessions := by
    rw [hdb, hsession]
    exact h.sessions
  history := by
    rw [hdb, hlog]
    exact h.history

theorem rollback (h : w.Audited) (hiso : w.Isolated) : (w.rollback i).Audited := by
  have hset : (w.setSession i {}).Audited := h.setSession (.empty (h.stamped hiso))
  exact ⟨hset.sessions, hset.history⟩

/-- The rows that a transaction commits are not those that others have written. -/
theorem commit (h : w.Audited) (hiso : w.Isolated) : (w.commit i).Audited := by
  have hdb : (w.commit i).db = w.db.writeAll (w.session i).writes := rfl
  have hi := h.sessions i
  refine ⟨fun j => ?_, fun l hl => ?_⟩
  · rw [hdb]
    by_cases hj : j = i
    · subst hj
      simpa [World.commit] using hi.committed w.now
    · -- both would hold the lock of a row that both have written
      have hframe := (h.sessions j).frame hi.visible hi.grows fun t htouch wr hwr hkey => hj (by
        obtain ⟨wr', hwr', hkey'⟩ := htouch
        have hlocked := (hiso.writes_held i wr' hwr').ticket t hkey'
        have hlocked' := (hiso.writes_held j wr hwr).ticket t hkey
        exact Option.some.inj (hlocked'.symm.trans hlocked))
      simpa [World.commit, hj] using hframe
  · rw [hdb]
    rcases List.suffix_cons_iff.mp hl with rfl | hl
    · change (w.log.database.writeAll (w.session i).writes).Stamped ∧ _
      rw [← hiso.db_eq]
      exact ⟨hi.visible, .of_eq fun id => by rw [← hdb, hiso.commit.db_eq]; rfl⟩
    · obtain ⟨hstamped, hgrows⟩ := h.history l hl
      exact ⟨hstamped, hgrows.trans hi.grows⟩

/-- A move other than an assignment, an addition or a commit. -/
theorem move (h : w.Audited) (hdb : w.db.Stamped) (hcoherent : (w.session i).Coherent)
    (hadded : (w.session i).added.length ≤ 1) (hassign : ∀ t, e ≠ .assign t)
    (hadd : ∀ o, e ≠ .add o) (hcommit : e ≠ .commit) (hmove : Move i e w w') :
    w'.Audited ∧ w'.db = w.db ∧ (w'.session i).Coherent ∧ (w'.session i).added.length ≤ 1 := by
  cases hmove with
  | record entry hthread hquiet haction hreceived =>
      exact ⟨h.record hquiet, db_record_of_quiet hquiet, hcoherent, hadded⟩
  | session s hmap hdirty hadded' hwrites =>
      refine ⟨h.setSession ((h.sessions i).of_eq hmap hadded' hwrites), rfl, ?_, ?_⟩
      · rw [session_setSession_self]
        exact hcoherent.of_eq hmap hdirty
      · rw [session_setSession_self, hadded']
        exact hadded
  | lock hdb hlog hsession =>
      refine ⟨h.of_eq hdb hlog hsession, hdb, ?_, ?_⟩
      · rw [hsession]
        exact hcoherent
      · rw [hsession]
        exact hadded
  | load row hrow =>
      refine ⟨h.setSession ((h.sessions i).load hrow), rfl, ?_, ?_⟩ <;>
        rw [session_setSession_self]
      · exact hcoherent.load row
      · unfold Session.load
        split <;> exact hadded
  | assign t => exact absurd rfl (hassign t)
  | add o => exact absurd rfl (hadd o)
  | write wr hkey =>
      refine ⟨h.setSession ((h.sessions i).write hkey), rfl, ?_, ?_⟩ <;>
        rw [session_setSession_self]
      · exact hcoherent.of_eq rfl rfl
      · exact hadded
  | flush hfits hconflict =>
      refine ⟨h.setSession ((h.sessions i).flushed hcoherent hadded hconflict), rfl, ?_, ?_⟩ <;>
        rw [session_setSession_self]
      · exact hcoherent.flushed
      · simp [Session.flushed]
  | commit => exact absurd rfl hcommit
  | rollback =>
      have hset : (w.setSession i {}).Audited := h.setSession (.empty hdb)
      refine ⟨⟨hset.sessions, hset.history⟩, rfl, ?_, ?_⟩
      · simpa [World.rollback] using Session.coherent_empty
      · simp [World.rollback]

theorem moves (h : w.Audited) (hdb : w.db.Stamped) (hcoherent : (w.session i).Coherent)
    (hadded : (w.session i).added.length ≤ 1) (hassign : ∀ t, e ≠ .assign t)
    (hadd : ∀ o, e ≠ .add o) (hcommit : e ≠ .commit) (hmoves : Moves i e w w') :
    w'.Audited ∧ w'.db = w.db ∧ (w'.session i).Coherent ∧ (w'.session i).added.length ≤ 1 := by
  induction hmoves with
  | refl => exact ⟨h, rfl, hcoherent, hadded⟩
  | tail _ hmove ih =>
      obtain ⟨ih, heq, hcoherent', hadded'⟩ := ih
      obtain ⟨h', heq', hrest⟩ :=
        ih.move (heq ▸ hdb) hcoherent' hadded' hassign hadd hcommit hmove
      exact ⟨h', heq'.trans heq, hrest⟩

/-- An effect that the contract allows keeps the audit columns. -/
theorem exec [Codecs] {r : e.Result} (h : w.Audited) (hiso : w.Isolated) (hcurrent : w.Current)
    (hguar : Guarantee i e w) (hknows : Knows i σ w) (hmay : audited.may σ e)
    (hexec : e.exec i c w = some (r, w')) : w'.Audited := by
  -- effects other than these three leave the attributes of instances and the rows as they are
  have hother := fun hassign hadd hcommit => (h.moves (h.stamped hiso) (hiso.coherent i)
    (hcurrent.added i) hassign hadd hcommit (exec_moves hiso hguar hexec)).1
  cases e with
  | assign t =>
      obtain ⟨t₀, ht₀, hid, hkept, hstamped⟩ := hmay
      obtain ⟨inst, hinst, rfl⟩ := hknows t₀ ht₀
      obtain ⟨-, -, heq⟩ := Option.map_eq_some_iff.mp hexec
      cases heq
      exact h.setSession ((h.sessions i).assign (hid ▸ hinst) hkept hstamped)
  | add o =>
      obtain ⟨-, -, heq⟩ := Option.map_eq_some_iff.mp hexec
      cases heq
      refine h.setSession ((h.sessions i).add fun row ho => ?_)
      subst ho
      exact hmay
  | commit =>
      simp only [Effect.exec] at hexec
      split at hexec
      · cases hexec
        exact h
      · split at hexec
        · cases hexec
          exact h.commit hiso
        · cases hexec
          exact h.setSession ((h.sessions i).of_eq rfl rfl rfl)
        · cases hexec
  | _ => exact hother (by simp) (by simp) (by simp)

theorem crash (h : w.Audited) (hiso : w.Isolated) : (w.crash i).Audited := by
  have hrollback : (w.rollback i).Audited := h.rollback hiso
  rcases crash_eq (w := w) (i := i) with heq | heq
  · rw [heq]
    exact hrollback
  · rw [heq]
    exact hrollback.record (by simp)

end Audited

end World

/-! ### What a thread knows -/

namespace Knows

variable {w w' : World} {i : ℕ} {e : Effect} {c : Choice} {σ : Option Ticket}

theorem nothing (i : ℕ) (w : World) : Knows i none w := by
  intro t ht
  cases ht

theorem of_eq (h : Knows i σ w) (hsession : w'.session i = w.session i) : Knows i σ w' := by
  unfold Knows
  rw [hsession]
  exact h

/-- Instances stay live, with their attributes, unless they are assigned to or the session ends. -/
theorem move (h : Knows i σ w) (hassign : ∀ t, e ≠ .assign t) (hrollback : e ≠ .rollback)
    (hmove : World.Move i e w w') : Knows i σ w' := by
  intro t ht
  obtain ⟨inst, hinst, hattrs⟩ := h t ht
  cases hmove with
  | record entry hthread hquiet haction hreceived => exact ⟨inst, hinst, hattrs⟩
  | session s hmap hdirty hadded hwrites => exact ⟨inst, by simpa [hmap] using hinst, hattrs⟩
  | lock hdb hlog hsession => exact ⟨inst, hsession ▸ hinst, hattrs⟩
  | load row hrow =>
      refine ⟨inst, ?_, hattrs⟩
      rw [World.session_setSession_self]
      unfold Session.load
      split
      · exact hinst
      next hnone =>
        have hne : t.id ≠ row.id := fun heq => by
          rw [heq, hnone] at hinst
          cases hinst
        simpa [Function.update_of_ne hne] using hinst
  | assign t => exact absurd rfl (hassign t)
  | add o => exact ⟨inst, by simpa [Session.add] using hinst, hattrs⟩
  | write wr hkey => exact ⟨inst, by simpa using hinst, hattrs⟩
  | flush hfits hconflict =>
      refine ⟨inst.flushed, ?_, hattrs⟩
      simp [Session.flushed, hinst]
  | commit => exact ⟨inst, by simpa [World.commit, Session.committed] using hinst, hattrs⟩
  | rollback => exact absurd rfl hrollback

theorem moves (h : Knows i σ w) (hassign : ∀ t, e ≠ .assign t) (hrollback : e ≠ .rollback)
    (hmoves : World.Moves i e w w') : Knows i σ w' := by
  induction hmoves with
  | refl => exact h
  | tail _ hmove ih => exact ih.move hassign hrollback hmove

/-- A loaded row has a live instance. -/
theorem live_loadRow (w : World) (i : ℕ) (row : Ticket) : ∃ inst,
    ((w.loadRow i row).session i).identityMap row.id = some inst ∧
      inst.attrs = (w.session i).attrs row := by
  cases hmap : (w.session i).identityMap row.id with
  | some inst => exact ⟨inst, by simp [World.loadRow, hmap], by simp [Session.attrs, hmap]⟩
  | none =>
      exact ⟨{ loaded := row, attrs := row }, by simp [World.loadRow, Session.load, hmap],
        by simp [Session.attrs, hmap]⟩

/-- A select leaves a live instance with the attributes that it returns. -/
theorem selected {id : UUID} {t : Ticket} (hid : t.id = id)
    (h : (Effect.selectTicketForUpdate id).exec i c w = some (.ok (some t), w'))
    (hiso : w.Isolated) : Knows i (some t) w' := by
  intro t' ht'
  obtain rfl := Option.some.inj ht'
  simp only [Effect.exec, World.statement] at h
  split at h
  · cases h
  split at h
  · cases h
  simp only [World.selectTicketForUpdate] at h
  split at h
  · split at h
    · cases h
    next row hrow =>
      cases h
      have hbegun : (w.beginTx i c).Isolated := World.acts_beginTx.isolated hiso
      have hrowid : row.id = id := hbegun.keyed_visible.tickets _ _ hrow
      obtain ⟨inst, hinst, hattrs⟩ := live_loadRow (w.beginTx i c) i row
      exact ⟨inst, by rw [hid, ← hrowid]; exact hinst, hattrs⟩
  · cases h

/-- An effect that the contract allows leads to what the contract says. -/
theorem exec [Codecs] {r : e.Result} (h : Knows i σ w) (hiso : w.Isolated)
    (hguar : Guarantee i e w) (hmay : audited.may σ e) (hexec : e.exec i c w = some (r, w')) :
    ∃ σ', audited.next σ e r σ' ∧ Knows i σ' w' := by
  have hmoves := World.exec_moves hiso hguar hexec
  cases e with
  | assign t =>
      obtain ⟨t₀, ht₀, hid, -, -⟩ := hmay
      obtain ⟨inst, hinst, -⟩ := h t₀ ht₀
      obtain ⟨-, -, heq⟩ := Option.map_eq_some_iff.mp hexec
      cases heq
      refine ⟨some t, rfl, fun t' ht' => ?_⟩
      obtain rfl := Option.some.inj ht'
      rw [hid] at hinst
      exact ⟨{ inst with attrs := t }, by simp [Session.assign, hinst], rfl⟩
  | rollback => exact ⟨none, by cases r <;> rfl, .nothing i w'⟩
  | utcNow | uuid4 =>
      have hsame := h.moves (by simp) (by simp) hmoves
      obtain ⟨_, -, heq⟩ := Option.map_eq_some_iff.mp hexec
      cases heq
      exact ⟨σ, rfl, hsame⟩
  | selectTicketForUpdate id =>
      have hsame := h.moves (by simp) (by simp) hmoves
      rcases r with x | _ | t
      · exact ⟨σ, rfl, hsame⟩
      · exact ⟨σ, rfl, hsame⟩
      · obtain ⟨-, row, hrow, hid, ht⟩ := World.selected_of_exec hiso hexec
        have htid : t.id = id := by
          subst ht
          unfold Session.attrs
          split
          next inst hinst => exact (hiso.coherent i _ _ hinst).2.1.trans hid
          · exact hid
        refine ⟨some t, ⟨htid, fun t₀ ht₀ hid₀ => ?_, rfl⟩, selected htid hexec hiso⟩
        -- the live instance is returned as it is
        obtain ⟨inst, hinst, hattrs⟩ := h t₀ ht₀
        rw [hid₀, ← hid] at hinst
        rw [ht, ← hattrs]
        simp [Session.attrs, hinst]
  | _ => exact ⟨σ, by cases r <;> rfl, h.moves (by simp) (by simp) hmoves⟩

end Knows

end RiskProvider

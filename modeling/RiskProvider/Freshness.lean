import RiskProvider.Executions
import RiskProvider.Freshness.Instances
import RiskProvider.Moves

/-!
# Reads under a lock

`get_by_id_for_update` locks the row, but a select whose instance is live returns it with the
attributes that it has. `lock_then_read_fresh`: as long as no session locks a ticket of which it
holds an instance that another session's commit has outdated (`FreshReads`), every locked read
returns the committed status, and no commit overwrites a status that another session has
committed since the ticket was loaded. `stale_read_overwrites` is a run without this condition.
-/

namespace RiskProvider

open Interleaving

theorem Database.after_eq {db : Database} {e : Entry} (h : ∀ j ws, e ≠ .committed j ws) :
    db.after e = db := by
  cases e with
  | committed j ws => exact absurd rfl (h j ws)
  | _ => rfl

namespace World

variable {w w' : World} {i j : ℕ} {α : Type}

/-- All sessions are current, and have at most one object to add. -/
structure Current (w : World) : Prop where
  instances : ∀ i, (w.session i).Current i w.db w.log
  added : ∀ i, (w.session i).added.length ≤ 1

theorem current_initial : Current {} where
  instances _ := Session.current_empty
  added _ := by simp

namespace Current

theorem setSession (h : w.Current) {s : Session} (hs : s.Current i w.db w.log)
    (hadded : s.added.length ≤ 1) : (w.setSession i s).Current where
  instances j := by
    by_cases hj : j = i
    · subst hj
      simpa using hs
    · simpa [hj] using h.instances j
  added j := by
    by_cases hj : j = i
    · subst hj
      simpa using hadded
    · simpa [hj] using h.added j

/-- The session changes in what instances do not depend on. -/
theorem setSession_of_eq (h : w.Current) {s : Session}
    (hmap : s.identityMap = (w.session i).identityMap) (hwrites : s.writes = (w.session i).writes)
    (hadded : s.added.length ≤ 1) : (w.setSession i s).Current :=
  h.setSession ((h.instances i).of_eq hmap hwrites) hadded

theorem record (h : w.Current) {e : Entry} (hload : ∀ j k, e ≠ .loaded j k)
    (hcommit : ∀ j ws, e ≠ .committed j ws) : (w.record e).Current where
  instances j := by
    rw [db_record, Database.after_eq hcommit]
    exact (h.instances j).cons (hload j) hcommit
  added := h.added

theorem loadRow (h : w.Current) {row : Ticket}
    (hrow : (w.visible i).tickets.lookup row.id = some row) : (w.loadRow i row).Current := by
  unfold World.loadRow
  split
  · exact h
  next hnone =>
    refine ⟨fun j => ?_, fun j => ?_⟩
    · by_cases hj : j = i
      · subst hj
        simpa [Database.after] using (h.instances j).load hrow hnone
      · have hcons := (h.instances j).cons (e := .loaded i row.id)
          (fun k heq => hj (by cases heq; rfl)) (by simp)
        simpa [hj, Database.after] using hcons
    · by_cases hj : j = i
      · subst hj
        simpa [Session.load, hnone] using h.added j
      · simpa [hj] using h.added j

theorem rollback (h : w.Current) : (w.rollback i).Current := by
  have hset : (w.setSession i {}).Current := h.setSession Session.current_empty (by simp)
  exact ⟨hset.instances, hset.added⟩

/-- A commit keeps the instances of its own session current, and those of the others are about
rows that it has not written, or outdated by it. -/
theorem commit (h : w.Current) (hiso : w.Isolated) : (w.commit i).Current := by
  refine ⟨fun j => ?_, fun j => ?_⟩
  · by_cases hj : j = i
    · subst hj
      simpa [World.commit, Database.after] using (h.instances j).committed w.now
    · have hne : (w.session j).Current j (w.db.writeAll (w.session i).writes)
          (.committed i (w.session i).writes :: w.log) := by
        refine (h.instances j).committed_ne (Ne.symm hj) hiso.db_eq fun t htouch wr hwr hkey => hj ?_
        obtain ⟨wr', hwr', hkey'⟩ := htouch
        have hi := (hiso.writes_held i wr' hwr').ticket t hkey'
        have hj := (hiso.writes_held j wr hwr).ticket t hkey
        exact Option.some.inj (hj.symm.trans hi)
      simpa [World.commit, Database.after, hj] using hne
  · by_cases hj : j = i
    · subst hj
      simpa [World.commit, Session.committed] using h.added j
    · simpa [World.commit, hj] using h.added j

/-- A transaction writes to rows that are not tickets. -/
theorem write (h : w.Current) (wr : Write) (hkey : wr.ticketKey = none) :
    (w.setSession i
      { w.session i with writes := (w.session i).writes ++ [wr] }).Current :=
  h.setSession ((h.instances i).of_write hkey rfl rfl) (h.added i)

/-- Locks are taken. -/
theorem of_eq (h : w.Current) (hsession : w'.session = w.session) (hdb : w'.db = w.db)
    (hlog : w'.log = w.log) : w'.Current where
  instances i := by
    rw [hsession, hdb, hlog]
    exact h.instances i
  added i := hsession ▸ h.added i

theorem beginTx (h : w.Current) : (w.beginTx i c).Current :=
  h.setSession_of_eq rfl rfl (h.added i)

theorem fail (h : w.Current) : (w.fail i).Current := h.setSession_of_eq rfl rfl (h.added i)

end Current

/-! ### What effects lock -/

/-- Session `i` can select the ticket for update: its instance, if it holds one, is not
outdated. -/
def Fresh (w : World) (i : ℕ) (ticketId : UUID) : Prop :=
  ((w.session i).identityMap ticketId).isSome → w.log.staleFor i ticketId = false

instance (w : World) (i : ℕ) (ticketId : UUID) : Decidable (w.Fresh i ticketId) := by
  unfold Fresh
  infer_instance

/-- An effect keeps sessions current, and locks only tickets on which the session is then not
outdated, except by a select of one on which it was. -/
structure KeepsCurrent (i : ℕ) (e : Effect) (w w' : World) : Prop where
  current : w'.Current
  locked : ∀ t, w'.ticketLock t = some i → w.ticketLock t = some i ∨
    w'.log.staleFor i t = false ∨ e = .selectTicketForUpdate t ∧ ¬ w.Fresh i t

variable {e : Effect}

theorem KeepsCurrent.of_eq (h : w'.Current) (hlock : w'.ticketLock = w.ticketLock) :
    KeepsCurrent i e w w' := ⟨h, fun _ ht => .inl (hlock ▸ ht)⟩

/-- A statement keeps sessions current if its action does. -/
theorem keepsCurrent_statement {c : Choice} {act : World → Option (Except Exn α × World)}
    {r : Except Exn α} (hcurrent : w.Current)
    (hact : act (w.beginTx i c) = some (r, w') → KeepsCurrent i e w w')
    (h : w.statement i c act = some (r, w')) : KeepsCurrent i e w w' := by
  unfold statement at h
  split at h
  · cases h
    exact .of_eq hcurrent rfl
  · split at h
    · cases h
      exact .of_eq hcurrent.beginTx.fail rfl
    · exact hact h

/-- Loading a row outdates no session. -/
theorem staleFor_loadRow {t : UUID} {row : Ticket} (h : w.log.staleFor i t = false) :
    (w.loadRow i row).log.staleFor i t = false := by
  unfold loadRow
  split
  · exact h
  · simp [History.staleFor, h]

/-- A session that loads a row, or holds an instance that is not outdated, is not outdated. -/
theorem Fresh.staleFor_loadRow {row : Ticket} (h : w.Fresh i row.id) :
    (w.loadRow i row).log.staleFor i row.id = false := by
  unfold loadRow
  split
  next hinst => exact h (by simp [hinst])
  · simp [History.staleFor]

theorem Fresh.loadRow {t : UUID} {row : Ticket} (h : w.Fresh i t) :
    (w.loadRow i row).Fresh i t := by
  intro hlive
  by_cases ht : t = row.id
  · subst ht
    exact h.staleFor_loadRow
  · refine World.staleFor_loadRow (h ?_)
    unfold World.loadRow at hlive
    split at hlive
    · exact hlive
    next hnone => simpa [Session.load, hnone, ht] using hlive

theorem Current.loadRows (h : w.Current) {rows : List Ticket}
    (hrows : ∀ row ∈ rows, (w.visible i).tickets.lookup row.id = some row) :
    (w.loadRows i rows).Current := by
  induction rows generalizing w with
  | nil => exact h
  | cons row rows ih =>
      refine ih (h.loadRow (hrows row List.mem_cons_self)) fun row' hrow' => ?_
      rw [visible_loadRow]
      exact hrows row' (List.mem_cons_of_mem _ hrow')

theorem staleFor_loadRows {t : UUID} {rows : List Ticket} (h : w.log.staleFor i t = false) :
    (w.loadRows i rows).log.staleFor i t = false := by
  induction rows generalizing w with
  | nil => exact h
  | cons row rows ih => exact ih (staleFor_loadRow h)

theorem staleFor_loadRows_mem {rows : List Ticket} (h : ∀ t, w.Fresh i t) :
    ∀ row ∈ rows, (w.loadRows i rows).log.staleFor i row.id = false := by
  induction rows generalizing w with
  | nil => simp
  | cons row rows ih =>
      intro row' hrow'
      rcases List.mem_cons.mp hrow' with rfl | hrow'
      · change ((w.loadRow i row').loadRows i rows).log.staleFor i row'.id = false
        exact staleFor_loadRows (h _).staleFor_loadRow
      · exact ih (fun t => (h t).loadRow) row' hrow'

theorem keepsCurrent_selectTicketForUpdate {id : UUID} {r : Except Exn (Option Ticket)}
    (hcurrent : w.Current) (hiso : w.Isolated)
    (h : (w.beginTx i c).selectTicketForUpdate i id = some (r, w')) :
    KeepsCurrent i (.selectTicketForUpdate id) w w' := by
  have hiso' : (w.beginTx i c).Isolated := acts_beginTx.isolated hiso
  unfold selectTicketForUpdate at h
  split at h
  · split at h
    · cases h
      exact .of_eq hcurrent.beginTx rfl
    next row hrow =>
      cases h
      obtain rfl : row.id = id := hiso'.keyed_visible.tickets _ _ hrow
      refine ⟨(hcurrent.beginTx.loadRow hrow).of_eq rfl rfl rfl, fun t ht => ?_⟩
      by_cases hid : t = row.id
      · subst hid
        by_cases hfresh : w.Fresh i row.id
        · have hfresh' : (w.beginTx i c).Fresh i row.id := by
            simpa [Fresh, beginTx, Session.beginTx] using hfresh
          exact .inr (.inl hfresh'.staleFor_loadRow)
        · exact .inr (.inr ⟨rfl, hfresh⟩)
      · refine .inl ?_
        simpa [acquire, hid, beginTx] using ht
  · cases h

theorem keepsCurrent_selectTicketByKey {key : String} {r : Except Exn (Option Ticket)}
    (hcurrent : w.Current) (hiso : w.Isolated)
    (h : (w.beginTx i c).selectTicketByKey i key = some (r, w')) : KeepsCurrent i e w w' := by
  have hiso' : (w.beginTx i c).Isolated := acts_beginTx.isolated hiso
  unfold selectTicketByKey at h
  split at h
  · cases h
    exact .of_eq (hcurrent.beginTx.record (by simp) (by simp)) rfl
  next row hfind =>
    cases h
    obtain ⟨k, hrow⟩ := Table.mem_rows.mp (List.mem_of_find?_eq_some hfind)
    have hid := hiso'.keyed_visible.tickets _ _ hrow
    have hlooked : ((w.beginTx i c).record (.looked i key (some row.id))).Current :=
      hcurrent.beginTx.record (by simp) (by simp)
    exact .of_eq (hlooked.loadRow (by rw [hid]; exact hrow)) (ticketLock_loadRow _)

theorem keepsCurrent_selectStuck {olderThan : Time} {limit : ℕ} {ids : List UUID}
    {r : Except Exn (List Ticket)} (hcurrent : w.Current) (hiso : w.Isolated)
    (hguar : w.session i = {})
    (h : (w.beginTx i c).selectStuck i olderThan limit ids = some (r, w')) :
    KeepsCurrent i e w w' := by
  have hiso' : (w.beginTx i c).Isolated := acts_beginTx.isolated hiso
  have hvisible : (w.beginTx i c).visible i = (w.beginTx i c).db := by
    simp [visible, beginTx, Session.beginTx, hguar]
  have hkeyed := hiso'.keyed_visible (i := i)
  rw [hvisible] at hkeyed
  have hrow : ∀ id row, (w.beginTx i c).db.tickets.lookup id = some row →
      ((w.beginTx i c).visible i).tickets.lookup row.id = some row := fun id row hrow => by
    rw [hvisible, hkeyed.tickets _ _ hrow, hrow]
  have hfresh : ∀ t, ((w.beginTx i c).record (.found i olderThan ids)).Fresh i t := fun t hlive => by
    simp [beginTx, Session.beginTx, hguar] at hlive
  have hfound : ((w.beginTx i c).record (.found i olderThan ids)).Current :=
    hcurrent.beginTx.record (by simp) (by simp)
  unfold selectStuck at h
  split at h
  next hbatch =>
    cases h
    have hrows : ∀ row ∈ ids.filterMap (w.beginTx i c).db.tickets.lookup,
        ((w.beginTx i c).visible i).tickets.lookup row.id = some row := fun row hmem => by
      obtain ⟨id, -, hid⟩ := List.mem_filterMap.mp hmem
      exact hrow id row hid
    have hloaded := hfound.loadRows hrows
    refine ⟨hloaded.of_eq rfl rfl rfl, fun t ht => ?_⟩
    by_cases hmem : t ∈ ids
    · obtain ⟨row, hlookup, -⟩ := (Option.any_eq_true _ _).mp (hbatch.2.2.1 t hmem).2
      have hmem' : row ∈ ids.filterMap (w.beginTx i c).db.tickets.lookup :=
        List.mem_filterMap.mpr ⟨t, hmem, hlookup⟩
      have hloaded := staleFor_loadRows_mem hfresh row hmem'
      rw [hkeyed.tickets _ _ hlookup] at hloaded
      exact .inr (.inl hloaded)
    · exact .inl (by simpa [acquire, hmem, beginTx] using ht)
  · cases h

theorem keepsCurrent_flush {r : Except Exn Unit} (hcurrent : w.Current) (hiso : w.Isolated)
    (hguar : ∀ k ∈ (w.session i).dirty, w.ticketLock k = some i)
    (hgone : ∀ t, w.log.staleFor i t = true → t ∈ w.db.tickets)
    (h : (w.beginTx i c).flush i = some (r, w')) : KeepsCurrent i e w w' := by
  have hiso' : (w.beginTx i c).Isolated := acts_beginTx.isolated hiso
  unfold flush at h
  dsimp only at h
  split at h
  · split at h
    · cases h
      exact .of_eq hcurrent.beginTx.fail rfl
    · split at h
      · cases h
        exact .of_eq hcurrent.beginTx.fail rfl
      next hconflict =>
        cases h
        push Not at hconflict
        have hset : ((w.beginTx i c).setSession i ((w.beginTx i c).session i).flushed).Current :=
          hcurrent.beginTx.setSession
            ((hcurrent.beginTx.instances i).flushed (hiso'.coherent i) (hcurrent.beginTx.added i)
              hconflict) (by simp [Session.flushed])
        refine ⟨hset.of_eq rfl rfl rfl, fun t ht => ?_⟩
        by_cases hkey : t ∈ ((w.beginTx i c).session i).flushWrites.filterMap Write.ticketKey
        · obtain ⟨wr, hwr, hkey⟩ := List.mem_filterMap.mp hkey
          rcases List.mem_append.mp hwr with hupdate | hinsert
          · -- an updated ticket has been locked before
            obtain ⟨inst, hinst, hupdate⟩ := List.mem_filterMap.mp hupdate
            obtain ⟨k, hk, hmap⟩ := List.mem_filterMap.mp hinst
            have hrewrite : wr ∈ rewrite inst.loaded inst.attrs _ := Option.mem_toList.mpr hupdate
            rw [mem_rewrite hrewrite] at hkey
            obtain rfl : inst.loaded.id = t := Option.some.inj hkey
            rw [(hiso'.coherent i _ _ hmap).1]
            exact .inl (hguar k (by simpa [beginTx, Session.beginTx] using hk))
          · -- a new ticket has no committed row
            obtain ⟨o, -, rfl⟩ := List.mem_map.mp hinsert
            cases o with
            | event row => cases hkey
            | ticket row =>
                obtain rfl : row.id = t := Option.some.inj hkey
                refine .inr (.inl (Bool.eq_false_iff.mpr fun hstale => hconflict _ hwr (.inl ?_)))
                exact Database.mem_tickets_writeAll _ (hgone _ hstale)
        · have hlock : acquire (w.beginTx i c).ticketLock i
              (((w.beginTx i c).session i).flushWrites.filterMap Write.ticketKey) t = some i := ht
          rw [acquire, if_neg hkey] at hlock
          exact .inl hlock
  · cases h

/-- Every effect that meets the guarantee keeps sessions current. -/
theorem exec_keepsCurrent [Codecs] {c : Choice} {r : e.Result} (hcurrent : w.Current)
    (hiso : w.Isolated) (hguar : Guarantee i e w)
    (hgone : ∀ t, w.log.staleFor i t = true → t ∈ w.db.tickets)
    (h : e.exec i c w = some (r, w')) : KeepsCurrent i e w w' := by
  cases e with
  | utcNow | readAttribute id =>
      obtain ⟨-, -, heq⟩ := Option.map_eq_some_iff.mp h
      cases heq
      exact .of_eq hcurrent rfl
  | uuid4 =>
      obtain ⟨u, -, heq⟩ := Option.map_eq_some_iff.mp h
      cases heq
      exact .of_eq hcurrent rfl
  | selectTicketForUpdate id =>
      simp only [Effect.exec] at h
      exact keepsCurrent_statement hcurrent (keepsCurrent_selectTicketForUpdate hcurrent hiso) h
  | selectTicketByKey key =>
      simp only [Effect.exec] at h
      exact keepsCurrent_statement hcurrent (keepsCurrent_selectTicketByKey hcurrent hiso) h
  | selectStuck olderThan limit =>
      simp only [Effect.exec] at h
      refine keepsCurrent_statement hcurrent (fun hact => ?_) h
      obtain ⟨ids, -, hids⟩ := Option.bind_eq_some_iff.mp hact
      exact keepsCurrent_selectStuck hcurrent hiso hguar.1 hids
  | selectPending limit =>
      simp only [Effect.exec] at h
      refine keepsCurrent_statement hcurrent (fun hact => ?_) h
      obtain ⟨ids, -, hids⟩ := Option.bind_eq_some_iff.mp hact
      unfold selectPending at hids
      split at hids
      · cases hids
        have hfetched : ((w.beginTx i c).record (.fetched i limit ids
            ((w.beginTx i c).skipped i))).Current :=
          hcurrent.beginTx.record (by simp) (by simp)
        exact .of_eq (hfetched.of_eq rfl rfl rfl) rfl
      · cases hids
  | insertInbox messageId messageType ticketId =>
      simp only [Effect.exec] at h
      refine keepsCurrent_statement hcurrent (fun hact => ?_) h
      unfold insertInbox at hact
      split at hact
      · split at hact
        · cases hact
          exact .of_eq hcurrent.beginTx rfl
        · cases hact
          exact .of_eq ((hcurrent.beginTx.write (.insertInbox _) rfl).of_eq rfl rfl rfl) rfl
      · cases hact
  | updatePublished ids publishedAt | updateFailed id error =>
      simp only [Effect.exec] at h
      refine keepsCurrent_statement hcurrent (fun hact => ?_) h
      unfold updateEvents at hact
      split at hact
      · split at hact
        · cases hact
          exact .of_eq hcurrent.beginTx.fail rfl
        · cases hact
          exact .of_eq ((hcurrent.beginTx.write _ rfl).of_eq rfl rfl rfl) rfl
      · cases hact
  | assign t =>
      obtain ⟨-, -, heq⟩ := Option.map_eq_some_iff.mp h
      cases heq
      refine .of_eq (hcurrent.setSession ((hcurrent.instances i).assign t) ?_) rfl
      unfold Session.assign
      split <;> exact hcurrent.added i
  | add object =>
      obtain ⟨-, -, heq⟩ := Option.map_eq_some_iff.mp h
      cases heq
      have hadded : (w.session i).added = [] := hguar
      exact .of_eq (hcurrent.setSession_of_eq rfl rfl (by simp [Session.add, hadded])) rfl
  | flush =>
      simp only [Effect.exec] at h
      split at h
      · cases h
        exact .of_eq hcurrent rfl
      · exact keepsCurrent_statement hcurrent (keepsCurrent_flush hcurrent hiso hguar hgone) h
  | commit =>
      simp only [Effect.exec] at h
      split at h
      · cases h
        exact .of_eq hcurrent rfl
      · split at h
        · cases h
          exact ⟨hcurrent.commit hiso, fun t ht => absurd ht release_ne_self⟩
        · cases h
          exact .of_eq hcurrent.fail rfl
        · cases h
  | rollback =>
      obtain ⟨-, -, heq⟩ := Option.map_eq_some_iff.mp h
      cases heq
      exact ⟨hcurrent.rollback, fun t ht => absurd ht release_ne_self⟩
  | processTicket id action reason | publish key messageId body | sendAck messageId =>
      simp only [Effect.exec, call] at h
      split at h <;> cases h <;> exact .of_eq (hcurrent.record (by simp) (by simp)) rfl
  | receive q =>
      obtain ⟨n, -, hn⟩ := Option.bind_eq_some_iff.mp h
      simp only [receive] at hn
      split at hn
      · cases hn
        exact .of_eq (hcurrent.record (by simp) (by simp)) rfl
      · cases hn
  | ack | nack | countTransition fromStatus toStatus | request key request | respond result =>
      obtain ⟨-, -, heq⟩ := Option.map_eq_some_iff.mp h
      cases heq
      exact .of_eq (hcurrent.record (by simp) (by simp)) rfl
  | send m =>
      simp only [Effect.exec, send] at h
      split at h <;> cases h <;> exact .of_eq (hcurrent.record (by simp) (by simp)) rfl

/-! ### Locked tickets -/

theorem staleFor_record {t : UUID} {l : History} {e : Entry} (hcommit : ∀ j ws, e ≠ .committed j ws)
    (h : l.staleFor j t = false) : History.staleFor j t (e :: l) = false := by
  cases e with
  | loaded k t' => simp [History.staleFor, h]
  | committed k ws => exact absurd rfl (hcommit k ws)
  | _ => exact h

/-- A session is not outdated by its own moves. -/
theorem Acts.staleFor_self {t : UUID} (hacts : Acts i w w') (h : w.log.staleFor i t = false) :
    w'.log.staleFor i t = false := by
  induction hacts with
  | refl => exact h
  | tail _ hact ih =>
      cases hact with
      | record e hthread hquiet => exact staleFor_record hquiet ih
      | commit => exact History.staleFor_committed_self.trans ih
      | _ => exact ih

/-- The moves of one session neither take nor outdate the tickets that another has locked. -/
theorem Acts.staleFor_ne {t : UUID} (hacts : Acts i w w') (hiso : w.Isolated) (hj : j ≠ i)
    (hlock : w'.ticketLock t = some j) :
    w.ticketLock t = some j ∧ (w.log.staleFor j t = false → w'.log.staleFor j t = false) := by
  induction hacts with
  | refl => exact ⟨hlock, id⟩
  | @tail v v' hacts hact ih =>
      cases hact with
      | record e hthread hquiet =>
          obtain ⟨hlock', hstale⟩ := ih hlock
          exact ⟨hlock', fun h => staleFor_record hquiet (hstale h)⟩
      | session s ws hwrites hheld hcoherent => exact ih hlock
      | lock tickets events inbox keys htickets hevents hinbox hkeys =>
          exact ih ((acquire_eq_of_ne htickets hj).mp hlock)
      | commit =>
          have hlock : v.ticketLock t = some j := (release_eq_of_ne hj).mp hlock
          obtain ⟨hlock', hstale⟩ := ih hlock
          refine ⟨hlock', fun h => (History.staleFor_committed_of_ne fun wr hwr hkey => hj ?_).trans
            (hstale h)⟩
          have hheld := ((Acts.isolated hacts hiso).writes_held i wr hwr).ticket t
            (Write.ticketKey_of_statusKey hkey)
          exact Option.some.inj (hlock.symm.trans hheld)
      | rollback => exact ih ((release_eq_of_ne hj).mp hlock)

/-- No session is outdated on a ticket that it has locked. -/
def LocksFresh (w : World) : Prop :=
  ∀ i t, w.ticketLock t = some i → w.log.staleFor i t = false

theorem LocksFresh.of_acts (h : w.LocksFresh) (hiso : w.Isolated) (hacts : Acts i w w')
    (hself : ∀ t, w'.ticketLock t = some i → w.ticketLock t = some i ∨
      w'.log.staleFor i t = false) : w'.LocksFresh := by
  intro j t hlock
  by_cases hj : j = i
  · subst hj
    rcases hself t hlock with hlock | hstale
    · exact hacts.staleFor_self (h j t hlock)
    · exact hstale
  · obtain ⟨hlock', hstale⟩ := hacts.staleFor_ne hiso hj hlock
    exact hstale (h j t hlock')

end World

/-! ### Rows of outdated instances -/

section Rows

variable [Codecs] {l : History} {i : ℕ} {t : UUID}

/-- A permitted commit writes to rows of tickets that then exist. -/
theorem Permitted.mem_tickets {ws : List Write} {wr : Write} (h : Permitted l (.committed i ws))
    (hwr : wr ∈ ws) (hkey : wr.ticketKey = some t) : t ∈ (l.database.writeAll ws).tickets := by
  have hmem : ∀ {row r row' began}, wr ∈ rewrite row row' began →
      l.database.tickets.lookup row.id = some r → t ∈ (l.database.writeAll ws).tickets := by
    intro row r row' began hwr hr
    obtain rfl : row.id = t := Option.some.inj ((ticketKey_rewrite hwr).symm.trans hkey)
    exact Database.mem_tickets_writeAll ws
      (AList.lookup_isSome.mp (Option.isSome_of_eq_some hr))
  have hkeyed := l.keyed_database.tickets
  cases h with
  | create hacts hcurrency hkey hticket hevent hframe =>
      simp only [List.mem_cons, List.not_mem_nil, or_false] at hwr
      rcases hwr with rfl | rfl
      · obtain rfl := Option.some.inj hkey
        exact (AList.mem_insert _).mpr (.inl rfl)
      · cases hkey
  | recommend hacts hframe hunclaimed hrow hopen =>
      rcases List.mem_cons.mp hwr with rfl | hwr
      · cases hkey
      · exact hmem hwr (hkeyed _ _ hrow ▸ hrow)
  | cancellationApplied hacts hframe hunclaimed hrow hstatus =>
      rcases List.mem_cons.mp hwr with rfl | hwr
      · cases hkey
      · exact hmem hwr (hkeyed _ _ hrow ▸ hrow)
  | settle hacts hrecommended hrow hid hloaded hevent hframe =>
      rcases List.mem_append.mp hwr with hwr | hwr
      · exact hmem hwr (hid ▸ hrow)
      · obtain rfl := List.mem_singleton.mp hwr
        cases hkey
  | requestCancellation hlocked hrow hid hevent hframe =>
      rcases List.mem_append.mp hwr with hwr | hwr
      · exact hmem hwr (hid ▸ hrow)
      · obtain rfl := List.mem_singleton.mp hwr
        cases hkey
  | acknowledge hacts hdecodes hticket htarget hrow hopen hnew =>
      exact hmem hwr (hkeyed _ _ hrow ▸ hrow)
  | relay hacts hfailed hpending => simp [ticketKey_relayWrites wr hwr] at hkey
  | commitNothing => cases hwr

/-- A ticket on which a session is outdated has a row. -/
theorem mem_tickets_of_staleFor {C : History → Entry → Prop} (h : Conforms C l)
    (hstale : l.staleFor i t = true) : t ∈ l.database.tickets := by
  induction h with
  | nil => cases hstale
  | @cons l e h hpermitted he ih =>
      cases e with
      | loaded j k =>
          simp only [History.staleFor, Bool.and_eq_true] at hstale
          exact ih hstale.2
      | committed j ws =>
          simp only [History.staleFor, Bool.or_eq_true, Bool.and_eq_true, List.any_eq_true,
            decide_eq_true_eq] at hstale
          rcases hstale with ⟨-, wr, hwr, hkey⟩ | hstale
          · exact hpermitted.mem_tickets hwr (Write.ticketKey_of_statusKey hkey)
          · exact Database.mem_tickets_writeAll ws (ih hstale)
      | _ => exact ih hstale

end Rows

/-! ### Runs -/

section General

variable [Codecs]

/-- The step is a select for update by thread `i`, which locks the ticket and returns it. -/
def Reads (s s' : System) (i : ℕ) (id : UUID) (ticket : Ticket) : Prop :=
  ∃ next c, s.threads i = .perform (.selectTicketForUpdate id) next ∧
    machine.step s (.run i c) = some s' ∧
    machine.exec i (.selectTicketForUpdate id) c s.world = some (.ok (some ticket), s'.world)

/-- A select for update that the step carries out is made by a session that is not outdated. -/
def FreshReads (s s' : System) : Prop :=
  ∀ i < s.started, ∀ id next c, s.threads i = .perform (.selectTicketForUpdate id) next →
    machine.step s (.run i c) = some s' → s.world.Fresh i id

namespace System

variable {s s' : System}

/-- Outdated tickets of a reachable state have a row. -/
theorem mem_tickets_of_staleFor (h : s.Reachable) {i : ℕ} {t : UUID}
    (hstale : s.world.log.staleFor i t = true) : t ∈ s.world.db.tickets := by
  rw [(isolated h).db_eq]
  exact RiskProvider.mem_tickets_of_staleFor h.conforms hstale

/-- The sessions of a reachable state are current. -/
theorem current (h : s.Reachable) : s.world.Current := by
  refine h.invariant (I := fun s => s.world.Current) World.current_initial
    fun t t' ht hstep _ hcurrent => ?_
  obtain ⟨x, hworld⟩ | hworld | ⟨i, hworld⟩ | ⟨i, e, next, c, r, hthread, hexec, -⟩ :=
    Machine.step_cases hstep
  · rw [hworld]
    exact hcurrent.of_eq rfl rfl rfl
  · rwa [hworld]
  · rw [hworld]
    simp only [machine, World.crash]
    split
    · exact hcurrent.rollback.record (by simp) (by simp)
    · exact hcurrent.rollback
  · exact (World.exec_keepsCurrent hcurrent (isolated ht) (discipline_sound.guarantee ht hthread)
      (fun _ => mem_tickets_of_staleFor ht) hexec).current

/-- A select for update by a session that is not outdated returns the committed status. -/
theorem status?_of_read (h : s.Reachable) {i : ℕ} {id : UUID}
    {next : Effect.Result (.selectTicketForUpdate id) → Interleaving.Program Effect Effect.Result Unit}
    {c : Choice} {ticket : Ticket} {w' : World}
    (hthread : s.threads i = .perform (.selectTicketForUpdate id) next)
    (hexec : machine.exec i (.selectTicketForUpdate id) c s.world = some (.ok (some ticket), w'))
    (hfresh : s.world.Fresh i id) : s.world.status? id = some ticket.status := by
  have hiso := isolated h
  have hguar := discipline_sound.guarantee h hthread
  simp only [machine, Effect.exec, World.statement] at hexec
  split at hexec
  · cases hexec
  next hlive =>
  split at hexec
  · cases hexec
  obtain ⟨hdirty, hwrites⟩ := hguar (by simpa using hlive)
  -- the transaction has not written to tickets: it sees the committed rows
  have hvisible : ((s.world.beginTx i c).visible i).tickets.lookup id =
      s.world.db.tickets.lookup id := by
    refine Database.lookup_tickets_writeAll fun wr hwr => ?_
    simp [hwrites wr (by simpa [World.beginTx, Session.beginTx] using hwr)]
  unfold World.selectTicketForUpdate at hexec
  split at hexec
  · split at hexec
    · cases hexec
    next row hrow =>
      cases hexec
      have hid : row.id = id :=
        (World.acts_beginTx.isolated hiso).keyed_visible.tickets _ _ hrow
      rw [hvisible] at hrow
      have hattrs : (((s.world.beginTx i c).session i).attrs row).status = row.status := by
        have hsession : ((s.world.beginTx i c).session i).attrs row =
            (s.world.session i).attrs row := by
          simp [World.beginTx, Session.beginTx, Session.attrs]
        rw [hsession, Session.attrs]
        split
        next inst hinst =>
          rw [hid] at hinst
          obtain ⟨row', hrow', hstatus, -⟩ := (current h).instances i id inst hinst
          rw [Database.lookup_tickets_writeAll fun wr hwr => by simp [hwrites wr hwr], hrow] at hrow'
          cases hrow'
          rw [(hiso.coherent i id inst hinst).2.2 (by simp [hdirty]),
            hstatus (hfresh (by simp [hinst]))]
        · rfl
      simp [World.status?, hrow, hattrs]
  · cases hexec

/-- In a run with fresh reads, no session is outdated on a ticket that it has locked. -/
theorem locksFresh (h : machine.Reaches FreshReads System.initial s) : s.world.LocksFresh := by
  refine h.invariant (I := fun s => s.world.LocksFresh) (by rintro i t ⟨⟩)
    fun t t' ht hstep hreads hfresh => ?_
  have hiso := isolated ht
  obtain ⟨x, hworld⟩ | hworld | ⟨i, hworld⟩ | ⟨i, e, next, c, r, hthread, hexec, hrun⟩ :=
    Machine.step_cases hstep
  · rw [hworld]
    exact hfresh
  · rwa [hworld]
  · rw [hworld]
    refine hfresh.of_acts hiso World.crash_acts fun k hk => absurd hk ?_
    simp only [machine, World.crash]
    split <;> exact release_ne_self
  · refine hfresh.of_acts hiso (World.exec_acts hiso hexec) fun k hk => ?_
    have hkeeps := World.exec_keepsCurrent (current ht) hiso
      (discipline_sound.guarantee ht hthread) (fun _ => mem_tickets_of_staleFor ht) hexec
    rcases hkeeps.locked k hk with hlock | hstale | ⟨rfl, hread⟩
    · exact .inl hlock
    · exact .inr hstale
    · have hstarted := (discipline_sound.holds_of_run ht).lt_started hthread
      exact absurd (hreads i hstarted k next c hthread hrun) hread

omit [Codecs] in
/-- A commit before entries of loaded tickets. -/
theorem committed_suffix_loads {l l' es : History} {i : ℕ} {ws : List Write}
    (hes : ∀ e ∈ es, ∃ i k, e = .loaded i k) (h : (.committed i ws :: l') <:+ es ++ l) :
    (.committed i ws :: l') <:+ l := by
  induction es with
  | nil => exact h
  | cons e es ih =>
      rcases List.suffix_cons_iff.mp h with heq | h
      · obtain ⟨j, k, rfl⟩ := hes e List.mem_cons_self
        cases heq
      · exact ih (fun e' he' => hes e' (List.mem_cons_of_mem _ he')) h

/-- In a run with fresh reads, no commit writes to a ticket on which its session is outdated. -/
theorem staleFor_of_committed (h : machine.Reaches FreshReads System.initial s) {l : History}
    {i : ℕ} {ws : List Write} (hsuffix : (.committed i ws :: l) <:+ s.world.log) {wr : Write}
    (hwr : wr ∈ ws) {t : UUID} (hkey : wr.ticketKey = some t) : l.staleFor i t = false := by
  induction h with
  | refl => simp [System.initial, Pool.initial] at hsuffix
  | @tail t₁ t₂ hrun hlast ih =>
      have ht : t₁.Reachable := Machine.Reaches.run hrun
      -- the entry is either in the history already, or appended by this step
      have hloads : World.Loads t₁.world.log t₂.world.log → l.staleFor i t = false := by
        rintro ⟨es, hes, hlog⟩
        rw [hlog] at hsuffix
        exact ih (committed_suffix_loads hes hsuffix)
      obtain ⟨x, hworld⟩ | hworld | ⟨k, hworld⟩ | ⟨k, e, next, c, r, hthread, hexec, -⟩ :=
        Machine.step_cases hlast.1
      · exact hloads (hworld ▸ .refl _)
      · exact hloads (hworld ▸ .refl _)
      · rcases World.log_crash (w := t₁.world) (i := k) with hlog | hlog
        · exact hloads ⟨[], by simp, by rw [hworld]; exact hlog⟩
        · rw [hworld] at hsuffix
          change _ <:+ (t₁.world.crash k).log at hsuffix
          rw [hlog] at hsuffix
          rcases List.suffix_cons_iff.mp hsuffix with heq | hsuffix
          · cases heq
          · exact ih hsuffix
      · rcases log_exec (isolated ht) (discipline_sound.guarantee ht hthread) hexec with
          hlog | ⟨e, hread, -, es, hes, hlog⟩ | ⟨e, hlog, -, hown⟩
        · exact hloads hlog
        · rw [hlog] at hsuffix
          rcases List.suffix_cons_iff.mp (committed_suffix_loads hes hsuffix) with heq | hsuffix
          · obtain ⟨rfl, -⟩ := List.cons.inj heq
            cases hread
          · exact ih hsuffix
        rw [hlog] at hsuffix
        rcases List.suffix_cons_iff.mp hsuffix with heq | hsuffix
        · obtain ⟨rfl, rfl⟩ := List.cons.inj heq
          obtain ⟨rfl, rfl⟩ := hown i ws rfl
          have hheld := ((isolated ht).writes_held i wr hwr).ticket t hkey
          exact locksFresh hrun i t hheld
        · exact ih hsuffix

end System

/-- In every run in which no session locks a ticket of which it holds an outdated instance, a
locked read returns the status that is committed when the lock is granted, and no commit
writes to a ticket whose status another session has committed since its own session loaded it. -/
theorem lock_then_read_fresh {s : System}
    (hs : machine.Reaches FreshReads System.initial s) :
    (∀ s' i id ticket, Reads s s' i id ticket → FreshReads s s' →
      s.world.status? id = some ticket.status) ∧
    ∀ (l : History) i ws, (.committed i ws :: l) <:+ s.world.log →
      ∀ wr ∈ ws, ∀ t, wr.ticketKey = some t → l.staleFor i t = false := by
  refine ⟨?_, fun l i ws hsuffix wr hwr t hkey =>
    System.staleFor_of_committed hs hsuffix hwr hkey⟩
  rintro s' i id ticket ⟨next, c, hthread, hstep, hexec⟩ hfresh
  have hstarted := (discipline_sound.holds_of_run hs.run).lt_started hthread
  exact System.status?_of_read hs.run hthread hexec (hfresh i hstarted id next c hthread hstep)

/-- What the next effect of thread `i` returns, if it is a select for update. -/
def System.readBy (s : System) (i : ℕ) : Option (UUID × Ticket) :=
  match s.threads i with
  | .perform (.selectTicketForUpdate id) _ =>
      match machine.exec i (.selectTicketForUpdate id) .succeed s.world with
      | some (.ok (some ticket), _) => some (id, ticket)
      | _ => none
  | _ => none

theorem System.reads_of_readBy {s : System} {i : ℕ} {id : UUID} {ticket : Ticket}
    (h : s.readBy i = some (id, ticket)) : ∃ s', Reads s s' i id ticket := by
  unfold readBy at h
  split at h
  next id' next hthread =>
    split at h
    next ticket' w' hexec =>
      cases h
      have hstep : machine.step s (.run i .succeed) = some { s with
          world := w'
          threads := Function.update s.threads i (next (.ok (some ticket))) } := by
        simp [Machine.step, hthread, hexec]
      exact ⟨_, next, .succeed, hthread, hstep, hexec⟩
    · cases h
  · cases h

/-- The reads that are next are those of sessions that are not outdated. -/
def System.readsFresh (s : System) : Bool :=
  (List.range s.started).all fun i =>
    match s.threads i with
    | .perform (.selectTicketForUpdate id) _ => decide (s.world.Fresh i id)
    | _ => true

theorem System.freshReads_of_readsFresh {s s' : System} (h : s.readsFresh = true) :
    FreshReads s s' := by
  intro i hi id next c hthread _
  have hfresh := List.all_eq_true.mp h i (List.mem_range.mpr hi)
  simpa [hthread] using hfresh

end General

open Script in
/-- Thread 4 reads ticket 1 in its second transaction as it left it in its first. -/
theorem lock_then_read_fresh_recommended : ∃ s s' ticket,
    machine.Reaches FreshReads System.initial s ∧ Reads s s' 4 1 ticket ∧
      s.world.status? 1 = some ticket.status ∧ ticket.status = .recommendedConfirm := by
  obtain ⟨s, hs, htest⟩ := (Option.any_eq_true _ _).mp (show
    (machine.execute (fun (s _ : System) => s.readsFresh) System.initial
      (recommendedRun .accept ++ runs 4 (ok 1))).any (fun s : System => s.readsFresh ∧
        (s.readBy 4).any fun r => r.1 = 1 ∧ r.2.status = .recommendedConfirm) = true by
    decide +kernel)
  have hrun : machine.Reaches FreshReads System.initial s :=
    Machine.reaches_of_execute (fun _ _ => System.freshReads_of_readsFresh) hs
  simp only [decide_eq_true_eq, Option.any_eq_true] at htest
  obtain ⟨hfresh, ⟨id, ticket⟩, hread, rfl, hstatus⟩ := htest
  obtain ⟨s', hreads⟩ := System.reads_of_readBy hread
  exact ⟨s, s', ticket, hrun, hreads, (lock_then_read_fresh hrun).1 s' 4 1 ticket hreads
    (System.freshReads_of_readsFresh hfresh), hstatus⟩

open Script in
/-- Ticket 1 is cancelled while thread 4 settles it. The second read of thread 4 returns the
instance of its first, so that its commit overwrites `CANCELLED`. -/
theorem stale_read_overwrites : ∃ s s' s'' ticket, s.Reachable ∧ Reads s s' 4 1 ticket ∧
    s.world.status? 1 = some .cancelled ∧ ticket.status = .recommendedConfirm ∧
    machine.Run s s'' ∧ s''.world.status? 1 = some .settled := by
  obtain ⟨s, s'', hs, htest, hs'', hst''⟩ := System.exists_reaches_twice anyEntry
    (recommendedRun .accept ++ runs 4 (ok 1) ++
      [.start (.recieveFromProvider [cancellationApplied 20 1])] ++ runs 5 (ok 2) ++
      [.start .handle] ++ runs 6 (applyCancellation 0)) (runs 4 (settle 11 12))
    (fun s => s.world.status? 1 = some .cancelled ∧
      (s.readBy 4).any fun r => r.1 = 1 ∧ r.2.status = .recommendedConfirm)
    (fun s => s.world.status? 1 = some .settled) (by decide +kernel)
  simp only [decide_eq_true_eq, Option.any_eq_true] at htest hst''
  obtain ⟨hst, ⟨id, ticket⟩, hread, rfl, hstatus⟩ := htest
  obtain ⟨s', hreads⟩ := System.reads_of_readBy hread
  exact ⟨s, s', s'', ticket, hs.run, hreads, hst, hstatus, hs''.run, hst''⟩

end RiskProvider

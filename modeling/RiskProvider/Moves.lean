import RiskProvider.Conformance

/-!
# What effects do to sessions

`World.Act` of `RiskProvider.Isolation` says what an effect may do to what is shared. For invariants
about what a session has loaded, assigned and written, `World.Move` says what it does to its own
session: every effect that meets the guarantee is a sequence of such moves (`exec_moves`), so an
invariant needs one lemma for each kind of move.
-/

namespace RiskProvider

open Interleaving

/-- The effect records an action of its thread, and is no commit. -/
def Effect.isAction : Effect → Bool
  | selectTicketByKey _ | selectStuck _ _ | selectPending _ | processTicket _ _ _ | publish _ _ _
  | receive _ | ack | nack | send _ | sendAck _ | request _ _ | respond _ => true
  | _ => false

namespace World

/-- The moves that effect `e` of thread `i` is made of. -/
inductive Move (i : ℕ) : Effect → World → World → Prop
  /-- An entry other than a commit is recorded; only a `receive` records that a message is
  received. -/
  | record {e w} (entry : Entry) (hthread : entry.thread = i)
      (hquiet : ∀ j ws, entry ≠ .committed j ws)
      (haction : entry.isAction = true → e.isAction = true)
      (hreceived : ∀ j q n d, entry = .received j q n d → e = .receive q) :
      Move i e w (w.record entry)
  /-- The session changes, but not in what it has loaded, assigned, added and written. -/
  | session {e w} (s : Session) (hmap : s.identityMap = (w.session i).identityMap)
      (hdirty : s.dirty = (w.session i).dirty) (hadded : s.added = (w.session i).added)
      (hwrites : s.writes = (w.session i).writes) : Move i e w (w.setSession i s)
  /-- Locks are taken. -/
  | lock {e w w'} (hdb : w'.db = w.db) (hlog : w'.log = w.log)
      (hsession : w'.session = w.session) : Move i e w w'
  /-- A row that the transaction sees is loaded. -/
  | load {e w} (row : Ticket) (hrow : (w.visible i).tickets.lookup row.id = some row) :
      Move i e w (w.setSession i ((w.session i).load row))
  /-- Attributes are assigned. -/
  | assign {w} (t : Ticket) : Move i (.assign t) w (w.setSession i ((w.session i).assign t))
  /-- An object is added. -/
  | add {w} (o : NewObject) : Move i (.add o) w (w.setSession i ((w.session i).add o))
  /-- A row that is no ticket is written, and no event is inserted. -/
  | write {e w} (wr : Write) (hkey : wr.ticketKey = none) (hevent : ∀ row, wr ≠ .insertEvent row) :
      Move i e w (w.setSession i
        { w.session i with writes := (w.session i).writes ++ [wr] })
  /-- The session flushes. -/
  | flush {w} (hfits : (w.session i).FlushFits)
      (hconflict : ∀ wr ∈ (w.session i).flushWrites, ¬ wr.Conflicts (w.visible i))
      (hstorable : (w.session i).FlushStorable) :
      Move i .flush w (w.setSession i (w.session i).flushed)
  /-- The transaction commits. -/
  | commit {w} : Move i .commit w (w.commit i)
  /-- The transaction is rolled back. -/
  | rollback {w} : Move i .rollback w (w.rollback i)

/-- Sequences of moves. -/
abbrev Moves (i : ℕ) (e : Effect) : World → World → Prop := Relation.ReflTransGen (Move i e)

variable {w w' : World} {i : ℕ} {e : Effect} {c : Choice} {α : Type}

theorem Moves.of (h : Move i e w w') : Moves i e w w' := Relation.ReflTransGen.single h

theorem moves_beginTx : Moves i e w (w.beginTx i c) :=
  Moves.of (.session _ rfl rfl rfl rfl)

theorem moves_fail : Moves i e w (w.fail i) := Moves.of (.session _ rfl rfl rfl rfl)

theorem moves_statement {act : World → Option (Except Exn α × World)} {r : Except Exn α}
    (hact : act (w.beginTx i c) = some (r, w') → Moves i e (w.beginTx i c) w')
    (h : w.statement i c act = some (r, w')) : Moves i e w w' := by
  unfold statement at h
  split at h
  · cases h
    exact .refl
  · split at h
    · cases h
      exact moves_beginTx.trans moves_fail
    · exact moves_beginTx.trans (hact h)

theorem moves_loadRow {row : Ticket} (hrow : (w.visible i).tickets.lookup row.id = some row) :
    Moves i e w (w.loadRow i row) := by
  unfold loadRow
  split
  · exact .refl
  next hnone =>
    refine (Moves.of (.record (.loaded i row.id) rfl nofun nofun nofun)).tail (.load row ?_)
    exact hrow

theorem Isolated.keyed_visible (h : w.Isolated) : (w.visible i).Keyed := by
  rw [visible, h.db_eq]
  exact (History.keyed_database _).writeAll _

@[simp]
theorem visible_loadRow (row : Ticket) : (w.loadRow i row).visible i = w.visible i := by
  unfold loadRow
  split
  · rfl
  next hnone => simp [visible, Session.load, hnone, Database.after]

theorem moves_loadRows {rows : List Ticket}
    (hrows : ∀ row ∈ rows, (w.visible i).tickets.lookup row.id = some row) :
    Moves i e w (w.loadRows i rows) := by
  induction rows generalizing w with
  | nil => exact .refl
  | cons row rows ih =>
      refine (moves_loadRow (hrows row List.mem_cons_self)).trans (ih fun row' hrow' => ?_)
      rw [visible_loadRow]
      exact hrows row' (List.mem_cons_of_mem _ hrow')

theorem moves_selectTicketForUpdate {id : UUID} {r : Except Exn (Option Ticket)}
    (hiso : w.Isolated) (h : w.selectTicketForUpdate i id = some (r, w')) : Moves i e w w' := by
  unfold selectTicketForUpdate at h
  split at h
  · split at h
    · cases h
      exact .refl
    next row hrow =>
      cases h
      obtain rfl : row.id = id := hiso.keyed_visible.tickets _ _ hrow
      exact (moves_loadRow hrow).tail (.lock rfl rfl rfl)
  · cases h

theorem moves_selectTicketByKey {key : String} {r : Except Exn (Option Ticket)}
    (hiso : w.Isolated) (h : w.selectTicketByKey i key = some (r, w')) :
    Moves i (.selectTicketByKey key) w w' := by
  unfold selectTicketByKey at h
  split at h
  · cases h
    exact Moves.of (.record _ rfl (by simp) (fun _ => rfl) (by simp))
  next row hfind =>
    cases h
    obtain ⟨k, hrow⟩ := Table.mem_rows.mp (List.mem_of_find?_eq_some hfind)
    have hid := hiso.keyed_visible.tickets _ _ hrow
    have hlooked : Moves i (.selectTicketByKey key) w (w.record (.looked i key (some row.id))) :=
      Moves.of (.record _ rfl (by simp) (fun _ => rfl) (by simp))
    exact hlooked.trans (moves_loadRow (by rw [hid]; exact hrow))

/-- A session that has written nothing sees what is committed. -/
theorem visible_eq_db (hwrites : (w.session i).writes = []) : w.visible i = w.db := by
  simp [visible, hwrites]

theorem moves_selectStuck {olderThan : Time} {limit : ℕ} {ids : List UUID}
    {r : Except Exn (List Ticket)} (hiso : w.Isolated) (hwrites : (w.session i).writes = [])
    (h : w.selectStuck i olderThan limit ids = some (r, w')) :
    Moves i (.selectStuck olderThan limit) w w' := by
  have hkeyed := hiso.keyed_visible (i := i)
  rw [visible_eq_db hwrites] at hkeyed
  unfold selectStuck at h
  split at h
  · cases h
    have hrows : ∀ row ∈ ids.filterMap w.db.tickets.lookup,
        ((w.record (.found i olderThan ids)).visible i).tickets.lookup row.id = some row := by
      intro row hmem
      obtain ⟨id, -, hid⟩ := List.mem_filterMap.mp hmem
      have hrow : w.db.tickets.lookup row.id = some row := by rw [hkeyed.tickets _ _ hid, hid]
      rw [visible_eq_db (by simpa using hwrites)]
      exact hrow
    have hfound : Moves i (.selectStuck olderThan limit) w (w.record (.found i olderThan ids)) :=
      Moves.of (.record _ rfl (by simp) (fun _ => rfl) (by simp))
    exact (hfound.trans (moves_loadRows hrows)).tail (.lock rfl rfl rfl)
  · cases h

theorem moves_insertInbox {messageId : UUID} {messageType : String} {ticketId : Option UUID}
    {r : Except Exn Bool} (h : w.insertInbox i messageId messageType ticketId = some (r, w')) :
    Moves i e w w' := by
  unfold insertInbox at h
  split at h
  · split at h
    · cases h
      exact .refl
    · cases h
      exact (Moves.of (.write (.insertInbox _) rfl (by simp))).tail (.lock rfl rfl rfl)
  · cases h

theorem moves_updateEvents {wr : Write} {r : Except Exn Unit} (hkey : wr.ticketKey = none)
    (hevent : ∀ row, wr ≠ .insertEvent row) (h : w.updateEvents i wr = some (r, w')) :
    Moves i e w w' := by
  unfold updateEvents at h
  split at h
  · split at h
    · cases h
      exact moves_fail
    · cases h
      exact (Moves.of (.write wr hkey hevent)).tail (.lock rfl rfl rfl)
  · cases h

theorem moves_flush {r : Except Exn Unit} (h : w.flush i = some (r, w')) :
    Moves i .flush w w' := by
  unfold flush at h
  dsimp only at h
  split at h
  · split at h
    · cases h
      exact moves_fail
    next hfits =>
      split at h
      · cases h
        exact moves_fail
      next hconflict =>
        cases h
        push Not at hfits hconflict
        exact (Moves.of (.flush hfits.1 hconflict hfits.2)).tail (.lock rfl rfl rfl)
  · cases h

theorem moves_call {entry : Option String → Entry} {exn : String → Exn} {r : Except Exn Unit}
    (hthread : ∀ error, (entry error).thread = i)
    (hquiet : ∀ error j ws, entry error ≠ .committed j ws) (haction : e.isAction = true)
    (hreceived : ∀ error j q n d, entry error ≠ .received j q n d)
    (h : w.call c entry exn = some (r, w')) : Moves i e w w' := by
  unfold call at h
  split at h
  · cases h
    exact Moves.of (.record _ (hthread _) (hquiet _) (fun _ => haction) fun _ _ _ _ heq =>
      absurd heq (hreceived _ _ _ _ _))
  · cases h
    exact Moves.of (.record _ (hthread _) (hquiet _) (fun _ => haction) fun _ _ _ _ heq =>
      absurd heq (hreceived _ _ _ _ _))
  · cases h

/-- Every effect is a sequence of moves, if stuck tickets are selected by a new session. -/
theorem exec_moves_of_fresh [Codecs] {r : e.Result} (hiso : w.Isolated)
    (hfresh : ∀ olderThan limit, e = .selectStuck olderThan limit → w.session i = {})
    (h : e.exec i c w = some (r, w')) : Moves i e w w' := by
  have hiso' : (w.beginTx i c).Isolated := acts_beginTx.isolated hiso
  cases e with
  | utcNow | readAttribute id =>
      obtain ⟨-, -, heq⟩ := Option.map_eq_some_iff.mp h
      cases heq
      exact .refl
  | uuid4 =>
      obtain ⟨u, -, heq⟩ := Option.map_eq_some_iff.mp h
      cases heq
      exact .refl
  | selectTicketForUpdate id =>
      simp only [Effect.exec] at h
      exact moves_statement (moves_selectTicketForUpdate hiso') h
  | selectTicketByKey key =>
      simp only [Effect.exec] at h
      exact moves_statement (moves_selectTicketByKey hiso') h
  | selectStuck olderThan limit =>
      simp only [Effect.exec] at h
      refine moves_statement (fun hact => ?_) h
      obtain ⟨ids, -, hids⟩ := Option.bind_eq_some_iff.mp hact
      exact moves_selectStuck hiso' (by simp [beginTx, Session.beginTx, hfresh _ _ rfl]) hids
  | selectPending limit =>
      simp only [Effect.exec] at h
      refine moves_statement (fun hact => ?_) h
      obtain ⟨ids, -, hids⟩ := Option.bind_eq_some_iff.mp hact
      unfold selectPending at hids
      split at hids
      · cases hids
        exact (Moves.of (.record (.fetched i limit ids _) rfl (by simp) (fun _ => rfl) (by simp))).tail
          (.lock rfl rfl rfl)
      · cases hids
  | insertInbox messageId messageType ticketId =>
      simp only [Effect.exec] at h
      exact moves_statement moves_insertInbox h
  | updatePublished ids publishedAt | updateFailed id error =>
      simp only [Effect.exec] at h
      exact moves_statement (moves_updateEvents rfl (by simp)) h
  | assign t =>
      obtain ⟨-, -, heq⟩ := Option.map_eq_some_iff.mp h
      cases heq
      exact Moves.of (.assign t)
  | add o =>
      obtain ⟨-, -, heq⟩ := Option.map_eq_some_iff.mp h
      cases heq
      exact Moves.of (.add o)
  | flush =>
      simp only [Effect.exec] at h
      split at h
      · cases h
        exact .refl
      · exact moves_statement moves_flush h
  | commit =>
      simp only [Effect.exec] at h
      split at h
      · cases h
        exact .refl
      · split at h
        · cases h
          exact Moves.of .commit
        · cases h
          exact moves_fail
        · cases h
  | rollback =>
      obtain ⟨-, -, heq⟩ := Option.map_eq_some_iff.mp h
      cases heq
      exact Moves.of .rollback
  | processTicket id action reason =>
      exact moves_call (fun _ => rfl) (fun _ _ _ => by simp) rfl (fun _ _ _ _ _ => by simp) h
  | publish routingKey messageId body =>
      exact moves_call (fun _ => rfl) (fun _ _ _ => by simp) rfl (fun _ _ _ _ _ => by simp) h
  | receive q =>
      obtain ⟨n, -, hn⟩ := Option.bind_eq_some_iff.mp h
      simp only [receive] at hn
      split at hn
      · cases hn
        refine Moves.of (.record _ rfl (by simp) (fun _ => rfl) fun j q' n' d' heq => ?_)
        cases heq
        rfl
      · cases hn
  | ack | nack | request key r | respond result =>
      obtain ⟨-, -, heq⟩ := Option.map_eq_some_iff.mp h
      cases heq
      exact Moves.of (.record _ rfl (by simp) (fun _ => rfl) (by simp))
  | countTransition fromStatus toStatus =>
      obtain ⟨-, -, heq⟩ := Option.map_eq_some_iff.mp h
      cases heq
      exact Moves.of (.record _ rfl (by simp) (by simp [Entry.isAction]) (by simp))
  | send m =>
      simp only [Effect.exec, send] at h
      split at h <;> cases h <;> exact Moves.of (.record _ rfl (by simp) (fun _ => rfl) (by simp))
  | sendAck messageId =>
      exact moves_call (fun _ => rfl) (fun _ _ _ => by simp) rfl (fun _ _ _ _ _ => by simp) h

/-- Every effect that meets the guarantee is a sequence of moves. -/
theorem exec_moves [Codecs] {r : e.Result} (hiso : w.Isolated) (hguar : Guarantee i e w)
    (h : e.exec i c w = some (r, w')) : Moves i e w w' := by
  refine exec_moves_of_fresh hiso (fun olderThan limit he => ?_) h
  subst he
  exact hguar.1

/-- A select returns the attributes of the instance of a row that the transaction sees. -/
theorem selected_of_exec {id : UUID} {t : Ticket} (hiso : w.Isolated)
    (h : (Effect.selectTicketForUpdate id).exec i c w = some (.ok (some t), w')) :
    (w.session i).failed = false ∧ ∃ row, (w.visible i).tickets.lookup id = some row ∧
      row.id = id ∧ t = (w.session i).attrs row := by
  simp only [Effect.exec, statement] at h
  split at h
  · cases h
  next hlive =>
    split at h
    · cases h
    · simp only [selectTicketForUpdate] at h
      split at h
      · split at h
        · cases h
        next row hrow =>
          cases h
          have hvisible : (w.beginTx i c).visible i = w.visible i := by
            simp [visible, beginTx, Session.beginTx]
          rw [hvisible] at hrow
          refine ⟨by simpa using hlive, row, hrow, hiso.keyed_visible.tickets _ _ hrow, ?_⟩
          simp [beginTx, Session.beginTx, Session.attrs]
      · cases h

/-- A crash is a rollback, after which the delivery may be returned. -/
theorem crash_eq : w.crash i = w.rollback i ∨ w.crash i = (w.rollback i).record (.returned i) := by
  unfold crash
  dsimp only
  split
  · exact .inr rfl
  · exact .inl rfl

end World

end RiskProvider

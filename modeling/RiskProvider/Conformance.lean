import RiskProvider.Conformance.Handlers

/-!
# Reachable histories conform to the protocol

The refinement between the two levels of this development. A step of the system appends to the
history one entry at most, or that of a select and entries of loaded tickets; by
`discipline_sound` every entry is permitted. Hence the history of a reachable state conforms to the
protocol (`System.conforms`), and the committed rows and the broker are what it leads to
(`System.isolated`). When all steps of a run meet a condition on the entries that they append, so do
all entries of its history.
-/

namespace RiskProvider

open Interleaving

namespace World

variable {w w' : World} {i : ℕ} {α : Type}

/-- The history grows by entries of loaded tickets only. -/
def Loads (l l' : History) : Prop := ∃ es : History, (∀ e ∈ es, ∃ i k, e = .loaded i k) ∧ l' = es ++ l

theorem Loads.refl (l : History) : Loads l l := ⟨[], by simp, rfl⟩

theorem loads_loadRow (row : Ticket) : Loads w.log (w.loadRow i row).log := by
  unfold loadRow
  split
  · exact .refl _
  · exact ⟨[.loaded i row.id], by simp, rfl⟩

theorem loads_loadRows (rows : List Ticket) : Loads w.log (w.loadRows i rows).log := by
  induction rows generalizing w with
  | nil => exact .refl _
  | cons row rows ih =>
      obtain ⟨es, hes, hlog⟩ := loads_loadRow (w := w) (i := i) row
      obtain ⟨es', hes', hlog'⟩ := ih (w := w.loadRow i row)
      refine ⟨es' ++ es, fun e he => ?_, ?_⟩
      · exact (List.mem_append.mp he).elim (hes' e) (hes e)
      · rw [List.append_assoc, ← hlog, ← hlog']
        rfl

/-- A statement appends what its action appends. -/
theorem loads_statement {c : Choice} {act : World → Option (Except Exn α × World)}
    {r : Except Exn α} (hact : ∀ v, act v = some (r, w') → Loads v.log w'.log)
    (h : w.statement i c act = some (r, w')) : Loads w.log w'.log := by
  unfold statement at h
  split at h
  · cases h
    exact .refl _
  · split at h
    · cases h
      exact .refl _
    · have hloads := hact _ h
      exact hloads

theorem log_crash : (w.crash i).log = w.log ∨ (w.crash i).log = .returned i :: w.log := by
  unfold crash
  dsimp only
  split
  · exact .inr rfl
  · exact .inl rfl

theorem log_call {c : Choice} {entry : Option String → Entry} {exn : String → Exn}
    {r : Except Exn Unit} (h : w.call c entry exn = some (r, w')) :
    ∃ error, w'.log = entry error :: w.log := by
  unfold call at h
  split at h
  · cases h
    exact ⟨none, rfl⟩
  · cases h
    exact ⟨some _, rfl⟩
  · cases h

end World

/-- The entry is the result of a select, which entries of loaded tickets may follow. -/
def Entry.isRead : Entry → Bool
  | .looked _ _ _ | .found _ _ _ => true
  | _ => false

open World in
/-- A lookup by a session that has written nothing tells what is committed. -/
theorem log_selectTicketByKey [Codecs] {w w' : World} {i : ℕ} {c : Choice} {key : String}
    {r : Except Exn (Option Ticket)} (hiso : w.Isolated)
    (hguar : Guarantee i (.selectTicketByKey key) w)
    (h : (Effect.selectTicketByKey key).exec i c w = some (r, w')) :
    Loads w.log w'.log ∨ ∃ entry : Entry, entry.isRead = true ∧ Permitted w.log entry ∧
      Loads (entry :: w.log) w'.log := by
  simp only [Effect.exec, statement] at h
  split at h
  · cases h
    exact .inl (.refl _)
  next hlive =>
    obtain ⟨hwrites, request, hacts⟩ := hguar (by simpa using hlive)
    have hvisible : (w.beginTx i c).visible i = w.log.database := by
      rw [visible, beginTx, session_setSession_self, ← hiso.db_eq]
      simp [Session.beginTx, hwrites]
    split at h
    · cases h
      exact .inl (.refl _)
    refine .inr ?_
    simp only [selectTicketByKey, hvisible] at h
    split at h
    next hnone =>
      cases h
      refine ⟨_, rfl, .looked hacts (by simp) fun _ hkeys => ?_, .refl _⟩
      obtain ⟨t, row, hrow, hkey⟩ := hkeys
      exact List.find?_eq_none.mp hnone row (Table.mem_rows.mpr ⟨t, hrow⟩) (by simpa using hkey)
    next row hsome =>
      cases h
      refine ⟨_, rfl, .looked hacts ?_ (by simp), loads_loadRow row⟩
      rintro - ⟨⟩
      obtain ⟨id, hid⟩ := Table.mem_rows.mp (List.mem_of_find?_eq_some hsome)
      exact ⟨row, (w.log.keyed_database.tickets id row hid) ▸ hid,
        by simpa using List.find?_some hsome⟩

open World in
/-- The stuck tickets that a select returns are stuck in the committed rows. -/
theorem log_selectStuck [Codecs] {w w' : World} {i : ℕ} {c : Choice} {olderThan : Time}
    {limit : ℕ} {r : Except Exn (List Ticket)} (hiso : w.Isolated)
    (hguar : Guarantee i (.selectStuck olderThan limit) w)
    (h : (Effect.selectStuck olderThan limit).exec i c w = some (r, w')) :
    Loads w.log w'.log ∨ ∃ entry : Entry, entry.isRead = true ∧ Permitted w.log entry ∧
      Loads (entry :: w.log) w'.log := by
  simp only [Effect.exec, statement] at h
  split at h
  · cases h
    exact .inl (.refl _)
  split at h
  · cases h
    exact .inl (.refl _)
  refine .inr ?_
  obtain ⟨ids, -, h⟩ := Option.bind_eq_some_iff.mp h
  simp only [selectStuck] at h
  split at h
  next hbatch =>
    cases h
    refine ⟨.found i olderThan ids, rfl, .found hguar.2 hbatch.1 fun id hid => ?_, loads_loadRows _⟩
    have hany : Option.any (·.stuck olderThan) (w.db.tickets.lookup id) = true :=
      (hbatch.2.2.1 id hid).2
    rw [← hiso.db_eq]
    simpa [Option.any_eq_true] using hany
  · cases h

open World in
/-- The events that a batch fetches are the oldest pending ones that it does not skip. -/
theorem log_selectPending [Codecs] {w w' : World} {i : ℕ} {c : Choice} {limit : ℕ}
    {r : Except Exn (List OutboxEvent)} (hiso : w.Isolated)
    (hguar : Guarantee i (.selectPending limit) w)
    (h : (Effect.selectPending limit).exec i c w = some (r, w')) :
    Loads w.log w'.log ∨ ∃ ids skipped, w'.log = .fetched i limit ids skipped :: w.log ∧
      Permitted w.log (.fetched i limit ids skipped) := by
  simp only [Effect.exec, statement] at h
  split at h
  · cases h
    exact .inl (.refl _)
  split at h
  · cases h
    exact .inl (.refl _)
  obtain ⟨ids, -, h⟩ := Option.bind_eq_some_iff.mp h
  simp only [selectPending] at h
  split at h
  next hbatch =>
    cases h
    have hskipped : ∀ id ∈ (w.beginTx i c).skipped i, ¬ Available (w.beginTx i c).eventLock i id := by
      intro id hid
      obtain ⟨e, he, rfl⟩ := List.mem_map.mp hid
      simpa using (of_decide_eq_true (List.mem_filter.mp he).2).2
    refine .inr ⟨ids, _, rfl, .fetched hguar ?_⟩
    rw [← hiso.db_eq]
    obtain ⟨hnodup, hlimit, hchosen, hsorted, hrest⟩ := hbatch
    refine ⟨hnodup, hlimit, fun id hid => ⟨fun hid' => hskipped id hid' (hchosen id hid).1,
      (hchosen id hid).2⟩, hsorted, fun e he hfree helig hnot => hrest e he ?_ helig hnot⟩
    by_contra hlocked
    refine hfree (List.mem_map.mpr ⟨e, List.mem_filter.mpr ⟨he, ?_⟩, rfl⟩)
    simpa using ⟨helig, hlocked⟩
  · cases h

open World in
/-- An effect that meets the guarantee appends permitted entries. A commit that it appends is
that of its thread's transaction. -/
theorem log_exec [Codecs] {w w' : World} {i : ℕ} {e : Effect} {c : Choice} {r : e.Result}
    (hiso : w.Isolated) (hguar : Guarantee i e w) (h : e.exec i c w = some (r, w')) :
    Loads w.log w'.log ∨
      (∃ entry : Entry, entry.isRead = true ∧ Permitted w.log entry ∧
        Loads (entry :: w.log) w'.log) ∨
      ∃ entry, w'.log = entry :: w.log ∧ Permitted w.log entry ∧
        ∀ j ws, entry = .committed j ws → j = i ∧ ws = (w.session i).writes := by
  cases e with
  | utcNow | assign t | readAttribute id | add object | rollback =>
      obtain ⟨-, -, h⟩ := Option.map_eq_some_iff.mp h
      cases h
      exact .inl (.refl _)
  | uuid4 =>
      obtain ⟨u, -, h⟩ := Option.map_eq_some_iff.mp h
      cases h
      exact .inl (.refl _)
  | selectTicketForUpdate id =>
      simp only [Effect.exec] at h
      refine .inl (loads_statement (fun v hv => ?_) h)
      simp only [selectTicketForUpdate] at hv
      split at hv
      · split at hv
        · cases hv
          exact .refl _
        · cases hv
          exact loads_loadRow _
      · cases hv
  | selectTicketByKey key =>
      exact (log_selectTicketByKey hiso hguar h).imp_right .inl
  | selectStuck olderThan limit =>
      exact (log_selectStuck hiso hguar h).imp_right .inl
  | selectPending limit =>
      refine (log_selectPending hiso hguar h).imp_right fun hfetched => .inr ?_
      obtain ⟨ids, skipped, hlog, hpermitted⟩ := hfetched
      exact ⟨_, hlog, hpermitted, by simp⟩
  | insertInbox messageId messageType ticketId =>
      simp only [Effect.exec] at h
      refine .inl (loads_statement (fun v hv => ?_) h)
      simp only [insertInbox] at hv
      split at hv
      · split at hv <;> cases hv <;> exact .refl _
      · cases hv
  | updatePublished ids publishedAt | updateFailed id error =>
      simp only [Effect.exec] at h
      refine .inl (loads_statement (fun v hv => ?_) h)
      simp only [updateEvents] at hv
      split at hv
      · split at hv <;> cases hv <;> exact .refl _
      · cases hv
  | flush =>
      simp only [Effect.exec] at h
      split at h
      · cases h
        exact .inl (.refl _)
      · refine .inl (loads_statement (fun v hv => ?_) h)
        simp only [flush] at hv
        split at hv
        · split at hv
          · cases hv
            exact .refl _
          · split at hv <;> cases hv <;> exact .refl _
        · cases hv
  | commit =>
      simp only [Effect.exec] at h
      split at h
      · cases h
        exact .inl (.refl _)
      next hlive =>
        split at h
        · cases h
          exact .inr (.inr ⟨_, rfl, (hguar (by simpa using hlive)).1,
            by rintro j ws ⟨⟩; exact ⟨rfl, rfl⟩⟩)
        · cases h
          exact .inl (.refl _)
        · cases h
  | processTicket id action reason =>
      obtain ⟨error, hlog⟩ := log_call h
      exact .inr (.inr ⟨_, hlog, hguar error, by simp⟩)
  | publish key messageId body =>
      obtain ⟨error, hlog⟩ := log_call h
      exact .inr (.inr ⟨_, hlog, hguar.1 _, by simp⟩)
  | sendAck messageId =>
      obtain ⟨error, hlog⟩ := log_call h
      exact .inr (.inr ⟨_, hlog, .sendAck, by simp⟩)
  | receive q =>
      obtain ⟨n, -, h⟩ := Option.bind_eq_some_iff.mp h
      simp only [receive] at h
      split at h
      next d hd =>
        cases h
        exact .inr (.inr ⟨_, rfl, hguar n d hd, by simp⟩)
      · cases h
  | ack =>
      obtain ⟨-, -, h⟩ := Option.map_eq_some_iff.mp h
      cases h
      exact .inr (.inr ⟨_, rfl, hguar, by simp⟩)
  | nack =>
      obtain ⟨-, -, h⟩ := Option.map_eq_some_iff.mp h
      cases h
      exact .inr (.inr ⟨_, rfl, .returned, by simp⟩)
  | send m =>
      simp only [Effect.exec, send] at h
      split at h <;> cases h <;> exact .inr (.inr ⟨_, rfl, hguar _, by simp⟩)
  | countTransition fromStatus toStatus =>
      obtain ⟨-, -, h⟩ := Option.map_eq_some_iff.mp h
      cases h
      exact .inr (.inr ⟨_, rfl, .count, by simp⟩)
  | request key request | respond result =>
      obtain ⟨-, -, h⟩ := Option.map_eq_some_iff.mp h
      cases h
      exact .inr (.inr ⟨_, rfl, hguar, by simp⟩)

/-! ### Runs -/

namespace System

variable [Codecs] {s s' : System} {l l' : History}

/-- The committed rows and the broker of a reachable state are what its history leads to. -/
theorem isolated (h : s.Reachable) : s.world.Isolated := discipline_sound.invariant h

/-- The entry that a step appends, if it is only one, satisfies `C` of the history before. -/
def Meets (C : History → Entry → Prop) (s s' : System) : Prop :=
  ∀ e, s'.world.log = e :: s.world.log → C s.world.log e

/-- A step appends permitted entries. -/
theorem log_step (h : s.Reachable) (hstep : machine.Step s s') :
    World.Loads s.world.log s'.world.log ∨
      (∃ e : Entry, e.isRead = true ∧ Permitted s.world.log e ∧
        World.Loads (e :: s.world.log) s'.world.log) ∨
      ∃ e, s'.world.log = e :: s.world.log ∧ Permitted s.world.log e := by
  obtain ⟨x, hworld⟩ | hworld | ⟨i, hworld⟩ | ⟨i, e, next, c, r, hthread, hexec, -⟩ :=
    Machine.step_cases hstep
  · rw [hworld]
    exact .inl (.refl _)
  · rw [hworld]
    exact .inl (.refl _)
  · rw [hworld]
    rcases World.log_crash (w := s.world) (i := i) with hlog | hlog
    · exact .inl ⟨[], by simp, hlog⟩
    · exact .inr (.inr ⟨_, hlog, .returned⟩)
  · rcases log_exec (isolated h) (discipline_sound.guarantee h hthread) hexec with
      hlog | hread | ⟨e, hlog, hpermitted, -⟩
    · exact .inl hlog
    · exact .inr (.inl hread)
    · exact .inr (.inr ⟨e, hlog, hpermitted⟩)

/-- The condition does not restrict what sessions read. -/
structure AllowsReads (C : History → Entry → Prop) : Prop where
  loaded : ∀ l i k, C l (.loaded i k)
  read : ∀ l (e : Entry), e.isRead = true → C l e

theorem conforms_loads {C : History → Entry → Prop} (hreads : AllowsReads C)
    (hl : Conforms C l) (h : World.Loads l l') : Conforms C l' := by
  obtain ⟨es, hes, rfl⟩ := h
  induction es with
  | nil => exact hl
  | cons e es ih =>
      obtain ⟨i, k, rfl⟩ := hes e List.mem_cons_self
      exact (ih fun e' he' => hes e' (List.mem_cons_of_mem _ he')).cons .load (hreads.loaded _ _ _)

/-- The history of a run all of whose steps meet `C` conforms to the protocol, and all of its
entries satisfy `C`. -/
theorem conforms {C : History → Entry → Prop} (hreads : AllowsReads C)
    (h : machine.Reaches (Meets C) System.initial s) : Conforms C s.world.log := by
  refine h.invariant (I := fun s => Conforms C s.world.log) Conforms.nil
    fun t t' hrun hstep hmeets ht => ?_
  rcases log_step hrun hstep with hloads | ⟨e, hread, hpermitted, hloads⟩ | ⟨e, hlog, hpermitted⟩
  · exact conforms_loads hreads ht hloads
  · exact conforms_loads hreads (ht.cons hpermitted (hreads.read _ e hread)) hloads
  · rw [hlog]
    exact ht.cons hpermitted (hmeets e hlog)

/-- The history of a reachable state conforms to the protocol. -/
theorem Reachable.conforms (h : s.Reachable) : Conforms (fun _ _ => True) s.world.log :=
  System.conforms ⟨fun _ _ _ => trivial, fun _ _ _ => trivial⟩
    (Machine.Reaches.mono (fun _ _ _ _ _ => trivial) h)

/-- Histories only grow. -/
theorem suffix_of_run (h : s.Reachable) (hrun : machine.Run s s') :
    s.world.log <:+ s'.world.log := by
  refine hrun.invariant (I := fun s' => s.world.log <:+ s'.world.log) (List.suffix_refl _)
    fun t t' ht hstep _ hsuffix => hsuffix.trans ?_
  rcases log_step (Relation.ReflTransGen.trans h ht) hstep with ⟨es, -, hlog⟩ |
    ⟨e, -, -, es, -, hlog⟩ | ⟨e, hlog, -⟩
  · exact ⟨es, hlog.symm⟩
  · exact ⟨es ++ [e], by rw [hlog, List.append_assoc]; rfl⟩
  · exact ⟨[e], hlog.symm⟩

/-- The committed status of a ticket, from the history. -/
theorem status?_eq (h : s.Reachable) (ticketId : UUID) :
    s.world.status? ticketId = s.world.log.status? ticketId := by
  rw [World.status?, History.status?, (isolated h).db_eq]

end System

end RiskProvider

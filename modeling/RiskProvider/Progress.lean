import RiskProvider.Interleaving.Progress
import RiskProvider.Limits
import RiskProvider.Release

/-!
# Progress

Handlers end. In every reachable state a handler that still runs can go on without a failure of its
environment, or is a subscriber of an empty queue, or waits for a lock whose owner can go on
(`System.progress`). So every reachable state can be run, without such a failure, until all handlers
have ended and only subscribers of empty queues are left (`System.exists_quiescent`), and then nothing
is locked. A statement may still be rejected for its data, or because one before it was.
-/

namespace RiskProvider

open Interleaving

/-! ### Batches exist -/

section Batches

variable {ρ : Type} {t : Table ρ} {es : List (Σ _ : UUID, ρ)}

/-- The rows under the keys of stored entries. -/
theorem Table.filterMap_lookup (h : ∀ e ∈ es, e ∈ t.entries) :
    (es.map (·.1)).filterMap t.lookup = es.map (·.2) := by
  induction es with
  | nil => rfl
  | cons e es ih =>
      have hrow : t.lookup e.1 = some e.2 := AList.mem_lookup_iff.mpr (h e List.mem_cons_self)
      simp only [List.map_cons, List.filterMap_cons, hrow]
      rw [ih fun e' he' => h e' (List.mem_cons_of_mem _ he')]

/-- Whatever is locked, a select with `SKIP LOCKED` can return. -/
theorem exists_isBatch (t : Table ρ) (free : UUID → Prop) [DecidablePred free]
    (eligible : ρ → Bool) (time : ρ → Time) (limit : ℕ) :
    ∃ ids, IsBatch t free eligible time limit ids := by
  -- the first of the free and eligible rows, oldest first
  let older (e e' : Σ _ : UUID, ρ) : Prop := time e.2 ≤ time e'.2
  let found := t.entries.filter fun e => free e.1 ∧ eligible e.2
  let sorted := found.insertionSort older
  have hperm : sorted.Perm found := List.perm_insertionSort older found
  have hfound : ∀ e ∈ sorted, e ∈ t.entries ∧ free e.1 ∧ eligible e.2 := by
    intro e he
    simpa [found] using hperm.mem_iff.mp he
  have htotal : sorted.Pairwise older := List.pairwise_insertionSort older found
  have htake : ∀ e ∈ sorted.take limit, e ∈ sorted := fun e => List.mem_of_mem_take
  have hrows : ((sorted.take limit).map (·.1)).filterMap t.lookup =
      (sorted.take limit).map (·.2) :=
    Table.filterMap_lookup fun e he => (hfound e (htake e he)).1
  refine ⟨(sorted.take limit).map (·.1), ?_, ?_, ?_, ?_, ?_⟩
  · have hkeys : (found.map (·.1)).Nodup :=
      (List.filter_sublist.map _).nodup t.nodupKeys
    exact ((List.take_sublist _ _).map _).nodup ((hperm.map _).nodup_iff.mpr hkeys)
  · simp
  · intro id hid
    obtain ⟨e, he, rfl⟩ := List.mem_map.mp hid
    obtain ⟨hentry, hfree, heligible⟩ := hfound e (htake e he)
    rw [AList.mem_lookup_iff.mpr hentry]
    exact ⟨hfree, heligible⟩
  · rw [hrows, List.pairwise_map]
    exact htotal.sublist (List.take_sublist _ _)
  · intro e he hfree heligible hnot
    -- an eligible row that is left out comes after the limit
    have hmem : e ∈ sorted := hperm.mem_iff.mpr (by simp [found, he, hfree, heligible])
    have hdrop : e ∈ sorted.drop limit := by
      rw [← List.take_append_drop limit sorted] at hmem
      rcases List.mem_append.mp hmem with h | h
      · exact absurd (List.mem_map_of_mem h) hnot
      · exact h
    have hlimit : limit < sorted.length := by
      by_contra hle
      rw [List.drop_eq_nil_of_le (by omega)] at hdrop
      cases hdrop
    refine ⟨by simp; omega, fun r hr => ?_⟩
    rw [hrows] at hr
    obtain ⟨e', he', rfl⟩ := List.mem_map.mp hr
    rw [← List.take_append_drop limit sorted, List.pairwise_append] at htotal
    exact htotal.2.2 e' he' e hdrop

end Batches

/-! ### Effects that can be performed -/

/-- The environment does not fail. The statement may still be rejected for its data, or because a
statement before it has failed. -/
def Choice.Healthy : Choice → Prop
  | databaseError | raises _ | rejects _ => False
  | _ => True

namespace World

variable {w : World} {i : ℕ}

/-- A statement is possible when the transaction has failed, or when its action is. -/
theorem isSome_statement {α : Type} {c : Choice} {act : World → Option (Except Exn α × World)}
    (h : (w.session i).failed = false → (act (w.beginTx i c)).isSome) :
    (w.statement i c act).isSome := by
  unfold statement
  split
  · rfl
  next hlive =>
    split
    · rfl
    · exact h (Bool.eq_false_of_not_eq_true hlive)

/-- A flush is possible when no other transaction has a lock that it needs. -/
theorem isSome_flush {c : Choice} (hfree : ∀ l ∈ Effect.flush.locks (w.session i), ∀ j,
    l.holder w = some j → j = i) : ((w.beginTx i c).flush i).isSome := by
  rw [Option.isSome_iff_ne_none, ne_eq, flush_eq_none_iff, not_not]
  intro l hl j hj
  refine hfree l ?_ j hj
  rw [beginTx, session_setSession_self, Session.locks_flushWrites_beginTx] at hl
  exact hl

variable [Codecs]

omit [Codecs] in
/-- An effect is possible when no other transaction has a lock that it needs, and a receipt when there
is a message. -/
theorem exists_exec {e : Effect}
    (hfree : (w.session i).failed = false → ∀ l ∈ e.locks (w.session i), ∀ j,
      l.holder w = some j → j = i)
    (hreceive : ∀ q, e = .receive q → w.broker.queue q ≠ []) :
    ∃ c, Choice.Healthy c ∧ (e.exec i c w).isSome := by
  -- a statement that needs locks waits for nothing else
  have hlocking : ∀ e : Effect, e.locks (w.session i) ≠ [] →
      (∀ l ∈ e.locks (w.session i), ∀ j, l.holder w = some j → j = i) →
      (w.session i).failed = false → (e.exec i .succeed w).isSome := by
    intro e hlocks hfree hlive
    rw [Option.isSome_iff_ne_none, ne_eq, exec_eq_none_iff hlive hlocks]
    rintro ⟨l, hl, j, hj, hne⟩
    exact hne (hfree l hl j hj)
  cases e with
  | uuid4 => exact ⟨.uuid 0, trivial, rfl⟩
  | selectTicketByKey key =>
      refine ⟨.succeed, trivial, ?_⟩
      simp only [Effect.exec]
      refine isSome_statement fun _ => ?_
      unfold selectTicketByKey
      split <;> rfl
  | selectStuck olderThan limit =>
      obtain ⟨ids, hids⟩ := exists_isBatch w.db.tickets (Available w.ticketLock i)
        (·.stuck olderThan) (·.updatedAt) limit
      refine ⟨.rows ids, trivial, ?_⟩
      simp only [Effect.exec]
      refine isSome_statement fun _ => ?_
      change (selectStuck _ i olderThan limit ids).isSome
      unfold selectStuck
      rw [if_pos (by exact hids)]
      rfl
  | selectPending limit =>
      obtain ⟨ids, hids⟩ := exists_isBatch w.db.outbox (Available w.eventLock i) (·.pending)
        (·.createdAt) limit
      refine ⟨.rows ids, trivial, ?_⟩
      simp only [Effect.exec]
      refine isSome_statement fun _ => ?_
      change (selectPending _ i limit ids).isSome
      unfold selectPending
      rw [if_pos (by exact hids)]
      rfl
  | updatePublished ids publishedAt =>
      -- an update of no row needs no lock
      refine ⟨.succeed, trivial, ?_⟩
      simp only [Effect.exec]
      refine isSome_statement fun hlive => ?_
      by_cases hids : ids = []
      · subst hids
        rfl
      · have h := hlocking (.updatePublished ids publishedAt) (by simpa [Effect.locks] using hids)
          (hfree hlive) hlive
        rwa [Effect.exec, statement_succeed hlive] at h
  | selectTicketForUpdate _ | insertInbox _ _ _ | updateFailed _ _ =>
      refine ⟨.succeed, trivial, ?_⟩
      simp only [Effect.exec]
      refine isSome_statement fun hlive => ?_
      have h := hlocking _ (by simp [Effect.locks]) (hfree hlive) hlive
      rwa [Effect.exec, statement_succeed hlive] at h
  | flush =>
      refine ⟨.succeed, trivial, ?_⟩
      simp only [Effect.exec]
      split
      · rfl
      · exact isSome_statement fun hlive => isSome_flush (hfree hlive)
  | commit =>
      refine ⟨.succeed, trivial, ?_⟩
      simp only [Effect.exec]
      split <;> rfl
  | receive q =>
      obtain ⟨d, ds, hq⟩ := List.exists_cons_of_ne_nil (hreceive q rfl)
      refine ⟨.message 0, trivial, ?_⟩
      change (w.receive i q 0).isSome
      simp [World.receive, hq]
  | _ => exact ⟨.succeed, trivial, rfl⟩

end World

/-! ### Threads that go on -/

theorem Lock.level_le (l : Lock) : l.level ≤ 2 := by
  cases l <;> simp [level]

section General

variable [Codecs]

namespace System

/-- Thread `i` can go on without a failure of its environment, though maybe with a statement that is
rejected for its data. -/
def CanGoOn (s : System) (i : ℕ) : Prop :=
  ∃ c s', Choice.Healthy c ∧ machine.step s (.run i c) = some s'

/-- Thread `i` is a subscriber of an empty queue. -/
def Listens (s : System) (i : ℕ) : Prop :=
  ∃ q cont, s.threads i = .perform (.receive q) cont ∧ s.world.broker.queue q = []

end System

/-- A thread that has performed an effect has done something. -/
theorem limited_next_ne_fresh {φ φ' : Phase} {e : Effect} {r : e.Result}
    (h : limited.next φ e r φ') : φ' ≠ .fresh := by
  have hnext : φ.next ≠ .fresh := by
    cases φ <;> simp [Phase.next]
  cases e with
  | utcNow | uuid4 => cases r with
    | ok a => exact h ▸ hnext
    | error x => exact False.elim h
  | selectTicketForUpdate id => cases r with
    | ok ticket? => cases ticket? with
      | some t => exact h.2 ▸ hnext
      | none => exact h ▸ hnext
    | error x => exact h ▸ hnext
  | receive q => cases r with
    | ok body =>
        obtain rfl := h
        cases q with
        | providerIn => cases hreason : recommendedReason? body <;> simp [Phase.ofBody, hreason]
        | providerOut => simp [Phase.ofBody]
    | error x => exact h ▸ hnext
  | flush => cases r with
    | ok _ =>
        obtain rfl := h
        cases φ <;> simp [Phase.flushed, Phase.next]
    | error x => exact h ▸ hnext
  | commit => cases r with
    | ok _ =>
        obtain rfl := h
        cases φ <;> simp [Phase.committed, Phase.next]
    | error x => exact h ▸ hnext
  | rollback =>
      obtain rfl : φ' = .applied := by cases r <;> exact h
      simp
  | request key request => cases r with
    | ok _ =>
        obtain rfl : φ' = .idle (some key) := h
        simp
    | error x => exact h ▸ hnext
  | _ => cases r with
    | ok a => exact h ▸ hnext
    | error x => exact h ▸ hnext

/-- The contract of threads and texts, with what it leaves out: a thread that has done nothing has
nothing. -/
theorem limited_untouched : limited.Sound machine (fun _ _ => True)
    (fun w => w.Isolated ∧ w.Stored)
    (fun i φ w => φ.Fits i w ∧ (φ = .fresh → Clear i w ∧ w.broker.unacked i = none)) .fresh {} := by
  apply limited_sound.untouched
  · exact fun φ e r φ' => limited_next_ne_fresh
  -- at the start nobody has anything
  · intro i
    refine ⟨⟨rfl, fun l => ?_⟩, rfl⟩
    cases l <;> simp [Lock.holder]
  -- nobody is given anything by others
  · rintro i j e c w r w' ⟨hiso, -⟩ hexec hj ⟨hclear, hunacked⟩
    have hacts := World.exec_acts hiso hexec
    have hview := hacts.frame hiso hj
    have hbroker : w'.broker.unacked j = w.broker.unacked j := congrArg View.unacked hview
    exact ⟨hacts.clear hiso hj hclear, hbroker.trans hunacked⟩
  · rintro i j w ⟨hiso, -⟩ hj
    have hacts : World.Acts i w (w.crash i) := World.crash_acts
    by_cases hij : j = i
    · subst hij
      have hfits := Custody.Fits.crash w j
      exact ⟨hfits.session rfl, hfits.delivery rfl⟩
    · obtain ⟨hclear, hunacked⟩ := hj.resolve_left hij
      have hbroker : (w.crash i).broker.unacked j = w.broker.unacked j :=
        congrArg View.unacked (hacts.frame hiso hij)
      exact ⟨hacts.clear hiso hij hclear, hbroker.trans hunacked⟩
  · rintro i elapsed w - ⟨hclear, hunacked⟩
    exact ⟨World.clear_of_eq hclear rfl rfl rfl rfl rfl, hunacked⟩

namespace System

variable {s : System} {i : ℕ}

/-- A subscriber that waits for a message has neither a transaction, nor a lock, nor a delivery. -/
theorem clear_of_receive (hs : s.Reachable) {q : Queue}
    {cont : (Effect.receive q).Result → Program Effect Effect.Result Unit}
    (hthread : s.threads i = .perform (.receive q) cont) :
    Clear i s.world ∧ s.world.broker.unacked i = none := by
  obtain ⟨φ, ⟨-, hclear⟩, hmay⟩ := limited_untouched.may_of_perform
    (Machine.Reaches.mono (fun _ _ _ => trivial) hs) hthread
  cases φ with
  | fresh => exact hclear rfl
  | _ => exact False.elim hmay

/-- A thread that waits for no lock can go on, unless it is a subscriber of an empty queue. -/
theorem canGoOn_of_not_waits {e : Effect} {cont : e.Result → Program Effect Effect.Result Unit}
    (hthread : s.threads i = .perform e cont) (hwaits : ∀ l j, s.Waits i l → ¬ s.Holds j l)
    (hlistens : ¬ s.Listens i) : s.CanGoOn i := by
  have hfree : (s.world.session i).failed = false → ∀ l ∈ e.locks (s.world.session i), ∀ j,
      l.holder s.world = some j → j = i := by
    intro hlive l hl j hj
    by_contra hne
    refine hwaits l j ⟨e, cont, hthread, hlive, hl, fun hi => hne ?_⟩ hj
    exact Option.some.inj (hj.symm.trans hi)
  have hreceive : ∀ q, e = .receive q → s.world.broker.queue q ≠ [] := by
    rintro q rfl hempty
    exact hlistens ⟨q, cont, hthread, hempty⟩
  obtain ⟨c, hc, hexec⟩ := World.exists_exec hfree hreceive
  obtain ⟨⟨r, w'⟩, hexec⟩ := Option.isSome_iff_exists.mp hexec
  exact ⟨c, _, hc, Machine.step_run hthread hexec⟩

omit [Codecs] in
/-- A handler that has not ended has an effect to perform. -/
theorem exists_perform (h : s.threads i ≠ .done ()) : ∃ e cont, s.threads i = .perform e cont := by
  cases hthread : s.threads i with
  | done a => exact absurd hthread h
  | perform e cont => exact ⟨e, cont, rfl⟩

/-- A handler that still runs, and is not a subscriber of an empty queue, can go on without a failure
of its environment, or waits, through others, for a handler that can go on. -/
theorem exists_canGoOn (hs : s.Reachable) {e : Effect}
    {cont : e.Result → Program Effect Effect.Result Unit} (hthread : s.threads i = .perform e cont)
    (hlistens : ¬ s.Listens i) :
    s.CanGoOn i ∨ ∃ j, Relation.TransGen s.WaitsFor i j ∧ s.CanGoOn j := by
  by_cases hwaits : ∃ l j, s.Waits i l ∧ s.Holds j l
  · -- the last of the handlers that wait for each other can go on
    obtain ⟨l, j, hl, hj⟩ := hwaits
    -- locks are waited for in the order of their levels, so chains are finite
    let waits (i : ℕ) (l : Lock) : Prop := s.Waits i l ∧ ∃ j, s.Holds j l
    have horder : ∀ i l, waits i l → ∀ l', s.Holds i l' → l'.level < l.level :=
      fun i l hwaits l' hholds => level_lt_of_waits hs hwaits.1 hholds
    have hheld : ∀ i l, waits i l → ∃ j, s.Holds j l := fun i l hwaits => hwaits.2
    have hwaits : waits i l := ⟨hl, j, hj⟩
    obtain ⟨m, hpath, ⟨l', hl'⟩, hm⟩ := exists_of_waits Lock.level_le horder hheld hwaits
    obtain ⟨e', cont', hthread'⟩ :=
      exists_perform fun hdone => (clear_of_done hs hdone).1.2 l' hl'
    have hbusy : ¬ s.Listens m := by
      rintro ⟨q, cont'', hreceive, -⟩
      exact (clear_of_receive hs hreceive).1.2 l' hl'
    have hwaitsFor : ∀ i j, Interleaving.WaitsFor waits s.Holds i j → s.WaitsFor i j := by
      rintro i j ⟨l, hwaits, hholds⟩
      exact ⟨l, hwaits.1, hholds⟩
    refine .inr ⟨m, Relation.TransGen.mono hwaitsFor _ _ hpath, ?_⟩
    exact canGoOn_of_not_waits hthread' (fun l j hl hj => hm l ⟨hl, j, hj⟩) hbusy
  · exact .inl (canGoOn_of_not_waits hthread (fun l j hl hj => hwaits ⟨l, j, hl, hj⟩) hlistens)

/-- A handler that still runs can go on without a failure of its environment, or is a subscriber of an
empty queue, or waits, through others, for a handler that can go on. -/
theorem progress (hs : s.Reachable) {e : Effect}
    {cont : e.Result → Program Effect Effect.Result Unit} (hthread : s.threads i = .perform e cont) :
    s.CanGoOn i ∨ s.Listens i ∨ ∃ j, Relation.TransGen s.WaitsFor i j ∧ s.CanGoOn j := by
  by_cases hlistens : s.Listens i
  · exact .inr (.inl hlistens)
  · exact (exists_canGoOn hs hthread hlistens).imp_right .inr

/-- No handler runs any more except for subscribers of empty queues. -/
def Quiescent (s : System) : Prop := ∀ i, s.threads i = .done () ∨ s.Listens i

theorem Reachable.advances {s' : System} (hs : s.Reachable)
    (h : Relation.ReflTransGen (machine.Advances Choice.Healthy) s s') : s'.Reachable := by
  induction h with
  | refl => exact hs
  | tail _ hlast ih =>
      obtain ⟨i, c, -, hstep⟩ := hlast
      exact ih.tail ⟨⟨.run i c, hstep⟩, trivial⟩

/-- While handlers run, other than subscribers of empty queues, one of them can go on. -/
theorem exists_advances (hs : s.Reachable) (h : ∃ i, s.threads i ≠ .done () ∧ ¬ s.Listens i) :
    ∃ s', machine.Advances Choice.Healthy s s' := by
  obtain ⟨i, hrunning, hbusy⟩ := h
  obtain ⟨e, cont, hthread⟩ := exists_perform hrunning
  have hgo : ∃ j, s.CanGoOn j := by
    rcases exists_canGoOn hs hthread hbusy with h | ⟨j, -, h⟩
    · exact ⟨i, h⟩
    · exact ⟨j, h⟩
  obtain ⟨j, c, s', hc, hstep⟩ := hgo
  exact ⟨s', j, c, hc, hstep⟩

theorem threads_of_started_le (hs : s.Reachable) (hi : s.started ≤ i) : s.threads i = .done () :=
  ((limited_sound.holds (Machine.Reaches.mono (fun _ _ _ => trivial) hs)).unstarted i hi).2

/-- Every reachable state can be run, without a failure of the environment, until no handler runs
any more except for subscribers of empty queues; then no transaction is open, nothing is locked, and
every delivery is answered for. -/
theorem exists_quiescent (hs : s.Reachable) :
    ∃ s' : System, Relation.ReflTransGen (machine.Advances Choice.Healthy) s s' ∧ s'.Quiescent ∧
      ∀ i, Clear i s'.world ∧ s'.world.broker.unacked i = none := by
  have hprogress : ∀ t : System, Relation.ReflTransGen (machine.Advances Choice.Healthy) s t →
      (∃ i, t.threads i ≠ .done () ∧ ¬ t.Listens i) → ∃ t', machine.Advances Choice.Healthy t t' :=
    fun t ht => exists_advances (hs.advances ht)
  -- programs are finite, so handlers that can go on come to an end
  obtain ⟨s', hrun, hidle⟩ := Machine.exists_drained (fun i => threads_of_started_le hs) hprogress
  refine ⟨s', hrun, hidle, fun i => ?_⟩
  rcases hidle i with hdone | ⟨q, cont, hreceive, -⟩
  · exact clear_of_done (hs.advances hrun) hdone
  · exact clear_of_receive (hs.advances hrun) hreceive

end System

end General

/-- A consumer that waits for the claim of another one makes progress with it. -/
theorem System.progress_waiting : ∃ s : System, s.Reachable ∧ s.WaitsFor 2 1 ∧
    (s.CanGoOn 2 ∨ s.Listens 2 ∨ ∃ j, Relation.TransGen s.WaitsFor 2 j ∧ s.CanGoOn j) := by
  obtain ⟨s, hs, l, ⟨e, cont, hthread, hwaits⟩, hl⟩ := System.exists_waiting
  exact ⟨s, hs, ⟨l, ⟨e, cont, hthread, hwaits⟩, hl⟩, System.progress hs hthread⟩

/-- Consumers that wait for each other can be run to the end. -/
theorem System.exists_quiescent_waiting : ∃ s s' : System, s.WaitsFor 2 1 ∧
    Relation.ReflTransGen (machine.Advances Choice.Healthy) s s' ∧ s'.Quiescent ∧
      ∀ i, Clear i s'.world ∧ s'.world.broker.unacked i = none := by
  obtain ⟨s, hs, hwaits⟩ := System.exists_waiting
  obtain ⟨s', h⟩ := System.exists_quiescent hs
  exact ⟨s, s', hwaits, h⟩

end RiskProvider

import RiskProvider.Executions
import RiskProvider.Relay.Events

/-!
# The order of publishes

A batch publishes the events that it has fetched from the oldest to the youngest, where the age
of an event is that of the transaction which has inserted it. An event overtakes an earlier one
in three ways only (`publish_order`), and each of them happens (`publish_order_overtaken`).
-/

namespace RiskProvider

open Interleaving

/-- The entry is a successful publish of an event to `provider.out`. -/
def Entry.publishes (id : UUID) : Entry → Bool
  | .published _ key id' _ true => key = topology.providerOutRoutingKey && id' = id
  | _ => false

namespace History

/-- The commit of `first` came before that of `second`. -/
def Precedes (l : History) (first second : UUID) : Prop :=
  ∃ l' : History, l' <:+ l ∧ first ∈ l'.database.outbox ∧ second ∉ l'.database.outbox

instance (l : History) (first second : UUID) : Decidable (l.Precedes first second) :=
  decidable_of_iff
    (∃ l' ∈ l.tails, first ∈ (database l').outbox ∧ second ∉ (database l').outbox) <| by
      simp only [List.mem_tails, Precedes]

/-- Two events of one ticket of which the earlier one is still to be published. -/
structure Ahead (l : History) (first second : UUID) : Prop where
  precedes : l.Precedes first second
  entity : (l.database.outbox.lookup first).map (·.entityId) =
    (l.database.outbox.lookup second).map (·.entityId)
  unpublished : ∀ e ∈ l, ¬ e.publishes first
  live : (l.database.outbox.lookup first).any (·.status ≠ .failed)

instance (l : History) (first second : UUID) : Decidable (l.Ahead first second) :=
  decidable_of_iff (l.Precedes first second ∧
    (l.database.outbox.lookup first).map (·.entityId) =
      (l.database.outbox.lookup second).map (·.entityId) ∧
    (∀ e ∈ l, ¬ e.publishes first) ∧
    (l.database.outbox.lookup first).any (·.status ≠ .failed))
    ⟨fun ⟨h₁, h₂, h₃, h₄⟩ => ⟨h₁, h₂, h₃, h₄⟩, fun ⟨h₁, h₂, h₃, h₄⟩ => ⟨h₁, h₂, h₃, h₄⟩⟩

/-- When the transaction that has inserted an event began. -/
def insertedAt (l : History) (id : UUID) : Option Time :=
  (l.database.outbox.lookup id).map (·.createdAt)

end History

/-! ### Runs -/

open Script in
/-- Ticket 1 is created with event 3, found stuck, and cancelled with event 12. -/
def stuckRun : List (Label Choice Invocation ℕ) :=
  [.start (.createTicket "k" sampleRequest)] ++ runs 0 (create 1 2 3) ++
  [.environment 1, .start (.recoverStuckTickets 0 10)] ++
  runs 1 (ok 1 ++ .rows [1] :: ok 2 ++ requestCancellation 11 12)

open Script in
/-- Ticket 1 is settled with event 12 in a transaction that began at 5 and then waited for a
reconciler, whose transaction began at 6 and cancelled the ticket with event 22. -/
def waitedRun : List (Label Choice Invocation ℕ) :=
  recommendedRun .accept ++ runs 4 (ok 1) ++
  [.environment 6, .start (.recoverStuckTickets 0 10)] ++
  runs 5 (ok 1 ++ .rows [1] :: ok 2 ++ requestCancellation 21 22) ++ runs 4 [.waited 1] ++
  runs 4 (ok 5 ++ [.uuid 11, .succeed, .uuid 12] ++ ok 4)

/-- An execution whose last step publishes an event that another one is ahead of. -/
theorem exists_overtaking (ls : List (Label Choice Invocation ℕ)) (first second : UUID)
    (check : Entry → History → Bool)
    (h : ((machine.execute (System.checks anyEntry) System.initial ls).any fun s =>
      s.world.log.head?.any fun e => e.publishes second &&
        decide (History.Ahead s.world.log.tail first second) && check e s.world.log.tail) = true) :
    ∃ (s : System) (e : Entry) (l : History), s.Reachable ∧ s.world.log = e :: l ∧
      e.publishes second ∧ l.Ahead first second ∧ check e l := by
  obtain ⟨s, hs, hst⟩ := System.exists_reaches anyEntry ls _ h
  obtain ⟨e, he, hst⟩ := (Option.any_eq_true _ _).mp hst
  obtain ⟨l, hlog⟩ := List.head?_eq_some_iff.mp he
  simp only [hlog, List.tail_cons, Bool.and_eq_true, decide_eq_true_eq] at hst
  exact ⟨s, e, l, hs.run, hlog, hst.1.1, hst.1.2, hst.2⟩

/-! ### Batches -/

section General

variable [Codecs] {C : History → Entry → Prop} {l l' : History} {i : ℕ} {first second : UUID}

/-- What a batch has fetched. -/
theorem Conforms.batch_of_fetched (h : Conforms C l) {limit : ℕ} {ids skipped : List UUID}
    (hfetched : .fetched i limit ids skipped ∈ l.actions i) :
    ∃ l' : History, l' <:+ l ∧
      IsBatch l'.database.outbox (· ∉ skipped) (·.pending) (·.createdAt) limit ids := by
  obtain ⟨l', hsuffix⟩ := exists_suffix_of_mem (History.mem_of_mem_actions hfetched)
  cases (h.of_suffix hsuffix).1 with
  | fetched hacts hbatch => exact ⟨l', (List.suffix_cons _ _).trans hsuffix, hbatch⟩

/-- An event whose commit came before that of `second` is there as soon as `second` is. -/
theorem Conforms.mem_of_precedes (h : Conforms C l) (hprecedes : l.Precedes first second)
    (hsuffix : l' <:+ l) (hsecond : second ∈ l'.database.outbox) : first ∈ l'.database.outbox := by
  obtain ⟨l₁, hsuffix₁, hfirst, hnot⟩ := hprecedes
  have hkept : ∀ {l₁ l₂ : History} {id : UUID}, l₂ <:+ l → l₁ <:+ l₂ → id ∈ l₁.database.outbox →
      id ∈ l₂.database.outbox := by
    intro l₁ l₂ id h₂ hsuffix hid
    obtain ⟨row, hrow⟩ := Option.isSome_iff_exists.mp (AList.lookup_isSome.mpr hid)
    obtain ⟨row', hrow', -⟩ := (h.of_suffix_history h₂).event_kept hsuffix hrow
    exact AList.lookup_isSome.mp (Option.isSome_of_eq_some hrow')
  rcases List.suffix_or_suffix_of_suffix hsuffix₁ hsuffix with hle | hle
  · exact hkept hsuffix hle hfirst
  · exact absurd (hkept hsuffix₁ hle hsecond) hnot

omit [Codecs] in
/-- The events of a batch are ordered by their age. -/
theorem IsBatch.createdAt_le {db : Database} {free : UUID → Prop} {limit : ℕ}
    {before after : List UUID} {row row' : OutboxEvent}
    (h : IsBatch db.outbox free (·.pending) (·.createdAt) limit (before ++ second :: after))
    (hrow : db.outbox.lookup second = some row) (hrow' : db.outbox.lookup first = some row')
    (hmem : first ∈ after) : row.createdAt ≤ row'.createdAt := by
  obtain ⟨-, -, -, hsorted, -⟩ := h
  have hrows : (second :: after).filterMap (AList.lookup · db.outbox) =
      row :: after.filterMap (AList.lookup · db.outbox) := List.filterMap_cons_some hrow
  rw [List.filterMap_append, hrows] at hsorted
  exact List.rel_of_pairwise_cons (List.pairwise_append.mp hsorted).2.1
    (List.mem_filterMap.mpr ⟨first, hmem, hrow'⟩)

omit [Codecs] in
/-- A pending event that a batch leaves to the next one is no older than those of the batch. -/
theorem IsBatch.createdAt_le_of_not_mem {db : Database} {free : UUID → Prop} {limit : ℕ}
    {ids : List UUID} {row row' : OutboxEvent}
    (h : IsBatch db.outbox free (·.pending) (·.createdAt) limit ids)
    (hrow : db.outbox.lookup second = some row) (hrow' : db.outbox.lookup first = some row')
    (hmem : second ∈ ids) (hnot : first ∉ ids) (hfree : free first) (hpending : row'.pending) :
    row.createdAt ≤ row'.createdAt := by
  obtain ⟨-, -, -, -, hrest⟩ := h
  have hentry : ⟨first, row'⟩ ∈ db.outbox.entries := AList.mem_lookup_iff.mp hrow'
  exact (hrest _ hentry hfree hpending hnot).2 row (List.mem_filterMap.mpr ⟨second, hmem, hrow⟩)

/-- How the batch of thread `i` comes to publish `second` while `first` is ahead of it. -/
inductive Overtakes (l : History) (i : ℕ) (first second : UUID) : Prop
  /-- The publish of `first` has failed in the same batch. -/
  | failed {body}
      (hfailed : .published i topology.providerOutRoutingKey first body false ∈ l.actions i)
  /-- Another transaction had locked `first` when the batch was fetched. -/
  | skipped {limit ids skipped} (hfetched : .fetched i limit ids skipped ∈ l.actions i)
      (hmem : second ∈ ids) (hskipped : first ∈ skipped)
  /-- The transaction that has inserted `first` began no earlier than that of `second`. -/
  | younger {t₁ t₂} (hfirst : l.insertedAt first = some t₁)
      (hsecond : l.insertedAt second = some t₂) (hle : t₂ ≤ t₁)

/-- A batch publishes an event that another one is ahead of in three ways only. -/
theorem Conforms.overtakes (h : Conforms C l) {e : Entry} (hsuffix : (e :: l') <:+ l)
    (hpublishes : e.publishes second) (hahead : l'.Ahead first second) :
    Overtakes l' e.thread first second := by
  have hl' := h.of_suffix_history ((List.suffix_cons _ _).trans hsuffix)
  obtain ⟨i, body, rfl⟩ : ∃ i body,
      e = .published i topology.providerOutRoutingKey second body true := by
    unfold Entry.publishes at hpublishes
    split at hpublishes
    · obtain ⟨rfl, rfl⟩ : _ = _ ∧ _ = _ := by simpa using hpublishes
      exact ⟨_, _, rfl⟩
    · cases hpublishes
  obtain ⟨limit, before, after, skipped, hfetched, hbefore⟩ : ∃ limit before after skipped,
      .fetched i limit (before ++ second :: after) skipped ∈ l'.actions i ∧
      ∀ id ∈ before, ∃ row ok, l'.database.outbox.lookup id = some row ∧
        .published i row.routingKey id row.payload ok ∈ l'.actions i := by
    generalize hkey : topology.providerOutRoutingKey = key at hsuffix
    cases (h.of_suffix hsuffix).1 with
    | publishFrame => exact absurd hkey outKey_ne_inKey
    | publishEvent _ hbatch hbefore => exact ⟨_, _, _, _, hbatch, hbefore⟩
  obtain ⟨l'', hsuffix'', hbatch⟩ := hl'.batch_of_fetched hfetched
  have hl'' := hl'.of_suffix_history hsuffix''
  -- both events, as they were when the batch was fetched
  have hmem : second ∈ before ++ second :: after := by simp
  obtain ⟨row₂, hrow₂, -⟩ := (Option.any_eq_true _ _).mp (hbatch.2.2.1 second hmem).2
  obtain ⟨row₁, hrow₁⟩ := Option.isSome_iff_exists.mp (AList.lookup_isSome.mpr
    (hl'.mem_of_precedes hahead.precedes hsuffix''
      (AList.lookup_isSome.mp (Option.isSome_of_eq_some hrow₂))))
  have hinserted : ∀ {id row}, l''.database.outbox.lookup id = some row →
      l'.insertedAt id = some row.createdAt := fun {id row} hrow => by
    obtain ⟨row', hrow', hsame⟩ := hl'.event_kept hsuffix'' hrow
    simp [History.insertedAt, hrow', hsame.createdAt]
  have hunpublished : ∀ {j body}, .published j topology.providerOutRoutingKey first body true ∉ l' :=
    fun hmem => hahead.unpublished _ hmem (by simp [Entry.publishes])
  by_cases hfirst : first ∈ before ++ second :: after
  · rcases List.mem_append.mp hfirst with hfirst | hfirst
    · obtain ⟨row, ok, hrow, hpublished⟩ := hbefore first hfirst
      rw [hl'.routingKey_of_lookup hrow] at hpublished
      cases ok with
      | true => exact absurd (History.mem_of_mem_actions hpublished) hunpublished
      | false => exact .failed hpublished
    · rcases List.mem_cons.mp hfirst with rfl | hfirst
      · obtain ⟨l₁, -, hmem₁, hnot⟩ := hahead.precedes
        exact absurd hmem₁ hnot
      · exact .younger (hinserted hrow₁) (hinserted hrow₂) (hbatch.createdAt_le hrow₂ hrow₁ hfirst)
  · by_cases hpending : row₁.status = .pending
    · by_cases hskipped : first ∈ skipped
      · exact .skipped hfetched hmem hskipped
      · exact .younger (hinserted hrow₁) (hinserted hrow₂)
          (hbatch.createdAt_le_of_not_mem hrow₂ hrow₁ hmem hfirst hskipped
            (by simp [OutboxEvent.pending, hpending]))
    · -- what is ahead would have been published before the batch was fetched
      have hkept := hl'.published_kept hsuffix'' hrow₁ hpending
      have hstatus : row₁.status = .published := by
        have hlive := hahead.live
        rw [hkept] at hlive
        cases hstatus : row₁.status with
        | pending => exact absurd hstatus hpending
        | failed => simp [hstatus] at hlive
        | published => rfl
      obtain ⟨⟨j, hj⟩, -⟩ := ((hl'.accounted first).2 row₁ hkept).published hstatus
      rw [hl'.routingKey_of_lookup hkept, l'.keyed_database.outbox first row₁ hkept] at hj
      exact absurd hj hunpublished

/-- In every reachable state: an event has been published while an earlier event of its ticket
was ahead of it only where the publish of the earlier one had failed in the same batch, another
transaction had locked it, or its own transaction had begun no earlier. -/
theorem publish_order {s : System} (h : s.Reachable) {l : History} {e : Entry}
    (hsuffix : (e :: l) <:+ s.world.log) (hpublishes : e.publishes second)
    (hahead : l.Ahead first second) : Overtakes l e.thread first second :=
  h.conforms.overtakes hsuffix hpublishes hahead

end General

/-- Event 3 has failed in the batch that publishes event 12. -/
theorem publish_order_failed : ∃ (s : System) (e : Entry) (l : History), s.Reachable ∧
    s.world.log = e :: l ∧ e.publishes 12 ∧ l.Ahead 3 12 ∧ Overtakes l e.thread 3 12 := by
  obtain ⟨s, e, l, hs, hlog, hpublishes, hahead, -⟩ := exists_overtaking
    (stuckRun ++ [.start (.sendBatch 10)] ++ runs 2 [.rows [3, 12], .raises "down", .succeed])
    3 12 (fun _ _ => true) (by decide +kernel)
  exact ⟨s, e, l, hs, hlog, hpublishes, hahead,
    publish_order hs (hlog ▸ List.suffix_refl _) hpublishes hahead⟩

/-- The publish of event 3 has just failed. -/
def Entry.failed3 : Entry → Bool
  | .published _ key id _ ok => key = topology.providerOutRoutingKey ∧ id = 3 ∧ ok = false
  | _ => false

/-- A producer has just fetched event 12 and skipped event 3. -/
def Entry.skipped3 : Entry → Bool
  | .fetched _ _ ids skipped => ids = [12] ∧ skipped = [3]
  | _ => false

/-- In one batch event 3 fails and event 12 does not; one producer holds event 3 while another
one publishes event 12; and event 12 is the older one for having waited for event 22. -/
theorem publish_order_overtaken :
    (∃ (s : System) (e : Entry) (l : History), s.Reachable ∧ s.world.log = e :: l ∧
      e.publishes 12 ∧ l.Ahead 3 12 ∧
      ∃ i body l', l = .published i topology.providerOutRoutingKey 3 body false :: l') ∧
    (∃ (s : System) (e : Entry) (l : History), s.Reachable ∧ s.world.log = e :: l ∧
      e.publishes 12 ∧ l.Ahead 3 12 ∧ ∃ i limit l', l = .fetched i limit [12] [3] :: l') ∧
    ∃ (s : System) (e : Entry) (l : History), s.Reachable ∧ s.world.log = e :: l ∧
      e.publishes 12 ∧ l.Ahead 22 12 ∧ l.insertedAt 22 = some 6 ∧ l.insertedAt 12 = some 5 := by
  refine ⟨?_, ?_, ?_⟩
  · obtain ⟨s, e, l, hs, hlog, hpublishes, hahead, hfailed⟩ := exists_overtaking
      (stuckRun ++ [.start (.sendBatch 10)] ++ runs 2 [.rows [3, 12], .raises "down", .succeed])
      3 12 (fun _ l => l.head?.any Entry.failed3) (by decide +kernel)
    refine ⟨s, e, l, hs, hlog, hpublishes, hahead, ?_⟩
    obtain ⟨entry, hhead, hentry⟩ := (Option.any_eq_true _ _).mp hfailed
    obtain ⟨l', rfl⟩ := List.head?_eq_some_iff.mp hhead
    unfold Entry.failed3 at hentry
    split at hentry
    · obtain ⟨rfl, rfl, rfl⟩ := of_decide_eq_true hentry
      exact ⟨_, _, _, rfl⟩
    · cases hentry
  · obtain ⟨s, e, l, hs, hlog, hpublishes, hahead, hskipped⟩ := exists_overtaking
      (stuckRun ++ [.start (.sendBatch 1)] ++ runs 2 [.rows [3]] ++
        [.start (.sendBatch 10)] ++ runs 3 [.rows [12], .succeed])
      3 12 (fun _ l => l.head?.any Entry.skipped3) (by decide +kernel)
    refine ⟨s, e, l, hs, hlog, hpublishes, hahead, ?_⟩
    obtain ⟨entry, hhead, hentry⟩ := (Option.any_eq_true _ _).mp hskipped
    obtain ⟨l', rfl⟩ := List.head?_eq_some_iff.mp hhead
    unfold Entry.skipped3 at hentry
    split at hentry
    · obtain ⟨rfl, rfl⟩ := of_decide_eq_true hentry
      exact ⟨_, _, _, rfl⟩
    · cases hentry
  · obtain ⟨s, e, l, hs, hlog, hpublishes, hahead, hinserted⟩ := exists_overtaking
      (waitedRun ++ [.start (.sendBatch 1)] ++ runs 6 [.rows [12], .succeed])
      22 12 (fun _ l => l.insertedAt 22 = some 6 ∧ l.insertedAt 12 = some 5) (by decide +kernel)
    exact ⟨s, e, l, hs, hlog, hpublishes, hahead, of_decide_eq_true hinserted⟩

end RiskProvider

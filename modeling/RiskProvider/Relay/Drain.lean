import RiskProvider.Executions
import RiskProvider.Relay.Events
import RiskProvider.Sequential.Rules

/-!
# Draining the outbox

The loop of the outbox producer, while nobody else acts. A pass that returns has taken the oldest
pending events, published each of them or counted a failure, and stored the outcome; a pass that
raises has stored nothing. So the passes that return come to an end of the pending events
(`drained`): every event that is left has been published, or given up after three attempts.

* `Database.remaining`: how many batches can still take an event.
* `Passes`: `OutboxProducerWorker._loop`.
-/

namespace RiskProvider

open Interleaving

/-! ### What is left to do -/

namespace OutboxEvent

/-- How many batches can still take the event. -/
def remaining (row : OutboxEvent) : ℕ := if row.pending then 1 + (2 - row.attempts) else 0

variable {row : OutboxEvent}

theorem remaining_pos (h : row.pending = true) : 0 < row.remaining := by
  rw [remaining, if_pos h]
  omega

/-- A failure is counted, and the third one is the last. -/
theorem remaining_markFailed_lt (h : row.pending = true) (error : String) (now : Time) :
    (row.markFailed error now).remaining < row.remaining := by
  rw [remaining, remaining, if_pos h]
  by_cases hlast : 3 ≤ row.attempts + 1
  · have hgone : (row.markFailed error now).pending = false := by
      simp [pending, markFailed, hlast]
    rw [hgone, if_neg (by simp)]
    omega
  · have hkept : (row.markFailed error now).pending = true := by
      simpa [pending, markFailed, hlast] using h
    have hattempts : (row.markFailed error now).attempts = row.attempts + 1 := rfl
    rw [hkept, if_pos rfl, hattempts]
    omega

end OutboxEvent

namespace Database

/-- How many batches can still take an event, over all events. -/
def remaining (db : Database) : ℕ :=
  ∑ id ∈ db.outbox.keys.toFinset, (db.outbox.lookup id).elim 0 OutboxEvent.remaining

variable {db db' : Database} {ids : List UUID}

/-- When every event of a batch has been taken and no other one has changed, that much less is
left. -/
theorem remaining_of_batch (hids : ids.Nodup) (hmem : ∀ id ∈ ids, id ∈ db.outbox)
    (hkeys : ∀ id, id ∈ db'.outbox ↔ id ∈ db.outbox)
    (htaken : ∀ id ∈ ids, (db'.outbox.lookup id).elim 0 OutboxEvent.remaining <
      (db.outbox.lookup id).elim 0 OutboxEvent.remaining)
    (hothers : ∀ id, id ∉ ids → db'.outbox.lookup id = db.outbox.lookup id) :
    db'.remaining + ids.length ≤ db.remaining := by
  have hsame : db'.outbox.keys.toFinset = db.outbox.keys.toFinset := by
    ext id
    simpa [AList.mem_keys] using hkeys id
  have hsubset : ids.toFinset ⊆ db.outbox.keys.toFinset := by
    intro id hid
    simpa [AList.mem_keys] using hmem id (List.mem_toFinset.mp hid)
  -- one is taken for each event of the batch
  have hlength : ids.length = ∑ id ∈ db.outbox.keys.toFinset, if id ∈ ids then 1 else 0 := by
    rw [Finset.sum_boole, ← List.toFinset_card_of_nodup hids]
    refine congrArg Finset.card ?_
    ext id
    simpa using fun hid => List.mem_toFinset.mp (hsubset (List.mem_toFinset.mpr hid))
  rw [remaining, remaining, hsame, hlength, ← Finset.sum_add_distrib]
  refine Finset.sum_le_sum fun id _ => ?_
  by_cases hid : id ∈ ids
  · have hlt := htaken id hid
    simp only [hid, ↓reduceIte]
    omega
  · simp [hid, hothers id hid]

/-- Nothing is left when no event is pending, and conversely. -/
theorem not_pending_of_remaining (h : db.remaining = 0) :
    ∀ row ∈ db.outbox.rows, row.status ≠ .pending := by
  intro row hrow hpending
  obtain ⟨id, hlookup⟩ := Table.mem_rows.mp hrow
  have hmem : id ∈ db.outbox.keys.toFinset := by
    simpa [AList.mem_keys] using AList.lookup_isSome.mp (Option.isSome_iff_exists.mpr ⟨row, hlookup⟩)
  have hzero := Finset.sum_eq_zero_iff.mp h id hmem
  have hpos : 0 < row.remaining := OutboxEvent.remaining_pos (decide_eq_true hpending)
  rw [hlookup] at hzero
  exact absurd hzero (Nat.pos_iff_ne_zero.mp hpos)

end Database

/-! ### A batch -/

/-- What the publish loop does and returns on given events. -/
inductive Publishes (i : ℕ) : List OutboxEvent → History → List UUID → List (UUID × String) → Prop
  | nil : Publishes i [] [] [] []
  | published {row rows acts published failed} (h : Publishes i rows acts published failed) :
      Publishes i (row :: rows) (acts ++ [.published i row.routingKey row.id row.payload true])
        (row.id :: published) failed
  | failed {row rows acts published failed} (text : String)
      (h : Publishes i rows acts published failed) :
      Publishes i (row :: rows) (acts ++ [.published i row.routingKey row.id row.payload false])
        published ((row.id, text) :: failed)

namespace Publishes

variable {i : ℕ} {rows : List OutboxEvent} {acts : History} {published : List UUID}
  {failed : List (UUID × String)}

theorem publishedIds_eq (h : Publishes i rows acts published failed) :
    publishedIds acts.reverse = published := by
  induction h with
  | nil => rfl
  | published _ ih | failed _ _ ih => simpa [publishedIds] using ih

theorem failedIds_eq (h : Publishes i rows acts published failed) :
    failed.map Prod.fst = failedIds acts.reverse := by
  induction h with
  | nil => rfl
  | published _ ih | failed _ _ ih => simpa [failedIds] using ih

theorem filterMap_published (h : Publishes i rows acts published failed) :
    acts.reverse.filterMap Entry.published? = rows.map (·.id) := by
  induction h with
  | nil => rfl
  | published _ ih | failed _ _ ih => simpa [Entry.published?] using ih

/-- Distinct events are published once each. -/
theorem publishesOnce (h : Publishes i rows acts published failed)
    (hnodup : (rows.map (·.id)).Nodup) : PublishesOnce acts := by
  rw [← h.filterMap_published, List.Nodup, List.pairwise_filterMap] at hnodup
  refine (List.pairwise_reverse.mp hnodup).imp fun {e e'} hne id hid hid' => ?_
  exact hne id hid' id hid rfl

/-- Every event is published or has failed. -/
theorem mem_or_mem (h : Publishes i rows acts published failed) {id : UUID}
    (hid : id ∈ rows.map (·.id)) : id ∈ publishedIds acts ∨ id ∈ failedIds acts := by
  rw [← h.filterMap_published] at hid
  obtain ⟨e, he, hpublished⟩ := List.mem_filterMap.mp hid
  rw [List.mem_reverse] at he
  unfold Entry.published? at hpublished
  split at hpublished
  next j key messageId body ok =>
    cases hpublished
    cases ok
    · exact .inr (mem_failedIds.mpr ⟨_, _, _, he⟩)
    · exact .inl (mem_publishedIds.mpr ⟨_, _, _, he⟩)
  · cases hpublished

/-- A batch of pending events that is stored leaves that much less to do. -/
theorem remaining_le {db : Database} {publishedAt began : Time}
    (h : Publishes i rows acts published failed) (hnodup : (rows.map (·.id)).Nodup)
    (hrows : ∀ row ∈ rows, db.outbox.lookup row.id = some row ∧ row.pending = true) :
    (db.writeAll (relayWrites published failed publishedAt began)).remaining + rows.length ≤
      db.remaining := by
  have hlookup := @lookup_relayWrites db acts failed publishedAt began (h.publishesOnce hnodup)
    h.failedIds_eq
  rw [h.publishedIds_eq] at hlookup
  have htaken : ∀ id, id ∈ publishedIds acts ∨ id ∈ failedIds acts → id ∈ rows.map (·.id) := by
    intro id hid
    rw [← h.filterMap_published]
    refine List.mem_filterMap.mpr ?_
    rcases hid with hid | hid
    · obtain ⟨j, key, body, he⟩ := mem_publishedIds.mp hid
      exact ⟨_, List.mem_reverse.mpr he, rfl⟩
    · obtain ⟨j, key, body, he⟩ := mem_failedIds.mp hid
      exact ⟨_, List.mem_reverse.mpr he, rfl⟩
  rw [← List.length_map (·.id)]
  refine Database.remaining_of_batch hnodup ?_ ?_ ?_ ?_
  · intro id hid
    obtain ⟨row, hrow, rfl⟩ := List.mem_map.mp hid
    exact AList.lookup_isSome.mp (Option.isSome_iff_exists.mpr ⟨row, (hrows row hrow).1⟩)
  · intro id
    rw [← AList.lookup_isSome, ← AList.lookup_isSome]
    rcases hlookup id with ⟨-, -, heq⟩ | ⟨-, error, heq⟩ | ⟨-, -, heq⟩ <;> rw [heq] <;> simp
  · intro id hid
    obtain ⟨row, hrow, rfl⟩ := List.mem_map.mp hid
    obtain ⟨hrow', hpending⟩ := hrows row hrow
    rcases hlookup row.id with ⟨-, -, heq⟩ | ⟨-, error, heq⟩ | ⟨hnot, hnot', -⟩
    · rw [heq, hrow']
      exact OutboxEvent.remaining_pos hpending
    · rw [heq, hrow']
      exact OutboxEvent.remaining_markFailed_lt hpending error began
    · exact absurd (h.mem_or_mem hid) (not_or.mpr ⟨hnot, hnot'⟩)
  · intro id hid
    rcases hlookup id with ⟨hmem, -, -⟩ | ⟨hmem, -⟩ | ⟨-, -, heq⟩
    · exact absurd (htaken id (.inl hmem)) hid
    · exact absurd (htaken id (.inr hmem)) hid
    · exact heq

end Publishes

/-! ### Running alone -/

namespace World

/-- No other transaction holds an event. -/
def EventsFree (i : ℕ) (w : World) : Prop := ∀ id, Available w.eventLock i id

variable {w w' : World} {i : ℕ}

theorem EventsFree.act (h : w.EventsFree i) (hact : Act i w w') : w'.EventsFree i := by
  intro id
  cases hact with
  | record | session => exact h id
  | lock tickets events inbox keys =>
      change Available (acquire w.eventLock i events) i id
      unfold Available acquire
      split
      · exact .inr rfl
      · exact h id
  | commit | rollback =>
      change Available (release w.eventLock i) i id
      unfold Available release
      split
      · exact .inl rfl
      next hne => exact (h id).imp_right fun hi => absurd hi hne

theorem EventsFree.acts (h : w.EventsFree i) (hacts : Acts i w w') : w'.EventsFree i := by
  induction hacts with
  | refl => exact h
  | tail _ hact ih => exact ih.act hact

end World

section General

variable [Codecs]

namespace Alone

variable {faults : Faults} {i : ℕ} {v : Solo} {F : Exn → Solo → Prop} {ws : List Write}
  {began : Time}

/-- `broker.publish` -/
theorem publish {key : String} {messageId : UUID} {body : Dict} {Q : Unit → Solo → Prop}
    (hok : Q () (v.act (.published i key messageId body true)))
    (herror : ∀ text, F (.publishError text) (v.act (.published i key messageId body false))) :
    Alone faults i (RiskProvider.perform (.publish key messageId body)) Q F v := by
  refine perform fun w f c r w' _ hv hexec => ?_
  have hsolo (ok : Bool) : (w.record (.published i key messageId body ok)).solo i f =
      v.act (.published i key messageId body ok) := by
    rw [World.solo_record_act (i := i) rfl rfl (by simp), hv]
  simp only [Effect.exec, World.call] at hexec
  split at hexec
  · cases hexec
    exact ⟨(hsolo true).symm ▸ hok, by simp [Effect.raises]⟩
  next text =>
    cases hexec
    -- an exception of the broker is no fault
    have hexn : faults.includes (.publishError text) = false :=
      Bool.eq_false_iff.mpr fun h => by cases faults.isDatabase _ h
    refine ⟨?_, by simp [Effect.raises, hexn]⟩
    simpa [Answered, Solo.after, hexn, hsolo] using herror text
  · cases hexec

/-- The publish loop. -/
theorem publishAll {rows : List OutboxEvent} {Q : List UUID × List (UUID × String) → Solo → Prop}
    (hok : ∀ acts published failed, Publishes i rows acts published failed →
      Q (published, failed) { v with actions := acts ++ v.actions }) :
    Alone faults i (OutboxService.publishAll rows) Q F v := by
  induction rows generalizing v Q with
  | nil => exact pure (hok [] [] [] .nil)
  | cons row rows ih =>
      -- what the rest returns is completed by this event
      refine bind (attempt (publish ?_ fun text => ?_))
      · refine bind (ih fun acts published failed h => pure ?_)
        have hall := hok _ _ _ (.published h)
        simpa [Solo.act] using hall
      · refine bind (ih fun acts published failed h => pure ?_)
        have hall := hok _ _ _ (.failed text h)
        simpa [Solo.act] using hall

omit [Codecs] in
/-- The statement of an update of events, by a session that has changed no ticket. -/
theorem answered_updateEvents {Q : Unit → Solo → Prop} (wr : Time → Write) {now : Time} {w w' : World}
    {f : Option World} {r : Except Exn Unit} (hclean : v.session.Clean ws)
    (hbegun : v.session.begun = some began)
    (herror : ∀ x v', v.Faulted faults (¬(wr began).storable = true) x v' → F x v')
    (hok : ∀ s : Session, s.Clean (ws ++ [wr began]) → s.begun = some began → Q () (v.setSession s))
    (hv : w.solo i f = v.setSession (v.session.beginTx now))
    (hact : w.updateEvents i (wr (w.session i).startedAt) = some (r, w')) :
    Answered faults Q F r (w'.solo i f) ∧ w'.log = w.log := by
  rw [Session.beginTx_of_begun hbegun] at hv
  have hsession : w.session i = v.session := World.session_of_solo hv
  have hstarted : (w.session i).startedAt = began := by simp [Session.startedAt, hsession, hbegun]
  unfold World.updateEvents at hact
  rw [hstarted] at hact
  split at hact
  · split at hact
    next hrejected =>
      cases hact
      refine ⟨?_, rfl⟩
      rw [Answered, World.fail, World.solo_setSession, hv]
      exact herror _ _ (Solo.faulted_setSession _ hclean.failed rfl rfl (by simp) fun _ => hrejected)
    · cases hact
      refine ⟨?_, rfl⟩
      let s : Session := { w.session i with writes := (w.session i).writes ++ [wr began] }
      change Q () ((w.setSession i s).solo i f)
      rw [World.solo_setSession, hv]
      refine hok s ?_ ?_
      · simp only [s, hsession]
        exact ⟨hclean.failed, hclean.dirty, hclean.added, by rw [hclean.writes]⟩
      · simp only [s, hsession]
        exact hbegun
  · cases hact

/-- `mark_published_many` -/
theorem markPublishedMany {ids : List UUID} {Q : Unit → Solo → Prop}
    (hclean : v.session.Clean ws) (hbegun : v.session.begun = some began)
    (herror : ∀ x v', v.Faulted faults False x v' → F x v')
    (hok : ∀ (s : Session) publishedAt,
      s.Clean (ws ++ if ids.isEmpty then [] else [.markPublished ids publishedAt began]) →
      s.begun = some began → Q () (v.setSession s)) :
    Alone faults i (OutboxRepository.markPublishedMany ids) Q F v := by
  unfold OutboxRepository.markPublishedMany
  split
  next hempty => exact pure (hok v.session 0 (by simpa [hempty] using hclean) hbegun)
  next hne =>
    refine bind (utcNow fun publishedAt => ?_)
    refine statement (fun _ w => w.updateEvents i
      (.markPublished ids publishedAt (w.session i).startedAt)) (fun _ _ _ _ => rfl) herror
      fun now w f c r w' _ _ hv hact => ?_
    obtain ⟨hpost, hlog⟩ := answered_updateEvents (Q := Q)
      (fun began => .markPublished ids publishedAt began) hclean hbegun
      (fun x v' hx => herror x v' (hx.mono fun h => h rfl))
      (fun s hs => hok s publishedAt (by simpa [hne] using hs)) hv hact
    exact ⟨hpost, fun _ => by rw [hlog]⟩

/-- The loop over `mark_failed`. -/
theorem markAllFailed {failed : List (UUID × String)} {Q : Unit → Solo → Prop}
    (hclean : v.session.Clean ws) (hbegun : v.session.begun = some began)
    (herror : ∀ s D x v', (v.setSession s).Faulted faults D x v' → F x v')
    (hok : ∀ s : Session, s.Clean (ws ++ failed.map fun f => .markFailed f.1 f.2 began) →
      s.begun = some began → Q () (v.setSession s)) :
    Alone faults i (OutboxService.markAllFailed failed) Q F v := by
  induction failed generalizing v ws with
  | nil => exact pure (hok v.session (by simpa using hclean) hbegun)
  | cons f failed ih =>
      have hnext : ∀ s : Session, s.Clean (ws ++ [.markFailed f.1 f.2 began]) →
          s.begun = some began →
          Alone faults i (OutboxService.markAllFailed failed) Q F (v.setSession s) :=
        fun s hs hsbegun => ih (v := v.setSession s) hs hsbegun herror fun s' hs' =>
          hok s' (by simpa using hs')
      refine bind (statement (fun _ w => w.updateEvents i
        (.markFailed f.1 f.2 (w.session i).startedAt)) (fun _ _ _ _ => rfl)
        (fun x v' hx => herror v.session _ x v' hx) fun now w f' c r w' _ _ hv hact => ?_)
      obtain ⟨hpost, hlog⟩ := answered_updateEvents
        (Q := fun _ v => Alone faults i (OutboxService.markAllFailed failed) Q F v)
        (fun began => .markFailed f.1 f.2 began) hclean hbegun
        (fun x v' hx => herror v.session _ x v' hx) hnext hv hact
      exact ⟨hpost, fun _ => by rw [hlog]⟩

/-- `session.commit()` without changes of tickets. -/
theorem commit_clean {Q : Unit → Solo → Prop} (hclean : v.session.Clean ws)
    (herror : ∀ D x v', v.Faulted faults D x v' → F x v')
    (hok : ∀ v' : Solo, v'.db = v.db.writeAll ws → Q () v') :
    Alone faults i AsyncSession.commit Q F v := by
  refine bind (flush (herror _) (fun _ _ => ?_) fun _ hpending _ => ?_)
  · exact commitTx (herror _) fun _ now => hok _ (by simp [Solo.committed, hclean.writes])
  · exact absurd ⟨hclean.dirty, hclean.added⟩ hpending

end Alone

/-! ### A pass -/

namespace OutboxService

/-- `send_batch`, on the events that `fetch_pending` returns. -/
def sendFetched (fetch : Py (List OutboxEvent)) : Py ℕ :=
  AsyncSession.scope do
    let pending ← fetch
    if pending.isEmpty then return 0
    else
      let (published, failed) ← publishAll pending
      OutboxRepository.markPublishedMany published
      markAllFailed failed
      AsyncSession.commit
      return published.length

omit [Codecs] in
theorem run_sendBatch (batchSize : ℕ) : (sendBatch batchSize).run =
    .perform (.selectPending batchSize) fun r => (sendFetched (ExceptT.mk (.done r))).run := rfl

end OutboxService

/-- `send_batch`, once it has fetched its events. -/
theorem Alone.sendFetched {i : ℕ} {v : Solo} {rows : List OutboxEvent} {began : Time}
    (hclean : v.session.Clean []) (hbegun : v.session.begun = some began) :
    Alone .database i (OutboxService.sendFetched (ExceptT.mk (.done (.ok rows))))
      (fun _ v' => v'.session = {} ∧
        (rows = [] ∧ v'.db = v.db ∨ ∃ acts published failed publishedAt,
          Publishes i rows acts published failed ∧
          v'.db = v.db.writeAll (relayWrites published failed publishedAt began)))
      (fun _ v' => v'.session = {} ∧ v'.db = v.db) v := by
  unfold OutboxService.sendFetched
  refine scope (bind (pure ?_))
  split
  next hempty => exact pure ⟨rfl, .inl ⟨List.isEmpty_iff.mp hempty, rfl⟩⟩
  next hne =>
    refine bind (publishAll fun acts published failed hpublishes => ?_)
    dsimp only
    refine bind (markPublishedMany hclean hbegun (fun x v' hx => ⟨rfl, hx.db⟩)
      fun s publishedAt hs hsbegun => ?_)
    refine bind (markAllFailed hs hsbegun (fun s D x v' hx => ⟨rfl, hx.db⟩) fun s hs _ => ?_)
    refine bind (commit_clean hs (fun D x v' hx => ⟨rfl, hx.db⟩) fun v' hdb => ?_)
    exact pure ⟨rfl, .inr ⟨acts, published, failed, publishedAt, hpublishes, hdb⟩⟩

/-- `send_batch`, when its select has raised. -/
theorem Alone.sendFetched_error {i : ℕ} {v : Solo} {x : Exn} :
    Alone .database i (OutboxService.sendFetched (ExceptT.mk (.done (.error x)))) (fun _ _ => False)
      (fun _ v' => v'.session = {} ∧ v'.db = v.db) v := by
  unfold OutboxService.sendFetched
  exact scope (bind (throw ⟨rfl, rfl⟩))

namespace Database

/-- The pending events. -/
def pending (db : Database) : List UUID :=
  (db.outbox.entries.filter fun e => e.2.pending).map (·.1)

variable {db : Database} {ids : List UUID} {limit : ℕ} {free : UUID → Prop}

omit [Codecs] in
/-- A batch takes as many pending events as it can. -/
theorem min_length_le (h : IsBatch db.outbox free (·.pending) (·.createdAt) limit ids)
    (hfree : ∀ id, free id) : min limit db.pending.length ≤ ids.length := by
  obtain ⟨-, -, -, -, hlimit⟩ := h
  by_cases hfull : ids.length = limit
  · rw [hfull]
    exact min_le_left _ _
  · -- a batch that is not full has every pending event
    refine le_trans (min_le_right _ _) ?_
    have hnodup : db.pending.Nodup := db.outbox.nodupKeys.sublist List.filter_sublist
    refine (List.subperm_of_subset hnodup fun id hid => ?_).length_le
    obtain ⟨e, he, rfl⟩ := List.mem_map.mp hid
    obtain ⟨hentry, hpending⟩ := List.mem_filter.mp he
    by_contra hmissing
    exact hfull (hlimit e hentry (hfree _) hpending hmissing).1

omit [Codecs] in
/-- The rows of a batch. -/
theorem rows_of_batch (h : IsBatch db.outbox free (·.pending) (·.createdAt) limit ids)
    (hkeyed : db.outbox.Keyed OutboxEvent.id) :
    (ids.filterMap db.outbox.lookup).map (·.id) = ids ∧
      ∀ row ∈ ids.filterMap db.outbox.lookup,
        db.outbox.lookup row.id = some row ∧ row.pending = true := by
  have hsome : ∀ id ∈ ids, ∃ row, db.outbox.lookup id = some row ∧ row.pending = true :=
    fun id hid => by simpa [Option.any_eq_true] using (h.2.2.1 id hid).2
  refine ⟨hkeyed.map_filterMap fun id hid => ?_, fun row hrow => ?_⟩
  · obtain ⟨row, hrow, -⟩ := hsome id hid
    simp [hrow]
  · obtain ⟨id, hid, hlookup⟩ := List.mem_filterMap.mp hrow
    obtain ⟨row', hrow', hpending⟩ := hsome id hid
    obtain rfl : row = row' := Option.some.inj (hlookup.symm.trans hrow')
    exact ⟨(hkeyed id row hlookup).symm ▸ hlookup, hpending⟩

end Database

/-- Thread `i` is about to make a pass, and no other transaction holds an event. -/
structure World.Relays (i : ℕ) (w : World) : Prop where
  isolated : w.Isolated
  fresh : w.session i = {}
  free : w.EventsFree i

variable {i batchSize : ℕ} {w w' : World} {cs : List Choice}

theorem World.acts_of_complete {α : Type} {p : Program Effect Effect.Result α} {a : α}
    (hinv : w.Isolated) (h : machine.complete i p cs w = some (a, w')) : Acts i w w' := by
  induction p generalizing cs w with
  | done a =>
      obtain ⟨-, -, rfl⟩ := Machine.complete_done h
      exact .refl
  | perform e next ih =>
      obtain ⟨c, cs', r, w₁, rfl, hexec, hrest⟩ := Machine.complete_perform h
      have hacts := World.exec_acts hinv hexec
      exact hacts.trans (ih r (hacts.isolated hinv) hrest)

omit [Codecs] in
/-- What the select of a pass does: it fails, or it returns a batch. -/
theorem World.fetched_of_exec {c : Choice} {r : (Effect.selectPending batchSize).Result}
    (hfresh : w.session i = {})
    (h : (Effect.selectPending batchSize).exec i c w = some (r, w')) :
    w'.db = w.db ∧ ((∃ x, r = .error x) ∨ ∃ ids began,
      IsBatch w.db.outbox (Available w.eventLock i) (·.pending) (·.createdAt) batchSize ids ∧
      r = .ok (ids.filterMap w.db.outbox.lookup) ∧
      (w'.session i).Clean [] ∧ (w'.session i).begun = some began) := by
  simp only [Effect.exec] at h
  unfold World.statement at h
  split at h
  next hfailed =>
    rw [hfresh] at hfailed
    cases hfailed
  split at h
  · cases h
    exact ⟨rfl, .inl ⟨_, rfl⟩⟩
  obtain ⟨ids, -, hselect⟩ := Option.bind_eq_some_iff.mp h
  unfold World.selectPending at hselect
  split at hselect
  next hbatch =>
    cases hselect
    refine ⟨rfl, .inr ⟨ids, w.issuedAt i c, hbatch, rfl, ?_⟩⟩
    change ((w.beginTx i c).session i).Clean [] ∧ ((w.beginTx i c).session i).begun = _
    have hsession : (w.beginTx i c).session i = Session.beginTx {} (w.issuedAt i c) := by
      rw [← hfresh]
      exact Function.update_self ..
    rw [hsession]
    exact ⟨Session.clean_empty.beginTx _, rfl⟩
  · cases hselect

/-- What a pass leaves to do. -/
def Passed (batchSize : ℕ) (db db' : Database) : Except Exn ℕ → Prop
  | .ok _ => db'.remaining + min batchSize db.pending.length ≤ db.remaining
  | .error _ => db' = db

/-- A pass that returns has dealt with as many events as it can, and one that raises with none. -/
theorem World.Relays.passed {r : Except Exn ℕ} (h : w.Relays i)
    (hrun : machine.complete i (OutboxService.sendBatch batchSize).run cs w = some (r, w')) :
    w'.Relays i ∧ Passed batchSize w.db w'.db r := by
  have hacts := World.acts_of_complete h.isolated hrun
  have hrelays : w'.session i = {} → w'.Relays i := fun hfresh =>
    ⟨hacts.isolated h.isolated, hfresh, h.free.acts hacts⟩
  rw [OutboxService.run_sendBatch] at hrun
  obtain ⟨c, cs', fetched, w₁, rfl, hexec, hrest⟩ := Machine.complete_perform hrun
  replace hexec : (Effect.selectPending batchSize).exec i c w = some (fetched, w₁) := hexec
  have hinv₁ := (World.exec_acts h.isolated hexec).isolated h.isolated
  obtain ⟨hdb, ⟨x, rfl⟩ | ⟨ids, began, hbatch, rfl, hclean, hbegun⟩⟩ :=
    World.fetched_of_exec h.fresh hexec
  · -- the select has failed
    have halone := Alone.sendFetched_error (i := i) (x := x) (v := w₁.solo i none) w₁ none hinv₁ rfl
      cs' r w' hrest
    cases r with
    | ok k => exact halone.2.elim
    | error x' => exact ⟨hrelays halone.2.1, halone.2.2.trans hdb⟩
  · -- the batch has been published, and its outcome is committed or nothing is
    have halone := Alone.sendFetched (v := w₁.solo i none) hclean hbegun w₁ none hinv₁ rfl cs' r w' hrest
    cases r with
    | error x => exact ⟨hrelays halone.2.1, halone.2.2.trans hdb⟩
    | ok k =>
        obtain ⟨-, hfresh, houtcome⟩ := halone
        refine ⟨hrelays hfresh, ?_⟩
        have hmin := Database.min_length_le hbatch h.free
        obtain ⟨hids, hrows⟩ := Database.rows_of_batch hbatch
          (h.isolated.db_eq ▸ (History.keyed_database w.log).outbox)
        have hlength : (ids.filterMap w.db.outbox.lookup).length = ids.length := by
          rw [← List.length_map (·.id), hids]
        unfold Passed
        rcases houtcome with
          ⟨hempty, hsame⟩ | ⟨acts, published, failed, publishedAt, hpublishes, hstored⟩
        · rw [hempty, List.length_nil] at hlength
          have hsame' : w'.db = w.db := hsame.trans hdb
          rw [hsame']
          omega
        · have hstored' : w'.db = w.db.writeAll (relayWrites published failed publishedAt began) :=
            hstored.trans (congrArg
              (fun db : Database => db.writeAll (relayWrites published failed publishedAt began)) hdb)
          have hle : (w.db.writeAll (relayWrites published failed publishedAt began)).remaining +
              (ids.filterMap w.db.outbox.lookup).length ≤ w.db.remaining :=
            hpublishes.remaining_le (by rw [hids]; exact hbatch.1) hrows
          rw [hstored']
          omega

/-! ### The loop -/

/-- Passes of `OutboxProducerWorker._loop`, of which `k` return: an exception is logged, and after
each pass the loop sleeps. -/
inductive Passes (i batchSize : ℕ) (w : World) : ℕ → World → Prop
  | start : Passes i batchSize w 0 w
  | returned {k w₁ w₂ cs sent} (h : Passes i batchSize w k w₁)
      (hrun : machine.complete i (OutboxService.sendBatch batchSize).run cs w₁ =
        some (.ok sent, w₂)) : Passes i batchSize w (k + 1) w₂
  | raised {k w₁ w₂ cs x} (h : Passes i batchSize w k w₁)
      (hrun : machine.complete i (OutboxService.sendBatch batchSize).run cs w₁ =
        some (.error x, w₂)) : Passes i batchSize w k w₂
  | sleep {k w₁} (h : Passes i batchSize w k w₁) (elapsed : ℕ) :
      Passes i batchSize w k { w₁ with now := w₁.now + elapsed }

omit [Codecs] in
theorem Database.pending_eq_nil {db : Database} (h : db.pending = []) : db.remaining = 0 := by
  refine Finset.sum_eq_zero fun id _ => ?_
  cases hrow : db.outbox.lookup id with
  | none => rfl
  | some row =>
      change row.remaining = 0
      rw [OutboxEvent.remaining, if_neg]
      intro hpending
      have hmem : id ∈ db.pending :=
        List.mem_map.mpr ⟨⟨id, row⟩, List.mem_filter.mpr ⟨AList.mem_lookup_iff.mp hrow, hpending⟩, rfl⟩
      rw [h] at hmem
      cases hmem

/-- Every pass that returns leaves less to do, as long as something is left. -/
theorem Passes.remaining_le {k : ℕ} (hpos : 0 < batchSize) (hrelays : w.Relays i)
    (h : Passes i batchSize w k w') : w'.Relays i ∧ w'.db.remaining ≤ w.db.remaining - k := by
  induction h with
  | start => exact ⟨hrelays, le_refl _⟩
  | @returned k w₁ w₂ cs sent _ hrun ih =>
      obtain ⟨hrelays₁, hle⟩ := ih
      obtain ⟨hrelays₂, hpassed⟩ := hrelays₁.passed hrun
      refine ⟨hrelays₂, ?_⟩
      replace hpassed : w₂.db.remaining + min batchSize w₁.db.pending.length ≤ w₁.db.remaining :=
        hpassed
      -- a pass that finds an event takes at least one
      cases hpending : w₁.db.pending with
      | nil =>
          have hzero := Database.pending_eq_nil hpending
          omega
      | cons id ids =>
          rw [hpending, List.length_cons] at hpassed
          omega
  | raised _ hrun ih =>
      obtain ⟨hrelays₁, hle⟩ := ih
      obtain ⟨hrelays₂, hsame⟩ := hrelays₁.passed hrun
      refine ⟨hrelays₂, ?_⟩
      rw [show _ = _ from hsame]
      exact hle
  | sleep _ elapsed ih =>
      obtain ⟨⟨hinv, hfresh, hfree⟩, hle⟩ := ih
      exact ⟨⟨hinv.tick elapsed, hfresh, hfree⟩, hle⟩

/-- When as many passes have returned as there is left to do, no event is pending any more, whatever
publishes failed and however many passes raised in between. -/
theorem drained {k : ℕ} (hpos : 0 < batchSize) (hrelays : w.Relays i)
    (h : Passes i batchSize w k w') (hk : w.db.remaining ≤ k) :
    ∀ row ∈ w'.db.outbox.rows, row.status ≠ .pending := by
  have hle := (h.remaining_le hpos hrelays).2
  exact Database.not_pending_of_remaining (by omega)

end General

/-- Passes that return, each under its choices. -/
theorem Passes.of_execute [Codecs] {i batchSize k : ℕ} {w w₁ w' : World} {css : List (List Choice)}
    (h : Passes i batchSize w k w₁)
    (hrun : css.foldlM (fun w cs =>
      (machine.complete i (OutboxService.sendBatch batchSize).run cs w).bind fun rw =>
        rw.1.toOption.map fun _ => rw.2) w₁ = some w') :
    Passes i batchSize w (k + css.length) w' := by
  induction css generalizing k w₁ with
  | nil => exact Option.some.inj hrun ▸ h
  | cons cs css ih =>
      obtain ⟨w₂, hfirst, hrest⟩ := Option.bind_eq_some_iff.mp hrun
      obtain ⟨⟨r, w₃⟩, hcomplete, hreturned⟩ := Option.bind_eq_some_iff.mp hfirst
      cases r with
      | error x => cases hreturned
      | ok sent =>
          cases hreturned
          have hall := ih (h.returned hcomplete) hrest
          rwa [List.length_cons, Nat.add_comm css.length, ← Nat.add_assoc]

/-- A world with the pending event 3, in which nobody is at work. -/
def pendingWorld : World :=
  World.record {} (.committed 0 [.insertEvent
    { id := 3, entityId := 1, eventType := eventTypeTicketOutbound,
      routingKey := topology.providerOutRoutingKey, payload := [] }])

theorem relays_pendingWorld : pendingWorld.Relays 1 where
  isolated := {
    writes_held := fun _ _ h => by simp [pendingWorld] at h
    coherent := fun _ => Session.coherent_empty
    db_eq := rfl
    broker_eq := rfl }
  fresh := rfl
  free _ := .inl rfl

open Script in
/-- The first publish of the event fails, the second one succeeds, and a third pass finds nothing. -/
theorem drained_retried : ∃ w', Passes 1 10 pendingWorld 3 w' ∧
    ∀ row ∈ w'.db.outbox.rows, row.status ≠ .pending := by
  obtain ⟨w', hrun⟩ := Option.isSome_iff_exists.mp (by decide +kernel : ([
    [.rows [3], .raises "down"] ++ ok 4, .rows [3] :: ok 6, .rows [] :: ok 1].foldlM (fun w cs =>
      (machine.complete 1 (OutboxService.sendBatch 10).run cs w).bind fun rw =>
        rw.1.toOption.map fun _ => rw.2) pendingWorld).isSome = true)
  have hstart : Passes 1 10 pendingWorld 0 pendingWorld := .start
  have hpasses := Passes.of_execute hstart hrun
  exact ⟨w', hpasses, drained (by decide) relays_pendingWorld hpasses (by decide +kernel)⟩

end RiskProvider

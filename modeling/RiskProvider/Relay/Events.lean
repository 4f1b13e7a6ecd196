import RiskProvider.Frames

/-!
# What becomes of an event

A transaction that relays a batch publishes each of its events at most once, marks those that it
has published and counts the failures of the others. `EventStep` lists what an entry of a history
does to a row of the outbox (`Conforms.event_step`); `Conforms.accounted` is the invariant that
follows: the attempts of an event are its publish failures that were committed.
-/

namespace RiskProvider

/-! ### Publishes of a batch -/

namespace Entry

/-- The event or frame that an entry publishes. -/
def published? : Entry → Option UUID
  | published _ _ id _ _ => some id
  | _ => none

/-- Two entries do not publish the same event. -/
def Apart (e e' : Entry) : Prop := ∀ id ∈ e.published?, id ∉ e'.published?

instance : Std.Symm Apart := ⟨fun _ _ h id hid hid' => h id hid' hid⟩

end Entry

/-- No two entries publish the same event. -/
abbrev PublishesOnce (acts : History) : Prop := acts.Pairwise Entry.Apart

section Acts

variable {acts : History} {id : UUID}

theorem mem_publishedIds : id ∈ publishedIds acts ↔
    ∃ i key body, .published i key id body true ∈ acts := by
  simp only [publishedIds, List.mem_filterMap]
  constructor
  · rintro ⟨e, he, hid⟩
    split at hid <;> cases hid
    exact ⟨_, _, _, he⟩
  · rintro ⟨i, key, body, he⟩
    exact ⟨_, he, rfl⟩

theorem mem_failedIds : id ∈ failedIds acts ↔
    ∃ i key body, .published i key id body false ∈ acts := by
  simp only [failedIds, List.mem_filterMap]
  constructor
  · rintro ⟨e, he, hid⟩
    split at hid <;> cases hid
    exact ⟨_, _, _, he⟩
  · rintro ⟨i, key, body, he⟩
    exact ⟨_, he, rfl⟩

theorem PublishesOnce.nodup_published (h : PublishesOnce acts) : (publishedIds acts).Nodup := by
  refine List.Pairwise.filterMap _ (fun e e' hne id hid id' hid' heq => ?_) h
  split at hid <;> cases hid
  split at hid' <;> cases hid'
  exact hne id rfl (heq ▸ rfl)

theorem PublishesOnce.nodup_failed (h : PublishesOnce acts) : (failedIds acts).Nodup := by
  refine List.Pairwise.filterMap _ (fun e e' hne id hid id' hid' heq => ?_) h
  split at hid <;> cases hid
  split at hid' <;> cases hid'
  exact hne id rfl (heq ▸ rfl)

/-- What has been published has not failed. -/
theorem PublishesOnce.disjoint (h : PublishesOnce acts) (hid : id ∈ publishedIds acts) :
    id ∉ failedIds acts := by
  obtain ⟨i, key, body, he⟩ := mem_publishedIds.mp hid
  rintro hid'
  obtain ⟨j, key', body', he'⟩ := mem_failedIds.mp hid'
  exact List.Pairwise.forall h he he' (by simp) id rfl rfl

end Acts

/-! ### Writes of a batch -/

namespace Database

variable {db : Database} {id : UUID} {ids : List UUID} {failed : List (UUID × String)}
  {publishedAt began : Time}

private theorem lookup_foldl_markPublished {t : Table OutboxEvent} (hids : ids.Nodup)
    (h : id ∈ ids) :
    (ids.foldl (·.modify · (·.markPublished publishedAt began)) t).lookup id =
      (t.lookup id).map (·.markPublished publishedAt began) := by
  induction ids generalizing t with
  | nil => cases h
  | cons k ids ih =>
      obtain ⟨hk, hids⟩ := List.nodup_cons.mp hids
      rw [List.foldl_cons]
      rcases List.mem_cons.mp h with rfl | h
      · rw [lookup_foldl_modify hk, Table.lookup_modify_self]
      · rw [ih hids h, Table.lookup_modify_ne _ _ (ne_of_mem_of_not_mem h hk)]

theorem lookup_outbox_markFailed {error : String} (hids : (failed.map Prod.fst).Nodup)
    (h : (id, error) ∈ failed) :
    ((db.writeAll (failed.map fun f => .markFailed f.1 f.2 began)).outbox.lookup id) =
      (db.outbox.lookup id).map (·.markFailed error began) := by
  induction failed generalizing db with
  | nil => cases h
  | cons f failed ih =>
      obtain ⟨hf, hids⟩ := List.nodup_cons.mp hids
      rw [List.map_cons, writeAll_cons]
      rcases List.mem_cons.mp h with rfl | h
      · rw [lookup_outbox_writeAll]
        · simp [write]
        · intro wr hwr
          obtain ⟨f, hmem, rfl⟩ := List.mem_map.mp hwr
          exact fun hid => hf (List.mem_map.mpr ⟨f, hmem, (List.mem_singleton.mp hid).symm⟩)
      · rw [ih hids h]
        have hne : id ≠ f.1 := fun heq => hf (List.mem_map.mpr ⟨_, h, heq⟩)
        simp [write, Table.lookup_modify_ne _ _ hne]

end Database

/-- What the writes of a batch that has published each of its events once do to an event. -/
theorem lookup_relayWrites {db : Database} {acts : History} {failed : List (UUID × String)}
    {publishedAt began : Time} (honce : PublishesOnce acts)
    (hfailed : failed.map Prod.fst = failedIds acts.reverse) (id : UUID) :
    let after := db.writeAll (relayWrites (publishedIds acts.reverse) failed publishedAt began)
    (id ∈ publishedIds acts ∧ id ∉ failedIds acts ∧
      after.outbox.lookup id = (db.outbox.lookup id).map (·.markPublished publishedAt began)) ∨
    (id ∈ failedIds acts ∧ ∃ error,
      after.outbox.lookup id = (db.outbox.lookup id).map (·.markFailed error began)) ∨
    id ∉ publishedIds acts ∧ id ∉ failedIds acts ∧
      after.outbox.lookup id = db.outbox.lookup id := by
  have hpublished : publishedIds acts.reverse = (publishedIds acts).reverse := List.filterMap_reverse
  replace hfailed : failed.map Prod.fst = (failedIds acts).reverse :=
    hfailed.trans List.filterMap_reverse
  have hmem : id ∈ failedIds acts ↔ id ∈ failed.map Prod.fst := by rw [hfailed, List.mem_reverse]
  have hkept : ∀ db' : Database, id ∉ failedIds acts →
      (db'.writeAll (failed.map fun f => .markFailed f.1 f.2 began)).outbox.lookup id =
        db'.outbox.lookup id := by
    intro db' hid
    refine Database.lookup_outbox_writeAll fun wr hwr hkey => hid (hmem.mpr ?_)
    obtain ⟨f, hf, rfl⟩ := List.mem_map.mp hwr
    exact List.mem_map.mpr ⟨f, hf, (List.mem_singleton.mp hkey).symm⟩
  simp only [relayWrites, Database.writeAll_append, hpublished, List.isEmpty_reverse]
  by_cases hid : id ∈ publishedIds acts
  · have hne : (publishedIds acts).isEmpty = false := by
      rw [List.isEmpty_eq_false_iff]
      exact List.ne_nil_of_mem hid
    refine .inl ⟨hid, honce.disjoint hid, ?_⟩
    rw [hkept _ (honce.disjoint hid), if_neg (by simp [hne])]
    exact Database.lookup_foldl_markPublished (List.nodup_reverse.mpr honce.nodup_published)
      (List.mem_reverse.mpr hid)
  · refine .inr ?_
    have hsame : (db.writeAll (if (publishedIds acts).isEmpty then []
        else [.markPublished (publishedIds acts).reverse publishedAt began])).outbox.lookup id =
          db.outbox.lookup id := by
      split
      · rfl
      · exact Database.lookup_foldl_modify (by simpa using hid)
    by_cases hid' : id ∈ failedIds acts
    · obtain ⟨f, hf, rfl⟩ := List.mem_map.mp (hmem.mp hid')
      refine .inl ⟨hid', f.2, ?_⟩
      rw [Database.lookup_outbox_markFailed (hfailed ▸ List.nodup_reverse.mpr honce.nodup_failed) hf,
        hsame]
    · exact .inr ⟨hid, hid', by rw [hkept _ hid', hsame]⟩

/-! ### Batches -/

section General

variable [Codecs]

omit [Codecs] in
theorem outKey_ne_inKey : topology.providerOutRoutingKey ≠ topology.providerInRoutingKey := by
  decide

/-- A thread that relays has published each of its events once. -/
theorem Conforms.publishesOnce {C : History → Entry → Prop} {l : History} {i : ℕ} (h : Conforms C l)
    {acts : History} (hacts : l.actions i = acts) (hrelay : ∀ e ∈ acts, e.isRelay)
    (houtbox : ∀ e ∈ acts, e.isPublished → ∃ id body ok,
      e = .published i topology.providerOutRoutingKey id body ok) : PublishesOnce acts := by
  induction acts generalizing l with
  | nil => exact List.Pairwise.nil
  | cons e acts ih =>
      obtain ⟨l', hsuffix, hacts'⟩ := History.suffix_of_actions hacts
      refine List.Pairwise.cons (fun e' he' => ?_)
        (ih (h.of_suffix_history ((List.suffix_cons _ _).trans hsuffix)) hacts'
          (fun e' he' => hrelay e' (List.mem_cons_of_mem _ he'))
          fun e' he' => houtbox e' (List.mem_cons_of_mem _ he'))
      intro key hkey hkey'
      have hpublished : ∀ {e : Entry}, key ∈ e.published? → e.isPublished := fun {e} hmem => by
        cases e with
        | published => rfl
        | _ => cases hmem
      obtain ⟨id, body, ok, rfl⟩ := houtbox e List.mem_cons_self (hpublished hkey)
      obtain ⟨id', body', ok', rfl⟩ :=
        houtbox e' (List.mem_cons_of_mem _ he') (hpublished hkey')
      cases hkey
      cases hkey'
      generalize hkey : topology.providerOutRoutingKey = key at hsuffix he'
      cases (h.of_suffix hsuffix).1 with
      | publishFrame => exact absurd hkey outKey_ne_inKey
      | publishEvent _ _ _ honce => exact honce _ _ _ (hacts' ▸ he')

/-! ### Steps of an event -/

/-- The publish failures of an event that an entry commits. -/
def Entry.failures (l : History) (id : UUID) : Entry → ℕ
  | .committed i _ => (failedIds (l.actions i)).count id
  | _ => 0

/-- The publish failures of an event that have been committed. -/
def History.failures (id : UUID) : History → ℕ
  | [] => 0
  | e :: l => e.failures l id + History.failures id l

/-- What an entry does to a row of the outbox. -/
inductive EventStep (l : History) (e : Entry) (id : UUID) :
    Option OutboxEvent → Option OutboxEvent → Prop
  | same {row?} (hfailures : e.failures l id = 0) : EventStep l e id row? row?
  | inserted {row} (hstatus : row.status = .pending) (hattempts : row.attempts = 0)
      (hkey : row.routingKey = topology.providerOutRoutingKey)
      (hfailures : e.failures l id = 0) : EventStep l e id none (some row)
  | published {row i publishedAt began} (hstatus : row.status = .pending)
      (hpublished : .published i row.routingKey id row.payload true ∈ l)
      (hfailures : e.failures l id = 0) :
      EventStep l e id (some row) (some (row.markPublished publishedAt began))
  | failed {row error began} (hstatus : row.status = .pending) (hfailures : e.failures l id = 1) :
      EventStep l e id (some row) (some (row.markFailed error began))

variable {C : History → Entry → Prop} {l l' : History} {e : Entry} {i : ℕ} {id : UUID}

omit [Codecs] in
theorem failedIds_eq_nil {acts : History} (h : ∀ e ∈ acts, e.isRelay = false) :
    failedIds acts = [] := by
  refine List.filterMap_eq_nil_iff.mpr fun e he => ?_
  cases e with
  | published => cases h _ he
  | _ => rfl

omit [Codecs] in
theorem HasRecommended.not_relay [Codecs] {p : RecommendationPayload} {acts : History}
    (h : HasRecommended i p acts) : ∀ e ∈ acts, e.isRelay = false := by
  obtain ⟨n, d, m, row, now, began, -, -, rfl⟩ := h
  simp [Entry.isRelay]

/-- A transaction whose publishes count is that of a batch. -/
theorem Conforms.relay_or_failures (h : Conforms C l) {ws : List Write}
    (hpermitted : Permitted l (.committed i ws)) :
    (∀ e ∈ l.actions i, e.isRelay) ∨ ∀ id, (Entry.committed i ws).failures l id = 0 := by
  have hquiet : (∀ e ∈ l.actions i, e.isRelay = false) →
      ∀ id, (Entry.committed i ws).failures l id = 0 := fun hacts id => by
    simp [Entry.failures, failedIds_eq_nil hacts]
  cases hpermitted with
  | relay hacts => exact .inl hacts
  | create hacts | recommend hacts | cancellationApplied hacts | acknowledge hacts =>
      exact .inr (hquiet (by simp [hacts, Entry.isRelay]))
  | settle hacts hrecommended | commitNothing hacts hrecommended =>
      refine .inr (hquiet fun e he => ?_)
      rw [hacts] at he
      rcases List.mem_cons.mp he with rfl | he
      · rfl
      · exact hrecommended.not_relay e he
  | requestCancellation hlocked =>
      refine .inr (hquiet fun e he => ?_)
      obtain ⟨acts, hacts⟩ := History.actions_of_focus hlocked (by
        simp [History.actionOf, Entry.thread, Entry.isAction])
      obtain ⟨l', hsuffix, rfl⟩ := History.suffix_of_actions hacts
      rw [hacts] at he
      rcases List.mem_cons.mp he with rfl | hmem
      · rfl
      clear he
      cases (h.of_suffix hsuffix).1 with
      | cancelCall hacts' hrecommended =>
          rw [hacts'] at hmem
          rcases List.mem_cons.mp hmem with rfl | hmem
          · rfl
          · exact hrecommended.not_relay e hmem
      | recoverCall hrecovery =>
          have hkind := hrecovery e hmem
          cases e <;> first | rfl | cases hkind

omit [Codecs] in
theorem eventKeys_rewrite {row row' : Ticket} {began : Time} {wr : Write}
    (h : wr ∈ rewrite row row' began) : wr.eventKeys = [] := by
  rw [mem_rewrite h]
  rfl

omit [Codecs] in
theorem Database.lookup_insertEvent {db : Database} {before : List Write}
    (h : ∀ wr ∈ before, wr.eventKeys = []) (row : OutboxEvent) :
    (db.writeAll (before ++ [.insertEvent row])).outbox.lookup id =
      if id = row.id then some row else db.outbox.lookup id := by
  have hbefore : (db.writeAll before).outbox.lookup id = db.outbox.lookup id :=
    lookup_outbox_writeAll fun wr hwr => by simp [h wr hwr]
  rw [writeAll_append]
  split
  next hid =>
    subst hid
    simp [write]
  next hid => simpa [write, AList.lookup_insert_ne hid] using hbefore

/-- Every event goes to `provider.out`. -/
theorem Conforms.routingKey_of_lookup (h : Conforms C l) {row : OutboxEvent}
    (hrow : l.database.outbox.lookup id = some row) :
    row.routingKey = topology.providerOutRoutingKey := by
  obtain ⟨k, ws, l', row₀, hsuffix, hmem, hsame⟩ := History.inserted_of_lookup hrow
  obtain ⟨t, m, -, hkey, -⟩ := (h.of_suffix hsuffix).1.emits hmem
  exact hsame.routingKey.trans hkey

/-- What a permitted entry does to a row of the outbox. -/
theorem Conforms.event_step (h : Conforms C l) (hpermitted : Permitted l e) (id : UUID) :
    EventStep l e id (l.database.outbox.lookup id) ((l.database.after e).outbox.lookup id) := by
  cases e with
  | committed i ws =>
      have hfailures := h.relay_or_failures hpermitted
      have hinsert : ∀ {before : List Write} {eventId ticketId m began},
          ws = before ++ [outbound eventId ticketId m began] →
          (∀ wr ∈ before, wr.eventKeys = []) → l.database.outbox.lookup eventId = none →
          (Entry.committed i ws).failures l id = 0 →
          EventStep l (.committed i ws) id (l.database.outbox.lookup id)
            ((l.database.writeAll ws).outbox.lookup id) := by
        rintro before eventId ticketId m began rfl hbefore hfresh hzero
        rw [outbound, Database.lookup_insertEvent hbefore]
        split
        next hid =>
          rw [hid, hfresh]
          exact .inserted rfl rfl rfl (hid ▸ hzero)
        · exact .same hzero
      have hquiet : (∀ wr ∈ ws, wr.eventKeys = []) →
          (Entry.committed i ws).failures l id = 0 →
          EventStep l (.committed i ws) id (l.database.outbox.lookup id)
            ((l.database.writeAll ws).outbox.lookup id) := by
        intro hws hzero
        rw [Database.lookup_outbox_writeAll fun wr hwr => by simp [hws wr hwr]]
        exact .same hzero
      have hzero : (∃ e ∈ l.actions i, e.isRelay = false) →
          (Entry.committed i ws).failures l id = 0 := by
        rintro ⟨e, he, hrelayed⟩
        rcases hfailures with hrelay | hzero
        · rw [hrelay e he] at hrelayed
          cases hrelayed
        · exact hzero id
      cases hpermitted with
      | create hacts hcurrency hkey hticket hevent hframe =>
          exact hinsert (List.singleton_append.symm) (by simp [Write.eventKeys]) hevent
            (hzero (by simp [hacts, Entry.isRelay]))
      | settle hacts hrecommended hrow hid hloaded hevent hframe =>
          exact hinsert rfl (fun _ => eventKeys_rewrite) hevent
            (hzero (by simp [hacts, Entry.isRelay]))
      | requestCancellation hlocked hrow hid hevent hframe =>
          obtain ⟨acts, hacts⟩ := History.actions_of_focus hlocked (by
            simp [History.actionOf, Entry.thread, Entry.isAction])
          exact hinsert rfl (fun _ => eventKeys_rewrite) hevent
            (hzero (by simp [hacts, Entry.isRelay]))
      | recommend hacts | cancellationApplied hacts =>
          refine hquiet (fun wr hwr => ?_) (hzero (by simp [hacts, Entry.isRelay]))
          rcases List.mem_cons.mp hwr with rfl | hwr
          · rfl
          · exact eventKeys_rewrite hwr
      | acknowledge hacts =>
          exact hquiet (fun _ => eventKeys_rewrite) (hzero (by simp [hacts, Entry.isRelay]))
      | commitNothing hacts =>
          exact hquiet (by simp) (hzero (by simp [hacts, Entry.isRelay]))
      | @relay _ failed publishedAt began hacts hfailed hpending =>
          have hrow : ∀ {j key id body ok}, .published j key id body ok ∈ l.actions i →
              ∃ row, l.database.outbox.lookup id = some row ∧ row.status = .pending ∧
                key = row.routingKey ∧ body = row.payload := by
            intro j key id body ok he
            obtain ⟨row, ok', hrow, hstatus, heq⟩ := hpending _ he rfl
            cases heq
            exact ⟨row, hrow, hstatus, rfl, rfl⟩
          have honce : PublishesOnce (l.actions i) := h.publishesOnce rfl hacts fun e he hrelayed => by
            obtain ⟨row, ok, hrow, -, rfl⟩ := hpending e he hrelayed
            exact ⟨row.id, row.payload, ok, by rw [h.routingKey_of_lookup hrow]⟩
          change EventStep _ _ _ _ ((l.database.writeAll _).outbox.lookup id)
          rcases lookup_relayWrites honce hfailed id with ⟨hid, hnot, hlookup⟩ |
            ⟨hid, error, hlookup⟩ | ⟨-, hnot, hlookup⟩
          · obtain ⟨j, key, body, he⟩ := mem_publishedIds.mp hid
            obtain ⟨row, hrow', hstatus, rfl, rfl⟩ := hrow he
            rw [hlookup, hrow']
            exact .published hstatus (History.mem_of_mem_actions he)
              (List.count_eq_zero.mpr hnot)
          · obtain ⟨j, key, body, he⟩ := mem_failedIds.mp hid
            obtain ⟨row, hrow', hstatus, -, -⟩ := hrow he
            rw [hlookup, hrow']
            exact .failed hstatus (List.count_eq_one_of_mem honce.nodup_failed hid)
          · rw [hlookup]
            exact .same (List.count_eq_zero.mpr hnot)
  | _ => exact .same rfl

/-! ### The accounts of an event -/

/-- What a row of the outbox says about the publishes of its event. -/
structure OutboxEvent.Accounted (l : History) (row : OutboxEvent) : Prop where
  published : row.status = .published →
    (∃ i, .published i row.routingKey row.id row.payload true ∈ l) ∧
      row.publishedAt.isSome ∧ row.lastError = none
  attempts : row.attempts = l.failures row.id
  bounded : row.attempts ≤ 3
  failed : row.status = .failed ↔ row.attempts = 3

/-- No publish of an event fails before the event is there, and its row accounts for all those
that have failed since. -/
theorem Conforms.accounted (h : Conforms C l) (id : UUID) :
    (l.database.outbox.lookup id = none → l.failures id = 0) ∧
      ∀ row, l.database.outbox.lookup id = some row → row.Accounted l := by
  induction h with
  | nil => exact ⟨fun _ => rfl, by rintro _ ⟨⟩⟩
  | @cons l e h hpermitted he ih =>
      obtain ⟨hnone, hsome⟩ := ih
      have hid : ∀ row, l.database.outbox.lookup id = some row → row.id = id :=
        l.keyed_database.outbox id
      have hid' : ∀ row, (l.database.after e).outbox.lookup id = some row → row.id = id :=
        (History.keyed_database (e :: l)).outbox id
      have hstep := h.event_step hpermitted id
      simp only [History.database_cons]
      generalize l.database.outbox.lookup id = before at hstep hnone hsome hid
      generalize (l.database.after e).outbox.lookup id = after at hstep hid'
      cases hstep with
      | same hfailures =>
          refine ⟨fun hafter => by rw [History.failures, hfailures, hnone hafter], fun row hrow => ?_⟩
          obtain ⟨hpublished, hattempts, hbounded, hfailed⟩ := hsome row hrow
          refine ⟨fun hstatus => ?_, ?_, hbounded, hfailed⟩
          · obtain ⟨⟨i, hi⟩, hrest⟩ := hpublished hstatus
            exact ⟨⟨i, List.mem_cons_of_mem _ hi⟩, hrest⟩
          · rw [History.failures, hid row hrow, hfailures, Nat.zero_add, hattempts, hid row hrow]
      | @inserted row hstatus hattempts hkey hfailures =>
          refine ⟨by simp, ?_⟩
          rintro _ ⟨⟩
          refine ⟨by simp [hstatus], ?_, by simp [hattempts], by simp [hstatus, hattempts]⟩
          rw [History.failures, hid' row rfl, hfailures, hnone rfl, hattempts]
      | @published row i publishedAt began hstatus hpublished hfailures =>
          obtain rfl : row.id = id := hid row rfl
          obtain ⟨-, hattempts, hbounded, hfailed⟩ := hsome row rfl
          refine ⟨by simp, ?_⟩
          rintro _ ⟨⟩
          have hlive : row.attempts ≠ 3 := fun h => by simp [hfailed.mpr h] at hstatus
          refine ⟨fun _ => ⟨⟨i, List.mem_cons_of_mem _ hpublished⟩, rfl, rfl⟩, ?_, hbounded, ?_⟩
          · change row.attempts = History.failures row.id (e :: l)
            rw [History.failures, hfailures, Nat.zero_add, hattempts]
          · simp [OutboxEvent.markPublished, hlive]
      | @failed row error began hstatus hfailures =>
          obtain rfl : row.id = id := hid row rfl
          obtain ⟨-, hattempts, hbounded, hfailed⟩ := hsome row rfl
          refine ⟨by simp, ?_⟩
          rintro _ ⟨⟩
          have hlive : row.attempts ≠ 3 := fun h => by simp [hfailed.mpr h] at hstatus
          refine ⟨?_, ?_, ?_, ?_⟩
          · intro hpublished
            simp only [OutboxEvent.markFailed, hstatus] at hpublished
            split at hpublished <;> cases hpublished
          · change row.attempts + 1 = History.failures row.id (e :: l)
            rw [History.failures, hfailures, hattempts, Nat.add_comm]
          · change row.attempts + 1 ≤ 3
            omega
          · simp only [OutboxEvent.markFailed, hstatus]
            split
            · simp
              omega
            · simp
              omega

/-- Events are kept, with what is to be published. -/
theorem Conforms.event_kept (h : Conforms C l) (hsuffix : l' <:+ l) {row : OutboxEvent}
    (hrow : l'.database.outbox.lookup id = some row) :
    ∃ row', l.database.outbox.lookup id = some row' ∧ row.Same row' := by
  induction h with
  | nil => exact ⟨row, List.suffix_nil.mp hsuffix ▸ hrow, .refl row⟩
  | @cons l e h hpermitted he ih =>
      rcases List.suffix_cons_iff.mp hsuffix with rfl | hsuffix
      · exact ⟨row, hrow, .refl row⟩
      obtain ⟨row₁, hrow₁, hsame⟩ := ih hsuffix
      have hstep := h.event_step hpermitted id
      rw [hrow₁] at hstep
      rw [History.database_cons]
      generalize (l.database.after e).outbox.lookup id = after at hstep ⊢
      cases hstep with
      | same => exact ⟨row₁, rfl, hsame⟩
      | published | failed => exact ⟨_, rfl, hsame.trans ⟨rfl, rfl, rfl, rfl, rfl⟩⟩

/-- A published event is left as it is. -/
theorem Conforms.published_kept (h : Conforms C l) (hsuffix : l' <:+ l) {row : OutboxEvent}
    (hrow : l'.database.outbox.lookup id = some row) (hstatus : row.status ≠ .pending) :
    l.database.outbox.lookup id = some row := by
  induction h with
  | nil => exact List.suffix_nil.mp hsuffix ▸ hrow
  | @cons l e h hpermitted he ih =>
      rcases List.suffix_cons_iff.mp hsuffix with rfl | hsuffix
      · exact hrow
      have hstep := h.event_step hpermitted id
      rw [ih hsuffix] at hstep
      rw [History.database_cons]
      generalize (l.database.after e).outbox.lookup id = after at hstep ⊢
      cases hstep with
      | same => rfl
      | published hpending | failed hpending => exact absurd hpending hstatus

/-- An event is published while it is pending. -/
theorem Conforms.pending_of_published (h : Conforms C l) {j : ℕ} {body : Dict} {ok : Bool}
    (hsuffix : (.published j topology.providerOutRoutingKey id body ok :: l') <:+ l) :
    ∃ row, l'.database.outbox.lookup id = some row ∧ row.status = .pending ∧ row.payload = body := by
  generalize hkey : topology.providerOutRoutingKey = key at hsuffix
  cases (h.of_suffix hsuffix).1 with
  | publishFrame => exact absurd hkey outKey_ne_inKey
  | publishEvent _ _ _ _ hrow hpending => exact ⟨_, hrow, hpending, rfl⟩

end General

end RiskProvider

import RiskProvider.Conformance.Sessions
import RiskProvider.Conformance.Views
import RiskProvider.Interleaving.Ownership

/-!
# Proof rules for the services

The instance of the logic of `Interleaving.Ownership` for the platform: the invariant is
`World.Isolated`, a thread owns its `World.view`, and it guarantees that every entry it appends
to the history is `Permitted`. `Wp i p Q F v` says that program `p`, run by thread `i` from view
`v`, keeps the guarantee, and that `Q` holds of its result and view where it returns, `F` of its
exception and view where it raises. There is one rule for each kind of effect.
-/

namespace RiskProvider

open Interleaving

variable [Codecs]

/-- The session's instance of the ticket is `CANCELLATION_REQUESTED`. -/
def Session.ShowsRequest (s : Session) (t : UUID) : Prop :=
  ∃ inst, s.identityMap t = some inst ∧ inst.loaded.status = .cancellationRequested

/-- What thread `i` guarantees of the world in which it performs an effect: every entry that
the effect appends is permitted, a cancellation is recorded anew by sessions that show it as
requested, objects are added and flushed one by one, changed tickets are
flushed only while their rows are locked, tickets are selected for update by sessions that
have changed none, stuck ones and pending events by threads
that have done nothing, tickets by key on behalf of a
request, and the events of a batch are published and marked while their rows are locked. -/
def Guarantee (i : ℕ) : Effect → World → Prop
  | .selectTicketForUpdate _, w => (w.session i).failed = false →
      (w.session i).dirty = [] ∧ ∀ wr ∈ (w.session i).writes, wr.ticketKey = none
  | .selectTicketByKey key, w => (w.session i).failed = false → (w.session i).writes = [] ∧
      ∃ request, w.log.actions i = [.requested i key request] ∨
        w.log.actions i = [.looked i key none, .requested i key request]
  | .selectStuck _ _, w => w.session i = {} ∧ w.log.actions i = []
  | .selectPending _, w => w.log.actions i = []
  | .updatePublished ids _, w => ∀ id ∈ ids, w.eventLock id = some i
  | .updateFailed id _, w => w.eventLock id = some i
  | .add _, w => (w.session i).added = []
  | .flush, w => ∀ k ∈ (w.session i).dirty, w.ticketLock k = some i
  | .commit, w => (w.session i).failed = false →
      Permitted w.log (.committed i (w.session i).writes) ∧
        ∀ wr ∈ (w.session i).writes, ∀ t ∈ wr.recancels, (w.session i).ShowsRequest t
  | .processTicket id action _, w => ∀ error, Permitted w.log (.processed i id action error)
  | .publish key id body, w => (∀ ok, Permitted w.log (.published i key id body ok)) ∧
      (key = topology.providerInRoutingKey ∨ w.eventLock id = some i)
  | .receive q, w => ∀ n d, (w.broker.queue q)[n]? = some d →
      Permitted w.log (.received i q n d)
  | .ack, w => Permitted w.log (.acked i)
  | .send m, w => ∀ outcome, Permitted w.log (.sent i m outcome)
  | .request key r, w => Permitted w.log (.requested i key r)
  | .respond result, w => Permitted w.log (.responded i result)
  | _, _ => True

/-- The discipline of the platform. -/
def discipline : Discipline machine View where
  Inv := World.Isolated
  view := World.view
  guar := Guarantee

variable {α β : Type}

/-- What holds after a program that has answered `r`. -/
def Post (Q : α → View → Prop) (F : Exn → View → Prop) : Except Exn α → View → Prop
  | .ok a => Q a
  | .error x => F x

/-- Program `p` of thread `i` keeps its guarantee from view `v`, with postconditions `Q` and
`F`. -/
def Wp (i : ℕ) (p : Py α) (Q : α → View → Prop) (F : Exn → View → Prop) (v : View) : Prop :=
  ∀ w, w.view i = v → discipline.Triple i p (fun a w => Q a (w.view i)) (fun x w => F x (w.view i)) w

namespace Wp

variable {i : ℕ} {v : View} {Q : α → View → Prop} {F : Exn → View → Prop}

/-! ### Composition -/

theorem pure {a : α} (h : Q a v) : Wp i (pure a : Py α) Q F v := by
  rintro w rfl
  exact Discipline.Triple.pure h

theorem throw {x : Exn} (h : F x v) : Wp i (throw x : Py α) Q F v := by
  rintro w rfl
  exact Discipline.Triple.throw h

theorem mono {p : Py α} {Q' : α → View → Prop} {F' : Exn → View → Prop} (h : Wp i p Q' F' v)
    (hQ : ∀ a v, Q' a v → Q a v) (hF : ∀ x v, F' x v → F x v) : Wp i p Q F v := by
  intro w hw
  exact (h w hw).mono (fun a w => hQ a _) (fun x w => hF x _)

theorem bind {p : Py β} {f : β → Py α} (h : Wp i p (fun b v => Wp i (f b) Q F v) F v) :
    Wp i (p >>= f) Q F v := by
  intro w hw
  exact Discipline.Triple.bind ((h w hw).mono (fun b w hb => hb w rfl) (fun x w hx => hx))

theorem attempt {p : Py β} {Q : Except Exn β → View → Prop}
    (h : Wp i p (fun b => Q (.ok b)) (fun x => Q (.error x)) v) :
    Wp i (RiskProvider.attempt p) Q F v := by
  intro w hw
  refine Discipline.Safe.bind (Discipline.Safe.mono (h w hw) ?_)
  rintro (x | b) w h
  · exact h
  · exact h

/-! ### Effects -/

variable (i v) in
/-- In every world in which thread `i` has the view `v`, the entry is permitted. -/
def Allows (e : Entry) : Prop := ∀ w : World, w.Isolated → w.view i = v → Permitted w.log e

theorem perform {e : Effect} {Q : e.Value → View → Prop}
    (hguar : ∀ w, w.Isolated → w.view i = v → Guarantee i e w)
    (hexec : ∀ w c r w', w.Isolated → w.view i = v → e.exec i c w = some (r, w') →
      Post Q F r (w'.view i)) : Wp i (perform e) Q F v := by
  intro w hw w₁ hinv hview
  have hv : w₁.view i = v := hview.trans hw
  refine ⟨hguar w₁ hinv hv, fun c r w' h => ?_⟩
  have hpost := hexec w₁ c r w' hinv hv h
  cases r with
  | ok a => exact hpost
  | error x => exact hpost

theorem utcNow {Q : Time → View → Prop} (h : ∀ now, Q now v) : Wp i utcNow Q F v := by
  refine perform (fun _ _ _ => trivial) fun w c r w' _ hv hexec => ?_
  obtain ⟨-, -, heq⟩ := Option.map_eq_some_iff.mp hexec
  cases heq
  exact hv ▸ h _

theorem uuid4 {Q : UUID → View → Prop} (h : ∀ u, Q u v) : Wp i uuid4 Q F v := by
  refine perform (fun _ _ _ => trivial) fun w c r w' _ hv hexec => ?_
  obtain ⟨u, -, heq⟩ := Option.map_eq_some_iff.mp hexec
  cases heq
  exact hv ▸ h _

/-- A statement, as long as no earlier one has failed. -/
theorem statement {e : Effect} {Q : e.Value → View → Prop}
    (act : Choice → World → Option (e.Result × World))
    (he : ∀ c w, w.view i = v → e.exec i c w = w.statement i c (act c))
    (hguar : ∀ w, w.Isolated → w.view i = v → Guarantee i e w)
    (hfailed : v.session.failed = true → F .pendingRollback v)
    (herror : ∀ now, v.session.failed = false →
      F .databaseError (v.setSession (v.session.beginTx now).fail))
    (hact : ∀ now w c r w', v.session.failed = false → w.Isolated →
      w.view i = v.setSession (v.session.beginTx now) → act c w = some (r, w') →
      Post Q F r (w'.view i)) : Wp i (RiskProvider.perform e) Q F v := by
  refine perform hguar fun w c r w' hinv hv hexec => ?_
  rw [he c w hv] at hexec
  unfold World.statement at hexec
  have hsession := World.session_of_view hv
  split at hexec
  next hfail =>
    cases hexec
    exact hv ▸ hfailed (hsession ▸ hfail)
  next hfail =>
    have hlive : v.session.failed = false := by simpa [hsession] using hfail
    have hbegun (c : Choice) :
        (w.beginTx i c).view i = v.setSession (v.session.beginTx (w.issuedAt i c)) := by
      rw [World.beginTx, World.view_setSession_self, hv, hsession]
    split at hexec
    · cases hexec
      have hfailview : ((w.beginTx i .databaseError).fail i).view i =
          v.setSession (v.session.beginTx (w.issuedAt i .databaseError)).fail := by
        rw [World.fail, World.view_setSession_self, hbegun, World.session_of_view (hbegun _)]
        rfl
      exact hfailview ▸ herror _ hlive
    · exact hact _ _ c r w' hlive (World.acts_beginTx.isolated hinv) (hbegun c) hexec

theorem getByIdForUpdate {id : UUID} {Q : Option Ticket → View → Prop} (ws : List Write)
    (hwrites : ∀ wr ∈ ws, wr.ticketKey = none)
    (hclean : v.session.failed = false → v.session.Clean ws)
    (hfailed : v.session.failed = true → F .pendingRollback v)
    (herror : ∀ s, s.failed = true → F .databaseError (v.setSession s))
    (hnone : ∀ s, v.session.Clean ws → s.Clean ws → Q none (v.setSession s))
    (hsome : ∀ row v' began, v.session.Clean ws → row.id = id → v.Keeps v' →
      (∀ b, v.session.begun = some b → began = b) →
      v'.session.Editing id (v.session.attrs row) (v.session.attrs row) began ws →
      v'.tickets id = some (some row) → (∃ f, v'.focus id = some f) →
      Q (some (v.session.attrs row)) v') :
    Wp i (TicketRepository.getByIdForUpdate id) Q F v := by
  refine statement (fun _ w => w.selectTicketForUpdate i id) (fun _ _ _ => rfl)
    (fun w _ hv hlive => ?_) hfailed (fun now _ => herror _ rfl)
    fun now w c r w' hlive hinv hv hact => ?_
  · rw [World.session_of_view hv] at hlive ⊢
    exact ⟨(hclean hlive).dirty, (hclean hlive).writes ▸ hwrites⟩
  have hclean := hclean hlive
  have hsession : w.session i = v.session.beginTx now := World.session_of_view hv
  have hvisible : (w.visible i).tickets.lookup id = w.db.tickets.lookup id := by
    refine Database.lookup_tickets_writeAll fun wr hwr => ?_
    rw [hsession, (hclean.beginTx now).writes] at hwr
    simp [hwrites wr hwr]
  simp only [World.selectTicketForUpdate, hvisible] at hact
  split at hact
  · split at hact
    · cases hact
      exact hv ▸ hnone _ hclean (hclean.beginTx now)
    next row hrow =>
      cases hact
      have hid : row.id = id := by
        refine (History.keyed_database w.log).tickets id row ?_
        rwa [← hinv.db_eq]
      have hcoherent : v.session.Coherent := by
        have := hinv.coherent i
        rw [hsession] at this
        exact this.of_eq rfl rfl
      have hlock : { w.loadRow i row with ticketLock := acquire w.ticketLock i [id] } =
          (w.loadRow i row).acquireLocks i [id] [] [] [] := by
        simp [World.acquireLocks]
      have hattrs : (w.session i).attrs row = v.session.attrs row := by
        rw [hsession]
        rfl
      rw [hlock, hattrs]
      obtain ⟨began, hbegan, hediting⟩ := hclean.editing hcoherent hid now
      refine hsome row _ began hclean hid ?_ hbegan ?_ ?_ ?_
      · refine View.Keeps.trans ?_ (World.keeps_acquireLocks _ _ _ _)
        rw [World.view_loadRow_self, hv]
        exact View.keeps_setSession _ _
      · rw [World.view_acquireLocks_self, World.view_loadRow_self, hsession]
        exact hediting
      · have hdb : (w.loadRow i row).db = w.db := by
          unfold World.loadRow
          split <;> rfl
        rw [World.view_acquireLocks_self, hdb]
        simp [hrow]
      · rw [World.view_acquireLocks_self]
        exact ⟨_, if_pos (by simp)⟩
  · cases hact

theorem selectTicketByKey {key : String} {Q : Option Ticket → View → Prop}
    (hwrites : v.session.writes = []) (hfresh : ∀ id, v.session.identityMap id = none)
    (hacts : ∃ request, v.actions = [.requested i key request] ∨
      v.actions = [.looked i key none, .requested i key request])
    (hfailed : v.session.failed = true → F .pendingRollback v)
    (herror : ∀ s, s.failed = true → F .databaseError (v.setSession s))
    (hnone : ∀ now, v.session.failed = false →
      Q none ((v.setSession (v.session.beginTx now)).act (.looked i key none)))
    (hsome : ∀ row s, Q (some row) ((v.setSession s).act (.looked i key (some row.id)))) :
    Wp i (TicketRepository.getByIdempotencyKey key) Q F v := by
  refine statement (fun _ w => w.selectTicketByKey i key) (fun _ _ _ => rfl)
    (fun w _ hv _ => ?_) hfailed (fun now _ => herror _ rfl) fun now w c r w' hlive _ hv hact => ?_
  · rw [World.session_of_view hv, World.actions_of_view hv]
    exact ⟨hwrites, hacts⟩
  have hsession : w.session i = v.session.beginTx now := World.session_of_view hv
  have hlooked : ∀ result, (w.record (.looked i key result)).view i =
      (v.setSession (v.session.beginTx now)).act (.looked i key result) := fun result => by
    rw [World.view_record_act (i := i) (.looked i key result) rfl rfl (by simp), hv]
  unfold World.selectTicketByKey at hact
  split at hact
  · cases hact
    exact (hlooked none).symm ▸ hnone now hlive
  next row _ =>
    cases hact
    have hattrs : (w.session i).attrs row = row := by
      have hmap : (w.session i).identityMap row.id = none := by
        rw [hsession]
        exact hfresh row.id
      simp [Session.attrs, hmap]
    rw [World.view_loadRow_self, hlooked, hattrs]
    exact hsome row _

/-- A select of several rows for update, from a session that has loaded none. -/
theorem findStuck {olderThan : Time} {limit : ℕ} {Q : List Ticket → View → Prop}
    (hempty : v.session = {}) (hacts : v.actions = [])
    (herror : ∀ s, s.failed = true → F .databaseError (v.setSession s))
    (hsome : ∀ (rows : List Ticket) v', v'.session.Clean [] →
      (v.act (.found i olderThan (rows.map Ticket.id))).Keeps v' →
      (rows.map Ticket.id).Nodup →
      (∀ row ∈ rows, row.stuck olderThan ∧ v'.tickets row.id = some (some row)) → Q rows v') :
    Wp i (TicketRepository.findStuck olderThan limit) Q F v := by
  refine statement (fun c w => c.rows?.bind (w.selectStuck i olderThan limit)) (fun _ _ _ => rfl)
    (fun _ _ hv => ⟨(World.session_of_view hv).trans hempty, (World.actions_of_view hv).trans hacts⟩)
    (by simp [hempty]) (fun now _ => herror _ rfl)
    fun now w c r w' _ hinv hv hact => ?_
  obtain ⟨ids, -, hids⟩ := Option.bind_eq_some_iff.mp hact
  unfold World.selectStuck at hids
  split at hids
  next hbatch =>
    cases hids
    have hsession : w.session i = v.session.beginTx now := World.session_of_view hv
    have hattrs : (w.session i).attrs = id := by
      funext row
      simp [hsession, hempty, Session.attrs, Session.beginTx]
    have hkeyed := (History.keyed_database w.log).tickets
    rw [← hinv.db_eq] at hkeyed
    have hrows : (ids.filterMap w.db.tickets.lookup).map Ticket.id = ids :=
      hkeyed.map_filterMap fun id hid => Option.isSome_of_any (hbatch.2.2.1 id hid).2
    have hlock : { (w.record (.found i olderThan ids)).loadRows i
          (ids.filterMap w.db.tickets.lookup) with
        ticketLock := acquire w.ticketLock i ids } =
        ((w.record (.found i olderThan ids)).loadRows i
          (ids.filterMap w.db.tickets.lookup)).acquireLocks i ids [] [] [] := by
      simp [World.acquireLocks]
    rw [hlock, hattrs, List.map_id]
    refine hsome _ _ ?_ ?_ (by rw [hrows]; exact hbatch.1) fun row hrow => ?_
    · rw [World.view_acquireLocks_self, World.view_loadRows_self]
      change Session.Clean (List.foldl _ (w.session i) _) []
      rw [hsession, hempty]
      exact List.foldlRecOn (motive := fun s => Session.Clean s []) _ _
        (Session.clean_empty.beginTx now) fun s hs row _ => hs.load row
    · refine View.Keeps.trans ?_ (World.keeps_acquireLocks _ _ _ _)
      rw [World.view_loadRows_self, World.view_record_act (i := i) (.found i olderThan ids) rfl rfl
        (by simp), hv, hrows]
      exact View.keeps_setSession _ _
    · obtain ⟨id, hid, hlookup⟩ := List.mem_filterMap.mp hrow
      obtain rfl : row.id = id := hkeyed id row hlookup
      have hstuck := (hbatch.2.2.1 row.id hid).2
      rw [hlookup] at hstuck
      refine ⟨hstuck, ?_⟩
      rw [World.view_acquireLocks_self]
      have hdb : ((w.record (.found i olderThan ids)).loadRows i
          (ids.filterMap w.db.tickets.lookup)).db = w.db := World.db_loadRows _
      simp only [hid, ↓reduceIte, hdb, hlookup]
  · cases hids

theorem fetchPending {limit : ℕ} {Q : List OutboxEvent → View → Prop} {ws : List Write}
    (hclean : v.session.Clean ws) (hacts : v.actions = [])
    (herror : ∀ s, s.failed = true → F .databaseError (v.setSession s))
    (hsome : ∀ (rows : List OutboxEvent) skipped v' began, v'.session.Clean ws →
      v'.session.begun = some began →
      (v.act (.fetched i limit (rows.map OutboxEvent.id) skipped)).Keeps v' →
      (rows.map OutboxEvent.id).Nodup →
      (∀ row ∈ rows, row.status = .pending ∧ v'.events row.id = some (some row)) → Q rows v') :
    Wp i (OutboxRepository.fetchPending limit) Q F v := by
  refine statement (fun c w => c.rows?.bind (w.selectPending i limit)) (fun _ _ _ => rfl)
    (fun _ _ hv => (World.actions_of_view hv).trans hacts) (by simp [hclean.failed])
    (fun now _ => herror _ rfl) fun now w c r w' _ hinv hv hact => ?_
  obtain ⟨ids, -, hids⟩ := Option.bind_eq_some_iff.mp hact
  unfold World.selectPending at hids
  split at hids
  next hbatch =>
    cases hids
    have hkeyed := (History.keyed_database w.log).outbox
    rw [← hinv.db_eq] at hkeyed
    have hrows : (ids.filterMap w.db.outbox.lookup).map OutboxEvent.id = ids :=
      hkeyed.map_filterMap fun id hid => Option.isSome_of_any (hbatch.2.2.1 id hid).2
    have hlock : { w.record (.fetched i limit ids (w.skipped i)) with
          eventLock := acquire w.eventLock i ids } =
        (w.record (.fetched i limit ids (w.skipped i))).acquireLocks i [] ids [] [] := by
      simp [World.acquireLocks]
    have hview := World.view_record_act (w := w) (i := i) (.fetched i limit ids (w.skipped i)) rfl
      rfl (by simp)
    rw [hv] at hview
    rw [hlock]
    refine hsome _ (w.skipped i) _ (v.session.begun.getD now) ?_ ?_ ?_ (by rw [hrows]; exact hbatch.1) ?_
    · rw [World.view_acquireLocks_self, hview]
      exact hclean.beginTx now
    · rw [World.view_acquireLocks_self, hview]
      rfl
    · refine View.Keeps.trans ?_ (World.keeps_acquireLocks _ _ _ _)
      rw [hview, hrows]
      exact View.keeps_setSession _ _
    · intro row hrow
      obtain ⟨id, hid, hlookup⟩ := List.mem_filterMap.mp hrow
      have hkey : row.id = id := by
        refine (History.keyed_database w.log).outbox id row ?_
        rwa [← hinv.db_eq]
      have hpending := (hbatch.2.2.1 id hid).2
      rw [hlookup] at hpending
      refine ⟨by simpa [OutboxEvent.pending] using hpending, ?_⟩
      rw [World.view_acquireLocks_self, hkey]
      simp [hid, Database.after, hlookup]
  · cases hids

theorem tryClaim {messageId : UUID} {messageType : String} {ticketId : Option UUID}
    {Q : Bool → View → Prop} (hclean : v.session.Clean [])
    (herror : ∀ s, s.failed = true → F .databaseError (v.setSession s))
    (hduplicate : ∀ v', v'.session.Clean [] → v.Keeps v' → Q false v')
    (hclaimed : ∀ v' began, v.Keeps v' →
      v'.session.Clean [.insertInbox { messageId, ticketId, messageType, processedAt := began }] →
      v'.session.identityMap = v.session.identityMap → v'.session.begun = some began →
      v'.claims messageId = some none → Q true v') :
    Wp i (InboxRepository.tryClaim messageId messageType ticketId) Q F v := by
  refine statement (fun _ w => w.insertInbox i messageId messageType ticketId) (fun _ _ _ => rfl)
    (fun _ _ _ => trivial) (by simp [hclean.failed]) (fun now _ => herror _ rfl)
    fun now w c r w' _ hinv hv hact => ?_
  have hsession : w.session i = v.session.beginTx now := World.session_of_view hv
  have hvisible : w.visible i = w.db := by
    simp [World.visible, hsession, (hclean.beginTx now).writes]
  unfold World.insertInbox at hact
  rw [hvisible] at hact
  split at hact
  · split at hact
    · cases hact
      rw [hv]
      exact hduplicate _ (hclean.beginTx now) (View.keeps_setSession _ _)
    next hfresh =>
      cases hact
      refine hclaimed _ (v.session.beginTx now).startedAt ?_ ?_ ?_ ?_ ?_
      all_goals
        rw [show ∀ s, { w.setSession i s with inboxLock := acquire w.inboxLock i [messageId] } =
          (w.setSession i s).acquireLocks i [] [] [messageId] [] by simp [World.acquireLocks]]
      · refine View.Keeps.trans ?_ (World.keeps_acquireLocks _ _ _ _)
        rw [World.view_setSession_self, hv]
        exact View.keeps_setSession _ _
      · rw [World.view_acquireLocks_self, World.view_setSession_self, hsession]
        refine ⟨hclean.failed, hclean.dirty, hclean.added, ?_⟩
        simp [View.setSession, (hclean.beginTx now).writes]
      · rw [World.view_acquireLocks_self, World.view_setSession_self, hsession]
        rfl
      · rw [World.view_acquireLocks_self, World.view_setSession_self, hsession]
        rfl
      · rw [World.view_acquireLocks_self]
        have hnone : w.db.inbox.lookup messageId = none := AList.lookup_eq_none.mpr hfresh
        simp [hnone]
  · cases hact

theorem updatePublished {ids : List UUID} {publishedAt began : Time} {Q : Unit → View → Prop}
    {ws : List Write} (hclean : v.session.Clean ws) (hbegun : v.session.begun = some began)
    (hlocked : ∀ id ∈ ids, ∃ x, v.events id = some x)
    (herror : ∀ x s, s.failed = true → F x (v.setSession s))
    (hok : ∀ v', v.Keeps v' → v'.session.Clean (ws ++ [.markPublished ids publishedAt began]) →
      v'.session.begun = some began → Q () v') :
    Wp i (RiskProvider.perform (.updatePublished ids publishedAt)) Q F v := by
  refine statement (fun _ w => w.updateEvents i
    (.markPublished ids publishedAt (w.session i).startedAt)) (fun _ _ _ => rfl)
    (fun w _ hv id hid => World.eventLock_of_view hv (hlocked id hid)) (by simp [hclean.failed])
    (fun now _ => herror _ _ rfl)
    fun now w c r w' _ _ hv hact => ?_
  obtain ⟨x, rfl, rfl⟩ | ⟨rfl, hkeeps, hsession⟩ := World.view_updateEvents hact
  · rw [World.fail, World.view_setSession_self, hv]
    exact herror x _ rfl
  rw [World.session_of_view hv, Session.beginTx_of_begun hbegun now] at hsession
  rw [hv, Session.beginTx_of_begun hbegun now] at hkeeps
  refine hok _ ((View.keeps_setSession _ _).trans hkeeps) ?_ ?_ <;> rw [hsession]
  · exact ⟨hclean.failed, hclean.dirty, hclean.added, by
      simp [View.setSession, hclean.writes, Session.startedAt, hbegun]⟩
  · exact hbegun

theorem updateFailed {id : UUID} {error : String} {began : Time} {Q : Unit → View → Prop}
    {ws : List Write} (hclean : v.session.Clean ws) (hbegun : v.session.begun = some began)
    (hlocked : ∃ x, v.events id = some x)
    (herror : ∀ x s, s.failed = true → F x (v.setSession s))
    (hok : ∀ v', v.Keeps v' → v'.session.Clean (ws ++ [.markFailed id error began]) →
      v'.session.begun = some began → Q () v') :
    Wp i (RiskProvider.perform (.updateFailed id error)) Q F v := by
  refine statement (fun _ w => w.updateEvents i
    (.markFailed id error (w.session i).startedAt)) (fun _ _ _ => rfl)
    (fun w _ hv => World.eventLock_of_view hv hlocked) (by simp [hclean.failed])
    (fun now _ => herror _ _ rfl)
    fun now w c r w' _ _ hv hact => ?_
  obtain ⟨x, rfl, rfl⟩ | ⟨rfl, hkeeps, hsession⟩ := World.view_updateEvents hact
  · rw [World.fail, World.view_setSession_self, hv]
    exact herror x _ rfl
  rw [World.session_of_view hv, Session.beginTx_of_begun hbegun now] at hsession
  rw [hv, Session.beginTx_of_begun hbegun now] at hkeeps
  refine hok _ ((View.keeps_setSession _ _).trans hkeeps) ?_ ?_ <;> rw [hsession]
  · exact ⟨hclean.failed, hclean.dirty, hclean.added, by
      simp [View.setSession, hclean.writes, Session.startedAt, hbegun]⟩
  · exact hbegun

/-! ### Session effects -/

theorem assign {t : Ticket} {Q : Unit → View → Prop}
    (h : Q () (v.setSession (v.session.assign t))) :
    Wp i (RiskProvider.perform (.assign t)) Q F v := by
  refine perform (fun _ _ _ => trivial) fun w c r w' _ hv hexec => ?_
  obtain ⟨-, -, heq⟩ := Option.map_eq_some_iff.mp hexec
  cases heq
  rw [World.view_setSession_self, hv, World.session_of_view hv]
  exact h

theorem readAttribute {id : UUID} {Q : Unit → View → Prop} (hok : Q () v)
    (herror : F .pendingRollback v) : Wp i (RiskProvider.perform (.readAttribute id)) Q F v := by
  refine perform (fun _ _ _ => trivial) fun w c r w' _ hv hexec => ?_
  obtain ⟨-, -, heq⟩ := Option.map_eq_some_iff.mp hexec
  cases heq
  rw [hv]
  split
  · exact herror
  · exact hok

theorem add {object : NewObject} {Q : Unit → View → Prop} (hadded : v.session.added = [])
    (h : Q () (v.setSession (v.session.add object))) :
    Wp i (RiskProvider.perform (.add object)) Q F v := by
  refine perform (fun w _ hv => (congrArg Session.added (World.session_of_view hv)).trans hadded)
    fun w c r w' _ hv hexec => ?_
  obtain ⟨-, -, heq⟩ := Option.map_eq_some_iff.mp hexec
  cases heq
  rw [World.view_setSession_self, hv, World.session_of_view hv]
  exact h

theorem flush {Q : Unit → View → Prop}
    (hlocked : ∀ k ∈ v.session.dirty, ∃ x, v.tickets k = some x)
    (hfailed : v.session.failed = true → F .pendingRollback v)
    (herror : ∀ x s, s.failed = true → F x (v.setSession s))
    (hnothing : v.session.dirty = [] → v.session.added = [] → Q () v)
    (hok : ∀ now v', ¬(v.session.dirty = [] ∧ v.session.added = []) → v.Keeps v' →
      v'.session = (v.session.beginTx now).flushed →
      (∀ row, .ticket row ∈ v.session.added → v'.tickets row.id = some none) →
      (∀ row, .event row ∈ v.session.added → v'.events row.id = some none) → Q () v') :
    Wp i (RiskProvider.perform .flush) Q F v := by
  have hguar : ∀ w, w.Isolated → w.view i = v → Guarantee i .flush w := by
    rintro w - rfl k hk
    obtain ⟨x, hx⟩ := hlocked k hk
    exact (World.view_tickets.mp hx).1
  by_cases hpending : v.session.dirty = [] ∧ v.session.added = []
  · refine perform hguar fun w c r w' _ hv hexec => ?_
    simp only [Effect.exec, World.session_of_view hv, hpending, List.isEmpty_nil, and_self,
      ↓reduceIte] at hexec
    cases hexec
    exact hv ▸ hnothing hpending.1 hpending.2
  · refine statement (fun _ w => w.flush i) (fun c w hv => ?_) hguar hfailed
      (fun now _ => herror _ _ rfl) fun now w c r w' _ _ hv hact => ?_
    · have hnot : ¬((w.session i).dirty = [] ∧ (w.session i).added.isEmpty = true) := by
        simpa [World.session_of_view hv] using hpending
      simp only [Effect.exec, hnot, ↓reduceIte]
    · have hsession : w.session i = v.session.beginTx now := World.session_of_view hv
      obtain ⟨x, rfl, rfl⟩ | ⟨rfl, hkeeps, hflushed, hticket, hevent⟩ := World.view_flush hact
      · rw [World.fail, World.view_setSession_self, hv]
        exact herror x _ rfl
      · rw [hv] at hkeeps
        rw [hsession] at hflushed hticket hevent
        exact hok now _ hpending ((View.keeps_setSession _ _).trans hkeeps) hflushed hticket hevent

/-- The `COMMIT` of a session. -/
theorem commitTx {Q : Unit → View → Prop}
    (hallows : Allows i v (.committed i v.session.writes))
    (hshows : ∀ wr ∈ v.session.writes, ∀ t ∈ wr.recancels, v.session.ShowsRequest t)
    (hfailed : v.session.failed = true → F .pendingRollback v)
    (herror : ∀ s, s.failed = true → F .databaseError (v.setSession s))
    (hok : v.session.failed = false → ∀ now, Q () (v.committed i now)) :
    Wp i (RiskProvider.perform .commit) Q F v := by
  refine perform (fun w hinv hv _ => ?_) fun w c r w' _ hv hexec => ?_
  · rw [World.session_of_view hv]
    exact ⟨hallows w hinv hv, hshows⟩
  · have hsession := World.session_of_view hv
    simp only [Effect.exec] at hexec
    split at hexec
    next hfail =>
      cases hexec
      exact hv ▸ hfailed (hsession ▸ hfail)
    next hfail =>
      split at hexec
      · cases hexec
        have hlive : v.session.failed = false := by simpa [hsession] using hfail
        rw [World.view_commit_self, hv]
        exact hok hlive _
      · cases hexec
        rw [World.fail, World.view_setSession_self, hv]
        exact herror _ rfl
      · cases hexec

theorem rollback {Q : Unit → View → Prop} (h : Q () (v.ended {})) :
    Wp i (RiskProvider.perform .rollback) Q F v := by
  refine perform (fun _ _ _ => trivial) fun w c r w' _ hv hexec => ?_
  obtain ⟨-, -, heq⟩ := Option.map_eq_some_iff.mp hexec
  cases heq
  rw [World.view_rollback_self, hv]
  exact h

/-! ### Remote calls -/

theorem processTicket {id : UUID} {action : Option RecommendationAction} {reason : Option String}
    {Q : Unit → View → Prop} (hallows : ∀ error, Allows i v (.processed i id action error))
    (hok : Q () (v.act (.processed i id action none)))
    (herror : ∀ text, F (.monolithError text) (v.act (.processed i id action (some text)))) :
    Wp i (processTicket id action reason) Q F v := by
  refine perform (fun w hinv hv ok => hallows ok w hinv hv) fun w c r w' _ hv hexec => ?_
  obtain ⟨rfl, hview⟩ | ⟨text, rfl, hview⟩ :=
    World.view_call (.processed i id action) .monolithError (fun _ => rfl) (fun _ => rfl)
      (fun _ _ _ => by simp) hexec
  · rw [hview, hv]
    exact hok
  · rw [hview, hv]
    exact herror text

theorem publish {key : String} {messageId : UUID} {body : Dict} {Q : Unit → View → Prop}
    (hallows : ∀ ok, Allows i v (.published i key messageId body ok))
    (hlocked : key = topology.providerInRoutingKey ∨ ∃ x, v.events messageId = some x)
    (hok : Q () (v.act (.published i key messageId body true)))
    (herror : ∀ text, F (.publishError text) (v.act (.published i key messageId body false))) :
    Wp i (RiskProvider.perform (.publish key messageId body)) Q F v := by
  refine perform (fun w hinv hv => ⟨fun ok => hallows ok w hinv hv,
    hlocked.imp_right (World.eventLock_of_view hv)⟩) fun w c r w' _ hv hexec => ?_
  obtain ⟨rfl, hview⟩ | ⟨text, rfl, hview⟩ :=
    World.view_call (.publishEnded i key messageId body) .publishError (fun _ => rfl) (fun _ => rfl)
      (fun _ _ _ => by simp) hexec
  · rw [hview, hv]
    exact hok
  · rw [hview, hv]
    exact herror text

theorem sendAck {messageId : UUID} {Q : Unit → View → Prop}
    (hok : Q () (v.act (.ackSent i messageId true)))
    (herror : ∀ text, F (.connectionError text) (v.act (.ackSent i messageId false))) :
    Wp i (RiskProvider.perform (.sendAck messageId)) Q F v := by
  refine perform (fun _ _ _ => trivial) fun w c r w' _ hv hexec => ?_
  obtain ⟨rfl, hview⟩ | ⟨text, rfl, hview⟩ :=
    World.view_call (.sendAckEnded i messageId) .connectionError (fun _ => rfl) (fun _ => rfl)
      (fun _ _ _ => by simp) hexec
  · rw [hview, hv]
    exact hok
  · rw [hview, hv]
    exact herror text

theorem receive {q : Queue} {Q : Dict → View → Prop}
    (hallows : ∀ n d, ∀ w : World, w.Isolated → w.view i = v →
      (w.log.broker.queue q)[n]? = some d → Permitted w.log (.received i q n d))
    (hok : ∀ n d, Q d.body (v.act (.received i q n d))) :
    Wp i (RiskProvider.perform (.receive q)) Q F v := by
  refine perform (fun w hinv hv n d hqueue => ?_) fun w c r w' _ hv hexec => ?_
  · exact hallows n d w hinv hv (hinv.broker_eq ▸ hqueue)
  · obtain ⟨n, -, hn⟩ := Option.bind_eq_some_iff.mp hexec
    simp only [World.receive] at hn
    split at hn
    next d _ =>
      cases hn
      rw [World.view_record_act (i := i) (.received i q n d) rfl rfl (by simp), hv]
      exact hok n d
    · cases hn

theorem send {m : Message} {Q : Unit → View → Prop}
    (hallows : ∀ outcome, Allows i v (.sent i m outcome))
    (hok : Q () (v.act (.sent i m .ok)))
    (hrejected : ∀ code, F (.providerAckError code) (v.act (.sent i m (.rejected code))))
    (herror : ∀ text, F (.connectionError text) (v.act (.sent i m .transportError))) :
    Wp i (RiskProvider.perform (.send m)) Q F v := by
  refine perform (fun w hinv hv outcome => hallows outcome w hinv hv)
    fun w c r w' _ hv hexec => ?_
  simp only [Effect.exec, World.send] at hexec
  split at hexec
  · cases hexec
    rw [World.view_record_act (i := i) (.sent i m .ok) rfl rfl (by simp), hv]
    exact hok
  next code =>
    cases hexec
    rw [World.view_record_act (i := i) (.sent i m (.rejected code)) rfl rfl (by simp), hv]
    exact hrejected code
  next text =>
    cases hexec
    rw [World.view_record_act (i := i) (.sent i m .transportError) rfl rfl (by simp), hv]
    exact herror text
  · cases hexec

/-- An action that always succeeds. -/
private theorem action {e : Effect} {Q : e.Value → View → Prop} {a : e.Value} {entry : Entry}
    (he : ∀ c w, e.exec i c w = c.succeed?.map fun _ => (.ok a, w.record entry))
    (hguar : ∀ w, w.Isolated → w.view i = v → Guarantee i e w)
    (hthread : entry.thread = i) (haction : entry.isAction = true)
    (hquiet : ∀ j ws, entry ≠ .committed j ws) (h : Q a (v.act entry)) :
    Wp i (RiskProvider.perform e) Q F v := by
  refine perform hguar fun w c r w' _ hv hexec => ?_
  rw [he] at hexec
  obtain ⟨-, -, heq⟩ := Option.map_eq_some_iff.mp hexec
  cases heq
  rw [World.view_record_act entry hthread haction hquiet, hv]
  exact h

theorem ack {Q : Unit → View → Prop} (hallows : Allows i v (.acked i))
    (h : Q () (v.act (.acked i))) : Wp i (RiskProvider.perform .ack) Q F v :=
  action (fun _ _ => rfl) hallows rfl rfl (by simp) h

theorem nack {Q : Unit → View → Prop} (h : Q () (v.act (.returned i))) :
    Wp i (RiskProvider.perform .nack) Q F v :=
  action (fun _ _ => rfl) (fun _ _ _ => trivial) rfl rfl (by simp) h

theorem request {key : String} {r : CreateTicketRequest} {Q : Unit → View → Prop}
    (hallows : Allows i v (.requested i key r)) (h : Q () (v.act (.requested i key r))) :
    Wp i (RiskProvider.perform (.request key r)) Q F v :=
  action (fun _ _ => rfl) hallows rfl rfl (by simp) h

theorem respond {result : Except Exn (UUID × Bool)} {Q : Unit → View → Prop}
    (hallows : Allows i v (.responded i result)) (h : Q () (v.act (.responded i result))) :
    Wp i (RiskProvider.perform (.respond result)) Q F v :=
  action (fun _ _ => rfl) hallows rfl rfl (by simp) h

theorem countTransition {fromStatus toStatus : TicketStatus} {Q : Unit → View → Prop}
    (h : Q () v) : Wp i (RiskProvider.perform (.countTransition fromStatus toStatus)) Q F v := by
  refine perform (fun _ _ _ => trivial) fun w c r w' _ hv hexec => ?_
  obtain ⟨-, -, heq⟩ := Option.map_eq_some_iff.mp hexec
  cases heq
  rw [World.view_record_quiet rfl, hv]
  exact h

end Wp

end RiskProvider

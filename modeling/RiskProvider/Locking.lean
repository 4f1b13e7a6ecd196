import RiskProvider.Executions
import RiskProvider.Locking.Handlers

/-!
# No transactions wait for each other

The contract of `RiskProvider.Locking.Contract` is sound: the local states of threads say which locks
their transactions hold (`ordered_sound`). So a transaction that waits for a lock holds only locks of
lower levels (`System.level_lt_of_waits`), and no reachable state has a cycle of waiting transactions
(`System.no_deadlock`).
-/

namespace RiskProvider

open Interleaving

namespace Holdings

variable {i j : ℕ} {H : Holdings} {σ : Option Holdings} {w w' : World}

/-- Transaction `i` has locked what is held. -/
structure Fits (i : ℕ) (H : Holdings) (w : World) : Prop where
  live : (w.session i).failed = false
  added : (w.session i).added = H.added
  tickets : ∀ t, w.ticketLock t = some i ↔ t ∈ H.tickets
  events : ∀ id, w.eventLock id = some i → H.events = true
  message : ∀ id, w.inboxLock id = some i → H.message = true
  key : ∀ key, w.keyLock key = some i → H.key = true

/-- The local state fits the world. -/
def Describes (i : ℕ) (σ : Option Holdings) (w : World) : Prop :=
  match σ with
  | none => (w.session i).failed = true
  | some H => H.Fits i w

/-- Nothing that the local state is about changes. -/
theorem Fits.of_eq (h : H.Fits i w) (hfailed : (w'.session i).failed = (w.session i).failed)
    (hadded : (w'.session i).added = (w.session i).added)
    (hticket : ∀ t, w'.ticketLock t = some i ↔ w.ticketLock t = some i)
    (hevent : ∀ t, w'.eventLock t = some i ↔ w.eventLock t = some i)
    (hmessage : ∀ t, w'.inboxLock t = some i ↔ w.inboxLock t = some i)
    (hkey : ∀ t, w'.keyLock t = some i ↔ w.keyLock t = some i) : H.Fits i w' where
  live := hfailed.trans h.live
  added := hadded.trans h.added
  tickets t := (hticket t).trans (h.tickets t)
  events t ht := h.events t ((hevent t).1 ht)
  message t ht := h.message t ((hmessage t).1 ht)
  key t ht := h.key t ((hkey t).1 ht)

end Holdings

namespace World

variable {i j : ℕ} {w w' : World}

theorem held_eq_iff {κ β : Type} {lock lock' : κ → Option ℕ} {f g : κ → β}
    (h : held lock i f = held lock' i g) (k : κ) : lock k = some i ↔ lock' k = some i := by
  have hk := congrFun h k
  unfold held at hk
  split at hk <;> split at hk <;> simp_all

/-- The moves of one thread leave the idempotency keys that others have locked. -/
theorem Act.keyLock_iff (hact : Act i w w') (hj : j ≠ i) (k : String) :
    w'.keyLock k = some j ↔ w.keyLock k = some j := by
  cases hact with
  | record e hthread hquiet => rfl
  | session s ws hwrites hheld hcoherent => rfl
  | lock tickets events inbox keys htickets hevents hinbox hkeys => exact acquire_eq_of_ne hkeys hj
  | commit => exact release_eq_of_ne hj
  | rollback => exact release_eq_of_ne hj

theorem Acts.keyLock_iff (hacts : Acts i w w') (hj : j ≠ i) (k : String) :
    w'.keyLock k = some j ↔ w.keyLock k = some j := by
  induction hacts with
  | refl => rfl
  | tail _ hact ih => exact (hact.keyLock_iff hj k).trans ih

/-- The moves of one thread leave what others hold. -/
theorem Acts.describes (hacts : Acts i w w') (hiso : w.Isolated) (hj : j ≠ i) {τ : Option Holdings}
    (h : Holdings.Describes j τ w) : Holdings.Describes j τ w' := by
  have hview := Acts.frame hacts hiso hj
  have hsession : w'.session j = w.session j := congrArg View.session hview
  cases τ with
  | none =>
      change (w'.session j).failed = true
      rw [hsession]
      exact h
  | some H =>
      exact Holdings.Fits.of_eq h (by rw [hsession]) (by rw [hsession])
        (held_eq_iff (congrArg View.tickets hview)) (held_eq_iff (congrArg View.events hview))
        (held_eq_iff (congrArg View.claims hview)) (Acts.keyLock_iff hacts hj)

end World

section Exec

open Holdings

variable {i : ℕ} {w w' : World} {σ : Option Holdings} {H : Holdings} {e : Effect} {c : Choice}

theorem acquire_eq_self_iff {κ : Type} [DecidableEq κ] {lock : κ → Option ℕ} {ks : List κ} {k : κ} :
    acquire lock i ks k = some i ↔ k ∈ ks ∨ lock k = some i := by
  unfold acquire
  split <;> simp_all

theorem next_ok (he : e ≠ .rollback) (a : e.Value) :
    ordered.next σ e (.ok a) (σ.map (·.after e a)) := by
  cases e <;> first | exact absurd rfl he | rfl

theorem next_error (he : e ≠ .rollback) {x : Exn} (hx : e.Raises x) :
    ordered.next σ e (.error x) (if e.isStatement then none else σ) := by
  cases e <;> first | exact absurd rfl he | exact ⟨hx, rfl⟩

/-- The session and the locks stay as they are. -/
theorem describes_of_eq (h : Describes i σ w)
    (hfailed : (w'.session i).failed = (w.session i).failed)
    (hadded : (w'.session i).added = (w.session i).added) (hticket : w'.ticketLock = w.ticketLock)
    (hevent : w'.eventLock = w.eventLock) (hmessage : w'.inboxLock = w.inboxLock)
    (hkey : w'.keyLock = w.keyLock) : Describes i σ w' := by
  cases σ with
  | none => exact hfailed.trans h
  | some H =>
      exact Fits.of_eq h hfailed hadded (by simp [hticket]) (by simp [hevent]) (by simp [hmessage])
        (by simp [hkey])

/-- A statement. -/
theorem exec_statement {act : World → Option (e.Result × World)} {r : e.Result}
    (h : Describes i σ w) (he : e ≠ .rollback) (hstatement : e.isStatement = true)
    (hraises : ∀ x, e.Raises x)
    (hact : ∀ H, H.Fits i (w.beginTx i c) → act (w.beginTx i c) = some (r, w') →
      ∃ σ', ordered.next (some H) e r σ' ∧ Describes i σ' w')
    (hexec : w.statement i c act = some (r, w')) :
    ∃ σ', ordered.next σ e r σ' ∧ Describes i σ' w' := by
  unfold World.statement at hexec
  split at hexec
  next hfailed =>
    cases hexec
    refine ⟨_, next_error he (hraises _), ?_⟩
    rw [hstatement]
    exact hfailed
  next hlive =>
    split at hexec
    · cases hexec
      refine ⟨_, next_error he (hraises _), ?_⟩
      rw [hstatement]
      simp [Describes, World.fail, Session.fail]
    · cases σ with
      | none => exact absurd h hlive
      | some H =>
          refine hact H ?_ hexec
          exact describes_of_eq (σ := some H) h (by simp [World.beginTx, Session.beginTx])
            (by simp [World.beginTx, Session.beginTx]) rfl rfl rfl rfl

theorem fits_loadRow (h : H.Fits i w) (row : Ticket) : H.Fits i (w.loadRow i row) := by
  unfold World.loadRow
  split
  · exact h
  next hnone =>
    refine describes_of_eq (σ := some H) h ?_ ?_ rfl rfl rfl rfl <;> simp [Session.load, hnone]

theorem fits_loadRows (h : H.Fits i w) (rows : List Ticket) : H.Fits i (w.loadRows i rows) := by
  induction rows generalizing w with
  | nil => exact h
  | cons row rows ih => exact ih (fits_loadRow h row)

/-- A select of a ticket locks its row, if there is one. -/
theorem fits_selectTicketForUpdate {id : UUID} {r : (Effect.selectTicketForUpdate id).Result}
    (h : H.Fits i w) (hact : w.selectTicketForUpdate i id = some (r, w')) :
    ∃ σ', ordered.next (some H) (.selectTicketForUpdate id) r σ' ∧ Describes i σ' w' := by
  unfold World.selectTicketForUpdate at hact
  split at hact
  · split at hact
    · cases hact
      exact ⟨some H, rfl, h⟩
    next row _ =>
      cases hact
      have hloaded := fits_loadRow h row
      refine ⟨_, rfl, hloaded.live, hloaded.added, fun t => ?_, hloaded.events, hloaded.message,
        hloaded.key⟩
      change acquire w.ticketLock i [id] t = some i ↔ t ∈ id :: H.tickets
      rw [acquire_eq_self_iff, h.tickets t, List.mem_singleton, List.mem_cons]
  · cases hact

/-- A select of stuck tickets locks their rows. -/
theorem fits_selectStuck {olderThan : Time} {limit : ℕ} {ids : List UUID}
    {r : (Effect.selectStuck olderThan limit).Result} (h : H.Fits i w) (hiso : w.Isolated)
    (hmap : (w.session i).identityMap = fun _ => none)
    (hact : w.selectStuck i olderThan limit ids = some (r, w')) :
    ∃ σ', ordered.next (some H) (.selectStuck olderThan limit) r σ' ∧ Describes i σ' w' := by
  unfold World.selectStuck at hact
  split at hact
  next hbatch =>
    cases hact
    have hfound : H.Fits i (w.record (.found i olderThan ids)) :=
      describes_of_eq (σ := some H) h rfl rfl rfl rfl rfl rfl
    have hloaded := fits_loadRows hfound (ids.filterMap w.db.tickets.lookup)
    have hids : ((ids.filterMap w.db.tickets.lookup).map (w.session i).attrs).map (·.id) = ids := by
      have hattrs : ∀ row, (w.session i).attrs row = row := fun row => by
        simp [Session.attrs, hmap]
      rw [List.map_map, show (fun t : Ticket => t.id) ∘ (w.session i).attrs = Ticket.id from
        funext fun row => congrArg Ticket.id (hattrs row)]
      have hkeyed : w.db.tickets.Keyed Ticket.id := by
        rw [hiso.db_eq]
        exact w.log.keyed_database.tickets
      refine hkeyed.map_filterMap fun id hid => ?_
      obtain ⟨row, hrow, -⟩ := (Option.any_eq_true _ _).mp (hbatch.2.2.1 id hid).2
      simp [hrow]
    refine ⟨_, rfl, hloaded.live, hloaded.added, fun t => ?_, hloaded.events, hloaded.message,
      hloaded.key⟩
    change acquire w.ticketLock i ids t = some i ↔
      t ∈ ((ids.filterMap w.db.tickets.lookup).map (w.session i).attrs).map (·.id) ++ H.tickets
    rw [acquire_eq_self_iff, h.tickets t, hids, List.mem_append]
  · cases hact

/-- A flush locks the rows of the tickets that it inserts, their keys and the new events. -/
theorem fits_flush {r : Effect.flush.Result} (h : H.Fits i w)
    (hcoherent : (w.session i).Coherent)
    (hdirty : ∀ k ∈ (w.session i).dirty, w.ticketLock k = some i)
    (hact : w.flush i = some (r, w')) :
    ∃ σ', ordered.next (some H) .flush r σ' ∧ Describes i σ' w' := by
  unfold World.flush at hact
  dsimp only at hact
  split at hact
  next havailable =>
    split at hact
    · cases hact
      exact ⟨none, ⟨trivial, rfl⟩, by simp [Describes, World.fail, Session.fail]⟩
    split at hact
    · cases hact
      exact ⟨none, ⟨trivial, rfl⟩, by simp [Describes, World.fail, Session.fail]⟩
    cases hact
    refine ⟨_, rfl, by simpa [Session.flushed] using h.live,
      by simp [Session.flushed, Holdings.after], fun t => ?_, fun id hid => ?_, h.message,
      fun key hkey => ?_⟩
    · change acquire w.ticketLock i _ t = some i ↔ t ∈ _ ++ H.tickets
      rw [acquire_eq_self_iff, h.tickets t, List.mem_append, ← ticket_mem_locks, ← h.added]
      constructor
      · rintro (hl | ht)
        · obtain ⟨inst, hinst, heq⟩ | ⟨row, hrow, heq | heq⟩ | ⟨row, hrow, heq⟩ :=
            mem_locks_flush hl
          · -- a changed ticket has been locked before
            obtain ⟨k, hk, hmap⟩ := List.mem_filterMap.mp hinst
            obtain rfl : t = inst.loaded.id := Lock.ticket.inj heq
            rw [(hcoherent k inst hmap).1]
            exact .inr ((h.tickets k).1 (hdirty k hk))
          · obtain rfl : t = row.id := Lock.ticket.inj heq
            exact .inl (List.mem_map.mpr ⟨row, List.mem_filterMap.mpr ⟨_, hrow, rfl⟩, rfl⟩)
          · cases heq
          · cases heq
        · exact .inr ht
      · refine Or.imp_left fun ht => ?_
        obtain ⟨row, hrow, rfl⟩ := List.mem_map.mp ht
        obtain ⟨o, ho, heq⟩ := List.mem_filterMap.mp hrow
        cases o with
        | event row => cases heq
        | ticket row' =>
            obtain rfl : row' = row := Option.some.inj heq
            refine ticket_mem_locks.mpr (List.mem_filterMap.mpr ⟨_, List.mem_append_right _
              (List.mem_map.mpr ⟨_, ho, rfl⟩), rfl⟩)
    · have hid : acquire w.eventLock i _ id = some i := hid
      rw [acquire_eq_self_iff, ← event_mem_locks] at hid
      rcases hid with hl | hid
      · obtain ⟨inst, hinst, heq⟩ | ⟨row, hrow, heq | heq⟩ | ⟨row, hrow, heq⟩ := mem_locks_flush hl
        · cases heq
        · cases heq
        · cases heq
        · have hmem : row ∈ H.added.filterMap NewObject.event? :=
            List.mem_filterMap.mpr ⟨_, h.added ▸ hrow, rfl⟩
          simp only [Holdings.after, Bool.or_eq_true, Bool.not_eq_true', List.isEmpty_eq_false_iff]
          exact .inr (List.ne_nil_of_mem hmem)
      · simp [Holdings.after, h.events id hid]
    · have hkey : acquire w.keyLock i _ key = some i := hkey
      rw [acquire_eq_self_iff, ← key_mem_locks] at hkey
      rcases hkey with hl | hkey
      · obtain ⟨inst, hinst, heq⟩ | ⟨row, hrow, heq | heq⟩ | ⟨row, hrow, heq⟩ := mem_locks_flush hl
        · cases heq
        · cases heq
        · have hmem : row ∈ H.added.filterMap NewObject.ticket? :=
            List.mem_filterMap.mpr ⟨_, h.added ▸ hrow, rfl⟩
          simp only [Holdings.after, Bool.or_eq_true, Bool.not_eq_true', List.isEmpty_eq_false_iff]
          exact .inr (List.ne_nil_of_mem hmem)
        · cases heq
      · simp [Holdings.after, h.key key hkey]
  · cases hact

/-- An update of outbox rows locks them, or fails on its text. -/
theorem fits_updateEvents {wr : Write} {r : Except Exn Unit} (h : H.Fits i w)
    (hact : w.updateEvents i wr = some (r, w')) :
    (∃ x, r = .error x ∧ Describes i none w') ∨
      r = .ok () ∧ { H with events := true }.Fits i w' := by
  unfold World.updateEvents at hact
  split at hact
  · split at hact
    · cases hact
      exact .inl ⟨_, rfl, by simp [Describes, World.fail, Session.fail]⟩
    · cases hact
      exact .inr ⟨rfl, by simpa using h.live, by simpa using h.added, h.tickets, fun _ _ => rfl,
        h.message, h.key⟩
  · cases hact

/-- A claim of a message locks its key. -/
theorem fits_insertInbox {messageId : UUID} {messageType : String} {ticketId : Option UUID}
    {r : (Effect.insertInbox messageId messageType ticketId).Result} (h : H.Fits i w)
    (hact : w.insertInbox i messageId messageType ticketId = some (r, w')) :
    ∃ σ', ordered.next (some H) (.insertInbox messageId messageType ticketId) r σ' ∧
      Describes i σ' w' := by
  unfold World.insertInbox at hact
  split at hact
  · split at hact
    · cases hact
      refine ⟨_, rfl, h.live, h.added, h.tickets, h.events, fun id hid => ?_, h.key⟩
      simp [Holdings.after, h.message id hid]
    · cases hact
      exact ⟨_, rfl, by simpa using h.live, by simpa [Holdings.after] using h.added, h.tickets,
        h.events, fun _ _ => by simp [Holdings.after], h.key⟩
  · cases hact

/-- The end of a transaction releases its locks. -/
theorem fits_releaseLocks {s : Session} (hfailed : s.failed = false) {objects : List NewObject}
    (hadded : s.added = objects) {v : World} (hv : v.session i = s) :
    { added := objects : Holdings }.Fits i (v.releaseLocks i) where
  live := by
    change (v.session i).failed = false
    rw [hv, hfailed]
  added := by
    change (v.session i).added = objects
    rw [hv, hadded]
  tickets t := ⟨fun ht => absurd ht release_ne_self, nofun⟩
  events t ht := absurd ht release_ne_self
  message t ht := absurd ht release_ne_self
  key t ht := absurd ht release_ne_self

/-- An answer that leaves the session and the locks as they are. -/
theorem describes_same {r : e.Result} (h : Describes i σ w) (he : e ≠ .rollback)
    (hafter : ∀ H a, Holdings.after H e a = H) (hstatement : e.isStatement = false)
    (hraises : ∀ x, r = .error x → e.Raises x)
    (hw : Describes i σ w → Describes i σ w') : ∃ σ', ordered.next σ e r σ' ∧ Describes i σ' w' := by
  cases r with
  | ok a =>
      refine ⟨_, next_ok he a, ?_⟩
      rw [funext fun H => hafter H a, Option.map_id']
      exact hw h
  | error x =>
      refine ⟨_, next_error he (hraises x rfl), ?_⟩
      rw [hstatement]
      exact hw h

/-- An effect that meets the guarantee changes locks as the contract says. -/
theorem describes_exec [Codecs] {r : e.Result} (hiso : w.Isolated) (hguar : Guarantee i e w)
    (h : Describes i σ w) (hexec : e.exec i c w = some (r, w')) :
    ∃ σ', ordered.next σ e r σ' ∧ Describes i σ' w' := by
  have hiso' : (w.beginTx i c).Isolated := World.acts_beginTx.isolated hiso
  cases e with
  | utcNow =>
      obtain ⟨-, -, heq⟩ := Option.map_eq_some_iff.mp hexec
      cases heq
      exact describes_same h (by simp) (fun _ _ => rfl) rfl (by simp) id
  | uuid4 =>
      obtain ⟨u, -, heq⟩ := Option.map_eq_some_iff.mp hexec
      cases heq
      exact describes_same h (by simp) (fun _ _ => rfl) rfl (by simp) id
  | selectTicketForUpdate id =>
      simp only [Effect.exec] at hexec
      exact exec_statement h (by simp) rfl (fun _ => trivial)
        (fun _ => fits_selectTicketForUpdate) hexec
  | selectTicketByKey key =>
      simp only [Effect.exec] at hexec
      refine exec_statement h (by simp) rfl (fun _ => trivial) (fun H hH hact => ?_) hexec
      unfold World.selectTicketByKey at hact
      split at hact
      · cases hact
        exact ⟨some H, rfl, describes_of_eq (σ := some H) hH rfl rfl rfl rfl rfl rfl⟩
      next row _ =>
        cases hact
        have hlooked : H.Fits i ((w.beginTx i c).record (.looked i key (some row.id))) :=
          describes_of_eq (σ := some H) hH rfl rfl rfl rfl rfl rfl
        exact ⟨some H, rfl, fits_loadRow hlooked row⟩
  | selectStuck olderThan limit =>
      simp only [Effect.exec] at hexec
      refine exec_statement h (by simp) rfl (fun _ => trivial) (fun H hH hact => ?_) hexec
      obtain ⟨ids, -, hids⟩ := Option.bind_eq_some_iff.mp hact
      exact fits_selectStuck hH hiso'
        (by simp [World.beginTx, Session.beginTx, hguar.1]) hids
  | selectPending limit =>
      simp only [Effect.exec] at hexec
      refine exec_statement h (by simp) rfl (fun _ => trivial) (fun H hH hact => ?_) hexec
      obtain ⟨ids, -, hids⟩ := Option.bind_eq_some_iff.mp hact
      unfold World.selectPending at hids
      split at hids
      · cases hids
        exact ⟨_, rfl, hH.live, hH.added, hH.tickets, fun _ _ => rfl, hH.message, hH.key⟩
      · cases hids
  | insertInbox messageId messageType ticketId =>
      simp only [Effect.exec] at hexec
      exact exec_statement h (by simp) rfl (fun _ => trivial) (fun _ => fits_insertInbox) hexec
  | updatePublished ids publishedAt =>
      simp only [Effect.exec] at hexec
      refine exec_statement h (by simp) rfl (fun _ => trivial) (fun H hH hact => ?_) hexec
      obtain ⟨x, rfl, hnone⟩ | ⟨rfl, hfits⟩ := fits_updateEvents hH hact
      · exact ⟨none, ⟨trivial, rfl⟩, hnone⟩
      · exact ⟨_, rfl, hfits⟩
  | updateFailed id error =>
      simp only [Effect.exec] at hexec
      refine exec_statement h (by simp) rfl (fun _ => trivial) (fun H hH hact => ?_) hexec
      obtain ⟨x, rfl, hnone⟩ | ⟨rfl, hfits⟩ := fits_updateEvents hH hact
      · exact ⟨none, ⟨trivial, rfl⟩, hnone⟩
      · exact ⟨_, rfl, hfits⟩
  | assign t =>
      obtain ⟨-, -, heq⟩ := Option.map_eq_some_iff.mp hexec
      cases heq
      refine describes_same h (by simp) (fun _ _ => rfl) rfl (by simp) fun h => ?_
      refine describes_of_eq h ?_ ?_ rfl rfl rfl rfl <;>
        · simp only [World.session_setSession_self, Session.assign]
          split <;> rfl
  | readAttribute id =>
      obtain ⟨-, -, heq⟩ := Option.map_eq_some_iff.mp hexec
      obtain ⟨-, rfl⟩ := Prod.mk.inj heq
      exact describes_same h (by simp) (fun _ _ => rfl) rfl (fun _ _ => trivial) fun h => h
  | add o =>
      obtain ⟨-, -, heq⟩ := Option.map_eq_some_iff.mp hexec
      cases heq
      refine ⟨_, rfl, ?_⟩
      cases σ with
      | none => simpa [Describes, Session.add] using h
      | some H =>
          exact ⟨by simpa [Session.add] using h.live, by simp [Session.add, Holdings.after, h.added],
            h.tickets, h.events, h.message, h.key⟩
  | flush =>
      simp only [Effect.exec] at hexec
      split at hexec
      next hnothing =>
        cases hexec
        refine ⟨_, rfl, ?_⟩
        cases σ with
        | none => exact h
        | some H =>
            have hadded : H.added = [] := h.added.symm.trans (by simpa using hnothing.2)
            refine ⟨h.live, ?_, ?_, ?_, h.message, ?_⟩ <;>
              simp only [Holdings.after, hadded]
            · exact h.added.trans hadded
            · exact h.tickets
            · simpa using h.events
            · simpa using h.key
      · refine exec_statement h (by simp) rfl (fun _ => trivial) (fun H hH hact => ?_) hexec
        exact fits_flush hH (hiso'.coherent i)
          (fun k hk => hguar k (by simpa [World.beginTx, Session.beginTx] using hk)) hact
  | commit =>
      simp only [Effect.exec] at hexec
      split at hexec
      next hfailed =>
        cases hexec
        exact ⟨none, ⟨trivial, rfl⟩, hfailed⟩
      next hlive =>
        split at hexec
        · cases hexec
          cases σ with
          | none => exact absurd h hlive
          | some H =>
              refine ⟨_, rfl, fits_releaseLocks (s := (w.session i).committed w.now)
                (by simpa [Session.committed] using hlive) ?_ (by simp)⟩
              exact h.added
        · cases hexec
          exact ⟨none, ⟨trivial, rfl⟩, by simp [Describes, World.fail, Session.fail]⟩
        · cases hexec
  | rollback =>
      obtain ⟨-, -, heq⟩ := Option.map_eq_some_iff.mp hexec
      cases heq
      exact ⟨some {}, rfl, fits_releaseLocks (s := {}) rfl rfl (by simp)⟩
  | processTicket id action reason =>
      simp only [Effect.exec, World.call] at hexec
      split at hexec
      · cases hexec
        exact describes_same h (by simp) (fun _ _ => rfl) rfl (by simp) fun h =>
          describes_of_eq h rfl rfl rfl rfl rfl rfl
      · cases hexec
        refine describes_same h (by simp) (fun _ _ => rfl) rfl (fun x hx => ?_) fun h =>
          describes_of_eq h rfl rfl rfl rfl rfl rfl
        cases hx
        exact ⟨_, rfl⟩
      · cases hexec
  | publish key messageId body =>
      simp only [Effect.exec, World.call] at hexec
      split at hexec <;> cases hexec <;>
        exact describes_same h (by simp) (fun _ _ => rfl) rfl (fun _ _ => trivial) fun h =>
          describes_of_eq h rfl rfl rfl rfl rfl rfl
  | receive q =>
      obtain ⟨n, -, hn⟩ := Option.bind_eq_some_iff.mp hexec
      simp only [World.receive] at hn
      split at hn
      · cases hn
        exact describes_same h (by simp) (fun _ _ => rfl) rfl (by simp) fun h =>
          describes_of_eq h rfl rfl rfl rfl rfl rfl
      · cases hn
  | ack | nack | countTransition fromStatus toStatus | request key r | respond result =>
      obtain ⟨-, -, heq⟩ := Option.map_eq_some_iff.mp hexec
      cases heq
      exact describes_same h (by simp) (fun _ _ => rfl) rfl (by simp) fun h =>
        describes_of_eq h rfl rfl rfl rfl rfl rfl
  | send m =>
      simp only [Effect.exec, World.send] at hexec
      split at hexec <;> cases hexec <;>
        exact describes_same h (by simp) (fun _ _ => rfl) rfl (fun _ _ => trivial) fun h =>
          describes_of_eq h rfl rfl rfl rfl rfl rfl
  | sendAck messageId =>
      simp only [Effect.exec, World.call] at hexec
      split at hexec <;> cases hexec <;>
        exact describes_same h (by simp) (fun _ _ => rfl) rfl (fun _ _ => trivial) fun h =>
          describes_of_eq h rfl rfl rfl rfl rfl rfl

end Exec

section General

variable [Codecs]

open Holdings in
/-- The contract of ordered locking is sound for every run. -/
theorem ordered_sound :
    ordered.Sound machine (fun _ _ => True) World.Isolated Describes (some {}) {} where
  inv_init := World.isolated_initial
  fits_init _ := ⟨rfl, rfl, by simp, nofun, nofun, nofun⟩
  exec := by
    intro s s' i σ e c r hrun _ ⟨cont, hthread⟩ hexec hiso hfits _
    have hacts := World.exec_acts hiso hexec
    exact ⟨hacts.isolated hiso,
      describes_exec hiso (discipline_sound.guarantee hrun hthread) hfits hexec,
      fun j τ hj hτ => hacts.describes hiso hj hτ⟩
  crash := by
    intro i w hiso
    have hacts : World.Acts i w (w.crash i) := World.crash_acts
    refine ⟨hacts.isolated hiso, ⟨some {}, ?_⟩, fun j τ hj hτ => hacts.describes hiso hj hτ⟩
    have hrollback : ({} : Holdings).Fits i (w.rollback i) :=
      fits_releaseLocks (s := {}) rfl rfl (by simp)
    change Describes i (some {}) (w.crash i)
    unfold World.crash
    dsimp only
    split
    · exact describes_of_eq (σ := some {}) hrollback rfl rfl rfl rfl rfl rfl
    · exact hrollback
  environment := by
    intro elapsed w hiso
    exact ⟨hiso.tick elapsed, fun i σ h => describes_of_eq h rfl rfl rfl rfl rfl rfl⟩
  program := Ordered.program

namespace System

variable {s : System}

/-- In every reachable state, a transaction that waits for a lock holds only locks of lower
levels. -/
theorem level_lt_of_waits (hs : s.Reachable) {i : ℕ} {l l' : Lock} (hwaits : s.Waits i l)
    (hholds : s.Holds i l') : l'.level < l.level := by
  obtain ⟨e, cont, hthread, hlive, hl, hother⟩ := hwaits
  obtain ⟨σ, hdescribes, hmay⟩ := ordered_sound.may_of_perform
    (Machine.Reaches.mono (fun _ _ _ => trivial) hs) hthread
  cases σ with
  | none => exact absurd (hdescribes.symm.trans hlive) (by decide)
  | some H =>
  have hmay := hmay H rfl
  have hguar := discipline_sound.guarantee hs hthread
  -- what a transaction holds that has locked no tickets, keys and events
  have hfree : H.Free → l'.level = 0 := by
    rintro ⟨htickets, hkey, hevents⟩
    cases l' with
    | ticket t =>
        have := (hdescribes.tickets t).1 hholds
        simp [htickets] at this
    | event id => simp [hdescribes.events id hholds] at hevents
    | message id => rfl
    | key key => simp [hdescribes.key key hholds] at hkey
  cases e with
  | selectTicketForUpdate id =>
      obtain rfl := List.mem_singleton.mp hl
      -- the row has been locked before, or nothing but an inbox key has
      rcases hmay with hlocked | hnone
      · exact absurd ((hdescribes.tickets id).2 hlocked) hother
      · rw [hfree hnone]
        exact Nat.zero_lt_one
  | insertInbox messageId messageType ticketId =>
      obtain ⟨⟨htickets, hkey, hevents⟩, hmessage⟩ := hmay
      cases l' with
      | ticket t => simpa [htickets] using (hdescribes.tickets t).1 hholds
      | event id => simp [hdescribes.events id hholds] at hevents
      | message id => simp [hdescribes.message id hholds] at hmessage
      | key key => simp [hdescribes.key key hholds] at hkey
  | updatePublished ids publishedAt =>
      obtain ⟨id, hid, rfl⟩ := List.mem_map.mp hl
      exact absurd (hguar id hid) hother
  | updateFailed id error =>
      obtain rfl := List.mem_singleton.mp hl
      exact absurd hguar hother
  | flush =>
      obtain ⟨hnew, hevent⟩ := hmay
      obtain ⟨inst, hinst, rfl⟩ | ⟨row, hrow, hl⟩ | ⟨row, hrow, rfl⟩ := mem_locks_flush hl
      · -- a changed ticket has been locked before
        obtain ⟨k, hk, hmap⟩ := List.mem_filterMap.mp hinst
        have hlocked := hguar k hk
        rw [← (((System.isolated hs).coherent i) k inst hmap).1] at hlocked
        exact absurd hlocked hother
      · have hmem : row ∈ H.added.filterMap NewObject.ticket? :=
          List.mem_filterMap.mpr ⟨_, hdescribes.added ▸ hrow, rfl⟩
        rw [hfree (hnew (List.ne_nil_of_mem hmem))]
        rcases hl with rfl | rfl
        · exact Nat.zero_lt_one
        · exact Nat.zero_lt_one
      · have hmem : row ∈ H.added.filterMap NewObject.event? :=
          List.mem_filterMap.mpr ⟨_, hdescribes.added ▸ hrow, rfl⟩
        have hnone := hevent (List.ne_nil_of_mem hmem)
        cases l' with
        | event id => simp [hdescribes.events id hholds] at hnone
        | _ => simp [Lock.level]
  | _ => cases hl

/-- In no reachable state is there a cycle of transactions that each wait for a lock that the next
one holds. -/
theorem no_deadlock (hs : s.Reachable) (i : ℕ) : ¬ Relation.TransGen s.WaitsFor i i := by
  have horder : ∀ i l, s.Waits i l → ∀ l', s.Holds i l' → l'.level < l.level :=
    fun i l hwaits l' hholds => level_lt_of_waits hs hwaits hholds
  exact not_transGen_waitsFor horder i

omit [Codecs] in
/-- Whether a transaction waits for another is read off the next effect of its thread. -/
theorem waitsFor_iff {i j : ℕ} : s.WaitsFor i j ↔
    match s.threads i with
    | .done _ => False
    | .perform e _ => (s.world.session i).failed = false ∧
        ∃ l ∈ e.locks (s.world.session i), l.holder s.world = some j ∧ j ≠ i := by
  constructor
  · rintro ⟨l, ⟨e, cont, hthread, hlive, hl, hother⟩, hholds⟩
    rw [hthread]
    exact ⟨hlive, l, hl, hholds, fun hij => hother (hij ▸ hholds)⟩
  · intro h
    cases hthread : s.threads i with
    | done a =>
        rw [hthread] at h
        exact h.elim
    | perform e cont =>
        rw [hthread] at h
        obtain ⟨hlive, l, hl, hholds, hij⟩ := h
        exact ⟨l, ⟨e, cont, hthread, hlive, hl, fun hi =>
          hij (Option.some.inj (hholds.symm.trans hi))⟩, hholds⟩

instance (s : System) (i j : ℕ) : Decidable (s.WaitsFor i j) :=
  match hthread : s.threads i with
  | .done _ => isFalse (by rw [waitsFor_iff, hthread]; exact id)
  | .perform e _ => decidable_of_iff ((s.world.session i).failed = false ∧
      ∃ l ∈ e.locks (s.world.session i), l.holder s.world = some j ∧ j ≠ i)
      (by rw [waitsFor_iff, hthread])

end System

end General

open Script in
/-- A duplicate of an uncommitted message waits, and nothing waits for it. -/
theorem System.no_deadlock_claimed : ∃ s : System, s.Reachable ∧ s.WaitsFor 2 1 ∧
    ¬ Relation.TransGen s.WaitsFor 2 2 := by
  obtain ⟨s, hs, hwaits⟩ := System.exists_reaches (s := System.initial) anyEntry
    ([.start (.recieveFromProvider [recommendation 10 1 .accept, recommendation 10 1 .accept])] ++
      runs 0 (ok 4) ++ [.start .handle] ++ runs 1 (deliver 0 ++ ok 1) ++
      [.start .handle] ++ runs 2 (deliver 0))
    (fun s => s.WaitsFor 2 1) (by decide +kernel)
  simp only [decide_eq_true_eq] at hwaits
  exact ⟨s, hs.run, hwaits, System.no_deadlock hs.run 2⟩

end RiskProvider

import RiskProvider.Interleaving.Conclusions
import RiskProvider.Locking
import RiskProvider.Moves

/-!
# What a thread has in its custody

A handler takes locks and a delivery on behalf of its transaction and its message. `Custody` says
which of them it may still have, `releasing` how effects change that. It allows every effect, so what
it says of a program depends only on the effects with which the program ends.

* `Clear`: a thread whose session is new and that holds no lock.
* `Custody.Fits.exec`: the custody of a thread describes the world after its effects.
-/

namespace RiskProvider

open Interleaving

/-- Thread `i` has no transaction and holds no lock. -/
def Clear (i : ℕ) (w : World) : Prop := w.session i = {} ∧ ∀ l : Lock, l.holder w ≠ some i

/-- What a thread may have taken and not given back, and whether it has acted at all. -/
structure Custody where
  /-- It may have a transaction. -/
  session : Bool := false
  /-- It may have a delivery. -/
  delivery : Bool := false
  /-- It has done something that others can see. -/
  acted : Bool := false

namespace Effect

/-- The effect changes the session of its thread. -/
def touchesSession : Effect → Bool
  | selectTicketForUpdate _ | selectTicketByKey _ | selectStuck _ _ | selectPending _
  | insertInbox _ _ _ | updatePublished _ _ | updateFailed _ _ | assign _ | add _ | flush
  | commit => true
  | _ => false

/-- The effect is one with which handlers begin to act. -/
def begins : Effect → Bool
  | selectStuck _ _ | selectPending _ | publish _ _ _ | request _ _ => true
  | _ => false

end Effect

/-- The contract that keeps account of custodies. -/
def releasing : Undertaking Custody where
  may _ _ := True
  next
    | κ, .rollback, .ok _, κ' => κ' = { κ with session := false }
    | κ, .receive _, .ok _, κ' => κ.acted = false ∧ κ' = { κ with delivery := true, acted := true }
    | κ, .ack, .ok _, κ' | κ, .nack, .ok _, κ' => κ' = { κ with delivery := false }
    | _, .rollback, .error _, _ | _, .receive _, .error _, _ | _, .ack, .error _, _
    | _, .nack, .error _, _ => False
    | κ, e, r, κ' =>
        κ' = { κ with
          session := κ.session || e.touchesSession
          acted := κ.acted || (e.begins && r.isOk) }

/-- The effect has a rule of its own in `releasing`. -/
def Effect.isEnd : Effect → Bool
  | rollback | receive _ | ack | nack => true
  | _ => false

theorem releasing_next {e : Effect} (h : e.isEnd = false) {κ κ' : Custody} {r : e.Result} :
    releasing.next κ e r κ' ↔ κ' = { κ with
      session := κ.session || e.touchesSession
      acted := κ.acted || (e.begins && r.isOk) } := by
  cases e <;> cases r <;> first | exact Iff.rfl | cases h

/-- The custody of a thread, as far as it describes the world. -/
structure Custody.Fits (i : ℕ) (κ : Custody) (w : World) : Prop where
  session : κ.session = false → Clear i w
  delivery : κ.delivery = false → w.broker.unacked i = none
  acted : κ.acted = true → w.log.actions i ≠ []

namespace World

variable {w w' : World} {i j : ℕ} {e : Effect} {c : Choice} {α : Type}

/-- Nothing about the sessions and the locks changes. -/
theorem clear_of_eq (h : Clear i w) (hsession : w'.session i = w.session i)
    (hticket : w'.ticketLock = w.ticketLock) (hevent : w'.eventLock = w.eventLock)
    (hinbox : w'.inboxLock = w.inboxLock) (hkey : w'.keyLock = w.keyLock) : Clear i w' := by
  refine ⟨hsession.trans h.1, fun l => ?_⟩
  have hholder : l.holder w' = l.holder w := by
    cases l <;> simp [Lock.holder, hticket, hevent, hinbox, hkey]
  rw [hholder]
  exact h.2 l

/-- The session of a transaction that is rolled back is new, and its locks are free. -/
theorem clear_rollback (w : World) (i : ℕ) : Clear i (w.rollback i) := by
  refine ⟨by simp [rollback], fun l => ?_⟩
  cases l <;> exact release_ne_self

/-- The moves of one thread give no other thread a lock. -/
theorem Acts.clear (hacts : Acts i w w') (hiso : w.Isolated) (hj : j ≠ i) (h : Clear j w) :
    Clear j w' := by
  have hview := Acts.frame hacts hiso hj
  refine ⟨(congrArg View.session hview).trans h.1, fun l hl => h.2 l ?_⟩
  cases l with
  | ticket id => exact (held_eq_iff (congrArg View.tickets hview) id).1 hl
  | event id => exact (held_eq_iff (congrArg View.events hview) id).1 hl
  | message id => exact (held_eq_iff (congrArg View.claims hview) id).1 hl
  | key k => exact (Acts.keyLock_iff hacts hj k).1 hl

/-- An effect that does not touch its session records at most an entry. -/
theorem exec_untouched [Codecs] {r : e.Result} (hkind : e.touchesSession = false)
    (hrollback : e ≠ .rollback) (h : e.exec i c w = some (r, w')) :
    w' = w ∨ ∃ entry, w' = w.record entry := by
  have hcall : ∀ {entry : Option String → Entry} {exn : String → Exn} {r : Except Exn Unit},
      w.call c entry exn = some (r, w') → ∃ entry, w' = w.record entry := by
    intro entry exn r h
    unfold call at h
    split at h
    · cases h
      exact ⟨_, rfl⟩
    · cases h
      exact ⟨_, rfl⟩
    · cases h
  cases e with
  | utcNow | uuid4 =>
      obtain ⟨_, -, heq⟩ := Option.map_eq_some_iff.mp h
      cases heq
      exact .inl rfl
  | readAttribute id =>
      obtain ⟨-, -, heq⟩ := Option.map_eq_some_iff.mp h
      exact .inl (Prod.mk.inj heq).2.symm
  | processTicket id action reason => exact .inr (hcall h)
  | publish routingKey messageId body => exact .inr (hcall h)
  | sendAck messageId => exact .inr (hcall h)
  | receive q =>
      obtain ⟨n, -, hn⟩ := Option.bind_eq_some_iff.mp h
      simp only [receive] at hn
      split at hn
      · cases hn
        exact .inr ⟨_, rfl⟩
      · cases hn
  | ack | nack | countTransition fromStatus toStatus | request key request | respond result =>
      obtain ⟨_, -, heq⟩ := Option.map_eq_some_iff.mp h
      cases heq
      exact .inr ⟨_, rfl⟩
  | send m =>
      simp only [Effect.exec, send] at h
      split at h <;> cases h <;> exact .inr ⟨_, rfl⟩
  | rollback => exact absurd rfl hrollback
  | _ => cases hkind

/-- Only a receipt gives a thread a delivery. -/
theorem Moves.unacked (hmoves : Moves i e w w') (hreceive : ∀ q, e ≠ .receive q)
    (h : w.log.broker.unacked i = none) : w'.log.broker.unacked i = none := by
  induction hmoves with
  | refl => exact h
  | @tail w₁ w₂ _ hmove ih =>
      cases hmove with
      | record entry hthread hquiet haction hreceived =>
          change (w₁.log.broker.after entry).unacked i = none
          cases entry with
          | received j q n d => exact absurd (hreceived j q n d rfl) (hreceive q)
          | acked j =>
              obtain rfl : j = i := hthread
              exact Broker.unacked_ack_self _
          | returned j =>
              obtain rfl : j = i := hthread
              simp [Broker.after, Broker.nack, ih]
          | published j routingKey messageId body ok =>
              cases ok with
              | false => exact ih
              | true => simpa [Broker.after] using ih
          | _ => exact ih
      | lock hdb hlog hsession => exact hlog ▸ ih
      | _ => exact ih

/-- What a thread has done stays done. -/
theorem Moves.acted (hmoves : Moves i e w w') (h : w.log.actions i ≠ []) :
    w'.log.actions i ≠ [] := by
  induction hmoves with
  | refl => exact h
  | @tail w₁ w₂ _ hmove ih =>
      have hcons : ∀ entry : Entry, History.actions i (entry :: w₁.log) ≠ [] := by
        intro entry
        unfold History.actions
        rw [List.filter_cons]
        split
        · simp
        · exact ih
      cases hmove with
      | record entry hthread hquiet haction hreceived => exact hcons entry
      | lock hdb hlog hsession => exact hlog ▸ ih
      | commit => exact hcons _
      | _ => exact ih

theorem statement_ok {act : World → Option (Except Exn α × World)} {a : α}
    (h : w.statement i c act = some (.ok a, w')) : act (w.beginTx i c) = some (.ok a, w') := by
  unfold statement at h
  split at h
  · cases h
  split at h
  · cases h
  · exact h

/-- A handler that has begun to act has acted. -/
theorem actions_of_begins [Codecs] {r : e.Result} (hbegins : e.begins = true)
    (hok : r.isOk = true) (h : e.exec i c w = some (r, w')) : w'.log.actions i ≠ [] := by
  have hself : ∀ (w : World) (entry : Entry), entry.thread = i → entry.isAction = true →
      History.actions i (w.record entry).log ≠ [] := by
    intro w entry hthread haction
    have : History.actionOf i entry = true := by simp [History.actionOf, hthread, haction]
    change History.actions i (entry :: w.log) ≠ []
    rw [History.actions, List.filter_cons_of_pos this]
    simp
  cases r with
  | error x => cases hok
  | ok a =>
    cases e with
    | selectStuck olderThan limit =>
        simp only [Effect.exec] at h
        obtain ⟨ids, -, hids⟩ := Option.bind_eq_some_iff.mp (statement_ok h)
        unfold selectStuck at hids
        split at hids
        · cases hids
          rename_i hbatch
          have hview := view_loadRows_self (w := (w.beginTx i c).record (.found i olderThan ids))
            (i := i) (ids.filterMap (w.beginTx i c).db.tickets.lookup)
          have hacts := congrArg View.actions hview
          change History.actions i _ = _ at hacts
          change History.actions i (World.loadRows _ i _).log ≠ []
          rw [hacts]
          exact hself (w.beginTx i c) _ rfl rfl
        · cases hids
    | selectPending limit =>
        simp only [Effect.exec] at h
        obtain ⟨ids, -, hids⟩ := Option.bind_eq_some_iff.mp (statement_ok h)
        unfold selectPending at hids
        split at hids
        · cases hids
          exact hself (w.beginTx i c) _ rfl rfl
        · cases hids
    | publish routingKey messageId body =>
        simp only [Effect.exec, call] at h
        split at h <;> cases h
        exact hself w _ rfl rfl
    | request key request =>
        obtain ⟨_, -, heq⟩ := Option.map_eq_some_iff.mp h
        cases heq
        exact hself w _ rfl rfl
    | _ => cases hbegins

end World

/-! ### Soundness -/

namespace Custody.Fits

variable {w w' : World} {i : ℕ} {e : Effect} {c : Choice} {κ : Custody}

/-- Another thread acts. -/
theorem frame {j : ℕ} (h : κ.Fits j w) (hacts : World.Acts i w w') (hiso : w.Isolated)
    (hj : j ≠ i) : κ.Fits j w' := by
  have hview := World.Acts.frame hacts hiso hj
  have hunacked : w'.broker.unacked j = w.broker.unacked j := congrArg View.unacked hview
  have hactions : w'.log.actions j = w.log.actions j := congrArg View.actions hview
  refine ⟨fun hκ => hacts.clear hiso hj (h.session hκ), fun hκ => ?_, fun hκ => ?_⟩
  · rw [hunacked]
    exact h.delivery hκ
  · rw [hactions]
    exact h.acted hκ

/-- The custody of a thread describes the world after its effects. -/
theorem exec [Codecs] {r : e.Result} (h : κ.Fits i w) (hiso : w.Isolated)
    (hguar : Guarantee i e w) (hexec : e.exec i c w = some (r, w')) :
    ∃ κ', releasing.next κ e r κ' ∧ κ'.Fits i w' := by
  have hmoves := World.exec_moves hiso hguar hexec
  have hiso' : w'.Isolated := (World.exec_acts hiso hexec).isolated hiso
  by_cases hend : e.isEnd = false
  · refine ⟨_, (releasing_next hend).2 rfl, ?_, ?_, ?_⟩
    · intro hκ
      obtain ⟨hκ, htouches⟩ := Bool.or_eq_false_iff.mp hκ
      have hclear := h.session hκ
      have hrollback : e ≠ .rollback := by
        rintro rfl
        cases hend
      rcases World.exec_untouched htouches hrollback hexec with rfl | ⟨entry, rfl⟩
      · exact hclear
      · exact World.clear_of_eq hclear rfl rfl rfl rfl rfl
    · intro hκ
      have hreceive : ∀ q, e ≠ .receive q := by
        rintro q rfl
        cases hend
      rw [hiso'.broker_eq]
      exact hmoves.unacked hreceive (hiso.broker_eq ▸ h.delivery hκ)
    · intro hκ
      rcases (Bool.or_eq_true _ _).mp hκ with hκ | hκ
      · exact hmoves.acted (h.acted hκ)
      · obtain ⟨hbegins, hok⟩ := (Bool.and_eq_true _ _).mp hκ
        exact World.actions_of_begins hbegins hok hexec
  · cases e with
    | rollback =>
        obtain ⟨-, -, heq⟩ := Option.map_eq_some_iff.mp hexec
        cases heq
        exact ⟨_, rfl, fun _ => World.clear_rollback w i, h.delivery, h.acted⟩
    | receive q =>
        obtain ⟨n, -, hn⟩ := Option.bind_eq_some_iff.mp hexec
        simp only [World.receive] at hn
        split at hn
        next d hd =>
          cases hn
          have hfirst : w.log.actions i = [] := by
            cases hguar n d hd with
            | received hacts hqueue => exact hacts
          -- a handler receives a message before it does anything else
          have hacted : κ.acted = false := by
            by_contra hκ
            exact h.acted (Bool.eq_true_of_not_eq_false hκ) hfirst
          refine ⟨_, ⟨hacted, rfl⟩, fun hκ => ?_, by simp, fun _ => ?_⟩
          · exact World.clear_of_eq (h.session hκ) rfl rfl rfl rfl rfl
          · have haction : History.actionOf i (.received i q n d) = true := by
              simp [History.actionOf, Entry.thread, Entry.isAction]
            change History.actions i (.received i q n d :: w.log) ≠ []
            rw [History.actions, List.filter_cons_of_pos haction]
            simp
        · cases hn
    | ack =>
        obtain ⟨-, -, heq⟩ := Option.map_eq_some_iff.mp hexec
        cases heq
        refine ⟨_, rfl, fun hκ => World.clear_of_eq (h.session hκ) rfl rfl rfl rfl rfl,
          fun _ => ?_, fun hκ => hmoves.acted (h.acted hκ)⟩
        exact Broker.unacked_ack_self _
    | nack =>
        obtain ⟨-, -, heq⟩ := Option.map_eq_some_iff.mp hexec
        cases heq
        refine ⟨_, rfl, fun hκ => World.clear_of_eq (h.session hκ) rfl rfl rfl rfl rfl,
          fun _ => ?_, fun hκ => hmoves.acted (h.acted hκ)⟩
        exact Broker.unacked_nack_self _
    | _ => exact absurd rfl hend

/-- A thread that has died has nothing in its custody. -/
theorem crash (w : World) (i : ℕ) : ({} : Custody).Fits i (w.crash i) := by
  have hclear := World.clear_rollback w i
  refine ⟨fun _ => ?_, fun _ => ?_, fun hκ => by cases hκ⟩
  · rcases World.crash_eq (w := w) (i := i) with h | h
    · rw [h]
      exact hclear
    · rw [h]
      exact World.clear_of_eq hclear rfl rfl rfl rfl rfl
  · unfold World.crash
    dsimp only
    split
    · exact Broker.unacked_nack_self _
    · rename_i hunacked
      simpa using hunacked

end Custody.Fits

end RiskProvider

import RiskProvider.Release.Contract

/-!
# Nothing is left behind

What a handler takes it gives back: `System.running_of_custody` says of every reachable state that
the owner of a transaction, of a lock or of a delivery is a handler that still runs. A handler that
has returned, has raised or has died leaves nothing that another one waits for.
-/

namespace RiskProvider

open Interleaving

namespace Custody

variable {α β : Type} {κ κ' : Custody}

/-- Nothing is left to give back. -/
def Settled (κ : Custody) : Prop := κ.session = false ∧ κ.delivery = false

/-- The thread has no delivery and receives none any more. -/
def Kept (κ : Custody) : Prop := κ.acted = true ∧ κ.delivery = false

/-- A thread that has acted receives nothing. -/
theorem Kept.next {e : Effect} {r : e.Result} (h : κ.Kept) (hnext : releasing.next κ e r κ') :
    κ'.Kept := by
  obtain ⟨hacted, hdelivery⟩ := h
  -- only a receipt and the end of a session or of a delivery do more than note that it acts
  by_cases hend : e.isEnd = false
  · rw [(releasing_next hend).1 hnext]
    exact ⟨by simp [hacted], hdelivery⟩
  · cases e with
    | rollback => cases r with
      | ok _ =>
          obtain rfl := hnext
          exact ⟨hacted, hdelivery⟩
      | error x => exact False.elim hnext
    | receive q => cases r with
      | ok body =>
          have hfresh : κ.acted = false := hnext.1
          rw [hacted] at hfresh
          cases hfresh
      | error x => exact False.elim hnext
    | ack | nack => cases r with
      | ok _ =>
          obtain rfl := hnext
          exact ⟨hacted, rfl⟩
      | error x => exact False.elim hnext
    | _ => exact absurd rfl hend

/-- A program of a thread that has acted leaves no delivery. -/
theorem Kept.follows (h : κ.Kept) (p : Program Effect Effect.Result α) :
    releasing.Follows p (fun _ => Kept) κ :=
  Contract.Follows.invariant (fun _ _ _ => trivial) (fun _ _ _ _ h hnext => h.next hnext) p h

end Custody

namespace Releasing

open Custody

variable {α β : Type} {κ : Custody}

/-- The thread has no transaction. -/
abbrev Closed (κ : Custody) : Prop := κ.session = false

/-- Every program may be followed. -/
theorem follows (p : Program Effect Effect.Result α) :
    releasing.Follows p (fun _ _ => True) κ :=
  Contract.Follows.invariant (I := fun _ => True) (fun _ _ _ => trivial)
    (fun _ _ _ _ _ _ => trivial) p trivial

/-- An effect outside the session, which stays closed. -/
theorem effect {e : Effect} {Q : e.Value → Custody → Prop} {F : Exn → Custody → Prop}
    (hend : e.isEnd = false) (htouches : e.touchesSession = false) (hκ : Closed κ)
    (hok : ∀ a κ', Closed κ' → Q a κ') (herror : ∀ x κ', Closed κ' → F x κ') :
    releasing.Fulfils (perform e) Q F κ := by
  have hclosed : ∀ {r : e.Result} {κ'}, releasing.next κ e r κ' → Closed κ' := by
    intro r κ' hnext
    rw [(releasing_next hend).1 hnext]
    simpa [Closed, htouches] using hκ
  exact Undertaking.perform trivial (fun a κ' hnext => hok a κ' (hclosed hnext))
    fun x κ' hnext => herror x κ' (hclosed hnext)

/-- The end of a session closes it, and does not fail. -/
theorem rollback {Q : Unit → Custody → Prop} {F : Exn → Custody → Prop}
    (hok : ∀ κ', Closed κ' → Q () κ') : releasing.Fulfils (perform .rollback) Q F κ := by
  refine Undertaking.perform trivial (fun a κ' hnext => hok κ' ?_) fun x κ' hnext => ?_
  · obtain rfl := hnext
    rfl
  · exact False.elim hnext

/-- Whatever happens in a session, it is closed at the end. -/
theorem scope {body : Py α} {Q : α → Custody → Prop} {F : Exn → Custody → Prop}
    (hok : ∀ a κ', Closed κ' → Q a κ') (herror : ∀ x κ', Closed κ' → F x κ') :
    releasing.Fulfils (AsyncSession.scope body) Q F κ := by
  refine Contract.Fulfils.bind (Undertaking.attempt (Contract.Follows.mono (follows body.run) ?_))
  rintro (x | a) κ' -
  -- an exception rolls the session back before the session ends
  · exact Contract.Fulfils.bind (rollback fun κ₁ _ => Contract.Fulfils.bind
      (rollback fun κ₂ hclosed => herror x κ₂ hclosed))
  · exact Contract.Fulfils.bind (rollback fun κ₁ hclosed => hok a κ₁ hclosed)

/-- The program leaves no transaction, whether it returns or raises. -/
def Closes (p : Py α) : Prop :=
  ∀ κ, Closed κ → releasing.Fulfils p (fun _ => Closed) (fun _ => Closed) κ

theorem closes_scope (body : Py α) : Closes (AsyncSession.scope body) := fun _ _ =>
  scope (fun _ _ h => h) fun _ _ h => h

theorem closes_perform {e : Effect} (hend : e.isEnd = false) (htouches : e.touchesSession = false) :
    Closes (perform e) := fun _ hκ =>
  effect hend htouches hκ (fun _ _ h => h) fun _ _ h => h

theorem closes_pure (a : α) : Closes (pure a : Py α) := fun _ hκ => Contract.Fulfils.pure hκ

theorem closes_throw (x : Exn) : Closes (throw x : Py α) := fun _ hκ => Contract.Fulfils.throw hκ

theorem Closes.bind {p : Py α} {f : α → Py β} (hp : Closes p) (hf : ∀ a, Closes (f a)) :
    Closes (p >>= f) := fun κ hκ =>
  Contract.Fulfils.bind (Contract.Fulfils.mono (hp κ hκ) (fun a κ' h => hf a κ' h) fun _ _ h => h)

theorem Closes.attempt {p : Py α} (hp : Closes p) : Closes (attempt p) := fun κ hκ =>
  Undertaking.attempt (hp κ hκ)

variable [Codecs]

theorem closes_validate (payload : Dict) : Closes (Message.validate payload) := by
  refine Closes.bind (closes_perform rfl rfl) fun messageId => ?_
  refine Closes.bind (closes_perform rfl rfl) fun timestamp => ?_
  cases Message.modelValidate messageId timestamp payload with
  | none => exact closes_throw _
  | some m => exact closes_pure m

theorem closes_handle (payload : Dict) : Closes (ProviderConsumerWorker.handle payload) := by
  refine Closes.bind (closes_validate payload) fun message => ?_
  split
  · exact closes_pure ()
  · exact closes_scope _

omit [Codecs] in
theorem closes_handleMessageSuccessAck (message : Message) :
    Closes (ProviderGatewayWorker.handleMessageSuccessAck message) := by
  unfold ProviderGatewayWorker.handleMessageSuccessAck
  split
  · exact closes_pure ()
  · exact closes_pure ()
  · refine Closes.bind (closes_scope _) fun transition => ?_
    cases transition with
    | none => exact closes_pure ()
    | some previous => exact closes_perform rfl rfl

theorem closes_sendToProvider (payload : Dict) :
    Closes (ProviderGatewayWorker.sendToProvider payload) := by
  refine Closes.bind (closes_validate payload) fun message => ?_
  refine Closes.bind (closes_perform rfl rfl).attempt fun answer => ?_
  cases answer with
  | ok _ => exact closes_handleMessageSuccessAck message
  | error x =>
      cases x with
      | providerAckError code => exact closes_pure ()
      | _ => exact closes_throw _

theorem closes_recieveFromProvider (frames : List Message) :
    Closes (ProviderGatewayWorker.recieveFromProvider frames) := by
  induction frames with
  | nil => exact closes_pure ()
  | cons message frames ih =>
      refine Closes.bind (closes_perform rfl rfl).attempt fun published => ?_
      cases published with
      | error x => exact closes_pure ()
      | ok _ => exact Closes.bind (closes_perform rfl rfl).attempt fun _ => ih

theorem closes_createTicketEndpoint (key : String) (request : CreateTicketRequest) :
    Closes (createTicketEndpoint key request) := by
  refine Closes.bind (closes_perform rfl rfl) fun _ => ?_
  refine Closes.bind (closes_scope _).attempt fun result => ?_
  cases result with
  | ok created => exact closes_perform rfl rfl
  | error x => exact closes_perform rfl rfl

omit [Codecs] in
/-- A program that closes its session, as a thread. -/
theorem toThread {p : Py α} (hp : Closes p) :
    releasing.Follows (toThread p) (fun _ => Closed) {} := by
  refine Contract.Follows.bind (Contract.Follows.mono (hp {} rfl) ?_)
  rintro (x | a) κ hκ
  · exact hκ
  · exact hκ

omit [Codecs] in
/-- A subscriber answers for its delivery, whatever its handler does. -/
theorem subscribe {q : Queue} {handler : Dict → Py Unit} (hhandler : ∀ d, Closes (handler d)) :
    releasing.Follows (RiskProvider.toThread (subscribe q handler)) (fun _ => Settled) {} := by
  -- both answers to a delivery settle the thread, and neither fails
  have hend : ∀ (e : Effect) {κ}, e = .ack ∨ e = .nack → Closed κ →
      releasing.Fulfils (perform e) (fun _ => Settled) (fun _ _ => False) κ := by
    rintro e κ (rfl | rfl) hκ
    · refine Undertaking.perform trivial (fun a κ' hnext => ?_) fun x κ' hnext => hnext
      obtain rfl := hnext
      exact ⟨hκ, rfl⟩
    · refine Undertaking.perform trivial (fun a κ' hnext => ?_) fun x κ' hnext => hnext
      obtain rfl := hnext
      exact ⟨hκ, rfl⟩
  have hthread : releasing.Fulfils (RiskProvider.subscribe q handler) (fun _ => Settled)
      (fun _ _ => False) {} := by
    refine Contract.Fulfils.bind (Undertaking.perform trivial (fun payload κ hnext => ?_)
      fun x κ hnext => hnext)
    obtain rfl := hnext.2
    -- the handler's outcome decides the answer only
    refine Contract.Fulfils.bind (Undertaking.attempt ?_)
    exact Contract.Fulfils.mono (hhandler payload _ rfl) (fun _ κ hκ => hend .ack (.inl rfl) hκ)
      fun _ κ hκ => hend .nack (.inr rfl) hκ
  refine Contract.Follows.bind (Contract.Follows.mono hthread ?_)
  rintro (x | a) κ hκ
  · exact False.elim hκ
  · exact hκ

end Releasing

namespace Custody

variable {α : Type} {κ κ' : Custody}

/-- The program receives nothing, whether it returns or raises. -/
def Ignores (p : Py α) : Prop :=
  ∀ κ : Custody, κ.delivery = false →
    releasing.Fulfils p (fun _ κ' => κ'.delivery = false) (fun _ κ' => κ'.delivery = false) κ

theorem ignores_of_kept {p : Py α} (h : κ.Kept) :
    releasing.Fulfils p (fun _ κ' => κ'.delivery = false) (fun _ κ' => κ'.delivery = false) κ := by
  refine Contract.Follows.mono (h.follows p.run) ?_
  rintro (x | a) κ' hκ'
  · exact hκ'.2
  · exact hκ'.2

/-- An effect with which a handler begins, if it succeeds. -/
theorem begins {e : Effect} {Q : e.Value → Custody → Prop} {F : Exn → Custody → Prop}
    (hbegins : e.begins = true) (hκ : κ.delivery = false) (hok : ∀ a κ', κ'.Kept → Q a κ')
    (herror : ∀ x κ', κ'.delivery = false → F x κ') : releasing.Fulfils (perform e) Q F κ := by
  have hend : e.isEnd = false := by
    cases e <;> first | rfl | cases hbegins
  refine Undertaking.perform trivial (fun a κ' hnext => hok a κ' ?_) fun x κ' hnext =>
    herror x κ' ?_
  · rw [(releasing_next hend).1 hnext]
    exact ⟨by simp [hbegins, Except.isOk, Except.toBool], hκ⟩
  · rw [(releasing_next hend).1 hnext]
    exact hκ

/-- A program that begins to act, or raises, receives nothing. -/
theorem ignores_of_begins {e : Effect} (hbegins : e.begins = true) (f : e.Value → Py α) :
    Ignores (perform e >>= f) := fun _ hκ =>
  Contract.Fulfils.bind (begins hbegins hκ (fun _ _ h => ignores_of_kept h) fun _ _ h => h)

/-- A session of a program that receives nothing. -/
theorem Ignores.scope {body : Py α} (h : Ignores body) : Ignores (AsyncSession.scope body) := by
  -- the end of a session receives nothing, and does not fail
  have hrollback : ∀ {Q : Unit → Custody → Prop} {F : Exn → Custody → Prop} {κ : Custody},
      κ.delivery = false → (∀ κ', κ'.delivery = false → Q () κ') →
      releasing.Fulfils (perform .rollback) Q F κ := by
    intro Q F κ hκ hQ
    refine Undertaking.perform trivial (fun a κ' hnext => hQ κ' ?_) fun x κ' hnext => ?_
    · obtain rfl := hnext
      exact hκ
    · exact False.elim hnext
  intro κ hκ
  refine Contract.Fulfils.bind (Undertaking.attempt (Contract.Fulfils.mono (h κ hκ) ?_ ?_))
  · exact fun a κ' hκ' => Contract.Fulfils.bind (hrollback hκ' fun κ₁ h => h)
  · exact fun x κ' hκ' => Contract.Fulfils.bind (hrollback hκ' fun κ₁ h₁ =>
      Contract.Fulfils.bind (hrollback h₁ fun κ₂ h => h))

variable [Codecs]

theorem ignores_recieveFromProvider (frames : List Message) :
    Ignores (ProviderGatewayWorker.recieveFromProvider frames) := by
  intro κ hκ
  cases frames with
  | nil => exact Contract.Fulfils.pure hκ
  | cons message frames =>
      -- the loop has acted once it has published, and ends when that fails
      refine Contract.Fulfils.bind (Undertaking.attempt (begins rfl hκ ?_ ?_))
      · exact fun _ κ' h => ignores_of_kept h
      · exact fun x κ' h => Contract.Fulfils.pure h

theorem ignores_recoverStuckTickets (stuckAfterSec batchSize : ℕ) :
    Ignores (ReconcilerWorker.recoverStuckTickets stuckAfterSec batchSize) := by
  intro κ hκ
  refine Contract.Fulfils.bind (Undertaking.perform trivial (fun now κ' hnext => ?_)
    fun x κ' hnext => ?_)
  · obtain rfl := (releasing_next rfl).1 hnext
    exact Ignores.scope (ignores_of_begins (e := .selectStuck _ _) rfl _) _ hκ
  · obtain rfl := (releasing_next rfl).1 hnext
    exact hκ

end Custody

/-- A thread that leaves neither a transaction nor a delivery. -/
theorem Releasing.settles {α : Type} {p : Py α} (hcloses : Closes p) (hignores : Custody.Ignores p) :
    releasing.Follows (RiskProvider.toThread p) (fun _ => Custody.Settled) {} := by
  refine (Releasing.toThread hcloses).and ?_
  refine Contract.Follows.bind (Contract.Follows.mono (hignores {} rfl) ?_)
  rintro (x | a) κ hκ
  · exact hκ
  · exact hκ

section General

variable [Codecs]

open Releasing Custody in
/-- Every handler closes its sessions and answers for its delivery. -/
theorem releasing_program (invocation : Invocation) :
    releasing.Follows invocation.program (fun _ => Settled) {} := by
  cases invocation with
  | createTicket key request =>
      exact settles (closes_createTicketEndpoint key request) (ignores_of_begins rfl _)
  | sendBatch batchSize => exact settles (closes_scope _) (ignores_of_begins rfl _).scope
  | sendToProvider => exact Releasing.subscribe closes_sendToProvider
  | recieveFromProvider frames =>
      exact settles (closes_recieveFromProvider frames) (ignores_recieveFromProvider frames)
  | handle => exact Releasing.subscribe closes_handle
  | recoverStuckTickets stuckAfterSec batchSize =>
      exact settles (closes_perform rfl rfl |>.bind fun _ => closes_scope _)
        (ignores_recoverStuckTickets stuckAfterSec batchSize)

/-- The custodies of threads describe the world. -/
theorem releasing_sound : releasing.Sound machine (fun _ _ => True) World.Isolated
    (fun i κ w => κ.Fits i w) {} {} where
  inv_init := World.isolated_initial
  fits_init _ := by
    refine ⟨fun _ => ⟨rfl, fun l => ?_⟩, fun _ => rfl, by simp⟩
    cases l <;> simp [Lock.holder]
  exec := by
    rintro s s' i κ e c r hrun - ⟨cont, hthread⟩ hexec hiso hfits -
    have hacts := World.exec_acts hiso hexec
    exact ⟨hacts.isolated hiso,
      hfits.exec hiso (discipline_sound.guarantee hrun hthread) hexec,
      fun j τ hj hτ => hτ.frame hacts hiso hj⟩
  crash := by
    intro i w hiso
    have hacts : World.Acts i w (w.crash i) := World.crash_acts
    exact ⟨hacts.isolated hiso, ⟨{}, Custody.Fits.crash w i⟩,
      fun j τ hj hτ => hτ.frame hacts hiso hj⟩
  environment := by
    intro elapsed w hiso
    refine ⟨hiso.tick elapsed, fun i κ h => ⟨fun hκ => ?_, h.delivery, h.acted⟩⟩
    exact World.clear_of_eq (h.session hκ) rfl rfl rfl rfl rfl
  program invocation := (releasing_program invocation).mono fun _ _ _ => trivial

theorem releasing_ends : releasing.Ends Custody.Settled machine World.Isolated
    (fun i κ w => κ.Fits i w) {} where
  start := ⟨rfl, rfl⟩
  program := releasing_program
  crash := fun {i w} _ => ⟨{}, Custody.Fits.crash w i, rfl, rfl⟩

namespace System

variable {s : System} {i : ℕ}

/-- A handler that has ended has no transaction, no lock and no delivery. -/
theorem clear_of_done (hs : s.Reachable) (hdone : s.threads i = .done ()) :
    Clear i s.world ∧ s.world.broker.unacked i = none := by
  obtain ⟨κ, hfits, hsession, hdelivery⟩ := releasing_sound.of_done releasing_ends
    (Machine.Reaches.mono (fun _ _ _ => trivial) hs) hdone
  exact ⟨hfits.session hsession, hfits.delivery hdelivery⟩

/-- The owner of a transaction, of a lock or of a delivery still runs. -/
theorem running_of_custody (hs : s.Reachable)
    (h : s.world.session i ≠ {} ∨ (∃ l, s.Holds i l) ∨ s.world.broker.unacked i ≠ none) :
    ∃ e cont, s.threads i = .perform e cont := by
  cases hthread : s.threads i with
  | perform e cont => exact ⟨e, cont, rfl⟩
  | done a =>
      obtain ⟨⟨hsession, hfree⟩, hunacked⟩ := clear_of_done hs hthread
      rcases h with h | ⟨l, hl⟩ | h
      · exact absurd hsession h
      · exact absurd hl (hfree l)
      · exact absurd hunacked h

end System

end General

open Script in
/-- A consumer waits for the claim of another one. -/
theorem System.exists_waiting : ∃ s : System, s.Reachable ∧ s.WaitsFor 2 1 := by
  obtain ⟨s, hs, hwaits⟩ := System.exists_reaches (s := System.initial) anyEntry
    ([.start (.recieveFromProvider [recommendation 10 1 .accept, recommendation 10 1 .accept])] ++
      runs 0 (ok 4) ++ [.start .handle] ++ runs 1 (deliver 0 ++ ok 1) ++
      [.start .handle] ++ runs 2 (deliver 0))
    (fun s => s.WaitsFor 2 1) (by decide +kernel)
  exact ⟨s, hs.run, of_decide_eq_true hwaits⟩

/-- A consumer whose claim another one waits for still runs. -/
theorem System.running_of_custody_claimed : ∃ s : System, s.Reachable ∧ (∃ l, s.Holds 1 l) ∧
    ∃ e cont, s.threads 1 = .perform e cont := by
  obtain ⟨s, hs, l, -, hl⟩ := System.exists_waiting
  exact ⟨s, hs, ⟨l, hl⟩, System.running_of_custody hs (.inr (.inl ⟨l, hl⟩))⟩

end RiskProvider

import RiskProvider.Conformance.Sessions
import RiskProvider.Conformance.Views
import RiskProvider.Interleaving.Sequential

/-!
# Services that run alone

Proof rules for complete runs without concurrent writers, the instance of the logic of
`Interleaving.Sequential` for the platform. What matters of the world is then `Solo`: the
committed rows, the thread's session and its actions. Some exceptions of the database are faults,
and `Solo` remembers what the thread had done when the first one came. `Alone faults i p Q F v` says
that every complete run of `p` by thread `i` from `v` ends in `Q` where it returns and in `F` where
it raises.
-/

namespace RiskProvider

open Interleaving

/-- The exceptions that the database raises. -/
def Exn.isDatabase : Exn → Bool
  | .databaseError | .dataError | .integrityError | .pendingRollback => true
  | _ => false

/-- The exceptions of the database that are not about the texts written to it: failures of its own,
and conflicts. -/
def Exn.isOutage : Exn → Bool
  | .databaseError | .integrityError => true
  | _ => false

/-- Which exceptions of the database count as faults. -/
structure Faults where
  /-- The exception is a fault. -/
  includes : Exn → Bool
  isDatabase : ∀ x, includes x = true → x.isDatabase = true

namespace Faults

/-- All exceptions of the database. -/
abbrev database : Faults := ⟨Exn.isDatabase, fun _ h => h⟩

end Faults

/-- The answer is a fault. -/
def Effect.raises (faults : Faults) : (e : Effect) → e.Result → Bool
  | _, .ok _ => false
  | _, .error x => faults.includes x

/-- The answer is an exception of the database. -/
abbrev Effect.fault : (e : Effect) → e.Result → Bool := Effect.raises .database

/-- What a thread that runs alone acts on. -/
structure Solo where
  /-- The committed rows. -/
  db : Database
  /-- The thread's session. -/
  session : Session
  /-- The thread's actions. -/
  actions : History
  /-- What the thread had done when the first fault came. -/
  fault : Option History

namespace Solo

/-- The same with another session. -/
def setSession (v : Solo) (s : Session) : Solo := { v with session := s }

/-- The same after an action. -/
def act (v : Solo) (e : Entry) : Solo := { v with actions := e :: v.actions }

/-- The same after a commit of thread `i`. -/
def committed (v : Solo) (i : ℕ) (now : Time) : Solo :=
  { v with
    db := v.db.writeAll v.session.writes
    session := v.session.committed now
    actions := .committed i v.session.writes :: v.actions }

/-- The same after a fault. -/
def faulty (v : Solo) : Solo := { v with fault := v.fault.or (some v.actions) }

@[simp] theorem db_setSession (v : Solo) (s : Session) : (v.setSession s).db = v.db := rfl
@[simp] theorem session_setSession (v : Solo) (s : Session) : (v.setSession s).session = s := rfl
@[simp]
theorem actions_setSession (v : Solo) (s : Session) : (v.setSession s).actions = v.actions := rfl
@[simp] theorem db_act (v : Solo) (e : Entry) : (v.act e).db = v.db := rfl
@[simp] theorem session_act (v : Solo) (e : Entry) : (v.act e).session = v.session := rfl
@[simp]
theorem actions_act (v : Solo) (e : Entry) : (v.act e).actions = e :: v.actions := rfl
@[simp]
theorem fault_setSession (v : Solo) (s : Session) : (v.setSession s).fault = v.fault := rfl
@[simp] theorem fault_act (v : Solo) (e : Entry) : (v.act e).fault = v.fault := rfl
@[simp] theorem db_faulty (v : Solo) : v.faulty.db = v.db := rfl
@[simp] theorem session_faulty (v : Solo) : v.faulty.session = v.session := rfl
@[simp] theorem actions_faulty (v : Solo) : v.faulty.actions = v.actions := rfl
@[simp] theorem fault_faulty (v : Solo) : v.faulty.fault = v.fault.or (some v.actions) := rfl

/-- A step that the thread makes for itself, with its instance of ticket `t`. -/
structure Keeps (v : Solo) (t : UUID) (v' : Solo) : Prop where
  db : v'.db = v.db
  actions : v'.actions = v.actions
  fault : v'.fault = v.fault
  failed : v'.session.failed = v.session.failed
  others : ∀ row, row.id ≠ t → v'.session.attrs row = v.session.attrs row

/-- The database has raised `x`; the session has not failed before unless `x` says so, and `D` is
why the database may have rejected data. -/
structure Faulted (v : Solo) (faults : Faults) (D : Prop) (x : Exn) (v' : Solo) : Prop where
  db : v'.db = v.db
  actions : v'.actions = v.actions
  fault : v'.fault = if faults.includes x then v.fault.or (some v.actions) else v.fault
  failed : v'.session.failed = true
  exn : x.isDatabase = true
  own : x = .pendingRollback ↔ v.session.failed = true
  data : x = .dataError → D

variable {v v₁ v₂ : Solo} {t : UUID} {x : Exn} {faults : Faults} {D D' : Prop}

theorem Keeps.refl (v : Solo) : v.Keeps t v := ⟨rfl, rfl, rfl, rfl, fun _ _ => rfl⟩

theorem Keeps.trans (h : v.Keeps t v₁) (h' : v₁.Keeps t v₂) : v.Keeps t v₂ where
  db := h'.db.trans h.db
  actions := h'.actions.trans h.actions
  fault := h'.fault.trans h.fault
  failed := h'.failed.trans h.failed
  others row hrow := (h'.others row hrow).trans (h.others row hrow)

theorem Keeps.faulted (h : v.Keeps t v₁) (h' : v₁.Faulted faults D x v₂) :
    v.Faulted faults D x v₂ where
  db := h'.db.trans h.db
  actions := h'.actions.trans h.actions
  fault := by rw [h'.fault, h.fault, h.actions]
  failed := h'.failed
  exn := h'.exn
  own := h.failed ▸ h'.own
  data := h'.data

theorem Faulted.mono (h : v.Faulted faults D x v₁) (hD : D → D') : v.Faulted faults D' x v₁ :=
  { h with data := fun hx => hD (h.data hx) }

/-- When all exceptions of the database are faults, this one is. -/
theorem Faulted.fault_database (h : v.Faulted .database D x v₁) :
    v₁.fault = v.fault.or (some v.actions) := by
  rw [h.fault, if_pos h.exn]

/-- A session that has not failed before has met an outage or has had data rejected. -/
theorem Faulted.cause (h : v.Faulted faults D x v₁) (hlive : v.session.failed = false) :
    x.isOutage = true ∨ x = .dataError ∧ D := by
  have hexn := h.exn
  have hown := h.own
  cases x with
  | databaseError | integrityError => exact .inl rfl
  | dataError => exact .inr ⟨rfl, h.data rfl⟩
  | pendingRollback => simp [hlive] at hown
  | _ => cases hexn

/-- The first exception is a fault when it is one of those that count as faults. -/
theorem Faulted.fault_isSome (h : v.Faulted faults D x v₁) (hnone : v.fault = none) :
    v₁.fault.isSome = faults.includes x := by
  rw [h.fault, hnone]
  cases faults.includes x <;> rfl

/-- The same after the exception `x`. -/
def after (v : Solo) (faults : Faults) (x : Exn) : Solo := if faults.includes x then v.faulty else v

@[simp]
theorem db_after : (v.after faults x).db = v.db := by
  unfold after
  split <;> rfl

@[simp]
theorem session_after : (v.after faults x).session = v.session := by
  unfold after
  split <;> rfl

@[simp]
theorem actions_after : (v.after faults x).actions = v.actions := by
  unfold after
  split <;> rfl

theorem fault_after : (v.after faults x).fault =
    if faults.includes x then v.fault.or (some v.actions) else v.fault := by
  unfold after
  split <;> rfl

theorem faulted_pendingRollback (h : v.session.failed = true) :
    v.Faulted faults D .pendingRollback (v.after faults .pendingRollback) :=
  ⟨db_after, actions_after, fault_after, by simpa using h, rfl, by simp [h], by simp⟩

theorem faulted_setSession (s : Session) (h : v.session.failed = false) (hs : s.failed = true)
    (hexn : x.isDatabase = true) (hx : x ≠ .pendingRollback) (hdata : x = .dataError → D) :
    v.Faulted faults D x ((v.setSession s).after faults x) :=
  ⟨db_after, actions_after, fault_after, by simpa using hs, hexn, by simp [h, hx], hdata⟩

end Solo

namespace World

variable {w : World} {i : ℕ} {f : Option World} {v : Solo}

/-- What thread `i` acts on when it runs alone and the first fault has come in `f`. -/
def solo (w : World) (i : ℕ) (f : Option World) : Solo where
  db := w.db
  session := w.session i
  actions := w.log.actions i
  fault := f.map (·.log.actions i)

theorem solo_setSession (s : Session) :
    (w.setSession i s).solo i f = (w.solo i f).setSession s := by
  simp [solo, Solo.setSession]

theorem solo_record_act {e : Entry} (hthread : e.thread = i) (haction : e.isAction = true)
    (hquiet : ∀ j ws, e ≠ .committed j ws) : (w.record e).solo i f = (w.solo i f).act e := by
  have hact : History.actionOf i e = true := by simp [History.actionOf, hthread, haction]
  have hdb : w.db.after e = w.db := db_record_of_quiet hquiet
  simp [solo, Solo.act, History.actions, hact, hdb]

theorem solo_record_quiet {e : Entry} (haction : e.isAction = false) :
    (w.record e).solo i f = w.solo i f := by
  have hact : History.actionOf i e = false := by simp [History.actionOf, haction]
  have hquiet : ∀ j ws, e ≠ .committed j ws := by
    rintro j ws rfl
    cases haction
  have hdb : w.db.after e = w.db := db_record_of_quiet hquiet
  simp [solo, History.actions, hact, hdb]

theorem solo_loadRow (row : Ticket) :
    (w.loadRow i row).solo i f = (w.solo i f).setSession ((w.session i).load row) := by
  unfold loadRow
  split
  next inst hinst => simp [solo, Solo.setSession, Session.load, hinst]
  next hnone => rw [solo_setSession, solo_record_quiet rfl]

theorem solo_commit (i : ℕ) : (w.commit i).solo i f = (w.solo i f).committed i w.now := by
  have hact : History.actionOf i (.committed i (w.session i).writes) = true := by
    simp [History.actionOf, Entry.thread, Entry.isAction]
  simp [solo, Solo.committed, commit, Database.after, History.actions, hact]

theorem db_of_solo (hv : w.solo i f = v) : w.db = v.db := hv ▸ rfl

theorem session_of_solo (hv : w.solo i f = v) : w.session i = v.session := hv ▸ rfl

end World

variable [Codecs] {α β : Type}

/-- Every complete run of `p` by thread `i` from `v` ends in `Q` where it returns and in `F` where
it raises. -/
def Alone (faults : Faults) (i : ℕ) (p : Py α) (Q : α → Solo → Prop) (F : Exn → Solo → Prop)
    (v : Solo) : Prop :=
  ∀ (w : World) f, w.Isolated → w.solo i f = v → machine.Ends (Effect.raises faults) i p
    (fun a f w => w.Isolated ∧ Q a (w.solo i f)) (fun x f w => w.Isolated ∧ F x (w.solo i f)) f w

namespace Alone

variable {faults : Faults} {i : ℕ} {v : Solo} {Q : α → Solo → Prop} {F : Exn → Solo → Prop}

/-! ### Composition -/

theorem pure {a : α} (h : Q a v) : Alone faults i (pure a : Py α) Q F v := by
  rintro w f hw rfl
  exact Machine.Ends.pure ⟨hw, h⟩

theorem throw {x : Exn} (h : F x v) : Alone faults i (throw x : Py α) Q F v := by
  rintro w f hw rfl
  exact Machine.Ends.throw ⟨hw, h⟩

theorem mono {p : Py α} {Q' : α → Solo → Prop} {F' : Exn → Solo → Prop}
    (h : Alone faults i p Q' F' v) (hQ : ∀ a v, Q' a v → Q a v) (hF : ∀ x v, F' x v → F x v) : Alone faults i p Q F v := by
  intro w f hw hv
  exact (h w f hw hv).mono (fun a f w h => ⟨h.1, hQ a _ h.2⟩) fun x f w h => ⟨h.1, hF x _ h.2⟩

theorem bind {p : Py β} {g : β → Py α}
    (h : Alone faults i p (fun b v => Alone faults i (g b) Q F v) F v) :
    Alone faults i (p >>= g) Q F v := by
  intro w f hw hv
  refine Machine.Ends.bind ((h w f hw hv).mono (fun b f w hb => ?_) fun x f w hx => hx)
  exact hb.2 w f hb.1 rfl

theorem attempt {p : Py β} {Q : Except Exn β → Solo → Prop}
    (h : Alone faults i p (fun b => Q (.ok b)) (fun x => Q (.error x)) v) :
    Alone faults i (RiskProvider.attempt p) Q F v := by
  intro w f hw hv
  refine Machine.Ensures.bind (Machine.Ensures.mono (h w f hw hv) ?_)
  rintro (x | b) f w h
  · exact Machine.Ensures.done h
  · exact Machine.Ensures.done h

/-! ### Effects -/

/-- What holds when an effect has answered, in the world that it leaves. -/
def Answered (faults : Faults) (Q : α → Solo → Prop) (F : Exn → Solo → Prop) :
    Except Exn α → Solo → Prop
  | .ok a, v => Q a v
  | .error x, v => F x (v.after faults x)

theorem perform {e : Effect} {Q : e.Value → Solo → Prop}
    (h : ∀ (w : World) f c r w', w.Isolated → w.solo i f = v → e.exec i c w = some (r, w') →
      Answered faults Q F r (w'.solo i f) ∧
        (e.raises faults r = true → w'.log.actions i = w.log.actions i)) :
    Alone faults i (perform e) Q F v := by
  intro w f hw hv
  refine Machine.Ensures.perform fun c r w' hexec => ?_
  obtain ⟨hpost, hacts⟩ := h w f c r w' hw hv hexec
  have hw' := (World.exec_acts hw hexec).isolated hw
  cases r with
  | ok a => exact Machine.Ensures.done ⟨hw', by simpa [Effect.raises, Answered] using hpost⟩
  | error x =>
      refine Machine.Ensures.done ⟨hw', ?_⟩
      cases hx : faults.includes x with
      | false => simpa [Effect.raises, hx, Answered, Solo.after] using hpost
      | true =>
          -- the thread has done nothing in the answer that is the fault
          have hfault : (w'.solo i (f.or (some w))) = (w'.solo i f).faulty := by
            cases f <;> simp [World.solo, Solo.faulty, hacts hx]
          simp only [Effect.raises, hx, ↓reduceIte, hfault]
          simpa [Answered, hx, Solo.after] using hpost

/-- An effect that always answers with a value. -/
theorem succeeds {e : Effect} {Q : e.Value → Solo → Prop}
    (h : ∀ (w : World) f c r w', w.Isolated → w.solo i f = v → e.exec i c w = some (r, w') →
      ∃ a, r = .ok a ∧ Q a (w'.solo i f)) : Alone faults i (RiskProvider.perform e) Q F v := by
  refine perform fun w f c r w' hw hv hexec => ?_
  obtain ⟨a, rfl, hpost⟩ := h w f c r w' hw hv hexec
  exact ⟨hpost, by simp [Effect.raises]⟩

theorem utcNow {Q : Time → Solo → Prop} (h : ∀ now, Q now v) : Alone faults i utcNow Q F v := by
  refine succeeds fun w f c r w' _ hv hexec => ?_
  obtain ⟨-, -, heq⟩ := Option.map_eq_some_iff.mp hexec
  cases heq
  exact ⟨_, rfl, hv ▸ h _⟩

theorem uuid4 {Q : UUID → Solo → Prop} (h : ∀ u, Q u v) : Alone faults i uuid4 Q F v := by
  refine succeeds fun w f c r w' _ hv hexec => ?_
  obtain ⟨u, -, heq⟩ := Option.map_eq_some_iff.mp hexec
  cases heq
  exact ⟨_, rfl, hv ▸ h _⟩

theorem assign {t : Ticket} {Q : Unit → Solo → Prop}
    (h : Q () (v.setSession (v.session.assign t))) :
    Alone faults i (RiskProvider.perform (.assign t)) Q F v := by
  refine succeeds fun w f c r w' _ hv hexec => ?_
  obtain ⟨-, -, heq⟩ := Option.map_eq_some_iff.mp hexec
  cases heq
  refine ⟨(), rfl, ?_⟩
  rw [World.solo_setSession, hv, World.session_of_solo hv]
  exact h

theorem add {object : NewObject} {Q : Unit → Solo → Prop}
    (h : Q () (v.setSession (v.session.add object))) :
    Alone faults i (RiskProvider.perform (.add object)) Q F v := by
  refine succeeds fun w f c r w' _ hv hexec => ?_
  obtain ⟨-, -, heq⟩ := Option.map_eq_some_iff.mp hexec
  cases heq
  refine ⟨(), rfl, ?_⟩
  rw [World.solo_setSession, hv, World.session_of_solo hv]
  exact h

theorem countTransition {fromStatus toStatus : TicketStatus} {Q : Unit → Solo → Prop}
    (h : Q () v) :
    Alone faults i (RiskProvider.perform (.countTransition fromStatus toStatus)) Q F v := by
  refine succeeds fun w f c r w' _ hv hexec => ?_
  obtain ⟨-, -, heq⟩ := Option.map_eq_some_iff.mp hexec
  cases heq
  refine ⟨(), rfl, ?_⟩
  rw [World.solo_record_quiet rfl, hv]
  exact h

theorem rollback {Q : Unit → Solo → Prop} (h : Q () (v.setSession {})) :
    Alone faults i (RiskProvider.perform .rollback) Q F v := by
  refine succeeds fun w f c r w' _ hv hexec => ?_
  obtain ⟨-, -, heq⟩ := Option.map_eq_some_iff.mp hexec
  cases heq
  have hsolo : (w.rollback i).solo i f = (w.setSession i {}).solo i f := rfl
  refine ⟨(), rfl, ?_⟩
  rw [hsolo, World.solo_setSession, hv]
  exact h

theorem processTicket {id : UUID} {action : Option RecommendationAction} {reason : Option String}
    {Q : Unit → Solo → Prop} (hok : Q () (v.act (.processed i id action none)))
    (herror : ∀ text, F (.monolithError text) (v.act (.processed i id action (some text)))) :
    Alone faults i (processTicket id action reason) Q F v := by
  refine perform fun w f c r w' _ hv hexec => ?_
  have hsolo (error : Option String) : (w.record (.processed i id action error)).solo i f =
      v.act (.processed i id action error) := by
    rw [World.solo_record_act (i := i) rfl rfl (by simp), hv]
  simp only [Effect.exec, World.call] at hexec
  split at hexec
  · cases hexec
    exact ⟨(hsolo none).symm ▸ hok, by simp [Effect.raises]⟩
  next text =>
    cases hexec
    -- an exception of the monolith is no fault
    have hexn : faults.includes (.monolithError text) = false :=
      Bool.eq_false_iff.mpr fun h => by cases faults.isDatabase _ h
    refine ⟨?_, by simp [Effect.raises, hexn]⟩
    simpa [Answered, Solo.after, hexn, hsolo] using herror text
  · cases hexec

/-- A statement, as long as no earlier one has failed. -/
theorem statement {e : Effect} {Q : e.Value → Solo → Prop}
    (act : Choice → World → Option (e.Result × World))
    (he : ∀ c w f, w.solo i f = v → e.exec i c w = w.statement i c (act c))
    (herror : ∀ x v', v.Faulted faults False x v' → F x v')
    (hact : ∀ now (w : World) f c r w', v.session.failed = false → w.Isolated →
      w.solo i f = v.setSession (v.session.beginTx now) → act c w = some (r, w') →
      Answered faults Q F r (w'.solo i f) ∧
        (e.raises faults r = true → w'.log.actions i = w.log.actions i)) :
    Alone faults i (RiskProvider.perform e) Q F v := by
  refine perform fun w f c r w' hinv hv hexec => ?_
  rw [he c w f hv] at hexec
  unfold World.statement at hexec
  have hsession := World.session_of_solo hv
  split at hexec
  next hfail =>
    cases hexec
    refine ⟨?_, fun _ => rfl⟩
    rw [hv]
    exact herror _ _ (Solo.faulted_pendingRollback (hsession ▸ hfail))
  next hfail =>
    have hlive : v.session.failed = false := by simpa [hsession] using hfail
    have hbegun (c : Choice) : (w.beginTx i c).solo i f =
        v.setSession (v.session.beginTx (w.issuedAt i c)) := by
      rw [World.beginTx, World.solo_setSession, hv, hsession]
    split at hexec
    · cases hexec
      refine ⟨?_, fun _ => rfl⟩
      rw [Answered, World.fail, World.solo_setSession, hbegun]
      exact herror _ _ (Solo.faulted_setSession _ hlive rfl rfl (by simp) (by simp))
    · exact hact _ (w.beginTx i c) f c r w' hlive (World.acts_beginTx.isolated hinv) (hbegun c) hexec

/-- `get_by_id_for_update`, by a session that has changed no ticket. -/
theorem getByIdForUpdate {id : UUID} {Q : Option Ticket → Solo → Prop} {ws : List Write}
    (hwrites : ∀ wr ∈ ws, wr.ticketKey = none)
    (hclean : v.session.failed = false → v.session.Clean ws)
    (herror : ∀ x v', v.Faulted faults False x v' → F x v')
    (hnone : ∀ v', v.Keeps id v' → v.db.tickets.lookup id = none → v'.session.Clean ws →
      Q none v')
    (hsome : ∀ row v' began, v.Keeps id v' → v.db.tickets.lookup id = some row → row.id = id →
      v'.session.Editing id (v.session.attrs row) (v.session.attrs row) began ws →
      Q (some (v.session.attrs row)) v') :
    Alone faults i (TicketRepository.getByIdForUpdate id) Q F v := by
  refine statement (fun _ w => w.selectTicketForUpdate i id) (fun _ _ _ _ => rfl) herror
    fun now w f c r w' hlive hinv hv hact => ?_
  have hclean := hclean hlive
  have hsession : w.session i = v.session.beginTx now := World.session_of_solo hv
  have hvisible : (w.visible i).tickets.lookup id = v.db.tickets.lookup id := by
    rw [World.visible, Database.lookup_tickets_writeAll, World.db_of_solo hv]
    · rfl
    · intro wr hwr
      rw [hsession, (hclean.beginTx now).writes] at hwr
      simp [hwrites wr hwr]
  simp only [World.selectTicketForUpdate, hvisible] at hact
  split at hact
  · split at hact
    next hnone' =>
      cases hact
      refine ⟨?_, by simp [Effect.raises]⟩
      rw [hv]
      exact hnone _ ⟨rfl, rfl, rfl, rfl, fun _ _ => rfl⟩ hnone' (hclean.beginTx now)
    next row hrow =>
      cases hact
      refine ⟨?_, by simp [Effect.raises]⟩
      have hid : row.id = id := by
        refine (History.keyed_database w.log).tickets id row ?_
        rw [← hinv.db_eq, World.db_of_solo hv]
        exact hrow
      have hcoherent : v.session.Coherent := by
        have := hinv.coherent i
        rw [hsession] at this
        exact this.of_eq rfl rfl
      have hattrs : (w.session i).attrs row = v.session.attrs row := by
        rw [hsession]
        rfl
      obtain ⟨began, -, hediting⟩ := hclean.editing hcoherent hid now
      have hsolo : World.solo { w.loadRow i row with ticketLock := acquire w.ticketLock i [id] }
          i f = v.setSession ((v.session.beginTx now).load row) := by
        change (w.loadRow i row).solo i f = _
        rw [World.solo_loadRow, hv, hsession]
        rfl
      rw [hattrs]
      change Q _ _
      rw [hsolo]
      refine hsome row _ began ⟨rfl, rfl, rfl, ?_, fun row' hne => ?_⟩ hrow hid hediting
      · exact hediting.failed.trans hlive.symm
      · exact Session.attrs_load_of_ne (fun heq => hne (heq.trans hid))
  · cases hact

/-- `session.flush()` -/
theorem flush {Q : Unit → Solo → Prop}
    (herror : ∀ x v',
      v.Faulted faults (¬(v.session.FlushFits ∧ v.session.FlushStorable)) x v' → F x v')
    (hnothing : v.session.dirty = [] → v.session.added = [] → Q () v)
    (hok : ∀ now, ¬(v.session.dirty = [] ∧ v.session.added = []) →
      (∀ wr ∈ (v.session.beginTx now).flushWrites, ¬ wr.Conflicts
        (v.db.writeAll v.session.writes)) →
      Q () (v.setSession (v.session.beginTx now).flushed)) :
    Alone faults i (RiskProvider.perform .flush) Q F v := by
  by_cases hpending : v.session.dirty = [] ∧ v.session.added = []
  · refine succeeds fun w f c r w' _ hv hexec => ?_
    simp only [Effect.exec, World.session_of_solo hv, hpending, List.isEmpty_nil, and_self,
      ↓reduceIte] at hexec
    cases hexec
    exact ⟨(), rfl, hv ▸ hnothing hpending.1 hpending.2⟩
  · refine statement (fun _ w => w.flush i) (fun c w f hv => ?_)
      (fun x v' hx => herror x v' (hx.mono False.elim)) fun now w f c r w' hlive hinv hv hact => ?_
    · have hnot : ¬((w.session i).dirty = [] ∧ (w.session i).added.isEmpty = true) := by
        simpa [World.session_of_solo hv] using hpending
      simp only [Effect.exec, hnot, ↓reduceIte]
    · have hsession : w.session i = v.session.beginTx now := World.session_of_solo hv
      have hfail : ∀ x : Exn, x.isDatabase = true → x ≠ .pendingRollback →
          (x = .dataError → ¬(v.session.FlushFits ∧ v.session.FlushStorable)) →
          Answered faults Q F (.error x : Except Exn Unit) ((w.fail i).solo i f) := by
        intro x hexn hx hdata
        rw [Answered, World.fail, World.solo_setSession, hv]
        exact herror x _ (Solo.faulted_setSession _ hlive rfl hexn hx hdata)
      unfold World.flush at hact
      dsimp only at hact
      split at hact
      · split at hact
        next hrejected =>
          cases hact
          rw [hsession] at hrejected
          exact ⟨hfail _ rfl (by simp) fun _ => hrejected, fun _ => rfl⟩
        · split at hact
          · cases hact
            exact ⟨hfail _ rfl (by simp) (by simp), fun _ => rfl⟩
          next hconflicts =>
            cases hact
            refine ⟨?_, by simp [Effect.raises]⟩
            have hsolo : World.solo (w.setSession i (w.session i).flushed) i f =
                v.setSession (v.session.beginTx now).flushed := by
              rw [World.solo_setSession, hv, hsession]
              rfl
            change Q () (World.solo (w.setSession i (w.session i).flushed) i f)
            rw [hsolo]
            refine hok now hpending fun wr hwr hconflict => hconflicts ⟨wr, ?_, ?_⟩
            · rwa [hsession]
            · rwa [World.visible, World.db_of_solo hv, hsession]
      · cases hact

/-- The `COMMIT` of a session. -/
theorem commitTx {Q : Unit → Solo → Prop} (herror : ∀ x v', v.Faulted faults False x v' → F x v')
    (hok : v.session.failed = false → ∀ now, Q () (v.committed i now)) :
    Alone faults i (RiskProvider.perform .commit) Q F v := by
  refine perform fun w f c r w' _ hv hexec => ?_
  have hsession := World.session_of_solo hv
  simp only [Effect.exec] at hexec
  split at hexec
  next hfail =>
    cases hexec
    refine ⟨?_, fun _ => rfl⟩
    rw [hv]
    exact herror _ _ (Solo.faulted_pendingRollback (hsession ▸ hfail))
  next hfail =>
    have hlive : v.session.failed = false := by simpa [hsession] using hfail
    split at hexec
    · cases hexec
      refine ⟨?_, by simp [Effect.raises]⟩
      rw [World.solo_commit, hv]
      exact hok hlive _
    · cases hexec
      refine ⟨?_, fun _ => rfl⟩
      rw [Answered, World.fail, World.solo_setSession, hv]
      exact herror _ _ (Solo.faulted_setSession _ hlive rfl rfl (by simp) (by simp))
    · cases hexec

/-- A session's scope. -/
theorem scope {α : Type} {body : Py α} {Q : α → Solo → Prop} {F : Exn → Solo → Prop}
    (h : Alone faults i body (fun a v => Q a (v.setSession {})) (fun x v => F x (v.setSession {})) v) :
    Alone faults i (AsyncSession.scope body) Q F v := by
  refine bind (attempt (h.mono (fun a v hv => ?_) fun x v hv => ?_))
  · exact bind (rollback (pure hv))
  · exact bind (rollback (bind (rollback (throw hv))))

end Alone

end RiskProvider

import RiskProvider.World
import RiskProvider.Effects

/-!
# What effects record

The entries that an effect appends to the history are about the effect and its thread
(`World.records_of_exec`), so an entry can be traced back to the effect that was performed.
-/

namespace RiskProvider

/-- The entries that an effect of thread `i` may record. -/
def Effect.Records (i : ℕ) : Effect → Entry → Prop
  | selectTicketForUpdate _, entry => ∃ k, entry = .loaded i k
  | selectTicketByKey key, entry => (∃ result, entry = .looked i key result) ∨ ∃ k, entry = .loaded i k
  | selectStuck olderThan _, entry =>
      (∃ ids, entry = .found i olderThan ids) ∨ ∃ k, entry = .loaded i k
  | selectPending limit, entry => ∃ ids skipped, entry = .fetched i limit ids skipped
  | commit, entry => ∃ ws, entry = .committed i ws
  | processTicket id action _, entry => ∃ error, entry = .processed i id action error
  | publish key messageId body, entry => ∃ ok, entry = .published i key messageId body ok
  | receive q, entry => ∃ n d, entry = .received i q n d
  | ack, entry => entry = .acked i
  | nack, entry => entry = .returned i
  | send m, entry => ∃ outcome, entry = .sent i m outcome
  | sendAck messageId, entry => ∃ ok, entry = .ackSent i messageId ok
  | countTransition fromStatus toStatus, entry => entry = .counted i fromStatus toStatus
  | request key r, entry => entry = .requested i key r
  | respond result, entry => entry = .responded i result
  | _, _ => False

/-- Only `session.commit()` records a commit. -/
theorem Effect.eq_commit_of_records {i j : ℕ} {e : Effect} {ws : List Write}
    (h : e.Records i (.committed j ws)) : e = .commit := by
  cases e <;> simp [Records] at h
  rfl

namespace World

variable {w w' : World} {i : ℕ} {e : Effect} {c : Choice} {α : Type}

/-- The history grows by entries with `P` only. -/
def Appends (P : Entry → Prop) (l l' : History) : Prop :=
  ∃ es : History, l' = es ++ l ∧ ∀ entry ∈ es, P entry

variable {P : Entry → Prop} {l l' l'' : History}

theorem Appends.refl (l : History) : Appends P l l := ⟨[], rfl, by simp⟩

theorem Appends.cons {entry : Entry} (h : P entry) (l : History) : Appends P l (entry :: l) :=
  ⟨[entry], rfl, by simpa using h⟩

theorem Appends.trans (h : Appends P l l') (h' : Appends P l' l'') : Appends P l l'' := by
  obtain ⟨es, rfl, hes⟩ := h
  obtain ⟨es', rfl, hes'⟩ := h'
  refine ⟨es' ++ es, (List.append_assoc _ _ _).symm, fun entry hentry => ?_⟩
  rcases List.mem_append.mp hentry with hentry | hentry
  · exact hes' entry hentry
  · exact hes entry hentry

/-- A statement appends what its action appends. -/
theorem appends_statement {act : World → Option (Except Exn α × World)} {r : Except Exn α}
    (hact : ∀ v, act v = some (r, w') → Appends P v.log w'.log)
    (h : w.statement i c act = some (r, w')) : Appends P w.log w'.log := by
  unfold statement at h
  split at h
  · cases h
    exact .refl _
  · split at h
    · cases h
      exact .refl _
    · have happends := hact _ h
      exact happends

theorem appends_loadRow (hP : ∀ k, P (.loaded i k)) (row : Ticket) :
    Appends P w.log (w.loadRow i row).log := by
  unfold loadRow
  split
  · exact .refl _
  · exact .cons (hP _) _

theorem appends_loadRows (hP : ∀ k, P (.loaded i k)) (rows : List Ticket) :
    Appends P w.log (w.loadRows i rows).log := by
  induction rows generalizing w with
  | nil => exact .refl _
  | cons row rows ih => exact (appends_loadRow hP row).trans ih

theorem appends_call {entry : Option String → Entry} {exn : String → Exn} {r : Except Exn Unit}
    (hP : ∀ error, P (entry error)) (h : w.call c entry exn = some (r, w')) :
    Appends P w.log w'.log := by
  unfold call at h
  split at h
  · cases h
    exact .cons (hP _) _
  · cases h
    exact .cons (hP _) _
  · cases h

/-- The entries that an effect appends are about it. -/
theorem records_of_exec {r : e.Result} (h : e.exec i c w = some (r, w')) :
    Appends (e.Records i) w.log w'.log := by
  cases e with
  | utcNow | uuid4 | assign t | add object | rollback =>
      obtain ⟨_, -, heq⟩ := Option.map_eq_some_iff.mp h
      cases heq
      exact .refl _
  | ack | nack | countTransition fromStatus toStatus | request key request | respond result =>
      obtain ⟨_, -, heq⟩ := Option.map_eq_some_iff.mp h
      cases heq
      refine Appends.cons ?_ w.log
      exact rfl
  | readAttribute id =>
      obtain ⟨-, -, heq⟩ := Option.map_eq_some_iff.mp h
      obtain ⟨-, rfl⟩ := Prod.mk.inj heq
      exact .refl _
  | processTicket id action reason => exact appends_call (fun error => ⟨error, rfl⟩) h
  | publish routingKey messageId body => exact appends_call (fun error => ⟨error.isNone, rfl⟩) h
  | sendAck messageId => exact appends_call (fun error => ⟨error.isNone, rfl⟩) h
  | send m =>
      simp only [Effect.exec, send] at h
      split at h <;> cases h <;> exact .cons ⟨_, rfl⟩ _
  | receive q =>
      obtain ⟨n, -, hn⟩ := Option.bind_eq_some_iff.mp h
      simp only [receive] at hn
      split at hn
      · cases hn
        exact .cons ⟨_, _, rfl⟩ _
      · cases hn
  | commit =>
      simp only [Effect.exec] at h
      split at h
      · cases h
        exact .refl _
      · split at h <;> cases h
        · exact .cons ⟨_, rfl⟩ _
        · exact .refl _
  | selectTicketForUpdate id =>
      simp only [Effect.exec] at h
      refine appends_statement (fun v hv => ?_) h
      unfold selectTicketForUpdate at hv
      split at hv
      · split at hv <;> cases hv
        · exact .refl _
        · exact appends_loadRow (fun k => ⟨k, rfl⟩) _
      · cases hv
  | selectTicketByKey key =>
      simp only [Effect.exec] at h
      refine appends_statement (fun v hv => ?_) h
      unfold selectTicketByKey at hv
      split at hv <;> cases hv
      · exact .cons (.inl ⟨_, rfl⟩) _
      · exact Appends.trans (.cons (.inl ⟨_, rfl⟩) _) (appends_loadRow (fun k => .inr ⟨k, rfl⟩) _)
  | selectStuck olderThan limit =>
      simp only [Effect.exec] at h
      refine appends_statement (fun v hv => ?_) h
      obtain ⟨ids, -, hids⟩ := Option.bind_eq_some_iff.mp hv
      unfold selectStuck at hids
      split at hids
      · cases hids
        exact Appends.trans (.cons (.inl ⟨ids, rfl⟩) _) (appends_loadRows (fun k => .inr ⟨k, rfl⟩) _)
      · cases hids
  | selectPending limit =>
      simp only [Effect.exec] at h
      refine appends_statement (fun v hv => ?_) h
      obtain ⟨ids, -, hids⟩ := Option.bind_eq_some_iff.mp hv
      unfold selectPending at hids
      split at hids
      · cases hids
        exact .cons ⟨_, _, rfl⟩ _
      · cases hids
  | insertInbox messageId messageType ticketId =>
      simp only [Effect.exec] at h
      refine appends_statement (fun v hv => ?_) h
      unfold insertInbox at hv
      split at hv
      · split at hv <;> cases hv <;> exact .refl _
      · cases hv
  | updatePublished ids publishedAt | updateFailed id error =>
      simp only [Effect.exec] at h
      refine appends_statement (fun v hv => ?_) h
      unfold updateEvents at hv
      split at hv
      · split at hv <;> cases hv <;> exact .refl _
      · cases hv
  | flush =>
      simp only [Effect.exec] at h
      split at h
      · cases h
        exact .refl _
      · refine appends_statement (fun v hv => ?_) h
        unfold flush at hv
        dsimp only at hv
        split at hv
        · split at hv
          · cases hv
            exact .refl _
          · split at hv <;> cases hv <;> exact .refl _
        · cases hv

/-- A commit is recorded with what its session, which has not failed, has written. -/
theorem writes_of_committed {r : e.Result} {j : ℕ} {ws : List Write}
    (h : e.exec i c w = some (r, w')) (hlog : w'.log = .committed j ws :: w.log) :
    e = .commit ∧ j = i ∧ (w.session i).failed = false ∧ ws = (w.session i).writes := by
  obtain ⟨es, hes, hrecords⟩ := records_of_exec h
  obtain rfl : es = [.committed j ws] := by
    rw [hlog] at hes
    exact (List.append_cancel_right (show [_] ++ _ = _ from hes)).symm
  obtain rfl := Effect.eq_commit_of_records (hrecords _ (List.mem_singleton_self _))
  simp only [Effect.exec] at h
  split at h
  · cases h
    exact absurd hlog.symm (List.cons_ne_self _ _)
  next hlive =>
    split at h <;> cases h
    · obtain ⟨rfl, rfl⟩ : i = j ∧ (w.session i).writes = ws := by simpa [commit] using hlog
      exact ⟨rfl, rfl, by simpa using hlive, rfl⟩
    · exact absurd hlog.symm (List.cons_ne_self _ _)

end World

end RiskProvider

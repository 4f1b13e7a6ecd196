import RiskProvider.Executions
import RiskProvider.Lifecycle.Changes

/-!
# Terminal statuses

The first transaction of `apply_recommendation` and the gateway's acknowledgement test the
committed status. `request_cancellation` and `mark_cancellation_applied` do not ask whether it is
terminal, and the second transaction of `apply_recommendation` asks the instance that its
session loaded before the first. `terminal_absorbing`: as long as these three find the ticket
open, terminal statuses are absorbing; `confirmed_overwritten` is a run in which one does not.
-/

namespace RiskProvider

open Interleaving

/-- A commit that sets the status `SETTLED`, `CANCELLATION_REQUESTED` or `CANCELLED` finds a
ticket that is not terminal. -/
def OverwritesOpen (l : History) : Entry → Prop
  | .committed _ ws => ∀ c ∈ ws.filterMap Write.setsStatus,
      c.2 ∈ [TicketStatus.settled, .cancellationRequested, .cancelled] →
        ∀ st ∈ l.status? c.1, ¬ st.Terminal
  | _ => True

instance (l : History) (e : Entry) : Decidable (OverwritesOpen l e) :=
  e.decidableOfCommitted
    (fun _ _ => by unfold OverwritesOpen; infer_instance)
    (fun e he => by cases e <;> first | trivial | exact absurd rfl (he _ _))

theorem OverwritesOpen.allowsReads : System.AllowsReads OverwritesOpen where
  loaded _ _ _ := trivial
  read _ e he := by
    cases e <;> trivial

section General

variable [Codecs]

/-- A permitted commit that overwrites only open tickets keeps terminal statuses. -/
theorem terminal_step {l : History} {e : Entry} {t : UUID} {st : TicketStatus}
    (hpermitted : Permitted l e) (hopen : OverwritesOpen l e) (hst : l.status? t = some st)
    (hterminal : st.Terminal) : History.status? t (e :: l) = some st := by
  obtain ⟨st', hst'⟩ := Option.isSome_iff_exists.mp
    (History.status?_isSome_cons (e := e) (Option.isSome_of_eq_some hst))
  by_contra hchanged
  have hne : st' ≠ st := fun heq => hchanged (heq ▸ hst')
  obtain ⟨i, ws, rfl⟩ := History.committed_of_status_ne hst hst' hne
  obtain ⟨hsets, hchange⟩ := change_of_permitted hpermitted hst hst' hne
  cases hchange with
  | recommend hacts hframe ht hst => exact hst hterminal
  | acknowledge hacts hdecodes hticket htarget hst hnew => exact hst hterminal
  | settle => exact hopen _ hsets (by simp) st hst hterminal
  | requestCancellation => exact hopen _ hsets (by simp) st hst hterminal
  | cancel => exact hopen _ hsets (by simp) st hst hterminal

/-- A terminal status in a history is still there in every longer one. -/
theorem terminal_suffix {l l' : History} {t : UUID} {st : TicketStatus}
    (hl' : Conforms OverwritesOpen l') (hl : l <:+ l') (hst : l.status? t = some st)
    (hterminal : st.Terminal) : l'.status? t = some st := by
  induction hl' with
  | nil =>
      obtain rfl := List.suffix_nil.mp hl
      exact hst
  | cons hconforms hpermitted hopen ih =>
      rcases List.suffix_cons_iff.mp hl with rfl | hl
      · exact hst
      · exact terminal_step hpermitted hopen (ih hl) hterminal

/-- In every run in which commits that set the status `SETTLED`, `CANCELLATION_REQUESTED` or
`CANCELLED` find the ticket open, no step changes a terminal status. -/
theorem terminal_absorbing {s s' : System} {t : UUID} {st : TicketStatus}
    (hs : machine.Reaches (System.Meets OverwritesOpen) System.initial s)
    (hst : s.world.status? t = some st) (hterminal : st.Terminal)
    (hrun : machine.Reaches (System.Meets OverwritesOpen) s s') :
    s'.world.status? t = some st := by
  have hs' : machine.Reaches (System.Meets OverwritesOpen) System.initial s' :=
    Relation.ReflTransGen.trans hs hrun
  rw [System.status?_eq hs.run] at hst
  rw [System.status?_eq hs'.run]
  exact terminal_suffix (System.conforms OverwritesOpen.allowsReads hs')
    (System.suffix_of_run hs.run hrun.run) hst hterminal

end General

open Script in
/-- A frame reaches the consumer when ticket 1 is confirmed. -/
def lateFrame (m : Message) (choices : List Choice) : List (Label Choice Invocation ℕ) :=
  [.start (.recieveFromProvider [m])] ++ runs 7 (ok 2) ++ [.start .handle] ++ runs 8 choices

open Script in
/-- A confirmed ticket stays confirmed when another recommendation arrives. -/
theorem terminal_absorbing_confirmed : ∃ s s' : System,
    machine.Reaches (System.Meets OverwritesOpen) System.initial s ∧
      machine.Reaches (System.Meets OverwritesOpen) s s' ∧
      s'.world.log.length = 37 ∧ s'.world.status? 1 = some .confirmed := by
  obtain ⟨s, s', hs, hst, hs', hlength⟩ := System.exists_reaches_twice OverwritesOpen
    (confirmedRun .accept) (lateFrame (recommendation 20 1 .decline) (deliver 0 ++ ok 4))
    (fun s => s.world.status? 1 = some .confirmed) (fun s' => s'.world.log.length = 37)
    (by decide +kernel)
  simp only [decide_eq_true_eq] at hst hlength
  exact ⟨s, s', hs, hs', hlength, terminal_absorbing hs hst (by decide) hs'⟩

open Script in
/-- `CANCELLATION_APPLIED` cancels a ticket that the provider has been told to confirm. -/
theorem confirmed_overwritten : ∃ s s' : System, s.Reachable ∧ machine.Run s s' ∧
    s.world.status? 1 = some .confirmed ∧ s'.world.status? 1 = some .cancelled := by
  obtain ⟨s, s', hs, hst, hs', hst'⟩ := System.exists_reaches_twice anyEntry
    (confirmedRun .accept) (lateFrame (cancellationApplied 20 1) (applyCancellation 0))
    (fun s => s.world.status? 1 = some .confirmed)
    (fun s' => s'.world.status? 1 = some .cancelled) (by decide +kernel)
  simp only [decide_eq_true_eq] at hst hst'
  exact ⟨s, s', hs.run, hs'.run, hst, hst'⟩

end RiskProvider

import RiskProvider.Interleaving.Contracts
import RiskProvider.System

/-!
# Contracts of the handlers

The rules of `Interleaving.Contracts` for the constructs of which the services are made: one effect,
`attempt`, `session_scope` and the subscribers.
-/

namespace RiskProvider

open Interleaving

/-- A contract of the platform's threads with local states `S`. -/
abbrev Undertaking (S : Type) := Contract Effect Effect.Result S

namespace Undertaking

variable {S α β : Type} {K : Undertaking S} {σ : S} {Q : α → S → Prop} {F : Exn → S → Prop}

theorem perform {e : Effect} {Q : e.Value → S → Prop} (hmay : K.may σ e)
    (hok : ∀ a σ', K.next σ e (.ok a) σ' → Q a σ')
    (herror : ∀ x σ', K.next σ e (.error x) σ' → F x σ') : K.Fulfils (perform e) Q F σ := by
  refine ⟨hmay, fun r σ' hnext => ?_⟩
  cases r with
  | ok a => exact hok a σ' hnext
  | error x => exact herror x σ' hnext

theorem attempt {p : Py α} {Q : Except Exn α → S → Prop}
    (h : K.Fulfils p (fun a => Q (.ok a)) (fun x => Q (.error x)) σ) :
    K.Fulfils (attempt p) Q F σ := by
  refine Contract.Follows.bind (Contract.Follows.mono h ?_)
  rintro (x | a) σ h
  · exact h
  · exact h

/-- Both ends of a session, where a rollback is always possible and leads to `fresh`. -/
theorem scope {body : Py α} {fresh : S} (hmay : ∀ σ, K.may σ .rollback)
    (hrollback : ∀ {σ r σ'}, K.next σ .rollback r σ' → σ' = fresh)
    (h : K.Fulfils body (fun a _ => Q a fresh ∧ ∀ x, F x fresh) (fun _ _ => ∀ x, F x fresh) σ) :
    K.Fulfils (AsyncSession.scope body) Q F σ := by
  refine Contract.Fulfils.bind (attempt (Contract.Fulfils.mono h ?_ ?_))
  · intro a σ ⟨hQ, hF⟩
    refine Contract.Fulfils.bind (perform (hmay σ) (fun _ σ' hnext => ?_) fun x σ' hnext => ?_)
    · exact hrollback hnext ▸ hQ
    · exact hrollback hnext ▸ hF x
  · intro x σ hF
    refine Contract.Fulfils.bind (perform (hmay σ) (fun _ σ' _ => ?_) fun x σ' hnext => ?_)
    · refine Contract.Fulfils.bind (perform (hmay σ') (fun _ σ'' hnext => ?_) fun x σ'' hnext => ?_)
      · exact hrollback hnext ▸ hF _
      · exact hrollback hnext ▸ hF x
    · exact hrollback hnext ▸ hF x

/-- A thread's program, whatever it raises. -/
theorem toThread {p : Py α} (h : K.Fulfils p (fun _ _ => True) (fun _ _ => True) σ) :
    K.Follows (toThread p) (fun _ _ => True) σ :=
  Contract.Follows.bind (Contract.Follows.mono h fun _ _ _ => trivial)

end Undertaking

end RiskProvider

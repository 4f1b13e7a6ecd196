import RiskProvider.Interleaving.Program

/-!
# Contracts of threads

A lighter companion of `Interleaving.Ownership`. A contract says what a thread may do next and what
it may assume of the answer, in terms of a local state that is not part of the world: which locks
it holds, say, or which values it has read. That a program `Follows` its contract is a matter of the
program alone; `Contract.Sound` relates the local states to the world, effect by effect.

* `Contract`, `Contract.Follows`, and `Contract.Fulfils` for programs that may raise.
* `Contract.Sound.holds`: in every state of a run, each thread's next effect is one that its
  contract allows, in a local state that fits the world.
-/

namespace Interleaving

variable {E : Type} {R : E → Type} {S α β : Type}

/-- What a thread undertakes to do and may rely on, in terms of its local state. -/
structure Contract (E : Type) (R : E → Type) (S : Type) where
  /-- The thread may perform `e` in state `σ`. -/
  may : S → E → Prop
  /-- The answer `r` to `e` may take the thread from `σ` to `σ'`. -/
  next : S → (e : E) → R e → S → Prop

namespace Contract

variable (K : Contract E R S)

/-- Every effect that the program comes to is allowed, whatever the answers are, and `Q` holds where
it returns. -/
def Follows : Program E R α → (α → S → Prop) → S → Prop
  | .done a, Q, σ => Q a σ
  | .perform e cont, Q, σ => K.may σ e ∧ ∀ r σ', K.next σ e r σ' → Follows (cont r) Q σ'

variable {K} {σ : S}

theorem Follows.mono {p : Program E R α} {Q Q' : α → S → Prop} (h : K.Follows p Q σ)
    (hQ : ∀ a σ, Q a σ → Q' a σ) : K.Follows p Q' σ := by
  induction p generalizing σ with
  | done a => exact hQ a σ h
  | perform e cont ih => exact ⟨h.1, fun r σ' hnext => ih r (h.2 r σ' hnext)⟩

theorem Follows.bind {p : Program E R α} {f : α → Program E R β} {Q : β → S → Prop}
    (h : K.Follows p (fun a σ => K.Follows (f a) Q σ) σ) : K.Follows (p >>= f) Q σ := by
  induction p generalizing σ with
  | done a => exact h
  | perform e cont ih => exact ⟨h.1, fun r σ' hnext => ih r (h.2 r σ' hnext)⟩

/-! ### Programs that may raise -/

section Fallible

variable {ε : Type}

variable (K) in
/-- `Follows` for a program that may raise: `Q` holds where it returns, `F` where it raises. -/
def Fulfils (p : ExceptT ε (Program E R) α) (Q : α → S → Prop) (F : ε → S → Prop) (σ : S) : Prop :=
  K.Follows p.run (fun
    | .ok a => Q a
    | .error x => F x) σ

variable {Q : α → S → Prop} {F : ε → S → Prop}

theorem Fulfils.pure {a : α} (h : Q a σ) :
    K.Fulfils (pure a : ExceptT ε (Program E R) α) Q F σ := h

theorem Fulfils.throw {x : ε} (h : F x σ) :
    K.Fulfils (throw x : ExceptT ε (Program E R) α) Q F σ := h

theorem Fulfils.mono {p : ExceptT ε (Program E R) α} {Q' : α → S → Prop} {F' : ε → S → Prop}
    (h : K.Fulfils p Q F σ) (hQ : ∀ a σ, Q a σ → Q' a σ) (hF : ∀ x σ, F x σ → F' x σ) :
    K.Fulfils p Q' F' σ := by
  refine Follows.mono h ?_
  rintro (x | a) σ h
  · exact hF x σ h
  · exact hQ a σ h

theorem Fulfils.bind {p : ExceptT ε (Program E R) α} {f : α → ExceptT ε (Program E R) β}
    {Q : β → S → Prop} (h : K.Fulfils p (fun a σ => K.Fulfils (f a) Q F σ) F σ) :
    K.Fulfils (p >>= f) Q F σ := by
  refine Follows.bind (Follows.mono h ?_)
  rintro (x | a) σ h
  · exact h
  · exact h

end Fallible

/-! ### Soundness -/

variable {C H X W : Type} {M : Machine E R C H X W} {P : Pool E R W → Pool E R W → Prop}
variable {Inv : W → Prop} {Fits : ℕ → S → W → Prop} {fresh : S} {init : W} {s s' : Pool E R W}

/-- The conditions on a contract that do not depend on the threads' programs: an effect that is
allowed keeps the invariant and takes the thread to a local state that fits the world, and what the
local states of other threads say of the world stays true. Only steps with `P` are considered. -/
structure Sound (K : Contract E R S) (M : Machine E R C H X W)
    (P : Pool E R W → Pool E R W → Prop) (Inv : W → Prop) (Fits : ℕ → S → W → Prop) (fresh : S)
    (init : W) : Prop where
  inv_init : Inv init
  fits_init : ∀ i, Fits i fresh init
  exec : ∀ {s s' : Pool E R W} {i σ e c r}, M.Run (Pool.initial init) s → P s s' →
    (∃ cont, s.threads i = .perform e cont) → M.exec i e c s.world = some (r, s'.world) →
    Inv s.world → Fits i σ s.world → K.may σ e →
    Inv s'.world ∧ (∃ σ', K.next σ e r σ' ∧ Fits i σ' s'.world) ∧
      ∀ j τ, j ≠ i → Fits j τ s.world → Fits j τ s'.world
  crash : ∀ {i w}, Inv w → Inv (M.crash i w) ∧ (∃ σ, Fits i σ (M.crash i w)) ∧
    ∀ j τ, j ≠ i → Fits j τ w → Fits j τ (M.crash i w)
  environment : ∀ {x w}, Inv w → Inv (M.environment x w) ∧
    ∀ i σ, Fits i σ w → Fits i σ (M.environment x w)
  program : ∀ h, K.Follows (M.program h) (fun _ _ => True) fresh

namespace Sound

/-- What holds in every state: each thread's program follows the contract from a local state that
fits the world, and threads that have not started are in the fresh one. -/
structure Holds (K : Contract E R S) (Inv : W → Prop) (Fits : ℕ → S → W → Prop) (fresh : S)
    (s : Pool E R W) : Prop where
  inv : Inv s.world
  follows : ∀ i, ∃ σ, Fits i σ s.world ∧ K.Follows (s.threads i) (fun _ _ => True) σ
  unstarted : ∀ i, s.started ≤ i → Fits i fresh s.world ∧ s.threads i = .done ()

theorem holds_step (hK : Sound K M P Inv Fits fresh init) (hrun : M.Run (Pool.initial init) s)
    (hs : Holds K Inv Fits fresh s) (hstep : M.Step s s') (hP : P s s') :
    Holds K Inv Fits fresh s' := by
  obtain ⟨l, hl⟩ := hstep
  have hlive : ∀ {i e cont}, s.threads i = .perform e cont → i < s.started := by
    intro i e cont hthread
    by_contra hle
    rw [(hs.unstarted i (Nat.not_lt.mp hle)).2] at hthread
    cases hthread
  cases l with
  | start h =>
      simp only [Machine.step, Option.some.injEq] at hl
      subst hl
      refine ⟨hs.inv, fun i => ?_, fun i hi => ?_⟩
      · by_cases hi : i = s.started
        · subst hi
          exact ⟨fresh, (hs.unstarted _ (Nat.le_refl _)).1, by simpa using hK.program h⟩
        · simpa [Function.update_of_ne hi] using hs.follows i
      · have hle : s.started + 1 ≤ i := hi
        have hne : i ≠ s.started := by omega
        simpa [Function.update_of_ne hne] using hs.unstarted i (by omega)
  | run i c =>
      cases hthread : s.threads i with
      | done a => simp [Machine.step, hthread] at hl
      | perform e cont =>
          simp only [Machine.step, hthread, Option.map_eq_some_iff] at hl
          obtain ⟨⟨r, w'⟩, hexec, rfl⟩ := hl
          obtain ⟨σ, hfits, hfollows⟩ := hs.follows i
          rw [hthread] at hfollows
          obtain ⟨hinv, ⟨σ', hnext, hfits'⟩, hframe⟩ :=
            hK.exec hrun hP ⟨cont, hthread⟩ hexec hs.inv hfits hfollows.1
          refine ⟨hinv, fun j => ?_, fun j hj => ?_⟩
          · by_cases hj : j = i
            · subst hj
              exact ⟨σ', hfits', by simpa using hfollows.2 r σ' hnext⟩
            · obtain ⟨τ, hτ, hfollows'⟩ := hs.follows j
              exact ⟨τ, hframe j τ hj hτ, by simpa [Function.update_of_ne hj] using hfollows'⟩
          · have hne : j ≠ i := by
              have := hlive hthread
              dsimp only at hj
              omega
            obtain ⟨hτ, hdone⟩ := hs.unstarted j hj
            exact ⟨hframe j fresh hne hτ, by simpa [Function.update_of_ne hne] using hdone⟩
  | crash i =>
      cases hthread : s.threads i with
      | done a => simp [Machine.step, hthread] at hl
      | perform e cont =>
          simp only [Machine.step, hthread, Option.some.injEq] at hl
          subst hl
          obtain ⟨hinv, ⟨σ, hσ⟩, hframe⟩ := hK.crash (i := i) hs.inv
          refine ⟨hinv, fun j => ?_, fun j hj => ?_⟩
          · by_cases hj : j = i
            · subst hj
              exact ⟨σ, hσ, by simp [Follows]⟩
            · obtain ⟨τ, hτ, hfollows'⟩ := hs.follows j
              exact ⟨τ, hframe j τ hj hτ, by simpa [Function.update_of_ne hj] using hfollows'⟩
          · have hne : j ≠ i := by
              have := hlive hthread
              dsimp only at hj
              omega
            obtain ⟨hτ, hdone⟩ := hs.unstarted j hj
            exact ⟨hframe j fresh hne hτ, by simpa [Function.update_of_ne hne] using hdone⟩
  | environment x =>
      simp only [Machine.step, Option.some.injEq] at hl
      subst hl
      obtain ⟨hinv, hframe⟩ := hK.environment (x := x) hs.inv
      refine ⟨hinv, fun i => ?_, fun i hi => ?_⟩
      · obtain ⟨σ, hσ, hfollows⟩ := hs.follows i
        exact ⟨σ, hframe i σ hσ, hfollows⟩
      · obtain ⟨hσ, hdone⟩ := hs.unstarted i hi
        exact ⟨hframe i fresh hσ, hdone⟩

/-- Every state of a run whose steps satisfy `P`. -/
theorem holds (hK : Sound K M P Inv Fits fresh init) (h : M.Reaches P (Pool.initial init) s) :
    Holds K Inv Fits fresh s :=
  h.invariant ⟨hK.inv_init, fun i => ⟨fresh, hK.fits_init i, trivial⟩,
    fun i _ => ⟨hK.fits_init i, rfl⟩⟩ fun _ _ hrun hstep hP hs => holds_step hK hrun hs hstep hP

/-- The next effect of every thread is allowed, in a local state that fits the world. -/
theorem may_of_perform (hK : Sound K M P Inv Fits fresh init)
    (h : M.Reaches P (Pool.initial init) s) {i : ℕ} {e : E} {cont : R e → Program E R Unit}
    (hthread : s.threads i = .perform e cont) : ∃ σ, Fits i σ s.world ∧ K.may σ e := by
  obtain ⟨σ, hfits, hfollows⟩ := (holds hK h).follows i
  rw [hthread] at hfollows
  exact ⟨σ, hfits, hfollows.1⟩

end Sound

end Contract

end Interleaving

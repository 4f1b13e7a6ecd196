import RiskProvider.Interleaving.Contracts

/-!
# How threads end

`Contract.Sound` says of every effect that it is allowed where it is performed. Here it is combined
with the local states in which the programs of threads end: `Contract.Sound.of_done` says what holds
of the world when a thread has returned or has died.

* `Contract.Follows.and`: two conclusions about one program.
* `Contract.Ends`: programs and crashes end in given local states.
-/

namespace Interleaving

namespace Contract

variable {E : Type} {R : E → Type} {S α : Type} {K : Contract E R S} {σ : S}

theorem Follows.and {p : Program E R α} {Q Q' : α → S → Prop} (h : K.Follows p Q σ)
    (h' : K.Follows p Q' σ) : K.Follows p (fun a σ => Q a σ ∧ Q' a σ) σ := by
  induction p generalizing σ with
  | done a => exact ⟨h, h'⟩
  | perform e cont ih =>
      exact ⟨h.1, fun r σ' hnext => ih r (h.2 r σ' hnext) (h'.2 r σ' hnext)⟩

/-- What every allowed effect keeps holds where the program returns. -/
theorem Follows.invariant {I : S → Prop} (hmay : ∀ σ e, I σ → K.may σ e)
    (hnext : ∀ σ e r σ', I σ → K.next σ e r σ' → I σ') (p : Program E R α) (hσ : I σ) :
    K.Follows p (fun _ => I) σ := by
  induction p generalizing σ with
  | done a => exact hσ
  | perform e cont ih => exact ⟨hmay σ e hσ, fun r σ' h => ih r (hnext σ e r σ' hσ h)⟩

/-! ### Soundness -/

variable {C H X W : Type} {M : Machine E R C H X W} {P : Pool E R W → Pool E R W → Prop}
variable {Inv : W → Prop} {Fits : ℕ → S → W → Prop} {fresh : S} {init : W} {s s' : Pool E R W}

/-- Threads end in the local states of `Done`: before they start, when their programs return, and
when they die. -/
structure Ends (K : Contract E R S) (Done : S → Prop) (M : Machine E R C H X W) (Inv : W → Prop)
    (Fits : ℕ → S → W → Prop) (fresh : S) : Prop where
  start : Done fresh
  program : ∀ h, K.Follows (M.program h) (fun _ => Done) fresh
  crash : ∀ {i w}, Inv w → ∃ σ, Fits i σ (M.crash i w) ∧ Done σ

variable {Done : S → Prop}

/-- Every thread is on its way to a local state in which it may end. -/
def Leads (K : Contract E R S) (Done : S → Prop) (Fits : ℕ → S → W → Prop) (s : Pool E R W)
    (i : ℕ) : Prop :=
  ∃ σ, Fits i σ s.world ∧ K.Follows (s.threads i) (fun _ => Done) σ

theorem Sound.leads_step (hK : Sound K M P Inv Fits fresh init)
    (hends : Ends K Done M Inv Fits fresh) (hrun : M.Run (Pool.initial init) s)
    (hs : Sound.Holds K Inv Fits fresh s) (hstep : M.Step s s') (hP : P s s')
    (h : ∀ i, K.Leads Done Fits s i) (i : ℕ) : K.Leads Done Fits s' i := by
  obtain ⟨l, hl⟩ := hstep
  cases l with
  | start inv =>
      simp only [Machine.step, Option.some.injEq] at hl
      subst hl
      by_cases hi : i = s.started
      · subst hi
        exact ⟨fresh, (hs.unstarted _ (Nat.le_refl _)).1, by simpa using hends.program inv⟩
      · simpa [Leads, Function.update_of_ne hi] using h i
  | run j c =>
      cases hthread : s.threads j with
      | done a => simp [Machine.step, hthread] at hl
      | perform e cont =>
          simp only [Machine.step, hthread, Option.map_eq_some_iff] at hl
          obtain ⟨⟨r, w'⟩, hexec, rfl⟩ := hl
          obtain ⟨σ, hfits, hfollows⟩ := h j
          rw [hthread] at hfollows
          obtain ⟨-, ⟨σ', hnext, hfits'⟩, hframe⟩ :=
            hK.exec hrun hP ⟨cont, hthread⟩ hexec hs.inv hfits hfollows.1
          -- `j` goes on with the rest of its program, and the others are where they were
          by_cases hi : i = j
          · subst hi
            exact ⟨σ', hfits', by simpa using hfollows.2 r σ' hnext⟩
          · obtain ⟨τ, hτ, hfollows'⟩ := h i
            exact ⟨τ, hframe i τ hi hτ, by simpa [Function.update_of_ne hi] using hfollows'⟩
  | crash j =>
      cases hthread : s.threads j with
      | done a => simp [Machine.step, hthread] at hl
      | perform e cont =>
          simp only [Machine.step, hthread, Option.some.injEq] at hl
          subst hl
          by_cases hi : i = j
          · subst hi
            obtain ⟨σ, hσ, hdone⟩ := hends.crash (i := i) hs.inv
            exact ⟨σ, hσ, by simpa [Follows] using hdone⟩
          · obtain ⟨τ, hτ, hfollows⟩ := h i
            obtain ⟨-, -, hframe⟩ := hK.crash (i := j) hs.inv
            exact ⟨τ, hframe i τ hi hτ, by simpa [Function.update_of_ne hi] using hfollows⟩
  | environment x =>
      simp only [Machine.step, Option.some.injEq] at hl
      subst hl
      obtain ⟨τ, hτ, hfollows⟩ := h i
      exact ⟨τ, (hK.environment (x := x) hs.inv).2 i τ hτ, hfollows⟩

/-- In every state of a run, what a thread that has ended has left behind fits a local state in
which it may end. -/
theorem Sound.of_done (hK : Sound K M P Inv Fits fresh init)
    (hends : Ends K Done M Inv Fits fresh) (h : M.Reaches P (Pool.initial init) s) {i : ℕ} {a : Unit}
    (hdone : s.threads i = .done a) : ∃ σ, Fits i σ s.world ∧ Done σ := by
  have hleads : Sound.Holds K Inv Fits fresh s ∧ ∀ i, K.Leads Done Fits s i := by
    refine h.invariant (I := fun s => Sound.Holds K Inv Fits fresh s ∧ ∀ i, K.Leads Done Fits s i)
      ⟨?_, fun i => ⟨fresh, hK.fits_init i, hends.start⟩⟩ ?_
    · exact hK.holds Relation.ReflTransGen.refl
    · intro s s' hrun hstep hP ⟨hs, hleads⟩
      exact ⟨hK.holds_step hrun hs hstep hP, hK.leads_step hends hrun hs hstep hP hleads⟩
  obtain ⟨σ, hfits, hfollows⟩ := hleads.2 i
  rw [hdone] at hfollows
  exact ⟨σ, hfits, hfollows⟩

end Contract

end Interleaving

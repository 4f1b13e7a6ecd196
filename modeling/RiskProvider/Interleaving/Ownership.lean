import RiskProvider.Interleaving.Program

/-!
# Thread-modular reasoning about interleaved programs

A rely-guarantee logic for the machines of `Interleaving.Program`. Each thread `i` owns a
part of the world, its `view i`. The rely is that no other thread's effect changes it; the
guarantee is a condition on the world in which thread `i` performs an effect. A program is
`Safe` when, whatever the others do between its effects, every effect that it comes to meets
the guarantee.

* `Discipline`: a global invariant, the views and the guarantee.
* `Discipline.Safe`, and `Discipline.Triple` for programs that may raise: the proof rules
  follow the program's text.
* `Discipline.Sound`: the invariant is kept and views are framed.
* `Discipline.Sound.guarantee`: in every reachable state, the next effect of every thread meets
  the guarantee.
-/

namespace Interleaving

variable {E : Type} {R : E → Type} {C H X W : Type}

/-- What a proof about a machine's threads fixes: an invariant, ownership and guarantees. -/
structure Discipline (M : Machine E R C H X W) (V : Type) where
  /-- The global invariant of the world. -/
  Inv : W → Prop
  /-- The part of the world that thread `i` owns. -/
  view : ℕ → W → V
  /-- What thread `i` guarantees of the world in which it performs `e`. -/
  guar : ℕ → E → W → Prop

namespace Discipline

variable {M : Machine E R C H X W} {V α β : Type} (D : Discipline M V)

/-- From `w`, with arbitrary steps of the other threads in between, every effect of the
program run by thread `i` meets the guarantee, and `Q` holds where it returns. -/
def Safe (i : ℕ) : Program E R α → (α → W → Prop) → W → Prop
  | .done a, Q, w => Q a w
  | .perform e next, Q, w => ∀ w₁, D.Inv w₁ → D.view i w₁ = D.view i w →
      D.guar i e w₁ ∧ ∀ c r w', M.exec i e c w₁ = some (r, w') → Safe i (next r) Q w'

variable {D} {i : ℕ}

/-- Safety only depends on the thread's own view. -/
theorem Safe.stable {p : Program E R α} {Q : α → W → Prop} {w w₁ : W} (h : D.Safe i p Q w)
    (hview : D.view i w₁ = D.view i w) (hQ : ∀ a, Q a w → Q a w₁) : D.Safe i p Q w₁ := by
  cases p with
  | done a => exact hQ a h
  | perform e next =>
      intro w₂ hinv hview₂
      exact h w₂ hinv (hview₂.trans hview)

theorem Safe.mono {p : Program E R α} {Q Q' : α → W → Prop} {w : W} (h : D.Safe i p Q w)
    (hQ : ∀ a w, Q a w → Q' a w) : D.Safe i p Q' w := by
  induction p generalizing w with
  | done a => exact hQ a w h
  | perform e next ih =>
      intro w₁ hinv hview
      obtain ⟨hguar, hnext⟩ := h w₁ hinv hview
      exact ⟨hguar, fun c r w' hexec => ih r (hnext c r w' hexec)⟩

theorem Safe.bind {p : Program E R α} {f : α → Program E R β} {Q : β → W → Prop} {w : W}
    (h : D.Safe i p (fun a w => D.Safe i (f a) Q w) w) : D.Safe i (p >>= f) Q w := by
  induction p generalizing w with
  | done a => exact h
  | perform e next ih =>
      intro w₁ hinv hview
      obtain ⟨hguar, hnext⟩ := h w₁ hinv hview
      exact ⟨hguar, fun c r w' hexec => ih r (hnext c r w' hexec)⟩

/-! ### Programs that may raise -/

section Fallible

variable {ε : Type}

variable (D) in
/-- `Safe` for a program that may raise: `Q` holds where it returns, `F` where it raises. -/
def Triple (i : ℕ) (p : ExceptT ε (Program E R) α) (Q : α → W → Prop) (F : ε → W → Prop)
    (w : W) : Prop :=
  D.Safe i p.run (fun r w => match r with
    | .ok a => Q a w
    | .error x => F x w) w

variable {Q : α → W → Prop} {F : ε → W → Prop} {w : W}

theorem Triple.pure {a : α} (h : Q a w) :
    D.Triple i (pure a : ExceptT ε (Program E R) α) Q F w := h

theorem Triple.throw {x : ε} (h : F x w) :
    D.Triple i (throw x : ExceptT ε (Program E R) α) Q F w := h

theorem Triple.mono {p : ExceptT ε (Program E R) α} {Q' : α → W → Prop} {F' : ε → W → Prop}
    (h : D.Triple i p Q F w) (hQ : ∀ a w, Q a w → Q' a w) (hF : ∀ x w, F x w → F' x w) :
    D.Triple i p Q' F' w := by
  refine Safe.mono h ?_
  rintro (x | a) w h
  · exact hF x w h
  · exact hQ a w h

theorem Triple.bind {p : ExceptT ε (Program E R) α} {f : α → ExceptT ε (Program E R) β}
    {Q : β → W → Prop} (h : D.Triple i p (fun a w => D.Triple i (f a) Q F w) F w) :
    D.Triple i (p >>= f) Q F w := by
  refine Safe.bind (Safe.mono h ?_)
  rintro (x | a) w h
  · exact h
  · exact h

end Fallible

/-! ### Soundness -/

/-- The conditions on a discipline that do not depend on the programs: the invariant is kept,
and no thread changes what another one owns. `fresh` is the view of a thread that has not
started. -/
structure Sound (D : Discipline M V) (fresh : V) (init : W) : Prop where
  inv_init : D.Inv init
  view_init : ∀ i, D.view i init = fresh
  inv_exec : ∀ {i e c w r w'}, D.Inv w → M.exec i e c w = some (r, w') → D.Inv w'
  frame_exec : ∀ {i j e c w r w'}, D.Inv w → M.exec i e c w = some (r, w') → j ≠ i →
    D.view j w' = D.view j w
  inv_crash : ∀ {i w}, D.Inv w → D.Inv (M.crash i w)
  frame_crash : ∀ {i j w}, D.Inv w → j ≠ i → D.view j (M.crash i w) = D.view j w
  inv_environment : ∀ {x w}, D.Inv w → D.Inv (M.environment x w)
  frame_environment : ∀ {x j w}, D.view j (M.environment x w) = D.view j w
  safe_program : ∀ {i h w}, D.view i w = fresh →
    D.Safe i (M.program h) (fun _ _ => True) w

namespace Sound

variable {fresh : V} {init : W} {s s' : Pool E R W}

/-- The invariant of the soundness proof: the global invariant, every thread's program is safe
from here on, and threads that have not started own nothing. -/
structure Holds (D : Discipline M V) (fresh : V) (s : Pool E R W) : Prop where
  inv : D.Inv s.world
  safe : ∀ i, D.Safe i (s.threads i) (fun _ _ => True) s.world
  unstarted : ∀ i, s.started ≤ i → D.view i s.world = fresh ∧ s.threads i = .done ()

theorem holds_initial (hD : Sound D fresh init) : Holds D fresh (Pool.initial init) where
  inv := hD.inv_init
  safe _ := trivial
  unstarted i _ := ⟨hD.view_init i, rfl⟩

/-- A thread that has a next effect has been started. -/
theorem Holds.lt_started (h : Holds D fresh s) {i : ℕ} {e : E} {next : R e → Program E R Unit}
    (hthread : s.threads i = .perform e next) : i < s.started := by
  by_contra hle
  have := (h.unstarted i (Nat.not_lt.mp hle)).2
  rw [hthread] at this
  cases this

theorem holds_start (hD : Sound D fresh init) (hs : Holds D fresh s) (h : H) :
    Holds D fresh
      { s with
        threads := Function.update s.threads s.started (M.program h)
        started := s.started + 1 } where
  inv := hs.inv
  safe i := by
    by_cases hi : i = s.started
    · subst hi
      simpa using hD.safe_program (hs.unstarted _ (Nat.le_refl _)).1
    · simpa [Function.update_of_ne hi] using hs.safe i
  unstarted i hi := by
    have hle : s.started + 1 ≤ i := hi
    have hne : i ≠ s.started := by omega
    simpa [Function.update_of_ne hne] using hs.unstarted i (by omega)

theorem holds_run (hD : Sound D fresh init) (hs : Holds D fresh s) {i : ℕ} {e : E}
    {next : R e → Program E R Unit} {c : C} {r : R e} {w' : W}
    (hthread : s.threads i = .perform e next)
    (hexec : M.exec i e c s.world = some (r, w')) :
    Holds D fresh
      { s with world := w', threads := Function.update s.threads i (next r) } := by
  have hsafe := hs.safe i
  rw [hthread] at hsafe
  have hnext := (hsafe s.world hs.inv rfl).2 c r w' hexec
  have hframe : ∀ j, j ≠ i → D.view j w' = D.view j s.world := fun j hj =>
    hD.frame_exec hs.inv hexec hj
  refine ⟨hD.inv_exec hs.inv hexec, fun j => ?_, fun j hj => ?_⟩
  · by_cases hj : j = i
    · subst hj
      simpa using hnext
    · simpa [Function.update_of_ne hj] using (hs.safe j).stable (hframe j hj) fun _ h => h
  · have hne : j ≠ i := by have := hs.lt_started hthread; dsimp only at hj; omega
    simpa [Function.update_of_ne hne, hframe j hne] using hs.unstarted j hj

theorem holds_crash (hD : Sound D fresh init) (hs : Holds D fresh s) {i : ℕ} {e : E}
    {next : R e → Program E R Unit} (hthread : s.threads i = .perform e next) :
    Holds D fresh
      { s with
        world := M.crash i s.world
        threads := Function.update s.threads i (.done ()) } := by
  have hframe : ∀ j, j ≠ i → D.view j (M.crash i s.world) = D.view j s.world := fun j hj =>
    hD.frame_crash hs.inv hj
  refine ⟨hD.inv_crash hs.inv, fun j => ?_, fun j hj => ?_⟩
  · by_cases hj : j = i
    · subst hj
      simp [Safe]
    · simpa [Function.update_of_ne hj] using (hs.safe j).stable (hframe j hj) fun _ h => h
  · have hne : j ≠ i := by have := hs.lt_started hthread; dsimp only at hj; omega
    simpa [Function.update_of_ne hne, hframe j hne] using hs.unstarted j hj

theorem holds_step (hD : Sound D fresh init) (hs : Holds D fresh s) (hstep : M.Step s s') :
    Holds D fresh s' := by
  obtain ⟨l, hl⟩ := hstep
  cases l with
  | start h =>
      simp only [Machine.step, Option.some.injEq] at hl
      exact hl ▸ holds_start hD hs h
  | run i c =>
      cases hthread : s.threads i with
      | done a => simp [Machine.step, hthread] at hl
      | perform e next =>
          simp only [Machine.step, hthread, Option.map_eq_some_iff] at hl
          obtain ⟨⟨r, w'⟩, hexec, rfl⟩ := hl
          exact holds_run hD hs hthread hexec
  | crash i =>
      cases hthread : s.threads i with
      | done a => simp [Machine.step, hthread] at hl
      | perform e next =>
          simp only [Machine.step, hthread, Option.some.injEq] at hl
          exact hl ▸ holds_crash hD hs hthread
  | environment x =>
      simp only [Machine.step, Option.some.injEq] at hl
      subst hl
      refine ⟨hD.inv_environment hs.inv, fun j => ?_, fun j hj => ?_⟩
      · exact (hs.safe j).stable hD.frame_environment fun _ h => h
      · rw [hD.frame_environment]
        exact hs.unstarted j hj

/-- Every state of every run from the initial one satisfies the soundness invariant. -/
theorem holds_of_run (hD : Sound D fresh init) (h : M.Run (Pool.initial init) s) :
    Holds D fresh s :=
  h.invariant (holds_initial hD) fun _ _ _ hstep _ hs => holds_step hD hs hstep

/-- In every reachable state, the next effect of every thread meets the guarantee. -/
theorem guarantee (hD : Sound D fresh init) (h : M.Run (Pool.initial init) s) {i : ℕ} {e : E}
    {next : R e → Program E R Unit} (hthread : s.threads i = .perform e next) :
    D.guar i e s.world := by
  have hs := holds_of_run hD h
  have hsafe := hs.safe i
  rw [hthread] at hsafe
  exact (hsafe s.world hs.inv rfl).1

/-- In every reachable state, the global invariant holds. -/
theorem invariant (hD : Sound D fresh init) (h : M.Run (Pool.initial init) s) :
    D.Inv s.world :=
  (holds_of_run hD h).inv

end Sound

end Discipline

end Interleaving

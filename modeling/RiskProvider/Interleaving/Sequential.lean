import RiskProvider.Interleaving.Program

/-!
# Programs that run alone

What a program does when no other thread acts in between. `Machine.complete` runs a program to
its end under a list of choices, and `Machine.Ensures` is the Hoare logic of such runs: the proof
rules follow the program's text. Answers may be marked as faults, and the logic remembers the
world in which the first one has come.

* `Machine.complete`, `Machine.execute_of_complete`: it is a run of the whole pool.
* `Machine.firstFault`: the world in which the first fault of a complete run comes.
* `Machine.Ensures`, and `Machine.Ends` for programs that may raise.
-/

namespace Interleaving

namespace Machine

variable {E : Type} {R : E → Type} {C H X W : Type} (M : Machine E R C H X W) {α β : Type}

/-- Thread `i` runs the program to its end, each effect under the next choice. -/
def complete (i : ℕ) : Program E R α → List C → W → Option (α × W)
  | .done a, [], w => some (a, w)
  | .perform e next, c :: cs, w => (M.exec i e c w).bind fun rw => complete i (next rw.1) cs rw.2
  | _, _, _ => none

/-- The world in which the first answer comes that is a fault, when the program runs to its end. -/
def firstFault (fault : (e : E) → R e → Bool) (i : ℕ) : Program E R α → List C → W → Option W
  | .perform e next, c :: cs, w => (M.exec i e c w).bind fun rw =>
      if fault e rw.1 then some w else firstFault fault i (next rw.1) cs rw.2
  | _, _, _ => none

/-- Every complete run of the program from `w`, where `f` is the world of an earlier fault, ends
as `Q` says: with its result, the world of the first fault and its last world. -/
def Ensures (fault : (e : E) → R e → Bool) (i : ℕ) (p : Program E R α)
    (Q : α → Option W → W → Prop) (f : Option W) (w : W) : Prop :=
  ∀ cs a w', M.complete i p cs w = some (a, w') → Q a (f.or (M.firstFault fault i p cs w)) w'

variable {M} {fault : (e : E) → R e → Bool} {i : ℕ} {f : Option W} {w w' : W} {cs : List C}

theorem complete_done {a b : α} (h : M.complete i (.done a) cs w = some (b, w')) :
    cs = [] ∧ b = a ∧ w' = w := by
  cases cs with
  | nil =>
      obtain ⟨rfl, rfl⟩ : a = b ∧ w = w' := by simpa [complete] using h
      exact ⟨rfl, rfl, rfl⟩
  | cons c cs => cases h

theorem complete_perform {e : E} {next : R e → Program E R α} {a : α}
    (h : M.complete i (.perform e next) cs w = some (a, w')) :
    ∃ c cs' r w₁, cs = c :: cs' ∧ M.exec i e c w = some (r, w₁) ∧
      M.complete i (next r) cs' w₁ = some (a, w') := by
  cases cs with
  | nil => cases h
  | cons c cs =>
      obtain ⟨⟨r, w₁⟩, hexec, hrest⟩ := Option.bind_eq_some_iff.mp h
      exact ⟨c, cs, r, w₁, rfl, hexec, hrest⟩

/-- A complete run of a composition is one of its parts after the other, and so is its search for
the first fault. -/
theorem complete_bind (fault : (e : E) → R e → Bool) {p : Program E R α}
    {g : α → Program E R β} {b : β} (h : M.complete i (p >>= g) cs w = some (b, w')) :
    ∃ cs₁ cs₂ a w₁, M.complete i p cs₁ w = some (a, w₁) ∧
      M.complete i (g a) cs₂ w₁ = some (b, w') ∧
      M.firstFault fault i (p >>= g) cs w =
        (M.firstFault fault i p cs₁ w).or (M.firstFault fault i (g a) cs₂ w₁) := by
  induction p generalizing cs w with
  | done a => exact ⟨[], cs, a, w, rfl, h, rfl⟩
  | perform e next ih =>
      obtain ⟨c, cs', r, w₁, rfl, hexec, hrest⟩ := complete_perform h
      obtain ⟨cs₁, cs₂, a, w₂, hp, hg, hfault⟩ := ih r hrest
      refine ⟨c :: cs₁, cs₂, a, w₂, by simp [complete, hexec, hp], hg, ?_⟩
      simp only [Program.perform_bind, firstFault, hexec, Option.bind_some, hfault]
      split <;> simp

/-- A complete run of a program whose result is mapped. -/
theorem complete_map (i : ℕ) (g : α → β) (p : Program E R α) (cs : List C) (w : W) :
    M.complete i (g <$> p) cs w = (M.complete i p cs w).map fun aw => (g aw.1, aw.2) := by
  induction p generalizing cs w with
  | done a =>
      cases cs with
      | nil => rfl
      | cons c cs => rfl
  | perform e next ih =>
      cases cs with
      | nil => rfl
      | cons c cs =>
          change (M.exec i e c w).bind (fun rw => M.complete i (g <$> next rw.1) cs rw.2) = _
          simp only [ih, complete, Option.map_bind]
          rfl

/-- A complete run is an execution of the pool in which no other thread acts. -/
theorem execute_of_complete {check : Pool E R W → Pool E R W → Bool}
    (hcheck : ∀ t t', check t t' = true) {p : Program E R Unit} {s : Pool E R W}
    (hthread : s.threads i = p) (h : M.complete i p cs s.world = some ((), w')) :
    M.execute check s (cs.map (Label.run i)) = some
      { s with world := w', threads := Function.update s.threads i (.done ()) } := by
  induction p generalizing cs s with
  | done a =>
      obtain ⟨rfl, -, rfl⟩ := complete_done h
      simp [execute, ← hthread, Function.update_eq_self]
  | perform e next ih =>
      obtain ⟨c, cs', r, w₁, rfl, hexec, hrest⟩ := complete_perform h
      have hstep : M.step s (.run i c) = some
          { s with world := w₁, threads := Function.update s.threads i (next r) } := by
        simp [step, hthread, hexec]
      have hnext := ih r (s := { s with
        world := w₁, threads := Function.update s.threads i (next r) })
        (Function.update_self ..) hrest
      simpa [execute, hstep, hcheck] using hnext

theorem Ensures.done {Q : α → Option W → W → Prop} {a : α} (h : Q a f w) :
    M.Ensures fault i (.done a) Q f w := by
  intro cs b w' hrun
  obtain ⟨rfl, rfl, rfl⟩ := complete_done hrun
  simpa [firstFault] using h

theorem Ensures.perform {e : E} {next : R e → Program E R α} {Q : α → Option W → W → Prop}
    (h : ∀ c r w', M.exec i e c w = some (r, w') →
      M.Ensures fault i (next r) Q (f.or (if fault e r then some w else none)) w') :
    M.Ensures fault i (.perform e next) Q f w := by
  intro cs a w' hrun
  obtain ⟨c, cs', r, w₁, rfl, hexec, hrest⟩ := complete_perform hrun
  have hnext := h c r w₁ hexec _ _ _ hrest
  simp only [firstFault, hexec, Option.bind_some]
  cases hfault : fault e r <;> simpa [hfault, Option.or_assoc] using hnext

theorem Ensures.mono {p : Program E R α} {Q Q' : α → Option W → W → Prop}
    (h : M.Ensures fault i p Q' f w) (hQ : ∀ a f w, Q' a f w → Q a f w) :
    M.Ensures fault i p Q f w :=
  fun cs a w' hrun => hQ a _ w' (h cs a w' hrun)

theorem Ensures.bind {p : Program E R α} {g : α → Program E R β} {Q : β → Option W → W → Prop}
    (h : M.Ensures fault i p (fun a => M.Ensures fault i (g a) Q) f w) :
    M.Ensures fault i (p >>= g) Q f w := by
  intro cs b w' hrun
  obtain ⟨cs₁, cs₂, a, w₁, hp, hg, hfault⟩ := complete_bind fault hrun
  rw [hfault, ← Option.or_assoc]
  exact h cs₁ a w₁ hp cs₂ b w' hg

/-! ### Programs that may raise -/

section Fallible

variable {ε : Type}

variable (M fault) in
/-- `Ensures` for a program that may raise: `Q` holds where it returns, `F` where it raises. -/
def Ends (i : ℕ) (p : ExceptT ε (Program E R) α) (Q : α → Option W → W → Prop)
    (F : ε → Option W → W → Prop) (f : Option W) (w : W) : Prop :=
  M.Ensures fault i p.run (fun
    | .ok a => Q a
    | .error x => F x) f w

variable {Q : α → Option W → W → Prop} {F : ε → Option W → W → Prop}

theorem Ends.pure {a : α} (h : Q a f w) :
    M.Ends fault i (pure a : ExceptT ε (Program E R) α) Q F f w := Ensures.done h

theorem Ends.throw {x : ε} (h : F x f w) :
    M.Ends fault i (throw x : ExceptT ε (Program E R) α) Q F f w := Ensures.done h

theorem Ends.mono {p : ExceptT ε (Program E R) α} {Q' : α → Option W → W → Prop}
    {F' : ε → Option W → W → Prop} (h : M.Ends fault i p Q' F' f w)
    (hQ : ∀ a f w, Q' a f w → Q a f w) (hF : ∀ x f w, F' x f w → F x f w) :
    M.Ends fault i p Q F f w := by
  refine Ensures.mono h ?_
  rintro (x | a) f w h
  · exact hF x f w h
  · exact hQ a f w h

theorem Ends.bind {p : ExceptT ε (Program E R) α} {g : α → ExceptT ε (Program E R) β}
    {Q : β → Option W → W → Prop}
    (h : M.Ends fault i p (fun a => M.Ends fault i (g a) Q F) F f w) :
    M.Ends fault i (p >>= g) Q F f w := by
  refine Ensures.bind (Ensures.mono h ?_)
  rintro (x | a) f w h
  · exact Ensures.done h
  · exact h

end Fallible

end Machine

end Interleaving

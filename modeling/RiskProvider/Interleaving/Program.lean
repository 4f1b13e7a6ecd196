import Mathlib

/-!
# Interleaved programs over a shared world

Sequential programs that act on a shared world one effect at a time, and the transition
system of any number of them. An effect is the unit of interleaving: between two effects of
one thread every other thread may act, and a thread may stop for good at any of its effects.

* `Program E R α`: a program with effects `E`, where effect `e` answers with a value of
  `R e`. With `ExceptT` on top it is a program that can raise and handle exceptions.
* `Machine`: how the world answers an effect, what a crash and the environment do to it, and
  which programs may be started.
* `Machine.step`, `Machine.execute`: one labelled step and a run, as functions.
* `Machine.Reaches C`: the runs all of whose steps satisfy `C`.
-/

namespace Interleaving

/-- A sequential program with effects `E`, returning `α`. -/
inductive Program (E : Type) (R : E → Type) (α : Type) where
  /-- The program has returned `a`. -/
  | done (a : α)
  /-- The next effect is `e`; the program continues with its answer. -/
  | perform (e : E) (next : R e → Program E R α)

namespace Program

variable {E : Type} {R : E → Type} {α β : Type}

/-- Sequential composition. -/
def bind : Program E R α → (α → Program E R β) → Program E R β
  | done a, f => f a
  | perform e next, f => perform e fun r => (next r).bind f

instance : Monad (Program E R) where
  pure := done
  bind := bind

@[simp]
theorem pure_eq_done (a : α) : (pure a : Program E R α) = done a := rfl

@[simp]
theorem done_bind (a : α) (f : α → Program E R β) : done a >>= f = f a := rfl

@[simp]
theorem perform_bind (e : E) (next : R e → Program E R α) (f : α → Program E R β) :
    perform e next >>= f = perform e fun r => next r >>= f := rfl

instance : LawfulMonad (Program E R) := by
  refine LawfulMonad.mk' _ (fun p => ?_) (fun a f => rfl) (fun p f g => ?_)
  · induction p with
    | done a => rfl
    | perform e next ih => exact congrArg (perform e) (funext ih)
  · induction p with
    | done a => rfl
    | perform e next ih => exact congrArg (perform e) (funext ih)

end Program

/-- A shared world `W` for threads with effects `E`. The choices `C` resolve what the world
leaves open, `H` names the programs that may be started and `X` the environment's moves. -/
structure Machine (E : Type) (R : E → Type) (C H X W : Type) where
  /-- Thread `i` performs `e` under choice `c`; `none` when it must wait or `c` does not fit. -/
  exec : ℕ → (e : E) → C → W → Option (R e × W)
  /-- What the world does with what thread `i` held when it dies. -/
  crash : ℕ → W → W
  /-- A move of the environment. -/
  environment : X → W → W
  /-- The program that a start of `h` runs. -/
  program : H → Program E R Unit

/-- A world together with the programs running on it. -/
structure Pool (E : Type) (R : E → Type) (W : Type) where
  /-- The shared world. -/
  world : W
  /-- What each thread has left to do. -/
  threads : ℕ → Program E R Unit
  /-- The number of threads started so far; the next thread's name. -/
  started : ℕ

/-- The pool in which no thread has started. -/
def Pool.initial {E : Type} {R : E → Type} {W : Type} (w : W) : Pool E R W :=
  { world := w, threads := fun _ => .done (), started := 0 }

/-- The labels of the transition system of a machine. -/
inductive Label (C H X : Type) where
  /-- A new thread starts on the program of `h`. -/
  | start (h : H)
  /-- Thread `i` performs its next effect under choice `c`. -/
  | run (i : ℕ) (c : C)
  /-- Thread `i` dies before its next effect. -/
  | crash (i : ℕ)
  /-- The environment moves. -/
  | environment (x : X)

namespace Machine

variable {E : Type} {R : E → Type} {C H X W : Type} (M : Machine E R C H X W)

/-- One labelled step, when it is possible. -/
def step (s : Pool E R W) : Label C H X → Option (Pool E R W)
  | .start h => some
      { s with
        threads := Function.update s.threads s.started (M.program h)
        started := s.started + 1 }
  | .run i c =>
      match s.threads i with
      | .done _ => none
      | .perform e next =>
          (M.exec i e c s.world).map fun rw =>
            { s with world := rw.2, threads := Function.update s.threads i (next rw.1) }
  | .crash i =>
      match s.threads i with
      | .done _ => none
      | .perform _ _ => some
          { s with
            world := M.crash i s.world
            threads := Function.update s.threads i (.done ()) }
  | .environment x => some { s with world := M.environment x s.world }

/-- The state after a list of labelled steps, when all of them are possible and pass a check. -/
def execute (check : Pool E R W → Pool E R W → Bool) (s : Pool E R W) :
    List (Label C H X) → Option (Pool E R W)
  | [] => some s
  | l :: ls => (M.step s l).bind fun s' => if check s s' then execute check s' ls else none

/-- `s` steps to `s'` under some label. -/
def Step (s s' : Pool E R W) : Prop := ∃ l, M.step s l = some s'

/-- A run from `s` to `s'` all of whose steps satisfy `P`. -/
def Reaches (P : Pool E R W → Pool E R W → Prop) : Pool E R W → Pool E R W → Prop :=
  Relation.ReflTransGen fun s s' => M.Step s s' ∧ P s s'

/-- A run from `s` to `s'`. -/
def Run : Pool E R W → Pool E R W → Prop := M.Reaches fun _ _ => True

variable {M} {P : Pool E R W → Pool E R W → Prop} {s s' : Pool E R W}

/-- Runs may be restricted less. -/
theorem Reaches.mono {P' : Pool E R W → Pool E R W → Prop} (hP : ∀ t t', P t t' → P' t t')
    (h : M.Reaches P s s') : M.Reaches P' s s' := by
  induction h with
  | refl => exact Relation.ReflTransGen.refl
  | tail _ hlast ih => exact ih.tail ⟨hlast.1, hP _ _ hlast.2⟩

/-- A restricted run is a run. -/
theorem Reaches.run (h : M.Reaches P s s') : M.Run s s' := h.mono fun _ _ _ => trivial

/-- Executing a list of labels is a run, restricted to what is checked. -/
theorem reaches_of_execute {check : Pool E R W → Pool E R W → Bool}
    (hcheck : ∀ t t', check t t' = true → P t t') {ls : List (Label C H X)}
    (h : M.execute check s ls = some s') : M.Reaches P s s' := by
  induction ls generalizing s with
  | nil =>
      obtain rfl : s = s' := by simpa [execute] using h
      exact Relation.ReflTransGen.refl
  | cons l ls ih =>
      obtain ⟨t, ht, hrest⟩ := Option.bind_eq_some_iff.mp h
      split at hrest
      next hst => exact Relation.ReflTransGen.head ⟨⟨l, ht⟩, hcheck s t hst⟩ (ih hrest)
      · cases hrest

/-- What holds of the first state and is kept by every step of a restricted run holds of its
last state. -/
theorem Reaches.invariant {I : Pool E R W → Prop} (h : M.Reaches P s s') (hinit : I s)
    (hstep : ∀ t t', M.Run s t → M.Step t t' → P t t' → I t → I t') : I s' := by
  induction h with
  | refl => exact hinit
  | tail hrun hlast ih => exact hstep _ _ (Reaches.run hrun) hlast.1 hlast.2 ih

/-- The four ways in which a step can come about. -/
theorem step_cases (h : M.Step s s') :
    (∃ x, s'.world = M.environment x s.world) ∨
      s'.world = s.world ∨
      (∃ i, s'.world = M.crash i s.world) ∨
      ∃ i e next c r, s.threads i = .perform e next ∧
        M.exec i e c s.world = some (r, s'.world) ∧ M.step s (.run i c) = some s' := by
  obtain ⟨l, hl⟩ := h
  cases l with
  | start h =>
      simp only [step, Option.some.injEq] at hl
      exact .inr (.inl (by rw [← hl]))
  | run i c =>
      cases hthread : s.threads i with
      | done a => simp [step, hthread] at hl
      | perform e next =>
          have hstep := hl
          simp only [step, hthread, Option.map_eq_some_iff] at hl
          obtain ⟨⟨r, w'⟩, hexec, rfl⟩ := hl
          exact .inr (.inr (.inr ⟨i, e, next, c, r, hthread, hexec, hstep⟩))
  | crash i =>
      cases hthread : s.threads i with
      | done a => simp [step, hthread] at hl
      | perform e next =>
          simp only [step, hthread, Option.some.injEq] at hl
          exact .inr (.inr (.inl ⟨i, by rw [← hl]⟩))
  | environment x =>
      simp only [step, Option.some.injEq] at hl
      exact .inl ⟨x, by rw [← hl]⟩

end Machine

end Interleaving

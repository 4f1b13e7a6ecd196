import RiskProvider.Interleaving.Conclusions
import RiskProvider.Interleaving.LockOrder

/-!
# Progress

Programs are finite, so threads that are scheduled end, unless they wait. `Machine.exists_drained`
makes that a fact about pools: where some thread can go on as long as not all of them are idle, a
pool can be run until all of them are. Threads that wait for locks are covered by
`exists_of_waits`: with locks taken in the order of finitely many levels, the last thread of a chain
of waiting threads waits for none.
-/

namespace Interleaving

/-! ### Chains of waiting threads -/

section Locks

variable {T L : Type} {level : L → ℕ} {waits holds : T → L → Prop} {i : T} {l : L}

/-- A thread that waits for a lock waits, through others, for one that waits for none. -/
theorem exists_of_waits {b : ℕ} (hlevel : ∀ l, level l ≤ b)
    (horder : ∀ i l, waits i l → ∀ l', holds i l' → level l' < level l)
    (hheld : ∀ i l, waits i l → ∃ j, holds j l) (h : waits i l) :
    ∃ j, Relation.TransGen (WaitsFor waits holds) i j ∧ (∃ l', holds j l') ∧ ∀ l', ¬ waits j l' := by
  -- the levels of the locks waited for increase along the chain
  induction hk : b - level l using Nat.strong_induction_on generalizing i l with
  | h k ih =>
      obtain ⟨j, hj⟩ := hheld i l h
      have hij : WaitsFor waits holds i j := ⟨l, h, hj⟩
      by_cases hwaits : ∃ l', waits j l'
      · obtain ⟨l', hl'⟩ := hwaits
        have hlt := horder j l' hl' l hj
        have hle := hlevel l'
        obtain ⟨m, hpath, hm⟩ := ih (b - level l') (by omega) hl' rfl
        exact ⟨m, .head hij hpath, hm⟩
      · exact ⟨j, .single hij, ⟨l, hj⟩, fun l' hl' => hwaits ⟨l', hl'⟩⟩

end Locks

/-! ### Pools that run until all threads are idle -/

variable {E : Type} {R : E → Type} {C H X W α : Type}

/-- What may be left of a program after its next effect. -/
inductive Program.Rest : Program E R α → Program E R α → Prop
  | intro (e : E) (cont : R e → Program E R α) (r : R e) : Rest (cont r) (.perform e cont)

/-- Programs are finite. -/
theorem Program.wellFounded_rest : WellFounded (Program.Rest : Program E R α → _ → Prop) := by
  refine ⟨fun p => ?_⟩
  induction p with
  | done a => exact ⟨_, fun q h => by cases h⟩
  | perform e cont ih =>
      refine ⟨_, fun q h => ?_⟩
      cases h with
      | intro _ _ r => exact ih r

/-- The programs of the threads that have been started. -/
def Pool.programs (s : Pool E R W) : Multiset (Program E R Unit) :=
  (Multiset.range s.started).map s.threads

namespace Machine

/-- A thread performs its next effect under a choice with `Q`. -/
def Advances (M : Machine E R C H X W) (Q : C → Prop) (s s' : Pool E R W) : Prop :=
  ∃ i c, Q c ∧ M.step s (.run i c) = some s'

variable {M : Machine E R C H X W} {Q : C → Prop} {s s' : Pool E R W}

theorem step_run {i : ℕ} {e : E} {cont : R e → Program E R Unit} {c : C} {r : R e} {w' : W}
    (hthread : s.threads i = .perform e cont) (hexec : M.exec i e c s.world = some (r, w')) :
    M.step s (.run i c) =
      some { s with world := w', threads := Function.update s.threads i (cont r) } := by
  simp [step, hthread, hexec]

/-- A thread that goes on leaves the pool with less to do. -/
theorem Advances.programs (h : M.Advances Q s s')
    (hdone : ∀ i, s.started ≤ i → s.threads i = .done ()) :
    Relation.CutExpand Program.Rest s'.programs s.programs := by
  obtain ⟨i, c, -, hstep⟩ := h
  cases hthread : s.threads i with
  | done a => simp [step, hthread] at hstep
  | perform e cont =>
      simp only [step, hthread, Option.map_eq_some_iff] at hstep
      obtain ⟨⟨r, w'⟩, -, rfl⟩ := hstep
      have hi : i ∈ Multiset.range s.started := by
        rw [Multiset.mem_range]
        by_contra hle
        rw [hdone i (Nat.not_lt.mp hle)] at hthread
        cases hthread
      -- only the program of `i` changes
      have hothers : ∀ j ∈ (Multiset.range s.started).erase i,
          Function.update s.threads i (cont r) j = s.threads j := by
        intro j hj
        have hne : j ≠ i := (Multiset.nodup_range _).mem_erase_iff.mp hj |>.1
        rw [Function.update_of_ne hne]
      refine ⟨{cont r}, .perform e cont, ?_, ?_⟩
      · intro p hp
        obtain rfl := Multiset.mem_singleton.mp hp
        exact .intro e cont r
      · unfold Pool.programs
        rw [← Multiset.cons_erase hi, Multiset.map_cons, Multiset.map_cons,
          Multiset.map_congr rfl hothers, hthread]
        simp only [Function.update_self, ← Multiset.singleton_add]
        abel

/-- Advancing starts no thread. -/
theorem Advances.unstarted (h : M.Advances Q s s')
    (hdone : ∀ i, s.started ≤ i → s.threads i = .done ()) :
    ∀ i, s'.started ≤ i → s'.threads i = .done () := by
  obtain ⟨i, c, -, hstep⟩ := h
  cases hthread : s.threads i with
  | done a => simp [step, hthread] at hstep
  | perform e cont =>
      simp only [step, hthread, Option.map_eq_some_iff] at hstep
      obtain ⟨⟨r, w'⟩, -, rfl⟩ := hstep
      intro j hj
      have hne : j ≠ i := by
        rintro rfl
        rw [hdone j hj] at hthread
        cases hthread
      simpa [Function.update_of_ne hne] using hdone j hj

/-- Where some thread can go on as long as not all of them are idle, the pool can be run until all of
them are. -/
theorem exists_drained {Idle : Pool E R W → ℕ → Prop}
    (hdone : ∀ i, s.started ≤ i → s.threads i = .done ())
    (hprogress : ∀ t, Relation.ReflTransGen (M.Advances Q) s t →
      (∃ i, t.threads i ≠ .done () ∧ ¬ Idle t i) → ∃ t', M.Advances Q t t') :
    ∃ s', Relation.ReflTransGen (M.Advances Q) s s' ∧
      ∀ i, s'.threads i = .done () ∨ Idle s' i := by
  -- on the multiset of the programs that are left, which every advance makes smaller
  induction hms : s.programs using Program.wellFounded_rest.cutExpand.induction generalizing s with
  | _ ms ih =>
      subst hms
      by_cases hbusy : ∃ i, s.threads i ≠ .done () ∧ ¬ Idle s i
      · obtain ⟨t, hst⟩ := hprogress s .refl hbusy
        obtain ⟨s', hs', hidle⟩ := ih t.programs (hst.programs hdone) (hst.unstarted hdone)
          (fun u hu => hprogress u (.head hst hu)) rfl
        exact ⟨s', .head hst hs', hidle⟩
      · refine ⟨s, .refl, fun i => ?_⟩
        by_contra hi
        obtain ⟨hrunning, hidle⟩ := not_or.mp hi
        exact hbusy ⟨i, hrunning, hidle⟩

end Machine

/-! ### Threads that have done nothing -/

namespace Contract

variable {E : Type} {R : E → Type} {S C H X W : Type} {K : Contract E R S}
variable {M : Machine E R C H X W} {P : Pool E R W → Pool E R W → Prop} {Inv : W → Prop}
variable {Fits : ℕ → S → W → Prop} {fresh : S} {init : W}

/-- When no effect leads back to the fresh local state, what other threads do not change stays true of
a thread until its first effect. -/
theorem Sound.untouched (hK : Sound K M P Inv Fits fresh init) {U : ℕ → W → Prop}
    (hnext : ∀ σ e r σ', K.next σ e r σ' → σ' ≠ fresh) (hinit : ∀ i, U i init)
    (hexec : ∀ {i j e c w r w'}, Inv w → M.exec i e c w = some (r, w') → j ≠ i → U j w → U j w')
    (hcrash : ∀ {i j w}, Inv w → j = i ∨ U j w → U j (M.crash i w))
    (henvironment : ∀ {i x w}, Inv w → U i w → U i (M.environment x w)) :
    Sound K M P Inv (fun i σ w => Fits i σ w ∧ (σ = fresh → U i w)) fresh init where
  inv_init := hK.inv_init
  fits_init i := ⟨hK.fits_init i, fun _ => hinit i⟩
  exec := by
    rintro s s' i σ e c r hrun hP hthread hstep hinv ⟨hfits, -⟩ hmay
    obtain ⟨hinv', ⟨σ', hσ', hfits'⟩, hframe⟩ := hK.exec hrun hP hthread hstep hinv hfits hmay
    refine ⟨hinv', ⟨σ', hσ', hfits', fun hfresh => absurd hfresh (hnext σ e r σ' hσ')⟩, ?_⟩
    rintro j τ hj ⟨hτ, hU⟩
    exact ⟨hframe j τ hj hτ, fun hfresh => hexec hinv hstep hj (hU hfresh)⟩
  crash := by
    intro i w hinv
    obtain ⟨hinv', ⟨σ, hσ⟩, hframe⟩ := hK.crash (i := i) hinv
    refine ⟨hinv', ⟨σ, hσ, fun _ => hcrash hinv (.inl rfl)⟩, ?_⟩
    rintro j τ hj ⟨hτ, hU⟩
    exact ⟨hframe j τ hj hτ, fun hfresh => hcrash hinv (.inr (hU hfresh))⟩
  environment := by
    intro x w hinv
    obtain ⟨hinv', hframe⟩ := hK.environment (x := x) hinv
    refine ⟨hinv', ?_⟩
    rintro i σ ⟨hσ, hU⟩
    exact ⟨hframe i σ hσ, fun hfresh => henvironment hinv (hU hfresh)⟩
  program := hK.program

end Contract

end Interleaving

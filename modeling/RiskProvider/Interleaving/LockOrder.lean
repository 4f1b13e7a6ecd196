import Mathlib

/-!
# Lock orders

Threads that hold locks and wait for locks that others hold. Locks have levels; when a thread only
waits for a lock of a higher level than every lock that it holds, no cycle of waiting threads can
come about.

* `WaitsFor`: a thread waits for a lock that another thread holds.
* `not_transGen_waitsFor`: the order of levels excludes cycles.
-/

namespace Interleaving

variable {T L N : Type}

/-- Thread `i` waits for a lock that thread `j` holds. -/
def WaitsFor (waits holds : T → L → Prop) (i j : T) : Prop := ∃ l, waits i l ∧ holds j l

variable [Preorder N] {level : L → N} {waits holds : T → L → Prop} {i j : T}

/-- Along a path of waiting threads, the level of a lock waited for is at most that of a lock held
at the end. -/
theorem level_le_of_transGen
    (horder : ∀ i l, waits i l → ∀ l', holds i l' → level l' < level l)
    (h : Relation.TransGen (WaitsFor waits holds) i j) :
    ∃ l l', waits i l ∧ holds j l' ∧ level l ≤ level l' := by
  induction h with
  | single hij =>
      obtain ⟨l, hwaits, hholds⟩ := hij
      exact ⟨l, l, hwaits, hholds, le_refl _⟩
  | tail _ hjk ih =>
      obtain ⟨l, l', hwaits, hholds, hle⟩ := ih
      obtain ⟨l'', hwaits', hholds'⟩ := hjk
      exact ⟨l, l'', hwaits, hholds', hle.trans (horder _ _ hwaits' _ hholds).le⟩

/-- When threads take locks in the order of their levels, no thread waits for itself through
others. -/
theorem not_transGen_waitsFor
    (horder : ∀ i l, waits i l → ∀ l', holds i l' → level l' < level l) (i : T) :
    ¬ Relation.TransGen (WaitsFor waits holds) i i := by
  intro h
  obtain ⟨l, l', hwaits, hholds, hle⟩ := level_le_of_transGen horder h
  exact lt_irrefl _ (hle.trans_lt (horder i l hwaits l' hholds))

end Interleaving

import RiskProvider.Executions
import RiskProvider.Lifecycle.Changes
import RiskProvider.Frames

/-!
# Recovery of stuck tickets

The reconciler locks all the tickets of its batch, but its first commit releases the locks, and
it goes on with the rows that it has loaded. The first ticket that it cancels is still stuck at
that moment; the others are if nobody else has committed to them in the meantime
(`cancels_stuck`).
-/

namespace RiskProvider

open Interleaving

/-! ### Since a batch was found -/

namespace Entry

/-- The entry is the find of a batch of stuck tickets by thread `i`. -/
def isFoundBy (i : ℕ) : Entry → Bool
  | found j _ _ => j = i
  | _ => false

end Entry

namespace History

variable {l l' : History} {i : ℕ} {e : Entry} {t : UUID}

/-- What has happened since thread `i` found its batch. -/
def sinceFound (i : ℕ) (l : History) : History := l.takeWhile fun e => !e.isFoundBy i

/-- A history splits at the find of a batch. -/
theorem eq_sinceFound_append {olderThan : Time} {ids : List UUID}
    (h : .found i olderThan ids ∈ l) : ∃ olderThan' ids', ∃ l₀ : History,
      l = l.sinceFound i ++ .found i olderThan' ids' :: l₀ := by
  induction l with
  | nil => cases h
  | cons e l ih =>
      by_cases he : e.isFoundBy i
      · obtain ⟨olderThan', ids', rfl⟩ : ∃ olderThan' ids', e = .found i olderThan' ids' := by
          cases e with
          | found j olderThan' ids' =>
              obtain rfl : j = i := by simpa [Entry.isFoundBy] using he
              exact ⟨_, _, rfl⟩
          | _ => cases he
        exact ⟨olderThan', ids', l, by simp [sinceFound, Entry.isFoundBy]⟩
      · have hmem : .found i olderThan ids ∈ l := by
          rcases List.mem_cons.mp h with rfl | h
          · simp [Entry.isFoundBy] at he
          · exact h
        obtain ⟨olderThan', ids', l₀, heq⟩ := ih hmem
        refine ⟨olderThan', ids', l₀, ?_⟩
        have hsince : sinceFound i (e :: l) = e :: sinceFound i l := by simp [sinceFound, he]
        rw [hsince, List.cons_append, ← heq]

/-- The focus on a ticket starts at an action of thread `i`: nothing has been committed to the
ticket since, and the thread has done nothing else. -/
theorem append_of_focus (h : (l.focus i t).head? = some e) : ∃ l₁ l₂ : History,
    l = l₁ ++ e :: l₂ ∧ ∀ e' ∈ l₁, actionOf i e' = false ∧ e'.touches t = false := by
  rw [focus, List.head?_filter, List.find?_eq_some_iff_append] at h
  obtain ⟨-, l₁, l₂, rfl, hnone⟩ := h
  exact ⟨l₁, l₂, rfl, fun e' he' => by simpa using hnone e' he'⟩

/-- An entry of a history is in its latest part, or in what came before. -/
theorem mem_or_suffix {l₁ l₂ l₃ : History} (hl : l = l₁ ++ l₂) (h : (e :: l₃) <:+ l) :
    e ∈ l₁ ∨ (e :: l₃) <:+ l₂ := by
  obtain ⟨a, ha⟩ := h
  rcases List.append_eq_append_iff.mp (ha.trans hl) with ⟨b, rfl, hb⟩ | ⟨b, rfl, hb⟩
  · cases b with
    | nil => exact .inr (hb ▸ List.suffix_refl _)
    | cons e' b =>
        cases hb
        exact .inl (by simp)
  · exact .inr ⟨b, hb.symm⟩

/-- What does not touch a ticket leaves its row as it is. -/
theorem lookup_tickets_append (h : ∀ e ∈ l', e.touches t = false) :
    (database (l' ++ l)).tickets.lookup t = l.database.tickets.lookup t := by
  induction l' with
  | nil => rfl
  | cons e l' ih =>
      rw [← ih fun e' he' => h e' (List.mem_cons_of_mem _ he')]
      have he := h e List.mem_cons_self
      cases e with
      | committed j ws =>
          refine Database.lookup_tickets_writeAll fun wr hwr hkey => ?_
          simp only [Entry.touches, List.any_eq_false, decide_eq_true_eq] at he
          exact he wr hwr hkey
      | _ => rfl

end History

/-! ### Cancellations of a batch -/

/-- A reconciler cancels a ticket after its first commit only while nobody else has committed to
the ticket since the reconciler found it. -/
def LeavesBatches (l : History) : Entry → Prop
  | .committed i ws => (∃ e ∈ l.actions i, e.isFoundBy i) → (∃ e ∈ l.actions i, e.isCommit) →
      ∀ row ∈ ws.filterMap Write.event?, ∀ e ∈ l.sinceFound i, e.thread ≠ i →
        e.touches row.entityId = false
  | _ => True

instance (l : History) (e : Entry) : Decidable (LeavesBatches l e) :=
  e.decidableOfCommitted
    (fun _ _ => by unfold LeavesBatches; infer_instance)
    (fun e he => by cases e <;> first | trivial | exact absurd rfl (he _ _))

theorem LeavesBatches.allowsReads : System.AllowsReads LeavesBatches where
  loaded _ _ _ := trivial
  read _ e he := by
    cases e with
    | committed => cases he
    | _ => trivial

section General

variable [Codecs] {C : History → Entry → Prop} {l l' : History} {i : ℕ} {t : UUID}
  {olderThan : Time} {ids : List UUID} {ws : List Write}

/-- A thread finds one batch. -/
theorem Conforms.found_unique (h : Conforms C l) {olderThan' : Time} {ids' : List UUID}
    (hmem : .found i olderThan ids ∈ l) (hmem' : .found i olderThan' ids' ∈ l) :
    olderThan' = olderThan ∧ ids' = ids := by
  have hnone : ∀ {l : History} {o o' : Time} {ks ks' : List UUID}, Permitted l (.found i o ks) →
      .found i o' ks' ∉ l := by
    intro l o o' ks ks' hpermitted hmem
    cases hpermitted with
    | found hacts =>
        have hact : .found i o' ks' ∈ l.actions i := History.mem_actions.mpr ⟨hmem, rfl, rfl⟩
        rw [hacts] at hact
        cases hact
  induction h with
  | nil => cases hmem
  | cons h hpermitted he ih =>
      rcases List.mem_cons.mp hmem with rfl | hin
      · rcases List.mem_cons.mp hmem' with heq | hin'
        · cases heq
          exact ⟨rfl, rfl⟩
        · exact absurd hin' (hnone hpermitted)
      · rcases List.mem_cons.mp hmem' with rfl | hin'
        · exact absurd hin (hnone hpermitted)
        · exact ih hin hin'

/-- A thread that has found a batch commits nothing but cancellations. -/
theorem Permitted.cancels (h : Permitted l (.committed i ws))
    (hfound : .found i olderThan ids ∈ l.actions i) :
    ∃ t error, (l.focus i t).head? = some (.processed i t none error) ∧
      (∀ t', (Entry.committed i ws).touches t' → t' = t) ∧
      ∀ row, .insertEvent row ∈ ws → row.entityId = t := by
  have habsurd : ∀ {acts : History}, l.actions i = acts →
      (∀ e ∈ acts, e.isFoundBy i = false) → False := by
    intro acts hacts hnone
    have := hnone _ (hacts ▸ hfound)
    simp [Entry.isFoundBy] at this
  have hrecommended : ∀ {p : RecommendationPayload} {acts : History}, HasRecommended i p acts →
      ∀ e ∈ acts, e.isFoundBy i = false := by
    rintro p acts ⟨n, d, m, row, now, began, -, -, rfl⟩
    simp [Entry.isFoundBy]
  cases h with
  | create hacts | recommend hacts | cancellationApplied hacts | acknowledge hacts =>
      exact (habsurd hacts (by simp [Entry.isFoundBy])).elim
  | settle hacts hrec | commitNothing hacts hrec =>
      exact (habsurd hacts (List.forall_mem_cons.mpr ⟨rfl, hrecommended hrec⟩)).elim
  | relay hacts =>
      cases hacts _ hfound
  | @requestCancellation _ t error loaded row reason now eventId m began hlocked hrow hid hevent
      hframe =>
      refine ⟨t, error, hlocked, fun t' htouches => ?_, fun row' hmem => ?_⟩
      · obtain ⟨wr, hwr, hkey⟩ := List.any_eq_true.mp htouches
        rcases List.mem_append.mp hwr with hwr | hwr
        · rw [ticketKey_rewrite hwr, hid] at hkey
          exact (Option.some.inj (of_decide_eq_true hkey)).symm
        · obtain rfl := List.mem_singleton.mp hwr
          simp [outbound, Write.ticketKey] at hkey
      · rcases List.mem_append.mp hmem with hmem | hmem
        · exact absurd hmem insertEvent_not_mem_rewrite
        · cases List.mem_singleton.mp hmem
          rfl

/-- A reconciler calls about a ticket of its batch once. -/
theorem Permitted.recovers {error : Option String} (h : Permitted l (.processed i t none error))
    (hfound : .found i olderThan ids ∈ l.actions i) :
    ∃ olderThan' ids', .found i olderThan' ids' ∈ l.actions i ∧ t ∈ ids' ∧
      (∀ error, .processed i t none error ∉ l.actions i) ∧
      ((∀ ws, .committed i ws ∉ l.actions i) →
        ∃ row, l.database.tickets.lookup t = some row ∧ row.stuck olderThan') := by
  cases h with
  | cancelCall hacts hrecommended =>
      obtain ⟨n, d, m, row, now, began, -, -, rfl⟩ := hrecommended
      simp [hacts] at hfound
  | recoverCall hacts hfound' hmem hfirst hlocked =>
      exact ⟨_, _, hfound', hmem, hfirst, hlocked⟩

/-- A ticket of a batch that nobody else has committed to since it was found has been left as it
was. -/
theorem Conforms.stuck_of_undisturbed (h : Conforms C l) {error : Option String} {l₁ : History}
    (hl : l = l₁ ++ .processed i t none error :: l')
    (hlocked : ∀ e ∈ l₁, History.actionOf i e = false ∧ e.touches t = false)
    (hfound : .found i olderThan ids ∈ l'.actions i)
    (hundisturbed : ∀ e ∈ l.sinceFound i, e.thread ≠ i → e.touches t = false) :
    ∃ row, l.database.tickets.lookup t = some row ∧ row.stuck olderThan := by
  have hsuffix : (.processed i t none error :: l') <:+ l := hl ▸ List.suffix_append _ _
  obtain ⟨olderThan', ids', hfound', hmem, hfirst, -⟩ := (h.of_suffix hsuffix).1.recovers hfound
  have hl' := (List.suffix_cons _ _).trans hsuffix
  have hfound₁ := hl'.mem (History.mem_of_mem_actions hfound)
  obtain ⟨rfl, rfl⟩ := h.found_unique hfound₁ (hl'.mem (History.mem_of_mem_actions hfound'))
  obtain ⟨olderThan₀, ids₀, l₀, heq⟩ := History.eq_sinceFound_append hfound₁
  have hsuffix₀ : (.found i olderThan₀ ids₀ :: l₀) <:+ l := ⟨_, heq.symm⟩
  obtain ⟨rfl, rfl⟩ := h.found_unique hfound₁ (hsuffix₀.mem List.mem_cons_self)
  have huntouched : ∀ e ∈ l.sinceFound i, e.touches t = false := by
    intro e he
    by_cases hthread : e.thread = i
    · -- a commit of the thread itself would follow another call about the ticket
      by_contra htouches
      rw [Bool.not_eq_false] at htouches
      obtain ⟨ws, rfl⟩ : ∃ ws, e = .committed i ws := by
        cases e with
        | committed j ws => exact ⟨ws, by rw [← hthread]; rfl⟩
        | _ => cases htouches
      obtain ⟨a, b, hab⟩ := List.append_of_mem he
      have hcommit : (.committed i ws :: (b ++ .found i olderThan₀ ids₀ :: l₀)) <:+ l :=
        ⟨a, by rw [heq, hab, List.append_assoc, List.cons_append]⟩
      have hfound₂ : .found i olderThan₀ ids₀ ∈
          History.actions i (b ++ .found i olderThan₀ ids₀ :: l₀) :=
        History.mem_actions.mpr ⟨by simp, rfl, rfl⟩
      obtain ⟨t', error', hcalled, htouched, -⟩ := (h.of_suffix hcommit).1.cancels hfound₂
      obtain rfl := htouched t htouches
      obtain ⟨acts, hacts⟩ := History.actions_of_focus hcalled (by
        simp [History.actionOf, Entry.thread, Entry.isAction])
      rcases History.mem_or_suffix hl hcommit with hmem₁ | hcommit
      · have := (hlocked _ hmem₁).1
        simp [History.actionOf, Entry.thread, Entry.isAction] at this
      · rcases List.suffix_cons_iff.mp hcommit with heq' | hcommit
        · cases heq'
        · have hsub := History.actions_suffix (i := i) ((List.suffix_cons _ _).trans hcommit)
          exact hfirst error' (hsub.mem (hacts ▸ List.mem_cons_self))
    · exact hundisturbed e he hthread
  cases (h.of_suffix hsuffix₀).1 with
  | found hacts hnodup hstuck =>
      obtain ⟨row, hrow, hstuck⟩ := hstuck t hmem
      refine ⟨row, ?_, hstuck⟩
      rw [heq, History.lookup_tickets_append huntouched]
      exact hrow

/-- A reconciler's cancellation finds its ticket stuck: it is the first one of its batch, or
nobody else has committed to the ticket since the batch was found. -/
theorem Conforms.stuck_of_cancels (h : Conforms LeavesBatches l) {row : OutboxEvent}
    (hsuffix : (.committed i ws :: l') <:+ l) (hfound : .found i olderThan ids ∈ l'.actions i)
    (hevent : .insertEvent row ∈ ws) :
    ∃ ticket, l'.database.tickets.lookup row.entityId = some ticket ∧ ticket.stuck olderThan := by
  obtain ⟨hpermitted, hleaves⟩ := h.of_suffix hsuffix
  have hl' := h.of_suffix_history ((List.suffix_cons _ _).trans hsuffix)
  obtain ⟨t, error, hlocked, -, hentity⟩ := hpermitted.cancels hfound
  obtain rfl := hentity row hevent
  obtain ⟨l₁, l₂, hsplit, huntouched⟩ := History.append_of_focus hlocked
  have hacts₁ : History.actions i l₁ = [] :=
    List.filter_eq_nil_iff.mpr fun e he => by simp [(huntouched e he).1]
  have hacts : l'.actions i = .processed i row.entityId none error :: l₂.actions i := by
    rw [hsplit, History.actions, List.filter_append]
    change History.actions i l₁ ++ _ = _
    rw [hacts₁]
    simp [History.actions, History.actionOf, Entry.thread, Entry.isAction]
  have hfound₂ : .found i olderThan ids ∈ l₂.actions i := by
    rw [hacts] at hfound
    simpa using hfound
  by_cases hfirst : ∀ ws, .committed i ws ∉ l₂.actions i
  · have hcall := (hl'.of_suffix (hsplit ▸ List.suffix_append _ _)).1
    obtain ⟨olderThan', ids', hfound', -, -, hstuck⟩ := Permitted.recovers hcall hfound₂
    have hsuffix : l₂ <:+ l' := hsplit ▸ (List.suffix_cons _ _).trans (List.suffix_append _ _)
    have hl₂ := hl'.of_suffix_history hsuffix
    obtain ⟨rfl, -⟩ := hl₂.found_unique (History.mem_of_mem_actions hfound₂)
      (History.mem_of_mem_actions hfound')
    obtain ⟨ticket, hticket, hstuck⟩ := hstuck hfirst
    refine ⟨ticket, ?_, hstuck⟩
    rw [hsplit, History.lookup_tickets_append fun e he => (huntouched e he).2]
    exact hticket
  · simp only [not_forall, not_not] at hfirst
    obtain ⟨ws', hws'⟩ := hfirst
    refine hl'.stuck_of_undisturbed hsplit huntouched hfound₂ fun e he hthread => ?_
    exact hleaves ⟨_, hfound, by simp [Entry.isFoundBy]⟩
      ⟨_, hacts ▸ List.mem_cons_of_mem _ hws', rfl⟩ row
      (List.mem_filterMap.mpr ⟨_, hevent, rfl⟩) e he hthread

/-- In every run in which nobody else commits to a ticket of a batch between its find and its
cancellation, the first commit of the batch aside, every ticket that a reconciler cancels was
open and older than the threshold of its tick until then. -/
theorem cancels_stuck {s : System}
    (h : machine.Reaches (System.Meets LeavesBatches) System.initial s) {row : OutboxEvent}
    (hsuffix : (.committed i ws :: l) <:+ s.world.log)
    (hfound : .found i olderThan ids ∈ l.actions i) (hevent : .insertEvent row ∈ ws) :
    ∃ ticket, l.database.tickets.lookup row.entityId = some ticket ∧
      ¬ ticket.status.Terminal ∧ ticket.updatedAt < olderThan := by
  obtain ⟨ticket, hticket, hstuck⟩ :=
    (System.conforms LeavesBatches.allowsReads h).stuck_of_cancels hsuffix hfound hevent
  simp only [Ticket.stuck, Bool.and_eq_true, Bool.not_eq_true', decide_eq_true_eq,
    decide_eq_false_iff_not] at hstuck
  exact ⟨ticket, hticket, hstuck⟩

end General

open Script in
/-- Tickets 1 and 4 are created and relayed, found stuck in one batch, and ticket 1 is cancelled. -/
def batchRun : List (Label Choice Invocation ℕ) :=
  [.start (.createTicket "k" sampleRequest)] ++ runs 0 (create 1 2 3) ++
  [.start (.createTicket "l" sampleRequest)] ++ runs 1 (create 4 5 6) ++
  [.start (.sendBatch 10)] ++ runs 2 (relay [3, 6]) ++
  [.environment 10, .start (.recoverStuckTickets 0 10)] ++
  runs 3 (ok 1 ++ .rows [1, 4] :: ok 2 ++ requestCancellation 11 12)

/-- The last entry of a history cancels ticket 4, which thread 3 has found older than 10, and its
row has passed a check until then. -/
def cancelsLast (check : Ticket → Bool) : History → Bool
  | .committed i ws :: l => i = 3 &&
      (l.any fun
        | .found j olderThan ids => j = 3 ∧ olderThan = 10 ∧ ids = [1, 4]
        | _ => false) &&
      ((ws.filterMap Write.event?).any fun row => row.entityId = 4) &&
      ((History.database l).tickets.lookup 4).any check
  | _ => false

theorem exists_of_cancelsLast {check : Ticket → Bool} {log : History}
    (h : cancelsLast check log = true) : ∃ ws row, ∃ l : History, ∃ ticket,
      log = .committed 3 ws :: l ∧ .found 3 10 [1, 4] ∈ l.actions 3 ∧ .insertEvent row ∈ ws ∧
        row.entityId = 4 ∧ l.database.tickets.lookup 4 = some ticket ∧ check ticket := by
  unfold cancelsLast at h
  split at h
  next i ws l =>
    simp only [Bool.and_eq_true, decide_eq_true_eq] at h
    obtain ⟨⟨⟨rfl, hfound⟩, hevent⟩, hticket⟩ := h
    obtain ⟨e, he, hfound⟩ := List.any_eq_true.mp hfound
    obtain ⟨row, hrow, hentity⟩ := List.any_eq_true.mp hevent
    obtain ⟨wr, hwr, hrow⟩ := List.mem_filterMap.mp hrow
    obtain ⟨ticket, hticket, hcheck⟩ := (Option.any_eq_true _ _).mp hticket
    refine ⟨ws, row, l, ticket, rfl, ?_, ?_, of_decide_eq_true hentity, hticket, hcheck⟩
    · split at hfound
      · obtain ⟨rfl, rfl, rfl⟩ := of_decide_eq_true hfound
        exact History.mem_actions.mpr ⟨he, rfl, rfl⟩
      · cases hfound
    · cases wr with
      | insertEvent row' => exact Option.some.inj hrow ▸ hwr
      | _ => cases hrow
  · cases h

open Script in
/-- Ticket 4 is cancelled next. -/
theorem cancels_stuck_batch : ∃ (s : System) (l : History) (ticket : Ticket),
    machine.Reaches (System.Meets LeavesBatches) System.initial s ∧ l <:+ s.world.log ∧
    l.database.tickets.lookup 4 = some ticket ∧ ¬ ticket.status.Terminal ∧
    ticket.updatedAt < 10 := by
  obtain ⟨s, hs, hst⟩ := System.exists_reaches (s := System.initial) LeavesBatches
    (batchRun ++ runs 3 (ok 2 ++ requestCancellation 13 14))
    (fun s => cancelsLast (fun _ => true) s.world.log) (by decide +kernel)
  obtain ⟨ws, row, l, -, hlog, hfound, hevent, hentity, -, -⟩ := exists_of_cancelsLast hst
  obtain ⟨ticket, hticket, hstuck⟩ := cancels_stuck hs (hlog ▸ List.suffix_refl _) hfound hevent
  exact ⟨s, l, ticket, hs, hlog ▸ List.suffix_cons _ _, hentity ▸ hticket, hstuck⟩

open Script in
/-- The provider accepts ticket 4 while ticket 1 is being cancelled, and the reconciler cancels it
all the same. -/
theorem cancels_advanced : ∃ (s : System) (ws : List Write) (row : OutboxEvent) (l : History)
    (ticket : Ticket), s.Reachable ∧ s.world.log = .committed 3 ws :: l ∧
    .found 3 10 [1, 4] ∈ l.actions 3 ∧ .insertEvent row ∈ ws ∧ row.entityId = 4 ∧
    l.database.tickets.lookup 4 = some ticket ∧ ticket.status = .sentToProvider ∧
    ¬ ticket.updatedAt < 10 := by
  obtain ⟨s, hs, hst⟩ := System.exists_reaches (s := System.initial) anyEntry
    (batchRun ++ [.start .sendToProvider] ++ runs 4 (sendTicket 1) ++
      runs 3 (ok 2 ++ requestCancellation 13 14))
    (fun s => cancelsLast (fun t => t.status = .sentToProvider ∧ ¬ t.updatedAt < 10) s.world.log)
    (by decide +kernel)
  obtain ⟨ws, row, l, ticket, hlog, hfound, hevent, hentity, hticket, hcheck⟩ :=
    exists_of_cancelsLast hst
  obtain ⟨hstatus, hupdated⟩ := of_decide_eq_true hcheck
  exact ⟨s, ws, row, l, ticket, hs.run, hlog, hfound, hevent, hentity, hticket, hstatus, hupdated⟩

end RiskProvider

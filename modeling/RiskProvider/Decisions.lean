import RiskProvider.Coherence
import RiskProvider.Provenance

/-!
# One decision for each ticket

The consumer drops a frame that it has handled, by its `message_id`; two recommendations with
different identifiers are both carried out, and a ticket may be settled twice. When every
recommendation that is carried out finds its ticket without one (`RecommendsOnce`), the thread
that has recorded the recommendation of a ticket is unique, and so is what it does: one settle
call, one acknowledging event, and the final status that belongs to the recommendation.
-/

namespace RiskProvider

open Interleaving

section General

variable [Codecs]

/-- The recommendation that thread `i` records if it commits next: it has received its frame and
done nothing else. -/
def History.recommendation? (l : History) (i : ℕ) : Option RecommendationPayload :=
  match l.actions i with
  | [.received _ .providerIn _ d] => (Message.modelValidate 0 0 d.body).bind fun m =>
      if m.type = .recommendation then RecommendationPayload.modelValidate m.payload else none
  | _ => none

/-- A recommendation is recorded on a ticket that has none. -/
def RecommendsOnce (l : History) : Entry → Prop
  | .committed i _ => ∀ p ∈ l.recommendation? i, ∀ row ∈ l.database.tickets.lookup p.ticketId,
      row.providerRecommendation = none
  | _ => True

instance (l : History) (e : Entry) : Decidable (RecommendsOnce l e) :=
  e.decidableOfCommitted
    (fun _ _ => by unfold RecommendsOnce; infer_instance)
    (fun e he => by cases e <;> first | trivial | exact absurd rfl (he _ _))

theorem RecommendsOnce.allowsReads : System.AllowsReads RecommendsOnce where
  loaded _ _ _ := trivial
  read _ e he := by
    cases e <;> trivial

variable {C : History → Entry → Prop} {l : History} {i j : ℕ} {p q : RecommendationPayload}

/-! ### Recommendations are recorded once -/

/-- A frame of the consumer has one reading. -/
theorem Conforms.recommends_unique (h : Conforms C l) {n : ℕ} {d : Delivery} {m m' : Message}
    (hacts : l.actions i = [.received i .providerIn n d]) (hdecodes : Decodes d.body m)
    (hdecodes' : Decodes d.body m') : m = m' := by
  obtain ⟨m₀, hbody⟩ := h.frame_of_received
    (History.mem_of_mem_actions (hacts ▸ List.mem_singleton_self _))
  rw [hbody] at hdecodes hdecodes'
  rw [hdecodes.eq, hdecodes'.eq]

theorem Conforms.recommendation?_eq (h : Conforms C l) {n : ℕ} {d : Delivery} {m : Message}
    (hacts : l.actions i = [.received i .providerIn n d]) (hframe : Recommends d m p) :
    l.recommendation? i = some p := by
  obtain ⟨m₀, hbody⟩ := h.frame_of_received
    (History.mem_of_mem_actions (hacts ▸ List.mem_singleton_self _))
  have hdecodes := hframe.decodes
  rw [hbody] at hdecodes
  obtain rfl := hdecodes.eq
  simp [History.recommendation?, hacts, hbody, hframe.type, hframe.payload]

/-- The commit that records a recommendation edits the committed row of its ticket, which under
`RecommendsOnce` has none. -/
theorem Permitted.records {ws : List Write} (h : Permitted l (.committed i ws))
    (hl : Conforms C l) (honce : RecommendsOnce l (.committed i ws))
    (hrecommended : HasRecommended i p (.committed i ws :: l.actions i)) :
    ∃ row now began, l.database.tickets.lookup p.ticketId = some row ∧ row.id = p.ticketId ∧
      row.providerRecommendation = none ∧ Edits ws row (row.recommended p now) began := by
  obtain ⟨n, d, m, row₀, now₀, began₀, hframe, -, hacts⟩ := hrecommended
  obtain ⟨heq, hacts⟩ := List.cons.inj hacts
  cases heq
  have hclaim : Write.insertInbox (m.claim began₀) ∈ Write.insertInbox (m.claim began₀) ::
      rewrite row₀ (row₀.recommended p now₀) began₀ := List.mem_cons_self
  generalize Write.insertInbox (m.claim began₀) :: rewrite row₀ (row₀.recommended p now₀) began₀
    = ws at h honce hclaim
  cases h with
  | @recommend _ n' d' m' p' row now began hacts' hframe' hunclaimed hrow hopen =>
      rw [hacts'] at hacts
      cases hacts
      obtain rfl := hl.recommends_unique hacts' hframe.decodes hframe'.decodes
      obtain rfl : p = p' := Option.some.inj (hframe.payload.symm.trans hframe'.payload)
      have hid : row.id = p.ticketId := l.keyed_database.tickets _ _ hrow
      exact ⟨row, now, began, hrow, hid,
        honce p (hl.recommendation?_eq hacts' hframe') row hrow, Edits.of_claim _⟩
  | cancellationApplied hacts' hframe' =>
      rw [hacts'] at hacts
      cases hacts
      obtain rfl := hl.recommends_unique hacts' hframe.decodes hframe'.decodes
      have htype := hframe.type.symm.trans hframe'.type
      cases htype
  | create => simp [outbound] at hclaim
  | settle | requestCancellation =>
      rcases List.mem_append.mp hclaim with hclaim | hclaim
      · cases mem_rewrite hclaim
      · cases List.mem_singleton.mp hclaim
  | acknowledge => cases mem_rewrite hclaim
  | relay =>
      rcases List.mem_append.mp hclaim with hclaim | hclaim
      · split at hclaim <;> simp at hclaim
      · simp at hclaim
  | commitNothing => cases hclaim

/-- The ticket has been recommended. -/
def History.Recommended (l : History) (t : UUID) (action : RecommendationAction) : Prop :=
  ∃ row, l.database.tickets.lookup t = some row ∧ row.providerRecommendation = some action

variable {t : UUID} {action : RecommendationAction}

omit [Codecs] in
/-- An edit that leaves the recommendation of its instance as it is. -/
theorem History.Recommended.edits {ws : List Write} {row row' : Ticket} {began : Time}
    (h : l.Recommended t action) (hedits : Edits ws row row' began)
    (hsame : t = row.id → row'.providerRecommendation = row.providerRecommendation) :
    History.Recommended (.committed i ws :: l) t action := by
  obtain ⟨r, hr, hrecommendation⟩ := h
  by_cases ht : t = row.id
  · subst ht
    obtain ⟨r', hr', -, heq⟩ := Database.lookup_edits_self hedits hr
    exact ⟨r', hr', by rw [heq, hsame rfl, changed_self, Option.getD_none, hrecommendation]⟩
  · exact ⟨r, (Database.lookup_edits_ne hedits ht).trans hr, hrecommendation⟩

/-- Under `RecommendsOnce`, the recommendation of a ticket stays what it is. -/
theorem Permitted.recommended_kept {e : Entry} (h : Permitted l e) (hl : Conforms C l)
    (honce : RecommendsOnce l e) (hrecommended : l.Recommended t action) :
    History.Recommended (e :: l) t action := by
  obtain ⟨r, hr, hrecommendation⟩ := id hrecommended
  cases h with
  | @create i key id currency eventId m began request hacts hcurrency hkey hticket =>
      have hne : t ≠ id := fun heq => by
        rw [heq, hticket] at hr
        cases hr
      exact ⟨r, (AList.lookup_insert_ne hne).trans hr, hrecommendation⟩
  | @recommend i n d m p row now began hacts hframe hunclaimed hrow hopen =>
      refine hrecommended.edits (Edits.of_claim _) fun ht => ?_
      -- the commit would be another recommendation of the ticket
      have hid : row.id = p.ticketId := l.keyed_database.tickets _ _ hrow
      have hnone := honce p (hl.recommendation?_eq hacts hframe) row hrow
      rw [ht, hid, hrow, Option.some.injEq] at hr
      rw [← hr, hnone] at hrecommendation
      cases hrecommendation
  | settle | requestCancellation =>
      exact hrecommended.edits (Edits.of_outbound _ _ _ _) fun _ => rfl
  | cancellationApplied => exact hrecommended.edits (Edits.of_claim _) fun _ => rfl
  | acknowledge => exact hrecommended.edits Edits.of_rewrite fun _ => rfl
  | relay =>
      refine ⟨r, ?_, hrecommendation⟩
      refine (Database.lookup_tickets_writeAll fun wr hwr => ?_).trans hr
      simp [ticketKey_relayWrites wr hwr]
  | _ => exact hrecommended

/-- A thread that has recorded a recommendation has done so in its last entry or before. -/
theorem HasRecommended.cons {acts : History} {e : Entry} (h : HasRecommended i p acts)
    (hacts : acts <:+ History.actions i (e :: l)) :
    (∃ ws, e = .committed i ws ∧ HasRecommended i p (e :: l.actions i)) ∨ acts <:+ l.actions i := by
  by_cases he : History.actionOf i e = true
  · rw [History.actions, List.filter_cons_of_pos he] at hacts
    rcases List.suffix_cons_iff.mp hacts with rfl | hacts
    · left
      obtain ⟨n, d, m, row, now, began, -, -, heq⟩ := id h
      exact ⟨_, (List.cons.inj heq).1, h⟩
    · exact .inr hacts
  · rw [History.actions, List.filter_cons_of_neg he] at hacts
    exact .inr hacts

/-- The recommendation that a thread has recorded is that of its ticket. -/
theorem Conforms.recommended (h : Conforms RecommendsOnce l) {acts : History}
    (hrecommended : HasRecommended i p acts) (hacts : acts <:+ l.actions i) :
    l.Recommended p.ticketId p.action := by
  induction h with
  | nil =>
      obtain ⟨n, d, m, row, now, began, -, -, rfl⟩ := hrecommended
      cases List.suffix_nil.mp hacts
  | @cons l e h hpermitted he ih =>
      rcases hrecommended.cons hacts with ⟨ws, rfl, hlast⟩ | hacts
      · obtain ⟨row, now, began, hrow, hid, hnone, hedits⟩ := hpermitted.records h he hlast
        obtain ⟨r', hr', -, heq⟩ := Database.lookup_edits_self hedits (hid.symm ▸ hrow)
        refine ⟨r', hid ▸ hr', ?_⟩
        rw [heq, hnone]
        rfl
      · exact hpermitted.recommended_kept h he (ih hacts)

/-- Only one thread records a recommendation of a ticket. -/
theorem Conforms.recommended_unique (h : Conforms RecommendsOnce l) {acts acts' : History}
    (hi : HasRecommended i p acts) (hacts : acts <:+ l.actions i)
    (hj : HasRecommended j q acts') (hacts' : acts' <:+ l.actions j)
    (hticket : p.ticketId = q.ticketId) : i = j := by
  induction h with
  | nil =>
      obtain ⟨n, d, m, row, now, began, -, -, rfl⟩ := hi
      cases List.suffix_nil.mp hacts
  | @cons l e h hpermitted he ih =>
      -- a commit that records a recommendation finds none, so no thread has recorded one before
      have hfirst : ∀ {k k' r r' a}, HasRecommended k r (e :: l.actions k) →
          (∃ ws, e = .committed k ws) → HasRecommended k' r' a → a <:+ l.actions k' →
          r.ticketId ≠ r'.ticketId := by
        rintro k k' r r' a hlast ⟨ws, rfl⟩ hother ha heq
        obtain ⟨row, now, began, hrow, -, hnone, -⟩ := hpermitted.records h he hlast
        obtain ⟨row', hrow', hsome⟩ := h.recommended hother ha
        rw [← heq, hrow, Option.some.injEq] at hrow'
        rw [← hrow', hnone] at hsome
        cases hsome
      rcases hi.cons hacts with ⟨ws, rfl, hlast⟩ | hacts
      · rcases hj.cons hacts' with ⟨ws', heq, hlast'⟩ | hacts'
        · cases heq
          rfl
        · exact absurd hticket (hfirst hlast ⟨ws, rfl⟩ hj hacts')
      · rcases hj.cons hacts' with ⟨ws', heq, hlast'⟩ | hacts'
        · exact absurd hticket.symm (hfirst hlast' ⟨ws', heq⟩ hi hacts)
        · exact ih hacts hacts'

/-! ### What follows for the decisions -/

/-- A settle call for the ticket has succeeded. -/
def Entry.settles (t : UUID) : Entry → Bool
  | .processed _ t' (some _) none => t' = t
  | _ => false

/-- The thread of a settle call has just recorded a recommendation of the ticket. -/
theorem Permitted.recommended_of_settles {e : Entry} (h : Permitted l e)
    (hsettles : e.settles t = true) : ∃ i p, e = .processed i p.ticketId (some p.action) none ∧
      p.ticketId = t ∧ HasRecommended i p (l.actions i) := by
  cases h with
  | @settleCall i p error hacts =>
      cases error with
      | none => exact ⟨i, p, rfl, of_decide_eq_true hsettles, hacts⟩
      | some text => cases hsettles
  | _ => cases hsettles

theorem Conforms.settled_once (h : Conforms RecommendsOnce l) (t : UUID) :
    l.countP (·.settles t) ≤ 1 := by
  induction h with
  | nil => exact Nat.zero_le 1
  | @cons l e h hpermitted he ih =>
      by_cases hsettles : e.settles t = true
      · rw [List.countP_cons_of_pos hsettles]
        have hnone : l.countP (·.settles t) = 0 := by
          rw [List.countP_eq_zero]
          intro e' hmem hsettles'
          obtain ⟨i, p, rfl, rfl, hi⟩ := hpermitted.recommended_of_settles hsettles
          obtain ⟨l', hsuffix⟩ := exists_suffix_of_mem hmem
          obtain ⟨j, q, rfl, hticket, hj⟩ :=
            (h.of_suffix hsuffix).1.recommended_of_settles hsettles'
          obtain rfl := h.recommended_unique hi (List.suffix_refl _) hj
            (History.actions_suffix ((List.suffix_cons _ _).trans hsuffix)) hticket.symm
          -- the thread of the second call has made none before
          have hcall : .processed i q.ticketId (some q.action) none ∈ l.actions i :=
            History.mem_actions.mpr ⟨hmem, rfl, rfl⟩
          obtain ⟨n, d, m, row, now, began, -, -, hacts⟩ := hi
          rw [hacts] at hcall
          simp at hcall
        exact Nat.succ_le_succ (Nat.le_of_eq hnone)
      · rw [List.countP_cons_of_neg hsettles]
        exact ih

/-- The frames that acknowledge a recommendation. -/
def decisionTypes : List ProviderMessageType := [.confirmRecommendation, .declineRecommendation]

/-- An event with a frame that acknowledges the recommendation of ticket `t`. -/
def OutboxEvent.Decides (row : OutboxEvent) (t : UUID) : Prop :=
  row.entityId = t ∧ ∃ type ∈ decisionTypes, row.frameType = some type

/-- An acknowledging event was inserted by the thread that has settled its ticket. -/
theorem Conforms.settled_of_lookup (h : Conforms C l) {id : UUID} {row : OutboxEvent}
    (hrow : l.database.outbox.lookup id = some row) (hdecides : row.Decides t) :
    ∃ i ws p, ∃ emitting acts : History, ∃ row₀ m, (.committed i ws :: emitting) <:+ l ∧
      Emission emitting (.committed i ws) i ws row₀ m ∧ row₀.id = id ∧
      emitting.actions i = .processed i t (some p.action) none :: acts ∧
      HasRecommended i p acts ∧ p.ticketId = t := by
  obtain ⟨rfl, type, hdecides, htype⟩ := hdecides
  obtain ⟨i, ws, emitting, row₀, hcommitted, hmem, hsame⟩ := History.inserted_of_lookup hrow
  obtain ⟨m, hemission⟩ := (h.of_suffix hcommitted).1.emission hmem
  have hid : row₀.id = id := hsame.id.symm.trans (l.keyed_database.outbox _ _ hrow)
  have hm : m.type = type := by
    have hpayload : row.payload = m.modelDump := hsame.payload.trans hemission.payload
    rwa [OutboxEvent.frameType_of_payload hpayload, Option.some.injEq] at htype
  have hopens : m.type ∈ decisionTypes := hm ▸ hdecides
  rw [hsame.entityId]
  cases hemission.emits with
  | opens hrow hid hframe =>
      rw [hframe.type] at hopens
      exact absurd hopens (by decide)
  | cancels hlocked hframe =>
      rw [hframe.type] at hopens
      exact absurd hopens (by decide)
  | @settles p acts hacts hrecommended hticket hsets hframe =>
      exact ⟨i, ws, p, emitting, acts, row₀, m, hcommitted, hemission, hid, hacts, hrecommended,
        hticket⟩

theorem HasRecommended.length {acts : History} (h : HasRecommended i p acts) :
    acts.length = 2 := by
  obtain ⟨n, d, m, row, now, began, -, -, rfl⟩ := h
  rfl

/-- A commit inserts one event. -/
theorem Emission.id_unique {e : Entry} {ws ws' : List Write} {row row' : OutboxEvent}
    {m m' : Message} (h : Emission l e i ws row m) (h' : Emission l e j ws' row' m') :
    row.id = row'.id := by
  by_contra hne
  have hframes := congrFun (h.frames.symm.trans h'.frames) row.id
  rw [Function.update_self, Function.update_of_ne hne, h.fresh] at hframes
  cases hframes

/-- A ticket has at most one acknowledging event. -/
theorem Conforms.decides_unique (h : Conforms RecommendsOnce l) {id id' : UUID}
    {row row' : OutboxEvent} (hrow : l.database.outbox.lookup id = some row)
    (hrow' : l.database.outbox.lookup id' = some row') (hdecides : row.Decides t)
    (hdecides' : row'.Decides t) : id = id' := by
  obtain ⟨i, ws, p, emitting, acts, row₀, m, hsuffix, hemission, rfl, hacts, hi, hp⟩ :=
    h.settled_of_lookup hrow hdecides
  obtain ⟨j, ws', q, emitting', acts', row₀', m', hsuffix', hemission', rfl, hacts', hj, hq⟩ :=
    h.settled_of_lookup hrow' hdecides'
  -- both events were inserted by the thread that has recorded the recommendation
  obtain rfl : i = j := h.recommended_unique hi
    ((List.suffix_cons _ _).trans (hacts ▸ History.actions_suffix
      ((List.suffix_cons _ _).trans hsuffix))) hj
    ((List.suffix_cons _ _).trans (hacts' ▸ History.actions_suffix
      ((List.suffix_cons _ _).trans hsuffix'))) (hp.trans hq.symm)
  -- which has done so in its third action
  have hlater : ∀ {ws ws' p p' acts acts'} {l₁ l₂ : History},
      l₁.actions i = .processed i t (some p) none :: acts → acts.length = 2 →
      l₂.actions i = .processed i t (some p') none :: acts' → acts'.length = 2 →
      (.committed i ws :: l₁) <:+ (.committed i ws' :: l₂) →
      (.committed i ws :: l₁ : History) = .committed i ws' :: l₂ := by
    intro ws ws' p p' acts acts' l₁ l₂ hacts hlength hacts' hlength' hsuffix
    rcases List.suffix_cons_iff.mp hsuffix with heq | hsuffix
    · exact heq
    · have hle := (History.actions_suffix (i := i) hsuffix).length_le
      rw [hacts', History.actions, List.filter_cons_of_pos (by simp [History.actionOf,
        Entry.thread, Entry.isAction]), ← History.actions, hacts] at hle
      simp [hlength, hlength'] at hle
  have heq : (.committed i ws :: emitting : History) = .committed i ws' :: emitting' := by
    rcases List.suffix_or_suffix_of_suffix hsuffix hsuffix' with hle | hle
    · exact hlater hacts hi.length hacts' hj.length hle
    · exact (hlater hacts' hj.length hacts hi.length hle).symm
  obtain ⟨hws, rfl⟩ := List.cons.inj heq
  cases hws
  exact hemission.id_unique hemission'

/-- A ticket with a final status has the recommendation that the status belongs to. -/
theorem Conforms.recommended_of_finalStatus (h : Conforms RecommendsOnce l)
    (hst : l.status? t = some action.finalStatus) : l.Recommended t action := by
  have hdecided : ∃ i p, ∃ acts : History, HasRecommended i p acts ∧ acts <:+ l.actions i ∧
      p.ticketId = t ∧ p.action = action := by
    refine Conforms.of_finalStatus (P := fun l => ∃ i p, ∃ acts : History,
      HasRecommended i p acts ∧ acts <:+ l.actions i ∧ p.ticketId = t ∧ p.action = action)
      (fun l e => ?_) (fun l k n d frame hl => ?_) h hst
    · rintro ⟨i, p, acts, hi, hacts, hrest⟩
      exact ⟨i, p, acts, hi, hacts.trans (History.actions_suffix (List.suffix_cons _ _)), hrest⟩
    · intro hacts hdecodes hticket htarget
      obtain ⟨l₁, l₂, publishing, emitting, j, i, key, settle, row, p, acts, hsent, hreceived,
        hrelayed, -, hacts, hrecommended, hid, haction, -⟩ :=
        hl.settles_of_sent hacts hdecodes hticket htarget
      refine ⟨i, p, acts, hrecommended, ?_, hid, haction⟩
      have hemitting : emitting <:+ l := ((List.suffix_cons _ _).trans hrelayed.committed).trans
        (((List.suffix_cons _ _).trans hrelayed.published).trans (((List.suffix_cons _ _).trans
          hreceived).trans ((List.suffix_cons _ _).trans hsent)))
      exact (List.suffix_cons _ _).trans (hacts ▸ History.actions_suffix hemitting)
  obtain ⟨i, p, acts, hi, hacts, rfl, rfl⟩ := hdecided
  exact h.recommended hi hacts

/-- In every run in which recommendations are recorded on tickets that have none: at most one
settle call for a ticket succeeds, the outbox has at most one event that acknowledges its
recommendation, and a final status is that of its recommendation. -/
theorem one_decision {s : System}
    (hs : machine.Reaches (System.Meets RecommendsOnce) System.initial s) (t : UUID) :
    s.world.log.countP (·.settles t) ≤ 1 ∧
    (∀ id row id' row', s.world.db.outbox.lookup id = some row →
      s.world.db.outbox.lookup id' = some row' → row.Decides t → row'.Decides t → id = id') ∧
    ∀ row, s.world.db.tickets.lookup t = some row → ∀ action : RecommendationAction,
      row.status = action.finalStatus → row.providerRecommendation = some action := by
  have hl := System.conforms RecommendsOnce.allowsReads hs
  rw [(System.isolated hs.run).db_eq]
  refine ⟨hl.settled_once t, fun id row id' row' hrow hrow' hdecides hdecides' =>
    hl.decides_unique hrow hrow' hdecides hdecides', fun row hrow action hst => ?_⟩
  have hst' : s.world.log.status? t = some action.finalStatus := by
    simp [History.status?, hrow, hst]
  obtain ⟨row', hrow', hrecommendation⟩ := hl.recommended_of_finalStatus hst'
  rwa [Option.some.inj (hrow.symm.trans hrow')]

end General

/-- Ticket 1 is settled once and confirmed. -/
theorem one_decision_confirmed : ∃ s : System,
    machine.Reaches (System.Meets RecommendsOnce) System.initial s ∧
      s.world.status? 1 = some .confirmed ∧ s.world.log.countP (·.settles 1) ≤ 1 := by
  obtain ⟨s, hs, hst⟩ := System.exists_reaches (s := System.initial) RecommendsOnce
    (confirmedRun .accept) (fun s => s.world.status? 1 = some .confirmed) (by decide +kernel)
  simp only [decide_eq_true_eq] at hst
  exact ⟨s, hs, hst, (one_decision hs 1).1⟩

open Script in
/-- Frame 20 declines ticket 1, which has been settled as accepted; the provider then accepts the
frame that confirms it. -/
def secondRecommendation : List (Label Choice Invocation ℕ) :=
  settledRun .accept ++
  [.start (.recieveFromProvider [recommendation 20 1 .decline])] ++ runs 5 (ok 2) ++
  [.start .handle] ++ runs 6 (recommend 0 ++ ok 1 ++ settle 21 22) ++
  [.start (.sendBatch 10)] ++ runs 7 (relay [12, 22]) ++
  [.start .sendToProvider] ++ runs 8 (sendDecision 0)

/-- Two recommendations are carried out: ticket 1 is settled twice, has an event that confirms and
one that declines it, and is `CONFIRMED` with the recommendation to decline. -/
theorem two_decisions : ∃ s : System, s.Reachable ∧ s.world.log.countP (·.settles 1) = 2 ∧
    s.world.db.HasEvent 1 [.confirmRecommendation] ∧
    s.world.db.HasEvent 1 [.declineRecommendation] ∧
    ∃ row, s.world.db.tickets.lookup 1 = some row ∧ row.status = .confirmed ∧
      row.providerRecommendation = some .decline := by
  obtain ⟨s, hs, htest⟩ := System.exists_reaches (s := System.initial) anyEntry
    secondRecommendation (fun s => s.world.log.countP (·.settles 1) = 2 &&
      ((s.world.db.outbox.lookup 12).any fun e =>
        e.entityId = 1 && e.frameType = some .confirmRecommendation) &&
      ((s.world.db.outbox.lookup 22).any fun e =>
        e.entityId = 1 && e.frameType = some .declineRecommendation) &&
      (s.world.db.tickets.lookup 1).any fun row =>
        row.status = .confirmed && row.providerRecommendation = some .decline)
    (by decide +kernel)
  simp only [Bool.and_eq_true, Option.any_eq_true, decide_eq_true_eq] at htest
  obtain ⟨⟨⟨hcount, e, he, hentity, htype⟩, e', he', hentity', htype'⟩, row, hrow, hst, hr⟩ := htest
  exact ⟨s, hs.run, hcount, ⟨12, e, he, hentity, _, List.mem_singleton_self _, htype⟩,
    ⟨22, e', he', hentity', _, List.mem_singleton_self _, htype'⟩, row, hrow, hst, hr⟩

end RiskProvider

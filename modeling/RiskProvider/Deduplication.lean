import RiskProvider.Executions
import RiskProvider.Frames

/-!
# At most one effect for each message

A consumer claims a message in the transaction with which it first changes anything, and the
inbox has one row for each message. `at_most_once`: over a whole run, with any number of
consumers, redeliveries and crashes, at most one of the handlers that act on behalf of a message
commits anything; it makes at most one settle call, and commits at most one event and one
status `RECOMMENDED_CONFIRM`, `RECOMMENDED_DECLINE` or `CANCELLED`.
-/

namespace RiskProvider

open Interleaving

/-! ### Effects -/

namespace Entry

/-- The entry is a settle call, successful or not. -/
def isSettleCall : Entry → Bool
  | processed _ _ (some _) _ => true
  | _ => false

/-- The events that an entry commits. -/
def events : Entry → List OutboxEvent
  | committed _ ws => ws.filterMap Write.event?
  | _ => []

/-- The statuses that an entry commits. -/
def statuses : Entry → List TicketStatus
  | committed _ ws => (ws.filterMap Write.setsStatus).map Prod.snd
  | _ => []

/-- The statuses among them that record what the provider has decided. -/
def verdicts (e : Entry) : List TicketStatus :=
  e.statuses.filter (· ∈ [.recommendedConfirm, .recommendedDecline, .cancelled])

/-- The entry is a commit or a settle call. -/
def isEffect (e : Entry) : Bool := e.isCommit || e.isSettleCall

end Entry

/-- The commits and settle calls of thread `i`. -/
def History.effects (i : ℕ) (l : History) : History := (l.actions i).filter Entry.isEffect

/-- The writes claim the message. -/
def Claims (messageId : UUID) (ws : List Write) : Prop :=
  ∃ row, .insertInbox row ∈ ws ∧ row.messageId = messageId

section General

variable [Codecs]

/-- The message that a consumer's thread handles. -/
def History.messageOf (i : ℕ) (l : History) : Option UUID :=
  l.findSome? fun
    | .received j .providerIn _ d =>
        if j = i then (Message.modelValidate 0 0 d.body).map (·.messageId) else none
    | _ => none

/-! ### The effects of a consumer -/

/-- What a consumer that handles the message may have committed and called, latest first. -/
inductive ConsumerEffects (i : ℕ) (messageId : UUID) : History → Prop
  | nothing : ConsumerEffects i messageId []
  /-- The message is claimed, together with a change of a ticket. -/
  | claimed {ws : List Write} (hclaims : Claims messageId ws)
      (hevents : ws.filterMap Write.event? = [])
      (hstatuses : (ws.filterMap Write.setsStatus).length ≤ 1) :
      ConsumerEffects i messageId [.committed i ws]
  /-- The settle call has been made. -/
  | called {ws : List Write} {t action error}
      (h : ConsumerEffects i messageId [.committed i ws]) :
      ConsumerEffects i messageId [.processed i t (some action) error, .committed i ws]
  /-- The handler has committed the outcome. -/
  | finished {ws ws' : List Write} {t action error}
      (h : ConsumerEffects i messageId [.processed i t (some action) error, .committed i ws])
      (hevents : (ws'.filterMap Write.event?).length ≤ 1)
      (hverdicts : (Entry.committed i ws').verdicts = []) :
      ConsumerEffects i messageId
        [.committed i ws', .processed i t (some action) error, .committed i ws]

variable {C : History → Entry → Prop} {l : History} {i : ℕ} {messageId : UUID}

omit [Codecs] in
theorem History.effects_cons_of_pos {e : Entry} (haction : actionOf i e = true)
    (heffect : e.isEffect = true) : effects i (e :: l) = e :: effects i l := by
  rw [effects, actions, List.filter_cons_of_pos haction, List.filter_cons_of_pos heffect]
  rfl

omit [Codecs] in
theorem History.effects_cons_of_neg {e : Entry} (h : ¬(actionOf i e = true ∧ e.isEffect = true)) :
    effects i (e :: l) = effects i l := by
  by_cases haction : actionOf i e = true
  · rw [effects, actions, List.filter_cons_of_pos haction,
      List.filter_cons_of_neg fun heffect => h ⟨haction, heffect⟩]
    rfl
  · rw [effects, actions, List.filter_cons_of_neg haction]
    rfl

/-- A thread that handles a message has received it. -/
theorem History.received_of_messageOf (h : l.messageOf i = some messageId) :
    ∃ n d m, .received i .providerIn n d ∈ l.actions i ∧
      Message.modelValidate 0 0 d.body = some m ∧ m.messageId = messageId := by
  obtain ⟨e, hmem, he⟩ := List.exists_of_findSome?_eq_some h
  cases e with
  | received j q n d =>
      cases q with
      | providerOut => cases he
      | providerIn =>
          dsimp only at he
          split at he
          next hj =>
            subst hj
            obtain ⟨m, hm, hid⟩ := Option.map_eq_some_iff.mp he
            exact ⟨n, d, m, mem_actions.mpr ⟨hmem, rfl, rfl⟩, hm, hid⟩
          · cases he
  | _ => cases he

theorem History.messageOf_cons {e : Entry} (h : messageOf i (e :: l) = some messageId) :
    (∃ n d, e = .received i .providerIn n d) ∨ l.messageOf i = some messageId := by
  unfold messageOf at h
  rw [List.findSome?_cons] at h
  split at h
  next hid =>
    left
    cases e with
    | received j q n d =>
        cases q with
        | providerOut => cases hid
        | providerIn =>
            dsimp only at hid
            split at hid
            next hj => exact ⟨n, d, by rw [hj]⟩
            · cases hid
    | _ => cases hid
  · exact .inr h

/-- What a consumer does first is claim the message that it handles. -/
theorem claimed_of_received {n : ℕ} {d : Delivery} {m : Message} {row row' : Ticket}
    {began : Time} (h : Conforms C l) (hmessage : l.messageOf i = some messageId)
    (hacts : l.actions i = [.received i .providerIn n d]) (hdecodes : Decodes d.body m) :
    ConsumerEffects i messageId
      (.committed i (.insertInbox (m.claim began) :: rewrite row row' began) :: l.effects i) := by
  obtain ⟨n', d', m', hreceived, hm', rfl⟩ := History.received_of_messageOf hmessage
  rw [hacts, List.mem_singleton] at hreceived
  cases hreceived
  obtain ⟨m₀, hbody⟩ := h.frame_of_received
    (History.mem_of_mem_actions (hacts ▸ List.mem_singleton_self _))
  rw [hbody] at hdecodes hm'
  obtain rfl := hdecodes.eq
  obtain rfl : m = m' := by simpa using hm'
  have heffects : l.effects i = [] := by
    rw [History.effects, hacts]
    rfl
  rw [heffects]
  refine .claimed ⟨_, List.mem_cons_self, rfl⟩ ?_ ?_
  · simpa [Write.event?] using events_rewrite
  · rw [List.filterMap_cons_none rfl]
    rcases statuses_rewrite row row' began with hstatuses | hstatuses <;> simp [hstatuses]

omit [Codecs] in
/-- A commit that inserts an event and changes a ticket to a status that is no verdict. -/
theorem verdicts_of_outbound [Codecs] {row row' : Ticket} {began : Time} {eventId t : UUID}
    {m : Message}
    (h : row'.status ∉ [TicketStatus.recommendedConfirm, .recommendedDecline, .cancelled]) :
    (Entry.committed i (rewrite row row' began ++ [outbound eventId t m began])).verdicts = [] := by
  rcases statuses_rewrite row row' began with hstatuses | hstatuses
  · simp [Entry.verdicts, Entry.statuses, hstatuses, outbound, Write.setsStatus]
  · simpa [Entry.verdicts, Entry.statuses, hstatuses, outbound, Write.setsStatus] using h

theorem events_of_outbound {row row' : Ticket} {began : Time} {eventId t : UUID} {m : Message} :
    ((rewrite row row' began ++ [outbound eventId t m began]).filterMap Write.event?).length = 1 := by
  simp [events_rewrite, outbound, Write.event?]

/-- The effects of a consumer that has committed a recommendation. -/
theorem HasRecommended.effects {p : RecommendationPayload} {acts : History}
    (h : HasRecommended i p acts) : ∃ ws, acts.filter Entry.isEffect = [.committed i ws] := by
  obtain ⟨n, d, m, row, now, began, -, -, rfl⟩ := h
  exact ⟨_, rfl⟩

/-- The effects of a consumer are those of one handling of its message. -/
theorem Conforms.consumerEffects (h : Conforms C l) (hmessage : l.messageOf i = some messageId) :
    ConsumerEffects i messageId (l.effects i) := by
  induction h with
  | nil => cases hmessage
  | @cons l e h hpermitted he ih =>
      rcases History.messageOf_cons hmessage with ⟨n, d, rfl⟩ | hmessage
      · -- the delivery is the first action of the thread
        cases hpermitted with
        | received hacts hqueue =>
            rw [History.effects_cons_of_neg (by simp [Entry.isEffect, Entry.isCommit,
              Entry.isSettleCall]), History.effects, hacts]
            exact .nothing
      by_cases heffect : History.actionOf i e = true ∧ e.isEffect = true
      · rw [History.effects_cons_of_pos heffect.1 heffect.2]
        replace ih := ih hmessage
        obtain ⟨n₀, d₀, m₀, hreceived, -⟩ := History.received_of_messageOf hmessage
        cases e with
        | committed j ws =>
            obtain rfl : j = i := History.thread_of_actionOf heffect.1
            cases hpermitted with
            | create hacts =>
                simp [hacts] at hreceived
            | recommend hacts hframe =>
                exact claimed_of_received h hmessage hacts hframe.decodes
            | cancellationApplied hacts hframe =>
                exact claimed_of_received h hmessage hacts hframe.decodes
            | settle hacts hrecommended =>
                obtain ⟨ws, hws⟩ := hrecommended.effects
                rw [History.effects, hacts, List.filter_cons_of_pos rfl, hws] at ih ⊢
                exact .finished ih (Nat.le_of_eq events_of_outbound)
                  (verdicts_of_outbound (by simp [Ticket.settled]))
            | requestCancellation hlocked =>
                obtain ⟨acts, hacts⟩ := History.actions_of_focus hlocked (by
                  simp [History.actionOf, Entry.thread, Entry.isAction])
                obtain ⟨l', hsuffix, rfl⟩ := History.suffix_of_actions hacts
                have hreceived' : .received j .providerIn n₀ d₀ ∈ l'.actions j := by
                  simpa [hacts] using hreceived
                cases (h.of_suffix hsuffix).1 with
                | cancelCall hacts' hrecommended =>
                    obtain ⟨ws, hws⟩ := hrecommended.effects
                    rw [History.effects, hacts, List.filter_cons_of_neg (by simp [Entry.isEffect,
                      Entry.isCommit, Entry.isSettleCall]), hacts', List.filter_cons_of_pos rfl,
                      hws] at ih ⊢
                    exact .finished ih (Nat.le_of_eq events_of_outbound)
                      (verdicts_of_outbound (by simp [Ticket.cancelRequested]))
                | recoverCall hacts' => cases hacts' _ hreceived'
            | acknowledge hacts => simp [hacts] at hreceived
            | relay hacts => cases hacts _ hreceived
            | commitNothing hacts hrecommended =>
                obtain ⟨ws, hws⟩ := hrecommended.effects
                rw [History.effects, hacts, List.filter_cons_of_pos rfl, hws] at ih ⊢
                exact .finished ih (by simp) rfl
        | processed j t action error =>
            obtain rfl : j = i := History.thread_of_actionOf heffect.1
            cases hpermitted with
            | settleCall hacts =>
                obtain ⟨ws, hws⟩ := hacts.effects
                rw [History.effects, hws] at ih ⊢
                exact .called ih
            | cancelCall | recoverCall => cases heffect.2
        | _ => cases heffect.2
      · rw [History.effects_cons_of_neg heffect]
        exact ih hmessage

/-! ### One claim for each message -/

/-- A commit that claims a message finds it unclaimed. -/
theorem Permitted.unclaimed {ws : List Write} (h : Permitted l (.committed i ws))
    (hclaims : Claims messageId ws) : l.database.inbox.lookup messageId = none := by
  obtain ⟨row, hmem, rfl⟩ := hclaims
  cases h with
  | recommend hacts hframe hunclaimed | cancellationApplied hacts hframe hunclaimed =>
      rcases List.mem_cons.mp hmem with hmem | hmem
      · cases hmem
        exact hunclaimed
      · cases mem_rewrite hmem
  | create => simp [outbound] at hmem
  | settle | requestCancellation =>
      rcases List.mem_append.mp hmem with hmem | hmem
      · cases mem_rewrite hmem
      · cases List.mem_singleton.mp hmem
  | acknowledge => cases mem_rewrite hmem
  | @relay _ failed publishedAt began =>
      rcases List.mem_append.mp hmem with hmem | hmem
      · split at hmem
        · cases hmem
        · cases List.mem_singleton.mp hmem
      · obtain ⟨f, -, hf⟩ := List.mem_map.mp hmem
        cases hf
  | commitNothing => cases hmem

omit [Codecs] in
/-- A message that a commit has claimed stays in the inbox. -/
theorem History.mem_inbox_of_claims {ws : List Write} (hmem : .committed i ws ∈ l)
    (hclaims : Claims messageId ws) : messageId ∈ l.database.inbox := by
  obtain ⟨row, hrow, rfl⟩ := hclaims
  induction l with
  | nil => cases hmem
  | cons e l ih =>
      rcases List.mem_cons.mp hmem with rfl | htail
      · exact Database.mem_inbox_of_insert hrow
      · cases e with
        | committed j ws' => exact Database.mem_inbox_writeAll ws' (ih htail)
        | _ => exact ih htail

/-- Two commits that claim the same message are of the same thread. -/
theorem Conforms.thread_of_claims (h : Conforms C l) {j : ℕ} {ws ws' : List Write}
    (hi : .committed i ws ∈ l) (hj : .committed j ws' ∈ l) (hclaims : Claims messageId ws)
    (hclaims' : Claims messageId ws') : i = j := by
  -- the later of two claims would find the message in the inbox
  have hfresh : ∀ {l : History} {i j ws ws'}, Permitted l (.committed i ws) →
      Claims messageId ws → .committed j ws' ∈ l → Claims messageId ws' → False := by
    intro l i j ws ws' hpermitted hclaims hmem hclaims'
    have hlookup := hpermitted.unclaimed hclaims
    exact AList.lookup_eq_none.mp hlookup (History.mem_inbox_of_claims hmem hclaims')
  induction h with
  | nil => cases hi
  | @cons l e h hpermitted he ih =>
      rcases List.mem_cons.mp hi with rfl | hi <;> rcases List.mem_cons.mp hj with heq | hj
      · cases heq
        rfl
      · exact (hfresh hpermitted hclaims hj hclaims').elim
      · exact (hfresh (heq ▸ hpermitted) hclaims' hi hclaims).elim
      · exact ih hi hj

omit [Codecs] in
/-- A consumer that has had an effect has committed a claim. -/
theorem ConsumerEffects.claims {acts : History} (h : ConsumerEffects i messageId acts)
    (hne : acts ≠ []) : ∃ ws, .committed i ws ∈ acts ∧ Claims messageId ws := by
  induction h with
  | nothing => exact absurd rfl hne
  | claimed hclaims => exact ⟨_, List.mem_singleton_self _, hclaims⟩
  | called h ih | finished h _ _ ih =>
      obtain ⟨ws, hmem, hclaims⟩ := ih (by simp)
      exact ⟨ws, List.mem_cons_of_mem _ hmem, hclaims⟩

/-! ### The effects on behalf of a message -/

/-- The entry is of a handler of the message. -/
def History.onBehalf (messageId : UUID) (l : History) (e : Entry) : Bool :=
  l.messageOf e.thread = some messageId

/-- Two effects on behalf of the same message are of the same thread. -/
theorem Conforms.thread_of_onBehalf (h : Conforms C l) {e e' : Entry} (he : e ∈ l) (he' : e' ∈ l)
    (heffect : e.isEffect = true) (heffect' : e'.isEffect = true)
    (hbehalf : l.onBehalf messageId e = true) (hbehalf' : l.onBehalf messageId e' = true) :
    e.thread = e'.thread := by
  have hclaim : ∀ e ∈ l, e.isEffect = true → l.onBehalf messageId e = true →
      ∃ ws, .committed e.thread ws ∈ l ∧ Claims messageId ws := by
    intro e he heffect hbehalf
    have haction : e.isAction = true := by
      cases e <;> first | rfl | cases heffect
    have hmem : e ∈ l.effects e.thread :=
      List.mem_filter.mpr ⟨History.mem_actions.mpr ⟨he, rfl, haction⟩, heffect⟩
    obtain ⟨ws, hws, hclaims⟩ := (h.consumerEffects (of_decide_eq_true hbehalf)).claims
      (List.ne_nil_of_mem hmem)
    exact ⟨ws, History.mem_of_mem_actions (List.mem_of_mem_filter hws), hclaims⟩
  obtain ⟨ws, hws, hclaims⟩ := hclaim e he heffect hbehalf
  obtain ⟨ws', hws', hclaims'⟩ := hclaim e' he' heffect' hbehalf'
  exact h.thread_of_claims hws hws' hclaims hclaims'

/-- All effects on behalf of a message are those of one consumer. -/
theorem Conforms.effects_onBehalf (h : Conforms C l) (messageId : UUID) :
    ∃ i acts, ConsumerEffects i messageId acts ∧
      l.filter (fun e => l.onBehalf messageId e && e.isEffect) = acts := by
  by_cases hex : ∃ e ∈ l, (l.onBehalf messageId e && e.isEffect) = true
  · obtain ⟨e, he, hboth⟩ := hex
    obtain ⟨hbehalf, heffect⟩ := (Bool.and_eq_true _ _).mp hboth
    refine ⟨e.thread, _, h.consumerEffects (of_decide_eq_true hbehalf), ?_⟩
    rw [History.effects, History.actions, List.filter_filter]
    refine List.filter_congr fun e' he' => ?_
    by_cases heffect' : e'.isEffect = true
    · have haction : e'.isAction = true := by
        cases e' <;> first | rfl | cases heffect'
      have hiff : l.onBehalf messageId e' = true ↔ e'.thread = e.thread := by
        refine ⟨fun hbehalf' => h.thread_of_onBehalf he' he heffect' heffect hbehalf' hbehalf,
          fun hthread => ?_⟩
        rw [History.onBehalf, hthread]
        exact hbehalf
      rw [Bool.eq_iff_iff]
      simp [History.actionOf, heffect', haction, hiff]
    · simp [heffect']
  · refine ⟨0, [], .nothing, List.filter_eq_nil_iff.mpr fun e he hboth => hex ⟨e, he, hboth⟩⟩

omit [Codecs] in
/-- What a consumer calls and commits. -/
theorem ConsumerEffects.bounds {acts : History} (h : ConsumerEffects i messageId acts) :
    acts.countP Entry.isSettleCall ≤ 1 ∧ (acts.flatMap Entry.events).length ≤ 1 ∧
      (acts.flatMap Entry.verdicts).length ≤ 1 := by
  -- a claim is followed by at most one settle call and one commit with an event
  have hclaimed : ∀ {ws}, ConsumerEffects i messageId [.committed i ws] →
      (Entry.committed i ws).events = [] ∧ (Entry.committed i ws).verdicts.length ≤ 1 := by
    rintro ws ⟨⟩
    next _ hevents hstatuses =>
      refine ⟨hevents, Nat.le_trans (List.length_filter_le _ _) ?_⟩
      simpa [Entry.statuses] using hstatuses
  cases h with
  | nothing => simp
  | claimed hclaims hevents hstatuses =>
      obtain ⟨hevents', hverdicts⟩ := hclaimed (.claimed hclaims hevents hstatuses)
      simpa [hevents', Entry.isSettleCall] using hverdicts
  | called h =>
      obtain ⟨hevents, hverdicts⟩ := hclaimed h
      refine ⟨Nat.le_refl 1, ?_, ?_⟩
      · simp only [List.flatMap_cons, List.flatMap_nil, List.append_nil, hevents]
        simp [Entry.events]
      · simpa [Entry.verdicts, Entry.statuses] using hverdicts
  | finished h hevents' hverdicts' =>
      cases h with
      | called h =>
          obtain ⟨hevents, hverdicts⟩ := hclaimed h
          refine ⟨Nat.le_refl 1, ?_, ?_⟩
          · simp only [List.flatMap_cons, List.flatMap_nil, List.append_nil, hevents]
            simpa [Entry.events] using hevents'
          · simp only [List.flatMap_cons, List.flatMap_nil, List.append_nil, hverdicts']
            simpa [Entry.verdicts, Entry.statuses] using hverdicts

omit [Codecs] in
/-- What only effects contribute is contributed by the effects on behalf of the message. -/
theorem flatMap_filter_effects {α : Type} (p : Entry → Bool) (f : Entry → List α)
    (hf : ∀ e, e.isEffect = false → f e = []) :
    (l.filter p).flatMap f = (l.filter fun e => p e && e.isEffect).flatMap f := by
  induction l with
  | nil => rfl
  | cons e l ih =>
      by_cases hp : p e = true
      · by_cases heffect : e.isEffect = true
        · rw [List.filter_cons_of_pos hp, List.filter_cons_of_pos (by simp [hp, heffect]),
            List.flatMap_cons, List.flatMap_cons, ih]
        · rw [List.filter_cons_of_pos hp, List.filter_cons_of_neg (by simp [heffect]),
            List.flatMap_cons, hf e (by simpa using heffect), ih]
          rfl
      · rw [List.filter_cons_of_neg hp, List.filter_cons_of_neg (by simp [hp]), ih]

/-- In every reachable state and for every message: the handlers of the message that have
committed anything are one; together they have made at most one settle call, and committed at
most one event and at most one status `RECOMMENDED_CONFIRM`, `RECOMMENDED_DECLINE` or
`CANCELLED`. -/
theorem at_most_once {s : System} (h : s.Reachable) (messageId : UUID) :
    (∀ e ∈ s.world.log, ∀ e' ∈ s.world.log, e.isCommit → e'.isCommit →
      s.world.log.onBehalf messageId e → s.world.log.onBehalf messageId e' →
      e.thread = e'.thread) ∧
    s.world.log.countP (fun e => s.world.log.onBehalf messageId e && e.isSettleCall) ≤ 1 ∧
    ((s.world.log.filter (s.world.log.onBehalf messageId)).flatMap Entry.events).length ≤ 1 ∧
    ((s.world.log.filter (s.world.log.onBehalf messageId)).flatMap Entry.verdicts).length ≤ 1 := by
  have hconforms := h.conforms
  generalize s.world.log = l at hconforms ⊢
  obtain ⟨i, acts, heffects, hfilter⟩ := hconforms.effects_onBehalf messageId
  obtain ⟨hcalls, hevents, hverdicts⟩ := heffects.bounds
  refine ⟨fun e he e' he' hcommit hcommit' => ?_, ?_, ?_, ?_⟩
  · exact hconforms.thread_of_onBehalf he he' (by simp [Entry.isEffect, hcommit])
      (by simp [Entry.isEffect, hcommit'])
  · rw [← hfilter, List.countP_filter] at hcalls
    refine Nat.le_trans (Nat.le_of_eq (List.countP_congr fun e _ => ?_)) hcalls
    simp only [Entry.isEffect, Bool.and_eq_true, Bool.or_eq_true]
    tauto
  · rw [flatMap_filter_effects _ _ fun e he => ?_, hfilter]
    · exact hevents
    · cases e <;> first | rfl | cases he
  · rw [flatMap_filter_effects _ _ fun e he => ?_, hfilter]
    · exact hverdicts
    · cases e <;> first | rfl | cases he

end General

open Script in
/-- After ticket 1 is settled, the provider sends frame 10 once more. -/
def redeliveredRun : List (Label Choice Invocation ℕ) :=
  settledRun .accept ++
  [.start (.recieveFromProvider [recommendation 10 1 .accept])] ++ runs 5 (ok 2) ++
  [.start .handle] ++ runs 6 (deliver 0 ++ ok 3)

/-- A frame that is handled twice, with the events of its effects. -/
theorem at_most_once_redelivered : ∃ s : System, s.Reachable ∧
    s.world.log.messageOf 4 = some 10 ∧ s.world.log.messageOf 6 = some 10 ∧
    ((s.world.log.filter (s.world.log.onBehalf 10)).flatMap Entry.events).length = 1 ∧
    s.world.log.countP (fun e => s.world.log.onBehalf 10 e && e.isSettleCall) ≤ 1 := by
  obtain ⟨s, hs, htest⟩ := System.exists_reaches anyEntry (s := System.initial) redeliveredRun
    (fun s => s.world.log.messageOf 4 = some 10 ∧ s.world.log.messageOf 6 = some 10 ∧
      ((s.world.log.filter (s.world.log.onBehalf 10)).flatMap Entry.events).length = 1)
    (by decide +kernel)
  have htest := of_decide_eq_true htest
  exact ⟨s, hs.run, htest.1, htest.2.1, htest.2.2, (at_most_once hs.run 10).2.1⟩

end RiskProvider

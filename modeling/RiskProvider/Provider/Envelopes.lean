import RiskProvider.Deduplication
import RiskProvider.Limits
import RiskProvider.Provider.Causes

/-!
# The provider's frames in the platform

What the frames of `MockProviderClient` cannot bring about. A handler acts on no ticket but the one
that the envelope of its frame names (`Integration.concerns_envelope`); no text that it writes is
too long, unless a request's key is (`Integration.writes_fit`); and the monolith is asked to settle
a ticket no more often than the provider has accepted the ticket's frame
(`Integration.settleCalls_le`).
-/

namespace RiskProvider

open Interleaving

/-- The write is about a ticket: it writes its row, an event about it, or the claim of a frame that
names it. -/
def Write.Concerns (t : UUID) : Write → Prop
  | insertTicket row => row.id = t
  | updateTicket id _ _ => id = t
  | insertEvent row => row.entityId = t
  | insertInbox row => row.ticketId = some t
  | markPublished _ _ _ | markFailed _ _ _ => False

/-- The entry, if it is a call of the monolith or a commit, is about a ticket. -/
def Entry.Concerns (t : UUID) : Entry → Prop
  | processed _ id _ _ => id = t
  | committed _ ws => ∀ wr ∈ ws, wr.Concerns t
  | _ => True

/-- The entry asks the monolith to settle a ticket. -/
def Entry.settlesFor (t : UUID) : Entry → Bool
  | processed _ id (some _) _ => id = t
  | _ => false

theorem Entry.isSettleCall_of_settlesFor {t : UUID} {e : Entry} (h : e.settlesFor t = true) :
    e.isSettleCall = true ∧ ∃ i action error, e = .processed i t (some action) error := by
  unfold settlesFor at h
  split at h
  next i id action error =>
    obtain rfl : id = t := of_decide_eq_true h
    exact ⟨rfl, i, action, error, rfl⟩
  · cases h

/-- The identifier under which an entry publishes. -/
def Entry.publishedId : Entry → Option UUID
  | published _ _ messageId _ _ => some messageId
  | _ => none

/-- The idempotency key of a request fits its column. -/
def Entry.keyFits : Entry → Bool
  | requested _ key _ => key.length ≤ 128
  | _ => true

/-- How often the monolith has been asked to settle a ticket. -/
def History.settleCalls (t : UUID) (l : History) : ℕ := l.countP (Entry.settlesFor t)

section General

variable [Codecs] {C : History → Entry → Prop} {l l' : History} {i : ℕ} {t : UUID}

/-- A thread receives one message. -/
theorem Conforms.received_eq (h : Conforms C l) {q q' : Queue} {n n' : ℕ} {d d' : Delivery}
    (hreceived : .received i q n d ∈ l) (hreceived' : .received i q' n' d' ∈ l) :
    q = q' ∧ n = n' ∧ d = d' := by
  -- the later one would have found the thread without actions
  have hfirst : ∀ {l : History} {q q' n n' d d'}, Permitted l (.received i q n d) →
      .received i q' n' d' ∈ l → False := by
    intro l q q' n n' d d' hpermitted hmem
    cases hpermitted with
    | received hacts hqueue =>
        have hmem' : .received i q' n' d' ∈ l.actions i := History.mem_actions.mpr ⟨hmem, rfl, rfl⟩
        rw [hacts] at hmem'
        cases hmem'
  induction h with
  | nil => cases hreceived
  | @cons l e h hpermitted he ih =>
      rcases List.mem_cons.mp hreceived with heq | hold
      · subst heq
        rcases List.mem_cons.mp hreceived' with heq | hold'
        · cases heq
          exact ⟨rfl, rfl, rfl⟩
        · exact (hfirst hpermitted hold').elim
      · rcases List.mem_cons.mp hreceived' with heq | hold'
        · subst heq
          exact (hfirst hpermitted hold).elim
        · exact ih hold hold'

/-- What a thread that receives a message does comes after the receipt. -/
theorem Conforms.received_mem_actions (h : Conforms C l) {q : Queue} {n : ℕ} {d : Delivery} {e : Entry}
    (hreceived : .received i q n d ∈ l) (hsuffix : (e :: l') <:+ l) (hthread : e.thread = i)
    (haction : e.isAction = true) (hne : ∀ q n d, e ≠ .received i q n d) :
    .received i q n d ∈ l'.actions i := by
  induction h with
  | nil => cases List.suffix_nil.mp hsuffix
  | @cons l e' h hpermitted he ih =>
      rcases List.suffix_cons_iff.mp hsuffix with heq | hbefore
      · obtain ⟨rfl, rfl⟩ := List.cons.inj heq
        rcases List.mem_cons.mp hreceived with heq | hold
        · exact absurd heq.symm (hne q n d)
        · exact History.mem_actions.mpr ⟨hold, rfl, rfl⟩
      · rcases List.mem_cons.mp hreceived with heq | hold
        · subst heq
          cases hpermitted with
          | received hacts hqueue =>
              have hmem : e ∈ l.actions i :=
                History.mem_actions.mpr ⟨hbefore.subset List.mem_cons_self, hthread, haction⟩
              rw [hacts] at hmem
              cases hmem
        · exact ih hold hbefore

/-- A thread that has received a frame handles it. -/
theorem Conforms.messageOf_of_received (h : Conforms C l) {n : ℕ} {d : Delivery} {m : Message}
    (hreceived : .received i .providerIn n d ∈ l)
    (hm : Message.modelValidate 0 0 d.body = some m) : l.messageOf i = some m.messageId := by
  have hsome : (l.messageOf i).isSome := by
    unfold History.messageOf
    rw [List.findSome?_isSome_iff]
    exact ⟨_, hreceived, by simp [hm]⟩
  obtain ⟨id, hid⟩ := Option.isSome_iff_exists.mp hsome
  obtain ⟨n', d', m', hreceived', hm', rfl⟩ := History.received_of_messageOf hid
  obtain ⟨-, -, rfl⟩ := h.received_eq hreceived (History.mem_of_mem_actions hreceived')
  rw [hid, Option.some.inj (hm.symm.trans hm')]

/-- On behalf of one frame, the monolith is asked at most once to settle a ticket. -/
theorem Conforms.settleCalls_onBehalf (h : Conforms C l) (t messageId : UUID) :
    ((l.filter (Entry.settlesFor t)).map fun e => l.messageOf e.thread).count (some messageId) ≤ 1 := by
  obtain ⟨j, acts, heffects, hacts⟩ := h.effects_onBehalf messageId
  have hbound := heffects.bounds.1
  rw [← hacts, List.countP_filter] at hbound
  rw [List.count, List.countP_map, List.countP_filter]
  refine le_trans (List.countP_mono_left fun e _ he => ?_) hbound
  simp only [Function.comp_apply, Bool.and_eq_true, beq_iff_eq] at he
  have hsettle := (Entry.isSettleCall_of_settlesFor he.2).1
  simp [History.onBehalf, Entry.isEffect, hsettle, he.1]

/-- The recommendation that a thread has recorded is the one that it has received. -/
theorem HasRecommended.eq_received {p : RecommendationPayload} {acts : History}
    (h : HasRecommended i p acts) {n : ℕ} {d : Delivery}
    (hreceived : .received i .providerIn n d ∈ acts) : ∃ m, Recommends d m p := by
  obtain ⟨n', d', m, row, now, began, hframe, -, rfl⟩ := h
  simp only [List.mem_cons, List.not_mem_nil, or_false, reduceCtorEq, false_or] at hreceived
  cases hreceived
  exact ⟨m, hframe⟩

omit [Codecs] in
theorem concerns_rewrite {row row' : Ticket} {began : Time} (hid : row.id = t) :
    ∀ wr ∈ rewrite row row' began, wr.Concerns t := by
  intro wr hwr
  rw [mem_rewrite hwr]
  exact hid

namespace Integration

variable {settings : ProviderSettings} {r : Response} {roll : ℚ} {now : Time} {n : ℕ} {d : Delivery}

/-- The calls that a handler makes of the monolith are about the ticket of its frame. -/
theorem processed_of_received (h : Conforms (Answered settings) l)
    (hreceived : .received i .providerIn n d ∈ l)
    (hbody : d.body = (Response.frame settings roll d.messageId now r).modelDump) {id : UUID}
    {action : Option RecommendationAction} {error : Option String}
    (hsuffix : (.processed i id action error :: l') <:+ l) : id = r.ticketId := by
  have hmem := h.received_mem_actions hreceived hsuffix rfl rfl (by simp)
  -- what the thread has recorded is what its frame recommends
  have hticket : ∀ {p : RecommendationPayload} {acts : History}, HasRecommended i p acts →
      .received i .providerIn n d ∈ acts → p.ticketId = r.ticketId := by
    intro p acts hrecommended hmem
    obtain ⟨m, hframe⟩ := hrecommended.eq_received hmem
    rw [(recommends_frame hbody hframe).1]
    rfl
  cases (h.of_suffix hsuffix).1 with
  | settleCall hacts => exact hticket hacts hmem
  | cancelCall hacts hrecommended =>
      rw [hacts] at hmem
      exact hticket hrecommended (List.mem_of_ne_of_mem (by simp) hmem)
  | recoverCall hacts hfound => cases hacts _ hmem

/-- The commits of a handler are about the ticket of its frame. -/
theorem committed_of_received (h : Conforms (Answered settings) l)
    (hreceived : .received i .providerIn n d ∈ l)
    (hbody : d.body = (Response.frame settings roll d.messageId now r).modelDump)
    {ws : List Write} (hsuffix : (.committed i ws :: l') <:+ l) :
    ∀ wr ∈ ws, wr.Concerns r.ticketId := by
  have hmem := h.received_mem_actions hreceived hsuffix rfl rfl (by simp)
  cases (h.of_suffix hsuffix).1 with
  | create hacts =>
      rw [hacts] at hmem
      simp at hmem
  | @recommend _ n' d' m p row now' began hacts hframe hunclaimed hrow hopen =>
      rw [hacts] at hmem
      cases List.mem_singleton.mp hmem
      obtain ⟨rfl, hticket, -⟩ := recommends_frame hbody hframe
      intro wr hwr
      rcases List.mem_cons.mp hwr with rfl | hwr
      · exact hticket
      · exact concerns_rewrite (l'.keyed_database.tickets _ _ hrow) wr hwr
  | @settle _ p acts loaded row now' eventId m began hacts hrecommended hrow hid hloaded hevent
      hframe =>
      rw [hacts] at hmem
      obtain ⟨m', hrecommends⟩ :=
        hrecommended.eq_received (List.mem_of_ne_of_mem (by simp) hmem)
      obtain ⟨rfl, -⟩ := recommends_frame hbody hrecommends
      intro wr hwr
      rcases List.mem_append.mp hwr with hwr | hwr
      · exact concerns_rewrite hid wr hwr
      · rw [List.mem_singleton.mp hwr]
        exact rfl
  | @requestCancellation _ ticketId error loaded row reason now' eventId m began hlocked hrow hid hevent
      hframe =>
      -- the ticket is the one of the cancel call before
      obtain ⟨f, hf⟩ := List.head?_eq_some_iff.mp hlocked
      have hcall : .processed i ticketId none error ∈ l' := by
        refine List.mem_of_mem_filter (p := fun e => History.actionOf i e || e.touches ticketId) ?_
        change _ ∈ l'.focus i ticketId
        rw [hf]
        exact List.mem_cons_self
      obtain ⟨l'', hcall'⟩ := exists_suffix_of_mem hcall
      obtain rfl := processed_of_received h hreceived hbody
        (hcall'.trans ((List.suffix_cons _ _).trans hsuffix))
      intro wr hwr
      rcases List.mem_append.mp hwr with hwr | hwr
      · exact concerns_rewrite hid wr hwr
      · rw [List.mem_singleton.mp hwr]
        exact rfl
  | @cancellationApplied _ n' d' m p row now' began hacts hframe hunclaimed hrow hstatus =>
      rw [hacts] at hmem
      cases List.mem_singleton.mp hmem
      obtain ⟨rfl, hticket⟩ := appliesCancellation_frame hbody hframe
      intro wr hwr
      rcases List.mem_cons.mp hwr with rfl | hwr
      · exact hticket
      · exact concerns_rewrite (l'.keyed_database.tickets _ _ hrow) wr hwr
  | acknowledge hacts =>
      rw [hacts] at hmem
      simp at hmem
  | relay hacts => cases hacts _ hmem
  | commitNothing hacts => simp

variable {G : Type} [DecidableEq G] [Fintype G] {c : Integration G}

/-- A handler of a frame acts on no ticket but the one that the envelope names. -/
theorem concerns_envelope (hc : Reachable settings c)
    (hreceived : .received i .providerIn n d ∈ c.system.world.log) {m : Message}
    (hdecodes : Decodes d.body m) :
    ∃ t, m.ticketId = some t ∧ ∀ e ∈ c.system.world.log, e.thread = i → e.Concerns t := by
  obtain ⟨l', hsuffix⟩ := exists_suffix_of_mem hreceived
  obtain ⟨r, roll, now, d', frame, j, k, n', j', key, i', ws, row, emitting, hbody, -⟩ :=
    trail_of_received hc.conforms hsuffix
  obtain rfl := decodes_frame hbody hdecodes
  refine ⟨r.ticketId, rfl, fun e he hthread => ?_⟩
  obtain ⟨l'', hsuffix'⟩ := exists_suffix_of_mem he
  cases e with
  | processed j id action error =>
      obtain rfl : j = i := hthread
      exact processed_of_received hc.conforms hreceived hbody hsuffix'
  | committed j ws =>
      obtain rfl : j = i := hthread
      exact committed_of_received hc.conforms hreceived hbody hsuffix'
  | _ => trivial

/-! ### The texts of a handler -/

/-- What a client recommends with is within the declared length. -/
theorem short_of_recommendedBy (h : Conforms (Answered settings) l) {reason : Option String}
    (hreason : recommendedBy? (l.actions i) = some reason) : ∀ text ∈ reason, text.length ≤ 512 := by
  unfold recommendedBy? at hreason
  split at hreason
  next j n d hacts =>
    have hmem : .received j .providerIn n d ∈ l :=
      History.mem_of_mem_actions (hacts ▸ List.mem_singleton_self _)
    obtain ⟨l', hsuffix⟩ := exists_suffix_of_mem hmem
    obtain ⟨r, roll, now, d', frame, j', k, n', j'', key, i', ws, row, emitting, hbody, -⟩ :=
      trail_of_received h hsuffix
    rw [hbody] at hreason
    simp only [recommendedReason?, Message.modelValidate_modelDump, Option.bind_eq_bind,
      Option.bind_some, Response.frame] at hreason
    cases r with
    | pushRecommendation ticketId =>
        simp only [Response.type, Response.payload, if_true,
          RecommendationPayload.modelValidate_modelDump, Option.map_some,
          Option.some.injEq] at hreason
        subst hreason
        decide
    | pushCancellationApplied ticketId => simp [Response.type] at hreason
  · cases hreason

/-- Against its providers, the platform writes only texts that fit their columns, as long as the
idempotency keys of its requests do. -/
theorem writes_fit (hc : Reachable settings c) {e : Effect}
    {cont : e.Result → Program Effect Effect.Result Unit}
    (hthread : c.system.threads i = .perform e cont)
    (hkeys : ∀ key request, .requested i key request ∈ c.system.world.log → key.length ≤ 128) :
    c.system.world.WriteFits i e := by
  refine (System.writes_fit_iff hc.system hthread).mpr ?_
  rintro ⟨-, ⟨-, p, hp, reason, hreason, hlong⟩ | ⟨row, hrow, hlong⟩⟩
  · -- the reason is the one of every provider
    have hby : recommendedBy? (c.system.world.log.actions i) = some p.reason := by
      rw [recommendedBy?_eq, hp, Option.map_some]
    have hshort := short_of_recommendedBy hc.conforms hby reason hreason
    omega
  · obtain ⟨request, hmem⟩ := System.requested_of_added hc.system hthread hrow
    have hshort := hkeys _ request hmem
    omega

/-! ### Settle calls -/

/-- A settle call is on behalf of a frame that the receive loop has published. -/
theorem messageOf_of_settles (h : Conforms (Answered settings) l) {e : Entry} (he : e ∈ l)
    (hsettles : e.settlesFor t = true) :
    ∃ j, ∃ d : Delivery, l.messageOf e.thread = some d.messageId ∧
      .published j topology.providerInRoutingKey d.messageId d.body true ∈ l ∧
      (Response.pushRecommendation t).forwardedBy
        (.published j topology.providerInRoutingKey d.messageId d.body true) = true := by
  obtain ⟨-, i, action, error, rfl⟩ := Entry.isSettleCall_of_settlesFor hsettles
  obtain ⟨l', hsuffix⟩ := exists_suffix_of_mem he
  cases (h.of_suffix hsuffix).1 with
  | @settleCall _ p _ hacts =>
      obtain ⟨n, d, m, row, now, began, hframe, -, hacts⟩ := hacts
      have hreceived : .received i .providerIn n d ∈ l := by
        refine ((List.suffix_cons _ _).trans hsuffix).subset (History.mem_of_mem_actions (i := i) ?_)
        rw [hacts]
        exact List.mem_cons_of_mem _ (List.mem_singleton_self _)
      obtain ⟨l'', hsuffix'⟩ := exists_suffix_of_mem hreceived
      obtain ⟨r, roll, now', d', frame, j, k, n', j', key, i', ws, row', emitting, hbody, htrail⟩ :=
        trail_of_received h hsuffix'
      obtain ⟨rfl, -⟩ := recommends_frame hbody hframe
      have hpublished : .published j topology.providerInRoutingKey d.messageId d.body true ∈ l :=
        htrail.sublist.subset (by simp [trail])
      refine ⟨j, d, ?_, hpublished, ?_⟩
      · have hdecoded : Message.modelValidate 0 0 d.body = some
            (Response.frame settings roll d.messageId now' (.pushRecommendation p.ticketId)) := by
          rw [hbody, Message.modelValidate_modelDump]
        exact h.messageOf_of_received hreceived hdecoded
      · simp [Response.forwardedBy, hbody]

/-- The monolith is asked to settle a ticket at most once for each time that the provider has
accepted the ticket's frame. -/
theorem settleCalls_le (hc : Reachable settings c) (t : UUID) :
    c.system.world.log.settleCalls t ≤
      (Response.pushRecommendation t).accepted c.system.world.log := by
  have hbalanced := hc.balanced (.pushRecommendation t)
  refine le_trans ?_ (le_trans (Nat.le_add_right _ _) hbalanced)
  have h := hc.conforms
  generalize c.system.world.log = l at h
  let ids : List (Option UUID) := (l.filter (Entry.settlesFor t)).map fun e => l.messageOf e.thread
  let published : List (Option UUID) :=
    (l.filter (Response.forwardedBy (.pushRecommendation t))).map Entry.publishedId
  -- no frame is settled twice
  have hnodup : ids.Nodup := by
    rw [List.nodup_iff_count_le_one]
    intro id
    cases id with
    | none =>
        refine le_of_eq_of_le (List.count_eq_zero.mpr fun hmem => ?_) (Nat.zero_le 1)
        obtain ⟨e, he, hnone⟩ := List.mem_map.mp hmem
        obtain ⟨hel, hsettles⟩ := List.mem_filter.mp he
        obtain ⟨j, d, hmessage, -⟩ := messageOf_of_settles h hel hsettles
        rw [hmessage] at hnone
        cases hnone
    | some messageId => exact h.settleCalls_onBehalf t messageId
  -- and each is one that has been published
  have hsubset : ids ⊆ published := by
    intro id hid
    obtain ⟨e, he, rfl⟩ := List.mem_map.mp hid
    obtain ⟨hel, hsettles⟩ := List.mem_filter.mp he
    obtain ⟨j, d, hmessage, hpublished, hforwarded⟩ := messageOf_of_settles h hel hsettles
    rw [hmessage]
    exact List.mem_map.mpr ⟨_, List.mem_filter.mpr ⟨hpublished, hforwarded⟩, rfl⟩
  have hlength : ids.length ≤ published.length := (List.subperm_of_subset hnodup hsubset).length_le
  simpa [ids, published, History.settleCalls, Response.forwarded, List.countP_eq_length_filter]
    using hlength

end Integration

end General

/-- The handler of the recommendation on ticket 1 asks the monolith to settle ticket 1. -/
theorem Integration.concerns_recommends : ∃ (c : Integration Unit) (n : ℕ) (d : Delivery)
    (m : Message), Reachable {} c ∧ c.system.world.log.settleCalls 1 = 1 ∧
    .received 4 .providerIn n d ∈ c.system.world.log ∧ Decodes d.body m ∧
    ∃ t, m.ticketId = some t ∧ ∀ e ∈ c.system.world.log, e.thread = 4 → e.Concerns t := by
  obtain ⟨c, hc, htest⟩ := exists_reachable (G := Unit) {}
    (Script.recommends ++ Script.alone (runs 4 (Script.ok 1)))
    (fun c => c.system.world.log.settleCalls 1 = 1 ∧ c.system.world.log.messageOf 4 = some 10)
    (by decide +kernel)
  obtain ⟨hcalls, hmessage⟩ := of_decide_eq_true htest
  obtain ⟨n, d, m, hreceived, hm, -⟩ := History.received_of_messageOf hmessage
  have hmem := History.mem_of_mem_actions hreceived
  exact ⟨c, n, d, m, hc, hcalls, hmem, ⟨0, 0, hm⟩, concerns_envelope hc hmem ⟨0, 0, hm⟩⟩

/-- The recommendation on ticket 1 may be flushed, and so may another ticket. -/
theorem Integration.writes_fit_recommends : ∃ c : Integration Unit, Reachable {} c ∧
    (∃ cont, c.system.threads 4 = .perform .flush cont) ∧ c.system.world.WriteFits 4 .flush ∧
    (c.system.world.session 5).added ≠ [] ∧ c.system.world.WriteFits 5 .flush := by
  obtain ⟨c, hc, htest⟩ := exists_reachable (G := Unit) {}
    (Script.answers ++ Script.alone ([.start .handle] ++ runs 4 (Script.deliver 0 ++ Script.ok 6) ++
      [.start (.createTicket "l" sampleRequest)] ++ runs 5 (Script.ok 2 ++ [.uuid 21, .succeed])))
    (fun c => flushes (c.system.threads 4) && (flushes (c.system.threads 5) &&
      (!(c.system.world.session 5).added.isEmpty && c.system.world.log.all Entry.keyFits)))
    (by decide +kernel)
  simp only [Bool.and_eq_true, Bool.not_eq_true', List.isEmpty_eq_false_iff,
    List.all_eq_true] at htest
  obtain ⟨hflush, hflush', hadded, hkeys⟩ := htest
  obtain ⟨cont, hthread⟩ := exists_of_flushes hflush
  obtain ⟨cont', hthread'⟩ := exists_of_flushes hflush'
  exact ⟨c, hc, ⟨cont, hthread⟩,
    writes_fit hc hthread fun key request hmem => of_decide_eq_true (hkeys _ hmem), hadded,
    writes_fit hc hthread' fun key request hmem => of_decide_eq_true (hkeys _ hmem)⟩

/-- The monolith is asked to settle ticket 1, which the provider has accepted. -/
theorem Integration.settleCalls_recommends : ∃ c : Integration Unit, Reachable {} c ∧
    c.system.world.log.settleCalls 1 = 1 ∧ c.system.world.log.settleCalls 1 ≤
      (Response.pushRecommendation 1).accepted c.system.world.log := by
  obtain ⟨c, hc, htest⟩ := exists_reachable (G := Unit) {}
    (Script.recommends ++ Script.alone (runs 4 (Script.ok 1)))
    (fun c => c.system.world.log.settleCalls 1 = 1) (by decide +kernel)
  exact ⟨c, hc, of_decide_eq_true htest, settleCalls_le hc 1⟩

end RiskProvider

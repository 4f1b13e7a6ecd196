import RiskProvider.Cancellation
import RiskProvider.Provider.Answers

/-!
# What the provider's answers are caused by

Run against its providers, the platform hears of a ticket only what it has asked for. A ticket that is
recommended, settled or decided has been placed: the provider has accepted the `TICKET` frame that the
commit of the ticket emitted (`Integration.recommended_of_status`). A ticket that is `CANCELLED` has
been requested to be cancelled, and the provider has accepted that request
(`Integration.cancelled_of_status`).
-/

namespace RiskProvider

open Interleaving

/-- A recommendation on the ticket has been recorded, and its cancellation not been requested
since. -/
def TicketStatus.recommended : TicketStatus → Bool
  | .recommendedConfirm | .recommendedDecline | .settled | .confirmed | .declined => true
  | _ => false

section General

variable [Codecs] {C : History → Entry → Prop} {l l' : History} {t : UUID} {st : TicketStatus}

/-- A recommendation that has been recorded was received. -/
theorem HasRecommended.received {i : ℕ} {e : Entry} {acts : History} {p : RecommendationPayload}
    (h : HasRecommended i p acts) (hacts : l.actions i = e :: acts) :
    ∃ n d m l', (.received i .providerIn n d :: l') <:+ l ∧ Recommends d m p := by
  obtain ⟨n, d, m, row, now, began, hframe, -, rfl⟩ := h
  obtain ⟨l₁, hl₁, hacts₁⟩ := History.suffix_of_actions hacts
  obtain ⟨l₂, hl₂, hacts₂⟩ := History.suffix_of_actions hacts₁
  obtain ⟨l₃, hl₃, -⟩ := History.suffix_of_actions hacts₂
  refine ⟨n, d, m, l₃, hl₃.trans ?_, hframe⟩
  exact (List.suffix_cons _ _).trans (hl₂.trans ((List.suffix_cons _ _).trans hl₁))

/-! ### From an answer to the frame that it answers -/

omit [Codecs] in
theorem eq_of_ofRoutingKey? {key : String} (h : Queue.ofRoutingKey? key = some .providerIn) :
    key = topology.providerInRoutingKey := by
  unfold Queue.ofRoutingKey? at h
  split at h
  · cases h
  · split at h
    next hkey => exact hkey
    · cases h

theorem RecommendationPayload.modelValidate_modelDump (p : RecommendationPayload) :
    modelValidate p.modelDump = some p := RecommendationPayload.model.validate_dump p

theorem CancellationAppliedPayload.modelValidate_modelDump (p : CancellationAppliedPayload) :
    modelValidate p.modelDump = some p := CancellationAppliedPayload.model.validate_dump p

namespace Integration

variable {settings : ProviderSettings}

/-- The entries that lead from the emission of a frame to the receipt of its answer `d`, latest
first. -/
def trail (d d' : Delivery) (frame : Message) (i n j k n' j' : ℕ) (key : String) (i' : ℕ)
    (ws : List Write) : History :=
  [.received i .providerIn n d,
    .published j topology.providerInRoutingKey d.messageId d.body true,
    .sent k frame .ok,
    .received k .providerOut n' d',
    .published j' key d'.messageId frame.modelDump true,
    .committed i' ws]

/-- The history contains the receipt of an answer of the kind `r`, and what has caused it. -/
structure Trail (l : History) (r : Response) (d d' : Delivery) (frame : Message)
    (i n j k n' j' : ℕ) (key : String) (i' : ℕ) (ws : List Write) (row : OutboxEvent)
    (emitting : History) : Prop where
  sublist : (trail d d' frame i n j k n' j' key i' ws).Sublist l
  type : frame.type = r.request
  ticket : frame.ticketId = some r.ticketId
  event : .insertEvent row ∈ ws
  id : row.id = d'.messageId
  payload : row.payload = frame.modelDump
  emits : Emits emitting i' ws row.entityId frame

/-- What a consumer receives answers a frame that a commit has emitted and the provider has
accepted. -/
theorem trail_of_received (h : Conforms (Answered settings) l) {i n : ℕ} {d : Delivery}
    (hsuffix : (.received i .providerIn n d :: l') <:+ l) :
    ∃ r roll now d' frame j k n' j' key i' ws row emitting,
      d.body = (Response.frame settings roll d.messageId now r).modelDump ∧
        Trail l r d d' frame i n j k n' j' key i' ws row emitting := by
  have hl' := h.of_suffix_history ((List.suffix_cons _ _).trans hsuffix)
  cases (h.of_suffix hsuffix).1 with
  | received hacts hqueue =>
      obtain ⟨j, key, hkey, hpublished⟩ :=
        hl'.published_of_carries (.inl (List.mem_of_getElem? hqueue))
      obtain rfl := eq_of_ofRoutingKey? hkey
      obtain ⟨l₁, hl₁⟩ := exists_suffix_of_mem hpublished
      have hconforms₁ := hl'.of_suffix_history ((List.suffix_cons _ _).trans hl₁)
      -- it was published by a receive loop, which had it from a client
      obtain ⟨r, roll, now, hbody, haccepted⟩ := (hl'.of_suffix hl₁).2 _ _ _ _ rfl
      -- the frame that the answer is to
      obtain ⟨k, frame, hsent, hresponse⟩ := Response.accepted_pos_iff.1 haccepted
      obtain ⟨htype, hticket⟩ := MockProviderClient.response?_eq hresponse
      obtain ⟨l₂, hl₂⟩ := exists_suffix_of_mem hsent
      have hconforms₂ := hconforms₁.of_suffix_history ((List.suffix_cons _ _).trans hl₂)
      cases (hconforms₁.of_suffix hl₂).1 with
      | @send _ n' d' _ _ hacts' hdecodes =>
          -- and the commit that emitted that frame
          obtain ⟨l₃, hl₃, -⟩ := History.suffix_of_actions hacts'
          obtain ⟨publishing, emitting, j', i', key', ws, row, m, hbody', hrelayed⟩ :=
            hconforms₂.relayed_of_received hl₃
          rw [hbody'] at hdecodes
          obtain rfl := hdecodes.eq
          refine ⟨r, roll, now, d', frame, j, k, n', j', key', i', ws, row, emitting, hbody, ?_,
            htype, hticket, hrelayed.event, hrelayed.id, hrelayed.payload, hrelayed.emits⟩
          refine sublist_of_suffix hsuffix (sublist_of_suffix hl₁ (sublist_of_suffix hl₂
            (sublist_of_suffix hl₃ (sublist_of_suffix hrelayed.published ?_))))
          exact sublist_of_suffix hrelayed.committed (List.nil_sublist _)

/-- What is received from a client decodes to the frame that it has built. -/
theorem decodes_frame {d : Delivery} {m : Message} {r : Response} {roll : ℚ} {now : Time}
    (hbody : d.body = (Response.frame settings roll d.messageId now r).modelDump)
    (hdecodes : Decodes d.body m) : m = Response.frame settings roll d.messageId now r := by
  rw [hbody] at hdecodes
  exact hdecodes.eq

/-- A recommendation of a client is about the ticket that it answers for. -/
theorem recommends_frame {d : Delivery} {m : Message} {p : RecommendationPayload} {r : Response}
    {roll : ℚ} {now : Time}
    (hbody : d.body = (Response.frame settings roll d.messageId now r).modelDump)
    (h : Recommends d m p) : r = .pushRecommendation p.ticketId ∧ m.ticketId = some p.ticketId ∧
      p.reason = some "mock risk engine decision" := by
  obtain rfl := decodes_frame hbody h.decodes
  cases r with
  | pushRecommendation ticketId =>
      obtain rfl : _ = p := Option.some.inj
        ((RecommendationPayload.modelValidate_modelDump _).symm.trans h.payload)
      exact ⟨rfl, rfl, rfl⟩
  | pushCancellationApplied ticketId => cases h.type

/-- The answer to a request for cancellation is about the ticket that it answers for. -/
theorem appliesCancellation_frame {d : Delivery} {m : Message} {p : CancellationAppliedPayload}
    {r : Response} {roll : ℚ} {now : Time}
    (hbody : d.body = (Response.frame settings roll d.messageId now r).modelDump)
    (h : AppliesCancellation d m p) :
    r = .pushCancellationApplied p.ticketId ∧ m.ticketId = some p.ticketId := by
  obtain rfl := decodes_frame hbody h.decodes
  cases r with
  | pushRecommendation ticketId => cases h.type
  | pushCancellationApplied ticketId =>
      obtain rfl : _ = p := Option.some.inj
        ((CancellationAppliedPayload.modelValidate_modelDump _).symm.trans h.payload)
      exact ⟨rfl, rfl⟩

/-! ### The statuses of a ticket -/

/-- The provider has recommended on a ticket because it has accepted the frame that the commit of the
ticket emitted. -/
def Recommended (l : History) (t : UUID) : Prop :=
  ∃ i n d m p j k frame n' d' j' key i' ws ticket row,
    (trail d d' frame i n j k n' j' key i' ws).Sublist l ∧
    Recommends d m p ∧ p.ticketId = t ∧ m.ticketId = some t ∧
    .insertTicket ticket ∈ ws ∧ ticket.id = t ∧ Opens frame ticket ∧
    .insertEvent row ∈ ws ∧ row.entityId = t ∧ row.id = d'.messageId ∧
    row.payload = frame.modelDump

/-- The provider has applied the cancellation of a ticket because it has accepted the request that a
commit has emitted. -/
def CancellationApplied (l : History) (t : UUID) : Prop :=
  ∃ i n d m p j k frame n' d' j' key i' ws row reason,
    (trail d d' frame i n j k n' j' key i' ws).Sublist l ∧
    AppliesCancellation d m p ∧ p.ticketId = t ∧ m.ticketId = some t ∧
    .insertEvent row ∈ ws ∧ row.entityId = t ∧ row.id = d'.messageId ∧
    row.payload = frame.modelDump ∧ RequestsCancellation frame t reason

/-- A recommendation that is received has been caused. -/
theorem recommended_of_received (h : Conforms (Answered settings) l) {i n : ℕ} {d : Delivery}
    {m : Message} {p : RecommendationPayload} (hsuffix : (.received i .providerIn n d :: l') <:+ l)
    (hframe : Recommends d m p) : Recommended l p.ticketId := by
  obtain ⟨r, roll, now, d', frame, j, k, n', j', key, i', ws, row, emitting, hbody, htrail⟩ :=
    trail_of_received h hsuffix
  obtain ⟨rfl, hticket, -⟩ := recommends_frame hbody hframe
  have htype := htrail.type
  -- of the frames that commits emit, only `TICKET` is answered by a recommendation
  cases htrail.emits with
  | @opens ticket hrow hid hopens hnone =>
      obtain hid' : ticket.id = p.ticketId :=
        Option.some.inj (hopens.ticket.symm.trans htrail.ticket)
      exact ⟨i, n, d, m, p, j, k, frame, n', d', j', key, i', ws, ticket, row, htrail.sublist,
        hframe, rfl, hticket, hrow, hid', hopens, htrail.event, hid.symm.trans hid', htrail.id,
        htrail.payload⟩
  | @settles p' acts hacts hrecommended hid hsets hacknowledges =>
      rw [hacknowledges.type] at htype
      cases hp : p'.action <;> simp [hp, RecommendationAction.ackType, Response.request] at htype
  | cancels hlocked hrequests =>
      rw [hrequests.type] at htype
      cases htype

/-- A cancellation that is received has been caused. -/
theorem cancellationApplied_of_received (h : Conforms (Answered settings) l) {i n : ℕ}
    {d : Delivery} {m : Message} {p : CancellationAppliedPayload}
    (hsuffix : (.received i .providerIn n d :: l') <:+ l) (hframe : AppliesCancellation d m p) :
    CancellationApplied l p.ticketId := by
  obtain ⟨r, roll, now, d', frame, j, k, n', j', key, i', ws, row, emitting, hbody, htrail⟩ :=
    trail_of_received h hsuffix
  obtain ⟨rfl, hticket⟩ := appliesCancellation_frame hbody hframe
  have htype := htrail.type
  -- only `REQUEST_CANCELLATION` is answered by an applied cancellation
  cases htrail.emits with
  | opens hrow hid hopens hnone =>
      rw [hopens.type] at htype
      cases htype
  | @settles p' acts hacts hrecommended hid hsets hacknowledges =>
      rw [hacknowledges.type] at htype
      cases hp : p'.action <;> simp [hp, RecommendationAction.ackType, Response.request] at htype
  | @cancels ok reason hlocked hrequests =>
      have hid : row.entityId = p.ticketId :=
        Option.some.inj (hrequests.ticket.symm.trans htrail.ticket)
      exact ⟨i, n, d, m, p, j, k, frame, n', d', j', key, i', ws, row, reason, htrail.sublist, hframe,
        rfl, hticket, htrail.event, hid, htrail.id, htrail.payload, hid ▸ hrequests⟩

theorem Recommended.mono (h : Recommended l' t) (hsuffix : l' <:+ l) : Recommended l t := by
  obtain ⟨i, n, d, m, p, j, k, frame, n', d', j', key, i', ws, ticket, row, htrail, hrest⟩ := h
  exact ⟨i, n, d, m, p, j, k, frame, n', d', j', key, i', ws, ticket, row,
    htrail.trans hsuffix.sublist, hrest⟩

theorem CancellationApplied.mono (h : CancellationApplied l' t) (hsuffix : l' <:+ l) :
    CancellationApplied l t := by
  obtain ⟨i, n, d, m, p, j, k, frame, n', d', j', key, i', ws, row, reason, htrail, hrest⟩ := h
  exact ⟨i, n, d, m, p, j, k, frame, n', d', j', key, i', ws, row, reason,
    htrail.trans hsuffix.sublist, hrest⟩

/-- A recommendation that has been recorded has been caused. -/
theorem recommended_of_recorded (h : Conforms (Answered settings) l) {i : ℕ} {e : Entry}
    {acts : History} {p : RecommendationPayload} (hacts : l.actions i = e :: acts)
    (hrecommended : HasRecommended i p acts) : Recommended l p.ticketId := by
  obtain ⟨n, d, m, l', hsuffix, hframe⟩ := hrecommended.received hacts
  exact recommended_of_received h hsuffix hframe

/-- A ticket with a recommendation has been recommended by a provider that has accepted it. -/
theorem recommended_of_conforms (h : Conforms (Answered settings) l) (hst : l.status? t = some st)
    (hrecommended : st.recommended = true) : Recommended l t := by
  have hnew : st ≠ .new := by
    rintro rfl
    cases hrecommended
  obtain ⟨l', i, ws, st', hsuffix, -, hchange⟩ := h.changed hst hnew
  have hl' := h.of_suffix_history ((List.suffix_cons _ _).trans hsuffix)
  refine Recommended.mono ?_ ((List.suffix_cons _ _).trans hsuffix)
  cases hchange with
  | recommend hacts hframe ht hopen =>
      obtain ⟨l'', hl'', -⟩ := History.suffix_of_actions hacts
      exact ht ▸ recommended_of_received hl' hl'' hframe
  | settle hacts hhas ht => exact ht ▸ recommended_of_recorded hl' hacts hhas
  | requestCancellation | cancel => cases hrecommended
  | @acknowledge m n d target hacts hdecodes hticket htarget hopen hnew =>
      -- only the acceptance of an acknowledging frame gives the ticket a final status
      have hfinal : ∃ action : RecommendationAction, st = action.finalStatus := by
        have hfinal := htarget
        unfold ProviderGatewayWorker.ackTarget at hfinal
        split at hfinal <;> cases hfinal
        · cases hrecommended
        · exact ⟨.accept, rfl⟩
        · exact ⟨.decline, rfl⟩
      obtain ⟨action, rfl⟩ := hfinal
      obtain ⟨l₁, l₂, publishing, emitting, j, i', key, settle, row, p, acts, hsent, hreceived,
        hrelayed, -, hacts', hhas, hid, -⟩ := hl'.settles_of_sent hacts hdecodes hticket htarget
      have hemitting : emitting <:+ l' := (List.suffix_cons _ _).trans (hrelayed.committed.trans
        ((List.suffix_cons _ _).trans (hrelayed.published.trans ((List.suffix_cons _ _).trans
          (hreceived.trans ((List.suffix_cons _ _).trans hsent))))))
      refine Recommended.mono ?_ hemitting
      exact hid ▸ recommended_of_recorded (hl'.of_suffix_history hemitting) hacts' hhas

/-- A ticket that has been cancelled has been cancelled by a provider that has accepted a request for
it. -/
theorem cancellationApplied_of_conforms (h : Conforms (Answered settings) l)
    (hst : l.status? t = some .cancelled) : CancellationApplied l t := by
  obtain ⟨l', i, ws, st', hsuffix, -, hchange⟩ := h.changed hst (by simp)
  have hl' := h.of_suffix_history ((List.suffix_cons _ _).trans hsuffix)
  refine CancellationApplied.mono ?_ ((List.suffix_cons _ _).trans hsuffix)
  generalize hfinal : TicketStatus.cancelled = final at hchange
  cases hchange with
  | cancel hacts hframe ht hstatus =>
      obtain ⟨l'', hl'', -⟩ := History.suffix_of_actions hacts
      exact ht ▸ cancellationApplied_of_received hl' hl'' hframe
  | @recommend n d m p hacts hframe ht hopen =>
      cases hp : p.action <;> simp [hp, RecommendationAction.status] at hfinal
  | settle | requestCancellation => cases hfinal
  | @acknowledge m n d target hacts hdecodes hticket htarget hopen hnew =>
      subst hfinal
      unfold ProviderGatewayWorker.ackTarget at htarget
      split at htarget <;> cases htarget

variable {G : Type} [DecidableEq G] [Fintype G] {c : Integration G}

/-- A ticket that is recommended, settled or decided has been placed with the provider: the provider
has accepted the frame that the commit of the ticket emitted, and answered it. -/
theorem recommended_of_status (hc : Reachable settings c)
    (hst : c.system.world.status? t = some st) (hrecommended : st.recommended = true) :
    Recommended c.system.world.log t :=
  recommended_of_conforms hc.conforms (System.status?_eq hc.system t ▸ hst) hrecommended

/-- A ticket that is `CANCELLED` has been requested to be cancelled: the provider has accepted the
request that a commit emitted, and answered it. -/
theorem cancelled_of_status (hc : Reachable settings c)
    (hst : c.system.world.status? t = some .cancelled) :
    CancellationApplied c.system.world.log t :=
  cancellationApplied_of_conforms hc.conforms (System.status?_eq hc.system t ▸ hst)

end Integration

end General

/-- Ticket 1 is recommended after the provider has accepted it. -/
theorem Integration.recommended_recommends : ∃ c : Integration Unit, Reachable {} c ∧
    c.system.world.status? 1 = some .recommendedConfirm ∧ Recommended c.system.world.log 1 := by
  obtain ⟨c, hc, htest⟩ := exists_reachable (G := Unit) {} Script.recommends
    (fun c => c.system.world.status? 1 = some .recommendedConfirm) (by decide +kernel)
  have hst := of_decide_eq_true htest
  exact ⟨c, hc, hst, recommended_of_status hc hst rfl⟩

/-- Ticket 1 is cancelled after the provider has accepted the request for it. -/
theorem Integration.cancelled_cancels : ∃ c : Integration Unit, Reachable {} c ∧
    c.system.world.status? 1 = some .cancelled ∧ CancellationApplied c.system.world.log 1 := by
  obtain ⟨c, hc, htest⟩ := exists_reachable (G := Unit) {} Script.cancels
    (fun c => c.system.world.status? 1 = some .cancelled) (by decide +kernel)
  have hst := of_decide_eq_true htest
  exact ⟨c, hc, hst, cancelled_of_status hc hst⟩

end RiskProvider

import RiskProvider.Executions
import RiskProvider.Frames

/-!
# Provenance of final decisions

A ticket is `CONFIRMED` or `DECLINED` only at the end of the chain of causes in `Decided`: a
recommendation claimed, a settle call that succeeded, a commit that settles the ticket and
emits the acknowledging frame, a publish of that frame, and its acceptance by the provider.
-/

namespace RiskProvider

open Interleaving

theorem sublist_of_suffix {l l' es : History} {e : Entry} (hsuffix : (e :: l') <:+ l)
    (h : es.Sublist l') : (e :: es).Sublist l := (h.cons_cons e).trans hsuffix.sublist

section General

variable [Codecs]

/-- The history contains, latest first, what led to the final decision on a ticket. -/
def Decided (l : History) (ticketId : UUID) (action : RecommendationAction) : Prop :=
  ∃ i n d m p claim settle row frame j key k,
    List.Sublist
      [.sent k frame .ok,
        .published j key row.id row.payload true,
        .committed i settle,
        .processed i ticketId (some action) none,
        .committed i claim,
        .received i .providerIn n d] l ∧
    Recommends d m p ∧ p.ticketId = ticketId ∧ p.action = action ∧
    (∃ began, .insertInbox (m.claim began) ∈ claim) ∧
    Sets settle ticketId .settled ∧ .insertEvent row ∈ settle ∧ row.entityId = ticketId ∧
    row.payload = frame.modelDump ∧ Acknowledges frame ticketId action

variable {C : History → Entry → Prop} {l : History} {t : UUID} {action : RecommendationAction}

theorem Decided.cons (h : Decided l t action) (e : Entry) : Decided (e :: l) t action := by
  obtain ⟨i, n, d, m, p, claim, settle, row, frame, j, key, k, hsublist, hrest⟩ := h
  exact ⟨i, n, d, m, p, claim, settle, row, frame, j, key, k, hsublist.cons e, hrest⟩

omit [Codecs] in
/-- Only the acceptance of an acknowledging frame gives a ticket its final status. -/
theorem ackTarget_eq_finalStatus {action' : RecommendationAction}
    (h : ProviderGatewayWorker.ackTarget action'.ackType = some action.finalStatus) :
    action' = action := by
  cases action <;> cases action' <;> first | rfl | exact absurd h (by decide)

/-- A frame that decides a ticket, when the gateway has sent it, was emitted by the thread that has
settled the ticket. -/
theorem Conforms.settles_of_sent (h : Conforms C l) {k n : ℕ} {d : Delivery} {frame : Message}
    (hacts : l.actions k = [.sent k frame .ok, .received k .providerOut n d])
    (hdecodes : Decodes d.body frame) (hticket : frame.ticketId = some t)
    (htarget : ProviderGatewayWorker.ackTarget frame.type = some action.finalStatus) :
    ∃ l₁ l₂ publishing emitting j i key settle row p acts,
      (.sent k frame .ok :: l₁) <:+ l ∧ (.received k .providerOut n d :: l₂) <:+ l₁ ∧
      Relayed l₂ d.messageId frame publishing emitting j i key settle row ∧ row.entityId = t ∧
      emitting.actions i = .processed i t (some p.action) none :: acts ∧
      HasRecommended i p acts ∧ p.ticketId = t ∧ p.action = action ∧ Sets settle t .settled ∧
      Acknowledges frame t action := by
  obtain ⟨l₁, hsent, hacts₁⟩ := History.suffix_of_actions hacts
  obtain ⟨l₂, hreceived, -⟩ := History.suffix_of_actions hacts₁
  have hl₁ := h.of_suffix_history ((List.suffix_cons _ _).trans hsent)
  obtain ⟨publishing, emitting, j, i, key, settle, row, m, hbody, hrelayed⟩ :=
    hl₁.relayed_of_received hreceived
  rw [hbody] at hdecodes
  obtain rfl := hdecodes.eq
  cases hrelayed.emits with
  | opens hrow hid hframe hnone =>
      rw [hframe.type] at htarget
      cases action <;> cases htarget
  | cancels hlocked hframe =>
      rw [hframe.type] at htarget
      cases htarget
  | @settles p acts hacts hrecommended hid hsets hframe =>
      obtain rfl : row.entityId = t := Option.some.inj (hframe.ticket.symm.trans hticket)
      rw [hframe.type] at htarget
      obtain rfl := ackTarget_eq_finalStatus htarget
      exact ⟨l₁, l₂, publishing, emitting, j, i, key, settle, row, p, acts, hsent, hreceived,
        hrelayed, rfl, hacts, hrecommended, hid, rfl, hsets, hframe⟩

/-- The acceptance of a frame that decides a ticket has the whole chain of causes before it. -/
theorem decided_of_sent (h : Conforms C l) {k n : ℕ} {d : Delivery} {frame : Message}
    (hacts : l.actions k = [.sent k frame .ok, .received k .providerOut n d])
    (hdecodes : Decodes d.body frame) (hticket : frame.ticketId = some t)
    (htarget : ProviderGatewayWorker.ackTarget frame.type = some action.finalStatus) :
    Decided l t action := by
  obtain ⟨l₁, l₂, publishing, emitting, j, i, key, settle, row, p, acts, hsent, hreceived,
    hrelayed, rfl, hacts, hrecommended, hid, rfl, hsets, hframe⟩ :=
    h.settles_of_sent hacts hdecodes hticket htarget
  obtain ⟨n', d', m, claimed, now, began, hrecommends, -, rfl⟩ := hrecommended
  obtain ⟨l₃, hprocessed, hacts₃⟩ := History.suffix_of_actions hacts
  obtain ⟨l₄, hclaim, hacts₄⟩ := History.suffix_of_actions hacts₃
  obtain ⟨l₅, hreceived', -⟩ := History.suffix_of_actions hacts₄
  refine ⟨i, n', d', m, p, .insertInbox (m.claim began) ::
    rewrite claimed (claimed.recommended p now) began, settle, row, frame, j, key, k, ?_,
    hrecommends, hid, rfl, ⟨began, List.mem_cons_self⟩, hsets, hrelayed.event, rfl,
    hrelayed.payload, hframe⟩
  refine sublist_of_suffix hsent (.trans ?_ ((List.suffix_cons _ _).trans hreceived).sublist)
  rw [hrelayed.id, hrelayed.payload]
  exact sublist_of_suffix hrelayed.published (sublist_of_suffix hrelayed.committed
    (sublist_of_suffix hprocessed (sublist_of_suffix hclaim
      (sublist_of_suffix hreceived' (List.nil_sublist _)))))

/-- What holds from the acceptance of a frame that decides a ticket on holds whenever the ticket has
the final status. -/
theorem Conforms.of_finalStatus {P : History → Prop} (hcons : ∀ l e, P l → P (e :: l))
    (hsent : ∀ l k n d frame, Conforms C l →
      l.actions k = [.sent k frame .ok, .received k .providerOut n d] → Decodes d.body frame →
      frame.ticketId = some t →
      ProviderGatewayWorker.ackTarget frame.type = some action.finalStatus → P l)
    (h : Conforms C l) (hst : l.status? t = some action.finalStatus) : P l := by
  induction h with
  | nil => cases hst
  | @cons l e h hpermitted he ih =>
      cases hold : l.status? t with
      | none =>
          have hnew := status_of_created hpermitted hold hst
          cases action <;> cases hnew
      | some st =>
          by_cases hne : action.finalStatus = st
          · exact hcons l e (ih (hne ▸ hold))
          · obtain ⟨i, ws, rfl⟩ := History.committed_of_status_ne hold hst hne
            have hchange := (change_of_permitted hpermitted hold hst hne).2
            generalize hfinal : action.finalStatus = st' at hchange
            cases hchange with
            | @recommend n d m p => cases action <;> cases hp : p.action <;>
                simp [hp, RecommendationAction.finalStatus, RecommendationAction.status] at hfinal
            | settle | requestCancellation | cancel => cases action <;> cases hfinal
            | acknowledge hacts hdecodes hticket htarget =>
                exact hcons _ _ (hsent _ _ _ _ _ h hacts hdecodes hticket (hfinal ▸ htarget))

/-- A ticket with a final status has been decided. -/
theorem Conforms.decided (h : Conforms C l) (hst : l.status? t = some action.finalStatus) :
    Decided l t action :=
  h.of_finalStatus (fun _ e hl => hl.cons e) (fun _ _ _ _ _ hl hacts hdecodes hticket htarget =>
    decided_of_sent hl hacts hdecodes hticket htarget) hst

/-- In every reachable state, a ticket whose committed status is `CONFIRMED` (or `DECLINED`) has
been decided: the run contains the whole chain of causes, in order. -/
theorem final_decision_provenance {s : System} (hs : s.Reachable)
    (hst : s.world.status? t = some action.finalStatus) : Decided s.world.log t action :=
  hs.conforms.decided (System.status?_eq hs t ▸ hst)

end General

/-- Ticket 1 has been confirmed. -/
theorem final_decision_provenance_confirmed : ∃ s : System, s.Reachable ∧
    s.world.status? 1 = some .confirmed ∧ Decided s.world.log 1 .accept := by
  obtain ⟨s, hs, hst⟩ := System.exists_reaches (s := System.initial) anyEntry
    (confirmedRun .accept) (fun s => s.world.status? 1 = some .confirmed) (by decide +kernel)
  simp only [decide_eq_true_eq] at hst
  exact ⟨s, hs.run, hst, final_decision_provenance hs.run hst⟩

end RiskProvider

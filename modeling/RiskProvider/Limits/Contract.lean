import RiskProvider.Fulfilment
import RiskProvider.Limits.Stored

/-!
# Texts and the lengths of their columns

A flush fails when an attribute is longer than its column. The failure reason is cut where it is
assigned; the reason of a recommendation is not, and its schema sets no limit. `Phase` says how far a
consumer is with a recommendation: it is `applying` its reason until the first flush. `limited` is the
contract that, outside of that, every assigned ticket is within the declared lengths, and every added
one but for the key of its request.

* `recommendedReason?`: the reason that a frame recommends with, if it recommends.
* `Phase.Fits`: what a phase says of a thread's session.
-/

namespace RiskProvider

open Interleaving

/-- The effect receives a message or a request, flushes, commits or ends the session. -/
def Effect.changesPhase : Effect → Bool
  | receive _ | request _ _ | flush | commit | rollback => true
  | _ => false

variable [Codecs]

/-- The reason given by the recommendation that a frame makes, if it makes one. -/
def recommendedReason? (body : Dict) : Option (Option String) := do
  let m ← Message.modelValidate 0 0 body
  if m.type = .recommendation then
    (RecommendationPayload.modelValidate m.payload).map (·.reason)
  else none

/-- The reason given by the frame that a thread has received, when the thread has done nothing
since and the frame is a recommendation. -/
def recommendedBy? : History → Option (Option String)
  | [.received _ .providerIn _ d] => recommendedReason? d.body
  | _ => none

/-- Which reason is recommended with does not depend on the default factories. -/
theorem recommendedReason?_eq {u : UUID} {t : Time} {body : Dict} {m : Message}
    (h : Message.modelValidate u t body = some m) : recommendedReason? body =
      if m.type = .recommendation then
        (RecommendationPayload.modelValidate m.payload).map (·.reason)
      else none := by
  obtain ⟨m', hm', -, htype, hpayload⟩ := Message.modelValidate_defaults 0 0 h
  simp [recommendedReason?, hm', htype, hpayload]

theorem recommendedReason?_eq_none {u : UUID} {t : Time} {body : Dict}
    (h : Message.modelValidate u t body = none) : recommendedReason? body = none := by
  cases hm : Message.modelValidate 0 0 body with
  | none => simp [recommendedReason?, hm]
  | some m =>
      obtain ⟨m', hm', -⟩ := Message.modelValidate_defaults u t hm
      rw [h] at hm'
      cases hm'

/-- How far a thread is with a recommendation. -/
inductive Phase where
  /-- It has done nothing. -/
  | fresh
  /-- It has none, or has committed its reason; `key` is that of the request that it has
  received, if any. -/
  | idle (key : Option String)
  /-- It has not flushed the reason yet. -/
  | applying (reason : Option String)
  /-- It has flushed the reason, or its session has ended. -/
  | applied

namespace Phase

/-- The phase after an effect that neither flushes nor commits. -/
def next : Phase → Phase
  | fresh => idle none
  | φ => φ

/-- The phase after a flush. -/
def flushed : Phase → Phase
  | applying _ => applied
  | φ => φ.next

/-- The phase after a commit. -/
def committed : Phase → Phase
  | applied => idle none
  | φ => φ.next

/-- The phase of a thread that receives a message. -/
def ofBody (q : Queue) (body : Dict) : Phase :=
  match q with
  | .providerIn => (recommendedReason? body).elim (idle none) applying
  | .providerOut => idle none

omit [Codecs] in
/-- A thread in this phase may go on with an effect. -/
def May : Phase → Effect → Prop
  | _, .insertInbox _ messageType _ => messageType.length ≤ 64
  | fresh, .assign t | idle _, .assign t => t.Fits
  | fresh, .add (.event row) | idle _, .add (.event row) => (NewObject.event row).Fits
  | fresh, .add (.ticket _) => False
  | idle key, .add (.ticket row) =>
      some row.idempotencyKey = key ∧ { row with idempotencyKey := "" }.Fits
  | idle _, .receive _ | idle _, .request _ _ => False
  | fresh, _ | idle _, _ => True
  | applying reason, .assign t =>
      t.providerReason = reason ∧ { t with providerReason := none }.Fits
  | applying _, .utcNow | applying _, .uuid4 | applying _, .selectTicketForUpdate _
  | applying _, .countTransition _ _ | applying _, .flush | applying _, .rollback => True
  | applying _, _ => False
  | applied, .assign _ | applied, .add _ | applied, .receive _ | applied, .request _ _ => False
  | applied, _ => True

end Phase

/-- The contract of threads that assign and add texts within the declared lengths, the reason of a
recommendation and the key of a request excepted. -/
def limited : Undertaking Phase where
  may := Phase.May
  next
    | _, .utcNow, .error _, _ | _, .uuid4, .error _, _ => False
    | φ, .selectTicketForUpdate _, .ok (some t), φ' => t.Fits ∧ φ' = φ.next
    | _, .receive q, .ok body, φ' => φ' = .ofBody q body
    | _, .request key _, .ok _, φ' => φ' = .idle (some key)
    | φ, .flush, .ok _, φ' => φ' = φ.flushed
    | φ, .commit, .ok _, φ' => φ' = φ.committed
    | _, .rollback, _, φ' => φ' = .applied
    | φ, _, _, φ' => φ' = φ.next

/-! ### What a phase says of a session -/

/-- The session of a thread in a phase: unchanged instances are within the declared lengths, and
changed ones are, except for the reason that is being applied; an added ticket has the key of the
request. -/
structure Phase.Fits (i : ℕ) (φ : Phase) (w : World) : Prop where
  live : ∀ id ∈ (w.session i).dirty, ((w.session i).identityMap id).isSome
  clean : ∀ id inst, (w.session i).identityMap id = some inst → id ∉ (w.session i).dirty →
    inst.attrs.Fits
  fresh : φ = .fresh → (w.session i).dirty = [] ∧ (w.session i).added = [] ∧
    w.log.actions i = []
  idle : ∀ key, φ = .idle key → (∀ inst ∈ (w.session i).dirtyInstances, inst.attrs.Fits) ∧
    (∀ o ∈ (w.session i).added, (Phase.idle key).May (.add o)) ∧
    recommendedBy? (w.log.actions i) = none ∧
    ∀ k ∈ key, ∃ request, .requested i k request ∈ w.log.actions i
  applying : ∀ reason, φ = .applying reason →
    (∀ inst ∈ (w.session i).dirtyInstances,
      inst.attrs.providerReason = reason ∧ { inst.attrs with providerReason := none }.Fits) ∧
    (w.session i).added = [] ∧ recommendedBy? (w.log.actions i) = some reason
  applied : φ = .applied → (w.session i).dirty = [] ∧ (w.session i).added = []

namespace Phase.Fits

variable {w w' : World} {i : ℕ} {e : Effect} {c : Choice} {φ : Phase}

/-- The session and the actions of the thread stay as they are. -/
theorem of_eq (h : φ.Fits i w) (hmap : (w'.session i).identityMap = (w.session i).identityMap)
    (hdirty : (w'.session i).dirty = (w.session i).dirty)
    (hadded : (w'.session i).added = (w.session i).added)
    (hacts : w'.log.actions i = w.log.actions i) : φ.Fits i w' := by
  have hinstances : (w'.session i).dirtyInstances = (w.session i).dirtyInstances := by
    simp [Session.dirtyInstances, hmap, hdirty]
  refine ⟨?_, ?_, ?_, ?_, ?_, ?_⟩
  · rw [hmap, hdirty]
    exact h.live
  · rw [hmap, hdirty]
    exact h.clean
  · rw [hdirty, hadded, hacts]
    exact h.fresh
  · rw [hinstances, hadded, hacts]
    exact h.idle
  · rw [hinstances, hadded, hacts]
    exact h.applying
  · rw [hdirty, hadded]
    exact h.applied

/-- Nothing has happened. -/
theorem initial (i : ℕ) : Phase.fresh.Fits i {} where
  live id hid := by cases hid
  clean id inst hinst := by cases hinst
  fresh _ := ⟨rfl, rfl, rfl⟩
  idle key h := by cases h
  applying reason h := by cases h
  applied h := by cases h

/-- A thread that has done nothing is idle. -/
theorem next (h : φ.Fits i w) : φ.next.Fits i w := by
  cases φ with
  | fresh =>
      obtain ⟨hdirty, hadded, hacts⟩ := h.fresh rfl
      refine ⟨h.live, h.clean, by simp [Phase.next], fun key hφ => ?_, by simp [Phase.next],
        by simp [Phase.next]⟩
      cases hφ
      simp [Session.dirtyInstances, hdirty, hadded, hacts, recommendedBy?]
  | _ => exact h

/-- A thread that goes on after it has received a message has not just received it. -/
theorem recommendedBy_record {l : History} {entry : Entry} (h : recommendedBy? (l.actions i) = none)
    (hreceived : ∀ j q n d, entry ≠ .received j q n d) :
    recommendedBy? (History.actions i (entry :: l)) = none := by
  unfold History.actions
  rw [List.filter_cons]
  split
  · cases entry with
    | received j q n d => exact absurd rfl (hreceived j q n d)
    | _ => rfl
  · exact h

/-- A row that the transaction sees is loaded. -/
theorem load (h : φ.Fits i w) (hstored : w.Stored) {row : Ticket}
    (hrow : (w.visible i).tickets.lookup row.id = some row) :
    φ.Fits i (w.setSession i ((w.session i).load row)) := by
  cases hinst : (w.session i).identityMap row.id with
  | some inst =>
      refine h.of_eq ?_ ?_ ?_ rfl <;> simp [Session.load, hinst]
  | none =>
      have hnot : row.id ∉ (w.session i).dirty := fun hdirty => by
        simpa [hinst] using h.live _ hdirty
      have hne : ∀ k ∈ (w.session i).dirty, k ≠ row.id := fun k hk heq => hnot (heq ▸ hk)
      have hinstances : ((w.session i).load row).dirtyInstances = (w.session i).dirtyInstances := by
        unfold Session.dirtyInstances
        simp only [Session.load, hinst]
        exact List.filterMap_congr fun k hk => Function.update_of_ne (hne k hk) _ _
      have hfields : ((w.session i).load row).dirty = (w.session i).dirty ∧
          ((w.session i).load row).added = (w.session i).added := by
        simp [Session.load, hinst]
      refine ⟨fun k hk => ?_, fun k inst' hk hclean => ?_, fun hφ => ?_, fun key hφ => ?_,
        fun reason hφ => ?_, fun hφ => ?_⟩ <;> simp only [World.session_setSession_self] at *
      · rw [hfields.1] at hk
        simpa [Session.load, hinst, Function.update_of_ne (hne k hk)] using h.live k hk
      · by_cases hid : k = row.id
        · subst hid
          obtain rfl : Instance.mk row row = inst' := by simpa [Session.load, hinst] using hk
          exact ((hstored.visible i).tickets _ _ hrow).1
        · exact h.clean k inst' (by simpa [Session.load, hinst, Function.update_of_ne hid] using hk)
            (hfields.1 ▸ hclean)
      · rw [hfields.1, hfields.2]
        exact h.fresh hφ
      · rw [hinstances, hfields.2]
        exact h.idle key hφ
      · rw [hinstances, hfields.2]
        exact h.applying reason hφ
      · rw [hfields.1, hfields.2]
        exact h.applied hφ

/-- Attributes are assigned that the phase allows. -/
theorem assign (h : φ.Fits i w) {t : Ticket} (hmay : φ.May (.assign t)) (hfresh : φ ≠ .fresh) :
    φ.Fits i (w.setSession i ((w.session i).assign t)) := by
  cases hinst : (w.session i).identityMap t.id with
  | none => refine h.of_eq ?_ ?_ ?_ rfl <;> simp [Session.assign, hinst]
  | some inst₀ =>
      have hmap : ((w.session i).assign t).identityMap =
          Function.update (w.session i).identityMap t.id (some { inst₀ with attrs := t }) := by
        simp [Session.assign, hinst]
      have hadded : ((w.session i).assign t).added = (w.session i).added := by
        simp [Session.assign, hinst]
      have hdirty : ∀ k, k ∈ ((w.session i).assign t).dirty ↔ k ∈ (w.session i).dirty ∨ k = t.id := by
        intro k
        simp only [Session.assign, hinst]
        split
        next hmem => exact ⟨.inl, fun h => h.elim id fun heq => heq ▸ hmem⟩
        next => simp
      -- a changed instance has been changed before, or is the one that is assigned to
      have hinstances : ∀ inst ∈ ((w.session i).assign t).dirtyInstances,
          inst ∈ (w.session i).dirtyInstances ∨ inst.attrs = t := by
        intro inst hmem
        obtain ⟨k, hk, hkinst⟩ := List.mem_filterMap.mp hmem
        rw [hmap] at hkinst
        by_cases hid : k = t.id
        · subst hid
          obtain rfl : { inst₀ with attrs := t } = inst := by simpa using hkinst
          exact .inr rfl
        · rw [Function.update_of_ne hid] at hkinst
          exact .inl (List.mem_filterMap.mpr ⟨k, ((hdirty k).1 hk).resolve_right hid, hkinst⟩)
      refine ⟨fun k hk => ?_, fun k inst hk hclean => ?_, fun hφ => absurd hφ hfresh,
        fun key hφ => ?_, fun reason hφ => ?_, fun hφ => ?_⟩ <;>
        simp only [World.session_setSession_self] at *
      · rw [hmap]
        by_cases hid : k = t.id
        · simp [hid]
        · rw [Function.update_of_ne hid]
          exact h.live k (((hdirty k).1 hk).resolve_right hid)
      · have hid : k ≠ t.id := fun heq => hclean ((hdirty k).2 (.inr heq))
        rw [hmap, Function.update_of_ne hid] at hk
        exact h.clean k inst hk fun hk' => hclean ((hdirty k).2 (.inl hk'))
      · subst hφ
        obtain ⟨hold, hrest⟩ := h.idle key rfl
        rw [hadded]
        exact ⟨fun inst hmem => (hinstances inst hmem).elim (hold inst) fun heq => heq ▸ hmay, hrest⟩
      · subst hφ
        obtain ⟨hold, hnothing, hsome⟩ := h.applying reason rfl
        rw [hadded]
        exact ⟨fun inst hmem => (hinstances inst hmem).elim (hold inst) fun heq => heq ▸ hmay,
          hnothing, hsome⟩
      · subst hφ
        exact hmay.elim

/-- An object is added that the phase allows. -/
theorem add (h : φ.Fits i w) {o : NewObject} (hmay : φ.May (.add o)) (hfresh : φ ≠ .fresh) :
    φ.Fits i (w.setSession i ((w.session i).add o)) := by
  refine ⟨?_, ?_, fun hφ => absurd hφ hfresh, fun key hφ => ?_, fun reason hφ => ?_, fun hφ => ?_⟩
  · simpa [Session.add] using h.live
  · simpa [Session.add] using h.clean
  · subst hφ
    obtain ⟨hold, hobjects, hrest⟩ := h.idle key rfl
    refine ⟨by simpa [Session.add, Session.dirtyInstances] using hold, fun o' ho' => ?_, hrest⟩
    have ho' : o' ∈ (w.session i).added ++ [o] := by simpa [Session.add] using ho'
    rcases List.mem_append.mp ho' with ho' | ho'
    · exact hobjects o' ho'
    · obtain rfl := List.mem_singleton.mp ho'
      exact hmay
  · subst hφ
    cases o <;> exact False.elim hmay
  · subst hφ
    cases o <;> exact False.elim hmay

/-- A move that is neither a flush, nor a commit, nor the end of a session, nor the receipt of a
message or a request keeps the phase. -/
theorem move (h : φ.Fits i w) (hstored : w.Stored) (hmay : φ.May e)
    (hmove : World.Move i e w w') (hkind : e.changesPhase = false) (hfresh : φ ≠ .fresh) :
    φ.Fits i w' := by
  cases hmove with
  | record entry hthread hquiet haction hreceived =>
      have hnot : ∀ j q n d, entry ≠ .received j q n d := by
        intro j q n d heq
        obtain rfl := hreceived j q n d heq
        cases hkind
      refine ⟨h.live, h.clean, fun hφ => absurd hφ hfresh, fun key hφ => ?_, fun reason hφ => ?_,
        h.applied⟩
      · obtain ⟨hdirty, hadded, hnone, hrequested⟩ := h.idle key hφ
        refine ⟨hdirty, hadded, recommendedBy_record hnone hnot, fun k hk => ?_⟩
        obtain ⟨request, hmem⟩ := hrequested k hk
        exact ⟨request, ((List.sublist_cons_self _ _).filter _).subset hmem⟩
      · obtain ⟨hdirty, hadded, hsome⟩ := h.applying reason hφ
        refine ⟨hdirty, hadded, ?_⟩
        have haction : entry.isAction = false := by
          subst hφ
          refine Bool.eq_false_iff.mpr fun hentry => ?_
          have he := haction hentry
          cases e <;> first | exact hmay | cases he
        have hacts : History.actions i (entry :: w.log) = w.log.actions i := by
          simp [History.actions, History.actionOf, haction]
        exact hacts ▸ hsome
  | session s hmap hdirty hadded hwrites =>
      exact h.of_eq (by simpa using hmap) (by simpa using hdirty) (by simpa using hadded) rfl
  | lock hdb hlog hsession =>
      exact h.of_eq (by rw [hsession]) (by rw [hsession]) (by rw [hsession]) (by rw [hlog])
  | load row hrow => exact h.load hstored hrow
  | assign t => exact h.assign hmay hfresh
  | add o => exact h.add hmay hfresh
  | write wr hkey hevent => exact h.of_eq (by simp) (by simp) (by simp) rfl
  | flush hfits hconflict hstorable => cases hkind
  | commit => cases hkind
  | rollback => cases hkind

/-- The session after a flush that has succeeded. -/
theorem flushed (h : φ.Fits i w) (hfits : (w.session i).FlushFits) {s : Session}
    (hs : w'.session i = s.flushed) (hmap : s.identityMap = (w.session i).identityMap)
    (hadded : s.added = (w.session i).added)
    (hlog : w'.log = w.log) : φ.flushed.Fits i w' := by
  have hclean : ∀ id inst, s.flushed.identityMap id = some inst → inst.attrs.Fits := by
    intro id inst hinst
    rcases Session.flushed_identityMap hinst with ⟨inst₀, hinst₀, rfl⟩ | ⟨-, hnew⟩
    · rw [hmap] at hinst₀
      by_cases hid : id ∈ (w.session i).dirty
      · exact hfits.1 inst₀ (List.mem_filterMap.mpr ⟨id, hid, hinst₀⟩)
      · exact h.clean id inst₀ hinst₀ hid
    · obtain ⟨o, ho, hrow⟩ := List.exists_of_findSome?_eq_some hnew
      rw [hadded] at ho
      cases o with
      | event row => simp at hrow
      | ticket row =>
          dsimp only at hrow
          split at hrow
          · cases hrow
            exact hfits.2 _ ho
          · cases hrow
  have hnothing : (w'.session i).dirty = [] ∧ (w'.session i).added = [] := by
    rw [hs]
    exact ⟨rfl, rfl⟩
  have hinstances : (w'.session i).dirtyInstances = [] := by
    simp [Session.dirtyInstances, hnothing.1]
  refine ⟨by simp [hnothing.1], fun id inst hinst _ => hclean id inst (hs ▸ hinst), fun hφ => ?_,
    fun key hφ => ?_, fun reason hφ => ?_, fun _ => hnothing⟩
  · cases φ <;> cases hφ
  · rw [hinstances, hnothing.2, hlog]
    refine ⟨by simp, by simp, ?_⟩
    cases φ with
    | fresh =>
        cases hφ
        exact (h.next.idle none rfl).2.2
    | idle =>
        cases hφ
        exact (h.idle key rfl).2.2
    | applying reason => cases hφ
    | applied => cases hφ
  · cases φ <;> cases hφ

/-- An effect that neither flushes, nor commits, nor ends the session, nor receives a message or a
request. -/
theorem moves (h : φ.Fits i w) (hstored : w.Stored) (hmay : φ.May e) (hmoves : World.Moves i e w w')
    (hkind : e.changesPhase = false) : φ.next.Fits i w' := by
  have hmay : φ.next.May e := by
    cases φ with
    | fresh =>
        cases e with
        | receive q | request key request => cases hkind
        | add o => cases o with
          | ticket row => exact False.elim hmay
          | event row => exact hmay
        | _ => exact hmay
    | _ => exact hmay
  induction hmoves with
  | refl => exact h.next
  | tail hmoves hmove ih =>
      exact ih.move (hstored.moves hmoves) hmay hmove hkind (by cases φ <;> simp [Phase.next])

/-- A message is received. -/
theorem receive {q : Queue} {r : (Effect.receive q).Result} (h : φ.Fits i w)
    (hguar : Guarantee i (.receive q) w) (hmay : φ.May (.receive q))
    (hexec : (Effect.receive q).exec i c w = some (r, w')) :
    ∃ φ', limited.next φ (.receive q) r φ' ∧ φ'.Fits i w' := by
  obtain ⟨n, -, hn⟩ := Option.bind_eq_some_iff.mp hexec
  simp only [World.receive] at hn
  split at hn
  next d hd =>
    cases hn
    have hacts : w.log.actions i = [] := by
      cases hguar n d hd with
      | received hacts hqueue => exact hacts
    have hacts' : History.actions i (.received i q n d :: w.log) = [.received i q n d] := by
      have haction : History.actionOf i (.received i q n d) = true := by
        simp [History.actionOf, Entry.thread, Entry.isAction]
      rw [History.actions, List.filter_cons_of_pos haction]
      exact congrArg _ hacts
    refine ⟨.ofBody q d.body, rfl, ?_⟩
    cases φ with
    | fresh =>
        obtain ⟨hdirty, hadded, -⟩ := h.fresh rfl
        have hinstances : ((w.record (.received i q n d)).session i).dirtyInstances = [] := by
          simp [Session.dirtyInstances, hdirty]
        have hphase : ∀ reason, Phase.ofBody q d.body = .applying reason →
            recommendedBy? [.received i q n d] = some reason := by
          intro reason hφ
          cases q with
          | providerOut => cases hφ
          | providerIn =>
              cases hreason : recommendedReason? d.body <;>
                simp_all [Phase.ofBody, recommendedBy?]
        have hnone : ∀ key, Phase.ofBody q d.body = .idle key →
            key = none ∧ recommendedBy? [.received i q n d] = none := by
          intro key hφ
          cases q with
          | providerOut =>
              cases hφ
              exact ⟨rfl, rfl⟩
          | providerIn =>
              cases hreason : recommendedReason? d.body <;>
                simp_all [Phase.ofBody, recommendedBy?]
        refine ⟨h.live, h.clean, fun hφ => ?_, fun key hφ => ?_, fun reason hφ => ?_, fun hφ => ?_⟩
        · cases q with
          | providerOut => cases hφ
          | providerIn => cases hreason : recommendedReason? d.body <;> simp_all [Phase.ofBody]
        · rw [hinstances, World.session_record, hadded, World.log_record, hacts']
          obtain ⟨rfl, hnone⟩ := hnone key hφ
          exact ⟨by simp, by simp, hnone, by simp⟩
        · rw [hinstances, World.session_record, hadded, World.log_record, hacts']
          exact ⟨by simp, rfl, hphase reason hφ⟩
        · exact ⟨hdirty, hadded⟩
    | _ => exact False.elim hmay
  · cases hn

/-- A request is received. -/
theorem request {key : String} {request : CreateTicketRequest}
    {r : (Effect.request key request).Result} (h : φ.Fits i w) (hmay : φ.May (.request key request))
    (hexec : (Effect.request key request).exec i c w = some (r, w')) :
    ∃ φ', limited.next φ (.request key request) r φ' ∧ φ'.Fits i w' := by
  obtain ⟨-, -, heq⟩ := Option.map_eq_some_iff.mp hexec
  cases heq
  cases φ with
  | fresh =>
      obtain ⟨hdirty, hadded, hacts⟩ := h.fresh rfl
      have hacts' : History.actions i (.requested i key request :: w.log) =
          [.requested i key request] := by
        have haction : History.actionOf i (.requested i key request) = true := by
          simp [History.actionOf, Entry.thread, Entry.isAction]
        rw [History.actions, List.filter_cons_of_pos haction]
        exact congrArg _ hacts
      refine ⟨.idle (some key), rfl, h.live, h.clean, by simp, fun key' hφ => ?_, by simp, by simp⟩
      cases hφ
      rw [World.log_record, hacts', World.session_record, hadded]
      refine ⟨by simp [Session.dirtyInstances, hdirty], by simp, rfl, fun k hk => ?_⟩
      obtain rfl := Option.some.inj hk
      exact ⟨request, List.mem_singleton_self _⟩
  | _ => exact False.elim hmay

/-- The phase of a thread of which a statement fails. -/
theorem fail (h : φ.Fits i w) : φ.next.Fits i (w.fail i) :=
  h.next.of_eq (by simp [World.fail, Session.fail]) (by simp [World.fail, Session.fail])
    (by simp [World.fail, Session.fail]) rfl

/-- A commit. -/
theorem commit {r : Effect.commit.Result} (h : φ.Fits i w) (hmay : φ.May .commit)
    (hexec : Effect.commit.exec i c w = some (r, w')) :
    ∃ φ', limited.next φ .commit r φ' ∧ φ'.Fits i w' := by
  simp only [Effect.exec] at hexec
  split at hexec
  · cases hexec
    exact ⟨φ.next, rfl, h.next⟩
  split at hexec
  · cases hexec
    have hsession : (w.commit i).session i = (w.session i).committed w.now := by
      simp [World.commit]
    -- a thread that has committed has not just received a message
    have haction : History.actionOf i (.committed i (w.session i).writes) = true := by
      simp [History.actionOf, Entry.thread, Entry.isAction]
    have hacts : (w.commit i).log.actions i = .committed i (w.session i).writes :: w.log.actions i :=
      List.filter_cons_of_pos haction
    refine ⟨φ.committed, rfl, ?_⟩
    have hidle : ∃ key, φ.committed = .idle key ∧
        (∀ inst ∈ (w.session i).dirtyInstances, inst.attrs.Fits) ∧
        (∀ o ∈ (w.session i).added, (Phase.idle key).May (.add o)) ∧
        ∀ k ∈ key, ∃ request, .requested i k request ∈ w.log.actions i := by
      cases φ with
      | fresh =>
          obtain ⟨hinstances, hobjects, -, hrequested⟩ := h.next.idle none rfl
          exact ⟨none, rfl, hinstances, hobjects, hrequested⟩
      | idle key =>
          obtain ⟨hinstances, hobjects, -, hrequested⟩ := h.idle key rfl
          exact ⟨key, rfl, hinstances, hobjects, hrequested⟩
      | applying reason => exact False.elim hmay
      | applied =>
          obtain ⟨hdirty, hadded⟩ := h.applied rfl
          exact ⟨none, rfl, by simp [Session.dirtyInstances, hdirty], by simp [hadded], by simp⟩
    obtain ⟨key, hφ, hinstances, hobjects, hrequested⟩ := hidle
    rw [hφ]
    refine ⟨?_, ?_, by simp, fun key' hkey => ?_, by simp, by simp⟩
    · rw [hsession]
      exact h.live
    · rw [hsession]
      exact h.clean
    · cases hkey
      rw [hsession, hacts]
      refine ⟨hinstances, hobjects, rfl, fun k hk => ?_⟩
      obtain ⟨request, hmem⟩ := hrequested k hk
      exact ⟨request, List.mem_cons_of_mem _ hmem⟩
  · cases hexec
    exact ⟨φ.next, rfl, h.fail⟩
  · cases hexec

/-- A flush. -/
theorem flush {r : Effect.flush.Result} (h : φ.Fits i w)
    (hexec : Effect.flush.exec i c w = some (r, w')) :
    ∃ φ', limited.next φ .flush r φ' ∧ φ'.Fits i w' := by
  simp only [Effect.exec] at hexec
  split at hexec
  next hnothing =>
    cases hexec
    have hadded : (w.session i).added = [] := by simpa using hnothing.2
    refine ⟨φ.flushed, rfl, ?_⟩
    cases φ with
    | applying reason =>
        exact ⟨h.live, h.clean, by simp [Phase.flushed], by simp [Phase.flushed],
          by simp [Phase.flushed], fun _ => ⟨hnothing.1, hadded⟩⟩
    | _ => exact h.next
  next =>
    unfold World.statement at hexec
    split at hexec
    · cases hexec
      exact ⟨φ.next, rfl, h.next⟩
    have hbegun : φ.Fits i (w.beginTx i c) :=
      h.of_eq (by simp [World.beginTx, Session.beginTx]) (by simp [World.beginTx, Session.beginTx])
        (by simp [World.beginTx, Session.beginTx]) rfl
    split at hexec
    · cases hexec
      exact ⟨φ.next, rfl, hbegun.fail⟩
    unfold World.flush at hexec
    dsimp only at hexec
    split at hexec
    · split at hexec
      · cases hexec
        exact ⟨φ.next, rfl, hbegun.fail⟩
      next hfits =>
        split at hexec
        · cases hexec
          exact ⟨φ.next, rfl, hbegun.fail⟩
        · cases hexec
          push Not at hfits
          exact ⟨φ.flushed, rfl, hbegun.flushed hfits.1 (by simp) rfl rfl rfl⟩
    · cases hexec

/-- The end of a session. -/
theorem rollback (w : World) (i : ℕ) : Phase.applied.Fits i (w.rollback i) := by
  have hsession : (w.rollback i).session i = {} := by simp [World.rollback]
  refine ⟨?_, ?_, by simp, by simp, by simp, fun _ => ?_⟩ <;> rw [hsession]
  · simp
  · exact fun _ _ hinst => by cases hinst
  · exact ⟨rfl, rfl⟩

theorem crash (w : World) (i : ℕ) : Phase.applied.Fits i (w.crash i) := by
  have hrollback := rollback w i
  rcases World.crash_eq (w := w) (i := i) with heq | heq
  · rw [heq]
    exact hrollback
  · rw [heq]
    exact ⟨hrollback.live, hrollback.clean, by simp, by simp, by simp, hrollback.applied⟩

/-- An effect that the phase allows leads to a phase that the contract names. -/
theorem exec {r : e.Result} (h : φ.Fits i w) (hiso : w.Isolated) (hguar : Guarantee i e w)
    (hstored : w.Stored) (hmay : φ.May e) (hexec : e.exec i c w = some (r, w')) :
    ∃ φ', limited.next φ e r φ' ∧ φ'.Fits i w' := by
  have hmoves := World.exec_moves hiso hguar hexec
  cases e with
  | receive q => exact h.receive hguar hmay hexec
  | request key request => exact h.request hmay hexec
  | flush => exact h.flush hexec
  | commit => exact h.commit hmay hexec
  | rollback =>
      obtain ⟨-, -, heq⟩ := Option.map_eq_some_iff.mp hexec
      cases heq
      exact ⟨.applied, rfl, rollback w i⟩
  | utcNow | uuid4 =>
      have hnext := h.moves hstored hmay hmoves rfl
      obtain ⟨_, -, heq⟩ := Option.map_eq_some_iff.mp hexec
      cases heq
      exact ⟨φ.next, rfl, hnext⟩
  | selectTicketForUpdate id =>
      have hnext := h.moves hstored hmay hmoves rfl
      rcases r with x | _ | t
      · exact ⟨φ.next, rfl, hnext⟩
      · exact ⟨φ.next, rfl, hnext⟩
      · obtain ⟨hlive, row, hrow, hid, rfl⟩ := World.selected_of_exec hiso hexec
        refine ⟨φ.next, ⟨?_, rfl⟩, hnext⟩
        -- the session has changed no tickets, so its instances are within the lengths
        have hclean := (hguar hlive).1
        unfold Session.attrs
        split
        next inst hinst => exact h.clean _ inst hinst (by simp [hclean])
        next => exact ((hstored.visible i).tickets _ _ hrow).1
  | _ =>
      refine ⟨φ.next, ?_, h.moves hstored hmay hmoves rfl⟩
      cases r <;> rfl

end Phase.Fits

end RiskProvider

import RiskProvider.Cancellation

/-!
# What is in the inbox has taken effect

The consumer claims a frame with an insert that it leaves to the first commit of `TicketService`. So
nothing is claimed without an effect: in every reachable state, a row of the inbox belongs to a frame
that a gateway has published and a consumer has received, and the commit that inserted the row has
changed the ticket that the frame is about (`claim_took_effect`).
-/

namespace RiskProvider

open Interleaving

/-! ### Rows of the inbox -/

namespace Database

variable {db : Database} {ws : List Write} {id : UUID} {row : ProcessedProviderMessage}

/-- A row of the inbox after a write was there before, or is inserted. -/
theorem inbox_of_write {wr : Write} (h : (db.write wr).inbox.lookup id = some row) :
    db.inbox.lookup id = some row ∨ wr = .insertInbox row ∧ row.messageId = id := by
  cases wr with
  | insertInbox r =>
      by_cases hid : id = r.messageId
      · subst hid
        obtain rfl : r = row := Option.some.inj ((AList.lookup_insert _).symm.trans h)
        exact .inr ⟨rfl, rfl⟩
      · exact .inl ((AList.lookup_insert_ne hid).symm.trans h)
  | _ => exact .inl h

theorem inbox_of_writeAll (h : (db.writeAll ws).inbox.lookup id = some row) :
    db.inbox.lookup id = some row ∨ .insertInbox row ∈ ws ∧ row.messageId = id := by
  induction ws generalizing db with
  | nil => exact .inl h
  | cons wr ws ih =>
      rcases ih h with h | ⟨hmem, hid⟩
      · rcases inbox_of_write h with h | ⟨rfl, hid⟩
        · exact .inl h
        · exact .inr ⟨List.mem_cons_self, hid⟩
      · exact .inr ⟨List.mem_cons_of_mem _ hmem, hid⟩

end Database

/-- Every row of the inbox was inserted by a commit. -/
theorem History.inserted_of_inbox {l : History} {id : UUID} {row : ProcessedProviderMessage}
    (h : l.database.inbox.lookup id = some row) :
    ∃ i ws, ∃ l' : History, (.committed i ws :: l') <:+ l ∧ .insertInbox row ∈ ws ∧
      row.messageId = id := by
  induction l with
  | nil => cases h
  | cons e l ih =>
      have hold : (History.database l).inbox.lookup id = some row →
          ∃ i ws, ∃ l' : History, (.committed i ws :: l') <:+ e :: l ∧ .insertInbox row ∈ ws ∧
            row.messageId = id := by
        intro hrow
        obtain ⟨i, ws, l', hsuffix, hrest⟩ := ih hrow
        exact ⟨i, ws, l', hsuffix.trans (List.suffix_cons _ _), hrest⟩
      cases e with
      | committed i ws =>
          rcases Database.inbox_of_writeAll h with hrow | ⟨hmem, hid⟩
          · exact hold hrow
          · exact ⟨i, ws, l, List.suffix_refl _, hmem, hid⟩
      | _ => exact hold h

section General

variable [Codecs] {C : History → Entry → Prop} {l l' : History} {i : ℕ} {ws : List Write}
  {row : ProcessedProviderMessage}

/-! ### Claims -/

/-- Thread `i`, which has received `d`, claims its frame `m` with a commit that changes the ticket
that the payload names. -/
inductive TakesEffect (l : History) (i : ℕ) (ws : List Write) (d : Delivery) (m : Message) : Prop
  /-- An open ticket gets the recommendation. -/
  | recommends {p st} (hframe : Recommends d m p) (hbefore : l.status? p.ticketId = some st)
      (hopen : ¬ st.Terminal)
      (hafter : History.status? p.ticketId (.committed i ws :: l) = some p.action.status)
  /-- A ticket that was not cancelled yet is `CANCELLED`. -/
  | cancels {p st} (hframe : AppliesCancellation d m p) (hbefore : l.status? p.ticketId = some st)
      (hstatus : st ≠ .cancelled)
      (hafter : History.status? p.ticketId (.committed i ws :: l) = some .cancelled)

omit [Codecs] in
/-- The status of the locked row after a commit that edits it. -/
theorem History.status?_of_edits {ticket ticket' : Ticket} {began : Time}
    (h : Edits ws ticket ticket' began) (hrow : l.database.tickets.lookup ticket.id = some ticket) :
    status? ticket.id (.committed i ws :: l) = some ticket'.status := by
  obtain ⟨r, hr, hstatus, -⟩ := Database.lookup_edits_self h hrow
  rw [changed_getD] at hstatus
  exact status?_eq_some.mpr ⟨r, hr, hstatus⟩

/-- A permitted commit that claims a frame carries out its effect. -/
theorem Permitted.takesEffect (h : Permitted l (.committed i ws)) (hmem : .insertInbox row ∈ ws) :
    ∃ n d m began, l.actions i = [.received i .providerIn n d] ∧ row = m.claim began ∧
      TakesEffect l i ws d m := by
  have hkeyed := l.keyed_database.tickets
  -- a claim is no update of a ticket, so only the first write of a commit can be one
  have hrewrite : ∀ {ticket ticket' : Ticket} {began : Time},
      .insertInbox row ∉ rewrite ticket ticket' began := fun hr => by
    cases mem_rewrite hr
  cases h with
  | create => simp [outbound] at hmem
  | @recommend _ n d m p ticket now began hacts hframe hunclaimed hrow hopen =>
      have hid := hkeyed _ _ hrow
      obtain rfl : row = m.claim began := by
        rcases List.mem_cons.mp hmem with hmem | hmem
        · exact Write.insertInbox.inj hmem
        · exact absurd hmem hrewrite
      refine ⟨n, d, m, began, hacts, rfl, .recommends hframe ?_ hopen ?_⟩
      · exact History.status?_eq_some.mpr ⟨ticket, hrow, rfl⟩
      · rw [← hid] at hrow ⊢
        exact History.status?_of_edits (Edits.of_claim _) hrow
  | @cancellationApplied _ n d m p ticket now began hacts hframe hunclaimed hrow hstatus =>
      have hid := hkeyed _ _ hrow
      obtain rfl : row = m.claim began := by
        rcases List.mem_cons.mp hmem with hmem | hmem
        · exact Write.insertInbox.inj hmem
        · exact absurd hmem hrewrite
      refine ⟨n, d, m, began, hacts, rfl, .cancels hframe ?_ hstatus ?_⟩
      · exact History.status?_eq_some.mpr ⟨ticket, hrow, rfl⟩
      · rw [← hid] at hrow ⊢
        exact History.status?_of_edits (Edits.of_claim _) hrow
  | settle | requestCancellation =>
      rcases List.mem_append.mp hmem with hmem | hmem
      · exact absurd hmem hrewrite
      · cases List.mem_singleton.mp hmem
  | acknowledge => exact absurd hmem hrewrite
  | relay =>
      rcases List.mem_append.mp hmem with hmem | hmem
      · split at hmem
        · cases hmem
        · cases List.mem_singleton.mp hmem
      · obtain ⟨f, -, hf⟩ := List.mem_map.mp hmem
        cases hf
  | commitNothing => cases hmem

/-- A delivery that a consumer receives was published by a receive loop, as the frame that it holds. -/
theorem Conforms.published_of_received (h : Conforms C l) {n : ℕ} {d : Delivery}
    (hreceived : (.received i .providerIn n d :: l') <:+ l) {m : Message} (hm : Decodes d.body m) :
    ∃ j, .published j topology.providerInRoutingKey m.messageId m.modelDump true ∈ l' := by
  have hl' : Conforms C l' := h.of_suffix_history ((List.suffix_cons _ _).trans hreceived)
  cases (h.of_suffix hreceived).1 with
  | received hacts hqueue =>
      obtain ⟨j, key, hkey, hpublished⟩ :=
        hl'.published_of_carries (.inl (List.mem_of_getElem? hqueue))
      obtain ⟨l'', hl''⟩ := exists_suffix_of_mem hpublished
      refine ⟨j, ?_⟩
      generalize hentry : Entry.published j key d.messageId d.body true = e at hl'' hpublished
      cases (hl'.of_suffix hl'').1 with
      | @publishFrame _ ok m' =>
          obtain ⟨rfl, rfl, hid, hbody, rfl⟩ := Entry.published.inj hentry
          rw [hbody] at hm
          obtain rfl := hm.eq
          exact hpublished
      | publishEvent hacts' hbatch hbefore honce hrow hpending =>
          -- events are published under the key of `provider.out`
          obtain ⟨rfl, rfl, hid, hbody, rfl⟩ := Entry.published.inj hentry
          obtain ⟨k, ws, emitting, row₀, hcommitted, hmem, hsame⟩ := History.inserted_of_lookup hrow
          have hpermitted := (hl'.of_suffix (hcommitted.trans
            ((List.suffix_cons _ _).trans hl''))).1
          obtain ⟨t, m', -, hkey', -⟩ := hpermitted.emits hmem
          rw [hsame.routingKey, hkey'] at hkey
          cases hkey
      | _ => cases hentry

/-- In every reachable state, a row of the inbox is the claim of a frame that a receive loop has
published and a consumer has received, and the commit that inserted it has carried out the frame's
effect on the ticket that its payload names. -/
theorem claim_took_effect {s : System} (hs : s.Reachable) {id : UUID}
    (hrow : s.world.db.inbox.lookup id = some row) :
    ∃ i ws, ∃ l' : History, ∃ n d m began j, (.committed i ws :: l') <:+ s.world.log ∧
      l'.actions i = [.received i .providerIn n d] ∧
      .published j topology.providerInRoutingKey id m.modelDump true ∈ l' ∧
      row = m.claim began ∧ TakesEffect l' i ws d m := by
  have hl : Conforms _ s.world.log := hs.conforms
  rw [(System.isolated hs).db_eq] at hrow
  obtain ⟨i, ws, l', hcommitted, hmem, hid⟩ := History.inserted_of_inbox hrow
  obtain ⟨n, d, m, began, hacts, rfl, heffect⟩ := (hl.of_suffix hcommitted).1.takesEffect hmem
  have hl' := hl.of_suffix_history ((List.suffix_cons _ _).trans hcommitted)
  have hm : Decodes d.body m := by
    cases heffect with
    | recommends hframe => exact hframe.decodes
    | cancels hframe => exact hframe.decodes
  obtain ⟨l'', hreceived, -⟩ := History.suffix_of_actions hacts
  obtain ⟨j, hpublished⟩ := hl'.published_of_received hreceived hm
  refine ⟨i, ws, l', n, d, m, began, j, hcommitted, hacts, ?_, rfl, heffect⟩
  exact hid ▸ hreceived.subset (List.mem_cons_of_mem _ hpublished)

end General

/-- Frame 20 is claimed, and has cancelled ticket 1. -/
theorem claim_took_effect_cancelled : ∃ (s : System) (row : ProcessedProviderMessage),
    s.Reachable ∧ s.world.db.inbox.lookup 20 = some row ∧
    ∃ i ws, ∃ l' : History, ∃ n d m began j, (.committed i ws :: l') <:+ s.world.log ∧
      l'.actions i = [.received i .providerIn n d] ∧
      .published j topology.providerInRoutingKey 20 m.modelDump true ∈ l' ∧
      row = m.claim began ∧ TakesEffect l' i ws d m := by
  obtain ⟨s, hs, hst⟩ := System.exists_reaches (s := System.initial) anyEntry cancelledRun
    (fun s => (s.world.db.inbox.lookup 20).isSome) (by decide +kernel)
  obtain ⟨row, hrow⟩ := Option.isSome_iff_exists.mp hst
  exact ⟨s, row, hs.run, hrow, claim_took_effect hs.run hrow⟩

end RiskProvider

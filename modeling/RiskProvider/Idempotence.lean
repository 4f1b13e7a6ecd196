import RiskProvider.Coherence

/-!
# Tickets are created once for each key

A ticket is inserted by a `create_ticket` call whose transaction has found no ticket with the
idempotency key, and keys are never changed (`Conforms.keys_unique`). `CreatedOnce` says what
follows for all calls with one key, however they overlap: they commit once between them, and
all of them that return name the ticket of that commit.
-/

namespace RiskProvider

open Interleaving

/-! ### Keys of the tickets -/

/-- The idempotency key of each ticket. -/
def Database.keys (db : Database) (id : UUID) : Option String :=
  (db.tickets.lookup id).map (·.idempotencyKey)

/-- The ticket that a write inserts. -/
def Write.ticket? : Write → Option Ticket
  | insertTicket row => some row
  | _ => none

namespace Database

variable {db : Database} {ws : List Write} {key : String}

theorem keys_eq_some {id : UUID} :
    db.keys id = some key ↔ ∃ row, db.tickets.lookup id = some row ∧ row.idempotencyKey = key := by
  simp [keys, Option.map_eq_some_iff]

theorem hasKey_iff : db.HasKey key ↔ ∃ id, db.keys id = some key := by
  simp only [HasKey, keys_eq_some]

theorem keys_write {wr : Write} (h : wr.ticket? = none) : (db.write wr).keys = db.keys := by
  funext id
  cases wr with
  | insertTicket row => cases h
  | updateTicket k p now =>
      by_cases hid : id = k
      · subst hid
        simp only [keys, write, Table.lookup_modify_self, Option.map_map]
        rfl
      · simp only [keys, write, Table.lookup_modify_ne _ _ hid]
  | _ => rfl

theorem keys_writeAll (h : ∀ wr ∈ ws, wr.ticket? = none) : (db.writeAll ws).keys = db.keys := by
  induction ws generalizing db with
  | nil => rfl
  | cons wr ws ih =>
      rw [writeAll_cons, ih fun wr' hwr' => h wr' (List.mem_cons_of_mem _ hwr'),
        keys_write (h wr List.mem_cons_self)]

end Database

theorem ticket?_rewrite {row row' : Ticket} {began : Time} {wr : Write}
    (h : wr ∈ rewrite row row' began) : wr.ticket? = none := by
  rw [mem_rewrite h]
  rfl

section General

variable [Codecs]

/-- Thread `i` commits the ticket `row` and the event of its frame, on behalf of a call. -/
structure Creation (l : History) (e : Entry) (i : ℕ) (ws : List Write) (row : Ticket) : Prop where
  entry : e = .committed i ws
  writes : ∃ event, ws = [.insertTicket row, .insertEvent event]
  call : ∃ request currency began, l.actions i =
      [.looked i row.idempotencyKey none, .requested i row.idempotencyKey request] ∧
    Currency.ofValue? request.currency = some currency ∧
    row = request.ticket row.idempotencyKey row.id currency began
  unused : ¬ l.database.HasKey row.idempotencyKey
  fresh : l.database.keys row.id = none
  keys : (l.database.after e).keys =
    Function.update l.database.keys row.id (some row.idempotencyKey)

variable {C : History → Entry → Prop} {l l' : History} {e : Entry} {i j : ℕ}
  {ws ws' : List Write} {key : String}

omit [Codecs] in
/-- The keys after writes that insert one ticket first. -/
theorem Database.keys_insertTicket {db : Database} (row : Ticket) (event : OutboxEvent) :
    (db.writeAll [.insertTicket row, .insertEvent event]).keys =
      Function.update db.keys row.id (some row.idempotencyKey) := by
  funext id
  by_cases hid : id = row.id
  · subst hid
    simp [Database.keys, write]
  · simp [Database.keys, write, hid, AList.lookup_insert_ne hid]

/-- A permitted commit that inserts a ticket is that of a call. -/
theorem Permitted.creation {row : Ticket} (h : Permitted l (.committed i ws))
    (hrow : .insertTicket row ∈ ws) : Creation l (.committed i ws) i ws row := by
  have hnone : ∀ {wr : Write}, wr.ticket? = none → wr ≠ .insertTicket row := by
    rintro _ hwr rfl
    cases hwr
  cases h with
  | create hacts hcurrency hkey hticket hevent hframe =>
      simp only [outbound, List.mem_cons, List.not_mem_nil, or_false, reduceCtorEq] at hrow
      cases hrow
      exact ⟨rfl, ⟨_, rfl⟩, ⟨_, _, _, hacts, hcurrency, rfl⟩, hkey,
        Option.map_eq_none_iff.mpr hticket,
        Database.keys_insertTicket _ _⟩
  | recommend | cancellationApplied =>
      rcases List.mem_cons.mp hrow with hrow | hrow
      · cases hrow
      · exact absurd rfl (hnone (ticket?_rewrite hrow))
  | settle | requestCancellation =>
      rcases List.mem_append.mp hrow with hrow | hrow
      · exact absurd rfl (hnone (ticket?_rewrite hrow))
      · cases List.mem_singleton.mp hrow
  | acknowledge => exact absurd rfl (hnone (ticket?_rewrite hrow))
  | relay => cases ticketKey_relayWrites _ hrow
  | commitNothing => cases hrow

/-- A permitted entry leaves the keys as they are, or creates a ticket. -/
theorem Permitted.keys (h : Permitted l e) :
    (l.database.after e).keys = l.database.keys ∨ ∃ i ws row, Creation l e i ws row := by
  cases e with
  | committed i ws =>
      by_cases hnone : ∀ wr ∈ ws, wr.ticket? = none
      · exact .inl (Database.keys_writeAll hnone)
      · push Not at hnone
        obtain ⟨wr, hwr, hticket⟩ := hnone
        cases wr with
        | insertTicket row => exact .inr ⟨i, ws, row, h.creation hwr⟩
        | _ => exact absurd rfl hticket
  | _ => exact .inl rfl

/-- Tickets are never deleted, and keep their keys. -/
theorem Conforms.keys_kept (h : Conforms C l) (hsuffix : l' <:+ l) {id : UUID}
    (hid : l'.database.keys id = some key) : l.database.keys id = some key := by
  induction h with
  | nil => exact List.suffix_nil.mp hsuffix ▸ hid
  | cons h hpermitted he ih =>
      rcases List.suffix_cons_iff.mp hsuffix with rfl | hsuffix
      · exact hid
      replace ih := ih hsuffix
      rcases hpermitted.keys with hsame | ⟨i, ws, row, hcreation⟩
      · rw [History.database_cons, hsame, ih]
      · have hne : id ≠ row.id := fun heq => by
          rw [heq, hcreation.fresh] at ih
          cases ih
        rw [History.database_cons, hcreation.keys, Function.update_of_ne hne, ih]

/-- No two tickets have the same key. -/
theorem Conforms.keys_unique (h : Conforms C l) {id id' : UUID}
    (hid : l.database.keys id = some key) (hid' : l.database.keys id' = some key) : id = id' := by
  induction h with
  | nil => cases hid
  | @cons l e h hpermitted he ih =>
      rw [History.database_cons] at hid hid'
      rcases hpermitted.keys with hsame | ⟨i, ws, row, hcreation⟩
      · exact ih (hsame ▸ hid) (hsame ▸ hid')
      rw [hcreation.keys] at hid hid'
      have hunused : ∀ {k}, row.idempotencyKey = key → l.database.keys k ≠ some key :=
        fun hkey hk => hcreation.unused (Database.hasKey_iff.mpr ⟨_, hkey ▸ hk⟩)
      by_cases hrow : id = row.id <;> by_cases hrow' : id' = row.id
      · rw [hrow, hrow']
      · rw [hrow, Function.update_self, Option.some.injEq] at hid
        rw [Function.update_of_ne hrow'] at hid'
        exact absurd hid' (hunused hid)
      · rw [hrow', Function.update_self, Option.some.injEq] at hid'
        rw [Function.update_of_ne hrow] at hid
        exact absurd hid (hunused hid')
      · rw [Function.update_of_ne hrow] at hid
        rw [Function.update_of_ne hrow'] at hid'
        exact ih hid hid'

/-! ### Commits of the calls -/

theorem Conforms.creation (h : Conforms C l) (hsuffix : (.committed i ws :: l') <:+ l)
    {row : Ticket} (hrow : .insertTicket row ∈ ws) : Creation l' (.committed i ws) i ws row :=
  (h.of_suffix hsuffix).1.creation hrow

/-- After a ticket has been inserted, it is there under its key. -/
theorem Conforms.key_of_inserted (h : Conforms C l) (hsuffix : (.committed i ws :: l') <:+ l)
    {row : Ticket} (hrow : .insertTicket row ∈ ws) :
    l.database.keys row.id = some row.idempotencyKey :=
  h.keys_kept hsuffix (by
    rw [History.database_cons, (h.creation hsuffix hrow).keys, Function.update_self])

/-- One commit at most inserts a ticket with a given key, or with a given id. -/
theorem Conforms.creation_unique (h : Conforms C l) {l₁ l₂ : History}
    (hi : (.committed i ws :: l₁) <:+ l) (hj : (.committed j ws' :: l₂) <:+ l) {row row' : Ticket}
    (hrow : .insertTicket row ∈ ws) (hrow' : .insertTicket row' ∈ ws')
    (hsame : row.idempotencyKey = row'.idempotencyKey ∨ row.id = row'.id) :
    (.committed i ws :: l₁ : History) = .committed j ws' :: l₂ := by
  -- the later one of two would find the ticket of the earlier one
  have hlater : ∀ {k k' ws ws' row row'} {l₁ l₂ : History}, (.committed k ws :: l₁) <:+ l →
      .insertTicket row ∈ ws → .insertTicket row' ∈ ws' →
      row.idempotencyKey = row'.idempotencyKey ∨ row.id = row'.id →
      ¬ (.committed k' ws' :: l₂) <:+ l₁ := by
    intro k k' ws ws' row row' l₁ l₂ hk hrow hrow' hsame hk'
    have hl₁ := h.of_suffix_history ((List.suffix_cons _ _).trans hk)
    have hfound := hl₁.key_of_inserted hk' hrow'
    obtain hkey | hid := hsame
    · exact (h.creation hk hrow).unused (Database.hasKey_iff.mpr ⟨row'.id, hkey ▸ hfound⟩)
    · have hfresh := (h.creation hk hrow).fresh
      rw [hid, hfound] at hfresh
      cases hfresh
  rcases List.suffix_or_suffix_of_suffix hi hj with hle | hle <;>
    rcases List.suffix_cons_iff.mp hle with heq | hlt
  · exact heq
  · exact absurd hlt (hlater hj hrow' hrow (hsame.imp Eq.symm Eq.symm))
  · exact heq.symm
  · exact absurd hlt (hlater hi hrow hrow' hsame)

/-- Thread `i` is a call of `create_ticket` with the key. -/
def History.Calls (l : History) (i : ℕ) (key : String) : Prop := ∃ request, .requested i key request ∈ l

omit [Codecs] in
/-- The actions of a consumer do not begin with a request. -/
theorem HasRecommended.not_requested [Codecs] {p : RecommendationPayload} {acts : History}
    {request : CreateTicketRequest} (h : HasRecommended i p acts) :
    .requested i key request ∉ acts := by
  obtain ⟨n, d, m, row, now, began, -, -, rfl⟩ := h
  simp

/-- The commit of a call inserts a ticket with the call's key. -/
theorem Conforms.inserts_of_requested (h : Conforms C l) (hpermitted : Permitted l (.committed i ws))
    {request : CreateTicketRequest} (hcall : .requested i key request ∈ l.actions i) :
    ∃ row, .insertTicket row ∈ ws ∧ row.idempotencyKey = key := by
  cases hpermitted with
  | create hacts =>
      rw [hacts] at hcall
      simp only [List.mem_cons, reduceCtorEq, Entry.requested.injEq, List.not_mem_nil, or_false,
        false_or] at hcall
      exact ⟨_, List.mem_cons_self, hcall.2.1.symm⟩
  | recommend hacts | cancellationApplied hacts | acknowledge hacts => simp [hacts] at hcall
  | settle hacts hrecommended | commitNothing hacts hrecommended =>
      rw [hacts] at hcall
      exact absurd (by simpa using hcall) hrecommended.not_requested
  | requestCancellation hlocked =>
      obtain ⟨acts, hacts⟩ := History.actions_of_focus hlocked (by
        simp [History.actionOf, Entry.thread, Entry.isAction])
      obtain ⟨l', hsuffix, rfl⟩ := History.suffix_of_actions hacts
      have hcall' : .requested i key request ∈ l'.actions i := by simpa [hacts] using hcall
      cases (h.of_suffix hsuffix).1 with
      | cancelCall hacts' hrecommended =>
          rw [hacts'] at hcall'
          exact absurd (by simpa using hcall') hrecommended.not_requested
      | recoverCall hrecovery => cases hrecovery _ hcall'
  | relay hacts => cases hacts _ hcall

omit [Codecs] in
/-- A thread's request comes before its commits. -/
theorem Conforms.requested_of_committed [Codecs] (h : Conforms C l) (hcall : l.Calls i key)
    (hsuffix : (.committed i ws :: l') <:+ l) :
    ∃ request, .requested i key request ∈ l'.actions i := by
  obtain ⟨request, hrequest⟩ := hcall
  obtain ⟨l₁, hl₁⟩ := exists_suffix_of_mem hrequest
  rcases List.suffix_or_suffix_of_suffix hsuffix hl₁ with hle | hle <;>
    rcases List.suffix_cons_iff.mp hle with heq | hlt
  · cases heq
  · cases (h.of_suffix hl₁).1 with
    | requested hacts =>
        have hmem : .committed i ws ∈ l₁.actions i :=
          History.mem_actions.mpr ⟨hlt.subset List.mem_cons_self, rfl, rfl⟩
        rw [hacts] at hmem
        cases hmem
  · cases heq
  · exact ⟨request, History.mem_actions.mpr ⟨hlt.subset List.mem_cons_self, rfl, rfl⟩⟩

/-- Every commit of a call inserts a ticket with the call's key. -/
theorem Conforms.inserts_of_call (h : Conforms C l) (hcall : l.Calls i key)
    (hsuffix : (.committed i ws :: l') <:+ l) :
    ∃ row, .insertTicket row ∈ ws ∧ row.idempotencyKey = key := by
  obtain ⟨request, hrequest⟩ := h.requested_of_committed hcall hsuffix
  exact (h.of_suffix_history ((List.suffix_cons _ _).trans hsuffix)).inserts_of_requested
    (h.of_suffix hsuffix).1 hrequest

/-! ### Answers of the calls -/

omit [Codecs] in
/-- A thread is one call only. -/
theorem Conforms.requested_unique [Codecs] (h : Conforms C l) {key' : String}
    {request request' : CreateTicketRequest} (hrequest : .requested i key request ∈ l)
    (hrequest' : .requested i key' request' ∈ l) : key = key' ∧ request = request' := by
  have hfirst : ∀ {k k' r r'} {l₁ l₂ : History}, (.requested i k r :: l₁) <:+ l →
      ¬ (.requested i k' r' :: l₂) <:+ l₁ := by
    intro k k' r r' l₁ l₂ hk hlt
    cases (h.of_suffix hk).1 with
    | requested hacts =>
        have hmem : .requested i k' r' ∈ l₁.actions i :=
          History.mem_actions.mpr ⟨hlt.subset List.mem_cons_self, rfl, rfl⟩
        rw [hacts] at hmem
        cases hmem
  obtain ⟨l₁, hl₁⟩ := exists_suffix_of_mem hrequest
  obtain ⟨l₂, hl₂⟩ := exists_suffix_of_mem hrequest'
  rcases List.suffix_or_suffix_of_suffix hl₁ hl₂ with hle | hle <;>
    rcases List.suffix_cons_iff.mp hle with heq | hlt
  · cases heq
    exact ⟨rfl, rfl⟩
  · exact absurd hlt (hfirst hl₂)
  · cases heq
    exact ⟨rfl, rfl⟩
  · exact absurd hlt (hfirst hl₁)

omit [Codecs] in
theorem Answers.requested {request : CreateTicketRequest} {acts : History}
    {result : Except Exn (UUID × Bool)} (h : Answers i key request acts result) :
    .requested i key request ∈ acts := by
  cases h with
  | failed hacts hx => rcases hacts with rfl | rfl <;> simp
  | _ => simp

/-- How a call with the key answers. -/
theorem Conforms.answers (h : Conforms C l) (hcall : l.Calls i key)
    {result : Except Exn (UUID × Bool)} (hsuffix : (.responded i result :: l') <:+ l) :
    ∃ request, Answers i key request (l'.actions i) result := by
  cases (h.of_suffix hsuffix).1 with
  | @respond _ key' request _ hanswers =>
      have hmem := hsuffix.subset (List.mem_cons_of_mem _
        (History.mem_of_mem_actions hanswers.requested))
      obtain ⟨request', hrequest'⟩ := hcall
      obtain ⟨rfl, -⟩ := h.requested_unique hmem hrequest'
      exact ⟨request, hanswers⟩

/-- A call that has found a ticket has found the one with the key. -/
theorem Conforms.key_of_looked (h : Conforms C l) {id : UUID}
    (hlooked : .looked i key (some id) ∈ l) : l.database.keys id = some key := by
  obtain ⟨l₁, hl₁⟩ := exists_suffix_of_mem hlooked
  cases (h.of_suffix hl₁).1 with
  | looked hacts hfound hmissed =>
      exact h.keys_kept ((List.suffix_cons _ _).trans hl₁)
        (Database.keys_eq_some.mpr (hfound id rfl))

/-- A call that returns names the ticket with the key, and has committed it if it says so. -/
theorem Conforms.ticket_of_answer (h : Conforms C l) (hcall : l.Calls i key) {id : UUID}
    {created : Bool} (hanswer : .responded i (.ok (id, created)) ∈ l) :
    l.database.keys id = some key ∧
      (created = true → ∃ ws row, .committed i ws ∈ l ∧ .insertTicket row ∈ ws ∧ row.id = id) := by
  obtain ⟨l', hsuffix⟩ := exists_suffix_of_mem hanswer
  obtain ⟨request, hanswers⟩ := h.answers hcall hsuffix
  have hbefore : ∀ {e}, e ∈ l'.actions i → e ∈ l := fun he =>
    hsuffix.subset (List.mem_cons_of_mem _ (History.mem_of_mem_actions he))
  generalize hacts : l'.actions i = acts at hanswers hbefore
  cases hanswers with
  | @created ws row hrow =>
      have hcommitted : .committed i ws ∈ l := hbefore List.mem_cons_self
      obtain ⟨l₁, hl₁⟩ := exists_suffix_of_mem hcommitted
      obtain ⟨row', hrow', hkey⟩ := h.inserts_of_call hcall hl₁
      obtain ⟨event, rfl⟩ := (h.creation hl₁ hrow).writes
      obtain rfl : row' = row := by simpa using hrow'
      exact ⟨hkey ▸ h.key_of_inserted hl₁ hrow, fun _ => ⟨_, row', hcommitted, hrow, rfl⟩⟩
  | found => exact ⟨h.key_of_looked (hbefore List.mem_cons_self), by simp⟩
  | foundLater => exact ⟨h.key_of_looked (hbefore List.mem_cons_self), by simp⟩

/-- A call that does not return a new ticket commits nothing. -/
theorem Conforms.not_committed_of_answer (h : Conforms C l) (hcall : l.Calls i key)
    {result : Except Exn (UUID × Bool)} (hanswer : .responded i result ∈ l)
    (hresult : ∀ id, result ≠ .ok (id, true)) (ws : List Write) : .committed i ws ∉ l := by
  intro hcommitted
  obtain ⟨l', hsuffix⟩ := exists_suffix_of_mem hanswer
  obtain ⟨l₁, hl₁⟩ := exists_suffix_of_mem hcommitted
  obtain ⟨row, hrow, rfl⟩ := h.inserts_of_call hcall hl₁
  obtain ⟨request, -, -, hacts, -⟩ := (h.creation hl₁ hrow).call
  rcases List.suffix_or_suffix_of_suffix hsuffix hl₁ with hle | hle <;>
    rcases List.suffix_cons_iff.mp hle with heq | hlt
  · cases heq
  · have hmem : .responded i result ∈ l₁.actions i :=
      History.mem_actions.mpr ⟨hlt.subset List.mem_cons_self, rfl, rfl⟩
    simp [hacts] at hmem
  · cases heq
  · have hmem : .committed i ws ∈ l'.actions i :=
      History.mem_actions.mpr ⟨hlt.subset List.mem_cons_self, rfl, rfl⟩
    obtain ⟨request, hanswers⟩ := h.answers hcall hsuffix
    generalize l'.actions i = acts at hanswers hmem
    cases hanswers with
    | created hrow => exact hresult _ rfl
    | failed hacts hx => rcases hacts with rfl | rfl <;> simp at hmem
    | _ => simp at hmem

/-- A call that re-raises an `IntegrityError` has just found no ticket with the key. -/
theorem Conforms.unused_of_conflict (h : Conforms C l) (hcall : l.Calls i key)
    (hsuffix : (.responded i (.error .integrityError) :: l') <:+ l) :
    ∃ l₁ : History, (.looked i key none :: l₁) <:+ l' ∧
      l'.actions i = .looked i key none :: l₁.actions i ∧ ¬ l₁.database.HasKey key := by
  obtain ⟨request, hanswers⟩ := h.answers hcall hsuffix
  generalize hacts : l'.actions i = acts at hanswers
  cases hanswers with
  | conflicted =>
      obtain ⟨l₁, hl₁, hacts₁⟩ := History.suffix_of_actions hacts
      refine ⟨l₁, hl₁, by rw [hacts₁], ?_⟩
      cases (h.of_suffix (hl₁.trans ((List.suffix_cons _ _).trans hsuffix))).1 with
      | looked _ hfound hmissed => exact hmissed rfl
  | failed hacts hx => exact absurd rfl hx

/-! ### One ticket for each key -/

/-- All calls of `create_ticket` with the key create one ticket between them. -/
structure CreatedOnce (s : System) (key : String) : Prop where
  /-- One ticket at most has the key. -/
  ticket : ∀ id id', s.world.db.keys id = some key → s.world.db.keys id' = some key → id = id'
  /-- It has exactly one `TICKET` event. -/
  event : ∀ id, s.world.db.keys id = some key → ∃! eventId, ∃ row,
    s.world.db.outbox.lookup eventId = some row ∧ row.entityId = id ∧
      row.frameType = some .ticket
  /-- Only the calls insert tickets with the key. -/
  caller : ∀ i ws row, .committed i ws ∈ s.world.log → .insertTicket row ∈ ws →
    row.idempotencyKey = key → s.world.log.Calls i key
  /-- What a call commits is a ticket with the key and its event. -/
  writes : ∀ i ws, s.world.log.Calls i key → .committed i ws ∈ s.world.log →
    ∃ row event, ws = [.insertTicket row, .insertEvent event] ∧ row.idempotencyKey = key
  /-- The calls commit once between them. -/
  commit : ∀ (i j : ℕ) ws ws' (l l' : History), s.world.log.Calls i key →
    s.world.log.Calls j key → (.committed i ws :: l) <:+ s.world.log →
    (.committed j ws' :: l') <:+ s.world.log →
    (.committed i ws :: l : History) = .committed j ws' :: l'
  /-- A call that returns names the ticket with the key. -/
  returned : ∀ i id created, s.world.log.Calls i key →
    .responded i (.ok (id, created)) ∈ s.world.log → s.world.db.keys id = some key
  /-- Two calls that return give the same ticket, and only one of them has created it. -/
  agree : ∀ i j id id' created created', s.world.log.Calls i key → s.world.log.Calls j key →
    .responded i (.ok (id, created)) ∈ s.world.log →
    .responded j (.ok (id', created')) ∈ s.world.log →
    id = id' ∧ (created = true → created' = true → i = j)
  /-- A call that returns a new ticket has committed it. -/
  created : ∀ i id, s.world.log.Calls i key → .responded i (.ok (id, true)) ∈ s.world.log →
    ∃ ws row, .committed i ws ∈ s.world.log ∧ .insertTicket row ∈ ws ∧ row.id = id
  /-- Any other call commits nothing. -/
  unchanged : ∀ i result, s.world.log.Calls i key → .responded i result ∈ s.world.log →
    (∀ id, result ≠ .ok (id, true)) → ∀ ws, .committed i ws ∉ s.world.log
  /-- A call raises `IntegrityError` only if it has just found no ticket with the key. -/
  conflict : ∀ i (l : History), s.world.log.Calls i key →
    (.responded i (.error .integrityError) :: l) <:+ s.world.log →
    ∃ l' : History, (.looked i key none :: l') <:+ l ∧
      l.actions i = .looked i key none :: l'.actions i ∧ ¬ l'.database.HasKey key

/-- In every run, whatever calls overlap and fail, each key creates one ticket. -/
theorem create_once {s : System} (h : s.Reachable) (key : String) : CreatedOnce s key := by
  have hl := h.conforms
  have hdb := (System.isolated h).db_eq
  have hcreated : ∀ i id created, s.world.log.Calls i key →
      .responded i (.ok (id, created)) ∈ s.world.log →
      s.world.db.keys id = some key ∧ (created = true →
        ∃ ws row, .committed i ws ∈ s.world.log ∧ .insertTicket row ∈ ws ∧ row.id = id) :=
    fun i id created hcall hanswer => hdb ▸ hl.ticket_of_answer hcall hanswer
  have hcommit : ∀ (i j : ℕ) ws ws' (l l' : History), s.world.log.Calls i key →
      s.world.log.Calls j key → (.committed i ws :: l) <:+ s.world.log →
      (.committed j ws' :: l') <:+ s.world.log →
      (.committed i ws :: l : History) = .committed j ws' :: l' := by
    intro i j ws ws' l l' hi hj hsuffix hsuffix'
    obtain ⟨row, hrow, hkey⟩ := hl.inserts_of_call hi hsuffix
    obtain ⟨row', hrow', hkey'⟩ := hl.inserts_of_call hj hsuffix'
    exact hl.creation_unique hsuffix hsuffix' hrow hrow' (.inl (hkey.trans hkey'.symm))
  have hticket : ∀ id id', s.world.db.keys id = some key → s.world.db.keys id' = some key →
      id = id' := fun id id' hid hid' => hl.keys_unique (hdb ▸ hid) (hdb ▸ hid')
  constructor
  case ticket => exact hticket
  case event =>
    intro id hid
    obtain ⟨row, hrow, -⟩ := Database.keys_eq_some.mp hid
    have hmem : id ∈ s.world.log.database.tickets :=
      AList.lookup_isSome.mp (by simp [← hdb, hrow])
    simpa only [hdb, hl.lookup_frameType] using hl.unique_open hmem
  case caller =>
    rintro i ws row hcommitted hrow rfl
    obtain ⟨l, hsuffix⟩ := exists_suffix_of_mem hcommitted
    obtain ⟨request, -, -, hacts, -⟩ := (hl.creation hsuffix hrow).call
    exact ⟨request, hsuffix.subset (List.mem_cons_of_mem _
      (History.mem_of_mem_actions (i := i) (by simp [hacts])))⟩
  case writes =>
    intro i ws hcall hcommitted
    obtain ⟨l, hsuffix⟩ := exists_suffix_of_mem hcommitted
    obtain ⟨row, hrow, hkey⟩ := hl.inserts_of_call hcall hsuffix
    obtain ⟨event, hws⟩ := (hl.creation hsuffix hrow).writes
    exact ⟨row, event, hws, hkey⟩
  case commit => exact hcommit
  case returned => exact fun i id created hcall hanswer => (hcreated i id created hcall hanswer).1
  case agree =>
    intro i j id id' created created' hi hj hanswer hanswer'
    obtain ⟨hid, hfirst⟩ := hcreated i id created hi hanswer
    obtain ⟨hid', hsecond⟩ := hcreated j id' created' hj hanswer'
    refine ⟨hticket _ _ hid hid', fun htrue htrue' => ?_⟩
    obtain ⟨ws, -, hws, -⟩ := hfirst htrue
    obtain ⟨ws', -, hws', -⟩ := hsecond htrue'
    obtain ⟨l₁, hl₁⟩ := exists_suffix_of_mem hws
    obtain ⟨l₂, hl₂⟩ := exists_suffix_of_mem hws'
    have heq := hcommit i j ws ws' l₁ l₂ hi hj hl₁ hl₂
    simp only [List.cons.injEq, Entry.committed.injEq] at heq
    exact heq.1.1
  case created => exact fun i id hcall hanswer => (hcreated i id true hcall hanswer).2 rfl
  case unchanged =>
    exact fun i result hcall hanswer hresult => hl.not_committed_of_answer hcall hanswer hresult
  case conflict => exact fun i l hcall hsuffix => hl.unused_of_conflict hcall hsuffix

end General

/-- The call that an entry answers, the ticket and whether it is new. -/
def Entry.answer? : Entry → Option (ℕ × UUID × Bool)
  | responded i (.ok (id, created)) => some (i, id, created)
  | _ => none

open Script in
/-- Two calls overlap: thread 1 finds no ticket, thread 0 creates one, thread 1 fails to insert
another and returns that of thread 0. -/
theorem create_once_overlapping : ∃ s : System, s.Reachable ∧ CreatedOnce s "k" ∧
    s.world.log.filterMap Entry.answer? = [(1, 1, false), (0, 1, true)] := by
  obtain ⟨s, hs, hst⟩ := System.exists_reaches (s := System.initial) anyEntry
    ([.start (.createTicket "k" sampleRequest), .start (.createTicket "k" sampleRequest)] ++
      runs 1 (ok 2) ++ runs 0 (create 1 2 3) ++ runs 1 (.uuid 4 :: ok 6))
    (fun s => s.world.log.filterMap Entry.answer? = [(1, 1, false), (0, 1, true)])
    (by decide +kernel)
  simp only [decide_eq_true_eq] at hst
  exact ⟨s, hs.run, create_once hs.run "k", hst⟩

end RiskProvider

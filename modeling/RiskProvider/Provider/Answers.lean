import RiskProvider.Provider.Integration

/-!
# The provider answers what it has accepted

Every frame that the receive loop forwards is the answer of a background task, and every background
task answers an accepted frame: `Integration.answers_balanced` counts them, for each ticket and each
kind of answer. So the history of the platform meets the condition `Answered` on the frames of
`provider.in` (`Integration.Reachable.reaches`), from which the rest follows without the clients.
-/

namespace RiskProvider

open Interleaving

/-! ### Entries that concern an answer -/

namespace Response

/-- The frame is an answer of the kind `r` for its ticket. -/
def answeredBy (r : Response) (m : Message) : Bool := m.type = r.type ∧ m.ticketId = some r.ticketId

/-- The entry records that a frame answered by `r` has been accepted. -/
def acceptedBy (r : Response) : Entry → Bool
  | .sent _ m .ok => MockProviderClient.response? m = some r
  | _ => false

/-- The entry records the attempt to publish an answer of the kind `r`. -/
def forwardedBy [Codecs] (r : Response) : Entry → Bool
  | .published _ key _ body _ =>
      key = topology.providerInRoutingKey && (Message.modelValidate 0 0 body).any r.answeredBy
  | _ => false

/-- How many frames answered by `r` have been accepted. -/
def accepted (r : Response) (l : History) : ℕ := l.countP r.acceptedBy

/-- How often it has been attempted to publish an answer of the kind `r`. -/
def forwarded [Codecs] (r : Response) (l : History) : ℕ := l.countP r.forwardedBy

/-- How many answers of the kind `r` a client has still to give. -/
def pending (r : Response) (p : MockProviderClient) : ℕ :=
  p.backgroundTasks.count r + p.frames.countP r.answeredBy

variable {r r' : Response}

/-- What an answer is about says which one it is. -/
theorem eq_of_type (htype : r.type = r'.type) (hticket : r.ticketId = r'.ticketId) : r = r' := by
  cases r <;> cases r' <;> first | exact congrArg _ hticket | cases htype

@[simp]
theorem answeredBy_frame [Codecs] (settings : ProviderSettings) (roll : ℚ) (messageId : UUID)
    (now : Time) : r.answeredBy (r'.frame settings roll messageId now) = decide (r' = r) := by
  rw [answeredBy, decide_eq_decide]
  constructor
  · rintro ⟨htype, hticket⟩
    exact eq_of_type htype (Option.some.inj hticket)
  · rintro rfl
    exact ⟨rfl, rfl⟩

theorem accepted_pos_iff {l : History} : 0 < r.accepted l ↔
    ∃ i m, .sent i m .ok ∈ l ∧ MockProviderClient.response? m = some r := by
  rw [accepted, List.countP_pos_iff]
  constructor
  · rintro ⟨entry, hmem, haccepted⟩
    unfold acceptedBy at haccepted
    split at haccepted
    · exact ⟨_, _, hmem, of_decide_eq_true haccepted⟩
    · cases haccepted
  · rintro ⟨i, m, hmem, hresponse⟩
    exact ⟨_, hmem, by simpa [acceptedBy] using hresponse⟩

end Response

/-! ### What a client has still to answer -/

namespace Integration

open Response

variable [Codecs] {settings : ProviderSettings} {p p' : MockProviderClient} {r : Response}

/-- Moving by itself, a client answers no more than it has to. -/
theorem ClientMoves.pending_le (h : ClientMoves settings p p') : r.pending p' ≤ r.pending p := by
  cases h with
  | @respond n r' roll messageId now htask htasks hframes =>
      -- the frame takes the place of its task
      obtain ⟨hn, hr'⟩ := List.getElem?_eq_some_iff.mp htask
      have hperm : (r' :: p'.backgroundTasks).Perm p.backgroundTasks := by
        rw [htasks, ← hr']
        exact List.getElem_cons_eraseIdx_perm hn
      have hcount := hperm.count_eq r
      rw [List.count_cons] at hcount
      rw [pending, pending, hframes, List.countP_append, ← hcount]
      simp
      omega
  | lose hframes htasks =>
      have hcount : p'.backgroundTasks.count r ≤ p.backgroundTasks.count r := htasks.count_le r
      have hcountP : p'.frames.countP r.answeredBy ≤ p.frames.countP r.answeredBy := hframes.countP_le
      unfold pending
      omega

omit [Codecs] in
/-- A frame that is accepted is answered once. -/
theorem pending_scheduleResponse (m : Message) : r.pending (p.scheduleResponse m) =
    r.pending p + if MockProviderClient.response? m = some r then 1 else 0 := by
  have hframes : (p.scheduleResponse m).frames = p.frames := rfl
  rw [pending, pending, hframes, MockProviderClient.scheduleResponse, List.count_append]
  cases hresponse : MockProviderClient.response? m with
  | none => simp
  | some r' =>
      by_cases hr : r' = r
      · simp [hr]
        omega
      · simp [hr]

omit [Codecs] in
/-- A frame that is taken needs no answer any more. -/
theorem pending_of_frames {m : Message} (hframes : p.frames = m :: p'.frames)
    (htasks : p'.backgroundTasks = p.backgroundTasks) :
    r.pending p = r.pending p' + if r.answeredBy m then 1 else 0 := by
  rw [pending, pending, hframes, htasks, List.countP_cons]
  omega

omit [Codecs] in
/-- The clients together, when one of them changes. -/
theorem sum_update {G : Type} [DecidableEq G] [Fintype G] (f : MockProviderClient → ℕ)
    (provider : G → MockProviderClient) (g : G) (p : MockProviderClient) :
    (∑ x, f (Function.update provider g p x)) + f (provider g) = (∑ x, f (provider x)) + f p := by
  rw [← Finset.add_sum_erase Finset.univ _ (Finset.mem_univ g),
    ← Finset.add_sum_erase Finset.univ (fun x => f (provider x)) (Finset.mem_univ g)]
  have hothers : ∑ x ∈ Finset.univ.erase g, f (Function.update provider g p x) =
      ∑ x ∈ Finset.univ.erase g, f (provider x) := by
    refine Finset.sum_congr rfl fun x hx => ?_
    rw [Function.update_of_ne (Finset.ne_of_mem_erase hx)]
  rw [hothers, Function.update_self]
  omega

/-! ### What a turn records -/

section Turns

variable {s s' : System}

/-- A step records what its effect does. -/
theorem appends_step {l : Label Choice Invocation ℕ} {P : Entry → Prop}
    (h : machine.step s l = some s') (hreturned : ∀ i, P (.returned i))
    (hrun : ∀ i c e cont, l = .run i c → s.threads i = .perform e cont →
      ∀ entry, e.Records i entry → P entry) : World.Appends P s.world.log s'.world.log := by
  cases l with
  | start inv =>
      cases h
      exact .refl _
  | environment elapsed =>
      cases h
      exact .refl _
  | crash i =>
      cases hthread : s.threads i with
      | done a => simp [Machine.step, hthread] at h
      | perform e cont =>
          simp only [Machine.step, hthread, Option.some.injEq] at h
          subst h
          change World.Appends P s.world.log (s.world.crash i).log
          rcases World.log_crash (w := s.world) (i := i) with hlog | hlog
          · rw [hlog]
            exact .refl _
          · rw [hlog]
            exact .cons (hreturned i) _
  | run i c =>
      cases hthread : s.threads i with
      | done a => simp [Machine.step, hthread] at h
      | perform e cont =>
          simp only [Machine.step, hthread, Option.map_eq_some_iff] at h
          obtain ⟨⟨r, w'⟩, hexec, rfl⟩ := h
          obtain ⟨es, hes, hrecords⟩ := World.records_of_exec hexec
          exact ⟨es, hes, fun entry hentry => hrun i c e cont rfl hthread entry (hrecords entry hentry)⟩

/-- What sending a frame records. -/
theorem log_send {i : ℕ} {m : Message} {choice : Choice}
    {cont : (Effect.send m).Result → Program Effect Effect.Result Unit}
    (hthread : s.threads i = .perform (.send m) cont)
    (h : machine.step s (.run i choice) = some s') :
    ∃ outcome, s'.world.log = .sent i m outcome :: s.world.log ∧
      (outcome = .ok ↔ choice = .succeed) := by
  simp only [Machine.step, hthread, Option.map_eq_some_iff] at h
  obtain ⟨⟨r, w'⟩, hexec, rfl⟩ := h
  change s.world.send i choice m = some (r, w') at hexec
  unfold World.send at hexec
  split at hexec <;> cases hexec
  · exact ⟨.ok, rfl, by simp⟩
  · exact ⟨_, rfl, by simp⟩
  · exact ⟨_, rfl, by simp⟩

/-- What publishing a frame records. -/
theorem log_publish {i : ℕ} {key : String} {messageId : UUID} {body : Dict} {choice : Choice}
    {cont : (Effect.publish key messageId body).Result → Program Effect Effect.Result Unit}
    (hthread : s.threads i = .perform (.publish key messageId body) cont)
    (h : machine.step s (.run i choice) = some s') :
    ∃ ok, s'.world.log = .published i key messageId body ok :: s.world.log := by
  simp only [Machine.step, hthread, Option.map_eq_some_iff] at h
  obtain ⟨⟨r, w'⟩, hexec, rfl⟩ := h
  change s.world.call choice _ _ = some (r, w') at hexec
  unfold World.call at hexec
  split at hexec <;> cases hexec
  · exact ⟨true, rfl⟩
  · exact ⟨false, rfl⟩

/-- The entry is about neither an accepted frame nor the queue `provider.in`. -/
def Quiet (entry : Entry) : Prop :=
  (∀ i m, entry ≠ .sent i m .ok) ∧
    ∀ i messageId body ok, entry ≠ .published i topology.providerInRoutingKey messageId body ok

/-- A step without the provider records nothing about it. -/
theorem appends_quiet {l : Label Choice Invocation ℕ} (h : machine.step s l = some s')
    (hcalls : callsProvider s l = false) : World.Appends Quiet s.world.log s'.world.log := by
  refine appends_step h (fun i => ?_) fun i c e cont hl hthread entry hentry => ?_
  · simp [Quiet]
  · subst hl
    rw [callsProvider, hthread] at hcalls
    refine ⟨?_, ?_⟩
    · rintro j m rfl
      cases e with
      | send m' => cases hcalls
      | _ => simp [Effect.Records] at hentry
    · rintro j messageId body ok rfl
      cases e with
      | publish key messageId' body' =>
          obtain ⟨ok', heq⟩ := hentry
          cases heq
          simp [involvesProvider] at hcalls
      | _ => simp [Effect.Records] at hentry

omit [Codecs] in
theorem Quiet.acceptedBy {entry : Entry} (h : Quiet entry) : r.acceptedBy entry = false := by
  unfold Response.acceptedBy
  split
  next i m => exact absurd rfl (h.1 i m)
  · rfl

theorem Quiet.forwardedBy {entry : Entry} (h : Quiet entry) : r.forwardedBy entry = false := by
  unfold Response.forwardedBy
  split
  next i key messageId body ok =>
    have hkey : key ≠ topology.providerInRoutingKey := fun hkey =>
      h.2 i messageId body ok (by rw [hkey])
    simp [hkey]
  · rfl

/-- Quiet entries do not count. -/
theorem counts_of_quiet {l l' : History} (h : World.Appends Quiet l l') :
    r.accepted l' = r.accepted l ∧ r.forwarded l' = r.forwarded l := by
  obtain ⟨es, rfl, hes⟩ := h
  have haccepted : es.countP r.acceptedBy = 0 :=
    List.countP_eq_zero.mpr fun entry hentry => by simp [(hes entry hentry).acceptedBy]
  have hforwarded : es.countP r.forwardedBy = 0 :=
    List.countP_eq_zero.mpr fun entry hentry => by simp [(hes entry hentry).forwardedBy]
  refine ⟨?_, ?_⟩
  · rw [Response.accepted, Response.accepted, List.countP_append, haccepted, Nat.zero_add]
  · rw [Response.forwarded, Response.forwarded, List.countP_append, hforwarded, Nat.zero_add]

end Turns

/-! ### Conservation -/

variable {G : Type} [DecidableEq G] [Fintype G] {c c' : Integration G}

/-- Answers that have been forwarded or that clients have still to give answer that many accepted
frames. -/
def Balanced (c : Integration G) (r : Response) : Prop :=
  r.forwarded c.system.world.log + ∑ g, r.pending (c.provider g) ≤ r.accepted c.system.world.log

/-- A turn forwards and keeps no more answers than it accepts frames that need them. -/
theorem Changes.balanced (h : Changes settings c c') (hc : c.Balanced r) : c'.Balanced r := by
  unfold Balanced at hc ⊢
  cases h with
  | platform hstep hcalls hprovider =>
      obtain ⟨haccepted, hforwarded⟩ := counts_of_quiet (r := r) (appends_quiet hstep hcalls)
      rw [haccepted, hforwarded, hprovider]
      exact hc
  | refused hthread hstep hchoice hprovider =>
      obtain ⟨outcome, hlog, houtcome⟩ := log_send hthread hstep
      have hne : outcome ≠ .ok := fun hok => hchoice (houtcome.1 hok)
      rw [hlog, hprovider]
      simpa [Response.accepted, Response.forwarded, Response.acceptedBy, Response.forwardedBy, hne]
        using hc
  | @accepted i g m cont hthread hstep hprovider =>
      -- one more frame is accepted, and one more task scheduled if it needs an answer
      obtain ⟨outcome, hlog, houtcome⟩ := log_send hthread hstep
      obtain rfl := houtcome.2 rfl
      have hsum := sum_update r.pending c.provider g ((c.provider g).scheduleResponse m)
      rw [pending_scheduleResponse, ← hprovider] at hsum
      have haccepted : r.accepted (.sent i m .ok :: c.system.world.log) =
          r.accepted c.system.world.log +
            if MockProviderClient.response? m = some r then 1 else 0 := by
        simp [Response.accepted, List.countP_cons, Response.acceptedBy]
      have hforwarded : r.forwarded (.sent i m .ok :: c.system.world.log) =
          r.forwarded c.system.world.log := by
        simp [Response.forwarded, Response.forwardedBy]
      rw [hlog, haccepted, hforwarded]
      omega
  | @forwarded i g m p cont choice hthread hstep hframes htasks hprovider =>
      -- the frame leaves its client, even when the publish fails
      obtain ⟨ok, hlog⟩ := log_publish hthread hstep
      have hsum := sum_update r.pending c.provider g p
      have hpending := pending_of_frames (r := r) hframes htasks
      rw [← hprovider] at hsum
      have hforwarded : r.forwarded (.published i topology.providerInRoutingKey m.messageId
          m.modelDump ok :: c.system.world.log) =
          r.forwarded c.system.world.log + if r.answeredBy m then 1 else 0 := by
        simp [Response.forwarded, List.countP_cons, Response.forwardedBy]
      have haccepted : r.accepted (.published i topology.providerInRoutingKey m.messageId
          m.modelDump ok :: c.system.world.log) = r.accepted c.system.world.log := by
        simp [Response.accepted, Response.acceptedBy]
      rw [hlog, haccepted, hforwarded]
      omega
  | @client g p hsystem hmoves hprovider =>
      have hsum := sum_update r.pending c.provider g p
      have hle := hmoves.pending_le (r := r)
      rw [← hprovider] at hsum
      rw [hsystem]
      omega

theorem Reachable.balanced (hc : Reachable settings c) (r : Response) : c.Balanced r := by
  induction hc with
  | refl =>
      simp [Balanced, initial, System.initial, Pool.initial, Response.forwarded, Response.accepted,
        Response.pending, MockProviderClient.frames]
  | tail _ hstep ih =>
      obtain ⟨t, ht⟩ := hstep
      exact (changes_of_step ht).balanced ih

/-- The answers that have been forwarded or that clients have still to give are no more than the
accepted frames that need them, for each ticket and each kind of answer. -/
theorem answers_balanced (hc : Reachable settings c) (r : Response) :
    r.forwarded c.system.world.log + ∑ g, r.pending (c.provider g) ≤
      r.accepted c.system.world.log :=
  hc.balanced r

omit [Fintype G] in
/-- A client only holds frames that its background tasks have built. -/
theorem frames_built (hc : Reachable settings c) (g : G) (m : Message)
    (hm : m ∈ (c.provider g).frames) :
    ∃ r roll messageId now, m = Response.frame settings roll messageId now r := by
  induction hc generalizing g m with
  | refl => simp [initial, MockProviderClient.frames] at hm
  | @tail c c' _ hstep ih =>
      obtain ⟨t, ht⟩ := hstep
      -- one client changes at most
      have hupdate : ∀ {g' p}, c'.provider = Function.update c.provider g' p →
          (∀ m ∈ p.frames, m ∈ (c.provider g').frames ∨
            ∃ r roll messageId now, m = Response.frame settings roll messageId now r) →
          ∃ r roll messageId now, m = Response.frame settings roll messageId now r := by
        intro g' p hprovider hp
        rw [hprovider] at hm
        by_cases hg : g = g'
        · subst hg
          rw [Function.update_self] at hm
          exact (hp m hm).elim (ih g m) id
        · rw [Function.update_of_ne hg] at hm
          exact ih g m hm
      cases changes_of_step ht with
      | platform _ _ hprovider | refused _ _ _ hprovider => exact ih g m (hprovider ▸ hm)
      | accepted _ _ hprovider => exact hupdate hprovider fun m hm => .inl hm
      | forwarded _ _ hframes _ hprovider =>
          refine hupdate hprovider fun m hm => .inl ?_
          rw [hframes]
          exact List.mem_cons_of_mem _ hm
      | client _ hmoves hprovider =>
          refine hupdate hprovider fun m hm => ?_
          cases hmoves with
          | respond _ _ hframes =>
              rw [hframes] at hm
              rcases List.mem_append.mp hm with hm | hm
              · exact .inl hm
              · exact .inr ⟨_, _, _, _, List.mem_singleton.mp hm⟩
          | lose hframes _ => exact .inl (hframes.subset hm)

/-! ### The history of the platform -/

omit [DecidableEq G] [Fintype G] in
variable (settings) in
/-- What is published on `provider.in` answers a frame that has been accepted. -/
def Answered (l : History) (e : Entry) : Prop :=
  ∀ i messageId body ok, e = .published i topology.providerInRoutingKey messageId body ok →
    ∃ r roll now, body = (Response.frame settings roll messageId now r).modelDump ∧
      0 < r.accepted l

theorem Quiet.answered {l : History} {e : Entry} (h : Quiet e) : Answered settings l e :=
  fun i messageId body ok he => absurd he (h.2 i messageId body ok)

theorem answered_allowsReads : System.AllowsReads (Answered settings) where
  loaded l i k := by simp [Answered]
  read l e hread := by
    rintro i messageId body ok rfl
    cases hread

/-- In a run with the clients, every step of the platform meets the condition. -/
theorem Reachable.reaches (hc : Reachable settings c) :
    machine.Reaches (System.Meets (Answered settings)) System.initial c.system := by
  induction hc with
  | refl => exact Relation.ReflTransGen.refl
  | @tail c c' hrun hstep ih =>
      obtain ⟨t, ht⟩ := hstep
      cases changes_of_step ht with
      | platform hstep hcalls _ =>
          refine ih.tail ⟨⟨_, hstep⟩, fun e he => Quiet.answered ?_⟩
          obtain ⟨es, hes, hquiet⟩ := appends_quiet hstep hcalls
          rw [he] at hes
          have hnew : es = [e] :=
            List.append_cancel_right (hes.symm.trans (List.singleton_append).symm)
          exact hquiet e (by simp [hnew])
      | refused hthread hstep _ _ | accepted hthread hstep _ =>
          refine ih.tail ⟨⟨_, hstep⟩, fun e he => ?_⟩
          obtain ⟨outcome, hlog, -⟩ := log_send hthread hstep
          rw [hlog] at he
          obtain rfl := (List.cons.inj he).1
          simp [Answered]
      | @forwarded i g m p cont choice hthread hstep hframes htasks hprovider =>
          refine ih.tail ⟨⟨_, hstep⟩, fun e he => ?_⟩
          obtain ⟨ok, hlog⟩ := log_publish hthread hstep
          rw [hlog] at he
          obtain rfl := (List.cons.inj he).1
          rintro j messageId body ok' heq
          cases heq
          -- the frame is a client's, and it needs an accepted one
          obtain ⟨r, roll, messageId, now, rfl⟩ :=
            frames_built hrun g m (hframes ▸ List.mem_cons_self)
          refine ⟨r, roll, now, rfl, ?_⟩
          have hpending : 0 < r.pending (c.provider g) := by
            rw [pending, hframes, List.countP_cons]
            simp
          have hle : r.pending (c.provider g) ≤ ∑ x, r.pending (c.provider x) :=
            Finset.single_le_sum (f := fun x => r.pending (c.provider x))
              (fun x _ => Nat.zero_le _) (Finset.mem_univ g)
          have hbalanced := Reachable.balanced hrun r
          unfold Balanced at hbalanced
          omega
      | client hsystem _ _ =>
          rw [hsystem]
          exact ih

/-- The history of the platform conforms to its protocol, and what is published on `provider.in`
answers accepted frames. -/
theorem Reachable.conforms (hc : Reachable settings c) :
    Conforms (Answered settings) c.system.world.log :=
  System.conforms answered_allowsReads hc.reaches

end Integration

/-- The provider's recommendation on ticket 1 has been forwarded. -/
theorem Integration.answers_balanced_recommends : ∃ c : Integration Unit, Reachable {} c ∧
    (Response.pushRecommendation 1).forwarded c.system.world.log = 1 ∧
    (Response.pushRecommendation 1).forwarded c.system.world.log +
      ∑ g, (Response.pushRecommendation 1).pending (c.provider g) ≤
        (Response.pushRecommendation 1).accepted c.system.world.log := by
  obtain ⟨c, hc, htest⟩ := exists_reachable (G := Unit) {} Script.recommends
    (fun c => (Response.pushRecommendation 1).forwarded c.system.world.log = 1) (by decide +kernel)
  exact ⟨c, hc, of_decide_eq_true htest, answers_balanced hc _⟩

end RiskProvider

import RiskProvider.Executions
import RiskProvider.Frames
import RiskProvider.Moves
import RiskProvider.Provider.Client
import RiskProvider.Records

/-!
# The platform with its provider

`System` leaves open what the provider answers. Here every gateway process `g` runs against its own
`MockProviderClient`: a frame that the gateway sends is answered by `MockProviderClient.send`, and its
receive loop forwards the frames that the client's iterator yields, in their order. All other steps
are those of `System`, and a gateway may lose a frame or restart.

* `Integration`, `Integration.Turn`, `Integration.step`, `Integration.Reachable`.
* `Integration.step_cases`: what a turn does to both sides.
-/

namespace RiskProvider

open Interleaving

/-- The platform and the providers of its gateway processes. -/
structure Integration (G : Type) where
  /-- The processes and the world that they share. -/
  system : System
  /-- The client of each gateway process. -/
  provider : G → MockProviderClient

namespace Integration

/-- Nothing has happened. -/
def initial (G : Type) : Integration G where
  system := System.initial
  provider _ := {}

/-- What happens next. -/
inductive Turn (G : Type) where
  /-- A step of the platform that does not involve the provider. -/
  | platform (l : Label Choice Invocation ℕ)
  /-- Thread `i` of gateway `g` sends its frame; `roll` and `code` are what is random. -/
  | send (i : ℕ) (g : G) (roll : ℚ) (code : ProviderErrorCode)
  /-- The receive loop of gateway `g`, in thread `i`, publishes the next inbound frame. -/
  | forward (i : ℕ) (g : G) (c : Choice)
  /-- The `n`-th background task of a client delivers its frame. -/
  | respond (g : G) (n : ℕ) (roll : ℚ) (messageId : UUID)
  /-- The receive loop of gateway `g` dies with the frame that it has taken. -/
  | lose (g : G)
  /-- The client of gateway `g` is started. -/
  | start (g : G)
  /-- The client of gateway `g` is stopped. -/
  | stop (g : G)
  /-- The process of gateway `g` is replaced by a new one. -/
  | restart (g : G)

/-- The effect sends a frame to the provider, or publishes one of its frames. -/
def involvesProvider : Effect → Bool
  | .send _ => true
  | .publish key _ _ => key = topology.providerInRoutingKey
  | _ => false

/-- The step performs an effect that involves the provider. -/
def callsProvider (s : System) : Label Choice Invocation ℕ → Bool
  | .run i _ =>
      match s.threads i with
      | .perform e _ => involvesProvider e
      | .done _ => false
  | _ => false

/-- What the gateway gets from `provider.send`, as a choice of the environment. -/
def choiceOf : Except Exn AckPayload → Choice
  | .error (.providerAckError code) => .rejects code
  | .error (.connectionError text) => .raises text
  | .error _ => .databaseError
  | .ok _ => .succeed

variable {G : Type} [DecidableEq G] [Codecs]

/-- One turn, when it is possible. -/
def step (settings : ProviderSettings) (c : Integration G) : Turn G → Option (Integration G)
  | .platform l =>
      if callsProvider c.system l then none
      else (machine.step c.system l).map fun s => { c with system := s }
  | .send i g roll code =>
      match c.system.threads i with
      | .perform (.send m) _ =>
          let answer := (c.provider g).send settings roll code m
          (machine.step c.system (.run i (choiceOf answer.1))).map fun s =>
            { system := s, provider := Function.update c.provider g answer.2 }
      | _ => none
  | .forward i g choice =>
      match c.system.threads i, (c.provider g).anext with
      | .perform (.publish key messageId body) _, some (some m, p) =>
          if key = topology.providerInRoutingKey ∧ messageId = m.messageId ∧ body = m.modelDump then
            (machine.step c.system (.run i choice)).map fun s =>
              { system := s, provider := Function.update c.provider g p }
          else none
      | _, _ => none
  | .respond g n roll messageId =>
      ((c.provider g).respond settings n roll messageId c.system.world.now).map fun p =>
        { c with provider := Function.update c.provider g p }
  | .lose g => (c.provider g).anext.map fun item =>
      { c with provider := Function.update c.provider g item.2 }
  | .start g => some { c with provider := Function.update c.provider g (c.provider g).start }
  | .stop g => some { c with provider := Function.update c.provider g (c.provider g).stop }
  | .restart g => some { c with provider := Function.update c.provider g {} }

/-- A state that the platform and its providers can reach. -/
def Reachable (settings : ProviderSettings) (c : Integration G) : Prop :=
  Relation.ReflTransGen (fun c c' => ∃ t, step settings c t = some c') (initial G) c

/-- What a client does by itself: a background task delivers its frame, or frames and tasks are
lost. -/
inductive ClientMoves (settings : ProviderSettings) (p p' : MockProviderClient) : Prop
  | respond {n r roll messageId now} (htask : p.backgroundTasks[n]? = some r)
      (htasks : p'.backgroundTasks = p.backgroundTasks.eraseIdx n)
      (hframes : p'.frames = p.frames ++ [r.frame settings roll messageId now])
  | lose (hframes : p'.frames.Sublist p.frames)
      (htasks : p'.backgroundTasks.Sublist p.backgroundTasks)

/-- What a turn does to the platform and to the clients. -/
inductive Changes (settings : ProviderSettings) (c c' : Integration G) : Prop
  /-- The platform steps without the provider. -/
  | platform {l} (hstep : machine.step c.system l = some c'.system)
      (hcalls : callsProvider c.system l = false) (hprovider : c'.provider = c.provider)
  /-- A frame is not accepted. -/
  | refused {i m cont choice} (hthread : c.system.threads i = .perform (.send m) cont)
      (hstep : machine.step c.system (.run i choice) = some c'.system)
      (hchoice : choice ≠ .succeed) (hprovider : c'.provider = c.provider)
  /-- A frame is accepted. -/
  | accepted {i g m cont} (hthread : c.system.threads i = .perform (.send m) cont)
      (hstep : machine.step c.system (.run i .succeed) = some c'.system)
      (hprovider : c'.provider =
        Function.update c.provider g ((c.provider g).scheduleResponse m))
  /-- A frame of a client is published. -/
  | forwarded {i g m p cont choice}
      (hthread : c.system.threads i =
        .perform (.publish topology.providerInRoutingKey m.messageId m.modelDump) cont)
      (hstep : machine.step c.system (.run i choice) = some c'.system)
      (hframes : (c.provider g).frames = m :: p.frames)
      (htasks : p.backgroundTasks = (c.provider g).backgroundTasks)
      (hprovider : c'.provider = Function.update c.provider g p)
  /-- A client moves. -/
  | client {g p} (hsystem : c'.system = c.system)
      (hmoves : ClientMoves settings (c.provider g) p)
      (hprovider : c'.provider = Function.update c.provider g p)

/-- Every turn makes one of the five changes. -/
theorem changes_of_step {settings : ProviderSettings} {c c' : Integration G} {t : Turn G}
    (h : step settings c t = some c') : Changes settings c c' := by
  cases t with
  | platform l =>
      simp only [step] at h
      split at h
      · cases h
      next hcalls =>
        obtain ⟨s, hs, rfl⟩ := Option.map_eq_some_iff.mp h
        exact .platform hs (Bool.eq_false_of_not_eq_true hcalls) rfl
  | send i g roll code =>
      simp only [step] at h
      split at h
      next m cont hthread =>
        obtain ⟨s, hs, rfl⟩ := Option.map_eq_some_iff.mp h
        rcases (c.provider g).send_cases settings roll code m with ⟨x, hx⟩ | ⟨ack, hack⟩
        · rw [hx] at hs
          refine .refused hthread hs ?_ (by simp [hx])
          cases x <;> simp [choiceOf]
        · rw [hack] at hs
          exact .accepted (g := g) hthread hs (by simp [hack])
      · cases h
  | forward i g choice =>
      simp only [step] at h
      split at h
      next key messageId body cont m p hthread hnext =>
        split at h
        next hframe =>
          obtain ⟨rfl, rfl, rfl⟩ := hframe
          obtain ⟨s, hs, rfl⟩ := Option.map_eq_some_iff.mp h
          obtain ⟨hframes, htasks⟩ := (c.provider g).frames_of_anext hnext
          exact .forwarded hthread hs hframes htasks rfl
        · cases h
      · cases h
  | respond g n roll messageId =>
      obtain ⟨p, hp, rfl⟩ := Option.map_eq_some_iff.mp h
      obtain ⟨r, hr, htasks, hframes⟩ := (c.provider g).frames_of_respond hp
      exact .client rfl (.respond hr htasks hframes) rfl
  | lose g =>
      obtain ⟨⟨item, p⟩, hp, rfl⟩ := Option.map_eq_some_iff.mp h
      obtain ⟨hframes, htasks⟩ := (c.provider g).frames_of_anext hp
      refine .client rfl (.lose ?_ ?_) rfl
      · rw [hframes]
        exact List.sublist_append_right _ _
      · rw [htasks]
  | start g =>
      cases h
      refine .client (g := g) (p := (c.provider g).start) rfl (.lose ?_ ?_) rfl
      · rw [MockProviderClient.frames_start]
      · exact List.Sublist.refl _
  | stop g =>
      cases h
      refine .client (g := g) (p := (c.provider g).stop) rfl (.lose ?_ ?_) rfl
      · rw [MockProviderClient.frames_stop]
      · exact List.nil_sublist _
  | restart g =>
      cases h
      refine .client (g := g) (p := {}) rfl (.lose ?_ ?_) rfl
      · exact List.nil_sublist _
      · exact List.nil_sublist _

/-- The platform runs as `System` does. -/
theorem Reachable.system {settings : ProviderSettings} {c : Integration G}
    (hc : Reachable settings c) : System.Reachable c.system := by
  induction hc with
  | refl => exact Relation.ReflTransGen.refl
  | tail _ hstep ih =>
      obtain ⟨t, ht⟩ := hstep
      cases changes_of_step ht with
      | platform hstep | refused _ hstep | accepted _ hstep | forwarded _ hstep =>
          exact ih.tail ⟨⟨_, hstep⟩, trivial⟩
      | client hsystem =>
          rw [hsystem]
          exact ih

/-! ### Executions -/

/-- An execution whose last state passes a test reaches it. -/
theorem exists_reachable (settings : ProviderSettings) (ts : List (Turn G))
    (test : Integration G → Bool) (h : (ts.foldlM (step settings) (initial G)).any test = true) :
    ∃ c, Reachable settings c ∧ test c = true := by
  have hreaches : ∀ (ts : List (Turn G)) {c c' : Integration G}, Reachable settings c →
      ts.foldlM (step settings) c = some c' → Reachable settings c' := by
    intro ts
    induction ts with
    | nil =>
        intro c c' hc h
        exact Option.some.inj h ▸ hc
    | cons t ts ih =>
        intro c c' hc h
        obtain ⟨c₁, hstep, hrest⟩ := Option.bind_eq_some_iff.mp h
        exact ih (hc.tail ⟨t, hstep⟩) hrest
  obtain ⟨c, hc, htest⟩ := (Option.any_eq_true _ _).mp h
  exact ⟨c, hreaches ts Relation.ReflTransGen.refl hc, htest⟩

end Integration

/-! ### Scripts -/

namespace Script

open Integration

/-- Steps of the platform without the provider. -/
def alone (ls : List (Label Choice Invocation ℕ)) : List (Turn Unit) := ls.map .platform

/-- Thread `i` sends the `n`-th frame of its queue, and the provider accepts it. -/
def sends (i n : ℕ) (rest : List Choice) : List (Turn Unit) :=
  alone ([.start .sendToProvider] ++ runs i (deliver n)) ++
  [.send i () (9 / 10) .providerBusy] ++ alone (runs i rest)

/-- The oldest task of the provider builds a frame, and thread `i` forwards it. -/
def forwards (i : ℕ) (roll : ℚ) (frame : Message) : List (Turn Unit) :=
  [.respond () 0 roll frame.messageId] ++ alone [.start (.recieveFromProvider [frame])] ++
  [.forward i () .succeed] ++ alone (runs i (ok 1))

/-- Ticket 1 is created, accepted by the provider and recommended with frame 10, which thread 3
publishes. -/
def answers : List (Turn Unit) :=
  alone ([.start (.createTicket "k" sampleRequest)] ++ runs 0 (create 1 2 3) ++
    [.start (.sendBatch 10)] ++ runs 1 (relay [3])) ++
  sends 2 0 (ok 7) ++
  forwards 3 0 ((Response.pushRecommendation 1).frame {} 0 10 0)

/-- Thread 4 handles the frame, and its settle call is about to be made. -/
def recommends : List (Turn Unit) := answers ++ alone ([.start .handle] ++ runs 4 (recommend 0))

/-- Ticket 1 is created, found stuck, and cancelled by the provider with frame 20. -/
def cancels : List (Turn Unit) :=
  alone ([.start (.createTicket "k" sampleRequest)] ++ runs 0 (create 1 2 3) ++
    [.environment 1, .start (.recoverStuckTickets 0 10)] ++
    runs 1 (ok 1 ++ .rows [1] :: ok 2 ++ requestCancellation 11 12) ++
    [.start (.sendBatch 10)] ++ runs 2 (relay [3, 12])) ++
  sends 3 1 (ok 1) ++
  forwards 4 0 ((Response.pushCancellationApplied 1).frame {} 0 20 1) ++
  alone ([.start .handle] ++ runs 5 (applyCancellation 0))

end Script

end RiskProvider

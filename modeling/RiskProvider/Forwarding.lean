import RiskProvider.Executions
import RiskProvider.Frames
import RiskProvider.Interleaving.Sequential

/-!
# Forwarding of the provider's frames

The receive loop of the gateway goes on after an acknowledgement that fails, but returns after a
publish that fails: the frames that follow it are not forwarded. `forwarding` is what the loop
is for, `forwarded` what it does; they agree exactly when no publish fails but that of the last
frame (`forwards_iff`).
-/

namespace RiskProvider

open Interleaving

/-- The number of publishes of thread `i`. -/
def History.publishes (l : History) (i : ℕ) : ℕ := (l.actions i).countP Entry.isPublished

/-- The environment fails the publishes of thread `i`, and the acknowledgements that follow
them, as chosen for each publish in turn. -/
def Follows (i : ℕ) (publishFails ackFails : ℕ → Bool) (l : History) : Entry → Prop
  | .published j _ _ _ ok => j = i → ok = !publishFails (l.publishes i)
  | .ackSent j _ ok => j = i → ok = !ackFails (l.publishes i - 1)
  | _ => True

instance (i : ℕ) (publishFails ackFails : ℕ → Bool) (l : History) (e : Entry) :
    Decidable (Follows i publishFails ackFails l e) := by
  unfold Follows
  split <;> infer_instance

/-- What every new entry of a run satisfies, checked. -/
theorem follows_of_tails {i : ℕ} {publishFails ackFails : ℕ → Bool} {log : History}
    (h : (log.tails.all fun
      | [] => true
      | e :: l => Follows i publishFails ackFails l e) = true) (l : History) (e : Entry)
    (hsuffix : (e :: l) <:+ log) : Follows i publishFails ackFails l e := by
  have hcheck := List.all_eq_true.mp h _ ((List.mem_tails _ _).mpr hsuffix)
  exact of_decide_eq_true hcheck

section General

variable [Codecs] (i : ℕ) (publishFails ackFails : ℕ → Bool)

/-- Every frame is published in turn, the `n`-th publish being that of the first one, and
acknowledged if and only if that has succeeded. -/
def forwarding (n : ℕ) : List Message → List Entry
  | [] => []
  | m :: rest =>
      .published i topology.providerInRoutingKey m.messageId m.modelDump (!publishFails n) ::
        ((if publishFails n then [] else [.ackSent i m.messageId (!ackFails n)]) ++
          forwarding (n + 1) rest)

/-- The frames up to the first one whose publish fails are published in turn. -/
def forwarded (n : ℕ) : List Message → List Entry
  | [] => []
  | m :: rest =>
      .published i topology.providerInRoutingKey m.messageId m.modelDump (!publishFails n) ::
        (if publishFails n then []
          else .ackSent i m.messageId (!ackFails n) :: forwarded (n + 1) rest)

variable {i publishFails ackFails}

/-- The two agree exactly when no publish fails but that of the last frame. -/
theorem forwarded_eq_iff {frames : List Message} {n : ℕ} :
    forwarded i publishFails ackFails n frames = forwarding i publishFails ackFails n frames ↔
      ∀ k, k + 1 < frames.length → publishFails (n + k) = false := by
  induction frames generalizing n with
  | nil => simp [forwarded, forwarding]
  | cons m rest ih =>
      have hshift : (∀ k, k + 1 < (m :: rest).length → publishFails (n + k) = false) ↔
          (rest ≠ [] → publishFails n = false) ∧
            ∀ k, k + 1 < rest.length → publishFails (n + 1 + k) = false := by
        constructor
        · intro h
          refine ⟨fun hne => h 0 ?_, fun k hk => ?_⟩
          · simpa [List.length_pos_iff] using hne
          · rw [Nat.add_right_comm]
            exact h (k + 1) (by simpa using hk)
        · rintro ⟨hzero, hrest⟩ k hk
          cases k with
          | zero => exact hzero (by simpa [List.length_pos_iff] using hk)
          | succ k =>
              rw [← Nat.add_assoc, Nat.add_right_comm]
              exact hrest k (by simpa using hk)
      rw [hshift]
      cases hfails : publishFails n with
      | true =>
          cases rest with
          | nil => simp [forwarded, forwarding, hfails]
          | cons m' rest => simp [forwarded, forwarding, hfails]
      | false => simp [forwarded, forwarding, hfails, ih]

/-- The loop's text, for the next frame. -/
theorem run_recieveFromProvider_cons (m : Message) (rest : List Message) :
    (ProviderGatewayWorker.recieveFromProvider (m :: rest)).run =
      .perform (.publish topology.providerInRoutingKey m.messageId m.modelDump) fun
        | .error _ => .done (.ok ())
        | .ok _ => .perform (.sendAck m.messageId) fun _ =>
            (ProviderGatewayWorker.recieveFromProvider rest).run := by
  refine congrArg (Program.perform (Effect.publish topology.providerInRoutingKey m.messageId
    m.modelDump)) (funext fun r => ?_)
  cases r with
  | error x => rfl
  | ok a =>
      refine congrArg (Program.perform (Effect.sendAck m.messageId)) (funext fun r => ?_)
      cases r <;> rfl

omit [Codecs] in
/-- A remote call is recorded with its success. -/
theorem World.log_of_call {w w' : World} {c : Choice} {ended : Option String → Entry}
    {entry : Bool → Entry} {exn : String → Exn} {r : Except Exn Unit}
    (hended : ∀ error, ended error = entry error.isNone) (h : w.call c ended exn = some (r, w')) :
    w'.log = entry r.toBool :: w.log := by
  unfold World.call at h
  split at h <;> cases h <;> exact congrArg (· :: w.log) (hended _)

/-- The loop forwards frames up to the first one whose publish fails. -/
theorem forwards {frames : List Message} {w w' : World} {cs : List Choice} {r : Except Exn Unit}
    (hrun : machine.complete i (ProviderGatewayWorker.recieveFromProvider frames).run cs w =
      some (r, w'))
    (hfollows : ∀ (l : History) e, w.log <:+ l → (e :: l) <:+ w'.log →
      Follows i publishFails ackFails l e) :
    w.log <:+ w'.log ∧ w'.log.actions i =
      (forwarded i publishFails ackFails (w.log.publishes i) frames).reverse ++
        w.log.actions i := by
  induction frames generalizing w cs with
  | nil =>
      obtain ⟨-, -, rfl⟩ := Machine.complete_done hrun
      exact ⟨List.suffix_refl _, rfl⟩
  | cons m rest ih =>
      rw [run_recieveFromProvider_cons] at hrun
      obtain ⟨c, cs₁, r₁, w₁, -, hexec₁, hrun⟩ := Machine.complete_perform hrun
      have hlog₁ : w₁.log = .published i topology.providerInRoutingKey m.messageId m.modelDump
          r₁.toBool :: w.log := World.log_of_call (fun _ => rfl) hexec₁
      have hpublish : w₁.log <:+ w'.log → r₁.toBool = !publishFails (w.log.publishes i) :=
        fun hsuffix => hfollows w.log (.published i topology.providerInRoutingKey m.messageId
          m.modelDump r₁.toBool) (List.suffix_refl _) (hlog₁ ▸ hsuffix) rfl
      have hacts₁ : w₁.log.actions i = .published i topology.providerInRoutingKey m.messageId
          m.modelDump r₁.toBool :: w.log.actions i := by
        simp [hlog₁, History.actions, History.actionOf, Entry.thread, Entry.isAction]
      have hcount₁ : w₁.log.publishes i = w.log.publishes i + 1 := by
        rw [History.publishes, hacts₁]
        exact List.countP_cons_of_pos rfl
      cases r₁ with
      | error x =>
          obtain ⟨-, -, rfl⟩ := Machine.complete_done hrun
          have hfails : publishFails (w.log.publishes i) = true := by
            simpa [Except.toBool] using hpublish (List.suffix_refl _)
          refine ⟨hlog₁ ▸ List.suffix_cons _ _, ?_⟩
          simp [forwarded, hfails, hacts₁, Except.toBool]
      | ok a =>
          obtain ⟨c, cs₂, r₂, w₂, -, hexec₂, hrun⟩ := Machine.complete_perform hrun
          have hlog₂ : w₂.log = .ackSent i m.messageId r₂.toBool :: w₁.log :=
            World.log_of_call (fun _ => rfl) hexec₂
          have hacts₂ : w₂.log.actions i = .ackSent i m.messageId r₂.toBool :: w₁.log.actions i := by
            simp [hlog₂, History.actions, History.actionOf, Entry.thread, Entry.isAction]
          have hcount₂ : w₂.log.publishes i = w.log.publishes i + 1 := by
            rw [← hcount₁, History.publishes, hacts₂]
            exact List.countP_cons_of_neg (by simp [Entry.isPublished])
          have hsuffix₁ : w.log <:+ w₁.log := hlog₁ ▸ List.suffix_cons _ _
          have hsuffix₂ : w₁.log <:+ w₂.log := hlog₂ ▸ List.suffix_cons _ _
          obtain ⟨hsuffix, hacts⟩ := ih hrun fun l e hl he =>
            hfollows l e (hsuffix₁.trans (hsuffix₂.trans hl)) he
          have hfails : publishFails (w.log.publishes i) = false := by
            simpa [Except.toBool] using hpublish (hsuffix₂.trans hsuffix)
          have hack : r₂.toBool = !ackFails (w₁.log.publishes i - 1) :=
            hfollows w₁.log (.ackSent i m.messageId r₂.toBool) hsuffix₁ (hlog₂ ▸ hsuffix) rfl
          refine ⟨hsuffix₁.trans (hsuffix₂.trans hsuffix), ?_⟩
          rw [hacts, hacts₂, hacts₁, hcount₂, hack, hcount₁]
          simp [forwarded, hfails, Except.toBool]

/-- The loop publishes every frame in turn, and acknowledges those whose publish succeeds, if and
only if no publish fails but that of the last frame. -/
theorem forwards_iff {frames : List Message} {w w' : World} {cs : List Choice}
    {r : Except Exn Unit} (hfresh : w.log.actions i = [])
    (hrun : machine.complete i (ProviderGatewayWorker.recieveFromProvider frames).run cs w =
      some (r, w'))
    (hfollows : ∀ (l : History) e, w.log <:+ l → (e :: l) <:+ w'.log →
      Follows i publishFails ackFails l e) :
    (w'.log.actions i).reverse = forwarding i publishFails ackFails 0 frames ↔
      ∀ n, n + 1 < frames.length → publishFails n = false := by
  have hzero : w.log.publishes i = 0 := by simp [History.publishes, hfresh]
  rw [(forwards hrun hfollows).2, hzero, hfresh, List.append_nil, List.reverse_reverse,
    forwarded_eq_iff]
  simp

end General

/-- Frames of ticket 1. -/
def sampleFrames : List Message :=
  [recommendation 10 1 .accept, recommendation 11 1 .accept, cancellationApplied 12 1]

/-- A complete run of the loop on `sampleFrames`, from the initial state. -/
theorem exists_forwarding (publishFails ackFails : ℕ → Bool) (cs : List Choice) (n : ℕ)
    (h : ((machine.complete 0 (ProviderGatewayWorker.recieveFromProvider sampleFrames).run cs
      {}).any fun rw => rw.2.log.publishes 0 = n && rw.2.log.tails.all fun
        | [] => true
        | e :: l => Follows 0 publishFails ackFails l e) = true) :
    ∃ r w', machine.complete 0 (ProviderGatewayWorker.recieveFromProvider sampleFrames).run cs {} =
        some (r, w') ∧ w'.log.publishes 0 = n ∧
      ∀ (l : History) e, ([] : History) <:+ l → (e :: l) <:+ w'.log →
        Follows 0 publishFails ackFails l e := by
  obtain ⟨⟨r, w'⟩, hrun, hcheck⟩ := (Option.any_eq_true _ _).mp h
  obtain ⟨hcount, hfollows⟩ := (Bool.and_eq_true _ _).mp hcheck
  exact ⟨r, w', hrun, of_decide_eq_true hcount, fun l e _ => follows_of_tails hfollows l e⟩

/-- The first acknowledgement and the last publish fail. -/
theorem forwards_iff_acks : ∃ w' : World,
    (w'.log.actions 0).reverse = forwarding 0 (· = 2) (· = 0) 0 sampleFrames := by
  obtain ⟨r, w', hrun, -, hfollows⟩ := exists_forwarding (· = 2) (· = 0)
    [.succeed, .raises "closed", .succeed, .succeed, .raises "down"] 3 (by decide +kernel)
  refine ⟨w', (forwards_iff rfl hrun hfollows).mpr fun n hn => ?_⟩
  have hlt : n + 1 < 3 := hn
  rw [decide_eq_false_iff_not]
  omega

/-- The publish of the first frame fails, and the other frames are not forwarded. -/
theorem forwarding_stops : ∃ cs r w',
    machine.complete 0 (ProviderGatewayWorker.recieveFromProvider sampleFrames).run cs {} =
      some (r, w') ∧
    (∀ (l : History) e, ([] : History) <:+ l → (e :: l) <:+ w'.log →
      Follows 0 (· = 0) (fun _ => false) l e) ∧
    (w'.log.actions 0).reverse ≠ forwarding 0 (· = 0) (fun _ => false) 0 sampleFrames := by
  obtain ⟨r, w', hrun, hcount, hfollows⟩ := exists_forwarding (· = 0) (fun _ => false)
    [.raises "down"] 1 (by decide +kernel)
  refine ⟨_, r, w', hrun, hfollows, fun heq => ?_⟩
  rw [History.publishes, ← List.countP_reverse, heq] at hcount
  revert hcount
  decide

end RiskProvider

import Stet.Client.Orchestrator

/-!
Secure sessions are torn down. A run of `Encrypt` or `Decrypt`, with any number of
EXTERNAL keys and any answers of the key managers, issues an `EndSession` right after
each operation on a secure session that the key manager answered, on the same session,
none after an operation that failed, and no other `EndSession`.

`TearsDown env t log` says this of the calls of `log` from position `t` on, each with the
answer the key manager gave at the time of the call. `Teardown env s s'` says that a run
from `s` to `s'` only appended to the log and kept that discipline; it is a preorder, so
`Keeps (Teardown env)` is proved for each function of the client from its statements. The
one statement with content is the secure-session call (`teardown_sessionOp`); every
other call is on no session.

The discipline does not make the outcome of a share the operation's alone: once the
operation has succeeded, an `EndSession` that fails fails the call, which fails a wrap,
and drops the share an unwrap would have kept.
-/

namespace Stet.Client

open Stet

/-- From position `t` of `log` on, an operation on a secure session is followed right
after by an `EndSession` on its session exactly when the key manager answered it, and
every `EndSession` comes right after an operation on its session. -/
structure TearsDown (env : Env) (t : Nat) (log : List Event) : Prop where
  ends : ∀ j op sc kp rn p, t ≤ j → log[j]? = some (SessionOp.event op sc kp rn p) →
    (log[j + 1]? = some (.endSession sc) ↔ ∃ b, op.answer env j sc kp rn p = .ok b)
  follows : ∀ k sc, t ≤ k → log[k]? = some (.endSession sc) →
    ∃ j op kp rn p, k = j + 1 ∧ t ≤ j ∧ log[j]? = some (SessionOp.event op sc kp rn p)

/-- A run from `s` to `s'` appended to the log, keeping the session discipline. -/
def Teardown (env : Env) {C : Type} (s s' : Sys C) : Prop :=
  s.log <+: s'.log ∧ TearsDown env s.log.length s'.log

section Relation

variable {env : Env} {C : Type}

theorem getElem?_of_prefix_of_lt {l₁ l₂ : List Event} (h : l₁ <+: l₂) {j : Nat}
    (hj : j < l₁.length) : l₂[j]? = l₁[j]? := by
  obtain ⟨t, rfl⟩ := h
  exact List.getElem?_append_left hj

theorem SessionOp.event_inj {op op' : SessionOp} {sc sc' : SessionClient}
    {kp kp' rn rn' : String} {p p' : Bytes} (h : op.event sc kp rn p = op'.event sc' kp' rn' p') :
    op = op' ∧ sc = sc' ∧ kp = kp' ∧ rn = rn' ∧ p = p' := by
  cases op <;> cases op' <;> simp [SessionOp.event] at h ⊢ <;> exact h

theorem SessionOp.event_ne_endSession (op : SessionOp) (sc sc' : SessionClient) (kp rn : String)
    (p : Bytes) : op.event sc kp rn p ≠ .endSession sc' := by
  cases op <;> simp [SessionOp.event]

/-- The discipline of what a run appended, read on the appended calls alone, each made at
its position after `log`. -/
theorem tearsDown_append_iff {log new : List Event} :
    TearsDown env log.length (log ++ new) ↔
      (∀ i (op : SessionOp) sc kp rn p, new[i]? = some (op.event sc kp rn p) →
        (new[i + 1]? = some (.endSession sc) ↔
          ∃ b, op.answer env (log.length + i) sc kp rn p = .ok b)) ∧
      (∀ i sc, new[i]? = some (.endSession sc) →
        ∃ (j : Nat) (op : SessionOp) (kp rn : String) (p : Bytes),
          i = j + 1 ∧ new[j]? = some (op.event sc kp rn p)) := by
  have hget : ∀ i, (log ++ new)[log.length + i]? = new[i]? := fun i => by
    rw [List.getElem?_append_right (by omega), Nat.add_sub_cancel_left]
  constructor
  · rintro ⟨he, hf⟩
    refine ⟨fun i op sc kp rn p hi => ?_, fun i sc hi => ?_⟩
    · have := he (log.length + i) op sc kp rn p (by omega) (by rw [hget]; exact hi)
      rwa [Nat.add_assoc, hget] at this
    · obtain ⟨j, op, kp, rn, p, hj, hle, hop⟩ := hf (log.length + i) sc (by omega)
        (by rw [hget]; exact hi)
      obtain ⟨j, rfl⟩ := Nat.exists_eq_add_of_le hle
      exact ⟨j, op, kp, rn, p, by omega, by rwa [hget] at hop⟩
  · rintro ⟨he, hf⟩
    refine ⟨fun j op sc kp rn p hj hop => ?_, fun k sc hk hs => ?_⟩
    · obtain ⟨i, rfl⟩ := Nat.exists_eq_add_of_le hj
      rw [hget] at hop
      rw [Nat.add_assoc, hget]
      exact he i op sc kp rn p hop
    · obtain ⟨i, rfl⟩ := Nat.exists_eq_add_of_le hk
      rw [hget] at hs
      obtain ⟨j, op, kp, rn, p, rfl, hop⟩ := hf i sc hs
      exact ⟨log.length + j, op, kp, rn, p, rfl, by omega, by rwa [hget]⟩

/-- Calls on no session keep the discipline. -/
theorem tearsDown_append {log new : List Event} (hn : ∀ e ∈ new, e.onSession = none) :
    TearsDown env log.length (log ++ new) := by
  refine tearsDown_append_iff.mpr ⟨fun i op sc kp rn p hi => ?_, fun i sc hi => ?_⟩
  · simpa using hn _ (List.getElem?_mem hi)
  · simpa [Event.onSession] using hn _ (List.getElem?_mem hi)

theorem Teardown.of_log {s s' : Sys C} {new : List Event} (hl : s'.log = s.log ++ new)
    (hn : ∀ e ∈ new, e.onSession = none) : Teardown env s s' :=
  ⟨⟨new, hl.symm⟩, hl ▸ tearsDown_append hn⟩

theorem Teardown.of_log_eq {s s' : Sys C} (hl : s'.log = s.log) : Teardown env s s' :=
  .of_log (by rw [hl, List.append_nil] : s'.log = s.log ++ []) (by simp)

theorem Teardown.setDeferred (s : Sys C) (d : List KmsHandle) :
    Teardown env s { s with deferred := d } :=
  .of_log_eq rfl

instance : IsRefl (Sys C) (Teardown env) := ⟨fun _ => .of_log_eq rfl⟩

instance : IsTrans (Sys C) (Teardown env) := by
  refine ⟨fun s s₁ s₂ ⟨hp₁, h₁⟩ ⟨hp₂, h₂⟩ => ⟨hp₁.trans hp₂, ?_, ?_⟩⟩ <;>
    have hlen := hp₁.length_le
  · intro j op sc kp rn p hj he
    by_cases hj₁ : s₁.log.length ≤ j
    · exact h₂.ends j op sc kp rn p hj₁ he
    · have he₁ := (getElem?_of_prefix_of_lt hp₂ (by omega)).symm.trans he
      by_cases hj₂ : j + 1 < s₁.log.length
      · rw [getElem?_of_prefix_of_lt hp₂ hj₂]
        exact h₁.ends j op sc kp rn p hj he₁
      · have hn : s₁.log[j + 1]? = none := List.getElem?_eq_none (by omega)
        rw [← h₁.ends j op sc kp rn p hj he₁, hn]
        refine ⟨fun hs => ?_, fun h => by cases h⟩
        obtain ⟨j', _, _, _, _, hj', hle, -⟩ := h₂.follows (j + 1) sc (by omega) hs
        omega
  · intro k sc hk he
    by_cases hk₁ : s₁.log.length ≤ k
    · obtain ⟨j, op, kp, rn, p, rfl, hj, hop⟩ := h₂.follows k sc hk₁ he
      exact ⟨j, op, kp, rn, p, rfl, by omega, hop⟩
    · obtain ⟨j, op, kp, rn, p, rfl, hj, hop⟩ :=
        h₁.follows k sc hk ((getElem?_of_prefix_of_lt hp₂ (by omega)).symm.trans he)
      exact ⟨j, op, kp, rn, p, rfl, hj, (getElem?_of_prefix_of_lt hp₂ (by omega)).trans hop⟩

theorem Teardown.record (s : Sys C) {e : Event} (he : e.onSession = none) :
    Teardown env s (s.record e) :=
  .of_log (rfl : (s.record e).log = s.log ++ [e]) (by simpa using he)

/-- An operation the key manager refused: no `EndSession` follows it. -/
theorem Teardown.op_error (s : Sys C) {op : SessionOp} {sc : SessionClient} {kp rn : String}
    {p : Bytes} {e : String} (ha : op.answer env s.log.length sc kp rn p = .error e) :
    Teardown env s (s.record (op.event sc kp rn p)) := by
  refine ⟨⟨_, rfl⟩, tearsDown_append_iff.mpr
    ⟨fun i op' sc' kp' rn' p' hi => ?_, fun i sc' hi => ?_⟩⟩
  · rcases i with _ | i
    · obtain ⟨rfl, rfl, rfl, rfl, rfl⟩ := SessionOp.event_inj (Option.some.inj hi)
      simp [ha]
    · simp at hi
  · rcases i with _ | i
    · exact absurd (Option.some.inj hi) (SessionOp.event_ne_endSession _ _ _ _ _ _)
    · simp at hi

/-- An operation the key manager answered: an `EndSession` on its session right after
it. -/
theorem Teardown.op_ok (s : Sys C) {op : SessionOp} {sc : SessionClient} {kp rn : String}
    {p b : Bytes} (ha : op.answer env s.log.length sc kp rn p = .ok b) :
    Teardown env s ((s.record (op.event sc kp rn p)).record (.endSession sc)) := by
  have hl : ((s.record (op.event sc kp rn p)).record (.endSession sc)).log =
      s.log ++ [op.event sc kp rn p, .endSession sc] := by simp [Sys.record]
  refine ⟨⟨_, hl.symm⟩, hl ▸ tearsDown_append_iff.mpr
    ⟨fun i op' sc' kp' rn' p' hi => ?_, fun i sc' hi => ?_⟩⟩
  · rcases i with _ | _ | i
    · obtain ⟨rfl, rfl, rfl, rfl, rfl⟩ := SessionOp.event_inj (Option.some.inj hi)
      simp [ha]
    · exact absurd (Option.some.inj hi).symm (SessionOp.event_ne_endSession _ _ _ _ _ _)
    · simp at hi
  · rcases i with _ | _ | i
    · exact absurd (Option.some.inj hi) (SessionOp.event_ne_endSession _ _ _ _ _ _)
    · obtain rfl : sc = sc' := by simpa using hi
      exact ⟨0, op, kp, rn, p, rfl, rfl⟩
    · simp at hi

end Relation

/-! ### Every function of the client keeps it -/

section Calls

variable (env : Env) {C α : Type}

theorem teardown_of_record {x : Go (Sys C) α}
    (hx : ∀ s, ∃ e, e.onSession = none ∧ resultState (x s) = s.record e) :
    Keeps (Teardown env) x := fun s => by
  obtain ⟨e, he, hr⟩ := hx s
  exact hr ▸ .record s he

theorem teardown_external {ev : Event} (hev : ev.onSession = none) (svc : Nat → Except String α) :
    Keeps (Teardown env) (external ev svc : Go (Sys C) α) :=
  teardown_of_record env fun s => ⟨ev, hev, by simp only [external_apply]; split <;> rfl⟩

theorem teardown_kmsCall (h : KmsHandle) {ev : Event} (hev : ev.onSession = none)
    (svc : Nat → Except String α) : Keeps (Teardown env) (kmsCall h ev svc : Go (Sys C) α) := by
  intro s
  dsimp only [kmsCall]
  split
  · split
    · exact .record s hev
    · exact teardown_external env hev svc s
  · exact .record s hev

theorem teardown_kmsClose (h : KmsHandle) : Keeps (Teardown env) (kmsClose h : Go (Sys C) Unit) :=
  teardown_of_record env fun s => ⟨.close h, rfl, by dsimp only [kmsClose]; split <;> rfl⟩

theorem teardown_newKeyManagementClient (userAgent : String) :
    Keeps (Teardown env) (newKeyManagementClient env userAgent : Go (Sys C) _) :=
  teardown_of_record env fun s => by
    dsimp only [newKeyManagementClient]
    split <;> exact ⟨_, by rfl, rfl⟩

theorem teardown_initializeKMSClientAs [HasKmsClient C] (userAgentOf : C → String) :
    Keeps (Teardown env) (initializeKMSClientAs env userAgentOf) := by
  unfold initializeKMSClientAs
  refine .get_bind fun s => ?_
  dsimp only
  split
  · exact .bind (teardown_newKeyManagementClient env _) fun ⟨_, err⟩ =>
      .bind (.modify fun _ => .of_log_eq rfl) fun _ => by
        cases err <;> first | exact .pure _ | exact .fail _
  · exact .pure _

theorem teardown_getKekURIMetadata (h : KmsHandle) (kek : KekInfo) :
    Keeps (Teardown env) (getKekURIMetadata env h kek : Go (Sys C) _) := by
  cases kek with
  | kekUri uri =>
      simp only [getKekURIMetadata]
      split
      · exact .fail _
      · exact .bind (.wrapError _ (teardown_kmsCall env _ (by rfl) _)) fun _ => .ofExcept _
  | _ => exact .fail _

theorem teardown_wrapKMSShareOn (h : KmsHandle) (share : Bytes) (keyName : String) :
    Keeps (Teardown env) (wrapKMSShareOn env h share keyName : Go (Sys C) _) := by
  unfold wrapKMSShareOn
  refine .bind (.wrapError _ (teardown_kmsCall env _ (by rfl) _)) fun r => ?_
  split
  · exact .fail _
  · exact .bind (.deref _) fun _ => by split <;> first | exact .fail _ | exact .pure _

theorem teardown_unwrapKMSShareOn (h : KmsHandle) (wrapped : Bytes) (keyName : String) :
    Keeps (Teardown env) (unwrapKMSShareOn env h wrapped keyName : Go (Sys C) _) := by
  unfold unwrapKMSShareOn
  exact .bind (.wrapError _ (teardown_kmsCall env _ (by rfl) _)) fun _ =>
    .bind (.deref _) fun _ => by split <;> first | exact .fail _ | exact .pure _

/-- The one call on a session: its operation, and the `EndSession` the operation's success
calls for. -/
theorem teardown_sessionOp (op : SessionOp) (sc : SessionClient) (kp rn pre : String)
    (p : Bytes) : Keeps (Teardown env) (do
      let blob ← Go.wrapError pre (op.call env sc kp rn p)
      Go.wrapError "error ending secure session: " (endSession env sc)
      pure blob : Go (Sys C) Bytes) := by
  intro s
  simp only [Go.bind_apply, Go.wrapError, SessionOp.call_apply]
  cases ha : op.answer env s.log.length sc kp rn p with
  | error e => exact .op_error s ha
  | ok b =>
      simp only [endSession, external_apply, Sys.record_log, List.length_append,
        List.length_singleton]
      cases env.endSession (s.log.length + 1) sc <;> exact .op_ok s ha

theorem teardown_ekmSecureSessionWith {parse : String → Except String (String × String)}
    {clientFor : String → Go (Sys C) SessionClient}
    (hc : ∀ addr, Keeps (Teardown env) (clientFor addr)) (op : SessionOp) (pre : String)
    (p : Bytes) (md : KekMetadata) :
    Keeps (Teardown env) (ekmSecureSessionWith env parse clientFor op pre p md) :=
  .bind (.ofExcept _) fun ⟨addr, _⟩ => .bind (hc addr) fun sc =>
    teardown_sessionOp env op sc _ _ pre p

end Calls

section Client

variable (env : Env) (p : Pipeline) (keys : AsymmetricKeys)

theorem teardown_ekmClientFor (addr : String) (md : KekMetadata) :
    Keeps (Teardown env) (ekmClientFor env addr md) := by
  refine .get_bind fun s => ?_
  dsimp only
  split
  · exact .pure _
  · exact .bind (teardown_external env (by rfl) _) fun _ =>
      .wrapError _ (teardown_external env (by rfl) _)

theorem teardown_ekmSecureSession (op : SessionOp) (pre : String) (b : Bytes) (md : KekMetadata) :
    Keeps (Teardown env) (ekmSecureSession env op pre b md) :=
  teardown_ekmSecureSessionWith env (fun addr => teardown_ekmClientFor env addr md) op pre b md

theorem teardown_wrapWithMetadata (kmd : KekMetadata) (share : Bytes) :
    Keeps (Teardown env) (wrapWithMetadata env kmd share) := by
  unfold wrapWithMetadata
  split
  · exact .wrapError _ (.get_bind fun _ => teardown_wrapKMSShareOn env _ _ _)
  · exact .wrapError _ (.get_bind fun _ => teardown_wrapKMSShareOn env _ _ _)
  · exact .wrapError _ (teardown_ekmSecureSession env _ _ _ _)
  · exact .fail _

theorem teardown_unwrapWithMetadata (kmd : KekMetadata) (w : WrappedShare) :
    Keeps (Teardown env) (unwrapWithMetadata env kmd w) := by
  unfold unwrapWithMetadata
  split
  · exact .attempt (.get_bind fun _ => teardown_unwrapKMSShareOn env _ _ _)
  · exact .attempt (.get_bind fun _ => teardown_unwrapKMSShareOn env _ _ _)
  · exact .attempt (teardown_ekmSecureSession env _ _ _ _)
  · exact .pure _

theorem teardown_wrapShare (kek : KekInfo) (share : Bytes) :
    Keeps (Teardown env) (wrapShare env keys kek share) := by
  cases kek with
  | rsaFingerprint _ =>
      exact .bind (.wrapError _ (.ofExcept _)) fun _ =>
        .bind (.wrapError _ (.ofExcept _)) fun _ => .pure _
  | kekUri _ =>
      exact .bind (.wrapError _ (teardown_initializeKMSClientAs env _)) fun _ =>
        .bind (.modify fun _ => .of_log_eq rfl) fun _ => .get_bind fun _ =>
          .bind (.wrapError _ (teardown_getKekURIMetadata env _ _)) fun _ =>
            .bind (teardown_wrapWithMetadata env _ _) fun _ => .pure _
  | unset => exact .fail _

theorem teardown_unwrapAndValidateShare (kek : KekInfo) (w : WrappedShare) :
    Keeps (Teardown env) (unwrapAndValidateShare env keys kek w) := by
  refine .bind ?_ fun _ => .pure _
  cases kek with
  | rsaFingerprint _ =>
      simp only [unwrapShare]
      split
      · exact .pure _
      · split <;> exact .pure _
  | kekUri _ =>
      refine .bind (.attempt (teardown_initializeKMSClientAs env _)) fun r => ?_
      cases r
      · exact .pure _
      · exact .bind (.modify fun _ => .of_log_eq rfl) fun _ => .get_bind fun _ =>
          .bind (.wrapError _ (teardown_getKekURIMetadata env _ _)) fun _ =>
            .bind (teardown_unwrapWithMetadata env _ _) fun r => by cases r <;> exact .pure _
  | unset => exact .pure _

theorem teardown_wrapSharesLoop (kekInfos : List KekInfo) (i : Nat) (pts : List Bytes) :
    Keeps (Teardown env) (wrapSharesLoop env keys kekInfos i pts) := by
  induction pts generalizing i with
  | nil => exact .pure _
  | cons pt pts ih =>
      exact .bind (.index _ _) fun _ => .bind (teardown_wrapShare env keys _ _) fun _ =>
        .bind (ih _) fun _ => .pure _

theorem teardown_unwrapAndValidateLoop (kekInfos : List KekInfo) (i : Nat)
    (ws : List WrappedShare) :
    Keeps (Teardown env) (unwrapAndValidateLoop env keys kekInfos i ws) := by
  induction ws generalizing i with
  | nil => exact .pure _
  | cons w ws ih =>
      exact .bind (.index _ _) fun _ =>
        .bind (teardown_unwrapAndValidateShare env keys _ _) fun _ => .bind (ih _) fun _ => .pure _

theorem teardown_runDeferred (hs : List KmsHandle) :
    Keeps (Teardown env) (runDeferred hs : Go (Sys StetClient) Unit) := by
  induction hs with
  | nil => exact .pure _
  | cons h hs ih => exact .bind (teardown_kmsClose env h) fun _ => ih

/-- A body with `defer` keeps the discipline when its body does: the body runs on a
stack of its own, then only `Close` calls follow. -/
theorem teardown_withDeferred {α : Type} {body : Go (Sys StetClient) α}
    (hb : Keeps (Teardown env) body) : Keeps (Teardown env) (withDeferred body) := by
  intro s
  rw [resultState_withDeferred]
  exact trans_of (Teardown env) (.setDeferred s []) (trans_of (Teardown env)
    (hb { s with deferred := [] })
    (trans_of (Teardown env) (.setDeferred _ s.deferred) (teardown_runDeferred env _ _)))

theorem teardown_wrapShares (pts : List Bytes) (kekInfos : List KekInfo) :
    Keeps (Teardown env) (wrapShares env keys pts kekInfos) := by
  refine teardown_withDeferred env ?_
  split
  exacts [.fail _, teardown_wrapSharesLoop env keys _ _ _]

theorem teardown_unwrapAndValidateShares (ws : List WrappedShare) (kekInfos : List KekInfo) :
    Keeps (Teardown env) (unwrapAndValidateShares env keys ws kekInfos) := by
  refine teardown_withDeferred env ?_
  split
  exacts [.fail _, teardown_unwrapAndValidateLoop env keys _ _ _]

theorem teardown_of_output {α : Type} {x : Go (Sys StetClient) α}
    (hx : ∀ s, ∃ o, resultState (x s) = { s with output := o }) : Keeps (Teardown env) x :=
  fun s => by
    obtain ⟨o, ho⟩ := hx s
    exact .of_log_eq (by rw [ho])

theorem teardown_encrypt (input : Bytes) (config : Option EncryptConfig) (blobID : String) :
    Keeps (Teardown env) (encrypt env p keys input config blobID) := by
  cases config with
  | none => exact .fail _
  | some config =>
      exact .get_bind fun _ => .bind (.wrapError _ (.ofExcept _)) fun _ =>
        .bind (.wrapError _ (teardown_wrapShares env keys _ _)) fun _ =>
          .bind (.wrapError _ (.ofExcept _)) fun _ =>
            .bind (.wrapError _ (.ofExcept _)) fun _ =>
              .bind (.wrapError _ (teardown_of_output env (writeOutput_frame _))) fun _ =>
                .bind (.wrapError _ (teardown_of_output env (writeOutput_frame _))) fun _ =>
                  .bind (.wrapError _ (teardown_of_output env (writeStream_frame _))) fun _ =>
                    .pure _

theorem teardown_decrypt (input : Bytes) (config : Option DecryptConfig) :
    Keeps (Teardown env) (decrypt env p keys input config) := by
  cases config with
  | none => exact .fail _
  | some config =>
      refine .bind (.wrapError _ (.ofExcept _)) fun ⟨metadata, rest⟩ => ?_
      dsimp only
      split
      · exact .fail _
      · exact .bind (.wrapError _ (teardown_unwrapAndValidateShares env keys _ _)) fun _ =>
          .bind (.wrapError _ (.ofExcept _)) fun _ =>
            .bind (.wrapError _ (.ofExcept _)) fun _ =>
              .bind (.wrapError _ (teardown_of_output env (writeStream_frame _))) fun _ =>
                .pure _

end Client

end Stet.Client

import Stet.Client.Orchestrator

/-!
The KMS client field of one `StetClient` over a sequence of `Encrypt` and `Decrypt`
calls.

Between two calls the state is `Settled`: nothing is deferred, and the field is nil or
`dead`, that is the nil client a failed constructor stored, or a client that a deferred
`Close` has closed. Inside a share loop it is `Deferring`: every deferred `Close` is on
the field's client, and a client in the field is deferred or already dead, so that the
deferred calls at the end of the loop leave it dead. Every state a program reaches from a
new `StetClient` is settled (`settled_of_reachable`).

Only `initializeKMSClient` writes the field, and only while it is nil: from a state whose
field holds `h`, a call leaves the client as it was and issues every Cloud KMS RPC on `h`
(`RpcsOn`). So once the field is set, every RPC of every later call is issued on a dead
client.
-/

namespace Stet.Client

open Stet

/-! ### Dead clients -/

/-- The KMS client can serve no RPC any more: the nil client a failed constructor
stored, or a client closed since it was built. -/
def dead (log : List Event) : KmsHandle → Bool
  | .typedNil => true
  | .client id => decide (Event.close (.client id) ∈ log.drop id)
  | .nil => false

theorem dead_append {log : List Event} {h : KmsHandle} (hd : dead log h) (new : List Event) :
    dead (log ++ new) h := by
  cases h with
  | client id =>
      simp only [dead, decide_eq_true_eq, List.drop_append_eq_append_drop, List.mem_append] at hd ⊢
      exact .inl hd
  | typedNil => rfl
  | nil => cases hd

theorem live_eq_false_of_dead {log : List Event} {h : KmsHandle} (hd : dead log h) :
    live log h = false := by
  cases h with
  | client id => simp_all [dead, live]
  | typedNil | nil => rfl

/-- Every Cloud KMS RPC in the log was issued on a client live at that point of it. -/
def rpcsOnLive (log : List Event) : Bool :=
  (List.range log.length).all fun i =>
    match log[i]?.bind Event.rpcOn with
    | some h => live (log.take i) h
    | none => true

/-- An RPC issued on a dead client, after `log`, breaks `rpcsOnLive`. -/
theorem rpcsOnLive_eq_false {log new : List Event} {h : KmsHandle} (hd : dead log h)
    {e : Event} (he : e ∈ new) (hr : e.rpcOn = some h) : rpcsOnLive (log ++ new) = false := by
  obtain ⟨j, hj, rfl⟩ := List.getElem_of_mem he
  simp only [rpcsOnLive, List.all_eq_false, List.mem_range]
  refine ⟨log.length + j, by simp [hj], ?_⟩
  have hget : (log ++ new)[log.length + j]? = some new[j] := by
    rw [List.getElem?_append_right (by omega), Nat.add_sub_cancel_left, List.getElem?_eq_getElem hj]
  rw [hget, Option.some_bind, hr]
  simp only [Bool.not_eq_true]
  rw [List.take_append_eq_append_take, List.take_of_length_le (by omega)]
  exact live_eq_false_of_dead (dead_append hd _)

/-! ### Calls on a set field -/

/-- From any state whose KMS field holds `h`, the call leaves the client as it was, only
appends to the log, and issues every Cloud KMS RPC it makes on `h`. -/
def RpcsOn {α : Type} (h : KmsHandle) (x : Go (Sys StetClient) α) : Prop :=
  ∀ s : Sys StetClient, s.client.kmsClient = h → ∃ new,
    (resultState (x s)).client = s.client ∧ (resultState (x s)).log = s.log ++ new ∧
      ∀ e ∈ new, ∀ h', e.rpcOn = some h' → h' = h

namespace RpcsOn

variable {α β : Type} {h : KmsHandle}

theorem of_result {x : Go (Sys StetClient) α} (hx : ∀ s, resultState (x s) = s) : RpcsOn h x :=
  fun s _ => ⟨[], by rw [hx], by rw [hx, List.append_nil], by simp⟩

theorem pure (a : α) : RpcsOn h (Pure.pure a : Go (Sys StetClient) α) := of_result fun _ => rfl

theorem fail (msg : String) : RpcsOn h (Go.fail msg : Go (Sys StetClient) α) :=
  of_result fun _ => rfl

theorem ofExcept (r : Except String α) : RpcsOn h (Go.ofExcept r : Go (Sys StetClient) α) := by
  cases r
  exacts [fail _, pure _]

theorem index (xs : List α) (i : Nat) : RpcsOn h (Go.index xs i : Go (Sys StetClient) α) := by
  unfold Go.index
  split
  exacts [pure _, of_result fun _ => rfl]

theorem record {s : Sys StetClient} {e : Event} (he : ∀ h', e.rpcOn = some h' → h' = h) :
    ∃ new, (s.record e).client = s.client ∧ (s.record e).log = s.log ++ new ∧
      ∀ e' ∈ new, ∀ h', e'.rpcOn = some h' → h' = h :=
  ⟨[e], rfl, rfl, by simpa using he⟩

theorem external {ev : Event} (hev : ev.rpcOn = none) (svc : Nat → Except String α) :
    RpcsOn h (external ev svc) := by
  intro s _
  simp only [external_apply]
  split <;> exact record (by simp [hev])

theorem kmsCall {ev : Event} (hev : ev.rpcOn = some h) (svc : Nat → Except String α) :
    RpcsOn h (kmsCall h ev svc) := by
  have he : ∀ h', ev.rpcOn = some h' → h' = h := fun h' hh => by simpa [hev] using hh.symm
  intro s _
  unfold Stet.kmsCall
  split
  · split
    · exact record he
    · simp only [external_apply]
      split <;> exact record he
  · exact record he

theorem bind {x : Go (Sys StetClient) α} {f : α → Go (Sys StetClient) β} (hx : RpcsOn h x)
    (hf : ∀ a, RpcsOn h (f a)) : RpcsOn h (x >>= f) := by
  intro s hs
  obtain ⟨n₁, hc₁, hl₁, hr₁⟩ := hx s hs
  rw [Go.bind_apply]
  cases hxs : x s with
  | ok a s₁ =>
      simp only [hxs, resultState] at hc₁ hl₁
      obtain ⟨n₂, hc₂, hl₂, hr₂⟩ := hf a s₁ (by rw [hc₁, hs])
      exact ⟨n₁ ++ n₂, hc₂.trans hc₁, by rw [hl₂, hl₁, List.append_assoc],
        fun e he => (List.mem_append.mp he).elim (hr₁ e) (hr₂ e)⟩
  | error e s₁ =>
      simp only [hxs] at hc₁ hl₁
      exact ⟨n₁, hc₁, hl₁, hr₁⟩

theorem get_bind {f : Sys StetClient → Go (Sys StetClient) β}
    (hf : ∀ s, s.client.kmsClient = h → RpcsOn h (f s)) : RpcsOn h (get >>= f) :=
  fun s hs => hf s hs s hs

theorem modify {f : Sys StetClient → Sys StetClient}
    (hf : ∀ s, (f s).client = s.client ∧ (f s).log = s.log) :
    RpcsOn h (modify f : Go (Sys StetClient) Unit) :=
  fun s _ => ⟨[], (hf s).1, (hf s).2.trans (List.append_nil _).symm, by simp⟩

theorem wrapError {x : Go (Sys StetClient) α} (pre : String) (hx : RpcsOn h x) :
    RpcsOn h (Go.wrapError pre x) := by
  intro s hs
  simpa only [Go.resultState_wrapError] using hx s hs

theorem attempt {x : Go (Sys StetClient) α} (hx : RpcsOn h x) : RpcsOn h (Go.attempt x) := by
  intro s hs
  simpa only [Go.resultState_attempt] using hx s hs

end RpcsOn

section Rpcs

variable (env : Env) (p : Pipeline) (keys : AsymmetricKeys) {h : KmsHandle}

theorem rpcsOn_initializeKMSClient (hn : h ≠ .nil) : RpcsOn h (initializeKMSClient env) :=
  fun s hs => by
    rw [initializeKMSClient_of_ne_nil env (hs ▸ hn)]
    exact ⟨[], rfl, by simp [resultState], by simp⟩

theorem rpcsOn_wrapKMSShareOn (share : Bytes) (keyName : String) :
    RpcsOn h (wrapKMSShareOn env h share keyName) := by
  unfold wrapKMSShareOn
  refine .bind (.wrapError _ (.kmsCall (by rfl) _)) fun r => ?_
  split
  · exact .fail _
  · exact .bind (by cases r.ciphertextCrc32C <;> exact .of_result fun _ => rfl) fun _ => by
      split
      exacts [.fail _, .pure _]

theorem rpcsOn_unwrapKMSShareOn (wrapped : Bytes) (keyName : String) :
    RpcsOn h (unwrapKMSShareOn env h wrapped keyName) := by
  unfold unwrapKMSShareOn
  refine .bind (.wrapError _ (.kmsCall (by rfl) _)) fun r => ?_
  refine .bind (by cases r.plaintextCrc32C <;> exact .of_result fun _ => rfl) fun _ => ?_
  split
  exacts [.fail _, .pure _]

theorem rpcsOn_getKekURIMetadata (kek : KekInfo) : RpcsOn h (getKekURIMetadata env h kek) := by
  cases kek with
  | kekUri uri =>
      simp only [getKekURIMetadata]
      split
      · exact .fail _
      · exact .bind (.wrapError _ (.kmsCall (by rfl) _)) fun _ => .ofExcept _
  | _ => exact .fail _

theorem rpcsOn_ekmSecureSession (op : SessionOp) (pre : String) (payload : Bytes)
    (md : KekMetadata) : RpcsOn h (ekmSecureSession env op pre payload md) := by
  unfold ekmSecureSession
  refine .bind (.ofExcept _) fun x => ?_
  obtain ⟨addr, kp⟩ := x
  dsimp only
  refine .bind ?_ fun sc => .bind (.wrapError _ ?_) fun _ =>
    .bind (.wrapError _ (.external (by rfl) _)) fun _ => .pure _
  · refine .get_bind fun s _ => ?_
    dsimp only
    split
    · exact .pure _
    · exact .bind (.external (by rfl) _) fun _ => .wrapError _ (.external (by rfl) _)
  · cases op <;> simp only [SessionOp.call, confidentialWrap, confidentialUnwrap] <;>
      exact .external (by rfl) _

theorem rpcsOn_wrapWithMetadata (kmd : KekMetadata) (share : Bytes) :
    RpcsOn h (wrapWithMetadata env kmd share) := by
  unfold wrapWithMetadata
  split
  · exact .wrapError _ (.get_bind fun s hs => hs ▸ rpcsOn_wrapKMSShareOn env _ _)
  · exact .wrapError _ (.get_bind fun s hs => hs ▸ rpcsOn_wrapKMSShareOn env _ _)
  · exact .wrapError _ (rpcsOn_ekmSecureSession env _ _ _ _)
  · exact .fail _

theorem rpcsOn_unwrapWithMetadata (kmd : KekMetadata) (w : WrappedShare) :
    RpcsOn h (unwrapWithMetadata env kmd w) := by
  unfold unwrapWithMetadata
  split
  · exact .attempt (.get_bind fun s hs => hs ▸ rpcsOn_unwrapKMSShareOn env _ _)
  · exact .attempt (.get_bind fun s hs => hs ▸ rpcsOn_unwrapKMSShareOn env _ _)
  · exact .attempt (rpcsOn_ekmSecureSession env _ _ _ _)
  · exact .pure _

theorem rpcsOn_wrapShare (hn : h ≠ .nil) (kek : KekInfo) (share : Bytes) :
    RpcsOn h (wrapShare env keys kek share) := by
  cases kek with
  | rsaFingerprint _ =>
      exact .bind (.wrapError _ (.ofExcept _)) fun _ =>
        .bind (.wrapError _ (.ofExcept _)) fun _ => .pure _
  | kekUri _ =>
      exact .bind (.wrapError _ (rpcsOn_initializeKMSClient env hn)) fun _ =>
        .bind (.modify fun _ => ⟨rfl, rfl⟩) fun _ => .get_bind fun s hs =>
          .bind (.wrapError _ (hs ▸ rpcsOn_getKekURIMetadata env _)) fun _ =>
            .bind (rpcsOn_wrapWithMetadata env _ _) fun _ => .pure _
  | unset => exact .fail _

theorem rpcsOn_unwrapAndValidateShare (hn : h ≠ .nil) (kek : KekInfo) (w : WrappedShare) :
    RpcsOn h (unwrapAndValidateShare env keys kek w) := by
  refine .bind ?_ fun _ => .pure _
  cases kek with
  | rsaFingerprint _ =>
      simp only [unwrapShare]
      split
      · exact .pure _
      · split <;> exact .pure _
  | kekUri _ =>
      refine .bind (.attempt (rpcsOn_initializeKMSClient env hn)) fun r => ?_
      cases r
      · exact .pure _
      · exact .bind (.modify fun _ => ⟨rfl, rfl⟩) fun _ => .get_bind fun s hs =>
          .bind (.wrapError _ (hs ▸ rpcsOn_getKekURIMetadata env _)) fun _ =>
            .bind (rpcsOn_unwrapWithMetadata env _ _) fun r => by cases r <;> exact .pure _
  | unset => exact .pure _

theorem rpcsOn_runDeferred (hs : List KmsHandle) : RpcsOn h (runDeferred hs) := by
  induction hs with
  | nil => exact .pure _
  | cons k hs ih =>
      refine .bind (fun s _ => ?_) fun _ => ih
      cases k <;> exact RpcsOn.record (by simp [Event.rpcOn])

theorem rpcsOn_withDeferred {α : Type} {body : Go (Sys StetClient) α} (hb : RpcsOn h body) :
    RpcsOn h (withDeferred body) := by
  intro s hs
  obtain ⟨n₁, hc₁, hl₁, hr₁⟩ := hb { s with deferred := [] } hs
  obtain ⟨n₂, hc₂, hl₂, hr₂⟩ := rpcsOn_runDeferred (h := h)
    (resultState (body { s with deferred := [] })).deferred
    { resultState (body { s with deferred := [] }) with deferred := s.deferred }
    (by rw [← hs]; exact congrArg StetClient.kmsClient hc₁)
  rw [resultState_withDeferred]
  exact ⟨n₁ ++ n₂, hc₂.trans hc₁, by rw [hl₂]; simp [hl₁],
    fun e he => (List.mem_append.mp he).elim (hr₁ e) (hr₂ e)⟩

theorem rpcsOn_wrapSharesLoop (hn : h ≠ .nil) (kekInfos : List KekInfo) (i : Nat)
    (pts : List Bytes) : RpcsOn h (wrapSharesLoop env keys kekInfos i pts) := by
  induction pts generalizing i with
  | nil => exact .pure _
  | cons pt pts ih =>
      exact .bind (.index _ _) fun _ => .bind (rpcsOn_wrapShare env keys hn _ _) fun _ =>
        .bind (ih _) fun _ => .pure _

theorem rpcsOn_unwrapAndValidateLoop (hn : h ≠ .nil) (kekInfos : List KekInfo) (i : Nat)
    (ws : List WrappedShare) : RpcsOn h (unwrapAndValidateLoop env keys kekInfos i ws) := by
  induction ws generalizing i with
  | nil => exact .pure _
  | cons w ws ih =>
      exact .bind (.index _ _) fun _ =>
        .bind (rpcsOn_unwrapAndValidateShare env keys hn _ _) fun _ => .bind (ih _) fun _ => .pure _

theorem rpcsOn_wrapShares (hn : h ≠ .nil) (pts : List Bytes) (kekInfos : List KekInfo) :
    RpcsOn h (wrapShares env keys pts kekInfos) := by
  refine rpcsOn_withDeferred ?_
  split
  exacts [.fail _, rpcsOn_wrapSharesLoop env keys hn _ _ _]

theorem rpcsOn_unwrapAndValidateShares (hn : h ≠ .nil) (ws : List WrappedShare)
    (kekInfos : List KekInfo) : RpcsOn h (unwrapAndValidateShares env keys ws kekInfos) := by
  refine rpcsOn_withDeferred ?_
  split
  exacts [.fail _, rpcsOn_unwrapAndValidateLoop env keys hn _ _ _]

theorem RpcsOn.of_output {α : Type} {x : Go (Sys StetClient) α}
    (hx : ∀ s, ∃ o, resultState (x s) = { s with output := o }) : RpcsOn h x := by
  intro s _
  obtain ⟨o, ho⟩ := hx s
  exact ⟨[], by rw [ho], by rw [ho, List.append_nil], by simp⟩

theorem rpcsOn_encrypt (hn : h ≠ .nil) (input : Bytes) (config : Option EncryptConfig)
    (blobID : String) : RpcsOn h (encrypt env p keys input config blobID) := by
  cases config with
  | none => exact .fail _
  | some config =>
      exact .get_bind fun _ _ => .bind (.wrapError _ (.ofExcept _)) fun _ =>
        .bind (.wrapError _ (rpcsOn_wrapShares env keys hn _ _)) fun _ =>
          .bind (.wrapError _ (.ofExcept _)) fun _ => .bind (.wrapError _ (.ofExcept _)) fun _ =>
            .bind (.wrapError _ (.of_output (writeOutput_frame _))) fun _ =>
              .bind (.wrapError _ (.of_output (writeOutput_frame _))) fun _ =>
                .bind (.wrapError _ (.of_output (writeStream_frame _))) fun _ => .pure _

theorem rpcsOn_decrypt (hn : h ≠ .nil) (input : Bytes) (config : Option DecryptConfig) :
    RpcsOn h (decrypt env p keys input config) := by
  cases config with
  | none => exact .fail _
  | some config =>
      refine .bind (.wrapError _ (.ofExcept _)) fun ⟨metadata, rest⟩ => ?_
      dsimp only
      split
      · exact .fail _
      · exact .bind (.wrapError _ (rpcsOn_unwrapAndValidateShares env keys hn _ _)) fun _ =>
          .bind (.wrapError _ (.ofExcept _)) fun _ => .bind (.wrapError _ (.ofExcept _)) fun _ =>
            .bind (.wrapError _ (.of_output (writeStream_frame _))) fun _ => .pure _

end Rpcs

/-! ### What a call leaves in the field -/

/-- Between two calls: nothing is deferred, and the KMS field is nil or dead. -/
structure Settled (s : Sys StetClient) : Prop where
  /-- No deferred call is pending. -/
  deferred : s.deferred = []
  /-- A client in the field was built by a constructor call of the log. -/
  built : ∀ id, s.client.kmsClient = .client id → id < s.log.length
  /-- The field is nil or dead. -/
  nil_or_dead : s.client.kmsClient = .nil ∨ dead s.log s.client.kmsClient

/-- Inside a share loop: every deferred `Close` is on the field's client, nothing is
deferred while the field is nil, and a client in the field is deferred or dead. -/
structure Deferring (s : Sys StetClient) : Prop where
  built : ∀ id, s.client.kmsClient = .client id → id < s.log.length
  onField : ∀ k ∈ s.deferred, k = s.client.kmsClient
  nil : s.client.kmsClient = .nil → s.deferred = []
  closes : ∀ id, s.client.kmsClient = .client id →
    .client id ∈ s.deferred ∨ dead s.log (.client id)

/-- Between building the client and deferring its `Close`: the field is set, and every
deferred `Close` is on it. -/
structure Pending (s : Sys StetClient) : Prop where
  built : ∀ id, s.client.kmsClient = .client id → id < s.log.length
  onField : ∀ k ∈ s.deferred, k = s.client.kmsClient
  set : s.client.kmsClient ≠ .nil

theorem Deferring.extend {s s' : Sys StetClient} (hs : Deferring s) (he : s.Extends s') :
    Deferring s' := by
  obtain ⟨new, rfl, -⟩ := he
  refine ⟨fun i h => ?_, hs.onField, hs.nil, fun i h => (hs.closes i h).imp_right
    fun hd => dead_append hd new⟩
  simpa using Nat.lt_add_right _ (hs.built i h)

theorem Deferring.of_settled {s : Sys StetClient} (hs : Settled s) :
    Deferring { s with deferred := [] } where
  built := hs.built
  onField := by simp
  nil _ := rfl
  closes id h := by
    change s.client.kmsClient = _ at h
    rcases hs.nil_or_dead with hn | hd
    · simp [hn] at h
    · rw [← h]
      exact .inr hd

theorem Deferring.defer {s : Sys StetClient} (hs : Pending s) :
    Deferring { s with deferred := s.client.kmsClient :: s.deferred } where
  built := hs.built
  onField k hk := by
    rcases List.mem_cons.mp hk with rfl | hk
    exacts [rfl, hs.onField k hk]
  nil h := absurd h hs.set
  closes id h := by
    change s.client.kmsClient = _ at h
    simp [h]

/-- The calls of a share loop keep the deferred calls in step with the field. -/
def KeepsDeferring {α : Type} (x : Go (Sys StetClient) α) : Prop :=
  ∀ s, Deferring s → Deferring (resultState (x s))

namespace KeepsDeferring

variable {α β : Type}

theorem of_appends {x : Go (Sys StetClient) α} (hx : Appends x) : KeepsDeferring x :=
  fun s hs => hs.extend (hx s)

theorem bind {x : Go (Sys StetClient) α} {f : α → Go (Sys StetClient) β}
    (hx : KeepsDeferring x) (hf : ∀ a, KeepsDeferring (f a)) : KeepsDeferring (x >>= f) := by
  intro s hs
  have h₁ := hx s hs
  rw [Go.bind_apply]
  cases hxs : x s with
  | ok a s₁ => rw [hxs] at h₁; exact hf a s₁ h₁
  | error e s₁ => rw [hxs] at h₁; exact h₁

end KeepsDeferring

section Settle

variable (env : Env) (p : Pipeline) (keys : AsymmetricKeys)

/-- `initializeKMSClient` either sets the field, or fails having stored the nil client. -/
theorem deferring_initializeKMSClient {s : Sys StetClient} (hs : Deferring s) :
    (∃ s₁, initializeKMSClient env s = .ok () s₁ ∧ Pending s₁) ∨
      ∃ e s₁, initializeKMSClient env s = .error (.error e) s₁ ∧ Deferring s₁ := by
  by_cases hn : s.client.kmsClient = .nil
  · have hd := hs.nil hn
    rw [initializeKMSClient_of_nil env hn]
    cases env.newKeyManagementClient s.log.length (userAgent s.client.version)
    · exact .inr ⟨_, _, rfl, ⟨by simp, by simp [Sys.record, hd], by simp, by simp⟩⟩
    · exact .inl ⟨_, rfl, ⟨by simp [Sys.record], by simp [Sys.record, hd], by simp⟩⟩
  · exact .inl ⟨s, initializeKMSClient_of_ne_nil env hn, ⟨hs.built, hs.onField, hn⟩⟩

/-- A share position keeps the deferred calls in step with the field: a KEK URI position
builds the client when the field is nil and defers its `Close`. -/
theorem keepsDeferring_wrapShare (kek : KekInfo) (share : Bytes) :
    KeepsDeferring (wrapShare env keys kek share) := by
  cases kek with
  | rsaFingerprint _ =>
      exact .of_appends (.bind (.wrapError _ (.ofExcept _)) fun _ =>
        .bind (.wrapError _ (.ofExcept _)) fun _ => .pure _)
  | kekUri _ =>
      intro s hs
      simp only [wrapShare]
      rcases deferring_initializeKMSClient env hs with ⟨s₁, hi, hp⟩ | ⟨e, s₁, hi, hd⟩
      · rw [Go.bind_of_ok _ (Go.wrapError_of_ok hi)]
        rw [Go.bind_of_ok _ (deferKmsClose_apply s₁)]
        exact KeepsDeferring.of_appends (.get_bind fun _ =>
          .bind (.wrapError _ (appends_getKekURIMetadata env _ _)) fun _ =>
            .bind (appends_wrapWithMetadata env _ _) fun _ => .pure _) _ (.defer hp)
      · rw [Go.bind_of_error _ (Go.wrapError_of_error hi)]
        exact hd
  | unset => exact .of_appends (.fail _)

theorem keepsDeferring_unwrapAndValidateShare (kek : KekInfo) (w : WrappedShare) :
    KeepsDeferring (unwrapAndValidateShare env keys kek w) := by
  refine .bind ?_ fun _ => .of_appends (.pure _)
  cases kek with
  | rsaFingerprint _ =>
      simp only [unwrapShare]
      split
      · exact .of_appends (.pure _)
      · split <;> exact .of_appends (.pure _)
  | kekUri _ =>
      intro s hs
      simp only [unwrapShare]
      rcases deferring_initializeKMSClient env hs with ⟨s₁, hi, hp⟩ | ⟨e, s₁, hi, hd⟩
      · rw [Go.bind_of_ok _ (Go.attempt_of_ok hi)]
        dsimp only
        rw [Go.bind_of_ok _ (deferKmsClose_apply s₁)]
        exact KeepsDeferring.of_appends (.get_bind fun _ =>
          .bind (.wrapError _ (appends_getKekURIMetadata env _ _)) fun _ =>
            .bind (appends_unwrapWithMetadata env _ _) fun r => by
              cases r <;> exact .pure _) _ (.defer hp)
      · rw [Go.bind_of_ok _ (Go.attempt_of_error hi)]
        exact hd
  | unset => exact .of_appends (.pure _)

theorem keepsDeferring_wrapSharesLoop (kekInfos : List KekInfo) (i : Nat) (pts : List Bytes) :
    KeepsDeferring (wrapSharesLoop env keys kekInfos i pts) := by
  induction pts generalizing i with
  | nil => exact .of_appends (.pure _)
  | cons pt pts ih =>
      exact .bind (.of_appends (.index _ _)) fun _ =>
        .bind (keepsDeferring_wrapShare env keys _ _) fun _ =>
          .bind (ih _) fun _ => .of_appends (.pure _)

theorem keepsDeferring_unwrapAndValidateLoop (kekInfos : List KekInfo) (i : Nat)
    (ws : List WrappedShare) : KeepsDeferring (unwrapAndValidateLoop env keys kekInfos i ws) := by
  induction ws generalizing i with
  | nil => exact .of_appends (.pure _)
  | cons w ws ih =>
      exact .bind (.of_appends (.index _ _)) fun _ =>
        .bind (keepsDeferring_unwrapAndValidateShare env keys _ _) fun _ =>
          .bind (ih _) fun _ => .of_appends (.pure _)

/-- Closing what was deferred leaves a client that is in the field dead. -/
theorem runDeferred_clients {id : Nat} {hs : List KmsHandle} (h : ∀ k ∈ hs, k = .client id)
    (s : Sys StetClient) :
    runDeferred hs s = .ok () { s with log := s.log ++ hs.map Event.close } := by
  induction hs generalizing s with
  | nil => simp [runDeferred]
  | cons k hs ih =>
      obtain rfl := h k (.head _)
      rw [runDeferred, Go.bind_of_ok _ (show kmsClose (.client id) s = .ok () _ from rfl),
        ih (fun k hk => h k (.tail _ hk))]
      simp [Sys.record]

theorem runDeferred_frame (hs : List KmsHandle) (s : Sys StetClient) :
    (resultState (runDeferred hs s)).client = s.client ∧
      (resultState (runDeferred hs s)).deferred = s.deferred := by
  induction hs generalizing s with
  | nil => exact ⟨rfl, rfl⟩
  | cons k hs ih =>
      rw [runDeferred, Go.bind_apply]
      cases k with
      | client id => exact ih _
      | nil | typedNil => exact ⟨rfl, rfl⟩

theorem settled_runDeferred {s : Sys StetClient} (hs : Deferring s) :
    Settled (resultState (runDeferred s.deferred { s with deferred := [] })) := by
  obtain ⟨hc, hd⟩ := runDeferred_frame s.deferred { s with deferred := [] }
  cases hk : s.client.kmsClient with
  | nil =>
      rw [hs.nil hk]
      exact ⟨rfl, fun _ h => (nomatch hk.symm.trans h), .inl hk⟩
  | typedNil => exact ⟨hd, by simp [hc, hk], .inr (by simp [hc, hk, dead])⟩
  | client id =>
      rw [runDeferred_clients (fun k hm => (hs.onField k hm).trans hk)]
      have hb := hs.built id hk
      have hdead : dead (s.log ++ s.deferred.map Event.close) (.client id) := by
        rcases hs.closes id hk with hm | hdd
        · simp only [dead, decide_eq_true_eq, List.drop_append_eq_append_drop, List.mem_append,
            Nat.sub_eq_zero_of_le hb.le, List.drop_zero]
          exact .inr (List.mem_map_of_mem _ hm)
        · exact dead_append hdd _
      refine ⟨rfl, fun i h => ?_, .inr (by rw [← hk] at hdead; exact hdead)⟩
      obtain rfl : id = i := KmsHandle.client.inj (hk.symm.trans h)
      show id < (s.log ++ _).length
      simpa using Nat.lt_add_right _ hb

theorem settled_withDeferred {α : Type} {body : Go (Sys StetClient) α} (hb : KeepsDeferring body)
    {s : Sys StetClient} (hs : Settled s) : Settled (resultState (withDeferred body s)) := by
  rw [resultState_withDeferred, hs.deferred]
  exact settled_runDeferred (hb _ (.of_settled hs))

/-- A call keeps the state settled, however it ends. -/
def KeepsSettled {α : Type} (x : Go (Sys StetClient) α) : Prop :=
  ∀ s, Settled s → Settled (resultState (x s))

namespace KeepsSettled

variable {α β : Type}

theorem of_appends {x : Go (Sys StetClient) α} (hx : Appends x) : KeepsSettled x := by
  intro s hs
  obtain ⟨new, he, -⟩ := hx s
  rw [he]
  refine ⟨hs.deferred, fun i h => ?_, hs.nil_or_dead.imp_right fun hd => dead_append hd new⟩
  simpa using Nat.lt_add_right _ (hs.built i h)

theorem bind {x : Go (Sys StetClient) α} {f : α → Go (Sys StetClient) β}
    (hx : KeepsSettled x) (hf : ∀ a, KeepsSettled (f a)) : KeepsSettled (x >>= f) := by
  intro s hs
  have h₁ := hx s hs
  rw [Go.bind_apply]
  cases hxs : x s with
  | ok a s₁ => rw [hxs] at h₁; exact hf a s₁ h₁
  | error e s₁ => rw [hxs] at h₁; exact h₁

theorem wrapError {x : Go (Sys StetClient) α} (pre : String) (hx : KeepsSettled x) :
    KeepsSettled (Go.wrapError pre x) := by
  intro s hs
  rw [Go.resultState_wrapError]
  exact hx s hs

end KeepsSettled

theorem keepsSettled_wrapShares (pts : List Bytes) (kekInfos : List KekInfo) :
    KeepsSettled (wrapShares env keys pts kekInfos) := by
  refine fun s hs => settled_withDeferred ?_ hs
  split
  exacts [.of_appends (.fail _), keepsDeferring_wrapSharesLoop env keys _ _ _]

theorem keepsSettled_unwrapAndValidateShares (ws : List WrappedShare) (kekInfos : List KekInfo) :
    KeepsSettled (unwrapAndValidateShares env keys ws kekInfos) := by
  refine fun s hs => settled_withDeferred ?_ hs
  split
  exacts [.of_appends (.fail _), keepsDeferring_unwrapAndValidateLoop env keys _ _ _]

theorem KeepsSettled.of_output {α : Type} {x : Go (Sys StetClient) α}
    (hx : ∀ s, ∃ o, resultState (x s) = { s with output := o }) : KeepsSettled x := by
  intro s hs
  obtain ⟨o, ho⟩ := hx s
  rw [ho]
  exact ⟨hs.deferred, hs.built, hs.nil_or_dead⟩

theorem keepsSettled_encrypt (input : Bytes) (config : Option EncryptConfig) (blobID : String) :
    KeepsSettled (encrypt env p keys input config blobID) := by
  cases config with
  | none => exact .of_appends (.fail _)
  | some config =>
      exact fun s hs => KeepsSettled.bind (.wrapError _ (.of_appends (.ofExcept _))) (fun _ =>
        .bind (.wrapError _ (keepsSettled_wrapShares env keys _ _)) fun _ =>
          .bind (.wrapError _ (.of_appends (.ofExcept _))) fun _ =>
            .bind (.wrapError _ (.of_appends (.ofExcept _))) fun _ =>
              .bind (.wrapError _ (.of_output (writeOutput_frame _))) fun _ =>
                .bind (.wrapError _ (.of_output (writeOutput_frame _))) fun _ =>
                  .bind (.wrapError _ (.of_output (writeStream_frame _))) fun _ =>
                    .of_appends (.pure _)) s hs

theorem keepsSettled_decrypt (input : Bytes) (config : Option DecryptConfig) :
    KeepsSettled (decrypt env p keys input config) := by
  cases config with
  | none => exact .of_appends (.fail _)
  | some config =>
      refine .bind (.wrapError _ (.of_appends (.ofExcept _))) fun ⟨metadata, rest⟩ => ?_
      dsimp only
      split
      · exact .of_appends (.fail _)
      · exact .bind (.wrapError _ (keepsSettled_unwrapAndValidateShares env keys _ _)) fun _ =>
          .bind (.wrapError _ (.of_appends (.ofExcept _))) fun _ =>
            .bind (.wrapError _ (.of_appends (.ofExcept _))) fun _ =>
              .bind (.wrapError _ (.of_output (writeStream_frame _))) fun _ =>
                .of_appends (.pure _)

end Settle

/-! ### Runs of a program -/

/-- One call a program makes on its `StetClient`, with the arguments it passes. -/
inductive Call
  | encrypt (input : Bytes) (config : Option EncryptConfig) (keys : AsymmetricKeys)
      (blobID : String)
  | decrypt (input : Bytes) (config : Option DecryptConfig) (keys : AsymmetricKeys)

section Runs

variable (env : Env) (p : Pipeline)

/-- The state a call leaves, whether it returns a result, an error or panics. -/
def Call.run (s : Sys StetClient) : Call → Sys StetClient
  | .encrypt input config keys blobID =>
      resultState (Client.encrypt env p keys input config blobID s)
  | .decrypt input config keys => resultState (Client.decrypt env p keys input config s)

/-- The states a program reaches by calls on one `StetClient`, built with any version and
options and a nil KMS client field. -/
inductive Reachable : Sys StetClient → Prop
  | start {c : StetClient} : c.kmsClient = .nil → Reachable (Sys.start c)
  | call {s : Sys StetClient} (c : Call) : Reachable s → Reachable (c.run env p s)

theorem settled_start {c : StetClient} (hc : c.kmsClient = .nil) : Settled (Sys.start c) :=
  ⟨rfl, fun _ h => (nomatch hc.symm.trans h), .inl hc⟩

theorem settled_run {s : Sys StetClient} (hs : Settled s) (c : Call) :
    Settled (c.run env p s) := by
  cases c with
  | encrypt input config keys blobID =>
      exact keepsSettled_encrypt env p keys input config blobID s hs
  | decrypt input config keys => exact keepsSettled_decrypt env p keys input config s hs

/-- Every state a program reaches is settled: between two calls nothing is deferred, and
the KMS client field is nil or holds a client that can serve no RPC. -/
theorem settled_of_reachable {s : Sys StetClient} (hs : Reachable env p s) : Settled s := by
  induction hs with
  | start hc => exact settled_start hc
  | call c _ ih => exact settled_run env p ih c

/-- Once the field is set, a call leaves the client as it was and issues every Cloud KMS
RPC on the field's client. -/
theorem run_rpcsOn {s : Sys StetClient} (hn : s.client.kmsClient ≠ .nil) (c : Call) :
    ∃ new, (c.run env p s).client = s.client ∧ (c.run env p s).log = s.log ++ new ∧
      ∀ e ∈ new, ∀ h, e.rpcOn = some h → h = s.client.kmsClient := by
  cases c with
  | encrypt input config keys blobID =>
      exact rpcsOn_encrypt env p keys hn input config blobID s rfl
  | decrypt input config keys => exact rpcsOn_decrypt env p keys hn input config s rfl

/-- After the first call that sets the KMS client field, no state of the program is
usable again: the field holds a dead client for good, every later call keeps it, and
every Cloud KMS RPC a later call issues is on that dead client, so that the log of any
call that issues one breaks `rpcsOnLive`. -/
theorem reachable_rpcs_on_dead {s : Sys StetClient} (hs : Reachable env p s)
    (hn : s.client.kmsClient ≠ .nil) (c : Call) :
    ¬ Usable s ∧ (c.run env p s).client = s.client ∧
      ∃ new, (c.run env p s).log = s.log ++ new ∧
        ∀ e ∈ new, ∀ h, e.rpcOn = some h →
          h = s.client.kmsClient ∧ rpcsOnLive (c.run env p s).log = false := by
  have hd : dead s.log s.client.kmsClient :=
    (settled_of_reachable env p hs).nil_or_dead.resolve_left hn
  obtain ⟨new, hc, hl, hr⟩ := run_rpcsOn env p hn c
  refine ⟨fun hu => ?_, hc, new, hl, fun e he h hh => ⟨hr e he h hh, ?_⟩⟩
  · rcases hu with hu | hu
    exacts [hn hu, by simp [live_eq_false_of_dead hd] at hu]
  · rw [hl]
    exact rpcsOnLive_eq_false hd he ((hr e he h hh) ▸ hh)

/-- An `Encrypt` of one byte under a single KEK URI and no RSA keys. -/
def encryptOnKekUri : Call :=
  .encrypt [1] (some ⟨some ⟨[.kekUri "gcp-kms://k"], .noSplit⟩⟩) ⟨[], []⟩ "b"

/-- A new client after `encryptOnKekUri`, on the echoing backend whose keys are EXTERNAL. -/
def afterEncryptOnKekUri : Sys StetClient :=
  encryptOnKekUri.run (Env.external "u") Pipeline.echo (Sys.start StetClient.new)

theorem reachable_rpcs_on_dead_external :
    ¬ Usable afterEncryptOnKekUri ∧
      (encryptOnKekUri.run (Env.external "u") Pipeline.echo afterEncryptOnKekUri).client =
        afterEncryptOnKekUri.client ∧
      ∃ new, (encryptOnKekUri.run (Env.external "u") Pipeline.echo afterEncryptOnKekUri).log =
          afterEncryptOnKekUri.log ++ new ∧
        ∀ e ∈ new, ∀ h, e.rpcOn = some h → h = afterEncryptOnKekUri.client.kmsClient ∧
          rpcsOnLive (encryptOnKekUri.run (Env.external "u") Pipeline.echo
            afterEncryptOnKekUri).log = false :=
  reachable_rpcs_on_dead (Env.external "u") Pipeline.echo (.call _ (.start rfl)) (by decide)
    encryptOnKekUri

end Runs

/-- Two `Encrypt` calls on one new `StetClient`. With a KEK URI of EXTERNAL protection the
first call builds the client, issues `GetCryptoKey` on it while it is live and closes it
at the end of `wrapShares`; the second call finds the field set and issues its
`GetCryptoKey` on the closed client, which answers that the connection is closing. When
the first constructor call fails, the field keeps the nil client it returned, and the
second call panics on it. -/
theorem kmsClient_reused :
    (∃ s₁ s₂, encrypt (Env.external "https://ekm/v0/k")
        Pipeline.echo ⟨[], []⟩ [1] (some ⟨some ⟨[.kekUri "gcp-kms://k"], .noSplit⟩⟩) "b"
        (Sys.start StetClient.new) = .ok ⟨["https://ekm/v0/k"], "b"⟩ s₁ ∧
      rpcsOnLive s₁.log = true ∧
      encrypt (Env.external "https://ekm/v0/k")
        Pipeline.echo ⟨[], []⟩ [1] (some ⟨some ⟨[.kekUri "gcp-kms://k"], .noSplit⟩⟩) "b" s₁ =
        .error (.error ("error wrapping shares: Error retrieving KEK Metadata: " ++
          "error retrieving key metadata: " ++ clientConnClosing)) s₂ ∧
      rpcsOnLive s₂.log = false) ∧
    (∃ s₁ s₂, encrypt { Env.echo with
          newKeyManagementClient := fun t _ => if t = 0 then .error "no credentials" else .ok () }
        Pipeline.echo ⟨[], []⟩ [1] (some ⟨some ⟨[.kekUri "gcp-kms://k"], .noSplit⟩⟩) "b"
        (Sys.start StetClient.new) = .error (.error ("error wrapping shares: error initializing " ++
          "KMS Client: error creating KMS client: no credentials")) s₁ ∧
      s₁.client.kmsClient = .typedNil ∧
      encrypt { Env.echo with
          newKeyManagementClient := fun t _ => if t = 0 then .error "no credentials" else .ok () }
        Pipeline.echo ⟨[], []⟩ [1] (some ⟨some ⟨[.kekUri "gcp-kms://k"], .noSplit⟩⟩) "b" s₁ =
        .error (.panic nilDereference) s₂ ∧
      rpcsOnLive s₂.log = false) :=
  ⟨⟨_, _, rfl, rfl, rfl, rfl⟩, ⟨_, _, rfl, rfl, rfl, rfl⟩⟩

end Stet.Client

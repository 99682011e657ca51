import Stet.Proto

/-!
The world the client runs in: the handles it holds, the log of every call it makes to
something outside its own code, and the behaviour of those collaborators.

Each collaborator that answers over the network (Cloud KMS, the JWT issuer, the external
key manager) is a function of the time of the call, the length of the log when the call
is made, as well as of the request; a theorem that quantifies over an `Env` therefore
covers every sequence of answers, one per call. The local libraries (RSA, SHA-256, URL
parsing, the `shares` package) are plain functions.

A handle of the `kmsClient` field is named by the log position of the constructor call
that built it. `Live` reads from the log whether a handle was built and not closed since;
an RPC on a closed client fails as gRPC fails it, one on a nil receiver panics.
-/

namespace Stet

/-! ### Handles and events -/

/-- The value of `StetClient.kmsClient`, an interface holding a `*kms.KeyManagementClient`. -/
inductive KmsHandle where
  /-- The nil interface: the client is not initialised. -/
  | nil
  /-- A nil `*KeyManagementClient` stored by a failed constructor: the interface is not
  nil, and every method call dereferences nil. -/
  | typedNil
  /-- The client built by the constructor call at log position `id`. -/
  | client (id : Nat)
  deriving DecidableEq, Repr

/-- A `secureSessionClient`: the test fake, or the session established at log position
`id`. -/
inductive SessionClient where
  | fake
  | established (id : Nat)
  deriving DecidableEq, Repr

/-- A call the client makes to a collaborator, in the order it makes them. -/
inductive Event where
  | newKeyManagementClient (userAgent : String) (ok : Bool)
  | getCryptoKey (h : KmsHandle) (name : String)
  | encrypt (h : KmsHandle) (req : EncryptRequest)
  | decrypt (h : KmsHandle) (req : DecryptRequest)
  | close (h : KmsHandle)
  | generateToken (audience : String)
  | establishSecureSession (keyUri : String)
  | confidentialWrap (sc : SessionClient) (keyPath resourceName : String) (plaintext : Bytes)
  | confidentialUnwrap (sc : SessionClient) (keyPath resourceName : String) (wrapped : Bytes)
  | endSession (sc : SessionClient)
  deriving DecidableEq, Repr

/-- The KMS client an event was issued on, when it is a Cloud KMS RPC. -/
def Event.rpcOn : Event → Option KmsHandle
  | .getCryptoKey h _ | .encrypt h _ | .decrypt h _ => some h
  | _ => none

/-- The calls that set a secure session up, none of them an operation on a session. -/
def Event.setupCall : Event → Bool
  | .generateToken _ | .establishSecureSession _ => true
  | _ => false

/-- The session an event is a call on: an operation, or `EndSession`. -/
def Event.onSession : Event → Option SessionClient
  | .confidentialWrap sc _ _ _ | .confidentialUnwrap sc _ _ _ | .endSession sc => some sc
  | _ => none

/-- `client.StetClient`. `fakeSecureSessionClient` says whether a test installed a fake
session client. -/
structure StetClient where
  kmsClient : KmsHandle
  fakeSecureSessionClient : Bool
  insecureSkipVerify : Bool
  version : String
  deriving DecidableEq, Repr

/-- `&client.StetClient{}`: no KMS client yet, no fake session client, TLS verified, no
version. -/
def StetClient.new : StetClient := ⟨.nil, false, false, ""⟩

/-- The state of a run: the client `c` (a `StetClient` or an earlier version of it), the
calls made so far, the calls deferred by the running function, and what was written to
the output stream. -/
structure Sys (C : Type) where
  client : C
  log : List Event
  deferred : List KmsHandle
  output : Bytes

/-- A run on the client `c` that has made no call yet. -/
def Sys.start {C : Type} (c : C) : Sys C := ⟨c, [], [], []⟩

/-- The versions of `StetClient` hold their Cloud KMS client in a field `kmsClient`. -/
class HasKmsClient (C : Type) where
  kmsClient : C → KmsHandle
  setKmsClient : C → KmsHandle → C
  kmsClient_setKmsClient : ∀ c h, kmsClient (setKmsClient c h) = h

instance : HasKmsClient StetClient :=
  ⟨StetClient.kmsClient, fun c h => { c with kmsClient := h }, fun _ _ => rfl⟩

@[simp] theorem StetClient.hasKmsClient_kmsClient (c : StetClient) :
    HasKmsClient.kmsClient c = c.kmsClient := rfl

@[simp] theorem StetClient.hasKmsClient_setKmsClient (c : StetClient) (h : KmsHandle) :
    HasKmsClient.setKmsClient c h = { c with kmsClient := h } := rfl

/-- Append one call to the log. -/
def Sys.record {C : Type} (s : Sys C) (e : Event) : Sys C := { s with log := s.log ++ [e] }

@[simp] theorem Sys.record_log {C : Type} (s : Sys C) (e : Event) :
    (s.record e).log = s.log ++ [e] := rfl

@[simp] theorem Sys.record_client {C : Type} (s : Sys C) (e : Event) :
    (s.record e).client = s.client := rfl

/-! ### Collaborators -/

/-- What `url.Parse` gives, with `Hostname()` and `Host` read off. -/
structure Url where
  scheme : String
  host : String
  hostname : String
  deriving DecidableEq, Repr

/-- The collaborators of the share layer, by the time of the call where they answer over
the network. RSA keys are named by their DER encoding. -/
structure Env where
  newKeyManagementClient : Nat → String → Except String Unit
  getCryptoKey : Nat → String → Except String CryptoKey
  encrypt : Nat → EncryptRequest → Except String EncryptResponse
  decrypt : Nat → DecryptRequest → Except String DecryptResponse
  generateTokenWithAudience : Nat → String → Except String String
  establishSecureSession : Nat → String → String → Bool → Except String Unit
  confidentialWrap : Nat → SessionClient → String → String → Bytes → Except String Bytes
  confidentialUnwrap : Nat → SessionClient → String → String → Bytes → Except String Bytes
  endSession : Nat → SessionClient → Except String Unit
  urlParse : String → Except String Url
  publicKeyForRSAFingerprint : KekInfo → AsymmetricKeys → Except String Bytes
  privateKeyForRSAFingerprint : KekInfo → AsymmetricKeys → Except String Bytes
  encryptOAEP : Bytes → Bytes → Except String Bytes
  decryptOAEP : Bytes → Bytes → Except String Bytes
  hashShare : Bytes → Bytes
  validateShare : Bytes → Bytes → Bool

/-! ### Logged calls -/

/-- gRPC's answer to a call on a closed connection. -/
def clientConnClosing : String :=
  "rpc error: code = Canceled desc = grpc: the client connection is closing"

/-- The log holds a successful constructor call at position `id`. -/
def builtAt (log : List Event) (id : Nat) : Bool :=
  match log[id]? with
  | some (.newKeyManagementClient _ ok) => ok
  | _ => false

/-- `h` was built by a successful constructor call and not closed since. -/
def live (log : List Event) : KmsHandle → Bool
  | .client id => builtAt log id && !decide (Event.close (.client id) ∈ log.drop id)
  | _ => false

/-- `h` is a client that no `Close` has closed since it was built: an RPC on it reaches the
service. -/
def reaches (log : List Event) : KmsHandle → Prop
  | .client id => Event.close (.client id) ∉ log.drop id
  | _ => False

theorem reaches_of_live {log : List Event} {h : KmsHandle} (hl : live log h) : reaches log h := by
  cases h with
  | client id =>
      simp only [live, Bool.and_eq_true, Bool.not_eq_true', decide_eq_false_iff_not] at hl
      exact hl.2
  | nil | typedNil => cases hl

theorem reaches_append {log : List Event} {h : KmsHandle} (hr : reaches log h) {new : List Event}
    (hn : ∀ h', Event.close h' ∉ new) : reaches (log ++ new) h := by
  cases h with
  | client id =>
      simp only [reaches, List.drop_append_eq_append_drop, List.mem_append, not_or] at hr ⊢
      exact ⟨hr, fun hm => hn _ (List.mem_of_mem_drop hm)⟩
  | nil | typedNil => cases hr

theorem lt_of_builtAt {log : List Event} {id : Nat} (h : builtAt log id) : id < log.length := by
  unfold builtAt at h
  split at h
  · rename_i heq
    exact (List.getElem?_eq_some_iff.mp heq).1
  · cases h

theorem builtAt_append {log : List Event} {id : Nat} (new : List Event)
    (h : builtAt log id) : builtAt (log ++ new) id := by
  unfold builtAt at h ⊢
  rwa [List.getElem?_append_left (lt_of_builtAt h)]

section Calls

variable {C α : Type} (env : Env)

/-- A call to a collaborator that answers `svc` at the time of the call. -/
def external (ev : Event) (svc : Nat → Except String α) : Go (Sys C) α := fun s =>
  match svc s.log.length with
  | .ok a => .ok a (s.record ev)
  | .error e => .error (.error e) (s.record ev)

/-- A Cloud KMS RPC on `h`: a nil receiver panics, a closed client fails as gRPC fails
it, and a client not closed reaches the service. -/
def kmsCall (h : KmsHandle) (ev : Event) (svc : Nat → Except String α) : Go (Sys C) α :=
  fun s => match h with
  | .client id =>
      if Event.close h ∈ s.log.drop id then .error (.error clientConnClosing) (s.record ev)
      else external ev svc s
  | _ => .error (.panic nilDereference) (s.record ev)

/-- `kmsClient.GetCryptoKey`. -/
def kmsGetCryptoKey (h : KmsHandle) (name : String) : Go (Sys C) CryptoKey :=
  kmsCall h (.getCryptoKey h name) (env.getCryptoKey · name)

/-- `kmsClient.Encrypt`. -/
def kmsEncrypt (h : KmsHandle) (req : EncryptRequest) : Go (Sys C) EncryptResponse :=
  kmsCall h (.encrypt h req) (env.encrypt · req)

/-- `kmsClient.Decrypt`. -/
def kmsDecrypt (h : KmsHandle) (req : DecryptRequest) : Go (Sys C) DecryptResponse :=
  kmsCall h (.decrypt h req) (env.decrypt · req)

/-- `kmsClient.Close()`: a nil receiver panics. -/
def kmsClose (h : KmsHandle) : Go (Sys C) Unit := fun s =>
  match h with
  | .client _ => .ok () (s.record (.close h))
  | _ => .error (.panic nilDereference) (s.record (.close h))

/-- `kms.NewKeyManagementClient`, returning Go's `(client, err)` pair: a nil client and
the error when it fails. -/
def newKeyManagementClient (userAgent : String) : Go (Sys C) (KmsHandle × Option String) :=
  fun s => match env.newKeyManagementClient s.log.length userAgent with
  | .ok () => .ok (.client s.log.length, none) (s.record (.newKeyManagementClient userAgent true))
  | .error e => .ok (.typedNil, some e) (s.record (.newKeyManagementClient userAgent false))

/-- `jwt.GenerateTokenWithAudience`. -/
def generateTokenWithAudience (audience : String) : Go (Sys C) String :=
  external (.generateToken audience) (env.generateTokenWithAudience · audience)

/-- `securesession.EstablishSecureSession`: the session is named by the time it was
established. -/
def establishSecureSession (keyUri authToken : String) (skipVerify : Bool) :
    Go (Sys C) SessionClient :=
  external (.establishSecureSession keyUri)
    (fun t => (env.establishSecureSession t keyUri authToken skipVerify).map
      fun _ => SessionClient.established t)

/-- `ConfidentialWrap` on a session. -/
def confidentialWrap (sc : SessionClient) (keyPath resourceName : String) (plaintext : Bytes) :
    Go (Sys C) Bytes :=
  external (.confidentialWrap sc keyPath resourceName plaintext)
    (env.confidentialWrap · sc keyPath resourceName plaintext)

/-- `ConfidentialUnwrap` on a session. -/
def confidentialUnwrap (sc : SessionClient) (keyPath resourceName : String) (wrapped : Bytes) :
    Go (Sys C) Bytes :=
  external (.confidentialUnwrap sc keyPath resourceName wrapped)
    (env.confidentialUnwrap · sc keyPath resourceName wrapped)

/-- `EndSession` on a session. -/
def endSession (sc : SessionClient) : Go (Sys C) Unit :=
  external (.endSession sc) (env.endSession · sc)

end Calls

/-! ### What a call leaves alone -/

/-- `s'` is `s` with calls other than `Close` appended to its log. -/
def Sys.Extends {C : Type} (s s' : Sys C) : Prop :=
  ∃ new, s' = { s with log := s.log ++ new } ∧ ∀ h, Event.close h ∉ new

namespace Sys.Extends

variable {C : Type} {s s' s'' : Sys C}

theorem refl (s : Sys C) : s.Extends s := ⟨[], by simp, by simp⟩

theorem trans (h₁ : s.Extends s') (h₂ : s'.Extends s'') : s.Extends s'' := by
  obtain ⟨n₁, rfl, c₁⟩ := h₁
  obtain ⟨n₂, rfl, c₂⟩ := h₂
  refine ⟨n₁ ++ n₂, by simp, fun h hm => ?_⟩
  rcases List.mem_append.mp hm with hm | hm
  exacts [c₁ h hm, c₂ h hm]

theorem record (s : Sys C) {e : Event} (he : ∀ h, e ≠ .close h) : s.Extends (s.record e) :=
  ⟨[e], rfl, by simpa [eq_comm] using he⟩

theorem client_eq (h : s.Extends s') : s'.client = s.client := by
  obtain ⟨_, rfl, _⟩ := h
  rfl

theorem deferred_eq (h : s.Extends s') : s'.deferred = s.deferred := by
  obtain ⟨_, rfl, _⟩ := h
  rfl

theorem output_eq (h : s.Extends s') : s'.output = s.output := by
  obtain ⟨_, rfl, _⟩ := h
  rfl

/-- Appending calls that close nothing keeps a live client live. -/
theorem live {h : KmsHandle} (hs : s.Extends s') (hl : live s.log h) : Stet.live s'.log h := by
  obtain ⟨new, rfl, hc⟩ := hs
  cases h with
  | client id =>
      simp only [Stet.live, Bool.and_eq_true, Bool.not_eq_true', decide_eq_false_iff_not] at hl ⊢
      refine ⟨builtAt_append new hl.1, ?_⟩
      rw [List.drop_append_of_le_length (lt_of_builtAt hl.1).le, List.mem_append, not_or]
      exact ⟨hl.2, hc _⟩
  | nil | typedNil => simp [Stet.live] at hl

end Sys.Extends

section Usable

variable {C : Type} [HasKmsClient C]

/-- The KMS client field is nil or holds a live client. -/
def Usable (s : Sys C) : Prop :=
  HasKmsClient.kmsClient s.client = .nil ∨ live s.log (HasKmsClient.kmsClient s.client)

/-- A state a share loop can go on from. -/
structure Ready (s : Sys C) : Prop where
  /-- The KMS client is nil or live. -/
  usable : Usable s
  /-- Every deferred `Close` closes a client a constructor built. -/
  deferred : ∀ h ∈ s.deferred, ∃ id, h = .client id

theorem Ready.extend {s s' : Sys C} (hs : Ready s) (he : s.Extends s') : Ready s' where
  usable := by
    rw [Usable, he.client_eq]
    exact hs.usable.imp id he.live
  deferred := by
    rw [he.deferred_eq]
    exact hs.deferred

end Usable

/-- Every run of the call, however it ends, only appends calls other than `Close`. -/
def Appends {C α : Type} (x : Go (Sys C) α) : Prop :=
  ∀ s : Sys C, s.Extends (resultState (x s))

namespace Appends

variable {C α β : Type}

theorem pure (a : α) : Appends (pure a : Go (Sys C) α) := by
  intro s
  exact .refl s

theorem fail (msg : String) : Appends (Go.fail msg : Go (Sys C) α) := by
  intro s
  exact .refl s

theorem crash (msg : String) : Appends (Go.crash msg : Go (Sys C) α) := by
  intro s
  exact .refl s

theorem bind {x : Go (Sys C) α} {f : α → Go (Sys C) β} (hx : Appends x)
    (hf : ∀ a, Appends (f a)) : Appends (x >>= f) := by
  intro s
  rw [Go.bind_apply]
  have := hx s
  cases h : x s with
  | ok a s' => rw [h] at this; exact this.trans (hf a s')
  | error e s' => rw [h] at this; exact this

theorem get_bind {f : Sys C → Go (Sys C) β} (hf : ∀ s, Appends (f s)) :
    Appends (get >>= f) := by
  intro s
  exact hf s s

theorem wrapError {x : Go (Sys C) α} (pre : String) (hx : Appends x) :
    Appends (Go.wrapError pre x) := by
  intro s
  have := hx s
  unfold Go.wrapError
  split <;> simp_all [resultState]

theorem attempt {x : Go (Sys C) α} (hx : Appends x) : Appends (Go.attempt x) := by
  intro s
  have := hx s
  unfold Go.attempt
  split <;> simp_all [resultState]

theorem ofExcept (r : Except String α) : Appends (Go.ofExcept r : Go (Sys C) α) := by
  cases r
  exacts [fail _, pure _]

theorem index (xs : List α) (i : Nat) : Appends (Go.index xs i : Go (Sys C) α) := by
  unfold Go.index
  split
  exacts [pure _, crash _]

theorem deref (o : Option α) : Appends (Go.deref o : Go (Sys C) α) := by
  cases o
  exacts [crash _, pure _]

theorem external {ev : Event} (hev : ∀ h, ev ≠ .close h) (svc : Nat → Except String α) :
    Appends (external ev svc : Go (Sys C) α) := by
  intro s
  unfold Stet.external
  split <;> exact .record s hev

theorem kmsCall {h : KmsHandle} {ev : Event} (hev : ∀ h, ev ≠ .close h)
    (svc : Nat → Except String α) : Appends (kmsCall h ev svc : Go (Sys C) α) := by
  intro s
  unfold Stet.kmsCall
  split
  · split
    · exact .record s hev
    · exact external hev svc s
  · exact .record s hev

end Appends

/-- Every run of the call, however it ends, leaves the output stream as it was. -/
def KeepsOutput {C α : Type} (x : Go (Sys C) α) : Prop :=
  ∀ s : Sys C, (resultState (x s)).output = s.output

namespace KeepsOutput

variable {C α β : Type}

theorem of_appends {x : Go (Sys C) α} (hx : Appends x) : KeepsOutput x :=
  fun s => (hx s).output_eq

theorem pure (a : α) : KeepsOutput (pure a : Go (Sys C) α) := of_appends (.pure a)

theorem fail (msg : String) : KeepsOutput (Go.fail msg : Go (Sys C) α) := of_appends (.fail msg)

theorem ofExcept (r : Except String α) : KeepsOutput (Go.ofExcept r : Go (Sys C) α) :=
  of_appends (.ofExcept r)

theorem index (xs : List α) (i : Nat) : KeepsOutput (Go.index xs i : Go (Sys C) α) :=
  of_appends (.index xs i)

theorem bind {x : Go (Sys C) α} {f : α → Go (Sys C) β} (hx : KeepsOutput x)
    (hf : ∀ a, KeepsOutput (f a)) : KeepsOutput (x >>= f) := by
  intro s
  rw [Go.bind_apply]
  have := hx s
  cases h : x s with
  | ok a s' => rw [h] at this; exact (hf a s').trans this
  | error e s' => rw [h] at this; exact this

theorem get_bind {f : Sys C → Go (Sys C) β} (hf : ∀ s, KeepsOutput (f s)) :
    KeepsOutput (get >>= f) :=
  fun s => hf s s

theorem modify {f : Sys C → Sys C} (hf : ∀ s, (f s).output = s.output) :
    KeepsOutput (modify f : Go (Sys C) Unit) :=
  hf

theorem wrapError {x : Go (Sys C) α} (pre : String) (hx : KeepsOutput x) :
    KeepsOutput (Go.wrapError pre x) := by
  intro s
  have := hx s
  unfold Go.wrapError
  split <;> simp_all [resultState]

theorem attempt {x : Go (Sys C) α} (hx : KeepsOutput x) : KeepsOutput (Go.attempt x) := by
  intro s
  have := hx s
  unfold Go.attempt
  split <;> simp_all [resultState]

end KeepsOutput

section CallFrames

variable {C : Type} (env : Env)

theorem appends_kmsGetCryptoKey (h : KmsHandle) (name : String) :
    Appends (kmsGetCryptoKey env h name : Go (Sys C) _) := .kmsCall (by simp) _

theorem appends_kmsEncrypt (h : KmsHandle) (req : EncryptRequest) :
    Appends (kmsEncrypt env h req : Go (Sys C) _) := .kmsCall (by simp) _

theorem appends_kmsDecrypt (h : KmsHandle) (req : DecryptRequest) :
    Appends (kmsDecrypt env h req : Go (Sys C) _) := .kmsCall (by simp) _

theorem appends_generateTokenWithAudience (audience : String) :
    Appends (generateTokenWithAudience env audience : Go (Sys C) _) := .external (by simp) _

theorem appends_establishSecureSession (keyUri authToken : String) (skip : Bool) :
    Appends (establishSecureSession env keyUri authToken skip : Go (Sys C) _) :=
  .external (by simp) _

theorem appends_confidentialWrap (sc : SessionClient) (kp rn : String) (p : Bytes) :
    Appends (confidentialWrap env sc kp rn p : Go (Sys C) _) := .external (by simp) _

theorem appends_confidentialUnwrap (sc : SessionClient) (kp rn : String) (p : Bytes) :
    Appends (confidentialUnwrap env sc kp rn p : Go (Sys C) _) := .external (by simp) _

theorem appends_endSession (sc : SessionClient) :
    Appends (endSession env sc : Go (Sys C) _) := .external (by simp) _

/-- An RPC on a client not closed since it was built reaches the service. -/
theorem kmsCall_of_reaches {α : Type} {h : KmsHandle} {s : Sys C} (hr : reaches s.log h)
    (ev : Event) (svc : Nat → Except String α) : kmsCall h ev svc s = external ev svc s := by
  cases h with
  | client id => simp [Stet.kmsCall, show Event.close (.client id) ∉ s.log.drop id from hr]
  | nil | typedNil => cases hr

/-- A live client's RPC reaches the service. -/
theorem kmsCall_of_live {α : Type} {h : KmsHandle} {s : Sys C} (hl : live s.log h) (ev : Event)
    (svc : Nat → Except String α) : kmsCall h ev svc s = external ev svc s :=
  kmsCall_of_reaches (reaches_of_live hl) ev svc

/-- An RPC that returned reached the service, which answered at the time of the call. -/
theorem kmsCall_eq_ok {α : Type} {h : KmsHandle} {s s' : Sys C} {ev : Event}
    {svc : Nat → Except String α} {a : α} (hr : kmsCall h ev svc s = .ok a s') :
    reaches s.log h ∧ svc s.log.length = .ok a ∧ s' = s.record ev := by
  cases h with
  | client id =>
      by_cases hc : Event.close (.client id) ∈ s.log.drop id
      · simp [Stet.kmsCall, hc] at hr
      · simp only [Stet.kmsCall, hc, if_false, external] at hr
        split at hr
        · cases hr
          exact ⟨hc, by assumption, rfl⟩
        · cases hr
  | nil | typedNil => cases hr

theorem keepsOutput_kmsClose (h : KmsHandle) : KeepsOutput (kmsClose h : Go (Sys C) Unit) := by
  intro s
  cases h <;> rfl

theorem keepsOutput_newKeyManagementClient (userAgent : String) :
    KeepsOutput (newKeyManagementClient env userAgent : Go (Sys C) _) := by
  intro s
  unfold newKeyManagementClient
  split <;> rfl

@[simp] theorem external_apply {α : Type} (ev : Event) (svc : Nat → Except String α) (s : Sys C) :
    external ev svc s = match svc s.log.length with
      | .ok a => .ok a (s.record ev)
      | .error e => .error (.error e) (s.record ev) := rfl

/-! The calls to collaborators raise no panic but a nil receiver's. -/

theorem nilSafe_external {α : Type} (ev : Event) (svc : Nat → Except String α) :
    NilSafe (external ev svc : Go (Sys C) α) fun _ => True := by
  refine ⟨fun s m s' h => ?_, fun _ _ _ _ => trivial⟩
  unfold external at h
  split at h <;> cases h

theorem nilSafe_kmsCall {α : Type} (h : KmsHandle) (ev : Event) (svc : Nat → Except String α) :
    NilSafe (kmsCall h ev svc : Go (Sys C) α) fun _ => True := by
  refine ⟨fun s m s' hr => ?_, fun _ _ _ _ => trivial⟩
  unfold kmsCall at hr
  split at hr
  · split at hr
    · cases hr
    · exact (nilSafe_external ev svc).panics s m s' hr
  · cases hr
    rfl

theorem nilSafe_kmsClose (h : KmsHandle) : NilSafe (kmsClose h : Go (Sys C) Unit) fun _ => True := by
  refine ⟨fun s m s' hr => ?_, fun _ _ _ _ => trivial⟩
  unfold kmsClose at hr
  split at hr <;> cases hr
  rfl

theorem nilSafe_newKeyManagementClient (userAgent : String) :
    NilSafe (newKeyManagementClient env userAgent : Go (Sys C) _) fun _ => True := by
  refine ⟨fun s m s' hr => ?_, fun _ _ _ _ => trivial⟩
  unfold newKeyManagementClient at hr
  split at hr <;> cases hr

end CallFrames

end Stet

import Stet.Client.Kms

/-!
The secure-session half of `client.go`: a share wrapped or unwrapped by the external key
manager that an EXTERNAL KEK names, through a session established for that one call.

`ekmSecureSessionWrap` and `ekmSecureSessionUnwrap` differ only in the operation and in
the text of its error, so both are `ekmSecureSession` applied to their own; the earlier
client's pair differs again only in how the key URI is parsed and the session opened, so
all four are `ekmSecureSessionWith`. The session client is chosen by `ekmClientFor`, the
`if`/`else` of the source that takes the test fake or establishes a session.
`ekmSecureSessionWith_of_client` says what happens once it is chosen: the operation, an
`EndSession` on the same session right after it exactly when the operation succeeded, and
a result that is the operation's only when the teardown succeeded too.
-/

namespace Stet.Client

open Stet

/-- Go's `path.Base`: the last slash-separated element once trailing slashes are gone,
`.` for the empty path and `/` for a path of slashes. -/
def pathBase (p : String) : String :=
  if p = "" then "."
  else
    let stripped := p.toList.reverse.dropWhile (· = '/')
    if stripped = [] then "/" else String.mk (stripped.takeWhile (· ≠ '/')).reverse

example : pathBase "https://ekm.example.com:443/v0/keys/key1/" = "key1" := by decide

variable (env : Env)

/-- `parseEKMKeyURI`: the address `scheme://host` of the EKM and the key path. -/
def parseEKMKeyURI (keyURI : String) : Except String (String × String) :=
  match env.urlParse keyURI with
  | .error e => .error ("could not parse: " ++ e)
  | .ok u => .ok (u.scheme ++ "://" ++ u.hostname, pathBase keyURI)

/-- The operation a secure session carries: `ConfidentialWrap` or `ConfidentialUnwrap`. -/
inductive SessionOp where
  | wrap
  | unwrap
  deriving DecidableEq, Repr

/-- The call of `op` on the session `sc`. -/
def SessionOp.call {C : Type} : SessionOp → SessionClient → String → String → Bytes →
    Go (Sys C) Bytes
  | .wrap => confidentialWrap env
  | .unwrap => confidentialUnwrap env

/-- The logged event of `op` on `sc`. -/
def SessionOp.event : SessionOp → SessionClient → String → String → Bytes → Event
  | .wrap => .confidentialWrap
  | .unwrap => .confidentialUnwrap

/-- The key manager's answer to `op` at time `t`. -/
def SessionOp.answer : SessionOp → Nat → SessionClient → String → String → Bytes →
    Except String Bytes
  | .wrap => env.confidentialWrap
  | .unwrap => env.confidentialUnwrap

@[simp] theorem SessionOp.onSession_event (op : SessionOp) (sc : SessionClient) (kp rn : String)
    (p : Bytes) : (op.event sc kp rn p).onSession = some sc := by
  cases op <;> rfl

theorem SessionOp.event_ne_close (op : SessionOp) (sc : SessionClient) (kp rn : String)
    (p : Bytes) (h : KmsHandle) : op.event sc kp rn p ≠ .close h := by
  cases op <;> simp [SessionOp.event]

/-- The body of `ekmSecureSessionWrap` and `ekmSecureSessionUnwrap` in both versions of
the client, which differ in how they parse the key URI (`parse`) and open the session
(`clientFor`): the operation on the session, then its teardown. -/
def ekmSecureSessionWith {C : Type} (parse : String → Except String (String × String))
    (clientFor : String → Go (Sys C) SessionClient) (op : SessionOp) (opError : String)
    (payload : Bytes) (md : KekMetadata) : Go (Sys C) Bytes := do
  let (addr, keyPath) ← Go.ofExcept (parse md.uri)
  let ekmClient ← clientFor addr
  let blob ← Go.wrapError opError (op.call env ekmClient keyPath md.resourceName payload)
  Go.wrapError "error ending secure session: " (endSession env ekmClient)
  pure blob

/-- The session client of one call: the fake one if installed, otherwise a session
established with a bearer token for the EKM's address. -/
def ekmClientFor (addr : String) (md : KekMetadata) : Go (Sys StetClient) SessionClient := do
  let c := (← get).client
  if c.fakeSecureSessionClient then pure .fake
  else do
    let authToken ← generateTokenWithAudience env addr
    Go.wrapError "error establishing secure session: "
      (establishSecureSession env md.uri authToken c.insecureSkipVerify)

/-- The body of `ekmSecureSessionWrap` and `ekmSecureSessionUnwrap`. -/
def ekmSecureSession (op : SessionOp) (opError : String) (payload : Bytes) (md : KekMetadata) :
    Go (Sys StetClient) Bytes :=
  ekmSecureSessionWith env (parseEKMKeyURI env) (ekmClientFor env · md) op opError payload md

/-- `ekmSecureSessionWrap`. -/
def ekmSecureSessionWrap (unwrappedShare : Bytes) (md : KekMetadata) : Go (Sys StetClient) Bytes :=
  ekmSecureSession env .wrap "error wrapping with secure session: " unwrappedShare md

/-- `ekmSecureSessionUnwrap`. -/
def ekmSecureSessionUnwrap (wrappedShare : Bytes) (md : KekMetadata) :
    Go (Sys StetClient) Bytes :=
  ekmSecureSession env .unwrap "error unwrapping with secure session: " wrappedShare md

/-! ### The operation on a session -/

section Session

variable {C : Type} {parse : String → Except String (String × String)}
  {clientFor : String → Go (Sys C) SessionClient}

theorem SessionOp.call_apply (op : SessionOp) (sc : SessionClient) (kp rn : String)
    (p : Bytes) (s : Sys C) :
    op.call env sc kp rn p s = match op.answer env s.log.length sc kp rn p with
      | .ok b => .ok b (s.record (op.event sc kp rn p))
      | .error e => .error (.error e) (s.record (op.event sc kp rn p)) := by
  cases op
  · simp only [SessionOp.call, SessionOp.answer, SessionOp.event, confidentialWrap, external_apply]
    cases env.confidentialWrap s.log.length sc kp rn p <;> rfl
  · simp only [SessionOp.call, SessionOp.answer, SessionOp.event, confidentialUnwrap,
      external_apply]
    cases env.confidentialUnwrap s.log.length sc kp rn p <;> rfl

theorem appends_ekmSecureSessionWith (hc : ∀ addr, Appends (clientFor addr)) (op : SessionOp)
    (pre : String) (p : Bytes) (md : KekMetadata) :
    Appends (ekmSecureSessionWith env parse clientFor op pre p md) := by
  refine .bind (.ofExcept _) fun _ => .bind (hc _) fun sc =>
    .bind (.wrapError _ ?_) fun _ => .bind (.wrapError _ (appends_endSession _ _)) fun _ => .pure _
  cases op
  exacts [appends_confidentialWrap _ _ _ _ _, appends_confidentialUnwrap _ _ _ _ _]

/-- Once the session client is chosen, a secure-session call issues the operation on it at
the time the choice left, and an `EndSession` on it right after exactly when the operation
succeeded; it returns the operation's result exactly when that `EndSession` succeeded
too. -/
theorem ekmSecureSessionWith_of_client {op : SessionOp} {pre : String} {p : Bytes}
    {md : KekMetadata} {s s₁ : Sys C} {addr kp : String} {sc : SessionClient}
    (hp : parse md.uri = .ok (addr, kp)) (hc : clientFor addr s = .ok sc s₁) :
    ekmSecureSessionWith env parse clientFor op pre p md s =
      match op.answer env s₁.log.length sc kp md.resourceName p with
      | .error e => .error (.error (pre ++ e)) (s₁.record (op.event sc kp md.resourceName p))
      | .ok blob =>
          match env.endSession (s₁.log.length + 1) sc with
          | .ok () => .ok blob
              ((s₁.record (op.event sc kp md.resourceName p)).record (.endSession sc))
          | .error e => .error (.error ("error ending secure session: " ++ e))
              ((s₁.record (op.event sc kp md.resourceName p)).record (.endSession sc)) := by
  simp only [ekmSecureSessionWith, hp, Go.ofExcept_ok, Go.bind_apply, Go.pure_apply, hc]
  have hcall := SessionOp.call_apply env op sc kp md.resourceName p s₁
  cases ha : op.answer env s₁.log.length sc kp md.resourceName p with
  | error e => rw [ha] at hcall; simp [Go.wrapError, hcall]
  | ok blob =>
      rw [ha] at hcall
      simp only [Go.wrapError, hcall, endSession, external_apply, Sys.record_log,
        List.length_append, List.length_singleton]
      cases env.endSession (s₁.log.length + 1) sc <;> rfl

/-- A secure-session call that returns had its operation answered with the result, and
its session ended. -/
theorem ekmSecureSessionWith_sound {op : SessionOp} {pre : String} {p blob : Bytes}
    {md : KekMetadata} {s s' : Sys C}
    (h : ekmSecureSessionWith env parse clientFor op pre p md s = .ok blob s') :
    ∃ addr kp sc t, parse md.uri = .ok (addr, kp) ∧
      op.answer env t sc kp md.resourceName p = .ok blob ∧ env.endSession (t + 1) sc = .ok () := by
  cases hp : parse md.uri with
  | error e => simp [ekmSecureSessionWith, hp, Go.bind_apply] at h
  | ok ak =>
      obtain ⟨addr, kp⟩ := ak
      cases hc : clientFor addr s with
      | error f s₁ => simp [ekmSecureSessionWith, hp, Go.bind_apply, hc] at h
      | ok sc s₁ =>
          rw [ekmSecureSessionWith_of_client env hp hc] at h
          refine ⟨addr, kp, sc, s₁.log.length, rfl, ?_⟩
          split at h
          · cases h
          · rename_i blob' ha
            split at h
            · rename_i he
              cases h
              exact ⟨ha, he⟩
            · cases h

/-- A secure-session call whose session opens, whose operation is answered and whose
teardown succeeds returns the answer, having only appended calls. -/
theorem ekmSecureSessionWith_ok {op : SessionOp} {pre : String} {p blob : Bytes}
    {md : KekMetadata} {addr kp : String} {s s₁ : Sys C} {sc : SessionClient}
    (hp : parse md.uri = .ok (addr, kp)) (hc : clientFor addr s = .ok sc s₁) (hx : s.Extends s₁)
    (ha : ∀ t sc, op.answer env t sc kp md.resourceName p = .ok blob)
    (he : ∀ t sc, env.endSession t sc = .ok ()) :
    ∃ s', ekmSecureSessionWith env parse clientFor op pre p md s = .ok blob s' ∧
      s.Extends s' := by
  rw [ekmSecureSessionWith_of_client env hp hc, ha, he]
  exact ⟨_, rfl, hx.trans ((Sys.Extends.record _ (SessionOp.event_ne_close _ _ _ _ _)).trans
    (.record _ (by simp)))⟩

end Session

theorem ekmSecureSession_sound {op : SessionOp} {pre : String} {p blob : Bytes}
    {md : KekMetadata} {s s' : Sys StetClient}
    (h : ekmSecureSession env op pre p md s = .ok blob s') :
    ∃ addr kp sc t, parseEKMKeyURI env md.uri = .ok (addr, kp) ∧
      op.answer env t sc kp md.resourceName p = .ok blob ∧ env.endSession (t + 1) sc = .ok () :=
  ekmSecureSessionWith_sound env h

theorem appends_ekmClientFor (addr : String) (md : KekMetadata) :
    Appends (ekmClientFor env addr md) := by
  refine .get_bind fun s => ?_
  dsimp only
  split
  · exact .pure _
  · exact .bind (appends_generateTokenWithAudience _ _) fun _ =>
      .wrapError _ (appends_establishSecureSession _ _ _ _)

theorem appends_ekmSecureSession (op : SessionOp) (pre : String) (p : Bytes) (md : KekMetadata) :
    Appends (ekmSecureSession env op pre p md) :=
  appends_ekmSecureSessionWith env (fun addr => appends_ekmClientFor env addr md) op pre p md

/-! ### The session a call opens -/

/-- The session client an EKM call that opens it at time `t` runs its operation on, and the
time of the operation: the test fake at once, or the session established, with a token for
`addr`, right after the token. -/
def SessionAt (fake skipVerify : Bool) (addr : String) (md : KekMetadata) (t : Nat)
    (sc : SessionClient) (t' : Nat) : Prop :=
  fake = true ∧ sc = .fake ∧ t' = t ∨
    fake = false ∧ (∃ tok, env.generateTokenWithAudience t addr = .ok tok ∧
      env.establishSecureSession (t + 1) md.uri tok skipVerify = .ok ()) ∧
      sc = .established (t + 1) ∧ t' = t + 2

/-- `ekmClientFor` returns the session `SessionAt` names, at the time it names. -/
theorem ekmClientFor_eq_ok_iff {addr : String} {md : KekMetadata} {s : Sys StetClient}
    {sc : SessionClient} {t' : Nat} :
    (∃ s', ekmClientFor env addr md s = .ok sc s' ∧ s'.log.length = t') ↔
      SessionAt env s.client.fakeSecureSessionClient s.client.insecureSkipVerify addr md
        s.log.length sc t' := by
  simp only [SessionAt, ekmClientFor, Go.bind_apply, Go.get_apply]
  cases s.client.fakeSecureSessionClient with
  | true =>
      simp only [if_true, Go.pure_apply, EStateM.Result.ok.injEq, true_and, Bool.true_eq_false,
        false_and, or_false]
      constructor
      · rintro ⟨s', ⟨rfl, rfl⟩, rfl⟩
        exact ⟨rfl, rfl⟩
      · rintro ⟨rfl, rfl⟩
        exact ⟨s, ⟨rfl, rfl⟩, rfl⟩
  | false =>
      simp only [if_false, Bool.false_eq_true, false_and, true_and, false_or, Go.bind_apply,
        generateTokenWithAudience, external_apply]
      cases ht : env.generateTokenWithAudience s.log.length addr with
      | error e => simp
      | ok tok =>
          simp only [Go.wrapError, establishSecureSession, external_apply, Sys.record_log,
            List.length_append, List.length_singleton, Except.ok.injEq, exists_eq_left']
          cases env.establishSecureSession (s.log.length + 1) md.uri tok
            s.client.insecureSkipVerify <;> simp [Except.map, eq_comm, and_comm]

/-- A secure-session call returns `blob` exactly when the key URI parses, the session opens,
the operation answers `blob` at the time the session leaves, and the `EndSession` right
after it succeeds. -/
theorem ekmSecureSession_eq_ok_iff {op : SessionOp} {pre : String} {p blob : Bytes}
    {md : KekMetadata} {s : Sys StetClient} :
    (∃ s', ekmSecureSession env op pre p md s = .ok blob s') ↔
      ∃ addr kp sc t', parseEKMKeyURI env md.uri = .ok (addr, kp) ∧
        SessionAt env s.client.fakeSecureSessionClient s.client.insecureSkipVerify addr md
          s.log.length sc t' ∧
        op.answer env t' sc kp md.resourceName p = .ok blob ∧ env.endSession (t' + 1) sc = .ok () := by
  cases hp : parseEKMKeyURI env md.uri with
  | error e => simp [ekmSecureSession, ekmSecureSessionWith, hp, Go.bind_apply]
  | ok ak =>
      obtain ⟨addr, kp⟩ := ak
      cases hc : ekmClientFor env addr md s with
      | error f s₁ =>
          simp only [ekmSecureSession, ekmSecureSessionWith, hp, Go.ofExcept_ok, Go.bind_apply,
            Go.pure_apply, hc]
          constructor
          · rintro ⟨_, ⟨⟩⟩
          · rintro ⟨addr', kp', sc, t', hp', hs, -⟩
            cases hp'
            obtain ⟨s₂, hc', -⟩ := (ekmClientFor_eq_ok_iff env).mpr hs
            rw [hc] at hc'
            cases hc'
      | ok sc s₁ =>
          have hs := (ekmClientFor_eq_ok_iff env).mp ⟨s₁, hc, rfl⟩
          rw [ekmSecureSession, ekmSecureSessionWith_of_client env hp hc]
          constructor
          · rintro ⟨s', h⟩
            refine ⟨addr, kp, sc, s₁.log.length, rfl, hs, ?_⟩
            split at h
            · cases h
            · rename_i blob' ha
              split at h
              · cases h
                exact ⟨ha, by assumption⟩
              · cases h
          · rintro ⟨addr', kp', sc', t', hp', hs', ha, he⟩
            cases hp'
            obtain ⟨s₂, hc', rfl⟩ := (ekmClientFor_eq_ok_iff env).mpr hs'
            rw [hc] at hc'
            cases hc'
            rw [ha, he]
            exact ⟨_, rfl⟩

/-! ### A working session layer -/

/-- The session layer works: a token and a session for every address, and a teardown
that never fails. -/
structure SessionsWork (env : Env) : Prop where
  token : ∀ t audience, ∃ tok, env.generateTokenWithAudience t audience = .ok tok
  establish : ∀ t uri tok skip, env.establishSecureSession t uri tok skip = .ok ()
  endSession : ∀ t sc, env.endSession t sc = .ok ()

theorem ekmClientFor_ok {env : Env} (hw : SessionsWork env) (addr : String) (md : KekMetadata)
    (s : Sys StetClient) : ∃ sc s₁, ekmClientFor env addr md s = .ok sc s₁ ∧ s.Extends s₁ := by
  simp only [ekmClientFor, Go.bind_apply, Go.get_apply]
  split
  · exact ⟨_, _, rfl, .refl s⟩
  · obtain ⟨tok, ht⟩ := hw.token s.log.length addr
    simp only [Go.bind_apply, generateTokenWithAudience, external_apply, ht, Go.wrapError,
      establishSecureSession, hw.establish, Except.map]
    exact ⟨_, _, rfl, (Sys.Extends.record _ (by simp)).trans (.record _ (by simp))⟩

/-- In a working session layer, a call whose operation is answered returns the answer. -/
theorem ekmSecureSession_ok {env : Env} (hw : SessionsWork env) {op : SessionOp} {pre : String}
    {p blob : Bytes} {md : KekMetadata} {addr kp : String}
    (hp : parseEKMKeyURI env md.uri = .ok (addr, kp))
    (ha : ∀ t sc, op.answer env t sc kp md.resourceName p = .ok blob) (s : Sys StetClient) :
    ∃ s', ekmSecureSession env op pre p md s = .ok blob s' ∧ s.Extends s' := by
  obtain ⟨sc, s₁, hc, hx⟩ := ekmClientFor_ok hw addr md s
  exact ekmSecureSessionWith_ok env hp hc hx ha hw.endSession

end Stet.Client

import Stet.Go

/-!
The conformance binary: it runs three `BeginSession` cases and three `Handshake` cases
against a server and prints one line per case, passed or failed.

The server under test is any pair of functions answering by the number of calls made
before, so a theorem over a `Server` covers every behaviour of the server. The TLS client
behind the transport shim is a parameter too: the records of its Client Hello, and what
it sends once it has read the server's records.

A case's helper returns Go's `error` as `Option String`, `none` being nil. Printing a
failed case calls `err.Error()`, which dereferences nil when the case failed because no
error came back.

Each case is characterised by what the server answered at the calls it made
(`runBeginSessionTestCase_eq_ok`, `runHandshakeTestCase_eq_ok`), and the loops put the
cases together: when `main` returns, every line it printed is `passed` exactly when the
server's answers were the ones the case expected, at the calls that case made. The
verdicts carry the running count of calls: a `BeginSession` case makes one, a `Handshake`
case two when its `BeginSession` succeeds and one otherwise (`handshakeCalls`).
-/

namespace Stet.Conformance

open Stet

/-- `recordHeaderHandshake`. -/
def recordHeaderHandshake : UInt8 := 0x16

/-- `handshakeHeaderServerHello`. -/
def handshakeHeaderServerHello : UInt8 := 0x02

/-- `sspb.BeginSessionResponse`. -/
structure BeginSessionResponse where
  sessionContext : Bytes
  tlsRecords : Bytes
  deriving DecidableEq, Repr

/-- The server under test: `BeginSession` on the request's TLS records, and `Handshake` on
the session context and the TLS records; the answer to a call may depend on the calls
before it. -/
structure Server where
  beginSession : Nat → Bytes → Except String BeginSessionResponse
  handshake : Nat → Bytes → Bytes → Except String Bytes

/-- The TLS client behind the shim: the records of its Client Hello, and the records it
sends after reading the server's. -/
structure TlsClient where
  clientHello : Bytes
  answer : Bytes → Bytes

/-- A line the binary prints. -/
inductive Line where
  | heading (text : String)
  | passed (testName : String)
  | failed (testName err : String)
  deriving DecidableEq, Repr

/-- A run of the binary: the calls made to the server so far and the lines printed. -/
structure Run where
  calls : Nat
  printed : List Line
  deriving DecidableEq, Repr

/-- The mutations the cases apply to the TLS records or the session context:
`identityFn`, `emptyFn`, and `r[5] = 0xFF` on the Client Hello. -/
inductive Mutation where
  | identity
  | empty
  | malformClientHello
  deriving DecidableEq, Repr

/-- A mutation applied to `r`; writing byte 5 of a shorter slice panics. -/
def Mutation.apply : Mutation → Bytes → Go Run Bytes
  | .identity, r => pure r
  | .empty, _ => pure []
  | .malformClientHello, r => Go.set r 5 0xFF

variable (srv : Server) (tls : TlsClient)

/-- `c.client.BeginSession`. -/
def beginSession (tlsRecords : Bytes) : Go Run BeginSessionResponse := fun s =>
  match srv.beginSession s.calls tlsRecords with
  | .ok r => .ok r { s with calls := s.calls + 1 }
  | .error e => .error (.error e) { s with calls := s.calls + 1 }

/-- `c.client.Handshake`, whose answer's TLS records are returned. -/
def handshake (sessionContext tlsRecords : Bytes) : Go Run Bytes := fun s =>
  match srv.handshake s.calls sessionContext tlsRecords with
  | .ok r => .ok r { s with calls := s.calls + 1 }
  | .error e => .error (.error e) { s with calls := s.calls + 1 }

/-- A checked call to the server counts one call and returns its answer as a value. -/
theorem attempt_beginSession (tlsRecords : Bytes) (s : Run) :
    Go.attempt (beginSession srv tlsRecords) s =
      .ok (srv.beginSession s.calls tlsRecords) { s with calls := s.calls + 1 } := by
  simp only [Go.attempt, beginSession]
  cases srv.beginSession s.calls tlsRecords <;> rfl

theorem attempt_handshake (sessionContext tlsRecords : Bytes) (s : Run) :
    Go.attempt (handshake srv sessionContext tlsRecords) s =
      .ok (srv.handshake s.calls sessionContext tlsRecords) { s with calls := s.calls + 1 } := by
  simp only [Go.attempt, handshake]
  cases srv.handshake s.calls sessionContext tlsRecords <;> rfl

/-- `fmt.Println` and `colour.Printf`. -/
def print (l : Line) : Go Run Unit :=
  modify fun s => { s with printed := s.printed ++ [l] }

/-! ### The cases -/

/-- `runBeginSessionTestCase`. -/
def runBeginSessionTestCase (mutateTLSRecords : Mutation) : Go Run (Option String) := do
  let tlsRecords ← mutateTLSRecords.apply tls.clientHello
  match ← Go.attempt (beginSession srv tlsRecords) with
  | .error e => pure (some e)
  | .ok resp =>
      if (← Go.index resp.tlsRecords 0) ≠ recordHeaderHandshake then
        pure (some "Handshake record not received")
      else if (← Go.index resp.tlsRecords 5) ≠ handshakeHeaderServerHello then
        pure (some "Response is not Server Hello")
      else pure none

/-- `runHandshakeTestCase`. The check after `Handshake` reads the records of the
`BeginSession` response. -/
def runHandshakeTestCase (mutateTLSRecords mutateSessionKey : Mutation) :
    Go Run (Option String) := do
  match ← Go.attempt (beginSession srv tls.clientHello) with
  | .error e => pure (some e)
  | .ok resp =>
      let sessionContext ← mutateSessionKey.apply resp.sessionContext
      let tlsRecords ← mutateTLSRecords.apply (tls.answer resp.tlsRecords)
      match ← Go.attempt (handshake srv sessionContext tlsRecords) with
      | .error e => pure (some e)
      | .ok _ =>
          if resp.tlsRecords.length > 0 then
            if (← Go.index resp.tlsRecords 0) ≠ recordHeaderHandshake then
              pure (some "Handshake record not received")
            else pure none
          else pure none

/-- The report of one case: passed when an error came back exactly when one was
expected, and otherwise failed with `err.Error()`. -/
def report (testName : String) (expectErr : Bool) (err : Option String) : Go Run Unit :=
  if expectErr = err.isSome then print (.passed testName)
  else match err with
    | some e => print (.failed testName e)
    | none => Go.crash nilDereference

/-- `beginSessionTest`. -/
structure BeginSessionTest where
  testName : String
  expectErr : Bool
  mutateTLSRecords : Mutation

/-- `handshakeTest`. -/
structure HandshakeTest where
  testName : String
  expectErr : Bool
  mutateTLSRecords : Mutation
  mutateSessionKey : Mutation

/-- The `BeginSession` cases of `main`. -/
def beginSessionTests : List BeginSessionTest :=
  [⟨"Valid request with proper TLS Client Hello", false, .identity⟩,
   ⟨"Malformed Client Hello in request", true, .malformClientHello⟩,
   ⟨"No TLS records in request", true, .empty⟩]

/-- The `Handshake` cases of `main`. -/
def handshakeTests : List HandshakeTest :=
  [⟨"Valid request with proper TLS Client Handshake", false, .identity, .identity⟩,
   ⟨"No TLS records in request", true, .empty, .identity⟩,
   ⟨"Invalid session key", true, .identity, .empty⟩]

/-- The loop over the `BeginSession` cases. -/
def runBeginSessionTests : List BeginSessionTest → Go Run Unit
  | [] => pure ()
  | t :: ts => do
      let err ← runBeginSessionTestCase srv tls t.mutateTLSRecords
      report t.testName t.expectErr err
      runBeginSessionTests ts

/-- The loop over the `Handshake` cases. -/
def runHandshakeTests : List HandshakeTest → Go Run Unit
  | [] => pure ()
  | t :: ts => do
      let err ← runHandshakeTestCase srv tls t.mutateTLSRecords t.mutateSessionKey
      report t.testName t.expectErr err
      runHandshakeTests ts

/-- `main`. -/
def main : Go Run Unit := do
  print (.heading "Running BeginSession tests...")
  runBeginSessionTests srv tls beginSessionTests
  print (.heading "Running Handshake tests...")
  runHandshakeTests srv tls handshakeTests

/-! ### Servers and a client to run `main` against -/

/-- A run that has made no call and printed nothing. -/
def Run.start : Run := ⟨0, []⟩

/-- A TLS client whose Client Hello is one handshake record. -/
def helloClient : TlsClient := ⟨[0x16, 3, 1, 0, 5, 1, 0, 0], fun _ => [0x14, 3, 3]⟩

/-- A server that answers `helloClient`'s Client Hello, and no other records, with a Server
Hello, and answers `Handshake` with `record` unless the session context or the records
are empty. -/
def strictServer (record : Bytes) : Server :=
  ⟨fun _ r => if r = helloClient.clientHello then .ok ⟨[1], [0x16, 3, 3, 0, 0, 2]⟩
      else .error "bad hello",
    fun _ c r => if c = [] ∨ r = [] then .error "bad" else .ok record⟩

/-- A server that answers every `BeginSession` with `records` and every `Handshake` with
no records. -/
def acceptingServer (records : Bytes) : Server :=
  ⟨fun _ _ => .ok ⟨[1], records⟩, fun _ _ _ => .ok []⟩

/-! ### What a reported case says of the server -/

/-- The server answered with a response whose records start with a handshake record
holding a Server Hello. -/
def ServerHello (a : Except String BeginSessionResponse) : Prop :=
  ∃ resp, a = .ok resp ∧ resp.tlsRecords[0]? = some recordHeaderHandshake ∧
    resp.tlsRecords[5]? = some handshakeHeaderServerHello

/-- When a `Handshake` case finds no fault: `BeginSession` on the Client Hello succeeded,
`Handshake` on the mutated session context and answer succeeded at the next call, and the
records of the `BeginSession` response are empty or start with a handshake record. -/
def HandshakeAccepted (mutateTLSRecords mutateSessionKey : Mutation) (c : Nat) : Prop :=
  ∃ resp ctx rec x, srv.beginSession c tls.clientHello = .ok resp ∧
    (∀ s, mutateSessionKey.apply resp.sessionContext s = .ok ctx s) ∧
    (∀ s, mutateTLSRecords.apply (tls.answer resp.tlsRecords) s = .ok rec s) ∧
    srv.handshake (c + 1) ctx rec = .ok x ∧
    (resp.tlsRecords = [] ∨ resp.tlsRecords[0]? = some recordHeaderHandshake)

/-- What the lines printed for the `BeginSession` cases, from call `c` of the server on,
say of it: each names its case, and is `passed` exactly when the server's answer at the
case's call, on the case's records, was a Server Hello or not as the case expected. Each
case makes one call. -/
inductive BeginSessionVerdicts : Nat → List BeginSessionTest → List Line → Prop
  | nil {c : Nat} : BeginSessionVerdicts c [] []
  | cons {c : Nat} {t : BeginSessionTest} {ts : List BeginSessionTest} {l : Line}
      {ls : List Line} (r : Bytes) :
      (∀ s, t.mutateTLSRecords.apply tls.clientHello s = .ok r s) →
      (l = .passed t.testName ∨ ∃ e, l = .failed t.testName e) →
      (l = .passed t.testName ↔ (t.expectErr ↔ ¬ ServerHello (srv.beginSession c r))) →
      BeginSessionVerdicts (c + 1) ts ls → BeginSessionVerdicts c (t :: ts) (l :: ls)

/-- The calls a `Handshake` case that starts at call `c` makes: `Handshake` follows a
`BeginSession` that succeeded. -/
def handshakeCalls (c : Nat) : Nat :=
  match srv.beginSession c tls.clientHello with
  | .ok _ => 2
  | .error _ => 1

/-- What the lines printed for the `Handshake` cases, from call `c` of the server on, say
of it: each names its case, and is `passed` exactly when `HandshakeAccepted` failed or held
at the case's calls as the case expected. -/
inductive HandshakeVerdicts : Nat → List HandshakeTest → List Line → Prop
  | nil {c : Nat} : HandshakeVerdicts c [] []
  | cons {c : Nat} {t : HandshakeTest} {ts : List HandshakeTest} {l : Line} {ls : List Line} :
      (l = .passed t.testName ∨ ∃ e, l = .failed t.testName e) →
      (l = .passed t.testName ↔
        (t.expectErr ↔ ¬ HandshakeAccepted srv tls t.mutateTLSRecords t.mutateSessionKey c)) →
      HandshakeVerdicts (c + handshakeCalls srv tls c) ts ls →
      HandshakeVerdicts c (t :: ts) (l :: ls)

section Verdicts

variable {srv tls}

/-- A mutation that returns does not touch the run, and returns the same on every run. -/
theorem Mutation.apply_eq_ok {m : Mutation} {r r' : Bytes} {s s' : Run}
    (h : m.apply r s = .ok r' s') : s' = s ∧ ∀ s₂, m.apply r s₂ = .ok r' s₂ := by
  cases m with
  | identity | empty => cases h; exact ⟨rfl, fun _ => rfl⟩
  | malformClientHello =>
      simp only [Mutation.apply, Go.set] at h ⊢
      split at h
      · rename_i hl
        cases h
        exact ⟨rfl, fun _ => by rw [if_pos hl]; rfl⟩
      · cases h

/-- A check of byte `i` of the records that returns: the byte is there, and the check
answered `msg` when it is not `b`, and went on with `k` when it is. -/
theorem checkByte_eq_ok {rs : Bytes} {i : Nat} {b : UInt8} {msg : String}
    {k : Go Run (Option String)} {s s' : Run} {err : Option String}
    (h : (Go.index rs i >>= fun x => if x ≠ b then pure (some msg) else k) s = .ok err s') :
    ∃ x, rs[i]? = some x ∧ (x ≠ b ∧ err = some msg ∧ s' = s ∨ x = b ∧ k s = .ok err s') := by
  obtain ⟨x, _, hx, hk⟩ := Go.bind_eq_ok.mp h
  obtain ⟨hg, rfl⟩ := Go.index_eq_ok hx
  refine ⟨x, hg, ?_⟩
  by_cases hb : x = b
  · simp only [hb, ne_eq, not_true_eq_false, if_false] at hk
    exact .inr ⟨hb, hk⟩
  · simp only [hb, ne_eq, not_false_eq_true, if_true, Go.pure_eq_ok] at hk
    exact .inl ⟨hb, hk.1.symm, hk.2.symm⟩

/-- A `BeginSession` case that returns made one call, on the mutated Client Hello, and
found no fault exactly when the server answered it with a Server Hello. -/
theorem runBeginSessionTestCase_eq_ok {m : Mutation} {s s' : Run} {err : Option String}
    (h : runBeginSessionTestCase srv tls m s = .ok err s') :
    ∃ r, (∀ s₂, m.apply tls.clientHello s₂ = .ok r s₂) ∧ s' = { s with calls := s.calls + 1 } ∧
      (err = none ↔ ServerHello (srv.beginSession s.calls r)) := by
  simp only [runBeginSessionTestCase, Go.bind_eq_ok, attempt_beginSession,
    EStateM.Result.ok.injEq] at h
  obtain ⟨r, s₁, hm, _, _, ⟨rfl, rfl⟩, h⟩ := h
  obtain ⟨rfl, hr⟩ := Mutation.apply_eq_ok hm
  refine ⟨r, hr, ?_⟩
  cases hs : srv.beginSession s₁.calls r with
  | error e =>
      simp only [hs, Go.pure_eq_ok] at h
      obtain ⟨rfl, rfl⟩ := h
      exact ⟨rfl, by simp [ServerHello]⟩
  | ok resp =>
      simp only [hs] at h
      obtain ⟨b₀, hg₀, ⟨hb₀, rfl, rfl⟩ | ⟨rfl, h⟩⟩ := checkByte_eq_ok h
      · exact ⟨rfl, by simp [ServerHello, hg₀, hb₀]⟩
      obtain ⟨b₅, hg₅, ⟨hb₅, rfl, rfl⟩ | ⟨rfl, h⟩⟩ := checkByte_eq_ok h
      · exact ⟨rfl, by simp [ServerHello, hg₅, hb₅]⟩
      obtain ⟨rfl, rfl⟩ := Go.pure_eq_ok.mp h
      exact ⟨rfl, by simp [ServerHello, hg₀, hg₅]⟩

/-- Once `BeginSession` answered and the mutations gave `ctx` and `rec`, `HandshakeAccepted`
asks of the `Handshake` answer and of the `BeginSession` records only. -/
theorem handshakeAccepted_iff {mt mk : Mutation} {c : Nat} {resp : BeginSessionResponse}
    {ctx rec : Bytes} (hs : srv.beginSession c tls.clientHello = .ok resp)
    (hk : ∀ s, mk.apply resp.sessionContext s = .ok ctx s)
    (hm : ∀ s, mt.apply (tls.answer resp.tlsRecords) s = .ok rec s) :
    HandshakeAccepted srv tls mt mk c ↔ (∃ x, srv.handshake (c + 1) ctx rec = .ok x) ∧
      (resp.tlsRecords = [] ∨ resp.tlsRecords[0]? = some recordHeaderHandshake) := by
  constructor
  · rintro ⟨resp', ctx', rec', x, hr, hck, hcm, hx, hl⟩
    obtain rfl : resp' = resp := Except.ok.inj (hr.symm.trans hs)
    obtain rfl : ctx' = ctx := (EStateM.Result.ok.inj ((hck ⟨0, []⟩).symm.trans (hk _))).1
    obtain rfl : rec' = rec := (EStateM.Result.ok.inj ((hcm ⟨0, []⟩).symm.trans (hm _))).1
    exact ⟨⟨x, hx⟩, hl⟩
  · rintro ⟨⟨x, hx⟩, hl⟩
    exact ⟨resp, ctx, rec, x, hs, hk, hm, hx, hl⟩

/-- A `Handshake` case that returns made `handshakeCalls` calls, and found no fault
exactly when `HandshakeAccepted` holds at the call count it started from. -/
theorem runHandshakeTestCase_eq_ok {mt mk : Mutation} {s s' : Run} {err : Option String}
    (h : runHandshakeTestCase srv tls mt mk s = .ok err s') :
    s'.printed = s.printed ∧ s'.calls = s.calls + handshakeCalls srv tls s.calls ∧
      (err = none ↔ HandshakeAccepted srv tls mt mk s.calls) := by
  simp only [runHandshakeTestCase, Go.bind_eq_ok, attempt_beginSession,
    EStateM.Result.ok.injEq] at h
  obtain ⟨_, _, ⟨rfl, rfl⟩, h⟩ := h
  cases hs : srv.beginSession s.calls tls.clientHello with
  | error e =>
      simp only [hs, Go.pure_eq_ok] at h
      obtain ⟨rfl, rfl⟩ := h
      simp [HandshakeAccepted, handshakeCalls, hs]
  | ok resp =>
      have hc : handshakeCalls srv tls s.calls = 2 := by simp [handshakeCalls, hs]
      simp only [hs, Go.bind_eq_ok, attempt_handshake, EStateM.Result.ok.injEq] at h
      obtain ⟨ctx, _, hk, rec, _, hm, _, _, ⟨rfl, rfl⟩, h⟩ := h
      obtain ⟨rfl, hk'⟩ := Mutation.apply_eq_ok hk
      obtain ⟨rfl, hm'⟩ := Mutation.apply_eq_ok hm
      rw [handshakeAccepted_iff hs hk' hm']
      cases hh : srv.handshake (s.calls + 1) ctx rec with
      | error e =>
          simp only [hh, Go.pure_eq_ok] at h
          obtain ⟨rfl, rfl⟩ := h
          simp [hc]
      | ok x =>
          simp only [hh] at h
          split at h
          · rename_i hl
            obtain ⟨b₀, hg₀, ⟨hb₀, rfl, rfl⟩ | ⟨rfl, h⟩⟩ := checkByte_eq_ok h
            · simp [hc, hg₀, hb₀, List.ne_nil_of_length_pos hl]
            obtain ⟨rfl, rfl⟩ := Go.pure_eq_ok.mp h
            simp [hc, hg₀]
          · rename_i hl
            obtain ⟨rfl, rfl⟩ := Go.pure_eq_ok.mp h
            simp [hc, List.eq_nil_of_length_eq_zero (Nat.eq_zero_of_not_pos hl)]

/-- A report that returns printed one line naming the case: `passed` exactly when an
error came back exactly when one was expected, and otherwise `failed` with that error. -/
theorem report_eq_ok {testName : String} {expectErr : Bool} {err : Option String} {s s' : Run}
    (h : report testName expectErr err s = .ok () s') :
    ∃ l, s' = { s with printed := s.printed ++ [l] } ∧
      (l = .passed testName ∨ ∃ e, l = .failed testName e) ∧
      (l = .passed testName ↔ expectErr = err.isSome) := by
  unfold report at h
  split at h
  · rename_i he
    cases h
    exact ⟨_, rfl, .inl rfl, by simp [he]⟩
  · rename_i he
    cases err with
    | some e => cases h; exact ⟨_, rfl, .inr ⟨e, rfl⟩, by simpa using he⟩
    | none => cases h

theorem passed_iff {b : Bool} {err : Option String} {P : Prop} (h : err = none ↔ P) :
    b = err.isSome ↔ (b = true ↔ ¬ P) := by
  cases b <;> cases err <;> simp_all

theorem runBeginSessionTests_eq_ok {ts : List BeginSessionTest} {s s' : Run}
    (h : runBeginSessionTests srv tls ts s = .ok () s') :
    s'.calls = s.calls + ts.length ∧
      ∃ ls, s'.printed = s.printed ++ ls ∧ BeginSessionVerdicts srv tls s.calls ts ls := by
  induction ts generalizing s with
  | nil => cases h; exact ⟨rfl, [], by simp, .nil⟩
  | cons t ts ih =>
      simp only [runBeginSessionTests, Go.bind_eq_ok] at h
      obtain ⟨err, _, hc, _, _, hr, h⟩ := h
      obtain ⟨r, hm, rfl, hn⟩ := runBeginSessionTestCase_eq_ok hc
      obtain ⟨l, rfl, hl, hp⟩ := report_eq_ok hr
      obtain ⟨hcalls, ls, hls, hf⟩ := ih h
      refine ⟨by simp only [hcalls, List.length_cons]; omega, l :: ls, by simp [hls], ?_⟩
      exact .cons r hm hl (hp.trans (passed_iff hn)) hf

theorem runHandshakeTests_eq_ok {ts : List HandshakeTest} {s s' : Run}
    (h : runHandshakeTests srv tls ts s = .ok () s') :
    ∃ ls, s'.printed = s.printed ++ ls ∧ HandshakeVerdicts srv tls s.calls ts ls := by
  induction ts generalizing s with
  | nil => cases h; exact ⟨[], by simp, .nil⟩
  | cons t ts ih =>
      simp only [runHandshakeTests, Go.bind_eq_ok] at h
      obtain ⟨err, s₁, hc, _, _, hr, h⟩ := h
      obtain ⟨hs₁, hc₁, hn⟩ := runHandshakeTestCase_eq_ok hc
      obtain ⟨l, rfl, hl, hp⟩ := report_eq_ok hr
      obtain ⟨ls, hls, hf⟩ := ih h
      exact ⟨l :: ls, by simp [hls, hs₁], .cons hl (hp.trans (passed_iff hn)) (hc₁ ▸ hf)⟩

/-- When `main` returns, it printed the two headings and one line per case, and each
case's line is `passed` exactly when the server's answer at the calls the case made was
the one the case expected: for a `BeginSession` case, a Server Hello or not; for a
`Handshake` case, `HandshakeAccepted` or not, whose record check reads the response to
`BeginSession`. The `BeginSession` cases make the three calls after those made before
`main`, and the `Handshake` cases start after them. -/
theorem main_verdicts {s s' : Run} (h : main srv tls s = .ok () s') :
    ∃ ls₁ ls₂, s'.printed = s.printed ++ (.heading "Running BeginSession tests..." :: ls₁ ++
        .heading "Running Handshake tests..." :: ls₂) ∧
      BeginSessionVerdicts srv tls s.calls beginSessionTests ls₁ ∧
      HandshakeVerdicts srv tls (s.calls + 3) handshakeTests ls₂ := by
  simp only [main, print, Go.bind_eq_ok, Go.modify_apply, EStateM.Result.ok.injEq] at h
  obtain ⟨_, _, ⟨-, rfl⟩, _, _, hb, _, _, ⟨-, rfl⟩, hh⟩ := h
  obtain ⟨hc₁, ls₁, hls₁, hf₁⟩ := runBeginSessionTests_eq_ok hb
  obtain ⟨ls₂, hls₂, hf₂⟩ := runHandshakeTests_eq_ok hh
  exact ⟨ls₁, ls₂, by simp [hls₂, hls₁], hf₁, hc₁ ▸ hf₂⟩

theorem main_verdicts_conforming :
    ∃ ls₁ ls₂, (resultState (main (strictServer [0x16]) helloClient Run.start)).printed =
        [] ++ (.heading "Running BeginSession tests..." :: ls₁ ++
          .heading "Running Handshake tests..." :: ls₂) ∧
      BeginSessionVerdicts (strictServer [0x16]) helloClient 0 beginSessionTests ls₁ ∧
      HandshakeVerdicts (strictServer [0x16]) helloClient (0 + 3) handshakeTests ls₂ :=
  main_verdicts (show main (strictServer [0x16]) helloClient Run.start = .ok () _ from rfl)

end Verdicts

/-- Three servers on which `main` gives no sound report. One whose `BeginSession` answers
no TLS records makes it panic on `records[0]`; one that accepts a malformed Client Hello
makes it panic in `err.Error()`; and one whose `Handshake` answers a record that is not a
handshake record has every case reported passed. -/
theorem main_unsound :
    (∃ s', main (acceptingServer []) helloClient Run.start =
        .error (.panic (Go.indexOutOfRange 0 0)) s') ∧
    (∃ s', main (acceptingServer [0x16, 3, 3, 0, 0, 2]) helloClient Run.start =
        .error (.panic nilDereference) s') ∧
    main (strictServer [0x17]) helloClient Run.start =
      .ok () ⟨9, [.heading "Running BeginSession tests...",
        .passed "Valid request with proper TLS Client Hello",
        .passed "Malformed Client Hello in request", .passed "No TLS records in request",
        .heading "Running Handshake tests...",
        .passed "Valid request with proper TLS Client Handshake",
        .passed "No TLS records in request", .passed "Invalid session key"]⟩ :=
  ⟨⟨_, rfl⟩, ⟨_, rfl⟩, rfl⟩

end Stet.Conformance

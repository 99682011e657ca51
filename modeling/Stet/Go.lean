import Mathlib.Data.List.Basic

/-!
Go calls as state transformers.

A function of the STET client returns a value, returns a non-nil `error`, or panics at
run time (a nil dereference, an index out of range). `Go σ α` is `EStateM` over the two
kinds of `Fault`, and the state is kept on every path: what a call did before it failed
(the RPCs it issued, the clients it closed) stays observable afterwards.

Three idioms of the source get a name. `x, err := f(); if err != nil { return ...,
fmt.Errorf("...: %v", err) }` is `Go.wrapError`; the loops that record a failure and
`continue` read the error as a value through `Go.attempt`, which lets a panic through;
and a slice index or a read through a nil proto wrapper panics by `Go.index` and
`Go.deref`.

Two kinds of statement are made about every run of a call, however it ends. `Keeps R x`
says that the state a run of `x` leaves is `R`-related to the one it started from; for a
preorder `R` the rules of `Keeps` build it for a function from its statements, so that each
property of the client's call log is proved once per function. `NilSafe x P` says that a
run of `x` panics only on a nil dereference and returns only values satisfying `P`.
-/

namespace Stet

/-- A Go `[]byte`. -/
abbrev Bytes := List UInt8

/-- How a Go call ends when it does not return normally. -/
inductive Fault where
  /-- It returned a non-nil `error` with this text. -/
  | error (msg : String)
  /-- It panicked at run time. -/
  | panic (msg : String)
  deriving DecidableEq, Repr

/-- A Go call over the state `σ`. -/
abbrev Go (σ α : Type) := EStateM Fault σ α

/-- The state a call leaves behind, however it ended. -/
def resultState {σ α : Type} : EStateM.Result Fault σ α → σ
  | .ok _ s => s
  | .error _ s => s

/-- The text of Go's nil pointer dereference panic. -/
def nilDereference : String :=
  "runtime error: invalid memory address or nil pointer dereference"

namespace Go

variable {σ α β : Type}

/-- `return ..., fmt.Errorf(msg)`. -/
def fail (msg : String) : Go σ α := throw (.error msg)

/-- A run-time panic. -/
def crash (msg : String) : Go σ α := throw (.panic msg)

/-- `x, err := f(); if err != nil { return ..., fmt.Errorf(pre + "%v", err) }`: a
returned error gets the prefix, a panic passes through. -/
def wrapError (pre : String) (x : Go σ α) : Go σ α := fun s =>
  match x s with
  | .error (.error e) s' => .error (.error (pre ++ e)) s'
  | r => r

/-- `x, err := f(); if err != nil { ... }` where the caller goes on: a returned error
becomes a value, a panic keeps unwinding. -/
def attempt (x : Go σ α) : Go σ (Except String α) := fun s =>
  match x s with
  | .ok a s' => .ok (.ok a) s'
  | .error (.error e) s' => .ok (.error e) s'
  | .error (.panic m) s' => .error (.panic m) s'

/-- A `(value, error)` pair returned as it is. -/
def ofExcept : Except String α → Go σ α
  | .ok a => pure a
  | .error e => fail e

/-- The panic of an index `i` out of range for a slice of length `n`. -/
def indexOutOfRange (i n : Nat) : String :=
  "runtime error: index out of range [" ++ toString i ++ "] with length " ++ toString n

/-- Go's `xs[i]`, which panics when `i` is out of range. -/
def index (xs : List α) (i : Nat) : Go σ α :=
  match xs[i]? with
  | some a => pure a
  | none => crash (indexOutOfRange i xs.length)

/-- Go's `xs[i] = a`, which panics when `i` is out of range. -/
def set (xs : List α) (i : Nat) (a : α) : Go σ (List α) :=
  if i < xs.length then pure (xs.set i a) else crash (indexOutOfRange i xs.length)

/-- Reading `.Value` of a proto wrapper field, which panics when the wrapper is nil. -/
def deref : Option α → Go σ α
  | some a => pure a
  | none => crash nilDereference

/-! ### Running a composite call -/

@[simp] theorem pure_apply (a : α) (s : σ) : (pure a : Go σ α) s = .ok a s := rfl

@[simp] theorem fail_apply (msg : String) (s : σ) :
    (fail msg : Go σ α) s = .error (.error msg) s := rfl

@[simp] theorem crash_apply (msg : String) (s : σ) :
    (crash msg : Go σ α) s = .error (.panic msg) s := rfl

@[simp] theorem get_apply (s : σ) : (get : Go σ σ) s = .ok s s := rfl

@[simp] theorem modify_apply (f : σ → σ) (s : σ) : (modify f : Go σ Unit) s = .ok () (f s) := rfl

theorem bind_apply (x : Go σ α) (f : α → Go σ β) (s : σ) :
    (x >>= f) s = match x s with
      | .ok a s' => f a s'
      | .error e s' => .error e s' := by
  show EStateM.bind x f s = _
  unfold EStateM.bind
  cases x s <;> rfl

theorem bind_of_ok {x : Go σ α} {s s' : σ} {a : α} (f : α → Go σ β) (h : x s = .ok a s') :
    (x >>= f) s = f a s' := by
  rw [bind_apply, h]

theorem bind_of_error {x : Go σ α} {s s' : σ} {e : Fault} (f : α → Go σ β)
    (h : x s = .error e s') : (x >>= f) s = .error e s' := by
  rw [bind_apply, h]

/-- A composite call returns exactly when both halves do. -/
theorem bind_eq_ok {x : Go σ α} {f : α → Go σ β} {s s'' : σ} {b : β} :
    (x >>= f) s = .ok b s'' ↔ ∃ a s', x s = .ok a s' ∧ f a s' = .ok b s'' := by
  rw [bind_apply]
  cases x s with
  | ok a s' => exact ⟨fun hf => ⟨a, s', rfl, hf⟩, fun ⟨_, _, he, hf⟩ => by cases he; exact hf⟩
  | error e s' => simp

theorem bind_eq_error {x : Go σ α} {f : α → Go σ β} {s s'' : σ} {e : Fault} :
    (x >>= f) s = .error e s'' ↔
      x s = .error e s'' ∨ ∃ a s', x s = .ok a s' ∧ f a s' = .error e s'' := by
  rw [bind_apply]
  cases x s with
  | ok a s' =>
      refine ⟨fun hf => .inr ⟨a, s', rfl, hf⟩, ?_⟩
      rintro (he | ⟨_, _, he, hf⟩)
      · cases he
      · cases he; exact hf
  | error e' s' => simp

@[simp] theorem wrapError_eq_ok {pre : String} {x : Go σ α} {s s' : σ} {a : α} :
    wrapError pre x s = .ok a s' ↔ x s = .ok a s' := by
  unfold wrapError
  split <;> simp_all

theorem wrapError_of_ok {pre : String} {x : Go σ α} {s s' : σ} {a : α}
    (h : x s = .ok a s') : wrapError pre x s = .ok a s' :=
  wrapError_eq_ok.mpr h

theorem wrapError_of_error {pre : String} {x : Go σ α} {s s' : σ} {e : String}
    (h : x s = .error (.error e) s') : wrapError pre x s = .error (.error (pre ++ e)) s' := by
  simp [wrapError, h]

/-- What a checked call returned says how the call itself ended. -/
theorem attempt_eq_ok {x : Go σ α} {s s' : σ} {r : Except String α}
    (h : attempt x s = .ok r s') :
    match r with
    | .ok a => x s = .ok a s'
    | .error e => x s = .error (.error e) s' := by
  unfold attempt at h
  split at h <;> cases h <;> assumption

/-- A checked call that returned returned the value `a` exactly when the call did. -/
theorem attempt_eq_ok_iff {x : Go σ α} {s s' : σ} {r : Except String α}
    (h : attempt x s = .ok r s') (a : α) : r = .ok a ↔ ∃ s'', x s = .ok a s'' := by
  have hx := attempt_eq_ok h
  cases r with
  | ok a' => simp [hx]
  | error e => simp [hx]

theorem attempt_of_ok {x : Go σ α} {s s' : σ} {a : α} (h : x s = .ok a s') :
    attempt x s = .ok (.ok a) s' := by
  simp [attempt, h]

theorem attempt_of_error {x : Go σ α} {s s' : σ} {e : String}
    (h : x s = .error (.error e) s') : attempt x s = .ok (.error e) s' := by
  simp [attempt, h]

@[simp] theorem ofExcept_ok (a : α) : (ofExcept (.ok a) : Go σ α) = pure a := rfl

@[simp] theorem ofExcept_error (e : String) : (ofExcept (.error e) : Go σ α) = fail e := rfl

theorem index_of_getElem? {xs : List α} {i : Nat} {a : α} (h : xs[i]? = some a) :
    (index xs i : Go σ α) = pure a := by
  simp [index, h]

theorem index_eq_ok {xs : List α} {i : Nat} {a : α} {s s' : σ}
    (h : (index xs i : Go σ α) s = .ok a s') : xs[i]? = some a ∧ s' = s := by
  cases hx : xs[i]? <;> simp only [index, hx, pure_apply, crash_apply] at h
  · cases h
  · cases h
    exact ⟨rfl, rfl⟩

theorem index_of_lt {xs : List α} {i : Nat} (h : i < xs.length) :
    (index xs i : Go σ α) = pure xs[i] :=
  index_of_getElem? (List.getElem?_eq_getElem h)

@[simp] theorem ofExcept_eq_ok {r : Except String α} {s s' : σ} {a : α} :
    (ofExcept r : Go σ α) s = .ok a s' ↔ r = .ok a ∧ s' = s := by
  cases r <;> simp [eq_comm]

@[simp] theorem pure_eq_ok {a b : α} {s s' : σ} :
    (pure a : Go σ α) s = .ok b s' ↔ a = b ∧ s = s' := by
  simp

@[simp] theorem resultState_wrapError (pre : String) (x : Go σ α) (s : σ) :
    resultState (wrapError pre x s) = resultState (x s) := by
  unfold wrapError
  split <;> simp_all [resultState]

@[simp] theorem resultState_attempt (x : Go σ α) (s : σ) :
    resultState (attempt x s) = resultState (x s) := by
  unfold attempt
  split <;> simp_all [resultState]

@[simp] theorem deref_some (a : α) : (deref (some a) : Go σ α) = pure a := rfl

@[simp] theorem deref_none : (deref none : Go σ α) = crash nilDereference := rfl

end Go

/-! ### What every run keeps -/

/-- Every run of `x`, however it ends, leaves a state `R`-related to the one it started
from. -/
def Keeps {σ α : Type} (R : σ → σ → Prop) (x : Go σ α) : Prop :=
  ∀ s, R s (resultState (x s))

namespace Keeps

variable {σ α β : Type} {R : σ → σ → Prop}

theorem of_result [IsRefl σ R] {x : Go σ α} (hx : ∀ s, resultState (x s) = s) : Keeps R x :=
  fun s => (hx s).symm ▸ refl_of R s

theorem pure [IsRefl σ R] (a : α) : Keeps R (Pure.pure a : Go σ α) := of_result fun _ => rfl

theorem fail [IsRefl σ R] (msg : String) : Keeps R (Go.fail msg : Go σ α) :=
  of_result fun _ => rfl

theorem crash [IsRefl σ R] (msg : String) : Keeps R (Go.crash msg : Go σ α) :=
  of_result fun _ => rfl

theorem ofExcept [IsRefl σ R] (r : Except String α) : Keeps R (Go.ofExcept r : Go σ α) := by
  cases r
  exacts [fail _, pure _]

theorem index [IsRefl σ R] (xs : List α) (i : Nat) : Keeps R (Go.index xs i : Go σ α) := by
  unfold Go.index
  split
  exacts [pure _, crash _]

theorem deref [IsRefl σ R] (o : Option α) : Keeps R (Go.deref o : Go σ α) := by
  cases o
  exacts [crash _, pure _]

theorem bind [IsTrans σ R] {x : Go σ α} {f : α → Go σ β} (hx : Keeps R x)
    (hf : ∀ a, Keeps R (f a)) : Keeps R (x >>= f) := by
  intro s
  have := hx s
  rw [Go.bind_apply]
  cases h : x s with
  | ok a s' => rw [h] at this; exact trans_of R this (hf a s')
  | error e s' => rw [h] at this; exact this

theorem get_bind {f : σ → Go σ β} (hf : ∀ s, Keeps R (f s)) : Keeps R (get >>= f) :=
  fun s => hf s s

theorem modify {f : σ → σ} (hf : ∀ s, R s (f s)) : Keeps R (modify f : Go σ Unit) := hf

theorem wrapError {x : Go σ α} (pre : String) (hx : Keeps R x) : Keeps R (Go.wrapError pre x) :=
  fun s => (Go.resultState_wrapError pre x s).symm ▸ hx s

theorem attempt {x : Go σ α} (hx : Keeps R x) : Keeps R (Go.attempt x) :=
  fun s => (Go.resultState_attempt x s).symm ▸ hx s

theorem mono {R' : σ → σ → Prop} {x : Go σ α} (h : ∀ s s', R s s' → R' s s')
    (hx : Keeps R x) : Keeps R' x :=
  fun s => h _ _ (hx s)

end Keeps

/-! ### Which panics a run can raise -/

/-- Every run of `x` that panics dereferences nil, and every run that returns returns a
value satisfying `P`. -/
structure NilSafe {σ α : Type} (x : Go σ α) (P : α → Prop) : Prop where
  panics : ∀ s m s', x s = .error (.panic m) s' → m = nilDereference
  returns : ∀ s a s', x s = .ok a s' → P a

namespace NilSafe

variable {σ α β : Type} {P : α → Prop} {Q : β → Prop}

theorem pure {a : α} (h : P a) : NilSafe (Pure.pure a : Go σ α) P :=
  ⟨fun _ _ _ he => (by cases he), fun _ _ _ he => (by cases he; exact h)⟩

theorem fail (msg : String) : NilSafe (Go.fail msg : Go σ α) P :=
  ⟨fun _ _ _ he => (by cases he), fun _ _ _ he => (by cases he)⟩

theorem bind {x : Go σ α} {f : α → Go σ β} (hx : NilSafe x P)
    (hf : ∀ a, P a → NilSafe (f a) Q) : NilSafe (x >>= f) Q where
  panics s m s'' h := by
    rcases Go.bind_eq_error.mp h with h | ⟨a, s', ha, hb⟩
    · exact hx.panics s m s'' h
    · exact (hf a (hx.returns s a s' ha)).panics s' m s'' hb
  returns s b s'' h := by
    obtain ⟨a, s', ha, hb⟩ := Go.bind_eq_ok.mp h
    exact (hf a (hx.returns s a s' ha)).returns s' b s'' hb

theorem get_bind {f : σ → Go σ β} (hf : ∀ s, NilSafe (f s) Q) : NilSafe (get >>= f) Q :=
  bind (P := fun _ => True) ⟨fun _ _ _ he => (by cases he), fun _ _ _ _ => trivial⟩
    fun s _ => hf s

theorem modify (f : σ → σ) : NilSafe (modify f : Go σ Unit) fun _ => True :=
  ⟨fun _ _ _ he => (by cases he), fun _ _ _ _ => trivial⟩

theorem wrapError {x : Go σ α} (pre : String) (hx : NilSafe x P) :
    NilSafe (Go.wrapError pre x) P where
  panics s m s' h := by
    unfold Go.wrapError at h
    split at h
    · cases h
    · exact hx.panics s m s' h
  returns s a s' h := hx.returns s a s' (Go.wrapError_eq_ok.mp h)

theorem attempt {x : Go σ α} (hx : NilSafe x P) : NilSafe (Go.attempt x) fun _ => True where
  panics s m s' h := by
    unfold Go.attempt at h
    split at h <;> cases h
    exact hx.panics s m s' (by assumption)
  returns _ _ _ _ := trivial

theorem ofExcept (r : Except String α) : NilSafe (Go.ofExcept r : Go σ α) fun _ => True := by
  cases r
  exacts [fail _, pure trivial]

theorem deref (o : Option α) : NilSafe (Go.deref o : Go σ α) fun _ => True := by
  cases o
  · exact ⟨fun _ _ _ he => (by cases he; rfl), fun _ _ _ he => (by cases he)⟩
  · exact pure trivial

theorem index_of_lt {xs : List α} {i : Nat} (h : i < xs.length) :
    NilSafe (Go.index xs i : Go σ α) fun a => xs[i]? = some a := by
  rw [Go.index_of_lt h]
  exact pure (List.getElem?_eq_getElem h)

/-- A run that returns returns a value satisfying `Q`, where every one it can return
does. -/
theorem post {x : Go σ α} {P' : α → Prop} (hx : NilSafe x P) (h : ∀ s a s', x s = .ok a s' → P' a) :
    NilSafe x P' :=
  ⟨hx.panics, h⟩

end NilSafe

end Stet

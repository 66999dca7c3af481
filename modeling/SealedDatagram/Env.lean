import SealedDatagram.Duration
import SealedDatagram.Entropy
import SealedDatagram.Error
import SealedDatagram.Memory
import SealedDatagram.Metrics
/-!
What every party works in: its own state, the random source, the counters, the clock and the memory.
A step always leaves a new surrounding behind, also when it fails, so that what a failed step has
drawn, counted or changed is not lost. What a step cannot recover from halts everything: the
surrounding says so from then on.
-/

namespace SealedDatagram

structure Env (σ : Type) where
  state : σ
  entropy : Entropy := {}
  metrics : Metrics := {}
  /-- Nanoseconds on the monotonic clock. -/
  now : Nat := 0
  memory : Memory := .ample
  /-- Whether something has happened after which nothing goes on. -/
  halted : Bool := false

abbrev Action (σ α : Type) := StateM (Env σ) α

abbrev Fallible (ε σ α : Type) := ExceptT ε (StateM (Env σ)) α

/-- A step that may fail. -/
abbrev Attempt (σ α : Type) := Fallible Error σ α

variable {ε σ τ α : Type} {m : Type → Type} [Monad m] [MonadState (Env σ) m]

def count (f : Metrics → Metrics) : m Unit :=
  modify fun e : Env σ => { e with metrics := f e.metrics }

def getState : m σ := return (← get).state

def setState (s : σ) : m Unit := modify fun e : Env σ => { e with state := s }

def modifyState (f : σ → σ) : m Unit := modify fun e : Env σ => { e with state := f e.state }

/-- Halts everything unless a condition holds without which nothing can go on. -/
def Env.haltUnless (e : Env σ) (holds : Bool) : Env σ := { e with halted := e.halted || !holds }

def halt : m Unit := modify fun e : Env σ => e.haltUnless false

/-- Lets time pass. A clock that has run out stands still with all else. -/
def Env.advance (e : Env σ) (d : Duration) : Env σ :=
  let now := e.now + d.nanos
  { e with now }.haltUnless (Duration.fits ⟨now⟩)

def getNow : m Nat := return (← get).now

def getMemory : m Memory := return (← get).memory

def draw (n : Nat) : Fallible CipherError σ { b : Bytes // b.length = n } := do
  let e ← get
  match h : e.entropy.draw? n with
  | some (b, entropy) =>
    set { e with entropy }
    return ⟨b, Entropy.length_of_draw? h⟩
  | none => throw .randomSource

/-- A step of the cipher engine as a step of the protocol. -/
def orCipher (x : Fallible CipherError σ α) : Attempt σ α := ExceptT.adapt Error.cipher x

/-- A datagram is dropped, and its reason counted. -/
def dropped (e : Error) : Action σ Unit := do
  count Metrics.datagramDropped
  match e with
  | .cipher _ => count Metrics.cipherFailure
  | .rejected _ => count Metrics.handshakeRejected
  | _ => pure ()

/-- Runs a step on a part of the state. -/
def Action.within (part : σ → τ) (put : τ → σ → σ) (a : Action τ α) : Action σ α := fun e =>
  let (x, e') := a { e with state := part e.state }
  (x, { e' with state := put e'.state e.state })

def Fallible.within (part : σ → τ) (put : τ → σ → σ) (x : Fallible ε τ α) : Fallible ε σ α :=
  .mk (Action.within part put x.run)

/-- The outcome of a fallible step and what it leaves behind. -/
def Fallible.exec (x : Fallible ε σ α) (e : Env σ) : Except ε α × Env σ := x.run.run e

end SealedDatagram

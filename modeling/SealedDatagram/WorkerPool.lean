import SealedDatagram.Config.Fault
import SealedDatagram.Signal
import SealedDatagram.Text.Quoted
/-!
An elastic pool of workers that wait for one signal. Every signal consumed runs the pool's job once;
a worker that leaves many signals behind starts another worker, and one that waits in vain for long
retires. A worker is a loop of short steps, each under at most one lock; the steps of different
workers, and those of a caller that stops the pool, come in any order.
-/

namespace SealedDatagram

inductive Stage where
  /-- Look whether the pool aborts. -/
  | checkingAbort
  /-- Look whether the pool is stopping. -/
  | checkingStop
  | waiting
  /-- Look how many signals are left. -/
  | woken
  /-- Start another worker, if the pool may have one. -/
  | growing
  /-- Begin the job, unless the pool aborts. -/
  | ready
  | working
  /-- Retire, if enough workers are left. -/
  | retiring
  /-- Be counted out. -/
  | leaving
  /-- Nothing: it has left, as a retired worker or counted out. -/
  | gone
  deriving DecidableEq, Repr

structure Worker where
  stage : Stage := .checkingAbort
  /-- How often in a row it has waited in vain. -/
  idle : Nat := 0
  deriving DecidableEq, Repr

structure WorkerPool where
  name : String
  config : PoolConfig
  signal : Signal := {}
  running : Nat := 0
  stopping : Bool := false
  aborting : Bool := false
  /-- Every worker ever started, by number. -/
  workers : List Worker := []
  /-- The workers whose threads have neither been joined nor abandoned. -/
  threads : List Nat := []
  begun : Nat := 0
  ended : Nat := 0
  deriving DecidableEq

inductive PoolEvent where
  /-- The next step of a worker that need not wait for anything. -/
  | step (worker : Nat)
  /-- A waiting worker consumes a signal. -/
  | wake (worker : Nat)
  /-- A waiting worker has waited in vain, or is let go by a closed signal. -/
  | timeOut (worker : Nat)
  /-- A job returns or fails; the worker goes on in either case. -/
  | finish (worker : Nat)
  | raise
  | requestStop
  | close
  | abort
  deriving DecidableEq, Repr

namespace WorkerPool

def minimum (p : WorkerPool) : Nat := p.config.minWorkers.toNat

def maximum (p : WorkerPool) : Nat := p.config.maxWorkers.toNat

def setWorker (p : WorkerPool) (i : Nat) (w : Worker) : WorkerPool :=
  { p with workers := p.workers.set i w }

def spawn (p : WorkerPool) : WorkerPool :=
  { p with
    running := p.running + 1
    workers := p.workers ++ [{}]
    threads := p.threads ++ [p.workers.length] }

/-- The step of a worker that need not wait for anything. -/
def stepOf (p : WorkerPool) (i : Nat) (w : Worker) : Option WorkerPool :=
  let go (stage : Stage) : WorkerPool := p.setWorker i { w with stage }
  match w.stage with
  | .checkingAbort => some (go (if p.aborting then .leaving else .checkingStop))
  | .checkingStop => some (go (if p.stopping then .leaving else .waiting))
  | .woken =>
    some (go (if p.signal.pending ≤ p.config.backlogThreshold.toNat then .ready else .growing))
  | .growing =>
    if p.stopping || decide (p.maximum ≤ p.running) then some (go .ready)
    else some (go .ready).spawn
  | .ready =>
    if p.aborting then some (go .leaving)
    else some { go .working with begun := p.begun + 1 }
  | .retiring =>
    if p.minimum < p.running then some { go .gone with running := p.running - 1 }
    else some (p.setWorker i ⟨.checkingAbort, 0⟩)
  | .leaving => some { go .gone with running := p.running - 1 }
  | .waiting | .working | .gone => none

/-- Consuming a signal starts the count of vain waits anew. -/
def wakeOf (p : WorkerPool) (i : Nat) (w : Worker) : Option WorkerPool :=
  match w.stage, p.signal.wait with
  | .waiting, (true, signal) => some { p.setWorker i ⟨.woken, 0⟩ with signal }
  | _, _ => none

def timeOutOf (p : WorkerPool) (i : Nat) (w : Worker) : Option WorkerPool :=
  if w.stage = .waiting then
    let idle := w.idle + 1
    some (p.setWorker i
      ⟨if p.config.maxIdleAttempts.toNat ≤ idle then .retiring else .checkingAbort, idle⟩)
  else none

def finishOf (p : WorkerPool) (i : Nat) (w : Worker) : Option WorkerPool :=
  if w.stage = .working then
    some { p.setWorker i { w with stage := .checkingAbort } with ended := p.ended + 1 }
  else none

/-- What an event makes of a pool; it may not be possible. -/
def next (p : WorkerPool) : PoolEvent → Option WorkerPool
  | .step i => p.workers[i]?.bind (p.stepOf i)
  | .wake i => p.workers[i]?.bind (p.wakeOf i)
  | .timeOut i => p.workers[i]?.bind (p.timeOutOf i)
  | .finish i => p.workers[i]?.bind (p.finishOf i)
  | .raise => some { p with signal := p.signal.raise }
  | .requestStop => some { p with stopping := true }
  | .close => some { p with signal := p.signal.close }
  | .abort => some { p with aborting := true }

def spawnMany : Nat → WorkerPool → WorkerPool
  | 0, p => p
  | n + 1, p => spawnMany n p.spawn

def start (name : String) (config : PoolConfig) : Except Error WorkerPool :=
  if config.problems.isEmpty then
    .ok (spawnMany config.minWorkers.toNat { name, config })
  else .error (.config ("; ".intercalate (config.problems.map Problem.message)))

def isStopping (p : WorkerPool) : Bool := p.aborting || p.stopping

def isGone (p : WorkerPool) (i : Nat) : Bool := p.workers[i]?.all (·.stage == .gone)

/-- Joins the threads that have come to an end; the answer is how many. -/
def reap (p : WorkerPool) : Nat × WorkerPool :=
  ((p.threads.filter p.isGone).length, { p with threads := p.threads.filter (!p.isGone ·) })

/-- Gives up the threads that have not come to an end; the answer is how many. -/
def abandon (p : WorkerPool) : Nat × WorkerPool :=
  ((p.threads.filter (!p.isGone ·)).length, { p with threads := [] })

def shown (p : WorkerPool) : String :=
  "WorkerPool \x7b name: " ++ Text.quoted p.name ++ ", workers: " ++ toString p.running ++ " \x7d"

end WorkerPool

end SealedDatagram

import SealedDatagram.WorkerPool
/-!
A pool whose jobs end at a gate: each takes one permit, or all pass once the gate is open. The
workers run on one schedule, in which every worker goes on until it has to wait for a signal or at
the gate, and in which no time passes but when it is waited for.
-/

namespace SealedDatagram

structure GatedPool where
  pool : WorkerPool
  permits : Nat := 0
  isOpen : Bool := false
  deriving DecidableEq

namespace GatedPool

def nextEvent (g : GatedPool) (i : Nat) (w : Worker) : Option PoolEvent :=
  match w.stage with
  | .gone => none
  | .waiting =>
    if g.pool.signal.closed then some (.timeOut i)
    else if 0 < g.pool.signal.pending then some (.wake i)
    else none
  | .working => if g.isOpen || decide (0 < g.permits) then some (.finish i) else none
  | _ => some (.step i)

/-- The event of the first worker that can do something. -/
def firstEvent (g : GatedPool) : Option PoolEvent :=
  g.pool.workers.zipIdx.findSome? fun (w, i) => g.nextEvent i w

/-- One event; the end of a job takes a permit. -/
def apply (g : GatedPool) (e : PoolEvent) : GatedPool :=
  match g.pool.next e, e with
  | none, _ => g
  | some pool, .finish _ =>
    { g with pool, permits := if g.isOpen then g.permits else g.permits - 1 }
  | some pool, _ => { g with pool }

def run : (fuel : Nat) → GatedPool → GatedPool
  | 0, g => g
  | fuel + 1, g =>
    match g.firstEvent with
    | none => g
    | some e => run fuel (g.apply e)

/-- Lets the workers go on until all of them have to wait. Each signal and each worker takes a
bounded number of steps. -/
def settle (g : GatedPool) : GatedPool :=
  run (10 * (g.pool.signal.pending + g.pool.workers.length + g.pool.maximum + 1)) g

def after (g : GatedPool) (l : List PoolEvent) : GatedPool := l.foldl apply g

def start (name : String) (config : PoolConfig) (isOpen : Bool) : Except Error GatedPool :=
  (WorkerPool.start name config).map fun pool => settle { pool, isOpen }

def raise (g : GatedPool) (n : Nat) : GatedPool := (g.after (List.replicate n .raise)).settle

def permit (g : GatedPool) (n : Nat) : GatedPool := { g with permits := g.permits + n }.settle

def openGate (g : GatedPool) : GatedPool := { g with isOpen := true }.settle

def isBusy (g : GatedPool) : Bool :=
  0 < g.pool.signal.pending || g.pool.workers.any (·.stage == .working)

/-- Gives permits one at a time as long as the pool is busy and each brings it on; the answer is how
many. -/
def drain : (fuel : Nat) → GatedPool → Nat × GatedPool
  | 0, g => (0, g)
  | fuel + 1, g =>
    let g' := g.permit 1
    if g.isBusy && g.pool.ended < g'.pool.ended then
      let (n, g') := drain fuel g'
      (n + 1, g')
    else (0, g)

def drainAll (g : GatedPool) : Nat × GatedPool :=
  drain (g.pool.signal.pending + g.pool.workers.length) g

/-- A waiting worker waits in vain as often as it may, and then retires if it can. -/
def giveUp (g : GatedPool) (i : Nat) : GatedPool :=
  let last := g.pool.config.maxIdleAttempts.toNat - 1
  match g.pool.workers[i]? with
  | some ⟨.waiting, _⟩ =>
    { g with pool := g.pool.setWorker i ⟨.waiting, last⟩ }.apply (.timeOut i) |>.settle
  | _ => g

/-- Time passes, until no waiting worker can retire. -/
def pass (g : GatedPool) : GatedPool := (List.range g.pool.workers.length).foldl giveUp g

/-- Opens the gate and waits up to `patience` for the pool to have `n` workers; the answer is
whether it came to that. -/
def openAndAwait (patience : Duration) (n : Nat) (g : GatedPool) : Bool × GatedPool :=
  let g := g.openGate
  let c := g.pool.config
  let g := if g.pool.running = n ∨ patience.nanos < c.waitTimeout.nanos * c.maxIdleAttempts.toNat
    then g else g.pass
  (g.pool.running = n, g)

def reap (g : GatedPool) : Nat × GatedPool :=
  let g := g.settle
  let (n, pool) := g.pool.reap
  (n, { g with pool })

/-- Asks every worker to leave after its job; the answer is whether all have, once no other can. -/
def gracefulStop (g : GatedPool) : Bool × GatedPool :=
  let g := (g.after [.requestStop, .close]).settle
  (g.pool.running = 0, g.reap.2)

/-- Gives up on every worker; the answer is how many had not left. -/
def forcedStop (g : GatedPool) : Nat × GatedPool :=
  let g := g.after [.abort, .requestStop]
  let (n, pool) := g.pool.abandon
  (n, { g with pool }.after [.close])

/-- Stops gracefully, or else by force; the answer is whether the former was enough. -/
def shutdown (g : GatedPool) : Bool × GatedPool :=
  let (done, g) := g.gracefulStop
  if done then (true, g) else (false, g.forcedStop.2)

end GatedPool

end SealedDatagram

import SealedDatagram.Endpoint
import SealedDatagram.Proofs.Client.Phases
/-!
Threads that wait for a phase of a client session. The session is under a lock: a waiter checks its
phase and parks in one step, a worker takes a packet in under the lock and tells all waiters later,
and an application makes packets under the lock and tells no one. Telling no one does no harm but
for one thing: the first Data packet that is sent begins the last phase. Whoever is parked for that
phase is left so then, unless a worker that began a phase has still to tell. No one else ever is.
-/

namespace SealedDatagram

def Env.client (e : Env Endpoint) : Env Client := { e with state := e.state.client }

def Env.withClient (e : Env Endpoint) (c : Env Client) : Env Endpoint :=
  { c with state := { e.state with client := c.state } }

namespace Endpoint

open Fallible

theorem run_onClient {α : Type} (x : Attempt Client α) (e : Env Endpoint) :
    (onClient x).run e = ((x.exec e.client).1, e.withClient (x.exec e.client).2) := rfl

inductive Waiter.Stage where
  /-- About to check the phase. -/
  | looking
  | parked
  | returned (r : Except Error Unit)
  deriving DecidableEq

/-- A call that waits for a phase, forever if there is no deadline. -/
structure Waiter where
  target : Phase
  deadline : Option Nat
  stage : Waiter.Stage := .looking
  deriving DecidableEq

/-- Whether the seconds of an instant are a signed number of 64 bits. -/
def isInstant (n : Nat) : Bool := n / 1000000000 < 2 ^ 63

def deadline (now : Nat) (timeout : Duration) : Option Nat :=
  if isInstant (now + timeout.nanos) then some (now + timeout.nanos) else none

namespace Waiter

/-- Checks the phase and parks, unless the phase is reached or the time is over. -/
def look (e : Env Endpoint) (w : Waiter) : Waiter :=
  match w.stage, e.state.waitFor w.target with
  | .looking, .ok () => { w with stage := .returned (.ok ()) }
  | .looking, .error err =>
    if w.deadline.any (· ≤ e.now) then { w with stage := .returned (.error err) }
    else { w with stage := .parked }
  | _, _ => w

/-- Goes on to check the phase: its time is over, it was told to, or it wakes for no reason. -/
def wake (w : Waiter) : Waiter :=
  match w.stage with
  | .parked => { w with stage := .looking }
  | _ => w

variable {e : Env Endpoint} {w : Waiter}

@[simp] theorem target_look : (w.look e).target = w.target := by
  unfold look
  split
  · rfl
  · split <;> rfl
  · rfl

/-- Whoever parks has found that the phase is not reached. -/
theorem look_of_parked (h : (w.look e).stage = .parked) :
    w.look e = w ∨ e.state.client.phase.reached w.target = false := by
  unfold look at h ⊢
  split
  · rename_i hstage hwait
    rw [hstage, hwait] at h
    cases h
  · rename_i hwait
    unfold Endpoint.waitFor at hwait
    split at hwait
    · cases hwait
    · exact .inr (Bool.eq_false_iff.2 ‹_›)
  · exact .inl rfl

theorem wake_not_parked (w : Waiter) : w.wake.stage ≠ .parked := by
  unfold wake
  split
  · nofun
  · assumption

end Waiter

inductive Worker where
  | resting
  /-- A packet was taken in, of which the waiters have not been told yet. It may have begun a new
  phase. -/
  | announcing (raised : Bool) (payload : Option Bytes)
  deriving DecidableEq

namespace Worker

variable [CipherSuite]

/-- Takes a datagram in. -/
def receive (b : Bytes) (peer : SocketAddress) : Action Endpoint Worker := do
  let e : Endpoint ← getState
  if peer ≠ e.server then
    dropped (.session .peerMismatch)
    return .resting
  match ← (onClient (Client.receive b)).run with
  | .error fault =>
    dropped fault
    return .resting
  | .ok payload =>
    let e' : Endpoint ← getState
    return .announcing (e'.client.phase ≠ e.client.phase) payload

def handOn : Option Bytes → Action Endpoint (Option Bytes)
  | none => return none
  | some payload => do
    count Metrics.delivered
    let e : Endpoint ← getState
    return if e.takesData then some payload else none

section
variable {b : Bytes} {peer : SocketAddress} {e : Env Endpoint}

theorem receive_of_stranger (hp : peer ≠ e.state.server) :
    receive b peer e = (.resting, (dropped (.session .peerMismatch) e).2) := by
  unfold receive
  rw [Action.bind_apply, Action.getState_apply]
  dsimp only
  rw [if_pos hp]
  rfl

theorem receive_of_server (hp : peer = e.state.server) :
    receive b peer e = match (Client.receive b).exec e.client with
      | (.error fault, e') => (.resting, (dropped fault (e.withClient e')).2)
      | (.ok payload, e') =>
        (.announcing (e'.state.phase ≠ e.state.client.phase) payload, e.withClient e') := by
  unfold receive
  rw [Action.bind_apply, Action.getState_apply]
  dsimp only
  rw [if_neg (not_not_intro hp), Action.bind_apply, run_onClient]
  rcases (Client.receive b).exec e.client with ⟨err | payload, e'⟩ <;> rfl

theorem receive_cases (b : Bytes) (peer : SocketAddress) (e : Env Endpoint) :
    (receive b peer e).2.state.client.phase = e.state.client.phase ∨
    ∃ payload, (receive b peer e).1 = .announcing true payload := by
  by_cases hp : peer = e.state.server
  · rcases hx : (Client.receive b).exec e.client with ⟨err | payload, e'⟩
    · have hrefused : (Client.Request.receive b).run.exec e.client = (.error err, e') :=
        Client.exec_reply_of_error hx .payload
      have hkept : e'.state = e.state.client := Client.Request.state_of_refused hrefused
      left
      rw [receive_of_server hp, hx, ← hkept]
      cases err <;> rfl
    · rw [receive_of_server hp, hx]
      by_cases hphase : e'.state.phase = e.state.client.phase
      · exact .inl hphase
      · refine .inr ⟨payload, ?_⟩
        dsimp only
        rw [decide_eq_true hphase]
  · rw [receive_of_stranger hp]
    exact .inl rfl

end

end Worker

inductive Call where
  | hello
  | auth (credentials : Credentials)
  | authWithKey (credentials : Credentials) (key : SessionKey)
  | sealData (payload : Bytes)

def Call.request : Call → Client.Request
  | .hello => .hello
  | .auth credentials => .auth credentials
  | .authWithKey credentials key => .authWithKey credentials key
  | .sealData payload => .sealData payload

/-- A session in use. -/
structure Shared where
  env : Env Endpoint
  waiters : List Waiter := []
  workers : List Worker

/-- What happens under the lock, and around it. -/
inductive Shared.Move where
  | wait (target : Phase) (timeout : Duration)
  | look (i : Nat)
  | wake (i : Nat)
  | receive (i : Nat) (b : Bytes) (peer : SocketAddress)
  | notify (i : Nat)
  | call (c : Call)
  | advance (d : Duration)
  /-- From now on the random source is this one. -/
  | supply (entropy : Entropy)

namespace Shared

variable [CipherSuite]

/-- A move for which a worker is not at the right place does nothing. -/
def next : Move → Shared → Shared
  | .wait target timeout, s =>
    { s with waiters := s.waiters ++ [{ target, deadline := deadline s.env.now timeout }] }
  | .look i, s => { s with waiters := s.waiters.modify i (Waiter.look s.env) }
  | .wake i, s => { s with waiters := s.waiters.modify i Waiter.wake }
  | .receive i b peer, s =>
    match s.workers[i]? with
    | some .resting =>
      let (w, env) := Worker.receive b peer s.env
      { s with env, workers := s.workers.set i w }
    | _ => s
  | .notify i, s =>
    match s.workers[i]? with
    | some (.announcing _ payload) =>
      { env := (Worker.handOn payload s.env).2, waiters := s.waiters.map Waiter.wake
        workers := s.workers.set i .resting }
    | _ => s
  | .call c, s => { s with env := ((onClient c.request.run).exec s.env).2 }
  | .advance d, s => { s with env := s.env.advance d }
  | .supply entropy, s => { s with env := { s.env with entropy } }

def after (s : Shared) (moves : List Move) : Shared := moves.foldl (fun s m => next m s) s

def opened (e : Env Endpoint) (workers : Nat) : Shared where
  env := e
  workers := List.replicate workers .resting

def phase (s : Shared) : Phase := s.env.state.client.phase

/-- A worker has begun a phase and has still to tell. -/
def Pending (s : Shared) : Prop := ∃ payload, .announcing true payload ∈ s.workers

/-- Whoever is parked for a phase that is reached will be told by a worker that began a phase. -/
def Heard (s : Shared) (w : Waiter) : Prop :=
  w.stage = .parked → s.phase.reached w.target = true → s.Pending

/-- The first Data packet is made, while someone is parked for that and no worker that began a phase
has still to tell. -/
def Overtakes (s : Shared) (m : Move) : Prop :=
  (∃ payload, m = .call (.sealData payload)) ∧ s.phase = .authenticated ∧
    (next m s).phase = .streaming ∧ ¬ s.Pending ∧
      ∃ w ∈ s.waiters, w.stage = .parked ∧ w.target = .streaming

end Shared

variable [CipherSuite]

theorem handle_eq (b : Bytes) (peer : SocketAddress) (e : Env Endpoint) :
    handle b peer e = match Worker.receive b peer e with
      | (.announcing _ payload, e') => Worker.handOn payload e'
      | (.resting, e') => (none, e') := by
  unfold handle
  rw [Action.bind_apply, Action.getState_apply]
  dsimp only
  by_cases hp : peer = e.state.server
  · rcases hx : (Client.receive b).exec e.client with ⟨err | _ | payload, e'⟩ <;>
      rw [if_neg (not_not_intro hp), Action.bind_apply, run_onClient, hx,
        Worker.receive_of_server hp, hx] <;>
        rfl
  · rw [if_pos hp, Worker.receive_of_stranger hp]
    rfl

/-- A worker that takes a datagram in and then tells the waiters has handled it. -/
theorem Shared.env_notify_receive {s : Shared} {i : Nat} (hi : s.workers[i]? = some .resting)
    (b : Bytes) (peer : SocketAddress) :
    (next (.notify i) (next (.receive i b peer) s)).env = (handle b peer s.env).2 := by
  have hlen : i < s.workers.length := (List.getElem?_eq_some_iff.1 hi).1
  rw [handle_eq]
  simp only [next, hi]
  rcases Worker.receive b peer s.env with ⟨_ | ⟨_, payload⟩, env⟩ <;>
    simp [List.getElem?_set_self hlen]

theorem Call.phase_cases (c : Call) (e : Env Client) :
    (c.request.run.exec e).2.state.phase = e.state.phase ∨
    (∃ payload, c = .sealData payload) ∧ e.state.phase = .authenticated ∧
      (c.request.run.exec e).2.state.phase = .streaming := by
  have hpropose : ∀ credentials key?, ((Client.propose credentials key?).exec e).2.state.phase =
      e.state.phase := by
    intro credentials key?
    rcases Client.exec_propose_cases credentials key? e with
      ⟨_, _, _, _, _, _, -, -, -, -, -, hx⟩ | ⟨err, e', hx, he⟩ <;> rw [hx]
    · rfl
    · exact congrArg Client.phase he
  have hreply : ∀ x : Attempt Client Bytes,
      (Fallible.exec (do return Client.Reply.packet (← x)) e).2 = (x.exec e).2 := by
    intro x
    rw [exec_bind]
    rcases x.exec e with ⟨_ | _, _⟩ <;> rfl
  cases c with
  | hello => exact .inl (congrArg (·.state.phase) (Client.Request.facts_hello e).2)
  | auth credentials =>
    left
    rw [← hpropose credentials none]
    exact congrArg (·.state.phase) (hreply _)
  | authWithKey credentials key =>
    left
    rw [← hpropose credentials (some key)]
    exact congrArg (·.state.phase) (hreply _)
  | sealData payload =>
    change (Fallible.exec (do return Client.Reply.packet (← Client.sealData payload))
        e).2.state.phase = _ ∨ _ ∧ _ ∧
      (Fallible.exec (do return Client.Reply.packet (← Client.sealData payload))
        e).2.state.phase = _
    rw [hreply]
    rcases Client.exec_sealData_cases payload e with
      ⟨_, _, _, _, _, _, hphase, -, -, -, -, -, -, hx⟩ | ⟨err, _, hx, -⟩ <;> rw [hx]
    · rcases List.mem_pair.1 hphase with hauth | hstream
      · exact .inr ⟨⟨payload, rfl⟩, hauth, rfl⟩
      · exact .inl hstream.symm
    · exact .inl rfl

namespace Shared

variable {s : Shared} {m : Move} {w : Waiter}

omit [CipherSuite] in
theorem mem_or_eq_of_mem_modify {α : Type} {l : List α} {i : Nat} {f : α → α} {a : α}
    (h : a ∈ l.modify i f) : a ∈ l ∨ ∃ a' ∈ l, a = f a' := by
  obtain ⟨j, hj⟩ := List.mem_iff_getElem?.1 h
  rw [List.getElem?_modify] at hj
  obtain ⟨a', ha', rfl⟩ := Option.map_eq_some_iff.1 hj
  have hmem : a' ∈ l := List.mem_iff_getElem?.2 ⟨j, ha'⟩
  split
  · exact .inr ⟨a', hmem, rfl⟩
  · exact .inl hmem

/-- The phase stays as it is, or a worker will tell, or the first Data packet is made. -/
theorem phase_next (m : Move) (s : Shared) :
    (next m s).phase = s.phase ∨ (next m s).Pending ∨
      (∃ payload, m = .call (.sealData payload)) ∧ s.phase = .authenticated ∧
        (next m s).phase = .streaming := by
  cases m with
  | wait target timeout => exact .inl rfl
  | look i => exact .inl rfl
  | wake i => exact .inl rfl
  | receive i b peer =>
    simp only [next]
    split
    · rename_i hi
      have hlen : i < s.workers.length := (List.getElem?_eq_some_iff.1 hi).1
      rcases Worker.receive_cases b peer s.env with hphase | ⟨payload, hannounced⟩
      · exact .inl hphase
      · refine .inr (.inl ⟨payload, ?_⟩)
        rw [← hannounced]
        exact List.mem_set hlen _
    · exact .inl rfl
  | notify i =>
    left
    simp only [next]
    split
    · rename_i _ payload hi
      cases payload <;> rfl
    · rfl
  | call c =>
    rcases c.phase_cases s.env.client with hsame | ⟨⟨payload, rfl⟩, hauth, hstream⟩
    · exact .inl hsame
    · exact .inr (.inr ⟨⟨payload, rfl⟩, hauth, hstream⟩)
  | advance d => exact .inl rfl
  | supply entropy => exact .inl rfl

theorem parked_of_next (hw : w ∈ (next m s).waiters) (hparked : w.stage = .parked) :
    w ∈ s.waiters ∨ (next m s).phase.reached w.target = false := by
  cases m with
  | wait target timeout =>
    rcases List.mem_append.1 hw with hw | hw
    · exact .inl hw
    · rw [List.mem_singleton.1 hw] at hparked
      cases hparked
  | look i =>
    rcases mem_or_eq_of_mem_modify hw with hw | ⟨w', hw', rfl⟩
    · exact .inl hw
    · rcases Waiter.look_of_parked hparked with hsame | hearly
      · left
        rw [hsame]
        exact hw'
      · rw [Waiter.target_look]
        exact .inr hearly
  | wake i =>
    rcases mem_or_eq_of_mem_modify hw with hw | ⟨w', hw', rfl⟩
    · exact .inl hw
    · exact absurd hparked (Waiter.wake_not_parked w')
  | receive i b peer =>
    left
    simp only [next] at hw
    split at hw <;> exact hw
  | notify i =>
    simp only [next] at hw
    split at hw
    · obtain ⟨w', -, rfl⟩ := List.mem_map.1 hw
      exact absurd hparked (Waiter.wake_not_parked w')
    · exact .inl hw
  | call c => exact .inl hw
  | advance d => exact .inl hw
  | supply entropy => exact .inl hw

theorem pending_next (hs : s.Pending) (m : Move) :
    (next m s).Pending ∨ ∀ w ∈ (next m s).waiters, w.stage ≠ .parked := by
  obtain ⟨payload, hmem⟩ := hs
  cases m with
  | receive i b peer =>
    left
    simp only [next]
    split
    · rename_i hi
      obtain ⟨j, hj⟩ := List.mem_iff_getElem?.1 hmem
      have hne : i ≠ j := by
        rintro rfl
        cases hi.symm.trans hj
      exact ⟨payload, List.mem_iff_getElem?.2 ⟨j, (List.getElem?_set_ne hne).trans hj⟩⟩
    · exact ⟨payload, hmem⟩
  | notify i =>
    simp only [next]
    split
    · right
      intro w hw
      obtain ⟨w', -, rfl⟩ := List.mem_map.1 hw
      exact Waiter.wake_not_parked w'
    · exact .inl ⟨payload, hmem⟩
  | wait | look | wake | call | advance | supply => exact .inl ⟨payload, hmem⟩

/-- A step leaves no one parked who will not be told, unless it is the first Data packet. -/
theorem heard_next {P : Phase → Prop} (hs : ∀ w ∈ s.waiters, P w.target → s.Heard w)
    (hm : P .streaming → ¬ s.Overtakes m) :
    ∀ w ∈ (next m s).waiters, P w.target → (next m s).Heard w := by
  intro w hw hP hparked hreached
  have hstill : s.Pending → (next m s).Pending := fun hpending =>
    (pending_next hpending m).resolve_right fun hnone => hnone w hw hparked
  have hmem : w ∈ s.waiters := by
    rcases parked_of_next hw hparked with hmem | hearly
    · exact hmem
    · rw [hreached] at hearly
      cases hearly
  rcases phase_next m s with hsame | hpending | ⟨hcall, hauth, hstream⟩
  · rw [hsame] at hreached
    exact hstill (hs w hmem hP hparked hreached)
  · exact hpending
  · by_cases htarget : w.target = .streaming
    · refine hstill ?_
      by_contra hquiet
      exact hm (htarget ▸ hP) ⟨hcall, hauth, hstream, hquiet, w, hmem, hparked, htarget⟩
    · refine hstill (hs w hmem hP hparked ?_)
      rw [hauth]
      cases ht : w.target <;> first | rfl | exact absurd ht htarget

theorem after_cons (s : Shared) (m : Move) (moves : List Move) :
    s.after (m :: moves) = (next m s).after moves := rfl

theorem after_append (s : Shared) (moves rest : List Move) :
    s.after (moves ++ rest) = (s.after moves).after rest := List.foldl_append

theorem after_concat (s : Shared) (moves : List Move) (m : Move) :
    s.after (moves ++ [m]) = next m (s.after moves) := after_append s moves [m]

/-- In a run in which no first Data packet overtakes a waiter, no one is left parked. -/
theorem heard_after {P : Phase → Prop} {run : List Move}
    (hs : ∀ w ∈ s.waiters, P w.target → s.Heard w)
    (hrun : P .streaming → ∀ l m, l ++ [m] <+: run → ¬ (s.after l).Overtakes m) :
    ∀ w ∈ (s.after run).waiters, P w.target → (s.after run).Heard w := by
  induction run using List.reverseRecOn with
  | nil => exact hs
  | append_singleton run m ih =>
    rw [after_concat]
    refine heard_next (ih fun hP l m' hl => hrun hP l m' (hl.trans (List.prefix_append _ _)))
      fun hP => hrun hP run m (List.prefix_refl _)

theorem Overtakes.not_heard (h : s.Overtakes m) :
    ∃ w ∈ (next m s).waiters, ¬ (next m s).Heard w := by
  obtain ⟨⟨payload, rfl⟩, -, hstream, hquiet, w, hw, hparked, htarget⟩ := h
  refine ⟨w, hw, fun hheard => hquiet (hheard hparked ?_)⟩
  rw [hstream, htarget]
  rfl

/-- No one is parked for a phase that is reached, unless a worker that began a phase has still to
tell, in all of a run exactly if no first Data packet overtakes anyone in it. No run leaves anyone
parked for another phase. -/
theorem heard_throughout_iff (e : Env Endpoint) (workers : Nat) (run : List Move) :
    let s := (opened e workers).after
    ((∀ l, l <+: run → ∀ w ∈ (s l).waiters, (s l).Heard w) ↔
      ∀ l m, l ++ [m] <+: run → ¬ (s l).Overtakes m) ∧
    ∀ l, l <+: run → ∀ w ∈ (s l).waiters, w.target ≠ .streaming → (s l).Heard w := by
  intro s
  have hopened : ∀ w ∈ (opened e workers).waiters, (opened e workers).Heard w := nofun
  refine ⟨⟨?_, ?_⟩, ?_⟩
  · intro hheard l m hl hovertakes
    obtain ⟨w, hw, hmissed⟩ := hovertakes.not_heard
    rw [← after_concat] at hw hmissed
    exact hmissed (hheard _ hl w hw)
  · intro hrun l hl w hw
    exact heard_after (P := fun _ => True) (fun w hw _ => hopened w hw)
      (fun _ l' m hl' => hrun l' m (hl'.trans hl)) w hw trivial
  · intro l hl w hw htarget
    exact heard_after (P := (· ≠ .streaming)) (fun w hw _ => hopened w hw)
      (fun hne => absurd rfl hne) w hw htarget

/-- Whether a step neither takes a packet in nor wakes anyone for no reason. -/
def Move.isQuiet : Move → Bool
  | .wake _ | .receive _ _ _ => false
  | _ => true

/-- Whoever is parked while all workers rest stays parked, whatever the application does and however
long it takes. -/
theorem stays_parked {rest : List Move} (hw : w ∈ s.waiters) (hparked : w.stage = .parked)
    (hresting : ∀ x ∈ s.workers, x = .resting) (hrest : ∀ m ∈ rest, m.isQuiet) :
    w ∈ (s.after rest).waiters := by
  suffices h : w ∈ (s.after rest).waiters ∧ (s.after rest).workers = s.workers from h.1
  induction rest using List.reverseRecOn with
  | nil => exact ⟨hw, rfl⟩
  | append_singleton rest m ih =>
    obtain ⟨hw, hworkers⟩ := ih fun m' hm' => hrest m' (List.mem_append_left _ hm')
    have hm : m.isQuiet = true := hrest m (List.mem_append_right _ (List.mem_singleton_self m))
    rw [after_concat]
    cases m with
    | wait target timeout => exact ⟨List.mem_append_left _ hw, hworkers⟩
    | look i =>
      refine ⟨?_, hworkers⟩
      obtain ⟨j, hj⟩ := List.mem_iff_getElem?.1 hw
      have hlook : w.look (s.after rest).env = w := by simp only [Waiter.look, hparked]
      refine List.mem_iff_getElem?.2 ⟨j, ?_⟩
      change ((s.after rest).waiters.modify i _)[j]? = some w
      rw [List.getElem?_modify, hj]
      simp [hlook]
    | wake i => cases hm
    | receive i b peer => cases hm
    | notify i =>
      simp only [next]
      split
      · rename_i hi
        rw [hworkers] at hi
        cases hresting _ (List.mem_iff_getElem?.2 ⟨i, hi⟩)
      · exact ⟨hw, hworkers⟩
    | call c => exact ⟨hw, hworkers⟩
    | advance d => exact ⟨hw, hworkers⟩
    | supply entropy => exact ⟨hw, hworkers⟩

end Shared

section
variable {s : Shared} {e' : Env Client}

theorem Shared.next_receive {i : Nat} {b : Bytes} {peer : SocketAddress} {payload : Option Bytes}
    (hi : s.workers[i]? = some .resting) (hp : peer = s.env.state.server)
    (hx : (Client.receive b).exec s.env.client = (.ok payload, e')) :
    next (.receive i b peer) s =
      { s with
        env := s.env.withClient e'
        workers := s.workers.set i
          (.announcing (e'.state.phase ≠ s.env.state.client.phase) payload) } := by
  simp only [next, hi, Worker.receive_of_server hp, hx]

theorem Shared.next_call {c : Call} {r : Except Error Client.Reply}
    (hx : c.request.run.exec s.env.client = (r, e')) :
    next (.call c) s = { s with env := s.env.withClient e' } := by
  change { s with env := ((onClient c.request.run).run s.env).2 } = _
  rw [run_onClient, hx]

end

end Endpoint

theorem Client.exec_receive_olleh {b : Bytes} {info : ServerInfo} {e e' : Env Client}
    (hb : PacketKind.peek b = .ok .olleh) (hx : (takeOlleh b).exec e = (.ok info, e')) :
    (receive b).exec e = (.ok none, e') := by
  unfold receive
  rw [Fallible.exec_bind, Fallible.exec_liftExcept, hb]
  dsimp only
  rw [Fallible.exec_bind, hx]
  rfl

theorem Client.exec_receive_htua {b : Bytes} {e e' : Env Client}
    (hb : PacketKind.peek b = .ok .htua) (hx : (takeHtua b).exec e = (.ok (), e')) :
    (receive b).exec e = (.ok none, e') := by
  unfold receive
  rw [Fallible.exec_bind, Fallible.exec_liftExcept, hb]
  dsimp only
  rw [Fallible.exec_bind, hx]
  rfl

namespace Endpoint

namespace Sample
open SealedDatagram.Sample Client.Sample

def shared (c : Env Client) : Shared where
  env := { c with state := { client := c.state, server := peer } }
  workers := [.resting]

def accepted : Env Client :=
  { waiting 1 with state := (waiting 1).state.accepted .authenticated (salt 2) }

/-- The worker takes the Olleh in and says so, a key is proposed, and the same for the Htua. -/
def handshake : List Shared.Move :=
  let k := (idle 1).state.keyPair.sharedKey info.publicKey
  [.receive 0 ((Olleh.mk info).wire k (salt 9) pad) peer, .notify 0, .call (.authWithKey {} key),
    .receive 0 ((Htua.mk (salt 2)).wire key (salt 1) pad) peer, .notify 0]

theorem after_handshake : (shared (idle 1)).after handshake = shared accepted := by
  let start := idle 1
  let k := start.state.keyPair.sharedKey info.publicKey
  let x₁ : Env Client := { start with state := start.state.exchanged info k (salt 9) }
  have hpin : start.state.pinHolds info.publicKey = true := by
    simp only [start, idle, Client.fresh, Client.pinHolds, PublicKey.same, beq_self_eq_true]
  have holleh : (Client.takeOlleh ((Olleh.mk info).wire k (salt 9) pad)).exec start =
      (.ok info, x₁) := Client.exec_takeOlleh_wire rfl hpin rfl
  have hauth : (Client.authWithKey {} key).exec x₁ = (.ok _, waiting 1) :=
    Client.exec_authWithKey rfl rfl rfl (by decide) (Entropy.draw?_append (salt 1).length_eq)
      (Entropy.draw?_append rfl) rfl
  have hissued : salt 1 ∈ (waiting 1).state.issued := List.mem_singleton_self (salt 1)
  have hhtua : (Client.takeHtua ((Htua.mk (salt 2)).wire key (salt 1) pad)).exec (waiting 1) =
      (.ok (), accepted) := Client.exec_takeHtua_wire rfl rfl rfl hissued (by decide +kernel)
  have htold (c : Env Client) : Shared.next (.notify 0)
      { shared c with workers := [.announcing true none] } = shared c := rfl
  have hreceived : Shared.next (.receive 0 ((Olleh.mk info).wire k (salt 9) pad) peer)
      (shared start) = { shared x₁ with workers := [.announcing true none] } :=
    Shared.next_receive rfl rfl
      (Client.exec_receive_olleh (PacketKind.peek_wire _ _ _ _ _ _) holleh)
  have hcalled : Shared.next (.call (.authWithKey {} key)) (shared x₁) = shared (waiting 1) :=
    Shared.next_call (Client.exec_reply hauth .packet)
  have haccepted : Shared.next (.receive 0 ((Htua.mk (salt 2)).wire key (salt 1) pad) peer)
      (shared (waiting 1)) = { shared accepted with workers := [.announcing true none] } :=
    Shared.next_receive rfl rfl (Client.exec_receive_htua (PacketKind.peek_wire _ _ _ _ _ _) hhtua)
  change Shared.after (shared start) _ = _
  unfold handshake
  dsimp only
  rw [Shared.after_cons, hreceived, Shared.after_cons, htold, Shared.after_cons, hcalled,
    Shared.after_cons, haccepted, Shared.after_cons, htold]
  rfl

/-- A thread waits for the last phase without a deadline and parks, and the first Data packet is
made. -/
def overtaking : List Shared.Move :=
  [.wait .streaming (.ofSeconds (2 ^ 64 - 1)), .look 0,
    .supply { queued := (salt 3).bytes ++ (pad ++ []) }, .call (.sealData [])]

end Sample

open SealedDatagram.Sample in
/-- After a handshake, a thread that waits for the last phase without a deadline is overtaken by the
first Data packet. It is parked then, with no one to tell it, and stays so. -/
theorem missed_by_first_data :
    let s := (Sample.shared (Client.Sample.idle 1)).after (Sample.handshake ++ Sample.overtaking)
    ∃ w ∈ s.waiters, w.deadline = none ∧ w.target = .streaming ∧ w.stage = .parked ∧
      s.phase = .streaming ∧ s.workers = [.resting] ∧
        ∀ rest : List Shared.Move, (∀ m ∈ rest, m.isQuiet) → w ∈ (s.after rest).waiters := by
  intro s
  let c : Env Client :=
    { Sample.accepted with entropy := { queued := (salt 3).bytes ++ (pad ++ []) } }
  let c' : Env Client := { c with state := c.state.streamed (salt 3), entropy := {} }
  let w : Waiter := ⟨.streaming, none, .parked⟩
  have hnever : deadline Sample.accepted.now (.ofSeconds (2 ^ 64 - 1)) = none := by decide +kernel
  have hwait : Shared.next (.wait .streaming (.ofSeconds (2 ^ 64 - 1)))
      (Sample.shared Sample.accepted) =
        { Sample.shared Sample.accepted with waiters := [⟨.streaming, none, .looking⟩] } := by
    change Shared.mk _ ([] ++ [⟨.streaming, deadline Sample.accepted.now _, .looking⟩]) _ = _
    rw [hnever]
    rfl
  have hpark : Shared.next (.look 0)
      { Sample.shared Sample.accepted with waiters := [⟨.streaming, none, .looking⟩] } =
        { Sample.shared Sample.accepted with waiters := [w] } := rfl
  have hsupply : Shared.next (.supply { queued := (salt 3).bytes ++ (pad ++ []) })
      { Sample.shared Sample.accepted with waiters := [w] } =
        { Sample.shared c with waiters := [w] } := rfl
  have hdata : (Client.sealData []).exec c = (.ok _, c') :=
    Client.exec_sealData List.mem_cons_self rfl rfl (Nat.zero_le _)
      (Entropy.draw?_append (salt 3).length_eq) (Entropy.draw?_append rfl) rfl
  have hcall : Shared.next (.call (.sealData [])) { Sample.shared c with waiters := [w] } =
      { Sample.shared c' with waiters := [w] } :=
    Shared.next_call (Client.exec_reply hdata .packet)
  have hs : s = { Sample.shared c' with waiters := [w] } := by
    change Shared.after _ _ = _
    rw [Shared.after_append, Sample.after_handshake]
    unfold Sample.overtaking
    rw [Shared.after_cons, hwait, Shared.after_cons, hpark, Shared.after_cons, hsupply,
      Shared.after_cons, hcall]
    rfl
  have hworkers : s.workers = [.resting] := by
    rw [hs]
    rfl
  have hw : w ∈ s.waiters := by
    rw [hs]
    exact List.mem_singleton_self w
  have hphase : s.phase = .streaming := by
    rw [hs]
    rfl
  exact ⟨w, hw, rfl, rfl, rfl, hphase, hworkers, fun rest hrest =>
    Shared.stays_parked hw rfl (fun x hx => List.mem_singleton.1 (hworkers ▸ hx)) hrest⟩

end Endpoint

end SealedDatagram

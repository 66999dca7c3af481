import SealedDatagram.Host
import SealedDatagram.Proofs.Server.Return
/-!
What a server counts. Every datagram that is handled raises one of four counters by one: a Hello is
answered, a session is established, a payload is delivered, or the datagram is dropped; and a drop
is counted once more if the cipher engine or the owner of the server is the reason for it. A success
is counted after all that can fail, and a drop by whoever called; so nothing is counted twice.
-/

namespace SealedDatagram

/-- The counters of what becomes of a datagram. -/
inductive Counter where
  | hellosAnswered
  | sessionsEstablished
  | dataDelivered
  | datagramsDropped
  | cipherFailures
  | handshakesRejected
  deriving DecidableEq, Repr

/-- The counters of which every datagram raises one. -/
def Counter.outcomes : List Counter :=
  [.hellosAnswered, .sessionsEstablished, .dataDelivered, .datagramsDropped]

namespace Metrics

def read (m : Metrics) : Counter → UInt64
  | .hellosAnswered => m.hellosAnswered
  | .sessionsEstablished => m.sessionsEstablished
  | .dataDelivered => m.dataDelivered
  | .datagramsDropped => m.datagramsDropped
  | .cipherFailures => m.cipherFailures
  | .handshakesRejected => m.handshakesRejected

/-- How many datagrams the counters of outcomes tell of. -/
def handled (m : Metrics) : UInt64 :=
  m.hellosAnswered + m.sessionsEstablished + m.dataDelivered + m.datagramsDropped

end Metrics

inductive Fate where
  | answered
  | established
  | delivered
  | dropped (err : Error)

def Fate.raises : Fate → Counter → Bool
  | .answered, .hellosAnswered => true
  | .established, .sessionsEstablished => true
  | .delivered, .dataDelivered => true
  | .dropped _, .datagramsDropped => true
  | .dropped (.cipher _), .cipherFailures => true
  | .dropped (.rejected _), .handshakesRejected => true
  | _, _ => false

namespace Fate

theorem existsUnique_raises (f : Fate) : ∃! c, c ∈ Counter.outcomes ∧ f.raises c = true := by
  have hunique : ∀ k, k ∈ Counter.outcomes ∧ f.raises k = true →
      (∀ c ∈ Counter.outcomes, f.raises c = true → c = k) →
        ∃! c, c ∈ Counter.outcomes ∧ f.raises c = true :=
    fun k hk honly => ⟨k, hk, fun c hc => honly c hc.1 hc.2⟩
  cases f with
  | answered => exact hunique .hellosAnswered (by decide) (by decide)
  | established => exact hunique .sessionsEstablished (by decide) (by decide)
  | delivered => exact hunique .dataDelivered (by decide) (by decide)
  | dropped err =>
    refine hunique .datagramsDropped ⟨by decide, rfl⟩ ?_
    intro c hc hraises
    cases c <;> first | rfl | cases hraises | exact absurd hc (by decide)

theorem raises_cipherFailures_iff {f : Fate} :
    f.raises .cipherFailures = true ↔ ∃ c, f = .dropped (.cipher c) := by
  unfold raises
  split <;> simp_all

theorem raises_handshakesRejected_iff {f : Fate} :
    f.raises .handshakesRejected = true ↔ ∃ r, f = .dropped (.rejected r) := by
  unfold raises
  split <;> simp_all

theorem countP_outcomes (fates : List Fate) :
    fates.countP (·.raises .hellosAnswered) + fates.countP (·.raises .sessionsEstablished) +
      fates.countP (·.raises .dataDelivered) + fates.countP (·.raises .datagramsDropped) =
        fates.length := by
  induction fates with
  | nil => rfl
  | cons f fates ih =>
    have hone : (if f.raises .hellosAnswered then 1 else 0) +
        (if f.raises .sessionsEstablished then 1 else 0) +
        (if f.raises .dataDelivered then 1 else 0) +
        (if f.raises .datagramsDropped then 1 else 0) = 1 := by cases f <;> rfl
    simp only [List.countP_cons, List.length_cons]
    omega

theorem countP_reasons (fates : List Fate) :
    fates.countP (·.raises .cipherFailures) + fates.countP (·.raises .handshakesRejected) =
      fates.countP fun f => f.raises .cipherFailures || f.raises .handshakesRejected := by
  induction fates with
  | nil => rfl
  | cons f fates ih =>
    have hone : ¬ (f.raises .cipherFailures = true ∧ f.raises .handshakesRejected = true) := by
      rw [raises_cipherFailures_iff, raises_handshakesRejected_iff]
      rintro ⟨⟨c, rfl⟩, r, hr⟩
      cases hr
    simp only [List.countP_cons, Bool.or_eq_true]
    grind

end Fate

variable {ε σ τ α β : Type}

/-- An answer that leaves these counters alone. -/
def Action.Untallied (a : Action σ α) : Prop := ∀ e, (a e).2.metrics.read = e.metrics.read

/-- A step that leaves them alone, whether it succeeds or fails. -/
abbrev Fallible.Untallied (x : Fallible ε σ α) : Prop := Fallible.Keeps (fun e => e.metrics.read) x

/-- A step whose success raises a counter by one, and whose failure raises none. -/
def Fallible.CountsSuccess (k : Counter) (x : Fallible ε σ α) : Prop :=
  ∀ e c, (x.exec e).2.metrics.read c =
    e.metrics.read c + if (x.exec e).1.isOk ∧ c = k then 1 else 0

namespace Fallible.CountsSuccess

variable {k : Counter}

theorem bind {x : Fallible ε σ α} {f : α → Fallible ε σ β} (hx : Untallied x)
    (hf : ∀ a, CountsSuccess k (f a)) : CountsSuccess k (x >>= f) := by
  intro e c
  rw [exec_bind]
  have hxe := congrFun (hx e) c
  rcases hr : x.exec e with ⟨err | a, e₁⟩
  · rw [hr] at hxe
    simpa [Except.isOk, Except.toBool] using hxe
  · rw [hr] at hxe
    exact (hf a e₁ c).trans (congrArg (· + _) hxe)

theorem count {g : Metrics → Metrics}
    (hg : ∀ m c, (g m).read c = m.read c + if c = k then 1 else 0) :
    CountsSuccess k (SealedDatagram.count g : Fallible ε σ Unit) := by
  intro e c
  refine (hg e.metrics c).trans ?_
  rw [show (Fallible.exec (SealedDatagram.count g : Fallible ε σ Unit) e).1 = .ok () from rfl]
  simp [Except.isOk, Except.toBool]

theorem map {x : Fallible ε σ α} (hx : CountsSuccess k x) (f : α → β) :
    CountsSuccess k (do return f (← x)) := by
  intro e c
  have hxe := hx e c
  rw [exec_bind]
  rcases hr : x.exec e with ⟨err | a, e₁⟩ <;> rw [hr] at hxe <;> exact hxe

end Fallible.CountsSuccess

/-- Hooks of an owner who does not count what the server counts. -/
structure Hooks.Untallied (h : Hooks σ) : Prop where
  validKey : ∀ f, h.validKey = some f → ∀ k, Action.Untallied (f k)
  hello : ∀ f, h.hello = some f → ∀ p k i, Action.Untallied (f p k i)
  validCredentials : ∀ f, h.validCredentials = some f → ∀ p c, Action.Untallied (f p c)
  deriveKey : ∀ f, h.deriveKey = some f → ∀ k, Fallible.Untallied (f k)
  createSession : ∀ f, h.createSession = some f → ∀ n, Fallible.Untallied (f n)
  lookupSession : ∀ f, h.lookupSession = some f → ∀ p x, Action.Untallied (f p x)
  updateSession : ∀ f, h.updateSession = some f → ∀ p x y, Action.Untallied (f p x y)
  data : ∀ f, h.data = some f → ∀ p m, Action.Untallied (f p m)

theorem Action.Untallied.within {a : Action τ α} (ha : a.Untallied) (part : σ → τ)
    (put : τ → σ → σ) : (a.within part put).Untallied :=
  fun e => ha { e with state := part e.state }

theorem Fallible.Untallied.within {x : Fallible ε τ α} (hx : x.Untallied) (part : σ → τ)
    (put : τ → σ → σ) : (x.within part put).Untallied :=
  fun e => hx { e with state := part e.state }

namespace SessionStore

theorem untallied_registerStep (n : NewSession) : Fallible.Untallied (registerStep n) := by
  unfold registerStep
  refine Fallible.Keeps.bind (fun _ => rfl) fun s => ?_
  refine Fallible.Keeps.bind (fun _ => rfl) fun m => ?_
  refine Fallible.Keeps.bind (fun _ => rfl) fun now => ?_
  refine Fallible.Keeps.bind (fun _ => rfl) fun _ => ?_
  split
  · exact .pure true
  · exact .pure false
  · exact .bind (fun _ => rfl) fun _ => .pure false
  · exact .bind (fun _ => rfl) fun _ => .throw _

theorem untallied_lookupStep (p : SocketAddress) (x : Salt) : (lookupStep p x).Untallied :=
  fun _ => rfl

theorem untallied_updateStep (p : SocketAddress) (x : Salt) : (updateStep p x).Untallied := by
  intro e
  unfold updateStep
  simp only [Action.bind_apply]
  split <;> rfl

end SessionStore

theorem Hooks.Untallied.withStore {h : Hooks σ} (hh : h.Untallied) (part : σ → SessionStore)
    (put : SessionStore → σ → σ) : (h.withStore part put).Untallied where
  validKey := hh.validKey
  hello := hh.hello
  validCredentials := hh.validCredentials
  deriveKey := hh.deriveKey
  createSession f hf n := by
    obtain rfl := Option.some.inj hf
    exact (SessionStore.untallied_registerStep n).within part put
  lookupSession f hf p x := by
    obtain rfl := Option.some.inj hf
    exact (SessionStore.untallied_lookupStep p x).within part put
  updateSession f hf p x y := by
    obtain rfl := Option.some.inj hf
    exact (SessionStore.untallied_updateStep p y).within part put
  data := hh.data

theorem Hooks.untallied_withKeyPair [CipherSuite] (pair : KeyPair) :
    (({} : Hooks σ).withKeyPair pair).Untallied where
  validKey f hf := nomatch hf
  hello f hf := nomatch hf
  validCredentials f hf := nomatch hf
  deriveKey f hf k := by
    obtain rfl := Option.some.inj hf
    exact .pure _
  createSession f hf := nomatch hf
  lookupSession f hf := nomatch hf
  updateSession f hf := nomatch hf
  data f hf := nomatch hf

theorem Host.untallied_reply (host : Host) (own : SocketAddress) (b : Bytes) (p : SocketAddress) :
    Action.Untallied (host.reply own b p : Action σ Unit) := by
  intro e
  unfold reply transmit
  split <;> rfl

namespace Server

open Fallible

variable [CipherSuite] {s : Server σ}

section
variable (hh : s.hooks.Untallied) (b : Bytes) (p : SocketAddress)
include hh

omit [CipherSuite] in
theorem untallied_shared (k : PublicKey) :
    Untallied (s.hooks.checkKey k) ∧ Untallied (s.hooks.derive k) :=
  ⟨.demand fun f hf e => hh.validKey f hf k e, .derive fun f hf => hh.deriveKey f hf k⟩

theorem countsSuccess_answerHello : CountsSuccess .hellosAnswered (s.answerHello b p) := by
  unfold answerHello
  refine .bind (Keeps.liftExcept _) fun hello => ?_
  refine .bind (untallied_shared hh _).1 fun _ => ?_
  refine .bind (Keeps.advertise fun f hf => hh.hello f hf p _ _) fun info => ?_
  refine .bind (untallied_shared hh _).2 fun key => ?_
  refine .bind (Keeps.drawSalt fun _ _ => rfl) fun salt => ?_
  refine .bind (Keeps.packet (fun _ _ => rfl) _ _ (Olleh.length_body_le ⟨info⟩) key salt)
    fun reply => ?_
  refine .map (.count fun m c => ?_) fun _ => reply
  cases c <;> simp [Metrics.read, Metrics.helloAnswered]

theorem countsSuccess_answerAuth : CountsSuccess .sessionsEstablished (s.answerAuth b p) := by
  rw [answerAuth_eq]
  refine .bind (keeps_propose (fun _ _ => rfl) (fun k => (untallied_shared hh k).1)
    (fun k => (untallied_shared hh k).2)
    (fun c => .demand fun f hf => hh.validCredentials f hf p c) b) fun n => ?_
  refine .bind (Keeps.demand fun f hf => hh.createSession f hf n) fun _ => ?_
  refine .bind (Keeps.packet (fun _ _ => rfl) _ _ (Htua.length_body_le ⟨n.ownSalt⟩) n.key
    n.peerSalt) fun reply => ?_
  refine .map (.count fun m c => ?_) fun _ => reply
  cases c <;> simp [Metrics.read, Metrics.sessionEstablished]

theorem countsSuccess_acceptData : CountsSuccess .dataDelivered (s.acceptData b p) := by
  have hopen : Untallied (s.openData b p) := by
    refine Keeps.bind (Keeps.liftExcept _) fun f => ?_
    refine Keeps.bind (Keeps.lookup fun g hg => hh.lookupSession g hg p _) fun key => ?_
    exact Keeps.liftExcept _
  rw [acceptData]
  refine .bind hopen fun r => ?_
  refine .bind (Keeps.demand fun f hf => hh.updateSession f hf p _ _) fun _ => ?_
  refine .bind (Keeps.deliver fun f hf => hh.data f hf p _) fun _ => ?_
  refine .count fun m c => ?_
  cases c <;> simp [Metrics.read, Metrics.delivered]

end

def fate (s : Server σ) (b : Bytes) (p : SocketAddress) (e : Env σ) : Fate :=
  match ((s.process b p).exec e).1, PacketKind.peek b with
  | .error err, _ => .dropped err
  | .ok _, .ok .hello => .answered
  | .ok _, .ok .auth => .established
  | .ok _, _ => .delivered

theorem fate_of_error {b : Bytes} {p : SocketAddress} {e e' : Env σ} {err : Error}
    (hx : (s.process b p).exec e = (.error err, e')) : s.fate b p e = .dropped err := by
  unfold fate
  rw [hx]

theorem fate_of_auth {b : Bytes} {p : SocketAddress} {e e' : Env σ} {reply : Option Bytes}
    (hb : PacketKind.peek b = .ok .auth) (hx : (s.process b p).exec e = (.ok reply, e')) :
    s.fate b p e = .established := by
  unfold fate
  rw [hx, hb]

/-- Processing a datagram counts what became of it, unless it fails. -/
theorem read_process (hh : s.hooks.Untallied) (b : Bytes) (p : SocketAddress) (e : Env σ)
    (c : Counter) :
    ((s.process b p).exec e).2.metrics.read c = e.metrics.read c +
      if ((s.process b p).exec e).1.isOk ∧ (s.fate b p e).raises c then 1 else 0 := by
  unfold fate
  rw [exec_process]
  cases PacketKind.peek b with
  | error err => simp [Except.isOk, Except.toBool]
  | ok kind =>
    cases kind with
    | hello =>
      have hcount := countsSuccess_answerHello hh b p e c
      rcases hx : (s.answerHello b p).exec e with ⟨err | reply, e₁⟩ <;> rw [hx] at hcount
      all_goals
        refine hcount.trans ?_
        cases c <;> rfl
    | auth =>
      have hcount := countsSuccess_answerAuth hh b p e c
      rcases hx : (s.answerAuth b p).exec e with ⟨err | reply, e₁⟩ <;> rw [hx] at hcount
      all_goals
        refine hcount.trans ?_
        cases c <;> rfl
    | data =>
      have hcount := countsSuccess_acceptData hh b p e c
      rcases hx : (s.acceptData b p).exec e with ⟨err | u, e₁⟩ <;> rw [hx] at hcount
      all_goals
        refine hcount.trans ?_
        cases c <;> rfl
    | olleh => simp [Except.isOk, Except.toBool]
    | htua => simp [Except.isOk, Except.toBool]

omit [CipherSuite] in
theorem read_dropped (err : Error) (e : Env σ) (c : Counter) :
    (dropped err e).2.metrics.read c =
      e.metrics.read c + if (Fate.dropped err).raises c then 1 else 0 := by
  cases err <;> cases c <;> first | rfl | exact (UInt64.add_zero _).symm

theorem answer_of_ok {b : Bytes} {p : SocketAddress} {e e' : Env σ} {reply : Option Bytes}
    (hx : (s.process b p).exec e = (.ok reply, e')) : s.answer b p e = (reply, e') := by
  have hrun : (s.process b p).run e = (.ok reply, e') := hx
  unfold answer
  rw [Action.bind_apply, hrun]
  rfl

theorem answer_of_error {b : Bytes} {p : SocketAddress} {e e' : Env σ} {err : Error}
    (hx : (s.process b p).exec e = (.error err, e')) (herr : err.isFatal = false) :
    s.answer b p e = (none, (dropped err e').2) := by
  have hrun : (s.process b p).run e = (.error err, e') := hx
  unfold answer
  rw [Action.bind_apply, hrun]
  dsimp only
  rw [herr]
  rfl

/-- Handling a datagram counts what became of it. -/
theorem read_handle (hh : s.hooks.Untallied) {send : Bytes → SocketAddress → Action σ Unit}
    (hsend : ∀ b p, (send b p).Untallied) {b : Bytes} {p : SocketAddress} {e : Env σ}
    (hreturn : s.OwnerReturns b p e) (c : Counter) :
    (s.handle send b p e).2.metrics.read c =
      e.metrics.read c + if (s.fate b p e).raises c then 1 else 0 := by
  have hprocess := read_process hh b p e c
  unfold handle
  rw [Action.bind_apply]
  rcases hx : (s.process b p).exec e with ⟨err | reply, e₁⟩
  · rw [hx] at hprocess
    rw [fate_of_error hx, answer_of_error hx (hreturn.process err (congrArg Prod.fst hx))]
    refine (read_dropped err e₁ c).trans (congrArg (· + _) (hprocess.trans ?_))
    simp [Except.isOk, Except.toBool]
  · rw [hx] at hprocess
    rw [answer_of_ok hx]
    have hread : e₁.metrics.read c =
        e.metrics.read c + if (s.fate b p e).raises c then 1 else 0 := by
      simpa [Except.isOk, Except.toBool] using hprocess
    cases reply with
    | none => exact hread
    | some reply => exact (congrFun (hsend reply p e₁) c).trans hread

def Happening.isDatagram : Happening σ → Bool
  | .datagram _ _ => true
  | .change _ => false

/-- What happens around a server leaves the counters to it. -/
def Happening.Untallied : Happening σ → Prop
  | .datagram _ _ => True
  | .change f => ∀ e, (f e).metrics.read = e.metrics.read

/-- What becomes of the datagrams that are handled, in order. -/
def clerk (s : Server σ) (send : Bytes → SocketAddress → Action σ Unit) :
    Recorder (Env σ) (Happening σ) Fate where
  next
    | .datagram b p, e => (s.handle send b p e).2
    | .change f, e => f e
  facts
    | .datagram b p, e => [s.fate b p e]
    | .change _, _ => []

section
variable {send : Bytes → SocketAddress → Action σ Unit} {run : List (Happening σ)}

theorem record_clerk_datagram (b : Bytes) (p : SocketAddress) (e : Env σ) :
    (s.clerk send).record e (.datagram b p :: run) =
      s.fate b p e :: (s.clerk send).record (s.handle send b p e).2 run := rfl

theorem length_record_clerk (e : Env σ) :
    ((s.clerk send).record e run).length = run.countP Happening.isDatagram := by
  induction run generalizing e with
  | nil => rfl
  | cons i run ih =>
    rw [Recorder.record_cons, List.length_append, ih, List.countP_cons]
    cases i with
    | datagram b p => exact Nat.add_comm 1 _
    | change f => exact Nat.zero_add _

/-- The counters follow the record: by induction on the run, each step as above. -/
theorem read_after_clerk (hh : s.hooks.Untallied) (hsend : ∀ b p, (send b p).Untallied)
    (hrun : ∀ i ∈ run, i.Untallied) (e : Env σ)
    (hreturn : ∀ before b p after, run = before ++ .datagram b p :: after →
      s.OwnerReturns b p ((s.clerk send).after e before)) (c : Counter) :
    ((s.clerk send).after e run).metrics.read c =
      e.metrics.read c + UInt64.ofNat (((s.clerk send).record e run).countP (·.raises c)) := by
  induction run generalizing e with
  | nil => exact (UInt64.add_zero _).symm
  | cons i run ih =>
    have hrest := ih (fun j hj => hrun j (List.mem_cons_of_mem i hj)) ((s.clerk send).next i e)
      fun before b p after heq => hreturn (i :: before) b p after (congrArg (i :: ·) heq)
    rw [Recorder.after_cons, Recorder.record_cons, List.countP_append, UInt64.ofNat_add,
      ← UInt64.add_assoc, hrest]
    congr 1
    cases i with
    | datagram b p =>
      have hb : s.OwnerReturns b p e := hreturn [] b p run rfl
      refine (read_handle hh hsend hb c).trans (congrArg (e.metrics.read c + ·) ?_)
      change _ = UInt64.ofNat ([s.fate b p e].countP (·.raises c))
      rw [List.countP_singleton]
      split <;> rfl
    | change f =>
      have hchange : Happening.Untallied (.change f) := hrun _ List.mem_cons_self
      exact (congrFun (hchange e) c).trans (UInt64.add_zero _).symm

/-- Every datagram that is handled is counted once, for what became of it, if the owner of the
server returns whenever asked. -/
theorem counted_once {h : Hooks σ} (hh : h.Untallied) {part : σ → SessionStore}
    {put : SessionStore → σ → σ} (hs : s.hooks = h ∨ s.hooks = h.withStore part put)
    (hsend : ∀ b p, (send b p).Untallied) (hrun : ∀ i ∈ run, i.Untallied) (e : Env σ)
    (hreturn : ∀ before b p after, run = before ++ .datagram b p :: after →
      s.OwnerReturns b p ((s.clerk send).after e before)) :
    let fates := (s.clerk send).record e run
    let m := ((s.clerk send).after e run).metrics
    fates.length = run.countP Happening.isDatagram ∧
    (∀ c, m.read c = e.metrics.read c + UInt64.ofNat (fates.countP (·.raises c))) ∧
    (∀ f ∈ fates, (∃! c, c ∈ Counter.outcomes ∧ f.raises c) ∧
      (f.raises .cipherFailures ↔ ∃ x, f = .dropped (.cipher x)) ∧
      (f.raises .handshakesRejected ↔ ∃ x, f = .dropped (.rejected x))) ∧
    m.handled = e.metrics.handled + UInt64.ofNat fates.length ∧
    m.cipherFailures + m.handshakesRejected =
      e.metrics.cipherFailures + e.metrics.handshakesRejected +
        UInt64.ofNat (fates.countP fun f =>
          f.raises .cipherFailures || f.raises .handshakesRejected) := by
  intro fates m
  have hhooks : s.hooks.Untallied := by
    rcases hs with hs | hs <;> rw [hs]
    · exact hh
    · exact hh.withStore part put
  have hread := read_after_clerk hhooks hsend hrun e hreturn
  refine ⟨length_record_clerk e, hread, fun f _ => ⟨f.existsUnique_raises,
    Fate.raises_cipherFailures_iff, Fate.raises_handshakesRejected_iff⟩, ?_, ?_⟩
  · have h₁ : m.hellosAnswered = _ := hread .hellosAnswered
    have h₂ : m.sessionsEstablished = _ := hread .sessionsEstablished
    have h₃ : m.dataDelivered = _ := hread .dataDelivered
    have h₄ : m.datagramsDropped = _ := hread .datagramsDropped
    rw [Metrics.handled, h₁, h₂, h₃, h₄, ← Fate.countP_outcomes, UInt64.ofNat_add, UInt64.ofNat_add,
      UInt64.ofNat_add]
    simp only [Metrics.read, Metrics.handled]
    ac_rfl
  · have h₁ : m.cipherFailures = _ := hread .cipherFailures
    have h₂ : m.handshakesRejected = _ := hread .handshakesRejected
    rw [h₁, h₂, ← Fate.countP_reasons, UInt64.ofNat_add]
    simp only [Metrics.read]
    ac_rfl

end

end Server

section
open Sample

/-- An Auth whose session is registered and an empty datagram make one session and one drop, which
is neither a failure of the cipher engine nor a rejection. -/
theorem counted_once_of_request_and_noise :
    let s := Server.keeping info hooks
    let e := server ((salt 2).bytes ++ (pad ++ []))
    let run : List (Server.Happening (SessionStore × Unit)) :=
      [.datagram (request (salt 1) key) peer, .datagram [] peer]
    let m := ((s.clerk (Host.reply ⟨true⟩ peer)).after e run).metrics
    m.read .sessionsEstablished = 1 ∧ m.read .datagramsDropped = 1 ∧ m.handled = 2 ∧
      m.cipherFailures + m.handshakesRejected = 0 := by
  intro s e run m
  have hregister : ((SessionStore.registerStep (requested (salt 1) (salt 2) key)).exec
      (left e (pad ++ [])).store).1 = .ok true := by decide +kernel
  have hrequest : s.fate (request (salt 1) key) peer e = .established :=
    Server.fate_of_auth (peek_request (salt 1) key)
      (exec_process (salt 1) (salt 2) key [] rfl hregister)
  have hnoise : ∀ e, s.fate [] peer e = .dropped (.codec .shortBuffer) := fun e => rfl
  have hrecord : (s.clerk (Host.reply ⟨true⟩ peer)).record e run =
      [.established, .dropped (.codec .shortBuffer)] := by
    rw [Server.record_clerk_datagram, hrequest, Server.record_clerk_datagram, hnoise]
    rfl
  have hrun : ∀ i ∈ run, i.Untallied :=
    List.forall_mem_cons.2 ⟨trivial, List.forall_mem_singleton.2 trivial⟩
  have hderive : ∀ f, s.hooks.deriveKey = some f → ∀ k e, Fallible.Returns (f k) e := by
    intro f hf k e
    obtain rfl := Option.some.inj hf
    exact .pure _
  have hfirst : s.OwnerReturns (request (salt 1) key) peer e := by
    refine ⟨hderive, fun n e₁ hn err h => ?_⟩
    cases (exec_propose (salt 1) (salt 2) key [] rfl).symm.trans hn
    have hcreate : (s.hooks.create (requested (salt 1) (salt 2) key)).exec _ = _ :=
      exec_create_keeping hooks (left e (pad ++ [])) _
    rw [hcreate, hregister] at h
    cases h
  have hreturn : ∀ before b p after, run = before ++ .datagram b p :: after →
      s.OwnerReturns b p ((s.clerk (Host.reply ⟨true⟩ peer)).after e before) := by
    intro before b p after heq
    rcases before with _ | ⟨i, before⟩
    · obtain ⟨hhead, -⟩ := List.cons.inj heq
      cases hhead
      exact hfirst
    · have hmem : (.datagram b p : Server.Happening (SessionStore × Unit)) ∈ run.tail := by
        rw [heq]
        exact List.mem_append_right _ List.mem_cons_self
      cases List.mem_singleton.1 hmem
      refine .of_peek_ne hderive fun hb => ?_
      cases hb
  obtain ⟨-, hread, -, hhandled, hreasons⟩ :=
    Server.counted_once (Hooks.untallied_withKeyPair pair)
      (show s.hooks = _ ∨ s.hooks = Hooks.withStore _ _ _ from .inr rfl)
      (Host.untallied_reply ⟨true⟩ peer) hrun e hreturn
  rw [hrecord] at hread hhandled hreasons
  exact ⟨hread .sessionsEstablished, hread .datagramsDropped, hhandled, hreasons⟩

end

end SealedDatagram

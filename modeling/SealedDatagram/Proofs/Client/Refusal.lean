import SealedDatagram.CipherSuite.Standard
import SealedDatagram.Proofs.Client.Run
import SealedDatagram.Proofs.Server.Answer
/-!
What a client does not do. A request that it refuses leaves the session as it was, whatever the
random source gives. A refused datagram draws nothing either: it is counted at most, and counters
have no say in what a client does.
-/

namespace SealedDatagram

variable {ε σ α β : Type}

/-- Surroundings that differ in their counters at most. -/
def Env.Alike (e e' : Env σ) : Prop := ∃ metrics, e' = { e with metrics }

theorem Env.Alike.refl (e : Env σ) : e.Alike e := ⟨e.metrics, rfl⟩

theorem Env.Alike.trans {e₁ e₂ e₃ : Env σ} (h : e₁.Alike e₂) (h' : e₂.Alike e₃) :
    e₁.Alike e₃ := by
  obtain ⟨m, rfl⟩ := h
  obtain ⟨m', rfl⟩ := h'
  exact ⟨m', rfl⟩

/-- A step that answers alike in surroundings that are alike, and leaves them alike. -/
def Fallible.Uncounted (x : Fallible ε σ α) : Prop :=
  ∀ e e' : Env σ, e.Alike e' → (x.exec e').1 = (x.exec e).1 ∧ (x.exec e).2.Alike (x.exec e').2

namespace Fallible.Uncounted

variable {x : Fallible ε σ α} {f : α → Fallible ε σ β}

theorem alike (hx : Uncounted x) {e e' : Env σ} (he : e.Alike e') :
    ∃ r e₁ e₁', x.exec e = (r, e₁) ∧ x.exec e' = (r, e₁') ∧ e₁.Alike e₁' := by
  obtain ⟨hanswer, hleft⟩ := hx e e' he
  exact ⟨(x.exec e).1, (x.exec e).2, (x.exec e').2, rfl, Prod.ext hanswer rfl, hleft⟩

theorem bind (hx : Uncounted x) (hf : ∀ a, Uncounted (f a)) : Uncounted (x >>= f) := by
  intro e e' he
  obtain ⟨r, e₁, e₁', hxe, hxe', hleft⟩ := hx.alike he
  rw [exec_bind, exec_bind, hxe, hxe']
  cases r with
  | error err => exact ⟨rfl, hleft⟩
  | ok a => exact hf a e₁ e₁' hleft

theorem pure (a : α) : Uncounted (Pure.pure a : Fallible ε σ α) := fun _ _ he => ⟨rfl, he⟩

theorem throw (err : ε) : Uncounted (MonadExcept.throw err : Fallible ε σ α) :=
  fun _ _ he => ⟨rfl, he⟩

theorem liftExcept (y : Except ε α) : Uncounted (liftM y : Fallible ε σ α) :=
  fun _ _ he => ⟨rfl, he⟩

theorem getState : Uncounted (getState : Fallible ε σ σ) := by
  rintro e _ ⟨metrics, rfl⟩
  exact ⟨rfl, metrics, rfl⟩

theorem modifyState (f : σ → σ) : Uncounted (modifyState f : Fallible ε σ Unit) := by
  rintro e _ ⟨metrics, rfl⟩
  exact ⟨rfl, metrics, rfl⟩

theorem count (f : Metrics → Metrics) : Uncounted (count f : Fallible ε σ Unit) := by
  rintro e _ ⟨metrics, rfl⟩
  exact ⟨rfl, f metrics, rfl⟩

theorem halt : Uncounted (halt : Fallible ε σ Unit) := by
  rintro e _ ⟨metrics, rfl⟩
  exact ⟨rfl, metrics, rfl⟩

theorem of_draw (n : Nat) (err : ε) {R : Bytes → α → Prop}
    (hR : ∀ {b a a'}, R b a → R b a' → a' = a)
    (hx : ∀ e : Env σ, (∃ b a entropy, e.entropy.draw? n = some (b, entropy) ∧ R b a ∧
        x.exec e = (.ok a, { e with entropy })) ∨
      (e.entropy.draw? n = none ∧ x.exec e = (.error err, e))) : Uncounted x := by
  rintro e _ ⟨metrics, rfl⟩
  rcases hx e with ⟨b, a, entropy, hd, ha, hxe⟩ | ⟨hd, hxe⟩ <;>
    rcases hx { e with metrics } with ⟨b', a', entropy', hd', ha', hxe'⟩ | ⟨hd', hxe'⟩ <;>
      rw [hxe, hxe']
  · -- one source gives the same bytes in both runs, so the answers cannot differ
    obtain ⟨rfl, rfl⟩ := Prod.mk.inj (Option.some.inj (hd.symm.trans hd'))
    rw [hR ha ha']
    exact ⟨rfl, metrics, rfl⟩
  · cases hd.symm.trans hd'
  · cases hd.symm.trans hd'
  · exact ⟨rfl, metrics, rfl⟩

theorem draw (n : Nat) :
    Uncounted (draw n : Fallible CipherError σ { b : Bytes // b.length = n }) := by
  refine of_draw n .randomSource (R := fun b a => a.val = b)
    (fun h h' => Subtype.ext (h'.trans h.symm)) ?_
  intro e
  rcases exec_draw_cases n e with ⟨a, entropy, hd, hx⟩ | hx
  · exact .inl ⟨a.val, a, entropy, hd, rfl, hx⟩
  · exact .inr hx

theorem adapt {ε' : Type} (g : ε → ε') (hx : Uncounted x) : Uncounted (ExceptT.adapt g x) := by
  intro e e' he
  obtain ⟨r, e₁, e₁', hxe, hxe', hleft⟩ := hx.alike he
  rw [exec_adapt, exec_adapt, hxe, hxe']
  cases r with
  | error err => exact ⟨rfl, hleft⟩
  | ok a => exact ⟨rfl, hleft⟩

theorem orCipher {x : Fallible CipherError σ α} (hx : Uncounted x) : Uncounted (orCipher x) :=
  hx.adapt Error.cipher

theorem tryCatch {h : ε → Fallible ε σ α} (hx : Uncounted x) (hh : ∀ err, Uncounted (h err)) :
    Uncounted (MonadExcept.tryCatch x h) := by
  intro e e' he
  obtain ⟨r, e₁, e₁', hxe, hxe', hleft⟩ := hx.alike he
  rw [exec_tryCatch, exec_tryCatch, hxe, hxe']
  cases r with
  | error err => exact hh err e₁ e₁' hleft
  | ok a => exact ⟨rfl, hleft⟩

theorem drawSalt : Uncounted (drawSalt : Attempt σ Salt) :=
  (draw Salt.size).orCipher.bind fun b => pure (Salt.mk b.val b.property)

theorem generate : Uncounted (SessionKey.generate : Attempt σ SessionKey) := by
  refine bind ?_ fun b => pure _
  exact tryCatch ((draw 32).adapt _) fun err => halt.bind fun _ => throw err

variable [CipherSuite]

theorem encode (t : SealedKind) (p : t.Packet) (key : SessionKey) (header : Salt) :
    Uncounted (t.encode p key header : Attempt σ Bytes) := by
  by_cases hp : t.Fits p
  · refine of_draw Sealed.padSize (.cipher .randomSource)
      (R := fun pad b => b = t.wire p key header pad) (fun h h' => h'.trans h.symm) ?_
    intro e
    rcases SealedKind.exec_encode_cases hp key header e with ⟨pad, entropy, -, hd, hx⟩ | hx
    · exact .inl ⟨pad, _, entropy, hd, rfl, hx⟩
    · exact .inr hx
  · intro e e' he
    rw [SealedKind.exec_encode_of_not_fits hp, SealedKind.exec_encode_of_not_fits hp]
    exact ⟨rfl, he⟩

end Fallible.Uncounted

namespace Client

open Fallible

section
variable [CipherSuite]

omit [CipherSuite] in
theorem uncounted_require (allowed : List Phase) : Uncounted (require allowed) := by
  refine Uncounted.getState.bind fun c => ?_
  split
  · exact .pure ()
  · exact .throw _

omit [CipherSuite] in
theorem uncounted_checkIssued (header : Salt) : Uncounted (checkIssued header) := by
  refine Uncounted.getState.bind fun c => ?_
  split
  · exact .pure ()
  · exact .throw _

omit [CipherSuite] in
theorem uncounted_sealing (key : Option SessionKey) (salt : Option Salt) (missing : SessionFault) :
    Uncounted (sealing key salt missing) := by
  unfold sealing
  split
  · exact .pure _
  · exact .throw _

omit [CipherSuite] in
theorem uncounted_hello : Uncounted hello :=
  (uncounted_require _).bind fun _ => Uncounted.getState.bind fun _ => .pure _

theorem uncounted_seal (t : SealedKind) (p : Salt → t.Packet) (key : SessionKey) (under : Salt)
    (left : Salt → Client → Client) : Uncounted (do
      let salt ← drawSalt
      let b ← t.encode (p salt) key under
      modifyState (left salt)
      return b : Attempt Client Bytes) := by
  refine Uncounted.drawSalt.bind fun salt => ?_
  refine (Uncounted.encode t (p salt) key under).bind fun b => ?_
  exact (Uncounted.modifyState _).bind fun _ => .pure b

theorem uncounted_authWithKey (credentials : Credentials) (key : SessionKey) :
    Uncounted (authWithKey credentials key) := by
  refine (uncounted_require _).bind fun _ => Uncounted.getState.bind fun c => ?_
  refine (uncounted_sealing _ _ _).bind fun ⟨shared, under⟩ => ?_
  exact uncounted_seal .auth (fun salt => Auth.mk c.keyPair.publicKey salt credentials key) shared
    under _

theorem uncounted_sealData (payload : Bytes) : Uncounted (sealData payload) := by
  refine (uncounted_require _).bind fun _ => Uncounted.getState.bind fun c => ?_
  refine (uncounted_sealing _ _ _).bind fun ⟨key, under⟩ => ?_
  exact uncounted_seal .data (fun salt => Data.mk salt payload) key under _

theorem uncounted_takeOlleh (b : Bytes) : Uncounted (takeOlleh b) := by
  refine (uncounted_require _).bind fun _ => Uncounted.bind ?_ fun r => ?_
  · refine (Uncounted.liftExcept _).bind fun ⟨k, f⟩ => Uncounted.bind ?_ fun key => .liftExcept _
    refine Uncounted.getState.bind fun c => ?_
    split
    · exact .pure _
    · exact .throw _
  · exact (Uncounted.modifyState _).bind fun _ => .pure _

theorem uncounted_takeHtua (b : Bytes) : Uncounted (takeHtua b) := by
  refine (uncounted_require _).bind fun _ => Uncounted.getState.bind fun c => ?_
  split
  · refine (Uncounted.liftExcept _).bind fun r => (uncounted_checkIssued _).bind fun _ => ?_
    split
    dsimp only
    split
    · exact (Uncounted.throw _).bind fun _ => .modifyState _
    · exact .modifyState _
  · exact .throw _

theorem uncounted_openData (b : Bytes) : Uncounted (openData b) := by
  refine (uncounted_require _).bind fun _ => Uncounted.getState.bind fun c => ?_
  split
  · refine Uncounted.bind ?_ fun r => ?_
    · refine (Uncounted.liftExcept _).bind fun f => Uncounted.bind ?_ fun key => .liftExcept _
      exact (uncounted_checkIssued _).bind fun _ => .pure _
    · split
      dsimp only
      split
      · refine (Uncounted.count _).bind fun _ => (Uncounted.throw _).bind fun _ => ?_
        exact (Uncounted.modifyState _).bind fun _ => .pure _
      · exact (Uncounted.modifyState _).bind fun _ => .pure _
  · exact .throw _

theorem uncounted_receive (b : Bytes) : Uncounted (receive b) := by
  refine (Uncounted.liftExcept _).bind fun kind => ?_
  cases kind with
  | olleh => exact (uncounted_takeOlleh b).bind fun _ => .pure none
  | htua => exact (uncounted_takeHtua b).bind fun _ => .pure none
  | data => exact (uncounted_openData b).bind fun payload => .pure (some payload)
  | hello => exact .throw _
  | auth => exact .throw _

theorem Request.uncounted_run (r : Request) : Uncounted r.run := by
  cases r with
  | hello => exact uncounted_hello.bind fun _ => .pure _
  | auth credentials =>
    exact (Uncounted.generate.bind fun key => uncounted_authWithKey credentials key).bind
      fun _ => .pure _
  | authWithKey credentials key =>
    exact (uncounted_authWithKey credentials key).bind fun _ => .pure _
  | sealData payload => exact (uncounted_sealData payload).bind fun _ => .pure _
  | takeOlleh b => exact (uncounted_takeOlleh b).bind fun _ => .pure _
  | takeHtua b => exact (uncounted_takeHtua b).bind fun _ => .pure _
  | openData b => exact (uncounted_openData b).bind fun _ => .pure _
  | receive b => exact (uncounted_receive b).bind fun _ => .pure _

/-- What a client answers to each request. -/
def answers : Recorder (Env Client) Input (Except Error Reply) where
  next := next
  facts
    | .request r, e => [(r.run.exec e).1]
    | .supply _, _ => []

theorem answers_of_exec {r : Request} {answer : Except Error Reply} {e e' : Env Client}
    (hx : r.run.exec e = (answer, e')) :
    answers.record e [.request r] = [answer] ∧ answers.after e [.request r] = e' :=
  ⟨congrArg (fun y : Except Error Reply × Env Client => [y.1]) hx, congrArg Prod.snd hx⟩

theorem answers_of_alike {e e' : Env Client} (he : e.Alike e') (inputs : List Input) :
    answers.record e' inputs = answers.record e inputs ∧
      (answers.after e inputs).Alike (answers.after e' inputs) := by
  induction inputs generalizing e e' with
  | nil => exact ⟨rfl, he⟩
  | cons i inputs ih =>
    have hstep : answers.facts i e' = answers.facts i e ∧
        (answers.next i e).Alike (answers.next i e') := by
      cases i with
      | request r =>
        obtain ⟨hanswer, hleft⟩ := r.uncounted_run e e' he
        exact ⟨congrArg (fun a => [a]) hanswer, hleft⟩
      | supply entropy =>
        obtain ⟨metrics, rfl⟩ := he
        exact ⟨rfl, metrics, rfl⟩
    obtain ⟨hrest, hafter⟩ := ih hstep.2
    rw [Recorder.record_cons, Recorder.record_cons, hstep.1, hrest]
    exact ⟨rfl, hafter⟩

/-- Whether a request hands in a datagram. -/
def Request.arrives : Request → Bool
  | .takeOlleh _ | .takeHtua _ | .openData _ | .receive _ => true
  | _ => false

theorem alike_of_takeOlleh {b : Bytes} {e : Env Client}
    (hx : ¬ ((takeOlleh b).exec e).1.isOk) : e.Alike ((takeOlleh b).exec e).2 := by
  rcases exec_takeOlleh_cases b e with ⟨info, header, x, y, pad, -, -, -, -, -, h⟩ | ⟨err, h⟩
  · rw [h] at hx
    exact absurd rfl hx
  · rw [h]
    exact .refl e

theorem alike_of_takeHtua {b : Bytes} {e : Env Client}
    (hx : ¬ ((takeHtua b).exec e).1.isOk) : e.Alike ((takeHtua b).exec e).2 := by
  rcases exec_takeHtua_cases b e with ⟨key, header, x, pad, -, -, -, -, -, -, h⟩ | ⟨err, h⟩
  · rw [h] at hx
    exact absurd rfl hx
  · rw [h]
    exact .refl e

theorem alike_of_openData {b : Bytes} {e : Env Client}
    (hx : ¬ ((openData b).exec e).1.isOk) : e.Alike ((openData b).exec e).2 := by
  rcases exec_openData_cases b e with ⟨key, header, d, pad, -, -, -, -, -, -, -, h⟩ | ⟨err, m, h⟩
  · rw [h] at hx
    exact absurd rfl hx
  · rw [h]
    exact ⟨m, rfl⟩

omit [CipherSuite] in
theorem alike_of_reply {α β : Type} {x : Attempt Client α} {g : α → β} {e : Env Client}
    (h : ¬ (x.exec e).1.isOk → e.Alike (x.exec e).2)
    (hx : ¬ (Fallible.exec (do return g (← x)) e).1.isOk) :
    e.Alike (Fallible.exec (do return g (← x)) e).2 := by
  rw [exec_bind] at hx ⊢
  rcases hxe : x.exec e with ⟨err | a, e'⟩
  · rw [hxe] at h
    exact h nofun
  · rw [hxe] at hx
    exact absurd rfl hx

theorem alike_of_receive {b : Bytes} {e : Env Client}
    (hx : ¬ ((receive b).exec e).1.isOk) : e.Alike ((receive b).exec e).2 := by
  unfold receive at hx ⊢
  rw [exec_bind, exec_liftExcept] at hx ⊢
  cases hb : PacketKind.peek b with
  | error err => exact .refl e
  | ok kind =>
    rw [hb] at hx
    dsimp only at hx ⊢
    cases kind with
    | olleh => exact alike_of_reply alike_of_takeOlleh hx
    | htua => exact alike_of_reply alike_of_takeHtua hx
    | data => exact alike_of_reply alike_of_openData hx
    | hello => exact .refl e
    | auth => exact .refl e

theorem Request.alike_of_refused {r : Request} {e : Env Client} (hr : r.arrives = true)
    (hx : ¬ (r.run.exec e).1.isOk) : e.Alike (r.run.exec e).2 := by
  cases r with
  | takeOlleh b => exact alike_of_reply alike_of_takeOlleh hx
  | takeHtua b => exact alike_of_reply alike_of_takeHtua hx
  | openData b => exact alike_of_reply alike_of_openData hx
  | receive b => exact alike_of_reply alike_of_receive hx
  | hello | auth | authWithKey | sealData => cases hr

theorem alike_after_refusals {arrivals : List Request} {e : Env Client}
    (harrive : ∀ r ∈ arrivals, r.arrives = true)
    (hrefused : ∀ a ∈ answers.record e (arrivals.map .request), ¬ a.isOk) :
    e.Alike (answers.after e (arrivals.map .request)) := by
  induction arrivals generalizing e with
  | nil => exact .refl e
  | cons r arrivals ih =>
    rw [List.map_cons, Recorder.record_cons] at hrefused
    have hr : e.Alike (answers.next (.request r) e) :=
      r.alike_of_refused (harrive r List.mem_cons_self)
        (hrefused _ (List.mem_append_left _ (List.mem_singleton_self _)))
    refine hr.trans (ih (fun r' hr' => harrive r' (List.mem_cons_of_mem r hr')) ?_)
    intro a ha
    exact hrefused a (List.mem_append_right _ ha)

/-- A request that fails changes nothing of the session. After datagrams that were all refused a
client answers whatever comes as it would have answered without them. -/
theorem refused_changes_nothing (e : Env Client) :
    (∀ (r : Request) err e', r.run.exec e = (.error err, e') → e'.state = e.state) ∧
    ∀ arrivals : List Request, (∀ r ∈ arrivals, r.arrives = true) →
      (∀ a ∈ answers.record e (arrivals.map .request), ¬ a.isOk) → ∀ inputs,
        let x := answers.after e (arrivals.map .request)
        x.state = e.state ∧ answers.record x inputs = answers.record e inputs ∧
          (answers.after x inputs).state = (answers.after e inputs).state := by
  refine ⟨fun r err e' hx => Request.state_of_refused hx, ?_⟩
  intro arrivals harrive hrefused inputs x
  have halike : e.Alike x := alike_after_refusals harrive hrefused
  obtain ⟨hanswers, hafter⟩ := answers_of_alike halike inputs
  refine ⟨?_, hanswers, ?_⟩
  · obtain ⟨metrics, hx⟩ := halike
    rw [hx]
  · obtain ⟨metrics, hx⟩ := hafter
    rw [hx]

end

section
open SealedDatagram.Sample

/-- A Data packet that comes once more is refused and counted, and makes no difference to the next
Data packet that the client sends. -/
theorem sends_alike_after_replay :
    let e : Env Client := { client ((salt 3).bytes ++ (SealedDatagram.Sample.pad ++ [])) with
      state := { (client []).state with
        phase := .streaming, sessionKey := some key, peerSalt := some (salt 2)
        issued := [salt 1], window := ((SaltWindow.ofCapacity 8).accept (salt 2)).2 } }
    let data := (Data.mk (salt 2) []).wire key (salt 1) SealedDatagram.Sample.pad
    let x := answers.after e [.request (.openData data)]
    ((Request.openData data).run.exec e).1 = .error (.session .replayedSalt) ∧
      x.metrics = e.metrics.replayRejected ∧ x.state = e.state ∧
      answers.record x [.request (.sealData [])] = answers.record e [.request (.sealData [])] := by
  intro e data x
  have hopen : (openData data).exec e =
      (.error (.session .replayedSalt), { e with metrics := e.metrics.replayRejected }) := by
    have hx : (openData data).exec e = _ :=
      exec_openData_wire (d := ⟨salt 2, []⟩) (List.mem_cons_of_mem _ (List.mem_singleton_self _))
        rfl rfl (Nat.zero_le _)
    rw [if_pos (List.mem_singleton_self (salt 1)), if_neg (by decide +kernel)] at hx
    exact hx
  have hrun : (Request.openData data).run.exec e =
      (.error (.session .replayedSalt), { e with metrics := e.metrics.replayRejected }) :=
    exec_reply_of_error hopen fun a => .payload (some a)
  obtain ⟨hrecord, hx⟩ := answers_of_exec hrun
  obtain ⟨hsame, hlater⟩ := refused_changes_nothing e
  have harrive : ∀ r ∈ [Request.openData data], r.arrives = true := by
    intro r hr
    rw [List.mem_singleton.1 hr]
    rfl
  have hrefused : ∀ a ∈ answers.record e ([Request.openData data].map .request), ¬ a.isOk := by
    intro a ha
    rw [List.map_singleton, hrecord] at ha
    rw [List.mem_singleton.1 ha]
    exact nofun
  obtain ⟨-, hanswers, -⟩ := hlater [.openData data] harrive hrefused [.request (.sealData [])]
  refine ⟨congrArg Prod.fst hrun, ?_, ?_, hanswers⟩
  · rw [show x = _ from hx]
  · exact (congrArg Env.state hx).trans (hsame _ _ _ hrun)

end

end Client

end SealedDatagram

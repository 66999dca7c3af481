import SealedDatagram.CipherSuite.Standard
import SealedDatagram.Proofs.Server.Answer
/-!
What a server asks of its clients, and what it tells them that it asks. An Auth is held against the
server's own information, while an Olleh tells what the hooks made of it for the one client. So what
a client was told is enforced as far as the server asks for it itself, and throughout if the hooks
never tell a client to bring more than that.
-/

namespace SealedDatagram

namespace Server

open Fallible SessionStore

variable {σ : Type}

/-- What a client is to be told, with the key its answer is for: all of the answer to a Hello that
comes before the key to seal it with. -/
def offer (s : Server σ) (b : Bytes) (peer : SocketAddress) :
    Attempt σ (PublicKey × ServerInfo) := do
  let hello ← Hello.decode b
  s.hooks.checkKey hello.publicKey
  let info ← s.hooks.advertise peer hello.publicKey s.info
  return (hello.publicKey, info)

/-- Whether clients are asked for no more than the server asks for itself. -/
def Candid (s : Server σ) (info : ServerInfo) : Prop :=
  (info.needLogin = true → s.info.needLogin = true) ∧
    (info.needPass = true → s.info.needPass = true)

theorem Candid.lacks {s : Server σ} {info : ServerInfo} (h : s.Candid info) {c : Credentials}
    (hc : Server.lacks info c = true) : Server.lacks s.info c = true := by
  simp only [Server.lacks, Bool.or_eq_true, Bool.and_eq_true] at hc ⊢
  exact hc.imp (And.imp_left h.1) (And.imp_left h.2)

/-- Hooks that tell no client to bring more than the server asks for itself. -/
def TellsCandidly (s : Server σ) : Prop :=
  ∀ f, s.hooks.hello = some f → ∀ p k e, s.Candid (f p k s.info e).1.2

theorem candid_of_offer {s : Server σ} (hs : s.TellsCandidly) {b : Bytes} {p : SocketAddress}
    {e e₁ : Env σ} {k : PublicKey} {info : ServerInfo}
    (ho : (s.offer b p).exec e = (.ok (k, info), e₁)) : s.Candid info := by
  unfold offer at ho
  rw [exec_bind_eq_ok] at ho
  obtain ⟨hello, e₂, -, ho⟩ := ho
  rw [exec_bind_eq_ok] at ho
  obtain ⟨-, e₃, -, ho⟩ := ho
  rw [exec_bind_eq_ok] at ho
  obtain ⟨i, e₄, hi, ho⟩ := ho
  cases ho
  unfold Hooks.advertise at hi
  split at hi
  · cases hi
    exact ⟨id, id⟩
  · rename_i f hf
    rw [exec_bind, exec_liftAction] at hi
    dsimp only at hi
    split at hi
    · cases hi
      exact hs f hf p hello.publicKey e₃
    · cases hi

/-- What a client was told last. -/
def lastTold (p : SocketAddress) (l : List (SocketAddress × ServerInfo)) : Option ServerInfo :=
  (l.filterMap fun n => if n.1 = p then some n.2 else none).getLast?

theorem mem_of_lastTold {p : SocketAddress} {l : List (SocketAddress × ServerInfo)}
    {info : ServerInfo} (h : lastTold p l = some info) : (p, info) ∈ l := by
  obtain ⟨n, hm, hi⟩ := List.mem_filterMap.1 (List.mem_of_getLast? h)
  obtain ⟨hp, hinfo⟩ := Option.ite_none_right_eq_some.1 hi
  rw [← hp, ← Option.some.inj hinfo]
  exact hm

variable [CipherSuite]

theorem answerHello_eq (s : Server σ) (b : Bytes) (peer : SocketAddress) :
    s.answerHello b peer = do
      let (k, info) ← s.offer b peer
      let key ← s.hooks.derive k
      let salt ← drawSalt
      let reply ← (Olleh.mk info).encode key salt
      count Metrics.helloAnswered
      return reply := by
  unfold answerHello offer
  simp only [bind_assoc, pure_bind]

/-- What the Olleh says that a datagram is answered with, if it is. -/
def told (s : Server σ) (b : Bytes) (p : SocketAddress) (e : Env σ) : Option ServerInfo :=
  match PacketKind.peek b, (s.process b p).exec e, (s.offer b p).exec e with
  | .ok .hello, (.ok _, _), (.ok (_, info), _) => some info
  | _, _, _ => none

theorem told_eq_some_iff {s : Server σ} {b : Bytes} {p : SocketAddress} {e : Env σ}
    {info : ServerInfo} :
    s.told b p e = some info ↔ PacketKind.peek b = .ok .hello ∧
      (∃ reply e', (s.process b p).exec e = (.ok reply, e')) ∧
      ∃ k e₁, (s.offer b p).exec e = (.ok (k, info), e₁) := by
  unfold told
  constructor
  · intro h
    split at h
    · rename_i hb hx ho
      obtain rfl := Option.some.inj h
      exact ⟨hb, ⟨_, _, hx⟩, _, _, ho⟩
    · cases h
  · rintro ⟨hb, ⟨reply, e', hx⟩, k, e₁, ho⟩
    rw [hb, hx, ho]

/-- What a client is told is what stands in the Olleh that is sent. -/
theorem process_of_told {s : Server σ} {b : Bytes} {p : SocketAddress} {e : Env σ}
    {info : ServerInfo} (ht : s.told b p e = some info) :
    ∃ key header pad e', pad.length = Sealed.padSize ∧
      (s.process b p).exec e = (.ok (some ((Olleh.mk info).wire key header pad)), e') := by
  obtain ⟨hb, ⟨reply, e', hx⟩, k, e₁, ho⟩ := told_eq_some_iff.1 ht
  obtain ⟨w, rfl, hw⟩ : ∃ w, reply = some w ∧ (s.answerHello b p).exec e = (.ok w, e') := by
    rw [exec_process, hb] at hx
    rcases ha : (s.answerHello b p).exec e with ⟨err | w, e''⟩
    · rw [ha] at hx
      cases hx
    · rw [ha] at hx
      cases hx
      exact ⟨w, rfl, rfl⟩
  rw [answerHello_eq, exec_bind_eq_ok] at hw
  obtain ⟨_, _, ho', hw⟩ := hw
  cases ho.symm.trans ho'
  rw [exec_bind_eq_ok] at hw
  obtain ⟨key, e₂, -, hw⟩ := hw
  rw [exec_bind_eq_ok] at hw
  obtain ⟨header, e₃, -, hw⟩ := hw
  rw [exec_bind_eq_ok] at hw
  obtain ⟨reply, e₄, hseal, hw⟩ := hw
  obtain rfl : reply = w := by cases hw; rfl
  rcases Olleh.exec_encode_cases ⟨info⟩ key header e₃ with ⟨pad, entropy, hpad, -, hsealed⟩ |
    ⟨-, hsealed⟩
  · rw [hsealed] at hseal
    cases hseal
    exact ⟨key, header, pad, e', hpad, hx⟩
  · rw [hsealed] at hseal
    cases hseal

theorem exec_process_hello {s : Server σ} {b pad : Bytes} {p : SocketAddress} {e e₁ e₂ : Env σ}
    {k : PublicKey} {info : ServerInfo} {key : SessionKey} {header : Salt}
    {entropy entropy' : Entropy} (hb : PacketKind.peek b = .ok .hello)
    (ho : (s.offer b p).exec e = (.ok (k, info), e₁))
    (hk : (s.hooks.derive k).exec e₁ = (.ok key, e₂))
    (hd : e₂.entropy.draw? Salt.size = some (header.bytes, entropy))
    (hdp : entropy.draw? Sealed.padSize = some (pad, entropy')) :
    (s.process b p).exec e = (.ok (some ((Olleh.mk info).wire key header pad)),
      { e₂ with entropy := entropy', metrics := e₂.metrics.helloAnswered }) := by
  rw [exec_process, hb]
  dsimp only
  rw [answerHello_eq, exec_bind, ho]
  dsimp only
  rw [exec_bind, hk]
  dsimp only
  rw [exec_bind, exec_drawSalt hd]
  dsimp only
  rw [exec_bind]
  rcases Olleh.exec_encode_cases ⟨info⟩ key header { e₂ with entropy } with
    ⟨pad', entropy₁, -, hdp', hw⟩ | ⟨hdp', -⟩
  · cases hdp.symm.trans hdp'
    rw [hw]
    rfl
  · cases hdp.symm.trans hdp'

/-- What happens around a server: a datagram is handled, or something else changes. -/
inductive Happening (σ : Type) where
  | datagram (b : Bytes) (peer : SocketAddress)
  | change (f : Env σ → Env σ)

def teller (s : Server σ) : Recorder (Env σ) (Happening σ) (SocketAddress × ServerInfo) where
  next
    | .datagram b p, e => ((s.process b p).exec e).2
    | .change f, e => f e
  facts
    | .datagram b p, e => (s.told b p e).toList.map fun info => (p, info)
    | .change _, _ => []

/-- Whatever happens, a server whose hooks tell no client more asks for all that it has told. -/
theorem candid_of_told {s : Server σ} (hs : s.TellsCandidly) {e : Env σ}
    {run : List (Happening σ)} {p : SocketAddress} {info : ServerInfo}
    (h : (p, info) ∈ s.teller.record e run) : s.Candid info := by
  obtain ⟨l, m, hrec⟩ := List.append_of_mem h
  obtain ⟨u, ev, v, l', m', -, hfacts, -, -⟩ := s.teller.exists_input_of_record hrec
  have hmem : (p, info) ∈ s.teller.facts ev (s.teller.after e u) := by simp [hfacts]
  cases ev with
  | change f => cases hmem
  | datagram b q =>
    obtain ⟨i, hi, heq⟩ := List.mem_map.1 hmem
    obtain ⟨-, rfl⟩ := Prod.mk.inj heq
    obtain ⟨-, -, k, e₁, ho⟩ := told_eq_some_iff.1 (Option.mem_toList.1 hi)
    exact candid_of_offer hs ho

/-- Opens an Auth with the key derived for its sender. -/
def openAuth (s : Server σ) (b : Bytes) : Attempt σ (Received Auth) :=
  Auth.decode b fun k => do
    s.hooks.checkKey k
    s.hooks.derive k

/-- The server with other answers to the questions that come once an Auth is open. -/
def asking (s : Server σ) (credentials : Option (SocketAddress → Credentials → Action σ Bool))
    (create : Option (NewSession → Attempt σ Bool)) : Server σ where
  info := s.info
  hooks := { s.hooks with validCredentials := credentials, createSession := create }

/-- A datagram is refused for its credentials, and nothing but opening it has happened: neither
about the credentials nor about a session anyone has been asked. -/
def RefusesUnasked (s : Server σ) (b : Bytes) (p : SocketAddress) (e e₁ : Env σ) : Prop :=
  ∀ credentials create, ((s.asking credentials create).process b p).exec e =
    (.error (.rejected .credentials), e₁)

section
variable {s : Server σ} {b : Bytes} {p : SocketAddress} {e e₁ : Env σ} {r : Received Auth}

theorem peek_of_openAuth (hr : (s.openAuth b).exec e = (.ok r, e₁)) :
    PacketKind.peek b = .ok .auth := by
  obtain ⟨key, -, -, pad, -, rfl⟩ := Auth.exec_decode_eq_ok_iff.1 hr
  exact Auth.peek_wire _ _ _ _

theorem exec_process_of_openAuth (hr : (s.openAuth b).exec e = (.ok r, e₁))
    (credentials : Option (SocketAddress → Credentials → Action σ Bool))
    (create : Option (NewSession → Attempt σ Bool)) :
    ((s.asking credentials create).process b p).exec e =
      if Server.lacks s.info r.packet.credentials then (.error (.rejected .credentials), e₁)
      else
        let rest : Attempt σ Bytes := do
          (s.asking credentials create).hooks.checkCredentials p r.packet.credentials
          let ownSalt ← drawSalt
          (s.asking credentials create).hooks.create
            { peer := p, publicKey := r.packet.publicKey, key := r.packet.sessionKey
              peerSalt := r.packet.salt, ownSalt }
          let reply ← (Htua.mk ownSalt).encode r.packet.sessionKey r.packet.salt
          count Metrics.sessionEstablished
          return reply
        ((rest.exec e₁).1.map some, (rest.exec e₁).2) := by
  have hopen : ((s.asking credentials create).openAuth b).exec e = (.ok r, e₁) := hr
  have hinfo : (s.asking credentials create).info = s.info := rfl
  unfold openAuth at hopen
  rw [exec_process, peek_of_openAuth hr]
  dsimp only
  unfold answerAuth
  rw [exec_bind, hopen]
  dsimp only
  rw [hinfo]
  split
  · rfl
  · rfl

theorem refusesUnasked_iff (hr : (s.openAuth b).exec e = (.ok r, e₁)) :
    s.RefusesUnasked b p e e₁ ↔ Server.lacks s.info r.packet.credentials = true := by
  constructor
  · intro href
    by_contra hlacks
    -- someone who is asked can let the clock go on
    have hx := href (some fun _ _ e => (false, { e with now := e.now + 1 })) none
    rw [exec_process_of_openAuth hr, if_neg hlacks] at hx
    have hnow : e₁.now + 1 = e₁.now := congrArg (fun x => x.2.now) hx
    exact Nat.succ_ne_self _ hnow
  · intro hlacks credentials create
    rw [exec_process_of_openAuth hr, if_pos hlacks]

end

/-- Whatever happened before, an Auth that leaves out what its peer was last told to bring is
refused before anyone is asked about it, exactly if the server itself asks for what is left out. So
it always is if the hooks tell no client to bring more than the server asks for. -/
theorem refusesUnasked_iff_of_told {s : Server σ} {e₀ : Env σ} {run : List (Happening σ)}
    {p : SocketAddress} {info : ServerInfo} {b : Bytes} {r : Received Auth} {e₁ : Env σ} :
    let e := s.teller.after e₀ run
    lastTold p (s.teller.record e₀ run) = some info → (s.openAuth b).exec e = (.ok r, e₁) →
    Server.lacks info r.packet.credentials = true →
    (s.RefusesUnasked b p e e₁ ↔ Server.lacks s.info r.packet.credentials = true) ∧
      (s.TellsCandidly → s.RefusesUnasked b p e e₁) := by
  intro e htold hr hlacks
  have hiff := refusesUnasked_iff (p := p) hr
  refine ⟨hiff, fun hs => hiff.2 ?_⟩
  exact (candid_of_told hs (mem_of_lastTold htold)).lacks hlacks

end Server

namespace Sample

theorem exec_decode_hello {σ : Type} (e : Env σ) :
    Fallible.exec (liftM (Hello.decode (Hello.mk publicKey).encode) : Attempt σ Hello) e =
      (.ok ⟨publicKey⟩, e) := by
  rw [Fallible.exec_liftExcept, Hello.decode_eq_ok_iff.2 rfl]

theorem exec_openAuth (asks : ServerInfo) (x : Salt) (k : SessionKey)
    (e : Env (SessionStore × Unit)) :
    ((Server.keeping asks hooks).openAuth (request x k)).exec e = (.ok ⟨salt 9, auth x k⟩, e) :=
  Auth.exec_decode_eq_ok_iff.2
    ⟨pair.sharedKey publicKey, rfl, sendable_auth x k, pad, rfl, rfl⟩

end Sample

section
open Sample

/-- A server that asks for a password, and says so, refuses the Auth that has none. -/
theorem refusesUnasked_without_pass :
    let asks := { info with needPass := true }
    let s := Server.keeping asks hooks
    let run := [.datagram (Hello.mk publicKey).encode peer]
    let e := s.teller.after (server []) run
    Server.lastTold peer (s.teller.record (server []) run) = some asks ∧
      s.RefusesUnasked (request (salt 1) key) peer e e := by
  intro asks s run e
  have htold : s.told (Hello.mk publicKey).encode peer (server []) = some asks := by
    obtain ⟨header, pad, entropy, -, -, hx⟩ :=
      Server.exists_process_hello asks (p := peer) (e := server []) pair publicKey rfl
    refine Server.told_eq_some_iff.2 ⟨Hello.peek_encode _, ⟨_, _, hx⟩, publicKey, server [], ?_⟩
    unfold Server.offer
    rw [Fallible.exec_bind, exec_decode_hello]
    rfl
  have hrecord : Server.lastTold peer (s.teller.record (server []) run) = some asks := by
    simp [run, Recorder.record, Server.teller, htold, Server.lastTold]
  have hopen : (s.openAuth (request (salt 1) key)).exec e = _ := exec_openAuth asks (salt 1) key e
  refine ⟨hrecord, (Server.refusesUnasked_iff_of_told hrecord hopen rfl).2 ?_⟩
  intro f hf
  cases hf

/-- A hook tells the client to bring a password that the server does not ask for: the Auth that has
none is answered, and its session is registered. -/
theorem answered_against_told :
    let asks := { info with needPass := true }
    let s := Server.keeping info { hooks with hello := some fun _ _ _ => pure (true, asks) }
    let e₀ := server ((salt 9).bytes ++ (pad ++ ((salt 2).bytes ++ (pad ++ []))))
    let run := [.datagram (Hello.mk publicKey).encode peer]
    Server.lastTold peer (s.teller.record e₀ run) = some asks ∧
      Server.lacks asks (auth (salt 1) key).credentials = true ∧
      ∃ reply e', (s.process (request (salt 1) key) peer).exec (s.teller.after e₀ run) =
          (.ok (some reply), e') ∧ e'.state.1.contains peer = true := by
  intro asks s e₀ run
  let e : Env (SessionStore × Unit) :=
    { left e₀ ((salt 2).bytes ++ (pad ++ [])) with metrics := e₀.metrics.helloAnswered }
  have hoffer : (s.offer (Hello.mk publicKey).encode peer).exec e₀ =
      (.ok (publicKey, asks), e₀) := by
    unfold Server.offer
    rw [Fallible.exec_bind, exec_decode_hello]
    rfl
  have hderive : (s.hooks.derive publicKey).exec e₀ = (.ok (pair.sharedKey publicKey), e₀) := rfl
  have hhello := Server.exec_process_hello (Hello.peek_encode _) hoffer hderive
    (Entropy.draw?_append (salt 9).length_eq) (Entropy.draw?_append (a := pad) rfl)
  have htold : s.told (Hello.mk publicKey).encode peer e₀ = some asks :=
    Server.told_eq_some_iff.2 ⟨Hello.peek_encode _, ⟨_, _, hhello⟩, _, _, hoffer⟩
  have hafter : s.teller.after e₀ run = e := congrArg Prod.snd hhello
  have hopened : Fallible.exec (do
      s.hooks.checkKey (auth (salt 1) key).publicKey
      s.hooks.derive (auth (salt 1) key).publicKey : Attempt (SessionStore × Unit) SessionKey) e =
        (.ok (pair.sharedKey publicKey), e) := rfl
  have hpropose : (s.propose (request (salt 1) key) peer).exec e =
      (.ok (requested (salt 1) (salt 2) key), left e (pad ++ [])) :=
    Server.exec_propose_wire hopened (sendable_auth (salt 1) key) rfl rfl rfl
      (Entropy.draw?_append (salt 2).length_eq)
  have hanswered := Server.exec_process_auth info _ (peek_request (salt 1) key) hpropose
    (by decide +kernel) (Entropy.draw?_append (a := pad) rfl)
  refine ⟨by simp [run, Recorder.record, Server.teller, htold, Server.lastTold], rfl, ?_⟩
  rw [hafter]
  exact ⟨_, _, hanswered, by decide +kernel⟩

end

end SealedDatagram

import SealedDatagram.CipherSuite.Standard
import SealedDatagram.Proofs.SessionStore.Run
import SealedDatagram.Proofs.Table
/-!
What a registration leaves behind, down to the last entry. Sweeping a coherent table comes to two
filters: the sessions that live stay, and the salts that name them. What a registration decides, and
the table after it, can be told from that table alone.
-/

namespace SealedDatagram

/-- The same surroundings, with another memory to take from. -/
def Env.withMemory {σ : Type} (e : Env σ) (m : Memory) : Env σ := { e with memory := m }

namespace SessionStore

variable {s : SessionStore} {p q : SocketAddress} {x : Salt} {now : Nat}

/-- The table without the sessions that have expired, and without the salts that named those. -/
def live (s : SessionStore) (now : Nat) : SessionStore :=
  let sessions := s.sessions.filter fun _ d => !d.expired s.ttl now
  { s with sessions, bySalt := s.bySalt.filter fun _ p => sessions.contains p }

theorem sessions_live_eq_some_iff {d : Session} : (s.live now).sessions.get? p = some d ↔
    s.sessions.get? p = some d ∧ d.expired s.ttl now = false := by
  rw [live, Table.get?_filter, Option.filter_eq_some_iff, Bool.not_eq_true']

theorem dropSalt_eq_filter (s : SessionStore) (p : SocketAddress) (x : Salt) :
    s.dropSalt p x = { s with bySalt := s.bySalt.filter fun y q => decide (y = x → q ≠ p) } := by
  unfold dropSalt
  split
  · rename_i hx
    congr 1
    refine Table.filter_congr fun y q hy => ?_
    rw [Bool.eq_iff_iff, bne_iff_ne, decide_eq_true_iff]
    refine forall_congr' ?_
    rintro rfl
    obtain rfl := Option.some.inj (hx.symm.trans hy)
    simp
  · rename_i hx
    rw [Table.filter_eq_self]
    intro y q hy
    rw [decide_eq_true_iff]
    rintro rfl rfl
    exact hx hy

theorem dropSalts_eq_filter (l : List Salt) (s : SessionStore) (p : SocketAddress) :
    l.foldl (fun s x => s.dropSalt p x) s =
      { s with bySalt := s.bySalt.filter fun y q => decide (y ∈ l → q ≠ p) } := by
  induction l generalizing s with
  | nil =>
    rw [List.foldl_nil, Table.filter_eq_self]
    simp
  | cons x l ih =>
    rw [List.foldl_cons, ih, dropSalt_eq_filter]
    simp only [Table.filter_filter, List.mem_cons, ← Bool.decide_and, or_imp]

theorem Coherent.forget_eq_filter (h : s.Coherent) (p : SocketAddress) :
    s.forget p = { s with
      sessions := s.sessions.filter fun q _ => q != p
      bySalt := s.bySalt.filter fun _ q => q != p } := by
  unfold SessionStore.forget
  split
  · rename_i hp
    have hne : ∀ q d, s.sessions.get? q = some d → (q != p) = true := by
      intro q d hd
      rw [bne_iff_ne]
      rintro rfl
      rw [hp] at hd
      cases hd
    have hsalts : ∀ x q, s.bySalt.get? x = some q → (q != p) = true := by
      intro x q hx
      obtain ⟨d, hd, -⟩ := h x q hx
      exact hne q d hd
    rw [Table.filter_eq_self hne, Table.filter_eq_self hsalts]
  · rename_i d hd
    rw [dropSalts_eq_filter]
    congr 1
    refine Table.filter_congr fun x q hx => ?_
    rw [Bool.eq_iff_iff, bne_iff_ne, decide_eq_true_iff]
    refine ⟨fun hq => ?_, fun hq _ => hq⟩
    rintro rfl
    obtain ⟨d', hd', hm⟩ := h x q hx
    obtain rfl := Option.some.inj (hd.symm.trans hd')
    exact hq hm rfl

theorem Coherent.forgetAll_eq_filter (h : s.Coherent) (l : List SocketAddress) :
    l.foldl SessionStore.forget s = { s with
      sessions := s.sessions.filter fun q _ => decide (q ∉ l)
      bySalt := s.bySalt.filter fun _ q => decide (q ∉ l) } := by
  induction l generalizing s with
  | nil =>
    rw [List.foldl_nil, Table.filter_eq_self (by simp), Table.filter_eq_self (by simp)]
  | cons p l ih =>
    rw [List.foldl_cons, ih (h.forget p), h.forget_eq_filter]
    simp only [Table.filter_filter, List.mem_cons, not_or, Bool.decide_and, decide_not,
      bne, beq_eq_decide]

theorem Coherent.sweep_eq_live (h : s.Coherent) (now : Nat) : s.sweep now = s.live now := by
  have hlive : ∀ q d, s.sessions.get? q = some d →
      (q ∉ s.expiredPeers now ↔ d.expired s.ttl now = false) := by
    intro q d hd
    rw [mem_expiredPeers, ← Bool.not_eq_true, not_iff_not]
    constructor
    · rintro ⟨d', hd', hold⟩
      obtain rfl := Option.some.inj (hd.symm.trans hd')
      exact hold
    · exact fun hold => ⟨d, hd, hold⟩
  rw [SessionStore.sweep, h.forgetAll_eq_filter, live]
  congr 1
  · refine Table.filter_congr fun q d hd => ?_
    rw [Bool.eq_iff_iff, decide_eq_true_iff, hlive q d hd, Bool.not_eq_true']
  · refine Table.filter_congr fun x q hx => ?_
    obtain ⟨d, hd, -⟩ := h x q hx
    rw [Bool.eq_iff_iff, decide_eq_true_iff, hlive q d hd, Table.contains, Table.get?_filter, hd]
    simp [Option.filter]

/-- The window that a new session of a peer starts from: that of the session it has, or an empty
one. -/
def windowFor (s : SessionStore) (p : SocketAddress) : SaltWindow :=
  (s.sessions.get? p).elim (.ofCapacity s.replayWindow) Session.window

section
variable {m : Memory} {n : NewSession}

theorem Coherent.register_eq_outOfMemory_iff (hs : s.Coherent) :
    (s.register m now n).1 = .outOfMemory ↔
      (s.live now).sessions.get? n.peer = none ∧ (s.live now).size < s.maxSessions ∧
        (SaltWindow.ofCapacity s.replayWindow).fits m = false := by
  have hcases := register_cases s m now n
  rw [hs.sweep_eq_live] at hcases
  rcases hcases with ⟨d, hd, -, hr⟩ | ⟨d, hd, -, -, hr⟩ | ⟨-, hfull, hr⟩ | ⟨-, -, hfits, hr⟩ |
    ⟨hnone, hroom, hfits, hr⟩
  · refine iff_of_false (by rw [hr]; nofun) fun h => ?_
    rw [hd] at h
    cases h.1
  · refine iff_of_false (by rw [hr]; nofun) fun h => ?_
    rw [hd] at h
    cases h.1
  · exact iff_of_false (by rw [hr]; nofun) fun h => Nat.not_lt.2 hfull h.2.1
  · refine iff_of_false (by rw [hr]; nofun) fun h => ?_
    rw [show (SaltWindow.ofCapacity s.replayWindow).fits m = true from hfits] at h
    cases h.2.2
  · exact iff_of_true (by rw [hr]) ⟨hnone, hroom, hfits⟩

theorem Coherent.register_eq_accepted_iff (hs : s.Coherent)
    (hm : (s.register m now n).1 ≠ .outOfMemory) :
    (s.register m now n).1 = .accepted ↔
      (∃ d, (s.live now).sessions.get? n.peer = some d ∧ n.peerSalt ≠ d.authSalt ∧
        (d.window.capacity = 0 ∨ d.window.contains n.peerSalt = false)) ∨
      (s.live now).sessions.get? n.peer = none ∧ (s.live now).size < s.maxSessions := by
  have hcases := register_cases s m now n
  rw [hs.sweep_eq_live] at hcases
  rcases hcases with ⟨d, hd, hseen, hr⟩ | ⟨d, hd, hne, ha, hr⟩ | ⟨hnone, hfull, hr⟩ |
    ⟨hnone, hroom, -, hr⟩ | ⟨-, -, -, hr⟩
  · refine iff_of_false (by rw [hr]; nofun) ?_
    rintro (⟨d', hd', hne, ha⟩ | ⟨hnone, -⟩)
    · obtain rfl := Option.some.inj (hd.symm.trans hd')
      rcases hseen with hseen | hseen
      · exact hne hseen.symm
      · rw [(d.window.accept_eq_true_iff n.peerSalt).2 ha] at hseen
        cases hseen
    · rw [hd] at hnone
      cases hnone
  · exact iff_of_true (by rw [hr])
      (.inl ⟨d, hd, hne.symm, (d.window.accept_eq_true_iff n.peerSalt).1 ha⟩)
  · refine iff_of_false (by rw [hr]; nofun) ?_
    rintro (⟨d, hd, -⟩ | ⟨-, hroom⟩)
    · rw [hnone] at hd
      cases hd
    · exact absurd hroom (Nat.not_lt.2 hfull)
  · exact iff_of_true (by rw [hr]) (.inr ⟨hnone, hroom⟩)
  · rw [hr] at hm
    exact absurd rfl hm

theorem Coherent.register_of_accepted (hs : s.Coherent)
    (hr : (s.register m now n).1 = .accepted) :
    (s.register m now n).2 = (s.live now).establish now n
      (((s.live now).windowFor n.peer).accept n.peerSalt).2 := by
  have hcases := register_cases s m now n
  rw [hs.sweep_eq_live] at hcases
  rcases hcases with ⟨d, -, -, h⟩ | ⟨d, hd, -, -, h⟩ | ⟨-, -, h⟩ | ⟨hnone, -, -, h⟩ | ⟨-, -, -, h⟩
  · rw [h] at hr
    cases hr
  · rw [h, windowFor, hd]
    rfl
  · rw [h] at hr
    cases hr
  · rw [h, windowFor, hnone]
    rfl
  · rw [h] at hr
    cases hr

theorem Coherent.live (hs : s.Coherent) (now : Nat) : (s.live now).Coherent :=
  hs.sweep_eq_live now ▸ hs.sweep

theorem lookup_establish_eq (hs : s.Coherent) (now : Nat) (n : NewSession) (window : SaltWindow)
    (x : Salt) :
    ((s.establish now n window).lookup now n.peer x).1 =
      if x = n.ownSalt then some n.key else none := by
  split
  · rename_i hx
    rw [hx, lookup_establish]
  · rename_i hx
    cases hk : ((s.establish now n window).lookup now n.peer x).1 with
    | none => rfl
    | some k =>
      obtain ⟨d, hnamed, -⟩ := lookup_eq_some_iff.1 hk
      rcases (bySalt_establish now n window hs).1 hnamed with ⟨hx', -⟩ | ⟨-, -, hp⟩
      · exact absurd hx' hx
      · exact absurd rfl hp

end

variable [CipherSuite] {e : Env SessionStore} {c : SecurityConfig}

/-- Whatever calls came before, the live sessions and their salts decide what a registration comes
to. Without memory for a window that it has to open it gives no answer, and the live sessions are
what is left. If it answers, it is accepted if its salt is new to the session of its peer, or the
peer has none and there is room; then that session alone is another, and only the salt issued with
it names the peer. If it is refused, the live sessions are what is left. -/
theorem registered_exactly (he : e.state = ofConfig c) (calls : List Call) (m : Memory)
    (n : NewSession) :
    let e' := (recorder.after e calls).withMemory m
    let t := e'.state.live e'.now
    let r := (registerStep n).exec e'
    (r.1 = .error .outOfMemory ↔ t.sessions.get? n.peer = none ∧ t.size < c.maxSessions.toNat ∧
      (SaltWindow.ofCapacity c.replayWindow.toNat).fits m = false) ∧
    (r.1 = .error .outOfMemory → r.2.state = t) ∧
    (r.1 ≠ .error .outOfMemory → ∃ accepted, r.1 = .ok accepted ∧
      (accepted = true ↔
        (∃ d, t.sessions.get? n.peer = some d ∧ n.peerSalt ≠ d.authSalt ∧
          (c.replayWindow.toNat = 0 ∨ d.window.contains n.peerSalt = false)) ∨
        t.sessions.get? n.peer = none ∧ t.size < c.maxSessions.toNat) ∧
      (accepted = false → r.2.state = t) ∧
      (accepted = true →
        r.2.state.sessions.get? n.peer =
          some (n.opened ((t.windowFor n.peer).accept n.peerSalt).2 e'.now) ∧
        (∀ q, q ≠ n.peer → r.2.state.sessions.get? q = t.sessions.get? q) ∧
        ∀ x, (lookupStep n.peer x r.2).1 = if x = n.ownSalt then some n.key else none)) := by
  intro e' t r
  have ht : e'.state.Tracks c (recorder.record e calls) := tracks_record he calls
  have hs := ht.coherent
  have hmax : e'.state.maxSessions = c.maxSessions.toNat := ht.maxSessions_eq
  obtain ⟨metrics, heq⟩ := exec_registerStep n e'
  let answer := (e'.state.register m e'.now n).1
  have hanswer : r.1 = answer.outcome := congrArg Prod.fst heq
  have hstate : r.2.state = (e'.state.register m e'.now n).2 := congrArg (·.2.state) heq
  have hnow : r.2.now = e'.now := congrArg (·.2.now) heq
  have hleft : answer ≠ .accepted → r.2.state = t := fun h => by
    rw [hstate, register_of_refused h]
    exact hs.sweep_eq_live e'.now
  have hmemory : r.1 = .error .outOfMemory ↔ answer = .outOfMemory := by
    rw [hanswer, Registration.outcome_eq_error_iff]
  refine ⟨?_, fun hr => hleft ?_, fun hr => ⟨decide (answer = .accepted), ?_, ?_, ?_, ?_⟩⟩
  · rw [hmemory, hs.register_eq_outOfMemory_iff, hmax, ht.replayWindow_eq]
  · rw [hmemory.1 hr]
    nofun
  · rw [hanswer]
    exact Registration.outcome_eq_ok fun h => hr (hmemory.2 h)
  · rw [decide_eq_true_iff, hs.register_eq_accepted_iff fun h => hr (hmemory.2 h), hmax]
    refine or_congr_left (exists_congr fun d => and_congr_right fun hd =>
      and_congr_right fun _ => ?_)
    have hcap : d.window.capacity = c.replayWindow.toNat := by
      rw [← ht.replayWindow_eq]
      exact ht.capacity n.peer d (sessions_live_eq_some_iff.1 hd).1
    rw [hcap]
  · exact fun h => hleft (of_decide_eq_false h)
  · intro h
    have hestablish := hs.register_of_accepted (of_decide_eq_true h)
    refine ⟨?_, fun q hq => ?_, fun x => ?_⟩
    · rw [hstate, hestablish, sessions_establish, if_pos rfl]
    · rw [hstate, hestablish, sessions_establish, if_neg hq]
    · rw [lookupStep_eq, hstate, hnow, hestablish]
      exact lookup_establish_eq (hs.live e'.now) e'.now n _ x

end SessionStore

section
open Sample SessionStore

/-- Two sessions, of which one has expired and the other was seen since. The live one is replaced
under a new salt, which takes the room of the last salt in its window; under the salt it was
registered with it is not. -/
theorem registered_exactly_beside_expired :
    let e : Env SessionStore := { state := .ofConfig config }
    let other : NewSession := { session (salt 7) (salt 8) with peer := .v4 0x7f000001 4001 }
    let calls : List Call := [.register (session (salt 1) (salt 2)), .register other,
      .advance (.ofSeconds 600), .lookup peer (salt 2), .advance (.ofSeconds 1)]
    let e' := (recorder.after e calls).withMemory .ample
    let r := (registerStep (session (salt 3) (salt 4))).exec e'
    let refused := (registerStep (session (salt 1) (salt 4))).exec e'
    r.1 = .ok true ∧
      r.2.state.sessions.get? peer = some ((session (salt 3) (salt 4)).opened
        ⟨1, [salt 3], [salt 3]⟩ 601000000000) ∧
      r.2.state.sessions.get? other.peer = none ∧
      (∀ x, (lookupStep peer x r.2).1 = if x = salt 4 then some key else none) ∧
      refused.1 = .ok false ∧ refused.2.state = e'.state.live e'.now ∧ e'.state.size = 2 ∧
      (e'.state.live e'.now).size = 1 := by
  intro e other calls
  have hcfg : e.state = .ofConfig config := rfl
  obtain ⟨-, -, hr⟩ := registered_exactly hcfg calls .ample (session (salt 3) (salt 4))
  obtain ⟨-, -, hno⟩ := registered_exactly hcfg calls .ample (session (salt 1) (salt 4))
  dsimp only
  have haccepted : ((registerStep (session (salt 3) (salt 4))).exec
      ((recorder.after e calls).withMemory .ample)).1 = .ok true := by decide +kernel
  have hrefused : ((registerStep (session (salt 1) (salt 4))).exec
      ((recorder.after e calls).withMemory .ample)).1 = .ok false := by decide +kernel
  rw [haccepted] at hr
  rw [hrefused] at hno
  obtain ⟨accepted, hok, -, -, heffect⟩ := hr nofun
  obtain rfl : true = accepted := Except.ok.inj hok
  obtain ⟨hsession, hothers, hsalts⟩ := heffect rfl
  obtain ⟨accepted, hok, -, hleft, -⟩ := hno nofun
  obtain rfl : false = accepted := Except.ok.inj hok
  refine ⟨haccepted, hsession.trans ?_, (hothers other.peer (by decide)).trans ?_, hsalts, hrefused,
    hleft rfl, by decide +kernel, by decide +kernel⟩
  · decide +kernel
  · decide +kernel

/-- No memory holds a window of the largest size, so that a table with room for a session gives no
answer to its registration and registers nothing. -/
theorem registration_stops_without_memory :
    let e : Env SessionStore := { state := .ofConfig { replayWindow := 0xffffffffffffffff } }
    let n := session (salt 1) (salt 2)
    (e.state.live e.now).sessions.get? n.peer = none ∧
      (e.state.live e.now).size < e.state.maxSessions ∧
      ∀ m : Memory, let r := (registerStep n).exec (e.withMemory m)
        r.1 = .error .outOfMemory ∧ r.2.state.size = 0 := by
  intro e n
  have hnone : (e.state.live e.now).sessions.get? n.peer = none := by decide +kernel
  have hroom : (e.state.live e.now).size < e.state.maxSessions := by decide +kernel
  refine ⟨hnone, hroom, fun m => ?_⟩
  intro r
  have hfits : (SaltWindow.ofCapacity e.state.replayWindow).fits m = false :=
    SaltWindow.fits_eq_false (by decide +kernel)
  have hs : e.state.Coherent := coherent_empty rfl
  have hstops : (e.state.register m e.now n).1 = .outOfMemory :=
    hs.register_eq_outOfMemory_iff.2 ⟨hnone, hroom, hfits⟩
  have hleft : (e.state.register m e.now n).2 = e.state.sweep e.now :=
    register_of_refused (by rw [hstops]; nofun)
  obtain ⟨metrics, heq⟩ := exec_registerStep n (e.withMemory m)
  have hanswer : r.1 = (e.state.register m e.now n).1.outcome := congrArg Prod.fst heq
  have hstate : r.2.state = (e.state.register m e.now n).2 := congrArg (·.2.state) heq
  constructor
  · rw [hanswer, hstops]
    rfl
  · rw [hstate, hleft]
    decide +kernel

end

end SealedDatagram

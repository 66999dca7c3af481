import SealedDatagram.Proofs.SessionStore.Bounds
import SealedDatagram.Proofs.SessionStore.Expiry
/-!
What peers see of each other in a table, which is nothing as long as their salts differ. All of them
share the index of salts, the room for sessions and the sweeps, but a call for one peer leaves the
session of another as it is and the salts that name it, or takes it away once it has expired.
-/

namespace SealedDatagram

namespace SessionStore

variable {s t u : SessionStore} {p q : SocketAddress} {x : Salt} {now : Nat}

/-- Tables with the same session of a peer, named by the same salts. -/
structure Alike (p : SocketAddress) (s t : SessionStore) : Prop where
  session : t.sessions.get? p = s.sessions.get? p
  named : ∀ x, t.bySalt.get? x = some p ↔ s.bySalt.get? x = some p

namespace Alike

theorem refl (p : SocketAddress) (s : SessionStore) : Alike p s s := ⟨rfl, fun _ => .rfl⟩

theorem trans (h : Alike p s t) (h' : Alike p t u) : Alike p s u :=
  ⟨h'.session.trans h.session, fun x => (h'.named x).trans (h.named x)⟩

theorem symm (h : Alike p s t) : Alike p t s := ⟨h.session.symm, fun x => (h.named x).symm⟩

end Alike

theorem Coherent.not_named (hs : s.Coherent) (hp : s.sessions.get? p = none) (x : Salt) :
    s.bySalt.get? x ≠ some p := by
  intro hx
  obtain ⟨d, hd, -⟩ := hs x p hx
  rw [hp] at hd
  cases hd

theorem alike_of_none (hs : s.Coherent) (ht : t.Coherent) (hps : s.sessions.get? p = none)
    (hpt : t.sessions.get? p = none) : Alike p s t :=
  ⟨hpt.trans hps.symm, fun x => iff_of_false (ht.not_named hpt x) (hs.not_named hps x)⟩

section
variable (hq : q ≠ p)
include hq

theorem alike_put (s : SessionStore) (d : Session) :
    Alike p s { s with sessions := s.sessions.insert q d } where
  session := by rw [Table.get?_insert, if_neg hq.symm]
  named _ := .rfl

theorem alike_forget (hs : s.Coherent) : Alike p s (s.forget q) where
  session := by rw [sessions_forget, if_neg hq.symm]
  named x := by
    rw [bySalt_forget hs q x]
    exact and_iff_left hq.symm

theorem alike_issue (s : SessionStore) (hx : s.bySalt.get? x ≠ some p) :
    Alike p s (s.issue q x) where
  session := by rw [sessions_issue, if_neg hq.symm]
  named y := by
    cases hd : s.sessions.get? q with
    | none => simp only [issue, hd]
    | some d =>
      rw [bySalt_issue hd]
      split
      · rename_i hout
        -- the salt that stops naming the one peer does not name the other
        refine iff_of_false (Option.some_ne_none p).symm fun hy => ?_
        rcases hout.2 with rfl | hy'
        · exact hx hy
        · exact hq (Option.some.inj (hy'.symm.trans hy))
      · split
        · rename_i hyx
          rw [hyx]
          exact iff_of_false (fun h => hq (Option.some.inj h)) hx
        · rfl

end

theorem alike_sweep (hs : s.Coherent) (hp : p ∉ s.expiredPeers now) : Alike p s (s.sweep now) where
  session := by rw [sessions_sweep hs, if_neg hp]
  named x := by
    rw [bySalt_sweep hs]
    exact and_iff_left hp

theorem alike_establish {n : NewSession} (hn : n.peer ≠ p) (hs : s.Coherent)
    (hx : s.bySalt.get? n.ownSalt ≠ some p) (window : SaltWindow) :
    Alike p s (s.establish now n window) where
  session := by rw [sessions_establish, if_neg hn.symm]
  named y := by
    rw [bySalt_establish now n window hs]
    constructor
    · rintro (⟨-, hp⟩ | ⟨-, hy, -⟩)
      · exact absurd hp hn.symm
      · exact hy
    · intro hy
      refine .inr ⟨?_, hy, hn.symm⟩
      rintro rfl
      exact hx hy

theorem alike_forget_own (hs : s.Coherent) (ht : t.Coherent) :
    Alike p (s.forget p) (t.forget p) := by
  apply alike_of_none (hs.forget p) (ht.forget p)
  · rw [sessions_forget, if_pos rfl]
  · rw [sessions_forget, if_pos rfl]

theorem alike_establish_own {n : NewSession} (hs : s.Coherent) (ht : t.Coherent)
    (window : SaltWindow) :
    Alike n.peer (s.establish now n window) (t.establish now n window) where
  session := by rw [sessions_establish, sessions_establish, if_pos rfl, if_pos rfl]
  named y := by
    rw [bySalt_establish now n window hs, bySalt_establish now n window ht]
    simp

namespace Alike

variable (h : Alike p s t)
include h

theorem put (d : Session) :
    Alike p { s with sessions := s.sessions.insert p d }
      { t with sessions := t.sessions.insert p d } where
  session := by rw [Table.get?_insert, Table.get?_insert, if_pos rfl, if_pos rfl]
  named := h.named

theorem issue (x : Salt) : Alike p (s.issue p x) (t.issue p x) where
  session := by rw [sessions_issue, sessions_issue, if_pos rfl, if_pos rfl, h.session]
  named y := by
    cases hd : s.sessions.get? p with
    | none =>
      have hd' : t.sessions.get? p = none := h.session.trans hd
      simp only [SessionStore.issue, hd, hd', h.named]
    | some d =>
      rw [bySalt_issue hd, bySalt_issue (h.session.trans hd)]
      simp only [h.named y]
      split
      · rfl
      · split
        · rfl
        · exact h.named y

theorem sweep (hs : s.Coherent) (ht : t.Coherent) (hl : t.limits = s.limits) :
    Alike p (s.sweep now) (t.sweep now) := by
  have httl : t.ttl = s.ttl := congrArg (·.2.2) hl
  have hexpired : p ∈ t.expiredPeers now ↔ p ∈ s.expiredPeers now := by
    rw [mem_expiredPeers, mem_expiredPeers, h.session, httl]
  constructor
  · rw [sessions_sweep ht, sessions_sweep hs, h.session]
    simp only [hexpired]
  · intro x
    rw [bySalt_sweep ht, bySalt_sweep hs, h.named, hexpired]

theorem lookup (now : Nat) (hs : s.Coherent) (ht : t.Coherent) (hl : t.limits = s.limits)
    (x : Salt) :
    (t.lookup now p x).1 = (s.lookup now p x).1 ∧
      Alike p (s.lookup now p x).2 (t.lookup now p x).2 := by
  have httl : t.ttl = s.ttl := congrArg (·.2.2) hl
  rcases lookup_cases s now p x with ⟨d, hx, hd, hlive, heq⟩ | ⟨d, hx, hd, hlate, heq⟩ |
    ⟨hnone, heq⟩
  · rw [heq, lookup_of_live ((h.named x).2 hx) (h.session.trans hd) (httl ▸ hlive)]
    exact ⟨rfl, h.put _⟩
  · rw [heq, lookup_of_expired ((h.named x).2 hx) (h.session.trans hd) (httl ▸ hlate)]
    exact ⟨rfl, alike_forget_own hs ht⟩
  · have hx : t.bySalt.get? x ≠ some p := by
      intro hx
      exact hs.not_named (hnone ((h.named x).1 hx)) x ((h.named x).1 hx)
    rw [heq, SessionStore.lookup, if_neg hx]
    exact ⟨rfl, h⟩

theorem update (now : Nat) (x : Salt) :
    (t.update now p x).1 = (s.update now p x).1 ∧
      Alike p (s.update now p x).2 (t.update now p x).2 := by
  unfold SessionStore.update
  rw [h.session]
  split
  · exact ⟨rfl, h⟩
  · split
    · exact ⟨rfl, h⟩
    · exact ⟨rfl, h.put _⟩

theorem remove (hs : s.Coherent) (ht : t.Coherent) :
    (t.remove p).1 = (s.remove p).1 ∧ Alike p (s.remove p).2 (t.remove p).2 :=
  ⟨congrArg Option.isSome h.session, alike_forget_own hs ht⟩

end Alike

theorem size_eq_zero (halone : ∀ q ≠ p, s.sessions.get? q = none)
    (hp : s.sessions.get? p = none) : s.size = 0 := by
  apply Nat.eq_zero_of_le_zero
  apply Table.size_le_length (l := [])
  intro q d hd
  by_cases hq : q = p
  · rw [hq, hp] at hd
    cases hd
  · rw [halone q hq] at hd
    cases hd

/-- A registration that is not refused for want of room is decided by what is left of its peer after
the sweep. -/
theorem register_alike {m : Memory} {n : NewSession} (hs : s.Coherent) (ht : t.Coherent)
    (hl : t.limits = s.limits) (h : Alike n.peer (s.sweep now) (t.sweep now))
    (halone : ∀ q ≠ n.peer, t.sessions.get? q = none) (hroom : (s.register m now n).1 ≠ .full) :
    (t.register m now n).1 = (s.register m now n).1 ∧
      Alike n.peer (s.register m now n).2 (t.register m now n).2 := by
  have hlimits : (t.sweep now).limits = (s.sweep now).limits := by
    rw [sweep_limits ht, sweep_limits hs, hl]
  have hwindow : (t.sweep now).replayWindow = (s.sweep now).replayWindow :=
    congrArg Prod.fst hlimits
  have hmax : (t.sweep now).maxSessions = (s.sweep now).maxSessions := congrArg (·.2.1) hlimits
  have hsession := h.session
  unfold register at hroom ⊢
  dsimp only at hroom ⊢
  rw [hsession]
  cases hd : (s.sweep now).sessions.get? n.peer with
  | some d =>
    dsimp only
    split
    · exact ⟨rfl, h⟩
    · split
      · exact ⟨rfl, h⟩
      · exact ⟨rfl, alike_establish_own hs.sweep ht.sweep _⟩
  | none =>
    rw [hd] at hroom hsession
    dsimp only at hroom ⊢
    have hsize : (t.sweep now).size = 0 := by
      refine size_eq_zero (p := n.peer) (fun q hq => ?_) hsession
      rw [sessions_sweep ht]
      split
      · rfl
      · exact halone q hq
    by_cases hfull : (s.sweep now).maxSessions ≤ (s.sweep now).size
    · rw [if_pos hfull] at hroom
      exact absurd rfl hroom
    · rw [if_neg hfull, if_neg (by omega), hwindow]
      split
      · exact ⟨rfl, alike_establish_own hs.sweep ht.sweep _⟩
      · exact ⟨rfl, h⟩

variable {e e' : Env SessionStore} {c : SecurityConfig} {h h' : List Fact}

/-- What the run with all the calls has come to, and the run without those for other peers. The
session of the peer is the same in both, or it has expired and was swept away in the one. -/
structure Shadows (p : SocketAddress) (e e' : Env SessionStore) : Prop where
  now : e'.now = e.now
  alone : ∀ q ≠ p, e'.state.sessions.get? q = none
  view : Alike p e.state e'.state ∨ e.state.sessions.get? p = none ∧ Idle e' p

namespace Shadows

variable (hs : e.state.Tracks c h) (hs' : e'.state.Tracks c h') (hv : Shadows p e e')
include hs hs' hv

theorem alike (hlive : (e'.state.sessions.get? p).all fun d =>
    !d.expired e'.state.ttl e'.now) : Alike p e.state e'.state := by
  rcases hv.view with hview | ⟨hnone, hidle⟩
  · exact hview
  · refine alike_of_none hs.coherent hs'.coherent hnone ?_
    cases hd : e'.state.sessions.get? p with
    | none => rfl
    | some d =>
      rw [hd, Option.all_some, hidle d hd] at hlive
      cases hlive

theorem alike_sweep : Alike p (e.state.sweep e.now) (e'.state.sweep e'.now) := by
  rcases hv.view with hview | ⟨hnone, hidle⟩
  · rw [hv.now]
    exact hview.sweep hs.coherent hs'.coherent (hs'.limits.trans hs.limits.symm)
  · refine alike_of_none hs.coherent.sweep hs'.coherent.sweep ?_
      (sessions_sweep_of_expired hs'.coherent hidle)
    exact sessions_sweep_of_expired hs.coherent (idle_of_none hnone)

theorem idle (hi : Idle e p) : Idle e' p := by
  rcases hv.view with hview | ⟨-, hidle⟩
  · intro d hd
    have httl : e'.state.ttl = e.state.ttl := hs'.ttl_eq.trans hs.ttl_eq.symm
    rw [hview.session] at hd
    rw [httl, hv.now]
    exact hi d hd
  · exact hidle

end Shadows

theorem shadows_ofConfig (he : e.state = ofConfig c) (p : SocketAddress) : Shadows p e e where
  now := rfl
  alone q _ := by rw [he]; rfl
  view := .inl (.refl p e.state)

/-- A salt that was issued to another peer was not issued to this one, before or after. -/
def SaltsApart (p : SocketAddress) (h : List Fact) : Prop :=
  ∀ f ∈ h, f.issued? p = none → ∀ x ∈ f.salt?, x ∉ h.filterMap (·.issued? p)

instance : Decidable (SaltsApart p h) :=
  inferInstanceAs (Decidable (∀ f ∈ h, f.issued? p = none → ∀ x ∈ f.salt?,
    x ∉ h.filterMap (·.issued? p)))

theorem Tracks.named_mem_issued (hs : s.Tracks c h) (hx : s.bySalt.get? x = some p) :
    x ∈ h.filterMap (·.issued? p) := by
  obtain ⟨d, hd, hm⟩ := hs.coherent x p hx
  obtain ⟨a, ha, hf⟩ := hs.of_session hd
  rw [hf.issued] at hm
  exact (SealedDatagram.issued_sublist ha).subset ((rtake_sublist a.issued issuedHistory).subset hm)

/-- What another peer is issued from now on names nothing that the peer has. -/
theorem SaltsApart.not_named {l : List Fact} (hsalts : SaltsApart p (h ++ l)) (hs : s.Tracks c h)
    {f : Fact} (hf : f ∈ l) (hother : f.issued? p = none) (hx : x ∈ f.salt?) :
    s.bySalt.get? x ≠ some p := by
  intro hnamed
  apply hsalts f (List.mem_append_right h hf) hother x hx
  rw [List.filterMap_append]
  exact List.mem_append_left _ (hs.named_mem_issued hnamed)

/-- The peer that a call is for, unless it is for all of them. -/
def Call.peer? : Call → Option SocketAddress
  | register n => some n.peer
  | lookup p _ | update p _ | sealData p _ | remove p => some p
  | clear | purge | advance _ => none

/-- A call with the random bytes that it may draw and the memory that it may take. -/
structure Supplied where
  call : Call
  entropy : Entropy := {}
  memory : Memory := .ample

namespace Supplied

def ready (b : Supplied) (e : Env SessionStore) : Env SessionStore :=
  { e with entropy := b.entropy, memory := b.memory }

/-- The calls without those for any peer but one. -/
def alone (p : SocketAddress) (calls : List Supplied) : List Supplied :=
  calls.filter fun b => b.call.peer?.all (· = p)

theorem alone_cons {b : Supplied} (hb : ∀ q ∈ b.call.peer?, q = p) (calls : List Supplied) :
    alone p (b :: calls) = b :: alone p calls := by
  apply List.filter_cons_of_pos
  simpa [Option.all_eq_true] using hb

theorem alone_cons_of_other {b : Supplied} (hb : b.call.peer? = some q) (hq : q ≠ p)
    (calls : List Supplied) : alone p (b :: calls) = alone p calls := by
  apply List.filter_cons_of_neg
  simp [hb, hq]

end Supplied

inductive Answer where
  | decided (b : Except Error Bool)
  | found (k : Option SessionKey)
  | packed (b : Except Error Bytes)
  deriving DecidableEq

variable [CipherSuite]

def Call.answer? (call : Call) (e : Env SessionStore) : Option Answer :=
  match call with
  | register n => some (.decided ((registerStep n).exec e).1)
  | lookup p x => some (.found (lookupStep p x e).1)
  | update p x => some (.decided (.ok (updateStep p x e).1))
  | sealData p payload => some (.packed ((SessionStore.sealData p payload).exec e).1)
  | remove p => some (.decided (.ok (e.state.remove p).1))
  | clear | purge | advance _ => none

theorem exec_encode_alike (d : Data) (k : SessionKey) (x : Salt) (hent : e'.entropy = e.entropy) :
    ∃ r f f', (d.encode k x).exec e = (r, f) ∧ (d.encode k x).exec e' = (r, f') ∧
      f.state = e.state ∧ f'.state = e'.state := by
  by_cases hlen : d.payload.length ≤ Data.maxPayload
  · rcases Data.exec_encode_cases hlen k x e with ⟨pad, entropy, -, hd, hw⟩ | ⟨hd, hw⟩
    · rcases Data.exec_encode_cases hlen k x e' with ⟨pad', entropy', -, hd', hw'⟩ | ⟨hd', -⟩
      · rw [hent, hd] at hd'
        cases hd'
        exact ⟨_, _, _, hw, hw', rfl, rfl⟩
      · rw [hent, hd] at hd'
        cases hd'
    · rcases Data.exec_encode_cases hlen k x e' with ⟨pad', entropy', -, hd', -⟩ | ⟨-, hw'⟩
      · rw [hent, hd] at hd'
        cases hd'
      · exact ⟨_, _, _, hw, hw', rfl, rfl⟩
  · have hlong := Nat.lt_of_not_le hlen
    exact ⟨_, _, _, Data.exec_encode_of_oversized hlong k x e,
      Data.exec_encode_of_oversized hlong k x e', rfl, rfl⟩

/-- Sealing reads the random source and the session, and at most issues the salt it has drawn. -/
theorem exec_sealData_alike (hent : e'.entropy = e.entropy)
    (hsession : e'.state.sessions.get? p = e.state.sessions.get? p) (payload : Bytes) :
    ((sealData p payload).exec e').1 = ((sealData p payload).exec e).1 ∧
      ((((sealData p payload).exec e).2.state = e.state ∧
          ((sealData p payload).exec e').2.state = e'.state) ∨
        ∃ x, ((sealData p payload).exec e).2.state = e.state.issue p x ∧
          ((sealData p payload).exec e').2.state = e'.state.issue p x) := by
  unfold sealData
  rw [Fallible.exec_bind, Fallible.exec_bind]
  rcases exec_drawSalt_cases e with ⟨x, entropy, hd, hx⟩ | ⟨hd, hx⟩
  · rw [hx, exec_drawSalt (hent ▸ hd)]
    dsimp only
    rw [Fallible.exec_bind, Fallible.exec_bind, Fallible.exec_getState, Fallible.exec_getState]
    dsimp only
    rw [hsession]
    cases he : e.state.sessions.get? p with
    | none => exact ⟨rfl, .inl ⟨rfl, rfl⟩⟩
    | some d =>
      dsimp only
      rw [Fallible.exec_bind, Fallible.exec_bind]
      have hleft : ({ e' with entropy } : Env SessionStore).entropy =
        ({ e with entropy } : Env SessionStore).entropy := rfl
      obtain ⟨r, f, f', hw, hw', hf, hf'⟩ :=
        exec_encode_alike ⟨x, payload⟩ d.key d.peerSalt hleft
      rw [hw, hw']
      cases r with
      | error err => exact ⟨rfl, .inl ⟨hf, hf'⟩⟩
      | ok b => exact ⟨rfl, .inr ⟨x, congrArg (issue · p x) hf, congrArg (issue · p x) hf'⟩⟩
  · rcases exec_drawSalt_cases e' with ⟨x, entropy, hd', -⟩ | ⟨-, hx'⟩
    · rw [hent, hd] at hd'
      cases hd'
    · rw [hx, hx']
      exact ⟨rfl, .inl ⟨rfl, rfl⟩⟩

/-- Whether a registration of a peer is not refused for want of room. -/
def Call.roomy (p : SocketAddress) (call : Call) (e : Env SessionStore) : Bool :=
  match call with
  | register n => n.peer ≠ p || (e.state.register e.memory e.now n).1 ≠ .full
  | lookup _ _ | update _ _ | sealData _ _ | remove _ | clear | purge | advance _ => true

/-- Whether a call that does not ask how long a session has been idle comes upon none that has
expired. -/
def Call.timely (call : Call) (e : Env SessionStore) : Bool :=
  match call with
  | update q _ | sealData q _ | remove q =>
    (e.state.sessions.get? q).all fun d => !d.expired e.state.ttl e.now
  | register _ | lookup _ _ | clear | purge | advance _ => true

namespace Shadows

theorem next (hs' : e'.state.Tracks c h') (hv : Shadows p e e') (call : Call)
    (hcall : ∀ q ∈ call.peer?, q = p)
    (hview : Alike p (call.next e).state (call.next e').state ∨
      (call.next e).state.sessions.get? p = none ∧ Idle (call.next e') p) :
    Shadows p (call.next e) (call.next e') where
  now := by rw [call.now_next, call.now_next, hv.now]
  alone q hq := by
    have hgone : e'.state.contains q = false := contains_eq_false_iff.2 (hv.alone q hq)
    have hkeeps : ∀ f ∈ recorder.record e' [call], ¬ f.registers q := by
      intro f hf hr
      rw [Recorder.record_cons, Recorder.record, List.append_nil] at hf
      obtain ⟨u, v, heq⟩ := List.append_of_mem hf
      cases f with
      | registered n now =>
        obtain ⟨rfl, -⟩ := registered_of_facts heq
        exact hq ((Eq.symm hr).trans (hcall n.peer rfl))
      | found | rolled | issued | dropped => exact hr
    exact contains_eq_false_iff.1 (contains_after_eq_false hs' hgone hkeeps)
  view := hview

variable (hs : e.state.Tracks c h) (hs' : e'.state.Tracks c h') (hv : Shadows p e e')
include hs hs' hv

theorem common {call : Call} (hcall : call.peer? = none) :
    Shadows p (call.next e) (call.next e') := by
  apply hv.next hs' call (by simp [hcall])
  cases call with
  | register n | lookup q x | update q x | sealData q payload | remove q => cases hcall
  | clear => exact .inl (alike_of_none (coherent_empty rfl) (coherent_empty rfl) rfl rfl)
  | purge => exact .inl (hv.alike_sweep hs hs')
  | advance d =>
    rcases hv.view with hview | ⟨hnone, hidle⟩
    · exact .inl hview
    · refine .inr ⟨hnone, hidle.next hs' ?_⟩
      simp [Call.facts]

theorem own {call : Call} (hcall : call.peer? = some p) (hent : e'.entropy = e.entropy)
    (hmem : e'.memory = e.memory) (hroom : call.roomy p e) (htimely : call.timely e') :
    call.answer? e' = call.answer? e ∧ Shadows p (call.next e) (call.next e') := by
  have hnext := hv.next hs' call (by simp [hcall])
  have hl : e'.state.limits = e.state.limits := hs'.limits.trans hs.limits.symm
  cases call with
  | register n =>
    obtain rfl : n.peer = p := Option.some.inj hcall
    obtain ⟨_, heq⟩ := exec_registerStep n e
    obtain ⟨_, heq'⟩ := exec_registerStep n e'
    have hsweep := hv.alike_sweep hs hs'
    rw [hv.now] at hsweep
    rw [hv.now, hmem] at heq'
    obtain ⟨hans, hview⟩ := register_alike hs.coherent hs'.coherent hl hsweep hv.alone
      (by simpa [Call.roomy] using hroom)
    simp only [Call.next, Call.answer?, heq, heq', hans, true_and] at hnext ⊢
    exact hnext (.inl hview)
  | lookup q x =>
    obtain rfl : q = p := Option.some.inj hcall
    rcases hv.view with hview | ⟨hnone, hidle⟩
    · obtain ⟨hans, hview⟩ := hview.lookup e.now hs.coherent hs'.coherent hl x
      simp only [Call.next, Call.answer?, lookupStep_eq, hv.now, hans, true_and] at hnext ⊢
      exact hnext (.inl hview)
    · have hgone : Idle e q := idle_of_none hnone
      have hunseen : ∀ f ∈ (Call.lookup q x).facts e', f.accepted? q = none := by
        intro f hf
        simp only [Call.facts] at hf
        split at hf
        · rw [List.mem_singleton.1 hf]
          rfl
        · split at hf
          · rw [List.mem_singleton.1 hf]
            rfl
          · cases hf
      simp only [Call.answer?, lookup_of_idle hgone, lookup_of_idle hidle, true_and]
      refine hnext (.inr ⟨?_, hidle.next hs' hunseen⟩)
      simp only [Call.next, lookupStep_eq, hgone.lookup hs, hnone, ite_self]
  | update q x =>
    obtain rfl : q = p := Option.some.inj hcall
    obtain ⟨_, heq⟩ := updateStep_eq q x e
    obtain ⟨_, heq'⟩ := updateStep_eq q x e'
    rw [hv.now] at heq'
    obtain ⟨hans, hview⟩ := (hv.alike hs hs' htimely).update e.now x
    simp only [Call.next, Call.answer?, heq, heq', hans, true_and] at hnext ⊢
    exact hnext (.inl hview)
  | sealData q payload =>
    obtain rfl : q = p := Option.some.inj hcall
    have hview := hv.alike hs hs' htimely
    obtain ⟨hans, hstates⟩ := exec_sealData_alike hent hview.session payload
    simp only [Call.answer?, hans, true_and]
    apply hnext
    left
    simp only [Call.next]
    rcases hstates with ⟨h₁, h₂⟩ | ⟨x, h₁, h₂⟩
    · rwa [h₁, h₂]
    · rw [h₁, h₂]
      exact hview.issue x
  | remove q =>
    obtain rfl : q = p := Option.some.inj hcall
    obtain ⟨hans, hview⟩ := (hv.alike hs hs' htimely).remove hs.coherent hs'.coherent
    simp only [Call.next, Call.answer?, hans, true_and] at hnext ⊢
    exact hnext (.inl hview)
  | clear | purge | advance => cases hcall

end Shadows

/-- A call for another peer leaves what the peer has as it is, unless the call sweeps away its
session. -/
theorem Call.alike_next (hs : e.state.Tracks c h) {call : Call} (hcall : call.peer? = some q)
    (hq : q ≠ p) (hsalt : ∀ f ∈ call.facts e, f.issued? p = none →
      ∀ x ∈ f.salt?, e.state.bySalt.get? x ≠ some p) :
    Alike p e.state (call.next e).state ∨
      Idle e p ∧ (call.next e).state.sessions.get? p = none := by
  cases call with
  | register n =>
    obtain rfl : n.peer = q := Option.some.inj hcall
    obtain ⟨_, heq⟩ := exec_registerStep n e
    simp only [next, heq]
    by_cases hi : Idle e p
    · exact .inr ⟨hi, hi.register hs fun _ => hq⟩
    · left
      have hlive : p ∉ e.state.expiredPeers e.now := by
        intro hp
        obtain ⟨d, hd, hlate⟩ := mem_expiredPeers.1 hp
        exact hi fun d' hd' => by rwa [← Option.some.inj (hd.symm.trans hd')]
      have hsweep : Alike p e.state (e.state.sweep e.now) := alike_sweep hs.coherent hlive
      have hestablish : ∀ window, (e.state.register e.memory e.now n).1 = .accepted →
          Alike p e.state ((e.state.sweep e.now).establish e.now n window) := by
        intro window hr
        have hx := hsalt _ (registered_mem_facts hr) (if_neg hq) n.ownSalt rfl
        exact hsweep.trans
          (alike_establish hq hs.coherent.sweep (fun hy => hx ((hsweep.named _).1 hy)) window)
      rcases register_cases e.state e.memory e.now n with ⟨_, _, _, ht⟩ | ⟨_, _, _, _, ht⟩ |
        ⟨_, _, ht⟩ | ⟨_, _, _, ht⟩ | ⟨_, _, _, ht⟩
      · rwa [ht]
      · rw [ht] at hestablish ⊢
        exact hestablish _ rfl
      · rwa [ht]
      · rw [ht] at hestablish ⊢
        exact hestablish _ rfl
      · rwa [ht]
  | lookup r x =>
    obtain rfl : r = q := Option.some.inj hcall
    simp only [next, lookupStep_eq]
    rcases lookup_cases e.state e.now r x with ⟨d, -, -, -, ht⟩ | ⟨d, -, -, -, ht⟩ | ⟨-, ht⟩
    · rw [ht]
      exact .inl (alike_put hq e.state _)
    · rw [ht]
      exact .inl (alike_forget hq hs.coherent)
    · rw [ht]
      exact .inl (.refl p e.state)
  | update r x =>
    obtain rfl : r = q := Option.some.inj hcall
    obtain ⟨_, heq⟩ := updateStep_eq r x e
    simp only [next, heq]
    rcases update_cases e.state e.now r x with ⟨-, ht⟩ | ⟨d, -, -, ht⟩ | ⟨d, -, -, ht⟩
    · rw [ht]
      exact .inl (.refl p e.state)
    · rw [ht]
      exact .inl (.refl p e.state)
    · rw [ht]
      exact .inl (alike_put hq e.state _)
  | sealData r payload =>
    obtain rfl : r = q := Option.some.inj hcall
    simp only [next]
    rcases exec_sealData_cases r payload e with
      ⟨x, entropy, d, pad, entropy', hx, -, -, -, -, heq⟩ | ⟨err, entropy, heq, -⟩
    · rw [heq]
      have hmem : Fact.issued r x ∈ (Call.sealData r payload).facts e := by
        simp only [facts, heq, hx, List.mem_singleton]
      exact .inl (alike_issue hq e.state (hsalt _ hmem (if_neg hq) x rfl))
    · rw [heq]
      exact .inl (.refl p e.state)
  | remove r =>
    obtain rfl : r = q := Option.some.inj hcall
    exact .inl (alike_forget hq hs.coherent)
  | clear | purge | advance => cases hcall

theorem Shadows.other (hs : e.state.Tracks c h) (hs' : e'.state.Tracks c h') (hv : Shadows p e e')
    {call : Call} (hcall : call.peer? = some q) (hq : q ≠ p)
    (hsalt : ∀ f ∈ call.facts e, f.issued? p = none →
      ∀ x ∈ f.salt?, e.state.bySalt.get? x ≠ some p) : Shadows p (call.next e) e' where
  now := by
    have hstands : call.elapsed = 0 := by cases call <;> first | rfl | cases hcall
    rw [call.now_next, hstands, hv.now, Nat.add_zero]
  alone := hv.alone
  view := by
    rcases call.alike_next hs hcall hq hsalt with hsame | ⟨hidle, hgone⟩
    · rcases hv.view with hview | ⟨hnone, hidle⟩
      · exact .inl (hsame.symm.trans hview)
      · exact .inr ⟨hsame.session.trans hnone, hidle⟩
    · exact .inr ⟨hgone, hv.idle hs hs' hidle⟩

namespace Supplied

def recorder : Recorder (Env SessionStore) Supplied Fact where
  next b e := b.call.next (b.ready e)
  facts b e := b.call.facts (b.ready e)

/-- The same calls, but what is recorded are the answers to those for one peer. -/
def asking (p : SocketAddress) : Recorder (Env SessionStore) Supplied Answer where
  next b e := b.call.next (b.ready e)
  facts b e := if b.call.peer? = some p then (b.call.answer? (b.ready e)).toList else []

theorem facts_asking {b : Supplied} (hb : b.call.peer? ≠ some p) (e : Env SessionStore) :
    (asking p).facts b e = [] := if_neg hb

end Supplied

/-- Runs that agree on what a peer has go on to answer it alike. -/
theorem answers_of_shadows (hs : e.state.Tracks c h) (hs' : e'.state.Tracks c h')
    (hv : Shadows p e e') {calls : List Supplied}
    (hsalts : SaltsApart p (h ++ Supplied.recorder.record e calls))
    (hroom : Supplied.recorder.all (fun e b => b.call.roomy p (b.ready e)) e calls)
    (htimely : Supplied.recorder.all (fun e b => b.call.timely (b.ready e)) e'
      (Supplied.alone p calls)) :
    (Supplied.asking p).record e calls =
      (Supplied.asking p).record e' (Supplied.alone p calls) := by
  induction calls generalizing e e' h h' with
  | nil => rfl
  | cons b calls ih =>
    have hs₁ : (b.ready e).state.Tracks c h := hs
    have hs₂ : (b.ready e').state.Tracks c h' := hs'
    have hv₁ : Shadows p (b.ready e) (b.ready e') := ⟨hv.now, hv.alone, hv.view⟩
    rw [Recorder.all_cons] at hroom
    rw [Recorder.record_cons] at hsalts ⊢
    have hsalts' : SaltsApart p ((h ++ b.call.facts (b.ready e)) ++
        Supplied.recorder.record (b.call.next (b.ready e)) calls) := by
      rwa [List.append_assoc]
    have hstep := hs₁.step b.call
    have hstep' := hs₂.step b.call
    cases hb : b.call.peer? with
    | none =>
      have hquiet := Supplied.facts_asking (p := p) (b := b) (by simp [hb])
      rw [Supplied.alone_cons (by simp [hb])] at htimely ⊢
      rw [Recorder.all_cons] at htimely
      rw [Recorder.record_cons, hquiet, hquiet]
      exact ih hstep hstep' (hv₁.common hs₁ hs₂ hb) hsalts' hroom.2 htimely.2
    | some q =>
      by_cases hq : q = p
      · subst hq
        rw [Supplied.alone_cons (by simp [hb])] at htimely ⊢
        rw [Recorder.all_cons] at htimely
        obtain ⟨hans, hnext⟩ := hv₁.own hs₁ hs₂ hb rfl rfl hroom.1 htimely.1
        have hsame : (Supplied.asking q).facts b e = (Supplied.asking q).facts b e' := by
          simp only [Supplied.asking, hans]
        rw [Recorder.record_cons, hsame]
        exact congrArg _ (ih hstep hstep' hnext hsalts' hroom.2 htimely.2)
      · rw [Supplied.alone_cons_of_other hb hq] at htimely ⊢
        rw [Supplied.facts_asking (by simp [hb, hq])]
        have hv₂ : Shadows p (b.ready e) e' := ⟨hv.now, hv.alone, hv.view⟩
        refine ih hstep hs' (hv₂.other hs₁ hs' hb hq ?_) hsalts' hroom.2 htimely
        intro f hf hother x hx
        exact hsalts.not_named hs (List.mem_append_left _ hf) hother hx

/-- The answers of a table to the calls for a peer are what they would be without the calls for
other peers. The salts issued to these must not be issued to it as well, and there must be room for
its registrations. Only a registration and a look-up ask whether its session has expired, so no
other call for it may come upon an expired one that nobody else has swept away. -/
theorem answers_alone (he : e.state = ofConfig c) (p : SocketAddress) (calls : List Supplied)
    (hsalts : SaltsApart p (Supplied.recorder.record e calls))
    (hroom : Supplied.recorder.all (fun e b => b.call.roomy p (b.ready e)) e calls)
    (htimely : Supplied.recorder.all (fun e b => b.call.timely (b.ready e)) e
      (Supplied.alone p calls)) :
    (Supplied.asking p).record e calls =
      (Supplied.asking p).record e (Supplied.alone p calls) := by
  have ht : e.state.Tracks c [] := he ▸ tracks_ofConfig c
  exact answers_of_shadows ht ht (shadows_ofConfig he p) hsalts hroom htimely

end SessionStore

section
open Sample SessionStore

/-- Both peers are sent a packet; the session of the first expires, is swept away by a registration
of the second, and is registered once more. -/
theorem answers_alone_across_sweep :
    let c := { config with sessionTtl := .ofSeconds 60 }
    let e : Env SessionStore := { state := .ofConfig c }
    let random (n : UInt8) : Entropy :=
      { queued := (salt n).bytes ++ List.replicate Sealed.padSize 0 }
    let m := { session (salt 3) (salt 4) with peer := .v4 0x7f000001 4001 }
    let calls : List Supplied := [{ call := .register (session (salt 1) (salt 2)) },
      { call := .sealData peer [7], entropy := random 5 }, { call := .register m },
      { call := .sealData m.peer [8], entropy := random 6 }, { call := .advance (.ofSeconds 61) },
      { call := .register m }, { call := .lookup peer (salt 5) },
      { call := .register (session (salt 1) (salt 7)) }, { call := .remove m.peer },
      { call := .update peer (salt 1) }, { call := .remove peer }]
    (Supplied.asking peer).record e calls =
      (Supplied.asking peer).record e (Supplied.alone peer calls) ∧
    ((Supplied.asking peer).record e calls).drop 2 =
      [.found none, .decided (.ok true), .decided (.ok false), .decided (.ok true)] := by
  intro c e random m calls
  have hsalts : SaltsApart peer (Supplied.recorder.record e calls) := by decide +kernel
  refine ⟨answers_alone rfl peer calls hsalts ?_ ?_, ?_⟩
  · decide +kernel
  · decide +kernel
  · decide +kernel

end

namespace SessionStore

variable [CipherSuite]

/-- Whether no more than `ttl` passes from a touch of the session of a peer until the next call for
the peer, or the end. A touch that no such call has followed yet was at `last`. -/
def prompt (p : SocketAddress) (ttl : Nat) (last : Option Nat) (e : Env SessionStore) :
    List Supplied → Bool
  | [] => last.all (e.now - · ≤ ttl)
  | b :: calls =>
    let e' := Supplied.recorder.next b e
    if b.call.peer? = some p then
      let touches := (Supplied.recorder.facts b e).filterMap (·.seen? p)
      last.all (e.now - · ≤ ttl) && prompt p ttl touches.getLast? e' calls
    else prompt p ttl last e' calls

end SessionStore

section
open Sample SessionStore

/-- The time until the call after a touch is not enough of a bound, for that call need be no touch.
Here it is a look-up under an unknown salt, after which the session expires and another peer's
registration sweeps it away; without that registration the removal still finds it. -/
theorem removal_tells_of_sweep :
    let c := { config with sessionTtl := .ofSeconds 60 }
    let e : Env SessionStore := { state := .ofConfig c }
    let m := { session (salt 3) (salt 4) with peer := .v4 0x7f000001 4001 }
    let calls : List Supplied := [{ call := .register (session (salt 1) (salt 2)) },
      { call := .advance (.ofSeconds 60) }, { call := .lookup peer (salt 9) },
      { call := .advance (.ofSeconds 1) }, { call := .register m }, { call := .remove peer }]
    SaltsApart peer (Supplied.recorder.record e calls) ∧
    Supplied.recorder.all (fun e b => b.call.roomy peer (b.ready e)) e calls ∧
    prompt peer c.sessionTtl.nanos none e calls ∧
    (Supplied.asking peer).record e calls =
      [.decided (.ok true), .found none, .decided (.ok false)] ∧
    (Supplied.asking peer).record e (Supplied.alone peer calls) =
      [.decided (.ok true), .found none, .decided (.ok true)] := by
  intro c e m calls
  refine ⟨?_, ?_, ?_, ?_, ?_⟩
  · decide +kernel
  · decide +kernel
  · decide +kernel
  · decide +kernel
  · decide +kernel

end

end SealedDatagram

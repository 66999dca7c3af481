import SealedDatagram.Proofs.Server.Refusal
import SealedDatagram.Proofs.SessionStore.Expiry
/-!
What keeps a session alive. A session is marked as seen when an Auth registers it, and whenever a
Data packet comes from its peer under a salt that names it: the mark is set with the look-up for the
key, before anything of the packet is checked. No other datagram sets it. So a session expires once
neither has come for longer than its ttl, whatever else was sent from the address of its peer.
-/

namespace SealedDatagram

theorem lastSeen_of_account_append {p : SocketAddress} {h l : List Fact} {a : Account}
    (ha : account p (h ++ l) = some a) :
    (l.filterMap (·.seen? p)).getLast? = some a.lastSeen ∨
      l.filterMap (·.seen? p) = [] ∧ ∃ b, account p h = some b ∧ b.lastSeen = a.lastSeen := by
  induction l using List.reverseRecOn generalizing a with
  | nil =>
    rw [List.append_nil] at ha
    exact .inr ⟨rfl, a, ha, rfl⟩
  | append_singleton l f ih =>
    rw [← List.append_assoc] at ha
    rw [List.filterMap_append]
    by_cases hf : f.ends p
    · obtain ⟨hp, now, rfl⟩ := registered_of_account_concat ha hf
      rw [account_concat, Account.next, if_pos hp] at ha
      rw [← Option.some.inj ha]
      simp [Fact.seen?, hp]
    · obtain ⟨b, hb, -⟩ := exists_of_account_concat ha hf
      rw [account_concat_of_not_ends hb hf] at ha
      rw [← Option.some.inj ha]
      cases hseen : f.seen? p with
      | some t => simp [hseen]
      | none => simpa [hseen] using ih hb

theorem seen?_of_mem_dropped {p : SocketAddress} {f : Fact} {l : List SocketAddress} {cause : Cause}
    (hf : f ∈ l.map (.dropped · cause)) : f.seen? p = none := by
  obtain ⟨q, -, rfl⟩ := List.mem_map.1 hf
  rfl

namespace SessionStore

def NamesLive (s : SessionStore) (now : Nat) (p : SocketAddress) (x : Salt) : Prop :=
  s.bySalt.get? x = some p ∧ ∃ d, s.sessions.get? p = some d ∧ d.expired s.ttl now = false

variable [CipherSuite] {e : Env SessionStore} {p q : SocketAddress} {x : Salt}

theorem lookup_facts_cases (e : Env SessionStore) (q : SocketAddress) (x : Salt) :
    e.state.NamesLive e.now q x ∧ (Call.lookup q x).facts e = [.found q e.now] ∨
      ¬ e.state.NamesLive e.now q x ∧ ∃ l : List SocketAddress,
        (Call.lookup q x).facts e = l.map (.dropped · (.expired e.now)) := by
  rw [Call.facts, lookupStep_eq]
  rcases lookup_cases e.state e.now q x with ⟨d, hx, hd, hl, h'⟩ | ⟨d, hx, hd, hl, h'⟩ | ⟨hnone, h'⟩
  · rw [h']
    exact .inl ⟨⟨hx, d, hd, hl⟩, rfl⟩
  · rw [h']
    refine .inr ⟨?_, [q], if_pos ⟨hx, mem_expiredPeers.2 ⟨d, hd, hl⟩⟩⟩
    rintro ⟨-, d', hd', hlive⟩
    obtain rfl := Option.some.inj (hd.symm.trans hd')
    rw [hl] at hlive
    cases hlive
  · rw [h']
    have hnot : ∀ {d}, e.state.bySalt.get? x = some q → e.state.sessions.get? q ≠ some d := by
      intro d hx hd
      rw [hnone hx] at hd
      cases hd
    refine .inr ⟨?_, [], if_neg ?_⟩
    · rintro ⟨hx, d, hd, -⟩
      exact hnot hx hd
    · rintro ⟨hx, hq⟩
      obtain ⟨d, hd, -⟩ := mem_expiredPeers.1 hq
      exact hnot hx hd

theorem Call.Quiet.seen?_facts {c : Call} (hc : c.Quiet) {f : Fact} (hf : f ∈ c.facts e) :
    f.seen? p = none := by
  cases c with
  | register | lookup | update => exact hc.elim
  | sealData q payload =>
    simp only [Call.facts] at hf
    split at hf
    · rw [List.mem_singleton.1 hf]
      rfl
    · cases hf
  | remove q =>
    simp only [Call.facts] at hf
    split at hf
    · rw [List.mem_singleton.1 hf]
      rfl
    · cases hf
  | clear | purge => exact seen?_of_mem_dropped hf
  | advance => cases hf

end SessionStore

namespace Server

open Fallible SessionStore

variable [CipherSuite] {τ : Type}

/-- A datagram is a Data packet under a salt that names the live session of its peer, whatever else
is in it. -/
def Touches (b : Bytes) (p : SocketAddress) (e : Env (SessionStore × τ)) : Prop :=
  ∃ f, PacketKind.data.bareFrame.parse b = .ok f ∧ e.state.1.NamesLive e.now p f.header

/-- A datagram marks the session of its peer as seen, at a time. -/
def Renews (s : Server (SessionStore × τ)) (b : Bytes) (p : SocketAddress)
    (e : Env (SessionStore × τ)) (t : Nat) : Prop :=
  (∃ n, s.Registers b p e n t) ∨ Touches b p e ∧ t = e.now

omit [CipherSuite] in
theorem Touches.peek {b : Bytes} {p : SocketAddress} {e : Env (SessionStore × τ)}
    (ht : Touches b p e) : PacketKind.peek b = .ok .data := by
  obtain ⟨f, hf, -⟩ := ht
  exact PacketKind.peek_eq_ok_iff.2 ⟨_, (PacketKind.bareFrame_eq_ok_iff.1 hf).2⟩

section
variable {s : Server (SessionStore × τ)} {b : Bytes} {p q : SocketAddress}
  {e : Env (SessionStore × τ)} {t t' : Nat}

theorem Renews.unique (ht : s.Renews b p e t) (ht' : s.Renews b p e t') : t = t' := by
  have hkinds : ∀ {n now}, s.Registers b p e n now → ¬ Touches b p e := fun hreg htouch => by
    cases hreg.1.symm.trans htouch.peek
  rcases ht with ⟨n, hreg⟩ | ⟨htouch, rfl⟩
  · rcases ht' with ⟨n', hreg'⟩ | ⟨htouch, -⟩
    · obtain ⟨hb, e₁, hn, -, rfl⟩ := hreg
      exact ((registers_iff hb hn).1 hreg').2.1.symm
    · exact absurd htouch (hkinds hreg)
  · rcases ht' with ⟨n', hreg'⟩ | ⟨-, rfl⟩
    · exact absurd htouch (hkinds hreg')
    · rfl

end

section
variable (info : ServerInfo) {h : Hooks (SessionStore × τ)} {b : Bytes} {p q : SocketAddress}
  {e : Env (SessionStore × τ)} {t : Nat}

theorem touches_of_openData {r : Received Data} {e₁ : Env (SessionStore × τ)}
    (hx : ((keeping info h).openData b q).exec e = (.ok r, e₁)) :
    Touches b q e ∧ e₁.now = e.now := by
  obtain ⟨d, pad, hd, hsalt, hlive, -, rfl, rfl⟩ := openData_eq_ok info h hx
  refine ⟨⟨d.key.frame r.header pad r.packet.body, ?_, hsalt, d, hd, hlive⟩, rfl⟩
  rw [Data.wire, PacketKind.bareFrame_wire]

theorem seen?_of_openFacts {f : Fact} (hf : f ∈ openFacts b q e) (hseen : f.seen? p = some t) :
    q = p ∧ Touches b q e ∧ t = e.now := by
  unfold openFacts at hf
  split at hf
  · rename_i frame hframe
    rcases lookup_facts_cases e.store q frame.header with ⟨hlive, heq⟩ | ⟨-, l, heq⟩
    · rw [heq, List.mem_singleton] at hf
      rw [hf] at hseen
      obtain ⟨hq, ht⟩ := Option.ite_none_right_eq_some.1 hseen
      exact ⟨hq, ⟨frame, hframe, hlive⟩, (Option.some.inj ht).symm⟩
    · rw [heq] at hf
      rw [seen?_of_mem_dropped hf] at hseen
      cases hseen
  · cases hf

theorem renews_of_facts {f : Fact} (hf : f ∈ (keeping info h).facts b q e)
    (hseen : f.seen? p = some t) : q = p ∧ (keeping info h).Renews b p e t := by
  unfold facts at hf
  split at hf
  · rename_i hb
    split at hf
    · rename_i n e₁ hn
      obtain ⟨-, -, -, -, -, -, hpeer, -⟩ := proposed hn
      simp only [Call.facts] at hf
      rcases List.mem_append.1 hf with hf | hf
      · rw [seen?_of_mem_dropped hf] at hseen
        cases hseen
      · split at hf
        · rename_i hr
          rw [List.mem_singleton.1 hf] at hseen
          obtain ⟨hp, ht⟩ := Option.ite_none_right_eq_some.1 hseen
          obtain rfl := hpeer.symm.trans hp
          exact ⟨rfl, .inl ⟨n, hb, e₁, hn, hr, (Option.some.inj ht).symm⟩⟩
        · cases hf
    · cases hf
  · rcases List.mem_append.1 hf with hf | hf
    · obtain ⟨rfl, htouch, ht⟩ := seen?_of_openFacts hf hseen
      exact ⟨rfl, .inr ⟨htouch, ht⟩⟩
    · split at hf
      · rename_i r e₁ hopen
        obtain ⟨htouch, hnow⟩ := touches_of_openData info hopen
        simp only [rollFacts, Call.facts] at hf
        split at hf
        · rw [List.mem_singleton.1 hf] at hseen
          obtain ⟨rfl, ht⟩ := Option.ite_none_right_eq_some.1 hseen
          exact ⟨rfl, .inr ⟨htouch, (Option.some.inj ht).symm.trans hnow⟩⟩
        · cases hf
      · cases hf
  · cases hf

theorem Renews.exists_fact (ht : (keeping info h).Renews b p e t) :
    ∃ f ∈ (keeping info h).facts b p e, f.seen? p = some t := by
  rcases ht with ⟨n, hb, e₁, hn, hr, rfl⟩ | ⟨htouch, rfl⟩
  · obtain ⟨-, -, -, -, -, -, hpeer, -⟩ := proposed hn
    refine ⟨.registered n e₁.now, ?_, if_pos hpeer⟩
    rw [facts_of_propose hb hn, Call.facts, if_pos hr]
    exact List.mem_append_right _ (List.mem_singleton_self _)
  · refine ⟨.found p e.now, ?_, if_pos rfl⟩
    unfold facts
    rw [htouch.peek]
    refine List.mem_append_left _ ?_
    obtain ⟨f, hf, hlive⟩ := htouch
    unfold openFacts
    rw [hf]
    rcases lookup_facts_cases e.store p f.header with ⟨-, heq⟩ | ⟨hdead, -⟩
    · dsimp only
      rw [heq]
      exact List.mem_singleton_self _
    · exact absurd hlive hdead

theorem lastSeen_of_renewal {past : List Fact} {a : Account}
    (ht : (keeping info h).Renews b p e t)
    (ha : account p (past ++ (keeping info h).facts b p e) = some a) : a.lastSeen = t := by
  rcases lastSeen_of_account_append ha with hlast | ⟨hnone, -⟩
  · obtain ⟨f, hf, hseen⟩ := List.mem_filterMap.1 (List.mem_of_getLast? hlast)
    exact (renews_of_facts info hf hseen).2.unique ht
  · obtain ⟨f, hf, hseen⟩ := ht.exists_fact info
    have hmem := List.mem_filterMap.2 ⟨f, hf, hseen⟩
    rw [hnone] at hmem
    cases hmem

theorem seen?_of_record {e : Env (SessionStore × τ)} {events : List Event}
    (hquiet : ∀ u b v, events = u ++ .datagram b p :: v →
      ∀ t, ¬ (keeping info h).Renews b p ((keeping info h).recorder.after e u) t)
    {f : Fact} (hf : f ∈ (keeping info h).recorder.record e events) : f.seen? p = none := by
  obtain ⟨l, m, hrec⟩ := List.append_of_mem hf
  obtain ⟨u, ev, v, l', m', rfl, hfacts, -, -⟩ :=
    (keeping info h).recorder.exists_input_of_record hrec
  have hf' : f ∈ (keeping info h).eventFacts ev ((keeping info h).recorder.after e u) := by
    change f ∈ (keeping info h).recorder.facts ev _
    simp [hfacts]
  cases ev with
  | call c quiet => exact quiet.seen?_facts hf'
  | datagram b q =>
    rw [Option.eq_none_iff_forall_ne_some]
    intro t hseen
    obtain ⟨rfl, hrenews⟩ := renews_of_facts info hf' hseen
    exact hquiet u b v rfl t hrenews

/-- A session that was renewed, and that no datagram from its peer has renewed since, was last seen
when it was renewed. -/
theorem lastSeen_of_unrenewed {c : SecurityConfig} {past : List Fact} {since : List Event}
    {b₀ : Bytes} {d : Session}
    (htracks : ((keeping info h).recorder.after e (.datagram b₀ p :: since)).store.state.Tracks c
      (past ++ (keeping info h).recorder.record e (.datagram b₀ p :: since)))
    (ht : (keeping info h).Renews b₀ p e t)
    (hquiet : ∀ u b v, since = u ++ .datagram b p :: v → ∀ t, ¬ (keeping info h).Renews b p
      ((keeping info h).recorder.after e (.datagram b₀ p :: u)) t)
    (hd : ((keeping info h).recorder.after e (.datagram b₀ p :: since)).state.1.sessions.get? p =
      some d) : d.lastSeen = t := by
  obtain ⟨a, ha, hf⟩ := htracks.of_session hd
  rw [Recorder.record_cons, ← List.append_assoc] at ha
  rw [hf.lastSeen]
  rcases lastSeen_of_account_append ha with hlast | ⟨-, b, hb, hsame⟩
  · obtain ⟨f, hf, hseen⟩ := List.mem_filterMap.1 (List.mem_of_getLast? hlast)
    rw [seen?_of_record info hquiet hf] at hseen
    cases hseen
  · rw [← hsame]
    exact lastSeen_of_renewal info ht hb

/-- A refused datagram renews nothing unless it came under a salt of the live session, or was an
Auth with everything but a pad for its Htua. -/
theorem not_renews_of_refused (hh : h.Apart) (hs : e.state.1.Coherent) {err : Error}
    {e' : Env (SessionStore × τ)}
    (hx : ((keeping info h).process b p).exec e = (.error err, e'))
    (hpads : ∀ n now, ¬ (keeping info h).Starves b p e n now) (htouch : ¬ Touches b p e) :
    ¬ (keeping info h).Renews b p e t := by
  rintro (⟨n, hreg⟩ | ⟨ht, -⟩)
  · rcases refusal_cases info hh hs hreg.1 hx with ⟨hnot, -⟩ | ⟨m, now, hstarves, -⟩
    · exact hnot n t hreg
    · exact hpads m now hstarves
  · exact htouch ht

/-- A session that was renewed, and whose peer has since sent nothing but datagrams that were
refused, none for want of a pad and none under a salt of the live session, was last seen when it was
renewed. Later than its ttl after that no look-up finds it, and a sweep takes it away. -/
theorem expired_since_renewal (hh : h.Apart) {c : SecurityConfig} {e₀ : Env (SessionStore × τ)}
    (he₀ : e₀.state.1 = .ofConfig c) (before since : List Event) {b₀ : Bytes} :
    let s := keeping info h
    let e := s.recorder.after e₀ (before ++ .datagram b₀ p :: since)
    s.Renews b₀ p (s.recorder.after e₀ before) t →
    (∀ u b v, since = u ++ .datagram b p :: v →
      let e := s.recorder.after e₀ (before ++ .datagram b₀ p :: u)
      (∃ err e', (s.process b p).exec e = (.error err, e')) ∧
        (∀ n now, ¬ s.Starves b p e n now) ∧ ¬ Touches b p e) →
    (∀ d, e.state.1.sessions.get? p = some d → d.lastSeen = t) ∧
    (t + c.sessionTtl.nanos < e.now →
      (∀ x, (lookupStep p x e.store).1 = none) ∧
        (e.state.1.purge e.now).2.contains p = false) := by
  intro s e ht hrefused
  let e₁ := s.recorder.after e₀ before
  have hafter : ∀ u, s.recorder.after e₀ (before ++ .datagram b₀ p :: u) =
      s.recorder.after e₁ (.datagram b₀ p :: u) := by
    intro u
    simp only [Recorder.after, List.foldl_append, e₁]
  have htracks : ∀ u, (s.recorder.after e₁ (.datagram b₀ p :: u)).store.state.Tracks c
      (s.recorder.record e₀ before ++ s.recorder.record e₁ (.datagram b₀ p :: u)) := by
    intro u
    rw [← hafter, ← Recorder.record_append]
    exact tracks_record info hh he₀ _
  have hquiet : ∀ u b v, since = u ++ .datagram b p :: v →
      ∀ t, ¬ s.Renews b p (s.recorder.after e₁ (.datagram b₀ p :: u)) t := by
    intro u b v hsplit t
    obtain ⟨⟨err, e', hx⟩, hpads, htouch⟩ := hrefused u b v hsplit
    rw [hafter] at hx hpads htouch
    exact not_renews_of_refused info hh (htracks u).coherent hx hpads htouch
  have he : e = s.recorder.after e₁ (.datagram b₀ p :: since) := hafter since
  have htr := htracks since
  rw [← he] at htr
  have hlast : ∀ d, e.state.1.sessions.get? p = some d → d.lastSeen = t := by
    intro d hd
    rw [he] at hd
    exact lastSeen_of_unrenewed info (htracks since) ht hquiet hd
  refine ⟨hlast, fun hlate => ?_⟩
  have hidle : Idle e.store p := by
    intro d hd
    rw [Session.expired, htr.ttl_eq, hlast d hd]
    exact decide_eq_true (Nat.lt_sub_iff_add_lt'.2 hlate)
  exact ⟨lookup_of_idle hidle,
    contains_eq_false_iff.2 (sessions_sweep_of_expired htr.coherent hidle)⟩

end

end Server

namespace Sample

/-- A Data packet of nothing but a header, as anyone can send it who has seen the salt. -/
def forged (x : Salt) : Bytes :=
  Field.word PacketKind.data.tag ++ Sealed.wire ⟨x.bytes, [], List.replicate 8 0⟩

end Sample

section
open Sample Server SessionStore

/-- A Data packet under a salt the session is not named by does not keep it. -/
theorem expired_after_unknown_salt :
    let s := keeping info hooks
    let b := (Data.mk (salt 3) [1]).wire key (salt 7) pad
    let e := s.recorder.after (server ((salt 2).bytes ++ (pad ++ [])))
      [.datagram (request (salt 1) key) peer, .datagram b peer,
        .call (.advance (.ofSeconds 601)) trivial]
    (∀ x, (lookupStep peer x e.store).1 = none) ∧
      (e.state.1.purge e.now).2.contains peer = false := by
  intro s b e
  have hrenews : s.Renews (request (salt 1) key) peer (server ((salt 2).bytes ++ (pad ++ []))) 0 :=
    .inl ⟨requested (salt 1) (salt 2) key, peek_request (salt 1) key, _,
      exec_propose (salt 1) (salt 2) key [] rfl, by decide +kernel, rfl⟩
  have hunnamed : established.store.state.bySalt.get? (salt 7) ≠ some peer := by decide +kernel
  have hrefused : (s.process b peer).exec established = _ :=
    (process_of_unnamed info hooks hunnamed (Data.mk (salt 3) [1])).1
  have hnow : e.now = 601000000000 := by
    have hafter : e = s.recorder.after established
        [.datagram b peer, .call (.advance (.ofSeconds 601)) trivial] := after_request _
    rw [hafter, Recorder.after_cons, next_datagram, hrefused]
    decide +kernel
  refine (expired_since_renewal (c := config) info apart_hooks rfl []
    [.datagram b peer, .call (.advance (.ofSeconds 601)) trivial] hrenews ?_).2 (hnow ▸ by decide)
  intro u d v hsplit
  cases u with
  | nil =>
    obtain ⟨rfl, -⟩ := Event.datagram.inj (List.cons.inj hsplit).1
    intro e₁
    have he₁ : e₁ = established := after_request []
    rw [he₁]
    refine ⟨⟨_, _, hrefused⟩, ?_, ?_⟩
    · rintro n now ⟨⟨hpeek, -⟩, -⟩
      cases hpeek.symm.trans (Data.peek_wire _ _ _ _)
    · rintro ⟨f, hf, hlive, -⟩
      obtain rfl := Except.ok.inj (hf.symm.trans (PacketKind.bareFrame_wire .data key _ pad _))
      exact hunnamed hlive
  | cons ev u =>
    have htail := (List.cons.inj hsplit).2
    cases u with
    | nil => cases (List.cons.inj htail).1
    | cons ev' u => simp at htail

/-- A session kept beyond its ttl by a packet that is refused: anyone who has seen a salt of it go
by can send that. -/
theorem kept_by_forged_packet :
    let s := keeping info hooks
    let e₀ := server ((salt 2).bytes ++ (pad ++ []))
    let e₁ := s.recorder.after e₀ [.datagram (request (salt 1) key) peer,
      .call (.advance (.ofSeconds 600)) trivial]
    let e := s.recorder.after e₁ [.datagram (forged (salt 2)) peer,
      .call (.advance (.ofSeconds 1)) trivial]
    (∃ reply e', (s.process (request (salt 1) key) peer).exec e₀ = (.ok (some reply), e')) ∧
      (∃ err e', (s.process (forged (salt 2)) peer).exec e₁ = (.error err, e')) ∧
      e₀.now + config.sessionTtl.nanos < e.now ∧
      (lookupStep peer (salt 2) e.store).1 = some key := by
  intro s e₀ e₁ e
  have hanswered := exec_process (e := e₀) (salt 1) (salt 2) key [] rfl (by decide +kernel)
  have he₁ : e₁ = s.recorder.after established [.call (.advance (.ofSeconds 600)) trivial] :=
    after_request _
  have he : e = s.recorder.after (s.recorder.after established
      [.call (.advance (.ofSeconds 600)) trivial]) [.datagram (forged (salt 2)) peer,
        .call (.advance (.ofSeconds 1)) trivial] := by rw [← he₁]
  refine ⟨⟨_, _, hanswered⟩, ?_, ?_, ?_⟩
  · have hrefused : ((s.process (forged (salt 2)) peer).exec e₁).1.isOk = false := by
      rw [he₁]
      decide +kernel
    rcases hx : (s.process (forged (salt 2)) peer).exec e₁ with ⟨err | reply, e'⟩
    · exact ⟨err, e', rfl⟩
    · rw [hx] at hrefused
      cases hrefused
  · rw [he]
    decide +kernel
  · rw [he]
    decide +kernel

end

end SealedDatagram

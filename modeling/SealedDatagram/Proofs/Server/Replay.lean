import Mathlib.Data.List.Perm.Basic
import SealedDatagram.Proofs.Server.Crew
/-!
Replays. A salt that a session table has accepted for a peer is not accepted again until the session
is dropped or as many others were accepted as the window remembers, in whatever order workers call
the table. A packet is handed on after the acceptance of its salt and once for each, so a server
whose workers share the table does not deliver a salt twice on one acceptance either.
-/

namespace SealedDatagram

/-- Between two acceptances of a salt the session was dropped, or the window was filled with
others. -/
theorem Fresh.between {w : Nat} {h₁ h₂ h₃ : List Fact} {f₁ f₂ : Fact} {p : SocketAddress} {x : Salt}
    (h : Fresh w (h₁ ++ f₁ :: (h₂ ++ f₂ :: h₃))) (h₁x : f₁.accepted? p = some x)
    (h₂x : f₂.accepted? p = some x) :
    (∃ cause, .dropped p cause ∈ h₂) ∨
      w ≤ ((h₂.filterMap (·.accepted? p)).filter (· ≠ x)).length := by
  by_cases hd : ∃ cause, Fact.dropped p cause ∈ h₂
  · exact .inl hd
  right
  obtain ⟨⟨a, ha⟩, -⟩ := h h₁ f₁ _ rfl p x h₁x
  have hlast : ∃ l, a.accepted = l ++ [x] := by
    rw [account_concat] at ha
    cases f₁ with
    | registered n now =>
      by_cases hn : n.peer = p
      · obtain rfl : n.peerSalt = x := by simpa [Fact.accepted?, hn] using h₁x
        rw [Account.next, if_pos hn] at ha
        exact ⟨_, by rw [← Option.some.inj ha]⟩
      · simp [Fact.accepted?, hn] at h₁x
    | rolled q y now =>
      by_cases hq : q = p
      · obtain rfl : y = x := by simpa [Fact.accepted?, hq] using h₁x
        rw [Account.next, if_pos hq] at ha
        obtain ⟨b, -, rfl⟩ := Option.map_eq_some_iff.1 ha
        exact ⟨_, rfl⟩
      · simp [Fact.accepted?, hq] at h₁x
    | found | issued | dropped => cases h₁x
  obtain ⟨l, hl⟩ := hlast
  have hsplit : h₁ ++ f₁ :: (h₂ ++ f₂ :: h₃) = (h₁ ++ [f₁] ++ h₂) ++ f₂ :: h₃ := by simp
  have hnot := (h _ f₂ h₃ hsplit p x h₂x).2
  rw [acceptedBy_append ha (not_exists.1 hd), hl, List.append_assoc, List.singleton_append] at hnot
  exact le_length_of_notMem_rtake hnot

namespace SessionStore

theorem Tracks.refuses {s : SessionStore} {c : SecurityConfig} {h₁ h₂ : List Fact} {mem : Memory}
    {m n : NewSession} {t now : Nat} (hs : s.Tracks c (h₁ ++ .registered m t :: h₂))
    (hm : ∀ f ∈ h₂, ¬ f.ends m.peer)
    (hlive : ∀ d, s.sessions.get? m.peer = some d → d.expired s.ttl now = false)
    (hp : n.peer = m.peer) (hx : n.peerSalt = m.peerSalt) :
    (s.register mem now n).1 = .replayed := by
  obtain ⟨d, hd, hf⟩ := hs.of_account (account_registered rfl hm)
  have hkept : (s.sweep now).sessions.get? n.peer = some d := by
    rw [sessions_sweep hs.coherent, if_neg, hp, hd]
    intro hmem
    obtain ⟨d', hd', he⟩ := mem_expiredPeers.1 hmem
    rw [hp] at hd'
    rw [hlive d' hd'] at he
    cases he
  have hauth : d.authSalt = n.peerSalt := hf.authSalt.trans hx.symm
  have hsome : (s.sweep now).sessions.get? n.peer ≠ none := Option.ne_none_iff_exists'.2 ⟨d, hkept⟩
  rcases register_cases s mem now n with ⟨_, -, -, heq⟩ | ⟨d', hd', hne, -, -⟩ | ⟨hnone, -⟩ |
    ⟨hnone, -⟩ | ⟨hnone, -⟩
  · rw [heq]
  · rw [hkept] at hd'
    obtain rfl := Option.some.inj hd'
    exact absurd hauth hne
  · exact absurd hnone hsome
  · exact absurd hnone hsome
  · exact absurd hnone hsome

theorem Tracks.idle_of_dropped {s : SessionStore} {c : SecurityConfig} {h₁ h₂ : List Fact}
    {p : SocketAddress} {now : Nat} (hs : s.Tracks c (h₁ ++ .dropped p (.expired now) :: h₂)) :
    ∃ seen, (h₁.filterMap (·.seen? p)).getLast? = some seen ∧ c.sessionTtl.nanos < now - seen :=
  hs.ttl_eq ▸ hs.patient h₁ _ h₂ rfl p now rfl

end SessionStore

def Server.Opened.holds (p : SocketAddress) (x : Salt) (o : Server.Opened) : Bool :=
  decide (o.peer = p ∧ o.received.packet.salt = x)

def Fact.rolls (p : SocketAddress) (x : Salt) : Fact → Bool
  | rolled q y _ => decide (q = p ∧ y = x)
  | _ => false

theorem Fact.rolls_iff {p : SocketAddress} {x : Salt} {f : Fact} :
    f.rolls p x = true ↔ ∃ now, f = .rolled p x now := by
  cases f with
  | rolled q y now => simp [rolls]
  | registered | found | issued | dropped => simp [rolls]

theorem exists_two_of_countP {α : Type} {q : α → Bool} {l r : List α} (hl : 0 < l.countP q)
    (hlr : 1 < (l ++ r).countP q) :
    ∃ u f₁ v f₂ z, l ++ r = u ++ f₁ :: (v ++ f₂ :: z) ∧ u ++ [f₁] <+: l ∧ q f₁ = true ∧
      q f₂ = true := by
  obtain ⟨f, hf, hqf⟩ := List.countP_pos_iff.1 hl
  obtain ⟨f₁, hfind⟩ := Option.isSome_iff_exists.1 (List.find?_isSome.2 ⟨f, hf, hqf⟩)
  obtain ⟨hf₁, u, l', rfl, hu⟩ := List.find?_eq_some_iff_append.1 hfind
  have hnone : u.countP q = 0 := List.countP_eq_zero.2 fun a ha => by simpa using hu a ha
  have hrest : 0 < (l' ++ r).countP q := by
    rw [List.append_assoc, List.cons_append, List.countP_append, hnone,
      List.countP_cons_of_pos hf₁] at hlr
    omega
  obtain ⟨f₂, hf₂, hqf₂⟩ := List.countP_pos_iff.1 hrest
  obtain ⟨v, z, hvz⟩ := List.append_of_mem hf₂
  exact ⟨u, f₁, v, f₂, z, by rw [List.append_assoc, List.cons_append, hvz], ⟨l', by simp⟩, hf₁,
    hqf₂⟩

namespace Crew

open SessionStore Server

variable [CipherSuite] {τ : Type} {p : SocketAddress} {x : Salt}

/-- The packet that a move hands on. -/
def handed : Move → Crew τ → List Opened
  | .delivering i, w => w.accepted[i]?.toList
  | .arriving _ _, _ | .rolling _, _ | .call _, _ => []

section
variable (info : ServerInfo) (h : Hooks (SessionStore × τ))

/-- What a move hands on, and what is to be handed on after it, was so before or has just had its
salt accepted. -/
theorem countP_next (m : Move) (w : Crew τ) :
    (handed m w).countP (Opened.holds p x) +
        (next (keeping info h) m w).accepted.countP (Opened.holds p x) ≤
      w.accepted.countP (Opened.holds p x) +
        (facts (keeping info h) m w).countP (Fact.rolls p x) := by
  cases m with
  | arriving b q =>
    have hsame : (next (keeping info h) (.arriving b q) w).accepted = w.accepted := by
      rw [next]
      split
      · split <;> rfl
      · rfl
    rw [hsame, handed, List.countP_nil, Nat.zero_add]
    exact Nat.le_add_right _ _
  | rolling i =>
    rw [handed, List.countP_nil, Nat.zero_add]
    cases hi : w.opened[i]? with
    | none =>
      rw [next, hi]
      exact Nat.le_add_right _ _
    | some o =>
      rcases hx : ((keeping info h).roll o.peer o.received).exec w.env with ⟨err | u, env⟩
      · rw [next, hi]
        dsimp only
        rw [hx]
        exact Nat.le_add_right _ _
      · rw [next_rolling hi hx, facts, hi]
        dsimp only
        rw [rollFacts_eq info h, hx, List.countP_append]
        exact Nat.le_of_eq (by simp [Except.isOk, Except.toBool, Opened.holds, Fact.rolls])
  | delivering i =>
    rw [handed, next]
    cases hi : w.accepted[i]? with
    | none => exact Nat.le_of_eq (Nat.add_comm _ _)
    | some o =>
      obtain ⟨hlt, rfl⟩ := List.getElem?_eq_some_iff.1 hi
      rw [facts, List.countP_nil, Nat.add_zero,
        ← (List.getElem_cons_eraseIdx_perm hlt).countP_eq, List.countP_cons, Nat.add_comm]
      exact Nat.le_of_eq (by simp [List.countP_cons])
  | call c =>
    rw [handed, List.countP_nil, Nat.zero_add]
    exact Nat.le_add_right _ _

/-- The packets that moves hand on, in order. -/
def delivered (s : Server (SessionStore × τ)) (w : Crew τ) (moves : List Move) : List Opened :=
  Recorder.record ⟨next s, handed⟩ w moves

/-- No more packets are handed on than salts were accepted. -/
theorem countP_after (moves : List Move) (w : Crew τ) :
    (delivered (keeping info h) w moves).countP (Opened.holds p x) +
        ((recorder (keeping info h)).after w moves).accepted.countP (Opened.holds p x) ≤
      w.accepted.countP (Opened.holds p x) +
        ((recorder (keeping info h)).record w moves).countP (Fact.rolls p x) := by
  induction moves generalizing w with
  | nil => exact Nat.le_of_eq (Nat.add_comm _ _)
  | cons m moves ih =>
    have hstep := countP_next (p := p) (x := x) info h m w
    have hrest := ih (next (keeping info h) m w)
    have hdelivered : delivered (keeping info h) w (m :: moves) =
        handed m w ++ delivered (keeping info h) (next (keeping info h) m w) moves := rfl
    have hrecord : (recorder (keeping info h)).record w (m :: moves) = facts (keeping info h) m w ++
        (recorder (keeping info h)).record (next (keeping info h) m w) moves := rfl
    rw [hdelivered, hrecord, Recorder.after_cons, next_recorder, List.countP_append,
      List.countP_append]
    omega

end

/-- Of two packets of a peer with one salt that are handed on, each has had its salt accepted
before. -/
theorem exists_rolled_of_delivered {info : ServerInfo} {h : Hooks (SessionStore × τ)}
    {w₀ : Crew τ} (hw₀ : w₀.accepted = []) {moves₁ moves₂ : List Move} {i j : Nat} {o₁ o₂ : Opened}
    (hi : ((recorder (keeping info h)).after w₀ moves₁).accepted[i]? = some o₁)
    (hj : ((recorder (keeping info h)).after w₀ (moves₁ ++ .delivering i :: moves₂)).accepted[j]? =
      some o₂)
    (h₁ : o₁.holds p x = true) (h₂ : o₂.holds p x = true) :
    ∃ l₁ t₁ l₂ t₂ l₃, (recorder (keeping info h)).record w₀ (moves₁ ++ .delivering i :: moves₂) =
        l₁ ++ .rolled p x t₁ :: (l₂ ++ .rolled p x t₂ :: l₃) ∧
      l₁ ++ [.rolled p x t₁] <+: (recorder (keeping info h)).record w₀ moves₁ := by
  have hfirst : 0 < ((recorder (keeping info h)).record w₀ moves₁).countP (Fact.rolls p x) := by
    have hcount := countP_after (p := p) (x := x) info h moves₁ w₀
    have hheld := List.countP_pos_iff.2 ⟨o₁, List.mem_of_getElem? hi, h₁⟩
    rw [hw₀, List.countP_nil] at hcount
    omega
  have hboth : 1 < ((recorder (keeping info h)).record w₀
      (moves₁ ++ .delivering i :: moves₂)).countP (Fact.rolls p x) := by
    have hcount := countP_after (p := p) (x := x) info h (moves₁ ++ .delivering i :: moves₂) w₀
    have hheld := List.countP_pos_iff.2 ⟨o₂, List.mem_of_getElem? hj, h₂⟩
    have hhanded : o₁ ∈ delivered (keeping info h) w₀ (moves₁ ++ .delivering i :: moves₂) := by
      unfold delivered
      rw [Recorder.record_append, Recorder.record_cons]
      refine List.mem_append_right _ (List.mem_append_left _ ?_)
      change o₁ ∈ ((recorder (keeping info h)).after w₀ moves₁).accepted[i]?.toList
      rw [hi]
      exact List.mem_singleton_self o₁
    have hgone := List.countP_pos_iff.2 ⟨o₁, hhanded, h₁⟩
    rw [hw₀, List.countP_nil] at hcount
    omega
  rw [Recorder.record_append] at hboth ⊢
  obtain ⟨l₁, f₁, l₂, f₂, l₃, hrec, hprefix, hf₁, hf₂⟩ := exists_two_of_countP hfirst hboth
  obtain ⟨t₁, rfl⟩ := Fact.rolls_iff.1 hf₁
  obtain ⟨t₂, rfl⟩ := Fact.rolls_iff.1 hf₂
  exact ⟨l₁, t₁, l₂, t₂, l₃, hrec, hprefix⟩

/-- The moves that may drop the session of a peer for a cause. -/
def Move.Drops (p : SocketAddress) : Move → Cause → Prop
  | .call c, cause => c.Drops p cause
  | .arriving _ _, .expired _ => True
  | _, _ => False

omit [CipherSuite] in
/-- A datagram that arrives makes no call that drops a session which has not expired. -/
theorem Move.drops_arriving {c : SessionStore.Call} {cause : Cause} (hc : c.Drops p cause)
    (hremoved : ¬ c.Drops p .removed) (hcleared : ¬ c.Drops p .cleared) (b : Bytes)
    (q : SocketAddress) : (Move.arriving b q).Drops p cause := by
  cases cause with
  | expired now => trivial
  | removed => exact absurd hc hremoved
  | cleared => exact absurd hc hcleared

theorem drops_of_facts {s : Server (SessionStore × τ)} {m : Move} {w : Crew τ} {cause : Cause}
    (hf : .dropped p cause ∈ facts s m w) : m.Drops p cause := by
  have hopen : ∀ {b q} {e : Env (SessionStore × τ)}, .dropped p cause ∈ openFacts b q e →
      (Move.arriving b q).Drops p cause := by
    intro b q e hf
    unfold openFacts at hf
    split at hf
    · exact Move.drops_arriving (SessionStore.drops_of_facts hf).1 id id b q
    · cases hf
  cases m with
  | arriving b q =>
    simp only [facts] at hf
    split at hf
    · exact hopen hf
    · rename_i hb
      unfold Server.facts at hf
      split at hf
      · split at hf
        · exact Move.drops_arriving (SessionStore.drops_of_facts hf).1 id id b q
        · cases hf
      · rename_i hdata
        exact absurd hdata hb
      · cases hf
  | rolling i =>
    simp only [facts] at hf
    split at hf
    · exact (SessionStore.drops_of_facts hf).1
    · cases hf
  | delivering i => cases hf
  | call c => exact (SessionStore.drops_of_facts hf).1

end Crew

namespace Server

open SessionStore

variable [CipherSuite] {τ : Type}

/-- A datagram is handled, and the packet in it, which holds a salt, is handed on. -/
def HandsOn {σ : Type} (s : Server σ) (b : Bytes) (p : SocketAddress) (x : Salt) (e : Env σ) :
    Prop :=
  ((s.process b p).exec e).1 = .ok none ∧
    ((s.openData b p).exec e).1.map (·.packet.salt) = .ok x

theorem facts_of_handsOn {info : ServerInfo} {h : Hooks (SessionStore × τ)} {b : Bytes}
    {p : SocketAddress} {x : Salt} {e : Env (SessionStore × τ)}
    (hx : (keeping info h).HandsOn b p x e) :
    (keeping info h).facts b p e = [.found p e.now, .rolled p x e.now] := by
  obtain ⟨hdone, hsalt⟩ := hx
  obtain ⟨r, e₁, e₂, hopen, hroll, -⟩ := delivered_of_process (Prod.ext hdone rfl)
  rw [hopen] at hsalt
  obtain rfl := Except.ok.inj hsalt
  obtain ⟨d, pad, hd, hname, hlive, -, hb, he₁⟩ := openData_eq_ok info h hopen
  have hrolled := rollFacts_eq info h p r e₁
  rw [hroll] at hrolled
  unfold facts
  rw [hopen, hb, Data.peek_wire]
  dsimp only
  have hlook : e.store.state.lookup e.store.now p r.header = _ := lookup_of_live hname hd hlive
  rw [openFacts_wire, Call.facts, lookupStep_eq, hlook, hrolled, he₁]
  rfl

/-- A salt is handed on twice, in datagrams that are each handled whole, only if the session was
dropped or the window filled with others in between. -/
theorem between_handsOn (info : ServerInfo) {h : Hooks (SessionStore × τ)} (hh : h.Apart)
    {e : Env (SessionStore × τ)} {c : SecurityConfig} (he : e.state.1 = .ofConfig c)
    (events₁ events₂ : List Event) {b₁ b₂ : Bytes} {p : SocketAddress} {x : Salt} :
    let s := keeping info h
    let m := s.recorder
    s.HandsOn b₁ p x (m.after e events₁) →
    s.HandsOn b₂ p x (m.after e (events₁ ++ .datagram b₁ p :: events₂)) →
    let between := m.record (m.after e (events₁ ++ [.datagram b₁ p])) events₂
    (∃ cause, .dropped p cause ∈ between) ∨
      c.replayWindow.toNat ≤ ((between.filterMap (·.accepted? p)).filter (· ≠ x)).length := by
  intro s m h₁ h₂ between
  have ht := tracks_record info hh he (events₁ ++ .datagram b₁ p :: events₂ ++ [.datagram b₂ p])
  have hfirst : m.facts (.datagram b₁ p) (m.after e events₁) = _ := facts_of_handsOn h₁
  have hsecond : m.facts (.datagram b₂ p) (m.after e (events₁ ++ .datagram b₁ p :: events₂)) = _ :=
    facts_of_handsOn h₂
  have hrec : m.record e (events₁ ++ .datagram b₁ p :: events₂ ++ [.datagram b₂ p]) =
      (m.record e events₁ ++ [.found p (m.after e events₁).now]) ++
        .rolled p x (m.after e events₁).now ::
          ((between ++ [.found p (m.after e (events₁ ++ .datagram b₁ p :: events₂)).now]) ++
            .rolled p x (m.after e (events₁ ++ .datagram b₁ p :: events₂)).now :: []) := by
    rw [Recorder.record_append, Recorder.record_append, Recorder.record_cons, hfirst,
      ← Recorder.after_concat, Recorder.record_cons, hsecond]
    simp [Recorder.record, between]
  have hfresh := ht.fresh
  rw [ht.replayWindow_eq, show (keeping info h).recorder.record e _ = _ from hrec] at hfresh
  rcases hfresh.between (if_pos rfl) (if_pos rfl) with ⟨cause, hdrop⟩ | hfull
  · refine .inl ⟨cause, ?_⟩
    simpa using hdrop
  · right
    simpa [Fact.accepted?] using hfull

end Server

/-- The replay safety of a server, whatever its configuration. Workers may be held up between an
acceptance and the delivery that comes of it, so of two deliveries it is the acceptances that have
something in between. -/
theorem replays_refused [CipherSuite] (c : SecurityConfig) :
    -- between two acceptances of a salt, in any calls of a table that starts empty
    (∀ (e : Env SessionStore) (calls : List SessionStore.Call) (h₁ h₂ h₃ : List Fact)
        (f₁ f₂ : Fact) (p : SocketAddress) (x : Salt), e.state = .ofConfig c →
      SessionStore.recorder.record e calls = h₁ ++ f₁ :: (h₂ ++ f₂ :: h₃) →
      f₁.accepted? p = some x → f₂.accepted? p = some x →
        (∃ cause, .dropped p cause ∈ h₂) ∨
          c.replayWindow.toNat ≤ ((h₂.filterMap (·.accepted? p)).filter (· ≠ x)).length) ∧
    -- where a session is dropped that was asked for, or the session had been idle for too long
    (∀ (e : Env SessionStore) (calls : List SessionStore.Call) (h₁ h₂ : List Fact)
        (p : SocketAddress) (cause : Cause), e.state = .ofConfig c →
      SessionStore.recorder.record e calls = h₁ ++ .dropped p cause :: h₂ →
      ∃ before call since, calls = before ++ call :: since ∧ call.Drops p cause ∧
        let e' := SessionStore.recorder.after e before
        e'.state.contains p = true ∧ ∀ now, cause = .expired now → now = e'.now ∧
          ∃ seen, (h₁.filterMap (·.seen? p)).getLast? = some seen ∧
            c.sessionTtl.nanos < now - seen) ∧
    -- the same of any moves of workers that share the table, which deliver what they were let
    (∀ (τ : Type) (info : ServerInfo) (k : Hooks (SessionStore × τ)) (w : Crew τ)
        (moves₁ moves₂ : List Crew.Move) (i j : Nat) (o₁ o₂ : Server.Opened),
      let m := Crew.recorder (.keeping info k)
      let moves := moves₁ ++ .delivering i :: moves₂
      let x := o₁.received.packet.salt
      k.Apart → w.env.state.1 = .ofConfig c → w.accepted = [] →
      (m.after w moves₁).accepted[i]? = some o₁ → (m.after w moves).accepted[j]? = some o₂ →
      o₂.peer = o₁.peer → o₂.received.packet.salt = x →
      ∃ h₁ t₁ h₂ t₂ h₃,
        m.record w moves = h₁ ++ .rolled o₁.peer x t₁ :: (h₂ ++ .rolled o₁.peer x t₂ :: h₃) ∧
        h₁ ++ [.rolled o₁.peer x t₁] <+: m.record w moves₁ ∧
        ((∃ cause, .dropped o₁.peer cause ∈ h₂) ∨ c.replayWindow.toNat ≤
          ((h₂.filterMap (·.accepted? o₁.peer)).filter (· ≠ x)).length)) ∧
    (∀ (τ : Type) (info : ServerInfo) (k : Hooks (SessionStore × τ)) (w : Crew τ)
        (moves : List Crew.Move) (h₁ h₂ : List Fact) (p : SocketAddress) (cause : Cause),
      let m := Crew.recorder (.keeping info k)
      k.Apart → w.env.state.1 = .ofConfig c →
      m.record w moves = h₁ ++ .dropped p cause :: h₂ →
      ∃ before move since, moves = before ++ move :: since ∧ move.Drops p cause ∧
        m.record w before <+: h₁ ∧ ∀ now, cause = .expired now →
          ∃ seen, (h₁.filterMap (·.seen? p)).getLast? = some seen ∧
            c.sessionTtl.nanos < now - seen) ∧
    -- between two datagrams that are each handled whole
    (∀ (τ : Type) (info : ServerInfo) (k : Hooks (SessionStore × τ)) (e : Env (SessionStore × τ))
        (events₁ events₂ : List Event) (b₁ b₂ : Bytes) (p : SocketAddress) (x : Salt),
      let s := Server.keeping info k
      let m := s.recorder
      k.Apart → e.state.1 = .ofConfig c → s.HandsOn b₁ p x (m.after e events₁) →
      s.HandsOn b₂ p x (m.after e (events₁ ++ .datagram b₁ p :: events₂)) →
      let between := m.record (m.after e (events₁ ++ [.datagram b₁ p])) events₂
      (∃ cause, .dropped p cause ∈ between) ∨
        c.replayWindow.toNat ≤ ((between.filterMap (·.accepted? p)).filter (· ≠ x)).length) ∧
    -- while the session lives that was registered last
    (∀ (e : Env SessionStore) (calls : List SessionStore.Call) (h₁ h₂ : List Fact)
        (m n : NewSession) (t : Nat), e.state = .ofConfig c →
      let e' := SessionStore.recorder.after e calls
      SessionStore.recorder.record e calls = h₁ ++ .registered m t :: h₂ →
      (∀ f ∈ h₂, ¬ f.ends m.peer) →
      (∀ d, e'.state.sessions.get? m.peer = some d → d.expired e'.state.ttl e'.now = false) →
      n.peer = m.peer → n.peerSalt = m.peerSalt →
      ((SessionStore.registerStep n).exec e').1 = .ok false) := by
  refine ⟨?_, ?_, ?_, ?_, ?_, ?_⟩
  · intro e calls h₁ h₂ h₃ f₁ f₂ p x he hrec h₁x h₂x
    have ht := SessionStore.tracks_record he calls
    have hfresh := ht.fresh
    rw [ht.replayWindow_eq, hrec] at hfresh
    exact hfresh.between h₁x h₂x
  · intro e calls h₁ h₂ p cause he hrec
    obtain ⟨before, call, since, u, v, hcalls, hfacts, -, -⟩ :=
      SessionStore.recorder.exists_input_of_record hrec
    have hmem : .dropped p cause ∈ call.facts (SessionStore.recorder.after e before) := by
      rw [show call.facts _ = _ from hfacts]
      exact List.mem_append_right u List.mem_cons_self
    obtain ⟨hdrops, hp, hnow⟩ := SessionStore.drops_of_facts hmem
    refine ⟨before, call, since, hcalls, hdrops, hp, ?_⟩
    rintro now rfl
    have ht := SessionStore.tracks_record he calls
    rw [hrec] at ht
    exact ⟨hnow now rfl, ht.idle_of_dropped⟩
  · intro τ info k w moves₁ moves₂ i j o₁ o₂ m moves x hk hw haccepted hi hj hp hx
    obtain ⟨h₁, t₁, h₂, t₂, h₃, hrec, hprefix⟩ :=
      Crew.exists_rolled_of_delivered haccepted hi hj (decide_eq_true ⟨rfl, rfl⟩)
        (decide_eq_true ⟨hp, hx⟩)
    refine ⟨h₁, t₁, h₂, t₂, h₃, hrec, hprefix, ?_⟩
    have ht := Crew.tracks_record info hk hw moves
    have hfresh := ht.fresh
    rw [ht.replayWindow_eq, hrec] at hfresh
    exact hfresh.between (if_pos rfl) (if_pos rfl)
  · intro τ info k w moves h₁ h₂ p cause m hk hw hrec
    obtain ⟨before, move, since, u, v, hmoves, hfacts, rfl, -⟩ := m.exists_input_of_record hrec
    have hmem : .dropped p cause ∈ Crew.facts (.keeping info k) move (m.after w before) := by
      rw [show Crew.facts _ move _ = _ from hfacts]
      exact List.mem_append_right u List.mem_cons_self
    refine ⟨before, move, since, hmoves, Crew.drops_of_facts hmem, List.prefix_append _ u, ?_⟩
    rintro now rfl
    have ht := Crew.tracks_record info hk hw moves
    rw [hrec] at ht
    exact ht.idle_of_dropped
  · intro τ info k e events₁ events₂ b₁ b₂ p x s m hk he h₁ h₂ between
    exact Server.between_handsOn info hk he events₁ events₂ h₁ h₂
  · intro e calls h₁ h₂ m n t he e' hrec hm hlive hp hx
    have ht := SessionStore.tracks_record he calls
    rw [hrec] at ht
    obtain ⟨metrics, hreg⟩ := SessionStore.exec_registerStep n e'
    rw [hreg, ht.refuses hm hlive hp hx]
    rfl

namespace Sample

def sent (x : Salt) : Bytes := (Data.mk x []).wire key (salt 2) pad

def ready (x : Salt) (e : Env (SessionStore × Unit)) : Bool :=
  match e.store.state.sessions.get? peer with
  | some d => decide (d.key = key) && decide (e.store.state.bySalt.get? (salt 2) = some peer) &&
      !d.expired e.store.state.ttl e.store.now && (d.window.accept x).1
  | none => false

def received (x : Salt) (e : Env (SessionStore × Unit)) : Env (SessionStore × Unit) :=
  let t := (SessionStore.updateStep peer x (SessionStore.lookupStep peer (salt 2) e.store).2).2
  { e.withStore t with metrics := t.metrics.delivered }

theorem handsOn_sent {x : Salt} {e : Env (SessionStore × Unit)} (h : ready x e = true) :
    (Server.keeping info hooks).HandsOn (sent x) peer x e ∧
      (Server.keeping info hooks).recorder.next (.datagram (sent x) peer) e = received x e := by
  unfold ready at h
  cases hd : e.store.state.sessions.get? peer with
  | none =>
    rw [hd] at h
    cases h
  | some d =>
    rw [hd] at h
    simp only [Bool.and_eq_true, decide_eq_true_eq, Bool.not_eq_true'] at h
    obtain ⟨⟨⟨hkey, hsalt⟩, hlive⟩, hx⟩ := h
    obtain ⟨hopen, hroll⟩ := Server.stages_of_live info hooks hd hsalt hlive hx
      (show ([] : Bytes).length ≤ _ from Nat.zero_le _) (show pad.length = _ from rfl)
    have hprocess : ((Server.keeping info hooks).process (sent x) peer).exec e =
        (.ok none, received x e) := by
      rw [sent, ← hkey, Server.process_wire, Server.acceptData, Fallible.exec_bind, hopen]
      dsimp only
      rw [Fallible.exec_bind, hroll]
      rfl
    rw [hkey] at hopen
    refine ⟨⟨?_, ?_⟩, ?_⟩
    · rw [hprocess]
    · rw [sent, hopen]
      rfl
    · rw [Server.next_datagram, hprocess]

end Sample

section
open Sample SessionStore

/-- With a window of one salt, a salt comes back after one other, and the salt of the registration
does not come back in a registration. -/
theorem replays_refused_by_window_of_one :
    let n := session (salt 1) (salt 2)
    let e : Env SessionStore := { state := .ofConfig config }
    let calls : List Call := [.register n, .update peer (salt 3), .update peer (salt 1)]
    let patience : Duration := .ofSeconds 601
    let idle : List Call := [.register n, .advance patience, .purge]
    let o : Server.Opened := ⟨peer, key, ⟨salt 2, ⟨salt 1, []⟩⟩⟩
    let w : Crew Unit := { env := { state := (.ofConfig config, ()) }, opened := [o, o] }
    let moves₁ : List Crew.Move := [.call (.register (session (salt 4) (salt 2))), .rolling 0]
    let moves₂ : List Crew.Move := [.call (.update peer (salt 3)), .rolling 0]
    let s := Server.keeping info hooks
    let e₀ := server ((salt 2).bytes ++ (Sample.pad ++ []))
    let events₁ : List Event := [.datagram (request (salt 1) key) peer]
    let events₂ : List Event := [.datagram (sent (salt 4)) peer]
    ((∃ cause, Fact.dropped peer cause ∈ [Fact.rolled peer (salt 3) 0]) ∨
      config.replayWindow.toNat ≤ (([Fact.rolled peer (salt 3) 0].filterMap
        (·.accepted? peer)).filter (· ≠ salt 1)).length) ∧
    (∃ before call since, idle = before ++ call :: since ∧
      call.Drops peer (.expired patience.nanos)) ∧
    (∃ h₁ t₁ h₂ t₂ h₃, (Crew.recorder s).record w (moves₁ ++ .delivering 0 :: moves₂) =
      h₁ ++ .rolled peer (salt 1) t₁ :: (h₂ ++ .rolled peer (salt 1) t₂ :: h₃)) ∧
    (∃ before move since, idle.map Crew.Move.call = before ++ move :: since ∧
      move.Drops peer (.expired patience.nanos)) ∧
    (s.HandsOn (sent (salt 3)) peer (salt 3) (s.recorder.after e₀ events₁) ∧
      s.HandsOn (sent (salt 3)) peer (salt 3)
        (s.recorder.after e₀ (events₁ ++ .datagram (sent (salt 3)) peer :: events₂)) ∧
      let between := s.recorder.record
        (s.recorder.after e₀ (events₁ ++ [.datagram (sent (salt 3)) peer])) events₂
      ((∃ cause, .dropped peer cause ∈ between) ∨ config.replayWindow.toNat ≤
        ((between.filterMap (·.accepted? peer)).filter (· ≠ salt 3)).length)) ∧
    ((registerStep n).exec (recorder.after e calls)).1 = .ok false := by
  intro n e calls patience idle o w moves₁ moves₂ s e₀ events₁ events₂
  have hrec : recorder.record e calls =
      [.registered n 0, .rolled peer (salt 3) 0, .rolled peer (salt 1) 0] := by decide +kernel
  have hexpired : recorder.record e idle =
      [.registered n 0, .dropped peer (.expired patience.nanos)] := by decide +kernel
  have hwaits : (Crew.recorder s).record w (idle.map .call) =
      [.registered n 0, .dropped peer (.expired patience.nanos)] := by decide +kernel
  have hready₁ : ready (salt 3) established = true := by decide +kernel
  have hready₂ : ready (salt 4) (received (salt 3) established) = true := by decide +kernel
  have hready₃ : ready (salt 3) (received (salt 4) (received (salt 3) established)) = true := by
    decide +kernel
  obtain ⟨haccepted, hdropped, hdelivered, hlost, hhanded, hregistered⟩ :=
    replays_refused config
  refine ⟨?_, ?_, ?_, ?_, ?_, ?_⟩
  · exact haccepted e calls [] _ [] (.registered n 0) (.rolled peer (salt 1) 0) peer (salt 1) rfl
      hrec rfl rfl
  · obtain ⟨before, call, since, hcalls, hdrops, -⟩ :=
      hdropped e idle [.registered n 0] [] peer _ rfl hexpired
    exact ⟨before, call, since, hcalls, hdrops⟩
  · obtain ⟨h₁, t₁, h₂, t₂, h₃, hmoves, -⟩ := hdelivered Unit info hooks w moves₁ moves₂ 0 0 o o
      apart_hooks rfl rfl (by decide +kernel) (by decide +kernel) rfl rfl
    exact ⟨h₁, t₁, h₂, t₂, h₃, hmoves⟩
  · obtain ⟨before, move, since, hmoves, hdrops, -⟩ := hlost Unit info hooks w (idle.map .call)
      [.registered n 0] [] peer _ apart_hooks rfl hwaits
    exact ⟨before, move, since, hmoves, hdrops⟩
  · have hfirst : s.HandsOn (sent (salt 3)) peer (salt 3) (s.recorder.after e₀ events₁) := by
      rw [after_request]
      exact (handsOn_sent hready₁).1
    have hsecond : s.HandsOn (sent (salt 3)) peer (salt 3)
        (s.recorder.after e₀ (events₁ ++ .datagram (sent (salt 3)) peer :: events₂)) := by
      rw [List.singleton_append, after_request, Recorder.after_cons, (handsOn_sent hready₁).2,
        Recorder.after_cons, (handsOn_sent hready₂).2]
      exact (handsOn_sent hready₃).1
    exact ⟨hfirst, hsecond, hhanded Unit info hooks e₀ events₁ events₂ _ _ peer (salt 3) apart_hooks
      rfl hfirst hsecond⟩
  · refine hregistered e calls [] _ n n 0 rfl hrec (by simp [Fact.ends]) ?_ rfl rfl
    intro d hd
    have hlive : ((recorder.after e calls).state.sessions.get? peer).all fun d =>
        !d.expired (recorder.after e calls).state.ttl (recorder.after e calls).now := by
      decide +kernel
    rw [show peer = n.peer from rfl, hd] at hlive
    simpa using hlive

end

end SealedDatagram

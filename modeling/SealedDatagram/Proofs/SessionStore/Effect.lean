import SealedDatagram.Proofs.SaltWindow
import SealedDatagram.SessionStore
/-!
What the operations of a session table do to its two tables: which session every peer has
afterwards, and whom every salt names. A coherent table has no salt that names a peer without a
session, or a session that no longer knows the salt.
-/

namespace SealedDatagram

def Session.learn (e : Session) (x : Salt) : Session :=
  { e with issued := if issuedHistory < (e.issued ++ [x]).length then (e.issued ++ [x]).drop 1
      else e.issued ++ [x] }

def Session.outdated (e : Session) (x : Salt) : Option Salt :=
  if issuedHistory < (e.issued ++ [x]).length then (e.issued ++ [x]).head? else none

/-- The session that a registration opens. -/
def NewSession.opened (n : NewSession) (window : SaltWindow) (now : Nat) : Session where
  key := n.key
  publicKey := n.publicKey
  authSalt := n.peerSalt
  peerSalt := n.peerSalt
  issued := [n.ownSalt]
  window := window
  lastSeen := now

theorem Session.issued_learn {e : Session} {all : List Salt}
    (h : e.issued = all.rtake issuedHistory) (x : Salt) :
    (e.learn x).issued = (all ++ [x]).rtake issuedHistory := by
  rw [rtake_eq_drop_rtake_succ, List.rtake_concat_succ, ← h]
  rfl

namespace SessionStore

variable {s : SessionStore} {p q : SocketAddress} {x y : Salt} {now : Nat}

def limits (s : SessionStore) : Nat × Nat × Nat := (s.replayWindow, s.maxSessions, s.ttl)

/-- Every salt in the index names a session that knows it. -/
def Coherent (s : SessionStore) : Prop :=
  ∀ x p, s.bySalt.get? x = some p → ∃ e, s.sessions.get? p = some e ∧ x ∈ e.issued

theorem coherent_empty (h : s.bySalt = ∅) : s.Coherent := by
  intro x p hx
  rw [h, Table.get?_empty] at hx
  cases hx

/-- Every salt that a session knows names its peer. -/
def Indexed (s : SessionStore) : Prop :=
  ∀ p e x, s.sessions.get? p = some e → x ∈ e.issued → s.bySalt.get? x = some p

@[simp] theorem sessions_dropSalt (s : SessionStore) (p : SocketAddress) (x : Salt) :
    (s.dropSalt p x).sessions = s.sessions := by
  unfold dropSalt
  split <;> rfl

@[simp] theorem limits_dropSalt (s : SessionStore) (p : SocketAddress) (x : Salt) :
    (s.dropSalt p x).limits = s.limits := by
  unfold dropSalt
  split <;> rfl

theorem bySalt_dropSalt (s : SessionStore) (p : SocketAddress) (x y : Salt) :
    (s.dropSalt p x).bySalt.get? y =
      if y = x ∧ s.bySalt.get? x = some p then none else s.bySalt.get? y := by
  unfold dropSalt
  by_cases h : s.bySalt.get? x = some p
  · simp [h]
  · simp [h]

theorem dropSalts (l : List Salt) (s : SessionStore) (p : SocketAddress) :
    let t := l.foldl (fun s x => s.dropSalt p x) s
    t.sessions = s.sessions ∧ t.limits = s.limits ∧
      ∀ y, t.bySalt.get? y =
        if y ∈ l ∧ s.bySalt.get? y = some p then none else s.bySalt.get? y := by
  induction l generalizing s with
  | nil => exact ⟨rfl, rfl, fun y => by simp⟩
  | cons x l ih =>
    obtain ⟨hs, hl, hb⟩ := ih (s.dropSalt p x)
    refine ⟨by rw [List.foldl_cons, hs, sessions_dropSalt],
      by rw [List.foldl_cons, hl, limits_dropSalt], ?_⟩
    intro y
    rw [List.foldl_cons, hb, bySalt_dropSalt]
    by_cases hy : y = x
    · subst hy
      by_cases hp : s.bySalt.get? y = some p <;> simp [hp]
    · simp [hy]

@[simp] theorem limits_forget (s : SessionStore) (p : SocketAddress) :
    (s.forget p).limits = s.limits := by
  unfold forget
  split
  · rfl
  · rename_i e _
    exact (dropSalts e.issued _ p).2.1

theorem forget_of_not_contains (hp : s.contains p = false) : s.forget p = s := by
  have hnone : s.sessions.get? p = none :=
    Option.isNone_iff_eq_none.1 (Option.isSome_eq_false_iff.1 hp)
  simp only [forget, hnone]

theorem sessions_forget (s : SessionStore) (p q : SocketAddress) :
    (s.forget p).sessions.get? q = if q = p then none else s.sessions.get? q := by
  unfold forget
  split
  · rename_i hp
    split
    · rename_i hq
      rw [hq, hp]
    · rfl
  · rename_i e _
    rw [(dropSalts e.issued _ p).1, Table.get?_erase]

/-- In a coherent table no salt names a forgotten peer, and the others name whom they named. -/
theorem bySalt_forget (h : s.Coherent) (p : SocketAddress) (y : Salt) :
    (s.forget p).bySalt.get? y = some q ↔ s.bySalt.get? y = some q ∧ q ≠ p := by
  unfold forget
  split
  · rename_i hp
    refine ⟨fun hy => ⟨hy, ?_⟩, fun hy => hy.1⟩
    rintro rfl
    obtain ⟨e, he, -⟩ := h y q hy
    rw [hp] at he
    cases he
  · rename_i e he
    rw [(dropSalts e.issued _ p).2.2]
    show (if y ∈ e.issued ∧ s.bySalt.get? y = some p then none else s.bySalt.get? y) = some q ↔ _
    constructor
    · intro hy
      split at hy
      · cases hy
      · rename_i hn
        refine ⟨hy, ?_⟩
        rintro rfl
        obtain ⟨e', he', hm⟩ := h y q hy
        rw [he] at he'
        cases he'
        exact hn ⟨hm, hy⟩
    · rintro ⟨hy, hq⟩
      rw [if_neg, hy]
      rintro ⟨-, hp⟩
      rw [hy] at hp
      exact hq (Option.some.inj hp)

theorem Coherent.forget (h : s.Coherent) (p : SocketAddress) : (s.forget p).Coherent := by
  intro x q hx
  obtain ⟨hx, hq⟩ := (bySalt_forget h p x).1 hx
  rw [sessions_forget, if_neg hq]
  exact h x q hx

theorem Indexed.forget (hi : s.Indexed) (h : s.Coherent) (p : SocketAddress) :
    (s.forget p).Indexed := by
  intro q e x he hx
  rw [sessions_forget] at he
  split at he
  · cases he
  · rename_i hq
    exact (bySalt_forget h p x).2 ⟨hi q e x he hx, hq⟩

theorem forgetAll (l : List SocketAddress) (h : s.Coherent) :
    let t := l.foldl forget s
    t.Coherent ∧ t.limits = s.limits ∧
      (∀ q, t.sessions.get? q = if q ∈ l then none else s.sessions.get? q) ∧
      ∀ y q, t.bySalt.get? y = some q ↔ s.bySalt.get? y = some q ∧ q ∉ l := by
  induction l generalizing s with
  | nil => exact ⟨h, rfl, fun q => by simp, fun y q => by simp⟩
  | cons p l ih =>
    obtain ⟨hc, hl, hs, hb⟩ := ih (h.forget p)
    refine ⟨hc, by rw [List.foldl_cons, hl, limits_forget], ?_, ?_⟩
    · intro q
      rw [List.foldl_cons, hs, sessions_forget]
      by_cases hq : q = p <;> simp [hq]
    · intro y q
      rw [List.foldl_cons, hb, bySalt_forget h]
      simp only [List.mem_cons, not_or, and_assoc]

theorem mem_expiredPeers :
    p ∈ s.expiredPeers now ↔ ∃ e, s.sessions.get? p = some e ∧ e.expired s.ttl now = true := by
  simp only [expiredPeers, List.mem_map, List.mem_filter, Prod.exists, Table.get?_eq_some_iff]
  constructor
  · rintro ⟨q, e, ⟨hm, he⟩, rfl⟩
    exact ⟨e, hm, he⟩
  · rintro ⟨e, hm, he⟩
    exact ⟨p, e, ⟨hm, he⟩, rfl⟩

theorem sweep_limits (h : s.Coherent) : (s.sweep now).limits = s.limits := (forgetAll _ h).2.1

theorem Coherent.sweep (h : s.Coherent) : (s.sweep now).Coherent := (forgetAll _ h).1

theorem sessions_sweep (h : s.Coherent) (q : SocketAddress) :
    (s.sweep now).sessions.get? q =
      if q ∈ s.expiredPeers now then none else s.sessions.get? q := (forgetAll _ h).2.2.1 q

theorem bySalt_sweep (h : s.Coherent) :
    (s.sweep now).bySalt.get? y = some q ↔
      s.bySalt.get? y = some q ∧ q ∉ s.expiredPeers now := (forgetAll _ h).2.2.2 y q

theorem Indexed.sweep (hi : s.Indexed) (h : s.Coherent) : (s.sweep now).Indexed := by
  intro q e x he hx
  rw [sessions_sweep h] at he
  split at he
  · cases he
  · rename_i hq
    exact (bySalt_sweep h).2 ⟨hi q e x he hx, hq⟩

@[simp] theorem limits_issue (s : SessionStore) (p : SocketAddress) (x : Salt) :
    (s.issue p x).limits = s.limits := by
  unfold issue
  split
  · rfl
  · dsimp only
    split
    · split
      · exact limits_dropSalt _ _ _
      · rfl
    · rfl

theorem sessions_issue (s : SessionStore) (p q : SocketAddress) (x : Salt) :
    (s.issue p x).sessions.get? q =
      if q = p then (s.sessions.get? p).map (·.learn x) else s.sessions.get? q := by
  unfold issue
  split
  · rename_i hp
    split
    · rename_i hq
      rw [hq, hp]
      rfl
    · rfl
  · rename_i e he
    have hsessions : ∀ t : SessionStore, t.sessions = s.sessions.insert p (e.learn x) →
        t.sessions.get? q =
          if q = p then (s.sessions.get? p).map (·.learn x) else s.sessions.get? q := by
      intro t ht
      rw [ht, Table.get?_insert, he]
      rfl
    apply hsessions
    dsimp only
    cases hall : e.issued ++ [x] with
    | nil => simp at hall
    | cons oldest rest =>
      simp only [Session.learn, hall, decide_eq_true_eq]
      split
      · exact sessions_dropSalt _ _ _
      · rfl

theorem bySalt_issue {e : Session} (he : s.sessions.get? p = some e) (x y : Salt) :
    (s.issue p x).bySalt.get? y =
      if e.outdated x = some y ∧ (y = x ∨ s.bySalt.get? y = some p) then none
      else if y = x then some p else s.bySalt.get? y := by
  unfold issue
  rw [he]
  dsimp only
  cases hall : e.issued ++ [x] with
  | nil => simp at hall
  | cons oldest rest =>
    simp only [Session.outdated, hall, decide_eq_true_eq, List.head?_cons]
    split
    · rw [bySalt_dropSalt]
      simp only [Table.get?_insert, Option.some.injEq]
      by_cases hy : y = oldest
      · subst hy
        by_cases hx : y = x <;> simp [hx]
      · simp [hy, Ne.symm hy]
    · simp

theorem Session.mem_learn {e : Session} (x : Salt) (hy : y ∈ e.issued)
    (h : e.outdated x ≠ some y) : y ∈ (e.learn x).issued := by
  simp only [Session.outdated, Session.learn] at h ⊢
  split
  · rename_i hfull
    rw [if_pos hfull] at h
    cases hi : e.issued with
    | nil => rw [hi] at hy; cases hy
    | cons oldest rest =>
      rw [hi] at h hy
      have hy' : y ≠ oldest := fun hy' => h (by rw [hy']; rfl)
      simpa [hy'] using List.mem_append_left [x] hy
  · exact List.mem_append_left _ hy

theorem Session.newest_mem_learn (e : Session) (x : Salt) : x ∈ (e.learn x).issued := by
  simp only [Session.learn]
  split
  · cases hi : e.issued with
    | nil => simp [hi, issuedHistory] at *
    | cons oldest rest => simp
  · simp

theorem Coherent.issue (h : s.Coherent) (p : SocketAddress) (x : Salt) :
    (s.issue p x).Coherent := by
  cases he : s.sessions.get? p with
  | none =>
    have : s.issue p x = s := by simp only [SessionStore.issue, he]
    rwa [this]
  | some e =>
    intro y q hy
    rw [bySalt_issue he] at hy
    rw [sessions_issue, he]
    split at hy
    · cases hy
    · rename_i hout
      split at hy
      · rename_i hx
        obtain rfl := Option.some.inj hy
        exact ⟨_, if_pos rfl, hx ▸ Session.newest_mem_learn e x⟩
      · obtain ⟨e', he', hm⟩ := h y q hy
        by_cases hq : q = p
        · subst hq
          obtain rfl := Option.some.inj (he.symm.trans he')
          exact ⟨_, if_pos rfl, Session.mem_learn x hm fun ho => hout ⟨ho, .inr hy⟩⟩
        · exact ⟨e', by rw [if_neg hq, he'], hm⟩

theorem Session.outdated_ne {e : Session} (h : (e.issued ++ [x]).Nodup)
    (hy : y ∈ (e.learn x).issued) : e.outdated x ≠ some y := by
  intro ho
  simp only [Session.outdated, Session.learn] at ho hy
  split at ho
  · rename_i hfull
    rw [if_pos hfull] at hy
    cases hall : e.issued ++ [x] with
    | nil => rw [hall] at ho; cases ho
    | cons oldest rest =>
      rw [hall] at ho hy h
      obtain rfl := Option.some.inj ho
      exact (List.nodup_cons.1 h).1 hy
  · cases ho

theorem Indexed.issue {e : Session} (hi : s.Indexed) (he : s.sessions.get? p = some e)
    (hnodup : (e.issued ++ [x]).Nodup) (hnew : ∀ q d, s.sessions.get? q = some d → x ∉ d.issued) :
    (s.issue p x).Indexed := by
  intro q d y hd hy
  rw [sessions_issue, he] at hd
  rw [bySalt_issue he]
  split at hd
  · rename_i hq
    obtain rfl := Option.some.inj hd
    rw [if_neg fun ho => Session.outdated_ne hnodup hy ho.1]
    split
    · rw [hq]
    · rename_i hyx
      have hold : y ∈ e.issued := by
        have hmem : y ∈ e.issued ++ [x] := by
          simp only [Session.learn] at hy
          split at hy
          · exact List.mem_of_mem_drop hy
          · exact hy
        simpa [hyx] using hmem
      rw [hq, hi p e y he hold]
  · rename_i hq
    have hyx : y ≠ x := fun h => hnew q d hd (h ▸ hy)
    have hqy := hi q d y hd hy
    rw [if_neg, if_neg hyx, hqy]
    rintro ⟨-, hx | hp⟩
    · exact hyx hx
    · rw [hqy] at hp
      exact hq (Option.some.inj hp)

theorem Coherent.put {e e' : Session} (h : s.Coherent) (he : s.sessions.get? p = some e)
    (hi : e'.issued = e.issued) :
    Coherent { s with sessions := s.sessions.insert p e' } := by
  intro x q hx
  obtain ⟨d, hd, hm⟩ := h x q hx
  simp only [Table.get?_insert]
  split
  · rename_i hq
    subst hq
    obtain rfl := Option.some.inj (he.symm.trans hd)
    exact ⟨e', rfl, hi ▸ hm⟩
  · exact ⟨d, hd, hm⟩

theorem Indexed.put {e e' : Session} (h : s.Indexed) (he : s.sessions.get? p = some e)
    (hi : e'.issued = e.issued) : Indexed { s with sessions := s.sessions.insert p e' } := by
  intro q d x hd hx
  rw [Table.get?_insert] at hd
  split at hd
  · rename_i hq
    obtain rfl := Option.some.inj hd
    rw [hq]
    exact h p e x he (hi ▸ hx)
  · exact h q d x hd hx

section Establish
variable (now : Nat) (n : NewSession) (window : SaltWindow)

private def seated (s : SessionStore) : SessionStore :=
  { s.forget n.peer with
    sessions := (s.forget n.peer).sessions.insert n.peer { n.opened window now with issued := [] } }

private theorem establish_eq_issue (s : SessionStore) :
    s.establish now n window = (seated now n window s).issue n.peer n.ownSalt := rfl

theorem limits_establish (s : SessionStore) : (s.establish now n window).limits = s.limits := by
  rw [establish_eq_issue, limits_issue]
  exact limits_forget s n.peer

theorem sessions_establish (s : SessionStore) (q : SocketAddress) :
    (s.establish now n window).sessions.get? q =
      if q = n.peer then some (n.opened window now) else s.sessions.get? q := by
  rw [establish_eq_issue, sessions_issue]
  simp only [seated, Table.get?_insert, sessions_forget]
  split <;> rfl

private theorem session_seated (s : SessionStore) :
    (seated now n window s).sessions.get? n.peer =
      some { n.opened window now with issued := [] } := by
  simp [seated]

theorem bySalt_establish_ownSalt (s : SessionStore) :
    (s.establish now n window).bySalt.get? n.ownSalt = some n.peer := by
  rw [establish_eq_issue, bySalt_issue (session_seated now n window s),
    if_neg (fun ho => nomatch ho.1), if_pos rfl]

theorem bySalt_establish (h : s.Coherent) :
    (s.establish now n window).bySalt.get? y = some q ↔
      y = n.ownSalt ∧ q = n.peer ∨
        y ≠ n.ownSalt ∧ s.bySalt.get? y = some q ∧ q ≠ n.peer := by
  rw [establish_eq_issue, bySalt_issue (session_seated now n window s),
    if_neg (fun ho => nomatch ho.1)]
  by_cases hy : y = n.ownSalt
  · simp [hy, eq_comm]
  · simp only [hy, if_false, false_and, false_or, ne_eq, not_false_eq_true, true_and]
    exact bySalt_forget h n.peer y

theorem Coherent.establish (h : s.Coherent) : (s.establish now n window).Coherent := by
  intro y q hy
  rw [sessions_establish]
  rcases (bySalt_establish now n window h).1 hy with ⟨rfl, rfl⟩ | ⟨-, hy, hq⟩
  · exact ⟨_, if_pos rfl, List.mem_singleton_self _⟩
  · obtain ⟨e, he, hm⟩ := h y q hy
    exact ⟨e, by rw [if_neg hq, he], hm⟩

theorem Indexed.establish (hi : s.Indexed) (h : s.Coherent)
    (hnew : ∀ q d, s.sessions.get? q = some d → n.ownSalt ∉ d.issued) :
    (s.establish now n window).Indexed := by
  intro q d x hd hx
  rw [sessions_establish] at hd
  rw [bySalt_establish now n window h]
  split at hd
  · rename_i hq
    obtain rfl := Option.some.inj hd
    exact .inl ⟨List.mem_singleton.1 hx, hq⟩
  · rename_i hq
    exact .inr ⟨fun hxn => hnew q d hd (hxn ▸ hx), hi q d x hd hx, hq⟩

end Establish

/-- A registration is a replay, or takes the place of a live session with the window of that
session, or finds no room, or opens a session with a window of its own, or finds no memory for the
window. -/
theorem register_cases (s : SessionStore) (m : Memory) (now : Nat) (n : NewSession) :
    let t := s.sweep now
    let window := SaltWindow.ofCapacity t.replayWindow
    (∃ e, t.sessions.get? n.peer = some e ∧
      (e.authSalt = n.peerSalt ∨ (e.window.accept n.peerSalt).1 = false) ∧
      s.register m now n = (.replayed, t)) ∨
    (∃ e, t.sessions.get? n.peer = some e ∧ e.authSalt ≠ n.peerSalt ∧
      (e.window.accept n.peerSalt).1 = true ∧
      s.register m now n = (.accepted, t.establish now n (e.window.accept n.peerSalt).2)) ∨
    (t.sessions.get? n.peer = none ∧ t.maxSessions ≤ t.size ∧
      s.register m now n = (.full, t)) ∨
    (t.sessions.get? n.peer = none ∧ t.size < t.maxSessions ∧ window.fits m = true ∧
      s.register m now n = (.accepted, t.establish now n (window.accept n.peerSalt).2)) ∨
    (t.sessions.get? n.peer = none ∧ t.size < t.maxSessions ∧ window.fits m = false ∧
      s.register m now n = (.outOfMemory, t)) := by
  intro t window
  unfold register
  cases he : (s.sweep now).sessions.get? n.peer with
  | none =>
    right; right
    by_cases hfull : (s.sweep now).maxSessions ≤ (s.sweep now).size
    · exact .inl ⟨rfl, hfull, by simp only [he, if_pos hfull, t]⟩
    · have hroom := Nat.lt_of_not_le hfull
      by_cases hfits : window.fits m = true
      · exact .inr (.inl ⟨rfl, hroom, hfits,
          by simp only [he, if_neg hfull, if_pos hfits, t, window]⟩)
      · exact .inr (.inr ⟨rfl, hroom, Bool.eq_false_iff.2 hfits,
          by simp only [he, if_neg hfull, if_neg hfits, t, window]⟩)
  | some e =>
    by_cases ha : e.authSalt = n.peerSalt
    · exact .inl ⟨e, rfl, .inl ha, by simp only [he, if_pos ha, t]⟩
    · cases hw : e.window.accept n.peerSalt with
      | mk fresh window =>
        cases fresh with
        | false => exact .inl ⟨e, rfl, .inr (by rw [hw]), by simp only [he, if_neg ha, hw, t]⟩
        | true =>
          exact .inr (.inl ⟨e, rfl, ha, by rw [hw], by simp only [he, if_neg ha, hw, t]⟩)

/-- Whether a peer has a session once the table is swept, or there is room for one. -/
def HasRoom (s : SessionStore) (now : Nat) (p : SocketAddress) : Prop :=
  (s.sweep now).contains p = true ∨ (s.sweep now).size < (s.sweep now).maxSessions

/-- Whether a peer has a session once the table is swept, or there is memory for the window of one.
-/
def HasWindow (s : SessionStore) (m : Memory) (now : Nat) (p : SocketAddress) : Prop :=
  (s.sweep now).contains p = true ∨
    (SaltWindow.ofCapacity (s.sweep now).replayWindow).fits m = true

/-- Whether a salt is new to the session that a peer has once the table is swept. -/
def Unseen (s : SessionStore) (now : Nat) (p : SocketAddress) (x : Salt) : Prop :=
  ∀ d, (s.sweep now).sessions.get? p = some d → d.authSalt ≠ x ∧ d.window.contains x = false

theorem register_of_room {m : Memory} {n : NewSession} (hroom : s.HasRoom now n.peer)
    (hwindow : s.HasWindow m now n.peer) (hx : s.Unseen now n.peer n.peerSalt) :
    ∃ window, s.register m now n = (.accepted, (s.sweep now).establish now n window) := by
  have hnot : (s.sweep now).sessions.get? n.peer = none → (s.sweep now).contains n.peer ≠ true :=
    fun hd hc => by rw [contains, Table.contains, hd] at hc; cases hc
  rcases register_cases s m now n with ⟨d, hd, hseen, -⟩ | ⟨d, -, -, -, ht⟩ | ⟨hd, hfull, -⟩ |
    ⟨-, -, -, ht⟩ | ⟨hd, -, hfits, -⟩
  · obtain ⟨hauth, hwindow⟩ := hx d hd
    rcases hseen with hseen | hseen
    · exact absurd hseen hauth
    · rw [SaltWindow.accept_of_not_contains hwindow] at hseen
      cases hseen
  · exact ⟨_, ht⟩
  · rcases hroom with hc | hroom
    · exact absurd hc (hnot hd)
    · exact absurd hroom (Nat.not_lt.2 hfull)
  · exact ⟨_, ht⟩
  · rcases hwindow with hc | hwindow
    · exact absurd hc (hnot hd)
    · rw [hfits] at hwindow
      cases hwindow

theorem register_of_no_memory {m : Memory} {n : NewSession} (hroom : s.HasRoom now n.peer)
    (hwindow : ¬ s.HasWindow m now n.peer) :
    s.register m now n = (.outOfMemory, s.sweep now) := by
  obtain ⟨hnone, hfits⟩ := not_or.1 hwindow
  have hnot : ∀ d, (s.sweep now).sessions.get? n.peer ≠ some d :=
    fun d hd => hnone (Option.isSome_iff_exists.2 ⟨d, hd⟩)
  rcases register_cases s m now n with ⟨d, hd, -⟩ | ⟨d, hd, -⟩ | ⟨-, hfull, -⟩ | ⟨-, -, hfits', -⟩ |
    ⟨-, -, -, ht⟩
  · exact absurd hd (hnot d)
  · exact absurd hd (hnot d)
  · exact absurd (hroom.resolve_left hnone) (Nat.not_lt.2 hfull)
  · exact absurd hfits' hfits
  · exact ht

theorem register_of_refused {m : Memory} {n : NewSession} (h : (s.register m now n).1 ≠ .accepted) :
    (s.register m now n).2 = s.sweep now := by
  rcases register_cases s m now n with ⟨_, _, _, ht⟩ | ⟨_, _, _, _, ht⟩ | ⟨_, _, ht⟩ |
    ⟨_, _, _, ht⟩ | ⟨_, _, _, ht⟩
  · rw [ht]
  · exact absurd (by rw [ht]) h
  · rw [ht]
  · exact absurd (by rw [ht]) h
  · rw [ht]

theorem lookup_of_live {e : Session} (hx : s.bySalt.get? x = some p)
    (he : s.sessions.get? p = some e) (hl : e.expired s.ttl now = false) :
    s.lookup now p x =
      (some e.key, { s with sessions := s.sessions.insert p { e with lastSeen := now } }) := by
  unfold lookup
  simp only [if_pos hx, he, hl, Bool.false_eq_true, if_false]

theorem lookup_establish (s : SessionStore) (now : Nat) (n : NewSession) (window : SaltWindow) :
    ((s.establish now n window).lookup now n.peer n.ownSalt).1 = some n.key := by
  have hsession : (s.establish now n window).sessions.get? n.peer = some (n.opened window now) := by
    rw [sessions_establish, if_pos rfl]
  have hlive : (n.opened window now).expired (s.establish now n window).ttl now = false := by
    simp [Session.expired, NewSession.opened]
  rw [lookup_of_live (bySalt_establish_ownSalt now n window s) hsession hlive]
  rfl

theorem lookup_of_expired {e : Session} (hx : s.bySalt.get? x = some p)
    (he : s.sessions.get? p = some e) (hl : e.expired s.ttl now = true) :
    s.lookup now p x = (none, s.forget p) := by
  unfold lookup
  simp only [if_pos hx, he, hl, if_true]

theorem lookup_cases (s : SessionStore) (now : Nat) (p : SocketAddress) (x : Salt) :
    (∃ e, s.bySalt.get? x = some p ∧ s.sessions.get? p = some e ∧
      e.expired s.ttl now = false ∧ s.lookup now p x =
        (some e.key, { s with sessions := s.sessions.insert p { e with lastSeen := now } })) ∨
    (∃ e, s.bySalt.get? x = some p ∧ s.sessions.get? p = some e ∧
      e.expired s.ttl now = true ∧ s.lookup now p x = (none, s.forget p)) ∨
    ((s.bySalt.get? x = some p → s.sessions.get? p = none) ∧ s.lookup now p x = (none, s)) := by
  by_cases hx : s.bySalt.get? x = some p
  · cases he : s.sessions.get? p with
    | none => exact .inr (.inr ⟨fun _ => rfl, by unfold lookup; simp only [if_pos hx, he]⟩)
    | some e =>
      cases hl : e.expired s.ttl now with
      | false => exact .inl ⟨e, hx, rfl, hl, lookup_of_live hx he hl⟩
      | true => exact .inr (.inl ⟨e, hx, rfl, hl, lookup_of_expired hx he hl⟩)
  · exact .inr (.inr ⟨fun h => absurd h hx, if_neg hx⟩)

theorem lookup_eq_some_iff {k : SessionKey} : (s.lookup now p x).1 = some k ↔
    ∃ d, s.bySalt.get? x = some p ∧ s.sessions.get? p = some d ∧ d.expired s.ttl now = false ∧
      d.key = k := by
  constructor
  · intro hk
    rcases lookup_cases s now p x with ⟨d, hx, hd, hl, ht⟩ | ⟨d, -, -, -, ht⟩ | ⟨-, ht⟩
    · rw [ht] at hk
      exact ⟨d, hx, hd, hl, Option.some.inj hk⟩
    · rw [ht] at hk
      cases hk
    · rw [ht] at hk
      cases hk
  · rintro ⟨d, hx, hd, hl, rfl⟩
    rw [lookup_of_live hx hd hl]

theorem update_of_fresh {e : Session} (he : s.sessions.get? p = some e)
    (hx : (e.window.accept x).1 = true) :
    s.update now p x = (.accepted, { s with
      sessions := s.sessions.insert p
        { e with window := (e.window.accept x).2, peerSalt := x, lastSeen := now } }) := by
  obtain ⟨window, hw⟩ : ∃ window, e.window.accept x = (true, window) := ⟨_, Prod.ext hx rfl⟩
  unfold update
  simp only [he, hw]

theorem update_cases (s : SessionStore) (now : Nat) (p : SocketAddress) (x : Salt) :
    (s.sessions.get? p = none ∧ s.update now p x = (.unknownPeer, s)) ∨
    (∃ e, s.sessions.get? p = some e ∧ (e.window.accept x).1 = false ∧
      s.update now p x = (.replayed, s)) ∨
    (∃ e, s.sessions.get? p = some e ∧ (e.window.accept x).1 = true ∧
      s.update now p x = (.accepted, { s with
        sessions := s.sessions.insert p
          { e with window := (e.window.accept x).2, peerSalt := x, lastSeen := now } })) := by
  cases he : s.sessions.get? p with
  | none => exact .inl ⟨rfl, by unfold update; rw [he]⟩
  | some e =>
    cases ha : (e.window.accept x).1 with
    | false =>
      obtain ⟨window, hw⟩ : ∃ window, e.window.accept x = (false, window) := ⟨_, Prod.ext ha rfl⟩
      exact .inr (.inl ⟨e, rfl, ha, by unfold update; simp only [he, hw]⟩)
    | true => exact .inr (.inr ⟨e, rfl, ha, update_of_fresh he ha⟩)

end SessionStore

end SealedDatagram

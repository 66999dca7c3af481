import SealedDatagram.CipherSuite.Standard
import SealedDatagram.Proofs.SessionStore.Run
/-!
What a look-up finds, read off the history of the table. As long as no salt is issued twice, a salt
finds the session of its peer for as long as it is among the last ones issued since the latest
registration and the session is not idle for too long. A look-up that finds nothing at most forgets
the session that turned out to have expired.
-/

namespace SealedDatagram

theorem last_cut_unique {α : Type*} {P : α → Prop} {l₁ l₂ m₁ m₂ : List α} {a b : α}
    (h : l₁ ++ a :: l₂ = m₁ ++ b :: m₂) (ha : P a) (hb : P b) (hl : ∀ x ∈ l₂, ¬ P x)
    (hm : ∀ x ∈ m₂, ¬ P x) : l₁ = m₁ ∧ a = b ∧ l₂ = m₂ := by
  rcases List.append_eq_append_iff.1 h with ⟨u, hu, h⟩ | ⟨u, hu, h⟩
  · cases u with
    | nil =>
      obtain ⟨rfl, rfl⟩ := List.cons.inj h
      exact ⟨by rw [hu, List.append_nil], rfl, rfl⟩
    | cons c u =>
      obtain ⟨rfl, rfl⟩ := List.cons.inj h
      exact absurd hb (hl b (List.mem_append_right u List.mem_cons_self))
  · cases u with
    | nil =>
      obtain ⟨rfl, rfl⟩ := List.cons.inj h
      exact ⟨by rw [hu, List.append_nil], rfl, rfl⟩
    | cons c u =>
      obtain ⟨rfl, rfl⟩ := List.cons.inj h
      exact absurd ha (hm a (List.mem_append_right u List.mem_cons_self))

def Fact.registers (p : SocketAddress) : Fact → Prop
  | registered n _ => n.peer = p
  | _ => False

theorem Fact.ends_of_registers {f : Fact} {p : SocketAddress} (hf : f.registers p) : f.ends p := by
  cases f with
  | registered n now => exact hf
  | found | rolled | issued | dropped => exact hf.elim

/-- A history in which the registration accepted last for a peer is that of `n` at a time, with
what came about since. -/
structure LatestRegistration (p : SocketAddress) (h : List Fact) (n : NewSession) (now : Nat)
    (since : List Fact) : Prop where
  history : ∃ before, h = before ++ .registered n now :: since
  peer : n.peer = p
  last : ∀ f ∈ since, ¬ f.registers p

namespace LatestRegistration

variable {p : SocketAddress} {h since : List Fact} {n : NewSession} {now : Nat}

/-- While a peer has a session, its account is that of its latest registration. -/
theorem account_eq (hl : LatestRegistration p h n now since) {a : Account}
    (ha : account p h = some a) :
    a.latest = n ∧ a.issued = n.ownSalt :: since.filterMap (·.issued? p) ∧
      a.lastSeen = (since.filterMap (·.seen? p)).getLastD now := by
  obtain ⟨before, rfl⟩ := hl.history
  obtain ⟨u, t, v, heq, hp, hv⟩ := exists_latest_of_account ha
  obtain ⟨rfl, hf, rfl⟩ := last_cut_unique (P := (·.registers p)) heq hl.peer hp hl.last
    fun f hf hr => hv f hf (Fact.ends_of_registers hr)
  obtain ⟨hn, rfl⟩ := Fact.registered.inj hf
  rw [account_registered hl.peer hv] at ha
  obtain rfl := Option.some.inj ha
  exact ⟨rfl, rfl, rfl⟩

theorem exists_of_account {a : Account} (ha : account p h = some a) :
    ∃ now since, LatestRegistration p h a.latest now since := by
  obtain ⟨before, now, since, heq, hp, hs⟩ := exists_latest_of_account ha
  exact ⟨now, since, ⟨before, heq⟩, hp, fun f hf hr => hs f hf (Fact.ends_of_registers hr)⟩

end LatestRegistration

namespace SessionStore

variable {s t : SessionStore} {c : SecurityConfig} {h : List Fact} {p q : SocketAddress}
  {x : Salt} {k : SessionKey} {now : Nat}

/-- A table that is another without the session of a peer and all the salts that name it. -/
structure Forgets (s : SessionStore) (p : SocketAddress) (t : SessionStore) : Prop where
  limits : t.limits = s.limits
  sessions : ∀ q, t.sessions.get? q = if q = p then none else s.sessions.get? q
  bySalt : ∀ y q, t.bySalt.get? y = some q ↔ s.bySalt.get? y = some q ∧ q ≠ p

theorem Coherent.forgets (hs : s.Coherent) (p : SocketAddress) : s.Forgets p (s.forget p) where
  limits := limits_forget s p
  sessions := sessions_forget s p
  bySalt y _ := bySalt_forget hs p y

/-- Whether a salt names a peer whose session has expired. -/
def NamesExpired (s : SessionStore) (now : Nat) (p : SocketAddress) (x : Salt) : Prop :=
  s.bySalt.get? x = some p ∧ ∃ d, s.sessions.get? p = some d ∧ d.expired s.ttl now = true

theorem lookup_eq_none_cases (hs : s.Coherent) (hk : (s.lookup now p x).1 = none) :
    s.NamesExpired now p x ∧ s.Forgets p (s.lookup now p x).2 ∨
      ¬ s.NamesExpired now p x ∧ (s.lookup now p x).2 = s := by
  rcases lookup_cases s now p x with ⟨d, hx, hd, hl, ht⟩ | ⟨d, hx, hd, hl, ht⟩ | ⟨hnone, ht⟩
  · rw [ht] at hk
    cases hk
  · rw [ht]
    exact .inl ⟨⟨hx, d, hd, hl⟩, hs.forgets p⟩
  · rw [ht]
    refine .inr ⟨?_, rfl⟩
    rintro ⟨hx, d, hd, -⟩
    rw [hnone hx] at hd
    cases hd

theorem Tracks.lookup_eq_some_iff (ht : s.Tracks c h) (hn : (issuedSalts h).Nodup) :
    (s.lookup now p x).1 = some k ↔ s.contains p = true ∧
      ∃ n t since, LatestRegistration p h n t since ∧
        now - (since.filterMap (·.seen? p)).getLastD t ≤ c.sessionTtl.nanos ∧
        x ∈ (n.ownSalt :: since.filterMap (·.issued? p)).rtake issuedHistory ∧ n.key = k := by
  rw [SessionStore.lookup_eq_some_iff]
  constructor
  · rintro ⟨d, hx, hd, hl, rfl⟩
    obtain ⟨a, ha, hf⟩ := ht.of_session hd
    obtain ⟨t, since, hlatest⟩ := LatestRegistration.exists_of_account ha
    obtain ⟨-, hissued, hseen⟩ := hlatest.account_eq ha
    refine ⟨Option.isSome_iff_exists.2 ⟨d, hd⟩, a.latest, t, since, hlatest, ?_, ?_, hf.key.symm⟩
    · rw [← hseen, ← hf.lastSeen, ← ht.ttl_eq]
      exact Nat.not_lt.1 (of_decide_eq_false hl)
    · rw [← hissued]
      exact (ht.named_iff hn ha).1 hx
  · rintro ⟨hc, n, t, since, hlatest, hidle, hx, rfl⟩
    obtain ⟨d, hd⟩ := Option.isSome_iff_exists.1 hc
    obtain ⟨a, ha, hf⟩ := ht.of_session hd
    obtain ⟨hn', hissued, hseen⟩ := hlatest.account_eq ha
    refine ⟨d, ?_, hd, ?_, by rw [hf.key, hn']⟩
    · rw [← hissued] at hx
      exact (ht.named_iff hn ha).2 hx
    · rw [← hseen, ← hf.lastSeen, ← ht.ttl_eq] at hidle
      exact decide_eq_false (Nat.not_lt.2 hidle)

/-- The exact meaning of a look-up after any calls of a table that started empty. -/
theorem lookup_after [CipherSuite] {e : Env SessionStore} (he : e.state = ofConfig c)
    (calls : List Call) (p : SocketAddress) (x : Salt) :
    let e' := recorder.after e calls
    let h := recorder.record e calls
    ((issuedSalts h).Nodup → ∀ k, (lookupStep p x e').1 = some k ↔
      e'.state.contains p = true ∧ ∃ n t since, LatestRegistration p h n t since ∧
        e'.now - (since.filterMap (·.seen? p)).getLastD t ≤ c.sessionTtl.nanos ∧
        x ∈ (n.ownSalt :: since.filterMap (·.issued? p)).rtake issuedHistory ∧ n.key = k) ∧
    ((lookupStep p x e').1 = none →
      e'.state.NamesExpired e'.now p x ∧
        (∃ t, (lookupStep p x e').2 = { e' with state := t } ∧ e'.state.Forgets p t) ∨
      ¬ e'.state.NamesExpired e'.now p x ∧ (lookupStep p x e').2 = e') := by
  intro e' h
  have ht : e'.state.Tracks c h := tracks_record he calls
  rw [lookupStep_eq]
  refine ⟨fun hn k => ht.lookup_eq_some_iff hn, ?_⟩
  intro hk
  rcases lookup_eq_none_cases ht.coherent hk with ⟨hexp, hf⟩ | ⟨hlive, hsame⟩
  · exact .inl ⟨hexp, _, rfl, hf⟩
  · refine .inr ⟨hlive, ?_⟩
    rw [hsame]

end SessionStore

section
open Sample SessionStore

/-- The salt of a Data packet finds the session until that is idle for longer than its ttl; then the
first look-up forgets it. -/
theorem lookup_after_seal :
    let n := session (salt 1) (salt 2)
    let c := { config with sessionTtl := .ofSeconds 60 }
    let e : Env SessionStore :=
      { state := .ofConfig c, entropy := { queued := (salt 3).bytes } }
    let e₁ := recorder.after e [.register n, .sealData peer [7], .advance (.ofSeconds 60)]
    let e₂ := recorder.after e [.register n, .sealData peer [7], .advance (.ofSeconds 61)]
    (lookupStep peer (salt 3) e₁).1 = some key ∧
      (lookupStep peer (salt 3) e₂).1 = none ∧ e₂.state.NamesExpired e₂.now peer (salt 3) ∧
      ∃ t, (lookupStep peer (salt 3) e₂).2 = { e₂ with state := t } ∧ e₂.state.Forgets peer t := by
  intro n c e e₁ e₂
  have hrec : recorder.record e [.register n, .sealData peer [7], .advance (.ofSeconds 60)] =
      [.registered n 0, .issued peer (salt 3)] := by decide +kernel
  obtain ⟨hfound, -⟩ := lookup_after (e := e) (c := c) rfl
    [.register n, .sealData peer [7], .advance (.ofSeconds 60)] peer (salt 3)
  obtain ⟨-, hlost⟩ := lookup_after (e := e) (c := c) rfl
    [.register n, .sealData peer [7], .advance (.ofSeconds 61)] peer (salt 3)
  refine ⟨?_, ?_⟩
  · refine (hfound (by rw [hrec]; decide) key).2 ⟨by decide +kernel, n, 0, _, ⟨⟨[], hrec⟩, rfl, ?_⟩,
      by decide +kernel, by decide, rfl⟩
    simp [Fact.registers]
  · have hnone : (lookupStep peer (salt 3) e₂).1 = none := by decide +kernel
    refine ⟨hnone, ?_⟩
    rcases hlost hnone with hexp | ⟨hlive, -⟩
    · exact hexp
    · refine absurd ⟨by decide +kernel, ?_⟩ hlive
      have hall : (e₂.state.sessions.get? peer).any (·.expired e₂.state.ttl e₂.now) = true := by
        decide +kernel
      rwa [Option.any_eq_true] at hall

end

end SealedDatagram

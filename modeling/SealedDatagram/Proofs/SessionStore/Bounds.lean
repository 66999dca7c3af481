import Mathlib.Algebra.Order.BigOperators.Group.List
import Mathlib.Algebra.Order.Ring.Nat
import Mathlib.Data.List.Perm.Subperm
import SealedDatagram.CipherSuite.Standard
import SealedDatagram.Proofs.SessionStore.Run
/-!
How large the tables get. No call lets the sessions outnumber their limit, and since every salt of
the index is among the few that its session still knows, the index is bounded by the sessions. A
salt of a session that is gone, or was replaced, is found no more.
-/

namespace SealedDatagram

namespace Table

variable {κ ν μ : Type} [DecidableEq κ]

theorem size_le_length {t : Table κ ν} {l : List κ} (h : ∀ k v, t.get? k = some v → k ∈ l) :
    t.size ≤ l.length := by
  have hsub : t.entries.map Prod.fst ⊆ l := by
    intro k hk
    obtain ⟨⟨k, v⟩, hm, rfl⟩ := List.mem_map.1 hk
    exact h k v (get?_eq_some_iff.2 hm)
  simpa [size] using (List.subperm_of_subset t.nodup hsub).length_le

theorem mem_keys {t : Table κ ν} {k : κ} {v : ν} (h : t.get? k = some v) :
    k ∈ t.entries.map Prod.fst := List.mem_map.2 ⟨(k, v), get?_eq_some_iff.1 h, rfl⟩

theorem size_le_size {t : Table κ ν} {u : Table κ μ}
    (h : ∀ k v, t.get? k = some v → ∃ w, u.get? k = some w) : t.size ≤ u.size := by
  have := t.size_le_length (l := u.entries.map Prod.fst) fun k v hk =>
    (h k v hk).elim fun _ hw => mem_keys hw
  simpa [size] using this

theorem size_le_mul {κ' : Type} [DecidableEq κ'] {t : Table κ ν} {u : Table κ' μ}
    (known : μ → List κ) {n : Nat} (hn : ∀ k' w, u.get? k' = some w → (known w).length ≤ n)
    (h : ∀ k v, t.get? k = some v → ∃ k' w, u.get? k' = some w ∧ k ∈ known w) :
    t.size ≤ n * u.size := by
  have hall : t.size ≤ (u.entries.flatMap fun e => known e.2).length := by
    apply size_le_length
    intro k v hk
    obtain ⟨k', w, hw, hm⟩ := h k v hk
    exact List.mem_flatMap.2 ⟨(k', w), get?_eq_some_iff.1 hw, hm⟩
  have hbound : ∀ m ∈ u.entries.map fun e => (known e.2).length, m ≤ n := by
    intro m hm
    obtain ⟨⟨k', w⟩, hw, rfl⟩ := List.mem_map.1 hm
    exact hn k' w (get?_eq_some_iff.2 hw)
  have hsum := List.sum_le_card_nsmul _ n hbound
  rw [List.length_map, Nat.nsmul_eq_mul, Nat.mul_comm] at hsum
  rw [List.length_flatMap] at hall
  exact hall.trans hsum

end Table

namespace SessionStore

variable {s t : SessionStore} {c : SecurityConfig} {h : List Fact} {p q : SocketAddress} {now : Nat}

theorem size_le_of_sessions (hsub : ∀ q d, t.sessions.get? q = some d → s.contains q = true) :
    t.size ≤ s.size :=
  Table.size_le_size fun q d hd => Option.isSome_iff_exists.1 (hsub q d hd)

theorem contains_of_session {d : Session} (hd : s.sessions.get? p = some d) :
    s.contains p = true := Option.isSome_iff_exists.2 ⟨d, hd⟩

theorem size_forget_le (s : SessionStore) (p : SocketAddress) : (s.forget p).size ≤ s.size := by
  apply size_le_of_sessions
  intro q d hd
  rw [sessions_forget] at hd
  exact contains_of_session (Option.ite_none_left_eq_some.1 hd).2

theorem size_sweep_le (hs : s.Coherent) : (s.sweep now).size ≤ s.size := by
  apply size_le_of_sessions
  intro q d hd
  rw [sessions_sweep hs] at hd
  exact contains_of_session (Option.ite_none_left_eq_some.1 hd).2

theorem size_le_of_put {e d : Session} (he : s.sessions.get? p = some e)
    (hget : ∀ q, t.sessions.get? q = if q = p then some d else s.sessions.get? q) :
    t.size ≤ s.size := by
  apply size_le_of_sessions
  intro q d' hd
  rw [hget] at hd
  split at hd
  · rename_i hq
    exact hq ▸ contains_of_session he
  · exact contains_of_session hd

theorem size_establish_le (n : NewSession) (window : SaltWindow) (s : SessionStore) :
    (s.establish now n window).size ≤ s.size + 1 := by
  have hkeys := Table.size_le_length (t := (s.establish now n window).sessions)
    (l := n.peer :: s.sessions.entries.map Prod.fst) ?_
  · simpa [size, Table.size] using hkeys
  · intro q d hd
    rw [sessions_establish] at hd
    split at hd
    · rename_i hq
      exact hq ▸ List.mem_cons_self
    · exact List.mem_cons_of_mem _ (Table.mem_keys hd)

theorem size_register_le (hs : s.Coherent) (m : Memory) (n : NewSession)
    (hb : s.size ≤ s.maxSessions) : (s.register m now n).2.size ≤ s.maxSessions := by
  have hsw : (s.sweep now).size ≤ s.maxSessions := (size_sweep_le hs).trans hb
  have hlimits : (s.sweep now).limits = s.limits := sweep_limits hs
  have hmax : (s.sweep now).maxSessions = s.maxSessions := congrArg (·.2.1) hlimits
  rcases register_cases s m now n with ⟨e, -, -, heq⟩ | ⟨e, he, -, -, heq⟩ | ⟨-, -, heq⟩ |
    ⟨-, hroom, -, heq⟩ | ⟨-, -, -, heq⟩
  · rw [heq]
    exact hsw
  · rw [heq]
    exact (size_le_of_put he (sessions_establish now n _ _)).trans hsw
  · rw [heq]
    exact hsw
  · rw [heq]
    rw [hmax] at hroom
    exact (size_establish_le n _ _).trans hroom
  · rw [heq]
    exact hsw

theorem size_issue_le (s : SessionStore) (p : SocketAddress) (x : Salt) :
    (s.issue p x).size ≤ s.size := by
  cases he : s.sessions.get? p with
  | none =>
    have hsame : s.issue p x = s := by simp only [SessionStore.issue, he]
    rw [hsame]
  | some e =>
    refine size_le_of_put (d := e.learn x) he fun q => ?_
    rw [sessions_issue, he]
    rfl

theorem issued_ne_nil_of_account {a : Account} (ha : account p h = some a) : a.issued ≠ [] := by
  obtain ⟨h₁, now, h₂, rfl, hp, hl⟩ := exists_latest_of_account ha
  rw [account_registered hp hl] at ha
  rw [← Option.some.inj ha]
  exact List.cons_ne_nil _ _

theorem Tracks.length_issued (ht : s.Tracks c h) {d : Session} (hd : s.sessions.get? p = some d) :
    1 ≤ d.issued.length ∧ d.issued.length ≤ issuedHistory := by
  obtain ⟨a, ha, hf⟩ := ht.of_session hd
  have hpos : 0 < a.issued.length := List.length_pos_iff.2 (issued_ne_nil_of_account ha)
  rw [hf.issued, List.rtake, List.length_drop, issuedHistory]
  omega

theorem Tracks.size_window_le (ht : s.Tracks c h) {d : Session}
    (hd : s.sessions.get? p = some d) : d.window.size ≤ c.replayWindow.toNat := by
  obtain ⟨a, -, hf⟩ := ht.of_session hd
  rw [← ht.replayWindow_eq, ← ht.capacity p d hd, SaltWindow.size, hf.window.order, List.rtake,
    List.length_drop]
  omega

theorem Tracks.size_bySalt_le (ht : s.Tracks c h) : s.bySalt.size ≤ issuedHistory * s.size :=
  Table.size_le_mul Session.issued (fun _ _ hd => (ht.length_issued hd).2) fun x p hx =>
    (ht.coherent x p hx).elim fun d hd => ⟨p, d, hd⟩

/-- The salts that name one peer are among those that its session knows. -/
theorem Tracks.size_named_le (ht : s.Tracks c h) (p : SocketAddress) :
    (s.bySalt.filter fun _ q => q = p).size ≤ issuedHistory := by
  have hnamed : ∀ x q, (s.bySalt.filter fun _ q => q = p).get? x = some q →
      s.bySalt.get? x = some p := by
    intro x q hx
    rw [Table.get?_filter, Option.filter_eq_some_iff, decide_eq_true_eq] at hx
    exact hx.2 ▸ hx.1
  cases hd : s.sessions.get? p with
  | none =>
    refine (Table.size_le_length (l := []) fun x q hx => ?_).trans (Nat.zero_le _)
    obtain ⟨d, hd', -⟩ := ht.coherent x p (hnamed x q hx)
    rw [hd] at hd'
    cases hd'
  | some d =>
    refine (Table.size_le_length (l := d.issued) fun x q hx => ?_).trans (ht.length_issued hd).2
    obtain ⟨d', hd', hm⟩ := ht.coherent x p (hnamed x q hx)
    obtain rfl := Option.some.inj (hd.symm.trans hd')
    exact hm

/-- Of the salts that named a peer only the new one does once a session is registered for it. -/
theorem bySalt_register (hs : s.Coherent) {m : Memory} {n : NewSession}
    (hr : (s.register m now n).1 = .accepted) {x : Salt}
    (hx : (s.register m now n).2.bySalt.get? x = some n.peer) : x = n.ownSalt := by
  have hnew : ∀ window, ((s.sweep now).establish now n window).bySalt.get? x = some n.peer →
      x = n.ownSalt := by
    intro window hx
    rcases (bySalt_establish now n window hs.sweep).1 hx with ⟨hx, -⟩ | ⟨-, -, hp⟩
    · exact hx
    · exact absurd rfl hp
  rcases register_cases s m now n with ⟨_, _, _, ht⟩ | ⟨_, _, _, _, ht⟩ | ⟨_, _, ht⟩ |
    ⟨_, _, _, ht⟩ | ⟨_, _, _, ht⟩
  · rw [ht] at hr
    cases hr
  · rw [ht] at hx
    exact hnew _ hx
  · rw [ht] at hr
    cases hr
  · rw [ht] at hx
    exact hnew _ hx
  · rw [ht] at hr
    cases hr

/-- Both tables fit each other and the limits they were set up with. -/
structure Orderly (s : SessionStore) (c : SecurityConfig) : Prop where
  named : ∀ x p, s.bySalt.get? x = some p → ∃ d, s.sessions.get? p = some d ∧ x ∈ d.issued
  issued : ∀ p d, s.sessions.get? p = some d →
    1 ≤ d.issued.length ∧ d.issued.length ≤ issuedHistory
  window : ∀ p d, s.sessions.get? p = some d → d.window.size ≤ c.replayWindow.toNat
  sessions : s.size ≤ c.maxSessions.toNat
  salts : ∀ p, (s.bySalt.filter fun _ q => q = p).size ≤ issuedHistory
  index : s.bySalt.size ≤ issuedHistory * s.size

theorem Tracks.orderly (ht : s.Tracks c h) (hb : s.size ≤ c.maxSessions.toNat) : s.Orderly c where
  named := ht.coherent
  issued _ _ := ht.length_issued
  window _ _ := ht.size_window_le
  sessions := hb
  salts := ht.size_named_le
  index := ht.size_bySalt_le

variable [CipherSuite] {e : Env SessionStore}

theorem Call.size_next_le (hs : e.state.Tracks c h) (call : Call)
    (hb : e.state.size ≤ c.maxSessions.toNat) :
    (call.next e).state.size ≤ c.maxSessions.toNat := by
  cases call with
  | register n =>
    obtain ⟨metrics, heq⟩ := exec_registerStep n e
    simp only [Call.next, heq]
    rw [← hs.maxSessions_eq] at hb ⊢
    exact size_register_le hs.coherent e.memory n hb
  | lookup p x =>
    simp only [Call.next, lookupStep_eq]
    rcases lookup_cases e.state e.now p x with ⟨d, -, hd, -, ht⟩ | ⟨d, -, -, -, ht⟩ | ⟨-, ht⟩
    · rw [ht]
      exact (size_le_of_put hd (Table.get?_insert e.state.sessions p · _)).trans hb
    · rw [ht]
      exact (size_forget_le e.state p).trans hb
    · rw [ht]
      exact hb
  | update p x =>
    obtain ⟨metrics, heq⟩ := updateStep_eq p x e
    simp only [Call.next, heq]
    rcases update_cases e.state e.now p x with ⟨-, ht⟩ | ⟨d, -, -, ht⟩ | ⟨d, hd, -, ht⟩
    · rw [ht]
      exact hb
    · rw [ht]
      exact hb
    · rw [ht]
      exact (size_le_of_put hd (Table.get?_insert e.state.sessions p · _)).trans hb
  | sealData p payload =>
    simp only [Call.next]
    rcases exec_sealData_cases p payload e with
      ⟨x, entropy, d, pad, entropy', -, -, -, -, -, heq⟩ | ⟨err, entropy, heq, -⟩
    · rw [heq]
      exact (size_issue_le e.state p x).trans hb
    · rw [heq]
      exact hb
  | remove p => exact (size_forget_le e.state p).trans hb
  | clear => exact Nat.zero_le _
  | purge => exact (size_sweep_le hs.coherent).trans hb
  | advance d => simpa only [Call.next, Env.advance, Env.haltUnless] using hb

theorem size_after_le (he : e.state = ofConfig c) (calls : List Call) :
    (recorder.after e calls).state.size ≤ c.maxSessions.toNat := by
  have hrun := recorder.keeps
    (P := fun e h => e.state.Tracks c h ∧ e.state.size ≤ c.maxSessions.toNat)
    (fun _ _ call hs => ⟨hs.1.step call, call.size_next_le hs.1 hs.2⟩) (s := e) (h := [])
    ⟨he ▸ tracks_ofConfig c, he ▸ Nat.zero_le _⟩ calls
  exact hrun.2

/-- In every state of a table that started empty the index and the sessions fit each other, and
nothing outgrows its limit. So a salt finds the session of its own peer alone, while that session
lives and knows the salt; and once a session is registered no other salt of its peer finds one. -/
theorem run_orderly (he : e.state = ofConfig c) (calls : List Call) :
    let e' := recorder.after e calls
    e'.state.Orderly c ∧
    (∀ p x k, (lookupStep p x e').1 = some k → ∃ d, e'.state.sessions.get? p = some d ∧
      d.expired e'.state.ttl e'.now = false ∧ x ∈ d.issued ∧ d.key = k) ∧
    (∀ n x k, ((registerStep n).exec e').1 = .ok true →
      (lookupStep n.peer x ((registerStep n).exec e').2).1 = some k →
        x = n.ownSalt ∧ k = n.key) := by
  intro e'
  have ht := tracks_record he calls
  refine ⟨ht.orderly (size_after_le he calls), ?_, ?_⟩
  · intro p x k hk
    rw [lookupStep_eq] at hk
    obtain ⟨d, hx, hd, hl, rfl⟩ := lookup_eq_some_iff.1 hk
    obtain ⟨d', hd', hm⟩ := ht.coherent x p hx
    obtain rfl := Option.some.inj (hd.symm.trans hd')
    exact ⟨d, hd, hl, hm, rfl⟩
  · intro n x k hr hk
    have hacc := registerStep_eq_ok_true_iff.1 hr
    obtain ⟨metrics, heq⟩ := exec_registerStep n e'
    rw [heq, lookupStep_eq] at hk
    obtain ⟨d, hx, hd, -, rfl⟩ := lookup_eq_some_iff.1 hk
    refine ⟨bySalt_register ht.coherent hacc hx, ?_⟩
    obtain ⟨a, ha, hf⟩ := (ht.register hacc).of_session hd
    rw [account_concat, Account.next, if_pos rfl] at ha
    rw [hf.key, ← Option.some.inj ha]

end SessionStore

section
open Sample SessionStore

/-- Two peers that were issued one salt: the index keeps it for the second, which is forgotten with
it, and the first is found again once it is registered under another. -/
theorem run_orderly_with_shared_salt :
    let n := session (salt 1) (salt 2)
    let m := { n with peer := .v4 0x7f000001 4001 }
    let e : Env SessionStore := { state := .ofConfig config }
    let e₁ := recorder.after e [.register n, .register m]
    let e₂ := recorder.after e [.register n, .register m, .remove m.peer]
    let again := (registerStep (session (salt 3) (salt 4))).exec e₂
    (e₁.state.Orderly config ∧ e₁.state.size = 2 ∧ e₁.state.bySalt.size = 1 ∧
      (lookupStep m.peer (salt 2) e₁).1 = some key ∧
      ∃ d, e₁.state.sessions.get? m.peer = some d ∧ salt 2 ∈ d.issued ∧ d.key = key) ∧
    (e₂.state.Orderly config ∧ e₂.state.size = 1 ∧ e₂.state.bySalt.size = 0) ∧
    again.1 = .ok true ∧ (lookupStep peer (salt 4) again.2).1 = some key ∧
      ∀ x k, (lookupStep peer x again.2).1 = some k → x = salt 4 := by
  intro n m e e₁ e₂ again
  obtain ⟨h₁, hlive, -⟩ := run_orderly (e := e) (c := config) rfl [.register n, .register m]
  obtain ⟨h₂, -, hagain⟩ :=
    run_orderly (e := e) (c := config) rfl [.register n, .register m, .remove m.peer]
  have hfound : (lookupStep m.peer (salt 2) e₁).1 = some key := by decide +kernel
  obtain ⟨d, hd, -, hm, hkey⟩ := hlive m.peer (salt 2) key hfound
  have hr : again.1 = .ok true := by decide +kernel
  exact ⟨⟨h₁, by decide +kernel, by decide +kernel, hfound, d, hd, hm, hkey⟩,
    ⟨h₂, by decide +kernel, by decide +kernel⟩, hr, by decide +kernel,
    fun x k hk => (hagain (session (salt 3) (salt 4)) x k hr hk).1⟩

end

end SealedDatagram

import Mathlib.Data.List.Perm.Subperm
import SealedDatagram.Proofs.Field
import SealedDatagram.Proofs.SessionStore.Lookup
/-!
What becomes of a session that has been idle for longer than its ttl. No look-up finds it any more,
but it is taken away only by a call that sweeps or comes upon it. From then on its peer is unknown
until a registration of it is accepted. Before that, an update or a packet to the peer still finds
the session, for these ask only whether there is one.
-/

namespace SealedDatagram

namespace Salt

def ofNat (n : Nat) : Salt := ⟨Bytes.ofNatLE 8 n, Bytes.length_ofNatLE 8 n⟩

theorem toNatLE_ofNat {n : Nat} (hn : n < UInt64.size) : Bytes.toNatLE (ofNat n).bytes = n :=
  (Bytes.toNatLE_ofNatLE 8 n).trans (Nat.mod_eq_of_lt hn)

theorem nodup_map_ofNat {n : Nat} (hn : n ≤ UInt64.size) : ((List.range n).map ofNat).Nodup := by
  refine List.nodup_range.map_on ?_
  intro i hi j hj heq
  have hi : i < UInt64.size := Nat.lt_of_lt_of_le (List.mem_range.1 hi) hn
  have hj : j < UInt64.size := Nat.lt_of_lt_of_le (List.mem_range.1 hj) hn
  rw [← toNatLE_ofNat hi, heq, toNatLE_ofNat hj]

theorem exists_notMem {l : List Salt} (hl : l.length < UInt64.size) : ∃ x, x ∉ l := by
  by_contra hall
  have hsub : (List.range (l.length + 1)).map ofNat ⊆ l := fun x _ =>
    Decidable.not_not.1 fun hx => hall ⟨x, hx⟩
  have hle := (List.subperm_of_subset (nodup_map_ofNat hl) hsub).length_le
  rw [List.length_map, List.length_range] at hle
  exact Nat.not_succ_le_self _ hle

end Salt

theorem SaltWindow.Remembers.exists_fresh {w : SaltWindow} {accepted : List Salt}
    (hw : w.Remembers accepted) (hc : w.capacity < UInt64.size) :
    ∃ x, (w.accept x).1 = true := by
  have hlen : (accepted.rtake w.capacity).length < UInt64.size := by
    rw [List.rtake, List.length_drop]
    omega
  obtain ⟨x, hx⟩ := Salt.exists_notMem hlen
  exact ⟨x, hw.accept_eq_true_iff.2 hx⟩

theorem account_append_eq_none {p : SocketAddress} {h l : List Fact} (ha : account p h = none)
    (hl : ∀ f ∈ l, ¬ f.registers p) : account p (h ++ l) = none := by
  induction l generalizing h with
  | nil => rwa [List.append_nil]
  | cons f l ih =>
    rw [List.append_cons]
    refine ih ?_ fun g hg => hl g (List.mem_cons_of_mem f hg)
    rw [account_concat, ha]
    cases f with
    | registered n now =>
      have hn : ¬ n.peer = p := hl _ List.mem_cons_self
      exact if_neg hn
    | found q now | rolled q x now | issued q x | dropped q cause => simp [Account.next]

namespace SessionStore

variable {e : Env SessionStore} {p : SocketAddress} {c : SecurityConfig} {h : List Fact}

theorem sessions_sweep_of_expired {s : SessionStore} {now : Nat} (hs : s.Coherent)
    (hp : ∀ d, s.sessions.get? p = some d → d.expired s.ttl now = true) :
    (s.sweep now).sessions.get? p = none := by
  rw [sessions_sweep hs]
  split
  · rfl
  · rename_i hlive
    cases hd : s.sessions.get? p with
    | none => rfl
    | some d => exact absurd (mem_expiredPeers.2 ⟨d, hd, hp d hd⟩) hlive

/-- Whether a peer has no session but one that has expired. -/
def Idle (e : Env SessionStore) (p : SocketAddress) : Prop :=
  ∀ d, e.state.sessions.get? p = some d → d.expired e.state.ttl e.now = true

theorem idle_of_none (hp : e.state.sessions.get? p = none) : Idle e p := by
  intro d hd
  rw [hp] at hd
  cases hd

theorem lookup_of_idle (hi : Idle e p) (x : Salt) : (lookupStep p x e).1 = none := by
  rw [lookupStep_eq]
  rcases lookup_cases e.state e.now p x with ⟨d, -, hd, hl, -⟩ | ⟨d, -, -, -, ht⟩ | ⟨-, ht⟩
  · rw [hi d hd] at hl
    cases hl
  · rw [ht]
  · rw [ht]

theorem Tracks.idle (ht : e.state.Tracks c h) {n : NewSession} {t : Nat} {since : List Fact}
    (hl : LatestRegistration p h n t since)
    (hidle : c.sessionTtl.nanos < e.now - (since.filterMap (·.seen? p)).getLastD t) :
    Idle e p := by
  intro d hd
  obtain ⟨a, ha, hf⟩ := ht.of_session hd
  obtain ⟨-, -, hseen⟩ := hl.account_eq ha
  rw [Session.expired, ht.ttl_eq, hf.lastSeen, hseen]
  exact decide_eq_true hidle

theorem Idle.register (ht : e.state.Tracks c h) (hi : Idle e p) {m : Memory} {n : NewSession}
    (hn : (e.state.register m e.now n).1 = .accepted → n.peer ≠ p) :
    (e.state.register m e.now n).2.sessions.get? p = none := by
  have hsweep : (e.state.sweep e.now).sessions.get? p = none :=
    sessions_sweep_of_expired ht.coherent hi
  have hestablish : ∀ window, n.peer ≠ p →
      ((e.state.sweep e.now).establish e.now n window).sessions.get? p = none := by
    intro window hp
    rw [sessions_establish, if_neg hp.symm, hsweep]
  rcases register_cases e.state m e.now n with ⟨_, _, _, h'⟩ | ⟨_, _, _, _, h'⟩ | ⟨_, _, h'⟩ |
    ⟨_, _, _, h'⟩ | ⟨_, _, _, h'⟩
  · rwa [h']
  · rw [h'] at hn ⊢
    exact hestablish _ (hn rfl)
  · rwa [h']
  · rw [h'] at hn ⊢
    exact hestablish _ (hn rfl)
  · rwa [h']

theorem Idle.lookup (ht : e.state.Tracks c h) (hi : Idle e p) (q : SocketAddress) (x : Salt) :
    (e.state.lookup e.now q x).2.sessions.get? p =
      if q = p ∧ e.state.bySalt.get? x = some p then none else e.state.sessions.get? p := by
  rcases lookup_cases e.state e.now q x with ⟨d, hx, hd, hl, h'⟩ | ⟨d, hx, hd, hl, h'⟩ | ⟨hx, h'⟩
  · have hp : q ≠ p := by
      rintro rfl
      rw [hi d hd] at hl
      cases hl
    rw [h', Table.get?_insert, if_neg hp.symm, if_neg fun hq => hp hq.1]
  · rw [h', sessions_forget]
    by_cases hp : q = p
    · rw [if_pos hp.symm, if_pos ⟨hp, hp ▸ hx⟩]
    · rw [if_neg (Ne.symm hp), if_neg fun hq => hp hq.1]
  · rw [h', if_neg]
    rintro ⟨rfl, hx'⟩
    obtain ⟨d, hd, -⟩ := ht.coherent x q hx'
    rw [hx hx'] at hd
    cases hd

/-- Whether a call takes away the session of a peer if that has expired. -/
def Call.Discards (call : Call) (p : SocketAddress) (e : Env SessionStore) : Prop :=
  match call with
  | register _ | clear | purge => True
  | lookup q x => q = p ∧ e.state.bySalt.get? x = some p
  | remove q => q = p
  | update _ _ | sealData _ _ | advance _ => False

variable [CipherSuite]

/-- To every call but a registration the peer is one without a session. -/
structure Unknown (e : Env SessionStore) (p : SocketAddress) : Prop where
  lookup : ∀ x, (lookupStep p x e).1 = none
  update : ∀ x, (updateStep p x e).1 = false
  sealData : ∀ payload, ∃ err e', (SessionStore.sealData p payload).exec e = (.error err, e')

theorem unknown_of_not_contains (hp : e.state.contains p = false) : Unknown e p := by
  have hnone := contains_eq_false_iff.1 hp
  refine ⟨lookup_of_idle (idle_of_none hnone), ?_, ?_⟩
  · intro x
    obtain ⟨metrics, heq⟩ := updateStep_eq p x e
    rw [heq]
    rcases update_cases e.state e.now p x with ⟨-, ht⟩ | ⟨d, hd, -, -⟩ | ⟨d, hd, -, -⟩
    · rw [ht]
      rfl
    · cases hnone.symm.trans hd
    · cases hnone.symm.trans hd
  · intro payload
    rcases exec_sealData_cases p payload e with
      ⟨x, entropy, d, pad, entropy', -, hd, -, -, -, -⟩ | ⟨err, entropy, heq, -⟩
    · cases hnone.symm.trans hd
    · exact ⟨err, _, heq⟩

theorem Tracks.unknown_iff (ht : e.state.Tracks c h) :
    Unknown e p ↔ e.state.contains p = false := by
  refine ⟨fun hu => ?_, unknown_of_not_contains⟩
  rw [← Bool.not_eq_true]
  intro hp
  obtain ⟨d, hd⟩ := Option.isSome_iff_exists.1 hp
  obtain ⟨a, -, hf⟩ := ht.of_session hd
  -- the window of the session does not remember all the salts there are, so it accepts one
  have hcap : d.window.capacity < UInt64.size := by
    rw [ht.capacity p d hd, ht.replayWindow_eq]
    exact c.replayWindow.toNat_lt
  obtain ⟨x, hx⟩ := hf.window.exists_fresh hcap
  obtain ⟨metrics, heq⟩ := updateStep_eq p x e
  have hu := hu.update x
  rw [heq, update_of_fresh hd hx] at hu
  cases hu

def Call.elapsed : Call → Nat
  | advance d => d.nanos
  | _ => 0

theorem Call.now_next (call : Call) (e : Env SessionStore) :
    (call.next e).now = e.now + call.elapsed := by
  cases call with
  | register n =>
    obtain ⟨metrics, heq⟩ := exec_registerStep n e
    simp only [next, heq, elapsed, Nat.add_zero]
  | update q x =>
    obtain ⟨metrics, heq⟩ := updateStep_eq q x e
    simp only [next, heq, elapsed, Nat.add_zero]
  | sealData q payload =>
    rcases exec_sealData_cases q payload e with
      ⟨x, entropy, d, pad, entropy', -, -, -, -, -, heq⟩ | ⟨err, entropy, heq, -⟩
    · simp only [next, heq, elapsed, Nat.add_zero]
    · simp only [next, heq, elapsed, Nat.add_zero]
  | lookup | remove | clear | purge | advance => rfl

theorem Call.now_le_next (call : Call) (e : Env SessionStore) : e.now ≤ (call.next e).now := by
  rw [call.now_next]
  exact Nat.le_add_right e.now call.elapsed

/-- An idle peer's session goes with a call that discards it. A call that neither discards it nor
accepts a salt of the peer leaves when it was last seen. -/
theorem Call.session_next (ht : e.state.Tracks c h) (hi : Idle e p) (call : Call)
    (hq : ∀ f ∈ call.facts e, f.accepted? p = none) :
    call.Discards p e ∧ (call.next e).state.sessions.get? p = none ∨
      ¬ call.Discards p e ∧ ((call.next e).state.sessions.get? p).map (·.lastSeen) =
        (e.state.sessions.get? p).map (·.lastSeen) := by
  cases call with
  | register n =>
    obtain ⟨metrics, heq⟩ := exec_registerStep n e
    simp only [next, heq]
    refine .inl ⟨trivial, hi.register ht fun hr hn => ?_⟩
    simpa [Fact.accepted?, hn] using hq _ (registered_mem_facts hr)
  | lookup q x =>
    simp only [next, lookupStep_eq, hi.lookup ht]
    by_cases hdisc : q = p ∧ e.state.bySalt.get? x = some p
    · exact .inl ⟨hdisc, if_pos hdisc⟩
    · exact .inr ⟨hdisc, by rw [if_neg hdisc]⟩
  | update q x =>
    obtain ⟨metrics, heq⟩ := updateStep_eq q x e
    refine .inr ⟨id, ?_⟩
    simp only [next, heq]
    rcases update_cases e.state e.now q x with ⟨-, h'⟩ | ⟨d, -, -, h'⟩ | ⟨d, -, -, h'⟩
    · rw [h']
    · rw [h']
    · have hp : q ≠ p := by
        have hmem : Fact.rolled q x e.now ∈ (Call.update q x).facts e := by
          simp [facts, heq, h']
        intro hp
        simpa [Fact.accepted?, hp] using hq _ hmem
      rw [h', Table.get?_insert, if_neg hp.symm]
  | sealData q payload =>
    refine .inr ⟨id, ?_⟩
    rcases exec_sealData_cases q payload e with
      ⟨x, entropy, d, pad, entropy', -, -, -, -, -, heq⟩ | ⟨err, entropy, heq, -⟩
    · simp only [next, heq, sessions_issue]
      by_cases hp : p = q
      · rw [if_pos hp, hp, Option.map_map]
        rfl
      · rw [if_neg hp]
    · simp only [next, heq]
  | remove q =>
    simp only [next, SessionStore.remove, sessions_forget]
    by_cases hp : q = p
    · exact .inl ⟨hp, if_pos hp.symm⟩
    · exact .inr ⟨hp, by rw [if_neg (Ne.symm hp)]⟩
  | clear => exact .inl ⟨trivial, rfl⟩
  | purge => exact .inl ⟨trivial, sessions_sweep_of_expired ht.coherent hi⟩
  | advance d => exact .inr ⟨id, rfl⟩

theorem Idle.next (ht : e.state.Tracks c h) (hi : Idle e p) {call : Call}
    (hq : ∀ f ∈ call.facts e, f.accepted? p = none) : Idle (call.next e) p := by
  intro d' hd'
  rcases call.session_next ht hi hq with ⟨-, hnone⟩ | ⟨-, hseen⟩
  · rw [hnone] at hd'
    cases hd'
  · rw [hd', Option.map_some] at hseen
    obtain ⟨d, hd, hsame⟩ := Option.map_eq_some_iff.1 hseen.symm
    have hlate : e.state.ttl < e.now - d.lastSeen := of_decide_eq_true (hi d hd)
    have hnow := call.now_le_next e
    rw [Session.expired, (ht.step call).ttl_eq, ← ht.ttl_eq, ← hsame]
    exact decide_eq_true (by omega)

theorem Idle.contains_next (ht : e.state.Tracks c h) (hi : Idle e p) {call : Call}
    (hq : ∀ f ∈ call.facts e, f.accepted? p = none) :
    (call.next e).state.contains p = true ↔
      e.state.contains p = true ∧ ¬ call.Discards p e := by
  simp only [contains, Table.contains]
  rcases call.session_next ht hi hq with ⟨hdisc, hnone⟩ | ⟨hkeep, hseen⟩
  · rw [hnone]
    exact iff_of_false Bool.false_ne_true fun hk => hk.2 hdisc
  · have hsome := congrArg Option.isSome hseen
    rw [Option.isSome_map, Option.isSome_map] at hsome
    rw [hsome]
    exact ⟨fun hp => ⟨hp, hkeep⟩, And.left⟩

/-- An idle peer stays idle as long as no salt of it is accepted, and has its session until a call
discards that. -/
theorem idle_after (ht : e.state.Tracks c h) (hi : Idle e p) {calls : List Call}
    (hq : ∀ f ∈ recorder.record e calls, f.accepted? p = none) :
    Idle (recorder.after e calls) p ∧
      ((recorder.after e calls).state.contains p = true ↔ e.state.contains p = true ∧
        ∀ u call v, calls = u ++ call :: v → ¬ call.Discards p (recorder.after e u)) := by
  induction calls generalizing e h with
  | nil => exact ⟨hi, by simp [Recorder.after_nil]⟩
  | cons call calls ih =>
    rw [Recorder.record_cons] at hq
    have hq₁ : ∀ f ∈ call.facts e, f.accepted? p = none := fun f hf =>
      hq f (List.mem_append_left _ hf)
    obtain ⟨hafter, hcont⟩ := ih (ht.step call) (hi.next ht hq₁) fun f hf =>
      hq f (List.mem_append_right _ hf)
    rw [Recorder.after_cons]
    refine ⟨hafter, hcont.trans ?_⟩
    rw [hi.contains_next ht hq₁, and_assoc]
    refine and_congr_right fun _ => ⟨?_, ?_⟩
    · rintro ⟨hfirst, hrest⟩ u d v heq
      cases u with
      | nil =>
        obtain ⟨rfl, -⟩ := List.cons.inj heq
        exact hfirst
      | cons b u =>
        obtain ⟨rfl, hcalls⟩ := List.cons.inj heq
        exact hrest u d v hcalls
    · intro hall
      refine ⟨hall [] call calls rfl, fun u d v heq => hall (call :: u) d v ?_⟩
      rw [heq, List.cons_append]

theorem contains_after_eq_false (ht : e.state.Tracks c h) (hp : e.state.contains p = false)
    {calls : List Call} (hr : ∀ f ∈ recorder.record e calls, ¬ f.registers p) :
    (recorder.after e calls).state.contains p = false := by
  have ht' : (recorder.after e calls).state.Tracks c (h ++ recorder.record e calls) :=
    recorder.keeps (P := fun e h => e.state.Tracks c h) (fun _ _ call hs => hs.step call) ht calls
  rw [contains_eq_false_iff, ← ht'.account_eq_none_iff]
  exact account_append_eq_none (ht.account_eq_none_iff.2 (contains_eq_false_iff.1 hp)) hr

/-- While no salt of the peer is accepted, a session that has been idle for longer than its ttl is
not found by a look-up. To updates and packets to the peer it is gone exactly once a call has
discarded it, and from then on it does not come back before a registration of the peer. -/
theorem unknown_once_discarded {e₀ : Env SessionStore} (he : e₀.state = ofConfig c)
    (before since : List Call) {n : NewSession} {t : Nat} {facts : List Fact}
    (hl : LatestRegistration p (recorder.record e₀ before) n t facts)
    (hidle : c.sessionTtl.nanos <
      (recorder.after e₀ before).now - (facts.filterMap (·.seen? p)).getLastD t)
    (hq : ∀ f ∈ recorder.record (recorder.after e₀ before) since, f.accepted? p = none) :
    let e₁ := recorder.after e₀ before
    let e₂ := recorder.after e₁ since
    (∀ x, (lookupStep p x e₂).1 = none) ∧
    (Unknown e₂ p ↔ e₁.state.contains p = false ∨
      ∃ u call v, since = u ++ call :: v ∧ call.Discards p (recorder.after e₁ u)) ∧
    (Unknown e₂ p → ∀ later, (∀ f ∈ recorder.record e₂ later, ¬ f.registers p) →
      Unknown (recorder.after e₂ later) p) := by
  intro e₁ e₂
  have ht₁ : e₁.state.Tracks c (recorder.record e₀ before) := tracks_record he before
  have ht₂ : e₂.state.Tracks c (recorder.record e₀ before ++ recorder.record e₁ since) :=
    recorder.keeps (P := fun e h => e.state.Tracks c h) (fun _ _ call hs => hs.step call) ht₁ since
  obtain ⟨hidle₂, hcont⟩ := idle_after ht₁ (ht₁.idle hl hidle) hq
  refine ⟨lookup_of_idle hidle₂, ?_, ?_⟩
  · rw [ht₂.unknown_iff, ← Bool.not_eq_true, hcont, not_and_or, Bool.not_eq_true]
    simp only [not_forall, not_not, exists_prop]
  · intro hu later hr
    exact unknown_of_not_contains (contains_after_eq_false ht₂ (ht₂.unknown_iff.1 hu) hr)

end SessionStore

section
open Sample SessionStore

/-- One sweep after the ttl has passed, and the peer is unknown until it registers again. -/
theorem unknown_after_sweep :
    let n := session (salt 1) (salt 2)
    let c := { config with sessionTtl := .ofSeconds 60 }
    let e : Env SessionStore := { state := .ofConfig c }
    let e₂ := recorder.after e [.register n, .advance (.ofSeconds 61), .purge]
    (∀ x, (lookupStep peer x e₂).1 = none) ∧ Unknown e₂ peer ∧
      ∀ later, (∀ f ∈ recorder.record e₂ later, ¬ f.registers peer) →
        Unknown (recorder.after e₂ later) peer := by
  intro n c e e₂
  have he : e.state = .ofConfig c := rfl
  have hrec : recorder.record e [.register n, .advance (.ofSeconds 61)] = [.registered n 0] := by
    decide +kernel
  have hlatest : LatestRegistration peer
      (recorder.record e [.register n, .advance (.ofSeconds 61)]) n 0 [] :=
    ⟨⟨[], hrec⟩, rfl, nofun⟩
  obtain ⟨hlookup, hiff, hstays⟩ := unknown_once_discarded he
    [.register n, .advance (.ofSeconds 61)] [.purge] hlatest (by decide +kernel) (by decide +kernel)
  have hunknown : Unknown e₂ peer := hiff.2 (.inr ⟨[], .purge, [], rfl, trivial⟩)
  exact ⟨hlookup, hunknown, hstays hunknown⟩

/-- Without the sweep the expired session seals a packet to its peer, and it accepts a salt, after
which it is found again. -/
theorem revived_after_ttl :
    let n := session (salt 1) (salt 2)
    let c := { config with sessionTtl := .ofSeconds 60 }
    let pad := List.replicate Sealed.padSize 0
    let e₀ : Env SessionStore :=
      { state := .ofConfig c, entropy := { queued := (salt 3).bytes ++ pad } }
    let e := recorder.after e₀ [.register n, .advance (.ofSeconds 61)]
    LatestRegistration peer (recorder.record e₀ [.register n, .advance (.ofSeconds 61)]) n 0 [] ∧
      c.sessionTtl.nanos < e.now - 0 ∧
      (∃ b e', (sealData peer [7]).exec e = (.ok b, e')) ∧
      (updateStep peer (salt 4) e).1 = true ∧
      (lookupStep peer (salt 2) (updateStep peer (salt 4) e).2).1 = some key := by
  intro n c pad e₀ e
  have hrec : recorder.record e₀ [.register n, .advance (.ofSeconds 61)] = [.registered n 0] := by
    decide +kernel
  have hsession : (e.state.sessions.get? peer).isSome = true := by decide +kernel
  obtain ⟨d, hd⟩ := Option.isSome_iff_exists.1 hsession
  have hentropy : e.entropy = { queued := (salt 3).bytes ++ pad } := by decide +kernel
  have hdraw : e.entropy.draw? Salt.size = some ((salt 3).bytes, { queued := pad }) := by
    rw [hentropy]
    exact Entropy.draw?_append (salt 3).length_eq
  have hpad : ({ queued := pad } : Entropy).draw? Sealed.padSize = some (pad, {}) := by
    rw [← List.append_nil pad]
    exact Entropy.draw?_append List.length_replicate
  have hsealed : (sealData peer [7]).exec e = _ :=
    exec_sealData hd (by decide) hdraw hpad (by rw [hentropy])
  exact ⟨⟨⟨[], hrec⟩, rfl, nofun⟩, by decide +kernel, ⟨_, _, hsealed⟩, by decide +kernel,
    by decide +kernel⟩

end

end SealedDatagram

import SealedDatagram.Proofs.Recorder
import SealedDatagram.Proofs.SessionStore.Effect
/-!
The history of a session table, one fact after another, and what a history says of a peer. A table
that started empty and the account that its history gives of every peer agree after any calls: the
session is the one registered last, its window remembers the last salts accepted, also those of the
sessions it replaced, and it knows the last salts issued since its registration.
-/

namespace SealedDatagram

/-- Why a session is there no longer. -/
inductive Cause where
  /-- It had been idle for too long when the clock read `now`. -/
  | expired (now : Nat)
  | removed
  | cleared
  deriving DecidableEq

/-- What a call of a session table can bring about, with the time where one is kept. -/
inductive Fact where
  | registered (n : NewSession) (now : Nat)
  | found (peer : SocketAddress) (now : Nat)
  | rolled (peer : SocketAddress) (salt : Salt) (now : Nat)
  | issued (peer : SocketAddress) (salt : Salt)
  | dropped (peer : SocketAddress) (cause : Cause)
  deriving DecidableEq

namespace Fact

/-- The salt of a peer that is accepted. -/
def accepted? (p : SocketAddress) : Fact → Option Salt
  | registered n _ => if n.peer = p then some n.peerSalt else none
  | rolled q x _ => if q = p then some x else none
  | _ => none

/-- The salt that a peer gets to know. -/
def issued? (p : SocketAddress) : Fact → Option Salt
  | registered n _ => if n.peer = p then some n.ownSalt else none
  | issued q x => if q = p then some x else none
  | _ => none

def salt? : Fact → Option Salt
  | registered n _ => some n.ownSalt
  | issued _ x => some x
  | _ => none

/-- When the session of a peer is marked as seen. -/
def seen? (p : SocketAddress) : Fact → Option Nat
  | registered n now => if n.peer = p then some now else none
  | found q now => if q = p then some now else none
  | rolled q _ now => if q = p then some now else none
  | _ => none

/-- Whether the session that a peer had is there no longer. -/
def ends (p : SocketAddress) : Fact → Prop
  | registered n _ => n.peer = p
  | dropped q _ => q = p
  | _ => False

theorem accepted?_eq_none {f : Fact} {p : SocketAddress} (hends : ¬ f.ends p)
    (hrolled : ∀ x now, f ≠ .rolled p x now) : f.accepted? p = none := by
  cases f with
  | registered n now => exact if_neg hends
  | rolled q x now =>
    refine if_neg ?_
    rintro rfl
    exact hrolled x now rfl
  | found | issued | dropped => rfl

end Fact

def issuedSalts (h : List Fact) : List Salt := h.filterMap Fact.salt?

/-- What a history says of a peer that has a session. -/
structure Account where
  /-- The registration accepted last. -/
  latest : NewSession
  /-- The salts accepted since the peer last had no session, oldest first. -/
  accepted : List Salt
  /-- The salts issued since the registration, oldest first. -/
  issued : List Salt
  /-- When the session was last registered, found or rolled. -/
  lastSeen : Nat

def Account.next (p : SocketAddress) : Option Account → Fact → Option Account
  | a, .registered n now => if n.peer = p then
      some ⟨n, (a.elim [] Account.accepted) ++ [n.peerSalt], [n.ownSalt], now⟩ else a
  | a, .found q now => if q = p then a.map ({ · with lastSeen := now }) else a
  | a, .rolled q x now => if q = p then
      a.map fun a => { a with accepted := a.accepted ++ [x], lastSeen := now } else a
  | a, .issued q x => if q = p then a.map fun a => { a with issued := a.issued ++ [x] } else a
  | a, .dropped q _ => if q = p then none else a

def account (p : SocketAddress) (h : List Fact) : Option Account := h.foldl (Account.next p) none

/-- The salts of a peer that a window of its session may still remember. -/
def acceptedBy (p : SocketAddress) (h : List Fact) : List Salt :=
  (account p h).elim [] Account.accepted

section
variable {p : SocketAddress} {h : List Fact}

@[simp] theorem account_concat (p : SocketAddress) (h : List Fact) (f : Fact) :
    account p (h ++ [f]) = Account.next p (account p h) f := by
  simp only [account, List.foldl_append, List.foldl_cons, List.foldl_nil]

theorem account_append_dropped (l : List SocketAddress) (cause : Cause) :
    account p (h ++ l.map (.dropped · cause)) = if p ∈ l then none else account p h := by
  induction l generalizing h with
  | nil => simp
  | cons q l ih =>
    rw [List.map_cons, List.append_cons, ih, account_concat]
    by_cases hq : q = p
    · simp [Account.next, hq]
    · simp [Account.next, hq, Ne.symm hq]

theorem account_concat_of_not_ends {a : Account} {f : Fact} (ha : account p h = some a)
    (hf : ¬ f.ends p) :
    account p (h ++ [f]) = some
      { latest := a.latest
        accepted := a.accepted ++ (f.accepted? p).toList
        issued := a.issued ++ (f.issued? p).toList
        lastSeen := (f.seen? p).getD a.lastSeen } := by
  rw [account_concat, ha]
  cases f with
  | registered n now =>
    have hn : ¬ n.peer = p := hf
    simp [Account.next, Fact.accepted?, Fact.issued?, Fact.seen?, hn]
  | found q now =>
    by_cases hq : q = p <;>
      simp [Account.next, Fact.accepted?, Fact.issued?, Fact.seen?, hq]
  | rolled q x now =>
    by_cases hq : q = p <;>
      simp [Account.next, Fact.accepted?, Fact.issued?, Fact.seen?, hq]
  | issued q x =>
    by_cases hq : q = p <;>
      simp [Account.next, Fact.accepted?, Fact.issued?, Fact.seen?, hq]
  | dropped q cause =>
    have hq : ¬ q = p := hf
    simp [Account.next, Fact.accepted?, Fact.issued?, Fact.seen?, hq]

theorem account_append_of_not_ends {a : Account} (ha : account p h = some a) {l : List Fact}
    (hl : ∀ f ∈ l, ¬ f.ends p) :
    account p (h ++ l) = some
      { latest := a.latest
        accepted := a.accepted ++ l.filterMap (·.accepted? p)
        issued := a.issued ++ l.filterMap (·.issued? p)
        lastSeen := (l.filterMap (·.seen? p)).getLastD a.lastSeen } := by
  induction l generalizing h a with
  | nil => simpa using ha
  | cons f l ih =>
    rw [List.append_cons, ih (account_concat_of_not_ends ha (hl f List.mem_cons_self))
      fun g hg => hl g (List.mem_cons_of_mem f hg)]
    have hlast : ∀ (o : Option Nat) (m : List Nat) (d : Nat),
        m.getLastD (o.getD d) = (o.toList ++ m).getLastD d := by
      intro o m d
      cases o with
      | none => rfl
      | some t =>
        cases m <;> simp only [Option.toList, Option.getD, List.singleton_append,
          List.getLastD_cons, List.getLastD_nil]
    have hcons : ∀ {β : Type} (g : Fact → Option β), (f :: l).filterMap g =
        (g f).toList ++ l.filterMap g := by
      intro β g
      cases hg : g f <;> simp [hg]
    simp only [hcons, List.append_assoc, hlast]

theorem registered_of_account_concat {a : Account} {f : Fact}
    (ha : account p (h ++ [f]) = some a) (hf : f.ends p) :
    a.latest.peer = p ∧ ∃ now, f = .registered a.latest now := by
  rw [account_concat] at ha
  cases f with
  | registered n now =>
    have hn : n.peer = p := hf
    rw [Account.next, if_pos hn] at ha
    obtain rfl := Option.some.inj ha
    exact ⟨hn, now, rfl⟩
  | dropped q cause =>
    have hq : q = p := hf
    rw [Account.next, if_pos hq] at ha
    cases ha
  | found | rolled | issued => exact hf.elim

theorem exists_of_account_concat {a : Account} {f : Fact}
    (ha : account p (h ++ [f]) = some a) (hf : ¬ f.ends p) :
    ∃ b, account p h = some b ∧ a.latest = b.latest := by
  cases hb : account p h with
  | none =>
    rw [account_concat, hb] at ha
    cases f with
    | registered n now =>
      have hn : ¬ n.peer = p := hf
      simp [Account.next, hn] at ha
    | found | rolled | issued | dropped => simp [Account.next] at ha
  | some b =>
    rw [account_concat_of_not_ends hb hf] at ha
    obtain rfl := Option.some.inj ha
    exact ⟨b, rfl, rfl⟩

/-- An account starts at the registration accepted last, and nothing since ended the session. -/
theorem exists_latest_of_account {a : Account} (ha : account p h = some a) :
    ∃ h₁ now h₂, h = h₁ ++ .registered a.latest now :: h₂ ∧ a.latest.peer = p ∧
      ∀ f ∈ h₂, ¬ f.ends p := by
  induction h using List.reverseRecOn generalizing a with
  | nil => cases ha
  | append_singleton h f ih =>
    by_cases hf : f.ends p
    · obtain ⟨hp, now, rfl⟩ := registered_of_account_concat ha hf
      exact ⟨h, now, [], rfl, hp, nofun⟩
    · obtain ⟨b, hb, hlatest⟩ := exists_of_account_concat ha hf
      rw [hlatest]
      obtain ⟨h₁, now, h₂, rfl, hp, h₂f⟩ := ih hb
      refine ⟨h₁, now, h₂ ++ [f], by simp, hp, ?_⟩
      intro g hg
      rcases List.mem_append.1 hg with hg | hg
      · exact h₂f g hg
      · rw [List.mem_singleton.1 hg]
        exact hf

theorem account_registered {n : NewSession} {now : Nat} {l : List Fact} (hn : n.peer = p)
    (hl : ∀ f ∈ l, ¬ f.ends p) :
    account p (h ++ .registered n now :: l) = some
      { latest := n
        accepted := acceptedBy p h ++ n.peerSalt :: l.filterMap (·.accepted? p)
        issued := n.ownSalt :: l.filterMap (·.issued? p)
        lastSeen := (l.filterMap (·.seen? p)).getLastD now } := by
  have hfirst : account p (h ++ [.registered n now]) =
      some ⟨n, acceptedBy p h ++ [n.peerSalt], [n.ownSalt], now⟩ := by
    rw [account_concat, Account.next, if_pos hn]
    rfl
  rw [List.append_cons, account_append_of_not_ends hfirst hl]
  simp

theorem getLast?_seen {a : Account} (ha : account p h = some a) :
    (h.filterMap (·.seen? p)).getLast? = some a.lastSeen := by
  obtain ⟨h₁, now, h₂, rfl, hp, hl⟩ := exists_latest_of_account ha
  rw [account_registered hp hl] at ha
  rw [← Option.some.inj ha, List.filterMap_append,
    List.filterMap_cons_some
      (show Fact.seen? p (.registered a.latest now) = some now from if_pos hp),
    List.getLast?_append_cons, List.getLast?_cons, List.getLastD_eq_getLast?]

theorem issued?_sublist_issuedSalts (p : SocketAddress) (h : List Fact) :
    (h.filterMap (·.issued? p)).Sublist (issuedSalts h) := by
  induction h with
  | nil => exact .refl _
  | cons f h ih =>
    have hle : ∀ x, f.issued? p = some x → f.salt? = some x := by
      intro x hx
      cases f with
      | registered n now => exact (Option.ite_none_right_eq_some.1 hx).2
      | issued q y => exact (Option.ite_none_right_eq_some.1 hx).2
      | found | rolled | dropped => cases hx
    cases hi : f.issued? p with
    | some x =>
      rw [issuedSalts, List.filterMap_cons_some hi, List.filterMap_cons_some (hle x hi)]
      exact ih.cons_cons x
    | none =>
      rw [List.filterMap_cons_none hi]
      cases hs : f.salt? with
      | some x =>
        rw [issuedSalts, List.filterMap_cons_some hs]
        exact ih.cons x
      | none =>
        rw [issuedSalts, List.filterMap_cons_none hs]
        exact ih

theorem eq_of_salt? (hn : (issuedSalts h).Nodup) {f g : Fact} (hf : f ∈ h) (hg : g ∈ h) {x : Salt}
    (hfx : f.salt? = some x) (hgx : g.salt? = some x) : f = g := by
  induction h with
  | nil => cases hf
  | cons k h ih =>
    have hin : ∀ {g : Fact}, g ∈ h → g.salt? = some x → x ∈ issuedSalts h := fun hg hgx =>
      List.mem_filterMap.2 ⟨_, hg, hgx⟩
    rw [List.mem_cons] at hf hg
    cases hk : k.salt? with
    | none =>
      rw [issuedSalts, List.filterMap_cons_none hk] at hn
      refine ih hn (hf.resolve_left ?_) (hg.resolve_left ?_)
      · rintro rfl
        rw [hfx] at hk
        cases hk
      · rintro rfl
        rw [hgx] at hk
        cases hk
    | some y =>
      rw [issuedSalts, List.filterMap_cons_some hk, List.nodup_cons] at hn
      rcases hf with rfl | hf
      · obtain rfl := Option.some.inj (hfx.symm.trans hk)
        exact (hg.resolve_right fun hg => hn.1 (hin hg hgx)).symm
      · rcases hg with rfl | hg
        · obtain rfl := Option.some.inj (hgx.symm.trans hk)
          exact absurd (hin hf hfx) hn.1
        · exact ih hn.2 hf hg

theorem issued_sublist {a : Account} (ha : account p h = some a) :
    a.issued.Sublist (h.filterMap (·.issued? p)) := by
  obtain ⟨h₁, now, h₂, rfl, hp, hl⟩ := exists_latest_of_account ha
  rw [account_registered hp hl] at ha
  rw [← Option.some.inj ha, List.filterMap_append,
    List.filterMap_cons_some (show Fact.issued? p (.registered a.latest now) = _ from if_pos hp)]
  exact List.sublist_append_right _ _

theorem issued_sublist_issuedSalts {a : Account} (ha : account p h = some a) :
    a.issued.Sublist (issuedSalts h) :=
  (issued_sublist ha).trans (issued?_sublist_issuedSalts p h)

/-- While a session is not dropped, what is accepted for its peer is remembered in a row, also when
the session is replaced. -/
theorem acceptedBy_append {a : Account} (ha : account p h = some a) {l : List Fact}
    (hl : ∀ cause, Fact.dropped p cause ∉ l) :
    acceptedBy p (h ++ l) = a.accepted ++ l.filterMap (·.accepted? p) := by
  induction l generalizing h a with
  | nil => simp [acceptedBy, ha]
  | cons f l ih =>
    have hl' : ∀ cause, Fact.dropped p cause ∉ l :=
      fun cause hm => hl cause (List.mem_cons_of_mem f hm)
    rw [List.append_cons]
    by_cases hf : f.ends p
    · cases f with
      | registered n now =>
        have hn : n.peer = p := hf
        have hfirst : account p (h ++ [.registered n now]) =
            some ⟨n, a.accepted ++ [n.peerSalt], [n.ownSalt], now⟩ := by
          rw [account_concat, Account.next, if_pos hn, ha]
          rfl
        rw [ih hfirst hl']
        simp [Fact.accepted?, hn]
      | dropped q cause =>
        have hq : q = p := hf
        exact absurd (hq ▸ List.mem_cons_self) (hl cause)
      | found | rolled | issued => exact hf.elim
    · rw [ih (account_concat_of_not_ends ha hf) hl']
      cases hg : f.accepted? p <;> simp [hg]

end

/-- A session is what its account says. -/
structure Session.Follows (e : Session) (a : Account) : Prop where
  key : e.key = a.latest.key
  publicKey : e.publicKey = a.latest.publicKey
  authSalt : e.authSalt = a.latest.peerSalt
  peerSalt : a.accepted.getLast? = some e.peerSalt
  issued : e.issued = a.issued.rtake issuedHistory
  window : e.window.Remembers a.accepted
  lastSeen : e.lastSeen = a.lastSeen

/-- Salts are accepted for peers with a session only, and none that was among the last `w` accepted
before it. -/
def Fresh (w : Nat) : List Fact → Prop :=
  Throughout fun u f => ∀ p x, f.accepted? p = some x →
    (∃ a, account p (u ++ [f]) = some a) ∧ x ∉ (acceptedBy p u).rtake w

theorem Fresh.append_dropped {w : Nat} {h : List Fact} (hh : Fresh w h)
    (l : List SocketAddress) (cause : Cause) : Fresh w (h ++ l.map (.dropped · cause)) := by
  refine Throughout.append hh ?_
  intro f hf u p x hx
  obtain ⟨q, -, rfl⟩ := List.mem_map.1 hf
  cases hx

/-- Sessions expire only once they have been idle for longer than `ttl`. -/
def Patient (ttl : Nat) : List Fact → Prop :=
  Throughout fun u f => ∀ p now, f = .dropped p (.expired now) →
    ∃ seen, (u.filterMap (·.seen? p)).getLast? = some seen ∧ ttl < now - seen

theorem Patient.append_dropped {ttl : Nat} {h : List Fact} (hh : Patient ttl h)
    {l : List SocketAddress} {cause : Cause}
    (hl : ∀ q ∈ l, ∀ now, cause = .expired now →
      ∃ seen, (h.filterMap (·.seen? q)).getLast? = some seen ∧ ttl < now - seen) :
    Patient ttl (h ++ l.map (.dropped · cause)) := by
  induction l generalizing h with
  | nil => rwa [List.map_nil, List.append_nil]
  | cons q l ih =>
    rw [List.map_cons, List.append_cons]
    refine ih (hh.concat fun p now heq => ?_) fun p hp now hcause => ?_
    · obtain ⟨rfl, hcause⟩ := Fact.dropped.inj heq
      exact hl q List.mem_cons_self now hcause
    · rw [List.filterMap_append]
      simpa [Fact.seen?] using hl p (List.mem_cons_of_mem q hp) now hcause

namespace SessionStore

/-- A table set up with a configuration has a history if every session in it is what the history
says, and there is none where the history knows of none. -/
structure Tracks (s : SessionStore) (c : SecurityConfig) (h : List Fact) : Prop where
  limits : s.limits = (ofConfig c).limits
  coherent : s.Coherent
  sessions : ∀ p, Option.Rel Session.Follows (s.sessions.get? p) (account p h)
  capacity : ∀ p e, s.sessions.get? p = some e → e.window.capacity = s.replayWindow
  fresh : Fresh s.replayWindow h
  patient : Patient s.ttl h
  indexed : (issuedSalts h).Nodup → s.Indexed

variable {s t : SessionStore} {c : SecurityConfig} {h : List Fact} {p q : SocketAddress} {now : Nat}

theorem Tracks.replayWindow_eq (ht : s.Tracks c h) : s.replayWindow = c.replayWindow.toNat :=
  congrArg Prod.fst ht.limits

theorem Tracks.maxSessions_eq (ht : s.Tracks c h) : s.maxSessions = c.maxSessions.toNat :=
  congrArg (·.2.1) ht.limits

theorem Tracks.ttl_eq (ht : s.Tracks c h) : s.ttl = c.sessionTtl.nanos :=
  congrArg (·.2.2) ht.limits

theorem Tracks.of_session (ht : s.Tracks c h) {e : Session} (he : s.sessions.get? p = some e) :
    ∃ a, account p h = some a ∧ e.Follows a := by
  have hr := ht.sessions p
  rw [he] at hr
  cases ha : account p h with
  | none => rw [ha] at hr; cases hr
  | some a => rw [ha] at hr; cases hr with | some hf => exact ⟨a, rfl, hf⟩

theorem Tracks.of_account (ht : s.Tracks c h) {a : Account} (ha : account p h = some a) :
    ∃ e, s.sessions.get? p = some e ∧ e.Follows a := by
  have hr := ht.sessions p
  rw [ha] at hr
  cases he : s.sessions.get? p with
  | none => rw [he] at hr; cases hr
  | some e => rw [he] at hr; cases hr with | some hf => exact ⟨e, rfl, hf⟩

theorem Tracks.account_eq_none_iff (ht : s.Tracks c h) :
    account p h = none ↔ s.sessions.get? p = none := by
  have hr := ht.sessions p
  constructor
  · intro ha
    rw [ha] at hr
    cases he : s.sessions.get? p with
    | none => rfl
    | some e => rw [he] at hr; cases hr
  · intro he
    rw [he] at hr
    cases ha : account p h with
    | none => rfl
    | some a => rw [ha] at hr; cases hr

/-- A salt names a session exactly while it is among the last that were issued to its peer. -/
theorem Tracks.named_iff (ht : s.Tracks c h) (hn : (issuedSalts h).Nodup) {a : Account}
    (ha : account p h = some a) {x : Salt} :
    s.bySalt.get? x = some p ↔ x ∈ a.issued.rtake issuedHistory := by
  obtain ⟨e, he, hf⟩ := ht.of_account ha
  rw [← hf.issued]
  constructor
  · intro hx
    obtain ⟨e', he', hm⟩ := ht.coherent x p hx
    obtain rfl := Option.some.inj (he.symm.trans he')
    exact hm
  · exact ht.indexed hn p e x he

theorem tracks_ofConfig (c : SecurityConfig) : (ofConfig c).Tracks c [] where
  limits := rfl
  coherent := coherent_empty rfl
  sessions _ := .none
  capacity _ _ he := nomatch he
  fresh := Throughout.nil
  patient := Throughout.nil
  indexed _ _ _ _ he := nomatch he

def peers (s : SessionStore) : List SocketAddress := s.sessions.entries.map Prod.fst

theorem mem_peers : p ∈ s.peers ↔ s.contains p = true := by
  simp only [peers, List.mem_map, Prod.exists, exists_and_right, exists_eq_right, contains,
    Table.contains, Option.isSome_iff_exists, Table.get?_eq_some_iff]

theorem contains_eq_false_iff : t.contains p = false ↔ t.sessions.get? p = none := by
  rw [contains, Table.contains, Option.isSome_eq_false_iff, Option.isNone_iff_eq_none]

/-- Where the sessions of some peers go and the others stay, the history goes on with the peers that
lost theirs. -/
theorem Tracks.drop (hs : s.Tracks c h) (ht : t.Coherent) (hl : t.limits = s.limits)
    {l : List SocketAddress} {cause : Cause}
    (hget : ∀ q, t.sessions.get? q = if q ∈ l then none else s.sessions.get? q)
    (hcause : ∀ q ∈ l, ∀ now, cause = .expired now →
      ∃ e, s.sessions.get? q = some e ∧ e.expired s.ttl now = true)
    (hidx : s.Indexed → t.Indexed) : t.Tracks c (h ++ l.map (.dropped · cause)) where
  limits := hl.trans hs.limits
  coherent := ht
  sessions p := by
    rw [account_append_dropped, hget]
    split
    · exact .none
    · exact hs.sessions p
  capacity p e he := by
    have hw : t.replayWindow = s.replayWindow := congrArg Prod.fst hl
    rw [hget] at he
    split at he
    · cases he
    · rw [hw]
      exact hs.capacity p e he
  fresh := by
    have hw : t.replayWindow = s.replayWindow := congrArg Prod.fst hl
    rw [hw]
    exact hs.fresh.append_dropped l cause
  patient := by
    have httl : t.ttl = s.ttl := congrArg (·.2.2) hl
    rw [httl]
    refine hs.patient.append_dropped fun q hq now hnow => ?_
    obtain ⟨e, he, hold⟩ := hcause q hq now hnow
    obtain ⟨a, ha, hf⟩ := hs.of_session he
    exact ⟨a.lastSeen, getLast?_seen ha, hf.lastSeen ▸ of_decide_eq_true hold⟩
  indexed hn := by
    refine hidx (hs.indexed ?_)
    simpa [issuedSalts, List.filterMap_map, Function.comp_def, Fact.salt?] using hn

theorem Tracks.sweep (hs : s.Tracks c h) (now : Nat) :
    (s.sweep now).Tracks c (h ++ (s.expiredPeers now).map (.dropped · (.expired now))) := by
  refine hs.drop hs.coherent.sweep (sweep_limits hs.coherent) (sessions_sweep hs.coherent)
    (fun q hq t ht => ?_) fun hi => hi.sweep hs.coherent
  obtain rfl := Cause.expired.inj ht
  exact mem_expiredPeers.1 hq

theorem Tracks.forget (hs : s.Tracks c h) {cause : Cause}
    (hcause : ∀ now, cause = .expired now →
      ∃ e, s.sessions.get? p = some e ∧ e.expired s.ttl now = true) :
    (s.forget p).Tracks c (h ++ [.dropped p cause]) := by
  refine hs.drop (l := [p]) (hs.coherent.forget p) (limits_forget s p) (fun q => ?_)
    (fun q hq => List.mem_singleton.1 hq ▸ hcause) fun hi => hi.forget hs.coherent p
  rw [sessions_forget]
  simp only [List.mem_singleton]

theorem Tracks.clear (hs : s.Tracks c h) :
    s.clear.Tracks c (h ++ s.peers.map (.dropped · .cleared)) := by
  refine hs.drop (t := s.clear) (coherent_empty rfl) rfl (fun q => ?_)
    (fun _ _ _ hnow => nomatch hnow) fun _ _ _ _ he => nomatch he
  rw [show s.clear.sessions.get? q = none from rfl, eq_comm, ite_eq_left_iff]
  exact fun hq => contains_eq_false_iff.1 (Bool.not_eq_true _ ▸ fun hc => hq (mem_peers.2 hc))

theorem Tracks.issued_sublist (hs : s.Tracks c h) {e : Session} (he : s.sessions.get? p = some e) :
    e.issued.Sublist (issuedSalts h) := by
  obtain ⟨a, hacc, hf⟩ := hs.of_session he
  rw [hf.issued]
  exact (rtake_sublist a.issued issuedHistory).trans (issued_sublist_issuedSalts hacc)

theorem Tracks.notMem_issued (hs : s.Tracks c h) {f : Fact} {x : Salt} (hf : f.salt? = some x)
    (hn : (issuedSalts (h ++ [f])).Nodup) {e : Session} (he : s.sessions.get? p = some e) :
    x ∉ e.issued := by
  rw [issuedSalts, List.filterMap_append, List.filterMap_cons_some hf, List.filterMap_nil] at hn
  intro hx
  exact (List.nodup_append.1 hn).2.2 x ((hs.issued_sublist he).subset hx) x
    (List.mem_singleton_self x) rfl

/-- One more fact, which only one peer's session and account follow. -/
theorem Tracks.put (hs : s.Tracks c h) (f : Fact) (p : SocketAddress) {e : Session} {a : Account}
    (ht : t.Coherent) (hl : t.limits = s.limits)
    (hget : ∀ q, t.sessions.get? q = if q = p then some e else s.sessions.get? q)
    (hacc : ∀ q, account q (h ++ [f]) = if q = p then some a else account q h)
    (hf : e.Follows a) (hcap : e.window.capacity = s.replayWindow)
    (hfresh : ∀ q x, f.accepted? q = some x →
      q = p ∧ x ∉ (acceptedBy q h).rtake s.replayWindow)
    (hstays : ∀ q cause, f ≠ .dropped q cause)
    (hidx : (issuedSalts (h ++ [f])).Nodup → s.Indexed → t.Indexed) :
    t.Tracks c (h ++ [f]) where
  limits := hl.trans hs.limits
  coherent := ht
  sessions q := by
    rw [hget, hacc]
    split
    · exact .some hf
    · exact hs.sessions q
  capacity q e' he' := by
    have hw : t.replayWindow = s.replayWindow := congrArg Prod.fst hl
    rw [hw]
    rw [hget] at he'
    split at he'
    · obtain rfl := Option.some.inj he'
      exact hcap
    · exact hs.capacity q e' he'
  fresh := by
    have hw : t.replayWindow = s.replayWindow := congrArg Prod.fst hl
    rw [hw]
    refine Throughout.concat hs.fresh fun q x hx => ?_
    obtain ⟨hq, hx⟩ := hfresh q x hx
    exact ⟨⟨a, by rw [hacc, if_pos hq]⟩, hx⟩
  patient := by
    have httl : t.ttl = s.ttl := congrArg (·.2.2) hl
    rw [httl]
    exact hs.patient.concat fun q now hf => absurd hf (hstays q _)
  indexed hn := hidx hn (hs.indexed (hn.sublist (by
    rw [issuedSalts, issuedSalts, List.filterMap_append]
    exact List.sublist_append_left _ _)))

theorem Tracks.establish (hs : s.Tracks c h) {n : NewSession} {window : SaltWindow}
    (hw : window.Remembers (acceptedBy n.peer h ++ [n.peerSalt]))
    (hc : window.capacity = s.replayWindow)
    (hfresh : n.peerSalt ∉ (acceptedBy n.peer h).rtake s.replayWindow) :
    (s.establish now n window).Tracks c (h ++ [.registered n now]) := by
  refine hs.put (.registered n now) n.peer (e := n.opened window now)
    (a := ⟨n, acceptedBy n.peer h ++ [n.peerSalt], [n.ownSalt], now⟩)
    (hs.coherent.establish now n window) (limits_establish now n window s)
    (sessions_establish now n window s) ?_ ?_ hc ?_ nofun ?_
  · intro q
    rw [account_concat]
    by_cases hq : q = n.peer
    · subst hq
      simp [Account.next, acceptedBy]
    · simp [Account.next, hq, Ne.symm hq]
  · exact ⟨rfl, rfl, rfl, List.getLast?_concat, rfl, hw, rfl⟩
  · intro q x hx
    by_cases hq : n.peer = q
    · subst hq
      obtain rfl : n.peerSalt = x := by simpa [Fact.accepted?] using hx
      exact ⟨rfl, hfresh⟩
    · simp [Fact.accepted?, hq] at hx
  · exact fun hn hi => hi.establish now n window hs.coherent fun q d hd =>
      hs.notMem_issued rfl hn hd

theorem Tracks.register (hs : s.Tracks c h) {m : Memory} {n : NewSession}
    (hr : (s.register m now n).1 = .accepted) :
    (s.register m now n).2.Tracks c
      (h ++ (s.expiredPeers now).map (.dropped · (.expired now)) ++ [.registered n now]) := by
  have hsw := hs.sweep now
  rcases register_cases s m now n with ⟨e, -, -, heq⟩ | ⟨e, he, -, ha, heq⟩ | ⟨-, -, heq⟩ |
    ⟨he, -, -, heq⟩ | ⟨-, -, -, heq⟩
  · rw [heq] at hr
    cases hr
  · rw [heq]
    obtain ⟨a, hacc, hf⟩ := hsw.of_session he
    have hby : acceptedBy n.peer
        (h ++ (s.expiredPeers now).map (.dropped · (.expired now))) = a.accepted := by
      rw [acceptedBy, hacc]
      rfl
    refine hsw.establish ?_ ?_ ?_
    · rw [hby]
      exact hf.window.accept ha
    · rw [SaltWindow.capacity_accept]
      exact hsw.capacity n.peer e he
    · rw [hby, ← hsw.capacity n.peer e he]
      exact hf.window.accept_eq_true_iff.1 ha
  · rw [heq] at hr
    cases hr
  · rw [heq]
    have hby : acceptedBy n.peer
        (h ++ (s.expiredPeers now).map (.dropped · (.expired now))) = [] := by
      rw [acceptedBy, hsw.account_eq_none_iff.2 he]
      rfl
    have hopen := SaltWindow.remembers_ofCapacity (s.sweep now).replayWindow
    refine hsw.establish ?_ ?_ ?_
    · rw [hby]
      refine hopen.accept (hopen.accept_eq_true_iff.2 ?_)
      rw [List.rtake_nil]
      exact List.not_mem_nil
    · rw [SaltWindow.capacity_accept]
      rfl
    · rw [hby, List.rtake_nil]
      exact List.not_mem_nil
  · rw [heq] at hr
    cases hr

theorem Tracks.found (hs : s.Tracks c h) {e : Session} (he : s.sessions.get? p = some e) :
    Tracks { s with sessions := s.sessions.insert p { e with lastSeen := now } }
      c (h ++ [.found p now]) := by
  obtain ⟨a, hacc, hf⟩ := hs.of_session he
  refine hs.put (.found p now) p (e := { e with lastSeen := now })
    (a := { a with lastSeen := now }) (hs.coherent.put he rfl) rfl
    (Table.get?_insert s.sessions p · _) ?_ { hf with lastSeen := rfl } (hs.capacity p e he)
    (fun _ _ hx => nomatch hx) nofun fun _ hi => hi.put he rfl
  intro q
  rw [account_concat]
  by_cases hq : q = p
  · subst hq
    simp [Account.next, hacc]
  · simp [Account.next, hq, Ne.symm hq]

theorem Tracks.rolled (hs : s.Tracks c h) {e : Session} {x : Salt}
    (he : s.sessions.get? p = some e) (hx : (e.window.accept x).1 = true) :
    Tracks { s with
        sessions := s.sessions.insert p
          { e with window := (e.window.accept x).2, peerSalt := x, lastSeen := now } }
      c (h ++ [.rolled p x now]) := by
  obtain ⟨a, hacc, hf⟩ := hs.of_session he
  refine hs.put (.rolled p x now) p
    (e := { e with window := (e.window.accept x).2, peerSalt := x, lastSeen := now })
    (a := { a with accepted := a.accepted ++ [x], lastSeen := now })
    (hs.coherent.put he rfl) rfl (Table.get?_insert s.sessions p · _) ?_
    { hf with
      peerSalt := List.getLast?_concat
      window := hf.window.accept hx
      lastSeen := rfl } ?_ ?_ nofun fun _ hi => hi.put he rfl
  · intro q
    rw [account_concat]
    by_cases hq : q = p
    · subst hq
      simp [Account.next, hacc]
    · simp [Account.next, hq, Ne.symm hq]
  · exact (SaltWindow.capacity_accept e.window x).trans (hs.capacity p e he)
  · intro q y hy
    by_cases hq : p = q
    · subst hq
      obtain rfl : x = y := by simpa [Fact.accepted?] using hy
      rw [acceptedBy, hacc, ← hs.capacity p e he]
      exact ⟨rfl, hf.window.accept_eq_true_iff.1 hx⟩
    · simp [Fact.accepted?, hq] at hy

theorem Tracks.issue (hs : s.Tracks c h) {e : Session} {x : Salt}
    (he : s.sessions.get? p = some e) : (s.issue p x).Tracks c (h ++ [.issued p x]) := by
  obtain ⟨a, hacc, hf⟩ := hs.of_session he
  refine hs.put (.issued p x) p (e := e.learn x) (a := { a with issued := a.issued ++ [x] })
    (hs.coherent.issue p x) (limits_issue s p x) ?_ ?_
    { hf with issued := Session.issued_learn hf.issued x } (hs.capacity p e he)
    (fun _ _ hx => nomatch hx) nofun ?_
  · intro q
    rw [sessions_issue, he]
    rfl
  · intro q
    rw [account_concat]
    by_cases hq : q = p
    · subst hq
      simp [Account.next, hacc]
    · simp [Account.next, hq, Ne.symm hq]
  · intro hn hi
    have hnew : x ∉ e.issued := hs.notMem_issued rfl hn he
    refine hi.issue he ?_ fun q d hd => hs.notMem_issued rfl hn hd
    rw [issuedSalts, List.filterMap_append] at hn
    have hnodup : e.issued.Nodup :=
      (List.nodup_append.1 hn).1.sublist (hs.issued_sublist he)
    rw [List.nodup_append]
    refine ⟨hnodup, List.nodup_singleton x, ?_⟩
    intro y hy z hz hyz
    exact hnew (List.mem_singleton.1 hz ▸ hyz ▸ hy)

end SessionStore

end SealedDatagram

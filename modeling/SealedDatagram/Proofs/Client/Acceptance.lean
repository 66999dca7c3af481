import SealedDatagram.Proofs.Client.Phases
/-!
What a client accepts. A packet is accepted if it was sealed with the key proposed last, under one
of the last salts that the client issued, and brings a salt that the window does not remember. The
Htua and the Data packets share one window, so that a salt accepted from one of them is not accepted
from another until the window is full of others.
-/

namespace SealedDatagram

namespace Client

/-- What a client remembers of the salts on record that it accepted. -/
structure Wary (c : Client) (capacity : Nat) (l : List Fact) : Prop where
  window : c.window.Remembers (l.filterMap Fact.accepted?)
  holds : c.window.capacity = capacity
  fresh : Throughout (fun u f => ∀ x, f.accepted? = some x →
    x ∉ (u.filterMap Fact.accepted?).rtake capacity) l
  confirmed : l.countP Fact.confirms =
    if c.phase ∈ [Phase.authenticated, .streaming] then 1 else 0

theorem wary_fresh (keyPair : KeyPair) (pin : Option PublicKey) (capacity : Nat) :
    (fresh keyPair pin capacity).Wary capacity [] where
  window := SaltWindow.remembers_ofCapacity capacity
  holds := rfl
  fresh := Throughout.nil
  confirmed := rfl

theorem Fact.accept_of_fits {c : Client} {f : Fact} {x : Salt} (hf : f.Fits c)
    (hx : f.accepted? = some x) : (c.window.accept x).1 = true := by
  cases f with
  | confirmed header y =>
    obtain rfl := Option.some.inj hx
    exact hf.2.2.2
  | opened header y =>
    obtain rfl := Option.some.inj hx
    exact hf.2.2
  | exchanged | proposed | sent => cases hx

section
variable [CipherSuite] {c : Client} {capacity : Nat} {l : List Fact} {f : Fact} {x : Salt}
  {e : Env Client} {b : Bytes}

theorem Fact.window_next (c : Client) (f : Fact) : (f.next c).window =
    match f.accepted? with
    | some x => (c.window.accept x).2
    | none => c.window := by
  cases f <;> rfl

theorem Wary.next (hc : c.Wary capacity l) (hf : f.Fits c) :
    (f.next c).Wary capacity (l ++ [f]) := by
  have haccepted : (l ++ [f]).filterMap Fact.accepted? =
      l.filterMap Fact.accepted? ++ f.accepted?.toList := by
    rw [List.filterMap_append, List.filterMap_cons, List.filterMap_nil]
    cases f.accepted? <;> rfl
  have hwindow := f.window_next c
  refine ⟨?_, ?_, hc.fresh.concat ?_, ?_⟩
  · rw [haccepted, hwindow]
    cases hx : f.accepted? with
    | none =>
      rw [Option.toList_none, List.append_nil]
      exact hc.window
    | some x => exact hc.window.accept (Fact.accept_of_fits hf hx)
  · rw [hwindow]
    cases f.accepted? with
    | none => exact hc.holds
    | some x => exact (c.window.capacity_accept x).trans hc.holds
  · intro x hx
    rw [← hc.holds]
    exact hc.window.accept_eq_true_iff.1 (Fact.accept_of_fits hf hx)
  · -- a session is confirmed once, when it leaves the phase in which it can be
    have hcount := hc.confirmed
    rw [List.countP_append]
    cases f with
    | exchanged info header =>
      rw [hf.1] at hcount
      exact hcount
    | proposed key x => exact hcount
    | confirmed header x =>
      rw [hf.1] at hcount
      exact congrArg (· + 1) hcount
    | sent x =>
      rw [if_pos (show c.phase ∈ [Phase.authenticated, .streaming] from hf)] at hcount
      exact hcount
    | opened header x =>
      rw [if_pos hf.1] at hcount
      exact hcount

/-- The datagram that an accepted salt was read from is an Htua or a Data packet that was sealed
with the key of the session. -/
theorem datagram_of_taken (hf : f ∈ taken c b) (hx : f.accepted? = some x) :
    ∃ key header pad, c.sessionKey = some key ∧ pad.length = Sealed.padSize ∧
      (f = .confirmed header x ∧ b = (Htua.mk x).wire key header pad ∨
        f = .opened header x ∧ ∃ payload, payload.length ≤ Data.maxPayload ∧
          b = (Data.mk x payload).wire key header pad) := by
  unfold taken at hf
  split at hf
  · obtain ⟨_, _, -, -, rfl⟩ := exists_of_mem_noted hf
    cases hx
  · obtain ⟨key, r, hk, hr, rfl⟩ := exists_of_mem_noted hf
    obtain ⟨text, pad, rfl, hp, hb⟩ := SealedKind.opened_eq_ok_iff.1 hr
    obtain rfl := Option.some.inj hx
    exact ⟨key, r.header, pad, hk, hp, .inl ⟨rfl, hb⟩⟩
  · obtain ⟨key, r, hk, hr, rfl⟩ := exists_of_mem_noted hf
    obtain ⟨text, pad, ⟨hlen, rfl⟩, hp, hb⟩ := SealedKind.opened_eq_ok_iff.1 hr
    obtain rfl := Option.some.inj hx
    exact ⟨key, r.header, pad, hk, hp, .inr ⟨rfl, r.packet.payload, hlen, hb⟩⟩
  · cases hf

theorem exchanged_or_accepted_of_taken (hf : f ∈ taken c b) :
    (∃ info header, f = .exchanged info header) ∨ ∃ y, f.accepted? = some y := by
  unfold taken at hf
  split at hf
  · obtain ⟨_, r, -, -, rfl⟩ := exists_of_mem_noted hf
    exact .inl ⟨_, _, rfl⟩
  · obtain ⟨_, r, -, -, rfl⟩ := exists_of_mem_noted hf
    exact .inr ⟨_, rfl⟩
  · obtain ⟨_, r, -, -, rfl⟩ := exists_of_mem_noted hf
    exact .inr ⟨_, rfl⟩
  · cases hf

theorem Request.mem_taken {r : Request} (hf : f ∈ r.facts e) (hx : f.accepted? = some x) :
    f ∈ taken (r.run.exec e).2.state r.datagram := by
  unfold facts at hf
  rcases hxe : r.run.exec e with ⟨err | reply, e'⟩
  · rw [hxe] at hf
    cases hf
  · rw [hxe] at hf
    cases reply with
    | packet b =>
      obtain ⟨y, hy⟩ := exists_issued_of_made (show f ∈ made e'.state b from hf)
      cases f <;> cases hx <;> cases hy
    | server | payload => exact hf

theorem Request.accepted_of_facts {r : Request} (hf : f ∈ r.facts e) (hx : f.accepted? = some x) :
    ∃ key header pad, e.state.sessionKey = some key ∧ header ∈ e.state.issued ∧
      pad.length = Sealed.padSize ∧
      (f = .confirmed header x ∧ r.datagram = (Htua.mk x).wire key header pad ∨
        f = .opened header x ∧ ∃ payload, payload.length ≤ Data.maxPayload ∧
          r.datagram = (Data.mk x payload).wire key header pad) ∧
      (r.run.exec e).2.state.peerSalt = some x := by
  obtain ⟨key, header, pad, hk, hp, hb⟩ := datagram_of_taken (mem_taken hf hx) hx
  rcases r.facts_cases e with ⟨f', hfacts, hfits, hstate⟩ | ⟨hfacts, -⟩
  · rw [hfacts, List.mem_singleton] at hf
    subst hf
    rw [hstate] at hk ⊢
    refine ⟨key, header, pad, ?_, ?_, hp, hb, ?_⟩
    · rcases hb with ⟨rfl, -⟩ | ⟨rfl, -⟩ <;> exact hk
    · rcases hb with ⟨rfl, -⟩ | ⟨rfl, -⟩
      · exact hfits.2.2.1
      · exact hfits.2.1
    · rcases hb with ⟨rfl, -⟩ | ⟨rfl, -⟩ <;> rfl
  · rw [hfacts] at hf
    cases hf

theorem facts_takeHtua (hx : ((takeHtua b).exec e).1 = .ok ()) :
    ∃ header y, (Request.takeHtua b).facts e = [.confirmed header y] := by
  rcases exec_takeHtua_cases b e with ⟨key, header, y, pad, -, hk, hp, rfl, -, -, hxe⟩ | ⟨err, hxe⟩
  · have hrun : (Request.takeHtua ((Htua.mk y).wire key header pad)).run.exec e =
        (.ok (.payload none), { e with state := e.state.accepted .authenticated y }) :=
      exec_reply hxe fun _ => .payload none
    exact ⟨header, y, (facts_of_exec hrun).trans (taken_htua hk hp)⟩
  · rw [hxe] at hx
    cases hx

theorem facts_openData {payload : Bytes} (hx : ((openData b).exec e).1 = .ok payload) :
    ∃ header y, (Request.openData b).facts e = [.opened header y] := by
  rcases exec_openData_cases b e with
    ⟨key, header, d, pad, -, hk, hlen, hp, rfl, -, -, hxe⟩ | ⟨err, _, hxe⟩
  · have hrun : (Request.openData (d.wire key header pad)).run.exec e =
        (.ok (.payload (some d.payload)), { e with state := e.state.accepted .streaming d.salt }) :=
      exec_reply hxe fun a => .payload (some a)
    exact ⟨header, d.salt, (facts_of_exec hrun).trans (taken_data hk hlen hp)⟩
  · rw [hxe] at hx
    cases hx

/-- In every run a client accepts only what was sealed with its key under one of the last salts it
issued; it takes one Htua; and between two packets with one salt the window is filled with others.
-/
theorem accepts_recent_and_fresh (keyPair : KeyPair) (pin : Option PublicKey) (capacity : Nat)
    (e : Env Client) (inputs : List Input) :
    let start := { e with state := Client.fresh keyPair pin capacity }
    let x := recorder.after start inputs
    let l := recorder.record start inputs
    (∀ (r : Request) f y, f ∈ r.facts x → f.accepted? = some y →
      ∃ key header pad, x.state.sessionKey = some key ∧
        header ∈ (l.filterMap Fact.issued?).rtake issuedHistory ∧ pad.length = Sealed.padSize ∧
        (f = .confirmed header y ∧ r.datagram = (Htua.mk y).wire key header pad ∨
          f = .opened header y ∧ ∃ payload, payload.length ≤ Data.maxPayload ∧
            r.datagram = (Data.mk y payload).wire key header pad) ∧
        (next (.request r) x).state.peerSalt = some y) ∧
    (∀ b, ((takeHtua b).exec x).1 = .ok () →
      ∃ header y, (Request.takeHtua b).facts x = [.confirmed header y]) ∧
    (∀ b payload, ((openData b).exec x).1 = .ok payload →
      ∃ header y, (Request.openData b).facts x = [.opened header y]) ∧
    (∀ b payload, ((receive b).exec x).1 = .ok payload →
      ∃ f, (Request.receive b).facts x = [f] ∧
        ((∃ info header, f = .exchanged info header) ∨ ∃ y, f.accepted? = some y)) ∧
    (∀ l₁ l₂ l₃ f₁ f₂ y, l = l₁ ++ f₁ :: (l₂ ++ f₂ :: l₃) → f₁.accepted? = some y →
      f₂.accepted? = some y →
        capacity ≤ ((l₂.filterMap Fact.accepted?).filter (· ≠ y)).length) ∧
    l.countP Fact.confirms ≤ 1 := by
  intro start x l
  have horderly : x.state.Orderly pin l :=
    keeps (P := fun c l => c.Orderly pin l) (fun _ _ _ hc hf => hc.next hf)
      (orderly_fresh keyPair pin capacity) inputs
  have hwary : x.state.Wary capacity l :=
    keeps (P := fun c l => c.Wary capacity l) (fun _ _ _ hc hf => hc.next hf)
      (wary_fresh keyPair pin capacity) inputs
  refine ⟨?_, fun b hx => facts_takeHtua hx, fun b payload hx => facts_openData hx,
    ?_, ?_, ?_⟩
  · intro r f y hf hy
    obtain ⟨key, header, pad, hk, hi, hp, hb, hpeer⟩ := Request.accepted_of_facts hf hy
    rw [horderly.issued] at hi
    exact ⟨key, header, pad, hk, hi, hp, hb, hpeer⟩
  · intro b payload hx
    have hrun : (Request.receive b).run.exec x =
        (.ok (.payload payload), ((receive b).exec x).2) :=
      exec_reply (Prod.ext hx rfl) .payload
    have hread : (Request.receive b).facts x = taken ((receive b).exec x).2.state b :=
      facts_of_exec hrun
    rcases (Request.receive b).facts_cases x with ⟨f, hf, -, -⟩ | ⟨-, -, hr⟩
    · rw [hf] at hread
      exact ⟨f, hf, exchanged_or_accepted_of_taken (hread ▸ List.mem_singleton_self f)⟩
    · rw [hrun] at hr
      cases hr rfl
  · intro l₁ l₂ l₃ f₁ f₂ y hl h₁ h₂
    have hnot := hwary.fresh (l₁ ++ f₁ :: l₂) f₂ l₃ (by rw [hl]; simp) y h₂
    rw [List.filterMap_append, List.filterMap_cons, h₁] at hnot
    exact le_length_of_notMem_rtake hnot
  · rw [hwary.confirmed]
    split <;> omega

end

section
open SealedDatagram.Sample

/-- A client that remembers one salt takes a salt once more when another one has come between. -/
theorem accepts_again_once_forgotten :
    let htua := (Htua.mk (salt 2)).wire key (salt 1) SealedDatagram.Sample.pad
    let data (x : Salt) := (Data.mk x []).wire key (salt 1) SealedDatagram.Sample.pad
    let inputs := Sample.proposal ++ [Input.request (.takeHtua htua),
      .request (.openData (data (salt 3))), .request (.openData (data (salt 2)))]
    let l := [Fact.exchanged info (salt 9), .proposed key (salt 1), .confirmed (salt 1) (salt 2),
      .opened (salt 1) (salt 3), .opened (salt 1) (salt 2)]
    recorder.record (Sample.idle 1) inputs = l ∧ l.countP Fact.confirms ≤ 1 ∧
      1 ≤ (([Fact.opened (salt 1) (salt 3)].filterMap Fact.accepted?).filter (· ≠ salt 2)).length ∧
      (next (.request (.openData (data (salt 3))))
        (recorder.after (Sample.idle 1) inputs)).state.peerSalt = some (salt 3) := by
  intro htua data inputs l
  let x₁ := Sample.waiting 1
  let x₂ : Env Client := { x₁ with state := x₁.state.accepted .authenticated (salt 2) }
  let x₃ : Env Client := { x₂ with state := x₂.state.accepted .streaming (salt 3) }
  let x₄ : Env Client := { x₃ with state := x₃.state.accepted .streaming (salt 2) }
  have hissued : salt 1 ∈ x₁.state.issued := List.mem_singleton_self (salt 1)
  have hrun₁ : (Request.takeHtua htua).run.exec x₁ = (.ok (.payload none), x₂) :=
    exec_reply (exec_takeHtua_wire rfl rfl rfl hissued (by decide +kernel)) fun _ => .payload none
  have hopen {x : Env Client} (y : Salt) (hphase : x.state.phase ∈ [.authenticated, .streaming])
      (hk : x.state.sessionKey = some key) (hi : salt 1 ∈ x.state.issued)
      (ha : (x.state.window.accept y).1 = true) :
      (Request.openData (data y)).run.exec x =
        (.ok (.payload (some [])), { x with state := x.state.accepted .streaming y }) := by
    have hx : (openData (data y)).exec x = _ :=
      exec_openData_wire (d := ⟨y, []⟩) hphase hk rfl (Nat.zero_le _)
    rw [if_pos hi, if_pos ha] at hx
    exact exec_reply hx fun a => .payload (some a)
  have hread (c : Client) (y : Salt) (hk : c.sessionKey = some key) :
      Request.read (.openData (data y)) c (.payload (some [])) = [.opened (salt 1) y] :=
    taken_data (d := ⟨y, []⟩) hk (Nat.zero_le _) rfl
  have hread₁ : Request.read (.takeHtua htua) x₂.state (.payload none) =
      [.confirmed (salt 1) (salt 2)] := taken_htua rfl rfl
  have hrun₂ : (Request.openData (data (salt 3))).run.exec x₂ = (.ok (.payload (some [])), x₃) :=
    hopen (salt 3) (by decide) rfl hissued (by decide +kernel)
  have hrun₃ : (Request.openData (data (salt 2))).run.exec x₃ = (.ok (.payload (some [])), x₄) :=
    hopen (salt 2) (by decide) rfl hissued (by decide +kernel)
  have hrun₄ := hopen (x := x₄) (salt 3) (by decide) rfl hissued (by decide +kernel)
  obtain ⟨hrecord, hafter⟩ := Sample.run_proposal 1 [.request (.takeHtua htua),
    .request (.openData (data (salt 3))), .request (.openData (data (salt 2)))]
  rw [Recorder.record_cons, facts_of_exec hrun₁, next_of_exec hrun₁, hread₁, Recorder.record_cons,
    facts_of_exec hrun₂, next_of_exec hrun₂, hread x₃.state (salt 3) rfl, Recorder.record_cons,
    facts_of_exec hrun₃, hread x₄.state (salt 2) rfl] at hrecord
  rw [Recorder.after_cons, next_of_exec hrun₁, Recorder.after_cons, next_of_exec hrun₂,
    Recorder.after_cons, next_of_exec hrun₃, Recorder.after_nil] at hafter
  have hall := accepts_recent_and_fresh (client []).state.keyPair (some info.publicKey) 1
    (Sample.idle 1) inputs
  have hstart := Sample.idle_fresh 1
  dsimp only at hall hstart
  rw [hstart, show recorder.record (Sample.idle 1) inputs = l from hrecord,
    show recorder.after (Sample.idle 1) inputs = x₄ from hafter] at hall
  obtain ⟨haccepts, -, -, -, hbetween, honce⟩ := hall
  have hfact : Fact.opened (salt 1) (salt 3) ∈ (Request.openData (data (salt 3))).facts x₄ := by
    rw [show Request.facts _ x₄ = _ from facts_of_exec hrun₄, hread _ (salt 3) rfl]
    exact List.mem_singleton_self _
  obtain ⟨_, _, _, -, -, -, -, hpeer⟩ := haccepts _ _ (salt 3) hfact rfl
  refine ⟨hrecord, honce, ?_, ?_⟩
  · exact hbetween [.exchanged info (salt 9), .proposed key (salt 1)] [.opened (salt 1) (salt 3)] []
      (.confirmed (salt 1) (salt 2)) (.opened (salt 1) (salt 2)) (salt 2) rfl rfl rfl
  · rw [show recorder.after (Sample.idle 1) inputs = x₄ from hafter]
    exact hpeer

end

end Client

end SealedDatagram

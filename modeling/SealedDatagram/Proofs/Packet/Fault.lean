import SealedDatagram.Proofs.Packet.SealedKind
/-!
What goes wrong in reading and writing a packet. A reader fails for a tag or for the form of a
field, a writer for a size, and a body that does not open or cannot be sealed fails in the cipher
engine. Only whoever is asked for the key can fail for the state of a session.
-/

namespace SealedDatagram

variable {α β : Type}

/-- An error of what a packet looks like: of its tag, or of one of its fields. -/
def Error.OfForm : Error → Prop
  | .packetType _ | .codec _ => True
  | _ => False

/-- A reader fails only with errors of `P`. -/
def Reader.FailsIn (P : Error → Prop) (r : Reader α) : Prop :=
  ∀ b err rest, r.runOn b = (.error err, rest) → P err

namespace Reader.FailsIn

variable {P : Error → Prop}

theorem pure (a : α) : FailsIn P (Pure.pure a : Reader α) := nofun

theorem bind {r : Reader α} {f : α → Reader β} (hr : FailsIn P r) (hf : ∀ a, FailsIn P (f a)) :
    FailsIn P (r >>= f) := by
  intro b err rest h
  rw [runOn_bind] at h
  rcases hx : r.runOn b with ⟨err' | a, b'⟩
  · rw [hx] at h
    obtain rfl := Except.error.inj (congrArg Prod.fst h)
    exact hr b err' b' hx
  · rw [hx] at h
    exact hf a b' err rest h

theorem liftExcept {x : Except Error α} (h : ∀ err, x = .error err → P err) :
    FailsIn P (liftM x : Reader α) := by
  intro b err rest hx
  rw [runOn_liftExcept] at hx
  exact h err (congrArg Prod.fst hx)

theorem parse {r : Reader α} (hr : FailsIn P r) {b : Bytes} {err : Error}
    (h : r.parse b = .error err) : P err :=
  hr b err (r.runOn b).2 (Prod.ext h rfl)

theorem get : FailsIn P (MonadState.get : Reader Bytes) := nofun

theorem rest : FailsIn P Reader.rest := nofun

section
variable (hP : ∀ f, P (.codec f))
include hP

theorem fault (f : FieldFault) : FailsIn P (Reader.fault f : Reader α) := by
  rintro b err rest h
  obtain rfl := Except.error.inj (congrArg Prod.fst h)
  exact hP f

theorem take (n : Nat) : FailsIn P (Reader.take n) := by
  unfold Reader.take
  refine bind get fun unread => ?_
  split
  · exact nofun
  · exact fault hP _

theorem word : FailsIn P Reader.word := bind (take hP 4) fun _ => pure _

theorem blob (max : Nat) : FailsIn P (Reader.blob max) := by
  unfold Reader.blob
  refine bind (word hP) fun w => ?_
  dsimp only
  split
  · exact fault hP _
  refine bind get fun unread => ?_
  split
  · exact fault hP _
  refine bind (take hP _) fun a => bind (take hP _) fun z => ?_
  split
  · exact fault hP _
  · exact pure a

/-- Whether a field of one size is too long or too short, it is its form that is wrong. -/
theorem fixed (n : Nat) (bad : FieldFault) : FailsIn P (Reader.fixed n bad) := by
  have hblob : FailsIn P (tryCatch (Reader.blob n) fun e =>
      throw (if e = .codec .oversizedPayload then .codec bad else e)) := by
    intro b err rest h
    rw [runOn_tryCatch] at h
    rcases hx : (Reader.blob n).runOn b with ⟨err' | a, b'⟩
    · rw [hx] at h
      obtain rfl := Except.error.inj (congrArg Prod.fst h)
      split
      · exact hP bad
      · exact blob hP n b err' b' hx
    · rw [hx] at h
      cases h
  unfold Reader.fixed
  refine bind hblob fun a => ?_
  split
  · exact pure _
  · exact fault hP _

theorem text (max : Nat) : FailsIn P (Reader.text max) := by
  unfold Reader.text
  refine bind (blob hP max) fun a => ?_
  split
  · exact pure _
  · exact fault hP _

theorem publicKey : FailsIn P Reader.publicKey := bind (fixed hP _ _) fun _ => pure _

theorem salt : FailsIn P Reader.salt := bind (fixed hP _ _) fun _ => pure _

theorem flag : FailsIn P Reader.flag := bind (bind (word hP) fun _ => pure _) fun _ => pure _

theorem finish : FailsIn P Reader.finish := by
  unfold Reader.finish
  refine bind get fun unread => ?_
  split
  · exact pure ()
  · exact fault hP _

theorem frame : FailsIn P Frame.read := by
  unfold Frame.read
  refine bind rest fun b => ?_
  split
  · exact pure _
  · exact fault hP _

theorem htuaBody : FailsIn P Htua.readBody :=
  bind (salt hP) fun _ => bind (finish hP) fun _ => pure _

theorem dataBody : FailsIn P Data.readBody :=
  bind (salt hP) fun _ => bind (blob hP _) fun _ => bind (finish hP) fun _ => pure _

theorem ollehBody (k : PublicKey) : FailsIn P (Olleh.readBody k) :=
  bind (flag hP) fun _ => bind (flag hP) fun _ => bind (finish hP) fun _ => pure _

/-- The key in an Auth is a text before it is refused as a key. -/
theorem authBody (hkey : ∀ f, P (.session f)) (k : PublicKey) : FailsIn P (Auth.readBody k) := by
  have hsession : FailsIn P Reader.sessionKey := by
    refine bind (text hP 64) fun s => liftExcept fun err h => ?_
    unfold SessionKey.ofText at h
    split_ifs at h <;> obtain rfl := Except.error.inj h <;> exact hkey _
  exact bind (salt hP) fun _ => bind (text hP _) fun _ => bind (text hP _) fun _ =>
    bind hsession fun _ => bind (finish hP) fun _ => pure _

end

theorem kind : FailsIn Error.OfForm PacketKind.read := by
  refine bind (word fun _ => trivial) fun t => liftExcept fun err h => ?_
  unfold PacketKind.ofTag at h
  split_ifs at h
  obtain rfl := Except.error.inj h
  trivial

theorem expect (k : PacketKind) : FailsIn Error.OfForm k.expect := by
  unfold PacketKind.expect
  refine bind kind fun found => ?_
  split
  · exact pure ()
  · intro b err rest h
    obtain rfl := Except.error.inj (congrArg Prod.fst h)
    trivial

theorem bareFrame (k : PacketKind) : FailsIn Error.OfForm k.bareFrame :=
  bind (expect k) fun _ => frame fun _ => trivial

theorem keyedFrame (k : PacketKind) : FailsIn Error.OfForm k.keyedFrame :=
  bind (expect k) fun _ => bind (publicKey fun _ => trivial) fun _ =>
    bind (frame fun _ => trivial) fun _ => pure _

theorem hello : FailsIn Error.OfForm Hello.read :=
  bind (expect _) fun _ => bind (publicKey fun _ => trivial) fun _ =>
    bind (finish fun _ => trivial) fun _ => pure _

end Reader.FailsIn

/-- An error that blames the state of a session. -/
def Error.OfSession (err : Error) : Prop := ∃ f, err = .session f

theorem Error.OfForm.isFatal {err : Error} (h : err.OfForm) : err.isFatal = false := by
  cases err <;> first | rfl | cases h

theorem Error.OfForm.not_ofSession {err : Error} (h : err.OfForm) : ¬ err.OfSession := by
  rintro ⟨f, rfl⟩
  exact h

theorem not_ofSession_of_drawSalt {σ : Type} {e e' : Env σ} {err : Error}
    (h : drawSalt.exec e = (.error err, e')) : ¬ err.OfSession := by
  rcases exec_drawSalt_cases e with ⟨x, entropy, -, hx⟩ | ⟨-, hx⟩
  · rw [hx] at h
    cases h
  · rw [hx] at h
    obtain rfl := Except.error.inj (congrArg Prod.fst h)
    exact nofun

section
variable [CipherSuite] {σ : Type} {f : Frame} {key : SessionKey} {err : Error}

theorem SealedKind.not_ofSession_of_encode {t : SealedKind} {p : t.Packet} {header : Salt}
    {e e' : Env σ} (h : (t.encode p key header).exec e = (.error err, e')) : ¬ err.OfSession := by
  by_cases hfits : t.Fits p
  · rcases exec_encode_cases hfits key header e with ⟨pad, entropy, -, -, hx⟩ | ⟨-, hx⟩
    · rw [hx] at h
      cases h
    · rw [hx] at h
      obtain rfl := Except.error.inj (congrArg Prod.fst h)
      exact nofun
  · rw [exec_encode_of_not_fits hfits] at h
    obtain rfl := Except.error.inj (congrArg Prod.fst h)
    exact nofun

theorem Frame.plain_eq_error (h : f.plain key = .error err) :
    ∃ c, err = .cipher c ∧ key.subkeys.openBody f.sealed = .error c := by
  unfold plain at h
  rw [Sealed.decrypt_sessionKey] at h
  cases hd : key.subkeys.openBody f.sealed with
  | error c =>
    rw [hd] at h
    exact ⟨c, (Except.error.inj h).symm, rfl⟩
  | ok text =>
    rw [hd] at h
    cases h

theorem Frame.read_plain_eq_error {read : Reader α}
    (h : (do return ⟨f.header, ← read.parse (← f.plain key)⟩ : Except Error (Received α)) =
      .error err) :
    (∃ c, err = .cipher c ∧ key.subkeys.openBody f.sealed = .error c) ∨
      ∃ text, read.parse text = .error err := by
  rcases Except.bind_eq_error_iff.1 h with hp | ⟨text, -, hread⟩
  · exact .inl (plain_eq_error hp)
  · rcases Except.bind_eq_error_iff.1 hread with hb | ⟨p, -, hp⟩
    · exact .inr ⟨text, hb⟩
    · cases hp

theorem Data.not_ofSession_of_ofFrame (h : ofFrame f key = .error err) : ¬ err.OfSession := by
  rcases Frame.read_plain_eq_error h with ⟨c, rfl, -⟩ | ⟨text, hb⟩
  · exact nofun
  · have hform : err.OfForm := (Reader.FailsIn.dataBody fun _ => trivial).parse hb
    exact hform.not_ofSession

/-- A reader of Data packets that blames the session repeats what it was told when it asked for the
key. -/
theorem Data.ofSession_of_exec_decode {b : Bytes} {keyFor : Salt → Attempt σ SessionKey}
    {e e' : Env σ} (h : Fallible.exec (decode b keyFor) e = (.error err, e'))
    (hs : err.OfSession) : ∃ header, (keyFor header).exec e = (.error err, e') := by
  rw [exec_decode] at h
  cases hf : PacketKind.data.bareFrame.parse b with
  | error err' =>
    rw [hf] at h
    obtain rfl := Except.error.inj (congrArg Prod.fst h)
    exact absurd hs ((Reader.FailsIn.bareFrame _).parse hf).not_ofSession
  | ok f =>
    rw [hf] at h
    dsimp only at h
    rcases hk : (keyFor f.header).exec e with ⟨err' | key, e₁⟩
    · rw [hk] at h
      obtain ⟨herr, rfl⟩ := Prod.mk.inj h
      obtain rfl := Except.error.inj herr
      exact ⟨f.header, hk⟩
    · rw [hk] at h
      exact absurd hs (not_ofSession_of_ofFrame (congrArg Prod.fst h))

end

end SealedDatagram

import Mathlib.Tactic.SplitIfs
import SealedDatagram.CipherSuite.Standard
import SealedDatagram.Proofs.Env
/-!
The engine opens exactly what it seals: a body opens to a plaintext if and only if sealing that
plaintext under the header of the body, with some pad, makes the body. Nothing is used of the cipher
suite but the lengths of what it computes. Sealing and opening under a text key, in one step, check
lengths that the subkeys check again; it makes no difference, but that a bad salt is found before a
bad key.
-/

namespace SealedDatagram

theorem Bytes.xor_xor_cancel {a k : Bytes} (h : a.length ≤ k.length) : xor (xor a k) k = a := by
  induction a generalizing k with
  | nil => rfl
  | cons x a ih =>
    cases k with
    | nil => simp at h
    | cons y k =>
      have hk := ih (Nat.le_of_succ_le_succ h)
      simp only [xor, List.zipWith_cons_cons] at hk ⊢
      rw [hk, UInt8.xor_assoc, UInt8.xor_self, UInt8.xor_zero]

theorem Subkeys.checkKey_eq_ok_iff {key : Bytes} :
    checkKey key = .ok () ↔ 12 ≤ key.length ∧ key.length ≤ 64 := by
  unfold checkKey
  split_ifs with hempty hbounds
  · rw [List.isEmpty_iff_length_eq_zero] at hempty
    simp [hempty]
  · simp only [false_iff]
    omega
  · simp only [true_iff]
    omega

theorem SessionKey.checkKey_bytes (k : SessionKey) : Subkeys.checkKey k.bytes = .ok () :=
  Subkeys.checkKey_eq_ok_iff.2 ⟨k.min_le, k.le_max⟩

/-- An error of a length, which is found before anything is computed. -/
def CipherError.OfLength : CipherError → Prop
  | .tagMismatch | .keyDerivation | .randomSource => False
  | _ => True

theorem Subkeys.checkKey_eq_error {key : Bytes} {err : CipherError}
    (h : checkKey key = .error err) : err.OfLength ∧ ∀ n, err ≠ .saltLength n := by
  unfold checkKey at h
  split_ifs at h <;> obtain rfl := Except.error.inj h <;> exact ⟨trivial, nofun⟩

section
variable [CipherSuite] {σ : Type}

namespace Subkeys

variable {k : Subkeys} {salt pad text header footer : Bytes} {s : Sealed}

@[simp] theorem length_cover (k : Subkeys) (header footer text : Bytes) :
    (k.cover header footer text).length = text.length := by
  simp [cover, Bytes.xor]

theorem cover_cover (k : Subkeys) (header footer text : Bytes) :
    k.cover header footer (k.cover header footer text) = text := by
  unfold cover
  rw [show (Bytes.xor text _).length = text.length from k.length_cover header footer text]
  exact Bytes.xor_xor_cancel (by simp)

theorem length_footer (k : Subkeys) (header padded : Bytes) :
    (k.footer header padded).length = 8 := CipherSuite.length_tag _ _

theorem openBody_sealWith (hs : salt.length = Sealed.headerSize) (hp : pad.length = Sealed.padSize)
    (ht : text.length ≤ Sealed.maxPlaintext) :
    k.openBody (k.sealWith salt pad text) = .ok text := by
  unfold openBody sealWith
  rw [if_neg (by simp [hs]), if_neg (by simp [length_footer, Sealed.footerSize]),
    if_neg (by simp [hp]), if_neg (by simp [hp, ht])]
  simp only [cover_cover, if_true]
  rw [← hp, List.drop_left]

/-- Every body that opens was sealed with the pad in front of what it decrypts to. -/
theorem openBody_eq_ok_iff :
    k.openBody s = .ok text ↔ s.header.length = Sealed.headerSize ∧
      text.length ≤ Sealed.maxPlaintext ∧
      ∃ pad, pad.length = Sealed.padSize ∧ s = k.sealWith s.header pad text := by
  constructor
  · intro h
    unfold openBody at h
    split_ifs at h with hh hf hc ho
    dsimp only at h
    split_ifs at h with ht
    obtain rfl := Except.ok.inj h
    have hlen := k.length_cover s.header s.footer s.ciphertext
    refine ⟨Decidable.not_not.1 hh, ?_, (k.cover s.header s.footer s.ciphertext).take 4, ?_, ?_⟩
    · rw [List.length_drop, hlen]
      omega
    · rw [List.length_take, hlen]
      simp only [Sealed.padSize] at hc ⊢
      omega
    · rw [sealWith, Sealed.padSize, List.take_append_drop, ht, cover_cover]
  · rintro ⟨hh, ht, pad, hp, hs⟩
    rw [hs]
    exact openBody_sealWith hh hp ht

theorem openBody_eq_error {err : CipherError} (hh : s.header.length = Sealed.headerSize)
    (hf : s.footer.length = Sealed.footerSize) (h : k.openBody s = .error err) :
    (s.ciphertext.length < 4 ∧ err = .ciphertextTooShort s.ciphertext.length) ∨
    (65204 < s.ciphertext.length ∧ err = .oversizedData (s.ciphertext.length - 4)) ∨
    (4 ≤ s.ciphertext.length ∧ s.ciphertext.length ≤ 65204 ∧ err = .tagMismatch) := by
  unfold openBody at h
  rw [if_neg (Decidable.not_not.2 hh), if_neg (Decidable.not_not.2 hf)] at h
  dsimp only at h
  split_ifs at h with hshort hlong htag
  · exact .inl ⟨hshort, (Except.error.inj h).symm⟩
  · exact .inr (.inl ⟨hlong, (Except.error.inj h).symm⟩)
  · exact .inr (.inr ⟨Nat.le_of_not_lt hshort, Nat.le_of_not_lt hlong, (Except.error.inj h).symm⟩)

theorem sealWith_inj {pad pad' text' : Bytes} (hp : pad.length = pad'.length)
    (h : k.sealWith salt pad text = k.sealWith salt pad' text') : pad = pad' ∧ text = text' := by
  have hf : k.footer salt (pad ++ text) = k.footer salt (pad' ++ text') :=
    congrArg Sealed.footer h
  have hc : k.cover salt (k.footer salt (pad ++ text)) (pad ++ text) =
      k.cover salt (k.footer salt (pad' ++ text')) (pad' ++ text') := congrArg Sealed.ciphertext h
  have hpad := congrArg (k.cover salt (k.footer salt (pad ++ text))) hc
  rw [cover_cover, hf, cover_cover] at hpad
  exact List.append_inj hpad hp

theorem sealWith_eq_of_wire {salt' pad' text' : Bytes} (hs : salt.length = salt'.length)
    (h : (k.sealWith salt pad text).wire = (k.sealWith salt' pad' text').wire) :
    k.sealWith salt pad text = k.sealWith salt' pad' text' := by
  simp only [Sealed.wire, sealWith, List.append_assoc] at h ⊢
  obtain ⟨hheader, hrest⟩ := List.append_inj h hs
  obtain ⟨hciphertext, hfooter⟩ := List.append_inj' hrest (by simp only [length_footer])
  rw [hciphertext, hfooter, hheader]

end Subkeys

namespace Subkeys

variable {k : Subkeys} {salt pad text : Bytes} {s : Sealed}

theorem exec_sealBody_cases (k : Subkeys) (hs : salt.length = Salt.size)
    (ht : text.length ≤ Sealed.maxPlaintext) (e : Env σ) :
    (∃ pad entropy, pad.length = Sealed.padSize ∧
      e.entropy.draw? Sealed.padSize = some (pad, entropy) ∧
      (k.sealBody salt text).exec e = (.ok (k.sealWith salt pad text), { e with entropy })) ∨
    (e.entropy.draw? Sealed.padSize = none ∧
      (k.sealBody salt text).exec e = (.error .randomSource, e)) := by
  have hexec : (k.sealBody salt text).exec e =
      Fallible.exec (do return k.sealWith salt (← draw Sealed.padSize) text) e := by
    unfold sealBody
    rw [if_neg (not_not_intro hs), if_neg (Nat.not_lt.2 ht)]
  rw [hexec, Fallible.exec_bind]
  rcases exec_draw_cases Sealed.padSize e with ⟨pad, entropy, hd, hx⟩ | ⟨hd, hx⟩
  · rw [hx]
    exact .inl ⟨pad.val, entropy, pad.property, hd, rfl⟩
  · rw [hx]
    exact .inr ⟨hd, rfl⟩

theorem exec_sealBody_of_salt (k : Subkeys) (hs : salt.length ≠ Salt.size) (text : Bytes)
    (e : Env σ) : (k.sealBody salt text).exec e = (.error (.saltLength salt.length), e) := by
  unfold sealBody
  rw [if_pos hs]
  rfl

theorem exec_sealBody_of_oversized (k : Subkeys) (hs : salt.length = Salt.size)
    (ht : Sealed.maxPlaintext < text.length) (e : Env σ) :
    (k.sealBody salt text).exec e = (.error (.oversizedData text.length), e) := by
  unfold sealBody
  rw [if_neg (not_not_intro hs), if_pos ht]
  rfl

theorem exec_sealBody_eq_ok_iff {e e' : Env σ} :
    (k.sealBody salt text).exec e = (.ok s, e') ↔ salt.length = Salt.size ∧
      text.length ≤ Sealed.maxPlaintext ∧ ∃ pad entropy,
        e.entropy.draw? Sealed.padSize = some (pad, entropy) ∧
          s = k.sealWith salt pad text ∧ e' = { e with entropy } := by
  by_cases hs : salt.length = Salt.size
  · by_cases ht : text.length ≤ Sealed.maxPlaintext
    · rw [exec_eq_ok_iff_of_draw (k.exec_sealBody_cases hs ht e), and_iff_right hs,
        and_iff_right ht]
    · simp [exec_sealBody_of_oversized k hs (Nat.lt_of_not_le ht), ht]
  · simp [exec_sealBody_of_salt k hs, hs]

/-- Sealing makes `s` whenever the random source gives `pad` next. -/
def Seals (k : Subkeys) (salt text pad : Bytes) (s : Sealed) : Prop :=
  GivesFor (fun _ => k.sealBody salt text) pad s

theorem seals_iff (hp : pad.length = Sealed.padSize) : k.Seals salt text pad s ↔
    (salt.length = Salt.size ∧ text.length ≤ Sealed.maxPlaintext) ∧
      s = k.sealWith salt pad text :=
  givesFor_iff (f := fun pad => k.sealWith salt pad text)
    (exec_sealBody_eq_ok_iff.trans and_assoc.symm) hp

/-- A body opens if and only if it was sealed with one pad, and with no other. -/
theorem openBody_eq_ok_iff_existsUnique : k.openBody s = .ok text ↔
    ∃! pad, pad.length = Sealed.padSize ∧ k.Seals s.header text pad s := by
  rw [openBody_eq_ok_iff, ← and_assoc]
  exact (existsUnique_givesFor_iff (f := fun pad => k.sealWith s.header pad text)
    (exec_sealBody_eq_ok_iff.trans and_assoc.symm) fun hp h => (sealWith_inj hp h).1).symm

/-- Two bodies under one header and one footer that differ come from padded texts that differ, and
the tags of these are equal. -/
theorem collision {s' : Sealed} {pad' text' : Bytes} (hheader : s'.header = s.header)
    (hfooter : s'.footer = s.footer) (hne : s'.ciphertext ≠ s.ciphertext)
    (hs : s = k.sealWith s.header pad text) (hs' : s' = k.sealWith s'.header pad' text') :
    pad ++ text ≠ pad' ++ text' ∧ k.footer s.header (pad ++ text) = s.footer ∧
      k.footer s.header (pad' ++ text') = s.footer := by
  rw [hheader] at hs'
  have htag : k.footer s.header (pad ++ text) = s.footer := (congrArg Sealed.footer hs).symm
  have htag' : k.footer s.header (pad' ++ text') = s.footer :=
    (congrArg Sealed.footer hs').symm.trans hfooter
  refine ⟨fun hpadded => hne ?_, htag, htag'⟩
  have hc : s.ciphertext = k.cover s.header (k.footer s.header (pad ++ text)) (pad ++ text) :=
    congrArg Sealed.ciphertext hs
  have hc' : s'.ciphertext = k.cover s.header (k.footer s.header (pad' ++ text')) (pad' ++ text') :=
    congrArg Sealed.ciphertext hs'
  rw [hc, hc', hpadded]

end Subkeys

namespace Sealed

variable {salt key text : Bytes}

/-- What opening in one step checks itself, the subkeys refuse in the same words and in the same
order. -/
theorem decrypt_eq (key : Bytes) (s : Sealed) :
    decrypt key s = (do (← Subkeys.ofKey key).openBody s) := by
  unfold decrypt Subkeys.ofKey
  cases Subkeys.checkKey key with
  | error err => rfl
  | ok u =>
    change (do
      if s.header.length ≠ headerSize then throw (.headerLength s.header.length)
      if s.footer.length ≠ footerSize then throw (.footerLength s.footer.length)
      if s.ciphertext.length < padSize then throw (.ciphertextTooShort s.ciphertext.length)
      (CipherSuite.subkeys key).openBody s) = (CipherSuite.subkeys key).openBody s
    unfold Subkeys.openBody
    by_cases hh : s.header.length ≠ headerSize
    · rw [if_pos hh, if_pos hh]
      rfl
    rw [if_neg hh, if_neg hh]
    by_cases hf : s.footer.length ≠ footerSize
    · rw [if_pos hf, if_pos hf]
      rfl
    rw [if_neg hf, if_neg hf]
    by_cases hc : s.ciphertext.length < padSize
    · rw [if_pos hc, if_pos hc]
      rfl
    · rw [if_neg hc]

/-- Sealing in one step checks the salt before the key; the size of the text the subkeys check
again. -/
theorem exec_encrypt (salt key text : Bytes) (e : Env σ) :
    (encrypt salt key text).exec e =
      if salt.length ≠ Salt.size then (.error (.saltLength salt.length), e)
      else Fallible.exec (do
        let k ← liftM (Subkeys.ofKey key)
        k.sealBody salt text) e := by
  unfold encrypt
  by_cases hs : salt.length ≠ Salt.size
  · rw [if_pos hs, if_pos hs]
    rfl
  rw [if_neg hs, if_neg hs]
  unfold Subkeys.ofKey
  cases Subkeys.checkKey key with
  | error err => rfl
  | ok u =>
    by_cases ht : maxPlaintext < text.length
    · rw [if_pos ht]
      exact (Subkeys.exec_sealBody_of_oversized _ (Decidable.not_not.1 hs) ht e).symm
    · rw [if_neg ht]
      rfl

theorem exec_encrypt_eq_iff {e : Env σ} :
    (encrypt salt key text).exec e = Fallible.exec (do
        let k ← liftM (Subkeys.ofKey key)
        k.sealBody salt text) e ↔
      salt.length = Salt.size ∨ 12 ≤ key.length ∧ key.length ≤ 64 := by
  rw [exec_encrypt]
  by_cases hs : salt.length = Salt.size
  · rw [if_neg (not_not_intro hs)]
    exact iff_of_true rfl (.inl hs)
  rw [if_pos hs, Fallible.exec_bind, Fallible.exec_liftExcept, Subkeys.ofKey,
    ← Subkeys.checkKey_eq_ok_iff]
  cases hk : Subkeys.checkKey key with
  | error err =>
    -- the salt is blamed in one step, the key in two
    have hne := (Subkeys.checkKey_eq_error hk).2 salt.length
    simp [bind, Except.bind, hs, hne.symm]
  | ok u => exact iff_of_true (Subkeys.exec_sealBody_of_salt _ hs text e).symm (.inr rfl)

/-- The lengths that sealing under a text key allows. -/
def Allows (salt key text : Bytes) : Prop :=
  salt.length = Salt.size ∧ (12 ≤ key.length ∧ key.length ≤ 64) ∧ text.length ≤ maxPlaintext

theorem exec_encrypt_of_allows (h : Allows salt key text) (e : Env σ) :
    (encrypt salt key text).exec e = ((CipherSuite.subkeys key).sealBody salt text).exec e := by
  obtain ⟨hs, hk, -⟩ := h
  rw [exec_encrypt, if_neg (not_not_intro hs), Fallible.exec_bind, Fallible.exec_liftExcept,
    Subkeys.ofKey, Subkeys.checkKey_eq_ok_iff.2 hk]
  rfl

theorem exec_encrypt_of_not_allows (h : ¬ Allows salt key text) (e : Env σ) :
    ∃ err, err.OfLength ∧ (encrypt salt key text).exec e = (.error err, e) := by
  rw [exec_encrypt]
  by_cases hs : salt.length = Salt.size
  · rw [if_neg (not_not_intro hs), Fallible.exec_bind, Fallible.exec_liftExcept, Subkeys.ofKey]
    cases hk : Subkeys.checkKey key with
    | error err => exact ⟨err, (Subkeys.checkKey_eq_error hk).1, rfl⟩
    | ok u =>
      have ht : maxPlaintext < text.length :=
        Nat.lt_of_not_le fun ht => h ⟨hs, Subkeys.checkKey_eq_ok_iff.1 hk, ht⟩
      exact ⟨.oversizedData text.length, trivial, Subkeys.exec_sealBody_of_oversized _ hs ht e⟩
  · rw [if_pos hs]
    exact ⟨.saltLength salt.length, trivial, rfl⟩

/-- The engine does in one step what it does in two, to the error and to the random bytes, unless
neither the salt nor the key has a length that is allowed: then one step blames the salt and two
blame the key. A length that is refused is refused before anything is drawn, and whatever fails has
drawn nothing. -/
theorem same_in_two_steps (salt key text : Bytes) (s : Sealed) (e : Env σ) :
    decrypt key s = (do (← Subkeys.ofKey key).openBody s) ∧
    ((encrypt salt key text).exec e = Fallible.exec (do
        let k ← liftM (Subkeys.ofKey key)
        k.sealBody salt text) e ↔
      salt.length = Salt.size ∨ 12 ≤ key.length ∧ key.length ≤ 64) ∧
    ((∃ err, err.OfLength ∧ ((encrypt salt key text).exec e).1 = .error err) ↔
      ¬ Allows salt key text) ∧
    ∀ err e', (encrypt salt key text).exec e = (.error err, e') → e' = e := by
  refine ⟨decrypt_eq key s, exec_encrypt_eq_iff, ?_⟩
  by_cases hall : Allows salt key text
  · rw [exec_encrypt_of_allows hall]
    rcases Subkeys.exec_sealBody_cases (CipherSuite.subkeys key) hall.1 hall.2.2 e with
      ⟨pad, entropy, -, -, hx⟩ | ⟨-, hx⟩
    · rw [hx]
      exact ⟨iff_of_false nofun (not_not_intro hall), nofun⟩
    · rw [hx]
      refine ⟨iff_of_false ?_ (not_not_intro hall), ?_⟩
      · rintro ⟨err, hlength, herr⟩
        cases herr
        exact hlength
      · intro err e' herr
        cases herr
        rfl
  · obtain ⟨err, hlength, hx⟩ := exec_encrypt_of_not_allows hall e
    rw [hx]
    refine ⟨iff_of_true ⟨err, hlength, rfl⟩ hall, ?_⟩
    intro err e' herr
    cases herr
    rfl

end Sealed

def SessionKey.subkeys (k : SessionKey) : Subkeys := CipherSuite.subkeys k.bytes

/-- Decryption under a session key is opening with its subkeys: no check of the key can fail. -/
theorem Sealed.decrypt_sessionKey (k : SessionKey) (s : Sealed) :
    Sealed.decrypt k.bytes s = k.subkeys.openBody s := by
  rw [decrypt_eq, Subkeys.ofKey, k.checkKey_bytes]
  rfl

theorem Sealed.exec_encrypt_cases (salt : Salt) (k : SessionKey) {text : Bytes}
    (ht : text.length ≤ maxPlaintext) (e : Env σ) :
    (∃ pad entropy, pad.length = padSize ∧ e.entropy.draw? padSize = some (pad, entropy) ∧
      (Sealed.encrypt salt.bytes k.bytes text).exec e =
        (.ok (k.subkeys.sealWith salt.bytes pad text), { e with entropy })) ∨
    (e.entropy.draw? padSize = none ∧
      (Sealed.encrypt salt.bytes k.bytes text).exec e = (.error .randomSource, e)) := by
  have hall : Allows salt.bytes k.bytes text := ⟨salt.length_eq, ⟨k.min_le, k.le_max⟩, ht⟩
  rw [exec_encrypt_of_allows hall]
  exact k.subkeys.exec_sealBody_cases salt.length_eq ht e

theorem Subkeys.ofKey_eq_ok {key : Bytes} (hmin : 12 ≤ key.length) (hmax : key.length ≤ 64) :
    ofKey key = .ok (CipherSuite.subkeys key) := by
  unfold ofKey
  rw [checkKey_eq_ok_iff.2 ⟨hmin, hmax⟩]
  rfl

/-- The engine opens exactly what it seals. A body opens to a text if and only if there is one pad,
and only one, with which sealing the text under the header of the body makes the body. So whoever
has a second ciphertext for a header and a footer, and both open, has two padded texts of one tag.
-/
theorem Subkeys.opens_iff_sealed {key : Bytes} (hmin : 12 ≤ key.length) (hmax : key.length ≤ 64) :
    ∃ k, ofKey key = .ok k ∧
      (∀ (s : Sealed) (text : Bytes), k.openBody s = .ok text ↔
        s.header.length = Sealed.headerSize ∧ s.footer.length = Sealed.footerSize ∧
          text.length ≤ Sealed.maxPlaintext ∧
            ∃! pad, pad.length = Sealed.padSize ∧ k.Seals s.header text pad s) ∧
      ∀ (s s' : Sealed) (text text' : Bytes), s'.header = s.header → s'.footer = s.footer →
        s'.ciphertext ≠ s.ciphertext → k.openBody s = .ok text → k.openBody s' = .ok text' →
          ∃ pad pad', (pad.length = Sealed.padSize ∧ k.Seals s.header text pad s) ∧
            (pad'.length = Sealed.padSize ∧ k.Seals s.header text' pad' s') ∧
            pad ++ text ≠ pad' ++ text' ∧ k.footer s.header (pad ++ text) = s.footer ∧
            k.footer s.header (pad' ++ text') = s.footer := by
  refine ⟨_, ofKey_eq_ok hmin hmax, ?_, ?_⟩
  · intro s text
    rw [← openBody_eq_ok_iff_existsUnique]
    constructor
    · intro h
      obtain ⟨hh, ht, pad, -, heq⟩ := openBody_eq_ok_iff.1 h
      have hf : s.footer.length = Sealed.footerSize := by
        rw [heq]
        exact length_footer _ _ _
      exact ⟨hh, hf, ht, h⟩
    · rintro ⟨-, -, -, h⟩
      exact h
  · intro s s' text text' hheader hfooter hne h h'
    obtain ⟨pad, ⟨hp, hseals⟩, -⟩ := openBody_eq_ok_iff_existsUnique.1 h
    obtain ⟨pad', ⟨hp', hseals'⟩, -⟩ := openBody_eq_ok_iff_existsUnique.1 h'
    have heq := ((seals_iff hp).1 hseals).2
    have heq' := ((seals_iff hp').1 hseals').2
    exact ⟨pad, pad', ⟨hp, hseals⟩, ⟨hp', hheader ▸ hseals'⟩,
      collision hheader hfooter hne heq heq'⟩

end

/-- Under the shortest key a sealed byte opens, as one pad and no other seals it. -/
theorem opens_under_shortest_key :
    let key : Bytes := List.replicate 12 7
    let salt : Bytes := List.replicate 8 1
    (12 ≤ key.length ∧ key.length ≤ 64) ∧
      ∃ k, Subkeys.ofKey key = .ok k ∧ k.openBody (k.sealWith salt [1, 2, 3, 4] [5]) = .ok [5] := by
  intro key salt
  have hmin : 12 ≤ key.length := by decide
  have hmax : key.length ≤ 64 := by decide
  obtain ⟨k, hk, hopens, -⟩ := Subkeys.opens_iff_sealed hmin hmax
  have hseals : k.Seals salt [5] [1, 2, 3, 4] (k.sealWith salt [1, 2, 3, 4] [5]) :=
    (Subkeys.seals_iff rfl).2 ⟨⟨rfl, by decide⟩, rfl⟩
  refine ⟨⟨hmin, hmax⟩, k, hk, (hopens _ _).2 ⟨rfl, k.length_footer _ _, by decide, ?_⟩⟩
  refine ⟨[1, 2, 3, 4], ⟨rfl, hseals⟩, ?_⟩
  rintro pad ⟨hp, hpad⟩
  have heq := ((Subkeys.seals_iff hp).1 hpad).2
  exact (Subkeys.sealWith_inj hp heq.symm).1

end SealedDatagram

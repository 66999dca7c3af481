import SealedDatagram.Packet.Decode
import SealedDatagram.Proofs.Field
import SealedDatagram.Proofs.Packet.Encode
/-!
Packets are read exactly as they are written. Under a given key a reader accepts a packet if and
only if it is the written form, with some pad, of what the reader gives.
-/

namespace SealedDatagram

variable {b rest : Bytes}

theorem PacketKind.ofTag_eq_ok_iff {t : UInt32} {k : PacketKind} :
    ofTag t = .ok k ↔ t = k.tag := by
  constructor
  · intro h
    unfold ofTag at h
    split_ifs at h with h₁ h₂ h₃ h₄ h₅ <;> obtain rfl := Except.ok.inj h <;> assumption
  · rintro rfl
    exact ofTag_tag k

theorem PacketKind.read_eq_ok_iff {k : PacketKind} :
    read.runOn b = (.ok k, rest) ↔ b = Field.word k.tag ++ rest := by
  unfold read
  rw [Reader.bind_eq_ok_iff]
  constructor
  · rintro ⟨t, b', ht, hk⟩
    rw [Reader.runOn_liftExcept, Prod.mk.injEq, ofTag_eq_ok_iff] at hk
    obtain ⟨rfl, rfl⟩ := hk
    exact Reader.word_eq_ok_iff.1 ht
  · intro hb
    exact ⟨_, rest, Reader.word_eq_ok_iff.2 hb, by rw [Reader.runOn_liftExcept, ofTag_tag]⟩

theorem PacketKind.peek_eq_ok_iff {k : PacketKind} :
    peek b = .ok k ↔ ∃ rest, b = Field.word k.tag ++ rest := by
  unfold peek
  rw [Reader.parse_eq_ok_iff]
  simp only [read_eq_ok_iff]

theorem PacketKind.expect_eq_ok_iff {k : PacketKind} {u : Unit} :
    k.expect.runOn b = (.ok u, rest) ↔ b = Field.word k.tag ++ rest := by
  unfold expect
  rw [Reader.bind_eq_ok_iff]
  constructor
  · rintro ⟨found, b', hf, h⟩
    split at h
    · rename_i hk
      obtain ⟨-, rfl⟩ := Reader.pure_eq_ok_iff.1 h
      exact hk ▸ read_eq_ok_iff.1 hf
    · cases h
  · intro hb
    exact ⟨k, rest, read_eq_ok_iff.2 hb, by rw [if_pos rfl]; rfl⟩

namespace Reader

theorem salt_eq_ok_iff {s : Salt} : salt.runOn b = (.ok s, rest) ↔ b = s.field ++ rest := by
  unfold salt
  rw [bind_eq_ok_iff]
  constructor
  · rintro ⟨⟨a, ha⟩, b', hf, h⟩
    dsimp only at h
    obtain ⟨rfl, rfl⟩ := pure_eq_ok_iff.1 h
    exact (fixed_eq_ok_iff.1 hf).2
  · intro hb
    exact ⟨⟨s.bytes, s.length_eq⟩, rest, fixed_eq_ok_iff.2 ⟨by decide, hb⟩, rfl⟩

theorem publicKey_eq_ok_iff {k : PublicKey} :
    publicKey.runOn b = (.ok k, rest) ↔ b = k.field ++ rest := by
  unfold publicKey
  rw [bind_eq_ok_iff]
  constructor
  · rintro ⟨⟨a, ha⟩, b', hf, h⟩
    dsimp only at h
    obtain ⟨rfl, rfl⟩ := pure_eq_ok_iff.1 h
    exact (fixed_eq_ok_iff.1 hf).2
  · intro hb
    exact ⟨⟨k.bytes, k.length_eq⟩, rest, fixed_eq_ok_iff.2 ⟨by decide, hb⟩, rfl⟩

theorem sessionKey_eq_ok_iff {k : SessionKey} :
    sessionKey.runOn b = (.ok k, rest) ↔ b = Field.blob k.bytes ++ rest := by
  have hof : ∀ {s : String}, SessionKey.ofText s = .ok k ↔ s = k.text := by
    intro s
    unfold SessionKey.ofText
    constructor
    · intro h
      split_ifs at h with he hs
      rw [← Except.ok.inj h]
    · rintro rfl
      have hne : ¬ k.text.isEmpty = true := by
        intro he
        have := k.min_le
        rw [String.isEmpty_iff.1 he] at this
        exact absurd this (by decide)
      rw [if_neg hne, dif_pos ⟨k.min_le, k.le_max⟩]
  unfold sessionKey
  rw [bind_eq_ok_iff]
  constructor
  · rintro ⟨s, b', hs, h⟩
    rw [runOn_liftExcept, Prod.mk.injEq, hof] at h
    obtain ⟨rfl, rfl⟩ := h
    exact (text_eq_ok_iff.1 hs).2.2
  · intro hb
    refine ⟨k.text, rest, (text_eq_ok_iff_of_lt (by decide)).2 ⟨k.le_max, hb⟩, ?_⟩
    rw [runOn_liftExcept, hof.2 rfl]

/-- Every word but zero is read as a flag that is set. -/
theorem flag_eq_ok_iff {f : Bool} :
    flag.runOn b = (.ok f, rest) ↔ ∃ w : UInt32, (w != 0) = f ∧ b = Field.word w ++ rest := by
  have hzero : ∀ w : UInt32, (w.toInt32 != 0) = (w != 0) := by
    intro w
    rw [Bool.eq_iff_iff, bne_iff_ne, bne_iff_ne]
    refine not_congr ⟨fun h => ?_, fun h => ?_⟩
    · rw [← w.toUInt32_toInt32, h]
      rfl
    · rw [h]
      rfl
  unfold flag integer
  simp only [bind_eq_ok_iff, pure_eq_ok_iff, word_eq_ok_iff]
  constructor
  · rintro ⟨i, b₁, ⟨w, b₂, hb, rfl, rfl⟩, rfl, rfl⟩
    exact ⟨w, (hzero w).symm, hb⟩
  · rintro ⟨w, rfl, hb⟩
    exact ⟨_, rest, ⟨w, rest, hb, rfl, rfl⟩, hzero w, rfl⟩

end Reader

namespace Frame

theorem ofBytes?_eq_some_iff {f : Frame} :
    ofBytes? b = some f ↔ f.footer.length = Sealed.footerSize ∧ b = f.sealed.wire := by
  unfold ofBytes?
  constructor
  · intro h
    split at h
    · rename_i hl
      obtain rfl := Option.some.inj h
      refine ⟨?_, ?_⟩
      · rw [List.length_drop, Sealed.footerSize]
        omega
      · have hsplit : b.drop 8 =
            (b.drop 8).take (b.length - 16) ++ b.drop (b.length - 8) := by
          have := (List.take_append_drop (b.length - 16) (b.drop 8)).symm
          rwa [List.drop_drop, show 8 + (b.length - 16) = b.length - 8 by omega] at this
        rw [sealed, Sealed.wire, List.append_assoc, ← hsplit, List.take_append_drop]
    · cases h
  · obtain ⟨header, ciphertext, footer⟩ := f
    rintro ⟨hf, rfl⟩
    have hh := header.length_eq
    simp only [Sealed.footerSize] at hf
    rw [dif_pos (by simp only [sealed, Sealed.wire, List.length_append]; omega)]
    congr 2
    · apply Salt.ext
      simp [sealed, Sealed.wire, hh]
    · simp only [sealed, Sealed.wire, List.append_assoc, List.length_append, hh, hf]
      rw [List.drop_left' hh, show 8 + (ciphertext.length + 8) - 16 = ciphertext.length by omega,
        List.take_left]
    · simp only [sealed, Sealed.wire, List.length_append, hh, hf]
      rw [show 8 + ciphertext.length + 8 - 8 = (header.bytes ++ ciphertext).length by
        rw [List.length_append, hh, Nat.add_sub_cancel], List.drop_left]

theorem read_eq_ok_iff {f : Frame} : Frame.read.runOn b = (.ok f, rest) ↔
    (f.footer.length = Sealed.footerSize ∧ b = f.sealed.wire) ∧ rest = [] := by
  unfold read
  rw [Reader.bind_eq_ok_iff]
  constructor
  · rintro ⟨a, b', ha, h⟩
    obtain ⟨rfl, rfl⟩ := Reader.rest_eq_ok_iff.1 ha
    split at h
    · rename_i f' hf
      obtain ⟨rfl, rfl⟩ := Reader.pure_eq_ok_iff.1 h
      exact ⟨ofBytes?_eq_some_iff.1 hf, rfl⟩
    · exact absurd h Reader.fault_ne_ok
  · rintro ⟨hf, rfl⟩
    refine ⟨b, [], Reader.rest_eq_ok_iff.2 ⟨rfl, rfl⟩, ?_⟩
    rw [ofBytes?_eq_some_iff.2 hf]
    rfl

end Frame

theorem PacketKind.bareFrame_eq_ok_iff {kind : PacketKind} {f : Frame} :
    kind.bareFrame.parse b = .ok f ↔
      f.footer.length = Sealed.footerSize ∧ b = Field.word kind.tag ++ f.sealed.wire := by
  unfold bareFrame
  rw [Reader.parse_eq_ok_iff]
  simp only [Reader.bind_eq_ok_iff]
  constructor
  · rintro ⟨rest, u, b', hk, hf⟩
    obtain ⟨⟨hfooter, rfl⟩, -⟩ := Frame.read_eq_ok_iff.1 hf
    exact ⟨hfooter, expect_eq_ok_iff.1 hk⟩
  · rintro ⟨hfooter, hb⟩
    exact ⟨[], (), f.sealed.wire, expect_eq_ok_iff.2 hb,
      Frame.read_eq_ok_iff.2 ⟨⟨hfooter, rfl⟩, rfl⟩⟩

theorem PacketKind.keyedFrame_eq_ok_iff {kind : PacketKind} {k : PublicKey} {f : Frame} :
    kind.keyedFrame.parse b = .ok (k, f) ↔ f.footer.length = Sealed.footerSize ∧
      b = Field.word kind.tag ++ (k.field ++ f.sealed.wire) := by
  unfold keyedFrame
  rw [Reader.parse_eq_ok_iff]
  simp only [Reader.bind_eq_ok_iff, Reader.pure_eq_ok_iff]
  constructor
  · rintro ⟨rest, u, b₁, hk, k', b₂, hkey, f', b₃, hf, heq, rfl⟩
    obtain ⟨rfl, rfl⟩ := Prod.mk.inj heq
    obtain ⟨⟨hfooter, rfl⟩, -⟩ := Frame.read_eq_ok_iff.1 hf
    obtain rfl := Reader.publicKey_eq_ok_iff.1 hkey
    exact ⟨hfooter, expect_eq_ok_iff.1 hk⟩
  · rintro ⟨hfooter, hb⟩
    exact ⟨[], (), _, expect_eq_ok_iff.2 hb, k, _, Reader.publicKey_eq_ok_iff.2 rfl, f, [],
      Frame.read_eq_ok_iff.2 ⟨⟨hfooter, rfl⟩, rfl⟩, rfl, rfl⟩

theorem Hello.decode_eq_ok_iff {p : Hello} : decode b = .ok p ↔ b = p.encode := by
  unfold decode read
  rw [Reader.parse_eq_ok_iff]
  simp only [Reader.bind_eq_ok_iff, Reader.pure_eq_ok_iff, Reader.finish_eq_ok_iff]
  constructor
  · rintro ⟨rest, u, b₁, hk, k, b₂, hkey, -, -, ⟨rfl, -⟩, rfl, -⟩
    obtain rfl := Reader.publicKey_eq_ok_iff.1 hkey
    rw [PacketKind.expect_eq_ok_iff.1 hk, List.append_nil]
    rfl
  · rintro rfl
    exact ⟨[], (), _, PacketKind.expect_eq_ok_iff.2 rfl, p.publicKey, [],
      Reader.publicKey_eq_ok_iff.2 (List.append_nil _).symm, (), [], ⟨rfl, rfl⟩, rfl, rfl⟩

/-- Two words that are read as the flags of an Olleh. A flag has more than one of them, so that of
what is read as an Olleh only some is written as one. -/
def Olleh.Flags (p : Olleh) (x y : UInt32) : Prop :=
  (x != 0) = p.info.needLogin ∧ (y != 0) = p.info.needPass

theorem Olleh.readBody_eq_ok_iff {k : PublicKey} {p : Olleh} :
    (readBody k).parse b = .ok p ↔
      p.info.publicKey = k ∧ ∃ x y, p.Flags x y ∧ b = Field.word x ++ Field.word y := by
  unfold readBody
  rw [Reader.parse_eq_ok_iff]
  simp only [Reader.bind_eq_ok_iff, Reader.pure_eq_ok_iff, Reader.flag_eq_ok_iff,
    Reader.finish_eq_ok_iff]
  constructor
  · rintro ⟨rest, login, -, ⟨x, hx, rfl⟩, pass, -, ⟨y, hy, rfl⟩, -, -, ⟨rfl, -⟩, rfl, -⟩
    exact ⟨rfl, x, y, ⟨hx, hy⟩, by rw [List.append_nil]⟩
  · rintro ⟨rfl, x, y, ⟨hx, hy⟩, rfl⟩
    exact ⟨[], p.info.needLogin, _, ⟨x, hx, rfl⟩, p.info.needPass, [],
      ⟨y, hy, (List.append_nil _).symm⟩, (), [], ⟨rfl, rfl⟩, rfl, rfl⟩

theorem flag_eq_word (f : Bool) : flag f = Field.word (if f then 1 else 0) := by
  cases f <;> rfl

theorem Olleh.exists_flags_body (p : Olleh) :
    ∃ x y, p.Flags x y ∧ p.body = Field.word x ++ Field.word y := by
  have hset : ∀ f : Bool, ((if f then 1 else 0 : UInt32) != 0) = f := by decide
  exact ⟨_, _, ⟨hset _, hset _⟩, by rw [body, flag_eq_word, flag_eq_word]⟩

/-- Of the words that are read as flags, zero and one are those that are written. -/
theorem Olleh.body_eq_iff {p : Olleh} {x y : UInt32} (h : p.Flags x y) :
    Field.word x ++ Field.word y = p.body ↔ (x = 0 ∨ x = 1) ∧ (y = 0 ∨ y = 1) := by
  have hword : ∀ w : UInt32, Field.word w = flag (w != 0) ↔ w = 0 ∨ w = 1 := by
    intro w
    rw [flag_eq_word, Field.word_inj]
    by_cases hw : w = 0
    · simp [hw]
    · simp [hw, bne_iff_ne.2 hw]
  obtain ⟨hx, hy⟩ := h
  rw [body, ← hx, ← hy, ← hword x, ← hword y]
  constructor
  · intro heq
    exact List.append_inj heq (by rw [flag_eq_word, Field.length_word, Field.length_word])
  · rintro ⟨hlogin, hpass⟩
    rw [hlogin, hpass]

theorem Htua.readBody_eq_ok_iff {p : Htua} : readBody.parse b = .ok p ↔ b = p.body := by
  unfold readBody
  rw [Reader.parse_eq_ok_iff]
  simp only [Reader.bind_eq_ok_iff, Reader.pure_eq_ok_iff, Reader.salt_eq_ok_iff,
    Reader.finish_eq_ok_iff]
  constructor
  · rintro ⟨rest, s, -, rfl, -, -, ⟨rfl, -⟩, rfl, -⟩
    exact List.append_nil _
  · rintro rfl
    exact ⟨[], p.salt, [], (List.append_nil _).symm, (), [], ⟨rfl, rfl⟩, rfl, rfl⟩

theorem Data.readBody_eq_ok_iff {p : Data} :
    readBody.parse b = .ok p ↔ p.payload.length ≤ maxPayload ∧ b = p.body := by
  unfold readBody
  rw [Reader.parse_eq_ok_iff]
  simp only [Reader.bind_eq_ok_iff, Reader.pure_eq_ok_iff, Reader.salt_eq_ok_iff,
    Reader.blob_eq_ok_iff_of_lt (show maxPayload < UInt32.size by decide),
    Reader.finish_eq_ok_iff]
  constructor
  · rintro ⟨rest, s, -, rfl, payload, -, ⟨hlen, rfl⟩, -, -, ⟨rfl, -⟩, rfl, -⟩
    exact ⟨hlen, by rw [List.append_nil]; rfl⟩
  · rintro ⟨hlen, rfl⟩
    exact ⟨[], p.salt, _, rfl, p.payload, [], ⟨hlen, (List.append_nil _).symm⟩, (), [],
      ⟨rfl, rfl⟩, rfl, rfl⟩

theorem Auth.readBody_eq_ok_iff {k : PublicKey} {p : Auth} :
    (readBody k).parse b = .ok p ↔
      p.publicKey = k ∧ p.credentials.Sendable ∧ b = p.body := by
  unfold readBody
  rw [Reader.parse_eq_ok_iff]
  simp only [Reader.bind_eq_ok_iff, Reader.pure_eq_ok_iff, Reader.salt_eq_ok_iff,
    Reader.text_eq_ok_iff_of_lt (show Credentials.maxSize < UInt32.size by decide),
    Reader.sessionKey_eq_ok_iff, Reader.finish_eq_ok_iff]
  constructor
  · rintro ⟨rest, s, -, rfl, login, -, ⟨hlogin, rfl⟩, pass, -, ⟨hpass, rfl⟩, key, -, rfl, -, -,
      ⟨rfl, -⟩, rfl, -⟩
    refine ⟨rfl, ⟨hlogin, hpass⟩, ?_⟩
    simp only [body, List.append_assoc, List.append_nil]
  · rintro ⟨rfl, ⟨hlogin, hpass⟩, rfl⟩
    refine ⟨[], p.salt, _, ?_, p.credentials.login, _, ⟨hlogin, rfl⟩, p.credentials.pass, _,
      ⟨hpass, rfl⟩, p.sessionKey, [], rfl, (), [], ⟨rfl, rfl⟩, rfl, rfl⟩
    simp only [body, List.append_assoc, List.append_nil]

section
variable [CipherSuite] {σ : Type} {key : SessionKey} {header : Salt}

/-- The frame of a body sealed with a pad. -/
def SessionKey.frame (key : SessionKey) (header : Salt) (pad body : Bytes) : Frame where
  header := header
  ciphertext := (key.subkeys.sealWith header.bytes pad body).ciphertext
  footer := (key.subkeys.sealWith header.bytes pad body).footer

theorem SessionKey.length_footer_frame (key : SessionKey) (header : Salt) (pad body : Bytes) :
    (key.frame header pad body).footer.length = Sealed.footerSize :=
  key.subkeys.length_footer header.bytes (pad ++ body)

theorem Frame.plain_eq_ok_iff {f : Frame} {text : Bytes} :
    f.plain key = .ok text ↔ text.length ≤ Sealed.maxPlaintext ∧
      ∃ pad, pad.length = Sealed.padSize ∧
        f.sealed = key.subkeys.sealWith f.header.bytes pad text := by
  have hmap : f.plain key = .ok text ↔ key.subkeys.openBody f.sealed = .ok text := by
    unfold plain
    rw [Sealed.decrypt_sessionKey]
    cases key.subkeys.openBody f.sealed <;> simp [Except.mapError]
  rw [hmap, Subkeys.openBody_eq_ok_iff]
  exact and_iff_right f.header.length_eq

theorem Frame.sealed_eq_iff {f : Frame} {pad text : Bytes} :
    f.sealed = key.subkeys.sealWith f.header.bytes pad text ↔ f = key.frame f.header pad text := by
  obtain ⟨h, c, t⟩ := f
  simp [sealed, SessionKey.frame, Subkeys.sealWith]

theorem PacketKind.peek_wire (kind : PacketKind) (prologue : Bytes) (key : SessionKey)
    (header : Salt) (pad body : Bytes) :
    peek (kind.wire prologue key header pad body) = .ok kind :=
  peek_eq_ok_iff.2 ⟨_, List.append_assoc _ _ _⟩

omit [CipherSuite] in
theorem Hello.peek_encode (p : Hello) : PacketKind.peek p.encode = .ok .hello :=
  PacketKind.peek_eq_ok_iff.2 ⟨_, rfl⟩

theorem Auth.peek_wire (p : Auth) (key : SessionKey) (header : Salt) (pad : Bytes) :
    PacketKind.peek (p.wire key header pad) = .ok .auth :=
  PacketKind.peek_wire .auth p.publicKey.field key header pad p.body

theorem Data.peek_wire (p : Data) (key : SessionKey) (header : Salt) (pad : Bytes) :
    PacketKind.peek (p.wire key header pad) = .ok .data :=
  PacketKind.peek_wire .data [] key header pad p.body

theorem PacketKind.bareFrame_wire (kind : PacketKind) (key : SessionKey) (header : Salt)
    (pad body : Bytes) :
    kind.bareFrame.parse (kind.wire [] key header pad body) = .ok (key.frame header pad body) :=
  bareFrame_eq_ok_iff.2 ⟨key.length_footer_frame header pad body, rfl⟩

theorem PacketKind.keyedFrame_eq_ok_frame_iff {kind : PacketKind} {k : PublicKey}
    {pad body : Bytes} :
    kind.keyedFrame.parse b = .ok (k, key.frame header pad body) ↔
      b = kind.wire k.field key header pad body := by
  rw [keyedFrame_eq_ok_iff, and_iff_right (key.length_footer_frame header pad body), wire,
    List.append_assoc]
  rfl

theorem Frame.plain_frame {pad text : Bytes} (ht : text.length ≤ Sealed.maxPlaintext)
    (hp : pad.length = Sealed.padSize) : (key.frame header pad text).plain key = .ok text :=
  Frame.plain_eq_ok_iff.2 ⟨ht, pad, hp, rfl⟩

theorem Frame.read_plain_eq_ok_iff {α : Type} {read : Reader α} {f : Frame} {r : Received α} :
    (do return ⟨f.header, ← read.parse (← f.plain key)⟩ : Except Error (Received α)) = .ok r ↔
      r.header = f.header ∧ ∃ text pad, read.parse text = .ok r.packet ∧
        text.length ≤ Sealed.maxPlaintext ∧ pad.length = Sealed.padSize ∧
          f = key.frame r.header pad text := by
  simp only [Except.bind_eq_ok_iff]
  constructor
  · rintro ⟨text, hp, p, hb, hr⟩
    obtain rfl := Except.ok.inj hr
    obtain ⟨hlen, pad, hpad, hf⟩ := Frame.plain_eq_ok_iff.1 hp
    exact ⟨rfl, text, pad, hb, hlen, hpad, Frame.sealed_eq_iff.1 hf⟩
  · obtain ⟨header, p⟩ := r
    rintro ⟨rfl, text, pad, hb, hlen, hpad, hf⟩
    have hp : f.plain key = .ok text :=
      Frame.plain_eq_ok_iff.2 ⟨hlen, pad, hpad, Frame.sealed_eq_iff.2 hf⟩
    exact ⟨text, hp, p, hb, rfl⟩

theorem Olleh.ofFrame_eq_ok_iff {k : PublicKey} {f : Frame} {r : Received Olleh} :
    ofFrame k f key = .ok r ↔ r.header = f.header ∧ r.packet.info.publicKey = k ∧
      ∃ x y, r.packet.Flags x y ∧ ∃ pad, pad.length = Sealed.padSize ∧
        f = key.frame r.header pad (Field.word x ++ Field.word y) := by
  unfold ofFrame
  rw [Frame.read_plain_eq_ok_iff]
  refine and_congr_right fun _ => ⟨?_, ?_⟩
  · rintro ⟨text, pad, hb, -, hpad, hf⟩
    obtain ⟨hk, x, y, hflags, rfl⟩ := readBody_eq_ok_iff.1 hb
    exact ⟨hk, x, y, hflags, pad, hpad, hf⟩
  · rintro ⟨hk, x, y, hflags, pad, hpad, hf⟩
    refine ⟨_, pad, readBody_eq_ok_iff.2 ⟨hk, x, y, hflags, rfl⟩, ?_, hpad, hf⟩
    simp [Sealed.maxPlaintext]

theorem Htua.ofFrame_eq_ok_iff {f : Frame} {r : Received Htua} :
    ofFrame f key = .ok r ↔ r.header = f.header ∧
      ∃ pad, pad.length = Sealed.padSize ∧ f = key.frame r.header pad r.packet.body := by
  unfold ofFrame
  rw [Frame.read_plain_eq_ok_iff]
  refine and_congr_right fun _ => ⟨?_, ?_⟩
  · rintro ⟨text, pad, hb, -, hpad, hf⟩
    exact ⟨pad, hpad, readBody_eq_ok_iff.1 hb ▸ hf⟩
  · rintro ⟨pad, hpad, hf⟩
    exact ⟨_, pad, readBody_eq_ok_iff.2 rfl, length_body_le r.packet, hpad, hf⟩

theorem Data.ofFrame_eq_ok_iff {f : Frame} {r : Received Data} :
    ofFrame f key = .ok r ↔ r.header = f.header ∧ r.packet.payload.length ≤ maxPayload ∧
      ∃ pad, pad.length = Sealed.padSize ∧ f = key.frame r.header pad r.packet.body := by
  unfold ofFrame
  rw [Frame.read_plain_eq_ok_iff]
  refine and_congr_right fun _ => ⟨?_, ?_⟩
  · rintro ⟨text, pad, hb, -, hpad, hf⟩
    obtain ⟨hlen, rfl⟩ := readBody_eq_ok_iff.1 hb
    exact ⟨hlen, pad, hpad, hf⟩
  · rintro ⟨hlen, pad, hpad, hf⟩
    exact ⟨_, pad, readBody_eq_ok_iff.2 ⟨hlen, rfl⟩, length_body_le hlen, hpad, hf⟩

theorem Auth.ofFrame_eq_ok_iff {k : PublicKey} {f : Frame} {r : Received Auth} :
    ofFrame k f key = .ok r ↔ r.header = f.header ∧ r.packet.publicKey = k ∧
      r.packet.credentials.Sendable ∧
        ∃ pad, pad.length = Sealed.padSize ∧ f = key.frame r.header pad r.packet.body := by
  unfold ofFrame
  rw [Frame.read_plain_eq_ok_iff]
  refine and_congr_right fun _ => ⟨?_, ?_⟩
  · rintro ⟨text, pad, hb, -, hpad, hf⟩
    obtain ⟨hk, hc, rfl⟩ := readBody_eq_ok_iff.1 hb
    exact ⟨hk, hc, pad, hpad, hf⟩
  · rintro ⟨hk, hc, pad, hpad, hf⟩
    exact ⟨_, pad, readBody_eq_ok_iff.2 ⟨hk, hc, rfl⟩, length_body_le hc, hpad, hf⟩

theorem Htua.decode_eq_ok_iff {r : Received Htua} :
    decode b key = .ok r ↔
      ∃ pad, pad.length = Sealed.padSize ∧ b = r.packet.wire key r.header pad := by
  unfold decode
  rw [Except.bind_eq_ok_iff]
  constructor
  · rintro ⟨f, hf, hr⟩
    obtain ⟨-, pad, hpad, rfl⟩ := ofFrame_eq_ok_iff.1 hr
    exact ⟨pad, hpad, (PacketKind.bareFrame_eq_ok_iff.1 hf).2⟩
  · rintro ⟨pad, hpad, rfl⟩
    exact ⟨_, PacketKind.bareFrame_wire .htua key r.header pad r.packet.body,
      ofFrame_eq_ok_iff.2 ⟨rfl, pad, hpad, rfl⟩⟩

omit [CipherSuite] in
/-- The key is asked for once, with the public key of a packet whose clear part is well formed. -/
theorem PacketKind.exec_keyed {α : Type} (kind : PacketKind) (b : Bytes)
    (keyFor : PublicKey → Attempt σ SessionKey)
    (ofFrame : PublicKey → Frame → SessionKey → Except Error α) (e : Env σ) :
    Fallible.exec (do
      let (k, f) ← kind.keyedFrame.parse b
      let key ← keyFor k
      ofFrame k f key : Attempt σ α) e = match kind.keyedFrame.parse b with
      | .error err => (.error err, e)
      | .ok (k, f) => match (keyFor k).exec e with
        | (.error err, e') => (.error err, e')
        | (.ok key, e') => (ofFrame k f key, e') := by
  rw [Fallible.exec_bind, Fallible.exec_liftExcept]
  rcases kind.keyedFrame.parse b with err | ⟨k, f⟩
  · rfl
  · dsimp only
    rw [Fallible.exec_bind]
    rcases (keyFor k).exec e with ⟨_ | _, _⟩ <;> rfl

omit [CipherSuite] in
theorem PacketKind.exec_keyed_eq_ok_iff {α : Type} {kind : PacketKind}
    {keyFor : PublicKey → Attempt σ SessionKey}
    {ofFrame : PublicKey → Frame → SessionKey → Except Error α} {e e' : Env σ} {a : α} :
    Fallible.exec (do
      let (k, f) ← kind.keyedFrame.parse b
      let key ← keyFor k
      ofFrame k f key : Attempt σ α) e = (.ok a, e') ↔
      ∃ k f key, kind.keyedFrame.parse b = .ok (k, f) ∧ (keyFor k).exec e = (.ok key, e') ∧
        ofFrame k f key = .ok a := by
  simp only [Fallible.exec_bind_eq_ok, Fallible.exec_liftExcept, Prod.mk.injEq]
  constructor
  · rintro ⟨⟨k, f⟩, _, ⟨hf, rfl⟩, key, _, hk, ha, rfl⟩
    exact ⟨k, f, key, hf, hk, ha⟩
  · rintro ⟨k, f, key, hf, hk, ha⟩
    exact ⟨(k, f), e, ⟨hf, rfl⟩, key, e', hk, ha, rfl⟩

theorem Olleh.exec_decode_snd {keyFor : PublicKey → Attempt σ SessionKey} {e : Env σ}
    (hk : ∀ k, ((keyFor k).exec e).2 = e) (b : Bytes) :
    (Fallible.exec (decode b keyFor) e).2 = e := by
  unfold decode
  rw [PacketKind.exec_keyed]
  rcases PacketKind.olleh.keyedFrame.parse b with err | ⟨k, f⟩
  · rfl
  · have hf := hk k
    dsimp only
    rcases hx : (keyFor k).exec e with ⟨err | key, e'⟩ <;> rwa [hx] at hf

theorem Olleh.exec_decode_eq_ok_iff {keyFor : PublicKey → Attempt σ SessionKey} {e e' : Env σ}
    {r : Received Olleh} :
    Fallible.exec (decode b keyFor) e = (.ok r, e') ↔
      ∃ key, (keyFor r.packet.info.publicKey).exec e = (.ok key, e') ∧
        ∃ x y, r.packet.Flags x y ∧ ∃ pad, pad.length = Sealed.padSize ∧
          b = PacketKind.olleh.wire r.packet.info.publicKey.field key r.header pad
            (Field.word x ++ Field.word y) := by
  unfold decode
  rw [PacketKind.exec_keyed_eq_ok_iff]
  constructor
  · rintro ⟨k, f, key, hf, hk, hr⟩
    obtain ⟨-, rfl, x, y, hflags, pad, hpad, rfl⟩ := ofFrame_eq_ok_iff.1 hr
    exact ⟨key, hk, x, y, hflags, pad, hpad, PacketKind.keyedFrame_eq_ok_frame_iff.1 hf⟩
  · rintro ⟨key, hk, x, y, hflags, pad, hpad, hb⟩
    exact ⟨_, _, key, PacketKind.keyedFrame_eq_ok_frame_iff.2 hb, hk,
      ofFrame_eq_ok_iff.2 ⟨rfl, rfl, x, y, hflags, pad, hpad, rfl⟩⟩

theorem Olleh.exec_decode_wire (p : Olleh) {pad : Bytes} (hp : pad.length = Sealed.padSize)
    {keyFor : PublicKey → Attempt σ SessionKey} {e e' : Env σ}
    (hk : (keyFor p.info.publicKey).exec e = (.ok key, e')) :
    Fallible.exec (decode (p.wire key header pad) keyFor) e = (.ok ⟨header, p⟩, e') := by
  obtain ⟨x, y, hflags, hbody⟩ := p.exists_flags_body
  exact exec_decode_eq_ok_iff.2 ⟨key, hk, x, y, hflags, pad, hp, by rw [wire, hbody]⟩

theorem Data.exec_decode (b : Bytes) (keyFor : Salt → Attempt σ SessionKey) (e : Env σ) :
    Fallible.exec (decode b keyFor) e = match PacketKind.data.bareFrame.parse b with
      | .error err => (.error err, e)
      | .ok f => match (keyFor f.header).exec e with
        | (.error err, e') => (.error err, e')
        | (.ok key, e') => (ofFrame f key, e') := by
  unfold decode
  rw [Fallible.exec_bind, Fallible.exec_liftExcept]
  cases PacketKind.data.bareFrame.parse b with
  | error err => rfl
  | ok f =>
    dsimp only
    rw [Fallible.exec_bind]
    rcases (keyFor f.header).exec e with ⟨_ | _, _⟩ <;> rfl

theorem Data.exec_decode_snd {keyFor : Salt → Attempt σ SessionKey} {e : Env σ}
    (hk : ∀ header, ((keyFor header).exec e).2 = e) (b : Bytes) :
    (Fallible.exec (decode b keyFor) e).2 = e := by
  rw [exec_decode]
  cases PacketKind.data.bareFrame.parse b with
  | error err => rfl
  | ok f =>
    have hf := hk f.header
    dsimp only
    rcases hx : (keyFor f.header).exec e with ⟨err | key, e'⟩ <;> rwa [hx] at hf

theorem Data.exec_decode_eq_ok_iff {keyFor : Salt → Attempt σ SessionKey} {e e' : Env σ}
    {r : Received Data} :
    Fallible.exec (decode b keyFor) e = (.ok r, e') ↔
      ∃ key, (keyFor r.header).exec e = (.ok key, e') ∧ r.packet.payload.length ≤ maxPayload ∧
        ∃ pad, pad.length = Sealed.padSize ∧ b = r.packet.wire key r.header pad := by
  rw [exec_decode]
  constructor
  · intro h
    cases hf : PacketKind.data.bareFrame.parse b with
    | error err =>
      rw [hf] at h
      cases h
    | ok f =>
      rw [hf] at h
      dsimp only at h
      rcases hk : (keyFor f.header).exec e with ⟨err | key, e₁⟩
      · rw [hk] at h
        cases h
      · rw [hk] at h
        obtain ⟨hr, rfl⟩ := Prod.mk.inj h
        obtain ⟨hh, hlen, pad, hpad, hfr⟩ := ofFrame_eq_ok_iff.1 hr
        refine ⟨key, hh ▸ hk, hlen, pad, hpad, ?_⟩
        rw [(PacketKind.bareFrame_eq_ok_iff.1 hf).2, hfr]
        rfl
  · rintro ⟨key, hk, hlen, pad, hpad, rfl⟩
    rw [wire, PacketKind.bareFrame_wire]
    dsimp only
    rw [show (key.frame r.header pad r.packet.body).header = r.header from rfl, hk]
    dsimp only
    rw [ofFrame_eq_ok_iff.2 ⟨rfl, hlen, pad, hpad, rfl⟩]

theorem Data.exec_decode_wire_of_refused {p : Data} {pad : Bytes}
    {keyFor : Salt → Attempt σ SessionKey} {e e' : Env σ} {err : Error}
    (hk : (keyFor header).exec e = (.error err, e')) :
    Fallible.exec (decode (p.wire key header pad) keyFor) e = (.error err, e') := by
  rw [exec_decode, wire, PacketKind.bareFrame_wire]
  dsimp only
  rw [show (key.frame header pad p.body).header = header from rfl, hk]

theorem Auth.exec_decode_eq_ok_iff {keyFor : PublicKey → Attempt σ SessionKey} {e e' : Env σ}
    {r : Received Auth} :
    Fallible.exec (decode b keyFor) e = (.ok r, e') ↔
      ∃ key, (keyFor r.packet.publicKey).exec e = (.ok key, e') ∧ r.packet.credentials.Sendable ∧
        ∃ pad, pad.length = Sealed.padSize ∧ b = r.packet.wire key r.header pad := by
  unfold decode
  rw [PacketKind.exec_keyed_eq_ok_iff]
  constructor
  · rintro ⟨k, f, key, hf, hk, hr⟩
    obtain ⟨-, rfl, hc, pad, hpad, rfl⟩ := ofFrame_eq_ok_iff.1 hr
    exact ⟨key, hk, hc, pad, hpad, PacketKind.keyedFrame_eq_ok_frame_iff.1 hf⟩
  · rintro ⟨key, hk, hc, pad, hpad, hb⟩
    exact ⟨_, _, key, PacketKind.keyedFrame_eq_ok_frame_iff.2 hb, hk,
      ofFrame_eq_ok_iff.2 ⟨rfl, rfl, hc, pad, hpad, rfl⟩⟩

end

end SealedDatagram

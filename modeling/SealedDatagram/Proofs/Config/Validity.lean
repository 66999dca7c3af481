import SealedDatagram.Config.File
import SealedDatagram.Proofs.Config.Reload
import SealedDatagram.Proofs.Field
/-!
Valid configurations that are saved and loaded again. What was checked are spans of time to the
nanosecond, what is loaded are whole milliseconds: a span below one of them comes back as none, and
is a problem then.
-/

namespace SealedDatagram

open Toml

@[simp] theorem firstOf_eq_nil_iff {l : List (Bool × Problem)} :
    firstOf l = [] ↔ ∀ e ∈ l, e.1 = false := by
  induction l with
  | nil => simp [firstOf]
  | cons e l ih =>
    obtain ⟨holds, p⟩ := e
    cases holds <;> simp [firstOf, ih]

namespace Duration

variable (d e : Duration)

@[simp] theorem stored_eq_zero_iff : d.stored = zero ↔ d.storedMillis = 0 := by
  rw [stored, ofMillis, zero, Duration.mk.injEq]
  omega

@[simp] theorem stored_lt_stored_iff : d.stored < e.stored ↔ d.storedMillis < e.storedMillis := by
  change d.storedMillis * 1000000 < e.storedMillis * 1000000 ↔ _
  omega

theorem storedMillis_of_lt {d : Duration} (h : d.millis < UInt64.size) :
    d.storedMillis = d.millis := Nat.mod_eq_of_lt h

theorem stored_le : d.stored ≤ d := by
  have hmod : d.storedMillis ≤ d.millis := Nat.mod_le ..
  have hdiv : d.millis * 1000000 ≤ d.nanos := Nat.div_mul_le_self ..
  exact (Nat.mul_le_mul_right 1000000 hmod).trans hdiv

end Duration

section Sections

theorem ChannelConfig.problems_eq_nil_iff (c : ChannelConfig) : c.problems = [] ↔
    (c.address.isEmpty = false ∧ (SocketAddress.ofText? c.address).isNone = false) ∧
    (c.pollTimeout ≠ .zero ∧ ¬ .ofSeconds 30 < c.pollTimeout) ∧
    (c.bufferCapacity ≠ 0 ∧ c.bufferCapacity ≤ 65536) ∧
    (512 ≤ c.slotSize ∧ c.slotSize ≤ 65536) := by
  simp [problems, and_assoc]

theorem PoolConfig.problems_eq_nil_iff (c : PoolConfig) : c.problems = [] ↔
    c.minWorkers ≠ 0 ∧ (c.minWorkers ≤ c.maxWorkers ∧ c.maxWorkers ≤ 1024) ∧
    c.waitTimeout ≠ .zero ∧ c.maxIdleAttempts ≠ 0 ∧ ¬ c.shutdownTimeout < c.waitTimeout := by
  simp [problems]

theorem SecurityConfig.problems_eq_nil_iff (c : SecurityConfig) : c.problems = [] ↔
    c.replayWindow ≤ 4096 ∧ c.sessionTtl ≠ .zero ∧
    (c.maxSessions ≠ 0 ∧ c.maxSessions ≤ 1048576) := by
  simp [problems]

theorem ChannelConfig.problems_inMillis {c : ChannelConfig} (h : c.problems = []) :
    c.inMillis.problems = [] ↔ c.pollTimeout.storedMillis ≠ 0 := by
  rw [problems_eq_nil_iff] at h ⊢
  have hle := c.pollTimeout.stored_le
  obtain ⟨haddress, ⟨-, hlong⟩, hcapacity, hslots⟩ := h
  have hstored : ¬ .ofSeconds 30 < c.pollTimeout.stored :=
    fun hlt => hlong (Nat.lt_of_lt_of_le hlt hle)
  simp [inMillis, haddress, hstored, hcapacity, hslots]

theorem PoolConfig.problems_inMillis {c : PoolConfig} (h : c.problems = []) :
    c.inMillis.problems = [] ↔ c.waitTimeout.storedMillis ≠ 0 ∧
      c.waitTimeout.storedMillis ≤ c.shutdownTimeout.storedMillis := by
  rw [problems_eq_nil_iff] at h ⊢
  obtain ⟨hmin, hmax, -, hidle, -⟩ := h
  simp [inMillis, hmin, hmax, hidle]

theorem SecurityConfig.problems_inMillis {c : SecurityConfig} (h : c.problems = []) :
    c.inMillis.problems = [] ↔ c.sessionTtl.storedMillis ≠ 0 := by
  rw [problems_eq_nil_iff] at h ⊢
  obtain ⟨hwindow, -, hsessions⟩ := h
  simp [inMillis, hwindow, hsessions]

end Sections

namespace Config

variable {c : Config}

theorem problems_eq_nil_iff : c.problems = [] ↔ c.channel.problems = [] ∧
    c.pool.problems = [] ∧ c.security.problems = [] ∧ c.logging.problems = [] := by
  simp [problems]

/-- What a document has to keep of the durations of a valid configuration, for it to stay valid. -/
theorem problems_inMillis (h : c.problems = []) : c.inMillis.problems = [] ↔
    c.channel.pollTimeout.storedMillis ≠ 0 ∧ c.pool.waitTimeout.storedMillis ≠ 0 ∧
    c.security.sessionTtl.storedMillis ≠ 0 ∧
    c.pool.waitTimeout.storedMillis ≤ c.pool.shutdownTimeout.storedMillis := by
  obtain ⟨hchannel, hpool, hsecurity, hlogging⟩ := problems_eq_nil_iff.1 h
  rw [problems_eq_nil_iff]
  change c.channel.inMillis.problems = [] ∧ c.pool.inMillis.problems = [] ∧
    c.security.inMillis.problems = [] ∧ c.logging.problems = [] ↔ _
  rw [ChannelConfig.problems_inMillis hchannel, PoolConfig.problems_inMillis hpool,
    SecurityConfig.problems_inMillis hsecurity]
  tauto

def saveBy (k : Codec) (c : Config) (p : Place) : Except ConfigFault Place := do
  let text ← c.toTomlBy k
  match p with
  | .file _ | .vacant => return .file (Bytes.ofText text)
  | .directory => throw (.cannotWrite .directory)
  | .unreachable => throw (.cannotWrite .absent)

def loadBy (k : Codec) : Place → Except ConfigFault Config
  | .file content =>
    match content.toText? with
    | some text => ofTomlBy k text
    | none => .error (.cannotRead .notText)
  | .directory => .error (.cannotRead .directory)
  | .vacant | .unreachable => .error (.cannotOpen .absent)

variable {k : Codec} {place saved : Place}

theorem save_eq (c : Config) (place : Place) : c.save place = c.saveBy .own place := rfl

theorem load_eq (place : Place) : load place = loadBy .own place := by
  cases place <;> rfl

theorem saveBy_eq_ok_iff : c.saveBy k place = .ok saved ↔ ∃ text, c.toTomlBy k = .ok text ∧
    (place = .vacant ∨ ∃ content, place = .file content) ∧ saved = .file (Bytes.ofText text) := by
  unfold saveBy
  rw [Except.bind_eq_ok_iff]
  refine exists_congr fun text => and_congr_right fun _ => ?_
  cases place <;> simp [Pure.pure, Except.pure, eq_comm]

theorem loadBy_ofText (k : Codec) (text : String) :
    loadBy k (.file (Bytes.ofText text)) = ofTomlBy k text := by
  rw [loadBy, Bytes.toText?_eq_some_iff.2 rfl]

theorem loadBy_saveBy (hk : k.ReadsBack) (h : c.saveBy k place = .ok saved) :
    loadBy k saved = .ok c.inMillis := by
  obtain ⟨text, htext, -, rfl⟩ := saveBy_eq_ok_iff.1 h
  rw [loadBy_ofText, ofTomlBy_toTomlBy hk htext]

theorem load_save (h : c.save place = .ok saved) : load saved = .ok c.inMillis := by
  rw [save_eq] at h
  rw [load_eq, loadBy_saveBy Codec.own_readsBack h]

theorem exists_save (hnumbers : ∀ n ∈ c.numbers, n ≤ Setting.largest)
    (haddress : countable c.channel.address.toList = true)
    (hname : countable c.logging.appName.toList = true) :
    ∃ saved, c.save .vacant = .ok saved := by
  obtain ⟨text, htext⟩ := toToml_iff.2 ⟨hnumbers, haddress, hname⟩
  rw [toToml_eq] at htext
  simp only [save_eq]
  exact ⟨_, saveBy_eq_ok_iff.2 ⟨text, htext, .inl rfl, rfl⟩⟩

/-- A valid configuration that is saved is loaded with its durations as whole milliseconds, of which
64 bits count. It is valid then exactly if the spans that must not be zero have a millisecond left
and the pool still stops no sooner than its workers wait; the latter goes without saying for spans
whose milliseconds are kept. -/
theorem reloaded_valid_iff (hk : k.ReadsBack) (hvalid : c.problems = [])
    (hsave : c.saveBy k place = .ok saved) :
    loadBy k saved = .ok c.inMillis ∧
    (c.inMillis.problems = [] ↔
      c.channel.pollTimeout.storedMillis ≠ 0 ∧ c.pool.waitTimeout.storedMillis ≠ 0 ∧
      c.security.sessionTtl.storedMillis ≠ 0 ∧
      c.pool.waitTimeout.storedMillis ≤ c.pool.shutdownTimeout.storedMillis) ∧
    ((∀ d ∈ c.durations, d.millis < UInt64.size) →
      (c.inMillis.problems = [] ↔ 1 ≤ c.channel.pollTimeout.millis ∧
        1 ≤ c.pool.waitTimeout.millis ∧ 1 ≤ c.security.sessionTtl.millis)) := by
  refine ⟨loadBy_saveBy hk hsave, problems_inMillis hvalid, fun hkept => ?_⟩
  simp only [durations, List.forall_mem_cons] at hkept
  obtain ⟨hpoll, hwait, hshutdown, httl, -⟩ := hkept
  have hpool := (PoolConfig.problems_eq_nil_iff _).1 (problems_eq_nil_iff.1 hvalid).2.1
  have hle : c.pool.waitTimeout.millis ≤ c.pool.shutdownTimeout.millis :=
    Nat.div_le_div_right (Nat.not_lt.1 hpool.2.2.2.2)
  rw [problems_inMillis hvalid, Duration.storedMillis_of_lt hpoll,
    Duration.storedMillis_of_lt hwait, Duration.storedMillis_of_lt httl,
    Duration.storedMillis_of_lt hshutdown]
  omega

theorem reloaded_valid_half : ∃ saved,
    Config.problems { pool := { waitTimeout := ⟨1500000⟩ } } = [] ∧
    save { pool := { waitTimeout := ⟨1500000⟩ } } .vacant = .ok saved ∧
    load saved = .ok { pool := { waitTimeout := .ofMillis 1 } } ∧
    Config.problems { pool := { waitTimeout := .ofMillis 1 } } = [] := by
  have hvalid : Config.problems { pool := { waitTimeout := ⟨1500000⟩ } } = [] := by decide +kernel
  obtain ⟨saved, hsave⟩ := @exists_save { pool := { waitTimeout := ⟨1500000⟩ } } (by decide)
    (by decide) (by decide)
  have h := reloaded_valid_iff Codec.own_readsBack hvalid ((save_eq _ _).symm.trans hsave)
  exact ⟨saved, hvalid, hsave, (load_eq saved).trans h.1, (h.2.2 (by decide)).2 (by decide)⟩

/-- A poll timeout of one nanosecond is saved as none, which is a problem. -/
theorem reloaded_invalid_below_milli : ∃ saved,
    Config.problems { channel := { pollTimeout := ⟨1⟩ } } = [] ∧
    save { channel := { pollTimeout := ⟨1⟩ } } .vacant = .ok saved ∧
    ∃ c, load saved = .ok c ∧ c.problems = [.zeroPollTimeout] := by
  obtain ⟨saved, hsave⟩ := @exists_save { channel := { pollTimeout := ⟨1⟩ } } (by decide)
    (by decide) (by decide)
  exact ⟨saved, by decide +kernel, hsave, _, load_save hsave, by decide +kernel⟩

end Config

end SealedDatagram

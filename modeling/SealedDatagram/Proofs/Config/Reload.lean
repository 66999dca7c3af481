import SealedDatagram.Proofs.Config.Stored
import SealedDatagram.Proofs.Toml.Document
/-!
Configurations that are saved and loaded again, whatever documents are printed and parsed with, and
with the documents of this library. Loading gives back what a document keeps of the configuration.
-/

namespace SealedDatagram

open Toml

/-- What documents are printed and parsed with. -/
structure Toml.Codec where
  print : List Section → Except ConfigFault String
  parse : String → Option Entries

namespace Toml.Codec

/-- Any sections of strings, booleans and integers of 64 bits with a sign are printed, and what is
printed is parsed as these sections. -/
def Inverts (k : Codec) : Prop :=
  ∀ sections, WellFormed sections →
    ∃ text, k.print sections = .ok text ∧ k.parse text = some (.ofSections sections)

/-- Sections that are printed are parsed as these sections. -/
def ReadsBack (k : Codec) : Prop :=
  ∀ sections text, WellFormed sections → k.print sections = .ok text →
    k.parse text = some (.ofSections sections)

theorem Inverts.readsBack {k : Codec} (hk : k.Inverts) : k.ReadsBack := by
  intro sections text hsections hprint
  obtain ⟨text', hprint', hparse⟩ := hk sections hsections
  rw [hprint] at hprint'
  cases hprint'
  exact hparse

/-- The documents of this library: no text is printed whose quotes cannot be counted. -/
def own : Codec where
  print sections :=
    if sections.all Section.countable then .ok (write sections) else .error .longRun
  parse := read?

theorem own_print_eq_ok_iff {sections : List Section} {text : String} :
    own.print sections = .ok text ↔
      sections.all Section.countable = true ∧ text = write sections := by
  change (if sections.all Section.countable then Except.ok (write sections) else _) = _ ↔ _
  split <;> simp [*, eq_comm (a := text)]

theorem own_readsBack : own.ReadsBack := by
  intro sections text hsections hprint
  obtain ⟨-, rfl⟩ := own_print_eq_ok_iff.1 hprint
  exact read?_write hsections

/-- The documents of this library, whose quotes are counted without a limit. -/
def unlimited : Codec where
  print sections := .ok (write sections)
  parse := read?

theorem unlimited_inverts : unlimited.Inverts :=
  fun sections h => ⟨write sections, rfl, read?_write h⟩

end Toml.Codec

namespace Config

def toTomlBy (k : Codec) (c : Config) : Except ConfigFault String :=
  match c.toSections? with
  | some sections => k.print sections
  | none => .error .unwritable

def ofTomlBy (k : Codec) (text : String) : Except ConfigFault Config :=
  match k.parse text with
  | some t => (ofEntries t).mapError .misfit
  | none => .error .unreadable

theorem toToml_eq (c : Config) : c.toToml = c.toTomlBy .own := rfl

theorem ofToml_eq (text : String) : ofToml text = ofTomlBy .own text := rfl

variable {k : Codec} {c : Config} {text : String}

theorem toTomlBy_eq_ok_iff : c.toTomlBy k = .ok text ↔
    ∃ sections, c.toSections? = some sections ∧ k.print sections = .ok text := by
  unfold toTomlBy
  split <;> simp [*]

theorem ofTomlBy_sections {sections : List Section} (h : c.toSections? = some sections)
    (hparse : k.parse text = some (.ofSections sections)) :
    ofTomlBy k text = .ok c.inMillis := by
  rw [ofTomlBy, hparse]
  dsimp only
  rw [ofEntries_sections h]
  rfl

/-- A configuration that is saved is loaded as what a document keeps of it. -/
theorem ofTomlBy_toTomlBy (hk : k.ReadsBack) (h : c.toTomlBy k = .ok text) :
    ofTomlBy k text = .ok c.inMillis := by
  obtain ⟨sections, hsections, hprint⟩ := toTomlBy_eq_ok_iff.1 h
  exact ofTomlBy_sections hsections (hk sections text (toSections?_wellFormed hsections) hprint)

/-- A configuration is saved exactly if its numbers fit, and is loaded with its durations in whole
milliseconds, of which 64 bits count. -/
theorem reloaded_in_millis (k : Codec) (hk : k.Inverts) (c : Config) :
    ((∃ text, c.toTomlBy k = .ok text) ↔ ∀ n ∈ c.numbers, n ≤ Setting.largest) ∧
    (∀ text, c.toTomlBy k = .ok text → ofTomlBy k text = .ok c.inMillis) ∧
    ((∀ d ∈ c.durations, ∃ n, n ≤ Setting.largest ∧ d = .ofMillis n) →
      ∀ text, c.toTomlBy k = .ok text → ofTomlBy k text = .ok c) := by
  have hread : ∀ text, c.toTomlBy k = .ok text → ofTomlBy k text = .ok c.inMillis :=
    fun _ htext => ofTomlBy_toTomlBy hk.readsBack htext
  refine ⟨?_, hread, fun hwhole text htext => ?_⟩
  · rw [← toSections?_iff]
    simp only [toTomlBy_eq_ok_iff]
    constructor
    · rintro ⟨_, sections, hsections, -⟩
      exact ⟨sections, hsections⟩
    · rintro ⟨sections, hsections⟩
      obtain ⟨text, hprint, -⟩ := hk sections (toSections?_wellFormed hsections)
      exact ⟨text, sections, hsections, hprint⟩
  · have hkept : ∀ d ∈ c.durations, d.stored = d := by
      intro d hd
      obtain ⟨n, hn, rfl⟩ := hwhole d hd
      exact Duration.stored_ofMillis (Nat.lt_of_le_of_lt hn (by decide))
    rw [hread text htext, inMillis_eq_self hkept]

/-- A wait of one and a half milliseconds comes back as one of a millisecond. -/
theorem reloaded_in_millis_half : ∃ text,
    toTomlBy .unlimited { pool := { waitTimeout := ⟨1500000⟩ } } = .ok text ∧
    ofTomlBy .unlimited text = .ok { pool := { waitTimeout := .ofMillis 1 } } := by
  have h := reloaded_in_millis .unlimited Codec.unlimited_inverts
    { pool := { waitTimeout := ⟨1500000⟩ } }
  obtain ⟨text, htext⟩ := h.1.2 (by decide)
  exact ⟨text, htext, h.2.1 text htext⟩

theorem ofToml_toToml (h : c.toToml = .ok text) : ofToml text = .ok c.inMillis := by
  rw [toToml_eq] at h
  rw [ofToml_eq, ofTomlBy_toTomlBy Codec.own_readsBack h]

end Config

def Toml.countableEntry (e : String × Scalar) : Bool :=
  match e.2 with
  | .string t => countable t.toList
  | _ => true

theorem Toml.Section.countable_eq (s : Section) : s.countable = s.entries.all countableEntry := rfl

namespace Setting

variable (key : String)

theorem all_entry_text (s : String) :
    ((text key).entry s).all countableEntry = countable s.toList := rfl

theorem all_entry_flag (b : Bool) : ((flag key).entry b).all countableEntry = true := rfl

theorem all_entry_level (l : LogLevel) : ((level key).entry l).all countableEntry = true := by
  change countable l.name.toList = true
  cases l <;> decide

theorem all_writeUnsigned (n : Nat) :
    ((writeUnsigned n).map (key, ·)).all countableEntry = true := by
  unfold writeUnsigned
  split <;> rfl

theorem all_entry_size (fallback : Option UInt64) (n : UInt64) :
    ((size key fallback).entry n).all countableEntry = true := all_writeUnsigned key _

theorem all_entry_smallCount (n : UInt32) :
    ((smallCount key).entry n).all countableEntry = true := all_writeUnsigned key _

theorem all_entry_duration (d : Duration) :
    ((duration key).entry d).all countableEntry = true := all_writeUnsigned key _

end Setting

namespace Stored

theorem all_channelColumns (c : ChannelConfig) :
    (channelColumns.all fun k => (k.entry c).all countableEntry) = countable c.address.toList := by
  simp [channelColumns, Column.entry, address, pollTimeout, bufferCapacity, slotSize, debugDrops,
    Setting.all_entry_text, Setting.all_entry_duration, Setting.all_entry_size,
    Setting.all_entry_flag]

theorem all_poolColumns (c : PoolConfig) :
    (poolColumns.all fun k => (k.entry c).all countableEntry) = true := by
  simp [poolColumns, Column.entry, minWorkers, maxWorkers, waitTimeout, maxIdleAttempts,
    backlogThreshold, shutdownTimeout, Setting.all_entry_size, Setting.all_entry_duration,
    Setting.all_entry_smallCount]

theorem all_securityColumns (c : SecurityConfig) :
    (securityColumns.all fun k => (k.entry c).all countableEntry) = true := by
  simp [securityColumns, Column.entry, needLogin, needPass, replayWindow, sessionTtl, maxSessions,
    Setting.all_entry_flag, Setting.all_entry_size, Setting.all_entry_duration]

theorem all_loggingColumns (c : LoggingConfig) :
    (loggingColumns.all fun k => (k.entry c).all countableEntry) = countable c.appName.toList := by
  simp [loggingColumns, Column.entry, appName, logLevel, jsonFormat, envFilter,
    Setting.all_entry_text, Setting.all_entry_level, Setting.all_entry_flag]

end Stored

namespace Config

variable {c : Config}

theorem countable_sections {sections : List Section} (h : c.toSections? = some sections) :
    sections.all Section.countable =
      (countable c.channel.address.toList && countable c.logging.appName.toList) := by
  obtain ⟨_, hchannel, _, hpool, _, hsecurity, _, hlogging, rfl⟩ := toSections?_eq_some_iff.1 h
  simp [Section.countable_eq, Stored.channel_consists.all_entries hchannel,
    Stored.pool_consists.all_entries hpool, Stored.security_consists.all_entries hsecurity,
    Stored.logging_consists.all_entries hlogging, Stored.all_channelColumns,
    Stored.all_poolColumns, Stored.all_securityColumns, Stored.all_loggingColumns]

/-- This library saves a configuration exactly if its numbers fit and the quotes of its two texts
can be counted. -/
theorem toToml_iff : (∃ text, c.toToml = .ok text) ↔ (∀ n ∈ c.numbers, n ≤ Setting.largest) ∧
    countable c.channel.address.toList = true ∧ countable c.logging.appName.toList = true := by
  rw [← toSections?_iff, ← Bool.and_eq_true]
  simp only [toToml_eq, toTomlBy_eq_ok_iff]
  constructor
  · rintro ⟨text, sections, hsections, hprint⟩
    rw [Codec.own_print_eq_ok_iff, countable_sections hsections] at hprint
    exact ⟨⟨sections, hsections⟩, hprint.1⟩
  · rintro ⟨⟨sections, hsections⟩, hcountable⟩
    refine ⟨write sections, sections, hsections, ?_⟩
    rw [Codec.own_print_eq_ok_iff, countable_sections hsections]
    exact ⟨hcountable, rfl⟩

end Config

end SealedDatagram

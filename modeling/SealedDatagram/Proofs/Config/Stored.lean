import SealedDatagram.Config.Stored
import SealedDatagram.Table
import SealedDatagram.Proofs.Toml.Statements
/-!
What a document keeps of a configuration, one kind of setting after the other and then one section
after the other. A number has to fit an integer of 64 bits with a sign; a duration comes back as its
whole milliseconds, of which 64 bits count.
-/

namespace SealedDatagram

open Toml

/-- The number of milliseconds that a document holds for a duration. -/
def Duration.storedMillis (d : Duration) : Nat := d.millis % UInt64.size

def Duration.stored (d : Duration) : Duration := .ofMillis d.storedMillis

theorem Duration.stored_ofMillis {n : Nat} (h : n < UInt64.size) :
    (ofMillis n).stored = ofMillis n := by
  rw [stored, storedMillis, millis_ofMillis, Nat.mod_eq_of_lt h]

namespace Setting

def largest : Nat := 0x7fffffffffffffff

theorem writeUnsigned_eq_some_iff {n : Nat} {v : Scalar} :
    writeUnsigned n = some v ↔ n ≤ largest ∧ v = .integer (Int64.ofNat n) := by
  have hsize : 2 * n < UInt64.size ↔ n ≤ largest := by
    rw [show UInt64.size = 0x10000000000000000 from rfl, largest]
    omega
  simp only [writeUnsigned, hsize]
  split <;> simp [*, eq_comm]

theorem readUnsigned_ofNat {n bound : Nat} (h : n ≤ largest) (hbound : n < bound)
    (expected : String) : readUnsigned bound expected (.integer (Int64.ofNat n)) = .ok n := by
  have hn : (Int64.ofNat n).toInt = n := by
    unfold largest at h
    exact Int64.toInt_ofNat_of_lt (by omega)
  rw [readUnsigned, hn, if_pos (by omega), Int.toNat_natCast]

variable {α : Type}

/-- A document holds the values of a setting that fit, and gives each back as what it keeps. -/
structure Keeps (s : Setting α) (fits : α → Prop) (kept : α → α) : Prop where
  write_iff (a : α) : (∃ v, s.write a = some v) ↔ fits a
  read_write {a : α} {v : Scalar} (h : s.write a = some v) : s.read v.toValue = .ok (kept a)

section Kinds
variable (key : String)

theorem text_keeps : (text key).Keeps (fun _ => True) id where
  write_iff s := ⟨fun _ => trivial, fun _ => ⟨.string s, rfl⟩⟩
  read_write h := by cases h; rfl

theorem flag_keeps : (flag key).Keeps (fun _ => True) id where
  write_iff b := ⟨fun _ => trivial, fun _ => ⟨.boolean b, rfl⟩⟩
  read_write h := by cases h; rfl

theorem level_keeps : (level key).Keeps (fun _ => True) id where
  write_iff l := ⟨fun _ => trivial, fun _ => ⟨.string l.name, rfl⟩⟩
  read_write {l v} h := by
    cases h
    simp only [level, Scalar.toValue, readText, Bind.bind, Except.bind, LogLevel.ofText?_name]
    rfl

/-- A setting that is held as the number `toNat`, and read from it by `ofNat`. -/
theorem unsigned_keeps {s : Setting α} {toNat : α → Nat} {ofNat : Nat → α} {bound : Nat}
    {expected : String} (hwrite : s.write = fun a => writeUnsigned (toNat a))
    (hread : s.read = fun v => ofNat <$> readUnsigned bound expected v)
    (hbound : ∀ a, toNat a < bound) :
    s.Keeps (fun a => toNat a ≤ largest) (fun a => ofNat (toNat a)) where
  write_iff a := by simp [hwrite, writeUnsigned_eq_some_iff]
  read_write {a v} h := by
    rw [hwrite] at h
    obtain ⟨hle, rfl⟩ := writeUnsigned_eq_some_iff.1 h
    rw [hread]
    change ofNat <$> readUnsigned bound expected (.integer _) = _
    rw [readUnsigned_ofNat hle (hbound a)]
    rfl

theorem size_keeps (fallback : Option UInt64) :
    (size key fallback).Keeps (fun n => n.toNat ≤ largest) id := by
  have h := unsigned_keeps (s := size key fallback) rfl rfl UInt64.toNat_lt
  simp only [UInt64.ofNat_toNat] at h
  exact h

theorem smallCount_keeps : (smallCount key).Keeps (fun n => n.toNat ≤ largest) id := by
  have h := unsigned_keeps (s := smallCount key) rfl rfl UInt32.toNat_lt
  simp only [UInt32.ofNat_toNat] at h
  exact h

theorem duration_keeps :
    (duration key).Keeps (fun d => d.storedMillis ≤ largest) Duration.stored :=
  unsigned_keeps (s := duration key) rfl rfl fun d => Nat.mod_lt d.millis (by decide)

end Kinds

end Setting

/-- A setting of a section, and what a document keeps of its value. -/
structure Column (α : Type) where
  {β : Type}
  setting : Setting β
  value : α → β
  {fits : β → Prop}
  {kept : β → β}
  keeps : setting.Keeps fits kept

namespace Column

variable {α : Type} (a : α)

def Fits (c : Column α) : Prop := c.fits (c.value a)

/-- Whether the setting is read from an offer as what a document keeps of the value. -/
def ReadFrom (c : Column α) (o : Offer) : Prop := c.setting.get o = .ok (c.kept (c.value a))

def entry (c : Column α) : Option (String × Scalar) := c.setting.entry (c.value a)

variable {a}

theorem entry_iff (c : Column α) : (∃ e, c.entry a = some e) ↔ c.Fits a := by
  rw [Fits, ← c.keeps.write_iff]
  simp [entry, Setting.entry]

variable {c : Column α} {e : String × Scalar} (h : c.entry a = some e)
include h

theorem write_of_entry : c.setting.key = e.1 ∧ c.setting.write (c.value a) = some e.2 := by
  obtain ⟨v, hv, rfl⟩ := Option.map_eq_some_iff.1 h
  exact ⟨rfl, hv⟩

theorem passes : c.setting.check.2 e.2.toValue = .ok () := by
  change discard (c.setting.read e.2.toValue) = _
  rw [c.keeps.read_write (write_of_entry h).2]
  rfl

theorem readFrom {o : Offer} (ho : o.entries.lookup e.1 = some e.2.toValue) : c.ReadFrom a o := by
  obtain ⟨hkey, hwrite⟩ := write_of_entry h
  rw [ReadFrom, Setting.get, hkey, ho]
  exact c.keeps.read_write hwrite

end Column

def Toml.valuesOf (entries : List (String × Scalar)) : Entries :=
  entries.map fun e => (e.1, e.2.toValue)

theorem Toml.Section.toValue_eq (s : Section) : s.toValue = .table (valuesOf s.entries) := rfl

theorem Toml.valuesOf_keys (entries : List (String × Scalar)) :
    (valuesOf entries).map Prod.fst = entries.map Prod.fst := by
  simp [valuesOf]

theorem Toml.lookup_valuesOf {entries : List (String × Scalar)}
    (hnodup : (entries.map Prod.fst).Nodup) {e : String × Scalar} (he : e ∈ entries) :
    (valuesOf entries).lookup e.1 = some e.2.toValue := by
  rw [Table.lookup_eq_some_iff (by rwa [valuesOf_keys])]
  exact List.mem_map_of_mem he

namespace Layout

variable {α : Type}

/-- A section is written and read column by column. -/
structure Consists (l : Layout α) (columns : List (Column α)) (kept : α → α) : Prop where
  settings : l.settings = columns.map (·.setting.check)
  nodup : (columns.map (·.setting.key)).Nodup
  bare : ∀ c ∈ columns, IsBareKey c.setting.key
  entries (a : α) : l.entries a = columns.mapM (·.entry a)
  build {a : α} {o : Offer} (h : ∀ c ∈ columns, c.ReadFrom a o) : l.build o = .ok (kept a)

variable {l : Layout α} {columns : List (Column α)} {a : α} {entries : List (String × Scalar)}

theorem mapM_entry_iff :
    (∃ entries, columns.mapM (·.entry a) = some entries) ↔ ∀ c ∈ columns, c.Fits a := by
  induction columns with
  | nil => simp
  | cons c columns ih =>
    rw [List.forall_mem_cons, ← ih, ← c.entry_iff]
    simp [Option.bind_eq_some_iff]

theorem map_entry_of_mapM (h : columns.mapM (·.entry a) = some entries) :
    columns.map (·.entry a) = entries.map some := by
  induction columns generalizing entries with
  | nil => cases h; rfl
  | cons c columns ih =>
    simp only [List.mapM_cons, Option.bind_eq_bind, Option.bind_eq_some_iff] at h
    obtain ⟨e, he, rest, hrest, h⟩ := h
    cases h
    rw [List.map_cons, he, ih hrest, List.map_cons]

/-- A section is built from its entries once each has passed the test of its setting. -/
theorem read_valuesOf (h : ∀ e ∈ entries, ∃ test, l.settings.lookup e.1 = some test ∧
      test e.2.toValue = .ok ()) :
    l.read (.table (valuesOf entries)) = l.build ⟨valuesOf entries, .missing⟩ := by
  have hcheck : l.check (valuesOf entries) = .ok () := by
    induction entries with
    | nil => rfl
    | cons e entries ih =>
      obtain ⟨⟨test, hlook, htest⟩, h⟩ := List.forall_mem_cons.1 h
      have hrest := ih h
      simp only [check, valuesOf, List.map_cons, List.forM_eq_forM, List.forM_cons, hlook,
        htest] at hrest ⊢
      exact hrest
  change (l.check _ >>= fun _ => l.build _) = _
  rw [hcheck]
  rfl

namespace Consists

variable {kept : α → α} (hl : l.Consists columns kept)
include hl

theorem write_iff (a : α) :
    (∃ entries, l.entries a = some entries) ↔ ∀ c ∈ columns, c.Fits a := by
  rw [hl.entries]
  exact mapM_entry_iff

variable (h : l.entries a = some entries)
include h

theorem map_entry : columns.map (·.entry a) = entries.map some :=
  map_entry_of_mapM ((hl.entries a).symm.trans h)

theorem exists_entry {c : Column α} (hc : c ∈ columns) : ∃ e ∈ entries, c.entry a = some e := by
  have hmem : c.entry a ∈ columns.map (·.entry a) := List.mem_map_of_mem hc
  rw [hl.map_entry h] at hmem
  obtain ⟨e, he, heq⟩ := List.mem_map.1 hmem
  exact ⟨e, he, heq.symm⟩

theorem exists_column {e : String × Scalar} (he : e ∈ entries) :
    ∃ c ∈ columns, c.entry a = some e := by
  have hmem : some e ∈ entries.map some := List.mem_map_of_mem he
  rw [← hl.map_entry h] at hmem
  exact List.mem_map.1 hmem

theorem keys : entries.map Prod.fst = columns.map (·.setting.key) := by
  have hmap := congrArg (List.map (Option.map Prod.fst)) (hl.map_entry h)
  rw [List.map_map, List.map_map] at hmap
  apply List.map_injective_iff.2 fun _ _ => Option.some.inj
  rw [List.map_map, List.map_map]
  refine hmap.symm.trans (List.map_congr_left fun c hc => ?_)
  obtain ⟨e, -, he⟩ := hl.exists_entry h hc
  rw [Function.comp_apply, he, Function.comp_apply, (Column.write_of_entry he).1]
  rfl

theorem all_entries (p : String × Scalar → Bool) :
    entries.all p = columns.all fun c => (c.entry a).all p := by
  have hmap := congrArg (List.all · (Option.all p)) (hl.map_entry h)
  simpa [Function.comp_def] using hmap.symm

/-- A section is read as what a document keeps of it. -/
theorem read : l.read (.table (valuesOf entries)) = .ok (kept a) := by
  rw [read_valuesOf]
  · refine hl.build fun c hc => ?_
    obtain ⟨e, he, hentry⟩ := hl.exists_entry h hc
    exact Column.readFrom hentry (lookup_valuesOf (hl.keys h ▸ hl.nodup) he)
  · intro e he
    obtain ⟨c, hc, hentry⟩ := hl.exists_column h he
    refine ⟨_, ?_, Column.passes hentry⟩
    rw [hl.settings, ← (Column.write_of_entry hentry).1, Table.lookup_eq_some_iff]
    · exact List.mem_map_of_mem hc
    · simpa [Setting.check, Function.comp_def] using hl.nodup

theorem wellFormed {name : String} (hname : IsBareKey name) :
    Section.WellFormed ⟨name, entries⟩ where
  name := hname
  keys e he := by
    obtain ⟨c, hc, hentry⟩ := hl.exists_column h he
    rw [← (Column.write_of_entry hentry).1]
    exact hl.bare c hc
  nodup := (hl.keys h).symm ▸ hl.nodup

end Consists

end Layout

/-- What a document keeps of a section: its durations in whole milliseconds. -/
def ChannelConfig.inMillis (c : ChannelConfig) : ChannelConfig :=
  { c with pollTimeout := c.pollTimeout.stored }

def PoolConfig.inMillis (c : PoolConfig) : PoolConfig :=
  { c with
    waitTimeout := c.waitTimeout.stored
    shutdownTimeout := c.shutdownTimeout.stored }

def SecurityConfig.inMillis (c : SecurityConfig) : SecurityConfig :=
  { c with sessionTtl := c.sessionTtl.stored }

namespace Stored

open Setting

def channelColumns : List (Column ChannelConfig) := [
  ⟨address, (·.address), text_keeps _⟩,
  ⟨pollTimeout, (·.pollTimeout), duration_keeps _⟩,
  ⟨bufferCapacity, (·.bufferCapacity), size_keeps _ none⟩,
  ⟨slotSize, (·.slotSize), size_keeps _ none⟩,
  ⟨debugDrops, (·.debugDrops), flag_keeps _⟩]

theorem channel_consists : channel.Consists channelColumns ChannelConfig.inMillis where
  settings := rfl
  nodup := by decide
  bare := by decide
  entries _ := rfl
  build h := by
    simp only [channelColumns, List.forall_mem_cons, Column.ReadFrom] at h
    obtain ⟨h₁, h₂, h₃, h₄, h₅, -⟩ := h
    simp only [channel, h₁, h₂, h₃, h₄, h₅]
    rfl

def poolColumns : List (Column PoolConfig) := [
  ⟨minWorkers, (·.minWorkers), size_keeps _ none⟩,
  ⟨maxWorkers, (·.maxWorkers), size_keeps _ none⟩,
  ⟨waitTimeout, (·.waitTimeout), duration_keeps _⟩,
  ⟨maxIdleAttempts, (·.maxIdleAttempts), smallCount_keeps _⟩,
  ⟨backlogThreshold, (·.backlogThreshold), size_keeps _ none⟩,
  ⟨shutdownTimeout, (·.shutdownTimeout), duration_keeps _⟩]

theorem pool_consists : pool.Consists poolColumns PoolConfig.inMillis where
  settings := rfl
  nodup := by decide
  bare := by decide
  entries _ := rfl
  build h := by
    simp only [poolColumns, List.forall_mem_cons, Column.ReadFrom] at h
    obtain ⟨h₁, h₂, h₃, h₄, h₅, h₆, -⟩ := h
    simp only [pool, h₁, h₂, h₃, h₄, h₅, h₆]
    rfl

def securityColumns : List (Column SecurityConfig) := [
  ⟨needLogin, (·.needLogin), flag_keeps _⟩,
  ⟨needPass, (·.needPass), flag_keeps _⟩,
  ⟨replayWindow, (·.replayWindow), size_keeps _ none⟩,
  ⟨sessionTtl, (·.sessionTtl), duration_keeps _⟩,
  ⟨maxSessions, (·.maxSessions), size_keeps _ (some 65536)⟩]

theorem security_consists : security.Consists securityColumns SecurityConfig.inMillis where
  settings := rfl
  nodup := by decide
  bare := by decide
  entries _ := rfl
  build h := by
    simp only [securityColumns, List.forall_mem_cons, Column.ReadFrom] at h
    obtain ⟨h₁, h₂, h₃, h₄, h₅, -⟩ := h
    simp only [security, h₁, h₂, h₃, h₄, h₅]
    rfl

def loggingColumns : List (Column LoggingConfig) := [
  ⟨appName, (·.appName), text_keeps _⟩,
  ⟨logLevel, (·.logLevel), level_keeps _⟩,
  ⟨jsonFormat, (·.jsonFormat), flag_keeps _⟩,
  ⟨envFilter, (·.envFilter), flag_keeps _⟩]

theorem logging_consists : logging.Consists loggingColumns id where
  settings := rfl
  nodup := by decide
  bare := by decide
  entries _ := rfl
  build h := by
    simp only [loggingColumns, List.forall_mem_cons, Column.ReadFrom] at h
    obtain ⟨h₁, h₂, h₃, h₄, -⟩ := h
    simp only [logging, h₁, h₂, h₃, h₄]
    rfl

end Stored

namespace Config

/-- What a document keeps of a configuration. -/
def inMillis (c : Config) : Config :=
  { c with
    channel := c.channel.inMillis
    pool := c.pool.inMillis
    security := c.security.inMillis }

/-- The durations of a configuration. -/
def durations (c : Config) : List Duration :=
  [c.channel.pollTimeout, c.pool.waitTimeout, c.pool.shutdownTimeout, c.security.sessionTtl]

def counts (c : Config) : List Nat :=
  [c.channel.bufferCapacity.toNat, c.channel.slotSize.toNat, c.pool.minWorkers.toNat,
    c.pool.maxWorkers.toNat, c.pool.maxIdleAttempts.toNat, c.pool.backlogThreshold.toNat,
    c.security.replayWindow.toNat, c.security.maxSessions.toNat]

/-- The numbers that a document has to hold for a configuration. -/
def numbers (c : Config) : List Nat := c.counts ++ c.durations.map Duration.storedMillis

theorem inMillis_eq_self {c : Config} (h : ∀ d ∈ c.durations, d.stored = d) : c.inMillis = c := by
  simp only [durations, List.forall_mem_cons] at h
  obtain ⟨hpoll, hwait, hshutdown, httl, -⟩ := h
  simp only [inMillis, ChannelConfig.inMillis, PoolConfig.inMillis, SecurityConfig.inMillis, hpoll,
    hwait, hshutdown, httl]

variable {c : Config} {sections : List Section}

theorem toSections?_eq_some_iff : c.toSections? = some sections ↔
    ∃ channel, Stored.channel.entries c.channel = some channel ∧
    ∃ pool, Stored.pool.entries c.pool = some pool ∧
    ∃ security, Stored.security.entries c.security = some security ∧
    ∃ logging, Stored.logging.entries c.logging = some logging ∧
    sections = [⟨"channel", channel⟩, ⟨"pool", pool⟩, ⟨"security", security⟩,
      ⟨"logging", logging⟩] := by
  simp [toSections?, Option.bind_eq_some_iff, eq_comm (a := sections)]

theorem toSections?_iff :
    (∃ sections, c.toSections? = some sections) ↔ ∀ n ∈ c.numbers, n ≤ Setting.largest := by
  have hsections : (∃ sections, c.toSections? = some sections) ↔
      (∃ entries, Stored.channel.entries c.channel = some entries) ∧
      (∃ entries, Stored.pool.entries c.pool = some entries) ∧
      (∃ entries, Stored.security.entries c.security = some entries) ∧
      ∃ entries, Stored.logging.entries c.logging = some entries := by
    simp [toSections?_eq_some_iff]
  rw [hsections, Stored.channel_consists.write_iff, Stored.pool_consists.write_iff,
    Stored.security_consists.write_iff, Stored.logging_consists.write_iff]
  simp only [Stored.channelColumns, Stored.poolColumns, Stored.securityColumns,
    Stored.loggingColumns, Column.Fits, numbers, counts, durations, List.map_cons, List.map_nil,
    List.cons_append, List.nil_append, List.forall_mem_cons]
  tauto

variable (h : c.toSections? = some sections)
include h

theorem toSections?_wellFormed : Toml.WellFormed sections := by
  obtain ⟨_, hchannel, _, hpool, _, hsecurity, _, hlogging, rfl⟩ := toSections?_eq_some_iff.1 h
  constructor
  · simp only [List.forall_mem_cons]
    exact ⟨Stored.channel_consists.wellFormed hchannel (by decide),
      Stored.pool_consists.wellFormed hpool (by decide),
      Stored.security_consists.wellFormed hsecurity (by decide),
      Stored.logging_consists.wellFormed hlogging (by decide), nofun⟩
  · simp

theorem ofEntries_sections : ofEntries (Entries.ofSections sections) = .ok c.inMillis := by
  obtain ⟨_, hchannel, _, hpool, _, hsecurity, _, hlogging, rfl⟩ := toSections?_eq_some_iff.1 h
  have hchannel := Stored.channel_consists.read hchannel
  have hpool := Stored.pool_consists.read hpool
  have hsecurity := Stored.security_consists.read hsecurity
  have hlogging := Stored.logging_consists.read hlogging
  simp only [ofEntries, Entries.ofSections, Section.toValue_eq, List.map_cons, List.foldlM_cons,
    addEntry, hchannel, hpool, hsecurity, hlogging]
  rfl

end Config

end SealedDatagram

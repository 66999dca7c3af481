import SealedDatagram.Config.Setting
import SealedDatagram.Toml.Statement
import SealedDatagram.Toml.Written
/-!
Configurations as documents. Every section has a table of its own. A section that is left out has
its defaults, one that is there has to be complete, and what is not known is passed over.
-/

namespace SealedDatagram

open Toml

namespace Stored

def address : Setting String := .text "address"
def pollTimeout : Setting Duration := .duration "poll_timeout"
def bufferCapacity : Setting UInt64 := .size "buffer_capacity"
def slotSize : Setting UInt64 := .size "slot_size"
def debugDrops : Setting Bool := .flag "debug_drops"

def minWorkers : Setting UInt64 := .size "min_workers"
def maxWorkers : Setting UInt64 := .size "max_workers"
def waitTimeout : Setting Duration := .duration "wait_timeout"
def maxIdleAttempts : Setting UInt32 := .smallCount "max_idle_attempts"
def backlogThreshold : Setting UInt64 := .size "backlog_threshold"
def shutdownTimeout : Setting Duration := .duration "shutdown_timeout"

def needLogin : Setting Bool := .flag "need_login"
def needPass : Setting Bool := .flag "need_pass"
def replayWindow : Setting UInt64 := .size "replay_window"
def sessionTtl : Setting Duration := .duration "session_ttl"
def maxSessions : Setting UInt64 := .size "max_sessions" (some 65536)

def appName : Setting String := .text "app_name"
def logLevel : Setting LogLevel := .level "log_level"
def jsonFormat : Setting Bool := .flag "json_format"
def envFilter : Setting Bool := .flag "env_filter"

def channel : Layout ChannelConfig where
  title := "struct ChannelConfig"
  settings := [address.check, pollTimeout.check, bufferCapacity.check, slotSize.check,
    debugDrops.check]
  build o := return {
    address := ← address.get o
    pollTimeout := ← pollTimeout.get o
    bufferCapacity := ← bufferCapacity.get o
    slotSize := ← slotSize.get o
    debugDrops := ← debugDrops.get o }
  entries c := return [← address.entry c.address, ← pollTimeout.entry c.pollTimeout,
    ← bufferCapacity.entry c.bufferCapacity, ← slotSize.entry c.slotSize,
    ← debugDrops.entry c.debugDrops]

def pool : Layout PoolConfig where
  title := "struct PoolConfig"
  settings := [minWorkers.check, maxWorkers.check, waitTimeout.check, maxIdleAttempts.check,
    backlogThreshold.check, shutdownTimeout.check]
  build o := return {
    minWorkers := ← minWorkers.get o
    maxWorkers := ← maxWorkers.get o
    waitTimeout := ← waitTimeout.get o
    maxIdleAttempts := ← maxIdleAttempts.get o
    backlogThreshold := ← backlogThreshold.get o
    shutdownTimeout := ← shutdownTimeout.get o }
  entries c := return [← minWorkers.entry c.minWorkers, ← maxWorkers.entry c.maxWorkers,
    ← waitTimeout.entry c.waitTimeout, ← maxIdleAttempts.entry c.maxIdleAttempts,
    ← backlogThreshold.entry c.backlogThreshold, ← shutdownTimeout.entry c.shutdownTimeout]

def security : Layout SecurityConfig where
  title := "struct SecurityConfig"
  settings := [needLogin.check, needPass.check, replayWindow.check, sessionTtl.check,
    maxSessions.check]
  build o := return {
    needLogin := ← needLogin.get o
    needPass := ← needPass.get o
    replayWindow := ← replayWindow.get o
    sessionTtl := ← sessionTtl.get o
    maxSessions := ← maxSessions.get o }
  entries c := return [← needLogin.entry c.needLogin, ← needPass.entry c.needPass,
    ← replayWindow.entry c.replayWindow, ← sessionTtl.entry c.sessionTtl,
    ← maxSessions.entry c.maxSessions]

def logging : Layout LoggingConfig where
  title := "struct LoggingConfig"
  settings := [appName.check, logLevel.check, jsonFormat.check, envFilter.check]
  build o := return {
    appName := ← appName.get o
    logLevel := ← logLevel.get o
    jsonFormat := ← jsonFormat.get o
    envFilter := ← envFilter.get o }
  entries c := return [← appName.entry c.appName, ← logLevel.entry c.logLevel,
    ← jsonFormat.entry c.jsonFormat, ← envFilter.entry c.envFilter]

end Stored

namespace Config

def addEntry (c : Config) (e : String × Value) : Except Misfit Config :=
  match e.1 with
  | "channel" => (fun channel => { c with channel }) <$> Stored.channel.read e.2
  | "pool" => (fun pool => { c with pool }) <$> Stored.pool.read e.2
  | "security" => (fun security => { c with security }) <$> Stored.security.read e.2
  | "logging" => (fun logging => { c with logging }) <$> Stored.logging.read e.2
  | _ => .ok c

def ofEntries (t : Entries) : Except Misfit Config := t.foldlM addEntry {}

/-- The document that holds a configuration, if all its numbers fit. -/
def toSections? (c : Config) : Option (List Section) := return [
  ⟨"channel", ← Stored.channel.entries c.channel⟩,
  ⟨"pool", ← Stored.pool.entries c.pool⟩,
  ⟨"security", ← Stored.security.entries c.security⟩,
  ⟨"logging", ← Stored.logging.entries c.logging⟩]

def ofToml (text : String) : Except ConfigFault Config :=
  match Toml.read? text with
  | some t => (ofEntries t).mapError .misfit
  | none => .error .unreadable

/-- The text of a configuration. All numbers are put in their places before a quote is counted. -/
def toToml (c : Config) : Except ConfigFault String :=
  match c.toSections? with
  | some sections =>
    if sections.all Section.countable then .ok (Toml.write sections) else .error .longRun
  | none => .error .unwritable

def exampleToml : String := (toToml {}).toOption.getD ""

end Config

end SealedDatagram

import Mathlib.Data.List.Basic
import SealedDatagram.WorkerPool.Gated
/-!
How many workers a pool has. Its count is that of the workers that have neither retired nor been
counted out; it stays between the bounds until a call asks for a stop, and from then on it only
falls.
-/

namespace SealedDatagram

namespace WorkerPool

/-- What an event can make of the workers and of their count. -/
inductive Change (p : WorkerPool) : List Worker → Nat → Prop where
  | kept : Change p p.workers p.running
  | moved {i w} (w') : p.workers[i]? = some w → w.stage ≠ .gone → w'.stage ≠ .gone →
    (w'.stage = .leaving → p.isStopping) → Change p (p.workers.set i w') p.running
  | grown {i w} (w') : p.workers[i]? = some w → w.stage ≠ .gone → w'.stage = .ready →
    p.stopping = false → p.running < p.maximum →
    Change p (p.workers.set i w' ++ [⟨.checkingAbort, 0⟩]) (p.running + 1)
  | left {i w} (w') : p.workers[i]? = some w → w.stage ≠ .gone → w'.stage = .gone →
    (w.stage = .leaving ∨ p.minimum < p.running) →
    Change p (p.workers.set i w') (p.running - 1)

def apply (p : WorkerPool) (e : PoolEvent) : WorkerPool := (p.next e).getD p

variable {p p' : WorkerPool} {e : PoolEvent} {i : Nat} {w : Worker}

theorem Change.chosen {b : Prop} [Decidable b] {yes no : Stage} (idle : Nat)
    (hw : p.workers[i]? = some w) (hg : w.stage ≠ .gone) (hyes : yes ≠ .gone) (hno : no ≠ .gone)
    (hstop : yes = .leaving → b → p.isStopping) (hstays : no ≠ .leaving) :
    p.Change (p.workers.set i ⟨if b then yes else no, idle⟩) p.running := by
  refine .moved _ hw hg ?_ ?_
  · dsimp only
    split
    · exact hyes
    · exact hno
  · dsimp only
    split
    · rename_i hb
      exact (hstop · hb)
    · exact (absurd · hstays)

theorem change_stepOf (hw : p.workers[i]? = some w) (h : p.stepOf i w = some p') :
    p.Change p'.workers p'.running ∧ p'.config = p.config ∧ p'.stopping = p.stopping ∧
      p'.aborting = p.aborting := by
  obtain ⟨stage, idle⟩ := w
  unfold stepOf at h
  cases stage with
  | checkingAbort =>
    cases h
    refine ⟨.chosen idle hw nofun nofun nofun ?_ nofun, rfl, rfl, rfl⟩
    exact fun _ habort => by simp [isStopping, habort]
  | checkingStop =>
    cases h
    refine ⟨.chosen idle hw nofun nofun nofun ?_ nofun, rfl, rfl, rfl⟩
    exact fun _ hstop => by simp [isStopping, hstop]
  | woken =>
    cases h
    exact ⟨.chosen idle hw nofun nofun nofun nofun nofun, rfl, rfl, rfl⟩
  | growing =>
    dsimp only at h
    split at h
    · cases h
      exact ⟨.moved _ hw nofun nofun nofun, rfl, rfl, rfl⟩
    · rename_i hroom
      cases h
      simp only [Bool.or_eq_true, decide_eq_true_eq, not_or, Bool.not_eq_true,
        Nat.not_le] at hroom
      exact ⟨.grown _ hw nofun rfl hroom.1 hroom.2, rfl, rfl, rfl⟩
  | ready =>
    dsimp only at h
    split at h
    · rename_i habort
      cases h
      exact ⟨.moved _ hw nofun nofun fun _ => by simp [isStopping, habort], rfl, rfl, rfl⟩
    · cases h
      exact ⟨.moved _ hw nofun nofun nofun, rfl, rfl, rfl⟩
  | retiring =>
    dsimp only at h
    split at h
    · rename_i hleft
      cases h
      exact ⟨.left _ hw nofun rfl (.inr hleft), rfl, rfl, rfl⟩
    · cases h
      exact ⟨.moved _ hw nofun nofun nofun, rfl, rfl, rfl⟩
  | leaving =>
    cases h
    exact ⟨.left _ hw nofun rfl (.inl rfl), rfl, rfl, rfl⟩
  | waiting | working | gone => cases h

theorem change_next (h : p.next e = some p') :
    p.Change p'.workers p'.running ∧ p'.config = p.config ∧
      p'.stopping = (p.stopping || e == .requestStop) ∧
      p'.aborting = (p.aborting || e == .abort) := by
  cases e with
  | step i =>
    obtain ⟨w, hw, hstep⟩ := Option.bind_eq_some_iff.1 h
    obtain ⟨hchange, hconfig, hstop, habort⟩ := change_stepOf hw hstep
    exact ⟨hchange, hconfig, by rw [hstop]; exact (Bool.or_false _).symm,
      by rw [habort]; exact (Bool.or_false _).symm⟩
  | wake i =>
    obtain ⟨w, hw, hwake⟩ := Option.bind_eq_some_iff.1 h
    unfold wakeOf at hwake
    split at hwake
    · rename_i hstage _
      cases hwake
      exact ⟨.moved _ hw (by rw [hstage]; nofun) nofun nofun, rfl, (Bool.or_false _).symm,
        (Bool.or_false _).symm⟩
    · cases hwake
  | timeOut i =>
    obtain ⟨w, hw, htime⟩ := Option.bind_eq_some_iff.1 h
    unfold timeOutOf at htime
    split at htime
    · rename_i hstage
      cases htime
      exact ⟨.chosen _ hw (by rw [hstage]; nofun) nofun nofun nofun nofun, rfl,
        (Bool.or_false _).symm, (Bool.or_false _).symm⟩
    · cases htime
  | finish i =>
    obtain ⟨w, hw, hfinish⟩ := Option.bind_eq_some_iff.1 h
    unfold finishOf at hfinish
    split at hfinish
    · rename_i hstage
      cases hfinish
      exact ⟨.moved _ hw (by rw [hstage]; nofun) nofun nofun, rfl, (Bool.or_false _).symm,
        (Bool.or_false _).symm⟩
    · cases hfinish
  | raise | close =>
    cases h
    exact ⟨.kept, rfl, (Bool.or_false _).symm, (Bool.or_false _).symm⟩
  | requestStop =>
    cases h
    exact ⟨.kept, rfl, (Bool.or_true _).symm, (Bool.or_false _).symm⟩
  | abort =>
    cases h
    exact ⟨.kept, rfl, (Bool.or_false _).symm, (Bool.or_true _).symm⟩

theorem isStopping_next (h : p.next e = some p') (hp : p.isStopping) : p'.isStopping := by
  obtain ⟨-, -, hstop, habort⟩ := change_next h
  unfold isStopping at hp ⊢
  rw [hstop, habort]
  rcases Bool.or_eq_true_iff.1 hp with hp | hp
  · simp [hp]
  · simp [hp]

theorem isStopping_apply (he : e ∉ [PoolEvent.requestStop, .abort]) :
    (p.apply e).isStopping = p.isStopping := by
  unfold apply
  cases hp : p.next e with
  | none => rfl
  | some p' =>
    obtain ⟨-, -, hstop, habort⟩ := change_next hp
    simp only [List.mem_cons, List.not_mem_nil, or_false, not_or] at he
    rw [beq_eq_false_iff_ne.2 he.1, Bool.or_false] at hstop
    rw [beq_eq_false_iff_ne.2 he.2, Bool.or_false] at habort
    simp only [Option.getD_some, isStopping, hstop, habort]

/-- Once the pool is stopping no worker is started, and workers are only counted out. -/
theorem running_next (h : p.next e = some p') (hstop : p.stopping) :
    p'.stopping ∧ p'.workers.length = p.workers.length ∧ p'.running ≤ p.running := by
  obtain ⟨hchange, -, hstop', -⟩ := change_next h
  refine ⟨by simp [hstop', hstop], ?_⟩
  generalize p'.workers = workers, p'.running = running at hchange
  cases hchange with
  | kept => exact ⟨rfl, Nat.le_refl _⟩
  | moved w' hw => exact ⟨List.length_set, Nat.le_refl _⟩
  | grown w' hw hg hready hgoing =>
    rw [hstop] at hgoing
    cases hgoing
  | left w' hw => exact ⟨List.length_set, Nat.sub_le _ _⟩

/-- The count is right, and within its bounds unless a stop is asked for. -/
structure Sound (p : WorkerPool) : Prop where
  counted : p.running = p.workers.countP (·.stage != .gone)
  most : p.running ≤ p.maximum
  least : p.isStopping = false → p.minimum ≤ p.running
  leaving : ∀ w ∈ p.workers, w.stage = .leaving → p.isStopping

namespace Sound

theorem one_le_running (h : p.Sound) (hw : w ∈ p.workers) (hg : w.stage ≠ .gone) :
    1 ≤ p.running := by
  rw [h.counted]
  exact List.countP_pos_iff.2 ⟨w, hw, bne_iff_ne.2 hg⟩

theorem countP_set (h : p.Sound) (hw : p.workers[i]? = some w) (hg : w.stage ≠ .gone)
    (w' : Worker) :
    (p.workers.set i w').countP (·.stage != .gone) =
      if w'.stage = .gone then p.running - 1 else p.running := by
  obtain ⟨hi, rfl⟩ := List.getElem?_eq_some_iff.1 hw
  have hone := h.one_le_running (List.getElem_mem hi) hg
  rw [List.countP_set hi, ← h.counted, if_pos (bne_iff_ne.2 hg)]
  by_cases hg' : w'.stage = .gone
  · simp [hg']
  · simp [hg', hone]

theorem next (h : p.Sound) (he : p.next e = some p') : p'.Sound := by
  obtain ⟨hchange, hconfig, -, -⟩ := change_next he
  have hstopping := isStopping_next he
  have hmost : p.running ≤ p'.maximum := by
    rw [maximum, hconfig]
    exact h.most
  have hleast (hp' : p'.isStopping = false) : p.isStopping = false ∧ p'.minimum ≤ p.running := by
    have hp : p.isStopping = false := by
      cases hp : p.isStopping with
      | false => rfl
      | true => rw [hstopping hp] at hp'; cases hp'
    rw [minimum, hconfig]
    exact ⟨hp, h.least hp⟩
  have hset {i w w'} (hw' : w' ∈ p.workers.set i w) (hleaving : w.stage = .leaving → p.isStopping)
      (hstage : w'.stage = .leaving) : p'.isStopping := by
    rcases List.mem_or_eq_of_mem_set hw' with hw' | rfl
    · exact hstopping (h.leaving w' hw' hstage)
    · exact hstopping (hleaving hstage)
  generalize hworkers : p'.workers = workers, hrunning : p'.running = running at hchange
  cases hchange with
  | kept =>
    refine ⟨?_, hrunning ▸ hmost, fun hp' => hrunning ▸ (hleast hp').2, ?_⟩
    · rw [hworkers, hrunning, h.counted]
    · intro w hw hstage
      rw [hworkers] at hw
      exact hstopping (h.leaving w hw hstage)
  | moved w' hw hg hg' hleaving =>
    refine ⟨?_, hrunning ▸ hmost, fun hp' => hrunning ▸ (hleast hp').2, ?_⟩
    · rw [hworkers, hrunning, h.countP_set hw hg, if_neg hg']
    · intro w hw hstage
      rw [hworkers] at hw
      exact hset hw hleaving hstage
  | grown w' hw hg hready hstop hroom =>
    have hg' : w'.stage ≠ .gone := by rw [hready]; nofun
    refine ⟨?_, ?_, ?_, ?_⟩
    · rw [hworkers, hrunning, List.countP_append, h.countP_set hw hg, if_neg hg']
      rfl
    · rw [hrunning, maximum, hconfig]
      exact hroom
    · intro hp'
      rw [hrunning]
      exact Nat.le_succ_of_le (hleast hp').2
    · intro w hw hstage
      rw [hworkers] at hw
      rcases List.mem_append.1 hw with hw | hw
      · exact hset hw (by rw [hready]; nofun) hstage
      · rw [List.mem_singleton.1 hw] at hstage
        cases hstage
  | @left i w w' hw hg hg' hleft =>
    refine ⟨?_, hrunning ▸ Nat.le_trans (Nat.sub_le _ _) hmost, ?_, ?_⟩
    · rw [hworkers, hrunning, h.countP_set hw hg, if_pos hg']
    · intro hp'
      obtain ⟨hp, -⟩ := hleast hp'
      rw [hrunning, minimum, hconfig]
      rcases hleft with hleaving | hmore
      · rw [h.leaving w (List.mem_of_getElem? hw) hleaving] at hp
        cases hp
      · unfold minimum at hmore
        omega
    · intro w hw hstage
      rw [hworkers] at hw
      exact hset hw (by rw [hg']; nofun) hstage

end Sound

/-- How far a call is that stops a pool after the jobs that have begun. -/
inductive GracefulStop where
  | requesting
  | closing
  /-- Until no worker is left, or for as long as the caller has patience. -/
  | waiting
  | joining (finished : Bool)
  | returned (finished : Bool)
  deriving DecidableEq, Repr

/-- How far a call is that gives up on the workers of a pool. It aborts under no lock, before it
asks for a stop and takes the threads under one. -/
inductive ForcedStop where
  | aborting
  | requesting
  | closing (threads : List Nat)
  | counting (threads : List Nat)
  | returned (abandoned : Nat)
  deriving DecidableEq, Repr

def GracefulStop.step : GracefulStop → WorkerPool → GracefulStop × WorkerPool
  | requesting, p => (closing, p.apply .requestStop)
  | closing, p => (waiting, p.apply .close)
  | waiting, p => (joining (p.running == 0), p)
  | joining finished, p => (returned finished, p.reap.2)
  | returned finished, p => (returned finished, p)

def ForcedStop.step : ForcedStop → WorkerPool → ForcedStop × WorkerPool
  | aborting, p => (requesting, p.apply .abort)
  | requesting, p => (closing p.threads, (p.apply .requestStop).abandon.2)
  | closing threads, p => (counting threads, p.apply .close)
  | counting threads, p => (returned (threads.filter (!p.isGone ·)).length, p)
  | returned abandoned, p => (returned abandoned, p)

structure Supervision where
  pool : WorkerPool
  graceful : List GracefulStop := []
  forced : List ForcedStop := []

inductive Supervision.Move where
  | event (e : PoolEvent)
  | stop
  | force
  | goOnStopping (i : Nat)
  | goOnForcing (i : Nat)

namespace Supervision

/-- Only calls ask for a stop. -/
def next : Move → Supervision → Supervision
  | .event e, s =>
    if e ∈ [PoolEvent.requestStop, .abort] then s else { s with pool := s.pool.apply e }
  | .stop, s => { s with graceful := s.graceful ++ [.requesting] }
  | .force, s => { s with forced := s.forced ++ [.aborting] }
  | .goOnStopping i, s =>
    match s.graceful[i]? with
    | some c =>
      let (c, pool) := c.step s.pool
      { s with pool, graceful := s.graceful.set i c }
    | none => s
  | .goOnForcing i, s =>
    match s.forced[i]? with
    | some c =>
      let (c, pool) := c.step s.pool
      { s with pool, forced := s.forced.set i c }
    | none => s

def after (s : Supervision) (moves : List Move) : Supervision :=
  moves.foldl (fun s m => next m s) s

/-- A call has begun to ask for a stop. -/
def Begun (s : Supervision) : Prop :=
  (∃ c ∈ s.graceful, c ≠ .requesting) ∨ ∃ c ∈ s.forced, c ≠ .aborting

/-- A call has asked for a stop. -/
def Asked (s : Supervision) : Prop :=
  (∃ c ∈ s.graceful, c ≠ .requesting) ∨ ∃ c ∈ s.forced, c ≠ .aborting ∧ c ≠ .requesting

/-- A forced stop that nothing else comes in between. -/
theorem after_forcedStop (g : GatedPool) :
    (Supervision.mk g.pool [] [.aborting]).after (List.replicate 4 (.goOnForcing 0)) =
      ⟨g.forcedStop.2.pool, [], [.returned g.forcedStop.1]⟩ := rfl

end Supervision

/-- What every step of a pool keeps, and what it keeps once the pool is stopping. -/
structure Follows (p p' : WorkerPool) : Prop where
  config : p'.config = p.config
  sound : p.Sound → p'.Sound
  stopping : p.stopping →
    p'.stopping ∧ p'.workers.length = p.workers.length ∧ p'.running ≤ p.running

namespace Follows

theorem refl (p : WorkerPool) : p.Follows p := ⟨rfl, id, fun h => ⟨h, rfl, Nat.le_refl _⟩⟩

theorem trans {p₁ p₂ p₃ : WorkerPool} (h : p₁.Follows p₂) (h' : p₂.Follows p₃) :
    p₁.Follows p₃ where
  config := h'.config.trans h.config
  sound hp := h'.sound (h.sound hp)
  stopping hp := by
    obtain ⟨hstop, hlength, hle⟩ := h.stopping hp
    obtain ⟨hstop', hlength', hle'⟩ := h'.stopping hstop
    exact ⟨hstop', hlength'.trans hlength, Nat.le_trans hle' hle⟩

theorem apply (p : WorkerPool) (e : PoolEvent) : p.Follows (p.apply e) := by
  unfold WorkerPool.apply
  cases he : p.next e with
  | none => exact refl p
  | some p' => exact ⟨(change_next he).2.1, (Sound.next · he), running_next he⟩

theorem joined (p : WorkerPool) (threads : List Nat) : p.Follows { p with threads } where
  config := rfl
  sound h := ⟨h.counted, h.most, h.least, h.leaving⟩
  stopping h := ⟨h, rfl, Nat.le_refl _⟩

theorem gracefulStop (c : GracefulStop) (p : WorkerPool) : p.Follows (c.step p).2 := by
  cases c with
  | requesting => exact apply p .requestStop
  | closing => exact apply p .close
  | joining => exact joined p _
  | waiting | returned => exact refl p

theorem forcedStop (c : ForcedStop) (p : WorkerPool) : p.Follows (c.step p).2 := by
  cases c with
  | aborting => exact apply p .abort
  | requesting => exact (apply p .requestStop).trans (joined _ [])
  | closing => exact apply p .close
  | counting | returned => exact refl p

end Follows

theorem GracefulStop.step_ne_requesting (c : GracefulStop) (p : WorkerPool) :
    (c.step p).1 ≠ .requesting := by
  cases c <;> nofun

theorem ForcedStop.step_ne_aborting (c : ForcedStop) (p : WorkerPool) :
    (c.step p).1 ≠ .aborting := by
  cases c <;> nofun

theorem ForcedStop.step_ne_requesting {c : ForcedStop} (ha : c ≠ .aborting) (p : WorkerPool) :
    (c.step p).1 ≠ .requesting := by
  cases c with
  | aborting => exact absurd rfl ha
  | requesting | closing | counting | returned => nofun

theorem GracefulStop.stopping_step {c : GracefulStop} (hc : c ≠ .requesting → p.stopping) :
    (c.step p).2.stopping := by
  cases c with
  | requesting => rfl
  | closing | waiting | joining | returned =>
    exact ((Follows.gracefulStop _ p).stopping (hc nofun)).1

theorem GracefulStop.running_step {c : GracefulStop}
    (hc : c = joining true ∨ c = returned true → p.running = 0)
    (hdone : (c.step p).1 = joining true ∨ (c.step p).1 = returned true) :
    (c.step p).2.running = 0 := by
  cases c with
  | requesting | closing => cases hdone <;> contradiction
  | waiting => simpa [step] using hdone
  | joining finished => exact hc (.inl (by simpa [step] using hdone))
  | returned finished => exact hc hdone

theorem ForcedStop.stopping_step {c : ForcedStop}
    (hc : c ≠ .aborting → c ≠ .requesting → p.stopping) (hne : (c.step p).1 ≠ .requesting) :
    (c.step p).2.stopping := by
  cases c with
  | aborting => exact absurd rfl hne
  | requesting => rfl
  | closing | counting | returned =>
    exact ((Follows.forcedStop _ p).stopping (hc nofun nofun)).1

namespace Supervision

variable {s : Supervision}

/-- Calls and the pool agree. -/
structure Agrees (s : Supervision) : Prop where
  unbegun : ¬ s.Begun → s.pool.isStopping = false
  asked : s.Asked → s.pool.stopping = true
  finished : ∀ c ∈ s.graceful, c = .joining true ∨ c = .returned true → s.pool.running = 0

namespace Agrees

theorem finished_follow (h : s.Agrees) {pool : WorkerPool} (hpool : s.pool.Follows pool)
    {c : GracefulStop} (hc : c ∈ s.graceful) (hdone : c = .joining true ∨ c = .returned true) :
    pool.running = 0 := by
  have hstop : s.pool.stopping = true := by
    refine h.asked (.inl ⟨c, hc, ?_⟩)
    rintro rfl
    cases hdone <;> contradiction
  have hle := (hpool.stopping hstop).2.2
  rw [h.finished c hc hdone] at hle
  exact Nat.eq_zero_of_le_zero hle

theorem next (h : s.Agrees) (m : Move) : (next m s).Agrees := by
  cases m with
  | event e =>
    simp only [Supervision.next]
    split
    · exact h
    · rename_i he
      have hpool := Follows.apply s.pool e
      refine ⟨fun hb => ?_, fun ha => (hpool.stopping (h.asked ha)).1,
        fun c => h.finished_follow hpool⟩
      rw [isStopping_apply he]
      exact h.unbegun hb
  | stop =>
    have hnew : ∀ c ∈ s.graceful ++ [.requesting], c ≠ .requesting → c ∈ s.graceful := by
      intro c hc hne
      rcases List.mem_append.1 hc with hc | hc
      · exact hc
      · exact absurd (List.mem_singleton.1 hc) hne
    refine ⟨fun hb => h.unbegun (mt ?_ hb), fun ha => h.asked ?_, fun c hc hdone => ?_⟩
    · rintro (⟨c, hc, hne⟩ | hf)
      · exact .inl ⟨c, List.mem_append_left _ hc, hne⟩
      · exact .inr hf
    · rcases ha with ⟨c, hc, hne⟩ | hf
      · exact .inl ⟨c, hnew c hc hne, hne⟩
      · exact .inr hf
    · refine h.finished c (hnew c hc ?_) hdone
      rintro rfl
      cases hdone <;> contradiction
  | force =>
    refine ⟨fun hb => h.unbegun (mt ?_ hb), fun ha => h.asked ?_, h.finished⟩
    · rintro (hg | ⟨c, hc, hne⟩)
      · exact .inl hg
      · exact .inr ⟨c, List.mem_append_left _ hc, hne⟩
    · rcases ha with hg | ⟨c, hc, hne, hne'⟩
      · exact .inl hg
      · rcases List.mem_append.1 hc with hc | hc
        · exact .inr ⟨c, hc, hne, hne'⟩
        · exact absurd (List.mem_singleton.1 hc) hne
  | goOnStopping i =>
    simp only [Supervision.next]
    split
    · rename_i c hc
      have hmem := List.mem_of_getElem? hc
      have hnew : (c.step s.pool).1 ∈ s.graceful.set i (c.step s.pool).1 :=
        List.mem_set (List.getElem?_eq_some_iff.1 hc).1 _
      have hstop : (c.step s.pool).2.stopping = true :=
        GracefulStop.stopping_step fun hne => h.asked (.inl ⟨c, hmem, hne⟩)
      refine ⟨fun hb => absurd (.inl ⟨_, hnew, c.step_ne_requesting s.pool⟩) hb, fun _ => hstop,
        fun d hd hdone => ?_⟩
      rcases List.mem_or_eq_of_mem_set hd with hd | rfl
      · exact h.finished_follow (.gracefulStop c s.pool) hd hdone
      · exact GracefulStop.running_step (h.finished c hmem) hdone
    · exact h
  | goOnForcing i =>
    simp only [Supervision.next]
    split
    · rename_i c hc
      have hmem := List.mem_of_getElem? hc
      have hnew : (c.step s.pool).1 ∈ s.forced.set i (c.step s.pool).1 :=
        List.mem_set (List.getElem?_eq_some_iff.1 hc).1 _
      have hpool := Follows.forcedStop c s.pool
      refine ⟨fun hb => absurd (.inr ⟨_, hnew, c.step_ne_aborting s.pool⟩) hb, ?_,
        fun d => h.finished_follow hpool⟩
      rintro (hg | ⟨d, hd, hne, hne'⟩)
      · exact (hpool.stopping (h.asked (.inl hg))).1
      · rcases List.mem_or_eq_of_mem_set hd with hd | rfl
        · exact (hpool.stopping (h.asked (.inr ⟨d, hd, hne, hne'⟩))).1
        · exact ForcedStop.stopping_step (fun ha hr => h.asked (.inr ⟨c, hmem, ha, hr⟩)) hne'
    · exact h

theorem after (h : s.Agrees) (moves : List Move) : (s.after moves).Agrees := by
  induction moves generalizing s with
  | nil => exact h
  | cons m moves ih => exact ih (h.next m)

end Agrees

/-- No forced stop is between its abort and the section in which it asks for the stop. -/
def Whole (s : Supervision) : Prop := ∀ c ∈ s.forced, c ≠ .requesting

theorem Whole.asked (h : s.Whole) (hb : s.Begun) : s.Asked := by
  rcases hb with hg | ⟨c, hc, hne⟩
  · exact .inl hg
  · exact .inr ⟨c, hc, hne, h c hc⟩

end Supervision

end WorkerPool

end SealedDatagram

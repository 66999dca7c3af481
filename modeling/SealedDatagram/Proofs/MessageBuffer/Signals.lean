import SealedDatagram.Proofs.MessageBuffer
/-!
Signals of a message buffer. The ring and the signal are under two locks, so that a producer makes a
message ready before it signals it, and takes a message away before it consumes its signal; others
come in between. A consumer pops once for every signal it consumes. With one producer, or as long as
no message gives way, there is for every ready message a signal that is raised, or was consumed by
someone who has not popped yet, or is about to be raised.
-/

namespace SealedDatagram

namespace Ring

theorem ready_reserve (r : Ring) :
    r.reserve.2.ready = if r.reserve.1.evicted then r.ready.tail else r.ready := by
  obtain ⟨slots, free, ready⟩ := r
  cases free with
  | cons i free => rfl
  | nil => cases ready <;> rfl

theorem ready_commit (r : Ring) (l : Lease) (length : Nat) (peer : SocketAddress) :
    (r.commit l length peer).2.ready =
      if (r.commit l length peer).1.isOk then r.ready ++ [l.index] else r.ready := by
  unfold commit
  split <;> rfl

theorem ready_pop (r : Ring) : r.pop.2.ready = r.ready.tail := by
  obtain ⟨slots, free, ready⟩ := r
  cases ready <;> rfl

end Ring

namespace Signal

theorem pending_tryConsume (s : Signal) : s.tryConsume.2.pending = s.pending - 1 := by
  unfold tryConsume
  split
  · rename_i hzero
    rw [hzero]
  · rfl

theorem pending_of_wait {s t : Signal} (h : s.wait = (true, t)) : s.pending = t.pending + 1 := by
  unfold wait tryConsume at h
  split at h
  · cases h
  · split at h
    · cases h
    · cases h
      exact (Nat.sub_one_add_one ‹_›).symm

end Signal

namespace MessageBuffer

open Fallible

inductive Producer.Stage where
  | resting
  /-- A reservation has taken the slot of the oldest message, whose signal it is about to consume.
  -/
  | evicting (lease : Option Lease)
  /-- A commit has made a message ready, which it is about to signal. -/
  | announcing
  deriving DecidableEq

structure Producer where
  stage : Producer.Stage := .resting
  held : List Lease := []
  deriving DecidableEq

/-- What a producer does under one lock. -/
inductive Producer.Move where
  | reserve
  | consume
  | write (i start : Nat) (b : Bytes)
  | park (i length : Nat) (peer : SocketAddress)
  | notify
  | rollback (i : Nat)

namespace Producer

def isEvicting (p : Producer) : Bool := p.stage matches .evicting _

def isAnnouncing (p : Producer) : Bool := p.stage matches .announcing

/-- A move for which the producer is not at the right place does nothing. -/
def step : Move → MessageBuffer → Producer → MessageBuffer × Producer
  | .reserve, b, ⟨.resting, held⟩ =>
    let (r, ring) := b.ring.reserve
    ({ b with ring }, if r.evicted then ⟨.evicting r.lease, held⟩
      else ⟨.resting, held ++ r.lease.toList⟩)
  | .consume, b, ⟨.evicting lease, held⟩ =>
    ({ b with signal := b.signal.tryConsume.2 }, ⟨.resting, held ++ lease.toList⟩)
  | .write i start bytes, b, ⟨.resting, held⟩ =>
    (b, ⟨.resting, held.modify i fun l => { l with message := l.message.write start bytes }⟩)
  | .park i length peer, b, ⟨.resting, held⟩ =>
    match held[i]? with
    | some l =>
      let (r, ring) := b.ring.commit l length peer
      ({ b with ring }, ⟨if r.isOk then .announcing else .resting, held.eraseIdx i⟩)
    | none => (b, ⟨.resting, held⟩)
  | .notify, b, ⟨.announcing, held⟩ => ({ b with signal := b.signal.raise }, ⟨.resting, held⟩)
  | .rollback i, b, ⟨.resting, held⟩ =>
    match held[i]? with
    | some l => ({ b with ring := b.ring.rollback l }, ⟨.resting, held.eraseIdx i⟩)
    | none => (b, ⟨.resting, held⟩)
  | _, b, p => (b, p)

end Producer

inductive Consumer where
  | waiting
  /-- A signal has been consumed. -/
  | woken
  | handling (lease : Lease)
  deriving DecidableEq

inductive Consumer.Move where
  | wake
  | pop
  | release

namespace Consumer

def isWoken (c : Consumer) : Bool := c matches .woken

def step : Move → MessageBuffer → Consumer → MessageBuffer × Consumer
  | .wake, b, .waiting =>
    match b.signal.wait with
    | (true, signal) => ({ b with signal }, .woken)
    | (false, _) => (b, .waiting)
  | .pop, b, .woken =>
    let (l, ring) := b.ring.pop
    ({ b with ring }, l.elim .waiting .handling)
  | .release, b, .handling l => ({ b with ring := b.ring.release l }, .waiting)
  | _, b, c => (b, c)

end Consumer

/-- With nobody in between, the moves make up the calls. -/
theorem Producer.step_reserve (e : Env MessageBuffer) (held : List Lease) :
    let s := step .reserve e.state ⟨.resting, held⟩
    let (lease, e') := MessageBuffer.reserve.exec e
    step .consume s.1 s.2 = (e'.state, ⟨.resting, held ++ lease.toOption.toList⟩) := by
  rw [exec_reserve]
  simp only [step]
  rcases e.state.ring.reserve with ⟨⟨lease, evicted⟩, ring⟩
  cases evicted <;> cases lease <;> rfl

theorem Producer.step_park (e : Env MessageBuffer) {held : List Lease} {i : Nat} {l : Lease}
    (hl : held[i]? = some l) (length : Nat) (peer : SocketAddress) :
    let s := step (.park i length peer) e.state ⟨.resting, held⟩
    step .notify s.1 s.2 =
      (((MessageBuffer.commit l length peer).exec e).2.state, ⟨.resting, held.eraseIdx i⟩) := by
  rw [exec_commit]
  simp only [step, hl]
  rcases e.state.ring.commit l length peer with ⟨_ | _, ring⟩ <;> rfl

theorem Consumer.step_pop (e : Env MessageBuffer) :
    step .pop e.state .woken =
      ((MessageBuffer.pop.exec e).2.state,
        (MessageBuffer.pop.exec e).1.toOption.elim .waiting .handling) := by
  rw [exec_pop]
  simp only [step]
  rcases e.state.ring.pop with ⟨_ | _, ring⟩ <;> rfl

structure Traffic where
  buffer : MessageBuffer
  producers : List Producer
  consumers : List Consumer
  deriving DecidableEq

inductive Traffic.Move where
  | produce (i : Nat) (m : Producer.Move)
  | consume (i : Nat) (m : Consumer.Move)

namespace Traffic

def next : Move → Traffic → Traffic
  | .produce i m, s =>
    match s.producers[i]? with
    | some p =>
      let (buffer, p) := p.step m s.buffer
      { s with buffer, producers := s.producers.set i p }
    | none => s
  | .consume i m, s =>
    match s.consumers[i]? with
    | some c =>
      let (buffer, c) := c.step m s.buffer
      { s with buffer, consumers := s.consumers.set i c }
    | none => s

def after (s : Traffic) (moves : List Move) : Traffic := moves.foldl (fun s m => next m s) s

def opened (capacity slotSize producers consumers : Nat) : Traffic where
  buffer := .ofCapacity capacity slotSize
  producers := List.replicate producers {}
  consumers := List.replicate consumers .waiting

def evicting (s : Traffic) : Nat := s.producers.countP Producer.isEvicting

def announcing (s : Traffic) : Nat := s.producers.countP Producer.isAnnouncing

def woken (s : Traffic) : Nat := s.consumers.countP Consumer.isWoken

/-- Whether a move is a reservation that takes the slot of a message. -/
def evicts (s : Traffic) : Move → Bool
  | .produce i .reserve =>
    s.producers[i]?.any (·.stage == .resting) && s.buffer.ring.reserve.1.evicted
  | _ => false

/-- Whether no reservation of a run takes the slot of a message. -/
def quiet (s : Traffic) : List Move → Bool
  | [] => true
  | m :: moves => !s.evicts m && quiet (next m s) moves

end Traffic

/-- A reservation that evicts takes a message and then its signal, a commit brings a message and
then its signal; nothing else changes their numbers. -/
theorem Producer.step_cases (m : Move) (b : MessageBuffer) (p : Producer) :
    let b' := (step m b p).1
    let p' := (step m b p).2
    (b'.readyCount = b.readyCount ∧ b'.backlog = b.backlog ∧
      p'.isEvicting = p.isEvicting ∧ p'.isAnnouncing = p.isAnnouncing) ∨
    (m = .reserve ∧ p.stage = .resting ∧ b.ring.reserve.1.evicted = true ∧
      b'.readyCount = b.readyCount - 1 ∧ b'.backlog = b.backlog ∧
      p'.isEvicting.toNat = p.isEvicting.toNat + 1 ∧ p'.isAnnouncing = p.isAnnouncing) ∨
    (b'.readyCount = b.readyCount ∧ b'.backlog = b.backlog - 1 ∧
      p.isEvicting.toNat = p'.isEvicting.toNat + 1 ∧ p'.isAnnouncing = p.isAnnouncing) ∨
    (b'.readyCount = b.readyCount + 1 ∧ b'.backlog = b.backlog ∧
      p'.isEvicting = p.isEvicting ∧ p'.isAnnouncing.toNat = p.isAnnouncing.toNat + 1) ∨
    (b'.readyCount = b.readyCount ∧ b'.backlog = b.backlog + 1 ∧
      p'.isEvicting = p.isEvicting ∧ p.isAnnouncing.toNat = p'.isAnnouncing.toNat + 1) := by
  obtain ⟨stage, held⟩ := p
  cases stage with
  | resting =>
    cases m with
    | reserve =>
      have hready := congrArg List.length (Ring.ready_reserve b.ring)
      cases hevicted : b.ring.reserve.1.evicted with
      | false =>
        rw [hevicted] at hready
        simp only [step, hevicted]
        exact .inl ⟨hready, by trivial⟩
      | true =>
        rw [hevicted] at hready
        simp only [step, hevicted]
        exact .inr (.inl ⟨trivial, trivial, trivial, hready.trans List.length_tail, by trivial⟩)
    | park i length peer =>
      cases hl : held[i]? with
      | none => exact .inl (by simp [step, hl])
      | some l =>
        have hready := congrArg List.length (Ring.ready_commit b.ring l length peer)
        cases hok : (b.ring.commit l length peer).1.isOk with
        | false =>
          rw [hok] at hready
          simp only [step, hl, hok]
          exact .inl ⟨hready, by trivial⟩
        | true =>
          rw [hok] at hready
          simp only [step, hl, hok]
          exact .inr (.inr (.inr (.inl ⟨hready.trans List.length_append, by trivial⟩)))
    | rollback i =>
      cases hl : held[i]? with
      | none => exact .inl (by simp [step, hl])
      | some l =>
        simp only [step, hl]
        exact .inl ⟨rfl, by trivial⟩
    | write | consume | notify => exact .inl ⟨rfl, rfl, rfl, rfl⟩
  | evicting lease =>
    cases m with
    | consume =>
      exact .inr (.inr (.inl ⟨rfl, Signal.pending_tryConsume b.signal, rfl, rfl⟩))
    | reserve | write | park | notify | rollback => exact .inl ⟨rfl, rfl, rfl, rfl⟩
  | announcing =>
    cases m with
    | notify => exact .inr (.inr (.inr (.inr ⟨rfl, rfl, rfl, rfl⟩)))
    | reserve | consume | write | park | rollback => exact .inl ⟨rfl, rfl, rfl, rfl⟩

theorem Consumer.step_cases (m : Move) (b : MessageBuffer) (c : Consumer) :
    let b' := (step m b c).1
    let c' := (step m b c).2
    (b'.readyCount = b.readyCount ∧ b'.backlog = b.backlog ∧ c'.isWoken = c.isWoken) ∨
    (b'.readyCount = b.readyCount ∧ b.backlog = b'.backlog + 1 ∧
      c'.isWoken.toNat = c.isWoken.toNat + 1) ∨
    (b'.readyCount = b.readyCount - 1 ∧ b'.backlog = b.backlog ∧
      c.isWoken.toNat = c'.isWoken.toNat + 1) := by
  cases c with
  | waiting =>
    cases m with
    | wake =>
      simp only [step]
      rcases hwait : b.signal.wait with ⟨_ | _, signal⟩
      · exact .inl ⟨rfl, rfl, rfl⟩
      · exact .inr (.inl ⟨rfl, Signal.pending_of_wait hwait, rfl⟩)
    | pop | release => exact .inl ⟨rfl, rfl, rfl⟩
  | woken =>
    cases m with
    | pop =>
      have hready := congrArg List.length (Ring.ready_pop b.ring)
      have hgone : (b.ring.pop.1.elim waiting handling).isWoken = false := by
        cases b.ring.pop.1 <;> rfl
      refine .inr (.inr ⟨hready.trans List.length_tail, rfl, ?_⟩)
      simp only [step, hgone]
      rfl
    | wake | release => exact .inl ⟨rfl, rfl, rfl⟩
  | handling l => cases m <;> exact .inl ⟨rfl, rfl, rfl⟩

theorem countP_cons_toNat {α : Type} (x : α) (l : List α) (q : α → Bool) :
    (x :: l).countP q = l.countP q + (q x).toNat := by
  rw [List.countP_cons]
  cases q x <;> rfl

theorem countP_set {α : Type} {l : List α} {i : Nat} {x : α} (hx : l[i]? = some x) (q : α → Bool) :
    ∃ rest, l.countP q = rest + (q x).toNat ∧ ∀ y, (l.set i y).countP q = rest + (q y).toNat := by
  obtain ⟨hi, rfl⟩ := List.getElem?_eq_some_iff.1 hx
  refine ⟨(l.eraseIdx i).countP q, ?_, ?_⟩
  · rw [← countP_cons_toNat, (List.getElem_cons_eraseIdx_perm hi).countP_eq]
  · intro y
    rw [← countP_cons_toNat, (List.set_perm_cons_eraseIdx hi y).countP_eq]

namespace Traffic

variable {s : Traffic}

/-- For every ready message there is a signal. One that is about to be consumed stands for none; if
it has gone to a consumer already, that one will find no message. -/
def Signalled (s : Traffic) : Prop :=
  s.buffer.readyCount ≤ s.buffer.backlog - s.evicting + s.woken + s.announcing

/-- As long as no one is evicting while another is announcing, no step leaves a message without a
signal. -/
theorem Signalled.next (h : s.Signalled) (hs : s.announcing = 0 ∨ s.evicting = 0) (m : Move) :
    (next m s).Signalled := by
  unfold Signalled evicting announcing woken at *
  cases m with
  | produce i m =>
    cases hp : s.producers[i]? with
    | none => simpa only [Traffic.next, hp] using h
    | some p =>
      obtain ⟨e, he, hset⟩ := countP_set hp Producer.isEvicting
      obtain ⟨a, ha, hset'⟩ := countP_set hp Producer.isAnnouncing
      have hcases := p.step_cases m s.buffer
      simp only [Traffic.next, hp, hset, hset']
      rw [he, ha] at h hs
      generalize (p.step m s.buffer).1 = b', (p.step m s.buffer).2 = p' at hcases ⊢
      dsimp only at hcases
      rcases hcases with ⟨hready, hpending, he', ha'⟩ | ⟨-, -, -, hready, hpending, he', ha'⟩ |
        ⟨hready, hpending, he', ha'⟩ | ⟨hready, hpending, he', ha'⟩ | ⟨hready, hpending, he', ha'⟩
      · rw [he', ha']
        omega
      · rw [ha']
        omega
      · rw [ha']
        omega
      · rw [he']
        omega
      · -- only here it matters that nobody is about to consume what is raised
        rw [he']
        omega
  | consume i m =>
    cases hc : s.consumers[i]? with
    | none => simpa only [Traffic.next, hc] using h
    | some c =>
      obtain ⟨w, hw, hset⟩ := countP_set hc Consumer.isWoken
      have hcases := c.step_cases m s.buffer
      simp only [Traffic.next, hc, hset]
      rw [hw] at h
      generalize (c.step m s.buffer).1 = b', (c.step m s.buffer).2 = c' at hcases ⊢
      dsimp only at hcases
      rcases hcases with ⟨hready, hpending, hw'⟩ | ⟨hready, hpending, hw'⟩ | ⟨hready, hpending, hw'⟩
      · rw [hw']
        omega
      · omega
      · omega

/-- A producer is in the middle of one call at most. -/
theorem announcing_add_evicting_le (s : Traffic) :
    s.announcing + s.evicting ≤ s.producers.length := by
  unfold announcing evicting
  induction s.producers with
  | nil => exact Nat.le_refl 0
  | cons p producers ih =>
    rw [countP_cons_toNat, countP_cons_toNat, List.length_cons]
    have hone : p.isAnnouncing.toNat + p.isEvicting.toNat ≤ 1 := by
      obtain ⟨stage, held⟩ := p
      cases stage <;> simp [Producer.isAnnouncing, Producer.isEvicting]
    omega

theorem length_producers_next (m : Move) (s : Traffic) :
    (next m s).producers.length = s.producers.length := by
  cases m with
  | produce i m =>
    simp only [next]
    split <;> simp
  | consume i m =>
    simp only [next]
    split <;> rfl

theorem evicting_next {m : Move} (hm : s.evicts m = false) :
    (next m s).evicting ≤ s.evicting := by
  cases m with
  | produce i m =>
    cases hp : s.producers[i]? with
    | none => simp [next, hp]
    | some p =>
      obtain ⟨e, he, hset⟩ := countP_set hp Producer.isEvicting
      have hcases := p.step_cases m s.buffer
      simp only [next, hp, evicting, hset]
      rw [he]
      generalize (p.step m s.buffer).1 = b', (p.step m s.buffer).2 = p' at hcases ⊢
      dsimp only at hcases
      rcases hcases with ⟨-, -, he', -⟩ | ⟨rfl, hstage, hevicted, -⟩ | ⟨-, -, he', -⟩ |
        ⟨-, -, he', -⟩ | ⟨-, -, he', -⟩
      · exact Nat.le_of_eq (congrArg (e + Bool.toNat ·) he')
      · simp [evicts, hp, hstage, hevicted] at hm
      · omega
      · exact Nat.le_of_eq (congrArg (e + Bool.toNat ·) he')
      · exact Nat.le_of_eq (congrArg (e + Bool.toNat ·) he')
  | consume i m =>
    simp only [next]
    split <;> exact Nat.le_refl _

/-- With one producer, or as long as no one evicts, no message is left without a signal. -/
theorem Signalled.after (h : s.Signalled) {moves : List Move}
    (hs : s.producers.length = 1 ∨ s.evicting = 0 ∧ s.quiet moves) : (s.after moves).Signalled := by
  induction moves generalizing s with
  | nil => exact h
  | cons m moves ih =>
    have hle := s.announcing_add_evicting_le
    apply ih (h.next (by omega) m)
    rw [length_producers_next]
    refine hs.imp_right fun ⟨hzero, hquiet⟩ => ?_
    rw [quiet, Bool.and_eq_true, Bool.not_eq_true'] at hquiet
    exact ⟨Nat.eq_zero_of_le_zero (hzero ▸ evicting_next hquiet.1), hquiet.2⟩

/-- However many use a buffer and whatever they do in whatever order, the messages that are ready
are no more than the signals that are raised, the consumers that have consumed one and have not
popped yet, and the producers that are about to raise one. That is, if there is one producer, or no
reservation takes the slot of a message. -/
theorem ready_le_signals (capacity slotSize producers consumers : Nat) (moves : List Move)
    (h : producers = 1 ∨ (opened capacity slotSize producers consumers).quiet moves) :
    let s := (opened capacity slotSize producers consumers).after moves
    s.buffer.readyCount ≤ s.buffer.backlog + s.woken + s.announcing := by
  intro s
  have hinit : (opened capacity slotSize producers consumers).Signalled := Nat.zero_le _
  have hs : s.Signalled := by
    refine hinit.after (h.imp ?_ fun hquiet => ⟨?_, hquiet⟩)
    · intro hone
      simp [opened, hone]
    · simp [evicting, opened, List.countP_replicate, Producer.isEvicting]
  unfold Signalled at hs
  omega

/-- One producer fills two slots, and evicts the first message after a consumer has taken its
signal; two producers have a slot each. -/
theorem ready_le_signals_in_both_cases :
    let reserving (i : Nat) : Move := .produce i .reserve
    let committing (i : Nat) : List Move :=
      [.produce i (.park 0 1 .unspecified), .produce i .notify]
    let alone := [reserving 0] ++ committing 0 ++ [reserving 0] ++ committing 0 ++
      [.consume 0 .wake, reserving 0]
    let apart := [reserving 0, reserving 1] ++ committing 0 ++ committing 1 ++ [.consume 0 .wake]
    let s := (opened 2 1 1 1).after alone
    let t := (opened 2 1 2 1).after apart
    (opened 2 1 2 1).quiet apart ∧
      (s.buffer.readyCount, s.buffer.backlog, s.woken, s.announcing) = (1, 1, 1, 0) ∧
      s.buffer.readyCount ≤ s.buffer.backlog + s.woken + s.announcing ∧
      (t.buffer.readyCount, t.buffer.backlog, t.woken, t.announcing) = (2, 1, 1, 0) ∧
      t.buffer.readyCount ≤ t.buffer.backlog + t.woken + t.announcing := by
  intro reserving committing alone apart s t
  have hquiet : (opened 2 1 2 1).quiet apart := by decide +kernel
  have hs : (s.buffer.readyCount, s.buffer.backlog, s.woken, s.announcing) = (1, 1, 1, 0) := by
    decide +kernel
  have ht : (t.buffer.readyCount, t.buffer.backlog, t.woken, t.announcing) = (2, 1, 1, 0) := by
    decide +kernel
  exact ⟨hquiet, hs, ready_le_signals 2 1 1 1 alone (.inl rfl), ht,
    ready_le_signals 2 1 2 1 apart (.inr hquiet)⟩

/-- If there are two producers, one that evicts can consume the signal of the other's message. -/
example :
    let s := (opened 2 1 2 1).after [
      .produce 0 .reserve, .produce 0 (.park 0 1 .unspecified), .produce 0 .notify,
      .consume 0 .wake, .produce 1 .reserve, .produce 0 .reserve, .consume 0 .pop,
      .produce 1 (.park 0 1 .unspecified), .produce 1 .notify, .produce 0 .consume]
    (s.buffer.readyCount, s.buffer.backlog, s.woken, s.announcing) = (1, 0, 0, 0) := by
  decide +kernel

end Traffic

end MessageBuffer

end SealedDatagram

import SealedDatagram.Proofs.MessageBuffer
import SealedDatagram.Proofs.Recorder
/-!
A message buffer as a queue. Its ready messages wait in the order in which they were committed, each
with the bytes and the sender it was committed with, whatever the slots they lie in held before. A
datagram leaves by being popped, or by giving way when a slot is asked for and none is free; it is
the oldest one that leaves in either case. So what was committed is what has left, followed by what
still waits.
-/

namespace SealedDatagram

/-- What a message carries. -/
structure Datagram where
  bytes : Bytes
  peer : SocketAddress
  deriving DecidableEq

def Message.datagram (m : Message) : Datagram := ⟨m.bytes, m.peer⟩

theorem Message.take_write {m : Message} {b : Bytes} (h : b.length ≤ m.storage.length) :
    (m.write 0 b).storage.take b.length = b := by
  simp [write, List.take_take, h]

namespace Ring

variable {r : Ring} {lent : List Lease} {l : Lease} {capacity slotSize i : Nat}

def datagram? (r : Ring) (i : Nat) : Option Datagram := r.slots[i]?.join.map Message.datagram

/-- The datagrams that are ready, the oldest first. -/
def queue (r : Ring) : List Datagram := r.ready.filterMap r.datagram?

theorem queue_set (hi : i ∉ r.ready) (m : Option Message) (free : List Nat) :
    queue ⟨r.slots.set i m, free, r.ready⟩ = r.queue := by
  apply List.filterMap_congr
  intro j hj
  have hij : i ≠ j := by
    rintro rfl
    exact hi hj
  simp [datagram?, List.getElem?_set_ne hij]

theorem queue_cons {slots : List (Option Message)} {free ready : List Nat} {m : Message}
    (hm : slots[i]? = some (some m)) :
    queue ⟨slots, free, i :: ready⟩ = m.datagram :: queue ⟨slots, free, ready⟩ := by
  have hi : datagram? ⟨slots, free, i :: ready⟩ i = some m.datagram := by
    simp [datagram?, hm]
  exact List.filterMap_cons_some hi

namespace Conserves

theorem queue_lend {slots : List (Option Message)} {free ready : List Nat}
    (h : Conserves ⟨slots, free, i :: ready⟩ lent capacity slotSize) :
    ∃ l, (Ring.lend ⟨slots, free, ready⟩ i).1 = some l ∧
      queue ⟨slots, free, i :: ready⟩ =
        l.message.datagram :: (Ring.lend ⟨slots, free, ready⟩ i).2.queue := by
  obtain ⟨m, hm⟩ := (h.parked i).2 (by simp)
  have hi : i ∉ ready := by
    have hnodup := h.nodup
    simp only [List.nodup_append, List.nodup_cons] at hnodup
    exact hnodup.1.2.1.1
  refine ⟨⟨i, m⟩, by rw [Ring.lend, hm]; rfl, ?_⟩
  rw [queue_cons hm]
  exact congrArg _ (queue_set (r := ⟨slots, free, ready⟩) hi none free).symm

/-- A reservation takes the oldest datagram if and only if no slot is free. -/
theorem queue_reserve (h : r.Conserves lent capacity slotSize) :
    (r.free ≠ [] ∧ (∃ l, r.reserve.1 = ⟨some l, false⟩) ∧ r.reserve.2.queue = r.queue) ∨
    (r.free = [] ∧ ∃ l, r.reserve.1 = ⟨some l, true⟩ ∧
      r.queue = l.message.datagram :: r.reserve.2.queue) ∨
    (r.free = [] ∧ r.reserve = (⟨none, false⟩, r) ∧ r.queue = []) := by
  obtain ⟨slots, free, ready⟩ := r
  cases free with
  | cons i free =>
    obtain ⟨l, hl, -⟩ := h.lend (.refl _)
    have hi : i ∉ ready := by
      have hnodup := h.nodup
      simp only [List.cons_append, List.nodup_cons, List.mem_append, not_or] at hnodup
      exact hnodup.1.1.2
    refine .inl ⟨List.cons_ne_nil i free, ⟨l, congrArg (Reservation.mk · false) hl⟩, ?_⟩
    exact queue_set (r := ⟨slots, i :: free, ready⟩) hi none free
  | nil =>
    cases ready with
    | cons i ready =>
      obtain ⟨l, hl, hqueue⟩ := h.queue_lend
      exact .inr (.inl ⟨rfl, l, congrArg (Reservation.mk · true) hl, hqueue⟩)
    | nil => exact .inr (.inr ⟨rfl, rfl, rfl⟩)

theorem queue_pop (h : r.Conserves lent capacity slotSize) :
    (∃ l, r.pop.1 = some l ∧ r.queue = l.message.datagram :: r.pop.2.queue) ∨
    (r.pop = (none, r) ∧ r.queue = []) := by
  obtain ⟨slots, free, ready⟩ := r
  cases ready with
  | cons i ready => exact .inl h.queue_lend
  | nil => exact .inr ⟨rfl, rfl⟩

theorem notMem_ready (h : r.Conserves (l :: lent) capacity slotSize) : l.index ∉ r.ready := by
  intro hl
  have hnodup := (List.nodup_append.1 h.nodup).2.2
  exact hnodup _ (List.mem_append_right r.free hl) _ (List.mem_map_of_mem List.mem_cons_self) rfl

theorem queue_parkFree (h : r.Conserves (l :: lent) capacity slotSize) (m : Message) :
    (r.parkFree { l with message := m }).queue = r.queue :=
  queue_set h.notMem_ready (some m) (r.free ++ [l.index])

theorem queue_parkReady (h : r.Conserves (l :: lent) capacity slotSize) (m : Message) :
    (r.parkReady { l with message := m }).queue = r.queue ++ [m.datagram] := by
  have hlt : l.index < r.slots.length := by
    have hmem : l.index ∈ r.free ++ r.ready ++ (l :: lent).map Lease.index := by simp
    rw [h.places.mem_iff, List.mem_range] at hmem
    rwa [h.slots]
  have hold := queue_set h.notMem_ready (some m) r.free
  have hslot : (r.parkReady { l with message := m }).slots[l.index]? = some (some m) :=
    List.getElem?_set_self hlt
  have hnew : datagram? (r.parkReady { l with message := m }) l.index = some m.datagram := by
    simp [datagram?, hslot]
  unfold queue at hold ⊢
  rw [← hold]
  change (r.ready ++ [l.index]).filterMap _ = _
  rw [List.filterMap_append, List.filterMap_cons_some hnew]
  rfl

/-- A commit appends the beginning of the storage as it was left by whoever held the slot. -/
theorem queue_commit (h : r.Conserves (l :: lent) capacity slotSize) (length : Nat)
    (peer : SocketAddress) :
    (length ≤ slotSize ∧ (r.commit l length peer).1 = .ok () ∧
      (r.commit l length peer).2.queue =
        r.queue ++ [⟨l.message.storage.take length, peer⟩]) ∨
    (slotSize < length ∧ (r.commit l length peer).1 = .error (.oversized length) ∧
      (r.commit l length peer).2.queue = r.queue) := by
  have hsize := (h.lent l List.mem_cons_self).storage
  unfold Ring.commit
  split
  · rename_i hlong
    exact .inr ⟨hsize ▸ hlong, rfl, h.queue_parkFree l.message⟩
  · rename_i hfits
    refine .inl ⟨hsize ▸ Nat.le_of_not_lt hfits, rfl, ?_⟩
    exact h.queue_parkReady { l.message with length, peer }

theorem length_queue (h : r.Conserves lent capacity slotSize) :
    r.queue.length = r.ready.length := by
  apply List.filterMap_length_eq_length.2
  intro i hi
  obtain ⟨m, hm⟩ := (h.parked i).2 (List.mem_append_right r.free hi)
  simp [datagram?, hm]

theorem queue_eq_nil_iff (h : r.Conserves lent capacity slotSize) :
    r.queue = [] ↔ r.ready = [] := by
  rw [← List.length_eq_zero_iff, h.length_queue, List.length_eq_zero_iff]

end Conserves

end Ring

namespace MessageBuffer

open Fallible

/-- What becomes of a datagram. -/
inductive Passage where
  | committed (d : Datagram)
  /-- It gave way to another. -/
  | evicted (d : Datagram)
  | popped (d : Datagram)
  deriving DecidableEq

namespace Passage

def committed? : Passage → Option Datagram
  | committed d => some d
  | evicted _ | popped _ => none

def left? : Passage → Option Datagram
  | evicted d | popped d => some d
  | committed _ => none

end Passage

namespace Lending

variable {s : Lending} {capacity slotSize : Nat}

abbrev ring (s : Lending) : Ring := s.buffer.state.ring

def queue (s : Lending) : List Datagram := s.ring.queue

def evictions (s : Lending) : List Passage :=
  match s.ring.reserve.1 with
  | ⟨some l, true⟩ => [.evicted l.message.datagram]
  | _ => []

/-- What a section brings about, read off its answer. -/
def passages : Section → Lending → List Passage
  | .reserve, s => s.evictions
  | .commit i length peer, s =>
    match s.held[i]? with
    | some l =>
      match ((MessageBuffer.commit l length peer).exec s.buffer).1 with
      | .ok () => [.committed ⟨l.message.storage.take length, peer⟩]
      | .error _ => []
    | none => []
  | .push b peer, s =>
    match ((MessageBuffer.push b peer).exec s.buffer).1 with
    | .ok () => s.evictions ++ [.committed ⟨b, peer⟩]
    | .error _ => []
  | .pop, s =>
    match (MessageBuffer.pop.exec s.buffer).1 with
    | .ok l => [.popped l.message.datagram]
    | .error _ => []
  | .write _ _ _, _ | .rollback _, _ | .release _, _ => []

def recorder : Recorder Lending Section Passage := ⟨next, passages⟩

/-- A buffer is a queue, bounded by its slots, in which the oldest datagram gives way. -/
structure FirstInFirstOut (s : Lending) (capacity slotSize : Nat) : Prop where
  /-- Every slot is free, or has a place in the queue, or is lent out. -/
  places : s.ring.free.length + s.queue.length + s.held.length = capacity
  reserve : (next .reserve s).queue = if s.ring.free = [] then s.queue.tail else s.queue
  commit : ∀ i l length peer, s.held[i]? = some l → length ≤ slotSize →
    (next (.commit i length peer) s).queue =
      s.queue ++ [⟨l.message.storage.take length, peer⟩]
  oversizedCommit : ∀ i length peer, slotSize < length →
    (next (.commit i length peer) s).queue = s.queue
  pop : (MessageBuffer.pop.exec s.buffer).1.toOption.map (·.message.datagram) = s.queue.head? ∧
    (next .pop s).queue = s.queue.tail
  /-- Only a buffer whose slots are all lent out does not take what fits into a slot. -/
  push : ∀ b peer, b.length ≤ slotSize →
    if s.ring.free = [] ∧ s.queue = [] then
      (MessageBuffer.push b peer).exec s.buffer = (.error .exhausted, s.buffer)
    else ((MessageBuffer.push b peer).exec s.buffer).1 = .ok () ∧
      (next (.push b peer) s).queue =
        (if s.ring.free = [] then s.queue.tail else s.queue) ++ [⟨b, peer⟩]
  oversizedPush : ∀ b peer, slotSize < b.length →
    (MessageBuffer.push b peer).exec s.buffer = (.error (.oversized b.length), s.buffer)
  write : ∀ i start b, (next (.write i start b) s).queue = s.queue
  rollback : ∀ i, (next (.rollback i) s).queue = s.queue
  release : ∀ i, (next (.release i) s).queue = s.queue

theorem Conserves.front (h : s.Conserves capacity slotSize) {i : Nat} {l : Lease}
    (hl : s.held[i]? = some l) : s.ring.Conserves (l :: s.held.eraseIdx i) capacity slotSize := by
  obtain ⟨hi, rfl⟩ := List.getElem?_eq_some_iff.1 hl
  exact Ring.Conserves.perm h (List.getElem_cons_eraseIdx_perm hi).symm

theorem buffer_lend (s : Lending) (x : Fallible BufferError MessageBuffer Lease) :
    (s.lend x).buffer = (x.exec s.buffer).2 := by
  unfold lend
  split
  · rename_i l buffer hx
    rw [hx]
  · rename_i err buffer hx
    rw [hx]

theorem queue_settle (h : s.Conserves capacity slotSize) (i : Nat)
    {f : Lease → Env MessageBuffer → Env MessageBuffer}
    (hf : ∀ {l lent}, s.ring.Conserves (l :: lent) capacity slotSize →
      (f l s.buffer).state.ring.queue = s.queue) : (s.settle i f).queue = s.queue := by
  unfold settle
  split
  · rename_i l hl
    exact hf (h.front hl)
  · rfl

theorem queue_write (s : Lending) (i start : Nat) (b : Bytes) :
    (s.write i start b).queue = s.queue := by
  unfold write
  split <;> rfl

theorem queue_eq_evictions (h : s.Conserves capacity slotSize) :
    s.queue = s.evictions.filterMap Passage.left? ++ s.ring.reserve.2.queue ∧
      s.evictions.filterMap Passage.committed? = [] ∧
      s.ring.reserve.2.queue = if s.ring.free = [] then s.queue.tail else s.queue := by
  unfold queue evictions
  rcases Ring.Conserves.queue_reserve h with
    ⟨hfree, ⟨l, hl⟩, hq⟩ | ⟨hfree, l, hl, hq⟩ | ⟨hfree, hr, hq⟩
  · rw [hl, if_neg hfree]
    exact ⟨hq.symm, rfl, hq⟩
  · rw [hl, if_pos hfree]
    exact ⟨hq, rfl, (congrArg List.tail hq).symm⟩
  · rw [hr, if_pos hfree, hq]
    exact ⟨rfl, rfl, rfl⟩

theorem queue_reserve (h : s.Conserves capacity slotSize) :
    (next .reserve s).queue = if s.ring.free = [] then s.queue.tail else s.queue := by
  rw [← (queue_eq_evictions h).2.2]
  change (s.lend MessageBuffer.reserve).buffer.state.ring.queue = _
  rw [buffer_lend, exec_reserve]

theorem queue_pop (h : s.Conserves capacity slotSize) :
    (∃ l, (MessageBuffer.pop.exec s.buffer).1 = .ok l ∧
      s.queue = l.message.datagram :: (next .pop s).queue) ∨
    ((MessageBuffer.pop.exec s.buffer).1 = .error .empty ∧ s.queue = [] ∧
      (next .pop s).queue = []) := by
  have hnext : (next .pop s).queue = s.ring.pop.2.queue := by
    change (s.lend MessageBuffer.pop).buffer.state.ring.queue = _
    rw [buffer_lend, exec_pop]
  rw [hnext, exec_pop]
  rcases Ring.Conserves.queue_pop h with ⟨l, hl, hq⟩ | ⟨hr, hq⟩
  · exact .inl ⟨l, congrArg (Option.elim · _ _) hl, hq⟩
  · rw [hr]
    exact .inr ⟨rfl, hq, hq⟩

theorem queue_commit (h : s.Conserves capacity slotSize) {i : Nat} {l : Lease}
    (hl : s.held[i]? = some l) (length : Nat) (peer : SocketAddress) :
    (length ≤ slotSize ∧ ((MessageBuffer.commit l length peer).exec s.buffer).1 = .ok () ∧
      (next (.commit i length peer) s).queue =
        s.queue ++ [⟨l.message.storage.take length, peer⟩]) ∨
    (slotSize < length ∧
      ((MessageBuffer.commit l length peer).exec s.buffer).1 = .error (.oversized length) ∧
      (next (.commit i length peer) s).queue = s.queue) := by
  have hnext : (next (.commit i length peer) s).queue = (s.ring.commit l length peer).2.queue := by
    simp only [next, settle, hl, exec_commit]
    rfl
  rw [hnext, exec_commit]
  exact (h.front hl).queue_commit length peer

/-- What is written in one go is too long for a slot, or finds every slot lent out, or is appended
as it is. -/
theorem queue_push (h : s.Conserves capacity slotSize) (hsize : s.buffer.state.slotSize = slotSize)
    (b : Bytes) (peer : SocketAddress) :
    (slotSize < b.length ∧
      (MessageBuffer.push b peer).exec s.buffer = (.error (.oversized b.length), s.buffer)) ∨
    (b.length ≤ slotSize ∧ (s.ring.free = [] ∧ s.queue = []) ∧
      (MessageBuffer.push b peer).exec s.buffer = (.error .exhausted, s.buffer)) ∨
    (b.length ≤ slotSize ∧ ¬ (s.ring.free = [] ∧ s.queue = []) ∧
      ((MessageBuffer.push b peer).exec s.buffer).1 = .ok () ∧
      (next (.push b peer) s).queue = s.ring.reserve.2.queue ++ [⟨b, peer⟩]) := by
  have hnext : (next (.push b peer) s).queue =
      ((MessageBuffer.push b peer).exec s.buffer).2.state.ring.queue := rfl
  rw [hnext, exec_push, hsize]
  split
  · rename_i hlong
    exact .inl ⟨hlong, rfl⟩
  · rename_i hfits
    have hle := Nat.le_of_not_lt hfits
    rw [exec_reserve]
    rcases Ring.Conserves.reserve h with ⟨l, hl, hleft, hr⟩ | ⟨hr, hfree, hready⟩
    · have hfront := hr.perm (List.perm_append_singleton l s.held)
      have hm := hfront.lent l List.mem_cons_self
      have htake : (l.message.write 0 b).storage.take b.length = b :=
        Message.take_write (hm.storage ▸ hle)
      rw [hl]
      dsimp only [Option.elim]
      rw [exec_commit]
      rcases (hfront.write (hm.write 0 b)).queue_commit b.length peer with
        ⟨-, hok, hq⟩ | ⟨hlong, -, -⟩
      · rw [htake] at hq
        rw [← Ring.Conserves.queue_eq_nil_iff h] at hleft
        exact .inr (.inr ⟨hle, hleft, hok, hq⟩)
      · exact absurd hlong hfits
    · rw [hr]
      exact .inr (.inl ⟨hle, ⟨hfree, (Ring.Conserves.queue_eq_nil_iff h).2 hready⟩, rfl⟩)

theorem queue_rollback (h : s.Conserves capacity slotSize) (i : Nat) :
    (next (.rollback i) s).queue = s.queue :=
  queue_settle h i fun {l _} hring => hring.queue_parkFree l.message

theorem queue_release (h : s.Conserves capacity slotSize) (i : Nat) :
    (next (.release i) s).queue = s.queue :=
  queue_settle h i fun {l _} hring => hring.queue_parkFree { l.message with length := 0 }

theorem firstInFirstOut (h : s.Conserves capacity slotSize)
    (hsize : s.buffer.state.slotSize = slotSize) : s.FirstInFirstOut capacity slotSize where
  places := by
    have hplaces := (Ring.Conserves.places h).length_eq
    have hqueue := Ring.Conserves.length_queue h
    simp only [List.length_append, List.length_map, List.length_range] at hplaces
    rw [← hplaces, queue, hqueue]
  reserve := queue_reserve h
  commit i l length peer hl hfits := by
    rcases queue_commit h hl length peer with ⟨-, -, hq⟩ | ⟨hlong, -, -⟩
    · exact hq
    · omega
  oversizedCommit i length peer hlong := by
    cases hl : s.held[i]? with
    | none => simp only [next, settle, hl]
    | some l =>
      rcases queue_commit h hl length peer with ⟨hfits, -, -⟩ | ⟨-, -, hq⟩
      · omega
      · exact hq
  pop := by
    rcases queue_pop h with ⟨l, hl, hq⟩ | ⟨herr, hq, hnext⟩
    · rw [hl, hq]
      exact ⟨rfl, rfl⟩
    · rw [herr, hq, hnext]
      exact ⟨rfl, rfl⟩
  push b peer hfits := by
    rcases queue_push h hsize b peer with ⟨hlong, -⟩ | ⟨-, hall, hx⟩ | ⟨-, hleft, hok, hq⟩
    · omega
    · rwa [if_pos hall]
    · rw [if_neg hleft, hq, (queue_eq_evictions h).2.2]
      exact ⟨hok, rfl⟩
  oversizedPush b peer hlong := by
    rcases queue_push h hsize b peer with ⟨-, hx⟩ | ⟨hfits, -⟩ | ⟨hfits, -⟩
    · exact hx
    · omega
    · omega
  write := queue_write s
  rollback := queue_rollback h
  release := queue_release h

/-- What was in the queue and what a section commits is what leaves and what is then in it. -/
theorem queue_next (h : s.Conserves capacity slotSize) (hsize : s.buffer.state.slotSize = slotSize)
    (x : Section) :
    s.queue ++ (passages x s).filterMap Passage.committed? =
      (passages x s).filterMap Passage.left? ++ (next x s).queue := by
  have hkept (y : Section) (hy : passages y s = []) (hq : (next y s).queue = s.queue) :
      s.queue ++ (passages y s).filterMap Passage.committed? =
        (passages y s).filterMap Passage.left? ++ (next y s).queue := by
    rw [hy, hq]
    exact List.append_nil _
  obtain ⟨hleft, hnone, htail⟩ := queue_eq_evictions h
  cases x with
  | reserve =>
    change _ ++ s.evictions.filterMap _ = s.evictions.filterMap _ ++ _
    rw [hnone, queue_reserve h, ← htail, List.append_nil]
    exact hleft
  | write i start b => exact hkept _ rfl (queue_write s i start b)
  | commit i length peer =>
    cases hl : s.held[i]? with
    | none => exact hkept _ (by simp only [passages, hl]) (by simp only [next, settle, hl])
    | some l =>
      rcases queue_commit h hl length peer with ⟨-, hok, hq⟩ | ⟨-, herr, hq⟩
      · simp only [passages, hl, hok, hq]
        rfl
      · exact hkept _ (by simp only [passages, hl, herr]) hq
  | rollback i => exact hkept _ rfl (queue_rollback h i)
  | push b peer =>
    have hrefused {err : BufferError}
        (hx : (MessageBuffer.push b peer).exec s.buffer = (.error err, s.buffer)) :=
      hkept (.push b peer) (by simp only [passages, hx]) (by simp only [next, hx])
    rcases queue_push h hsize b peer with ⟨-, hx⟩ | ⟨-, -, hx⟩ | ⟨-, -, hok, hq⟩
    · exact hrefused hx
    · exact hrefused hx
    · simp only [passages, hok, hq, List.filterMap_append, hnone]
      change s.queue ++ [⟨b, peer⟩] =
        s.evictions.filterMap Passage.left? ++ [] ++ (s.ring.reserve.2.queue ++ [⟨b, peer⟩])
      rw [List.append_nil, ← List.append_assoc, ← hleft]
  | pop =>
    rcases queue_pop h with ⟨l, hl, hq⟩ | ⟨herr, hq, hnext⟩
    · simp only [passages, hl, hq]
      exact List.append_nil _
    · exact hkept _ (by simp only [passages, herr]) (hnext.trans hq.symm)
  | release i => exact hkept _ rfl (queue_release h i)

theorem slotSize_settle (s : Lending) (i : Nat) {f : Lease → Env MessageBuffer → Env MessageBuffer}
    (hf : ∀ l, (f l s.buffer).state.slotSize = s.buffer.state.slotSize) :
    (s.settle i f).buffer.state.slotSize = s.buffer.state.slotSize := by
  unfold settle
  split
  · rename_i l _
    exact hf l
  · rfl

theorem slotSize_next (s : Lending) (x : Section) :
    (next x s).buffer.state.slotSize = s.buffer.state.slotSize := by
  have hreserve (e : Env MessageBuffer) :
      (MessageBuffer.reserve.exec e).2.state.slotSize = e.state.slotSize := by rw [exec_reserve]
  have hcommit (l length peer) (e : Env MessageBuffer) :
      ((MessageBuffer.commit l length peer).exec e).2.state.slotSize = e.state.slotSize := by
    rw [exec_commit]
  cases x with
  | reserve =>
    change (s.lend MessageBuffer.reserve).buffer.state.slotSize = _
    rw [buffer_lend, hreserve]
  | write i start b =>
    change (s.write i start b).buffer.state.slotSize = _
    unfold write
    split <;> rfl
  | commit i length peer => exact slotSize_settle s i fun l => hcommit l length peer s.buffer
  | rollback i => exact slotSize_settle s i fun _ => rfl
  | push b peer =>
    change ((MessageBuffer.push b peer).exec s.buffer).2.state.slotSize = _
    rw [exec_push]
    split
    · rfl
    · have hkept := hreserve s.buffer
      rcases hx : MessageBuffer.reserve.exec s.buffer with ⟨err | l, buffer⟩ <;> rw [hx] at hkept
      · exact hkept
      · exact (hcommit _ b.length peer buffer).trans hkept
  | pop =>
    change (s.lend MessageBuffer.pop).buffer.state.slotSize = _
    rw [buffer_lend, exec_pop]
  | release i => exact slotSize_settle s i fun _ => rfl

/-- Whatever is done to a buffer in whatever order, it is a queue, and all that was ever committed
is what was evicted or popped, in this order, followed by what waits. -/
theorem first_in_first_out (e : Env MessageBuffer) (capacity slotSize : Nat)
    (sections : List Section) :
    let s := (ofCapacity e capacity slotSize).after sections
    let past := recorder.record (ofCapacity e capacity slotSize) sections
    s.FirstInFirstOut capacity slotSize ∧
      past.filterMap Passage.committed? = past.filterMap Passage.left? ++ s.queue := by
  intro s past
  let P (s : Lending) (past : List Passage) : Prop :=
    s.Conserves capacity slotSize ∧ s.buffer.state.slotSize = slotSize ∧
      past.filterMap Passage.committed? = past.filterMap Passage.left? ++ s.queue
  have hstep (s : Lending) (past : List Passage) (x : Section) (hs : P s past) :
      P (next x s) (past ++ passages x s) := by
    obtain ⟨h, hsize, hpast⟩ := hs
    refine ⟨h.next x, (slotSize_next s x).trans hsize, ?_⟩
    rw [List.filterMap_append, List.filterMap_append, List.append_assoc, hpast,
      List.append_assoc, queue_next h hsize x]
  have hinit : P (ofCapacity e capacity slotSize) [] :=
    ⟨Ring.conserves_ofCapacity capacity slotSize, rfl, rfl⟩
  obtain ⟨h, hsize, hpast⟩ : P s ([] ++ past) := recorder.keeps hstep hinit sections
  exact ⟨firstInFirstOut h hsize, hpast⟩

/-- In a buffer with two slots the third datagram takes the place of the first. -/
example :
    let push (n : UInt8) : Section := .push [n] .unspecified
    let datagram (n : UInt8) : Datagram := ⟨[n], .unspecified⟩
    recorder.record (ofCapacity { state := .ofCapacity 2 4 } 2 4) [push 1, push 2, push 3, .pop] =
      [.committed (datagram 1), .committed (datagram 2), .evicted (datagram 1),
        .committed (datagram 3), .popped (datagram 2)] := by
  decide +kernel

end Lending

end MessageBuffer

end SealedDatagram

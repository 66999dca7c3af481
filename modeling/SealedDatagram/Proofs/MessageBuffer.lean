import Mathlib.Data.List.Perm.Basic
import SealedDatagram.MessageBuffer
import SealedDatagram.Proofs.Env
import SealedDatagram.Proofs.Ring
/-!
A message buffer in use. Any number of slots can be lent out at once, to be written or because a
message is being handled, and they come back in any order, one way or another.
-/

namespace SealedDatagram

namespace MessageBuffer

open Fallible

theorem exec_reserve (e : Env MessageBuffer) :
    reserve.exec e = (e.state.ring.reserve.1.lease.elim (.error .exhausted) .ok, { e with
      state := { e.state with
        ring := e.state.ring.reserve.2
        signal := if e.state.ring.reserve.1.evicted then e.state.signal.tryConsume.2
          else e.state.signal }
      metrics := if e.state.ring.reserve.1.evicted then e.metrics.datagramEvicted
        else e.metrics }) := by
  unfold reserve
  rw [exec_bind, exec_getState]
  dsimp only
  rcases e.state.ring.reserve with ⟨⟨lease, evicted⟩, ring⟩
  cases evicted <;> cases lease <;> rfl

theorem exec_commit (l : Lease) (length : Nat) (peer : SocketAddress) (e : Env MessageBuffer) :
    (commit l length peer).exec e = ((e.state.ring.commit l length peer).1, { e with
      state := { e.state with
        ring := (e.state.ring.commit l length peer).2
        signal := if (e.state.ring.commit l length peer).1.isOk then e.state.signal.raise
          else e.state.signal } }) := by
  unfold commit
  rw [exec_bind, exec_getState]
  dsimp only
  rcases e.state.ring.commit l length peer with ⟨_ | _, ring⟩ <;> rfl

theorem exec_pop (e : Env MessageBuffer) :
    pop.exec e = (e.state.ring.pop.1.elim (.error .empty) .ok,
      { e with state := { e.state with ring := e.state.ring.pop.2 } }) := by
  unfold pop
  rw [exec_bind, exec_getState]
  dsimp only
  rcases e.state.ring.pop with ⟨_ | _, ring⟩ <;> rfl

theorem exec_push (b : Bytes) (peer : SocketAddress) (e : Env MessageBuffer) :
    (push b peer).exec e =
      if e.state.slotSize < b.length then (.error (.oversized b.length), e)
      else match reserve.exec e with
        | (.ok l, e') => (commit { l with message := l.message.write 0 b } b.length peer).exec e'
        | (.error err, e') => (.error err, e') := by
  unfold push
  rw [exec_bind, exec_getState]
  dsimp only
  split
  · rfl
  · rw [exec_bind]
    rcases reserve.exec e with ⟨_ | _, _⟩ <;> rfl

/-- A buffer, and the slots that are lent out. -/
structure Lending where
  buffer : Env MessageBuffer
  held : List Lease := []

/-- What is done next, to the buffer or to one of the slots that are lent out. Giving a reservation
up, on purpose or not, is to roll it back. Others may come in between when a message is written in
one go: then it is a reservation, a write and a commit. -/
inductive Section where
  | reserve
  | write (i start : Nat) (b : Bytes)
  | commit (i length : Nat) (peer : SocketAddress)
  | rollback (i : Nat)
  | push (b : Bytes) (peer : SocketAddress)
  | pop
  | release (i : Nat)

namespace Lending

variable {s : Lending} {capacity slotSize : Nat}

def lend (s : Lending) (x : Fallible BufferError MessageBuffer Lease) : Lending :=
  match x.exec s.buffer with
  | (.ok l, buffer) => ⟨buffer, s.held ++ [l]⟩
  | (.error _, buffer) => ⟨buffer, s.held⟩

def settle (s : Lending) (i : Nat) (f : Lease → Env MessageBuffer → Env MessageBuffer) : Lending :=
  match s.held[i]? with
  | some l => ⟨f l s.buffer, s.held.eraseIdx i⟩
  | none => s

/-- Writes into the storage of one of the slots that are lent out. -/
def write (s : Lending) (i start : Nat) (b : Bytes) : Lending :=
  match s.held[i]? with
  | some l => { s with held := s.held.set i { l with message := l.message.write start b } }
  | none => s

def next : Section → Lending → Lending
  | .reserve, s => s.lend MessageBuffer.reserve
  | .write i start b, s => s.write i start b
  | .commit i length peer, s =>
    s.settle i fun l e => ((MessageBuffer.commit l length peer).exec e).2
  | .rollback i, s => s.settle i fun l e => (MessageBuffer.rollback l e).2
  | .push b peer, s => { s with buffer := ((MessageBuffer.push b peer).exec s.buffer).2 }
  | .pop, s => s.lend MessageBuffer.pop
  | .release i, s => s.settle i fun l e => (MessageBuffer.release l e).2

def after (s : Lending) (sections : List Section) : Lending :=
  sections.foldl (fun s x => next x s) s

def ofCapacity (e : Env MessageBuffer) (capacity slotSize : Nat) : Lending where
  buffer := { e with state := .ofCapacity capacity slotSize }

def Conserves (s : Lending) (capacity slotSize : Nat) : Prop :=
  s.buffer.state.ring.Conserves s.held capacity slotSize

theorem Conserves.lend {x : Fallible BufferError MessageBuffer Lease} {lease : Option Lease}
    {err : BufferError} {buffer : Env MessageBuffer}
    (hx : x.exec s.buffer = (lease.elim (.error err) .ok, buffer))
    (hring : (∃ l, lease = some l ∧
        buffer.state.ring.Conserves (s.held ++ [l]) capacity slotSize) ∨
      lease = none ∧ buffer.state.ring.Conserves s.held capacity slotSize) :
    (s.lend x).Conserves capacity slotSize := by
  unfold Lending.lend
  rw [hx]
  rcases hring with ⟨l, rfl, hring⟩ | ⟨rfl, hring⟩
  · exact hring
  · exact hring

theorem Conserves.reserve (h : s.Conserves capacity slotSize) :
    (s.lend MessageBuffer.reserve).Conserves capacity slotSize := by
  refine Conserves.lend (exec_reserve s.buffer) ?_
  dsimp only
  rcases Ring.Conserves.reserve h with ⟨l, hl, -, hr⟩ | ⟨hr, -, -⟩
  · exact .inl ⟨l, hl, hr⟩
  · rw [hr]
    exact .inr ⟨rfl, h⟩

theorem Conserves.pop (h : s.Conserves capacity slotSize) :
    (s.lend MessageBuffer.pop).Conserves capacity slotSize := by
  refine Conserves.lend (exec_pop s.buffer) ?_
  dsimp only
  rcases Ring.Conserves.pop h with ⟨l, hl, -, hr⟩ | ⟨hr, -⟩
  · exact .inl ⟨l, hl, hr⟩
  · rw [hr]
    exact .inr ⟨rfl, h⟩

theorem Conserves.settle (h : s.Conserves capacity slotSize) (i : Nat)
    {f : Lease → Env MessageBuffer → Env MessageBuffer}
    (hf : ∀ {l lent}, s.buffer.state.ring.Conserves (l :: lent) capacity slotSize →
      (f l s.buffer).state.ring.Conserves lent capacity slotSize) :
    (s.settle i f).Conserves capacity slotSize := by
  unfold Lending.settle
  split
  · rename_i l hl
    obtain ⟨hi, rfl⟩ := List.getElem?_eq_some_iff.1 hl
    exact hf (Ring.Conserves.perm h (List.getElem_cons_eraseIdx_perm hi).symm)
  · exact h

theorem Conserves.write (h : s.Conserves capacity slotSize) (i start : Nat) (b : Bytes) :
    (s.write i start b).Conserves capacity slotSize := by
  unfold Lending.write
  split
  · rename_i l hl
    obtain ⟨hi, rfl⟩ := List.getElem?_eq_some_iff.1 hl
    have hfront := Ring.Conserves.perm h (List.getElem_cons_eraseIdx_perm hi).symm
    have hfits := (hfront.lent _ List.mem_cons_self).write start b
    exact (hfront.write hfits).perm (List.set_perm_cons_eraseIdx hi _).symm
  · exact h

theorem Conserves.push (h : s.Conserves capacity slotSize) (b : Bytes) (peer : SocketAddress) :
    (next (.push b peer) s).Conserves capacity slotSize := by
  change Ring.Conserves (((MessageBuffer.push b peer).exec s.buffer).2.state.ring) s.held capacity
    slotSize
  rw [exec_push]
  split
  · exact h
  · have hreserve := h.reserve
    unfold Lending.lend at hreserve
    rcases hx : MessageBuffer.reserve.exec s.buffer with ⟨err | l, buffer⟩
    · rw [hx] at hreserve
      exact hreserve
    · rw [hx] at hreserve
      have hfront : buffer.state.ring.Conserves (l :: s.held) capacity slotSize :=
        Ring.Conserves.perm hreserve (List.perm_append_singleton l s.held)
      have hfits := (hfront.lent l List.mem_cons_self).write 0 b
      dsimp only
      rw [exec_commit]
      exact (hfront.write hfits).commit b.length peer

theorem Conserves.next (h : s.Conserves capacity slotSize) (x : Section) :
    (next x s).Conserves capacity slotSize := by
  cases x with
  | reserve => exact h.reserve
  | write i start b => exact h.write i start b
  | commit i length peer =>
    apply h.settle i
    intro l lent hring
    rw [exec_commit]
    exact hring.commit length peer
  | rollback i => exact h.settle i Ring.Conserves.rollback
  | push b peer => exact h.push b peer
  | pop => exact h.pop
  | release i => exact h.settle i Ring.Conserves.release

theorem conserves_after (h : s.Conserves capacity slotSize) (sections : List Section) :
    (s.after sections).Conserves capacity slotSize := by
  induction sections generalizing s with
  | nil => exact h
  | cons x sections ih => exact ih (h.next x)

/-- Whatever is done to a buffer in whatever order, every slot is in one place, and the buffer fails
to lend one out only for want of a slot or of a message, never for want of storage. -/
theorem conserved (e : Env MessageBuffer) (capacity slotSize : Nat) (sections : List Section) :
    let s := (ofCapacity e capacity slotSize).after sections
    let ring := s.buffer.state.ring
    ring.Conserves s.held capacity slotSize ∧
    ((MessageBuffer.reserve.exec s.buffer).1 = .error .exhausted ↔
      ∀ i < capacity, ∃ l ∈ s.held, l.index = i) ∧
    ((MessageBuffer.pop.exec s.buffer).1 = .error .empty ↔ ring.ready = []) ∧
    ∀ i ∈ ring.free ++ ring.ready, (ring.lend i).1.isSome := by
  intro s ring
  have h : ring.Conserves s.held capacity slotSize :=
    conserves_after (s := ofCapacity e capacity slotSize)
      (Ring.conserves_ofCapacity capacity slotSize) sections
  refine ⟨h, ?_, ?_, ?_⟩
  · rw [h.all_lent_iff, exec_reserve]
    change ring.reserve.1.lease.elim _ _ = _ ↔ _
    rcases h.reserve with ⟨l, hl, hleft, -⟩ | ⟨hnone, hleft⟩
    · rw [hl]
      exact iff_of_false nofun hleft
    · rw [hnone]
      exact iff_of_true rfl hleft
  · rw [exec_pop]
    change ring.pop.1.elim _ _ = _ ↔ _
    rcases h.pop with ⟨l, hl, hready, -⟩ | ⟨hnone, hready⟩
    · rw [hl]
      exact iff_of_false nofun hready
    · rw [hnone]
      exact iff_of_true rfl hready
  · intro i hi
    obtain ⟨m, hm⟩ := (h.parked i).2 hi
    rw [Ring.lend, hm]
    rfl

/-- With one slot reserved after an eviction and the other one popped there is nothing left. -/
theorem exhausted_with_all_lent :
    let e : Env MessageBuffer := { state := .ofCapacity 2 3 }
    let sections : List Section := [.reserve, .write 0 0 [7], .commit 0 1 .unspecified,
      .push [1, 2] .unspecified, .reserve, .pop]
    let s := (ofCapacity e 2 3).after sections
    s.held.map (fun l => (l.index, l.message.bytes)) = [(0, [7]), (1, [1, 2])] ∧
      (MessageBuffer.reserve.exec s.buffer).1 = .error .exhausted ∧
      (MessageBuffer.pop.exec s.buffer).1 = .error .empty := by
  intro e sections
  have hheld : ((ofCapacity e 2 3).after sections).held.map
      (fun l => (l.index, l.message.bytes)) = [(0, [7]), (1, [1, 2])] := by decide +kernel
  have hindex : ((ofCapacity e 2 3).after sections).held.map Lease.index = [0, 1] := by
    decide +kernel
  have hready : ((ofCapacity e 2 3).after sections).buffer.state.ring.ready = [] := by
    decide +kernel
  have hall := conserved e 2 3 sections
  dsimp only at hall ⊢
  generalize (ofCapacity e 2 3).after sections = s at *
  obtain ⟨-, hreserve, hpop, -⟩ := hall
  refine ⟨hheld, hreserve.2 ?_, hpop.2 hready⟩
  intro i hi
  have hmem : i ∈ s.held.map Lease.index := by
    rw [hindex, List.mem_pair]
    omega
  exact List.mem_map.1 hmem

end Lending

end MessageBuffer

end SealedDatagram

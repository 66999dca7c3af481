import Mathlib.Data.List.Nodup
import SealedDatagram.Ring
/-!
Where the slots of a ring are. Every slot is free, or ready, or lent out to one holder, and its
storage is in the ring exactly while it is not lent out. Lending takes a slot from one of the two
lists, parking puts it back into one of them; nothing else moves a slot.
-/

namespace SealedDatagram

/-- Storage of some size with a message that lies in it. -/
structure Message.Fits (m : Message) (size : Nat) : Prop where
  storage : m.storage.length = size
  length : m.length ≤ size

namespace Message

variable {m : Message} {size : Nat}

theorem fits_blank (size : Nat) : (blank size).Fits size :=
  ⟨List.length_replicate, Nat.zero_le size⟩

theorem length_write (m : Message) (start : Nat) (b : Bytes) :
    (m.write start b).storage.length = m.storage.length := by
  simp only [write, List.length_take, List.length_append, List.length_drop]
  omega

theorem Fits.write (h : m.Fits size) (start : Nat) (b : Bytes) : (m.write start b).Fits size :=
  ⟨(m.length_write start b).trans h.storage, h.length⟩

end Message

namespace Ring

variable {r : Ring} {lent lent' : List Lease} {l : Lease} {capacity slotSize i : Nat}

/-- A ring of some capacity accounts for its slots while these leases are out. -/
structure Conserves (r : Ring) (lent : List Lease) (capacity slotSize : Nat) : Prop where
  slots : r.slots.length = capacity
  /-- Every slot is in one place, and once. -/
  places : (r.free ++ r.ready ++ lent.map Lease.index).Perm (List.range capacity)
  parked : ∀ i : Nat, (∃ m : Message, r.slots[i]? = some (some m)) ↔ i ∈ r.free ++ r.ready
  stored : ∀ (i : Nat) (m : Message), r.slots[i]? = some (some m) → m.Fits slotSize
  lent : ∀ l ∈ lent, l.message.Fits slotSize

theorem conserves_ofCapacity (capacity slotSize : Nat) :
    (ofCapacity capacity slotSize).Conserves [] capacity slotSize := by
  have hslot {i : Nat} {m : Message} :
      (ofCapacity capacity slotSize).slots[i]? = some (some m) ↔
        i < capacity ∧ Message.blank slotSize = m := by
    simp [ofCapacity, List.getElem?_replicate]
  refine ⟨by simp [ofCapacity], by simp [ofCapacity], ?_, ?_, nofun⟩
  · intro i
    simp only [hslot, exists_and_left, exists_eq', and_true]
    simp [ofCapacity]
  · intro i m hm
    rw [← (hslot.1 hm).2]
    exact Message.fits_blank slotSize

namespace Conserves

theorem perm (h : r.Conserves lent capacity slotSize) (hp : lent.Perm lent') :
    r.Conserves lent' capacity slotSize where
  slots := h.slots
  places := ((hp.map Lease.index).append_left _).symm.trans h.places
  parked := h.parked
  stored := h.stored
  lent l hl := h.lent l (hp.mem_iff.2 hl)

theorem write (h : r.Conserves (l :: lent) capacity slotSize) {m : Message} (hm : m.Fits slotSize) :
    r.Conserves ({ l with message := m } :: lent) capacity slotSize where
  slots := h.slots
  places := h.places
  parked := h.parked
  stored := h.stored
  lent l' hl' := by
    rcases List.mem_cons.1 hl' with rfl | hl'
    · exact hm
    · exact h.lent l' (List.mem_cons_of_mem l hl')

theorem nodup (h : r.Conserves lent capacity slotSize) :
    (r.free ++ r.ready ++ lent.map Lease.index).Nodup :=
  h.places.nodup_iff.2 List.nodup_range

theorem lend (h : r.Conserves lent capacity slotSize) {free ready : List Nat}
    (hlists : (r.free ++ r.ready).Perm (i :: (free ++ ready))) :
    ∃ l, (Ring.lend ⟨r.slots, free, ready⟩ i).1 = some l ∧
      (Ring.lend ⟨r.slots, free, ready⟩ i).2.Conserves (lent ++ [l]) capacity slotSize := by
  obtain ⟨m, hm⟩ := (h.parked i).2 (hlists.mem_iff.2 List.mem_cons_self)
  have hnot : i ∉ free ++ ready := by
    have hnodup := (List.nodup_append.1 h.nodup).1
    exact (List.nodup_cons.1 (hlists.nodup_iff.1 hnodup)).1
  refine ⟨⟨i, m⟩, by rw [Ring.lend, hm]; rfl, ?_, ?_, ?_, ?_, ?_⟩
  · exact (List.length_set).trans h.slots
  · have hplaces := (hlists.symm.append_right (lent.map Lease.index)).trans h.places
    refine List.Perm.trans ?_ hplaces
    rw [List.map_append, List.map_singleton, ← List.append_assoc]
    exact List.perm_append_singleton i _
  · -- the slot itself has left both the lists and the storage, the others are where they were
    intro j
    change (∃ m, (r.slots.set i none)[j]? = some (some m)) ↔ j ∈ free ++ ready
    by_cases hj : i = j
    · subst hj
      simp [List.getElem?_set, hnot]
    · rw [List.getElem?_set_ne hj, h.parked j, hlists.mem_iff, List.mem_cons]
      simp [Ne.symm hj]
  · intro j m' hm'
    change (r.slots.set i none)[j]? = some (some m') at hm'
    by_cases hj : i = j
    · subst hj
      simp [List.getElem?_set] at hm'
    · rw [List.getElem?_set_ne hj] at hm'
      exact h.stored j m' hm'
  · intro l hl
    rcases List.mem_append.1 hl with hl | hl
    · exact h.lent l hl
    · rw [List.mem_singleton.1 hl]
      exact h.stored i m hm

theorem park (h : r.Conserves (l :: lent) capacity slotSize) {m : Message} (hm : m.Fits slotSize)
    {free ready : List Nat} (hlists : (free ++ ready).Perm (l.index :: (r.free ++ r.ready))) :
    Conserves ⟨r.slots.set l.index (some m), free, ready⟩ lent capacity slotSize := by
  have hplaces : (l.index :: (r.free ++ r.ready ++ lent.map Lease.index)).Perm
      (List.range capacity) := List.perm_middle.symm.trans h.places
  have hlt : l.index < r.slots.length := by
    rw [h.slots]
    exact List.mem_range.1 (hplaces.mem_iff.1 List.mem_cons_self)
  refine ⟨(List.length_set).trans h.slots, ?_, ?_, ?_, ?_⟩
  · exact (hlists.append_right (lent.map Lease.index)).trans hplaces
  · intro j
    by_cases hj : l.index = j
    · subst hj
      simp [List.getElem?_set_self hlt, hlists.mem_iff]
    · rw [List.getElem?_set_ne hj, h.parked j, hlists.mem_iff, List.mem_cons]
      simp [Ne.symm hj]
  · intro j m' hm'
    by_cases hj : l.index = j
    · subst hj
      rw [List.getElem?_set_self hlt] at hm'
      obtain rfl := Option.some.inj (Option.some.inj hm')
      exact hm
    · rw [List.getElem?_set_ne hj] at hm'
      exact h.stored j m' hm'
  · intro l' hl'
    exact h.lent l' (List.mem_cons_of_mem l hl')

theorem parkFree (h : r.Conserves (l :: lent) capacity slotSize) {m : Message}
    (hm : m.Fits slotSize) :
    (r.parkFree { l with message := m }).Conserves lent capacity slotSize := by
  apply h.park hm
  rw [List.append_assoc]
  exact List.perm_middle

theorem parkReady (h : r.Conserves (l :: lent) capacity slotSize) {m : Message}
    (hm : m.Fits slotSize) :
    (r.parkReady { l with message := m }).Conserves lent capacity slotSize := by
  apply h.park hm
  rw [← List.append_assoc]
  exact List.perm_append_singleton l.index _

/-- A reservation fails only if nothing is left in the ring. -/
theorem reserve (h : r.Conserves lent capacity slotSize) :
    (∃ l, r.reserve.1.lease = some l ∧ ¬ (r.free = [] ∧ r.ready = []) ∧
      r.reserve.2.Conserves (lent ++ [l]) capacity slotSize) ∨
    (r.reserve = (⟨none, false⟩, r) ∧ r.free = [] ∧ r.ready = []) := by
  obtain ⟨slots, free, ready⟩ := r
  cases free with
  | cons i free =>
    obtain ⟨l, hl, hr⟩ := h.lend (.refl _)
    exact .inl ⟨l, hl, by simp, hr⟩
  | nil =>
    cases ready with
    | cons i ready =>
      have hlists : ([] ++ i :: ready).Perm (i :: ([] ++ ready)) := .refl _
      obtain ⟨l, hl, hr⟩ := h.lend hlists
      exact .inl ⟨l, hl, by simp, hr⟩
    | nil => exact .inr ⟨rfl, rfl, rfl⟩

theorem pop (h : r.Conserves lent capacity slotSize) :
    (∃ l, r.pop.1 = some l ∧ r.ready ≠ [] ∧
      r.pop.2.Conserves (lent ++ [l]) capacity slotSize) ∨
    (r.pop = (none, r) ∧ r.ready = []) := by
  obtain ⟨slots, free, ready⟩ := r
  cases ready with
  | cons i ready =>
    obtain ⟨l, hl, hr⟩ := h.lend List.perm_middle
    exact .inl ⟨l, hl, List.cons_ne_nil i ready, hr⟩
  | nil => exact .inr ⟨rfl, rfl⟩

theorem commit (h : r.Conserves (l :: lent) capacity slotSize) (length : Nat)
    (peer : SocketAddress) : (r.commit l length peer).2.Conserves lent capacity slotSize := by
  have hl := h.lent l List.mem_cons_self
  unfold Ring.commit
  split
  · exact h.parkFree hl
  · rename_i hlength
    refine h.parkReady (m := { l.message with length, peer }) ⟨hl.storage, ?_⟩
    rw [← hl.storage]
    exact Nat.le_of_not_lt hlength

theorem rollback (h : r.Conserves (l :: lent) capacity slotSize) :
    (r.rollback l).Conserves lent capacity slotSize :=
  h.parkFree (h.lent l List.mem_cons_self)

theorem release (h : r.Conserves (l :: lent) capacity slotSize) :
    (r.release l).Conserves lent capacity slotSize :=
  h.parkFree ⟨(h.lent l List.mem_cons_self).storage, Nat.zero_le slotSize⟩

/-- All slots are lent out exactly if none is left in the ring. -/
theorem all_lent_iff (h : r.Conserves lent capacity slotSize) :
    (∀ i < capacity, ∃ l ∈ lent, l.index = i) ↔ r.free = [] ∧ r.ready = [] := by
  have hplace (i : Nat) : i ∈ r.free ++ r.ready ++ lent.map Lease.index ↔ i < capacity := by
    rw [h.places.mem_iff, List.mem_range]
  constructor
  · intro hall
    rw [← List.append_eq_nil_iff, List.eq_nil_iff_forall_not_mem]
    intro i hi
    obtain ⟨l, hl, rfl⟩ := hall i ((hplace i).1 (List.mem_append_left _ hi))
    exact (List.nodup_append.1 h.nodup).2.2 _ hi _ (List.mem_map_of_mem hl) rfl
  · rintro ⟨hfree, hready⟩ i hi
    have hmem := (hplace i).2 hi
    rw [hfree, hready] at hmem
    exact List.mem_map.1 hmem

end Conserves

end Ring

end SealedDatagram

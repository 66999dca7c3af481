import Mathlib.Data.List.DropRight
import Mathlib.Data.List.Nodup
import SealedDatagram.Proofs.Recorder
import SealedDatagram.SaltWindow
/-!
A salt window is a memory of the last salts it accepted, as many as its capacity. The set that is
asked and the queue that says which salt is the oldest hold the same salts after every call, so that
of all the salts offered to a window only those are refused that are among the last it accepted.
-/

namespace SealedDatagram

section Recent
variable {α : Type*}

theorem rtake_eq_drop_rtake_succ (l : List α) (n : Nat) :
    l.rtake n = if n < (l.rtake (n + 1)).length then (l.rtake (n + 1)).drop 1
      else l.rtake (n + 1) := by
  simp only [List.rtake, List.length_drop, List.drop_drop]
  split
  · congr 1
    omega
  · have hn : l.length - n = 0 := by omega
    have hn' : l.length - (n + 1) = 0 := by omega
    rw [hn, hn']

theorem rtake_concat_rtake (l : List α) (x : α) (n : Nat) :
    (l.rtake n ++ [x]).rtake n = (l ++ [x]).rtake n := by
  cases n with
  | zero => rw [List.rtake_zero, List.rtake_zero]
  | succ n =>
    have hinner : (l.rtake (n + 1)).rtake n = l.rtake n := by
      simp only [List.rtake_eq_reverse_take_reverse, List.reverse_reverse, List.take_take]
      rw [Nat.min_eq_left (Nat.le_succ n)]
    rw [List.rtake_concat_succ, List.rtake_concat_succ, hinner]

theorem rtake_sublist (l : List α) (n : Nat) : (l.rtake n).Sublist l := List.drop_sublist _ _

theorem mem_rtake_iff_of_nodup {l : List α} {i n : Nat} {x : α} (hl : l.Nodup)
    (hx : l[i]? = some x) : x ∈ l.rtake n ↔ l.length ≤ i + n := by
  obtain ⟨hi, rfl⟩ := List.getElem?_eq_some_iff.1 hx
  rw [List.rtake, List.mem_drop_iff_getElem]
  constructor
  · rintro ⟨j, hj, hji⟩
    have := hl.getElem_inj_iff.1 hji
    omega
  · intro h
    exact ⟨i - (l.length - n), by omega, by congr 1; omega⟩

theorem exists_place {l : List α} (hl : l.Nodup) {x : α} (hx : x ∈ l) (n : Nat) :
    ∃ i, l[i]? = some x ∧ (x ∈ l.rtake (n + 1) ↔ l.length - (i + 1) ≤ n) := by
  obtain ⟨i, hi⟩ := List.mem_iff_getElem?.1 hx
  have hlt := (List.getElem?_eq_some_iff.1 hi).1
  refine ⟨i, hi, ?_⟩
  rw [mem_rtake_iff_of_nodup hl hi]
  omega

/-- Among the last of two lists are those of the second, and the last of the first. -/
theorem mem_or_mem_rtake_of_append {l m : List α} {n : Nat} {x : α} (h : x ∈ (l ++ m).rtake n) :
    x ∈ l.rtake n ∨ x ∈ m := by
  rw [List.rtake, List.drop_append, List.mem_append] at h
  rcases h with h | h
  · refine .inl ((List.drop_sublist_drop_left l ?_).subset h)
    simp only [List.length_append]
    omega
  · exact .inr (List.mem_of_mem_drop h)

theorem le_length_of_notMem_rtake [DecidableEq α] {l m : List α} {x : α} {n : Nat}
    (h : x ∉ (l ++ x :: m).rtake n) : n ≤ (m.filter (· ≠ x)).length := by
  -- the last place of the element decides
  have hrev : x ∈ (x :: m).reverse := List.mem_reverse.2 List.mem_cons_self
  obtain ⟨d, c, hr, hx⟩ := List.eq_append_cons_of_mem hrev
  have hcd : x :: m = c.reverse ++ x :: d.reverse := by
    rw [← List.reverse_reverse (x :: m), hr]
    simp
  have hd : n ≤ d.length := by
    by_contra hn
    apply h
    rw [hcd, ← List.append_assoc, List.rtake, List.drop_append_of_le_length]
    · exact List.mem_append_right _ List.mem_cons_self
    · simp only [List.length_append, List.length_cons, List.length_reverse]
      omega
  have hothers : d.reverse.filter (· ≠ x) = d.reverse := by
    rw [List.filter_eq_self]
    intro y hy
    rw [decide_eq_true_eq]
    rintro rfl
    exact hx (List.mem_reverse.1 hy)
  calc n ≤ d.length := hd
    _ = (d.reverse.filter (· ≠ x)).length := by rw [hothers, List.length_reverse]
    _ ≤ ((x :: m).filter (· ≠ x)).length := by
      rw [hcd, List.filter_append, List.filter_cons_of_neg (by simp), List.length_append]
      exact Nat.le_add_left _ _
    _ = (m.filter (· ≠ x)).length := by rw [List.filter_cons_of_neg (by simp)]

end Recent

namespace SaltWindow

/-- A window remembers the last salts of those it accepted, and nothing else. -/
structure Remembers (w : SaltWindow) (accepted : List Salt) : Prop where
  order : w.order = accepted.rtake w.capacity
  seen : w.seen.Perm w.order
  nodup : w.order.Nodup

variable {w : SaltWindow} {accepted : List Salt} {s : Salt}

/-- No memory holds more than can be addressed. -/
theorem fits_eq_false {m : Memory} (h : Memory.limit < w.places * (Salt.size + 1)) :
    w.fits m = false := by
  rw [← Bool.not_eq_true, fits, Bool.and_eq_true]
  exact fun hfits => Nat.not_le.2 h (Memory.le_limit_of_holds hfits.1)

theorem remembers_ofCapacity (n : Nat) : (ofCapacity n).Remembers [] :=
  ⟨(List.rtake_nil _).symm, .nil, .nil⟩

theorem Remembers.contains_iff (h : w.Remembers accepted) :
    w.contains s = true ↔ s ∈ accepted.rtake w.capacity := by
  rw [contains, List.contains_iff_mem, h.seen.mem_iff, h.order]

/-- A salt is refused exactly if it is still remembered. -/
theorem Remembers.accept_eq_false_iff (h : w.Remembers accepted) :
    (w.accept s).1 = false ↔ s ∈ accepted.rtake w.capacity := by
  unfold accept
  split
  · rename_i hc
    simp [hc]
  · split
    · rename_i hs
      exact iff_of_true rfl (h.contains_iff.1 hs)
    · rename_i hs
      exact iff_of_false nofun fun hm => hs (h.contains_iff.2 hm)

theorem Remembers.accept_eq_true_iff (h : w.Remembers accepted) :
    (w.accept s).1 = true ↔ s ∉ accepted.rtake w.capacity := by
  rw [← h.accept_eq_false_iff, Bool.not_eq_false]

/-- A salt is accepted unless it is remembered; a window without room remembers none. -/
theorem accept_eq_true_iff (w : SaltWindow) (x : Salt) :
    (w.accept x).1 = true ↔ w.capacity = 0 ∨ w.contains x = false := by
  unfold accept
  split
  · rename_i hc
    simp [hc]
  · rename_i hc
    split <;> simp_all

theorem accept_of_not_contains (h : w.contains s = false) : (w.accept s).1 = true := by
  unfold accept
  split
  · rfl
  · rw [if_neg (by rw [h]; exact Bool.false_ne_true)]

@[simp] theorem capacity_makeRoom (w : SaltWindow) : w.makeRoom.capacity = w.capacity := by
  unfold makeRoom
  split
  · split <;> rfl
  · rfl

@[simp] theorem capacity_accept (w : SaltWindow) (s : Salt) :
    (w.accept s).2.capacity = w.capacity := by
  unfold accept
  split_ifs
  · rfl
  · rfl
  · exact w.capacity_makeRoom

theorem Remembers.order_makeRoom (h : w.Remembers accepted) (hc : w.capacity = n + 1) :
    w.makeRoom.order = accepted.rtake n := by
  rw [rtake_eq_drop_rtake_succ, ← hc, ← h.order, makeRoom, hc]
  by_cases hl : n < w.order.length
  · rw [if_pos hl, if_pos (Nat.succ_le_of_lt hl)]
    cases ho : w.order with
    | nil => exact ho
    | cons oldest order => rfl
  · rw [if_neg hl, if_neg (by omega)]

theorem Remembers.seen_makeRoom (h : w.Remembers accepted) :
    w.makeRoom.seen.Perm w.makeRoom.order := by
  unfold makeRoom
  split
  · split
    · rename_i ho
      exact h.seen
    · rename_i oldest order ho
      have hp := h.seen
      rw [ho] at hp
      simpa using hp.erase oldest
  · exact h.seen

/-- An accepted salt becomes the newest of those remembered. -/
theorem Remembers.accept (h : w.Remembers accepted) (ha : (w.accept s).1 = true) :
    (w.accept s).2.Remembers (accepted ++ [s]) := by
  have hfresh := h.accept_eq_true_iff.1 ha
  cases hc : w.capacity with
  | zero =>
    have hw : (w.accept s).2 = w := by simp [SaltWindow.accept, hc]
    rw [hw]
    exact ⟨by rw [h.order, hc, List.rtake_zero, List.rtake_zero], h.seen, h.nodup⟩
  | succ n =>
    have hw : (w.accept s).2 = w.makeRoom.remember s := by
      have hn : w.contains s = false := by
        rw [← Bool.not_eq_true, h.contains_iff]
        exact hfresh
      simp [SaltWindow.accept, hc, hn]
    rw [hw]
    have horder := h.order_makeRoom hc
    have hsub : w.makeRoom.order.Sublist w.order := by
      rw [horder, h.order, hc, rtake_eq_drop_rtake_succ accepted n]
      split
      · exact List.drop_sublist _ _
      · exact .refl _
    refine ⟨?_, ?_, ?_⟩
    · show w.makeRoom.order ++ [s] = _
      rw [horder, remember, capacity_makeRoom, hc, List.rtake_concat_succ]
    · exact (h.seen_makeRoom.cons s).trans (List.perm_append_singleton s _).symm
    · show (w.makeRoom.order ++ [s]).Nodup
      rw [List.nodup_append]
      refine ⟨hsub.nodup h.nodup, List.nodup_singleton s, ?_⟩
      intro a ha b hb hab
      rw [List.mem_singleton.1 hb] at hab
      exact hfresh (h.order ▸ hab ▸ hsub.subset ha)

theorem Remembers.order_accept (h : w.Remembers accepted) (ha : (w.accept s).1 = true) :
    (w.accept s).2.order = (w.order ++ [s]).rtake w.capacity := by
  rw [(h.accept ha).order, capacity_accept, h.order, rtake_concat_rtake]

/-- A window to which salts are offered, and those of them that it accepts. -/
def recorder : Recorder SaltWindow Salt Salt where
  next s w := (w.accept s).2
  facts s w := if (w.accept s).1 then [s] else []

theorem accept_of_refused (h : (w.accept s).1 = false) : (w.accept s).2 = w := by
  unfold accept at h ⊢
  split_ifs at h ⊢
  rfl

theorem Remembers.next (h : w.Remembers accepted) (s : Salt) :
    (recorder.next s w).Remembers (accepted ++ recorder.facts s w) := by
  cases ha : (w.accept s).1 with
  | false =>
    have hnext : recorder.next s w = w := accept_of_refused ha
    have hfacts : recorder.facts s w = [] := if_neg (by rw [ha]; exact Bool.false_ne_true)
    rwa [hnext, hfacts, List.append_nil]
  | true =>
    have hfacts : recorder.facts s w = [s] := if_pos ha
    rw [hfacts]
    exact h.accept ha

theorem remembers_record (n : Nat) (salts : List Salt) :
    (recorder.after (ofCapacity n) salts).Remembers (recorder.record (ofCapacity n) salts) :=
  recorder.keeps (P := Remembers) (fun _ _ s h => h.next s) (remembers_ofCapacity n) salts

@[simp] theorem capacity_after (w : SaltWindow) (salts : List Salt) :
    (recorder.after w salts).capacity = w.capacity :=
  recorder.keeps (P := fun w' _ => w'.capacity = w.capacity) (h := [])
    (fun w' _ s h => (w'.capacity_accept s).trans h) rfl salts

theorem after_ofCapacity_zero (salts : List Salt) :
    recorder.after (ofCapacity 0) salts = ofCapacity 0 := by
  induction salts with
  | nil => rfl
  | cons s salts ih => exact ih

/-- A window knows the last salts it accepted, as many as its capacity, and no others: it refuses
these and accepts all else, the set that is asked and the queue hold these, and a refusal changes
nothing. A window without room accepts everything and stays empty. -/
theorem refuses_exactly_last (n : Nat) (salts : List Salt) (s : Salt) :
    let w := recorder.after (ofCapacity n) salts
    let last := (recorder.record (ofCapacity n) salts).rtake n
    ((w.accept s).1 = false ↔ s ∈ last) ∧ ((w.accept s).1 = false → (w.accept s).2 = w) ∧
    (w.contains s = true ↔ s ∈ last) ∧
    w.order = last ∧ w.order.Nodup ∧ w.size ≤ n ∧
    w.seen.Nodup ∧ (∀ x, x ∈ w.seen ↔ x ∈ w.order) ∧
    (n = 0 → (w.accept s).1 = true ∧ w = ofCapacity 0 ∧ w.size = 0) := by
  intro w last
  have hw : w.Remembers (recorder.record (ofCapacity n) salts) := remembers_record n salts
  have hc : w.capacity = n := capacity_after (ofCapacity n) salts
  have horder : w.order = last := by rw [hw.order, hc]
  refine ⟨?_, accept_of_refused, ?_, horder, hw.nodup, ?_, hw.seen.nodup_iff.2 hw.nodup,
    fun x => hw.seen.mem_iff, ?_⟩
  · rw [hw.accept_eq_false_iff, hc]
  · rw [hw.contains_iff, hc]
  · have hlast : last.length ≤ n := by
      simp only [last, List.rtake, List.length_drop]
      omega
    rw [size, horder]
    exact hlast
  · rintro rfl
    have hempty : w = ofCapacity 0 := after_ofCapacity_zero salts
    rw [hempty]
    exact ⟨rfl, rfl, rfl⟩

/-- A window of two that has turned over and refused a replay on the way, and one without room. -/
theorem refuses_second_of_three :
    let salt (n : UInt8) : Salt := ⟨List.replicate 8 n, rfl⟩
    let w := recorder.after (ofCapacity 2) [salt 1, salt 2, salt 1, salt 3]
    ((w.accept (salt 2)).1 = false ∧ (w.accept (salt 2)).2 = w) ∧
    (recorder.after (ofCapacity 0) [salt 1, salt 1]).size = 0 := by
  intro salt w
  obtain ⟨hrefuses, hkeeps, -⟩ :=
    refuses_exactly_last 2 [salt 1, salt 2, salt 1, salt 3] (salt 2)
  obtain ⟨-, -, -, -, -, -, -, -, hempty⟩ := refuses_exactly_last 0 [salt 1, salt 1] (salt 1)
  have hrefused : (w.accept (salt 2)).1 = false := hrefuses.2 (by decide)
  exact ⟨⟨hrefused, hkeeps hrefused⟩, (hempty rfl).2.2⟩

end SaltWindow

end SealedDatagram

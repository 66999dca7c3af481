/-!
Finite tables: association lists in which no key occurs twice. What a table says is read off `get?`,
and every operation has one equation for it.
-/

namespace SealedDatagram

structure Table (κ ν : Type) where
  entries : List (κ × ν)
  nodup : (entries.map Prod.fst).Nodup

namespace Table

variable {κ ν : Type} [DecidableEq κ]

def empty : Table κ ν := ⟨[], List.nodup_nil⟩

instance : EmptyCollection (Table κ ν) := ⟨empty⟩

instance : Inhabited (Table κ ν) := ⟨empty⟩

def get? (t : Table κ ν) (k : κ) : Option ν := t.entries.lookup k

def contains (t : Table κ ν) (k : κ) : Bool := (t.get? k).isSome

def size (t : Table κ ν) : Nat := t.entries.length

/-- Keeps the entries that pass a test. -/
def filter (p : κ → ν → Bool) (t : Table κ ν) : Table κ ν where
  entries := t.entries.filter fun e => p e.1 e.2
  nodup := t.nodup.sublist (List.filter_sublist.map _)

def erase (t : Table κ ν) (k : κ) : Table κ ν := t.filter fun k' _ => k' != k

theorem not_mem_keys_erase (t : Table κ ν) (k : κ) :
    k ∉ (t.erase k).entries.map Prod.fst := by
  simp [erase, filter]

def insert (t : Table κ ν) (k : κ) (v : ν) : Table κ ν where
  entries := (k, v) :: (t.erase k).entries
  nodup := List.nodup_cons.2 ⟨t.not_mem_keys_erase k, (t.erase k).nodup⟩

theorem lookup_eq_some_iff {l : List (κ × ν)} (h : (l.map Prod.fst).Nodup) {k : κ} {v : ν} :
    l.lookup k = some v ↔ (k, v) ∈ l := by
  induction l with
  | nil => simp
  | cons e r ih =>
    obtain ⟨k', v'⟩ := e
    rw [List.map_cons, List.nodup_cons] at h
    by_cases hk : k = k'
    · subst hk
      have : ∀ w, (k, w) ∉ r := fun w hw => h.1 (List.mem_map.2 ⟨_, hw, rfl⟩)
      simp [this, eq_comm]
    · have : (k == k') = false := by simpa using hk
      simp [List.lookup_cons, this, ih h.2, hk]

theorem get?_eq_some_iff {t : Table κ ν} {k : κ} {v : ν} :
    t.get? k = some v ↔ (k, v) ∈ t.entries := lookup_eq_some_iff t.nodup

@[simp] theorem get?_empty (k : κ) : (∅ : Table κ ν).get? k = none := rfl

theorem get?_filter (t : Table κ ν) (p : κ → ν → Bool) (k : κ) :
    (t.filter p).get? k = (t.get? k).filter (p k) := by
  apply Option.ext
  intro v
  rw [get?_eq_some_iff, Option.filter_eq_some_iff, get?_eq_some_iff]
  simp [filter]

@[simp] theorem get?_erase (t : Table κ ν) (k k' : κ) :
    (t.erase k).get? k' = if k' = k then none else t.get? k' := by
  rw [erase, get?_filter]
  by_cases h : k' = k
  · simp [h]
  · rw [if_neg h]
    cases t.get? k' <;> simp [h]

@[simp] theorem get?_insert (t : Table κ ν) (k k' : κ) (v : ν) :
    (t.insert k v).get? k' = if k' = k then some v else t.get? k' := by
  by_cases h : k' = k
  · simp [get?, insert, h]
  · have hb : (k' == k) = false := by simpa using h
    rw [if_neg h]
    have := get?_erase t k k'
    rw [if_neg h] at this
    simpa [get?, insert, List.lookup_cons, hb] using this

end Table

end SealedDatagram

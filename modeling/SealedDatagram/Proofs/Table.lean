import SealedDatagram.Table
/-!
Tables as lists of entries: what filtering and inserting twice come to.
-/

namespace SealedDatagram

namespace Table

variable {κ ν : Type} [DecidableEq κ] {t u : Table κ ν} {p q : κ → ν → Bool}

omit [DecidableEq κ] in
theorem ext_entries (h : t.entries = u.entries) : t = u := by
  cases t
  cases u
  congr

omit [DecidableEq κ] in
theorem filter_filter (t : Table κ ν) (p q : κ → ν → Bool) :
    (t.filter p).filter q = t.filter fun k v => p k v && q k v := by
  apply ext_entries
  simp [filter, Bool.and_comm]

theorem filter_congr (h : ∀ k v, t.get? k = some v → p k v = q k v) : t.filter p = t.filter q := by
  apply ext_entries
  refine List.filter_congr fun e he => ?_
  exact h e.1 e.2 (get?_eq_some_iff.2 he)

theorem filter_eq_self (h : ∀ k v, t.get? k = some v → p k v = true) : t.filter p = t := by
  apply ext_entries
  refine List.filter_eq_self.2 fun e he => ?_
  exact h e.1 e.2 (get?_eq_some_iff.2 he)

theorem insert_insert (t : Table κ ν) (k : κ) (v w : ν) :
    (t.insert k v).insert k w = t.insert k w := by
  apply ext_entries
  simp [insert, erase, filter]

end Table

end SealedDatagram

/-!
Systems that go from state to state, one input at a time, and leave a record of what came about.
What every step keeps a whole run keeps, and every entry of a record belongs to one step of the run.
-/

namespace SealedDatagram

/-- Every entry of a record has a property, which may depend on the entries before it. -/
def Throughout {F : Type} (P : List F → F → Prop) (h : List F) : Prop :=
  ∀ u f v, h = u ++ f :: v → P u f

namespace Throughout

variable {F : Type} {P : List F → F → Prop} {h : List F} {f : F}

theorem nil : Throughout P [] := by
  intro u f v heq
  exact absurd heq.symm (List.append_ne_nil_of_right_ne_nil u (List.cons_ne_nil f v))

theorem concat (hh : Throughout P h) (hf : P h f) : Throughout P (h ++ [f]) := by
  intro u g v heq
  rcases List.eq_nil_or_concat v with rfl | ⟨v', g', rfl⟩
  · obtain ⟨rfl, hg⟩ := List.append_inj' heq rfl
    obtain rfl := List.singleton_inj.1 hg
    exact hf
  · have heq' : h ++ [f] = (u ++ g :: v') ++ [g'] := by
      rw [heq, List.concat_eq_append, List.append_assoc, List.cons_append]
    exact hh u g v' (List.append_inj' heq' rfl).1

theorem append {l : List F} (hh : Throughout P h) (hl : ∀ g ∈ l, ∀ u, P u g) :
    Throughout P (h ++ l) := by
  induction l generalizing h with
  | nil => rwa [List.append_nil]
  | cons g l ih =>
    rw [List.append_cons]
    exact ih (hh.concat (hl g List.mem_cons_self h)) fun f hf => hl f (List.mem_cons_of_mem g hf)

end Throughout

structure Recorder (S I F : Type) where
  /-- The state after an input. -/
  next : I → S → S
  /-- What the input brings about. -/
  facts : I → S → List F

namespace Recorder

variable {S I F : Type} (m : Recorder S I F)

def after (s : S) (inputs : List I) : S := inputs.foldl (fun s i => m.next i s) s

def record (s : S) : List I → List F
  | [] => []
  | i :: inputs => m.facts i s ++ record (m.next i s) inputs

/-- Whether every input comes upon a state that is right for it. -/
def all (ok : S → I → Bool) (s : S) : List I → Bool
  | [] => true
  | i :: inputs => ok s i && all ok (m.next i s) inputs

theorem all_cons {ok : S → I → Bool} {s : S} {i : I} {inputs : List I} :
    m.all ok s (i :: inputs) ↔ ok s i ∧ m.all ok (m.next i s) inputs := Bool.and_eq_true_iff

theorem after_nil (s : S) : m.after s [] = s := rfl

theorem after_cons (s : S) (i : I) (inputs : List I) :
    m.after s (i :: inputs) = m.after (m.next i s) inputs := rfl

theorem record_cons (s : S) (i : I) (inputs : List I) :
    m.record s (i :: inputs) = m.facts i s ++ m.record (m.next i s) inputs := rfl

theorem after_concat (s : S) (inputs : List I) (i : I) :
    m.after s (inputs ++ [i]) = m.next i (m.after s inputs) := by
  simp only [after, List.foldl_append, List.foldl_cons, List.foldl_nil]

theorem record_append (s : S) (l₁ l₂ : List I) :
    m.record s (l₁ ++ l₂) = m.record s l₁ ++ m.record (m.after s l₁) l₂ := by
  induction l₁ generalizing s with
  | nil => rfl
  | cons i l₁ ih => rw [List.cons_append, record, record, ih, after_cons, List.append_assoc]

/-- What every step keeps, of the state and the record so far, a whole run keeps. -/
theorem keeps {P : S → List F → Prop} (hstep : ∀ s h i, P s h → P (m.next i s) (h ++ m.facts i s))
    {s : S} {h : List F} (hs : P s h) (inputs : List I) :
    P (m.after s inputs) (h ++ m.record s inputs) := by
  induction inputs generalizing s h with
  | nil => rwa [record, List.append_nil]
  | cons i inputs ih =>
    rw [record, ← List.append_assoc]
    exact ih (hstep s h i hs)

theorem exists_input_of_record {s : S} {inputs : List I} {u v : List F} {f : F}
    (h : m.record s inputs = u ++ f :: v) :
    ∃ before i since u' v', inputs = before ++ i :: since ∧
      m.facts i (m.after s before) = u' ++ f :: v' ∧ u = m.record s before ++ u' ∧
      v = v' ++ m.record (m.after s (before ++ [i])) since := by
  induction inputs generalizing s u with
  | nil => exact absurd h.symm (List.append_ne_nil_of_right_ne_nil u (List.cons_ne_nil f v))
  | cons i inputs ih =>
    rw [record] at h
    rcases List.append_eq_append_iff.1 h with ⟨u', hu, hr⟩ | ⟨w, hf, hw⟩
    · obtain ⟨before, j, since, u'', v', rfl, hj, rfl, hv⟩ := ih hr
      exact ⟨i :: before, j, since, u'', v', rfl, hj, by rw [hu, record, List.append_assoc], hv⟩
    · cases w with
      | nil =>
        rw [List.append_nil] at hf
        rw [List.nil_append] at hw
        obtain ⟨before, j, since, u'', v', rfl, hj, hu, hv⟩ := ih (u := []) hw.symm
        refine ⟨i :: before, j, since, u'', v', rfl, hj, ?_, hv⟩
        rw [record, ← hf, List.append_assoc, ← hu, List.append_nil]
      | cons g w =>
        rw [List.cons_append, List.cons.injEq] at hw
        obtain ⟨rfl, rfl⟩ := hw
        exact ⟨[], i, inputs, u, w, rfl, hf, rfl, rfl⟩

end Recorder

end SealedDatagram

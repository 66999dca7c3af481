import SealedDatagram.Proofs.Toml.Statements
/-!
The document that a list of sections is written as, read back: every header opens a table at the
end, every pair under it goes to the end of that table, and so the sections come out as they went
in.
-/

namespace SealedDatagram.Toml

theorem lookup_of_notMem {α : Type} {l : List (String × α)} {k : String}
    (h : k ∉ l.map Prod.fst) : l.lookup k = none := by
  rw [List.lookup_eq_none_iff]
  intro e he
  rw [bne_iff_ne]
  rintro rfl
  exact h (List.mem_map_of_mem he)

namespace Document

variable {d sub : Document} {name k : String}

theorem addStatement_table (h : name ∉ d.map Prod.fst) (way : List String) :
    addStatement d way (.table ⟨[], name⟩) = some (d ++ [(name, .table .header [])], [name]) := by
  simp [addStatement, within, openTable, lookup_of_notMem h]

theorem lookup_last (h : name ∉ d.map Prod.fst) (n : Node) :
    (d ++ [(name, n)]).lookup name = some n := by
  rw [List.lookup_append, lookup_of_notMem h]
  simp

theorem put_last (h : name ∉ d.map Prod.fst) (n m : Node) :
    put (d ++ [(name, n)]) name m = d ++ [(name, m)] := by
  have hd : d.map (fun e => if e.1 == name then (name, m) else e) = d := by
    refine (List.map_congr_left fun e he => if_neg ?_).trans (List.map_id d)
    rw [beq_iff_eq]
    rintro rfl
    exact h (List.mem_map_of_mem he)
  unfold put
  rw [lookup_last h, Option.isSome_some, if_pos rfl, List.map_append, hd]
  simp

theorem addStatement_pair (h : name ∉ d.map Prod.fst) (hk : k ∉ sub.map Prod.fst) (v : Value) :
    addStatement (d ++ [(name, .table .header sub)]) [name] (.pair ⟨[], k⟩ v) =
      some (d ++ [(name, .table .header (sub ++ [(k, .value v)]))], [name]) := by
  have hadd : within .passed (addPair ⟨[], k⟩ v) [name] .header
      (d ++ [(name, .table .header sub)]) =
      some (d ++ [(name, .table .header (sub ++ [(k, .value v)]))]) := by
    simp [within, lookup_last h, addPair, lookup_of_notMem hk, put_last h]
  simp [addStatement, hadd]

def pairNode (e : String × Scalar) : String × Node := (e.1, .value e.2.toValue)

def sectionNode (s : Section) : String × Node := (s.name, .table .header (s.entries.map pairNode))

theorem addPairs (sub : Document) {entries : List (String × Scalar)} (h : name ∉ d.map Prod.fst)
    (hk : (sub.map Prod.fst ++ entries.map Prod.fst).Nodup) :
    (entries.map fun e => Statement.pair ⟨[], e.1⟩ e.2.toValue).foldlM
        (fun p s => addStatement p.1 p.2 s) (d ++ [(name, .table .header sub)], [name]) =
      some (d ++ [(name, .table .header (sub ++ entries.map pairNode))], [name]) := by
  induction entries generalizing sub with
  | nil => simp
  | cons e entries ih =>
    have hnew : e.1 ∉ sub.map Prod.fst := by
      intro he
      rw [List.map_cons, List.nodup_append] at hk
      exact hk.2.2 e.1 he e.1 List.mem_cons_self rfl
    rw [List.map_cons, List.foldlM_cons, addStatement_pair h hnew]
    have hrest := ih (sub ++ [pairNode e]) (by simpa [pairNode] using hk)
    simpa [pairNode] using hrest

theorem addSections {sections : List Section} (hs : ∀ s ∈ sections, s.WellFormed)
    (h : (d.map Prod.fst ++ sections.map Section.name).Nodup) (way : List String) :
    ∃ way', (sections.flatMap Section.statements).foldlM (fun p s => addStatement p.1 p.2 s)
      (d, way) = some (d ++ sections.map sectionNode, way') := by
  induction sections generalizing d way with
  | nil => exact ⟨way, by simp⟩
  | cons s sections ih =>
    obtain ⟨hfirst, hs⟩ := List.forall_mem_cons.1 hs
    have hnew : s.name ∉ d.map Prod.fst := by
      intro hd
      rw [List.map_cons, List.nodup_append] at h
      exact h.2.2 s.name hd s.name List.mem_cons_self rfl
    have hpairs := addPairs [] hnew (by simpa using hfirst.nodup)
    obtain ⟨way', hrest⟩ := @ih (d ++ [sectionNode s]) hs (by simpa [sectionNode] using h) [s.name]
    refine ⟨way', ?_⟩
    rw [List.flatMap_cons, List.foldlM_append, Section.statements, List.foldlM_cons,
      addStatement_table hnew]
    dsimp only [Option.bind_eq_bind, Option.bind_some]
    rw [hpairs]
    simpa [sectionNode] using hrest

theorem entriesToValues_pairs (entries : List (String × Scalar)) :
    entriesToValues (entries.map pairNode) = entries.map fun e => (e.1, e.2.toValue) := by
  induction entries with
  | nil => rfl
  | cons e entries ih => rw [List.map_cons, pairNode, entriesToValues, ih]; rfl

theorem toEntries_sections (sections : List Section) :
    toEntries (sections.map sectionNode) = Entries.ofSections sections := by
  induction sections with
  | nil => rfl
  | cons s sections ih =>
    rw [toEntries] at ih ⊢
    rw [List.map_cons, sectionNode, entriesToValues, ih, Node.toValue, entriesToValues_pairs]
    rfl

end Document

/-- A document that consists of sections is read as it was written. -/
theorem read?_write {sections : List Section} (h : WellFormed sections) :
    read? (write sections) = some (Entries.ofSections sections) := by
  obtain ⟨way, hfold⟩ := Document.addSections (d := []) h.each (by simpa using h.nodup) []
  have hdoc : Document.ofStatements (sections.flatMap Section.statements) =
      some (sections.map Document.sectionNode) := by
    change (List.foldlM (fun p s => Document.addStatement p.1 p.2 s) ([], []) _).bind _ = _
    rw [hfold]
    rfl
  unfold read?
  rw [statements_write h.each]
  dsimp only [Option.bind_eq_bind, Option.bind_some]
  rw [hdoc, ← Document.toEntries_sections]
  rfl

end SealedDatagram.Toml

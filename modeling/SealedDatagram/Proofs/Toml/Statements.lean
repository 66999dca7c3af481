import SealedDatagram.Proofs.Toml.Scalars
/-!
The lines of a document that consists of sections, and what is read from each of them: a header, a
pair, or nothing from the empty line between two sections.
-/

namespace SealedDatagram.Toml

open Text Text.Scan

/-- A name that may stand without quotes. -/
structure IsBareKey (s : String) : Prop where
  ne_nil : s.toList ≠ []
  bare : ∀ c ∈ s.toList, isBareKeyChar c = true

instance (s : String) : Decidable (IsBareKey s) :=
  decidable_of_iff (s.toList ≠ [] ∧ s.toList.all isBareKeyChar = true)
    ⟨fun h => ⟨h.1, List.all_eq_true.1 h.2⟩, fun h => ⟨h.ne_nil, List.all_eq_true.2 h.bare⟩⟩

section Keys
variable {k : String} {c : Char} {rest : List Char}

@[simp] theorem spaces_apply (cs : List Char) : spaces cs = some ((), cs.dropWhile isSpace) := rfl

theorem IsBareKey.stops (h : IsBareKey k) {p : Char → Bool}
    (hp : ∀ c, isBareKeyChar c = true → p c = false) (r : List Char) :
    Stops p (k.toList ++ r) := by
  refine Stops.append (fun c hc => ?_) h.ne_nil
  exact hp c (h.bare c (List.mem_of_mem_head? hc))

theorem isBareKeyChar_ne (hc : isBareKeyChar c = false) (d : Char) (hd : isBareKeyChar d = true) :
    (d == c) = false := by
  rw [beq_eq_false_iff_ne]
  rintro rfl
  rw [hd] at hc
  cases hc

theorem not_isSpace_of_bare (c : Char) (h : isBareKeyChar c = true) : isSpace c = false := by
  rw [isSpace, isBareKeyChar_ne rfl c h, isBareKeyChar_ne rfl c h]
  rfl

theorem keyPart_append (h : IsBareKey k) (hrest : Stops isBareKeyChar rest) :
    keyPart (k.toList ++ rest) = some (k, rest.dropWhile isSpace) := by
  have hspaces := (h.stops not_isSpace_of_bare rest).dropWhile_eq
  have hdouble : Stops (· == '"') (k.toList ++ rest) := h.stops (isBareKeyChar_ne rfl) rest
  have hsingle : Stops (· == '\'') (k.toList ++ rest) := h.stops (isBareKeyChar_ne rfl) rest
  simp [keyPart, hspaces, basicString, hdouble.char_eq, literalString, hsingle.char_eq,
    hrest.takeWhile1_append h.ne_nil h.bare]

theorem key_append (h : IsBareKey k) (hrest : Stops isBareKeyChar rest)
    (hdot : Stops (· == '.') (rest.dropWhile isSpace)) :
    key (k.toList ++ rest) = some (⟨[], k⟩, rest.dropWhile isSpace) := by
  have hmore : many (char '.' *> keyPart) (rest.dropWhile isSpace) =
      some ([], rest.dropWhile isSpace) :=
    (Chain.nil (by rw [seqRight_apply, hdot.char_eq]; rfl)).many_eq
  simp [key, keyPart_append h hrest, hmore, depthLimit]

end Keys

/-- What is read between two line ends: a statement, or nothing of account. -/
def line : Scan (Option Statement) := spaces *> ((do
    let s ← statement
    return some s) <|> (comment *> (newline <|> endOfText) *> pure none) <|>
      (newline *> pure none))

theorem lineEnd_cons (r : List Char) : lineEnd ('\n' :: r) = some ((), r) := rfl

theorem line_nil : line [] = none := rfl

theorem line_blank (r : List Char) : line ('\n' :: r) = some (none, r) := rfl

theorem line_of_statement {cs r : List Char} {s : Statement} (hcs : Stops isSpace cs)
    (h : statement cs = some (s, r)) : line cs = some (some s, r) := by
  simp [line, hcs.dropWhile_eq, h]

section Lines
variable {k : String}

theorem line_header (h : IsBareKey k) (r : List Char) :
    line ('[' :: (k.toList ++ ']' :: '\n' :: r)) = some (some (.table ⟨[], k⟩), r) := by
  have hkey : key (k.toList ++ ']' :: '\n' :: r) = some (⟨[], k⟩, ']' :: '\n' :: r) :=
    key_append h (stops_cons.2 rfl) (stops_cons.2 rfl)
  have hopen : Stops (· == '[') (k.toList ++ ']' :: '\n' :: r) := h.stops (isBareKeyChar_ne rfl) _
  apply line_of_statement (stops_cons.2 rfl)
  simp [statement, hopen.char_eq, hkey, lineEnd_cons]

theorem stops_writeString (s : String) (r : List Char) :
    Stops isSpace ((writeString s).toList ++ r) := by
  unfold writeString
  rw [String.toList_ofList]
  cases StringForm.of s.toList <;> exact stops_cons.2 rfl

theorem Scalar.stops_write (v : Scalar) (r : List Char) : Stops isSpace (v.write.toList ++ r) := by
  cases v with
  | string s => exact stops_writeString s r
  | integer n =>
    obtain ⟨c, l, heq, hc⟩ := exists_cons_signed (decimal_toDigits n.toInt.natAbs)
      (decide (n.toInt < 0))
    rw [Scalar.write, toList_toString, heq, List.cons_append, stops_cons]
    rcases hc with rfl | hc
    · rfl
    · rw [isSpace, Bool.or_eq_false_iff, beq_eq_false_iff_ne, beq_eq_false_iff_ne]
      constructor <;> (rintro rfl; cases hc)
  | boolean b => cases b <;> exact stops_cons.2 rfl

theorem line_pair (h : IsBareKey k) (v : Scalar) (r : List Char) :
    line (k.toList ++ (' ' :: '=' :: ' ' :: (v.write.toList ++ '\n' :: r))) =
      some (some (.pair ⟨[], k⟩ v.toValue), r) := by
  have hkey : key (k.toList ++ (' ' :: '=' :: ' ' :: (v.write.toList ++ '\n' :: r))) =
      some (⟨[], k⟩, '=' :: ' ' :: (v.write.toList ++ '\n' :: r)) :=
    key_append h (stops_cons.2 rfl) (stops_cons.2 rfl)
  have hopen := h.stops (isBareKeyChar_ne (c := '[') rfl)
    (' ' :: '=' :: ' ' :: (v.write.toList ++ '\n' :: r))
  have hblank : (' ' :: (v.write.toList ++ '\n' :: r)).dropWhile isSpace =
      v.write.toList ++ '\n' :: r := by
    rw [List.dropWhile_cons_of_pos rfl, (v.stops_write _).dropWhile_eq]
  apply line_of_statement (h.stops not_isSpace_of_bare _)
  simp [statement, hopen.char_eq, hkey, hblank, v.value_write, lineEnd_cons]

end Lines

structure Section.WellFormed (s : Section) : Prop where
  name : IsBareKey s.name
  keys : ∀ e ∈ s.entries, IsBareKey e.1
  nodup : (s.entries.map Prod.fst).Nodup

/-- Sections that make up a document: bare keys, of which none comes twice in its place. -/
structure WellFormed (sections : List Section) : Prop where
  each : ∀ s ∈ sections, s.WellFormed
  nodup : (sections.map Section.name).Nodup

def Section.statements (s : Section) : List Statement :=
  .table ⟨[], s.name⟩ :: s.entries.map fun e => .pair ⟨[], e.1⟩ e.2.toValue

theorem toList_lines (entries : List (String × Scalar)) (r : List Char) :
    (String.join (entries.map fun e => e.1 ++ " = " ++ e.2.write ++ "\n")).toList ++ r =
      entries.foldr (fun e r =>
        e.1.toList ++ (' ' :: '=' :: ' ' :: (e.2.write.toList ++ '\n' :: r))) r := by
  induction entries with
  | nil => rfl
  | cons e entries ih =>
    rw [List.map_cons, String.join_cons, List.foldr_cons, ← ih]
    simp

theorem chain_lines {entries : List (String × Scalar)} (h : ∀ e ∈ entries, IsBareKey e.1)
    {r : List Char} {l : List (Option Statement)} (hr : Chain line r l []) :
    Chain line (entries.foldr (fun e r =>
        e.1.toList ++ (' ' :: '=' :: ' ' :: (e.2.write.toList ++ '\n' :: r))) r)
      (entries.map (fun e => some (.pair ⟨[], e.1⟩ e.2.toValue)) ++ l) [] := by
  induction entries with
  | nil => exact hr
  | cons e entries ih =>
    obtain ⟨he, h⟩ := List.forall_mem_cons.1 h
    refine .cons (line_pair he e.2 _) ?_ (ih h)
    simp only [List.foldr_cons, List.length_append, List.length_cons]
    omega

theorem chain_section {s : Section} (h : s.WellFormed) {r : List Char}
    {l : List (Option Statement)} (hr : Chain line r l []) :
    Chain line (s.write.toList ++ r) (s.statements.map some ++ l) [] := by
  have htext : s.write.toList ++ r = '[' :: (s.name.toList ++ ']' :: '\n' ::
      s.entries.foldr (fun e r =>
        e.1.toList ++ (' ' :: '=' :: ' ' :: (e.2.write.toList ++ '\n' :: r))) r) := by
    rw [← toList_lines, Section.write]
    simp
  rw [htext, Section.statements, List.map_cons, List.map_map, List.cons_append]
  refine .cons (line_header h.name _) ?_ (chain_lines h.keys hr)
  simp only [List.length_cons, List.length_append]
  omega

theorem Section.stops_write (s : Section) {p : Char → Bool} (hp : p '[' = false) (r : List Char) :
    Stops p (s.write.toList ++ r) := by
  rw [Section.write, String.append_assoc, String.append_assoc, String.toList_append]
  exact stops_cons.2 hp

/-- The lines of a document, with an empty one between two sections. -/
theorem chain_write {sections : List Section} (h : ∀ s ∈ sections, s.WellFormed) :
    ∃ l, Chain line (write sections).toList l [] ∧
      l.filterMap id = sections.flatMap Section.statements := by
  unfold write
  rw [String.toList_intercalate]
  induction sections with
  | nil => exact ⟨[], .nil line_nil, rfl⟩
  | cons s sections ih =>
    obtain ⟨hs, h⟩ := List.forall_mem_cons.1 h
    obtain ⟨l, hl, heq⟩ := ih h
    have hstatements (l : List (Option Statement)) :
        (s.statements.map some ++ l).filterMap id = s.statements ++ l.filterMap id := by
      rw [List.filterMap_append, List.filterMap_map, Function.id_comp, List.filterMap_some]
    cases sections with
    | nil =>
      refine ⟨s.statements.map some ++ [], ?_, hstatements []⟩
      simpa using chain_section hs (.nil line_nil)
    | cons t sections =>
      refine ⟨s.statements.map some ++ none :: l, ?_, ?_⟩
      · have hchain := chain_section hs (.cons (line_blank _) (Nat.lt_succ_self _) hl)
        simpa [List.intercalate_cons_cons] using hchain
      · rw [hstatements, List.flatMap_cons, ← heq]
        rfl

theorem stops_write {p : Char → Bool} (hp : p '[' = false) (sections : List Section) :
    Stops p (write sections).toList := by
  unfold write
  rw [String.toList_intercalate]
  match sections with
  | [] => exact stops_nil p
  | [s] => simpa using s.stops_write hp []
  | s :: t :: sections =>
    rw [List.map_cons, List.map_cons, List.map_cons, List.map_cons, List.intercalate_cons_cons,
      List.append_assoc]
    exact s.stops_write hp _

theorem statements_write {sections : List Section} (h : ∀ s ∈ sections, s.WellFormed) :
    statements.whole? (write sections).toList = some (sections.flatMap Section.statements) := by
  obtain ⟨l, hchain, heq⟩ := chain_write h
  have hmark := (stops_write (p := (· == '\ufeff')) rfl sections).char_eq
  have happly (cs : List Char) : statements cs =
      (discard (maybe (char '\ufeff')) cs : Option (Unit × List Char)).bind fun p =>
        (many line p.2).bind fun q => (spaces q.2).bind fun r => some (q.1.filterMap id, r.2) := rfl
  rw [whole?, happly, discard_apply, maybe_apply, hmark]
  dsimp only [Option.map_some, Option.bind_some]
  rw [hchain.many_eq, Option.bind_some, heq]
  rfl

end SealedDatagram.Toml

import SealedDatagram.Proofs.Text.Scan
import SealedDatagram.Toml.Literal
import SealedDatagram.Toml.Written
/-!
A string that is written in any of the four forms is read as the same string. Inside a form every
character stands as itself or as an escape; only the quotes of the longer forms depend on those
around them.
-/

namespace SealedDatagram.Toml

open Text Text.Scan

theorem isCommentChar_of_plain {c : Char} (hc : isControl c = false) (hn : c ≠ '\n') :
    isCommentChar c = true := by
  simp only [isControl, Bool.or_eq_false_iff, Bool.and_eq_false_iff, decide_eq_false_iff_not,
    bne_eq_false_iff_eq, beq_eq_false_iff_ne] at hc
  obtain ⟨(hlow | htab) | hline, hdel⟩ := hc
  · simp [isCommentChar, hdel, Nat.not_lt.1 hlow]
  · simp [isCommentChar, htab]
  · exact absurd hline hn

theorem codePoint_append {ds : List Char} (hd : ∀ d ∈ ds, isDigit 16 d = true)
    (hv : (number 16 ds).isValidChar) (r : List Char) :
    codePoint ds.length (ds ++ r) = some (Char.ofNat (number 16 ds), r) := by
  have hall : ds.all (isDigit 16) = true := List.all_eq_true.2 hd
  have htake : (ds ++ r).take ds.length = ds := List.take_left
  have hdrop : (ds ++ r).drop ds.length = r := List.drop_left
  simp only [codePoint, bind_apply, rest_apply, set_apply, demand_apply, pure_apply,
    Option.bind_some, htake, hdrop, hall, beq_self_eq_true, Bool.and_self, if_true]
  rw [if_pos (decide_eq_true hv)]
  rfl

theorem toNat_lt_of_isControl {c : Char} (h : isControl c = true) : c.toNat < 128 := by
  simp only [isControl, Bool.or_eq_true, Bool.and_eq_true, decide_eq_true_eq, beq_iff_eq] at h
  omega

def controlDigits (n : Nat) : List Char := ['0', '0', hexDigit (n / 16), hexDigit (n % 16)]

theorem controlDigits_spec : ∀ n < 128, (controlDigits n).all (isDigit 16) = true ∧
    number 16 (controlDigits n) = n := by
  decide

theorem escaped_control {c : Char} (h : isControl c = true) (r : List Char) :
    escaped ('u' :: controlDigits c.toNat ++ r) = some (c, r) := by
  obtain ⟨hdigits, hnumber⟩ := controlDigits_spec c.toNat (toNat_lt_of_isControl h)
  have hread : codePoint 4 (controlDigits c.toNat ++ r) = _ :=
    codePoint_append (List.all_eq_true.1 hdigits) (by rw [hnumber]; exact c.valid) r
  rw [hnumber, Char.ofNat_toNat] at hread
  exact hread

/-- How a character stands in a basic string: as a line end, as an escape, or as itself. -/
theorem escapeChar_cases (multiline : Bool) (c : Char) :
    (multiline = true ∧ c = '\n' ∧ escapeChar multiline c = ['\n']) ∨
    (∃ s, escapeChar multiline c = '\\' :: s ∧ ∀ r, escaped (s ++ r) = some (c, r)) ∨
    (escapeChar multiline c = [c] ∧ c ≠ '\\' ∧ isCommentChar c = true) := by
  unfold escapeChar
  split_ifs with hb ht hn hm hf hr hs hc
  · exact .inr (.inl ⟨_, rfl, fun r => by subst hb; rfl⟩)
  · exact .inr (.inl ⟨_, rfl, fun r => by subst ht; rfl⟩)
  · exact .inl ⟨hm, hn, rfl⟩
  · exact .inr (.inl ⟨_, rfl, fun r => by subst hn; rfl⟩)
  · exact .inr (.inl ⟨_, rfl, fun r => by subst hf; rfl⟩)
  · exact .inr (.inl ⟨_, rfl, fun r => by subst hr; rfl⟩)
  · exact .inr (.inl ⟨_, rfl, fun r => by subst hs; rfl⟩)
  · exact .inr (.inl ⟨_, rfl, fun r => escaped_control hc r⟩)
  · refine .inr (.inr ⟨rfl, hs, ?_⟩)
    exact isCommentChar_of_plain (Bool.eq_false_iff.2 hc) hn

/-- What can be read as an escape is no line that is continued. -/
theorem continuation_of_escaped {cs r : List Char} {c : Char} (h : escaped cs = some (c, r)) :
    continuation ('\\' :: cs) = none := by
  cases cs with
  | nil => cases h
  | cons d cs =>
    have hd : isSpace d = false ∧ d ≠ '\n' ∧ d ≠ '\r' := by
      refine ⟨?_, ?_, ?_⟩
      · rw [isSpace, Bool.or_eq_false_iff, beq_eq_false_iff_ne, beq_eq_false_iff_ne]
        constructor <;> (rintro rfl; cases h)
      · rintro rfl
        cases h
      · rintro rfl
        cases h
    simp [continuation, spaces, newline, hd]

/-- What reads the parts of a basic string: runs of plain characters, and escapes. -/
structure Unescapes (x : Scan (List Char)) : Prop where
  run : ∀ c r, isBasicChar c = true → x (c :: r) = takeWhile1 isBasicChar (c :: r)
  escape : ∀ {cs c r}, escaped cs = some (c, r) → x ('\\' :: cs) = some ([c], r)

section Unescapes
variable {x : Scan (List Char)}

theorem Unescapes.stands_quote (h : Unescapes x) : Stands x ['\\', '"'] '"' :=
  stands_of_step (List.cons_ne_nil _ _) fun _ => h.escape rfl

theorem Unescapes.stands (h : Unescapes x) (multiline : Bool)
    (hbreak : multiline = true → ∀ r, x ('\n' :: r) = some (['\n'], r)) {c : Char} (hc : c ≠ '"') :
    Stands x (escapeChar multiline c) c := by
  rcases escapeChar_cases multiline c with ⟨hm, rfl, heq⟩ | ⟨s, heq, hs⟩ | ⟨heq, hback, hplain⟩
  · rw [heq]
    exact stands_of_step (List.cons_ne_nil _ _) (hbreak hm)
  · rw [heq]
    exact stands_of_step (List.cons_ne_nil _ _) fun r => h.escape (hs r)
  · rw [heq]
    refine stands_of_run h.run ?_
    simp [isBasicChar, hplain, hc, hback]

end Unescapes

def basicPart : Scan (List Char) := takeWhile1 isBasicChar <|> (do return [← char '\\' *> escaped])

theorem unescapes_basicPart : Unescapes basicPart where
  run c r hc := by simp [basicPart, takeWhile1_cons, hc]
  escape h := by simp [basicPart, takeWhile1_cons, isBasicChar, h]

theorem covers_escapeAfter (cs r : List Char) :
    Covers basicPart (escapeAfter false 0 cs 0 ++ '"' :: r) cs ('"' :: r) := by
  induction cs with
  | nil => exact covers_nil rfl
  | cons c cs ih =>
    rw [escapeAfter]
    split
    · rename_i hc
      rw [if_neg (Nat.lt_irrefl 0), hc]
      exact unescapes_basicPart.stands_quote ih
    · rename_i hc
      rw [List.append_assoc]
      exact unescapes_basicPart.stands false nofun hc ih

theorem basicString_escapeAfter (cs r : List Char) :
    basicString ('"' :: escapeAfter false 0 cs 0 ++ '"' :: r) = some (String.ofList cs, r) := by
  obtain ⟨parts, hchain, rfl⟩ := covers_escapeAfter cs r
  have happly (cs : List Char) : basicString ('"' :: cs) = (many basicPart cs).bind fun p =>
      (char '"' p.2).bind fun q => some (String.ofList p.1.flatten, q.2) := rfl
  rw [List.cons_append, happly, hchain.many_eq]
  simp

theorem literalString_append {cs : List Char} (h : ∀ c ∈ cs, isLiteralChar c = true)
    (r : List Char) : literalString ('\'' :: cs ++ '\'' :: r) = some (String.ofList cs, r) := by
  have hstops : Stops isLiteralChar ('\'' :: r) := stops_cons.2 rfl
  simp [literalString, hstops.takeWhile_append h, hstops.dropWhile_append h]

def multilinePart (q : Char) (part : Scan (List Char)) : Scan (List Char) :=
  part <|> lineBreak <|> innerQuotes q

/-- The inside of a string between three quotes, where `run` quotes have come just before. At most
two quotes come in a row, and everything else is read as what it stands for. -/
inductive Inside (x : Scan (List Char)) (q : Char) : Nat → List Char → List Char → Prop
  | nil {run : Nat} (h : run ≤ 2) : Inside x q run [] []
  | quote {run : Nat} {cs text : List Char} (t : Inside x q (run + 1) cs text) :
      Inside x q run (q :: cs) (q :: text)
  | other {run : Nat} {c : Char} {s cs text : List Char} (h : run ≤ 2) (hs : Stands x s c)
      (hq : Stops (· == q) s) (hne : s ≠ []) (t : Inside x q 0 cs text) :
      Inside x q run (c :: cs) (s ++ text)

section Inside
variable {q : Char} {part : Scan (List Char)} {cs text rest : List Char}

theorem innerQuotes_replicate {n : Nat} (hn : n ≠ 0) (hstops : Stops (· == q) cs) :
    innerQuotes q (List.replicate n q ++ cs) =
      if n < 3 then some (List.replicate n q, cs) else none := by
  have hall : ∀ a ∈ List.replicate n q, (a == q) = true := by
    simp
  have hne : List.replicate n q ≠ [] := by
    simpa using hn
  simp [innerQuotes, hstops.takeWhile1_append hne hall]

/-- Quotes are left to be read as quotes. -/
structure LeavesQuotes (q : Char) (part : Scan (List Char)) : Prop where
  part : ∀ r, part (q :: r) = none
  notBreak : q ≠ '\n' ∧ q ≠ '\r'

theorem LeavesQuotes.multilinePart_replicate (h : LeavesQuotes q part) {n : Nat} (hn : n ≠ 0)
    (hstops : Stops (· == q) cs) : multilinePart q part (List.replicate n q ++ cs) =
      if n < 3 then some (List.replicate n q, cs) else none := by
  have hinner := innerQuotes_replicate hn hstops
  obtain ⟨n, rfl⟩ := Nat.exists_eq_succ_of_ne_zero hn
  rw [List.replicate_succ, List.cons_append] at hinner ⊢
  simp [multilinePart, h.part, lineBreak, newline, h.notBreak, hinner]

/-- The parts of a string go up to the last quotes. Of these all but the last three belong to it. -/
theorem Inside.covers (h : LeavesQuotes q part) (hrest : Stops (· == q) rest) {run : Nat}
    (hi : Inside (multilinePart q part) q run cs text) :
    ∃ k out, k ≤ 2 ∧ Covers (multilinePart q part)
        (List.replicate run q ++ (text ++ (List.replicate 3 q ++ rest))) out
        (List.replicate (k + 3) q ++ rest) ∧
      out ++ List.replicate k q = List.replicate run q ++ cs := by
  induction hi with
  | @nil run hrun =>
    refine ⟨run, [], hrun, ?_, by simp⟩
    rw [List.nil_append, ← List.append_assoc, List.replicate_append_replicate]
    refine covers_nil ?_
    rw [h.multilinePart_replicate (by omega) hrest, if_neg (by omega)]
  | @quote run cs text _ ih =>
    obtain ⟨k, out, hk, hcovers, hout⟩ := ih
    have hmove (l : List Char) :
        List.replicate (run + 1) q ++ l = List.replicate run q ++ (q :: l) := by
      rw [List.replicate_succ', List.append_assoc, List.singleton_append]
    rw [hmove] at hcovers hout
    exact ⟨k, out, hk, hcovers, hout⟩
  | @other run c s cs text hrun hs hq hne _ ih =>
    obtain ⟨k, out, hk, hcovers, hout⟩ := ih
    have hother := hs hcovers
    rw [List.replicate_zero, List.nil_append] at hother hout
    rw [List.append_assoc s]
    by_cases hzero : run = 0
    · subst hzero
      exact ⟨k, c :: out, hk, hother, by rw [List.cons_append, hout]; rfl⟩
    · have hstops : Stops (· == q) (s ++ (text ++ (List.replicate 3 q ++ rest))) :=
        hq.append hne
      refine ⟨k, List.replicate run q ++ c :: out, hk, hother.step ?_ (by simpa using hzero), ?_⟩
      · rw [h.multilinePart_replicate hzero hstops, if_pos (by omega)]
      · rw [List.append_assoc, List.cons_append, hout]

theorem newline_of_commentChar {c : Char} {cs : List Char} (h : isCommentChar c = true) :
    newline (c :: cs) = none := by
  have hc : c ≠ '\n' ∧ c ≠ '\r' := by
    constructor <;> (rintro rfl; cases h)
  simp [newline, hc]

theorem closing_replicate {k : Nat} (hk : k ≤ 2) (hrest : Stops (· == q) rest) :
    closing q (List.replicate (k + 3) q ++ rest) = some (List.replicate k q, rest) := by
  have hall : ∀ a ∈ List.replicate (k + 3) q, (a == q) = true := by
    simp
  simp [closing, hrest.takeWhile_append hall, hrest.dropWhile_append hall, hk]

theorem multiline_apply (cs : List Char) : multiline q part (q :: q :: q :: cs) =
    (discard (maybe newline) cs : Option (Unit × List Char)).bind fun p =>
      (many (multilinePart q part) p.2).bind fun r => (closing q r.2).bind fun l =>
        some (String.ofList (r.1.flatten ++ l.1), l.2) := by
  have hopen : literal [q, q, q] (q :: q :: q :: cs) = some ((), cs) := by simp
  have happly (cs : List Char) : multiline q part cs = (literal [q, q, q] cs).bind fun p =>
    (discard (maybe newline) p.2 : Option (Unit × List Char)).bind fun p =>
      (many (multilinePart q part) p.2).bind fun r => (closing q r.2).bind fun l =>
        some (String.ofList (r.1.flatten ++ l.1), l.2) := rfl
  rw [happly, hopen]
  rfl

/-- A string of several lines starts on a line of its own, which is not part of it; the first line
of another may not be one that is skipped. -/
theorem multiline_tripled (h : LeavesQuotes q part) (hrest : Stops (· == q) rest)
    (hi : Inside (multilinePart q part) q 0 cs text)
    (hfirst : '\n' ∉ cs → newline (text ++ (List.replicate 3 q ++ rest)) = none) :
    multiline q part (tripled q cs text ++ rest) = some (String.ofList cs, rest) := by
  obtain ⟨k, out, hk, ⟨parts, hchain, rfl⟩, hout⟩ := hi.covers h hrest
  rw [List.replicate_zero, List.nil_append] at hchain hout
  have hskip : (discard (maybe newline)
      ((if cs.contains '\n' then ['\n'] else []) ++ (text ++ (List.replicate 3 q ++ rest))) :
      Option (Unit × List Char)) = some ((), text ++ (List.replicate 3 q ++ rest)) := by
    by_cases hn : '\n' ∈ cs
    · simp [hn, newline]
    · rw [if_neg (by simpa using hn), List.nil_append, discard_apply, maybe_apply, hfirst hn]
      rfl
  have hopen : tripled q cs text ++ rest = q :: q :: q ::
      ((if cs.contains '\n' then ['\n'] else []) ++ (text ++ (List.replicate 3 q ++ rest))) := by
    simp [tripled, List.replicate]
  rw [hopen, multiline_apply, hskip, Option.bind_some, hchain.many_eq, Option.bind_some,
    closing_replicate hk hrest, Option.bind_some, hout]

end Inside

def multilineBasicPart : Scan (List Char) :=
  takeWhile1 isBasicChar <|> continuation <|> (do return [← char '\\' *> escaped])

theorem leavesQuotes_multilineBasicPart : LeavesQuotes '"' multilineBasicPart where
  part r := by simp [multilineBasicPart, takeWhile1_cons, isBasicChar, continuation]
  notBreak := by decide

theorem unescapes_multilineBasic : Unescapes (multilinePart '"' multilineBasicPart) where
  run c r hc := by simp [multilinePart, multilineBasicPart, takeWhile1_cons, hc]
  escape h := by
    simp [multilinePart, multilineBasicPart, takeWhile1_cons, isBasicChar,
      continuation_of_escaped h, h]

theorem multilineBasic_lineBreak (r : List Char) :
    multilinePart '"' multilineBasicPart ('\n' :: r) = some (['\n'], r) := by
  simp [multilinePart, multilineBasicPart, takeWhile1_cons, isBasicChar, isCommentChar,
    continuation, lineBreak, newline]

theorem stops_escapeChar (multiline : Bool) {c : Char} (hc : c ≠ '"') :
    Stops (· == '"') (escapeChar multiline c) := by
  rcases escapeChar_cases multiline c with ⟨-, -, heq⟩ | ⟨s, heq, -⟩ | ⟨heq, -, -⟩ <;>
    simp [heq, hc]

theorem escapeChar_ne_nil (multiline : Bool) (c : Char) : escapeChar multiline c ≠ [] := by
  rcases escapeChar_cases multiline c with ⟨-, -, heq⟩ | ⟨s, heq, -⟩ | ⟨heq, -, -⟩ <;>
    simp [heq]

theorem inside_escapeAfter (cs : List Char) {run : Nat} (h : run ≤ 2) :
    Inside (multilinePart '"' multilineBasicPart) '"' run cs (escapeAfter true 2 cs run) := by
  induction cs generalizing run with
  | nil => exact .nil h
  | cons c cs ih =>
    rw [escapeAfter]
    split
    · rename_i hc
      subst hc
      split
      · exact .quote (ih (by omega))
      · exact .other h unescapes_multilineBasic.stands_quote (stops_cons.2 rfl)
          (List.cons_ne_nil _ _) (ih (Nat.zero_le 2))
    · rename_i hc
      exact .other h (unescapes_multilineBasic.stands true (fun _ => multilineBasic_lineBreak) hc)
        (stops_escapeChar true hc) (escapeChar_ne_nil true c) (ih (Nat.zero_le 2))

theorem le_longestRun (q : Char) (cs : List Char) (n : Nat) : n ≤ longestRun q cs n := by
  induction cs generalizing n with
  | nil => exact Nat.le_refl n
  | cons c cs ih =>
    rw [longestRun]
    split
    · exact Nat.le_trans (Nat.le_succ n) (ih (n + 1))
    · exact Nat.le_max_left n _

theorem leavesQuotes_literal : LeavesQuotes '\'' (takeWhile1 isLiteralChar) where
  part r := by simp [takeWhile1_cons, isLiteralChar]
  notBreak := by decide

theorem isLiteralChar_of_plain {c : Char} (hc : isControl c = false) (hn : c ≠ '\n')
    (hq : c ≠ '\'') : isLiteralChar c = true := by
  simp [isLiteralChar, isCommentChar_of_plain hc hn, hq]

theorem inside_literal {cs : List Char} (hcs : ∀ c ∈ cs, isControl c = false) {run : Nat}
    (h : longestRun '\'' cs run ≤ 2) :
    Inside (multilinePart '\'' (takeWhile1 isLiteralChar)) '\'' run cs cs := by
  induction cs generalizing run with
  | nil => exact .nil h
  | cons c cs ih =>
    obtain ⟨hc, hrest⟩ := List.forall_mem_cons.1 hcs
    rw [longestRun] at h
    split at h
    · rename_i hq
      rw [beq_iff_eq] at hq
      subst hq
      exact .quote (ih hrest h)
    · rename_i hq
      rw [beq_iff_eq] at hq
      obtain ⟨hrun, h⟩ := Nat.max_le.1 h
      refine .other (s := [c]) hrun ?_ (by simpa using hq) (List.cons_ne_nil _ _) (ih hrest h)
      by_cases hn : c = '\n'
      · subst hn
        refine stands_of_step (List.cons_ne_nil _ _) fun r => ?_
        simp [multilinePart, takeWhile1_cons, isLiteralChar, isCommentChar, lineBreak, newline]
      · refine stands_of_run (p := isLiteralChar) (fun d r hd => ?_)
          (isLiteralChar_of_plain hc hn hq)
        simp [multilinePart, takeWhile1_cons, hd]

theorem notMem_of_longestRun {q : Char} {cs : List Char} {n : Nat} (h : longestRun q cs n = 0) :
    q ∉ cs := by
  induction cs generalizing n with
  | nil => exact List.not_mem_nil
  | cons c cs ih =>
    rw [longestRun] at h
    split at h
    · have := le_longestRun q cs (n + 1)
      omega
    · rename_i hc
      rw [beq_iff_eq] at hc
      obtain ⟨-, h⟩ := Nat.max_eq_zero_iff.1 h
      rw [List.mem_cons, not_or]
      exact ⟨Ne.symm hc, ih h⟩

theorem StringForm.plain_of_literal {cs : List Char} (h : StringForm.of cs = .literal) :
    ∀ c ∈ cs, isLiteralChar c = true := by
  unfold StringForm.of at h
  simp only at h
  split_ifs at h with _ hlit
  simp only [Bool.and_eq_true, Bool.not_eq_true', beq_iff_eq] at hlit
  obtain ⟨⟨hcontrol, hlines⟩, hsingle⟩ := hlit
  intro c hc
  refine isLiteralChar_of_plain (Bool.eq_false_iff.2 fun hx => ?_) ?_ ?_
  · exact Bool.eq_false_iff.1 hcontrol (List.any_eq_true.2 ⟨c, hc, hx⟩)
  · rintro rfl
    simp [hc] at hlines
  · rintro rfl
    exact notMem_of_longestRun hsingle hc

theorem StringForm.plain_of_multilineLiteral {cs : List Char}
    (h : StringForm.of cs = .multilineLiteral) :
    (∀ c ∈ cs, isControl c = false) ∧ longestRun '\'' cs 0 ≤ 2 := by
  unfold StringForm.of at h
  simp only at h
  split_ifs at h with _ _ _ hlit
  simp only [Bool.and_eq_true, Bool.not_eq_true', decide_eq_true_eq] at hlit
  obtain ⟨hcontrol, hsingle⟩ := hlit
  refine ⟨fun c hc => Bool.eq_false_iff.2 fun hx => ?_, hsingle⟩
  exact Bool.eq_false_iff.1 hcontrol (List.any_eq_true.2 ⟨c, hc, hx⟩)

theorem string_apply (cs : List Char) : string cs = (multilineBasic cs).or
    ((basicString cs).or ((multilineLiteral cs).or (literalString cs))) := by
  simp [string]

theorem multiline_of_not_opened {q : Char} {part : Scan (List Char)} {cs : List Char}
    (h : literal [q, q, q] cs = none) : multiline q part cs = none := by
  change (literal [q, q, q] cs).bind _ = none
  rw [h]
  rfl

theorem stops_escapeAfter (cs : List Char) : Stops (· == '"') (escapeAfter false 0 cs 0) := by
  cases cs with
  | nil => exact stops_nil _
  | cons c cs =>
    rw [escapeAfter]
    split
    · exact stops_cons.2 rfl
    · rename_i hc
      exact (stops_escapeChar false hc).append (escapeChar_ne_nil false c)

/-- What is written on one line does not open a string between three quotes. -/
theorem not_opened {q : Char} {cs rest : List Char} (hcs : Stops (· == q) cs)
    (hrest : Stops (· == q) rest) : literal [q, q, q] (q :: cs ++ q :: rest) = none := by
  cases cs with
  | nil => simp [hrest.char_eq]
  | cons c cs =>
    have hne : c ≠ q := by simpa using hcs
    simp [hne]

theorem stops_of_plain {cs : List Char} (h : ∀ c ∈ cs, isLiteralChar c = true) :
    Stops (· == '\'') cs := by
  intro c hc
  have hplain := h c (List.mem_of_mem_head? hc)
  rw [beq_eq_false_iff_ne]
  rintro rfl
  cases hplain

theorem newline_escapeAfter {cs : List Char} (h : '\n' ∉ cs) (r : List Char) :
    newline (escapeAfter true 2 cs 0 ++ '"' :: r) = none := by
  cases cs with
  | nil => exact newline_of_commentChar rfl
  | cons c cs =>
    rw [escapeAfter]
    split
    · exact newline_of_commentChar rfl
    · rcases escapeChar_cases true c with ⟨-, rfl, -⟩ | ⟨s, heq, -⟩ | ⟨heq, -, hplain⟩
      · exact absurd List.mem_cons_self h
      · rw [heq]
        exact newline_of_commentChar rfl
      · rw [heq]
        exact newline_of_commentChar hplain

theorem newline_literal {cs : List Char} (hcs : ∀ c ∈ cs, isControl c = false) (h : '\n' ∉ cs)
    (r : List Char) : newline (cs ++ '\'' :: r) = none := by
  cases cs with
  | nil => exact newline_of_commentChar rfl
  | cons c cs =>
    obtain ⟨hc, -⟩ := List.forall_mem_cons.1 hcs
    rw [List.mem_cons, not_or] at h
    exact newline_of_commentChar (isCommentChar_of_plain hc (Ne.symm h.1))

/-- A string is read as it was written if no quote follows. -/
theorem string_write (s : String) {rest : List Char} (hdouble : Stops (· == '"') rest)
    (hsingle : Stops (· == '\'') rest) :
    string ((writeString s).toList ++ rest) = some (s, rest) := by
  unfold writeString
  rw [String.toList_ofList, string_apply]
  cases hform : StringForm.of s.toList with
  | basic =>
    dsimp only
    have hopened := not_opened (stops_escapeAfter s.toList) hdouble
    rw [List.append_assoc, List.singleton_append, multilineBasic, multiline_of_not_opened hopened,
      basicString_escapeAfter, String.ofList_toList]
    rfl
  | literal =>
    have hplain := StringForm.plain_of_literal hform
    have hopened := not_opened (stops_of_plain hplain) hsingle
    have hother : Stops (· == '"') ('\'' :: s.toList ++ '\'' :: rest) := stops_cons.2 rfl
    dsimp only
    rw [List.append_assoc, List.singleton_append, multilineBasic,
      multiline_of_not_opened (hother.literal_eq _), basicString, bind_apply, hother.char_eq,
      multilineLiteral, multiline_of_not_opened hopened, literalString_append hplain,
      String.ofList_toList]
    rfl
  | multilineBasic =>
    have hread : multilineBasic (tripled '"' s.toList (escapeAfter true 2 s.toList 0) ++ rest) =
        some (String.ofList s.toList, rest) :=
      multiline_tripled leavesQuotes_multilineBasicPart hdouble
        (inside_escapeAfter s.toList (Nat.zero_le 2)) fun hn => newline_escapeAfter hn _
    dsimp only
    rw [hread, String.ofList_toList]
    rfl
  | multilineLiteral =>
    obtain ⟨hplain, hruns⟩ := StringForm.plain_of_multilineLiteral hform
    have hother : Stops (· == '"') (tripled '\'' s.toList s.toList ++ rest) := stops_cons.2 rfl
    have hread : multilineLiteral (tripled '\'' s.toList s.toList ++ rest) =
        some (String.ofList s.toList, rest) :=
      multiline_tripled leavesQuotes_literal hsingle (inside_literal hplain hruns)
        fun hn => newline_literal hplain hn _
    dsimp only
    rw [multilineBasic, multiline_of_not_opened (hother.literal_eq _), basicString, bind_apply,
      hother.char_eq, hread, String.ofList_toList]
    rfl

end SealedDatagram.Toml

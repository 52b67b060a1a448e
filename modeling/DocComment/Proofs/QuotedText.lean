import DocComment.Settings.Toml

/-!
Texts between quotes. Where escapes are read every text can be written; where they are not, a text
holds only characters that stand for themselves and no run of quotes that would close it. Main
statement: what is written between quotes of any kind is read back.
-/

namespace DocComment.Settings.Toml

theorem code_point_of_control (c : Char) (control : isText c = false) :
    codePoint? ['0', '0', Nat.digitChar (c.toNat / 16), Nat.digitChar (c.toNat % 16)] = some c := by
  have controls : ∀ code < 128, isText (Char.ofNat code) = false →
      codePoint? ['0', '0', Nat.digitChar (code / 16), Nat.digitChar (code % 16)] =
        some (Char.ofNat code) := by
    decide
  have low : c.toNat < 128 := by
    simp [isText] at control
    omega
  have read := controls c.toNat low
  rw [Char.ofNat_toNat] at read
  exact read control

namespace Quoting

def marks (quoting : Quoting) : List Char := List.replicate quoting.width quoting.quote

def writtenChar (quoting : Quoting) (c : Char) : List Char :=
  if quoting.escapes = false ∨ quoting.lines = true ∧ c = '\n' then [c]
  else if c = '\x22' ∨ c = '\\' then ['\\', c]
  else if isText c then [c]
  else ['\\', 'u', '0', '0', Nat.digitChar (c.toNat / 16), Nat.digitChar (c.toNat % 16)]

/-- A text between its quotes. Three quotes are followed by a line end, which the text is without. -/
def written (quoting : Quoting) (text : List Char) : List Char :=
  quoting.marks ++ (if quoting.lines then ['\n'] else []) ++
    (text.flatMap quoting.writtenChar ++ quoting.marks)

def Admits (quoting : Quoting) (text : List Char) : Prop :=
  quoting.escapes = true ∨
    (∀ c ∈ text, isText c = true ∨ quoting.lines = true ∧ c = '\n') ∧ ¬ quoting.marks <:+: text

theorem width_pos (quoting : Quoting) : 0 < quoting.width := by
  cases quoting <;> decide

theorem quotes_ahead_run (quoting : Quoting) (count : Nat) (rest : List Char) :
    quoting.quotesAhead (List.replicate count quoting.quote ++ '\n' :: rest) = count := by
  have newline : ('\n' == quoting.quote) = false := by cases quoting <;> decide
  rw [quotesAhead, List.takeWhile_append_of_pos (by simp),
    List.takeWhile_cons_of_neg (by simp [newline])]
  simp

theorem quotes_ahead_other {quoting : Quoting} {c : Char} (other : c ≠ quoting.quote)
    (cs : List Char) : quoting.quotesAhead (c :: cs) = 0 := by
  simp [quotesAhead, other]

theorem quotes_ahead_append {quoting : Quoting} {text : List Char}
    (ends : quoting.quotesAhead text ≠ text.length) (rest : List Char) :
    quoting.quotesAhead (text ++ rest) = quoting.quotesAhead text := by
  unfold quotesAhead at ends ⊢
  rw [List.takeWhile_append, if_neg ends]

theorem text_behind (quoting : Quoting) (front cs : List Char) :
    quoting.text? front.length (front ++ cs) = quoting.text? 0 cs := by
  induction front with
  | nil => rfl
  | cons c front induction => exact induction

/-- A piece that stands where the string does not end. -/
theorem text_piece {quoting : Quoting} {c : Char} {cs meant : List Char} (front : List Char)
    (unclosed : quoting.quotesAhead (c :: (front ++ cs)) < quoting.width)
    (piece : quoting.piece? (c :: (front ++ cs)) = some (meant, front.length)) :
    quoting.text? 0 (c :: (front ++ cs)) =
      (quoting.text? 0 cs).map fun (text, rest) => (meant ++ text, rest) := by
  have goesOn : quoting.closing? (c :: (front ++ cs)) = none := if_pos unclosed
  simp only [text?, goesOn, piece, Option.bind_eq_bind, Option.bind_some, text_behind]
  cases quoting.text? 0 cs <;> rfl

/-- Quotes in front of the closing ones are text as long as they are too few to close the string. -/
theorem text_closed {quoting : Quoting} {spare : Nat} (few : spare < quoting.width)
    (rest : List Char) :
    quoting.text? 0 (List.replicate spare quoting.quote ++ (quoting.marks ++ '\n' :: rest)) =
      some (List.replicate spare quoting.quote, '\n' :: rest) := by
  have together : List.replicate spare quoting.quote ++ (quoting.marks ++ '\n' :: rest) =
      List.replicate (spare + quoting.width) quoting.quote ++ '\n' :: rest := by
    rw [marks, ← List.append_assoc, List.replicate_append_replicate]
  have taken : min (spare + quoting.width) (2 * quoting.width - 1) = spare + quoting.width := by
    omega
  have closed : quoting.closing? (List.replicate (spare + quoting.width) quoting.quote ++
      '\n' :: rest) = some (List.replicate spare quoting.quote, '\n' :: rest) := by
    rw [closing?, quotes_ahead_run, taken, if_neg (by omega), Nat.add_sub_cancel,
      List.drop_left' List.length_replicate]
  obtain ⟨more, counted⟩ : ∃ more, spare + quoting.width = more + 1 :=
    ⟨spare + quoting.width - 1, by have := quoting.width_pos; omega⟩
  rw [together]
  rw [counted, List.replicate_succ, List.cons_append] at closed ⊢
  rw [text?, closed]

theorem piece_line_feed {quoting : Quoting} (lines : quoting.lines = true) (cs : List Char) :
    quoting.piece? ('\n' :: cs) = some (['\n'], 0) := by
  simp [piece?, lines, lineEnd?, isText]

/-- With escapes a written character never starts with a quote and is a piece of its own. -/
theorem piece_escaped {quoting : Quoting} (escapes : quoting.escapes = true) (c : Char)
    (cs : List Char) :
    ∃ first front, quoting.writtenChar c = first :: front ∧ first ≠ quoting.quote ∧
      quoting.piece? (first :: (front ++ cs)) = some ([c], front.length) := by
  have double : quoting.quote = '\x22' := if_pos escapes
  have escaped (front : List Char) {meant : Char}
      (read : escape? (front ++ cs) = some (meant, front.length)) :
      quoting.piece? ('\\' :: (front ++ cs)) = some ([meant], front.length) := by
    simp [piece?, escapes, read]
  rw [double]
  unfold writtenChar
  split
  next feed =>
      obtain ⟨lines, rfl⟩ := feed.resolve_left (by simp [escapes])
      exact ⟨'\n', [], rfl, by decide, piece_line_feed lines cs⟩
  next =>
      split
      next quoted =>
          refine ⟨'\\', [c], rfl, by decide, escaped [c] ?_⟩
          rcases quoted with rfl | rfl <;> rfl
      next plain =>
          rw [not_or] at plain
          split
          next text =>
              refine ⟨c, [], rfl, plain.1, ?_⟩
              simp [piece?, plain.2, text]
          next control =>
              have code := code_point_of_control c (by simpa using control)
              refine ⟨'\\', _, rfl, by decide, escaped _ ?_⟩
              simp [escape?, code]

theorem text_escaped {quoting : Quoting} (escapes : quoting.escapes = true)
    (text rest : List Char) :
    quoting.text? 0 (text.flatMap quoting.writtenChar ++ (quoting.marks ++ '\n' :: rest)) =
      some (text, '\n' :: rest) := by
  induction text with
  | nil => exact text_closed quoting.width_pos rest
  | cons c text induction =>
      obtain ⟨first, front, spelled, unquoted, piece⟩ := piece_escaped escapes c
        (text.flatMap quoting.writtenChar ++ (quoting.marks ++ '\n' :: rest))
      have unclosed : quoting.quotesAhead (first :: (front ++
          (text.flatMap quoting.writtenChar ++ (quoting.marks ++ '\n' :: rest)))) <
            quoting.width := by
        rw [quotes_ahead_other unquoted]
        exact quoting.width_pos
      rw [List.flatMap_cons, spelled, List.append_assoc, List.cons_append,
        text_piece front unclosed piece, induction]
      rfl

theorem quotes_at_front (quoting : Quoting) (text : List Char) :
    text.takeWhile (· == quoting.quote) =
      List.replicate (quoting.quotesAhead text) quoting.quote := by
  refine List.eq_replicate_iff.mpr ⟨rfl, fun c member => ?_⟩
  simpa using List.all_eq_true.mp List.all_takeWhile c member

/-- A text without escapes has fewer quotes at its front than would close it. -/
theorem quotes_few {quoting : Quoting} {text : List Char} (apart : ¬ quoting.marks <:+: text) :
    quoting.quotesAhead text < quoting.width := by
  refine Nat.lt_of_not_le fun many => apart ?_
  have starts : quoting.marks <+: text.takeWhile (· == quoting.quote) := by
    rw [quotes_at_front, marks, List.prefix_replicate_iff, List.length_replicate]
    exact ⟨many, rfl⟩
  exact (starts.trans (List.takeWhile_prefix _)).isInfix

theorem text_plain {quoting : Quoting} {text : List Char} (literal : quoting.escapes = false)
    (plain : ∀ c ∈ text, isText c = true ∨ quoting.lines = true ∧ c = '\n')
    (apart : ¬ quoting.marks <:+: text) (rest : List Char) :
    quoting.text? 0 (text ++ (quoting.marks ++ '\n' :: rest)) = some (text, '\n' :: rest) := by
  induction text with
  | nil => exact text_closed quoting.width_pos rest
  | cons c text induction =>
      have few := quotes_few apart
      by_cases whole : quoting.quotesAhead (c :: text) = (c :: text).length
      · -- Nothing but quotes is left, and together with the closing ones they are one run.
        have quotes : c :: text = List.replicate (c :: text).length quoting.quote := by
          rw [← whole, ← quotes_at_front]
          exact ((List.takeWhile_prefix _).eq_of_length whole).symm
        rw [whole] at few
        rw [quotes]
        exact text_closed few rest
      · have piece : quoting.piece? (c :: (text ++ (quoting.marks ++ '\n' :: rest))) =
            some ([c], 0) := by
          rcases plain c List.mem_cons_self with isText | ⟨lines, rfl⟩
          · simp [piece?, literal, isText]
          · exact piece_line_feed lines _
        have unclosed : quoting.quotesAhead (c :: (text ++ (quoting.marks ++ '\n' :: rest))) <
            quoting.width := by
          rw [← List.cons_append, quotes_ahead_append whole]
          exact few
        have read := induction (fun d member => plain d (List.mem_cons_of_mem c member))
          fun inside => apart (inside.trans (List.suffix_cons c text).isInfix)
        exact (text_piece [] unclosed piece).trans (congrArg _ read)

theorem text_written {quoting : Quoting} {text : List Char} (admits : quoting.Admits text)
    (rest : List Char) :
    quoting.text? 0 (text.flatMap quoting.writtenChar ++ (quoting.marks ++ '\n' :: rest)) =
      some (text, '\n' :: rest) := by
  cases escapes : quoting.escapes with
  | true => exact text_escaped escapes text rest
  | false =>
      obtain ⟨plain, apart⟩ := admits.resolve_left (by simp [escapes])
      have same : quoting.writtenChar = fun c => [c] :=
        funext fun c => if_pos (.inl escapes)
      rw [same, List.flatMap_singleton']
      exact text_plain escapes plain apart rest

/-- On one line the first quote closes the string, so that no two stand at the front of a text. -/
theorem line_starts {quoting : Quoting} {text cs rest : List Char} (line : quoting.lines = false)
    (read : quoting.text? 0 cs = some (text, '\n' :: rest)) (after : List Char) :
    cs ≠ quoting.quote :: quoting.quote :: after := by
  rintro rfl
  have closed : quoting.closing? (quoting.quote :: quoting.quote :: after) =
      some ([], quoting.quote :: after) := by
    simp [closing?, quotesAhead, width, line]
  rw [text?, closed, Option.some.injEq, Prod.mk.injEq] at read
  have newline : quoting.quote ≠ '\n' := by cases quoting <;> decide
  exact newline (List.cons.inj read.2).1

end Quoting

theorem string_written {quoting : Quoting} {text : List Char} (admits : quoting.Admits text)
    (rest : List Char) :
    string? (quoting.written text ++ '\n' :: rest) = some (text, '\n' :: rest) := by
  have read := Quoting.text_written admits rest
  rw [Quoting.written, List.append_assoc, List.append_assoc, List.append_assoc]
  cases quoting with
  | basicLines => exact read
  | literalLines => exact read
  | basic =>
      change string? ('\x22' :: _) = _
      rw [string?]
      · exact read
      · exact Quoting.line_starts rfl read
  | literal =>
      change string? ('\x27' :: _) = _
      rw [string?]
      · exact read
      · exact Quoting.line_starts rfl read

end DocComment.Settings.Toml

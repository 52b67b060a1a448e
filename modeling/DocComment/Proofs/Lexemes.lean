import DocComment.Declaration.Recognition

/-!
Recognition sees of a token only its lexeme: the kind and the spelling, never the place. A run over
tokens is therefore a run over their lexemes, and declarations can be described as lists of lexemes.
-/

namespace DocComment

namespace Token

abbrev Lexeme := Kind × String

def lexeme (token : Token) : Lexeme := (token.kind, token.text)

/-- A token with this lexeme, at no place in particular. -/
def ofLexeme (lexeme : Lexeme) : Token := ⟨lexeme.1, lexeme.2, ⟨0, 0⟩⟩

@[simp] theorem of_lexeme_kind (lexeme : Lexeme) : (ofLexeme lexeme).kind = lexeme.1 := rfl

@[simp] theorem of_lexeme_text (lexeme : Lexeme) : (ofLexeme lexeme).text = lexeme.2 := rfl

theorem map_lexeme_lay_out (start : Nat) (lexemes : List Lexeme) :
    (layOut start lexemes).map lexeme = lexemes := by
  induction lexemes generalizing start with
  | nil => rfl
  | cons lexeme lexemes induction =>
      simp only [layOut, List.map_cons, induction]
      rfl

def word (text : String) : Lexeme := (.identifier, text)

@[simp] theorem word_kind (text : String) : (word text).1 = .identifier := rfl

@[simp] theorem word_text (text : String) : (word text).2 = text := rfl

def lastKind (previous : Option Kind) (lexemes : List Lexeme) : Option Kind :=
  lexemes.foldl (fun _ lexeme => some lexeme.1) previous

@[simp] theorem last_kind_nil (previous : Option Kind) : lastKind previous [] = previous := rfl

@[simp] theorem last_kind_cons (previous : Option Kind) (lexeme : Lexeme) (lexemes : List Lexeme) :
    lastKind previous (lexeme :: lexemes) = lastKind (some lexeme.1) lexemes := rfl

/-- Groups of lexemes with a comma between each two. -/
def separated : List (List Lexeme) → List Lexeme
  | [] => []
  | first :: rest => first ++ rest.flatMap ((.comma, ",") :: ·)

end Token

namespace Language

open Token

def read (language : Language) (reading : Reading) (lexemes : List Lexeme) : Reading :=
  lexemes.foldl (fun reading lexeme => language.stepUnlessDone reading (ofLexeme lexeme)) reading

@[simp] theorem read_nil (language : Language) (reading : Reading) :
    language.read reading [] = reading := rfl

theorem read_cons (language : Language) (reading : Reading) (lexeme : Lexeme)
    (lexemes : List Lexeme) :
    language.read reading (lexeme :: lexemes) =
      language.read (language.stepUnlessDone reading (ofLexeme lexeme)) lexemes := rfl

theorem read_append (language : Language) (reading : Reading) (left right : List Lexeme) :
    language.read reading (left ++ right) = language.read (language.read reading left) right :=
  List.foldl_append

/-- No rule looks at the place of a token. -/
theorem step_of_lexeme (language : Language) (reading : Reading) (token : Token) :
    language.step reading (ofLexeme token.lexeme) = language.step reading token := by
  cases language <;> rfl

theorem foldl_step_eq_read (language : Language) (reading : Reading) (tokens : List Token) :
    tokens.foldl language.stepUnlessDone reading =
      language.read reading (tokens.map Token.lexeme) := by
  induction tokens generalizing reading with
  | nil => rfl
  | cons token tokens induction =>
      rw [List.foldl_cons, List.map_cons, read_cons, induction]
      simp only [stepUnlessDone, step_of_lexeme]

theorem recognize_eq_read (language : Language) (tokens : List Token) :
    language.recognize tokens =
      (language.finish (language.read {} (tokens.map Token.lexeme))).symbol := by
  rw [recognize, foldl_step_eq_read]

/-- Where each item leaves a reading as it was, a row of them does. -/
theorem read_skipping (language : Language) {Item : Type} (spell : Item → Lexeme)
    (place : Option Kind → Reading)
    (skips : ∀ item previous,
      language.stepUnlessDone (place previous) (ofLexeme (spell item)) = place (some (spell item).1))
    (items : List Item) (previous : Option Kind) :
    language.read (place previous) (items.map spell) = place (lastKind previous (items.map spell)) := by
  induction items generalizing previous with
  | nil => rfl
  | cons item items induction =>
      rw [List.map_cons, read_cons, skips, induction, last_kind_cons]

theorem read_of_done (language : Language) (reading : Reading) (lexemes : List Lexeme)
    (done : reading.expects.done = true) : language.read reading lexemes = reading := by
  induction lexemes with
  | nil => rfl
  | cons lexeme lexemes induction =>
      rw [read_cons, stepUnlessDone, if_pos done]
      exact induction

end Language

end DocComment

import DocComment.Proofs.Word

/-!
Type expressions as trees, with the lexemes and the text each is written with. The main statement is
that the lexemes of a type, taken one by one, put its text together and leave as many angle brackets
open as before, wherever an open type waits for them.
-/

namespace DocComment

open Token

theorem Text.last_char_append (left right : String) :
    Text.lastChar? (left ++ right) = (Text.lastChar? right).or (Text.lastChar? left) := by
  simp [Text.lastChar?, List.getLast?_append]

theorem Text.ends_in_append (text ending : String) : Text.endsIn (text ++ ending) ending = true := by
  simp [Text.endsIn]

namespace TypeText

/-- A character that ends a type which needs no continuation. -/
def isFirm (c : Char) : Bool := isWordChar c || c == '>' || c == ']'

def EndsFirm (type : String) : Prop := ∃ c, Text.lastChar? type = some c ∧ isFirm c = true

theorem not_open_of_last {type : String} {c : Char} (last : Text.lastChar? type = some c)
    (firm : ['<', '|', '.', ' ', '?', ':'].contains c = false) : isOpen type = false := by
  simp only [isOpen, last, firm, Bool.false_and]

theorem not_open_of_ends_firm {type : String} (ends : EndsFirm type) : isOpen type = false := by
  obtain ⟨c, last, firm⟩ := ends
  refine not_open_of_last last ?_
  rw [Bool.eq_false_iff, Ne, List.contains_iff_mem]
  intro member
  have soft : (['<', '|', '.', ' ', '?', ':'].all fun c => !isFirm c) = true := by decide
  have notFirm := List.all_eq_true.1 soft c member
  rw [firm] at notFirm
  contradiction

theorem ends_firm_append (left : String) {right : String} (ends : EndsFirm right) :
    EndsFirm (left ++ right) := by
  obtain ⟨c, last, firm⟩ := ends
  exact ⟨c, by rw [Text.last_char_append, last]; rfl, firm⟩

theorem ends_firm_of_reads_as_word {text : String} (reads : ReadsAsWord text) : EndsFirm text := by
  obtain ⟨c, last, wordChar⟩ := reads_as_word_last reads
  exact ⟨c, last, by simp [isFirm, wordChar]⟩

theorem ends_in_dots {type : String} (ends : Text.endsIn type "..." = true) :
    ∃ start, type.toList = start ++ ['.', '.', '.'] := by
  simp only [Text.endsIn, List.isSuffixOf_iff_suffix] at ends
  obtain ⟨start, same⟩ := ends
  exact ⟨start, same.symm⟩

/-- A sign that asks for a continuation opens any type, the dot apart. -/
theorem open_append_sign (type : String) {sign : String} {c : Char}
    (last : Text.lastChar? sign = some c)
    (soft : ['<', '|', ' ', '?', ':'].contains c = true) : isOpen (type ++ sign) = true := by
  have whole : Text.lastChar? (type ++ sign) = some c := by
    rw [Text.last_char_append, last]
    rfl
  -- The one soft character that an ellipsis ends in is the dot.
  have notDots : Text.endsIn (type ++ sign) "..." = false := by
    rw [Bool.eq_false_iff]
    intro ends
    obtain ⟨start, same⟩ := ends_in_dots ends
    have dot : c = '.' := by simpa [Text.lastChar?, same] using whole.symm
    simp [dot] at soft
  have member : ['<', '|', '.', ' ', '?', ':'].contains c = true := by
    simp only [List.contains_cons, Bool.or_eq_true] at soft ⊢
    grind
  simp only [isOpen, whole, member, notDots, Bool.not_false, Bool.and_self]

/-- A dot opens a type that ends firm: it is no third dot. -/
theorem open_append_dot {type : String} (ends : EndsFirm type) : isOpen (type ++ ".") = true := by
  obtain ⟨c, last, firm⟩ := ends
  have whole : Text.lastChar? (type ++ ".") = some '.' := by
    rw [Text.last_char_append]
    rfl
  have notDots : Text.endsIn (type ++ ".") "..." = false := by
    rw [Bool.eq_false_iff]
    intro ends
    obtain ⟨start, same⟩ := ends_in_dots ends
    have before : type.toList = start ++ ['.', '.'] := by
      have parts : type.toList ++ ['.'] = (start ++ ['.', '.']) ++ ['.'] := by
        simpa using same
      exact List.append_cancel_right parts
    have dot : c = '.' := by simpa [Text.lastChar?, before] using last.symm
    rw [dot] at firm
    exact absurd firm (by decide)
  simp [isOpen, whole, notDots]

theorem not_open_append_dots (type : String) : isOpen (type ++ "...") = false := by
  have whole : Text.lastChar? (type ++ "...") = some '.' := by
    rw [Text.last_char_append]
    rfl
  have dots : Text.endsIn (type ++ "...") "..." = true := by
    exact Text.ends_in_append type "..."
  simp [isOpen, whole, dots]

structure Dialect where
  /-- The word may stand in a type. -/
  admits : String → Bool
  /-- Stars and ampersands may follow a type. -/
  declarators : Bool

structure Dialect.Word (dialect : Dialect) where
  text : String
  reads : ReadsAsWord text
  admitted : dialect.admits text = true

inductive Separator where
  | dot | colons
  deriving DecidableEq, Repr

def Separator.lexeme : Separator → Lexeme
  | .dot => (.dot, ".")
  | .colons => (.doubleColon, "::")

inductive Declarator where
  | star | ampersand
  deriving DecidableEq, Repr

def Declarator.lexeme : Declarator → Lexeme
  | .star => (.star, "*")
  | .ampersand => (.ampersand, "&")

/-- The signs that may end a type: an ellipsis and then declarators, where the dialect has them. -/
structure Suffix (dialect : Dialect) where
  variadic : Bool := false
  declarators : List Declarator := []
  allowed : dialect.declarators = true ∨ declarators = [] := by simp

def Suffix.bare {dialect : Dialect} : Suffix dialect := {}

def Suffix.lexemes {dialect : Dialect} (suffix : Suffix dialect) : List Lexeme :=
  (if suffix.variadic then [(.ellipsis, "...")] else []) ++ suffix.declarators.map (·.lexeme)

mutual

inductive Core (dialect : Dialect) where
  | word (word : dialect.Word)
  | member (owner : Core dialect) (separator : Separator) (word : dialect.Word)
  | generic (base : Core dialect) (arguments : Arguments dialect)
  | array (item : Core dialect)
  | union (left right : Core dialect)

inductive Expr (dialect : Dialect) where
  | mk (core : Core dialect) (suffix : Suffix dialect)

inductive Arguments (dialect : Dialect) where
  | last (type : Expr dialect)
  | more (type : Expr dialect) (rest : Arguments dialect)

end

variable {dialect : Dialect}

mutual

def Core.lexemes : Core dialect → List Lexeme
  | .word word => [Token.word word.text]
  | .member owner separator word => owner.lexemes ++ [separator.lexeme, Token.word word.text]
  | .generic base arguments =>
      base.lexemes ++ (.lessThan, "<") :: (arguments.lexemes ++ [(.greaterThan, ">")])
  | .array item => item.lexemes ++ [(.openBracket, "["), (.closeBracket, "]")]
  | .union left right => left.lexemes ++ (.pipe, "|") :: right.lexemes

def Expr.lexemes : Expr dialect → List Lexeme
  | .mk core suffix => core.lexemes ++ suffix.lexemes

def Arguments.lexemes : Arguments dialect → List Lexeme
  | .last type => type.lexemes
  | .more type rest => type.lexemes ++ (.comma, ",") :: rest.lexemes

end

/-- The text of a type: its lexemes end to end, with a space after each comma. -/
def spelling : List Lexeme → String
  | [] => ""
  | (kind, text) :: lexemes => (if kind = .comma then ", " else text) ++ spelling lexemes

theorem spelling_append (left right : List Lexeme) :
    spelling (left ++ right) = spelling left ++ spelling right := by
  induction left with
  | nil => simp [spelling]
  | cons lexeme left induction => simp [spelling, induction, String.append_assoc]

def Expr.text (type : Expr dialect) : String := spelling type.lexemes

theorem core_ends_firm (core : Core dialect) : EndsFirm (spelling core.lexemes) := by
  match core with
  | .word word =>
      simpa [Core.lexemes, spelling, Token.word] using ends_firm_of_reads_as_word word.reads
  | .member owner separator word =>
      have last := ends_firm_of_reads_as_word word.reads
      rw [Core.lexemes, spelling_append]
      refine ends_firm_append _ ?_
      simpa [spelling, Token.word] using ends_firm_append _ last
  | .generic base arguments =>
      rw [Core.lexemes, spelling_append]
      refine ends_firm_append _ ?_
      simp only [spelling, spelling_append]
      exact ends_firm_append _ (ends_firm_append _ ⟨'>', by decide, by decide⟩)
  | .array item =>
      rw [Core.lexemes, spelling_append]
      exact ends_firm_append _ ⟨']', by decide, by decide⟩
  | .union left right =>
      rw [Core.lexemes, spelling_append]
      refine ends_firm_append _ ?_
      exact ends_firm_append _ (core_ends_firm right)

/-- The type and the open angle brackets after one more lexeme; nothing if it does not belong to the
type. -/
def Dialect.take? (dialect : Dialect) (type : String) (depth : Nat) (lexeme : Lexeme) :
    Option (String × Nat) :=
  if lexeme.1 = .identifier ∧ dialect.admits lexeme.2 = false then none
  else if dialect.declarators = true ∧ (lexeme.1 = .star ∨ lexeme.1 = .ampersand) then
    some (type ++ lexeme.2, depth)
  else extend? (some type) depth (ofLexeme lexeme)

def Dialect.compose? (dialect : Dialect) (type : String) (depth : Nat) :
    List Lexeme → Option (String × Nat)
  | [] => some (type, depth)
  | lexeme :: lexemes =>
      (dialect.take? type depth lexeme).bind fun (type, depth) =>
        dialect.compose? type depth lexemes

theorem compose_cons {type type' : String} {depth depth' : Nat} {lexeme : Lexeme}
    (taken : dialect.take? type depth lexeme = some (type', depth')) (lexemes : List Lexeme) :
    dialect.compose? type depth (lexeme :: lexemes) = dialect.compose? type' depth' lexemes := by
  rw [Dialect.compose?, taken]
  rfl

theorem compose_append {type type' : String} {depth depth' : Nat} {left : List Lexeme}
    (composed : dialect.compose? type depth left = some (type', depth')) (right : List Lexeme) :
    dialect.compose? type depth (left ++ right) = dialect.compose? type' depth' right := by
  induction left generalizing type depth with
  | nil =>
      simp only [Dialect.compose?, Option.some.injEq, Prod.mk.injEq] at composed
      rw [List.nil_append, composed.1, composed.2]
  | cons lexeme left induction =>
      rw [Dialect.compose?, Option.bind_eq_some_iff] at composed
      obtain ⟨⟨inner, innerDepth⟩, taken, composed⟩ := composed
      rw [List.cons_append, compose_cons taken]
      exact induction composed

/-- Where there are no declarators all that is taken extends the type. -/
theorem extend_of_take {type type' : String} {depth depth' : Nat} {lexeme : Lexeme}
    (plain : dialect.declarators = false)
    (taken : dialect.take? type depth lexeme = some (type', depth')) :
    extend? (some type) depth (ofLexeme lexeme) = some (type', depth') := by
  unfold Dialect.take? at taken
  split at taken
  · simp at taken
  · simpa [plain] using taken

/-- A word that is taken may stand in a type. -/
theorem admitted_of_take {type text : String} {depth : Nat} {extension : String × Nat}
    (taken : dialect.take? type depth (Token.word text) = some extension) :
    dialect.admits text = true := by
  unfold Dialect.take? at taken
  split at taken
  · simp at taken
  · next admitted => simpa using admitted

theorem take_word (word : dialect.Word) {type : String} (depth : Nat) (ready : isOpen type = true) :
    dialect.take? type depth (Token.word word.text) = some (type ++ word.text, depth) := by
  simp [Dialect.take?, extend?, addition?, word.admitted, ready]

theorem extend_none_word (text : String) (depth : Nat) :
    extend? none depth (ofLexeme (Token.word text)) = some (text, depth) := by
  simp [extend?, addition?, isOpen, Text.lastChar?]

theorem take_separator (separator : Separator) {type : String} (depth : Nat)
    (closed : isOpen type = false) :
    dialect.take? type depth separator.lexeme = some (type ++ separator.lexeme.2, depth) := by
  cases separator <;> simp [Separator.lexeme, Dialect.take?, extend?, addition?, closed]

theorem open_append_separator (separator : Separator) {type : String} (ends : EndsFirm type) :
    isOpen (type ++ separator.lexeme.2) = true := by
  cases separator with
  | dot => exact open_append_dot ends
  | colons => exact open_append_sign type (c := ':') (by decide) (by decide)

theorem declarators_compose (declarators : List Declarator)
    (allowed : dialect.declarators = true ∨ declarators = []) (type : String) (depth : Nat) :
    dialect.compose? type depth (declarators.map (·.lexeme)) =
      some (type ++ spelling (declarators.map (·.lexeme)), depth) := by
  induction declarators generalizing type with
  | nil => simp [Dialect.compose?, spelling]
  | cons declarator declarators induction =>
      have has : dialect.declarators = true := by simpa using allowed
      have taken : dialect.take? type depth declarator.lexeme =
          some (type ++ declarator.lexeme.2, depth) := by
        cases declarator <;> simp [Declarator.lexeme, Dialect.take?, has]
      have sign : declarator.lexeme.1 ≠ .comma := by cases declarator <;> decide
      rw [List.map_cons, compose_cons taken, induction (.inl has)]
      simp [spelling, sign, String.append_assoc]

theorem suffix_composes (suffix : Suffix dialect) {type : String} (depth : Nat)
    (closed : isOpen type = false) :
    dialect.compose? type depth suffix.lexemes =
      some (type ++ spelling suffix.lexemes, depth) := by
  rw [Suffix.lexemes]
  cases suffix.variadic with
  | false => exact declarators_compose suffix.declarators suffix.allowed type depth
  | true =>
      have taken : dialect.take? type depth (.ellipsis, "...") = some (type ++ "...", depth) := by
        simp [Dialect.take?, extend?, addition?, closed]
      simp only [if_true, List.cons_append, List.nil_append]
      rw [compose_cons taken, declarators_compose suffix.declarators suffix.allowed]
      simp [spelling, String.append_assoc]

mutual

/-- An open type takes all of a core. The induction is on the tree; a core ends firm, so every sign
after it is taken. -/
theorem core_composes (core : Core dialect) {type : String} (depth : Nat)
    (ready : isOpen type = true) :
    dialect.compose? type depth core.lexemes = some (type ++ spelling core.lexemes, depth) := by
  match core with
  | .word word =>
      rw [Core.lexemes, compose_cons (take_word word depth ready)]
      simp [Dialect.compose?, spelling, Token.word]
  | .member owner separator word =>
      have ends := ends_firm_append type (core_ends_firm owner)
      have opened := open_append_separator separator ends
      rw [Core.lexemes, compose_append (core_composes owner depth ready),
        compose_cons (take_separator separator depth (not_open_of_ends_firm ends)),
        compose_cons (take_word word depth opened)]
      cases separator <;>
        simp [Dialect.compose?, spelling, spelling_append, Separator.lexeme, Token.word,
          String.append_assoc]
  | .generic base arguments =>
      have closed := not_open_of_ends_firm (ends_firm_append type (core_ends_firm base))
      -- The arguments are read one bracket deeper, where commas belong to the type.
      have takenOpen : dialect.take? (type ++ spelling base.lexemes) depth (.lessThan, "<") =
          some (type ++ spelling base.lexemes ++ "<", depth + 1) := by
        simp [Dialect.take?, extend?, addition?, closed]
      have opened : isOpen (type ++ spelling base.lexemes ++ "<") = true :=
        open_append_sign _ (c := '<') (by decide) (by decide)
      rw [Core.lexemes, compose_append (core_composes base depth ready), compose_cons takenOpen,
        compose_append (arguments_compose arguments (depth + 1) opened (Nat.succ_pos depth))]
      simp [Dialect.compose?, Dialect.take?, extend?, addition?, spelling, spelling_append,
        String.append_assoc]
  | .array item =>
      have closed := not_open_of_ends_firm (ends_firm_append type (core_ends_firm item))
      -- The opening bracket adds both, the closing one nothing.
      have takenOpen : dialect.take? (type ++ spelling item.lexemes) depth (.openBracket, "[") =
          some (type ++ spelling item.lexemes ++ "[]", depth) := by
        simp [Dialect.take?, extend?, addition?, closed]
      have takenClose : dialect.take? (type ++ spelling item.lexemes ++ "[]") depth
          (.closeBracket, "]") = some (type ++ spelling item.lexemes ++ "[]", depth) := by
        simp [Dialect.take?, extend?, addition?, Text.ends_in_append]
      rw [Core.lexemes, compose_append (core_composes item depth ready), compose_cons takenOpen,
        compose_cons takenClose]
      simp [Dialect.compose?, spelling, spelling_append, String.append_assoc]
  | .union left right =>
      have closed := not_open_of_ends_firm (ends_firm_append type (core_ends_firm left))
      have takenPipe : dialect.take? (type ++ spelling left.lexemes) depth (.pipe, "|") =
          some (type ++ spelling left.lexemes ++ "|", depth) := by
        simp [Dialect.take?, extend?, addition?, closed]
      have opened : isOpen (type ++ spelling left.lexemes ++ "|") = true :=
        open_append_sign _ (c := '|') (by decide) (by decide)
      rw [Core.lexemes, compose_append (core_composes left depth ready), compose_cons takenPipe,
        core_composes right depth opened]
      simp [spelling, spelling_append, String.append_assoc]

theorem expr_composes (expr : Expr dialect) {type : String} (depth : Nat)
    (ready : isOpen type = true) :
    dialect.compose? type depth expr.lexemes = some (type ++ spelling expr.lexemes, depth) := by
  match expr with
  | .mk core suffix =>
      have closed := not_open_of_ends_firm (ends_firm_append type (core_ends_firm core))
      rw [Expr.lexemes, compose_append (core_composes core depth ready),
        suffix_composes suffix depth closed, spelling_append, String.append_assoc]

theorem arguments_compose (arguments : Arguments dialect) {type : String} (depth : Nat)
    (ready : isOpen type = true) (inside : 0 < depth) :
    dialect.compose? type depth arguments.lexemes =
      some (type ++ spelling arguments.lexemes, depth) := by
  match arguments with
  | .last last =>
      rw [Arguments.lexemes]
      exact expr_composes last depth ready
  | .more first rest =>
      have takenComma : dialect.take? (type ++ spelling first.lexemes) depth (.comma, ",") =
          some (type ++ spelling first.lexemes ++ ", ", depth) := by
        simp [Dialect.take?, extend?, addition?, inside]
      have opened : isOpen (type ++ spelling first.lexemes ++ ", ") = true :=
        open_append_sign _ (c := ' ') (by decide) (by decide)
      rw [Arguments.lexemes, compose_append (expr_composes first depth ready),
        compose_cons takenComma, arguments_compose rest depth opened inside]
      simp [spelling, spelling_append, String.append_assoc]

end

theorem declarators_last (declarator : Declarator) (declarators : List Declarator) :
    ∃ last : Declarator,
      Text.lastChar? (spelling ((declarator :: declarators).map (·.lexeme))) =
        Text.lastChar? last.lexeme.2 := by
  induction declarators generalizing declarator with
  | nil => exact ⟨declarator, by cases declarator <;> rfl⟩
  | cons next declarators induction =>
      obtain ⟨last, same⟩ := induction next
      refine ⟨last, ?_⟩
      rw [List.map_cons, spelling, Text.last_char_append, same]
      cases last <;> rfl

/-- A whole type is closed: a word after it is no part of it. -/
theorem expr_not_open (start : String) (type : Expr dialect) :
    isOpen (start ++ type.text) = false := by
  obtain ⟨core, variadic, declarators, allowed⟩ := type
  rw [Expr.text, Expr.lexemes, Suffix.lexemes, spelling_append, spelling_append]
  cases declarators with
  | nil =>
      cases variadic with
      | false =>
          simpa [spelling] using
            not_open_of_ends_firm (ends_firm_append start (core_ends_firm core))
      | true =>
          simpa [spelling, String.append_assoc] using
            not_open_append_dots (start ++ spelling core.lexemes)
  | cons declarator declarators =>
      obtain ⟨last, same⟩ := declarators_last declarator declarators
      cases last with
      | star =>
          refine not_open_of_last (c := '*') ?_ (by decide)
          rw [Text.last_char_append, Text.last_char_append, Text.last_char_append, same]
          rfl
      | ampersand =>
          refine not_open_of_last (c := '&') ?_ (by decide)
          rw [Text.last_char_append, Text.last_char_append, Text.last_char_append, same]
          rfl

def Core.firstWord : Core dialect → dialect.Word
  | .word first => first
  | .member owner _ _ => owner.firstWord
  | .generic base _ => base.firstWord
  | .array item => item.firstWord
  | .union left _ => left.firstWord

theorem core_lexemes_cons (core : Core dialect) :
    ∃ rest, core.lexemes = Token.word core.firstWord.text :: rest := by
  match core with
  | .word word => exact ⟨[], rfl⟩
  | .member owner separator word =>
      obtain ⟨rest, same⟩ := core_lexemes_cons owner
      exact ⟨_, by rw [Core.lexemes, Core.firstWord, same, List.cons_append]⟩
  | .generic base arguments =>
      obtain ⟨rest, same⟩ := core_lexemes_cons base
      exact ⟨_, by rw [Core.lexemes, Core.firstWord, same, List.cons_append]⟩
  | .array item =>
      obtain ⟨rest, same⟩ := core_lexemes_cons item
      exact ⟨_, by rw [Core.lexemes, Core.firstWord, same, List.cons_append]⟩
  | .union left right =>
      obtain ⟨rest, same⟩ := core_lexemes_cons left
      exact ⟨_, by rw [Core.lexemes, Core.firstWord, same, List.cons_append]⟩

def Expr.firstWord : Expr dialect → dialect.Word
  | .mk core _ => core.firstWord

/-- What follows the first word composes the rest of the text. -/
theorem expr_lexemes_cons (type : Expr dialect) {start : String} (ready : isOpen start = true) :
    ∃ rest, type.lexemes = Token.word type.firstWord.text :: rest ∧
      dialect.compose? (start ++ type.firstWord.text) 0 rest = some (start ++ type.text, 0) := by
  obtain ⟨core, suffix⟩ := type
  obtain ⟨rest, same⟩ := core_lexemes_cons core
  have whole : (Expr.mk core suffix).lexemes =
      Token.word core.firstWord.text :: (rest ++ suffix.lexemes) := by
    rw [Expr.lexemes, same, List.cons_append]
  have composed : dialect.compose? start 0 (Expr.mk core suffix).lexemes = _ :=
    expr_composes (.mk core suffix) 0 ready
  rw [whole, compose_cons (take_word core.firstWord 0 ready), ← whole] at composed
  exact ⟨_, whole, composed⟩

/-- Where a reader keeps a type and takes its lexemes as the dialect does, it reads what they
compose. -/
theorem read_of_compose {language : Language} (place : String → Nat → Option Kind → Reading)
    (takes : ∀ {type depth lexeme type' depth'} (previous : Option Kind),
      dialect.take? type depth lexeme = some (type', depth') →
        language.stepUnlessDone (place type depth previous) (ofLexeme lexeme) =
          place type' depth' (some lexeme.1))
    {type type' : String} {depth depth' : Nat} {lexemes : List Lexeme}
    (composed : dialect.compose? type depth lexemes = some (type', depth'))
    (previous : Option Kind) :
    language.read (place type depth previous) lexemes =
      place type' depth' (lastKind previous lexemes) := by
  induction lexemes generalizing type depth previous with
  | nil =>
      simp only [Dialect.compose?, Option.some.injEq, Prod.mk.injEq] at composed
      rw [composed.1, composed.2]
      rfl
  | cons lexeme lexemes induction =>
      rw [Dialect.compose?, Option.bind_eq_some_iff] at composed
      obtain ⟨⟨inner, innerDepth⟩, taken, composed⟩ := composed
      rw [Language.read_cons, takes previous taken, induction composed, last_kind_cons]

/-- A reader that goes on with the first word of a type and then takes its lexemes reads all of the
type. -/
theorem read_expr {language : Language} {before : Reading}
    (place : String → Nat → Option Kind → Reading) {start : String} (ready : isOpen start = true)
    (type : Expr dialect)
    (starts : language.stepUnlessDone before (ofLexeme (Token.word type.firstWord.text)) =
      place (start ++ type.firstWord.text) 0 (some .identifier))
    (takes : ∀ {type depth lexeme type' depth'} (previous : Option Kind),
      dialect.take? type depth lexeme = some (type', depth') →
        language.stepUnlessDone (place type depth previous) (ofLexeme lexeme) =
          place type' depth' (some lexeme.1)) :
    ∃ previous, language.read before type.lexemes = place (start ++ type.text) 0 previous := by
  obtain ⟨rest, whole, composed⟩ := expr_lexemes_cons type ready
  refine ⟨lastKind (some .identifier) rest, ?_⟩
  rw [whole, Language.read_cons, starts]
  exact read_of_compose place takes composed (some .identifier)

theorem read_whole_expr {language : Language} {before : Reading}
    (place : String → Nat → Option Kind → Reading) (type : Expr dialect)
    (starts : language.stepUnlessDone before (ofLexeme (Token.word type.firstWord.text)) =
      place type.firstWord.text 0 (some .identifier))
    (takes : ∀ {type depth lexeme type' depth'} (previous : Option Kind),
      dialect.take? type depth lexeme = some (type', depth') →
        language.stepUnlessDone (place type depth previous) (ofLexeme lexeme) =
          place type' depth' (some lexeme.1)) :
    ∃ previous, language.read before type.lexemes = place type.text 0 previous := by
  have read := @read_expr dialect language before place "" rfl type
    (by rw [String.empty_append, starts]) takes
  rwa [String.empty_append] at read

end TypeText

end DocComment

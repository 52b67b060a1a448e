import DocComment.Proofs.Lexemes

/-!
Default values: lexemes whose brackets balance and that have no comma outside of brackets. The main
statement is that a reader which collects a default value collects all of such a value, and that
nothing but the token after it can end it.
-/

namespace DocComment

open Token

/-- Lexemes of one sort less those of another. -/
def Token.level (opens closes : Kind → Bool) (lexemes : List Lexeme) : Int :=
  (lexemes.countP (opens ·.1) : Int) - lexemes.countP (closes ·.1)

theorem Token.level_concat (opens closes : Kind → Bool) (lexemes : List Lexeme) (lexeme : Lexeme) :
    level opens closes (lexemes ++ [lexeme]) = level opens closes lexemes +
      (if opens lexeme.1 then 1 else 0) - (if closes lexeme.1 then 1 else 0) := by
  simp only [level, List.countP_append, List.countP_singleton]
  split <;> split <;> omega

/-- The level never falls below zero and ends there. -/
structure Token.Balanced (opens closes : Kind → Bool) (lexemes : List Lexeme) : Prop where
  nonneg : ∀ count ≤ lexemes.length, 0 ≤ level opens closes (lexemes.take count)
  ends : level opens closes lexemes = 0

theorem Token.Balanced.nonneg_before {opens closes : Kind → Bool} {before rest : List Lexeme}
    (balanced : Balanced opens closes (before ++ rest)) : 0 ≤ level opens closes before := by
  have nonneg := balanced.nonneg before.length (by simp)
  rwa [List.take_left] at nonneg

namespace DefaultValue

def opens : Kind → Bool
  | .openParen | .openBracket | .openBrace => true
  | _ => false

def closes : Kind → Bool
  | .closeParen | .closeBracket | .closeBrace => true
  | _ => false

def CommasNested (lexemes : List Lexeme) : Prop :=
  ∀ count ≤ lexemes.length, lexemes[count]?.map (·.1) = some .comma →
    level opens closes (lexemes.take count) ≠ 0

instance (lexemes : List Lexeme) : Decidable (CommasNested lexemes) :=
  inferInstanceAs (Decidable (∀ count ≤ lexemes.length, _ → _))

structure Value where
  lexemes : List Lexeme
  balanced : Balanced opens closes lexemes
  commas : CommasNested lexemes

theorem CommasNested.level_before {before rest : List Lexeme} {lexeme : Lexeme}
    (nested : CommasNested (before ++ lexeme :: rest)) (comma : lexeme.1 = .comma) :
    level opens closes before ≠ 0 := by
  have nonzero := nested before.length (by simp)
  rw [List.take_left] at nonzero
  exact nonzero (by simp [comma])

def collected (value : Option String) (lexemes : List Lexeme) : Option String :=
  lexemes.foldl (fun value lexeme => some (append value lexeme.2)) value

def Value.text (value : Value) : Option String := collected none value.lexemes

theorem nesting_after_of_level {before : List Lexeme} {lexeme : Lexeme}
    (nonneg : 0 ≤ level opens closes before)
    (nonnegAfter : 0 ≤ level opens closes (before ++ [lexeme]))
    (comma : lexeme.1 = .comma → level opens closes before ≠ 0) :
    nestingAfter? (level opens closes before).toNat lexeme.1 =
      some (level opens closes (before ++ [lexeme])).toNat := by
  rw [level_concat] at nonnegAfter ⊢
  obtain ⟨kind, text⟩ := lexeme
  cases kind <;> simp [nestingAfter?, opens, closes] at nonnegAfter comma ⊢ <;> omega

/-- Where a reader keeps a value and collects it as long as brackets allow, it reads all of a
value. The induction is on what is left of it, and the level of what has been read is the nesting. -/
theorem read_of_balanced {language : Language}
    {place : Option String → Nat → Option Kind → Reading}
    (takes : ∀ {value nesting lexeme nesting'} (previous : Option Kind),
      nestingAfter? nesting lexeme.1 = some nesting' →
        language.stepUnlessDone (place value nesting previous) (ofLexeme lexeme) =
          place (some (append value lexeme.2)) nesting' (some lexeme.1))
    (before rest : List Lexeme) (balanced : Balanced opens closes (before ++ rest))
    (commas : CommasNested (before ++ rest)) (value : Option String) (previous : Option Kind) :
    language.read (place value (level opens closes before).toNat previous) rest =
      place (collected value rest) 0 (lastKind previous rest) := by
  induction rest generalizing before value previous with
  | nil =>
      have ends := balanced.ends
      rw [List.append_nil] at ends
      rw [ends]
      rfl
  | cons lexeme rest induction =>
      -- The lexeme moves from what is left to what has been read.
      have regrouped : before ++ lexeme :: rest = (before ++ [lexeme]) ++ rest := by simp
      have after := nesting_after_of_level balanced.nonneg_before
        (Balanced.nonneg_before (regrouped ▸ balanced)) commas.level_before
      rw [Language.read_cons, takes previous after,
        induction (before ++ [lexeme]) (regrouped ▸ balanced) (regrouped ▸ commas)]
      rfl

theorem read_value {language : Language} (place : Option String → Nat → Option Kind → Reading)
    (takes : ∀ {value nesting lexeme nesting'} (previous : Option Kind),
      nestingAfter? nesting lexeme.1 = some nesting' →
        language.stepUnlessDone (place value nesting previous) (ofLexeme lexeme) =
          place (some (append value lexeme.2)) nesting' (some lexeme.1))
    (value : Value) (previous : Option Kind) :
    language.read (place none 0 previous) value.lexemes =
      place value.text 0 (lastKind previous value.lexemes) :=
  read_of_balanced takes [] value.lexemes value.balanced value.commas none previous

end DefaultValue

end DocComment

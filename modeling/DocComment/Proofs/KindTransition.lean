import DocComment.Proofs.ArrowGroup
import DocComment.Proofs.Word

/-!
How the kind of a symbol changes while a line is read. A class stays a class, and a function stays
one except for a parenthesis after a sign that turns out to be a group; a call takes back a variable
that has no name. A word for a function is final.
-/

namespace DocComment

namespace Language

open Reading Token

theorem reading_kind_step (language : Language) (tokens : List Token) (token : Token) :
    KindStep language (NameFirst.Grouped (tokens ++ [token])) (language.readingAfter tokens)
      (language.readingAfter (tokens ++ [token])) := by
  cases done : (language.readingAfter tokens).expects.done with
  | true =>
      rw [reading_after_done language done]
      exact .same rfl
  | false =>
      rw [reading_after_step language done]
      apply (language.step_kind (language.readingAfter tokens) token).weaken rfl
      rintro rfl ⟨undecided, unconfirmed⟩
      exact (NameFirst.grouped_of_undecided undecided).snoc unconfirmed

theorem finish_kind_step (language : Language) (tokens : List Token) :
    KindStep language (NameFirst.Grouped tokens) (language.readingAfter tokens)
      (language.finish (language.readingAfter tokens)) := by
  cases language with
  | javascript =>
      simp only [finish, NameFirst.finish]
      split
      · next undecided =>
          rw [Bool.and_eq_true] at undecided
          have function := ((NameFirst.traced tokens).tentative undecided.1).kind
          exact .regrouped rfl (NameFirst.grouped_of_undecided undecided) function rfl
      · exact .same rfl
  | _ => exact .same rfl

/-- What every step keeps holds from then on. -/
theorem reading_after_keeps (language : Language) (holds : Reading → Prop)
    (keeps : ∀ tokens token, holds (language.readingAfter tokens) →
      holds (language.readingAfter (tokens ++ [token])))
    {earlier : List Token} (start : holds (language.readingAfter earlier)) (later : List Token) :
    holds (language.readingAfter (earlier ++ later)) := by
  induction later using List.reverseRecOn with
  | nil => simpa using start
  | append_singleton later token induction =>
      rw [← List.append_assoc]
      exact keeps _ token induction

theorem class_rule_function_word {language : Language} {reading : Reading} {token : Token}
    (word : language.grammar.admits token .functionWord = true)
    (kind : reading.symbol.kind = .unset ∨ reading.symbol.kind = .var) :
    language.classRule reading token = reading := by
  rcases kind with unset | declared
  · rw [Grammar.admits, Bool.and_eq_true] at word
    have other : language.grammar.has token.text .classWord = false :=
      language.has_unique word.2 (by decide) (by decide) (by decide)
    simp [classRule, unset, Grammar.admits, other]
  · exact language.class_rule_ignores token (.inr declared)

theorem step_function_word {language : Language} (worded : language = .javascript ∨ language = .php)
    {reading : Reading} {token : Token}
    (word : language.grammar.admits token .functionWord = true)
    (kind : reading.symbol.kind = .unset ∨ reading.symbol.kind = .var) :
    (language.step reading token).symbol.kind = .function := by
  have ruled : (language.functionRule reading token).symbol.kind = .function := by
    rcases worded with rfl | rfl
    · rcases kind with kind | kind
      · simp [functionRule, NameFirst.function, NameFirst.grammar, kind, word, Symbol.toFunction]
      · simp [functionRule, NameFirst.function, NameFirst.grammar, kind, word, Symbol.toFunction]
    · rcases kind with kind | kind
      · simp [functionRule, Sigil.function, Sigil.grammar, kind, word, Symbol.toFunction]
      · simp [functionRule, Sigil.function, Sigil.grammar, kind, word, Symbol.toFunction]
  have same := language.parameter_rule_same (language.functionRule reading token) token
  have listed := same.symbol.kind
  have last := language.variable_rule_ignores token (.inl (listed.trans ruled))
  simp only [step]
  rw [class_rule_function_word word kind, last]
  exact listed.trans ruled

theorem settled_function_word {tokens : List Token} {token : Token}
    (undone : (Language.javascript.readingAfter tokens).expects.done = false)
    (word : Language.javascript.grammar.admits token .functionWord = true)
    (kind : (Language.javascript.readingAfter tokens).symbol.kind = .unset ∨
      (Language.javascript.readingAfter tokens).symbol.kind = .var) :
    NameFirst.Settled (Language.javascript.readingAfter (tokens ++ [token])) := by
  rw [reading_after_step _ undone]
  refine ⟨step_function_word (.inl rfl) word kind, ?_⟩
  rw [Bool.eq_false_iff]
  intro tentative
  have arrow := NameFirst.step_tentative tentative
  rw [class_rule_function_word word kind] at arrow
  rcases NameFirst.function_tentative _ token arrow with before | ⟨_, sign, _⟩
  · have function := ((NameFirst.traced tokens).tentative before).kind
    rcases kind with kind | kind
    · exact absurd (kind.symm.trans function) (by decide)
    · exact absurd (kind.symm.trans function) (by decide)
  · simp [Grammar.admits, sign, Token.Kind.isWord] at word

theorem settled_after {tokens : List Token}
    (settled : NameFirst.Settled (Language.javascript.readingAfter tokens)) (token : Token) :
    NameFirst.Settled (Language.javascript.readingAfter (tokens ++ [token])) := by
  cases done : (Language.javascript.readingAfter tokens).expects.done with
  | true =>
      rw [reading_after_done _ done]
      exact settled
  | false =>
      rw [reading_after_step _ done]
      exact NameFirst.settled_step settled token

theorem settled_finish {reading : Reading} (settled : NameFirst.Settled reading) :
    Language.javascript.finish reading = reading := by
  simp [finish, NameFirst.finish, settled.arrow]

theorem final_kind_stays {language : Language} {kind : Symbol.Kind} {regroups : Prop}
    {before after : Reading}
    (final : kind = .classLike ∨ kind = .function ∧ language ≠ .javascript)
    (step : KindStep language regroups before after) (start : before.symbol.kind = kind) :
    after.symbol.kind = kind := by
  rcases final with rfl | ⟨rfl, other⟩
  · exact step.class_stays start
  · exact step.function_stays start (.inl other)

theorem final_kind_recognized {language : Language} {kind : Symbol.Kind}
    (final : kind = .classLike ∨ kind = .function ∧ language ≠ .javascript)
    {earlier : List Token} (start : (language.readingAfter earlier).symbol.kind = kind)
    (later : List Token) :
    (language.readingAfter (earlier ++ later)).symbol.kind = kind ∧
      (language.recognize (earlier ++ later)).kind = kind := by
  have kept : (language.readingAfter (earlier ++ later)).symbol.kind = kind := by
    apply language.reading_after_keeps (fun reading => reading.symbol.kind = kind) _ start
    intro tokens token before
    exact final_kind_stays final (language.reading_kind_step tokens token) before
  exact ⟨kept, final_kind_stays final (language.finish_kind_step (earlier ++ later)) kept⟩

/-- Whatever follows a word for a function, the line declares a function. -/
theorem function_word_recognized {language : Language}
    (worded : language = .javascript ∨ language = .php)
    {earlier : List Token} {token : Token}
    (undone : (language.readingAfter earlier).expects.done = false)
    (word : language.grammar.admits token .functionWord = true)
    (kind : (language.readingAfter earlier).symbol.kind = .unset ∨
      (language.readingAfter earlier).symbol.kind = .var) (later : List Token) :
    (language.readingAfter (earlier ++ token :: later)).symbol.kind = .function ∧
      (language.recognize (earlier ++ token :: later)).kind = .function := by
  have split : earlier ++ token :: later = (earlier ++ [token]) ++ later := by simp
  rw [split]
  rcases worded with rfl | rfl
  · have settled := reading_after_keeps .javascript NameFirst.Settled
      (fun _ token before => settled_after before token)
      (settled_function_word undone word kind) later
    have finished := settled_finish settled
    exact ⟨settled.kind, (congrArg (·.symbol.kind) finished).trans settled.kind⟩
  · apply final_kind_recognized (.inr ⟨rfl, by decide⟩)
    rw [reading_after_step _ undone]
    exact step_function_word (.inr rfl) word kind

/-- The changes of kind at every token and at the end of the line, and the kinds that are final. -/
theorem kind_transitions (language : Language) :
    (∀ earlier token, KindStep language (NameFirst.Grouped (earlier ++ [token]))
      (language.readingAfter earlier) (language.readingAfter (earlier ++ [token]))) ∧
    (∀ tokens, KindStep language (NameFirst.Grouped tokens) (language.readingAfter tokens)
      (language.finish (language.readingAfter tokens))) ∧
    (∀ kind, kind = .classLike ∨ kind = .function ∧ language ≠ .javascript →
      ∀ earlier later, (language.readingAfter earlier).symbol.kind = kind →
        (language.readingAfter (earlier ++ later)).symbol.kind = kind ∧
        (language.recognize (earlier ++ later)).kind = kind) ∧
    (∀ earlier token later, language = .javascript ∨ language = .php →
      token.kind = .identifier → token.text = "function" ∨ language = .php ∧ token.text = "fn" →
      (language.readingAfter earlier).expects.done = false →
      (language.readingAfter earlier).symbol.kind = .unset ∨
        (language.readingAfter earlier).symbol.kind = .var →
      (language.readingAfter (earlier ++ token :: later)).symbol.kind = .function ∧
      (language.recognize (earlier ++ token :: later)).kind = .function) := by
  refine ⟨language.reading_kind_step, language.finish_kind_step, ?_, ?_⟩
  · intro kind final earlier later start
    exact final_kind_recognized final start later
  · intro earlier token later worded isWord spelled undone kind
    refine function_word_recognized worded undone ?_ kind later
    rcases worded with rfl | rfl
    · obtain text | ⟨php, _⟩ := spelled
      · simp only [Grammar.admits, isWord, text]
        decide
      · contradiction
    · obtain text | ⟨_, text⟩ := spelled
      · simp only [Grammar.admits, isWord, text]
        decide
      · simp only [Grammar.admits, isWord, text]
        decide

example :
    let tokens := [startingAt 0 .identifier "x", startingAt 1 .assign "=",
      startingAt 2 .openParen "(", startingAt 3 .identifier "a", startingAt 4 .closeParen ")"]
    (Language.javascript.readingAfter tokens).symbol.kind = .function ∧
      (Language.javascript.recognize tokens).kind = .var := by decide

end Language

end DocComment

import DocComment.Proofs.BalancedValue
import DocComment.Proofs.Phases
import DocComment.Proofs.TypeExpression

/-!
What the signatures of all languages have in common: entries with commas between them, default
values, return types, and the end of the declaration. A language adds only how it reads one entry.
-/

namespace DocComment

namespace Symbol

def withParams (symbol : Symbol) (params : List Param) : Symbol :=
  { symbol with params := symbol.params ++ params }

theorem with_params_nil (symbol : Symbol) : symbol.withParams [] = symbol := by
  simp [withParams]

theorem with_params_append (symbol : Symbol) (first rest : List Param) :
    symbol.withParams (first ++ rest) = (symbol.withParams first).withParams rest := by
  simp [withParams]

def withReturn (symbol : Symbol) : Option String → Symbol
  | none => symbol
  | some type => { symbol with returns := { present := type != "void", type := some type } }

theorem with_return_kind (symbol : Symbol) (target : Option String) :
    (symbol.withReturn target).kind = symbol.kind := by
  cases target <;> rfl

theorem with_return_type {symbol : Symbol} (untyped : symbol.returns.type = none)
    (target : Option String) : (symbol.withReturn target).returns.type = target := by
  cases target with
  | none => exact untyped
  | some type => rfl

theorem with_return_some (symbol : Symbol) (target : Option String) (type : String) :
    { symbol.withReturn target with returns := { present := type != "void", type := some type } } =
      symbol.withReturn (some type) := by
  cases target <;> rfl

end Symbol

namespace Language

open Token TypeText DefaultValue

section

-- A list of entries with commas between them. `Ready` says that a reading waits for an entry, and
-- `Entered` that a comma or the end of the list may follow.
variable {language : Language} {Entry : Type} (lexemes : Entry → List Lexeme)
  (params : Entry → List Symbol.Param) (Ready Entered : Symbol → Reading → Prop)
  (enters : ∀ {symbol reading} (entry : Entry), Ready symbol reading →
    Entered (symbol.withParams (params entry)) (language.read reading (lexemes entry)))
  (comma : ∀ {symbol reading}, Entered symbol reading →
    Ready symbol (language.stepUnlessDone reading (ofLexeme (.comma, ","))))
include enters comma

theorem read_further_entries (entries : List Entry) {symbol : Symbol} {reading : Reading}
    (entered : Entered symbol reading) :
    Entered (symbol.withParams (entries.flatMap params))
      (language.read reading ((entries.map lexemes).flatMap ((.comma, ",") :: ·))) := by
  induction entries generalizing symbol reading with
  | nil => simpa [Symbol.with_params_nil] using entered
  | cons entry entries induction =>
      have rest := induction (enters entry (comma entered))
      rw [← Symbol.with_params_append] at rest
      rw [List.map_cons, List.flatMap_cons, List.flatMap_cons, List.cons_append, read_cons,
        read_append]
      exact rest

/-- If each entry declares its parameters, the list declares all of them, in order. -/
theorem read_separated (ends : ∀ {symbol reading}, Ready symbol reading → Entered symbol reading)
    (entries : List Entry) {symbol : Symbol} {reading : Reading} (ready : Ready symbol reading) :
    Entered (symbol.withParams (entries.flatMap params))
      (language.read reading (separated (entries.map lexemes))) := by
  cases entries with
  | nil => simpa [separated, Symbol.with_params_nil] using ends ready
  | cons entry entries =>
      have rest := read_further_entries lexemes params Ready Entered enters comma entries
        (enters entry ready)
      rw [← Symbol.with_params_append] at rest
      rw [List.map_cons, separated, List.flatMap_cons, read_append]
      exact rest

end

structure CollectsValue (expects : Expectations) : Prop where
  inList : expects.inList = true
  unnamed : expects.name = false
  undone : expects.done = false
  expected : expects.value = true

theorem step_value (language : Language) {symbol : Symbol} {expects : Expectations}
    {param : Symbol.Param} {value : Option String} {nesting nesting' : Nat} {lexeme : Lexeme}
    (kind : symbol.kind = .function) (collects : CollectsValue expects) (previous : Option Kind)
    (after : nestingAfter? nesting lexeme.1 = some nesting') :
    language.stepUnlessDone
        ⟨symbol.pushParam { param with value }, { expects with nesting, previous }⟩
        (ofLexeme lexeme) =
      ⟨symbol.pushParam { param with value := some (append value lexeme.2) },
        { expects with nesting := nesting', previous := some lexeme.1 }⟩ := by
  have found : expected?
      ⟨symbol.pushParam { param with value }, { expects with nesting, previous }⟩
      (ofLexeme lexeme) =
        some ⟨symbol.pushParam { param with value := some (append value lexeme.2) },
          { expects with nesting := nesting', previous }⟩ := by
    simp [expected?, collect?, collects.expected, after, Symbol.pushParam, Symbol.modifyLastParam]
  rw [stepUnlessDone, if_neg (by simp [collects.undone]),
    language.step_in_list _ _ kind collects.inList collects.unnamed,
    language.parameter_rule_value collects.inList found]
  rfl

/-- Where a value is expected, all of it goes to the last parameter. -/
theorem read_default (language : Language) {symbol : Symbol} {expects : Expectations}
    (kind : symbol.kind = .function) (collects : CollectsValue expects) {param : Symbol.Param}
    (unset : param.value = none) (value : Value) :
    language.read ⟨symbol.pushParam param, { expects with nesting := 0 }⟩ value.lexemes =
      ⟨symbol.pushParam { param with value := value.text },
        { expects with nesting := 0, previous := lastKind expects.previous value.lexemes }⟩ := by
  -- The parameter is written with its value as a hole, for the induction to fill.
  have started : symbol.pushParam param = symbol.pushParam { param with value := none } := by
    rw [← unset]
  rw [started]
  exact read_value
    (fun value nesting previous =>
      ⟨symbol.pushParam { param with value }, { expects with nesting, previous }⟩)
    (fun previous after => language.step_value kind collects previous after)
    value expects.previous

/-- Past a list that no arrow has to confirm. -/
structure PastList (expects : Expectations) : Prop where
  closed : expects.listClosed = true
  settled : expects.tentativeArrow = false
  undone : expects.done = false

theorem PastList.outside {expects : Expectations} (past : PastList expects) :
    expects.inList = false := by
  simp [Expectations.inList, past.closed]

section

variable (language : Language) (typed : language ≠ .scss) {symbol : Symbol}
  {expects : Expectations} (kind : symbol.kind = .function) (past : PastList expects)
include typed kind past

theorem step_return_type (returns : expects.returnType = true)
    (untyped : symbol.returns.type = none) {target : Option String} {depth depth' : Nat}
    {lexeme : Lexeme} {type : String} (previous : Option Kind)
    (extended : extend? target depth (ofLexeme lexeme) = some (type, depth')) :
    language.stepUnlessDone
        ⟨symbol.withReturn target, { expects with genericDepth := depth, previous }⟩
        (ofLexeme lexeme) =
      ⟨symbol.withReturn (some type),
        { expects with genericDepth := depth', previous := some lexeme.1 }⟩ := by
  have kindBefore := (symbol.with_return_kind target).trans kind
  have found : extendReturn?
      ⟨symbol.withReturn target, { expects with genericDepth := depth, previous }⟩
      (ofLexeme lexeme) =
        some ⟨symbol.withReturn (some type),
          { expects with genericDepth := depth', previous }⟩ := by
    simp [extendReturn?, Symbol.with_return_type untyped, extended, Symbol.with_return_some]
  have rule := language.function_rule_return typed kindBefore past.closed returns found
  rw [stepUnlessDone, if_neg (by simp [past.undone]),
    language.step_past_list _ _ kindBefore (by rw [rule]; exact kind)
      (by rw [rule]; exact past.outside), rule]
  rfl

/-- Where a return type is expected, all of a type goes to it. -/
theorem read_return_type (returns : expects.returnType = true)
    (untyped : symbol.returns.type = none) {target : Option String}
    (ready : isOpen (target.getD "") = true) {dialect : Dialect}
    (plain : dialect.declarators = false) (type : Expr dialect) :
    ∃ previous,
      language.read ⟨symbol.withReturn target, { expects with genericDepth := 0 }⟩ type.lexemes =
        ⟨symbol.withReturn (some (target.getD "" ++ type.text)),
          { expects with genericDepth := 0, previous }⟩ := by
  have first : extend? target 0 (ofLexeme (word type.firstWord.text)) =
      some (target.getD "" ++ type.firstWord.text, 0) := by
    simp [extend?, addition?, ready]
  exact read_expr
    (fun type depth previous =>
      ⟨symbol.withReturn (some type), { expects with genericDepth := depth, previous }⟩)
    ready type (language.step_return_type typed kind past returns untyped expects.previous first)
    (fun previous taken =>
      language.step_return_type typed kind past returns untyped previous
        (extend_of_take plain taken))

/-- A brace or a semicolon ends the declaration, and nothing after it matters. -/
theorem read_body (rest : List Lexeme)
    (ends : ∀ lexeme ∈ rest.head?, lexeme.1 = .openBrace ∨ lexeme.1 = .semicolon) :
    (language.finish (language.read ⟨symbol, expects⟩ rest)).symbol = symbol := by
  -- At the end of the line only a list that waits for an arrow is given up.
  have finished : ∀ expects, expects.tentativeArrow = false →
      (language.finish ⟨symbol, expects⟩).symbol = symbol := by
    intro expects settled
    cases language <;> simp [finish, NameFirst.finish, settled]
  cases rest with
  | nil => exact finished expects past.settled
  | cons lexeme rest =>
      have sign : (ofLexeme lexeme).kind = .openBrace ∨ (ofLexeme lexeme).kind = .semicolon :=
        ends lexeme rfl
      have rule := language.function_rule_end typed ⟨symbol, expects⟩ kind past.closed past.settled
        sign
      rw [read_cons, stepUnlessDone, if_neg (by simp [past.undone]),
        language.step_past_list _ _ kind (by rw [rule]; exact kind)
          (by rw [rule]; exact past.outside), rule, read_of_done _ _ _ rfl]
      exact finished _ past.settled

/-- Tokens that declare a function, past its list, are recognized as that function, whatever its
body is. -/
theorem recognize_function {tokens rest : List Token}
    (reached : language.read {} (tokens.map lexeme) = ⟨symbol, expects⟩)
    (ends : ∀ token ∈ rest.head?, token.kind = .openBrace ∨ token.kind = .semicolon) :
    language.recognize (tokens ++ rest) = symbol := by
  rw [recognize_eq_read, List.map_append, read_append, reached]
  refine language.read_body typed kind past (rest.map lexeme) ?_
  cases rest with
  | nil => simp
  | cons token rest => simpa [lexeme] using ends

end

end Language

end DocComment

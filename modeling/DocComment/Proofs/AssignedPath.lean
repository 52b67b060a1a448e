import DocComment.Proofs.ClassName
import DocComment.Proofs.Destructuring

/-!
Functions assigned to a path of properties. A property may be any word, but the words of a path are
read like those of a declaration: one that could be a name becomes the candidate, a modifier or a
built-in type is passed over, and every other word of the language declares something or ends the
line. The main statement gives the name that a path leaves, and says when it is the last one.
-/

namespace DocComment.NameFirst

open Token Grammar

def canName (text : String) : Bool := grammar.isName (ofLexeme (word text))

/-- What the words of a path have declared so far. Behind a word for a variable or a function a name
is wanted, and only the first one counts. -/
inductive PathStage where
  | candidate
  | var (wanted : Bool)
  | function (wanted : Bool)

/-- The stage and the name after one more segment; nothing if the line can declare no function any
more. -/
def PathStage.after? (name segment : String) : PathStage → Option (PathStage × String)
  | .candidate =>
      if grammar.has segment .classWord || grammar.has segment .reserved then none
      else if grammar.has segment .variableWord then some (.var true, name)
      else if grammar.has segment .functionWord then some (.function true, name)
      else some (.candidate, if canName segment then segment else name)
  | .var wanted =>
      if grammar.has segment .functionWord then some (.function true, name)
      else if wanted && canName segment then some (.var false, segment)
      else some (.var wanted, name)
  | .function wanted =>
      if wanted && canName segment then some (.function false, segment)
      else some (.function wanted, name)

def pathName? : PathStage → String → List String → Option String
  | _, name, [] => some name
  | stage, name, segment :: rest =>
      match stage.after? name segment with
      | none => none
      | some (later, renamed) => pathName? later renamed rest

theorem path_name_cons {stage later : PathStage} {name renamed segment : String}
    (after : stage.after? name segment = some (later, renamed)) (rest : List String) :
    pathName? stage name (segment :: rest) = pathName? later renamed rest := by
  rw [pathName?, after]

theorem path_name_cons_none {stage : PathStage} {name segment : String}
    (after : stage.after? name segment = none) (rest : List String) :
    pathName? stage name (segment :: rest) = none := by
  rw [pathName?, after]

/-- The word ends the path or declares something itself. -/
def interrupts (segment : String) : Bool :=
  grammar.has segment .classWord || grammar.has segment .reserved ||
    grammar.has segment .variableWord || grammar.has segment .functionWord

def behindFunction? : List String → Option (List String)
  | [] => none
  | segment :: rest =>
      if grammar.has segment .functionWord then some rest else behindFunction? rest

/-- The last segment could be a name. If a word ahead of it interrupts the path, the first such word
is one for a variable or a function, and the last segment is spelled like the first name behind it,
or behind the first word for a function from there on. -/
def namedByLast (middle : List String) (last : String) : Bool :=
  canName last &&
    match middle.dropWhile (fun segment => !interrupts segment) with
    | [] => true
    | keyword :: rest =>
        (grammar.has keyword .variableWord || grammar.has keyword .functionWord) &&
          ((behindFunction? (keyword :: rest)).getD rest ++ [last]).find? canName == some last

theorem not_has_of_can_name {text : String} (named : canName text = true) {property : Property}
    (other : property ≠ .identifier) : grammar.has text property = false :=
  not_admits_of_is_name named other

theorem has_only {text : String} {first second : Property} (has : grammar.has text first = true)
    (listed : first ≠ .identifier) (different : second ≠ first) (other : second ≠ .identifier) :
    grammar.has text second = false :=
  Language.has_unique .javascript has listed different other

/-- One more segment keeps the name or is the name itself. -/
theorem after_can_name {stage later : PathStage} {name renamed segment : String}
    (after : stage.after? name segment = some (later, renamed)) (named : canName name = true) :
    canName renamed = true := by
  unfold PathStage.after? at after
  cases stage with
  | candidate =>
      dsimp only at after
      split at after
      · contradiction
      split at after
      · obtain ⟨_, rfl⟩ := Prod.mk.inj (Option.some.inj after)
        exact named
      split at after
      · obtain ⟨_, rfl⟩ := Prod.mk.inj (Option.some.inj after)
        exact named
      · obtain ⟨_, rfl⟩ := Prod.mk.inj (Option.some.inj after)
        split <;> assumption
  | var wanted =>
      dsimp only at after
      split at after
      · obtain ⟨_, rfl⟩ := Prod.mk.inj (Option.some.inj after)
        exact named
      split at after
      · next taken =>
          obtain ⟨_, rfl⟩ := Prod.mk.inj (Option.some.inj after)
          exact (Bool.and_eq_true_iff.1 taken).2
      · obtain ⟨_, rfl⟩ := Prod.mk.inj (Option.some.inj after)
        exact named
  | function wanted =>
      dsimp only at after
      split at after
      · next taken =>
          obtain ⟨_, rfl⟩ := Prod.mk.inj (Option.some.inj after)
          exact (Bool.and_eq_true_iff.1 taken).2
      · obtain ⟨_, rfl⟩ := Prod.mk.inj (Option.some.inj after)
        exact named

/-- A path leaves nothing but a segment that could be a name. -/
theorem path_name_can_name (segments : List String) {stage : PathStage} {name left : String}
    (named : canName name = true) (found : pathName? stage name segments = some left) :
    canName left = true := by
  induction segments generalizing stage name with
  | nil =>
      obtain rfl := Option.some.inj found
      exact named
  | cons segment rest induction =>
      cases after : stage.after? name segment with
      | none =>
          rw [path_name_cons_none after] at found
          contradiction
      | some next =>
          obtain ⟨later, renamed⟩ := next
          rw [path_name_cons after] at found
          exact induction (after_can_name after named) found

theorem path_name_of_function (name : String) (segments : List String) :
    pathName? (.function false) name segments = some name := by
  induction segments with
  | nil => rfl
  | cons segment rest induction =>
      have after : PathStage.after? name segment (.function false) =
          some (.function false, name) := by
        simp [PathStage.after?]
      rw [path_name_cons after, induction]

section

variable {last : String} (named : canName last = true)
include named

theorem path_name_behind_function (name : String) (segments : List String) :
    pathName? (.function true) name (segments ++ [last]) = (segments ++ [last]).find? canName := by
  induction segments with
  | nil =>
      have after : PathStage.after? name last (.function true) = some (.function false, last) := by
        simp [PathStage.after?, named]
      rw [List.nil_append, path_name_cons after, List.find?_cons_of_pos named]
      rfl
  | cons segment rest induction =>
      rw [List.cons_append]
      cases first : canName segment with
      | true =>
          have after : PathStage.after? name segment (.function true) =
              some (.function false, segment) := by
            simp [PathStage.after?, first]
          rw [path_name_cons after, path_name_of_function, List.find?_cons_of_pos first]
      | false =>
          have after : PathStage.after? name segment (.function true) =
              some (.function true, name) := by
            simp [PathStage.after?, first]
          rw [path_name_cons after, induction, List.find?_cons_of_neg (by simp [first])]

/-- Behind a word for a variable the first name counts, unless a word for a function follows. -/
theorem path_name_behind_variable (wanted : Bool) (name : String) (segments : List String) :
    pathName? (.var wanted) name (segments ++ [last]) =
      (behindFunction? segments).elim
        (if wanted then (segments ++ [last]).find? canName else some name)
        (fun behind => (behind ++ [last]).find? canName) := by
  induction segments generalizing wanted name with
  | nil =>
      have notFunction : grammar.has last .functionWord = false :=
        not_has_of_can_name named (by decide)
      cases wanted with
      | true => simp [pathName?, PathStage.after?, behindFunction?, notFunction, named]
      | false => simp [pathName?, PathStage.after?, behindFunction?, notFunction]
  | cons segment rest induction =>
      rw [List.cons_append]
      by_cases isFunction : grammar.has segment .functionWord = true
      · have after : PathStage.after? name segment (.var wanted) =
            some (.function true, name) := by
          simp [PathStage.after?, isFunction]
        rw [path_name_cons after, path_name_behind_function named]
        simp [behindFunction?, isFunction]
      by_cases first : (wanted && canName segment) = true
      · have after : PathStage.after? name segment (.var wanted) =
            some (.var false, segment) := by
          simp [PathStage.after?, isFunction, first]
        rw [path_name_cons after, induction]
        rw [Bool.and_eq_true] at first
        simp [behindFunction?, isFunction, first, List.find?_cons_of_pos]
      · have after : PathStage.after? name segment (.var wanted) =
            some (.var wanted, name) := by
          simp [PathStage.after?, isFunction, first]
        rw [path_name_cons after, induction]
        cases wanted with
        | false => simp [behindFunction?, isFunction]
        | true =>
            rw [Bool.true_and] at first
            simp [behindFunction?, isFunction, first, List.find?_cons_of_neg]

end

/-- A path is named by its last segment under the stated condition and no other. The induction is on
the segments in between; up to the first word that interrupts, each only moves the candidate. -/
theorem path_name_last_iff {first : String} (candidate : canName first = true)
    (middle : List String) (last : String) :
    pathName? .candidate first (middle ++ [last]) = some last ↔ namedByLast middle last = true := by
  cases named : canName last with
  | false =>
      have unnamed : namedByLast middle last = false := by simp [namedByLast, named]
      rw [unnamed]
      refine ⟨fun found => ?_, fun impossible => by contradiction⟩
      have left := path_name_can_name _ candidate found
      rw [named] at left
      contradiction
  | true =>
      induction middle generalizing first with
      | nil =>
          have plain : ∀ {property : Property}, property ≠ .identifier →
              grammar.has last property = false := not_has_of_can_name named
          simp [pathName?, PathStage.after?, namedByLast, plain, named]
      | cons segment rest induction =>
          rw [List.cons_append]
          by_cases ends : (grammar.has segment .classWord || grammar.has segment .reserved) = true
          · -- Such a word is neither for a variable nor for a function.
            have undeclared : grammar.has segment .variableWord = false ∧
                grammar.has segment .functionWord = false := by
              rcases Bool.or_eq_true_iff.1 ends with isClass | reserved
              · exact ⟨has_only isClass (by decide) (by decide) (by decide),
                  has_only isClass (by decide) (by decide) (by decide)⟩
              · exact ⟨has_only reserved (by decide) (by decide) (by decide),
                  has_only reserved (by decide) (by decide) (by decide)⟩
            have interrupted : interrupts segment = true := by simp [interrupts, ends]
            have after : PathStage.after? first segment .candidate = none := by
              simp [PathStage.after?, ends]
            rw [path_name_cons_none after]
            simp [namedByLast, interrupted, undeclared]
          by_cases isVariable : grammar.has segment .variableWord = true
          · have notFunction : grammar.has segment .functionWord = false :=
              has_only isVariable (by decide) (by decide) (by decide)
            have interrupted : interrupts segment = true := by simp [interrupts, isVariable]
            have after : PathStage.after? first segment .candidate =
                some (.var true, first) := by
              simp [PathStage.after?, ends, isVariable]
            rw [path_name_cons after, path_name_behind_variable named]
            cases behind : behindFunction? rest <;>
              simp [namedByLast, named, interrupted, isVariable, behindFunction?, notFunction,
                behind]
          by_cases isFunction : grammar.has segment .functionWord = true
          · have interrupted : interrupts segment = true := by simp [interrupts, isFunction]
            have after : PathStage.after? first segment .candidate =
                some (.function true, first) := by
              simp [PathStage.after?, ends, isVariable, isFunction]
            rw [path_name_cons after, path_name_behind_function named]
            simp [namedByLast, named, interrupted, isFunction, behindFunction?]
          · have passed : interrupts segment = false := by
              simp [interrupts, ends, isVariable, isFunction]
            have moved : canName (if canName segment then segment else first) = true := by
              split <;> assumption
            have after : PathStage.after? first segment .candidate =
                some (.candidate, if canName segment then segment else first) := by
              simp [PathStage.after?, ends, isVariable, isFunction]
            rw [path_name_cons after, induction moved]
            simp [namedByLast, passed]

def PathStage.reading (name : String) (held : Option String) (previous : Option Kind) :
    PathStage → Reading
  | .candidate => candidateReading name held previous
  | .var wanted => varReading name wanted false previous
  | .function wanted => functionReading name wanted none previous

theorem step_path_dot (stage : PathStage) (name : String) (held : Option String)
    (previous : Option Kind) :
    Language.javascript.stepUnlessDone (stage.reading name held previous) (ofLexeme (.dot, ".")) =
      stage.reading name none (some .dot) := by
  cases stage with
  | candidate =>
      rw [PathStage.reading, step_candidate rfl rfl (by decide)]
      rfl
  | var wanted => cases wanted <;> rfl
  | function wanted => cases wanted <;> rfl

theorem step_candidate_segment {name segment : String} (previous : Option Kind)
    (goesOn : (grammar.has segment .classWord || grammar.has segment .reserved) = false)
    (notVariable : grammar.has segment .variableWord = false)
    (notFunction : grammar.has segment .functionWord = false) :
    ∃ held,
      Language.javascript.stepUnlessDone (candidateReading name none previous)
          (ofLexeme (word segment)) =
        candidateReading (if canName segment then segment else name) held (some .identifier) := by
  rw [Bool.or_eq_false_iff] at goesOn
  have admits : ∀ property, grammar.admits (ofLexeme (word segment)) property =
      grammar.has segment property := fun _ => rfl
  rw [step_candidate ((admits _).trans goesOn.1) ((admits _).trans notFunction) (by simp)]
  by_cases named : canName segment = true
  · have accepted : grammar.isName (ofLexeme (word segment)) = true := named
    refine ⟨none, ?_⟩
    simp [undeclared, candidateReading, admits, goesOn.2, notVariable, accepted, named,
      Language.past, Reading.named]
  · have refused : grammar.isName (ofLexeme (word segment)) = false := by
      simpa [canName] using named
    by_cases modifier : grammar.has segment .modifier = true
    · refine ⟨some segment, ?_⟩
      simp [undeclared, candidateReading, admits, goesOn.2, notVariable, refused, named, modifier,
        Language.past]
    · refine ⟨none, ?_⟩
      simp [undeclared, candidateReading, admits, goesOn.2, notVariable, refused, named, modifier,
        Language.past]

theorem step_variable_segment (wanted : Bool) (name : String) (previous : Option Kind)
    {segment : String} (notFunction : grammar.has segment .functionWord = false) :
    Language.javascript.stepUnlessDone (PathStage.reading name none previous (.var wanted))
        (ofLexeme (word segment)) =
      if wanted && canName segment then
        PathStage.reading segment none (some .identifier) (.var false)
      else PathStage.reading name none (some .identifier) (.var wanted) := by
  have admits : grammar.admits (ofLexeme (word segment)) .functionWord = false := notFunction
  have ruled : Language.javascript.stepUnlessDone
      (PathStage.reading name none previous (.var wanted)) (ofLexeme (word segment)) =
        Language.past (variableRule (PathStage.reading name none previous (.var wanted))
          (ofLexeme (word segment))) .identifier := by
    simp [Language.stepUnlessDone, Language.step, Language.classRule, PathStage.reading, varReading,
      Language.functionRule, function, admits, Language.parameterRule, parameters,
      Expectations.inList, Language.variableRule, Language.past]
  rw [ruled]
  cases wanted with
  | false =>
      simp [variableRule, PathStage.reading, varReading, declared, Language.past]
  | true =>
      by_cases named : canName segment = true
      · have accepted : grammar.isName (ofLexeme (word segment)) = true := named
        simp [variableRule, PathStage.reading, varReading, accepted, named, Reading.named, Language.past]
      · have refused : grammar.isName (ofLexeme (word segment)) = false := by
          simpa [canName] using named
        simp [variableRule, PathStage.reading, varReading, refused, named, Language.past]

theorem step_function_segment (wanted : Bool) (name : String) (previous : Option Kind)
    (segment : String) :
    Language.javascript.stepUnlessDone (functionReading name wanted none previous)
        (ofLexeme (word segment)) =
      if wanted && canName segment then functionReading segment false none (some .identifier)
      else functionReading name wanted none (some .identifier) := by
  by_cases named : (wanted && canName segment) = true
  · rw [if_pos named]
    rw [Bool.and_eq_true] at named
    obtain ⟨rfl, accepted⟩ := named
    exact step_function_name name none previous ⟨segment, accepted⟩
  · have rule : Language.javascript.functionRule (functionReading name wanted none previous)
        (ofLexeme (word segment)) = functionReading name wanted none previous := by
      simp only [canName, Bool.not_eq_true] at named
      simp [Language.functionRule, function, functionReading, introduced, named]
    have stepped := Language.step_past_list .javascript (functionReading name wanted none previous)
      (ofLexeme (word segment)) rfl (by rw [rule]; rfl) (by rw [rule]; rfl)
    rw [rule] at stepped
    rw [if_neg named]
    exact stepped

theorem eq_function_of_has {text : String} (has : grammar.has text .functionWord = true) :
    text = "function" := by
  simpa [grammar, Language.grammar, Grammar.has] using has

theorem step_segment {stage later : PathStage} {name renamed segment : String}
    (after : stage.after? name segment = some (later, renamed)) (previous : Option Kind) :
    ∃ held,
      Language.javascript.stepUnlessDone (stage.reading name none previous)
          (ofLexeme (word segment)) = later.reading renamed held (some .identifier) := by
  unfold PathStage.after? at after
  cases stage with
  | candidate =>
      dsimp only at after
      split at after
      · contradiction
      next goesOn =>
      split at after
      · next isVariable =>
          obtain ⟨rfl, rfl⟩ := Prod.mk.inj (Option.some.inj after)
          exact ⟨none, step_variable_word name previous ⟨segment, isVariable⟩⟩
      next notVariable =>
      split at after
      · next isFunction =>
          obtain ⟨rfl, rfl⟩ := Prod.mk.inj (Option.some.inj after)
          obtain rfl := eq_function_of_has isFunction
          exact ⟨none, step_candidate_function name none previous⟩
      next notFunction =>
      obtain ⟨rfl, rfl⟩ := Prod.mk.inj (Option.some.inj after)
      exact step_candidate_segment previous (Bool.eq_false_iff.2 goesOn)
        (Bool.eq_false_iff.2 notVariable) (Bool.eq_false_iff.2 notFunction)
  | var wanted =>
      dsimp only at after
      split at after
      · next isFunction =>
          obtain ⟨rfl, rfl⟩ := Prod.mk.inj (Option.some.inj after)
          obtain rfl := eq_function_of_has isFunction
          exact ⟨none, step_var_function name wanted false previous⟩
      next notFunction =>
      refine ⟨none, ?_⟩
      rw [step_variable_segment wanted name previous (Bool.eq_false_iff.2 notFunction)]
      split at after
      · next taken =>
          obtain ⟨rfl, rfl⟩ := Prod.mk.inj (Option.some.inj after)
          rw [if_pos taken]
      · next other =>
          obtain ⟨rfl, rfl⟩ := Prod.mk.inj (Option.some.inj after)
          rw [if_neg other]
  | function wanted =>
      dsimp only at after
      refine ⟨none, (step_function_segment wanted name previous segment).trans ?_⟩
      split at after
      · next taken =>
          obtain ⟨rfl, rfl⟩ := Prod.mk.inj (Option.some.inj after)
          rw [if_pos taken]
          rfl
      · next other =>
          obtain ⟨rfl, rfl⟩ := Prod.mk.inj (Option.some.inj after)
          rw [if_neg other]
          rfl

def Lost (reading : Reading) : Prop :=
  reading.symbol.kind = .classLike ∨
    reading.expects.done = true ∧ reading.symbol.kind = .unset

theorem Lost.read {reading : Reading} (lost : Lost reading) (lexemes : List Lexeme) :
    Lost (Language.javascript.read reading lexemes) := by
  induction lexemes generalizing reading with
  | nil => exact lost
  | cons lexeme lexemes induction =>
      rw [Language.read_cons]
      apply induction
      unfold Language.stepUnlessDone
      split
      · exact lost
      · next undone =>
          have isClass := lost.resolve_right fun ended => undone ended.1
          exact .inl ((Language.step_kind reading _ .javascript).class_stays isClass)

theorem Lost.finish {reading : Reading} (lost : Lost reading) :
    (Language.javascript.finish reading).symbol.kind ≠ .function := by
  simp only [Language.finish, NameFirst.finish]
  split
  · simp [abandonArrow, Symbol.toVariable]
  · rcases lost with isClass | ⟨_, unset⟩
    · simp [isClass]
    · simp [unset]

theorem step_ending_segment {stage : PathStage} {name segment : String}
    (after : stage.after? name segment = none) (previous : Option Kind) :
    Lost (Language.javascript.stepUnlessDone (stage.reading name none previous)
      (ofLexeme (word segment))) := by
  unfold PathStage.after? at after
  cases stage with
  | candidate =>
      dsimp only at after
      split at after
      · next ends =>
          by_cases isClass : grammar.has segment .classWord = true
          · obtain ⟨awaits, _⟩ := @Language.step_class_word .javascript
              (candidateReading name none previous) (ofLexeme (word segment)) rfl rfl rfl isClass
            exact .inl awaits.kind
          · have reserved : grammar.has segment .reserved = true := by simpa [isClass] using ends
            have admitted : grammar.admits (ofLexeme (word segment)) .reserved = true := reserved
            have notClass : grammar.admits (ofLexeme (word segment)) .classWord = false :=
              Bool.eq_false_iff.2 isClass
            have notFunction : grammar.admits (ofLexeme (word segment)) .functionWord = false :=
              Language.not_admits_other .javascript reserved (by decide) (by decide) (by decide)
            refine .inr ?_
            rw [PathStage.reading, step_candidate notClass notFunction (by simp)]
            simp [undeclared, candidateReading, admitted, Reading.finished, Language.past]
      split at after
      · contradiction
      split at after
      · contradiction
      · contradiction
  | var wanted =>
      dsimp only at after
      split at after
      · contradiction
      split at after <;> contradiction
  | function wanted =>
      dsimp only at after
      split at after <;> contradiction

def segmentLexemes (segments : List String) : List Lexeme :=
  segments.flatMap fun segment => [(.dot, "."), word segment]

theorem read_segment_lexemes (stage : PathStage) (name : String) (held : Option String)
    (previous : Option Kind) (segment : String) (rest : List String) :
    Language.javascript.read (stage.reading name held previous) (segmentLexemes (segment :: rest)) =
      Language.javascript.read (Language.javascript.stepUnlessDone
        (stage.reading name none (some .dot)) (ofLexeme (word segment))) (segmentLexemes rest) := by
  simp only [segmentLexemes, List.flatMap_cons, List.cons_append, List.nil_append,
    Language.read_cons, step_path_dot]

theorem read_named_path (segments : List String) {stage : PathStage} {name left : String}
    (found : pathName? stage name segments = some left) (held : Option String)
    (previous : Option Kind) :
    ∃ later held' previous',
      Language.javascript.read (stage.reading name held previous) (segmentLexemes segments) =
        PathStage.reading left held' previous' later := by
  induction segments generalizing stage name held previous with
  | nil =>
      obtain rfl := Option.some.inj found
      exact ⟨stage, held, previous, rfl⟩
  | cons segment rest induction =>
      cases after : stage.after? name segment with
      | none =>
          rw [path_name_cons_none after] at found
          contradiction
      | some next =>
          obtain ⟨later, renamed⟩ := next
          rw [path_name_cons after] at found
          obtain ⟨held', stepped⟩ := step_segment after (some .dot)
          rw [read_segment_lexemes, stepped]
          exact induction found held' (some .identifier)

theorem read_lost_path (segments : List String) {stage : PathStage} {name : String}
    (found : pathName? stage name segments = none) (held : Option String)
    (previous : Option Kind) :
    Lost (Language.javascript.read (stage.reading name held previous)
      (segmentLexemes segments)) := by
  induction segments generalizing stage name held previous with
  | nil => contradiction
  | cons segment rest induction =>
      rw [read_segment_lexemes]
      cases after : stage.after? name segment with
      | none => exact (step_ending_segment after (some .dot)).read _
      | some next =>
          obtain ⟨later, renamed⟩ := next
          rw [path_name_cons after] at found
          obtain ⟨held', stepped⟩ := step_segment after (some .dot)
          rw [stepped]
          exact induction found held' (some .identifier)

/-- Whatever the path has declared, the assigned function keeps the name that it left. -/
theorem read_path_function (stage : PathStage) {name : String} (named : canName name = true)
    (held : Option String) (previous : Option Kind) :
    ∃ wantsName,
      Language.javascript.read (stage.reading name held previous)
          [(.assign, "="), word "function"] =
        functionReading name wantsName none (some .identifier) := by
  have nonempty : name ≠ "" := Name.nonempty (by decide) (⟨name, named⟩ : grammar.Name)
  cases stage with
  | candidate =>
      have assigned : Language.javascript.stepUnlessDone (candidateReading name held previous)
          (ofLexeme (.assign, "=")) = varReading name false true (some .assign) := by
        rw [step_candidate rfl rfl (by decide)]
        simp [undeclared, candidateReading, varReading, nonempty, admits, Kind.isWord,
          Language.past]
      refine ⟨true, ?_⟩
      rw [PathStage.reading, Language.read_cons, assigned]
      exact step_var_function name false true (some .assign)
  | var wanted =>
      refine ⟨true, ?_⟩
      cases wanted with
      | true =>
          have waiting : Language.javascript.stepUnlessDone
              (PathStage.reading name held previous (.var true)) (ofLexeme (.assign, "=")) =
                PathStage.reading name none (some .assign) (.var true) := rfl
          rw [Language.read_cons, waiting]
          exact step_var_function name true false (some .assign)
      | false =>
          have assigned : Language.javascript.stepUnlessDone
              (PathStage.reading name held previous (.var false)) (ofLexeme (.assign, "=")) =
                varReading name false true (some .assign) := rfl
          rw [Language.read_cons, assigned]
          exact step_var_function name false true (some .assign)
  | function wanted =>
      refine ⟨wanted, ?_⟩
      have assigned : Language.javascript.stepUnlessDone
          (functionReading name wanted none previous) (ofLexeme (.assign, "=")) =
            functionReading name wanted none (some .assign) := by
        cases wanted <;> rfl
      have word := step_function_segment wanted name (some .assign) "function"
      have keyword : canName "function" = false := by decide
      rw [keyword, Bool.and_false, if_neg Bool.false_ne_true] at word
      rw [PathStage.reading, Language.read_cons, assigned]
      exact word

def assignedLexemes (first : grammar.Name) (segments : List String) (names : List grammar.Name) :
    List Lexeme :=
  first.lexeme :: segmentLexemes segments ++ [(.assign, "="), word "function"] ++
    (.openParen, "(") :: separated (names.map fun name => [name.lexeme]) ++ [(.closeParen, ")")]

def assignedFunction (name : String) (names : List grammar.Name) : Symbol where
  name
  kind := .function
  params := untyped (names.map (·.text))
  returns := { present := true }

theorem read_first_segment (first : grammar.Name) (lexemes : List Lexeme) :
    Language.javascript.read {} (first.lexeme :: lexemes) =
      Language.javascript.read (PathStage.reading first.text none (some .identifier) .candidate)
        lexemes := by
  have stepped := step_candidate_name "" none none first
  rw [Language.read_cons]
  exact congrArg (Language.javascript.read · lexemes) stepped

theorem recognize_named_path {first : grammar.Name} {segments : List String} {left : String}
    (found : pathName? .candidate first.text segments = some left) {names : List grammar.Name}
    {tokens rest : List Token} (spelled : tokens.map lexeme = assignedLexemes first segments names)
    (opens : ∀ token ∈ rest.head?, token.kind = .openBrace) :
    Language.javascript.recognize (tokens ++ rest) = assignedFunction left names := by
  obtain ⟨later, held, previous, path⟩ := read_named_path segments found none (some .identifier)
  obtain ⟨wantsName, word⟩ := read_path_function later
    (path_name_can_name segments first.accepted found) held previous
  have awaits : AwaitsEntry none (introduced left)
      (listReading none (introduced left) false false 0 0 (some .openParen)) :=
    ⟨rfl, _, rfl⟩
  have ends := awaits.list (names.map fun name => { name })
  have entries : (names.map fun name => ({ name } : Parameter)).map (·.lexemes) =
      names.map fun name => [name.lexeme] := by
    simp [Parameter.lexemes, Parameter.typeLexemes, Parameter.valueLexemes]
  have params : (names.map fun name => ({ name } : Parameter)).map (·.param) =
      untyped (names.map (·.text)) := by
    simp [untyped, Parameter.param]
  rw [entries, params] at ends
  have reached : Language.javascript.read {} (tokens.map lexeme) =
      closedReading none (assignedFunction left names) false (some .closeParen) := by
    rw [spelled, assignedLexemes, List.append_assoc, List.append_assoc, List.cons_append,
      read_first_segment, Language.read_append, path, Language.read_append, word,
      List.cons_append, Language.read_cons, step_open, Language.read_append]
    exact ends.close
  exact Language.recognize_function .javascript (by decide) rfl ⟨rfl, rfl, rfl⟩ reached
    (fun token first => .inl (opens token first))

theorem recognize_lost_path {first : grammar.Name} {segments : List String}
    (found : pathName? .candidate first.text segments = none) {names : List grammar.Name}
    {tokens rest : List Token}
    (spelled : tokens.map lexeme = assignedLexemes first segments names) :
    (Language.javascript.recognize (tokens ++ rest)).kind ≠ .function := by
  have lost := read_lost_path segments found none (some .identifier)
  rw [Language.recognize_eq_read, List.map_append, spelled, assignedLexemes, List.append_assoc,
    List.append_assoc, List.append_assoc, List.cons_append, read_first_segment,
    Language.read_append]
  exact (lost.read _).finish

/-- A function assigned to a path has exactly its parameters and the name that the path leaves. Where
the path leaves none, the line declares no function. The name is the last segment if and only if
that segment could itself be a name and no word ahead of it interrupts the path, or only one that a
name spelled alike follows. -/
theorem recognize_assigned_path_iff (first : grammar.Name) (middle : List String) (last : String)
    (names : List grammar.Name) (tokens rest : List Token)
    (spelled : tokens.map lexeme = assignedLexemes first (middle ++ [last]) names)
    (opens : ∀ token ∈ rest.head?, token.kind = .openBrace) :
    (∀ left, pathName? .candidate first.text (middle ++ [last]) = some left →
        Language.javascript.recognize (tokens ++ rest) = assignedFunction left names) ∧
      (pathName? .candidate first.text (middle ++ [last]) = none →
        (Language.javascript.recognize (tokens ++ rest)).kind ≠ .function) ∧
      (Language.javascript.recognize (tokens ++ rest) = assignedFunction last names ↔
        namedByLast middle last = true) := by
  refine ⟨fun left found => recognize_named_path found spelled opens,
    fun found => recognize_lost_path found spelled, ?_⟩
  rw [← path_name_last_iff first.accepted]
  refine ⟨fun recognized => ?_, fun found => recognize_named_path found spelled opens⟩
  cases found : pathName? .candidate first.text (middle ++ [last]) with
  | none =>
      have lost : (Language.javascript.recognize (tokens ++ rest)).kind ≠ .function :=
        recognize_lost_path found spelled
      rw [recognized] at lost
      exact absurd rfl lost
  | some left =>
      have named := recognize_named_path found spelled opens
      have same : left = last := congrArg Symbol.name (named.symm.trans recognized)
      rw [same]

/-- `registry.get.let.b.function.prototype.c = function (width, height)`, named by `prototype`. -/
def interruptedPath : List Lexeme :=
  assignedLexemes ⟨"registry", by decide⟩ (["get", "let", "b", "function", "prototype"] ++ ["c"])
    [⟨"width", by decide⟩, ⟨"height", by decide⟩]

theorem recognize_interrupted_path :
    (layOut 0 interruptedPath).map lexeme = interruptedPath ∧
      Language.javascript.recognize
          (layOut 0 interruptedPath ++ [ofLexeme (.openBrace, "\x7b")]) =
        { name := "prototype", kind := .function, params := untyped ["width", "height"],
          returns := { present := true } } ∧
      namedByLast ["get", "let", "b", "function", "prototype"] "c" = false :=
  ⟨map_lexeme_lay_out 0 _,
    (recognize_assigned_path_iff _ _ _ _ _ _ (map_lexeme_lay_out 0 _) (by simp)).1 "prototype"
      (by decide +kernel), by decide +kernel⟩

/-- A reserved word as the last property: the line declares nothing. -/
theorem recognize_reserved_property :
    Language.javascript.parse "cache.delete = function (key) \x7b" = .ok { name := "cache" } ∧
      ({ name := "cache" } : Symbol) ≠ assignedFunction "delete" [⟨"key", by decide⟩] := by
  refine ⟨by decide +kernel, by decide⟩

end DocComment.NameFirst

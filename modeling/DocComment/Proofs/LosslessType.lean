import DocComment.Proofs.Spacing
import DocComment.Proofs.TypeExpression
import Mathlib.Data.List.Chain

/-!
Types put together from tokens can be taken apart again. Whether a type takes a token is decided by
how its text ends, so the text says which tokens can become neighbours, and no two of those run
together when they are scanned. The main statement is that the text of a type scans to the tokens it
was put together from.
-/

namespace DocComment

namespace Token

def prolongs (sign : String) (c : Char) : Bool :=
  fixedSpellings.any fun entry => (sign.toList ++ [c]).isPrefixOf entry.1.toList

theorem prolongs_of_longer {entry : String × Kind} (member : entry ∈ fixedSpellings) {sign : String}
    {rest : List Char} (front : entry.1.toList <+: sign.toList ++ rest)
    (longer : sign.length < entry.1.length) : ∃ c ∈ rest.head?, prolongs sign c = true := by
  have sizes : sign.toList.length + 1 ≤ entry.1.toList.length := by
    rw [String.length_toList, String.length_toList]
    omega
  cases rest with
  | nil =>
      have bounded := front.length_le
      rw [List.append_nil] at bounded
      omega
  | cons c rest =>
      refine ⟨c, rfl, List.any_eq_true.2 ⟨entry, member, ?_⟩⟩
      rw [List.isPrefixOf_iff_prefix]
      have whole : sign.toList ++ [c] <+: sign.toList ++ c :: rest := ⟨rest, by simp⟩
      exact List.prefix_of_prefix_length_le whole front (by simpa using sizes)

/-- A sign is cut off as it is where nothing behind it prolongs it. -/
theorem sign_before {kind : Kind} {sign : String} (member : sign ∈ kind.signs)
    (noSlash : '/' ∉ sign.toList) {rest : List Char}
    (apart : ∀ c ∈ rest.head?, prolongs sign c = false) :
    lexeme? (sign.toList ++ rest) = some (kind, sign.toList.length) := by
  have fixed := fixed_of_mem_signs member
  have nonempty : sign.toList ≠ [] := by
    have each : ∀ entry ∈ fixedSpellings, entry.1.toList ≠ [] := by decide
    exact each _ fixed
  have noComment : comment? (sign.toList ++ rest) = none := by
    cases found : comment? (sign.toList ++ rest) with
    | none => rfl
    | some comment =>
        obtain ⟨c, cs, spelled⟩ := List.exists_cons_of_ne_nil nonempty
        have slash : c = '/' := by
          have start := (comment_start found).1
          rw [spelled] at start
          rcases start with line | block
          · simpa using congrArg List.head? line
          · simpa using congrArg List.head? block
        exact absurd (by simp [spelled, slash]) noSlash
  obtain ⟨other, count, munched, enough, same⟩ := fixed_longest fixed rest
  change sign.length ≤ count at enough
  have noLonger : ¬ sign.length < count := by
    intro longer
    obtain ⟨entry, found, pair⟩ := Option.map_eq_some_iff.1 munched
    obtain ⟨rfl, rfl⟩ := Prod.mk.inj pair
    have front := List.find?_some found
    obtain ⟨c, head, prolonged⟩ := prolongs_of_longer (List.mem_of_find?_eq_some found)
      (List.isPrefixOf_iff_prefix.1 front) longer
    rw [apart c head] at prolonged
    contradiction
  have exactly : sign.length = count := by omega
  rw [lexeme_fixed fixed, noComment, Option.none_or, munched, same exactly, String.length_toList,
    exactly]

theorem word_tail_stops {rest : List Char}
    (apart : ∀ c ∈ rest.head?, isWordChar c = false ∧ c ≠ '-') : wordTail rest = 0 := by
  cases rest with
  | nil => rfl
  | cons c rest =>
      obtain ⟨foreign, noHyphen⟩ := apart c rfl
      rw [wordTail.eq_3 c rest fun _ _ hyphen _ => noHyphen hyphen, foreign,
        if_neg Bool.false_ne_true]

/-- A word is cut off as it is in front of anything that neither goes on with it nor is a hyphen. -/
theorem word_before {text rest : List Char} (stands : Stands .identifier text)
    (apart : ∀ c ∈ rest.head?, isWordChar c = false ∧ c ≠ '-') :
    lexeme? (text ++ rest) = some (.identifier, text.length) := by
  rw [stands.word_append, word_tail_stops apart, Nat.add_zero]

/-- A token of a kind that is spelled by signs is one of them. -/
theorem Stands.sign {kind : Kind} {text : String} (stands : Stands kind text.toList)
    (signs : kind.signs ≠ []) : text ∈ kind.signs := by
  have described : (Pattern.anyOf kind.signs).Matches text.toList := by
    have fits := stands.described
    cases kind
    case whitespace | lineComment | blockComment | identifier | number | string | hash =>
      exact absurd rfl signs
    all_goals exact fits
  obtain ⟨spelling, member, same⟩ := Pattern.matches_any_of.1 described
  rw [String.toList_inj.1 same]
  exact member

theorem Stands.only_sign {kind : Kind} {text sign : String} (stands : Stands kind text.toList)
    (single : kind.signs = [sign]) : text = sign := by
  have listed := stands.sign (by simp [single])
  rwa [single, List.mem_singleton] at listed

theorem Stands.word_start {text : List Char} (stands : Stands .identifier text) :
    ∃ c cs, text = c :: cs ∧ isWordStart c = true := by
  obtain ⟨c, cs, rfl, _⟩ := stands.cons
  exact ⟨c, cs, rfl, (lexeme_identifier stands.alone).1⟩

theorem word_start_prolongs_none {c : Char} (start : isWordStart c = true) (sign : String) :
    prolongs sign c = false := by
  have each : ∀ entry ∈ fixedSpellings, entry.1.toList.all (fun d => !isWordStart d) = true := by
    decide
  rw [Bool.eq_false_iff]
  intro prolonged
  obtain ⟨entry, member, front⟩ := List.any_eq_true.1 prolonged
  have inside : c ∈ entry.1.toList :=
    (List.isPrefixOf_iff_prefix.1 front).subset (by simp)
  have foreign := List.all_eq_true.1 (each entry member) c inside
  rw [start] at foreign
  contradiction

end Token

namespace TypeText

open Token

/-- How a type ends behind a token. -/
inductive Ending where
  /-- It has to go on. -/
  | soft
  /-- It may go on. -/
  | firm
  /-- A bracket waits to be closed. -/
  | bracket
  /-- Nothing follows. -/
  | last
  deriving DecidableEq, Repr

def Ending.followers : Ending → List Kind
  | .soft => [.identifier, .greaterThan, .comma]
  | .firm => [.lessThan, .greaterThan, .comma, .openBracket, .pipe, .dot, .doubleColon, .ellipsis]
  | .bracket => [.closeBracket]
  | .last => []

def ending? : Kind → Option Ending
  | .question | .lessThan | .comma | .pipe | .dot | .doubleColon => some .soft
  | .identifier | .greaterThan | .closeBracket => some .firm
  | .openBracket => some .bracket
  | .ellipsis => some .last
  | _ => none

/-- In a type, a token of the second kind may stand right behind one of the first. -/
def Neighbours (kind next : Kind) : Prop := ∃ ending ∈ ending? kind, next ∈ ending.followers

instance (kind next : Kind) : Decidable (Neighbours kind next) :=
  decidable_of_iff ((ending? kind).any fun ending => ending.followers.contains next) (by
    cases found : ending? kind <;> simp [Neighbours, found])

theorem signs_apart : ∀ kind ∈ Kind.all, ∀ next ∈ Kind.all, Neighbours kind next →
    ∀ sign ∈ kind.signs, '/' ∉ sign.toList ∧ ∀ after ∈ next.signs,
      (after.toList.head?.any fun c => !prolongs sign c) = true := by
  decide +kernel

theorem signs_behind_word : ∀ next ∈ Kind.all, Neighbours .identifier next →
    next.signs ≠ [] ∧ ∀ after ∈ next.signs,
      (after.toList.head?.any fun c => !isWordChar c && c != '-') = true := by
  decide +kernel

theorem neighbours_spelled : ∀ kind ∈ Kind.all, ∀ next ∈ Kind.all, Neighbours kind next →
    (kind = .identifier ∨ kind.signs ≠ []) ∧ (next = .identifier ∨ next.signs ≠ []) := by
  decide +kernel

/-- A token of a type is cut off as it is in front of its neighbour. -/
theorem cut_before_neighbour {kind next : Kind} {text after : String}
    (stands : Stands kind text.toList) (follows : Stands next after.toList)
    (neighbours : Neighbours kind next) (rest : List Char) :
    lexeme? (text.toList ++ (after.toList ++ rest)) = some (kind, text.toList.length) := by
  obtain ⟨d, ds, spelled, _⟩ := follows.cons
  obtain ⟨first, second⟩ :=
    neighbours_spelled kind (Kind.mem_all kind) next (Kind.mem_all next) neighbours
  have heads : ∀ {c : Char}, c ∈ (after.toList ++ rest).head? → d = c := by
    intro c head
    simpa [spelled] using head
  rcases first with rfl | signs
  · obtain ⟨signs, each⟩ := signs_behind_word next (Kind.mem_all next) neighbours
    have apart := each after (follows.sign signs)
    refine word_before stands ?_
    intro c head
    obtain rfl := heads head
    simpa [spelled] using apart
  · have listed := stands.sign signs
    obtain ⟨noSlash, each⟩ :=
      signs_apart kind (Kind.mem_all kind) next (Kind.mem_all next) neighbours text listed
    refine sign_before listed noSlash ?_
    intro c head
    obtain rfl := heads head
    rcases second with rfl | signs'
    · obtain ⟨e, es, same, start⟩ := follows.word_start
      obtain rfl : d = e := (List.cons.inj (spelled.symm.trans same)).1
      exact word_start_prolongs_none start text
    · simpa [spelled] using each after (follows.sign signs')

theorem spelling_front {kind : Kind} {text : String} (stands : Stands kind text.toList)
    (lexemes : List Lexeme) :
    ∃ rest, (spelling ((kind, text) :: lexemes)).toList = text.toList ++ rest := by
  rw [spelling, String.toList_append]
  split
  · next comma =>
      subst comma
      exact ⟨' ' :: (spelling lexemes).toList, by simp [stands.only_sign rfl]⟩
  · exact ⟨_, rfl⟩

/-- Neighbours that are written close together are read back one by one. -/
theorem scans_spelling {lexemes : List Lexeme}
    (stand : ∀ lexeme ∈ lexemes, Stands lexeme.1 lexeme.2.toList)
    (chain : (lexemes.map (·.1)).IsChain Neighbours) :
    Scans (spelling lexemes).toList lexemes := by
  induction lexemes with
  | nil => exact Scans.nil
  | cons lexeme lexemes induction =>
      obtain ⟨kind, text⟩ := lexeme
      have first : Stands kind text.toList := stand (kind, text) (by simp)
      have others : Scans (spelling lexemes).toList lexemes :=
        induction (fun lexeme member => stand lexeme (by simp [member])) chain.tail
      rw [spelling, String.toList_append]
      by_cases comma : kind = .comma
      · -- A comma brings its space with it.
        subst comma
        obtain rfl : text = "," := first.only_sign rfl
        have stops : ∀ c ∈ (spelling lexemes).toList.head?, isSpace c = false := by
          cases lexemes with
          | nil => simp [spelling]
          | cons next lexemes =>
              have second : Stands next.1 next.2.toList := stand next (by simp)
              obtain ⟨rest, front⟩ := spelling_front second lexemes
              obtain ⟨d, ds, spelled, notSpace⟩ := second.cons
              simp [front, spelled, notSpace]
        have spaced : Scans ([' '] ++ (spelling lexemes).toList) lexemes :=
          others.blank (by simp; decide) stops
        have found : lexeme? (",".toList ++ ' ' :: (spelling lexemes).toList) =
            some (.comma, ",".toList.length) :=
          sign_before (by decide) (by decide) (by simp; decide)
        exact spaced.cons_lexeme found
      · rw [if_neg comma]
        have found : lexeme? (text.toList ++ (spelling lexemes).toList) =
            some (kind, text.toList.length) := by
          cases lexemes with
          | nil => simpa [spelling] using first.alone
          | cons next lexemes =>
              have second : Stands next.1 next.2.toList := stand next (by simp)
              obtain ⟨rest, front⟩ := spelling_front second lexemes
              have neighbours : Neighbours kind next.1 := by
                simp only [List.map_cons, List.isChain_cons_cons] at chain
                exact chain.1
              rw [front]
              exact cut_before_neighbour first second neighbours rest
        have scans := others.cons_lexeme found
        rwa [first.significant, if_neg Bool.false_ne_true, String.ofList_toList] at scans

/-- What a token that belongs to a type adds to its text, and how many angle brackets are open then. -/
inductive Adds (type : String) (depth : Nat) (token : Token) : String → Nat → Prop where
  | word (kind : token.kind = .identifier) (ready : isOpen type = true) :
      Adds type depth token token.text depth
  | mark (kind : token.kind = .question) (first : type = "") : Adds type depth token "?" depth
  | opening (kind : token.kind = .lessThan) (closed : isOpen type = false) :
      Adds type depth token "<" (depth + 1)
  | closing (kind : token.kind = .greaterThan) (inside : 0 < depth) :
      Adds type depth token ">" (depth - 1)
  | comma (kind : token.kind = .comma) (inside : 0 < depth) : Adds type depth token ", " depth
  | brackets (kind : token.kind = .openBracket) (closed : isOpen type = false) :
      Adds type depth token "[]" depth
  | bracket (kind : token.kind = .closeBracket) (array : Text.endsIn type "[]" = true) :
      Adds type depth token "" depth
  | pipe (kind : token.kind = .pipe) (closed : isOpen type = false) :
      Adds type depth token "|" depth
  | dot (kind : token.kind = .dot) (closed : isOpen type = false) : Adds type depth token "." depth
  | colons (kind : token.kind = .doubleColon) (closed : isOpen type = false) :
      Adds type depth token "::" depth
  | dots (kind : token.kind = .ellipsis) (closed : isOpen type = false) :
      Adds type depth token "..." depth

theorem adds_of_addition {type added : String} {depth depth' : Nat} {token : Token}
    (found : addition? type depth token = some (added, depth')) :
    Adds type depth token added depth' := by
  unfold addition? at found
  generalize kind : token.kind = sort at found
  cases sort with
  | identifier =>
      obtain ⟨ready, ⟨⟩⟩ := Option.ite_none_right_eq_some.1 found
      exact .word kind ready
  | question =>
      obtain ⟨first, ⟨⟩⟩ := Option.ite_none_right_eq_some.1 found
      exact .mark kind first
  | lessThan =>
      obtain ⟨closed, ⟨⟩⟩ := Option.ite_none_left_eq_some.1 found
      exact .opening kind (Bool.eq_false_iff.2 closed)
  | greaterThan =>
      obtain ⟨inside, ⟨⟩⟩ := Option.ite_none_right_eq_some.1 found
      exact .closing kind inside
  | comma =>
      obtain ⟨inside, ⟨⟩⟩ := Option.ite_none_right_eq_some.1 found
      exact .comma kind inside
  | openBracket =>
      obtain ⟨closed, ⟨⟩⟩ := Option.ite_none_left_eq_some.1 found
      exact .brackets kind (Bool.eq_false_iff.2 closed)
  | closeBracket =>
      obtain ⟨array, ⟨⟩⟩ := Option.ite_none_right_eq_some.1 found
      exact .bracket kind array
  | pipe =>
      obtain ⟨closed, ⟨⟩⟩ := Option.ite_none_left_eq_some.1 found
      exact .pipe kind (Bool.eq_false_iff.2 closed)
  | dot =>
      obtain ⟨closed, ⟨⟩⟩ := Option.ite_none_left_eq_some.1 found
      exact .dot kind (Bool.eq_false_iff.2 closed)
  | doubleColon =>
      obtain ⟨closed, ⟨⟩⟩ := Option.ite_none_left_eq_some.1 found
      exact .colons kind (Bool.eq_false_iff.2 closed)
  | ellipsis =>
      obtain ⟨closed, ⟨⟩⟩ := Option.ite_none_left_eq_some.1 found
      exact .dots kind (Bool.eq_false_iff.2 closed)
  | _ => contradiction

structure Composed where
  type : Option String := none
  depth : Nat := 0
  deriving DecidableEq, Repr

namespace Composed

def text (composed : Composed) : String := composed.type.getD ""

def offer (composed : Composed) (token : Token) : Bool × Composed :=
  match extend? composed.type composed.depth token with
  | some (type, depth) => (true, { type := some type, depth })
  | none => (false, composed)

def after (composed : Composed) (tokens : List Token) : Composed :=
  tokens.foldl (fun composed token => (composed.offer token).2) composed

/-- Each of the tokens is taken. -/
def TakesAll : Composed → List Token → Prop
  | _, [] => True
  | composed, token :: tokens =>
      (composed.offer token).1 = true ∧ TakesAll (composed.offer token).2 tokens

instance : ∀ (composed : Composed) (tokens : List Token), Decidable (composed.TakesAll tokens)
  | _, [] => inferInstanceAs (Decidable True)
  | composed, token :: tokens =>
      have := instDecidableTakesAll (composed.offer token).2 tokens
      inferInstanceAs (Decidable (_ ∧ _))

theorem offer_taken {composed : Composed} {token : Token} (taken : (composed.offer token).1 = true) :
    ∃ added depth, Adds composed.text composed.depth token added depth ∧
      (composed.offer token).2 = { type := some (composed.text ++ added), depth } := by
  unfold offer at taken ⊢
  cases found : extend? composed.type composed.depth token with
  | none => simp [found] at taken
  | some extension =>
      obtain ⟨⟨added, depth⟩, fits, rfl⟩ := Option.map_eq_some_iff.1 found
      exact ⟨added, depth, adds_of_addition fits, rfl⟩

theorem offer_refused {composed : Composed} {token : Token}
    (refused : (composed.offer token).1 = false) : (composed.offer token).2 = composed := by
  unfold offer at refused ⊢
  cases found : extend? composed.type composed.depth token with
  | none => rfl
  | some extension => simp [found] at refused

end Composed

def Ending.Holds (text : String) : Ending → Prop
  | .soft => text ≠ "" ∧ isOpen text = true
  | .firm | .bracket => EndsFirm text
  | .last => True

/-- The text of a type ends as its last token says; without a token it is empty. -/
def EndsBehind (text : String) : Option Kind → Prop
  | none => text = ""
  | some kind => ∃ ending, ending? kind = some ending ∧ ending.Holds text

/-- No token follows an ellipsis, and a closing bracket follows each opening one and nothing else. -/
def Linked (kind next : Kind) : Prop :=
  kind ≠ .ellipsis ∧ (kind = .openBracket ↔ next = .closeBracket)

instance (kind next : Kind) : Decidable (Linked kind next) :=
  inferInstanceAs (Decidable (_ ∧ _))

theorem bracket_of_ending {kind : Kind} (ends : ending? kind = some .bracket) :
    kind = .openBracket := by
  have each : ∀ kind ∈ Kind.all, ending? kind = some .bracket → kind = .openBracket := by decide
  exact each kind (Kind.mem_all kind) ends

theorem ellipsis_of_ending {kind : Kind} (ends : ending? kind = some .last) :
    kind = .ellipsis := by
  have each : ∀ kind ∈ Kind.all, ending? kind = some .last → kind = .ellipsis := by decide
  exact each kind (Kind.mem_all kind) ends

theorem ends_firm_of_closed {text : String} {last : Option Kind} (behind : EndsBehind text last)
    (further : last ≠ some .ellipsis) (closed : isOpen text = false) : EndsFirm text := by
  cases last with
  | none =>
      obtain rfl : text = "" := behind
      exact absurd closed (by decide)
  | some kind =>
      obtain ⟨ending, known, holds⟩ := behind
      cases ending with
      | soft =>
          rw [holds.2] at closed
          contradiction
      | firm => exact holds
      | bracket => exact holds
      | last => exact absurd (congrArg some (ellipsis_of_ending known)) further

theorem soft_append (type : String) {sign : String} {c : Char} (last : Text.lastChar? sign = some c)
    (soft : ['<', '|', ' ', '?', ':'].contains c = true) :
    Ending.soft.Holds (type ++ sign) := by
  refine ⟨?_, open_append_sign type last soft⟩
  intro empty
  rw [String.append_eq_empty_iff] at empty
  rw [empty.2] at last
  contradiction

def AnglesOpen (type : String) (depth : Nat) : Prop :=
  type.toList.count '<' = depth + type.toList.count '>'

/-- What an opening bracket adds ahead of the closing one. -/
def pending (last : Option Kind) : String := if last = some .openBracket then "]" else ""

namespace Adds

variable {type added : String} {depth depth' : Nat} {token : Token}

theorem ends_behind (adds : Adds type depth token added depth')
    (stands : Stands token.kind token.text.toList)
    (firm : isOpen type = false → EndsFirm type) :
    EndsBehind (type ++ added) (some token.kind) := by
  cases adds with
  | word kind ready =>
      rw [kind] at stands ⊢
      exact ⟨.firm, rfl, ends_firm_append type (ends_firm_of_reads_as_word stands.alone)⟩
  | mark kind first =>
      rw [kind]
      exact ⟨.soft, rfl, soft_append type (c := '?') (by decide) (by decide)⟩
  | opening kind closed =>
      rw [kind]
      exact ⟨.soft, rfl, soft_append type (c := '<') (by decide) (by decide)⟩
  | closing kind inside =>
      rw [kind]
      exact ⟨.firm, rfl, ends_firm_append type ⟨'>', by decide, by decide⟩⟩
  | comma kind inside =>
      rw [kind]
      exact ⟨.soft, rfl, soft_append type (c := ' ') (by decide) (by decide)⟩
  | brackets kind closed =>
      rw [kind]
      exact ⟨.bracket, rfl, ends_firm_append type ⟨']', by decide, by decide⟩⟩
  | bracket kind array =>
      rw [kind]
      obtain ⟨front, same⟩ := List.isSuffixOf_iff_suffix.1 array
      have last : Text.lastChar? (type ++ "") = some ']' := by
        simp [Text.lastChar?, ← same]
      exact ⟨.firm, rfl, ']', last, by decide⟩
  | pipe kind closed =>
      rw [kind]
      exact ⟨.soft, rfl, soft_append type (c := '|') (by decide) (by decide)⟩
  | dot kind closed =>
      rw [kind]
      exact ⟨.soft, rfl, by simp, open_append_dot (firm closed)⟩
  | colons kind closed =>
      rw [kind]
      exact ⟨.soft, rfl, soft_append type (c := ':') (by decide) (by decide)⟩
  | dots kind closed =>
      rw [kind]
      exact ⟨.last, rfl, trivial⟩

/-- A token that is taken may stand behind the last one. -/
theorem neighbours (adds : Adds type depth token added depth') {kind : Kind}
    (behind : EndsBehind type (some kind)) (linked : Linked kind token.kind) :
    Neighbours kind token.kind := by
  obtain ⟨ending, known, holds⟩ := behind
  refine ⟨ending, known, ?_⟩
  have apart : ending ≠ .bracket → token.kind ≠ .closeBracket := by
    intro other closes
    rw [linked.2.2 closes] at known
    exact other (Option.some.inj known).symm
  cases ending with
  | soft =>
      obtain ⟨nonempty, ready⟩ := holds
      cases adds with
      | word kind | closing kind | comma kind => rw [kind]; decide
      | mark kind first => exact absurd first nonempty
      | opening _ closed | brackets _ closed | pipe _ closed | dot _ closed | colons _ closed
      | dots _ closed =>
          rw [ready] at closed
          contradiction
      | bracket kind array => exact absurd kind (apart (by decide))
  | firm =>
      have closed := not_open_of_ends_firm holds
      cases adds with
      | word kind ready =>
          rw [ready] at closed
          contradiction
      | mark kind first =>
          rw [first] at closed
          exact absurd closed (by decide)
      | bracket kind array => exact absurd kind (apart (by decide))
      | opening kind | closing kind | comma kind | brackets kind | pipe kind | dot kind
      | colons kind | dots kind => rw [kind]; decide
  | bracket =>
      rw [linked.2.1 (bracket_of_ending known)]
      decide
  | last => exact absurd (ellipsis_of_ending known) linked.1

theorem significant (adds : Adds type depth token added depth') : token.kind.isTrivia = false := by
  cases adds with
  | _ kind => rw [kind]; rfl

theorem angles_open (adds : Adds type depth token added depth')
    (stands : Stands token.kind token.text.toList) (before : AnglesOpen type depth) :
    AnglesOpen (type ++ added) depth' := by
  simp only [AnglesOpen, String.toList_append, List.count_append] at before ⊢
  cases adds with
  | word kind ready =>
      rw [kind] at stands
      have noAngle : ∀ c ∈ ['<', '>'], c ∉ token.text.toList := fun c angle =>
        Pattern.not_mem_of_avoids angle (by decide) stands.described
      rw [List.count_eq_zero_of_not_mem (noAngle '<' (by decide)),
        List.count_eq_zero_of_not_mem (noAngle '>' (by decide))]
      exact before
  | opening kind closed => simp; omega
  | closing kind inside => simp; omega
  | _ => simpa using before

/-- A token adds how it is spelled, except that the first of two brackets adds both. -/
theorem spelled (adds : Adds type depth token added depth')
    (stands : Stands token.kind token.text.toList) {last : Option Kind}
    (linked : last = some .openBracket ↔ token.kind = .closeBracket) :
    pending last ++ added =
      (if token.kind = .comma then ", " else token.text) ++ pending (some token.kind) := by
  have text : ∀ {sign : String}, token.kind.signs = [sign] → token.text = sign :=
    fun single => stands.only_sign single
  cases adds with
  | word kind | comma kind => simp [pending, linked, kind]
  | mark kind | opening kind | closing kind | brackets kind | bracket kind | pipe kind | dot kind
  | colons kind | dots kind => simp [pending, linked, kind, text (by rw [kind]; rfl)]

end Adds

structure Stage (composed : Composed) (last : Option Kind) (spelled : String) : Prop where
  text : composed.text = spelled ++ pending last
  behind : EndsBehind composed.text last
  angles : AnglesOpen composed.text composed.depth

theorem Composed.TakesAll.significant {composed : Composed} {tokens : List Token}
    (taken : composed.TakesAll tokens) : ∀ token ∈ tokens, token.kind.isTrivia = false := by
  induction tokens generalizing composed with
  | nil => simp
  | cons token tokens induction =>
      intro other member
      rcases List.mem_cons.1 member with rfl | later
      · obtain ⟨added, depth, adds, _⟩ := Composed.offer_taken taken.1
        exact adds.significant
      · exact induction taken.2 other later

theorem chain_behind {relation : Kind → Kind → Prop} {last : Option Kind} {kind : Kind}
    {kinds : List Kind} :
    (last.toList ++ kind :: kinds).IsChain relation ↔
      (∀ before ∈ last, relation before kind) ∧ (kind :: kinds).IsChain relation := by
  cases last <;> simp

namespace Stage

variable {composed : Composed} {last : Option Kind} {spelled : String}

theorem start : Stage {} none "" := ⟨rfl, rfl, rfl⟩

theorem offer (stage : Stage composed last spelled) {token : Token}
    (taken : (composed.offer token).1 = true) (stands : Stands token.kind token.text.toList)
    (further : last ≠ some .ellipsis)
    (linked : last = some .openBracket ↔ token.kind = .closeBracket) :
    Stage (composed.offer token).2 (some token.kind)
        (spelled ++ if token.kind = .comma then ", " else token.text) ∧
      ∀ kind ∈ last, Neighbours kind token.kind := by
  obtain ⟨added, depth, adds, same⟩ := Composed.offer_taken taken
  rw [same]
  constructor
  · refine ⟨?_, ?_, ?_⟩
    · have spells := adds.spelled stands linked
      calc
        composed.text ++ added = spelled ++ (pending last ++ added) := by
          rw [stage.text, String.append_assoc]
        _ = _ := by rw [spells, String.append_assoc]
    · exact adds.ends_behind stands (ends_firm_of_closed stage.behind further)
    · exact adds.angles_open stands stage.angles
  · rintro kind rfl
    refine adds.neighbours stage.behind ⟨?_, ?_⟩
    · simpa using further
    · simpa using linked

theorem after (stage : Stage composed last spelled) {tokens : List Token}
    (taken : composed.TakesAll tokens)
    (stand : ∀ token ∈ tokens, Stands token.kind token.text.toList)
    (linked : (last.toList ++ tokens.map (·.kind)).IsChain Linked)
    (first : last = none → (tokens.map (·.kind)).head? ≠ some .closeBracket) :
    Stage (composed.after tokens) ((tokens.map (·.kind)).getLast?.or last)
        (spelled ++ spelling (tokens.map lexeme)) ∧
      (last.toList ++ tokens.map (·.kind)).IsChain Neighbours := by
  induction tokens generalizing composed last spelled with
  | nil =>
      refine ⟨?_, ?_⟩
      · simpa [spelling, Composed.after] using stage
      · cases last <;> simp
  | cons token tokens induction =>
      rw [List.map_cons, chain_behind] at linked
      have link : last ≠ some .ellipsis ∧
          (last = some .openBracket ↔ token.kind = .closeBracket) := by
        cases last with
        | none => simpa using first rfl
        | some kind => simpa [Linked] using linked.1
      obtain ⟨next, neighbours⟩ := stage.offer taken.1 (stand token (by simp)) link.1 link.2
      obtain ⟨final, chain⟩ := induction next taken.2
        (fun token member => stand token (by simp [member])) linked.2 (by simp)
      refine ⟨?_, ?_⟩
      · have kinds : ((token :: tokens).map (·.kind)).getLast?.or last =
            (tokens.map (·.kind)).getLast?.or (some token.kind) := by
          rw [List.map_cons, List.getLast?_cons, Option.some_or, Option.or_some]
        rw [kinds, List.map_cons, lexeme, spelling, ← String.append_assoc]
        exact final
      · rw [List.map_cons, chain_behind]
        exact ⟨neighbours, chain⟩

end Stage

/-- Every opening bracket has a closing one right behind it, every closing bracket an opening one
right ahead of it, and an ellipsis stands at the end if at all. -/
structure Regular (tokens : List Token) : Prop where
  linked : (tokens.map (·.kind)).IsChain Linked
  first : (tokens.map (·.kind)).head? ≠ some .closeBracket
  last : (tokens.map (·.kind)).getLast? ≠ some .openBracket

def Lexed (token : Token) : Prop := ∃ line tokens, scan line = .ok tokens ∧ token ∈ tokens

theorem Lexed.stands {token : Token} (lexed : Lexed token)
    (meaning : token.kind.isTrivia = false) : Stands token.kind token.text.toList := by
  obtain ⟨line, tokens, scanned, member⟩ := lexed
  exact (munches_of_scan scanned).stands (List.mem_filter.2 ⟨member, by simp [meaning]⟩)

/-- The text of a type is scanned as the tokens that were taken for it, whatever lines they come
from, and the angle brackets that are open are those it opens and does not close. A token that is
refused leaves the type as it was. -/
theorem composed_type_lossless (tokens : List Token) (lexed : ∀ token ∈ tokens, Lexed token)
    (taken : Composed.TakesAll {} tokens) (regular : Regular tokens) :
    (∃ again, scanSignificant (Composed.after {} tokens).text = .ok again ∧
        again.map lexeme = tokens.map lexeme) ∧
      ((Composed.after {} tokens).depth : Int) =
        (Composed.after {} tokens).text.toList.count '<' -
          (Composed.after {} tokens).text.toList.count '>' ∧
      ∀ (composed : Composed) (token : Token),
        (composed.offer token).1 = false → (composed.offer token).2 = composed := by
  have stand : ∀ token ∈ tokens, Stands token.kind token.text.toList :=
    fun token member => (lexed token member).stands (taken.significant token member)
  obtain ⟨stage, chain⟩ := Stage.start.after taken stand regular.linked fun _ => regular.first
  refine ⟨?_, ?_, fun _ _ => Composed.offer_refused⟩
  · have text : (Composed.after {} tokens).text = spelling (tokens.map lexeme) := by
      have nothing : pending ((tokens.map (·.kind)).getLast?.or none) = "" := by
        rw [Option.or_none]
        exact if_neg regular.last
      rw [stage.text, nothing, String.empty_append, String.append_empty]
    have scans : Scans (spelling (tokens.map lexeme)).toList (tokens.map lexeme) := by
      refine scans_spelling ?_ ?_
      · intro lexeme member
        obtain ⟨token, listed, rfl⟩ := List.mem_map.1 member
        exact stand token listed
      · rw [List.map_map]
        exact chain
    obtain ⟨again, scanned, same⟩ := scans 0
    refine ⟨significant again, ?_, same⟩
    rw [text, scanSignificant, scan, scanned]
    rfl
  · have angles := stage.angles
    rw [AnglesOpen] at angles
    omega

def nestedTokens : List Token :=
  layOut 0 [(.question, "?"), word "Map", (.lessThan, "<"), word "a-b", (.dot, "."), word "C",
    (.openBracket, "["), (.closeBracket, "]"), (.comma, ","), word "\\D", (.pipe, "|"), word "E",
    (.greaterThan, ">"), (.doubleColon, "::"), word "F", (.ellipsis, "...")]

theorem nested_type_lossless :
    scan "?Map<a-b.C[],\\D|E>::F..." = .ok nestedTokens ∧ Composed.TakesAll {} nestedTokens ∧
      Regular nestedTokens ∧
      ∃ again, scanSignificant "?Map<a-b.C[], \\D|E>::F..." = .ok again ∧
        again.map lexeme = nestedTokens.map lexeme := by
  have scanned : scan "?Map<a-b.C[],\\D|E>::F..." = .ok nestedTokens := by decide +kernel
  have taken : Composed.TakesAll {} nestedTokens := by decide +kernel
  have regular : Regular nestedTokens := ⟨by decide +kernel, by decide, by decide⟩
  have text : (Composed.after {} nestedTokens).text = "?Map<a-b.C[], \\D|E>::F..." := by
    decide +kernel
  obtain ⟨again, _⟩ :=
    composed_type_lossless nestedTokens (fun _ member => ⟨_, _, scanned, member⟩) taken regular
  rw [text] at again
  exact ⟨scanned, taken, regular, again⟩

end TypeText

end DocComment

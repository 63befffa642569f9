import TypedStyle.Proofs.Outcome
import TypedStyle.Proofs.Relocation
import TypedStyle.Proofs.Tiling

/-!
Layout plays no part. However the words of a source are spaced and commented, as long as something
stands between each two, they are found again, and the source compiles to the same text or has the
same faults.
-/

namespace TypedStyle

open Text
open scoped Computability

namespace Form

/-- A blank character, a closed comment, or a line comment with the end of its line. -/
def spacing : Language Char :=
  Pattern.one isBlank + Form.blockComment.pattern + Form.lineComment.pattern * {['\n']}

def separator : Language Char := spacing * spacing∗

theorem not_goesOn_of_isBlank {char : Char} (blank : isBlank char = true) :
    goesOn char = false := by
  rw [Bool.eq_false_iff]
  intro goes
  rcases Bool.or_eq_true_iff.mp goes with named | percent
  · exact absurd blank (by simp [not_isBlank_of_isNameChar named])
  · rw [beq_iff_eq.mp percent] at blank
    exact absurd blank (by decide)

/-- No token goes on with what starts a separator. -/
theorem stops_separator {gap : List Char} (between : gap ∈ separator) (rest : List Char) :
    Cut.Stops goesOn (gap ++ rest) := by
  obtain ⟨piece, spaces, more, _, rfl⟩ := Language.mem_mul.mp between
  have slash : goesOn '/' = false := by decide
  rintro first here
  rcases spaces with (⟨char, blank, rfl⟩ | comment) | comment
  · cases here
    exact not_goesOn_of_isBlank blank
  · obtain ⟨_, rfl, _, _, rfl⟩ := Language.mem_mul.mp comment
    cases here
    exact slash
  · obtain ⟨_, line, _, _, rfl⟩ := Language.mem_mul.mp comment
    obtain ⟨_, rfl, _, _, rfl⟩ := Language.mem_mul.mp line
    cases here
    exact slash

end Form

namespace Lexeme

def words (lexemes : List Lexeme) : List (TokenKind × String) :=
  lexemes.filterMap fun lexeme =>
    lexeme.form.kind?.map fun kind => (kind, String.ofList lexeme.text)

theorem map_word_place (file : String) (offset : Nat) (lexemes : List Lexeme) :
    (place file offset lexemes).map Token.word = words lexemes ++ [(.eof, "EOF")] := by
  induction lexemes generalizing offset with
  | nil => rfl
  | cons lexeme later ih =>
      cases form : lexeme.form <;>
        simp [place, words, form, Form.kind?, ih, Token.word]

def Spells (text : List Char) (said : List (TokenKind × String)) : Prop :=
  words (split text).1 = said ∧ (split text).2 = []

theorem spells_nil : Spells [] [] := by
  have nothing : first? [] = none := by decide
  rw [Spells, split_of_none nothing]
  exact ⟨rfl, rfl⟩

variable {text front back gap rest : List Char} {said : List (TokenKind × String)}

theorem Spells.found {kind : TokenKind}
    (found : first? text = some (⟨.token kind, front⟩, back)) (spells : Spells back said) :
    Spells text ((kind, String.ofList front) :: said) := by
  obtain ⟨later, nothing⟩ := spells
  rw [Spells, split_of_some found]
  exact ⟨by simp [words, Form.kind?, ← later], nothing⟩

theorem Spells.token {kind : TokenKind} (written : front ∈ kind.pattern)
    (stops : Cut.Stops Form.goesOn back) (spells : Spells back said) :
    Spells (front ++ back) ((kind, String.ofList front) :: said) :=
  spells.found (first?_token written stops)

theorem spells_of_skipped {form : Form} (found : first? text = some (⟨form, front⟩, back))
    (unmade : form.kind? = none) : Spells text said ↔ Spells back said := by
  rw [Spells, split_of_some found, Spells]
  simp [words, unmade]

-- A blank lexeme takes all blanks in a row, so a single one is dropped by way of the whole run.
theorem spells_dropWhile_blank (text : List Char) :
    Spells (text.dropWhile isBlank) said ↔ Spells text said := by
  cases text with
  | nil => rfl
  | cons first rest =>
      by_cases blank : isBlank first = true
      · have fits : Form.blank.cut (first :: rest) =
            some (first :: rest.takeWhile isBlank, rest.dropWhile isBlank) := by
          simp [Form.cut, Cut.many1, Cut.andThen, Cut.one, Cut.run, blank]
        have found := first?_of_cut (by decide) fits (by simp [Form.earlier, Form.all])
        rw [List.dropWhile_cons_of_pos blank, spells_of_skipped found rfl]
      · rw [List.dropWhile_cons_of_neg blank]

theorem spells_blank {first : Char} (blank : isBlank first = true) :
    Spells (first :: rest) said ↔ Spells rest said := by
  rw [← spells_dropWhile_blank, List.dropWhile_cons_of_pos blank, spells_dropWhile_blank]

theorem spells_blockComment (comment : gap ∈ Form.blockComment.pattern) :
    Spells (gap ++ rest) said ↔ Spells rest said := by
  have fits := Form.takes_cut .blockComment gap rest comment trivial
  refine spells_of_skipped (first?_of_cut (by decide) fits ?_) rfl
  intro other before same
  -- Of the forms tried before, only a line comment starts with the same character.
  rcases Form.earlier_cases _ (by decide) other before same with
    ⟨rfl, _⟩ | ⟨_, absent | absent⟩ | ⟨_, absent⟩
  · obtain ⟨_, rfl, inner, _, rfl⟩ := Language.mem_mul.mp comment
    rfl
  all_goals cases absent

theorem spells_lineComment (comment : gap ∈ Form.lineComment.pattern) :
    Spells (gap ++ '\n' :: rest) said ↔ Spells rest said := by
  have ends : Cut.Stops (· != '\n') ('\n' :: rest) := by
    rintro _ ⟨⟩
    rfl
  have fits := Form.takes_cut .lineComment gap ('\n' :: rest) comment ends
  rw [spells_of_skipped (first?_of_cut (by decide) fits ?_) rfl, spells_blank (by decide)]
  intro other before same
  rcases Form.earlier_cases _ (by decide) other before same with
    ⟨_, absent⟩ | ⟨_, absent | absent⟩ | ⟨_, absent⟩ <;> cases absent

theorem spells_spacing (space : gap ∈ Form.spacing) :
    Spells (gap ++ rest) said ↔ Spells rest said := by
  rcases space with (⟨char, blank, rfl⟩ | comment) | comment
  · exact spells_blank blank
  · exact spells_blockComment comment
  · obtain ⟨line, inside, _, rfl, rfl⟩ := Language.mem_mul.mp comment
    rw [List.append_assoc]
    exact spells_lineComment inside

theorem spells_separator (between : gap ∈ Form.separator) :
    Spells (gap ++ rest) said ↔ Spells rest said := by
  obtain ⟨first, space, later, spaces, rfl⟩ := Language.mem_mul.mp between
  obtain ⟨pieces, rfl, every⟩ := Language.mem_kstar.mp spaces
  rw [List.append_assoc, spells_spacing space]
  clear spaces between
  induction pieces with
  | nil => rfl
  | cons piece later ih =>
      obtain ⟨here, there⟩ := List.forall_mem_cons.mp every
      rw [List.flatten_cons, List.append_assoc, spells_spacing here, ih there]

end Lexeme

/-- The texts of the tokens in a row, with a separator between each two. -/
inductive Spaced : List Token → List Char → Prop where
  | nothing : Spaced [] []
  | one (token : Token) : Spaced [token] token.text.toList
  | more {token next : Token} {later : List Token} {gap rest : List Char}
      (between : gap ∈ Form.separator) (spaced : Spaced (next :: later) rest) :
      Spaced (token :: next :: later) (token.text.toList ++ (gap ++ rest))

theorem Spaced.spells {words : List Token} {text : List Char} (spaced : Spaced words text)
    (written : ∀ word ∈ words, word.text.toList ∈ word.kind.pattern) :
    Lexeme.Spells text (words.map Token.word) := by
  induction spaced with
  | nothing => exact Lexeme.spells_nil
  | one word =>
      have here := written word List.mem_cons_self
      have token := Lexeme.spells_nil.token here (Cut.stops_nil _)
      rwa [List.append_nil, String.ofList_toList] at token
  | more between spaced ih =>
      obtain ⟨here, there⟩ := List.forall_mem_cons.mp written
      have later := (Lexeme.spells_separator between).mpr (ih there)
      have token := later.token here (Form.stops_separator between _)
      rwa [String.ofList_toList] at token

theorem Token.ofSource_of_spells {source : String} {said : List (TokenKind × String)}
    (spells : Lexeme.Spells source.toList said) (file : String) :
    ∃ tokens, Token.ofSource source file = .ok tokens ∧
      tokens.map Token.word = said ++ [(.eof, "EOF")] := by
  obtain ⟨rfl, nothing⟩ := spells
  unfold Token.ofSource
  cases parts : Lexeme.split source.toList with
  | mk lexemes left =>
      rw [parts] at nothing
      cases nothing
      exact ⟨_, rfl, Lexeme.map_word_place file 0 lexemes⟩

theorem faults_of_relabel {change : Position → Position} {here there : List Diagnostic}
    (same : here.map (Diagnostic.relabel (.moving change)) =
      there.map (Diagnostic.relabel (.moving change))) :
    here.map Diagnostic.fault = there.map Diagnostic.fault := by
  have faults (diagnostics : List Diagnostic) :
      (diagnostics.map (Diagnostic.relabel (.moving change))).map Diagnostic.fault =
        diagnostics.map Diagnostic.fault := by
    simp [Diagnostic.relabel, Fault.relabel_moving, Function.comp_def]
  rw [← faults here, same, faults]

theorem Compiled.alike_of_relabeled {change : Position → Position} {here there : Compiled String}
    (same : relabeled (Stop.map (List.map (Diagnostic.relabel (.moving change)))) id here =
      relabeled (Stop.map (List.map (Diagnostic.relabel (.moving change)))) id there) :
    (∃ css, here = .ok css ∧ there = .ok css) ∨
      (∃ faults others, here = .error (.fault faults) ∧ there = .error (.fault others) ∧
        faults.map Diagnostic.fault = others.map Diagnostic.fault) ∨
      ∃ cause, here = .error (.breach cause) ∧ there = .error (.breach cause) := by
  cases here with
  | ok css =>
      cases there with
      | error stop => cases same
      | ok text =>
          cases same
          exact Or.inl ⟨css, rfl, rfl⟩
  | error stop =>
      cases there with
      | ok text => cases same
      | error other =>
          cases stop with
          | fault faults =>
              cases other with
              | breach cause => cases same
              | fault others =>
                  have same := Stop.fault.inj (Except.error.inj same)
                  exact Or.inr (Or.inl ⟨faults, others, rfl, rfl, faults_of_relabel same⟩)
          | breach cause =>
              cases other with
              | fault others => cases same
              | breach other =>
                  cases same
                  exact Or.inr (Or.inr ⟨cause, rfl, rfl⟩)

/-- Spacing the words of a source in another way, with whatever comments, changes neither the words
that are found nor the text that they compile to. Only the positions of faults may differ. -/
theorem compile_of_spaced {source other file : String} {tokens : List Token}
    (split : Token.ofSource source file = .ok tokens)
    (spaced : Spaced (tokens.filter (·.kind ≠ .eof)) other.toList) (indent : Nat) :
    (∃ others, Token.ofSource other file = .ok others ∧
      others.map Token.word = tokens.map Token.word) ∧
    ((∃ css, compile source file indent = .ok css ∧ compile other file indent = .ok css) ∨
      (∃ here there, compile source file indent = .error (.fault here) ∧
        compile other file indent = .error (.fault there) ∧
        here.map Diagnostic.fault = there.map Diagnostic.fault) ∨
      widestField < indent ∧ ∃ cause, compile source file indent = .error (.breach cause) ∧
        compile other file indent = .error (.breach cause)) := by
  obtain ⟨words, last, rfl, ends, every, _⟩ := (Token.Tiles.of_source split).exists_words
  have final : last.word = (.eof, "EOF") := by
    rw [ends]
    rfl
  have inside : (words ++ [last]).filter (·.kind ≠ .eof) = words := by
    have closing : last.kind = .eof := congrArg Prod.fst final
    rw [List.filter_append, List.filter_eq_self.mpr fun word member => by simp [every word member]]
    simp [closing]
  rw [inside] at spaced
  have spells := spaced.spells fun word member => (every word member).2
  obtain ⟨others, there, same⟩ := Token.ofSource_of_spells spells file
  rw [← final, ← List.map_singleton, ← List.map_append] at same
  refine ⟨⟨others, there, same⟩, ?_⟩
  rcases Compiled.alike_of_relabeled (compile_of_words split there same.symm indent) with
    text | faults | ⟨cause, stopped, likewise⟩
  · exact Or.inl text
  · exact Or.inr (Or.inl faults)
  · refine Or.inr (Or.inr ⟨?_, cause, stopped, likewise⟩)
    by_contra narrow
    obtain ⟨ending, holds⟩ := Ending.exists_holds source file (Nat.le_of_not_lt narrow)
    obtain ⟨_, reported, _⟩ := holds.reports stopped
    cases reported

/-- A name that heads no rule, with all that may stand between two words. -/
theorem compile_of_spaced_unexpected :
    compile "a;" "s" 2 = .error (.fault [⟨.unexpectedToken ";", ⟨1, "s"⟩⟩]) ∧
    ∃ there, compile "a /**///b\n;" "s" 2 = .error (.fault there) ∧
      there.map Diagnostic.fault = [.unexpectedToken ";"] := by
  have name : Lexeme.first? "a;".toList = some (⟨.token .identifier, ['a']⟩, [';']) := by decide
  have sign : Lexeme.first? [';'] = some (⟨.token .semicolon, [';']⟩, []) := by decide
  have nothing : Lexeme.first? [] = none := by decide
  have split : Token.ofSource "a;" "s" = .ok
      [⟨.identifier, "a", .ofBytes 0 1 "s"⟩, ⟨.semicolon, ";", .ofBytes 1 2 "s"⟩,
       .eof (.ofBytes 2 "s")] := by
    rw [Token.ofSource, Lexeme.split_of_some name, Lexeme.split_of_some sign,
      Lexeme.split_of_none nothing]
    rfl
  have compiled : compile "a;" "s" 2 = .error (.fault [⟨.unexpectedToken ";", ⟨1, "s"⟩⟩]) := by
    rw [compile_eq, Sheet.ofSource, split]
    decide
  have blank : [' '] ∈ Form.spacing := Or.inl (Or.inl ⟨' ', by decide, rfl⟩)
  have block : "/**/".toList ∈ Form.spacing :=
    Or.inl (Or.inr (Language.mem_mul.mpr ⟨['/', '*'], rfl, ['*', '/'], ⟨[], rfl, by decide⟩, rfl⟩))
  have inner : ['b'] ∈ (Pattern.one (· != '\n'))∗ := Pattern.mem_kstar_one.mpr (by simp)
  have line : "//b\n".toList ∈ Form.spacing :=
    Or.inr (Language.mem_mul.mpr
      ⟨"//b".toList, Language.mem_mul.mpr ⟨['/', '/'], rfl, ['b'], inner, rfl⟩, ['\n'], rfl, rfl⟩)
  have gap : [' '] ++ ("/**/".toList ++ ("//b\n".toList ++ [])) ∈ Form.separator :=
    Language.append_mem_mul blank (Pattern.append_mem_kstar block
      (Pattern.append_mem_kstar line (Language.nil_mem_kstar _)))
  have spaced : Spaced [⟨.identifier, "a", .ofBytes 0 1 "s"⟩, ⟨.semicolon, ";", .ofBytes 1 2 "s"⟩]
      "a /**///b\n;".toList := .more gap (.one _)
  rcases (compile_of_spaced split spaced 2).2 with
    ⟨css, written, _⟩ | ⟨here, there, stopped, likewise, same⟩ | ⟨wide, _⟩
  · cases compiled.symm.trans written
  · cases compiled.symm.trans stopped
    exact ⟨compiled, there, likewise, same.symm⟩
  · exact absurd wide (by decide)

end TypedStyle

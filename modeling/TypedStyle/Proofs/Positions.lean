import TypedStyle.Proofs.CommandRun
import TypedStyle.Proofs.Completion
import TypedStyle.Proofs.Nesting
import TypedStyle.Proofs.Safety

/-!
Where diagnostics point. Splitting reports a character that starts no lexeme, reading reports a
token, and checking the first token of a node. None of them starts with a blank. So a diagnostic of
a source points at a character of it that is not blank, or at its end.
-/

namespace TypedStyle

open Text
open Grammar (language)

/-- The position is in the file, at a character of the text that is not blank or at the end. -/
structure Position.PointsInto (position : Position) (text : List Char) (file : String) : Prop where
  named : position.file = file
  stands : position.offset.toNat = byteLength text ∨
    ∃ front char back, text = front ++ char :: back ∧
      byteLength front = position.offset.toNat ∧ isBlank char = false

theorem Position.pointsInto_ofBytes {front back : List Char} {char : Char}
    (short : byteLength (front ++ char :: back) < 2 ^ 32) (inked : isBlank char = false)
    (file : String) : (ofBytes (byteLength front) file).PointsInto (front ++ char :: back) file where
  named := rfl
  stands := by
    rw [byteLength_append] at short
    exact Or.inr ⟨front, char, back, rfl, (ofBytes_offset (by omega) file).symm, inked⟩

def Position.Starts (position : Position) (tokens : List Token) : Prop :=
  ∃ token ∈ tokens, position = token.span.start

theorem Position.Starts.mono {position : Position} {phrase tokens : List Token}
    (starts : position.Starts phrase) (part : phrase <:+: tokens) : position.Starts tokens :=
  starts.imp fun _ found => ⟨part.subset found.1, found.2⟩

theorem Form.not_isBlank_of_pattern {kind : TokenKind} {first : Char} {rest : List Char}
    (written : first :: rest ∈ kind.pattern) : isBlank first = false := by
  have lead : (Form.token kind).lead? = some (Lead.of first) := lead?_of_pattern written
  rw [← Bool.not_eq_true]
  intro blank
  rw [Lead.of_isBlank blank] at lead
  cases kind <;> cases lead

theorem Lexeme.first?_left (text : List Char) : first? (split text).2 = none := by
  fun_induction split text with
  | case1 text nothing => exact nothing
  | case2 text lexeme back found _ later left same ih =>
      rw [same] at ih
      exact ih

theorem Lexeme.not_isBlank_of_none {char : Char} {rest : List Char}
    (nothing : first? (char :: rest) = none) : isBlank char = false := by
  rw [first?, List.findSome?_eq_none_iff] at nothing
  have unfit := Option.map_eq_none_iff.mp (nothing .blank List.mem_cons_self)
  rw [← Bool.not_eq_true]
  intro blank
  simp [Form.cut, Cut.many1, Cut.andThen, Cut.one, Cut.run, blank] at unfit

namespace Token

theorem pointsInto_of_unsplit {source file : String} (short : source.utf8ByteSize < 2 ^ 32)
    {diagnostic : Diagnostic} (unsplit : Token.ofSource source file = .error diagnostic) :
    diagnostic.position.PointsInto source.toList file := by
  have whole := Lexeme.split_append source.toList
  have nothing := Lexeme.first?_left source.toList
  unfold Token.ofSource at unsplit
  cases parts : Lexeme.split source.toList with
  | mk lexemes left =>
      rw [parts] at unsplit whole nothing
      cases left with
      | nil => cases unsplit
      | cons char back =>
          cases unsplit
          rw [← byteLength_toList, ← whole] at short
          rw [← whole]
          exact Position.pointsInto_ofBytes short (Lexeme.not_isBlank_of_none nothing) file

theorem Tiles.pointsInto {file : String} {front rest : List Char} {tokens : List Token}
    (tiles : Tiles file front rest tokens) (fits : byteLength (front ++ rest) < 2 ^ 32) :
    ∀ token ∈ tokens, token.span.start.PointsInto (front ++ rest) file := by
  induction tiles with
  | @last front gap skip =>
      rw [List.forall_mem_singleton]
      exact ⟨rfl, Or.inl (Position.ofBytes_offset fits file)⟩
  | @next front gap text rest kind later skip written tiles ih =>
      have whole : front ++ gap ++ text ++ rest = front ++ (gap ++ text ++ rest) := by simp
      rw [whole] at ih
      refine List.forall_mem_cons.mpr ⟨?_, ih fits⟩
      obtain ⟨first, more, rfl⟩ := List.exists_cons_of_ne_nil (Form.ne_nil_of_mem_pattern written)
      have split : front ++ (gap ++ first :: more ++ rest) =
          front ++ gap ++ first :: (more ++ rest) := by simp
      rw [split] at fits ⊢
      exact Position.pointsInto_ofBytes fits (Form.not_isBlank_of_pattern written) file

end Token

theorem Cursor.Passes.current_mem {before after : Cursor} {tokens : List Token}
    (passes : before.Passes tokens after) : after.current ∈ before.left := by
  rw [passes.left]
  exact List.mem_append_right tokens List.mem_cons_self

theorem Cursor.Passes.previous_mem {before after : Cursor} {tokens : List Token}
    (passes : before.Passes tokens after) (start : before.passed = []) :
    after.previous ∈ before.left := by
  cases tokens using List.reverseRecOn with
  | nil =>
      have same : after.previous = after.current := by simp [Cursor.previous, passes.passed, start]
      exact same ▸ passes.current_mem
  | append_singleton tokens token =>
      have same : after.previous = token := by simp [Cursor.previous, passes.passed]
      rw [same, passes.left]
      simp

/-- A fault of reading is about one of the tokens. -/
theorem Sheet.position_of_unread {tokens : List Token} {last : Token} {file : String}
    (ends : last.kind = .eof) (signed : ∀ token ∈ tokens, token.Signed) {diagnostic : Diagnostic}
    (unread : Sheet.ofTokens (tokens ++ [last]) file = .error (.fault diagnostic)) :
    diagnostic.position.Starts (tokens ++ [last]) := by
  obtain ⟨after, stopped⟩ := stopped_of_ofTokens unread
  have start := Cursor.passed_ofTokens (tokens ++ [last]) file
  have reached := Read.reaches_sheetWithin (Cursor.ofTokens (tokens ++ [last]) file).left
    (Cursor.ready_ofTokens file ends signed)
  unfold Read.Reaches at reached
  have stopped : Read.sheetWithin language (Cursor.ofTokens (tokens ++ [last]) file).left
      (Cursor.ofTokens (tokens ++ [last]) file) = .error (.fault diagnostic) after := stopped
  rw [stopped] at reached
  obtain ⟨front, passes, fault, _, same⟩ := reached
  rw [← Cursor.left_ofTokens tokens file ends]
  rcases same with same | ⟨_, same⟩
  · cases same
    exact ⟨after.current, passes.current_mem, rfl⟩
  · cases same
    exact ⟨after.previous, passes.previous_mem start, rfl⟩

theorem position_of_annotate {violation? : Option Fault} {span : Span} {diagnostic : Diagnostic}
    (attached : diagnostic ∈ (annotate violation? span none).toList) :
    diagnostic.position = span.start := by
  cases violation? with
  | none => cases attached
  | some fault =>
      cases List.mem_singleton.mp attached
      rfl

/-- What is attached to an expression is about the first token of one of its parts. -/
theorem Expr.SpannedBy.position_of_check {tree : Expr} {tokens : List Token}
    (spanned : tree.SpannedBy tokens) (inOrder : Token.InOrder tokens)
    {scopes : Scopes ValueType} {diagnostic : Diagnostic}
    (attached : diagnostic ∈ (tree.check scopes).diagnostics) :
    diagnostic.position.Starts tokens := by
  induction spanned with
  | literal written => cases attached
  | @reference token named => exact ⟨token, List.mem_cons_self, position_of_annotate attached⟩
  | @group opening closing inner tree opens inside closes ih =>
      have part : inner <:+: opening :: (inner ++ [closing]) := ⟨[opening], [closing], by simp⟩
      exact (ih (inOrder.of_infix part) attached).mono part
  | @operation left right sign operator lhs rhs first joins second ihFirst ihSecond =>
      have front : left <:+: left ++ sign :: right := (List.prefix_append _ _).isInfix
      have back : right <:+: left ++ sign :: right := ⟨left ++ [sign], [], by simp⟩
      simp only [Expr.check, Expr.diagnostics, List.mem_append] at attached
      rcases attached with (inLhs | inRhs) | here
      · exact (ihFirst (inOrder.of_infix front) inLhs).mono front
      · exact (ihSecond (inOrder.of_infix back) inRhs).mono back
      · have starts : lhs.span.start.Starts left := (first.delimited (inOrder.of_infix front)).starts
        exact position_of_annotate here ▸ starts.mono front

-- What is written with a name: its value, and what comes after the semicolon.
theorem Token.infix_value (name colon semicolon : Token) (value more : List Token) :
    value <:+: name :: colon :: (value ++ semicolon :: more) :=
  ⟨[name, colon], semicolon :: more, by simp⟩

theorem Token.infix_later (name colon semicolon : Token) (value more : List Token) :
    more <:+: name :: colon :: (value ++ semicolon :: more) :=
  ⟨name :: colon :: (value ++ [semicolon]), [], by simp⟩

theorem Body.SpannedBy.position_of_check {body : Body} {tokens : List Token}
    (spanned : body.SpannedBy tokens) (inOrder : Token.InOrder tokens)
    {scopes : Scopes ValueType} {diagnostic : Diagnostic}
    (attached : diagnostic ∈ (body.check scopes).diagnostics) :
    diagnostic.position.Starts tokens := by
  induction spanned generalizing scopes with
  | empty => cases attached
  | @declaration name colon semicolon value more property tree later named known divides expression
      ends rest ih =>
      have inside := Token.infix_value name colon semicolon value more
      have after := Token.infix_later name colon semicolon value more
      simp only [check_declaration, diagnostics, Declaration.diagnostics, List.mem_append]
        at attached
      rcases attached with (here | here) | there
      · exact (expression.position_of_check (inOrder.of_infix inside) here).mono inside
      · exact ⟨name, List.mem_cons_self, position_of_annotate here⟩
      · exact (ih (inOrder.of_infix after) there).mono after
  | @assignment name colon semicolon value more tree later named divides expression ends rest ih =>
      have inside := Token.infix_value name colon semicolon value more
      have after := Token.infix_later name colon semicolon value more
      rw [check_assignment, diagnostics, List.mem_append] at attached
      rcases attached with here | there
      · exact (expression.position_of_check (inOrder.of_infix inside) here).mono inside
      · exact (ih (inOrder.of_infix after) there).mono after
  | @rule first opening closing heads inside more selectors inner later selects opens body closes
      rest ihInner ihLater =>
      have within : inside <:+: first :: (heads ++ opening :: (inside ++ closing :: more)) :=
        ⟨first :: (heads ++ [opening]), closing :: more, by simp⟩
      have after : more <:+: first :: (heads ++ opening :: (inside ++ closing :: more)) :=
        ⟨first :: (heads ++ opening :: (inside ++ [closing])), [], by simp⟩
      rw [check_rule, diagnostics, List.mem_append] at attached
      rcases attached with here | there
      · exact (ihInner (inOrder.of_infix within) here).mono within
      · exact (ihLater (inOrder.of_infix after) there).mono after

theorem Css.blocks_ne_fault {body : Body} (evaluated : body.Evaluated) (indent : Nat)
    (paths : List (List Selector)) (diagnostic : Diagnostic) :
    blocks indent paths body ≠ .error (.fault diagnostic) := by
  intro stopped
  rcases Nat.lt_or_ge widestField indent with wide | narrow
  · by_cases unnested : body.nested = []
    · cases (blocks_of_nested unnested paths).symm.trans stopped
    · cases (blocks_of_wide wide evaluated unnested paths).symm.trans stopped
  · obtain ⟨written, done⟩ := blocks_of_evaluated narrow evaluated paths
    cases done.symm.trans stopped

/-- Whatever compiling reports, reading or checking has reported it. -/
theorem checkedSheet_of_compile {source file : String} {indent : Nat}
    {diagnostics : List Diagnostic}
    (rejected : compile source file indent = .error (.fault diagnostics)) :
    checkedSheet source file = .error (.fault diagnostics) := by
  cases checked : checkedSheet source file with
  | error stop =>
      cases (compile_of_rejected checked indent).symm.trans rejected
      rfl
  | ok sheet =>
      obtain ⟨sheet, read, clean, rfl⟩ := checkedSheet_eq_ok.mp checked
      obtain ⟨evaluated, folded, literals⟩ :=
        Sheet.evaluate_of_clean (Sheet.unmarked_of_source read) clean
      rw [compile_of_clean indent read clean folded, Sheet.css] at rejected
      cases blocks : Css.blocks indent [] evaluated.body with
      | ok written =>
          rw [blocks] at rejected
          cases rejected
      | error stop =>
          rw [blocks] at rejected
          cases stop with
          | fault diagnostic => exact (Css.blocks_ne_fault literals indent [] diagnostic blocks).elim
          | breach cause => cases rejected

theorem compile_pointsInto {source file : String} (short : source.utf8ByteSize < 2 ^ 32)
    {indent : Nat} {diagnostics : List Diagnostic}
    (rejected : compile source file indent = .error (.fault diagnostics)) :
    ∀ diagnostic ∈ diagnostics, diagnostic.position.PointsInto source.toList file := by
  have rejected := checkedSheet_of_compile rejected
  intro diagnostic member
  cases split : Token.ofSource source file with
  | error unsplit =>
      have unread : Sheet.ofSource source file = .error (.fault unsplit) := by
        rw [Sheet.ofSource, split]
      rw [checkedSheet, unread] at rejected
      cases rejected
      cases List.mem_singleton.mp member
      exact Token.pointsInto_of_unsplit short split
  | ok tokens =>
      have points := (Token.Tiles.of_source split).pointsInto (by simpa using short)
      obtain ⟨words, rfl, inOrder, _, plain⟩ := Token.ofSource_inOrder short split
      have signed : ∀ word ∈ words, word.Signed := fun word member => (plain word member).2
      rw [checkedSheet, Sheet.ofSource, split] at rejected
      dsimp only at rejected
      cases read : Sheet.ofTokens (words ++ [.eof (.ofBytes source.utf8ByteSize file)]) file with
      | error stop =>
          rw [read] at rejected
          cases stop with
          | breach cause => cases rejected
          | fault unread =>
              cases rejected
              cases List.mem_singleton.mp member
              obtain ⟨token, present, same⟩ := Sheet.position_of_unread rfl signed read
              exact same ▸ points token present
      | ok sheet =>
          rw [read] at rejected
          have rejected : (if sheet.check.isClean then .ok sheet.check
              else .error (.fault sheet.check.diagnostics) : Compiled Sheet) =
              .error (.fault diagnostics) := rejected
          split at rejected
          · cases rejected
          · cases rejected
            obtain ⟨⟨_, spanned⟩, _⟩ := Sheet.readFrom_of_ofTokens rfl
              (fun word member => (plain word member).1) signed read
            obtain ⟨token, present, same⟩ := spanned.position_of_check inOrder member
            exact same ▸ points token (List.mem_append_left _ present)

end TypedStyle

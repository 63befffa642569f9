import TypedStyle.Proofs.Locality
import TypedStyle.Proofs.Written
import TypedStyle.Scanner

/-!
What no source brings about. A scanner that moves past the lexemes of a source stands at character
boundaries only, and the cursor that reads its tokens stays among them and meets no selector without
a sign. So nothing is left to breach but the width of a field: compiling stops with a breach exactly
if the indentation is too wide and there is a declaration to indent.
-/

namespace TypedStyle

open Text
open Grammar (language)

namespace Lexeme

structure Leads (text : List Char) (passed : List Lexeme) (rest : List Char) : Prop where
  text_eq : text = passed.flatMap Lexeme.text ++ rest
  split_eq : split text = (passed ++ (split rest).1, (split rest).2)

variable {text rest back : List Char} {passed more : List Lexeme} {lexeme : Lexeme}

theorem Leads.refl (text : List Char) : Leads text [] text := ⟨rfl, rfl⟩

theorem Leads.trans (here : Leads text passed rest) (there : Leads rest more back) :
    Leads text (passed ++ more) back where
  text_eq := by rw [here.text_eq, there.text_eq, List.flatMap_append, List.append_assoc]
  split_eq := by rw [here.split_eq, there.split_eq, List.append_assoc]

theorem leads_first (found : first? text = some (lexeme, back)) : Leads text [lexeme] back where
  text_eq := by simpa using first?_append found
  split_eq := split_of_some found

theorem first?_of_split (split_eq : (split text).1 = lexeme :: more) :
    ∃ back, first? text = some (lexeme, back) ∧ (split back).1 = more := by
  cases found : first? text with
  | none =>
      rw [split_of_none found] at split_eq
      cases split_eq
  | some first =>
      rw [split_of_some found] at split_eq
      obtain ⟨rfl, rfl⟩ := List.cons.inj split_eq
      exact ⟨first.2, rfl, rfl⟩

theorem exists_leads (begins : passed <+: (split text).1) : ∃ rest, Leads text passed rest := by
  obtain ⟨more, begins⟩ := begins
  induction passed generalizing text with
  | nil => exact ⟨text, .refl text⟩
  | cons lexeme later ih =>
      obtain ⟨back, found, rest⟩ := first?_of_split begins.symm
      obtain ⟨rest, leads⟩ := ih rest.symm
      exact ⟨rest, (leads_first found).trans leads⟩

theorem Leads.fromByte? (leads : Leads text passed rest) :
    fromByte? (byteLength (passed.flatMap Lexeme.text)) text = some rest := by
  rw [leads.text_eq]
  exact fromByte?_append _ rest

end Lexeme

namespace Scanner

inductive Visits (source file : String) : List Lexeme → Scanner → Prop where
  | start : Visits source file [] (.start source file)
  | step {passed : List Lexeme} {scanner : Scanner} {rest back : List Char} {lexeme : Lexeme}
      (before : Visits source file passed scanner) (ahead : scanner.remainder = .ok rest)
      (found : Lexeme.first? rest = some (lexeme, back)) :
      Visits source file (passed ++ [lexeme])
        (scanner.advance (UInt64.ofNat (byteLength lexeme.text)))

def past (source file : String) (passed : List Lexeme) : Scanner :=
  ⟨source, file, UInt64.ofNat (byteLength (passed.flatMap Lexeme.text))⟩

variable {source file : String} {passed : List Lexeme}

theorem past_append (lexeme : Lexeme) : past source file (passed ++ [lexeme]) =
    (past source file passed).advance (UInt64.ofNat (byteLength lexeme.text)) := by
  simp [past, advance, UInt64.ofNat_add]

theorem offset_past (short : source.utf8ByteSize < UInt64.size) {rest : List Char}
    (leads : Lexeme.Leads source.toList passed rest) :
    (past source file passed).offset.toNat = byteLength (passed.flatMap Lexeme.text) := by
  have inside := congrArg byteLength leads.text_eq
  rw [byteLength_toList, byteLength_append] at inside
  exact UInt64.toNat_ofNat_of_lt' (by omega)

theorem remainder_past (short : source.utf8ByteSize < UInt64.size) {rest : List Char}
    (leads : Lexeme.Leads source.toList passed rest) :
    (past source file passed).remainder = .ok rest := by
  have found : fromByte? (past source file passed).offset.toNat
      (past source file passed).source.toList = some rest := by
    rw [offset_past short leads]
    exact leads.fromByte?
  simp only [remainder, found]

-- The offset is that of a boundary before every step, so the step finds the lexeme there.
theorem Visits.leads (short : source.utf8ByteSize < UInt64.size) {scanner : Scanner}
    (visits : Visits source file passed scanner) :
    scanner = past source file passed ∧ ∃ rest, Lexeme.Leads source.toList passed rest := by
  induction visits with
  | start => exact ⟨rfl, source.toList, .refl _⟩
  | step before ahead found ih =>
      obtain ⟨rfl, rest, leads⟩ := ih
      cases (remainder_past short leads).symm.trans ahead
      exact ⟨(past_append _).symm, _, leads.trans (Lexeme.leads_first found)⟩

theorem visits_past (short : source.utf8ByteSize < UInt64.size)
    (begins : passed <+: (Lexeme.split source.toList).1) :
    Visits source file passed (past source file passed) := by
  induction passed using List.reverseRecOn with
  | nil => exact .start
  | append_singleton front lexeme ih =>
      obtain ⟨more, begins⟩ := begins
      rw [List.append_assoc] at begins
      have before : front <+: (Lexeme.split source.toList).1 := ⟨_, begins⟩
      obtain ⟨rest, leads⟩ := Lexeme.exists_leads before
      rw [leads.split_eq] at begins
      obtain ⟨back, found, _⟩ := Lexeme.first?_of_split (List.append_cancel_left begins).symm
      rw [past_append]
      exact .step (ih before) (remainder_past short leads) found

end Scanner

/-- Every lexeme of the source starts, and the last one ends, at a character boundary. A scanner
comes to just these boundaries, and what is ahead of it there is defined; its offset is a 64-bit
word, so this is about the sources with that many bytes. -/
structure ScansOnBoundaries (source file : String) : Prop where
  cut : ∀ passed, passed <+: (Lexeme.split source.toList).1 →
    ∃ rest, Lexeme.Leads source.toList passed rest ∧
      fromByte? (byteLength (passed.flatMap Lexeme.text)) source.toList = some rest
  visits : source.utf8ByteSize < UInt64.size → ∀ passed,
    passed <+: (Lexeme.split source.toList).1 ↔ ∃ scanner, Scanner.Visits source file passed scanner
  remainder : source.utf8ByteSize < UInt64.size → ∀ passed scanner,
    Scanner.Visits source file passed scanner →
      ∃ rest, Lexeme.Leads source.toList passed rest ∧ scanner.remainder = .ok rest ∧
        scanner.offset.toNat = byteLength (passed.flatMap Lexeme.text)

theorem scansOnBoundaries (source file : String) : ScansOnBoundaries source file where
  cut passed begins := by
    obtain ⟨rest, leads⟩ := Lexeme.exists_leads begins
    exact ⟨rest, leads, leads.fromByte?⟩
  visits short passed := by
    constructor
    · intro begins
      exact ⟨_, Scanner.visits_past short begins⟩
    · rintro ⟨scanner, visits⟩
      obtain ⟨_, rest, leads⟩ := visits.leads short
      exact ⟨(Lexeme.split rest).1, by rw [leads.split_eq]⟩
  remainder short passed scanner visits := by
    obtain ⟨rfl, rest, leads⟩ := visits.leads short
    exact ⟨rest, leads, Scanner.remainder_past short leads, Scanner.offset_past short leads⟩

/-! ### Reading -/

namespace Cursor

inductive Visits (tokens : List Token) (file : String) : Cursor → Prop where
  | start : Visits tokens file (.ofTokens tokens file)
  | step {cursor : Cursor} (before : Visits tokens file cursor) : Visits tokens file cursor.advance

theorem Visits.of_passes {tokens front : List Token} {file : String} {before after : Cursor}
    (visits : Visits tokens file before) (passes : before.Passes front after) :
    Visits tokens file after := by
  induction front generalizing before with
  | nil =>
      obtain ⟨passed, current, ahead⟩ := before
      obtain ⟨left, rfl⟩ := passes
      cases left
      exact visits
  | cons token front ih =>
      obtain ⟨passed, current, ahead⟩ := before
      obtain ⟨left, behind⟩ := passes
      obtain ⟨rfl, rest⟩ := List.cons.inj left
      cases ahead with
      | nil => simp [Cursor.left] at rest
      | cons next ahead => exact ih visits.step ⟨rest, by simpa [advance] using behind⟩

-- The tokens passed and the tokens left are the tokens at the start, whatever was passed.
theorem Visits.whole {words : List Token} {last : Token} {file : String} {cursor : Cursor}
    (ends : last.kind = .eof) (visits : Visits (words ++ [last]) file cursor) :
    cursor.passed.reverse ++ cursor.left = words ++ [last] := by
  induction visits with
  | start => rw [passed_ofTokens, left_ofTokens words file ends, List.reverse_nil, List.nil_append]
  | @step cursor before ih =>
      obtain ⟨passed, current, ahead⟩ := cursor
      cases ahead with
      | nil => exact ih
      | cons next ahead => simpa [advance, left] using ih

/-- The place of the cursor is an index of the tokens: there stand the current token, the one
passed last and, unless there are no more, the one that the cursor moves to. -/
structure Indexes (tokens : List Token) (cursor : Cursor) : Prop where
  current : tokens[cursor.passed.length]? = some cursor.current
  previous : tokens[cursor.passed.length - 1]? = some cursor.previous
  advance : cursor.advance.passed.length =
    if cursor.passed.length + 1 < tokens.length then cursor.passed.length + 1
    else cursor.passed.length

theorem indexes_of_whole {tokens : List Token} {cursor : Cursor}
    (whole : cursor.passed.reverse ++ cursor.left = tokens) : Indexes tokens cursor := by
  obtain ⟨passed, current, ahead⟩ := cursor
  cases whole
  constructor
  · simp [left]
  · cases passed with
    | nil => rfl
    | cons token passed => simp [previous]
  · cases ahead with
    | nil => simp [Cursor.advance, left]
    | cons next ahead => simp [Cursor.advance, left]

end Cursor

/-- Wherever the cursor stands while the tokens of the source are read, it stands at an index of the
tokens, and a class or id there has a one-byte sign. Reading stops at such a place, too. -/
structure ReadsInBounds (file : String) (tokens : List Token) : Prop where
  indexes : ∀ cursor, Cursor.Visits tokens file cursor →
    cursor.Indexes tokens ∧ cursor.current.Signed
  final : Cursor.Visits tokens file
    (Read.final (Read.sheetBody language) (Cursor.ofTokens tokens file))

theorem readsInBounds {source file : String} {tokens : List Token}
    (split : Token.ofSource source file = .ok tokens) : ReadsInBounds file tokens := by
  obtain ⟨words, last, rfl, ends, fit, _⟩ := Token.ofSource_words split
  have ready := Cursor.ready_ofTokens file ends fun word member => (fit word member).2
  constructor
  · intro cursor visits
    have whole := visits.whole ends
    refine ⟨Cursor.indexes_of_whole whole, ?_⟩
    have present : cursor.current ∈ words ++ [last] := by simp [← whole, Cursor.left]
    rw [← Cursor.left_ofTokens words file ends] at present
    exact ready.signed _ present
  · have read : Read.Local (Read.sheetBody language) (Read.sheetBody language) 0 _ [] :=
      Read.local_sheetBody ready
    obtain ⟨passed, passes⟩ := read.moves
    exact Cursor.Visits.start.of_passes passes

namespace Css

variable {indent : Nat}

theorem settings_of_wide (wide : widestField < indent) {body : Body} (evaluated : body.Evaluated) :
    settings indent body = .ok [] ∧ body.declarations = body.nested ∨
      settings indent body = .error (.breach .fieldTooWide) := by
  induction body with
  | empty => exact Or.inl ⟨rfl, rfl⟩
  | declaration declared later ih =>
      obtain ⟨value, span, literal⟩ := evaluated declared List.mem_cons_self
      have here : setting indent declared = .error (.breach .fieldTooWide) := by
        simp only [setting, literal, if_neg (Nat.not_le_of_lt wide)]
      rw [settings, here]
      exact Or.inr rfl
  | assignment assigned later ih => exact ih evaluated
  | rule selectors inner span later ihInner ihLater =>
      rcases ihLater fun declared member => evaluated declared (List.mem_append_right _ member) with
        ⟨written, same⟩ | stopped
      · exact Or.inl ⟨written, by rw [Body.declarations, Body.nested, same]⟩
      · exact Or.inr stopped

theorem blocks_of_wide (wide : widestField < indent) {body : Body} (evaluated : body.Evaluated)
    (declares : body.nested ≠ []) (paths : List (List Selector)) :
    blocks indent paths body = .error (.breach .fieldTooWide) := by
  induction body generalizing paths with
  | empty => exact absurd rfl declares
  | declaration declared later ih =>
      exact ih (fun other member => evaluated other (List.mem_cons_of_mem _ member)) declares paths
  | assignment assigned later ih => exact ih evaluated declares paths
  | rule selectors inner span later ihInner ihLater =>
      have inside : inner.Evaluated :=
        fun declared member => evaluated declared (List.mem_append_left _ member)
      have after : later.Evaluated :=
        fun declared member => evaluated declared (List.mem_append_right _ member)
      by_cases undeclared : inner.declarations = []
      · rw [Body.nested, undeclared, List.nil_append] at declares
        rw [blocks, settings_of_declarations undeclared,
          blocks_of_nested (Body.nested_of_declarations undeclared), ihLater after declares]
        rfl
      · rcases settings_of_wide wide inside with ⟨settled, same⟩ | stopped
        · rw [same] at undeclared
          rw [blocks, settled, ihInner inside undeclared]
          rfl
        · rw [blocks, stopped]
          rfl

end Css

namespace Body

theorem declarations_bare (body : Body) :
    body.bare.declarations = body.declarations.map Declaration.bare := by
  induction body with
  | empty => rfl
  | declaration declared later ih => rw [bare, declarations, declarations, ih, List.map_cons]
  | assignment assigned later ih => exact ih
  | rule selectors inner span later ihInner ihLater =>
      rw [bare, declarations, declarations, ihInner, ihLater, List.map_append]

theorem nested_bare (body : Body) : body.bare.nested = body.nested.map Declaration.bare := by
  induction body with
  | empty => rfl
  | declaration declared later ih => exact ih
  | assignment assigned later ih => exact ih
  | rule selectors inner span later ihInner ihLater =>
      rw [bare, nested, nested, declarations_bare, ihLater, List.map_append]

end Body

theorem DerivesBody.declarations_eq_nested {level : Level} {tokens : List Token} {tree : Body}
    (derives : DerivesBody level tokens tree) (top : level = .sheet) :
    tree.declarations = tree.nested := by
  induction derives with
  | empty => rfl
  | declaration first rest ih => cases top
  | assignment first rest ih => exact ih top
  | rule first opens body closes rest ihInner ihLater =>
      rw [Body.declarations, Body.nested, ihLater top]

theorem Sheet.nested_of_source {source file : String} {sheet : Sheet}
    (read : Sheet.ofSource source file = .ok sheet) :
    sheet.body.nested = [] ↔ sheet.body.declarations = [] := by
  obtain ⟨words, derives, _⟩ := derives_of_source read
  have same := derives.declarations_eq_nested rfl
  rw [Body.declarations_bare, Body.nested_bare] at same
  constructor
  · intro empty
    rw [empty] at same
    exact List.map_eq_nil_iff.mp same
  · intro empty
    rw [empty] at same
    exact List.map_eq_nil_iff.mp same.symm

theorem Sheet.fault_of_source {source file : String} {stop : Stop Diagnostic}
    (unread : Sheet.ofSource source file = .error stop) :
    ∃ diagnostic, stop = .fault diagnostic := by
  unfold Sheet.ofSource at unread
  split at unread
  · rename_i split
    obtain ⟨words, last, rfl, ends, fit, _⟩ := Token.ofSource_words split
    rcases Sheet.ofTokens_cases file ends fun word member => (fit word member).2 with
      ⟨sheet, _, _, _, read, _⟩ | ⟨diagnostic, rejected, _⟩
    · cases read.symm.trans unread
    · cases rejected.symm.trans unread
      exact ⟨diagnostic, rfl⟩
  · cases unread
    exact ⟨_, rfl⟩

def Declares (source file : String) : Prop :=
  ∃ sheet, Sheet.ofSource source file = .ok sheet ∧ sheet.check.isClean = true ∧
    sheet.body.declarations ≠ []

theorem compile_of_wide {source file : String} {indent : Nat} (wide : widestField < indent) :
    (∃ cause, compile source file indent = .error (.breach cause)) ↔ Declares source file := by
  cases read : Sheet.ofSource source file with
  | error stop =>
      obtain ⟨diagnostic, rfl⟩ := Sheet.fault_of_source read
      simp [compile_of_unread indent read, Declares, read]
  | ok sheet =>
      by_cases clean : sheet.check.isClean = true
      · obtain ⟨evaluated, folded, literals⟩ :=
          Sheet.evaluate_of_clean (Sheet.unmarked_of_source read) clean
        have compiled := compile_of_clean indent read clean folded
        rw [Sheet.check_eq_self clean] at folded
        obtain ⟨after, body, done, rfl⟩ := Sheet.body_of_evaluate folded
        have declares : Declares source file ↔ body.nested ≠ [] := by
          rw [ne_eq, (Body.filled_of_folded done).nested_eq_nil, Sheet.nested_of_source read]
          simp [Declares, read, clean]
        rw [compiled, declares, Sheet.css]
        constructor
        · rintro ⟨cause, stopped⟩ unnested
          rw [Css.blocks_of_nested unnested] at stopped
          cases stopped
        · intro nested
          rw [Css.blocks_of_wide wide literals nested]
          exact ⟨.fieldTooWide, rfl⟩
      · simp [compile_of_unclean indent read clean, Declares, read, clean]

/-- Compiling is safe on every source. Scanning cuts it at character boundaries, and reading stays
within its tokens. Only an indentation that is too wide is a breach, of a source that declares
something. -/
theorem compile_safe (source file : String) (indent : Nat) :
    ScansOnBoundaries source file ∧
      (∀ tokens, Token.ofSource source file = .ok tokens → ReadsInBounds file tokens) ∧
      (indent ≤ widestField → ∀ cause, compile source file indent ≠ .error (.breach cause)) ∧
      (widestField < indent → ((∃ cause, compile source file indent = .error (.breach cause)) ↔
        Declares source file)) := by
  refine ⟨scansOnBoundaries source file, fun tokens => readsInBounds, ?_, compile_of_wide⟩
  intro narrow cause stopped
  obtain ⟨ending, holds⟩ := Ending.exists_holds source file narrow
  obtain ⟨_, reported, _⟩ := holds.reports stopped
  cases reported

/-- The widest indentation, and one column more. -/
theorem compile_safe_tooWide :
    (∀ cause, compile "a\x7bwidth:1px;\x7d" "a.css" 65535 ≠ .error (.breach cause)) ∧
      ∃ cause, compile "a\x7bwidth:1px;\x7d" "a.css" 65536 = .error (.breach cause) := by
  have declares : Declares "a\x7bwidth:1px;\x7d" "a.css" := by
    let declared : Declaration :=
      ⟨.width, .literal (.pixel 1) (.ofBytes 8 11 "a.css"), .ofBytes 2 12 "a.css", none⟩
    let sheet : Sheet :=
      ⟨.rule [.tag "a"] (.declaration declared .empty) (.ofBytes 0 13 "a.css") .empty,
        .ofBytes 0 13 "a.css"⟩
    have read : Sheet.ofSource "a\x7bwidth:1px;\x7d" "a.css" = .ok sheet := by
      rw [Sheet.ofSource, Token.ofSource, Lexeme.split_eq]
      decide +kernel
    exact ⟨sheet, read, by decide, List.cons_ne_nil _ _⟩
  obtain ⟨_, _, narrow, _⟩ := compile_safe "a\x7bwidth:1px;\x7d" "a.css" 65535
  obtain ⟨_, _, _, wide⟩ := compile_safe "a\x7bwidth:1px;\x7d" "a.css" 65536
  exact ⟨narrow (by decide), (wide (by decide)).mpr declares⟩

end TypedStyle

import Mathlib.Logic.ExistsUnique
import TypedStyle.Compile
import TypedStyle.Proofs.Agreement
import TypedStyle.Proofs.SheetGrammar
import TypedStyle.Proofs.Splitting

/-!
How compiling ends. Each stage leaves the next one nothing to stop at but the faults of its own:
tokens are closed and signed, a sheet just read carries no diagnostic, a sheet that checks can be
evaluated, and an evaluated sheet can be written.
-/

namespace TypedStyle

namespace Css

variable {indent : Nat}

def blockOf (paths : List (List Selector)) (own : List (Property × Literal)) : List Block :=
  if own.isEmpty then [] else [⟨paths, own⟩]

theorem mem_blockOf {paths : List (List Selector)} {own : List (Property × Literal)}
    {block : Block} (member : block ∈ blockOf paths own) : own ≠ [] ∧ block = ⟨paths, own⟩ := by
  cases own with
  | nil => cases member
  | cons first later => exact ⟨List.cons_ne_nil _ _, List.mem_singleton.mp member⟩

theorem blocks_rule_eq_ok {indent : Nat} {paths : List (List Selector)}
    {selectors : List Selector} {inner later : Body} {span : Span} {written : List Block} :
    blocks indent paths (.rule selectors inner span later) = .ok written ↔
      ∃ own nested after, settings indent inner = .ok own ∧
        blocks indent (extendPaths paths selectors) inner = .ok nested ∧
        blocks indent paths later = .ok after ∧
        written = blockOf (extendPaths paths selectors) own ++ nested ++ after := by
  constructor
  · intro done
    obtain ⟨own, here, done⟩ := ok_of_bind done
    obtain ⟨nested, inside, done⟩ := ok_of_bind done
    obtain ⟨after, there, done⟩ := ok_of_bind done
    exact ⟨own, nested, after, here, inside, there, (Except.ok.inj done).symm⟩
  · rintro ⟨own, nested, after, here, inside, there, rfl⟩
    rw [blocks, here, inside, there]
    rfl

theorem eq_of_setting {declared : Declaration} {own : Property × Literal}
    (done : setting indent declared = .ok own) :
    ∃ value span, declared.value = .literal value span ∧ own = (declared.property, value) := by
  unfold setting at done
  split at done
  · rename_i value span literal
    split at done
    · cases done
      exact ⟨value, span, literal, rfl⟩
    · cases done
  · cases done

theorem settings_of_declarations {body : Body} (undeclared : body.declarations = []) :
    settings indent body = .ok [] := by
  induction body with
  | empty => rfl
  | declaration declared later ih => cases undeclared
  | assignment assigned later ih => exact ih undeclared
  | rule selectors inner span later ihInner ihLater =>
      exact ihLater (List.append_eq_nil_iff.mp undeclared).2

theorem blocks_of_nested {body : Body} (unnested : body.nested = [])
    (paths : List (List Selector)) : blocks indent paths body = .ok [] := by
  induction body generalizing paths with
  | empty => rfl
  | declaration declared later ih => exact ih unnested paths
  | assignment assigned later ih => exact ih unnested paths
  | rule selectors inner span later ihInner ihLater =>
      obtain ⟨inside, after⟩ := List.append_eq_nil_iff.mp unnested
      have nested := ihInner (Body.nested_of_declarations inside) (extendPaths paths selectors)
      exact blocks_rule_eq_ok.mpr
        ⟨[], [], [], settings_of_declarations inside, nested, ihLater after paths, rfl⟩

theorem settings_of_evaluated (narrow : indent ≤ widestField) {body : Body}
    (evaluated : body.Evaluated) :
    ∃ written, settings indent body = .ok written := by
  induction body with
  | empty => exact ⟨[], rfl⟩
  | declaration declared later ih =>
      obtain ⟨value, span, literal⟩ := evaluated declared List.mem_cons_self
      obtain ⟨rest, there⟩ := ih fun declared member =>
        evaluated declared (List.mem_cons_of_mem _ member)
      have here : setting indent declared = .ok (declared.property, value) := by
        simp only [setting, literal, if_pos narrow]
      rw [settings, here, there]
      exact ⟨_, rfl⟩
  | assignment assigned later ih => exact ih evaluated
  | rule selectors inner span later ihInner ihLater =>
      exact ihLater fun declared member => evaluated declared (List.mem_append_right _ member)

theorem blocks_of_evaluated (narrow : indent ≤ widestField) {body : Body}
    (evaluated : body.Evaluated) (paths : List (List Selector)) :
    ∃ written, blocks indent paths body = .ok written := by
  induction body generalizing paths with
  | empty => exact ⟨[], rfl⟩
  | declaration declared later ih =>
      exact ih (fun declared member => evaluated declared (List.mem_cons_of_mem _ member)) paths
  | assignment assigned later ih => exact ih evaluated paths
  | rule selectors inner span later ihInner ihLater =>
      have inside : inner.Evaluated :=
        fun declared member => evaluated declared (List.mem_append_left _ member)
      obtain ⟨own, settled⟩ := settings_of_evaluated narrow inside
      obtain ⟨nested, within⟩ := ihInner inside (extendPaths paths selectors)
      obtain ⟨after, there⟩ := ihLater
        (fun declared member => evaluated declared (List.mem_append_right _ member)) paths
      rw [blocks, settled, within, there]
      exact ⟨_, rfl⟩

end Css

theorem Sheet.css_of_evaluated {indent : Nat} (narrow : indent ≤ widestField) {sheet : Sheet}
    (evaluated : sheet.body.Evaluated) :
    ∃ css, sheet.css indent = .ok css := by
  obtain ⟨blocks, written⟩ := Css.blocks_of_evaluated narrow evaluated []
  rw [Sheet.css, written]
  exact ⟨_, rfl⟩

theorem Sheet.check_eq_self {sheet : Sheet} (clean : sheet.check.isClean = true) :
    sheet.check = sheet := by
  rw [Sheet.check, Body.check_eq_self ((isClean_iff _).mp clean)]

theorem Sheet.evaluate_of_clean {sheet : Sheet} (unmarked : sheet.diagnostics = [])
    (clean : sheet.check.isClean = true) :
    ∃ evaluated, sheet.check.evaluate = .ok evaluated ∧ evaluated.body.Evaluated := by
  rw [check_eq_self clean, evaluate_eq]
  have clean : (sheet.body.check .initial).diagnostics = [] := (isClean_iff _).mp clean
  cases folded : sheet.body.folded .initial with
  | error stopped =>
      obtain ⟨first, rest, attached, _⟩ := Body.foretold_of_folded_error unmarked folded
      rw [Scopes.map_initial, clean] at attached
      cases attached
  | ok outcome =>
      obtain ⟨after, result⟩ := outcome
      exact ⟨{ sheet with body := result }, rfl, (Body.filled_of_folded folded).evaluated⟩

section

variable {source file : String} (indent : Nat) {sheet : Sheet}

theorem compile_of_unread {diagnostic : Diagnostic}
    (unread : Sheet.ofSource source file = .error (.fault diagnostic)) :
    compile source file indent = .error (.fault [diagnostic]) := by
  rw [compile, checkedSheet, unread]
  rfl

theorem compile_of_unclean (read : Sheet.ofSource source file = .ok sheet)
    (unclean : ¬ sheet.check.isClean = true) :
    compile source file indent = .error (.fault sheet.check.diagnostics) := by
  have rejected : checkedSheet source file = .error (.fault sheet.check.diagnostics) := by
    rw [checkedSheet, read]
    exact if_neg unclean
  rw [compile, rejected]
  rfl

theorem compile_of_clean (read : Sheet.ofSource source file = .ok sheet)
    (clean : sheet.check.isClean = true) {evaluated : Sheet}
    (folded : sheet.check.evaluate = .ok evaluated) :
    compile source file indent = Compiled.ofStage (evaluated.css indent) := by
  have accepted : checkedSheet source file = .ok sheet.check := by
    rw [checkedSheet, read]
    exact if_pos clean
  rw [compile, accepted]
  change (do
    let evaluated ← Compiled.ofStage (sheet.check.evaluate.mapError Stop.fault)
    Compiled.ofStage (evaluated.css indent)) = _
  rw [folded]
  rfl

end

inductive Ending where
  | written
  | unsplit
  | unread
  | unchecked
  deriving DecidableEq

def Ending.Holds (source file : String) (indent : Nat) : Ending → Prop
  | .written => ∃ tokens sheet evaluated css, Token.ofSource source file = .ok tokens ∧
      Sheet.ofTokens tokens file = .ok sheet ∧ sheet.check.evaluate = .ok evaluated ∧
      evaluated.css indent = .ok css ∧ compile source file indent = .ok css
  | .unsplit => ∃ diagnostic, Token.ofSource source file = .error diagnostic ∧
      diagnostic.fault.stage = .splitting ∧
      compile source file indent = .error (.fault [diagnostic])
  | .unread => ∃ tokens diagnostic, Token.ofSource source file = .ok tokens ∧
      Sheet.ofTokens tokens file = .error (.fault diagnostic) ∧
      diagnostic.fault.stage = .reading ∧
      compile source file indent = .error (.fault [diagnostic])
  | .unchecked => ∃ tokens sheet, Token.ofSource source file = .ok tokens ∧
      Sheet.ofTokens tokens file = .ok sheet ∧ sheet.check.diagnostics ≠ [] ∧
      (∀ diagnostic ∈ sheet.check.diagnostics, diagnostic.fault.stage = .checking) ∧
      compile source file indent = .error (.fault sheet.check.diagnostics)

namespace Ending

variable {source file : String} {indent : Nat}

theorem eq_of_holds {one other : Ending} (here : one.Holds source file indent)
    (there : other.Holds source file indent) : one = other := by
  cases one <;> cases other <;> grind [Ending.Holds]

/-- What reading leads to, once the source is split into tokens. -/
theorem exists_of_tokens (narrow : indent ≤ widestField) {tokens : List Token} {last : Token}
    (split : Token.ofSource source file = .ok (tokens ++ [last])) (ends : last.kind = .eof)
    (signed : ∀ token ∈ tokens, token.Signed) : ∃ ending, Holds source file indent ending := by
  have sameSource : Sheet.ofSource source file = Sheet.ofTokens (tokens ++ [last]) file := by
    rw [Sheet.ofSource, split]
  rcases Sheet.ofTokens_cases file ends signed with
    ⟨sheet, front, next, rest, read, _, _, whole, _⟩ | ⟨diagnostic, unread, stage⟩
  · have unmarked : sheet.diagnostics = [] := by
      rw [Sheet.diagnostics, ← Body.diagnostics_bare]
      exact whole.derives.unmarked
    by_cases clean : sheet.check.isClean = true
    · obtain ⟨evaluated, folded, literals⟩ := Sheet.evaluate_of_clean unmarked clean
      obtain ⟨css, written⟩ := Sheet.css_of_evaluated narrow literals
      have compiled := compile_of_clean indent (sameSource.trans read) clean folded
      rw [written] at compiled
      exact ⟨.written, _, sheet, evaluated, css, split, read, folded, written, compiled⟩
    · have attached : sheet.check.diagnostics ≠ [] := mt (Sheet.isClean_iff _).mpr clean
      refine ⟨.unchecked, _, sheet, split, read, attached, ?_,
        compile_of_unclean indent (sameSource.trans read) clean⟩
      intro diagnostic member
      rcases Body.mem_check_diagnostics member with before | stage
      · have before : diagnostic ∈ sheet.diagnostics := before
        rw [unmarked] at before
        cases before
      · exact stage
  · have rejected := compile_of_unread indent (sameSource.trans unread)
    exact ⟨.unread, _, diagnostic, split, unread, stage, rejected⟩

theorem exists_holds (source file : String) (narrow : indent ≤ widestField) :
    ∃ ending, Holds source file indent ending := by
  rcases Token.ofSource_cases source file with
    ⟨tokens, last, split, ends, fit⟩ | ⟨diagnostic, unsplit, stage⟩
  · exact exists_of_tokens narrow split ends fun token member => (fit token member).2
  · have unread : Sheet.ofSource source file = .error (.fault diagnostic) := by
      rw [Sheet.ofSource, unsplit]
    exact ⟨.unsplit, diagnostic, unsplit, stage, compile_of_unread indent unread⟩

/-- Whatever is reported, it is something, and no fault of evaluation. -/
theorem Holds.reports {ending : Ending} (holds : ending.Holds source file indent)
    {stop : Stop (List Diagnostic)} (stopped : compile source file indent = .error stop) :
    ∃ diagnostics, stop = .fault diagnostics ∧ diagnostics ≠ [] ∧
      ∀ diagnostic ∈ diagnostics, diagnostic.fault.stage ≠ .folding := by
  cases ending with
  | written =>
      obtain ⟨_, _, _, css, _, _, _, _, compiled⟩ := holds
      cases compiled.symm.trans stopped
  | unsplit =>
      obtain ⟨diagnostic, _, stage, compiled⟩ := holds
      cases compiled.symm.trans stopped
      exact ⟨[diagnostic], rfl, by simp, by simp [stage]⟩
  | unread =>
      obtain ⟨_, diagnostic, _, _, stage, compiled⟩ := holds
      cases compiled.symm.trans stopped
      exact ⟨[diagnostic], rfl, by simp, by simp [stage]⟩
  | unchecked =>
      obtain ⟨_, sheet, _, _, attached, stages, compiled⟩ := holds
      cases compiled.symm.trans stopped
      refine ⟨_, rfl, attached, ?_⟩
      intro diagnostic member
      rw [stages diagnostic member]
      decide

end Ending

/-- Compiling ends in exactly one way: with the text, or with what splitting, reading or checking
reports. It never stops without a report, and evaluation has nothing to report. -/
theorem compile_ends (source file : String) (indent : Nat) (narrow : indent ≤ widestField) :
    (∃! ending, Ending.Holds source file indent ending) ∧
      ∀ stop, compile source file indent = .error stop →
        ∃ diagnostics, stop = .fault diagnostics ∧ diagnostics ≠ [] ∧
          ∀ diagnostic ∈ diagnostics, diagnostic.fault.stage ≠ .folding := by
  obtain ⟨ending, holds⟩ := Ending.exists_holds source file narrow
  constructor
  · exact ⟨ending, holds, fun other there => Ending.eq_of_holds there holds⟩
  · intro stop stopped
    exact holds.reports stopped

theorem compile_ends_unsplit :
    65535 ≤ widestField ∧ ∀ ending, Ending.Holds "!" "a.css" 65535 ending ↔ ending = .unsplit := by
  have nothing : Lexeme.split "!".toList = ([], ['!']) := by
    rw [Lexeme.split]
    rfl
  have unsplit (tokens : List Token) : Token.ofSource "!" "a.css" ≠ .ok tokens := by
    rw [Token.ofSource, nothing]
    intro split
    cases split
  obtain ⟨ending, holds, unique⟩ := (compile_ends "!" "a.css" 65535 (by decide)).1
  have same : ending = .unsplit := by
    cases ending with
    | unsplit => rfl
    | written =>
        obtain ⟨tokens, _, _, _, split, _⟩ := holds
        exact absurd split (unsplit tokens)
    | unread | unchecked =>
        obtain ⟨tokens, _, split, _⟩ := holds
        exact absurd split (unsplit tokens)
  constructor
  · decide
  · intro other
    constructor
    · intro there
      rw [unique other there, same]
    · rintro rfl
      rw [← same]
      exact holds

end TypedStyle

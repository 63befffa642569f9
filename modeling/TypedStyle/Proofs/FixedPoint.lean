import TypedStyle.Proofs.CssWords
import TypedStyle.Proofs.SheetReading

/-!
CSS without nested rules is a fixed point of compiling. The text that such a sheet compiles to is
itself a source: it splits into the words of the blocks, these are read as one rule for each block,
and the rules are written as the blocks again.
-/

namespace TypedStyle

theorem Expr.relabel_eq_bare {expr : Expr} (unmarked : expr.diagnostics = []) :
    expr.relabel (.moving fun _ => .null) = expr.bare := by
  induction expr with
  | literal value span => rfl
  | reference name span diagnostic =>
      cases diagnostic with
      | none => rfl
      | some attached => cases unmarked
  | operation operator lhs rhs span diagnostic ihl ihr =>
      simp only [diagnostics, List.append_eq_nil_iff, Option.toList_eq_nil_iff] at unmarked
      obtain ⟨⟨left, right⟩, rfl⟩ := unmarked
      rw [relabel, ihl left, ihr right]
      rfl

theorem Body.relabel_eq_bare {body : Body} (unmarked : body.diagnostics = []) :
    body.relabel (.moving fun _ => .null) = body.bare := by
  induction body with
  | empty => rfl
  | declaration declared later ih =>
      simp only [diagnostics, Declaration.diagnostics, List.append_eq_nil_iff,
        Option.toList_eq_nil_iff] at unmarked
      obtain ⟨⟨value, attached⟩, rest⟩ := unmarked
      rw [relabel, ih rest, Declaration.relabel, Expr.relabel_eq_bare value, attached, bare,
        Declaration.bare, attached]
      rfl
  | assignment assigned later ih =>
      simp only [diagnostics, List.append_eq_nil_iff] at unmarked
      rw [relabel, ih unmarked.2, Assignment.relabel, Expr.relabel_eq_bare unmarked.1]
      rfl
  | rule selectors inner span later ihInner ihLater =>
      simp only [diagnostics, List.append_eq_nil_iff] at unmarked
      rw [relabel, ihInner unmarked.1, ihLater unmarked.2]
      rfl

theorem Sheet.compiled_of_bare {sheet : Sheet} (unmarked : sheet.diagnostics = []) {indent : Nat}
    {css : String} (written : Sheet.compiled indent ⟨sheet.body.bare, .null⟩ = .ok css) :
    sheet.compiled indent = .ok css := by
  have moved : sheet.relabel (.moving fun _ => .null) = ⟨sheet.body.bare, .null⟩ := by
    rw [relabel, Body.relabel_eq_bare unmarked]
    rfl
  have same := sheet.compiled_relabel (Relabeling.faithful_moving fun _ => .null) indent
  rw [moved, written] at same
  cases compiled : sheet.compiled indent with
  | error stop =>
      rw [compiled] at same
      cases same
  | ok text =>
      rw [compiled] at same
      cases same
      rfl

namespace Body

/-- No rule that stands in a rule of the body holds a declaration. -/
def Flat : Body → Prop
  | .empty => True
  | .declaration _ later | .assignment _ later => later.Flat
  | .rule _ inner _ later => inner.nested = [] ∧ later.Flat

theorem Flat.of_filled {body result : Body} (flat : body.Flat) (filled : body.Filled result) :
    result.Flat := by
  induction filled with
  | empty => trivial
  | declaration _ _ ih | assignment _ _ ih => exact (ih flat :)
  | rule inside _ _ ihLater => exact ⟨inside.nested_eq_nil.mpr flat.1, ihLater flat.2⟩

end Body

namespace Css

variable {indent : Nat}

def Block.Single (block : Block) : Prop := ∀ path ∈ block.paths, ∃ selector, path = [selector]

theorem blocks_single {body : Body} (flat : body.Flat) {made : List Block}
    (done : blocks indent [] body = .ok made) : ∀ block ∈ made, block.Single := by
  induction body generalizing made with
  | empty =>
      cases done
      exact nofun
  | declaration declared later ih => exact ih flat done
  | assignment assigned later ih => exact ih flat done
  | rule selectors inner span later ihInner ihLater =>
      obtain ⟨own, nested, after, _, inside, there, rfl⟩ := blocks_rule_eq_ok.mp done
      cases (blocks_of_nested flat.1 _).symm.trans inside
      intro block member
      rw [List.append_nil] at member
      rcases List.mem_append.mp member with member | member
      · obtain ⟨_, rfl⟩ := mem_blockOf member
        intro path heads
        obtain ⟨selector, _, same⟩ := List.mem_map.mp heads
        exact ⟨selector, same.symm⟩
      · exact ihLater flat.2 there block member

/-! ### The sheet that blocks say -/

def declarations : List (Property × Literal) → Body
  | [] => .empty
  | setting :: later =>
      .declaration ⟨setting.1, .literal setting.2 .null, .null, none⟩ (declarations later)

def tree : List Block → Body
  | [] => .empty
  | block :: later =>
      .rule block.paths.flatten (declarations block.settings) .null (tree later)

theorem flatten_singles {paths : List (List Selector)}
    (single : ∀ path ∈ paths, ∃ selector, path = [selector]) :
    paths.flatten.map (fun selector => [selector]) = paths := by
  induction paths with
  | nil => rfl
  | cons path later ih =>
      obtain ⟨⟨selector, rfl⟩, there⟩ := List.forall_mem_cons.mp single
      rw [List.flatten_cons, List.singleton_append, List.map_cons, ih there]

theorem folded_declarations (settings : List (Property × Literal)) (scopes : Scopes Literal) :
    (declarations settings).folded scopes = .ok (scopes, declarations settings) := by
  induction settings with
  | nil => rfl
  | cons setting later ih =>
      rw [declarations, Body.folded_declaration, ih]
      rfl

theorem settings_declarations (narrow : indent ≤ widestField)
    (own : List (Property × Literal)) : settings indent (declarations own) = .ok own := by
  induction own with
  | nil => rfl
  | cons first later ih =>
      have here : setting indent ⟨first.1, .literal first.2 .null, .null, none⟩ = .ok first :=
        if_pos narrow
      rw [declarations, settings, here, ih]
      rfl

theorem nested_declarations (own : List (Property × Literal)) : (declarations own).nested = [] := by
  induction own with
  | nil => rfl
  | cons first later ih => exact ih

theorem mem_declarations {own : List (Property × Literal)} {declared : Declaration}
    (member : declared ∈ (declarations own).declarations) :
    ∃ setting ∈ own, declared = ⟨setting.1, .literal setting.2 .null, .null, none⟩ := by
  induction own with
  | nil => cases member
  | cons first later ih =>
      rcases List.mem_cons.mp member with rfl | member
      · exact ⟨first, List.mem_cons_self, rfl⟩
      · obtain ⟨setting, present, same⟩ := ih member
        exact ⟨setting, List.mem_cons_of_mem first present, same⟩

def Fits (setting : Property × Literal) : Prop :=
  Plain setting ∧ setting.2.type ∈ setting.1.allowed

theorem Block.Sound.mono {holds other : Property × Literal → Prop} {block : Block}
    (sound : block.Sound holds) (weaker : ∀ setting, holds setting → other setting) :
    block.Sound other where
  headed := sound.headed
  filled := ⟨sound.filled.1, fun setting member => weaker setting (sound.filled.2 setting member)⟩

section Tree

variable {made : List Block} (sound : ∀ block ∈ made, block.Sound Fits)
include sound

theorem folded_tree (scopes : Scopes Literal) :
    (tree made).folded scopes = .ok (scopes, tree made) := by
  induction made with
  | nil => rfl
  | cons block later ih =>
      obtain ⟨here, there⟩ := List.forall_mem_cons.mp sound
      have selected : block.paths.flatten ≠ [] := by
        obtain ⟨path, member⟩ := List.exists_mem_of_ne_nil _ here.headed.1
        exact List.flatten_ne_nil_iff.mpr ⟨path, member, (here.headed.2 path member).1⟩
      simp only [tree, Body.folded_rule, folded_declarations,
        Scopes.afterRule_of_selected selected, ih there, bind, Except.bind, pure, Except.pure]

theorem admitted_tree : ∀ declared ∈ (tree made).declarations, declared.Admitted := by
  induction made with
  | nil => exact nofun
  | cons block later ih =>
      obtain ⟨here, there⟩ := List.forall_mem_cons.mp sound
      intro declared member
      rcases List.mem_append.mp member with member | member
      · obtain ⟨setting, present, rfl⟩ := mem_declarations member
        exact ⟨setting.2, .null, rfl, (here.filled.2 setting present).2⟩
      · exact ih there declared member

theorem blocks_tree (single : ∀ block ∈ made, block.Single) (narrow : indent ≤ widestField) :
    blocks indent [] (tree made) = .ok made := by
  induction made with
  | nil => rfl
  | cons block later ih =>
      obtain ⟨here, there⟩ := List.forall_mem_cons.mp sound
      obtain ⟨heads, singles⟩ := List.forall_mem_cons.mp single
      have paths : extendPaths [] block.paths.flatten = block.paths := flatten_singles heads
      have filled : blockOf block.paths block.settings = [block] :=
        if_neg (mt List.isEmpty_iff.mp here.filled.1)
      have nested : blocks indent block.paths (declarations block.settings) = .ok [] :=
        blocks_of_nested (nested_declarations block.settings) block.paths
      refine blocks_rule_eq_ok.mpr ⟨_, [], later, settings_declarations narrow _, ?_,
        ih there singles, ?_⟩
      · rw [paths]
        exact nested
      · rw [paths, filled]
        rfl

end Tree

end Css

theorem Selector.selects {selector : Selector} {token : Token}
    (said : token.word = (selector.kind, selector.text)) : Selects token selector := by
  obtain ⟨kind, text⟩ := Prod.mk.inj said
  cases selector with
  | tag name =>
      cases text
      exact .tag kind
  | byClass name =>
      have signed : token.text.toList = '.' :: name.toList := by rw [text]; simp [Selector.text]
      simpa using Selects.byClass kind signed
  | byId name =>
      have signed : token.text.toList = '#' :: name.toList := by rw [text]; simp [Selector.text]
      simpa using Selects.byId kind signed

namespace Css

theorem derives_setting {setting : Property × Literal} (plain : Plain setting)
    {tokens : List Token} (said : tokens.map Token.word = settingWords setting) :
    DerivesDeclaration tokens ⟨setting.1, .literal setting.2 .null, .null, none⟩ := by
  obtain ⟨name, _, rfl, named, said⟩ := List.map_eq_cons_iff.mp said
  obtain ⟨colon, _, rfl, divides, said⟩ := List.map_eq_cons_iff.mp said
  obtain ⟨value, _, rfl, spelled, said⟩ := List.map_eq_cons_iff.mp said
  obtain ⟨semicolon, _, rfl, ends, said⟩ := List.map_eq_cons_iff.mp said
  cases List.map_eq_nil_iff.mp said
  obtain ⟨kind, known⟩ := Prod.mk.inj named
  have literal := Literal.operand plain.1 plain.2 spelled
  exact .intro kind known (Prod.mk.inj divides).1 (.term (.factor (.operand literal)))
    (Prod.mk.inj ends).1

theorem derives_declarations {own : List (Property × Literal)}
    (plain : ∀ setting ∈ own, Plain setting) {tokens : List Token}
    (said : tokens.map Token.word = own.flatMap settingWords) :
    DerivesBody .rule tokens (declarations own) := by
  induction own generalizing tokens with
  | nil =>
      cases List.map_eq_nil_iff.mp said
      exact .empty
  | cons setting later ih =>
      obtain ⟨here, there⟩ := List.forall_mem_cons.mp plain
      obtain ⟨front, back, rfl, first, rest⟩ := List.map_eq_append_iff.mp said
      exact .declaration (derives_setting here first) (ih there rest)

theorem derives_selectors {paths : List (List Selector)} (nonempty : paths ≠ [])
    (single : ∀ path ∈ paths, ∃ selector, path = [selector]) {tokens : List Token}
    (said : tokens.map Token.word = headWords paths) : DerivesSelectors tokens paths.flatten := by
  induction paths generalizing tokens with
  | nil => exact absurd rfl nonempty
  | cons path later ih =>
      obtain ⟨⟨selector, rfl⟩, there⟩ := List.forall_mem_cons.mp single
      cases later with
      | nil =>
          obtain ⟨token, _, rfl, selects, said⟩ := List.map_eq_cons_iff.mp said
          cases List.map_eq_nil_iff.mp said
          exact .one (Selector.selects selects)
      | cons next later =>
          obtain ⟨token, _, rfl, selects, said⟩ := List.map_eq_cons_iff.mp said
          obtain ⟨comma, _, rfl, divides, said⟩ := List.map_eq_cons_iff.mp said
          exact .more (Selector.selects selects) (Prod.mk.inj divides).1
            (ih (List.cons_ne_nil next later) there said)

theorem derives_tree {made : List Block} (sound : ∀ block ∈ made, block.Sound Plain)
    (single : ∀ block ∈ made, block.Single) {tokens : List Token}
    (said : tokens.map Token.word = made.flatMap Block.words) :
    DerivesBody .sheet tokens (tree made) := by
  induction made generalizing tokens with
  | nil =>
      cases List.map_eq_nil_iff.mp said
      exact .empty
  | cons block later ih =>
      obtain ⟨here, there⟩ := List.forall_mem_cons.mp sound
      obtain ⟨heads, singles⟩ := List.forall_mem_cons.mp single
      obtain ⟨front, back, rfl, first, rest⟩ := List.map_eq_append_iff.mp said
      obtain ⟨selectors, front, rfl, selected, first⟩ := List.map_eq_append_iff.mp first
      obtain ⟨opening, front, rfl, opens, first⟩ := List.map_eq_cons_iff.mp first
      obtain ⟨inside, closing, rfl, filled, first⟩ := List.map_eq_append_iff.mp first
      obtain ⟨closing, front, rfl, closes, first⟩ := List.map_eq_cons_iff.mp first
      cases List.map_eq_nil_iff.mp first
      have derives := DerivesBody.rule (derives_selectors here.headed.1 heads selected)
        (Prod.mk.inj opens).1 (derives_declarations here.filled.2 filled) (Prod.mk.inj closes).1
        (ih there singles rest)
      simpa [tree] using derives

end Css

namespace Sheet

variable {sheet evaluated : Sheet} {indent : Nat}

theorem clean_iff_admitted (unmarked : sheet.diagnostics = [])
    (folded : sheet.evaluate = .ok evaluated) :
    sheet.check.isClean = true ↔ ∀ declared ∈ evaluated.body.declarations, declared.Admitted := by
  obtain ⟨after, body, done, rfl⟩ := body_of_evaluate folded
  obtain ⟨_, _, agrees⟩ := Body.agrees_of_folded_ok unmarked done
  rw [Scopes.map_initial] at agrees
  rw [isClean_iff]
  exact agrees

theorem compiled_of_clean (clean : sheet.check.isClean = true)
    (folded : sheet.evaluate = .ok evaluated) :
    sheet.compiled indent = Compiled.ofStage (evaluated.css indent) := by
  rw [compiled, if_pos clean, check_eq_self clean, folded]
  rfl

theorem of_compiled (unmarked : sheet.diagnostics = []) (folded : sheet.evaluate = .ok evaluated)
    {css : String} (written : sheet.compiled indent = .ok css) :
    (∀ declared ∈ evaluated.body.declarations, declared.Admitted) ∧
      ∃ made, Css.blocks indent [] evaluated.body = .ok made ∧ css = Css.text indent made := by
  by_cases clean : sheet.check.isClean = true
  · rw [compiled_of_clean clean folded] at written
    refine ⟨(clean_iff_admitted unmarked folded).mp clean, ?_⟩
    cases there : Css.blocks indent [] evaluated.body with
    | error stop =>
        rw [Sheet.css, there] at written
        cases written
    | ok made =>
        rw [Sheet.css, there] at written
        cases written
        exact ⟨made, rfl, rfl⟩
  · rw [compiled, if_neg clean] at written
    cases written

end Sheet

theorem compile_of_read {source file : String} {sheet : Sheet}
    (read : Sheet.ofSource source file = .ok sheet) (indent : Nat) :
    compile source file indent = sheet.compiled indent := by
  rw [compile_eq, read]
  rfl

theorem Css.compile_text {indent : Nat} (narrow : indent ≤ widestField) {made : List Block}
    (sound : ∀ block ∈ made, block.Sound Fits) (single : ∀ block ∈ made, block.Single)
    (file : String) : compile (text indent made) file indent = .ok (text indent made) := by
  have plain : ∀ block ∈ made, block.Sound Plain :=
    fun block member => (sound block member).mono fun _ fits => fits.1
  obtain ⟨tokens, split, said⟩ := Token.ofSource_of_spells (spells_text plain indent) file
  obtain ⟨words, last, rfl, ends, fit, _⟩ := Token.ofSource_words split
  rw [List.map_append] at said
  have derives := derives_tree plain single (List.append_inj' said rfl).1
  obtain ⟨sheet, read, bare⟩ := Sheet.ofTokens_of_derives file ends
    (fun word member => (fit word member).2) derives
  have read : Sheet.ofSource (text indent made) file = .ok sheet := by
    rw [Sheet.ofSource, split]
    exact read
  have unmarked : Sheet.diagnostics ⟨tree made, .null⟩ = [] := derives.unmarked
  have folded : Sheet.evaluate ⟨tree made, .null⟩ = .ok ⟨tree made, .null⟩ := by
    rw [Sheet.evaluate_eq, folded_tree sound]
    rfl
  have clean := (Sheet.clean_iff_admitted unmarked folded).mpr (admitted_tree sound)
  rw [compile_of_read read]
  apply Sheet.compiled_of_bare
  · rw [Sheet.diagnostics, ← Body.diagnostics_bare, bare]
    exact unmarked
  · rw [bare, Sheet.compiled_of_clean clean folded, Sheet.css, blocks_tree sound single narrow]
    rfl

/-- What a sheet without declarations in nested rules and without negative values is compiled to is
compiled to itself. -/
theorem compile_fixed_of_flat (source file : String) (indent : Nat) (narrow : indent ≤ widestField)
    {css : String} (compiled : compile source file indent = .ok css) {sheet evaluated : Sheet}
    (read : Sheet.ofSource source file = .ok sheet) (folded : sheet.evaluate = .ok evaluated)
    (flat : sheet.body.Flat)
    (natural : ∀ declared ∈ evaluated.body.declarations, ∀ value span,
      declared.value = .literal value span → value.NonNegative) (other : String) :
    compile css other indent = .ok css := by
  rw [compile_of_read read] at compiled
  obtain ⟨admitted, made, blocks, rfl⟩ :=
    Sheet.of_compiled (Sheet.unmarked_of_source read) folded compiled
  obtain ⟨after, body, done, rfl⟩ := Sheet.body_of_evaluate folded
  obtain ⟨written, _⟩ :=
    Body.written_of_folded (Sheet.written_of_source read) Scopes.written_initial done
  have sets : Css.Sets Css.Fits body := by
    intro declared member value span literal
    obtain ⟨_, _, same, allowed⟩ := admitted declared member
    cases literal.symm.trans same
    have sound : declared.value.Written := written.of_mem member
    rw [literal] at sound
    exact ⟨⟨sound, natural declared member value span literal⟩, allowed⟩
  exact Css.compile_text narrow (Css.blocks_sound written (by simp) sets blocks)
    (Css.blocks_single (flat.of_filled (Body.filled_of_folded done)) blocks) other

def Sheet.doubledWidth : Sheet where
  body :=
    .rule [.byClass "a", .tag "b"]
      (.assignment ⟨"@w", .literal (.pixel 1) (.ofBytes 8 11 "a.css"), .ofBytes 5 12 "a.css"⟩ <|
       .rule [.tag "c"]
         (.assignment ⟨"@w", .literal (.scalar 9) (.ofBytes 17 18 "a.css"), .ofBytes 14 19 "a.css"⟩
           .empty)
         (.ofBytes 12 20 "a.css") <|
       .declaration ⟨.width,
         .operation .multiply (.reference "@w" (.ofBytes 26 28 "a.css") none)
           (.literal (.scalar 2) (.ofBytes 29 30 "a.css")) (.ofBytes 26 30 "a.css") none,
         .ofBytes 20 31 "a.css", none⟩ .empty)
      (.ofBytes 0 32 "a.css") .empty
  span := .ofBytes 0 32 "a.css"

/-- Two selectors, a variable, and a rule inside that binds but declares nothing. -/
theorem compile_fixed_of_flat_scaledWidth :
    compile ".a,b\x7b@w:1px;c\x7b@w:9;\x7dwidth:@w*2;\x7d" "a.css" 2 =
        .ok ".a, b \x7b\n  width: 2px;\n\x7d\n" ∧
      compile ".a, b \x7b\n  width: 2px;\n\x7d\n" "b.css" 2 =
        .ok ".a, b \x7b\n  width: 2px;\n\x7d\n" := by
  have compiled : compile ".a,b\x7b@w:1px;c\x7b@w:9;\x7dwidth:@w*2;\x7d" "a.css" 2 =
      .ok ".a, b \x7b\n  width: 2px;\n\x7d\n" := by
    rw [compile, checkedSheet, Sheet.ofSource, Token.ofSource, Lexeme.split_eq]
    decide +kernel
  have read : Sheet.ofSource ".a,b\x7b@w:1px;c\x7b@w:9;\x7dwidth:@w*2;\x7d" "a.css" =
      .ok .doubledWidth := by
    rw [Sheet.ofSource, Token.ofSource, Lexeme.split_eq]
    decide +kernel
  have flat : Sheet.doubledWidth.body.Flat := ⟨rfl, trivial⟩
  obtain ⟨evaluated, folded, natural⟩ : ∃ evaluated, Sheet.doubledWidth.evaluate = .ok evaluated ∧
      ∀ declared ∈ evaluated.body.declarations, ∀ value span,
        declared.value = .literal value span → value.NonNegative := by
    refine ⟨_, rfl, ?_⟩
    intro declared member value span literal magnitude found
    cases List.mem_singleton.mp member
    cases literal
    cases found
    decide
  exact ⟨compiled,
    compile_fixed_of_flat _ _ 2 (by decide) compiled read folded flat natural "b.css"⟩

end TypedStyle

import TypedStyle.Proofs.Outcome
import TypedStyle.Proofs.SheetReading
import TypedStyle.Proofs.Tiling

/-!
What the trees of a source are made of. A sheet that was read has only selectors that a token
writes, at least one for each rule, and only colors that can be written. Evaluation adds no others,
so the blocks of the sheet are headed and filled by them.
-/

namespace TypedStyle

def Selector.kind : Selector → TokenKind
  | .tag _ => .identifier
  | .byClass _ => .classSelector
  | .byId _ => .hash

def Selector.Written (selector : Selector) : Prop :=
  selector.text.toList ∈ selector.kind.pattern

def Literal.Written : Literal → Prop
  | .color text => Color.Hex text ∨ Color.Named text
  | .pixel _ | .percentage _ | .scalar _ => True

def Expr.Written : Expr → Prop
  | .literal value _ => value.Written
  | .reference _ _ _ => True
  | .operation _ lhs rhs _ _ => lhs.Written ∧ rhs.Written

def Body.Written : Body → Prop
  | .empty => True
  | .declaration declared later => declared.value.Written ∧ later.Written
  | .assignment assigned later => assigned.value.Written ∧ later.Written
  | .rule selectors inner _ later =>
      (selectors ≠ [] ∧ ∀ selector ∈ selectors, selector.Written) ∧ inner.Written ∧ later.Written

theorem Expr.written_bare (expr : Expr) : expr.bare.Written ↔ expr.Written := by
  induction expr with
  | literal value span => rfl
  | reference name span diagnostic => rfl
  | operation operator lhs rhs span diagnostic ihl ihr => simp only [bare, Written, ihl, ihr]

theorem Body.written_bare (body : Body) : body.bare.Written ↔ body.Written := by
  induction body with
  | empty => rfl
  | declaration declared later ih =>
      simp only [bare, Written, Declaration.bare, Expr.written_bare, ih]
  | assignment assigned later ih =>
      simp only [bare, Written, Assignment.bare, Expr.written_bare, ih]
  | rule selectors inner span later ihInner ihLater => simp only [bare, Written, ihInner, ihLater]

theorem Body.Written.of_mem {body : Body} (written : body.Written) {declared : Declaration}
    (member : declared ∈ body.declarations) : declared.value.Written := by
  induction body with
  | empty => cases member
  | declaration first later ih =>
      rcases List.mem_cons.mp member with rfl | member
      · exact written.1
      · exact ih written.2 member
  | assignment assigned later ih => exact ih written.2 member
  | rule selectors inner span later ihInner ihLater =>
      rcases List.mem_append.mp member with member | member
      · exact ihInner written.2.1 member
      · exact ihLater written.2.2 member

theorem Selects.written {token : Token} {selector : Selector} (selects : Selects token selector)
    (spelled : token.text.toList ∈ token.kind.pattern) : selector.Written := by
  cases selects with
  | tag kind => rwa [kind] at spelled
  | byClass kind text | byId kind text =>
      rw [kind, text] at spelled
      obtain ⟨_, rfl, _, _, same⟩ := Language.mem_mul.mp spelled
      cases same
      simpa [Selector.Written, Selector.text, Selector.kind] using spelled

theorem Operand.written {token : Token} {tree : Expr} (operand : Operand token tree) :
    tree.Written := by
  cases operand with
  | hash kind color => exact Or.inl color
  | identifier kind color => exact Or.inr color
  | pixel kind written | percentage kind written | scalar kind written => trivial
  | variableName kind => trivial

theorem Derives.written {layer : Layer} {tokens : List Token} {tree : Expr}
    (derives : Derives layer tokens tree) : tree.Written := by
  induction derives with
  | operand written => exact written.written
  | group opens inside closes ih => exact ih
  | factor only ih => exact ih
  | term only ih => exact ih
  | product first star second ihFirst ihSecond => exact ⟨ihFirst, ihSecond⟩
  | sum first joins second ihFirst ihSecond => exact ⟨ihFirst, ihSecond⟩

theorem DerivesSelectors.written {tokens : List Token} {selectors : List Selector}
    (derives : DerivesSelectors tokens selectors)
    (spelled : ∀ token ∈ tokens, token.text.toList ∈ token.kind.pattern) :
    selectors ≠ [] ∧ ∀ selector ∈ selectors, selector.Written := by
  induction derives with
  | one selects =>
      have here := selects.written (spelled _ List.mem_cons_self)
      exact ⟨List.cons_ne_nil _ _, List.forall_mem_singleton.mpr here⟩
  | more selects divides later ih =>
      have here := selects.written (spelled _ List.mem_cons_self)
      have there := ih fun token member => spelled token (by simp [member])
      exact ⟨List.cons_ne_nil _ _, List.forall_mem_cons.mpr ⟨here, there.2⟩⟩

theorem DerivesBody.written {level : Level} {tokens : List Token} {tree : Body}
    (derives : DerivesBody level tokens tree)
    (spelled : ∀ token ∈ tokens, token.text.toList ∈ token.kind.pattern) : tree.Written := by
  induction derives with
  | empty => trivial
  | declaration first rest ih =>
      cases first with
      | intro named known divides expression ends =>
          exact ⟨expression.written, ih fun token member => spelled token (by simp [member])⟩
  | assignment first rest ih =>
      cases first with
      | intro named divides expression ends =>
          exact ⟨expression.written, ih fun token member => spelled token (by simp [member])⟩
  | rule first opens body closes rest ihInner ihLater =>
      refine ⟨first.written fun token member => spelled token (by simp [member]), ?_, ?_⟩
      · exact ihInner fun token member => spelled token (by simp [member])
      · exact ihLater fun token member => spelled token (by simp [member])

/-- The tokens of a source are words closed by an `eof`, each of a spelling of its kind. -/
theorem Token.ofSource_words {source file : String} {tokens : List Token}
    (split : Token.ofSource source file = .ok tokens) :
    ∃ words last, tokens = words ++ [last] ∧ last.kind = .eof ∧
      (∀ word ∈ words, word.kind ≠ .eof ∧ word.Signed) ∧
      ∀ word ∈ words, word.text.toList ∈ word.kind.pattern := by
  obtain ⟨words, last, rfl, ends, every, _⟩ := (Tiles.of_source split).exists_words
  rcases Token.ofSource_cases source file with ⟨others, final, again, _, fit⟩ | ⟨_, unsplit, _⟩
  · obtain ⟨rfl, _⟩ := List.append_inj' (Except.ok.inj (split.symm.trans again)) rfl
    exact ⟨words, last, rfl, by rw [ends]; rfl, fit, fun word member => (every word member).2⟩
  · cases split.symm.trans unsplit

theorem Sheet.derives_of_source {source file : String} {sheet : Sheet}
    (read : Sheet.ofSource source file = .ok sheet) :
    ∃ words, DerivesBody .sheet words sheet.body.bare ∧
      ∀ word ∈ words, word.text.toList ∈ word.kind.pattern := by
  unfold Sheet.ofSource at read
  split at read
  · rename_i split
    obtain ⟨words, last, rfl, ends, fit, spelled⟩ := Token.ofSource_words split
    obtain ⟨whole, _⟩ := Sheet.readFrom_of_ofTokens ends (fun word member => (fit word member).1)
      (fun word member => (fit word member).2) read
    exact ⟨words, whole.derives, spelled⟩
  · cases read

theorem Sheet.unmarked_of_source {source file : String} {sheet : Sheet}
    (read : Sheet.ofSource source file = .ok sheet) : sheet.diagnostics = [] := by
  obtain ⟨words, derives, _⟩ := derives_of_source read
  rw [diagnostics, ← Body.diagnostics_bare]
  exact derives.unmarked

theorem Sheet.written_of_source {source file : String} {sheet : Sheet}
    (read : Sheet.ofSource source file = .ok sheet) : sheet.body.Written := by
  obtain ⟨words, derives, spelled⟩ := derives_of_source read
  exact (Body.written_bare _).mp (derives.written spelled)

def Scopes.Written (scopes : Scopes Literal) : Prop :=
  ∀ name value, scopes.resolve? name = some value → value.Written

theorem Scopes.written_initial : Scopes.Written .initial := by
  intro name value found
  cases found

theorem Operator.written_of_value? {operator : Operator} {lhs rhs value : Literal}
    (found : operator.value? lhs rhs = some value) : value.Written := by
  -- An operation gives a number, and every number can be written.
  have number (literal : Literal) (magnitude : Int32)
      (made : literal.withMagnitude? magnitude = some value) : value.Written := by
    cases literal <;> cases made <;> trivial
  have combined (join : Int32 → Int32 → Int32) (found : combine? join lhs rhs = some value) :
      value.Written := by
    unfold combine? at found
    split at found
    · split at found
      · exact number lhs _ found
      · cases found
    · cases found
  have scaled (factor : Int32) (literal : Literal) (found : scale? factor literal = some value) :
      value.Written := by
    unfold scale? at found
    split at found
    · exact number literal _ found
    · cases found
  cases operator with
  | add => exact combined _ found
  | subtract => exact combined _ found
  | multiply =>
      simp only [value?] at found
      split at found
      · exact scaled _ _ found
      · exact scaled _ _ found
      · cases found

theorem Expr.written_of_fold {scopes : Scopes Literal} (bound : scopes.Written) {expr : Expr}
    (written : expr.Written) {value : Literal} (done : expr.fold scopes = .ok value) :
    value.Written := by
  cases expr with
  | literal literal span =>
      cases done
      exact written
  | reference name span diagnostic =>
      unfold fold at done
      split at done
      · rename_i found
        cases done
        exact bound name _ found
      · cases done
  | operation operator lhs rhs span diagnostic =>
      obtain ⟨left, _, done⟩ := ok_of_bind done
      obtain ⟨right, _, done⟩ := ok_of_bind done
      split at done
      · rename_i found
        cases done
        exact Operator.written_of_value? found
      · cases done

theorem Scopes.Written.bind {scopes : Scopes Literal} (bound : scopes.Written) (name : String)
    {value : Literal} (written : value.Written) : (scopes.bind name value).Written := by
  intro other found resolved
  rw [resolve?_bind] at resolved
  split at resolved
  · cases resolved
    exact written
  · exact bound other found resolved

theorem Body.written_of_folded {body : Body} (written : body.Written)
    {scopes after : Scopes Literal} (bound : scopes.Written) {result : Body}
    (done : body.folded scopes = .ok (after, result)) : result.Written ∧ after.Written := by
  induction body generalizing scopes after result with
  | empty =>
      cases done
      exact ⟨trivial, bound⟩
  | declaration declared later ih =>
      obtain ⟨value, rest, here, there, rfl⟩ := of_folded_declaration done
      obtain ⟨restWritten, after⟩ := ih written.2 bound there
      exact ⟨⟨Expr.written_of_fold bound written.1 here, restWritten⟩, after⟩
  | assignment assigned later ih =>
      obtain ⟨value, rest, here, there, rfl⟩ := of_folded_assignment done
      have value := Expr.written_of_fold bound written.1 here
      obtain ⟨restWritten, after⟩ := ih written.2 (bound.bind assigned.name value) there
      exact ⟨⟨value, restWritten⟩, after⟩
  | rule selectors inner span later ihInner ihLater =>
      obtain ⟨inside, innerRest, rest, here, there, rfl⟩ := of_folded_rule done
      obtain ⟨selected, innerWritten, laterWritten⟩ := written
      have entered : (scopes.enterFor selectors).Written := by
        intro name value found
        rw [Scopes.resolve?_enterFor] at found
        exact bound name value found
      obtain ⟨innerResult, leaving⟩ := ihInner innerWritten entered here
      have left : (Scopes.afterRule selectors scopes inside).Written := by
        unfold Scopes.afterRule
        split
        · exact leaving
        · exact bound
      obtain ⟨restResult, after⟩ := ihLater laterWritten left there
      exact ⟨⟨selected, innerResult, restResult⟩, after⟩

namespace Css

variable {indent : Nat} {paths : List (List Selector)}

def PathWritten (path : List Selector) : Prop :=
  path ≠ [] ∧ ∀ selector ∈ path, selector.Written

theorem extendPaths_written (around : ∀ path ∈ paths, PathWritten path)
    {selectors : List Selector} (selected : selectors ≠ [])
    (written : ∀ selector ∈ selectors, selector.Written) :
    extendPaths paths selectors ≠ [] ∧
      ∀ path ∈ extendPaths paths selectors, PathWritten path := by
  obtain ⟨first, more, rfl⟩ := List.exists_cons_of_ne_nil selected
  unfold extendPaths
  split
  · refine ⟨by simp, ?_⟩
    intro path member
    obtain ⟨selector, present, rfl⟩ := List.mem_map.mp member
    exact ⟨List.cons_ne_nil _ _, List.forall_mem_singleton.mpr (written selector present)⟩
  · rename_i some
    obtain ⟨path, present⟩ := List.exists_mem_of_ne_nil _ (mt List.isEmpty_iff.mpr some)
    refine ⟨List.ne_nil_of_mem (List.mem_flatMap.mpr ⟨path, present, List.mem_cons_self⟩), ?_⟩
    intro path member
    obtain ⟨outer, inPaths, within⟩ := List.mem_flatMap.mp member
    obtain ⟨selector, present, rfl⟩ := List.mem_map.mp within
    refine ⟨by simp, ?_⟩
    intro other inside
    rcases List.mem_append.mp inside with inside | inside
    · exact (around outer inPaths).2 other inside
    · cases List.mem_singleton.mp inside
      exact written selector present

structure Block.Sound (holds : Property × Literal → Prop) (block : Block) : Prop where
  headed : block.paths ≠ [] ∧ ∀ path ∈ block.paths, PathWritten path
  filled : block.settings ≠ [] ∧ ∀ setting ∈ block.settings, holds setting

def Sets (holds : Property × Literal → Prop) (body : Body) : Prop :=
  ∀ declared ∈ body.declarations, ∀ value span, declared.value = .literal value span →
    holds (declared.property, value)

variable {holds : Property × Literal → Prop}

theorem settings_forall {body : Body} (sets : Sets holds body)
    {own : List (Property × Literal)} (done : settings indent body = .ok own) :
    ∀ setting ∈ own, holds setting := by
  induction body generalizing own with
  | empty =>
      cases done
      exact nofun
  | declaration declared later ih =>
      obtain ⟨first, here, done⟩ := ok_of_bind done
      obtain ⟨rest, there, done⟩ := ok_of_bind done
      cases done
      obtain ⟨value, span, literal, rfl⟩ := eq_of_setting here
      have sound := sets declared List.mem_cons_self value span literal
      have later := ih (fun other member => sets other (List.mem_cons_of_mem _ member)) there
      exact List.forall_mem_cons.mpr ⟨sound, later⟩
  | assignment assigned later ih => exact ih sets done
  | rule selectors inner span later ihInner ihLater =>
      exact ihLater (fun other member => sets other (List.mem_append_right _ member)) done

theorem blocks_sound {body : Body} (written : body.Written)
    (around : ∀ path ∈ paths, PathWritten path) (sets : Sets holds body) {made : List Block}
    (done : blocks indent paths body = .ok made) : ∀ block ∈ made, block.Sound holds := by
  induction body generalizing paths made with
  | empty =>
      cases done
      exact nofun
  | declaration declared later ih =>
      have laterSets : Sets holds later :=
        fun other member => sets other (List.mem_cons_of_mem _ member)
      exact ih written.2 around laterSets done
  | assignment assigned later ih => exact ih written.2 around sets done
  | rule selectors inner span later ihInner ihLater =>
      obtain ⟨⟨selected, heads⟩, innerWritten, laterWritten⟩ := written
      have innerSets : Sets holds inner :=
        fun other member => sets other (List.mem_append_left _ member)
      have laterSets : Sets holds later :=
        fun other member => sets other (List.mem_append_right _ member)
      have headed := extendPaths_written around selected heads
      obtain ⟨own, nested, after, settled, inside, there, rfl⟩ := blocks_rule_eq_ok.mp done
      intro block member
      rcases List.mem_append.mp member with member | member
      · rcases List.mem_append.mp member with member | member
        · obtain ⟨filled, rfl⟩ := mem_blockOf member
          exact ⟨headed, filled, settings_forall innerSets settled⟩
        · exact ihInner innerWritten headed.2 innerSets inside block member
      · exact ihLater laterWritten around laterSets there block member

end Css

end TypedStyle

import TypedStyle.Proofs.Occurrences
import TypedStyle.Proofs.Outcome

/-!
Flattening. The rules of a sheet are listed with their places, each before the rules inside it, and
writing goes once through this list: it stops at the first declaration without a literal, and makes
one block of each rule that declares something. A block is headed by every choice of one selector
from each rule on the way to its own, in lexicographic order.
-/

namespace TypedStyle

structure Rule where
  selectors : List Selector
  inner : Body

def Item.rule? : Item → Option Rule
  | .rule selectors inner _ => some ⟨selectors, inner⟩
  | .declaration _ | .assignment _ => none

abbrev Placed := Occurrence Rule

namespace Placed

/-- The selectors of all rules on the way to the rule, its own last. -/
def heads (placed : Placed) : List (List Selector) := placed.around ++ [placed.node.selectors]

def inner (placed : Placed) : Body := placed.node.inner

theorem heads_ne_nil (placed : Placed) : placed.heads ≠ [] := List.concat_ne_nil _ _

end Placed

namespace Body

/-- The declarations of the body, those of its rules aside. -/
def own : Body → List Declaration
  | .empty => []
  | .declaration declared later => declared :: later.own
  | .assignment _ later | .rule _ _ _ later => later.own

/-- The rule stands in the body, at any depth. -/
def RuleAt (body : Body) (placed : Placed) : Prop := body.NodeAt Item.rule? placed

def rules (body : Body) : List Placed := body.picked Item.rule?

theorem mem_rules {body : Body} {placed : Placed} : placed ∈ body.rules ↔ body.RuleAt placed :=
  mem_picked

end Body

namespace Css

theorem settings_eq (indent : Nat) (body : Body) :
    settings indent body = body.own.mapM (setting indent) := by
  induction body with
  | empty => rfl
  | declaration declared later ih => rw [settings, Body.own, List.mapM_cons, ih]
  | assignment _ later ih => exact ih
  | rule _ _ _ later _ ih => exact ih

def blocksAt (indent : Nat) (paths : List (List Selector)) (placed : Placed) :
    Except (Stop Diagnostic) (List Block) :=
  (placed.inner.own.mapM (setting indent)).map (blockOf (placed.heads.foldl extendPaths paths))

/-- Writing goes once through the rules. -/
theorem blocks_eq (indent : Nat) (paths : List (List Selector)) (body : Body) :
    blocks indent paths body = (body.rules.mapM (blocksAt indent paths)).map List.flatten := by
  induction body generalizing paths with
  | empty => rfl
  | declaration _ later ih | assignment _ later ih =>
      change _ = ((later.rules.map Occurrence.next).mapM (blocksAt indent paths)).map List.flatten
      rw [blocks, ih, List.mapM_map]
      rfl
  | rule selectors inner span later ihInner ihLater =>
      have here : blocksAt indent paths ⟨[0], [], selectors, inner⟩ =
        (inner.own.mapM (setting indent)).map (blockOf (extendPaths paths selectors)) := rfl
      have within : blocksAt indent paths ∘ Occurrence.within selectors =
        blocksAt indent (extendPaths paths selectors) := rfl
      have next : blocksAt indent paths ∘ Occurrence.next = blocksAt indent paths := rfl
      have listed : (Body.rule selectors inner span later).rules =
        ⟨[0], [], selectors, inner⟩ :: inner.rules.map (Occurrence.within selectors) ++
          later.rules.map Occurrence.next := rfl
      rw [blocks, settings_eq, ihInner, ihLater, listed, List.mapM_append, List.mapM_cons,
        List.mapM_map, List.mapM_map, within, next, here]
      cases inner.own.mapM (setting indent) with
      | error stop => rfl
      | ok own =>
          cases inner.rules.mapM (blocksAt indent (extendPaths paths selectors)) with
          | error stop => rfl
          | ok nested =>
              cases later.rules.mapM (blocksAt indent paths) with
              | error stop => rfl
              | ok after =>
                  change Except.ok (blockOf _ own ++ nested.flatten ++ after.flatten) =
                    .ok (blockOf _ own :: nested ++ after).flatten
                  rw [List.flatten_append, List.flatten_cons]

/-! ### Choices of selectors -/

inductive Picks : List (List Selector) → List Nat → List Selector → Prop where
  | nil : Picks [] [] []
  | cons {selectors : List Selector} {index : Nat} {selector : Selector}
      {heads : List (List Selector)} {pick : List Nat} {path : List Selector}
      (found : selectors[index]? = some selector) (later : Picks heads pick path) :
      Picks (selectors :: heads) (index :: pick) (selector :: path)

/-- The paths are all that can be picked from the heads, in lexicographic order. -/
def Choices (heads : List (List Selector)) (paths : List (List Selector)) : Prop :=
  ∃ picks : List (List Nat), picks.Pairwise (· < ·) ∧
    (∀ pick path, Picks heads pick path → pick ∈ picks) ∧ List.Forall₂ (Picks heads) picks paths

def product {Element : Type} : List (List Element) → List (List Element)
  | [] => [[]]
  | first :: later => first.flatMap fun element => (product later).map (element :: ·)

theorem product_ordered (lists : List (List Nat))
    (ordered : ∀ list ∈ lists, list.Pairwise (· < ·)) :
    (product lists).Pairwise (· < ·) := by
  induction lists with
  | nil => exact List.pairwise_singleton _ _
  | cons first later ih =>
      obtain ⟨here, there⟩ := List.forall_mem_cons.mp ordered
      refine List.pairwise_flatMap.mpr ⟨?_, here.imp ?_⟩
      · intro index _
        refine List.pairwise_map.mpr ((ih there).imp ?_)
        intro one other less
        exact List.cons_lt_cons_iff.mpr (Or.inr ⟨rfl, less⟩)
      · intro index other less one member two present
        obtain ⟨rest, _, rfl⟩ := List.mem_map.mp member
        obtain ⟨more, _, rfl⟩ := List.mem_map.mp present
        exact List.cons_lt_cons_iff.mpr (Or.inl less)

theorem choices_product (heads : List (List Selector)) : Choices heads (product heads) := by
  refine ⟨product (heads.map fun selectors => List.range selectors.length), ?_, ?_, ?_⟩
  · apply product_ordered
    intro list member
    obtain ⟨selectors, _, rfl⟩ := List.mem_map.mp member
    exact List.pairwise_lt_range
  · intro pick path picks
    induction picks with
    | nil => exact List.mem_singleton_self []
    | cons found later ih =>
        obtain ⟨less, _⟩ := List.getElem?_eq_some_iff.mp found
        exact List.mem_flatMap.mpr ⟨_, List.mem_range.mpr less, List.mem_map_of_mem ih⟩
  · induction heads with
    | nil => exact .cons .nil .nil
    | cons selectors later ih =>
        have indexed : List.Forall₂ (fun index selector => selectors[index]? = some selector)
            (List.range selectors.length) selectors := by
          rw [List.forall₂_iff_get]
          refine ⟨List.length_range, ?_⟩
          intro index _ less
          simp [less]
        refine List.rel_flatMap indexed ?_
        intro index selector found
        rw [List.forall₂_map_left_iff, List.forall₂_map_right_iff]
        exact ih.imp fun pick path picks => .cons found picks

-- Selectors are added at the end of the paths one rule after another, so the product of those
-- still to come stands behind each path.
theorem foldl_extendPaths {paths heads : List (List Selector)} (nonempty : paths ≠ [])
    (selected : ∀ selectors ∈ heads, selectors ≠ []) :
    heads.foldl extendPaths paths = paths.flatMap fun path => (product heads).map (path ++ ·) := by
  induction heads generalizing paths with
  | nil => simp [product]
  | cons selectors later ih =>
      obtain ⟨here, there⟩ := List.forall_mem_cons.mp selected
      have extended : extendPaths paths selectors =
          paths.flatMap fun path => selectors.map fun selector => path ++ [selector] :=
        if_neg (mt List.isEmpty_iff.mp nonempty)
      have more : extendPaths paths selectors ≠ [] := by
        obtain ⟨path, present⟩ := List.exists_mem_of_ne_nil paths nonempty
        obtain ⟨selector, member⟩ := List.exists_mem_of_ne_nil selectors here
        rw [extended]
        exact List.ne_nil_of_mem (List.mem_flatMap.mpr ⟨path, present, List.mem_map_of_mem member⟩)
      rw [List.foldl_cons, ih more there, extended, product, List.flatMap_assoc]
      simp [List.flatMap_map, List.map_flatMap, Function.comp_def]

theorem foldl_extendPaths_nil {heads : List (List Selector)} (nonempty : heads ≠ [])
    (selected : ∀ selectors ∈ heads, selectors ≠ []) :
    heads.foldl extendPaths [] = product heads := by
  obtain ⟨selectors, later, rfl⟩ := List.exists_cons_of_ne_nil nonempty
  obtain ⟨here, there⟩ := List.forall_mem_cons.mp selected
  have first : extendPaths [] selectors = selectors.map fun selector => [selector] := rfl
  rw [List.foldl_cons, first, foldl_extendPaths (by simpa using here) there, product]
  simp [List.flatMap_map]

end Css

def Declaration.Evaluated (declared : Declaration) : Prop :=
  ∃ value span, declared.value = .literal value span

namespace Body

def RulesEvaluated (body : Body) : Prop :=
  ∀ placed, body.RuleAt placed → ∀ declared ∈ placed.inner.own, declared.Evaluated

/-- The first declaration without a literal inside a rule, where the declarations of a rule come
before the rules inside it. -/
def FirstUnevaluated (body : Body) (declared : Declaration) : Prop :=
  ∃ placed front back, body.RuleAt placed ∧ placed.inner.own = front ++ declared :: back ∧
    ¬ declared.Evaluated ∧ (∀ earlier ∈ front, earlier.Evaluated) ∧
    ∀ other, body.RuleAt other → other.place.Before placed.place →
      ∀ earlier ∈ other.inner.own, earlier.Evaluated

end Body

namespace Css

variable {indent : Nat}

theorem setting_cases (narrow : indent ≤ widestField) (declared : Declaration) :
    (∃ value span, declared.value = .literal value span ∧
      setting indent declared = .ok (declared.property, value)) ∨
    ¬ declared.Evaluated ∧ setting indent declared =
      .error (.fault ⟨.unevaluatedExpression, declared.value.span.start⟩) := by
  unfold setting Declaration.Evaluated
  cases declared.value with
  | literal value span => exact Or.inl ⟨value, span, rfl, if_pos narrow⟩
  | reference name span diagnostic => exact Or.inr ⟨nofun, rfl⟩
  | operation operator lhs rhs span diagnostic => exact Or.inr ⟨nofun, rfl⟩

theorem evaluated_iff (narrow : indent ≤ widestField) {declared : Declaration} :
    declared.Evaluated ↔ ∃ made, setting indent declared = .ok made := by
  rcases setting_cases narrow declared with ⟨value, span, literal, done⟩ | ⟨unevaluated, stopped⟩
  · exact ⟨fun _ => ⟨_, done⟩, fun _ => ⟨value, span, literal⟩⟩
  · simp [unevaluated, stopped]

theorem blocksAt_eq_ok {paths : List (List Selector)} {placed : Placed} {made : List Block} :
    blocksAt indent paths placed = .ok made ↔
      ∃ own, placed.inner.own.mapM (setting indent) = .ok own ∧
        made = blockOf (placed.heads.foldl extendPaths paths) own := by
  unfold blocksAt
  cases placed.inner.own.mapM (setting indent) <;> simp [Except.map, eq_comm]

theorem blocksAt_eq_error {paths : List (List Selector)} {placed : Placed}
    {stop : Stop Diagnostic} :
    blocksAt indent paths placed = .error stop ↔
      placed.inner.own.mapM (setting indent) = .error stop := by
  unfold blocksAt
  cases placed.inner.own.mapM (setting indent) <;> simp [Except.map]

theorem blocks_eq_ok {body : Body} {made : List Block} :
    blocks indent [] body = .ok made ↔
      ∃ lists, body.rules.mapM (blocksAt indent []) = .ok lists ∧ made = lists.flatten := by
  rw [blocks_eq]
  cases body.rules.mapM (blocksAt indent []) <;> simp [Except.map, eq_comm]

theorem rulesEvaluated_of_blocks (narrow : indent ≤ widestField) {body : Body} {made : List Block}
    (done : blocks indent [] body = .ok made) : body.RulesEvaluated := by
  intro placed here declared member
  obtain ⟨lists, done, _⟩ := blocks_eq_ok.mp done
  obtain ⟨list, written⟩ := ok_of_mapM done (Body.mem_rules.mpr here)
  obtain ⟨own, settled, _⟩ := blocksAt_eq_ok.mp written
  exact (evaluated_iff narrow).mpr (ok_of_mapM settled member)

theorem first_of_blocks_error (narrow : indent ≤ widestField) {body : Body}
    {stop : Stop Diagnostic} (stopped : blocks indent [] body = .error stop) :
    ∃ declared, body.FirstUnevaluated declared ∧
      stop = .fault ⟨.unevaluatedExpression, declared.value.span.start⟩ := by
  have failed : body.rules.mapM (blocksAt indent []) = .error stop := by
    rw [blocks_eq] at stopped
    cases passed : body.rules.mapM (blocksAt indent []) <;> rw [passed] at stopped <;> cases stopped
    rfl
  obtain ⟨before, placed, after, split, written, here⟩ := first_of_mapM_error failed
  obtain ⟨front, declared, back, own, settled, last⟩ :=
    first_of_mapM_error (blocksAt_eq_error.mp here)
  rcases setting_cases narrow declared with ⟨_, _, _, done⟩ | ⟨unevaluated, rejected⟩
  · cases done.symm.trans last
  · cases rejected.symm.trans last
    have present : placed ∈ body.rules := by simp [split]
    refine ⟨declared, ⟨placed, front, back, Body.mem_rules.mp present, own, unevaluated, ?_, ?_⟩,
      rfl⟩
    · intro earlier member
      exact (evaluated_iff narrow).mpr (settled earlier member)
    · intro other there first earlier member
      -- In the list of rules, only those before the one that stops it are before it in place.
      have listed : other ∈ before := by
        have ordered : body.rules.Pairwise _ := body.picked_ordered Item.rule?
        rw [split, List.pairwise_append, List.pairwise_cons] at ordered
        have listed := Body.mem_rules.mpr there
        rw [split] at listed
        rcases List.mem_append.mp listed with listed | listed
        · exact listed
        · rcases List.mem_cons.mp listed with rfl | later
          · exact absurd first first.asymm
          · exact absurd first (ordered.2.1.1 other later).asymm
      obtain ⟨list, done⟩ := written other listed
      obtain ⟨own, settled, _⟩ := blocksAt_eq_ok.mp done
      exact (evaluated_iff narrow).mpr (ok_of_mapM settled member)

theorem blocks_iff_rulesEvaluated (narrow : indent ≤ widestField) (body : Body) :
    (∃ made, blocks indent [] body = .ok made) ↔ body.RulesEvaluated := by
  constructor
  · rintro ⟨made, done⟩
    exact rulesEvaluated_of_blocks narrow done
  · intro evaluated
    cases done : blocks indent [] body with
    | ok made => exact ⟨made, rfl⟩
    | error stop =>
        obtain ⟨declared, ⟨placed, front, back, here, own, unevaluated, _⟩, _⟩ :=
          first_of_blocks_error narrow done
        exact absurd (evaluated placed here declared (by simp [own])) unevaluated

def LineOf (indent : Nat) (declared : Declaration) (line : String) : Prop :=
  ∃ value span, declared.value = .literal value span ∧
    line = String.ofList (List.replicate indent ' ') ++ declared.property.name ++ ": " ++
      value.text ++ ";\n"

/-- The block of a rule: all paths to it, and a line for each of its own declarations. -/
def BlockOf (indent : Nat) (placed : Placed) (text : String) : Prop :=
  ∃ paths lines, Choices placed.heads paths ∧
    List.Forall₂ (LineOf indent) placed.inner.own lines ∧
    text = ", ".intercalate (paths.map fun path => " ".intercalate (path.map Selector.text)) ++
      " \x7b\n" ++ String.join lines ++ "\x7d"

theorem lineOf_of_setting {declared : Declaration} {made : Property × Literal}
    (done : setting indent declared = .ok made) :
    LineOf indent declared (settingText indent made) := by
  obtain ⟨value, span, literal, rfl⟩ := eq_of_setting done
  exact ⟨value, span, literal, rfl⟩

theorem blockOf_of_blocksAt {placed : Placed} {list : List Block}
    (selected : ∀ selectors ∈ placed.heads, selectors ≠ []) (declares : placed.inner.own ≠ [])
    (done : blocksAt indent [] placed = .ok list) :
    ∃ block, list = [block] ∧ BlockOf indent placed (block.text indent) := by
  obtain ⟨own, settled, rfl⟩ := blocksAt_eq_ok.mp done
  have lines := mapM_eq_ok.mp settled
  rw [foldl_extendPaths_nil placed.heads_ne_nil selected]
  have filled : own ≠ [] := by
    rintro rfl
    exact declares (List.forall₂_nil_right_iff.mp lines)
  refine ⟨⟨product placed.heads, own⟩, if_neg (mt List.isEmpty_iff.mp filled),
    product placed.heads, own.map (settingText indent), choices_product _, ?_, rfl⟩
  exact List.forall₂_map_right_iff.mpr (lines.imp fun _ _ => lineOf_of_setting)

theorem blocksAt_of_bare {placed : Placed} {list : List Block} (bare : placed.inner.own = [])
    (done : blocksAt indent [] placed = .ok list) : list = [] := by
  obtain ⟨own, settled, rfl⟩ := blocksAt_eq_ok.mp done
  rw [bare] at settled
  cases settled
  rfl

theorem blockOf_of_rules {rules : List Placed} {lists : List (List Block)}
    (selected : ∀ placed ∈ rules, ∀ selectors ∈ placed.heads, selectors ≠ [])
    (done : List.Forall₂ (fun placed list => blocksAt indent [] placed = .ok list) rules lists) :
    List.Forall₂ (BlockOf indent) (rules.filter fun placed => !placed.inner.own.isEmpty)
      (lists.flatten.map (Block.text indent)) := by
  induction done with
  | nil => exact .nil
  | @cons placed list rules lists here later ih =>
      obtain ⟨selectedHere, selectedLater⟩ := List.forall_mem_cons.mp selected
      have rest := ih selectedLater
      by_cases bare : placed.inner.own = []
      · rw [List.filter_cons_of_neg (by simp [bare]), blocksAt_of_bare bare here]
        exact rest
      · obtain ⟨block, rfl, written⟩ := blockOf_of_blocksAt selectedHere bare here
        rw [List.filter_cons_of_pos (by simpa using bare)]
        exact .cons written rest

end Css

namespace Sheet

theorem css_eq_ok {sheet : Sheet} {indent : Nat} {css : String} :
    sheet.css indent = .ok css ↔
      ∃ made, Css.blocks indent [] sheet.body = .ok made ∧ css = Css.text indent made := by
  rw [Sheet.css]
  cases Css.blocks indent [] sheet.body <;> simp [bind, Except.bind, pure, Except.pure, eq_comm]

/-- Writing a sheet whose rules all have selectors flattens it. It fails only at a declaration
without a literal, and then where the expression of the first one starts. The text has one block
for each rule that declares something, an outer rule before the rules inside it, with all paths to
the rule and with its own declarations. -/
theorem css_flattens (sheet : Sheet) (indent : Nat) (narrow : indent ≤ widestField)
    (selected : ∀ placed, sheet.body.RuleAt placed →
      ∀ selectors ∈ placed.heads, selectors ≠ []) :
    ((∃ css, sheet.css indent = .ok css) ↔ sheet.body.RulesEvaluated) ∧
    (¬ sheet.body.RulesEvaluated → ∃ declared, sheet.body.FirstUnevaluated declared ∧
      sheet.css indent = .error (.fault ⟨.unevaluatedExpression, declared.value.span.start⟩)) ∧
    ∀ css, sheet.css indent = .ok css →
      ∃ (listed : List Placed) (texts : List String),
        listed.Pairwise (fun one other => one.place.Before other.place) ∧
        (∀ placed, placed ∈ listed ↔ sheet.body.RuleAt placed ∧ placed.inner.own ≠ []) ∧
        List.Forall₂ (Css.BlockOf indent) listed texts ∧
        css = if texts = [] then "" else "\n\n".intercalate texts ++ "\n" := by
  have accepts : (∃ css, sheet.css indent = .ok css) ↔ sheet.body.RulesEvaluated := by
    rw [← Css.blocks_iff_rulesEvaluated narrow]
    simp only [css_eq_ok]
    exact ⟨fun ⟨_, made, done, _⟩ => ⟨made, done⟩, fun ⟨made, done⟩ => ⟨_, made, done, rfl⟩⟩
  refine ⟨accepts, ?_, ?_⟩
  · intro unevaluated
    cases done : Css.blocks indent [] sheet.body with
    | ok made => exact absurd ((Css.blocks_iff_rulesEvaluated narrow _).mp ⟨made, done⟩) unevaluated
    | error stop =>
        obtain ⟨declared, first, rfl⟩ := Css.first_of_blocks_error narrow done
        refine ⟨declared, first, ?_⟩
        rw [Sheet.css, done]
        rfl
  · intro css written
    obtain ⟨made, done, rfl⟩ := css_eq_ok.mp written
    obtain ⟨lists, passed, rfl⟩ := Css.blocks_eq_ok.mp done
    refine ⟨sheet.body.rules.filter fun placed => !placed.inner.own.isEmpty,
      lists.flatten.map (Css.Block.text indent),
      (sheet.body.picked_ordered Item.rule?).filter _, ?_, ?_, ?_⟩
    · intro placed
      simp [Body.mem_rules]
    · exact Css.blockOf_of_rules (fun placed member => selected placed (Body.mem_rules.mp member))
        (mapM_eq_ok.mp passed)
    · simp [Css.text]

def nestedPairs : Sheet where
  body :=
    .rule [.byClass "a", .byId "b"]
      (.rule [.tag "p", .byClass "q"]
         (.declaration ⟨.color, .literal (.color "red") .null, .null, none⟩ .empty) .null <|
       .declaration ⟨.width, .literal (.pixel 1) .null, .null, none⟩ .empty) .null .empty
  span := .null

def nestedPairsText : String :=
  ".a, #b \x7b\n  width: 1px;\n\x7d\n\n" ++
  ".a p, .a .q, #b p, #b .q \x7b\n  color: red;\n\x7d\n"

/-- A rule with two selectors, and in front of its declaration one that has two as well. -/
theorem nestedPairs_flattens :
    (∀ placed, nestedPairs.body.RuleAt placed → ∀ selectors ∈ placed.heads, selectors ≠ []) ∧
    nestedPairs.body.RulesEvaluated ∧
    ∃ (listed : List Placed) (texts : List String),
      (∀ placed, placed ∈ listed ↔ nestedPairs.body.RuleAt placed ∧ placed.inner.own ≠ []) ∧
      List.Forall₂ (Css.BlockOf 2) listed texts ∧ texts ≠ [] ∧
      "\n\n".intercalate texts ++ "\n" = nestedPairsText := by
  have selected (placed : Placed) (here : nestedPairs.body.RuleAt placed) :
      ∀ selectors ∈ placed.heads, selectors ≠ [] := by
    have heads : nestedPairs.body.rules.map Placed.heads =
        [[[.byClass "a", .byId "b"]], [[.byClass "a", .byId "b"], [.tag "p", .byClass "q"]]] := rfl
    have listed := List.mem_map_of_mem (f := Placed.heads) (Body.mem_rules.mpr here)
    rw [heads, List.mem_cons, List.mem_singleton] at listed
    rcases listed with same | same <;> simp [same]
  have written : nestedPairs.css 2 = .ok nestedPairsText := rfl
  obtain ⟨accepts, _, flat⟩ := css_flattens nestedPairs 2 (by decide) selected
  obtain ⟨listed, texts, _, complete, blocks, text⟩ := flat _ written
  have nonempty : texts ≠ [] := by
    rintro rfl
    exact absurd text (by decide)
  rw [if_neg nonempty] at text
  exact ⟨selected, accepts.mp ⟨_, written⟩, listed, texts, complete, blocks, nonempty, text.symm⟩

def unevaluatedWidth : Declaration :=
  ⟨.width, .reference "@x" (.ofBytes 12 14 "stdin") none, .ofBytes 5 15 "stdin", none⟩

def unevaluatedRule : Sheet where
  body :=
    .rule [.byClass "a"] (.declaration unevaluatedWidth .empty) (.ofBytes 0 17 "stdin") .empty
  span := .ofBytes 0 17 "stdin"

/-- The error is where the expression starts, and not where the first declaration without a literal
does. -/
theorem unevaluatedRule_stops_at_value :
    Sheet.ofSource ".a \x7b width: @x; \x7d" "stdin" = .ok unevaluatedRule ∧
    (∀ placed, unevaluatedRule.body.RuleAt placed →
      ∀ selectors ∈ placed.heads, selectors ≠ []) ∧
    unevaluatedRule.body.FirstUnevaluated unevaluatedWidth ∧
    unevaluatedRule.css 2 = .error (.fault ⟨.unevaluatedExpression, .ofBytes 12 "stdin"⟩) ∧
    unevaluatedWidth.span.start = .ofBytes 5 "stdin" ∧
    ∀ declared, unevaluatedRule.body.FirstUnevaluated declared →
      unevaluatedRule.css 2 ≠ .error (.fault ⟨.unevaluatedExpression, declared.span.start⟩) := by
  have reads : Sheet.ofSource ".a \x7b width: @x; \x7d" "stdin" = .ok unevaluatedRule := by
    rw [Sheet.ofSource, Token.ofSource, Lexeme.split_eq]
    decide +kernel
  let only : Placed := ⟨[0], [], [.byClass "a"], .declaration unevaluatedWidth .empty⟩
  have rules : unevaluatedRule.body.rules = [only] := rfl
  have one (placed : Placed) (here : unevaluatedRule.body.RuleAt placed) : placed = only := by
    rw [← Body.mem_rules, rules, List.mem_singleton] at here
    exact here
  have present : unevaluatedRule.body.RuleAt only := by
    rw [← Body.mem_rules, rules]
    exact List.mem_singleton_self only
  have stops : unevaluatedRule.css 2 =
    .error (.fault ⟨.unevaluatedExpression, .ofBytes 12 "stdin"⟩) := rfl
  have referring : ¬ unevaluatedWidth.Evaluated := by
    rintro ⟨_, _, ⟨⟩⟩
  refine ⟨reads, ?_, ⟨only, [], [], present, rfl, referring, List.forall_mem_nil _, ?_⟩, stops, rfl,
    ?_⟩
  · intro placed here
    rw [one placed here]
    exact List.forall_mem_singleton.mpr (List.cons_ne_nil _ _)
  · intro other there before
    rw [one other there] at before
    exact absurd before before.asymm
  · rintro declared ⟨placed, front, back, here, own, _⟩
    have member : declared ∈ placed.inner.own := by simp [own]
    rw [one placed here] at member
    rw [List.mem_singleton.mp member, stops]
    decide

end Sheet

end TypedStyle

import TypedStyle.Proofs.Binding
import TypedStyle.Proofs.Outcome

/-!
Rules are isolated from one another. What a rule with selectors binds is gone after it, and it is
written as blocks of its own. So another rule with selectors in its place changes nothing outside:
not what is reported there, not what it evaluates to, and not the blocks it is written as.
-/

namespace TypedStyle

namespace Body

def replaceAt (other : Item) : Path → Body → Body
  | [], body => body
  | [index], body => .ofList (body.toList.set index other)
  | index :: next :: rest, body =>
      match body.toList[index]? with
      | some (.rule selectors inner span) =>
          .ofList (body.toList.set index
            (.rule selectors (inner.replaceAt other (next :: rest)) span))
      | _ => body

theorem ofList_cons (item : Item) (later : List Item) :
    ofList (item :: later) = Body.cons item (ofList later) := rfl

theorem replaceAt_cons_zero (other item : Item) (later : Body) :
    (Body.cons item later).replaceAt other [0] = Body.cons other later := by
  rw [replaceAt, toList_cons, List.set_cons_zero, ofList_cons, ofList_toList]

theorem replaceAt_cons_succ (other item : Item) (later : Body) (index : Nat) (rest : Path) :
    (Body.cons item later).replaceAt other ((index + 1) :: rest) =
      Body.cons item (later.replaceAt other (index :: rest)) := by
  cases rest with
  | nil => rw [replaceAt, toList_cons, List.set_cons_succ, ofList_cons, replaceAt]
  | cons next rest =>
      rw [replaceAt, replaceAt, toList_cons, List.getElem?_cons_succ]
      split
      · rw [List.set_cons_succ, ofList_cons]
      · rfl

theorem replaceAt_rule (other : Item) (selectors : List Selector) (inner : Body) (span : Span)
    (later : Body) (next : Nat) (rest : Path) :
    (rule selectors inner span later).replaceAt other (0 :: next :: rest) =
      rule selectors (inner.replaceAt other (next :: rest)) span later := by
  change ofList (.rule selectors (inner.replaceAt other (next :: rest)) span :: later.toList) = _
  rw [ofList_cons, ofList_toList]
  rfl

/-- Of two bodies, `item` stands at the place in the first and `other` in the second, and all else
is the same. -/
inductive SameBut (item other : Item) : Path → Body → Body → Prop where
  | here (later : Body) : SameBut item other [0] (Body.cons item later) (Body.cons other later)
  | later (first : Item) {index : Nat} {rest : Path} {one two : Body}
      (same : SameBut item other (index :: rest) one two) :
      SameBut item other ((index + 1) :: rest) (Body.cons first one) (Body.cons first two)
  | inner (selectors : List Selector) (span : Span) (later : Body) {next : Nat} {rest : Path}
      {one two : Body} (same : SameBut item other (next :: rest) one two) :
      SameBut item other (0 :: next :: rest) (.rule selectors one span later)
        (.rule selectors two span later)

namespace SameBut

variable {item other : Item} {place : Path} {one two : Body}

theorem eq_replaceAt (same : SameBut item other place one two) :
    two = one.replaceAt other place := by
  induction same with
  | here later => rw [replaceAt_cons_zero]
  | later first same ih => rw [replaceAt_cons_succ, ih]
  | inner selectors span later same ih => rw [replaceAt_rule, ih]

-- For an item in front of a body, given what is so within it and after it.
theorem of_cons (first : Item) {later : Body}
    (inside : ∀ place, first.inner.item? place = some item →
      SameBut item other place first.inner (first.inner.replaceAt other place))
    (after : ∀ place, later.item? place = some item →
      SameBut item other place later (later.replaceAt other place))
    (found : (Body.cons first later).item? place = some item) :
    SameBut item other place (Body.cons first later) ((Body.cons first later).replaceAt other place) := by
  rcases place with _ | ⟨index | index, rest⟩
  · cases found
  · cases rest with
    | nil =>
        rw [item?_cons_zero] at found
        cases found
        rw [replaceAt_cons_zero]
        exact .here later
    | cons next rest =>
        rw [item?_cons_inner] at found
        cases first with
        | declaration declared | assignment assigned =>
            rw [Item.inner, item?_empty] at found
            cases found
        | rule selectors inner span =>
            have within := SameBut.inner selectors span later (inside (next :: rest) found)
            rwa [← replaceAt_rule] at within
  · rw [item?_cons_succ] at found
    rw [replaceAt_cons_succ]
    exact .later first (after (index :: rest) found)

theorem of_empty (other : Item) (place : Path) (found : empty.item? place = some item) :
    SameBut item other place empty (empty.replaceAt other place) := by
  rw [item?_empty] at found
  cases found

theorem of_item? (other : Item) {body : Body} (found : body.item? place = some item) :
    SameBut item other place body (body.replaceAt other place) := by
  induction body generalizing place with
  | empty => exact of_empty other place found
  | declaration declared later ih =>
      exact of_cons (.declaration declared) (of_empty other) (fun _ => ih) found
  | assignment assigned later ih =>
      exact of_cons (.assignment assigned) (of_empty other) (fun _ => ih) found
  | rule selectors inner span later ihInner ihLater =>
      exact of_cons (.rule selectors inner span) (fun _ => ihInner) (fun _ => ihLater) found

end SameBut

end Body

namespace Body

section

variable {selectors others : List Selector} {inner otherInner : Body} {span otherSpan : Span}
  {place : Path} {one two : Body}

/-- Another rule in the same place leaves the rest checked as it was. -/
theorem SameBut.check
    (same : SameBut (.rule selectors inner span) (.rule others otherInner otherSpan) place one two)
    (selected : selectors ≠ []) (otherSelected : others ≠ []) (scopes : Scopes ValueType) :
    (∃ result otherResult,
      SameBut (.rule selectors result span) (.rule others otherResult otherSpan) place
        (one.check scopes) (two.check scopes)) ∧
      two.typesAfter scopes = one.typesAfter scopes := by
  induction same generalizing scopes with
  | here later =>
      simp only [Body.cons, check_rule, typesAfter_rule, typesAfterRule,
        Scopes.afterRule_of_selected selected, Scopes.afterRule_of_selected otherSelected, and_true]
      exact ⟨_, _, .here (later.check scopes)⟩
  | later first same ih =>
      cases first with
      | declaration declared =>
          obtain ⟨⟨result, otherResult, checked⟩, after⟩ := ih scopes
          exact ⟨⟨result, otherResult, .later (.declaration (declared.check scopes)) checked⟩, after⟩
      | assignment assigned =>
          obtain ⟨⟨result, otherResult, checked⟩, after⟩ :=
            ih (scopes.bind assigned.name (assigned.value.typeIn scopes))
          exact ⟨⟨result, otherResult, .later (.assignment (assigned.check scopes)) checked⟩, after⟩
      | rule heads body within =>
          obtain ⟨⟨result, otherResult, checked⟩, after⟩ := ih (typesAfterRule scopes heads body)
          simp only [Body.cons, check_rule, typesAfter_rule]
          exact ⟨⟨result, otherResult, .later (.rule heads _ within) checked⟩, after⟩
  | inner heads within later same ih =>
      obtain ⟨⟨result, otherResult, checked⟩, after⟩ := ih (scopes.enterFor heads)
      simp only [check_rule, typesAfter_rule, typesAfterRule, after, and_true]
      exact ⟨result, otherResult, .inner heads within _ checked⟩

/-- What is outside the rules evaluates to the same, provided that both bodies evaluate. -/
theorem SameBut.folded
    (same : SameBut (.rule selectors inner span) (.rule others otherInner otherSpan) place one two)
    (selected : selectors ≠ []) (otherSelected : others ≠ []) {scopes after last : Scopes Literal}
    {first second : Body} (done : one.folded scopes = .ok (after, first))
    (likewise : two.folded scopes = .ok (last, second)) :
    last = after ∧ ∃ result otherResult,
      SameBut (.rule selectors result span) (.rule others otherResult otherSpan) place first
        second := by
  induction same generalizing scopes after last first second with
  | here later =>
      obtain ⟨_, result, rest, _, there, rfl⟩ := of_folded_rule done
      obtain ⟨_, otherResult, _, _, otherThere, rfl⟩ := of_folded_rule likewise
      rw [Scopes.afterRule_of_selected selected] at there
      rw [Scopes.afterRule_of_selected otherSelected] at otherThere
      cases there.symm.trans otherThere
      exact ⟨rfl, result, otherResult, .here rest⟩
  | later item same ih =>
      cases item with
      | declaration declared =>
          obtain ⟨value, _, here, there, rfl⟩ := of_folded_declaration done
          obtain ⟨_, _, otherHere, otherThere, rfl⟩ := of_folded_declaration likewise
          cases here.symm.trans otherHere
          obtain ⟨left, result, otherResult, rest⟩ := ih there otherThere
          exact ⟨left, result, otherResult, .later (.declaration (declared.withValue value)) rest⟩
      | assignment assigned =>
          obtain ⟨value, _, here, there, rfl⟩ := of_folded_assignment done
          obtain ⟨_, _, otherHere, otherThere, rfl⟩ := of_folded_assignment likewise
          cases here.symm.trans otherHere
          obtain ⟨left, result, otherResult, rest⟩ := ih there otherThere
          exact ⟨left, result, otherResult, .later (.assignment (assigned.withValue value)) rest⟩
      | rule heads body within =>
          obtain ⟨_, inside, _, here, there, rfl⟩ := of_folded_rule done
          obtain ⟨_, _, _, otherHere, otherThere, rfl⟩ := of_folded_rule likewise
          cases here.symm.trans otherHere
          obtain ⟨left, result, otherResult, rest⟩ := ih there otherThere
          exact ⟨left, result, otherResult, .later (.rule heads inside within) rest⟩
  | inner heads within later same ih =>
      obtain ⟨_, _, rest, here, there, rfl⟩ := of_folded_rule done
      obtain ⟨_, _, _, otherHere, otherThere, rfl⟩ := of_folded_rule likewise
      obtain ⟨rfl, result, otherResult, inside⟩ := ih here otherHere
      cases there.symm.trans otherThere
      exact ⟨rfl, result, otherResult, .inner heads within rest inside⟩

end

end Body

namespace Css

def pathsAround (paths : List (List Selector)) : Path → Body → List (List Selector)
  | [], _ | [_], _ => paths
  | index :: next :: rest, body =>
      match body.toList[index]? with
      | some (.rule selectors inner _) =>
          pathsAround (extendPaths paths selectors) (next :: rest) inner
      | _ => paths

theorem pathsAround_cons_zero (paths : List (List Selector)) (item : Item) (later : Body) :
    pathsAround paths [0] (Body.cons item later) = paths := rfl

theorem pathsAround_cons_succ (paths : List (List Selector)) (item : Item) (later : Body)
    (index : Nat) (rest : Path) :
    pathsAround paths ((index + 1) :: rest) (Body.cons item later) =
      pathsAround paths (index :: rest) later := by
  cases rest with
  | nil => rfl
  | cons next rest => rw [pathsAround, pathsAround, Body.toList_cons, List.getElem?_cons_succ]

structure Parts (indent : Nat) (paths : List (List Selector)) (place : Path) (body : Body)
    (before own after : List Block) : Prop where
  whole : blocks indent paths body = .ok (before ++ own ++ after)
  item : ∃ item, body.item? place = some item ∧
    blocks indent (pathsAround paths place body) (Body.cons item .empty) = .ok own

namespace Parts

variable {indent : Nat} {paths : List (List Selector)} {place : Path} {body : Body}
  {before own after : List Block} {index : Nat} {rest : Path}

theorem here {selectors : List Selector} {inner later : Body} {span : Span}
    {own : List (Property × Literal)} {nested after : List Block}
    (settled : settings indent inner = .ok own)
    (inside : blocks indent (extendPaths paths selectors) inner = .ok nested)
    (there : blocks indent paths later = .ok after) :
    Parts indent paths [0] (Body.cons (.rule selectors inner span) later) []
      (blockOf (extendPaths paths selectors) own ++ nested) after where
  whole := blocks_rule_eq_ok.mpr ⟨own, nested, after, settled, inside, there, rfl⟩
  item := by
    refine ⟨.rule selectors inner span, Body.item?_cons_zero _ later, ?_⟩
    rw [pathsAround_cons_zero]
    exact blocks_rule_eq_ok.mpr ⟨own, nested, [], settled, inside, rfl, by simp⟩

theorem later {first : Item} {front : List Block}
    (parts : Parts indent paths (index :: rest) body before own after)
    (ahead : blocks indent paths (Body.cons first body) =
      .ok (front ++ (before ++ own ++ after))) :
    Parts indent paths ((index + 1) :: rest) (Body.cons first body) (front ++ before) own
      after where
  whole := by simpa using ahead
  item := by
    obtain ⟨item, found, written⟩ := parts.item
    rw [Body.item?_cons_succ, pathsAround_cons_succ]
    exact ⟨item, found, written⟩

theorem inner {selectors : List Selector} {span : Span} {later : Body}
    {settled : List (Property × Literal)} {last : List Block}
    (parts : Parts indent (extendPaths paths selectors) (index :: rest) body before own after)
    (here : settings indent body = .ok settled) (there : blocks indent paths later = .ok last) :
    Parts indent paths (0 :: index :: rest) (.rule selectors body span later)
      (blockOf (extendPaths paths selectors) settled ++ before) own (after ++ last) where
  whole := blocks_rule_eq_ok.mpr ⟨settled, _, last, here, parts.whole, there, by simp⟩
  item := by
    obtain ⟨item, found, written⟩ := parts.item
    have inside := Body.item?_cons_inner (.rule selectors body span) later index rest
    exact ⟨item, inside.trans found, written⟩

end Parts

end Css

namespace Body.SameBut

open Css

variable {selectors others : List Selector} {inner otherInner : Body} {span otherSpan : Span}
  {place : Path} {one two : Body} {indent : Nat}

theorem settings_eq
    (same : SameBut (.rule selectors inner span) (.rule others otherInner otherSpan) place one two) :
    settings indent two = settings indent one := by
  induction same with
  | here later => rfl
  | inner heads within later same ih => rfl
  | later first same ih =>
      cases first with
      | declaration declared =>
          simp only [Body.cons, settings, ih]
      | assignment assigned => exact ih
      | rule heads body within => exact ih

theorem blocks_parts
    (same : SameBut (.rule selectors inner span) (.rule others otherInner otherSpan) place one two)
    {paths : List (List Selector)} {written rewritten : List Block}
    (done : blocks indent paths one = .ok written)
    (likewise : blocks indent paths two = .ok rewritten) :
    ∃ before own otherOwn after, Parts indent paths place one before own after ∧
      Parts indent paths place two before otherOwn after := by
  induction same generalizing paths written rewritten with
  | here later =>
      obtain ⟨own, nested, after, settled, inside, there, -⟩ := blocks_rule_eq_ok.mp done
      obtain ⟨otherOwn, otherNested, last, otherSettled, otherInside, -, -⟩ :=
        blocks_rule_eq_ok.mp likewise
      exact ⟨[], _, _, after, .here settled inside there, .here otherSettled otherInside there⟩
  | later first same ih =>
      cases first with
      | declaration declared | assignment assigned =>
          obtain ⟨before, own, otherOwn, after, parts, otherParts⟩ := ih done likewise
          refine ⟨[] ++ before, own, otherOwn, after, parts.later ?_, otherParts.later ?_⟩
          · exact parts.whole
          · exact otherParts.whole
      | rule heads body within =>
          obtain ⟨settled, nested, last, here, inside, there, -⟩ := blocks_rule_eq_ok.mp done
          obtain ⟨-, -, otherLast, -, -, otherThere, -⟩ := blocks_rule_eq_ok.mp likewise
          obtain ⟨before, own, otherOwn, after, parts, otherParts⟩ := ih there otherThere
          let front := blockOf (extendPaths paths heads) settled ++ nested
          refine ⟨front ++ before, own, otherOwn, after, parts.later ?_, otherParts.later ?_⟩
          · exact blocks_rule_eq_ok.mpr ⟨settled, nested, _, here, inside, parts.whole, rfl⟩
          · exact blocks_rule_eq_ok.mpr ⟨settled, nested, _, here, inside, otherParts.whole, rfl⟩
  | inner heads within later same ih =>
      obtain ⟨settled, nested, last, here, inside, there, -⟩ := blocks_rule_eq_ok.mp done
      obtain ⟨-, otherNested, -, -, otherInside, -, -⟩ := blocks_rule_eq_ok.mp likewise
      obtain ⟨before, own, otherOwn, after, parts, otherParts⟩ := ih inside otherInside
      have otherHere := same.settings_eq.trans here
      exact ⟨_, own, otherOwn, _, parts.inner here there, otherParts.inner otherHere there⟩

end Body.SameBut

namespace Sheet

/-- Where both sheets can be written, their texts have the same blocks in the same order, apart
from those of the items at the place. -/
def WrittenAlike (place : Path) (one two : Sheet) : Prop :=
  ∀ indent css text, one.css indent = .ok css → two.css indent = .ok text →
    ∃ before own otherOwn after,
      Css.Parts indent [] place one.body before own after ∧
      Css.Parts indent [] place two.body before otherOwn after ∧
      css = Css.text indent (before ++ own ++ after) ∧
      text = Css.text indent (before ++ otherOwn ++ after)

theorem writtenAlike_of_sameBut {one two : Sheet} {place : Path} {selectors others : List Selector}
    {inner otherInner : Body} {span otherSpan : Span}
    (same : Body.SameBut (.rule selectors inner span) (.rule others otherInner otherSpan) place
      one.body two.body) : WrittenAlike place one two := by
  intro indent css text done likewise
  obtain ⟨written, here, done⟩ := ok_of_bind done
  obtain ⟨rewritten, there, likewise⟩ := ok_of_bind likewise
  obtain ⟨before, own, otherOwn, after, parts, otherParts⟩ := same.blocks_parts here there
  refine ⟨before, own, otherOwn, after, parts, otherParts, ?_, ?_⟩
  · cases here.symm.trans parts.whole
    exact (Except.ok.inj done).symm
  · cases there.symm.trans otherParts.whole
    exact (Except.ok.inj likewise).symm

/-- Another rule with selectors in the place of one changes nothing outside it. Checking attaches
the same diagnostics to all else; if both sheets evaluate, all else evaluates to the same; and if
both are written, the blocks of all else are the same, in the same order. -/
theorem rule_isolated (sheet : Sheet) (place : Path) (selectors others : List Selector)
    (inner otherInner : Body) (span otherSpan : Span)
    (found : sheet.body.item? place = some (.rule selectors inner span))
    (selected : selectors ≠ []) (otherSelected : others ≠ []) :
    let changed : Sheet :=
      { sheet with body := sheet.body.replaceAt (.rule others otherInner otherSpan) place }
    (∃ result, changed.check = { sheet.check with
      body := sheet.check.body.replaceAt (.rule others result otherSpan) place }) ∧
    (∀ evaluated other, sheet.evaluate = .ok evaluated → changed.evaluate = .ok other →
      (∃ result, other = { evaluated with
        body := evaluated.body.replaceAt (.rule others result otherSpan) place }) ∧
      WrittenAlike place evaluated other) ∧
    WrittenAlike place sheet changed := by
  intro changed
  have same : Body.SameBut (.rule selectors inner span) (.rule others otherInner otherSpan) place
    sheet.body changed.body := .of_item? _ found
  refine ⟨?_, ?_, writtenAlike_of_sameBut same⟩
  · obtain ⟨⟨_, result, checked⟩, _⟩ := same.check selected otherSelected .initial
    exact ⟨result, congrArg (Sheet.mk · sheet.span) checked.eq_replaceAt⟩
  · intro evaluated other done likewise
    obtain ⟨after, body, here, rfl⟩ := body_of_evaluate done
    obtain ⟨last, otherBody, there, rfl⟩ := body_of_evaluate likewise
    obtain ⟨-, _, result, folded⟩ := same.folded selected otherSelected here there
    exact ⟨⟨result, congrArg (Sheet.mk · sheet.span) folded.eq_replaceAt⟩,
      writtenAlike_of_sameBut folded⟩

def shadowedWidth : Sheet where
  body :=
    .rule [.byClass "a"]
      (.assignment ⟨"@x", .literal (.pixel 1) .null, .null⟩ <|
       .rule [.tag "b"]
         (.assignment ⟨"@x", .literal (.pixel 2) .null, .null⟩ <|
          .declaration ⟨.width, .reference "@x" .null none, .null, none⟩ .empty) .null <|
       .declaration ⟨.width, .reference "@x" .null none, .null, none⟩ .empty) .null .empty
  span := .null

def tinted : Body :=
  .assignment ⟨"@x", .literal (.color "red") .null, .null⟩ <|
  .rule [] (.declaration ⟨.color, .reference "@x" .null none, .null, none⟩ .empty) .null .empty

/-- A rule that shadows the variable of the rule around it, which is used again after it. -/
theorem shadowedWidth_isolated :
    ∃ inner evaluated other css text,
      shadowedWidth.body.item? [0, 1] = some (.rule [.tag "b"] inner .null) ∧
      shadowedWidth.evaluate = .ok evaluated ∧
      Sheet.evaluate { shadowedWidth with
        body := shadowedWidth.body.replaceAt (.rule [.tag "p", .byId "q"] tinted .null) [0, 1] } =
          .ok other ∧
      evaluated.css 2 = .ok css ∧ other.css 2 = .ok text ∧ css ≠ text ∧
      (∃ result, other = { evaluated with
        body := evaluated.body.replaceAt (.rule [.tag "p", .byId "q"] result .null) [0, 1] }) ∧
      WrittenAlike [0, 1] evaluated other := by
  have isolated := rule_isolated shadowedWidth [0, 1] [.tag "b"] [.tag "p", .byId "q"] _ tinted
    .null .null rfl (List.cons_ne_nil _ _) (List.cons_ne_nil _ _)
  refine ⟨_, _, _, _, _, rfl, rfl, rfl, rfl, rfl, ?_, isolated.2.1 _ _ rfl rfl⟩
  decide

end Sheet

end TypedStyle

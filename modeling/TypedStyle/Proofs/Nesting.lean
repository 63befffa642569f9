import TypedStyle.Proofs.SheetReading
import TypedStyle.Proofs.Written

/-!
The spans of a tree are nested as the tree is. The tokens of a source come in order, and the
children of a node have their spans from phrases of the node's tokens that follow one another. So
every child lies in its parent, and of two children the later one starts after the other has ended.
-/

namespace TypedStyle

open Text

inductive Node where
  | ofSheet (sheet : Sheet)
  | ofItem (item : Item)
  | ofExpr (tree : Expr)

def Item.span : Item → Span
  | .declaration declared => declared.span
  | .assignment assigned => assigned.span
  | .rule _ _ span => span

namespace Node

def span : Node → Span
  | .ofSheet sheet => sheet.span
  | .ofItem item => item.span
  | .ofExpr tree => tree.span

def children : Node → List Node
  | .ofSheet sheet => sheet.body.toList.map .ofItem
  | .ofItem (.declaration declared) => [.ofExpr declared.value]
  | .ofItem (.assignment assigned) => [.ofExpr assigned.value]
  | .ofItem (.rule _ inner _) => inner.toList.map .ofItem
  | .ofExpr (.operation _ lhs rhs _ _) => [.ofExpr lhs, .ofExpr rhs]
  | .ofExpr (.literal _ _) | .ofExpr (.reference _ _ _) => []

def HasChild (parent child : Node) : Prop := child ∈ parent.children

def IsInner : Node → Prop
  | .ofSheet _ => False
  | .ofItem _ | .ofExpr _ => True

theorem HasChild.isInner {parent child : Node} (below : parent.HasChild child) :
    child.IsInner := by
  have item {items : List Item} (member : child ∈ items.map Node.ofItem) : child.IsInner := by
    obtain ⟨item, _, rfl⟩ := List.mem_map.mp member
    trivial
  unfold HasChild children at below
  split at below
  · exact item below
  · cases List.mem_singleton.mp below
    trivial
  · cases List.mem_singleton.mp below
    trivial
  · exact item below
  · rcases List.mem_pair.mp below with rfl | rfl <;> trivial
  · cases below
  · cases below

def SpannedBy : Node → List Token → Prop
  | .ofSheet sheet => sheet.body.SpannedBy
  | .ofItem item => (Body.ofList [item]).SpannedBy
  | .ofExpr tree => tree.SpannedBy

end Node

inductive Phrases : List Node → List Token → Prop where
  | nil (tokens : List Token) : Phrases [] tokens
  | cons {node : Node} {later : List Node} {phrase more : List Token} (between : List Token)
      (written : node.SpannedBy phrase) (rest : Phrases later more) :
      Phrases (node :: later) (between ++ phrase ++ more)

namespace Phrases

variable {nodes : List Node} {tokens : List Token}

theorem behind (front : List Token) (here : Phrases nodes tokens) :
    Phrases nodes (front ++ tokens) := by
  cases here with
  | nil => exact .nil _
  | cons between written rest =>
      rw [← List.append_assoc, ← List.append_assoc]
      exact .cons (front ++ between) written rest

theorem before (here : Phrases nodes tokens) (back : List Token) :
    Phrases nodes (tokens ++ back) := by
  induction here with
  | nil => exact .nil _
  | cons between written rest ih =>
      rw [List.append_assoc]
      exact .cons between written ih

/-- The phrase of one of the nodes. -/
theorem of_mem (here : Phrases nodes tokens) {node : Node} (member : node ∈ nodes) :
    ∃ phrase, phrase <:+: tokens ∧ node.SpannedBy phrase := by
  induction here with
  | nil => cases member
  | @cons first later phrase more between written rest ih =>
      rcases List.mem_cons.mp member with rfl | member
      · exact ⟨phrase, ⟨between, more, rfl⟩, written⟩
      · obtain ⟨inner, part, written⟩ := ih member
        exact ⟨inner, part.trans (List.suffix_append _ more).isInfix, written⟩

end Phrases

/-- The tokens that an item is written with: a declaration and an assignment from the name to the
semicolon, and a rule from its first selector to the closing brace. -/
def Item.BoundBy (first : Token) (middle : List Token) (last : Token) : Item → Prop
  | .declaration declared =>
      first.kind = .identifier ∧ first.text = declared.property.name ∧ last.kind = .semicolon
  | .assignment assigned =>
      first.kind = .variableName ∧ first.text = assigned.name ∧ last.kind = .semicolon
  | .rule selectors _ _ =>
      (∃ heads, heads <+: middle ∧ DerivesSelectors (first :: heads) selectors) ∧
        last.kind = .closeCurly

namespace Body.SpannedBy

-- What the constructors say of the first item alone, and then of the items after it.
theorem of_cons {item : Item} {later : Body} {tokens : List Token}
    (spanned : (Body.cons item later).SpannedBy tokens) :
    ∃ phrase more, tokens = phrase ++ more ∧ (Body.ofList [item]).SpannedBy phrase ∧
      later.SpannedBy more := by
  cases item with
  | declaration declared =>
      cases spanned with
      | @declaration name colon semicolon value more _ _ _ named known divides expression ends rest =>
          exact ⟨name :: colon :: (value ++ [semicolon]), more, by simp,
            .declaration named known divides expression ends .empty, rest⟩
  | assignment assigned =>
      cases spanned with
      | @assignment name colon semicolon value more _ _ named divides expression ends rest =>
          exact ⟨name :: colon :: (value ++ [semicolon]), more, by simp,
            .assignment named divides expression ends .empty, rest⟩
  | rule selectors inner span =>
      cases spanned with
      | @rule first opening closing heads inside more _ _ _ selects opens body closes rest =>
          exact ⟨first :: (heads ++ opening :: (inside ++ [closing])), more, by simp,
            .rule selects opens body closes .empty, rest⟩

theorem phrases {body : Body} {tokens : List Token} (spanned : body.SpannedBy tokens) :
    Phrases (body.toList.map .ofItem) tokens := by
  rw [← Body.ofList_toList body] at spanned
  generalize body.toList = items at spanned ⊢
  induction items generalizing tokens with
  | nil => exact .nil tokens
  | cons item later ih =>
      obtain ⟨phrase, more, rfl, here, there⟩ := of_cons spanned
      exact .cons [] here (ih there)

/-- An item runs from its first token to its last, and the tokens of its children stand between. -/
theorem framed {item : Item} {tokens : List Token}
    (spanned : (Body.ofList [item]).SpannedBy tokens) :
    ∃ first middle last, tokens = first :: (middle ++ [last]) ∧
      item.span = ⟨first.span.start, last.span.stop⟩ ∧ item.BoundBy first middle last ∧
      Phrases (Node.ofItem item).children middle := by
  cases item with
  | declaration declared =>
      cases spanned with
      | @declaration name colon semicolon value more _ _ _ named known divides expression ends rest =>
          cases rest
          refine ⟨name, [colon] ++ value ++ [], semicolon, by simp, rfl, ⟨named, known, ends⟩, ?_⟩
          exact .cons [colon] expression (.nil [])
  | assignment assigned =>
      cases spanned with
      | @assignment name colon semicolon value more _ _ named divides expression ends rest =>
          cases rest
          refine ⟨name, [colon] ++ value ++ [], semicolon, by simp, rfl, ⟨named, rfl, ends⟩, ?_⟩
          exact .cons [colon] expression (.nil [])
  | rule selectors inner span =>
      cases spanned with
      | @rule first opening closing heads inside more _ _ _ selects opens body closes rest =>
          cases rest
          have heads_first : heads <+: heads ++ [opening] ++ inside := ⟨[opening] ++ inside, by simp⟩
          refine ⟨first, heads ++ [opening] ++ inside, closing, by simp, rfl,
            ⟨⟨heads, heads_first, selects⟩, closes⟩, ?_⟩
          exact body.phrases.behind (heads ++ [opening])

end Body.SpannedBy

theorem Expr.SpannedBy.phrases {tree : Expr} {tokens : List Token}
    (spanned : tree.SpannedBy tokens) : Phrases (Node.ofExpr tree).children tokens := by
  induction spanned with
  | literal written => exact .nil _
  | reference named => exact .nil _
  | @group opening closing inner tree opens inside closes ih =>
      exact (ih.before [closing]).behind [opening]
  | @operation left right sign operator lhs rhs first joins second =>
      have later : Phrases [.ofExpr rhs] ([sign] ++ right ++ []) := .cons [sign] second (.nil [])
      rw [List.append_nil] at later
      exact .cons [] first later

namespace Node.SpannedBy

variable {node : Node} {tokens : List Token}

theorem phrases (spanned : node.SpannedBy tokens) : Phrases node.children tokens := by
  cases node with
  | ofSheet sheet => exact Body.SpannedBy.phrases spanned
  | ofItem item =>
      obtain ⟨first, middle, last, rfl, _, _, inside⟩ := Body.SpannedBy.framed spanned
      exact (inside.before [last]).behind [first]
  | ofExpr tree => exact Expr.SpannedBy.phrases spanned

/-- Every node of a tree is written by a phrase of the tokens of its root. -/
theorem descendant {root : Node} (spanned : root.SpannedBy tokens)
    (below : Relation.ReflTransGen HasChild root node) :
    ∃ phrase, phrase <:+: tokens ∧ node.SpannedBy phrase := by
  induction below with
  | refl => exact ⟨tokens, List.infix_refl tokens, spanned⟩
  | tail _ step ih =>
      obtain ⟨phrase, part, written⟩ := ih
      obtain ⟨inner, within, written⟩ := written.phrases.of_mem step
      exact ⟨inner, within.trans part, written⟩

end Node.SpannedBy

/-! ### The order of the tokens -/

def Span.begins (span : Span) : Nat := span.start.offset.toNat

def Span.ends (span : Span) : Nat := span.stop.offset.toNat

structure Token.InOrder (tokens : List Token) : Prop where
  wide : ∀ token ∈ tokens, token.begins < token.ends
  ordered : tokens.Pairwise fun earlier later => earlier.ends ≤ later.begins

theorem Token.InOrder.of_infix {tokens phrase : List Token} (inOrder : InOrder tokens)
    (part : phrase <:+: tokens) : InOrder phrase where
  wide token member := inOrder.wide token (part.subset member)
  ordered := inOrder.ordered.sublist part.sublist

theorem Token.InOrder.apart {left right : List Token} {sign : Token}
    (inOrder : InOrder (left ++ sign :: right)) :
    ∀ token ∈ left, ∀ later ∈ right, token.ends ≤ later.begins := by
  intro token member later present
  exact (List.pairwise_append.mp inOrder.ordered).2.2 token member later
    (List.mem_cons_of_mem sign present)

/-- The span runs forward, from the start of a token to the end of one. -/
structure Span.Delimited (span : Span) (tokens : List Token) : Prop where
  forward : span.begins < span.ends
  starts : ∃ token ∈ tokens, span.start = token.span.start
  stops : ∃ token ∈ tokens, span.stop = token.span.stop

namespace Span.Delimited

variable {span other : Span} {tokens more : List Token}

theorem mono (here : span.Delimited tokens) (among : tokens ⊆ more) : span.Delimited more where
  forward := here.forward
  starts := here.starts.imp fun _ start => ⟨among start.1, start.2⟩
  stops := here.stops.imp fun _ stop => ⟨among stop.1, stop.2⟩

theorem ends_le (here : span.Delimited tokens) {bound : Nat}
    (bounded : ∀ token ∈ tokens, token.ends ≤ bound) : span.ends ≤ bound := by
  obtain ⟨token, member, same⟩ := here.stops
  rw [Span.ends, same]
  exact bounded token member

theorem le_begins (here : span.Delimited tokens) {bound : Nat}
    (bounded : ∀ token ∈ tokens, bound ≤ token.begins) : bound ≤ span.begins := by
  obtain ⟨token, member, same⟩ := here.starts
  rw [Span.begins, same]
  exact bounded token member

theorem ends_le_begins (here : span.Delimited tokens) (there : other.Delimited more)
    (apart : ∀ token ∈ tokens, ∀ later ∈ more, token.ends ≤ later.begins) :
    span.ends ≤ other.begins :=
  here.ends_le fun token member => there.le_begins (apart token member)

end Span.Delimited

def Span.Encloses (outer inner : Span) : Prop :=
  outer.begins ≤ inner.begins ∧ inner.ends ≤ outer.ends

namespace Expr.SpannedBy

theorem delimited {tree : Expr} {tokens : List Token} (spanned : tree.SpannedBy tokens)
    (inOrder : Token.InOrder tokens) : tree.span.Delimited tokens := by
  have one {token : Token} (wide : Token.InOrder [token]) : token.span.Delimited [token] :=
    ⟨wide.wide token List.mem_cons_self, ⟨token, List.mem_cons_self, rfl⟩,
      ⟨token, List.mem_cons_self, rfl⟩⟩
  induction spanned with
  | literal written => exact one inOrder
  | reference named => exact one inOrder
  | @group opening closing inner tree opens inside closes ih =>
      have part : inner <:+: opening :: (inner ++ [closing]) := ⟨[opening], [closing], by simp⟩
      exact (ih (inOrder.of_infix part)).mono part.subset
  | @operation left right sign operator lhs rhs first joins second ihFirst ihSecond =>
      have front : left <:+: left ++ sign :: right := (List.prefix_append _ _).isInfix
      have back : right <:+: left ++ sign :: right := ⟨left ++ [sign], [], by simp⟩
      have here := ihFirst (inOrder.of_infix front)
      have there := ihSecond (inOrder.of_infix back)
      have apart := here.ends_le_begins there (inOrder.apart)
      refine ⟨?_, (here.mono front.subset).starts, (there.mono back.subset).stops⟩
      calc lhs.span.begins < lhs.span.ends := here.forward
        _ ≤ rhs.span.begins := apart
        _ < rhs.span.ends := there.forward

-- An operation starts with its left operand and stops with its right one.
theorem encloses {tree : Expr} {tokens : List Token} (spanned : tree.SpannedBy tokens)
    (inOrder : Token.InOrder tokens) {child : Node} (below : (Node.ofExpr tree).HasChild child) :
    tree.span.Encloses child.span := by
  induction spanned with
  | literal written => cases below
  | reference named => cases below
  | @group opening closing inner tree opens inside closes ih =>
      exact ih (inOrder.of_infix ⟨[opening], [closing], by simp⟩) below
  | @operation left right sign operator lhs rhs first joins second =>
      have here := first.delimited (inOrder.of_infix (List.prefix_append _ _).isInfix)
      have there := second.delimited (inOrder.of_infix ⟨left ++ [sign], [], by simp⟩)
      have apart := here.ends_le_begins there inOrder.apart
      rcases List.mem_pair.mp below with rfl | rfl
      · exact ⟨Nat.le_refl _, apart.trans there.forward.le⟩
      · exact ⟨here.forward.le.trans apart, Nat.le_refl _⟩

end Expr.SpannedBy

namespace Node.SpannedBy

variable {node : Node} {tokens : List Token}

theorem delimited (spanned : node.SpannedBy tokens) (inner : node.IsInner)
    (inOrder : Token.InOrder tokens) : node.span.Delimited tokens := by
  cases node with
  | ofSheet sheet => exact inner.elim
  | ofItem item =>
      obtain ⟨first, middle, last, rfl, span, _, _⟩ := Body.SpannedBy.framed spanned
      have opened := inOrder.wide first List.mem_cons_self
      have closed := inOrder.wide last (by simp)
      have apart := (List.pairwise_cons.mp inOrder.ordered).1 last (by simp)
      rw [Node.span, span]
      refine ⟨?_, ⟨first, List.mem_cons_self, rfl⟩, ⟨last, by simp, rfl⟩⟩
      calc first.begins < first.ends := opened
        _ ≤ last.begins := apart
        _ < last.ends := closed
  | ofExpr tree => exact Expr.SpannedBy.delimited spanned inOrder

end Node.SpannedBy

namespace Phrases

variable {nodes : List Node} {tokens : List Token}

theorem delimited (here : Phrases nodes tokens) (inOrder : Token.InOrder tokens) {node : Node}
    (member : node ∈ nodes) (inner : node.IsInner) : node.span.Delimited tokens := by
  obtain ⟨phrase, part, written⟩ := here.of_mem member
  exact (written.delimited inner (inOrder.of_infix part)).mono part.subset

theorem ordered (here : Phrases nodes tokens) (inOrder : Token.InOrder tokens)
    (inner : ∀ node ∈ nodes, node.IsInner) :
    nodes.Pairwise fun earlier later => earlier.span.ends ≤ later.span.begins := by
  induction here with
  | nil => exact .nil
  | @cons node later phrase more between written rest ih =>
      obtain ⟨innerHere, innerLater⟩ := List.forall_mem_cons.mp inner
      have back : more <:+: between ++ phrase ++ more := (List.suffix_append _ more).isInfix
      have first := written.delimited innerHere (inOrder.of_infix ⟨between, more, rfl⟩)
      refine List.pairwise_cons.mpr ⟨?_, ih (inOrder.of_infix back) innerLater⟩
      intro other member
      apply first.ends_le_begins (rest.delimited (inOrder.of_infix back) member
        (innerLater other member))
      intro token present
      exact (List.pairwise_append.mp inOrder.ordered).2.2 token
        (List.mem_append_right between present)

end Phrases

namespace Node.SpannedBy

variable {node : Node} {tokens : List Token}

theorem encloses (spanned : node.SpannedBy tokens) (inner : node.IsInner)
    (inOrder : Token.InOrder tokens) {child : Node} (below : node.HasChild child) :
    node.span.Encloses child.span := by
  cases node with
  | ofSheet sheet => exact inner.elim
  | ofItem item =>
      obtain ⟨first, middle, last, rfl, span, _, inside⟩ := Body.SpannedBy.framed spanned
      have part : middle <:+: first :: (middle ++ [last]) := ⟨[first], [last], by simp⟩
      have within := inside.delimited (inOrder.of_infix part) below below.isInner
      obtain ⟨opened, ordered⟩ := List.pairwise_cons.mp inOrder.ordered
      rw [Node.span, span]
      constructor
      · apply within.le_begins
        intro token member
        exact (inOrder.wide first List.mem_cons_self).le.trans (opened token (by simp [member]))
      · apply within.ends_le
        intro token member
        have closed := (List.pairwise_append.mp ordered).2.2 token member last (by simp)
        exact closed.trans (inOrder.wide last (by simp)).le
  | ofExpr tree => exact Expr.SpannedBy.encloses spanned inOrder below

theorem siblings (spanned : node.SpannedBy tokens) (inOrder : Token.InOrder tokens) :
    node.children.Pairwise fun earlier later => earlier.span.ends ≤ later.span.begins :=
  spanned.phrases.ordered inOrder fun _ below => HasChild.isInner below

theorem operation {operator : Operator} {lhs rhs : Expr} {span : Span}
    {diagnostic : Option Diagnostic}
    (spanned : (Expr.operation operator lhs rhs span diagnostic).SpannedBy tokens) :
    span = ⟨lhs.span.start, rhs.span.stop⟩ := by
  generalize same : Expr.operation operator lhs rhs span diagnostic = tree at spanned
  induction spanned with
  | literal written => cases same
  | reference named => cases same
  | group opens inside closes ih => exact ih same
  | operation first joins second =>
      cases same
      rfl

end Node.SpannedBy

/-- The words of a source come in order, and end where the source ends at the latest. -/
theorem Token.ofSource_inOrder {source file : String} (short : source.utf8ByteSize < 2 ^ 32)
    {tokens : List Token} (split : Token.ofSource source file = .ok tokens) :
    ∃ words, tokens = words ++ [.eof (.ofBytes source.utf8ByteSize file)] ∧ InOrder words ∧
      (∀ word ∈ words, word.ends ≤ source.utf8ByteSize) ∧
      ∀ word ∈ words, word.kind ≠ .eof ∧ word.Signed := by
  have tiles : Tiles file [] source.toList tokens := Tiles.of_source split
  have laid := tiles.laid (by simpa using short)
  obtain ⟨words, last, rfl, fits, every, _⟩ := tiles.exists_words
  rw [List.nil_append, byteLength_toList] at fits
  obtain ⟨others, final, same, _, plain, _⟩ := Token.ofSource_words split
  obtain ⟨rfl, _⟩ := List.append_inj' same rfl
  obtain ⟨ordered, _, apart⟩ := List.pairwise_append.mp laid.ordered
  refine ⟨words, by rw [fits], ⟨?_, ordered⟩, ?_, plain⟩
  · intro word member
    exact (laid.covers word (List.mem_append_left _ member) (every word member).1).1
  · intro word member
    have last := apart word member last List.mem_cons_self
    rwa [fits, Token.begins, Token.eof, Position.ofBytes_offset short] at last

namespace Sheet

/-- The spans of a sheet that was read from a source are nested. The sheet spans the source. Every
other node runs forward from the start of a token to the end of one: an item from the first token
of those that write it to the last, and an operation from its left operand to its right one.
Children lie in their parents, and those of one parent come in order and do not overlap. -/
theorem ofSource_nested {source file : String} (short : source.utf8ByteSize < 2 ^ 32)
    {tokens : List Token} (split : Token.ofSource source file = .ok tokens) {sheet : Sheet}
    (read : Sheet.ofTokens tokens file = .ok sheet) :
    sheet.span = .ofBytes 0 source.utf8ByteSize file ∧
    (∀ node, Relation.TransGen Node.HasChild (.ofSheet sheet) node →
      node.span.Delimited tokens ∧
      (∀ item, node = .ofItem item → ∃ first middle last,
        first :: (middle ++ [last]) <:+: tokens ∧ item.BoundBy first middle last ∧
        item.span = ⟨first.span.start, last.span.stop⟩) ∧
      ∀ operator lhs rhs span diagnostic,
        node = .ofExpr (.operation operator lhs rhs span diagnostic) →
        span = ⟨lhs.span.start, rhs.span.stop⟩) ∧
    ∀ node, Relation.ReflTransGen Node.HasChild (.ofSheet sheet) node →
      (∀ child ∈ node.children, node.span.Encloses child.span) ∧
      node.children.Pairwise fun earlier later => earlier.span.ends ≤ later.span.begins := by
  obtain ⟨words, rfl, inOrder, bounded, plain⟩ := Token.ofSource_inOrder short split
  obtain ⟨⟨_, spanned⟩, span⟩ := readFrom_of_ofTokens rfl (fun word member => (plain word member).1)
    (fun word member => (plain word member).2) read
  have spanned : (Node.ofSheet sheet).SpannedBy words := spanned
  refine ⟨span, ?_, ?_⟩
  · intro node below
    obtain ⟨parent, above, step⟩ := Relation.TransGen.tail'_iff.mp below
    obtain ⟨phrase, part, written⟩ := spanned.descendant (above.tail step)
    have among := part.trans
      (List.prefix_append words [.eof (.ofBytes source.utf8ByteSize file)]).isInfix
    have delimited := written.delimited step.isInner (inOrder.of_infix part)
    refine ⟨delimited.mono among.subset, ?_, ?_⟩
    · rintro item rfl
      obtain ⟨first, middle, last, rfl, span, bound, _⟩ := Body.SpannedBy.framed written
      exact ⟨first, middle, last, among, bound, span⟩
    · rintro operator lhs rhs span diagnostic rfl
      exact Node.SpannedBy.operation written
  · intro node below
    obtain ⟨phrase, part, written⟩ := spanned.descendant below
    refine ⟨?_, written.siblings (inOrder.of_infix part)⟩
    intro child step
    rcases Relation.reflTransGen_iff_eq_or_transGen.mp below with rfl | strictly
    · have within := spanned.phrases.delimited inOrder step (Node.HasChild.isInner step)
      have ends : sheet.span.ends = source.utf8ByteSize := by
        rw [span]
        exact Position.ofBytes_offset short file
      have begins : sheet.span.begins = 0 := by
        rw [span]
        rfl
      exact ⟨begins.le.trans (Nat.zero_le _), ends ▸ within.ends_le bounded⟩
    · obtain ⟨parent, above, last⟩ := Relation.TransGen.tail'_iff.mp strictly
      exact written.encloses last.isInner (inOrder.of_infix part) step

def groupedSum : Expr :=
  .operation .add (.literal (.pixel 1) (.ofBytes 9 12 "s")) (.literal (.pixel 2) (.ofBytes 13 16 "s"))
    (.ofBytes 9 16 "s") none

def tripledSum : Expr :=
  .operation .multiply groupedSum (.literal (.scalar 3) (.ofBytes 18 19 "s"))
    (.ofBytes 9 19 "s") none

/-- The sum stands in parentheses, and the product starts behind the opening one. -/
theorem ofSource_nested_tripledSum :
    ∃ (tokens : List Token) (sheet : Sheet),
      Token.ofSource "a\x7bwidth:(1px+2px)*3;\x7d" "s" = .ok tokens ∧
      Sheet.ofTokens tokens "s" = .ok sheet ∧ sheet.span = .ofBytes 0 21 "s" ∧
      Relation.TransGen Node.HasChild (.ofSheet sheet) (.ofExpr tripledSum) ∧
      tripledSum.span.Delimited tokens ∧ tripledSum.span.Encloses groupedSum.span := by
  let declared : Declaration := ⟨.width, tripledSum, .ofBytes 2 20 "s", none⟩
  let rule : Item := .rule [.tag "a"] (.declaration declared .empty) (.ofBytes 0 21 "s")
  let sheet : Sheet := ⟨Body.ofList [rule], .ofBytes 0 21 "s"⟩
  have whole : Sheet.ofSource "a\x7bwidth:(1px+2px)*3;\x7d" "s" = .ok sheet := by
    rw [Sheet.ofSource, Token.ofSource, Lexeme.split_eq]
    decide +kernel
  obtain ⟨tokens, split, read⟩ : ∃ tokens,
      Token.ofSource "a\x7bwidth:(1px+2px)*3;\x7d" "s" = .ok tokens ∧
      Sheet.ofTokens tokens "s" = .ok sheet := by
    rw [Sheet.ofSource] at whole
    split at whole
    · exact ⟨_, ‹_›, whole⟩
    · cases whole
  have below : Relation.TransGen Node.HasChild (.ofSheet sheet) (.ofExpr tripledSum) :=
    .head (b := .ofItem rule) List.mem_cons_self <|
      .head (b := .ofItem (.declaration declared)) List.mem_cons_self <|
        .single List.mem_cons_self
  obtain ⟨span, inner, every⟩ := ofSource_nested (by decide) split read
  exact ⟨tokens, sheet, split, read, span, below, (inner _ below).1,
    (every _ below.to_reflTransGen).1 _ List.mem_cons_self⟩

end Sheet

end TypedStyle

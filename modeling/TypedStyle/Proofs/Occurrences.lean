import TypedStyle.Proofs.Binding

/-!
Items in document order. What is picked from the items of a body, at any depth, is listed with its
place and with the selectors of the rules around it, and what a rule is picked as stands before what
is picked inside it. The assignments and declarations that a walk visits and the rules that are
written as blocks are both such lists.
-/

namespace TypedStyle

variable {Node : Type}

/-- A part of a body by its place, with the selectors of the rules around it, the outermost rule's
first. -/
structure Occurrence (Node : Type) where
  place : Path
  around : List (List Selector)
  node : Node

namespace Occurrence

/-- What the first item of a body is picked as. -/
def first (node? : Option Node) : List (Occurrence Node) :=
  node?.toList.map fun node => ⟨[0], [], node⟩

/-- The same place of a body with one more item in front. -/
def next (occurrence : Occurrence Node) : Occurrence Node :=
  { occurrence with place := occurrence.place.modifyHead (· + 1) }

/-- The same place inside the first item of a body, which is a rule with these selectors. -/
def within (selectors : List Selector) (occurrence : Occurrence Node) : Occurrence Node :=
  ⟨0 :: occurrence.place, selectors :: occurrence.around, occurrence.node⟩

theorem mem_first {node? : Option Node} {occurrence : Occurrence Node} :
    occurrence ∈ first node? ↔ ∃ node, node? = some node ∧ occurrence = ⟨[0], [], node⟩ := by
  cases node? <;> simp [first]

end Occurrence

namespace Body

variable {pick : Item → Option Node}

/-- An item of the body, or of a rule in it at any depth, is picked as the node. -/
inductive NodeAt (pick : Item → Option Node) : Body → Occurrence Node → Prop where
  | own {body : Body} {index : Nat} {item : Item} {node : Node}
      (found : body.toList[index]? = some item) (picks : pick item = some node) :
      NodeAt pick body ⟨[index], [], node⟩
  | inside {body inner : Body} {index : Nat} {selectors : List Selector} {span : Span}
      {occurrence : Occurrence Node}
      (found : body.toList[index]? = some (.rule selectors inner span))
      (there : NodeAt pick inner occurrence) :
      NodeAt pick body ⟨index :: occurrence.place, selectors :: occurrence.around, occurrence.node⟩

def picked (pick : Item → Option Node) : Body → List (Occurrence Node)
  | .empty => []
  | .declaration declared later =>
      Occurrence.first (pick (.declaration declared)) ++ (later.picked pick).map .next
  | .assignment assigned later =>
      Occurrence.first (pick (.assignment assigned)) ++ (later.picked pick).map .next
  | .rule selectors inner span later =>
      Occurrence.first (pick (.rule selectors inner span)) ++
        (inner.picked pick).map (.within selectors) ++ (later.picked pick).map .next

section

variable {body later : Body} {item : Item} {occurrence : Occurrence Node}

theorem NodeAt.place_ne_nil (here : body.NodeAt pick occurrence) : occurrence.place ≠ [] := by
  cases here <;> exact List.cons_ne_nil _ _

theorem NodeAt.next (whole : body.toList = item :: later.toList)
    (there : later.NodeAt pick occurrence) : body.NodeAt pick occurrence.next := by
  have step (index : Nat) : body.toList[index + 1]? = later.toList[index]? := by
    rw [whole, List.getElem?_cons_succ]
  cases there with
  | own found picks => exact .own ((step _).trans found) picks
  | inside found there => exact .inside ((step _).trans found) there

/-- What occurs in a body is picked from its first item, or occurs inside it, or in the rest of the
body. -/
theorem nodeAt_iff (whole : body.toList = item :: later.toList) :
    body.NodeAt pick occurrence ↔
      occurrence ∈ Occurrence.first (pick item) ∨
      (∃ selectors inner span, item = .rule selectors inner span ∧
        ∃ inside, inner.NodeAt pick inside ∧ inside.within selectors = occurrence) ∨
      ∃ before, later.NodeAt pick before ∧ before.next = occurrence := by
  rw [Occurrence.mem_first]
  constructor
  · intro here
    cases here with
    | @own _ index item node found picks =>
        rw [whole] at found
        cases index with
        | zero =>
            cases found
            exact Or.inl ⟨node, picks, rfl⟩
        | succ index => exact Or.inr (Or.inr ⟨_, .own found picks, rfl⟩)
    | @inside _ inner index selectors span occurrence found there =>
        rw [whole] at found
        cases index with
        | zero =>
            exact Or.inr (Or.inl ⟨selectors, inner, span, Option.some.inj found, occurrence, there,
              rfl⟩)
        | succ index => exact Or.inr (Or.inr ⟨_, .inside found there, rfl⟩)
  · have first : body.toList[0]? = some item := by rw [whole, List.getElem?_cons_zero]
    rintro (⟨node, picks, rfl⟩ | ⟨selectors, inner, span, rfl, inside, there, rfl⟩ |
      ⟨before, there, rfl⟩)
    · exact .own first picks
    · exact .inside first there
    · exact there.next whole

end

theorem mem_picked {body : Body} {occurrence : Occurrence Node} :
    occurrence ∈ body.picked pick ↔ body.NodeAt pick occurrence := by
  induction body generalizing occurrence with
  | empty =>
      constructor
      · intro absent
        cases absent
      · rintro (⟨⟨⟩, _⟩ | ⟨⟨⟩, _⟩)
  | declaration _ later ih | assignment _ later ih =>
      rw [nodeAt_iff rfl, picked, List.mem_append, List.mem_map]
      simp only [ih, reduceCtorEq, false_and, exists_false, false_or]
  | rule selectors inner span later ihInner ihLater =>
      rw [nodeAt_iff rfl, picked, List.mem_append, List.mem_append, List.mem_map, List.mem_map,
        or_assoc]
      simp only [ihInner, ihLater, Item.rule.injEq]
      constructor
      · rintro (first | inside | behind)
        · exact Or.inl first
        · exact Or.inr (Or.inl ⟨selectors, inner, span, ⟨rfl, rfl, rfl⟩, inside⟩)
        · exact Or.inr (Or.inr behind)
      · rintro (first | ⟨_, _, _, ⟨rfl, rfl, rfl⟩, inside⟩ | behind)
        · exact Or.inl first
        · exact Or.inr (Or.inl inside)
        · exact Or.inr (Or.inr behind)

theorem picked_ordered (pick : Item → Option Node) (body : Body) :
    (body.picked pick).Pairwise fun one other => one.place.Before other.place := by
  have single (node? : Option Node) : (Occurrence.first node?).Pairwise
      fun one other => one.place.Before other.place := by
    cases node? <;> simp [Occurrence.first]
  have behind {later : Body}
      (ordered : (later.picked pick).Pairwise fun one other => one.place.Before other.place) :
      ((later.picked pick).map Occurrence.next).Pairwise
        fun one other => one.place.Before other.place :=
    List.pairwise_map.mpr (ordered.imp Path.before_modifyHead.mpr)
  -- All that stands in the first item has the index 0, and all that follows it a greater one.
  have apart {later : Body} (rest : Path) (other : Occurrence Node)
      (member : other ∈ (later.picked pick).map Occurrence.next) :
      Path.Before (0 :: rest) other.place := by
    obtain ⟨before, present, rfl⟩ := List.mem_map.mp member
    obtain ⟨index, more, same⟩ := List.exists_cons_of_ne_nil (mem_picked.mp present).place_ne_nil
    simp [Occurrence.next, same]
  induction body with
  | empty => exact .nil
  | declaration _ later ih | assignment _ later ih =>
      refine List.pairwise_append.mpr ⟨single _, behind ih, ?_⟩
      intro occurrence member other later
      obtain ⟨node, _, rfl⟩ := Occurrence.mem_first.mp member
      exact apart [] other later
  | rule selectors inner span later ihInner ihLater =>
      have inside : ((inner.picked pick).map (Occurrence.within selectors)).Pairwise
          fun one other => one.place.Before other.place :=
        List.pairwise_map.mpr (ihInner.imp fun before => Or.inr ⟨rfl, before⟩)
      refine List.pairwise_append.mpr
        ⟨List.pairwise_append.mpr ⟨single _, inside, ?_⟩, behind ihLater, ?_⟩
      · intro occurrence member other nested
        obtain ⟨node, _, rfl⟩ := Occurrence.mem_first.mp member
        obtain ⟨within, present, rfl⟩ := List.mem_map.mp nested
        obtain ⟨index, more, same⟩ :=
          List.exists_cons_of_ne_nil (mem_picked.mp present).place_ne_nil
        simp [Occurrence.within, same]
      · intro occurrence member other later
        rcases List.mem_append.mp member with member | member
        · obtain ⟨node, _, rfl⟩ := Occurrence.mem_first.mp member
          exact apart [] other later
        · obtain ⟨within, _, rfl⟩ := List.mem_map.mp member
          exact apart within.place other later

end Body

end TypedStyle

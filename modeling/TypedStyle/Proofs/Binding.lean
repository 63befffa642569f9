import TypedStyle.Proofs.Scoping

/-!
What a name stands for by the place where it is used. Items are found by paths, and the binding of
a name at a place is described by the paths alone: the latest assignment before the place in the
innermost scope around it that has one. The steps of a walk through a body move the place, and
each of them changes the bindings as it changes the scopes.
-/

namespace TypedStyle

/-- Where an item stands: the index of its outermost rule, and so on down to its own. -/
abbrev Path := List Nat

namespace Path

def Before : Path → Path → Prop
  | _, [] => False
  | [], _ :: _ => True
  | index :: rest, other :: more => index < other ∨ index = other ∧ Before rest more

def Inside (place outer : Path) : Prop := outer <+: place ∧ outer ≠ place

@[simp] theorem not_before_nil (path : Path) : ¬ path.Before [] := by
  cases path <;> exact id

@[simp] theorem nil_before_cons (index : Nat) (rest : Path) : Before [] (index :: rest) := trivial

@[simp] theorem cons_before_cons {index other : Nat} {rest more : Path} :
    Before (index :: rest) (other :: more) ↔ index < other ∨ index = other ∧ rest.Before more :=
  Iff.rfl

/-- Items keep their order when one more stands in front of them. -/
theorem before_modifyHead {one other : Path} :
    Before (one.modifyHead (· + 1)) (other.modifyHead (· + 1)) ↔ one.Before other := by
  cases one <;> cases other <;> simp

theorem Before.asymm {one other : Path} (here : one.Before other) : ¬ other.Before one := by
  induction one generalizing other with
  | nil => exact not_before_nil other
  | cons index rest ih =>
      cases other with
      | nil => cases here
      | cons other more =>
          rcases here with less | ⟨rfl, here⟩
          · rintro (greater | ⟨rfl, _⟩) <;> omega
          · rintro (greater | ⟨_, there⟩)
            · omega
            · exact ih here there

theorem not_before_of_prefix {base path : Path} (inside : base <+: path) : ¬ path.Before base := by
  induction base generalizing path with
  | nil => exact not_before_nil path
  | cons step base ih =>
      obtain ⟨rest, rfl⟩ := inside
      rintro (less | ⟨_, before⟩)
      · exact Nat.lt_irrefl step less
      · exact ih (List.prefix_append base rest) before

theorem inside_item {base outer : Path} {index : Nat} :
    Inside (base ++ [index]) outer ↔ outer <+: base := by
  unfold Inside
  rw [List.prefix_concat_iff]
  constructor
  · rintro ⟨rfl | inside, apart⟩
    · exact absurd rfl apart
    · exact inside
  · intro inside
    refine ⟨Or.inr inside, ?_⟩
    rintro rfl
    have short := inside.length_le
    rw [List.length_append, List.length_singleton] at short
    omega

/-- Before an item stand those before the rule around it, this rule, and what the earlier items of
the rule are made of. -/
theorem before_item (base source : Path) (index : Nat) :
    source.Before (base ++ [index]) ↔
      source.Before base ∨ source = base ∨
        ∃ first rest, first < index ∧ source = base ++ first :: rest := by
  induction base generalizing source with
  | nil => cases source <;> simp
  | cons step base ih =>
      cases source with
      | nil => simp
      | cons first rest =>
          simp only [List.cons_append, cons_before_cons, ih, List.cons.injEq]
          grind

theorem before_next {base source : Path} {index : Nat} :
    source.Before (base ++ [index + 1]) ↔
      source.Before (base ++ [index]) ∨ ∃ rest, source = base ++ index :: rest := by
  simp only [before_item, Nat.lt_succ_iff_lt_or_eq]
  constructor
  · rintro (before | rfl | ⟨first, rest, less | rfl, rfl⟩)
    · exact Or.inl (Or.inl before)
    · exact Or.inl (Or.inr (Or.inl rfl))
    · exact Or.inl (Or.inr (Or.inr ⟨first, rest, less, rfl⟩))
    · exact Or.inr ⟨rest, rfl⟩
  · rintro ((before | rfl | ⟨first, rest, less, rfl⟩) | ⟨rest, rfl⟩)
    · exact Or.inl before
    · exact Or.inr (Or.inl rfl)
    · exact Or.inr (Or.inr ⟨first, rest, Or.inl less, rfl⟩)
    · exact Or.inr (Or.inr ⟨index, rest, Or.inr rfl, rfl⟩)

end Path

def Item.inner : Item → Body
  | .declaration _ | .assignment _ => .empty
  | .rule _ inner _ => inner

namespace Body

def item? : Path → Body → Option Item
  | [], _ => none
  | [index], body => body.toList[index]?
  | index :: next :: rest, body =>
      body.toList[index]?.bind fun item => item.inner.item? (next :: rest)

theorem item?_empty (path : Path) : empty.item? path = none := by
  rcases path with _ | ⟨index, _ | ⟨next, rest⟩⟩ <;> rfl

theorem item?_cons_zero (item : Item) (later : Body) :
    (Body.cons item later).item? [0] = some item := by
  simp only [item?, toList_cons, List.getElem?_cons_zero]

theorem item?_cons_inner (item : Item) (later : Body) (next : Nat) (rest : Path) :
    (Body.cons item later).item? (0 :: next :: rest) = item.inner.item? (next :: rest) := by
  simp only [item?, toList_cons, List.getElem?_cons_zero, Option.bind_some]

theorem item?_cons_succ (item : Item) (later : Body) (index : Nat) (rest : Path) :
    (Body.cons item later).item? ((index + 1) :: rest) = later.item? (index :: rest) := by
  cases rest <;> simp only [item?, toList_cons, List.getElem?_cons_succ]

theorem lt_length_of_item? {body : Body} {index : Nat} {rest : Path} {item : Item}
    (found : body.item? (index :: rest) = some item) : index < body.toList.length := by
  rcases Nat.lt_or_ge index body.toList.length with less | beyond
  · exact less
  · have absent := List.getElem?_eq_none beyond
    cases rest <;> simp [item?, absent] at found

section

variable (sheet : Body)

/-- The sheet itself, or a rule with selectors. A rule without any belongs to the scope around
it. -/
inductive IsScope : Path → Prop where
  | sheet : IsScope []
  | rule {place : Path} {selectors : List Selector} {inner : Body} {span : Span}
      (found : sheet.item? place = some (.rule selectors inner span))
      (selected : selectors ≠ []) : IsScope place

structure BelongsTo (place scope : Path) : Prop where
  isScope : sheet.IsScope scope
  inside : place.Inside scope
  innermost : ∀ other, sheet.IsScope other → place.Inside other → other <+: scope

structure Offers (name : String) (place scope source : Path) : Prop where
  assigned : ∃ assigned, sheet.item? source = some (.assignment assigned) ∧ assigned.name = name
  belongs : sheet.BelongsTo source scope
  inside : place.Inside scope
  before : source.Before place

/-- The name stands at `place` for what is assigned at `source`, the latest in the innermost scope
that offers any. -/
def Binds (name : String) (place source : Path) : Prop :=
  ∃ scope, sheet.Offers name place scope source ∧
    (∀ outer other, sheet.Offers name place outer other → outer <+: scope) ∧
    ∀ other, sheet.Offers name place scope other → other = source ∨ other.Before source

end

variable {sheet : Body} {name : String} {place source : Path}

theorem not_isScope_of_plain {inner : Body} {span : Span}
    (found : sheet.item? place = some (.rule [] inner span)) : ¬ sheet.IsScope place := by
  intro isScope
  cases isScope with
  | sheet => cases found
  | rule other selected =>
      cases found.symm.trans other
      exact selected rfl

theorem Binds.unique {other : Path} (here : sheet.Binds name place source)
    (there : sheet.Binds name place other) : other = source := by
  obtain ⟨scope, offered, innermost, latest⟩ := here
  obtain ⟨outer, found, closest, last⟩ := there
  have same : outer = scope := by
    have inner := innermost outer other found
    have wide := closest scope source offered
    exact inner.eq_of_length (Nat.le_antisymm inner.length_le wide.length_le)
  subst same
  rcases latest other found with rfl | before
  · rfl
  · rcases last source offered with rfl | after
    · rfl
    · exact absurd after before.asymm

theorem Binds.assigned (binds : sheet.Binds name place source) :
    ∃ assigned, sheet.item? source = some (.assignment assigned) := by
  obtain ⟨_, offered, _⟩ := binds
  obtain ⟨assigned, found, _⟩ := offered.assigned
  exact ⟨assigned, found⟩

theorem binds_congr {other : Path} (same : ∀ scope source,
    sheet.Offers name place scope source ↔ sheet.Offers name other scope source) :
    sheet.Binds name place source ↔ sheet.Binds name other source := by
  simp only [Binds, same]

-- The scopes around an item are prefixes of one path, and the longest of them is the innermost.
theorem exists_innermost (sheet : Body) (front rest : Path) {scope : Path}
    (isScope : sheet.IsScope scope) (around : scope <+: front)
    (innermost : ∀ other, sheet.IsScope other → other <+: front → other <+: scope) :
    ∃ scope, sheet.IsScope scope ∧ scope <+: front ++ rest ∧
      ∀ other, sheet.IsScope other → other <+: front ++ rest → other <+: scope := by
  induction rest generalizing front scope with
  | nil =>
      rw [List.append_nil]
      exact ⟨scope, isScope, around, innermost⟩
  | cons index rest ih =>
      rw [List.append_cons]
      by_cases nearer : sheet.IsScope (front ++ [index])
      · exact ih (front ++ [index]) nearer (List.prefix_refl _) fun other _ inside => inside
      · apply ih (front ++ [index]) isScope (around.trans (List.prefix_append front [index]))
        intro other isScope inside
        rcases List.prefix_concat_iff.mp inside with rfl | inside
        · exact absurd isScope nearer
        · exact innermost other isScope inside

theorem exists_belongsTo (sheet : Body) (base : Path) (index : Nat) :
    ∃ scope, sheet.BelongsTo (base ++ [index]) scope := by
  obtain ⟨scope, isScope, around, innermost⟩ :=
    sheet.exists_innermost [] base .sheet (List.prefix_refl []) fun other _ inside => inside
  refine ⟨scope, isScope, Path.inside_item.mpr around, ?_⟩
  intro other isScope inside
  exact innermost other isScope (Path.inside_item.mp inside)

def Located (sheet : Body) (base : Path) (start : Nat) (body : Body) : Prop :=
  ∀ index rest, sheet.item? (base ++ (start + index) :: rest) = body.item? (index :: rest)

theorem located_self (sheet : Body) : sheet.Located [] 0 sheet := by
  intro index rest
  rw [Nat.zero_add, List.nil_append]

namespace Located

variable {base : Path} {start : Nat} {item : Item} {later : Body}

theorem here (item : Item) (located : sheet.Located base start (Body.cons item later)) :
    sheet.item? (base ++ [start]) = some item := by
  rw [← Nat.add_zero start, located 0 [], item?_cons_zero]

theorem next (item : Item) (located : sheet.Located base start (Body.cons item later)) :
    sheet.Located base (start + 1) later := by
  intro index rest
  rw [← item?_cons_succ item, ← located, Nat.add_assoc, Nat.add_comm 1]

theorem inner (item : Item) (located : sheet.Located base start (Body.cons item later)) :
    sheet.Located (base ++ [start]) 0 item.inner := by
  intro index rest
  rw [Nat.zero_add, ← List.append_cons, ← item?_cons_inner item later]
  exact located 0 (index :: rest)

/-- The item itself is all there is from its place on, unless it is a rule. -/
theorem eq_of_leaf (item : Item) (located : sheet.Located base start (Body.cons item later))
    (leaf : item.inner = .empty) {rest : Path} {other : Item}
    (found : sheet.item? (base ++ start :: rest) = some other) : rest = [] ∧ other = item := by
  cases rest with
  | nil =>
      rw [located.here] at found
      exact ⟨rfl, (Option.some.inj found).symm⟩
  | cons next rest =>
      rw [List.append_cons, ← Nat.zero_add next, located.inner, leaf, item?_empty] at found
      cases found

end Located

/-! ### What moving on does to the bindings -/

variable {base : Path} {start : Nat} {later : Body}

theorem offers_item {index : Nat} {scope : Path} :
    sheet.Offers name (base ++ [index]) scope source ↔
      (∃ assigned, sheet.item? source = some (.assignment assigned) ∧ assigned.name = name) ∧
      sheet.BelongsTo source scope ∧ scope <+: base ∧ source.Before (base ++ [index]) := by
  constructor
  · intro offers
    exact ⟨offers.assigned, offers.belongs, Path.inside_item.mp offers.inside, offers.before⟩
  · rintro ⟨assigned, belongs, inside, before⟩
    exact ⟨assigned, belongs, Path.inside_item.mpr inside, before⟩

/-- Past an item, what the item is made of may be offered besides. -/
theorem offers_next {scope : Path} :
    sheet.Offers name (base ++ [start + 1]) scope source ↔
      sheet.Offers name (base ++ [start]) scope source ∨
      (∃ assigned, sheet.item? source = some (.assignment assigned) ∧ assigned.name = name) ∧
        sheet.BelongsTo source scope ∧ scope <+: base ∧ ∃ rest, source = base ++ start :: rest := by
  simp only [offers_item, Path.before_next]
  grind

theorem binds_after_declaration {declared : Declaration}
    (located : sheet.Located base start (declaration declared later)) :
    sheet.Binds name (base ++ [start + 1]) source ↔ sheet.Binds name (base ++ [start]) source := by
  apply binds_congr
  intro scope source
  rw [offers_next]
  constructor
  · rintro (offers | ⟨⟨assigned, found, _⟩, _, _, rest, rfl⟩)
    · exact offers
    · have same := Located.eq_of_leaf (.declaration declared) located rfl found
      cases same.2
  · exact Or.inl

/-- Past an assignment, its name stands for what it assigns. -/
theorem binds_after_assignment {assigned : Assignment}
    (located : sheet.Located base start (assignment assigned later)) :
    sheet.Binds assigned.name (base ++ [start + 1]) source ↔ source = base ++ [start] := by
  have found : sheet.item? (base ++ [start]) = some (.assignment assigned) :=
    Located.here (.assignment assigned) located
  obtain ⟨scope, belongs⟩ := exists_belongsTo sheet base start
  have binds : sheet.Binds assigned.name (base ++ [start + 1]) (base ++ [start]) := by
    refine ⟨scope, offers_next.mpr (Or.inr ?_), ?_, ?_⟩
    · exact ⟨⟨assigned, found, rfl⟩, belongs, Path.inside_item.mp belongs.inside, [], rfl⟩
    · intro outer other offers
      have around := (offers_item.mp offers).2.2.1
      exact belongs.innermost outer offers.belongs.isScope (Path.inside_item.mpr around)
    · intro other offers
      rcases offers_next.mp offers with earlier | ⟨⟨_, found, _⟩, _, _, rest, rfl⟩
      · exact Or.inr earlier.before
      · have same := Located.eq_of_leaf (.assignment assigned) located rfl found
        exact Or.inl (by rw [same.1])
  constructor
  · exact binds.unique
  · rintro rfl
    exact binds

theorem binds_after_other_assignment {assigned : Assignment}
    (located : sheet.Located base start (assignment assigned later)) (other : name ≠ assigned.name) :
    sheet.Binds name (base ++ [start + 1]) source ↔ sheet.Binds name (base ++ [start]) source := by
  apply binds_congr
  intro scope source
  rw [offers_next]
  constructor
  · rintro (offers | ⟨⟨here, found, named⟩, _, _, rest, rfl⟩)
    · exact offers
    · have same := Located.eq_of_leaf (.assignment assigned) located rfl found
      cases same.2
      exact absurd named.symm other
  · exact Or.inl

section

variable {selectors : List Selector} {inner : Body} {span : Span}

-- A scope just entered offers nothing: its assignments are all to come.
theorem binds_entering_rule
    (located : sheet.Located base start (rule selectors inner span later)) :
    sheet.Binds name (base ++ [start] ++ [0]) source ↔ sheet.Binds name (base ++ [start]) source := by
  apply binds_congr
  intro scope source
  have found : sheet.item? (base ++ [start]) = some (.rule selectors inner span) :=
    Located.here (.rule selectors inner span) located
  rw [offers_item, offers_item, Path.before_item (base ++ [start])]
  constructor
  · rintro ⟨⟨assigned, here, named⟩, belongs, around, before | rfl | ⟨_, _, less, _⟩⟩
    · refine ⟨⟨assigned, here, named⟩, belongs, ?_, before⟩
      rcases List.prefix_concat_iff.mp around with rfl | around
      · exact absurd before (Path.not_before_of_prefix belongs.inside.1)
      · exact around
    · cases found.symm.trans here
    · cases less
  · rintro ⟨assigned, belongs, around, before⟩
    exact ⟨assigned, belongs, around.trans (List.prefix_append base [start]), Or.inl before⟩

/-- What a rule with selectors assigns belongs to the rule. -/
theorem binds_after_selected_rule
    (located : sheet.Located base start (rule selectors inner span later))
    (selected : selectors ≠ []) :
    sheet.Binds name (base ++ [start + 1]) source ↔ sheet.Binds name (base ++ [start]) source := by
  apply binds_congr
  intro scope source
  have found : sheet.item? (base ++ [start]) = some (.rule selectors inner span) :=
    Located.here (.rule selectors inner span) located
  rw [offers_next]
  constructor
  · rintro (offers | ⟨⟨assigned, here, _⟩, belongs, around, rest, rfl⟩)
    · exact offers
    · have apart : base ++ [start] ≠ base ++ start :: rest := by
        intro same
        rw [← same] at here
        cases found.symm.trans here
      have inside : Path.Inside (base ++ start :: rest) (base ++ [start]) :=
        ⟨⟨rest, by simp⟩, apart⟩
      have nested := belongs.innermost _ (.rule found selected) inside
      have short := (nested.trans around).length_le
      rw [List.length_append, List.length_singleton] at short
      omega
  · exact Or.inl

/-- What a rule without selectors assigns belongs to the scope around it. -/
theorem binds_after_plain_rule
    (located : sheet.Located base start (rule [] inner span later)) :
    sheet.Binds name (base ++ [start + 1]) source ↔
      sheet.Binds name (base ++ [start] ++ [inner.toList.length]) source := by
  apply binds_congr
  intro scope source
  have found : sheet.item? (base ++ [start]) = some (.rule [] inner span) :=
    Located.here (.rule [] inner span) located
  rw [offers_item, offers_item, Path.before_next, Path.before_item (base ++ [start])]
  constructor
  · rintro ⟨⟨assigned, here, named⟩, belongs, around, before⟩
    refine ⟨⟨assigned, here, named⟩, belongs, around.trans (List.prefix_append base [start]), ?_⟩
    rcases before with before | ⟨rest, rfl⟩
    · exact Or.inl before
    · cases rest with
      | nil => exact Or.inr (Or.inl rfl)
      | cons first rest =>
          rw [List.append_cons, ← Nat.zero_add first, Located.inner (.rule [] inner span) located] at here
          exact Or.inr (Or.inr ⟨first, rest, lt_length_of_item? here, by simp⟩)
  · rintro ⟨assigned, belongs, around, before⟩
    refine ⟨assigned, belongs, ?_, ?_⟩
    · rcases List.prefix_concat_iff.mp around with rfl | around
      · exact absurd belongs.isScope (not_isScope_of_plain found)
      · exact around
    · rcases before with before | rfl | ⟨first, rest, _, rfl⟩
      · exact Or.inl before
      · exact Or.inr ⟨[], rfl⟩
      · exact Or.inr ⟨first :: rest, by simp⟩

end

structure Reflects {Value : Type} (sheet : Body) (meaning : Path → Expr → Value → Prop)
    (place : Path) (scopes : Scopes Value) : Prop where
  bound : ∀ name value, scopes.resolve? name = some value →
    ∃ source assigned, sheet.Binds name place source ∧
      sheet.item? source = some (.assignment assigned) ∧ meaning source assigned.value value
  unbound : ∀ name, scopes.resolve? name = none → ∀ source, ¬ sheet.Binds name place source

namespace Reflects

variable {Value : Type} {meaning : Path → Expr → Value → Prop} {scopes inside : Scopes Value}

theorem initial (sheet : Body) (meaning : Path → Expr → Value → Prop) :
    sheet.Reflects meaning [0] .initial where
  bound name value resolved := by cases resolved
  unbound name _ source := by
    rintro ⟨scope, offers, _⟩
    obtain ⟨assigned, found, _⟩ := offers.assigned
    rcases (Path.before_item [] source 0).mp offers.before with before | rfl | ⟨_, _, less, _⟩
    · exact Path.not_before_nil source before
    · cases found
    · cases less

theorem move (reflects : sheet.Reflects meaning place scopes) {other : Path}
    {after : Scopes Value}
    (same : ∀ name source, sheet.Binds name other source ↔ sheet.Binds name place source)
    (agree : ∀ name, after.resolve? name = scopes.resolve? name) :
    sheet.Reflects meaning other after where
  bound name value resolved := by
    simp only [same]
    exact reflects.bound name value ((agree name).symm.trans resolved)
  unbound name free source := by
    rw [same]
    exact reflects.unbound name ((agree name).symm.trans free) source

theorem declaration {declared : Declaration}
    (located : sheet.Located base start (.declaration declared later))
    (reflects : sheet.Reflects meaning (base ++ [start]) scopes) :
    sheet.Reflects meaning (base ++ [start + 1]) scopes :=
  reflects.move (fun _ _ => binds_after_declaration located) fun _ => rfl

theorem assignment {assigned : Assignment}
    (located : sheet.Located base start (.assignment assigned later))
    (reflects : sheet.Reflects meaning (base ++ [start]) scopes) {value : Value}
    (means : meaning (base ++ [start]) assigned.value value) :
    sheet.Reflects meaning (base ++ [start + 1]) (scopes.bind assigned.name value) where
  bound name result resolved := by
    rw [Scopes.resolve?_bind] at resolved
    split at resolved
    · rename_i same
      subst same
      cases resolved
      exact ⟨_, assigned, (binds_after_assignment located).mpr rfl,
        Located.here (.assignment assigned) located, means⟩
    · rename_i other
      simp only [binds_after_other_assignment located other]
      exact reflects.bound name result resolved
  unbound name free source := by
    rw [Scopes.resolve?_bind] at free
    split at free
    · cases free
    · rename_i other
      rw [binds_after_other_assignment located other]
      exact reflects.unbound name free source

variable {selectors : List Selector} {inner : Body} {span : Span}

theorem enterFor (located : sheet.Located base start (.rule selectors inner span later))
    (reflects : sheet.Reflects meaning (base ++ [start]) scopes) :
    sheet.Reflects meaning (base ++ [start] ++ [0]) (scopes.enterFor selectors) :=
  reflects.move (fun _ _ => binds_entering_rule located) (Scopes.resolve?_enterFor selectors scopes)

theorem afterRule (located : sheet.Located base start (.rule selectors inner span later))
    (reflects : sheet.Reflects meaning (base ++ [start]) scopes)
    (within : sheet.Reflects meaning (base ++ [start] ++ [inner.toList.length]) inside) :
    sheet.Reflects meaning (base ++ [start + 1]) (scopes.afterRule selectors inside) := by
  cases selectors with
  | nil => exact within.move (fun _ _ => binds_after_plain_rule located) fun _ => rfl
  | cons selector more =>
      exact reflects.move (fun _ _ => binds_after_selected_rule located (by simp)) fun _ => rfl

end Reflects

end Body

end TypedStyle

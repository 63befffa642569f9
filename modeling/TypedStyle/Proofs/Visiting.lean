import TypedStyle.Proofs.Occurrences

/-!
Which assignments and declarations a walk visits. They are listed with their places, in document
order, each with the selectors of the rules around it. A pass that keeps a record of its visits
enters them in this order, with the number of scopes around each, and a pass that fails has visited
those up to its failure and left all others as they were.
-/

namespace TypedStyle

variable {Value Notes Failure Node : Type}

inductive Leaf where
  | assignment (assigned : Assignment)
  | declaration (declared : Declaration)

def Leaf.name : Leaf → String
  | assignment assigned => assigned.name
  | declaration declared => declared.property.name

def Item.leaf? : Item → Option Leaf
  | .assignment assigned => some (.assignment assigned)
  | .declaration declared => some (.declaration declared)
  | .rule _ _ _ => none

abbrev Spot := Occurrence Leaf

namespace Spot

/-- The number of rules around the spot that have a selector. -/
def enclosing (spot : Spot) : Nat := spot.around.countP fun selectors => !selectors.isEmpty

def entry (depth : Nat) (spot : Spot) : String × Nat := (spot.node.name, depth + spot.enclosing)

theorem entry_next (depth : Nat) : entry depth ∘ Occurrence.next = entry depth := rfl

theorem entry_within (depth : Nat) (selectors : List Selector) :
    entry depth ∘ Occurrence.within selectors =
      entry (depth + List.countP (fun selectors => !selectors.isEmpty) [selectors]) := by
  funext spot
  simp only [Function.comp_apply, entry, Occurrence.within, enclosing, Nat.add_assoc]
  rw [← List.countP_append, List.singleton_append]

end Spot

namespace Body

/-- The assignment or declaration stands in the body, at any depth. -/
def SpotAt (body : Body) (spot : Spot) : Prop := body.NodeAt Item.leaf? spot

def spots (body : Body) : List Spot := body.picked Item.leaf?

theorem mem_spots {body : Body} {spot : Spot} : spot ∈ body.spots ↔ body.SpotAt spot := mem_picked

/-- The bodies have the same rules, with assignments and declarations in the same places. -/
inductive Alike : Body → Body → Prop where
  | empty : Alike .empty .empty
  | declaration {one other : Declaration} {later laterOther : Body}
      (rest : Alike later laterOther) :
      Alike (.declaration one later) (.declaration other laterOther)
  | assignment {one other : Assignment} {later laterOther : Body} (rest : Alike later laterOther) :
      Alike (.assignment one later) (.assignment other laterOther)
  | rule {selectors : List Selector} {inner innerOther : Body} {span : Span}
      {later laterOther : Body} (inside : Alike inner innerOther) (rest : Alike later laterOther) :
      Alike (.rule selectors inner span later) (.rule selectors innerOther span laterOther)

theorem Alike.refl (body : Body) : body.Alike body := by
  induction body with
  | empty => exact .empty
  | declaration _ _ ih => exact .declaration ih
  | assignment _ _ ih => exact .assignment ih
  | rule _ _ _ _ ihInner ihLater => exact .rule ihInner ihLater

end Body

/-- Either the visit failed and the rest of the body stays, or the rest is walked. -/
theorem Visit.andLater_cases (visit : Visit Value Notes Failure Node) (join : Node → Body → Body)
    (later : Body) (walkLater : Scopes Value → Notes → Visit Value Notes Failure Body) :
    visit.failure?.isSome = true ∧ visit.andLater join later walkLater = visit.map (join · later) ∨
    visit.failure? = none ∧ visit.andLater join later walkLater =
      (walkLater visit.scopes visit.notes).map (join visit.node) := by
  unfold andLater
  cases visit.failure? with
  | some failure => exact Or.inl ⟨rfl, rfl⟩
  | none => exact Or.inr ⟨rfl, rfl⟩

def Scopes.leaveFor (selectors : List Selector) (scopes : Scopes Value) : Scopes Value :=
  if selectors.isEmpty then scopes else scopes.leave

theorem Scopes.depth_enterFor (selectors : List Selector) (scopes : Scopes Value) :
    (scopes.enterFor selectors).depth =
      scopes.depth + List.countP (fun selectors => !selectors.isEmpty) [selectors] := by
  unfold enterFor
  cases selectors <;> rfl

theorem Scopes.depth_leaveFor {selectors : List Selector} {scopes inside : Scopes Value}
    (same : inside.depth = (scopes.enterFor selectors).depth) :
    (inside.leaveFor selectors).depth = scopes.depth := by
  cases selectors with
  | nil => exact same
  | cons first others =>
      have deeper : inside.depth = scopes.depth + 1 := same
      have positive : 1 ≤ scopes.depth := Nat.succ_pos _
      have left : inside.leave.depth = scopes.depth := by
        rw [depth_leave, deeper]
        omega
      exact left

namespace Pass

/-- A rule is walked in the scopes that its selectors ask for, and the scope it opened is left. -/
theorem walk_rule_eq (pass : Pass Value Notes Failure) (scopes : Scopes Value) (notes : Notes)
    (selectors : List Selector) (inner : Body) (span : Span) (later : Body) :
    pass.walk scopes notes (.rule selectors inner span later) =
      let inside := pass.walk (scopes.enterFor selectors) notes inner
      { inside with scopes := inside.scopes.leaveFor selectors }.andLater
        (fun inner later => .rule selectors inner span later) later
        fun scopes notes => pass.walk scopes notes later := by
  rw [walk]
  unfold Scopes.enterFor Scopes.leaveFor
  split <;> rfl

theorem andLater_alike {body later : Body} {visit : Visit Value Notes Failure Node}
    {join : Node → Body → Body}
    {walkLater : Scopes Value → Notes → Visit Value Notes Failure Body}
    (joined : ∀ other, later.Alike other → body.Alike (join visit.node other))
    (rest : ∀ scopes notes, later.Alike (walkLater scopes notes).node) :
    body.Alike (visit.andLater join later walkLater).node := by
  rcases visit.andLater_cases join later walkLater with ⟨_, same⟩ | ⟨_, same⟩
  · rw [same]
    exact joined later (.refl later)
  · rw [same]
    exact joined _ (rest visit.scopes visit.notes)

theorem walk_alike (pass : Pass Value Notes Failure) (scopes : Scopes Value) (notes : Notes)
    (body : Body) : body.Alike (pass.walk scopes notes body).node := by
  induction body generalizing scopes notes with
  | empty => exact .empty
  | declaration declared later ih => exact andLater_alike (fun _ => .declaration) ih
  | assignment assigned later ih => exact andLater_alike (fun _ => .assignment) ih
  | rule selectors inner span later ihInner ihLater =>
      rw [walk_rule_eq]
      exact andLater_alike (fun _ => .rule (ihInner _ _)) ihLater

/-! ### Passes that keep a record -/

structure Enters (recordOf : Notes → Record) (limit? : Option Nat) (name : String)
    (scopes : Scopes Value) (notes : Notes) (visit : Visit Value Notes Failure Node) : Prop where
  depth : visit.scopes.depth = scopes.depth
  record : recordOf visit.notes = recordOf notes ++ [(name, scopes.depth)]
  failure : visit.failure?.isSome = true ↔ limit? = some (recordOf visit.notes).length

/-- The pass keeps a record of its visits among its notes, and fails right after visit number
`limit?`. It may bind names and replace what it visits. -/
structure Records (pass : Pass Value Notes Failure) (recordOf : Notes → Record)
    (limit? : Option Nat) : Prop where
  assignment : ∀ scopes notes assigned,
    Enters recordOf limit? assigned.name scopes notes (pass.assignment scopes notes assigned)
  declaration : ∀ scopes notes declared,
    Enters recordOf limit? declared.property.name scopes notes
      (pass.declaration scopes notes declared)

theorem record_enters (limit? : Option Nat) (name : String) (scopes : Scopes Unit)
    (notes : Record) (node : Node) :
    Enters id limit? name scopes notes (record limit? name scopes notes node) where
  depth := rfl
  record := rfl
  failure := by
    unfold record
    dsimp only [id]
    split
    · rename_i last
      exact iff_of_true rfl last
    · rename_i other
      exact iff_of_false (by simp) other

theorem recording_records (limit? : Option Nat) : (recording limit?).Records id limit? where
  assignment scopes notes assigned := record_enters limit? assigned.name scopes notes assigned
  declaration scopes notes declared :=
    record_enters limit? declared.property.name scopes notes declared

def Fails (limit? : Option Nat) (done total : Nat) : Prop :=
  ∃ limit, limit? = some limit ∧ done < limit ∧ limit ≤ done + total

def made (limit? : Option Nat) (done total : Nat) : Nat :=
  match limit? with
  | some limit => if done < limit then min (limit - done) total else total
  | none => total

section

variable {limit? : Option Nat} {done first second : Nat}

theorem made_le (total : Nat) : made limit? done total ≤ total := by
  unfold made
  split
  · split <;> omega
  · exact Nat.le_refl _

theorem made_of_not_fails (passes : ¬ Fails limit? done first) :
    made limit? done first = first := by
  unfold made
  split
  · rename_i limit
    split
    · have beyond : ¬ limit ≤ done + first := fun reached => passes ⟨limit, rfl, ‹_›, reached⟩
      omega
    · rfl
  · rfl

theorem made_add_of_fails (fails : Fails limit? done first) :
    made limit? done (first + second) = made limit? done first := by
  obtain ⟨limit, rfl, less, reached⟩ := fails
  simp only [made, if_pos less]
  omega

theorem made_add_of_not_fails (passes : ¬ Fails limit? done first) :
    made limit? done (first + second) = first + made limit? (done + first) second := by
  unfold made
  split
  · rename_i limit
    have beyond : done < limit → ¬ limit ≤ done + first := fun less reached =>
      passes ⟨limit, rfl, less, reached⟩
    split <;> split <;> omega
  · rfl

theorem fails_add : Fails limit? done (first + second) ↔
    Fails limit? done first ∨ Fails limit? (done + first) second := by
  unfold Fails
  constructor
  · rintro ⟨limit, same, less, reached⟩
    by_cases early : limit ≤ done + first
    · exact Or.inl ⟨limit, same, less, early⟩
    · exact Or.inr ⟨limit, same, by omega, by omega⟩
  · rintro (⟨limit, same, less, reached⟩ | ⟨limit, same, less, reached⟩)
    · exact ⟨limit, same, less, by omega⟩
    · exact ⟨limit, same, by omega, by omega⟩

end

/-- A part of a body with these spots was visited at the given depth, until the failure if there
is one, and `left` are the spots of what is left of it. -/
structure Seen (recordOf : Notes → Record) (limit? : Option Nat) (before : Record) (depth : Nat)
    (spots left : List Spot) (visit : Visit Value Notes Failure Node) : Prop where
  record : recordOf visit.notes =
    before ++ (spots.map (Spot.entry depth)).take (made limit? before.length spots.length)
  failure : visit.failure?.isSome = true ↔ Fails limit? before.length spots.length
  length : left.length = spots.length
  rest : left.drop (made limit? before.length spots.length) =
    spots.drop (made limit? before.length spots.length)

namespace Seen

variable {recordOf : Notes → Record} {limit? : Option Nat} {before : Record} {depth : Nat}

theorem empty (recordOf : Notes → Record) (limit? : Option Nat) (depth : Nat)
    (scopes : Scopes Value) (notes : Notes) (node : Node) :
    Seen recordOf limit? (recordOf notes) depth [] []
      (⟨scopes, notes, node, none⟩ : Visit Value Notes Failure Node) where
  record := by simp
  failure := by simp [Fails]
  length := rfl
  rest := rfl

theorem leaf {scopes : Scopes Value} {notes : Notes} {visit : Visit Value Notes Failure Node}
    (one other : Leaf) (enters : Enters recordOf limit? one.name scopes notes visit) :
    Seen recordOf limit? (recordOf notes) scopes.depth [⟨[0], [], one⟩] [⟨[0], [], other⟩]
      visit := by
  have whole : made limit? (recordOf notes).length 1 = 1 := by
    unfold made
    split
    · split <;> omega
    · rfl
  constructor
  · rw [List.length_singleton, whole, enters.record]
    rfl
  · rw [enters.failure, enters.record, List.length_append]
    simp only [Fails, List.length_singleton]
    constructor
    · rintro rfl
      exact ⟨_, rfl, by omega, by omega⟩
    · rintro ⟨limit, rfl, less, reached⟩
      exact congrArg some (by omega)
  · rfl
  · rw [List.length_singleton, whole]
    rfl

section

variable {first second left leftSecond : List Spot} {visit : Visit Value Notes Failure Node}
  {Other : Type}

/-- Spots that are moved, and recorded at another depth where they are now. -/
theorem moved {inner : Nat} (seen : Seen recordOf limit? before inner first left visit)
    (move : Spot → Spot) (entry : Spot.entry depth ∘ move = Spot.entry inner)
    {other : Visit Value Notes Failure Other} (notes : other.notes = visit.notes)
    (failure : other.failure? = visit.failure?) :
    Seen recordOf limit? before depth (first.map move) (left.map move) other where
  record := by
    rw [List.map_map, List.length_map, entry, notes]
    exact seen.record
  failure := by
    rw [List.length_map, failure]
    exact seen.failure
  length := by rw [List.length_map, List.length_map, seen.length]
  rest := by rw [List.length_map, ← List.map_drop, ← List.map_drop, seen.rest]

/-- After a failure nothing more is visited. -/
theorem stopped (here : Seen recordOf limit? before depth first left visit)
    (failed : visit.failure?.isSome = true) (rest : List Spot) :
    Seen recordOf limit? before depth (first ++ rest) (left ++ rest) visit := by
  have fails := here.failure.mp failed
  have count : made limit? before.length (first.length + rest.length) = _ := made_add_of_fails fails
  have within : made limit? before.length first.length ≤ first.length := made_le _
  constructor
  · rw [List.length_append, count, List.map_append,
      List.take_append_of_le_length (by rwa [List.length_map]), here.record]
  · rw [List.length_append, fails_add]
    exact iff_of_true failed (Or.inl fails)
  · rw [List.length_append, List.length_append, here.length]
  · rw [List.length_append, count, List.drop_append_of_le_length (by rwa [here.length]),
      List.drop_append_of_le_length within, here.rest]

/-- Without a failure the visits go on from where they are. -/
theorem continued (here : Seen recordOf limit? before depth first left visit)
    (passed : visit.failure? = none) {other : Visit Value Notes Failure Other}
    (there : Seen recordOf limit? (recordOf visit.notes) depth second leftSecond other) :
    Seen recordOf limit? before depth (first ++ second) (left ++ leftSecond) other := by
  have passes : ¬ Fails limit? before.length first.length := by
    rw [← here.failure, passed]
    exact Bool.false_ne_true
  have record : recordOf visit.notes = before ++ first.map (Spot.entry depth) := by
    rw [here.record, made_of_not_fails passes,
      List.take_of_length_le (Nat.le_of_eq (List.length_map _))]
  have done : (recordOf visit.notes).length = before.length + first.length := by
    rw [record, List.length_append, List.length_map]
  have count : made limit? before.length (first.length + second.length) = _ :=
    made_add_of_not_fails passes
  obtain ⟨recordThere, failure, length, rest⟩ := there
  rw [done] at recordThere failure rest
  constructor
  · rw [recordThere, record, List.length_append, count, List.map_append, List.append_assoc,
      ← List.length_map (Spot.entry depth), List.take_length_add_append]
  · rw [failure, List.length_append, fails_add]
    exact (or_iff_right passes).symm
  · rw [List.length_append, List.length_append, here.length, length]
  · have behind (more : Nat) :
        (left ++ leftSecond).drop (first.length + more) = leftSecond.drop more := by
      rw [← here.length, List.drop_length_add_append]
    rw [List.length_append, count, behind, List.drop_length_add_append, rest]

/-- A part of a body, and then the rest of the body unless the walk has failed. -/
theorem andLater {join : Node → Body → Body} {later : Body}
    {walkLater : Scopes Value → Notes → Visit Value Notes Failure Body}
    (joined : ∀ later, (join visit.node later).spots = left ++ later.spots.map Occurrence.next)
    (here : Seen recordOf limit? before depth first left visit)
    (there : visit.failure? = none → Seen recordOf limit? (recordOf visit.notes) depth later.spots
      (walkLater visit.scopes visit.notes).node.spots (walkLater visit.scopes visit.notes)) :
    Seen recordOf limit? before depth (first ++ later.spots.map Occurrence.next)
      (visit.andLater join later walkLater).node.spots (visit.andLater join later walkLater) := by
  rcases visit.andLater_cases join later walkLater with ⟨failed, same⟩ | ⟨passed, same⟩
  · rw [same, Visit.map, joined]
    have stopped := here.stopped failed (later.spots.map Occurrence.next)
    exact ⟨stopped.record, stopped.failure, stopped.length, stopped.rest⟩
  · rw [same, Visit.map, joined]
    exact here.continued passed ((there passed).moved Occurrence.next (Spot.entry_next depth) rfl rfl)

end

end Seen

theorem andLater_depth {depth : Nat} {visit : Visit Value Notes Failure Node}
    {join : Node → Body → Body} {later : Body}
    {walkLater : Scopes Value → Notes → Visit Value Notes Failure Body}
    (here : visit.scopes.depth = depth)
    (there : ∀ scopes notes, (walkLater scopes notes).scopes.depth = scopes.depth) :
    (visit.andLater join later walkLater).scopes.depth = depth := by
  rcases visit.andLater_cases join later walkLater with ⟨_, same⟩ | ⟨_, same⟩
  · rw [same]
    exact here
  · rw [same]
    exact (there visit.scopes visit.notes).trans here

section

variable {pass : Pass Value Notes Failure} {recordOf : Notes → Record} {limit? : Option Nat}

/-- A pass that keeps a record leaves as many scopes open as it finds. -/
theorem walk_depth (records : pass.Records recordOf limit?) (scopes : Scopes Value)
    (notes : Notes) (body : Body) :
    (pass.walk scopes notes body).scopes.depth = scopes.depth := by
  induction body generalizing scopes notes with
  | empty => rfl
  | declaration declared later ih =>
      exact andLater_depth (records.declaration scopes notes declared).depth ih
  | assignment assigned later ih =>
      exact andLater_depth (records.assignment scopes notes assigned).depth ih
  | rule selectors inner span later ihInner ihLater =>
      rw [walk_rule_eq]
      exact andLater_depth (Scopes.depth_leaveFor (ihInner _ notes)) ihLater

theorem walk_seen (records : pass.Records recordOf limit?) (scopes : Scopes Value) (notes : Notes)
    (body : Body) :
    Seen recordOf limit? (recordOf notes) scopes.depth body.spots
      (pass.walk scopes notes body).node.spots (pass.walk scopes notes body) := by
  induction body generalizing scopes notes with
  | empty => exact Seen.empty recordOf limit? scopes.depth scopes notes Body.empty
  | declaration declared later ih =>
      have enters := records.declaration scopes notes declared
      apply (Seen.leaf (.declaration declared) (.declaration _) enters).andLater fun _ => rfl
      intro _
      rw [← enters.depth]
      exact ih _ _
  | assignment assigned later ih =>
      have enters := records.assignment scopes notes assigned
      apply (Seen.leaf (.assignment assigned) (.assignment _) enters).andLater fun _ => rfl
      intro _
      rw [← enters.depth]
      exact ih _ _
  | rule selectors inner span later ihInner ihLater =>
      have inside := ihInner (scopes.enterFor selectors) notes
      have depth := walk_depth records (scopes.enterFor selectors) notes inner
      have back := Scopes.depth_leaveFor depth
      rw [Scopes.depth_enterFor] at inside
      rw [walk_rule_eq]
      generalize pass.walk (scopes.enterFor selectors) notes inner = walked at *
      have here : Seen recordOf limit? (recordOf notes) scopes.depth
          (inner.spots.map (Occurrence.within selectors)) (walked.node.spots.map (Occurrence.within selectors))
          { walked with scopes := walked.scopes.leaveFor selectors } :=
        inside.moved (Occurrence.within selectors) (Spot.entry_within _ selectors) rfl rfl
      apply here.andLater fun _ => rfl
      intro _
      rw [← back]
      exact ihLater _ _

end

/-- The first `limit?` members, or all of them without a limit. No member has the number 0. -/
def upTo {Member : Type} (limit? : Option Nat) (members : List Member) : List Member :=
  match limit? with
  | none | some 0 => members
  | some limit => members.take limit

theorem take_made {Member : Type} (limit? : Option Nat) (members : List Member) :
    members.take (made limit? 0 members.length) = upTo limit? members := by
  unfold made upTo
  split
  · rename_i limit
    cases limit with
    | zero => exact List.take_length
    | succ limit =>
        rw [if_pos (Nat.succ_pos limit), Nat.sub_zero]
        exact List.take_eq_take_min.symm
  · exact List.take_length

/-- A pass that keeps a record and fails right after visit number `limit?` records exactly the first
`limit?` of all assignments and declarations in document order, each with the number of scopes
around it: one for the sheet, and one for each rule around it with a selector. The rules stay as
they are, and so do all assignments and declarations after those recorded. -/
theorem walk_records {pass : Pass Value Notes Failure} {recordOf : Notes → Record}
    {limit? : Option Nat} (records : pass.Records recordOf limit?) {notes : Notes}
    (blank : recordOf notes = []) (sheet : Sheet) :
    ∃ spots : List Spot,
      spots.Pairwise (fun one other => one.place.Before other.place) ∧
      (∀ spot, spot ∈ spots ↔ sheet.body.SpotAt spot) ∧
      let visit := pass.walk .initial notes sheet.body
      recordOf visit.notes = upTo limit? (spots.map (Spot.entry 1)) ∧
      (visit.failure?.isSome = true ↔
        ∃ limit, limit? = some limit ∧ 0 < limit ∧ limit ≤ spots.length) ∧
      sheet.body.Alike visit.node ∧
      ∀ spot ∈ spots.drop (recordOf visit.notes).length, visit.node.SpotAt spot := by
  obtain ⟨record, failure, _, rest⟩ := walk_seen records .initial notes sheet.body
  rw [blank, List.length_nil] at record failure rest
  refine ⟨sheet.body.spots, sheet.body.picked_ordered Item.leaf?, fun _ => Body.mem_spots, ?_, ?_,
    walk_alike pass .initial notes sheet.body, ?_⟩
  · rw [record, ← take_made, List.length_map]
    rfl
  · simpa [Fails] using failure
  · intro spot member
    have count : (recordOf (pass.walk .initial notes sheet.body).notes).length =
        made limit? 0 sheet.body.spots.length := by
      rw [record, List.nil_append, List.length_take, List.length_map]
      exact Nat.min_eq_left (made_le _)
    rw [count, ← rest] at member
    exact Body.mem_spots.mp (List.mem_of_mem_drop member)

def mixedRules : Sheet where
  body :=
    .assignment ⟨"@top", .literal (.scalar 1) .null, .null⟩ <|
    .rule [.byClass "a"]
      (.assignment ⟨"@in", .literal (.scalar 1) .null, .null⟩ <|
       .rule []
         (.declaration ⟨.width, .literal (.pixel 1) .null, .null, none⟩ .empty) .null .empty)
      .null <|
    .assignment ⟨"@bottom", .literal (.scalar 1) .null, .null⟩ .empty
  span := .null

/-- An assignment, a rule that holds an assignment and a rule without selectors, and an
assignment. -/
theorem mixedRules_recorded :
    let visit := (recording (some 3)).walk .initial [] mixedRules.body
    visit.notes = [("@top", 1), ("@in", 2), ("width", 2)] ∧ visit.failure? = some "width" ∧
    ∃ spots : List Spot,
      (∀ spot, spot ∈ spots ↔ mixedRules.body.SpotAt spot) ∧
      visit.notes = (spots.map (Spot.entry 1)).take 3 ∧
      ∀ spot ∈ spots.drop 3, visit.node.SpotAt spot := by
  obtain ⟨spots, _, every, record, _, _, rest⟩ :=
    walk_records (recording_records (some 3)) rfl mixedRules
  exact ⟨rfl, rfl, spots, every, record, rest⟩

end Pass

end TypedStyle

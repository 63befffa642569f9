import Mathlib.Data.List.Infix
import Mathlib.Logic.Function.Iterate
import TypedStyle.Scopes

/-!
Scopes after any history of steps. Steps need not come in pairs: a scope may stay open, and leaving
the outermost scope does nothing. What a name stands for after all of them is said by the history
alone: it was bound last, of all the times at which it was bound in a scope that is still open.

Looking a name up goes from scope to scope and not through time. The two agree since whatever is
bound in an inner scope is bound after the outer scope was last innermost.
-/

namespace TypedStyle

variable {Value : Type}

namespace Scopes

inductive Step (Value : Type) where
  | enter
  | leave
  | bind (name : String) (value : Value)
  deriving DecidableEq

namespace Step

def isEnter : Step Value → Bool
  | enter => true
  | _ => false

def isLeave : Step Value → Bool
  | leave => true
  | _ => false

def apply (scopes : Scopes Value) : Step Value → Scopes Value
  | enter => scopes.enter
  | leave => scopes.leave
  | bind name value => scopes.bind name value

end Step

def after (scopes : Scopes Value) (steps : List (Step Value)) : Scopes Value :=
  steps.foldl Step.apply scopes

/-- The steps leave the scope in which they begin: somewhere along them more scopes have been left
than entered. -/
def Leaves (steps : List (Step Value)) : Prop :=
  ∃ front ∈ steps.inits, front.countP Step.isEnter < front.countP Step.isLeave

instance (steps : List (Step Value)) : Decidable (Leaves steps) :=
  inferInstanceAs (Decidable (∃ front ∈ steps.inits, _))

def unclosed : List (Step Value) → Nat
  | [] => 0
  | .enter :: later => if Leaves later then unclosed later else unclosed later + 1
  | _ :: later => unclosed later

/-- After `front` and before `rest` the name is bound, in a scope that is still open at the end: it
is the outermost one, or it is not left. -/
structure Survives (steps : List (Step Value)) (name : String) (value : Value)
    (front rest : List (Step Value)) : Prop where
  split : steps = front ++ .bind name value :: rest
  stays : unclosed front = 0 ∨ ¬ Leaves rest

structure Latest (steps : List (Step Value)) (name : String) (value : Value)
    (front rest : List (Step Value)) : Prop where
  survives : Survives steps name value front rest
  last : ∀ other before since, Survives steps name other before since →
    before.length ≤ front.length

def surplus : List (Step Value) → Nat
  | [] => 0
  | .enter :: later => surplus later - 1
  | .leave :: later => surplus later + 1
  | .bind _ _ :: later => surplus later

theorem exists_prefix_cons {step : Step Value} {later : List (Step Value)}
    {holds : List (Step Value) → Prop} :
    (∃ front, front <+: step :: later ∧ holds front) ↔
      holds [] ∨ ∃ front, front <+: later ∧ holds (step :: front) := by
  simp only [List.prefix_cons_iff]
  constructor
  · rintro ⟨_, rfl | ⟨front, rfl, begins⟩, here⟩
    · exact Or.inl here
    · exact Or.inr ⟨front, begins, here⟩
  · rintro (here | ⟨front, begins, here⟩)
    · exact ⟨[], Or.inl rfl, here⟩
    · exact ⟨step :: front, Or.inr ⟨front, rfl, begins⟩, here⟩

theorem lt_surplus_iff (extra : Nat) (steps : List (Step Value)) :
    extra < surplus steps ↔
      ∃ front, front <+: steps ∧ front.countP Step.isEnter + extra < front.countP Step.isLeave := by
  induction steps generalizing extra with
  | nil => simp [surplus]
  | cons step later ih =>
      rw [exists_prefix_cons]
      cases step with
      | enter =>
          have fewer : extra < surplus later - 1 ↔ extra + 1 < surplus later := by omega
          simp [surplus, fewer, ih, List.countP_cons, Step.isEnter, Step.isLeave, Nat.add_assoc,
            Nat.add_comm extra]
      | leave =>
          cases extra with
          | zero =>
              refine iff_of_true (Nat.succ_pos _) (Or.inr ⟨[], List.nil_prefix, ?_⟩)
              exact Nat.one_pos
          | succ extra =>
              simp [surplus, ih, List.countP_cons, Step.isEnter, Step.isLeave, ← Nat.add_assoc]
      | bind name value => simp [surplus, ih, Step.isEnter, Step.isLeave]

theorem leaves_iff {steps : List (Step Value)} : Leaves steps ↔ surplus steps ≠ 0 := by
  simp only [Leaves, List.mem_inits]
  rw [← Nat.pos_iff_ne_zero, lt_surplus_iff]
  rfl

variable (scopes : Scopes Value)

theorem leave_of_depth_one (outermost : scopes.depth = 1) : scopes.leave = scopes := by
  have single : scopes.outer = [] := List.length_eq_zero_iff.mp (Nat.succ.inj outermost)
  rw [leave, single]

theorem iterate_leave_of_depth_one (outermost : scopes.depth = 1) (count : Nat) :
    leave^[count] scopes = scopes :=
  Function.iterate_fixed (leave_of_depth_one scopes outermost) count

-- Leaving a scope that is not the outermost takes what is bound in it away.
theorem leave_bind (inside : scopes.depth ≠ 1) (name : String) (value : Value) :
    (scopes.bind name value).leave = scopes.leave := by
  obtain ⟨innermost, _ | ⟨frame, outer⟩⟩ := scopes
  · exact absurd rfl inside
  · rfl

/-- The outermost scope cannot be left. -/
theorem iterate_leave_of_stays {count : Nat} (stays : scopes.depth = 1 ∨ count = 0) :
    leave^[count] scopes = scopes := by
  rcases stays with outermost | rfl
  · exact iterate_leave_of_depth_one _ outermost count
  · rfl

theorem iterate_leave_bind_of_left {count : Nat} (left : ¬ (scopes.depth = 1 ∨ count = 0))
    (name : String) (value : Value) :
    leave^[count] (scopes.bind name value) = leave^[count] scopes := by
  obtain ⟨inside, positive⟩ := not_or.mp left
  obtain ⟨count, rfl⟩ := Nat.exists_eq_succ_of_ne_zero positive
  rw [Function.iterate_succ_apply, leave_bind scopes inside, ← Function.iterate_succ_apply]

theorem iterate_leave_enter_of_pos {count : Nat} (positive : count ≠ 0) :
    leave^[count] scopes.enter = leave^[count - 1] scopes := by
  obtain ⟨count, rfl⟩ := Nat.exists_eq_succ_of_ne_zero positive
  rfl

/-- Of the scopes at the start as many are left as are left in surplus, and all that were entered
without being left come on top. -/
theorem depth_after (steps : List (Step Value)) :
    (scopes.after steps).depth = (leave^[surplus steps] scopes).depth + unclosed steps := by
  induction steps generalizing scopes with
  | nil => rfl
  | cons step later ih =>
      have stepped : scopes.after (step :: later) = (step.apply scopes).after later := rfl
      rw [stepped, ih]
      cases step with
      | enter =>
          simp only [Step.apply, surplus, unclosed, leaves_iff]
          by_cases balanced : surplus later = 0
          · simp [balanced]
            omega
          · rw [iterate_leave_enter_of_pos scopes balanced, if_pos balanced]
      | leave => rfl
      | bind name value =>
          simp only [Step.apply, surplus, unclosed]
          by_cases stays : scopes.depth = 1 ∨ surplus later = 0
          · rw [iterate_leave_of_stays scopes stays,
              iterate_leave_of_stays (scopes.bind name value) stays, depth_bind]
          · rw [iterate_leave_bind_of_left scopes stays]

theorem depth_after_initial (steps : List (Step Value)) :
    ((initial : Scopes Value).after steps).depth = 1 + unclosed steps := by
  rw [depth_after, iterate_leave_of_depth_one _ rfl]
  rfl

theorem depth_after_eq_one_iff {steps : List (Step Value)} :
    ((initial : Scopes Value).after steps).depth = 1 ↔ unclosed steps = 0 := by
  rw [depth_after_initial]
  omega

theorem after_append (front rest : List (Step Value)) :
    scopes.after (front ++ rest) = (scopes.after front).after rest :=
  List.foldl_append

theorem after_bind (front rest : List (Step Value)) (name : String) (value : Value) :
    scopes.after (front ++ .bind name value :: rest) =
      ((scopes.after front).bind name value).after rest :=
  after_append scopes front (.bind name value :: rest)

/-- Where no binding of the name along the steps stays, the name stands for what it did, in the
scopes that remain of those at the start. -/
theorem resolve?_after_of_lost {name : String} {steps : List (Step Value)}
    (lost : ∀ between value later, steps = between ++ .bind name value :: later →
      ¬ ((scopes.after between).depth = 1 ∨ surplus later = 0)) :
    (scopes.after steps).resolve? name = (leave^[surplus steps] scopes).resolve? name := by
  induction steps generalizing scopes with
  | nil => rfl
  | cons step later ih =>
      have rest := ih (step.apply scopes) fun between value since split =>
        lost (step :: between) value since (congrArg (step :: ·) split)
      have stepped : scopes.after (step :: later) = (step.apply scopes).after later := rfl
      rw [stepped, rest]
      cases step with
      | enter =>
          simp only [Step.apply, surplus]
          by_cases balanced : surplus later = 0
          · rw [balanced]
            exact resolve?_enter scopes name
          · rw [iterate_leave_enter_of_pos scopes balanced]
      | leave => rfl
      | bind bound value =>
          simp only [Step.apply, surplus]
          by_cases stays : scopes.depth = 1 ∨ surplus later = 0
          · have other : name ≠ bound := by
              rintro rfl
              exact lost [] value later rfl stays
            rw [iterate_leave_of_stays scopes stays,
              iterate_leave_of_stays (scopes.bind bound value) stays, resolve?_bind, if_neg other]
          · rw [iterate_leave_bind_of_left scopes stays]

section

variable {steps : List (Step Value)} {name : String}

theorem stays_iff {front rest : List (Step Value)} :
    unclosed front = 0 ∨ ¬ Leaves rest ↔
      ((initial : Scopes Value).after front).depth = 1 ∨ surplus rest = 0 := by
  rw [depth_after_eq_one_iff, leaves_iff, not_not]

theorem resolve?_after_of_latest {value : Value} {front rest : List (Step Value)}
    (latest : Latest steps name value front rest) :
    (initial.after steps).resolve? name = some value := by
  obtain ⟨⟨rfl, stays⟩, last⟩ := latest
  have kept : ((initial.after front).bind name value).depth = 1 ∨ surplus rest = 0 :=
    stays_iff.mp stays
  rw [after_bind, resolve?_after_of_lost, iterate_leave_of_stays _ kept, resolve?_bind, if_pos rfl]
  -- A binding along the rest would be a later one.
  rintro between other later rfl staysToo
  rw [← after_bind] at staysToo
  have beyond := last other (front ++ .bind name value :: between) later
    ⟨by simp, stays_iff.mpr staysToo⟩
  rw [List.length_append, List.length_cons] at beyond
  omega

theorem resolve?_after_of_none
    (absent : ∀ value front rest, ¬ Survives steps name value front rest) :
    ((initial : Scopes Value).after steps).resolve? name = none := by
  rw [resolve?_after_of_lost, iterate_leave_of_depth_one _ rfl, resolve?_initial]
  intro between value later split stays
  exact absent value between later ⟨split, stays_iff.mpr stays⟩

/-- If any binding survives, one of them is the latest. -/
theorem exists_latest {value : Value} {front rest : List (Step Value)}
    (survives : Survives steps name value front rest) :
    ∃ value front rest, Latest steps name value front rest := by
  induction left : rest.length using Nat.strong_induction_on generalizing value front rest with
  | _ count ih =>
      by_cases beyond : ∃ other before since, Survives steps name other before since ∧
          front.length < before.length
      · obtain ⟨other, before, since, later, more⟩ := beyond
        have whole := congrArg List.length (survives.split.symm.trans later.split)
        simp only [List.length_append, List.length_cons] at whole
        exact ih since.length (by omega) later rfl
      · refine ⟨value, front, rest, survives, ?_⟩
        intro other before since survivesToo
        exact Nat.le_of_not_lt fun more => beyond ⟨other, before, since, survivesToo, more⟩

theorem resolve?_after_eq_none_iff :
    ((initial : Scopes Value).after steps).resolve? name = none ↔
      ∀ value front rest, ¬ Survives steps name value front rest := by
  constructor
  · intro unbound value front rest survives
    obtain ⟨other, before, since, latest⟩ := exists_latest survives
    rw [resolve?_after_of_latest latest] at unbound
    cases unbound
  · exact resolve?_after_of_none

end

/-- After any history of steps a name stands for what it was bound to last, of all the times at
which it was bound in a scope that is still open, and for nothing if there is none. The depth is
one more than the number of scopes entered and not left; at depth one, leaving changes nothing. -/
theorem after_initial_resolves (steps : List (Step Value)) :
    (∀ name value, (initial.after steps).resolve? name = some value ↔
      ∃ front rest, Latest steps name value front rest) ∧
    (∀ name, ((initial : Scopes Value).after steps).resolve? name = none ↔
      ∀ value front rest, ¬ Survives steps name value front rest) ∧
    (∀ name, ((initial : Scopes Value).after steps).isBound name = true ↔
      ∃ value front rest, Survives steps name value front rest) ∧
    ((initial : Scopes Value).after steps).depth = 1 + unclosed steps ∧
    (((initial : Scopes Value).after steps).depth = 1 →
      (initial : Scopes Value).after (steps ++ [.leave]) = initial.after steps) := by
  refine ⟨?_, fun name => resolve?_after_eq_none_iff, ?_, depth_after_initial steps, ?_⟩
  · intro name value
    constructor
    · intro found
      have bound : ¬ ∀ value front rest, ¬ Survives steps name value front rest := by
        rw [← resolve?_after_eq_none_iff, found]
        exact Option.some_ne_none value
      simp only [not_forall, not_not] at bound
      obtain ⟨other, before, since, survives⟩ := bound
      obtain ⟨last, front, rest, latest⟩ := exists_latest survives
      have same := (resolve?_after_of_latest latest).symm.trans found
      cases same
      exact ⟨front, rest, latest⟩
    · rintro ⟨front, rest, latest⟩
      exact resolve?_after_of_latest latest
  · intro name
    rw [isBound, Option.isSome_iff_ne_none, ne_eq, resolve?_after_eq_none_iff]
    simp only [not_forall, not_not]
  · intro outermost
    rw [after_append]
    exact leave_of_depth_one _ outermost

-- The first leaving does nothing, and the last one takes the second binding away.
example : ((initial : Scopes Nat).after
    [.bind "@w" 1, .leave, .enter, .bind "@w" 2, .leave]).resolve? "@w" = some 1 := by decide

end Scopes

end TypedStyle

/-!
Cuts: ways to cut a front off a text. A cut answers with the part cut off and the rest, or with
nothing when the text does not start as it demands. Joining the two parts gives the text back.
-/

namespace TypedStyle.Text

abbrev Cut := List Char → Option (List Char × List Char)

namespace Cut

def one (holds : Char → Bool) : Cut
  | [] => none
  | first :: rest => if holds first then some ([first], rest) else none

def run (holds : Char → Bool) : Cut := fun text =>
  some (text.takeWhile holds, text.dropWhile holds)

def exactly : List Char → Cut
  | [], text => some ([], text)
  | _ :: _, [] => none
  | wanted :: later, first :: rest =>
      if first = wanted then (exactly later rest).map fun (front, back) => (first :: front, back)
      else none

/-- Up to and with the first `*/`, after the characters `seen`, held in reverse. -/
def closing (seen : List Char) : Cut
  | '*' :: '/' :: rest => some (('/' :: '*' :: seen).reverse, rest)
  | first :: rest => closing (first :: seen) rest
  | [] => none

def andThen (first second : Cut) : Cut := fun text =>
  match first text with
  | none => none
  | some (front, rest) => (second rest).map fun (middle, back) => (front ++ middle, back)

def many1 (holds : Char → Bool) : Cut := (one holds).andThen (run holds)

def Exact (cut : Cut) : Prop :=
  ∀ text front back, cut text = some (front, back) → text = front ++ back

theorem exact_one (holds : Char → Bool) : Exact (one holds) := by
  intro text front back done
  cases text with
  | nil => simp [one] at done
  | cons first rest =>
      by_cases hit : holds first <;> simp [one, hit] at done
      simp [← done.1, ← done.2]

theorem exact_run (holds : Char → Bool) : Exact (run holds) := by
  intro text front back done
  simp only [run, Option.some.injEq, Prod.mk.injEq] at done
  rw [← done.1, ← done.2, List.takeWhile_append_dropWhile]

theorem exactly_eq_some {wanted text front back : List Char}
    (done : exactly wanted text = some (front, back)) : front = wanted ∧ text = wanted ++ back := by
  induction wanted generalizing text front with
  | nil => simp_all [exactly]
  | cons char later ih =>
      cases text with
      | nil => simp [exactly] at done
      | cons first rest =>
          by_cases same : first = char
          · simp only [exactly, same, if_true, Option.map_eq_some_iff] at done
            obtain ⟨⟨inner, tail⟩, found, parts⟩ := done
            obtain ⟨rfl, rfl⟩ := Prod.mk.inj parts
            obtain ⟨rfl, rfl⟩ := ih found
            simp [same]
          · simp [exactly, same] at done

theorem exact_exactly (wanted : List Char) : Exact (exactly wanted) := by
  intro text front back done
  obtain ⟨rfl, rfl⟩ := exactly_eq_some done
  rfl

theorem closing_eq_some {seen text front back : List Char}
    (done : closing seen text = some (front, back)) : seen.reverse ++ text = front ++ back := by
  fun_induction closing seen text with
  | case1 seen rest =>
      simp only [Option.some.injEq, Prod.mk.injEq] at done
      simp [← done.1, ← done.2]
  | case2 seen first rest _ ih => simpa using ih done
  | case3 => simp at done

theorem exact_closing : Exact (closing []) := by
  intro text front back done
  simpa using closing_eq_some done

theorem andThen_eq_some {first second : Cut} {text front back : List Char} :
    first.andThen second text = some (front, back) ↔
      ∃ left rest right, first text = some (left, rest) ∧ second rest = some (right, back) ∧
        front = left ++ right := by
  unfold andThen
  cases found : first text with
  | none => simp
  | some pair =>
      obtain ⟨left, rest⟩ := pair
      simp only [Option.map_eq_some_iff, Prod.mk.injEq, Option.some.injEq, Prod.exists]
      constructor
      · rintro ⟨right, tail, next, rfl, rfl⟩
        exact ⟨left, rest, right, ⟨rfl, rfl⟩, next, rfl⟩
      · rintro ⟨_, _, right, ⟨rfl, rfl⟩, next, rfl⟩
        exact ⟨right, back, next, rfl, rfl⟩

theorem Exact.andThen {first second : Cut} (left : Exact first) (right : Exact second) :
    Exact (first.andThen second) := by
  intro text front back done
  obtain ⟨one, rest, two, here, there, rfl⟩ := andThen_eq_some.mp done
  rw [left _ _ _ here, right _ _ _ there, List.append_assoc]

theorem exact_many1 (holds : Char → Bool) : Exact (many1 holds) :=
  (exact_one holds).andThen (exact_run holds)

def Progresses (cut : Cut) : Prop := ∀ text front back, cut text = some (front, back) → front ≠ []

theorem progresses_one (holds : Char → Bool) : Progresses (one holds) := by
  intro text front back done
  cases text with
  | nil => simp [one] at done
  | cons first rest =>
      by_cases hit : holds first <;> simp [one, hit] at done
      simp [← done.1]

theorem progresses_exactly (first : Char) (later : List Char) :
    Progresses (exactly (first :: later)) := by
  intro text front back done
  simp [(exactly_eq_some done).1]

theorem Progresses.andThen {first : Cut} (progress : Progresses first) (second : Cut) :
    Progresses (first.andThen second) := by
  intro text front back done
  obtain ⟨one, rest, two, here, _, rfl⟩ := andThen_eq_some.mp done
  simp [progress _ _ _ here]

theorem progresses_many1 (holds : Char → Bool) : Progresses (many1 holds) :=
  (progresses_one holds).andThen _

end Cut

end TypedStyle.Text

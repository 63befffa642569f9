import TypedStyle.Text.Line

/-!
Where a byte of a text stands. The lines of a text are its pieces up to and with each newline, and
what is left after the last one. A byte has a place exactly if the text has that many bytes, and
the place is the line that holds the byte, by its number, with the bytes of the line before it.
-/

namespace TypedStyle.Text

/-- The line stands between `before` and `after`: it begins where the text or a line begins, and a
newline ends it, unless it is the last. -/
structure IsLine (before line after : List Char) : Prop where
  begins : before = [] ∨ ∃ earlier, before = earlier ++ ['\n']
  ends : ∃ content, '\n' ∉ content ∧ (line = content ++ ['\n'] ∨ line = content ∧ after = [])

namespace IsLine

variable {before line after content : List Char}

theorem first (free : '\n' ∉ content)
    (closed : line = content ++ ['\n'] ∨ line = content ∧ after = []) : IsLine [] line after :=
  ⟨Or.inl rfl, content, free, closed⟩

/-- One more line in front. -/
theorem later (content : List Char) (here : IsLine before line after) :
    IsLine (content ++ ['\n'] ++ before) line after where
  begins := by
    right
    rcases here.begins with rfl | ⟨earlier, rfl⟩
    · exact ⟨content, List.append_nil _⟩
    · exact ⟨content ++ ['\n'] ++ earlier, (List.append_assoc _ _ _).symm⟩
  ends := here.ends

end IsLine

inductive Lined : List (List Char) → Prop where
  | nil : Lined []
  | last {content : List Char} (free : '\n' ∉ content) : Lined [content]
  | next {content : List Char} {later : List (List Char)} (free : '\n' ∉ content)
      (rest : Lined later) : Lined ((content ++ ['\n']) :: later)

theorem lined_linesAfter {started : List Char} (free : '\n' ∉ started) (text : List Char) :
    Lined (linesAfter started text) := by
  have reversed {started : List Char} (free : '\n' ∉ started) : '\n' ∉ started.reverse := by
    rwa [List.mem_reverse]
  induction text generalizing started with
  | nil =>
      rw [linesAfter]
      split
      · exact .nil
      · exact .last (reversed free)
  | cons char rest ih =>
      rw [linesAfter]
      split
      · rename_i newline
        rw [newline, List.reverse_cons]
        exact .next (reversed free) (ih List.not_mem_nil)
      · rename_i other
        apply ih
        rw [List.mem_cons, not_or]
        exact ⟨Ne.symm other, free⟩

theorem linesAfter_append (started earlier rest : List Char) :
    linesAfter started (earlier ++ ['\n'] ++ rest) =
      linesAfter started (earlier ++ ['\n']) ++ lines rest := by
  induction earlier generalizing started with
  | nil => simp [linesAfter, lines]
  | cons char earlier ih =>
      simp only [List.cons_append, linesAfter]
      split
      · rw [ih, List.cons_append]
      · rw [ih]

theorem length_linesAfter (started earlier : List Char) :
    (linesAfter started (earlier ++ ['\n'])).length = (earlier ++ ['\n']).count '\n' := by
  induction earlier generalizing started with
  | nil => simp [linesAfter]
  | cons char earlier ih =>
      simp only [List.cons_append, linesAfter]
      split
      · rename_i newline
        rw [List.length_cons, ih, newline, List.count_cons_self]
      · rename_i other
        rw [ih, List.count_cons_of_ne other]

theorem linesAfter_free {content : List Char} (free : '\n' ∉ content) (started rest : List Char) :
    linesAfter started (content ++ rest) = linesAfter (content.reverse ++ started) rest := by
  induction content generalizing started with
  | nil => rfl
  | cons char content ih =>
      obtain ⟨other, free⟩ := not_or.mp (mt List.mem_cons.mpr free)
      rw [List.cons_append, linesAfter, if_neg (Ne.symm other), ih free, List.reverse_cons,
        List.append_assoc, List.singleton_append]

namespace IsLine

variable {before line after : List Char}

theorem lines_before (isLine : IsLine before line after) (rest : List Char) :
    lines (before ++ rest) = lines before ++ lines rest ∧
      (lines before).length = before.count '\n' := by
  rcases isLine.begins with rfl | ⟨earlier, rfl⟩
  · exact ⟨rfl, rfl⟩
  · exact ⟨linesAfter_append [] earlier rest, length_linesAfter [] earlier⟩

theorem lines_eq (isLine : IsLine before line after) (nonempty : line ≠ []) :
    lines (line ++ after) = line :: lines after := by
  obtain ⟨content, free, rfl | ⟨rfl, rfl⟩⟩ := isLine.ends
  · rw [lines, linesAfter_append, linesAfter_free free]
    simp [linesAfter]
  · rw [lines, linesAfter_free free]
    simp [linesAfter, lines, nonempty]

end IsLine

theorem placeIn_eq_none {line offset : Nat} {lines : List (List Char)} :
    placeIn line offset lines = none ↔ byteLength lines.flatten ≤ offset := by
  induction lines generalizing line offset with
  | nil => simp [placeIn]
  | cons text later ih =>
      rw [placeIn, List.flatten_cons, byteLength_append]
      split
      · rename_i inside
        simp only [reduceCtorEq, false_iff]
        omega
      · rename_i past
        rw [ih]
        omega

-- By induction on the lines: those that the byte is not in go before the line that it is in.
theorem placeIn_eq_some {lines : List (List Char)} (lined : Lined lines) {number offset : Nat}
    {place : Place} (found : placeIn number offset lines = some place) :
    ∃ before after, lines.flatten = before ++ place.text ++ after ∧
      byteLength before + place.column = offset ∧ place.column < byteLength place.text ∧
      IsLine before place.text after ∧ place.line = number + before.count '\n' := by
  induction lined generalizing number offset with
  | nil => cases found
  | @last content free =>
      rw [placeIn] at found
      split at found
      · rename_i inside
        cases found
        exact ⟨[], [], by simp, Nat.zero_add _, inside, .first free (Or.inr ⟨rfl, rfl⟩), rfl⟩
      · cases found
  | @next content later free rest ih =>
      rw [placeIn] at found
      split at found
      · rename_i inside
        cases found
        exact ⟨[], later.flatten, by simp, Nat.zero_add _, inside, .first free (Or.inl rfl), rfl⟩
      · rename_i past
        obtain ⟨before, after, whole, bytes, inside, isLine, counted⟩ := ih found
        refine ⟨content ++ ['\n'] ++ before, after, ?_, ?_, inside, isLine.later content, ?_⟩
        · rw [List.flatten_cons, whole]
          simp only [List.append_assoc]
        · rw [byteLength_append (content ++ ['\n'])]
          omega
        · rw [counted, List.count_append, List.count_append, List.count_eq_zero.mpr free,
            List.count_singleton_self]
          omega

theorem placeIn_append (number offset : Nat) (front back : List (List Char)) :
    placeIn number (byteLength front.flatten + offset) (front ++ back) =
      placeIn (number + front.length) offset back := by
  induction front generalizing number with
  | nil => simp
  | cons text front ih =>
      have past : ¬ byteLength (text ++ front.flatten) + offset < byteLength text := by
        rw [byteLength_append]
        omega
      have left : byteLength (text ++ front.flatten) + offset - byteLength text =
          byteLength front.flatten + offset := by
        rw [byteLength_append]
        omega
      rw [List.cons_append, List.flatten_cons, placeIn, if_neg past, left, ih, List.length_cons,
        Nat.add_assoc, Nat.add_comm 1]

theorem place?_eq_none {text : List Char} {offset : Nat} :
    place? text offset = none ↔ byteLength text ≤ offset := by
  rw [place?, placeIn_eq_none, flatten_lines]

/-- The line between `before` and `after`, with its number, is the place of each of its bytes. -/
theorem place?_eq_some {text : List Char} {offset number column : Nat} {line : List Char} :
    place? text offset = some ⟨number, line, column⟩ ↔
      ∃ before after, text = before ++ line ++ after ∧
        byteLength before + column = offset ∧ column < byteLength line ∧
        IsLine before line after ∧ number = 1 + before.count '\n' := by
  constructor
  · intro found
    have placed := placeIn_eq_some (lined_linesAfter List.not_mem_nil text) found
    rwa [← lines, flatten_lines] at placed
  · rintro ⟨before, after, rfl, rfl, inside, isLine, rfl⟩
    have nonempty : line ≠ [] := by
      rintro rfl
      cases inside
    obtain ⟨split, counted⟩ := isLine.lines_before (line ++ after)
    have placed := placeIn_append 1 column (lines before) (lines (line ++ after))
    rw [flatten_lines, ← split, counted, isLine.lines_eq nonempty, placeIn, if_pos inside] at placed
    rw [List.append_assoc]
    exact placed

/-- A byte has a place exactly if the text has that many bytes. Its place is the line that the text
splits at as follows: so many bytes stand before the line and, within it, before the byte; the
lines before it are counted by their newlines; and its only newline is its last character, which it
has unless the text ends with it. -/
theorem place?_exact (text : List Char) (offset : Nat) :
    (place? text offset = none ↔ byteLength text ≤ offset) ∧
    ∀ number line column, place? text offset = some ⟨number, line, column⟩ ↔
      ∃ before after, text = before ++ line ++ after ∧
        byteLength before + column = offset ∧ column < byteLength line ∧
        (before = [] ∨ ∃ earlier, before = earlier ++ ['\n']) ∧
        before.count '\n' = number - 1 ∧ 1 ≤ number ∧
        ∃ content, '\n' ∉ content ∧ (line = content ++ ['\n'] ∨ line = content ∧ after = []) := by
  refine ⟨place?_eq_none, ?_⟩
  intro number line column
  rw [place?_eq_some]
  constructor
  · rintro ⟨before, after, whole, bytes, inside, isLine, counted⟩
    exact ⟨before, after, whole, bytes, inside, isLine.begins, by omega, by omega, isLine.ends⟩
  · rintro ⟨before, after, whole, bytes, inside, begins, counted, one, ends⟩
    exact ⟨before, after, whole, bytes, inside, ⟨begins, ends⟩, by omega⟩

-- The second byte of a character of two bytes, after an empty line and in front of a newline.
example : place? "a\n\né\nb".toList 4 = some ⟨3, "é\n".toList, 1⟩ := by decide

end TypedStyle.Text

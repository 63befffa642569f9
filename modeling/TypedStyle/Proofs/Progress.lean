import TypedStyle.Proofs.Unfolding

/-!
Reading moves forward. Whatever stands for at least one token is read by passing one, or is rejected
further on and never further back.

No read passes the first `eof`: with the tokens after it taken away, a read still has a token to
stop at, and what it does depends on no token after that one.
-/

namespace TypedStyle

open Grammar (language)

namespace Read

namespace Call

variable {cursor : Cursor}

def isPhrase : Call → Bool
  | .extend _ _ | .body | .sheet => false
  | _ => true

theorem fits_of_isPhrase {call : Call} (phrase : call.isPhrase = true) : call.Fits cursor := by
  cases call with
  | extend power left => cases phrase
  | _ => trivial

theorem reaches_some {call : Call} (phrase : call.isPhrase = true) (ready : cursor.Ready) :
    Reaches call.read cursor fun tokens _ _ => 0 < tokens.length := by
  cases call with
  | extend power left => cases phrase
  | body => cases phrase
  | sheet => cases phrase
  | expr power =>
      apply ((reaches_within cursor.left).1 power cursor ready).mono
      intro _ _ _ holds
      exact holds.1.length_pos
  | selectors =>
      apply (reaches_selectorsWithin cursor.left ready).mono
      intro _ _ _ derives
      cases derives with
      | one _ => exact Nat.one_pos
      | more _ _ _ => exact Nat.succ_pos _
  | assignment =>
      apply (reaches_assignment .rule ready).mono
      intro _ _ _ read
      exact read.length_pos
  | declaration =>
      apply (reaches_declaration ready).mono
      intro _ _ _ read
      exact read.length_pos
  | rule =>
      apply (reaches_ruleOf .rule ready fun cursor ready =>
        reaches_bodyWithin cursor.left ready).mono
      intro _ _ _ read
      exact read.length_pos
  | bodyItem =>
      apply (reaches_bodyItemOf ready fun cursor ready =>
        reaches_bodyWithin cursor.left ready).mono
      intro _ _ _ read
      exact read.length_pos
  | sheetItem =>
      apply (reaches_sheetItem ready).mono
      intro _ _ _ read
      exact read.length_pos

theorem local_read {call : Call} (phrase : call.isPhrase = true) (limit : Nat)
    (ready : cursor.Ready) : Local call.read call.read limit cursor [] := by
  have inner (start : Cursor) (ready : start.Ready) := reaches_bodyWithin start.left ready
  cases call with
  | extend power left => cases phrase
  | body => cases phrase
  | sheet => cases phrase
  | expr power => exact local_expr ready
  | selectors => exact local_selectors ready fun _ => local_selector ready
  | assignment => exact local_assignment ready
  | declaration => exact local_declaration ready (local_expect ready.closed (by decide))
  | rule =>
      exact local_ruleOf ready (fun _ => local_selector ready) inner fun _ ready _ =>
        local_body ready
  | bodyItem => exact local_bodyItemOf ready inner fun _ ready _ => local_body ready
  | sheetItem => exact local_sheetItem ready

end Call

end Read

namespace Cursor

def BeforeEnd (cursor : Cursor) : Prop := ∀ token ∈ cursor.passed, token.kind ≠ .eof

instance (cursor : Cursor) : Decidable cursor.BeforeEnd :=
  inferInstanceAs (Decidable (∀ token ∈ cursor.passed, token.kind ≠ .eof))

theorem Closed.exists_eof {cursor : Cursor} (closed : cursor.Closed) :
    ∃ front last rest, cursor.left = front ++ last :: rest ∧ last.kind = .eof ∧
      ∀ token ∈ front, token.kind ≠ .eof := by
  obtain ⟨final, found, ends⟩ := closed
  cases first : cursor.left.find? fun token => token.kind == .eof with
  | none =>
      have absent := List.find?_eq_none.mp first final (List.mem_of_getLast? found)
      exact absurd ends (by simpa using absent)
  | some last =>
      obtain ⟨ends, front, rest, left, inside⟩ := List.find?_eq_some_iff_append.mp first
      exact ⟨front, last, rest, left, by simpa using ends, by simpa using inside⟩

/-- Without the tokens after the first `eof`, the cursor is as ready as with them. -/
theorem Ready.refill {cursor : Cursor} (ready : cursor.Ready) {front ahead rest : List Token}
    {last : Token} (left : cursor.left = front ++ last :: rest) (ends : last.kind = .eof)
    (cut : cursor.current :: ahead = front ++ [last]) : (cursor.refill ahead).Ready := by
  have short : (cursor.refill ahead).left = front ++ [last] := cut
  constructor
  · exact ⟨last, by simp [short], ends⟩
  · intro token member
    apply ready.signed
    rw [short, List.mem_append, List.mem_singleton] at member
    rw [left, List.mem_append, List.mem_cons]
    rcases member with member | same
    · exact Or.inl member
    · exact Or.inr (Or.inl same)

end Cursor

namespace Read

variable {Result : Type} {cursor : Cursor}

theorem final_eq_of_refilled {read : Read Result} {start : Cursor} {rest : List Token}
    (same : read cursor = refilled rest (read start)) :
    final read cursor = (final read start).refill rest := by
  rw [final, final, same]
  cases read start with
  | ok result after => rfl
  | error stop after => rfl

/-- A local read passes no `eof`. -/
theorem passes_before_eof {read : Read Result}
    (isLocal : ∀ limit (cursor : Cursor), cursor.Ready → Local read read limit cursor [])
    (ready : cursor.Ready) :
    ∃ tokens, cursor.Passes tokens (final read cursor) ∧ ∀ token ∈ tokens, token.kind ≠ .eof := by
  obtain ⟨front, last, rest, left, ends, inside⟩ := ready.closed.exists_eof
  obtain ⟨ahead, cut⟩ : ∃ ahead, cursor.current :: ahead = front ++ [last] := by
    cases front with
    | nil => exact ⟨[], by rw [Cursor.current_eq_of_left left]; rfl⟩
    | cons first front => exact ⟨front ++ [last], by rw [Cursor.current_eq_of_left left]; rfl⟩
  -- The same read of the tokens up to the first `eof` alone.
  have short := isLocal cursor.left.length (cursor.refill ahead) (ready.refill left ends cut)
  obtain ⟨tokens, passes⟩ := short.moves
  rw [List.nil_append] at passes
  have divides : front ++ [last] = tokens ++ (final read (cursor.refill ahead)).left :=
    cut.symm.trans passes.left
  refine ⟨tokens, ?_, ?_⟩
  · have whole : cursor.left = tokens ++ (final read (cursor.refill ahead)).current ::
        ((final read (cursor.refill ahead)).ahead ++ rest) := by
      calc cursor.left = front ++ [last] ++ rest := by simp [left]
        _ = tokens ++ (final read (cursor.refill ahead)).left ++ rest := by rw [divides]
        _ = _ := by simp [Cursor.left]
    have same : read cursor = refilled _ (read (cursor.refill ahead)) :=
      short.agrees tokens cursor.ahead _ passes whole (Nat.lt_succ_self _)
    rw [final_eq_of_refilled same]
    exact ⟨whole, passes.passed⟩
  · have begins : tokens <+: front ++ [last] := ⟨_, divides.symm⟩
    rcases List.prefix_concat_iff.mp begins with all | begins
    · rw [all] at divides
      simp [Cursor.left] at divides
    · intro token member
      exact inside token (begins.subset member)

/-- Reading goes forward, by a token at least if it succeeds, and not beyond the first `eof`. -/
def Advances (read : Read Result) (cursor : Cursor) : Prop :=
  match read cursor with
  | .ok _ after => (∃ tokens ≠ [], cursor.Passes tokens after) ∧ after.BeforeEnd
  | .error _ after => (∃ tokens, cursor.Passes tokens after) ∧ after.BeforeEnd

theorem Call.advances {call : Call} (phrase : call.isPhrase = true) (ready : cursor.Ready)
    (before : cursor.BeforeEnd) : Advances call.read cursor := by
  obtain ⟨tokens, passes, inside⟩ :=
    passes_before_eof (fun limit _ ready => call.local_read phrase limit ready) ready
  have reaches := reaches_some phrase ready
  have within : (final call.read cursor).BeforeEnd := by
    intro token member
    rw [passes.passed, List.mem_append, List.mem_reverse] at member
    rcases member with member | member
    · exact inside token member
    · exact before token member
  unfold Reaches at reaches
  unfold Advances
  unfold final at passes within
  cases step : call.read cursor with
  | ok result after =>
      rw [step] at reaches passes within
      obtain ⟨others, again, positive⟩ := reaches
      exact ⟨⟨others, List.ne_nil_of_length_pos positive, again⟩, within⟩
  | error stop after =>
      rw [step] at passes within
      exact ⟨⟨tokens, passes⟩, within⟩

end Read

-- A list that is empty or does not end with an `eof` gets one.
theorem Cursor.ready_ofTokens_of_signed {tokens : List Token} (file : String)
    (signed : ∀ token ∈ tokens, token.Signed) : (ofTokens tokens file).Ready := by
  cases tokens with
  | nil =>
      constructor
      · exact ⟨.eof ⟨0, file⟩, rfl, rfl⟩
      · exact List.forall_mem_singleton.mpr (Token.signed_of_eof rfl)
  | cons first later =>
      unfold ofTokens
      dsimp only
      split
      · rename_i ends
        exact ⟨⟨later.getLastD first, by simp [left, List.getLast?_cons], ends⟩, signed⟩
      · constructor
        · exact ⟨.eof (later.getLastD first).span.stop, by simp [left, List.getLast?_cons], rfl⟩
        · rw [left, ← List.cons_append]
          intro token member
          rw [List.mem_append, List.mem_singleton] at member
          rcases member with member | rfl
          · exact signed token member
          · exact Token.signed_of_eof rfl

namespace Sheet

open Read (Advances Call)

/-- What stands after an `eof` is not read. -/
theorem ofTokens_append_eof {tokens : List Token} (file : String)
    (signed : ∀ token ∈ tokens, token.Signed) {last : Token} (ends : last.kind = .eof)
    (rest : List Token) :
    Sheet.ofTokens (tokens ++ last :: rest) file = Sheet.ofTokens (tokens ++ [last]) file := by
  have ready := Cursor.ready_ofTokens file ends signed
  have left := Cursor.left_ofTokens tokens file ends
  have start := Cursor.passed_ofTokens (tokens ++ [last]) file
  unfold Sheet.ofTokens
  generalize Cursor.ofTokens (tokens ++ [last]) file = cursor at *
  have stays : Read.Local (Read.sheetBody language) (Read.sheetBody language) 0 cursor [] :=
    Read.local_sheetBody ready
  obtain ⟨front, passes⟩ := stays.moves
  rw [List.nil_append] at passes
  have divides : tokens ++ last :: rest =
      front ++ (Read.final (Read.sheetBody language) cursor).left ++ rest := by
    rw [← passes.left, left]
    simp
  rw [Cursor.left, List.append_assoc, List.cons_append] at divides
  obtain ⟨more, same⟩ := Read.sheetBody_of_front ready start rfl passes
    ((Read.final (Read.sheetBody language) cursor).ahead ++ rest) file
  rw [divides, same]
  cases Read.sheetBody language cursor with
  | ok body after => rfl
  | error stop after => rfl

/-- Whatever the tokens, the reading of a sheet ends, and so does that of each phrase of it from
every cursor that is not past the first `eof`. A phrase is read by going forward, and at most to
the first `eof`; so a sheet does not depend on what stands after an `eof`. -/
theorem ofTokens_ends (tokens : List Token) (file : String)
    (signed : ∀ token ∈ tokens, token.Signed) :
    Call.sheet.EndsWithin (4 * ((Cursor.ofTokens tokens file).left.length + 1))
      (Cursor.ofTokens tokens file) ∧
    (∀ front cursor, (Cursor.ofTokens tokens file).Passes front cursor → cursor.BeforeEnd →
      ∀ call : Call, call.isPhrase = true →
        call.EndsWithin (4 * (cursor.left.length + 1)) cursor ∧ Advances call.read cursor) ∧
    ∀ last rest, last.kind = .eof →
      Sheet.ofTokens (tokens ++ last :: rest) file = Sheet.ofTokens (tokens ++ [last]) file := by
  have ready := Cursor.ready_ofTokens_of_signed file signed
  refine ⟨Call.endsWithin ready trivial, ?_, ?_⟩
  · intro front cursor passes before call phrase
    have readyHere := ready.of_passes passes
    exact ⟨Call.endsWithin readyHere (Call.fits_of_isPhrase phrase),
      Call.advances phrase readyHere before⟩
  · intro last rest ends
    exact ofTokens_append_eof file signed ends rest

-- `@a: (` and, after an `eof`, `.p {`
def unfinished : List Token :=
  [⟨.variableName, "@a", .null⟩, ⟨.colon, ":", .null⟩, ⟨.openParen, "(", .null⟩, .eof .null,
    ⟨.classSelector, ".p", .null⟩, ⟨.openCurly, "\x7b", .null⟩]

theorem unfinished_ends :
    (∀ token ∈ unfinished, token.Signed) ∧
    Call.sheet.EndsWithin 32 (Cursor.ofTokens unfinished "") ∧
    Advances (Read.assignment language) (Cursor.ofTokens unfinished "") ∧
    Advances (Read.expr language .additive) (Cursor.ofTokens unfinished "").advance.advance ∧
    Sheet.ofTokens (unfinished ++ .eof .null :: unfinished) "" =
      Sheet.ofTokens (unfinished ++ [.eof .null]) "" := by
  have signed : ∀ token ∈ unfinished, token.Signed := by decide
  obtain ⟨ends, phrases, same⟩ := ofTokens_ends unfinished "" signed
  refine ⟨signed, ends, ?_, ?_, same (.eof .null) unfinished rfl⟩
  · exact (phrases [] _ (.refl _) (by decide) .assignment rfl).2
  · exact (phrases (unfinished.take 2) _ ⟨rfl, rfl⟩ (by decide) (.expr .additive) rfl).2

end Sheet

end TypedStyle

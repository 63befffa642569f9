import TypedStyle.Proofs.Checking
import TypedStyle.Sheet.Reading

/-!
How reads move the cursor. A read passes some tokens, in order and none twice, whether it succeeds
or is rejected. `Reaches` says what a read gives when it gives something, and that it is otherwise
rejected for a fault of reading; `Yields` says that it does give something. Both follow the steps
of a read from left to right.
-/

namespace TypedStyle

namespace Cursor

structure Passes (before : Cursor) (tokens : List Token) (after : Cursor) : Prop where
  left : before.left = tokens ++ after.left
  passed : after.passed = tokens.reverse ++ before.passed

theorem Passes.refl (cursor : Cursor) : cursor.Passes [] cursor := ⟨rfl, rfl⟩

theorem Passes.trans {first second third : Cursor} {tokens more : List Token}
    (here : first.Passes tokens second) (there : second.Passes more third) :
    first.Passes (tokens ++ more) third where
  left := by rw [here.left, there.left, List.append_assoc]
  passed := by rw [there.passed, here.passed, List.reverse_append, List.append_assoc]

theorem Passes.left_eq {before after : Cursor} {tokens rest : List Token}
    (passes : before.Passes tokens after) (left : before.left = tokens ++ rest) :
    after.left = rest :=
  List.append_cancel_left (passes.left.symm.trans left)

theorem current_eq_of_left {cursor : Cursor} {token : Token} {rest : List Token}
    (left : cursor.left = token :: rest) : cursor.current = token :=
  (List.cons.inj left).1

def Closed (cursor : Cursor) : Prop := ∃ last, cursor.left.getLast? = some last ∧ last.kind = .eof

theorem Closed.of_passes {before after : Cursor} {tokens : List Token} (closed : before.Closed)
    (passes : before.Passes tokens after) : after.Closed := by
  obtain ⟨last, found, ends⟩ := closed
  refine ⟨last, ?_, ends⟩
  rw [passes.left, List.getLast?_append] at found
  have nonempty : after.left.getLast? ≠ none := by simp [Cursor.left]
  cases final : after.left.getLast? with
  | none => exact absurd final nonempty
  | some token =>
      rw [final] at found
      exact found

/-- Only the last token of a closed cursor is not followed by another. -/
theorem Closed.passes_advance {cursor : Cursor} (closed : cursor.Closed)
    (inside : cursor.current.kind ≠ .eof) : cursor.Passes [cursor.current] cursor.advance := by
  obtain ⟨last, found, ends⟩ := closed
  obtain ⟨passed, current, ahead⟩ := cursor
  cases ahead with
  | nil =>
      have same : current = last := by simpa [Cursor.left] using found
      exact absurd (same ▸ ends) inside
  | cons next ahead => exact ⟨rfl, rfl⟩

end Cursor

/-- A class or id token has a one-byte sign in front of its name. -/
def Token.Signed (token : Token) : Prop :=
  token.kind = .classSelector ∨ token.kind = .hash →
    ∃ sign name, token.text.toList = sign :: name ∧ sign.utf8Size = 1

instance (token : Token) : Decidable token.Signed :=
  decidable_of_iff
    (token.kind = .classSelector ∨ token.kind = .hash →
      token.text.toList.head?.any (·.utf8Size == 1) = true) <| by
    unfold Token.Signed
    cases token.text.toList <;> simp

theorem Token.signed_of_kind {token : Token}
    (other : token.kind ≠ .classSelector ∧ token.kind ≠ .hash) : token.Signed := by
  rintro (byClass | byId)
  · exact absurd byClass other.1
  · exact absurd byId other.2

theorem Token.signed_of_eof {token : Token} (ends : token.kind = .eof) : token.Signed :=
  signed_of_kind (by simp [ends])

structure Cursor.Ready (cursor : Cursor) : Prop where
  closed : cursor.Closed
  signed : ∀ token ∈ cursor.left, token.Signed

theorem Cursor.Ready.of_passes {before after : Cursor} {tokens : List Token} (ready : before.Ready)
    (passes : before.Passes tokens after) : after.Ready where
  closed := ready.closed.of_passes passes
  signed := by
    intro token member
    apply ready.signed
    rw [passes.left]
    exact List.mem_append_right tokens member

/-- Reading stops at the cursor for a fault of reading: it is about the current token, or about
the name just passed if that is no property. -/
def Cursor.Rejects (cursor : Cursor) (stop : Stop Diagnostic) : Prop :=
  ∃ fault : Fault, fault.stage = .reading ∧
    (stop = .fault ⟨fault, cursor.position⟩ ∨
      fault = .unknownProperty cursor.previous.text ∧
        stop = .fault ⟨fault, cursor.previous.span.start⟩)

namespace Read

variable {Result Next : Type}

/-- The read passes tokens for which `good` holds, or passes some and is rejected there. -/
def Reaches (read : Read Result) (cursor : Cursor)
    (good : List Token → Result → Cursor → Prop) : Prop :=
  match read cursor with
  | .ok result after => ∃ tokens, cursor.Passes tokens after ∧ good tokens result after
  | .error stop after => ∃ tokens, cursor.Passes tokens after ∧ after.Rejects stop

def Yields (read : Read Result) (cursor : Cursor) (tokens : List Token)
    (good : Result → Prop) : Prop :=
  ∃ result after, read cursor = .ok result after ∧ cursor.Passes tokens after ∧ good result

theorem reaches_pure {result : Result} {cursor : Cursor}
    {good : List Token → Result → Cursor → Prop} (here : good [] result cursor) :
    Reaches (pure result) cursor good :=
  ⟨[], .refl cursor, here⟩

theorem Reaches.bind {first : Read Result} {next : Result → Read Next} {cursor : Cursor}
    {middle : List Token → Result → Cursor → Prop} {good : List Token → Next → Cursor → Prop}
    (ready : cursor.Ready) (here : Reaches first cursor middle)
    (there : ∀ tokens result after, after.Ready → cursor.Passes tokens after →
      middle tokens result after →
      Reaches (next result) after fun more result last => good (tokens ++ more) result last) :
    Reaches (first >>= next) cursor good := by
  unfold Reaches at *
  rw [bind_eq]
  cases step : first cursor with
  | error stop after =>
      rw [step] at here
      exact here
  | ok result after =>
      rw [step] at here
      obtain ⟨tokens, passes, holds⟩ := here
      have rest := there tokens result after (ready.of_passes passes) passes holds
      dsimp only
      cases last : next result after with
      | error stop final =>
          rw [last] at rest
          obtain ⟨more, onward, rejected⟩ := rest
          exact ⟨tokens ++ more, passes.trans onward, rejected⟩
      | ok result final =>
          rw [last] at rest
          obtain ⟨more, onward, holds⟩ := rest
          exact ⟨tokens ++ more, passes.trans onward, holds⟩

theorem Reaches.mono {read : Read Result} {cursor : Cursor}
    {good better : List Token → Result → Cursor → Prop} (reaches : Reaches read cursor good)
    (weaken : ∀ tokens result after, good tokens result after → better tokens result after) :
    Reaches read cursor better := by
  unfold Reaches at *
  cases step : read cursor with
  | error stop after =>
      rw [step] at reaches
      exact reaches
  | ok result after =>
      rw [step] at reaches
      obtain ⟨tokens, passes, holds⟩ := reaches
      exact ⟨tokens, passes, weaken _ _ _ holds⟩

theorem yields_pure {result : Result} {cursor : Cursor} {good : Result → Prop}
    (here : good result) : Yields (pure result) cursor [] good :=
  ⟨result, cursor, rfl, .refl cursor, here⟩

theorem Yields.bind {first : Read Result} {next : Result → Read Next} {cursor : Cursor}
    {tokens more : List Token} {middle : Result → Prop} {good : Next → Prop}
    (here : Yields first cursor tokens middle)
    (there : ∀ result after, cursor.Passes tokens after → middle result →
      Yields (next result) after more good) :
    Yields (first >>= next) cursor (tokens ++ more) good := by
  obtain ⟨result, after, step, passes, holds⟩ := here
  obtain ⟨last, final, onward, further, holds⟩ := there result after passes holds
  refine ⟨last, final, ?_, passes.trans further, holds⟩
  rw [bind_eq, step]
  exact onward

theorem reaches_current_bind {next : Token → Read Next} {cursor : Cursor}
    {good : List Token → Next → Cursor → Prop} (there : Reaches (next cursor.current) cursor good) :
    Reaches (current >>= next) cursor good := there

theorem reaches_get_bind {next : Cursor → Read Next} {cursor : Cursor}
    {good : List Token → Next → Cursor → Prop} (there : Reaches (next cursor) cursor good) :
    Reaches (get >>= next) cursor good := there

theorem yields_get_bind {next : Cursor → Read Next} {cursor : Cursor} {tokens : List Token}
    {good : Next → Prop} (there : Yields (next cursor) cursor tokens good) :
    Yields (get >>= next) cursor tokens good := there

theorem yields_current_bind {next : Token → Read Next} {cursor : Cursor} {tokens : List Token}
    {good : Next → Prop} (there : Yields (next cursor.current) cursor tokens good) :
    Yields (current >>= next) cursor tokens good := there

theorem reaches_unexpected {cursor : Cursor} {good : List Token → Result → Cursor → Prop} :
    Reaches unexpected cursor good :=
  ⟨[], .refl cursor, .unexpectedToken cursor.current.text, rfl, Or.inl rfl⟩

theorem reaches_reject {cursor : Cursor} {good : List Token → Result → Cursor → Prop}
    {fault : Fault} (reading : fault.stage = .reading) :
    Reaches (reject ⟨fault, cursor.position⟩) cursor good :=
  ⟨[], .refl cursor, fault, reading, Or.inl rfl⟩

theorem reaches_advance {cursor : Cursor} (ready : cursor.Ready)
    (inside : cursor.current.kind ≠ .eof) :
    Reaches advance cursor fun tokens _ _ => tokens = [cursor.current] :=
  ⟨[cursor.current], ready.closed.passes_advance inside, rfl⟩

theorem reaches_expect {cursor : Cursor} (ready : cursor.Ready) {kind : TokenKind}
    (inside : kind ≠ .eof) :
    Reaches (expect kind) cursor fun tokens token _ => tokens = [token] ∧ token.kind = kind := by
  unfold Reaches
  rw [expect_eq]
  by_cases fits : cursor.current.kind = kind
  · rw [if_pos fits]
    exact ⟨[cursor.current], ready.closed.passes_advance (fits ▸ inside), rfl, fits⟩
  · rw [if_neg fits]
    exact ⟨[], .refl cursor, .unexpectedToken cursor.current.text, rfl, Or.inl rfl⟩

theorem yields_advance {cursor : Cursor} (closed : cursor.Closed) {token : Token}
    {rest : List Token} (left : cursor.left = token :: rest) (inside : token.kind ≠ .eof) :
    Yields advance cursor [token] (· = token) := by
  cases Cursor.current_eq_of_left left
  exact ⟨cursor.current, cursor.advance, rfl, closed.passes_advance inside, rfl⟩

theorem yields_expect {cursor : Cursor} (closed : cursor.Closed) {token : Token}
    {rest : List Token} (left : cursor.left = token :: rest) (inside : token.kind ≠ .eof) :
    Yields (expect token.kind) cursor [token] (· = token) := by
  cases Cursor.current_eq_of_left left
  refine ⟨cursor.current, cursor.advance, ?_, closed.passes_advance inside, rfl⟩
  rw [expect_eq, if_pos rfl]

end Read

end TypedStyle

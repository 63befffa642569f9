/-!
Texts are lists of characters here, and every offset into one counts the bytes of its UTF-8
encoding. An offset names a place in a text only if it lies on a character boundary.
-/

namespace TypedStyle.Text

def byteLength (text : List Char) : Nat := text.foldr (fun char bytes => char.utf8Size + bytes) 0

@[simp] theorem byteLength_nil : byteLength [] = 0 := rfl

@[simp] theorem byteLength_cons (first : Char) (rest : List Char) :
    byteLength (first :: rest) = first.utf8Size + byteLength rest := rfl

@[simp] theorem byteLength_append (front back : List Char) :
    byteLength (front ++ back) = byteLength front + byteLength back := by
  induction front with
  | nil => simp
  | cons first rest ih =>
      rw [List.cons_append, byteLength_cons, byteLength_cons, ih]
      omega

theorem byteLength_pos {text : List Char} (nonempty : text ≠ []) : 0 < byteLength text := by
  cases text with
  | nil => exact absurd rfl nonempty
  | cons first rest =>
      have := first.utf8Size_pos
      rw [byteLength_cons]
      omega

theorem byteLength_ofList (text : List Char) :
    (String.ofList text).utf8ByteSize = byteLength text := by
  induction text with
  | nil => simp
  | cons first rest ih =>
      have apart : String.ofList (first :: rest) = String.ofList [first] ++ String.ofList rest := by
        rw [← String.ofList_append, List.singleton_append]
      rw [apart, String.utf8ByteSize_append, ← String.singleton_eq_ofList,
        String.utf8ByteSize_singleton, ih, byteLength_cons]

@[simp] theorem byteLength_toList (text : String) : byteLength text.toList = text.utf8ByteSize := by
  rw [← byteLength_ofList, String.ofList_toList]

/-- The text from byte `offset` on, or nothing past the end and inside a character. -/
def fromByte? : Nat → List Char → Option (List Char)
  | 0, text => some text
  | _ + 1, [] => none
  | offset + 1, first :: rest =>
      if first.utf8Size ≤ offset + 1 then fromByte? (offset + 1 - first.utf8Size) rest else none

@[simp] theorem fromByte?_zero (text : List Char) : fromByte? 0 text = some text := by
  simp [fromByte?]

theorem fromByte?_append (front back : List Char) :
    fromByte? (byteLength front) (front ++ back) = some back := by
  induction front with
  | nil => simp
  | cons first rest ih =>
      obtain ⟨size, positive⟩ : ∃ size, first.utf8Size = size + 1 :=
        Nat.exists_eq_succ_of_ne_zero (Nat.pos_iff_ne_zero.mp first.utf8Size_pos)
      have sum : byteLength (first :: rest) = size + byteLength rest + 1 := by
        rw [byteLength_cons, positive]
        omega
      rw [sum, List.cons_append, fromByte?, if_pos (by omega)]
      rw [show size + byteLength rest + 1 - first.utf8Size = byteLength rest by omega]
      exact ih

end TypedStyle.Text

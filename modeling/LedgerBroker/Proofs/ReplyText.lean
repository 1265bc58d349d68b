import LedgerBroker.Http.Decoding
import LedgerBroker.Proofs.JsonScalars

set_option autoImplicit false

namespace LedgerBroker.Http

/-- A text in UTF-8 that no charset goes with and no byte order mark is in front of. -/
structure Plain (headers : Headers) (text : String) : Prop where
  noParameter : ∀ kind, headers.get? "content-type" = some kind → Bytes.ascii ';' ∉ kind
  noMark : text.toList.head? ≠ some '\uFEFF'

theorem plain_bare {text : String} (noMark : text.toList.head? ≠ some '\uFEFF') : Plain [] text where
  noParameter _ told := by cases told
  noMark := noMark

namespace Decoding

/-- Text is in UTF-8 unless the reply says otherwise. -/
def ReadsPlain (decoding : Decoding) : Prop :=
  ∀ headers text, Plain headers text → decoding headers (Bytes.ofString text) = text

theorem ofUtf8_ofString {s : String} (noMark : s.toList.head? ≠ some '\uFEFF') :
    Text.ofUtf8 (Bytes.ofString s) = s := by
  have unmarked (rest : Bytes) : Bytes.ofString s ≠ 0xEF :: 0xBB :: 0xBF :: rest := by
    intro marked
    have mark : String.utf8EncodeChar '\uFEFF' = [0xEF, 0xBB, 0xBF] := by decide
    rw [Bytes.ofString_eq_flatMap] at marked
    cases chars : s.toList with
    | nil => simp [chars] at marked
    | cons c cs =>
      rw [chars, List.flatMap_cons] at marked
      have first : String.utf8EncodeChar c ++ cs.flatMap String.utf8EncodeChar =
          String.utf8EncodeChar '\uFEFF' ++ rest := by rw [marked, mark]; rfl
      exact noMark (by rw [chars, (Bytes.char_append_inj first).1]; rfl)
  unfold Text.ofUtf8
  split
  next rest marked => exact absurd marked (unmarked rest)
  next => simp [Text.readUtf8_ofString]

theorem utf8_readsPlain : utf8.ReadsPlain := fun _ _ plain => ofUtf8_ofString plain.noMark

end Decoding

end LedgerBroker.Http

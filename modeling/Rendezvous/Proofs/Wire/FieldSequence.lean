import Mathlib.Data.List.Forall2
import Rendezvous.Proofs.Wire.Field

/-! # Sequences of fields

Fields are written one behind the other with nothing in between, so whatever one of them
takes too much or too little shifts all that follow.  No field does: each is read from the
bytes that it is written with, and from no byte behind them (`Field.read_encode`).

`fields_read_back` is what this comes to for a whole sequence, however long it is and
whatever kinds of field it mixes.  `Field.ReadBack` says what is expected of one field: a
number comes back as it is, and a text as the longest part of it that a text field carries.
-/

namespace Rendezvous.Wire

namespace Field

/-- What a field may be read back as. -/
inductive ReadBack : Field → Field → Prop
  | word16 (value : UInt16) : ReadBack (.word16 value) (.word16 value)
  | word32 (value : UInt32) : ReadBack (.word32 value) (.word32 value)
  | word64 (value : UInt64) : ReadBack (.word64 value) (.word64 value)
  | text {s kept : String} (longest : Utf8.IsLongestPrefix maxTextLength kept s) :
      ReadBack (.text s) (.text kept)

def cut : Field → Field
  | .text value => .text (Utf8.longestPrefix maxTextLength value)
  | field => field

theorem readBack_cut (field : Field) : field.ReadBack field.cut := by
  cases field with
  | word16 value => exact .word16 value
  | word32 value => exact .word32 value
  | word64 value => exact .word64 value
  | text value => exact .text (Utf8.longestPrefix_isLongest maxTextLength value)

theorem read_encode (field : Field) (rest : Bytes) :
    field.kind.read.read (field.encode ++ rest) = (.ok field.cut, rest) := by
  cases field with
  | word16 value => exact Reader.read_map _ (Reader.read_word16 value rest)
  | word32 value => exact Reader.read_map _ (Reader.read_word32 value rest)
  | word64 value => exact Reader.read_map _ (Reader.read_word64 value rest)
  | text value => exact Reader.read_map _ (Reader.read_text value rest)

end Field

theorem readEach_encode (field : Field) (kinds : List Kind) (rest : Bytes) :
    readEach (field.kind :: kinds) (field.encode ++ rest) =
      (.ok field.cut, rest) :: readEach kinds rest := by
  rw [readEach, Field.read_encode]

theorem results_readEach (fields : List Field) (rest : Bytes) :
    (readEach (fields.map Field.kind) (fields.flatMap Field.encode ++ rest)).map Prod.fst =
      (fields.map Field.cut).map .ok := by
  induction fields with
  | nil => rfl
  | cons field fields inductionHypothesis =>
    rw [List.map_cons, List.flatMap_cons, List.append_assoc, readEach_encode, List.map_cons,
      inductionHypothesis, List.map_cons, List.map_cons]

theorem unread_readEach (fields : List Field) (rest : Bytes) :
    ((readEach (fields.map Field.kind) (fields.flatMap Field.encode ++ rest)).map
      Prod.snd).getLastD (fields.flatMap Field.encode ++ rest) = rest := by
  induction fields with
  | nil => rfl
  | cons field fields inductionHypothesis =>
    -- what the first field leaves is the packet of the others
    rw [List.map_cons, List.flatMap_cons, List.append_assoc, readEach_encode, List.map_cons,
      List.getLastD_cons, inductionHypothesis]

/-- A sequence of fields, written with any bytes behind it and read as the same kinds of field
    one after another, is read back: every read succeeds, every number is as it was, every text
    is cut to its longest prefix in whole characters that has at most 65535 bytes, and the
    bytes behind the fields are what is left unread. -/
theorem fields_read_back (fields : List Field) (rest : Bytes) :
    let packet := fields.flatMap Field.encode ++ rest
    let steps := readEach (fields.map Field.kind) packet
    (∃ values, steps.map Prod.fst = values.map .ok ∧ List.Forall₂ Field.ReadBack fields values) ∧
      (steps.map Prod.snd).getLastD packet = rest := by
  intro packet steps
  refine ⟨⟨fields.map Field.cut, results_readEach fields rest, ?_⟩, unread_readEach fields rest⟩
  exact List.forall₂_map_right_iff.mpr (List.forall₂_same.mpr fun field _ => field.readBack_cut)

end Rendezvous.Wire

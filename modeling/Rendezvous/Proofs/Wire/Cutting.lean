import Mathlib.Order.Bounds.Defs
import Rendezvous.Proofs.Wire.Notice

/-! # Where texts are cut

A text field carries at most 65535 bytes.  Of a longer text it keeps what ends at the last
boundary between two characters that is not beyond these, which `Utf8.longestPrefix` finds
from the front, character by character.  It can also be found from the end, going back byte
by byte until there is a boundary: `BacksUp` says what this does, and `backsUp_iff` that it
always comes to an end, and where.  Both ways agree (`isGreatest_longestPrefix`).

A character has at most four bytes, so at most three are lost that would have fitted
(`lt_longestPrefix_add_four`).  What is kept are whole characters, so it is read back as a
text, and as its length is written with it, nothing behind it is shifted
(`Notice.texts_cut_between_characters`).
-/

namespace Rendezvous.Wire

namespace Utf8

/-- Whether the first `k` bytes of a text are whole characters. -/
def IsBoundary (s : String) (k : Nat) : Prop := String.Pos.Raw.IsValid s ⟨k⟩

/-- Going back from an offset to a boundary: one byte from every offset that is none, and not
    further than the first boundary.  There is no way back from the front of the text. -/
inductive BacksUp (s : String) : Nat → Nat → Prop
  | stop {k : Nat} (boundary : IsBoundary s k) : BacksUp s k k
  | back {k stop : Nat} (inside : ¬IsBoundary s (k + 1)) (onward : BacksUp s k stop) :
      BacksUp s (k + 1) stop

variable {s : String} {k limit : Nat}

/-! ## Boundaries -/

theorem isBoundary_iff :
    IsBoundary s k ↔ ∃ kept : String, kept.toList <+: s.toList ∧ kept.utf8ByteSize = k := by
  rw [IsBoundary, String.Pos.Raw.isValid_iff_exists_append]
  constructor
  · rintro ⟨kept, rest, rfl, size⟩
    refine ⟨kept, ⟨rest.toList, String.toList_append.symm⟩, ?_⟩
    rw [← String.byteIdx_rawEndPos, ← size]
  · rintro ⟨kept, ⟨rest, whole⟩, rfl⟩
    refine ⟨kept, String.ofList rest, ?_, rfl⟩
    rw [← String.toList_inj, String.toList_append, String.toList_ofList, whole]

theorem IsBoundary.le (boundary : IsBoundary s k) : k ≤ s.utf8ByteSize :=
  String.Pos.Raw.IsValid.le_rawEndPos boundary

theorem backsUp_iff (start stop : Nat) :
    BacksUp s start stop ↔ IsGreatest {k | IsBoundary s k ∧ k ≤ start} stop := by
  constructor
  · intro way
    induction way with
    | stop boundary => exact ⟨⟨boundary, Nat.le_refl _⟩, fun _ below => below.2⟩
    | back inside _ inductionHypothesis =>
      obtain ⟨⟨boundary, below⟩, last⟩ := inductionHypothesis
      refine ⟨⟨boundary, Nat.le_succ_of_le below⟩, fun other otherBelow => ?_⟩
      -- the offset itself is no boundary, so every other one is before it
      have different : other ≠ _ + 1 := fun same => inside (same ▸ otherBelow.1)
      exact last ⟨otherBelow.1, Nat.le_of_lt_succ (Nat.lt_of_le_of_ne otherBelow.2 different)⟩
  · intro greatest
    induction start with
    | zero =>
      obtain rfl := Nat.le_zero.mp greatest.1.2
      exact .stop greatest.1.1
    | succ start inductionHypothesis =>
      obtain ⟨⟨boundary, below⟩, last⟩ := greatest
      by_cases here : IsBoundary s (start + 1)
      · obtain rfl : stop = start + 1 := Nat.le_antisymm below (last ⟨here, Nat.le_refl _⟩)
        exact .stop here
      · have different : stop ≠ start + 1 := fun same => here (same ▸ boundary)
        refine .back here (inductionHypothesis ⟨⟨boundary, by omega⟩, fun other otherBelow => ?_⟩)
        exact last ⟨otherBelow.1, Nat.le_succ_of_le otherBelow.2⟩

/-! ## What is kept -/

theorem isGreatest_longestPrefix (limit : Nat) (s : String) :
    IsGreatest {k | IsBoundary s k ∧ k ≤ min s.utf8ByteSize limit}
      (longestPrefix limit s).utf8ByteSize := by
  have cut := longestPrefix_isLongest limit s
  have boundary : IsBoundary s (longestPrefix limit s).utf8ByteSize :=
    isBoundary_iff.mpr ⟨_, cut.leading, rfl⟩
  refine ⟨⟨boundary, Nat.le_min.mpr ⟨boundary.le, cut.fits⟩⟩, ?_⟩
  rintro k ⟨other, below⟩
  obtain ⟨kept, leading, rfl⟩ := isBoundary_iff.mp other
  have longer := cut.longest kept leading (Nat.le_min.mp below).2
  exact (isBoundary_iff.mpr ⟨kept, longer, rfl⟩).le

theorem encode_longestPrefix (limit : Nat) (s : String) :
    encode (longestPrefix limit s) =
      (encode s).take (longestPrefix limit s).utf8ByteSize := by
  obtain ⟨rest, whole⟩ := (longestPrefix_isLongest limit s).leading
  have bytes : encode s =
      encode (longestPrefix limit s) ++ rest.flatMap String.utf8EncodeChar := by
    rw [encode, encode, ← whole, List.flatMap_append]
  rw [bytes, List.take_left' (length_encode _)]

theorem lt_longestPrefix_add_four (long : limit < s.utf8ByteSize) :
    limit < (longestPrefix limit s).utf8ByteSize + 4 := by
  have cut := longestPrefix_isLongest limit s
  obtain ⟨rest, whole⟩ := cut.leading
  cases rest with
  | nil =>
    have same : longestPrefix limit s = s := by
      rw [← String.toList_inj, ← whole, List.append_nil]
    exact absurd (same ▸ cut.fits) (Nat.not_le.mpr long)
  | cons c rest =>
    -- with four bytes left, the next character would have fitted
    by_contra room
    let more := (longestPrefix limit s).push c
    have moreChars : more.toList = (longestPrefix limit s).toList ++ [c] := String.toList_push c
    have size : more.utf8ByteSize = (longestPrefix limit s).utf8ByteSize + c.utf8Size :=
      String.utf8ByteSize_push
    have small := c.utf8Size_le_four
    have longer : more.toList <+: (longestPrefix limit s).toList := by
      apply cut.longest
      · exact ⟨rest, by rw [moreChars, ← whole, List.append_assoc]; rfl⟩
      · omega
    have lengths := longer.length_le
    rw [moreChars, List.length_append, List.length_singleton] at lengths
    omega

theorem takeWithin_replicate (limit n : Nat) (c : Char) :
    takeWithin limit (List.replicate n c) = List.replicate (min n (limit / c.utf8Size)) c := by
  induction n generalizing limit with
  | zero => rw [Nat.zero_min, List.replicate_zero, takeWithin]
  | succ n inductionHypothesis =>
    rw [List.replicate_succ, takeWithin]
    split
    next fits =>
      rw [inductionHypothesis, ← List.replicate_succ, Nat.div_eq_sub_div c.utf8Size_pos fits,
        Nat.add_min_add_right]
    next tooLong =>
      rw [Nat.div_eq_of_lt (Nat.not_le.mp tooLong), Nat.min_zero, List.replicate_zero]

end Utf8

open Utf8 (IsBoundary BacksUp)

/-- A text that is cut to its first `k` bytes in a text field. -/
structure CutAt (s : String) (k : Nat) : Prop where
  /-- Going back from where the text or the room in the field ends is over at `k`. -/
  backsUp_iff : ∀ stop, BacksUp s (min s.utf8ByteSize maxTextLength) stop ↔ stop = k
  greatest : IsGreatest {k | IsBoundary s k ∧ k ≤ min s.utf8ByteSize maxTextLength} k
  whole : s.utf8ByteSize ≤ maxTextLength → k = s.utf8ByteSize
  nearly : maxTextLength < s.utf8ByteSize → 65532 ≤ k
  /-- What is written is `k` and then the first `k` bytes of the text. -/
  written : Field.encode (.text s) = LittleEndian.encode 2 k ++ (Utf8.encode s).take k
  /-- These bytes are a text, and it is the text that is kept. -/
  kept : Utf8.encode (Utf8.longestPrefix maxTextLength s) = (Utf8.encode s).take k

theorem cutAt_longestPrefix (s : String) :
    CutAt s (Utf8.longestPrefix maxTextLength s).utf8ByteSize := by
  have greatest := Utf8.isGreatest_longestPrefix maxTextLength s
  have kept := Utf8.encode_longestPrefix maxTextLength s
  refine
    { backsUp_iff := fun stop => ?_
      greatest := greatest
      whole := fun fits => by rw [Utf8.longestPrefix_eq_self fits]
      nearly := fun long => ?_
      written := by rw [Field.encode, encodeText, kept]
      kept := kept }
  · rw [Utf8.backsUp_iff]
    exact ⟨fun other => other.unique greatest, fun same => same ▸ greatest⟩
  · have lost := Utf8.lt_longestPrefix_add_four long
    rw [maxTextLength] at lost ⊢
    omega

namespace Notice

/-- Every text is cut in its field at the last boundary between characters that fits, which is
    its end if all of it fits, and at most three bytes before the end of the room if not.  So
    a notice with texts of any length is read back from its packet with each text cut there,
    and otherwise as it was. -/
theorem texts_cut_between_characters :
    (∀ s : String, ∃ k, CutAt s k) ∧
      ∀ notice : Notice, notice.Fits → decode notice.encode = .ok notice.cut := by
  refine ⟨fun s => ⟨_, cutAt_longestPrefix s⟩, fun notice fits => ?_⟩
  have read := decode_encode notice fits []
  rwa [List.append_nil] at read

/-- A name of 80000 bytes, two for each character: the limit is odd, so one byte of it stays
    unused, and the member behind is read as it was written. -/
theorem name_of_forty_thousand_cut :
    let notice := fun count => roomMembers
      [⟨⟨1⟩, String.ofList (List.replicate count 'é')⟩, ⟨⟨2⟩, "eve"⟩]
    (notice 40000).Fits ∧ decode (notice 40000).encode = .ok (notice 32767) := by
  intro notice
  have fits : (notice 40000).Fits := by
    show 2 < 2 ^ 32
    decide
  obtain ⟨-, readBack⟩ := texts_cut_between_characters
  refine ⟨fits, (readBack _ fits).trans ?_⟩
  have longName : Utf8.longestPrefix maxTextLength (String.ofList (List.replicate 40000 'é')) =
      String.ofList (List.replicate 32767 'é') := by
    rw [Utf8.longestPrefix, String.toList_ofList, Utf8.takeWithin_replicate]
    rfl
  have shortName : Utf8.longestPrefix maxTextLength "eve" = "eve" :=
    Utf8.longestPrefix_eq_self (by decide)
  simp only [notice, cut, List.map_cons, List.map_nil, Member.cut, longName, shortName]

end Notice

end Rendezvous.Wire

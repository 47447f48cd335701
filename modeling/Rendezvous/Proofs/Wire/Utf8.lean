import Mathlib.Tactic.IntervalCases
import Rendezvous.Wire.Utf8

/-! # Reading what was written

A text that is written as UTF-8 is read back (`decode_encode`), and it is read
from these bytes alone (`encode_of_decode`).  Where U+FFFD is put for what is ill
formed, that is so for the texts without this character, and for no others
(`encode_of_decodeLossy`, `exists_decodeLossy_eq`).

Reading is a list of steps, one for each character, so all rests on one step:
the bytes of a character, whatever follows them, are taken off as that character
(`next_utf8EncodeChar`), and what is taken off as a character are its bytes
(`of_next`).  The ranges that a lead byte puts on the byte after it are where this
is delicate: they leave out the overlong forms and the surrogates.  No character
is one of these, and without the ranges a character would have two forms.

What is read here are the bytes that the core library takes for well formed
(`decode_eq_some_iff`, `decode_eq_none_iff`).

A text that is cut to a number of bytes keeps the longest prefix in whole
characters that fits (`longestPrefix_isLongest`).
-/

namespace Rendezvous.Wire.Utf8

/-! ## One character -/

theorem continuation_digit (more digit bits : Nat) (low high : UInt8) (rest : Bytes)
    (small : digit < 64) (above : low.toNat ≤ digit + 0x80) (below : digit + 0x80 ≤ high.toNat) :
    continuation (more + 1) low high bits (UInt8.ofNat (digit + 0x80) :: rest) =
      continuation more 0x80 0xBF (bits * 64 + digit) rest := by
  have value : (UInt8.ofNat (digit + 0x80)).toNat = digit + 0x80 := by
    rw [UInt8.toNat_ofNat']
    omega
  have inRange : low ≤ UInt8.ofNat (digit + 0x80) ∧ UInt8.ofNat (digit + 0x80) ≤ high := by
    rw [UInt8.le_iff_toNat_le, UInt8.le_iff_toNat_le, value]
    exact ⟨above, below⟩
  rw [continuation, if_pos inRange, value, Nat.add_sub_cancel]

theorem continuation_laterDigit (more digit bits : Nat) (rest : Bytes) (small : digit < 64) :
    continuation (more + 1) 0x80 0xBF bits (UInt8.ofNat (digit + 0x80) :: rest) =
      continuation more 0x80 0xBF (bits * 64 + digit) rest := by
  apply continuation_digit _ _ _ _ _ _ small
  · show 128 ≤ digit + 128
    omega
  · show digit + 128 ≤ 191
    omega

theorem ofByte?_two (bits : Nat) (notOverlong : 2 ≤ bits) (small : bits < 32) :
    Lead.ofByte? (UInt8.ofNat (bits + 0xC0)) = some ⟨1, 0x80, 0xBF, bits⟩ := by
  interval_cases bits <;> rfl

theorem ofByte?_three (bits : Nat) (small : bits < 16) :
    ∃ low high, Lead.ofByte? (UInt8.ofNat (bits + 0xE0)) = some ⟨2, low, high, bits⟩ ∧
      low.toNat = (if bits = 0 then 0xA0 else 0x80) ∧
      high.toNat = (if bits = 0xD then 0x9F else 0xBF) := by
  interval_cases bits <;> exact ⟨_, _, rfl, rfl, rfl⟩

theorem ofByte?_four (bits : Nat) (small : bits < 5) :
    ∃ low high, Lead.ofByte? (UInt8.ofNat (bits + 0xF0)) = some ⟨3, low, high, bits⟩ ∧
      low.toNat = (if bits = 0 then 0x90 else 0x80) ∧
      high.toNat = (if bits = 4 then 0x8F else 0xBF) := by
  interval_cases bits <;> exact ⟨_, _, rfl, rfl, rfl⟩

/-- A byte from 0x80 on is read by its announcement. -/
theorem next_lead {lead : Lead} {bits : Nat} {rest : Bytes} (large : 0x80 ≤ bits)
    (small : bits < 0x100) (announced : Lead.ofByte? (UInt8.ofNat bits) = some lead) :
    next (UInt8.ofNat bits) rest = continuation lead.more lead.low lead.high lead.bits rest := by
  have notAscii : ¬UInt8.ofNat bits < 0x80 := by
    rw [UInt8.lt_iff_toNat_lt, UInt8.toNat_ofNat']
    show ¬bits % 256 < 128
    omega
  rw [next, if_neg notAscii, announced]

/-- The bytes of a character are taken off as that character, whatever follows. -/
theorem next_utf8EncodeChar (c : Char) (rest : Bytes) :
    ∃ lead more, String.utf8EncodeChar c = lead :: more ∧
      next lead (more ++ rest) = (some c, rest) := by
  -- all arithmetic is done on the number of the character
  have same : ∀ n, n = c.val.toNat → Char.ofNat n = c := by
    rintro n rfl
    exact Char.ofNat_toNat c
  have scalar : c.val.toNat < 0xD800 ∨ 0xDFFF < c.val.toNat ∧ c.val.toNat < 0x110000 := c.valid
  rw [String.utf8EncodeChar]
  generalize c.val.toNat = v at same scalar
  by_cases one : v ≤ 0x7F
  · refine ⟨_, _, if_pos one, ?_⟩
    have ascii : UInt8.ofNat v < 0x80 := by
      rw [UInt8.lt_iff_toNat_lt, UInt8.toNat_ofNat']
      show v % 256 < 128
      omega
    rw [next, if_pos ascii, UInt8.toNat_ofNat', same _ (by omega)]
    rfl
  rw [if_neg one]
  by_cases two : v ≤ 0x7FF
  · refine ⟨_, _, if_pos two, ?_⟩
    rw [next_lead (by omega) (by omega) (ofByte?_two (v / 64 % 32) (by omega) (by omega))]
    simp only [List.cons_append, List.nil_append]
    rw [continuation_laterDigit _ _ _ _ (by omega), continuation, same _ (by omega)]
  rw [if_neg two]
  by_cases three : v ≤ 0xFFFF
  · refine ⟨_, _, if_pos three, ?_⟩
    obtain ⟨low, high, announced, lowEq, highEq⟩ := ofByte?_three (v / 4096 % 16) (by omega)
    rw [next_lead (by omega) (by omega) announced]
    simp only [List.cons_append, List.nil_append]
    -- the first digit keeps clear of overlong forms and of surrogates
    rw [continuation_digit _ (v / 64 % 64) _ _ _ _ (by omega) (by split at lowEq <;> omega)
      (by split at highEq <;> omega)]
    rw [continuation_laterDigit _ _ _ _ (by omega), continuation, same _ (by omega)]
  · refine ⟨_, _, if_neg three, ?_⟩
    obtain ⟨low, high, announced, lowEq, highEq⟩ := ofByte?_four (v / 262144 % 8) (by omega)
    rw [next_lead (by omega) (by omega) announced]
    simp only [List.cons_append, List.nil_append]
    -- the first digit keeps clear of overlong forms and of what lies above the last character
    rw [continuation_digit _ (v / 4096 % 64) _ _ _ _ (by omega) (by split at lowEq <;> omega)
      (by split at highEq <;> omega)]
    rw [continuation_laterDigit _ _ _ _ (by omega), continuation_laterDigit _ _ _ _ (by omega),
      continuation, same _ (by omega)]

/-! ## Whole texts -/

theorem scan_utf8EncodeChar (c : Char) (rest : Bytes) :
    scan (String.utf8EncodeChar c ++ rest) = some c :: scan rest := by
  obtain ⟨lead, more, bytes, taken⟩ := next_utf8EncodeChar c rest
  rw [bytes, List.cons_append, scan, taken]

theorem scan_flatMap_append (cs : List Char) (rest : Bytes) :
    scan (cs.flatMap String.utf8EncodeChar ++ rest) = cs.map some ++ scan rest := by
  induction cs with
  | nil => rfl
  | cons c cs inductionHypothesis =>
    rw [List.flatMap_cons, List.append_assoc, scan_utf8EncodeChar, inductionHypothesis,
      List.map_cons, List.cons_append]

theorem scan_flatMap (cs : List Char) : scan (cs.flatMap String.utf8EncodeChar) = cs.map some := by
  have read := scan_flatMap_append cs []
  rwa [List.append_nil, scan, List.append_nil] at read

theorem decode_encode (s : String) : decode (encode s) = some s := by
  have read : (s.toList.map some).mapM id = some s.toList := by
    induction s.toList with
    | nil => rfl
    | cons c cs inductionHypothesis => simp [inductionHypothesis]
  rw [decode, encode, scan_flatMap, read, Option.map_some, String.ofList_toList]

theorem encode_injective {s t : String} (same : encode s = encode t) : s = t := by
  have read := decode_encode s
  rw [same, decode_encode] at read
  exact (Option.some.inj read).symm

theorem toByteArray_encode (s : String) : (encode s).toByteArray = s.toByteArray := by
  conv => rhs; rw [← String.ofList_toList (s := s)]
  rfl

theorem length_encode (s : String) : (encode s).length = s.utf8ByteSize := by
  rw [← String.size_toByteArray, ← toByteArray_encode, List.size_toByteArray]

/-! ## Nothing else is read -/

theorem val_ofNat {v : Nat} (scalar : v.isValidChar) : (Char.ofNat v).val.toNat = v := by
  rw [Char.ofNat, dif_pos scalar]
  exact UInt32.toNat_ofNatLT ..

theorem utf8EncodeChar_ascii {b : UInt8} (ascii : b < 0x80) :
    String.utf8EncodeChar (Char.ofNat b.toNat) = [b] := by
  have small : b.toNat < 0x80 := UInt8.lt_iff_toNat_lt.mp ascii
  rw [String.utf8EncodeChar, val_ofNat (.inl (by omega)), if_pos (by omega), UInt8.ofNat_toNat]

theorem encode_ascii {bytes : Bytes} (ascii : ∀ b ∈ bytes, b < 0x80) :
    encode (String.ofList (bytes.map fun b => Char.ofNat b.toNat)) = bytes := by
  rw [encode, String.toList_ofList, List.flatMap_map]
  induction bytes with
  | nil => rfl
  | cons b bytes inductionHypothesis =>
    obtain ⟨first, others⟩ := List.forall_mem_cons.mp ascii
    rw [List.flatMap_cons, utf8EncodeChar_ascii first, inductionHypothesis others,
      List.singleton_append]

/-- A continuation that goes on takes a byte from the range that it was given. -/
theorem of_continuation_succ {more bits : Nat} {low high : UInt8} {rest after : Bytes} {c : Char}
    (above : 0x80 ≤ low.toNat) (below : high.toNat ≤ 0xBF)
    (taken : continuation (more + 1) low high bits rest = (some c, after)) :
    ∃ digit others, digit < 64 ∧ low.toNat ≤ digit + 0x80 ∧ digit + 0x80 ≤ high.toNat ∧
      rest = UInt8.ofNat (digit + 0x80) :: others ∧
        continuation more 0x80 0xBF (bits * 64 + digit) others = (some c, after) := by
  cases rest with
  | nil => cases taken
  | cons b others =>
    rw [continuation] at taken
    split at taken
    next inRange =>
      rw [UInt8.le_iff_toNat_le, UInt8.le_iff_toNat_le] at inRange
      have byte : b.toNat - 0x80 + 0x80 = b.toNat := by omega
      refine ⟨b.toNat - 0x80, others, by omega, by omega, by omega, ?_, taken⟩
      rw [byte, UInt8.ofNat_toNat]
    next => cases taken

theorem of_continuation_later {more bits : Nat} {rest after : Bytes} {c : Char}
    (taken : continuation (more + 1) 0x80 0xBF bits rest = (some c, after)) :
    ∃ digit others, digit < 64 ∧ rest = UInt8.ofNat (digit + 0x80) :: others ∧
      continuation more 0x80 0xBF (bits * 64 + digit) others = (some c, after) := by
  obtain ⟨digit, others, small, -, -, spelled, onward⟩ :=
    of_continuation_succ (Nat.le_refl _) (Nat.le_refl _) taken
  exact ⟨digit, others, small, spelled, onward⟩

theorem of_continuation_zero {bits : Nat} {low high : UInt8} {rest after : Bytes} {c : Char}
    (taken : continuation 0 low high bits rest = (some c, after)) :
    c = Char.ofNat bits ∧ rest = after := by
  cases taken
  exact ⟨rfl, rfl⟩

/-- No byte outside this range announces anything. -/
theorem range_of_ofByte? {b : UInt8} {lead : Lead} (announced : Lead.ofByte? b = some lead) :
    0xC2 ≤ b.toNat ∧ b.toNat < 0xF5 := by
  constructor
  · by_contra below
    have low : b < 0xC2 := UInt8.lt_iff_toNat_lt.mpr (Nat.not_le.mp below)
    rw [Lead.ofByte?, if_pos low] at announced
    cases announced
  · by_contra above
    have high : 0xF4 < b := UInt8.lt_iff_toNat_lt.mpr (Nat.not_lt.mp above)
    have noLead : Lead.ofByte? b = none := by
      grind [Lead.ofByte?]
    rw [noLead] at announced
    cases announced

theorem of_continuation_one {bits : Nat} {rest after : Bytes} {c : Char} (notOverlong : 2 ≤ bits)
    (small : bits < 32) (taken : continuation 1 0x80 0xBF bits rest = (some c, after)) :
    UInt8.ofNat (bits + 0xC0) :: rest = String.utf8EncodeChar c ++ after := by
  obtain ⟨digit, others, smallDigit, rfl, done⟩ := of_continuation_later taken
  obtain ⟨rfl, rfl⟩ := of_continuation_zero done
  have lead : (bits * 64 + digit) / 64 % 32 = bits := by omega
  have last : (bits * 64 + digit) % 64 = digit := by omega
  rw [String.utf8EncodeChar, val_ofNat (.inl (by omega)), if_neg (by omega), if_pos (by omega),
    lead, last]
  rfl

theorem of_continuation_two {bits : Nat} {low high : UInt8} {rest after : Bytes} {c : Char}
    (small : bits < 16) (lowEq : low.toNat = if bits = 0 then 0xA0 else 0x80)
    (highEq : high.toNat = if bits = 0xD then 0x9F else 0xBF)
    (taken : continuation 2 low high bits rest = (some c, after)) :
    UInt8.ofNat (bits + 0xE0) :: rest = String.utf8EncodeChar c ++ after := by
  obtain ⟨first, rest, smallFirst, above, below, rfl, onward⟩ :=
    of_continuation_succ (by split at lowEq <;> omega) (by split at highEq <;> omega) taken
  obtain ⟨second, others, smallSecond, rfl, done⟩ := of_continuation_later onward
  obtain ⟨rfl, rfl⟩ := of_continuation_zero done
  -- the range of the first digit keeps the number clear of overlong forms and of surrogates
  have long : 0x800 ≤ (bits * 64 + first) * 64 + second := by split at lowEq <;> omega
  have scalar : ((bits * 64 + first) * 64 + second).isValidChar := by
    rw [Nat.isValidChar]
    split at highEq <;> omega
  have lead : ((bits * 64 + first) * 64 + second) / 4096 % 16 = bits := by omega
  have middle : ((bits * 64 + first) * 64 + second) / 64 % 64 = first := by omega
  have last : ((bits * 64 + first) * 64 + second) % 64 = second := by omega
  rw [String.utf8EncodeChar, val_ofNat scalar, if_neg (by omega), if_neg (by omega),
    if_pos (by omega), lead, middle, last]
  rfl

theorem of_continuation_three {bits : Nat} {low high : UInt8} {rest after : Bytes} {c : Char}
    (small : bits < 5) (lowEq : low.toNat = if bits = 0 then 0x90 else 0x80)
    (highEq : high.toNat = if bits = 4 then 0x8F else 0xBF)
    (taken : continuation 3 low high bits rest = (some c, after)) :
    UInt8.ofNat (bits + 0xF0) :: rest = String.utf8EncodeChar c ++ after := by
  obtain ⟨first, rest, smallFirst, above, below, rfl, onward⟩ :=
    of_continuation_succ (by split at lowEq <;> omega) (by split at highEq <;> omega) taken
  obtain ⟨second, rest, smallSecond, rfl, further⟩ := of_continuation_later onward
  obtain ⟨third, others, smallThird, rfl, done⟩ := of_continuation_later further
  obtain ⟨rfl, rfl⟩ := of_continuation_zero done
  -- the range of the first digit keeps the number clear of overlong forms and of what lies above
  have long : 0x10000 ≤ ((bits * 64 + first) * 64 + second) * 64 + third := by
    split at lowEq <;> omega
  have bound : ((bits * 64 + first) * 64 + second) * 64 + third < 0x110000 := by
    split at highEq <;> omega
  have lead : (((bits * 64 + first) * 64 + second) * 64 + third) / 262144 % 8 = bits := by omega
  have next : (((bits * 64 + first) * 64 + second) * 64 + third) / 4096 % 64 = first := by omega
  have middle : (((bits * 64 + first) * 64 + second) * 64 + third) / 64 % 64 = second := by omega
  have last : (((bits * 64 + first) * 64 + second) * 64 + third) % 64 = third := by omega
  rw [String.utf8EncodeChar, val_ofNat (.inr ⟨by omega, bound⟩), if_neg (by omega),
    if_neg (by omega), if_neg (by omega), lead, next, middle, last]
  rfl

/-- What is taken off as a character are the bytes of that character. -/
theorem of_next {b : UInt8} {rest after : Bytes} {c : Char}
    (taken : next b rest = (some c, after)) : b :: rest = String.utf8EncodeChar c ++ after := by
  by_cases ascii : b < 0x80
  · rw [next, if_pos ascii] at taken
    cases taken
    rw [utf8EncodeChar_ascii ascii, List.singleton_append]
  have announces : ∃ lead, Lead.ofByte? b = some lead := by
    rw [next, if_neg ascii] at taken
    cases announced : Lead.ofByte? b with
    | none => rw [announced] at taken; cases taken
    | some lead => exact ⟨lead, rfl⟩
  obtain ⟨lead, announced⟩ := announces
  obtain ⟨above, below⟩ := range_of_ofByte? announced
  -- the lead byte says how many digits follow
  have byte : ∀ offset ≤ b.toNat, b = UInt8.ofNat (b.toNat - offset + offset) := by
    intro offset reached
    rw [Nat.sub_add_cancel reached, UInt8.ofNat_toNat]
  by_cases two : b.toNat < 0xE0
  · have spelled := byte 0xC0 (by omega)
    rw [spelled, next_lead (by omega) (by omega) (ofByte?_two _ (by omega) (by omega))] at taken
    rw [spelled]
    exact of_continuation_one (by omega) (by omega) taken
  by_cases three : b.toNat < 0xF0
  · have spelled := byte 0xE0 (by omega)
    obtain ⟨low, high, kind, lowEq, highEq⟩ := ofByte?_three (b.toNat - 0xE0) (by omega)
    rw [spelled, next_lead (by omega) (by omega) kind] at taken
    rw [spelled]
    exact of_continuation_two (by omega) lowEq highEq taken
  · have spelled := byte 0xF0 (by omega)
    obtain ⟨low, high, kind, lowEq, highEq⟩ := ofByte?_four (b.toNat - 0xF0) (by omega)
    rw [spelled, next_lead (by omega) (by omega) kind] at taken
    rw [spelled]
    exact of_continuation_three (by omega) lowEq highEq taken

theorem of_scan {bytes : Bytes} {cs : List Char} (read : scan bytes = cs.map some) :
    bytes = cs.flatMap String.utf8EncodeChar := by
  induction cs generalizing bytes with
  | nil =>
    cases bytes with
    | nil => rfl
    | cons b rest => rw [scan] at read; cases read
  | cons c cs inductionHypothesis =>
    cases bytes with
    | nil => rw [scan] at read; cases read
    | cons b rest =>
      rw [scan, List.map_cons, List.cons.injEq] at read
      have taken : next b rest = (some c, (next b rest).2) := Prod.ext read.1 rfl
      rw [of_next taken, List.flatMap_cons, ← inductionHypothesis read.2]

theorem map_some_of_mapM {found : List (Option Char)} {cs : List Char}
    (gathered : found.mapM id = some cs) : found = cs.map some := by
  induction found generalizing cs with
  | nil => cases gathered; rfl
  | cons c found inductionHypothesis =>
    simp only [List.mapM_cons, id_eq, Option.bind_eq_bind, Option.bind_eq_some_iff,
      Option.pure_def, Option.some.injEq] at gathered
    obtain ⟨c, rfl, others, rest, rfl⟩ := gathered
    rw [List.map_cons, inductionHypothesis rest]

/-- A text is read from its own bytes and from no others. -/
theorem encode_of_decode {bytes : Bytes} {s : String} (read : decode bytes = some s) :
    encode s = bytes := by
  obtain ⟨cs, gathered, rfl⟩ := Option.map_eq_some_iff.mp read
  rw [encode, String.toList_ofList]
  exact (of_scan (map_some_of_mapM gathered)).symm

/-! ## Which bytes are read

A text of the core library is its bytes with a proof that they are well formed, and reading
keeps to the same bytes.
-/

theorem decode_eq_some_iff {bytes : Bytes} {s : String} :
    decode bytes = some s ↔ s.toByteArray = bytes.toByteArray := by
  rw [← toByteArray_encode, List.toByteArray_inj]
  constructor
  · exact encode_of_decode
  · rintro rfl
    exact decode_encode s

theorem decode_eq_none_iff {bytes : Bytes} :
    decode bytes = none ↔ ¬bytes.toByteArray.IsValidUTF8 := by
  rw [Option.eq_none_iff_forall_ne_some]
  constructor
  · intro unread valid
    exact unread ⟨_, valid⟩ (decode_eq_some_iff.mpr rfl)
  · intro invalid s read
    exact invalid (decode_eq_some_iff.mp read ▸ s.isValidUTF8)

/-! ## Putting U+FFFD for what is ill formed -/

theorem decodeLossy_encode (s : String) : decodeLossy (encode s) = s := by
  rw [decodeLossy, encode, scan_flatMap, List.map_map]
  simp

/-- A text without U+FFFD is read from its own bytes only. -/
theorem encode_of_decodeLossy {bytes : Bytes} {s : String} (read : decodeLossy bytes = s)
    (absent : '\uFFFD' ∉ s.toList) : bytes = encode s := by
  rw [← read, decodeLossy, String.toList_ofList] at absent
  have formed : ∀ c ∈ scan bytes, some (c.getD '\uFFFD') = c := by
    intro c found
    cases c with
    | none => exact absurd (List.mem_map_of_mem found) absent
    | some c => rfl
  apply of_scan
  rw [← read, decodeLossy, String.toList_ofList, List.map_map]
  exact (List.map_congr_left formed).trans (List.map_id _) |>.symm

/-- A text with U+FFFD is also read from bytes that are ill formed there. -/
theorem exists_decodeLossy_eq {s : String} (present : '\uFFFD' ∈ s.toList) :
    ∃ bytes, bytes ≠ encode s ∧ decodeLossy bytes = s := by
  obtain ⟨before, after, whole⟩ := List.append_of_mem present
  have ill : ∀ rest, scan (0xFF :: rest) = none :: scan rest := by
    intro rest
    rw [scan, next, if_neg (by decide)]
    rfl
  refine ⟨before.flatMap String.utf8EncodeChar ++ 0xFF :: after.flatMap String.utf8EncodeChar,
    ?_, ?_⟩
  · intro same
    have lengths := congrArg List.length same
    rw [encode, whole, List.flatMap_append, List.flatMap_cons, List.length_append,
      List.length_append, List.length_append, String.length_utf8EncodeChar] at lengths
    have three : ('\uFFFD' : Char).utf8Size = 3 := by decide
    rw [List.length_cons] at lengths
    omega
  · rw [decodeLossy, scan_flatMap_append, ill, scan_flatMap, ← String.ofList_toList (s := s), whole]
    simp

/-! ## Cutting -/

theorem length_takeWithin_le (limit : Nat) (cs : List Char) :
    ((takeWithin limit cs).flatMap String.utf8EncodeChar).length ≤ limit := by
  induction cs generalizing limit with
  | nil => simp [takeWithin]
  | cons c cs inductionHypothesis =>
    rw [takeWithin]
    split
    next fits =>
      have others := inductionHypothesis (limit - c.utf8Size)
      rw [List.flatMap_cons, List.length_append, String.length_utf8EncodeChar]
      omega
    next => simp

theorem longestPrefix_le (limit : Nat) (s : String) :
    (longestPrefix limit s).utf8ByteSize ≤ limit := by
  rw [← length_encode, encode, longestPrefix, String.toList_ofList]
  exact length_takeWithin_le limit s.toList

theorem takeWithin_prefix (limit : Nat) (cs : List Char) : takeWithin limit cs <+: cs := by
  induction cs generalizing limit with
  | nil => exact List.nil_prefix
  | cons c cs inductionHypothesis =>
    rw [takeWithin]
    split
    next fits => exact List.cons_prefix_cons.mpr ⟨rfl, inductionHypothesis _⟩
    next => exact List.nil_prefix

theorem prefix_takeWithin {limit : Nat} {kept cs : List Char} (leading : kept <+: cs)
    (fits : (kept.flatMap String.utf8EncodeChar).length ≤ limit) : kept <+: takeWithin limit cs := by
  induction cs generalizing limit kept with
  | nil => rwa [takeWithin]
  | cons c cs inductionHypothesis =>
    cases kept with
    | nil => exact List.nil_prefix
    | cons d kept =>
      obtain ⟨rfl, others⟩ := List.cons_prefix_cons.mp leading
      rw [List.flatMap_cons, List.length_append, String.length_utf8EncodeChar] at fits
      rw [takeWithin, if_pos (by omega)]
      exact List.cons_prefix_cons.mpr ⟨rfl, inductionHypothesis others (by omega)⟩

/-- Whether a text is the longest prefix of another, in whole characters, that has
    at most `limit` bytes. -/
structure IsLongestPrefix (limit : Nat) (kept s : String) : Prop where
  leading : kept.toList <+: s.toList
  fits : kept.utf8ByteSize ≤ limit
  longest : ∀ other : String,
    other.toList <+: s.toList → other.utf8ByteSize ≤ limit → other.toList <+: kept.toList

theorem longestPrefix_isLongest (limit : Nat) (s : String) :
    IsLongestPrefix limit (longestPrefix limit s) s where
  leading := by
    rw [longestPrefix, String.toList_ofList]
    exact takeWithin_prefix limit s.toList
  fits := longestPrefix_le limit s
  longest := by
    intro other leading fits
    rw [← length_encode, encode] at fits
    rw [longestPrefix, String.toList_ofList]
    exact prefix_takeWithin leading fits

theorem longestPrefix_eq_self {limit : Nat} {s : String} (fits : s.utf8ByteSize ≤ limit) :
    longestPrefix limit s = s := by
  have cut := longestPrefix_isLongest limit s
  have whole := cut.longest s List.prefix_rfl fits
  exact String.toList_injective (cut.leading.eq_of_length_le whole.length_le)

end Rendezvous.Wire.Utf8

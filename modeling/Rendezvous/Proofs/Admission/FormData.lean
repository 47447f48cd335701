import Rendezvous.Admission.FormData
import Rendezvous.Proofs.Wire.Utf8

/-! # What a query says

The value of a parameter, described from the query alone: `Spells` relates what is
written to the bytes that it stands for, `IsParameter` a piece of a query to its name
and its value, and `IsFirst` a query to the value of its first parameter of a name.
The decoder finds these bytes (`spells_iff`) and the parser these values
(`find?_parse_iff`).

`Writes` are the spellings that a sender may choose for the bytes of a text.  Each
of them is read back (`Writes.spells`).
-/

namespace Rendezvous.Admission.FormData

open Rendezvous.Wire (Bytes)

/-! ## Digits -/

/-- Whether a byte is the hexadecimal digit of a number, in lower or in upper case. -/
def IsDigit (b : UInt8) (n : Nat) : Prop :=
  ("0123456789abcdef".toList.map ascii)[n]? = some b ∨
    ("0123456789ABCDEF".toList.map ascii)[n]? = some b

instance (b : UInt8) (n : Nat) : Decidable (IsDigit b n) := inferInstanceAs (Decidable (_ ∨ _))

theorem IsDigit.lt {b : UInt8} {n : Nat} (digit : IsDigit b n) : n < 16 := by
  obtain digit | digit := digit <;> exact (List.getElem?_eq_some_iff.mp digit).1

theorem hexDigit?_lt : ∀ b : Fin 256, ∀ n ∈ Numeral.hexDigit? (Char.ofNat b), n < 16 := by
  decide +kernel

theorem hexDigit?_table : ∀ b : Fin 256, ∀ n : Fin 16,
    Numeral.hexDigit? (Char.ofNat b) = some n.val ↔ IsDigit (UInt8.ofFin b) n := by
  decide +kernel

theorem hexDigit?_eq_some_iff {b : UInt8} {n : Nat} :
    Numeral.hexDigit? (Char.ofNat b.toNat) = some n ↔ IsDigit b n := by
  by_cases small : n < 16
  · exact hexDigit?_table b.toFin ⟨n, small⟩
  · constructor
    · intro read
      exact absurd (hexDigit?_lt b.toFin n read) small
    · intro digit
      exact absurd digit.lt small

theorem hexByte?_eq_some_iff {high low byte : UInt8} :
    hexByte? high low = some byte ↔
      ∃ h l, IsDigit high h ∧ IsDigit low l ∧ byte = UInt8.ofNat (h * 16 + l) := by
  simp only [hexByte?, Option.bind_eq_bind, Option.bind_eq_some_iff, hexDigit?_eq_some_iff,
    Option.some.injEq]
  constructor
  · rintro ⟨h, high, l, low, rfl⟩
    exact ⟨h, l, high, low, rfl⟩
  · rintro ⟨h, l, high, low, rfl⟩
    exact ⟨h, high, l, low, rfl⟩

theorem IsDigit.ne_plus {b : UInt8} {n : Nat} (digit : IsDigit b n) : b ≠ ascii '+' := by
  rintro rfl
  have none : ∀ n < 16, ¬IsDigit (ascii '+') n := by decide
  exact none n digit.lt digit

theorem not_isDigit_space (n : Nat) : ¬IsDigit (ascii ' ') n := by
  intro digit
  have none : ∀ n < 16, ¬IsDigit (ascii ' ') n := by decide
  exact none n digit.lt digit

/-! ## Spelling -/

def BeginsWithDigits (raw : Bytes) : Prop :=
  ∃ high low rest h l, raw = high :: low :: rest ∧ IsDigit high h ∧ IsDigit low l

/-- What is written, and the bytes that it stands for. -/
inductive Spells : Bytes → Bytes → Prop
  | nil : Spells [] []
  | plus {raw bytes : Bytes} :
      Spells raw bytes → Spells (ascii '+' :: raw) (ascii ' ' :: bytes)
  | escape {raw bytes : Bytes} {high low : UInt8} {h l : Nat} :
      IsDigit high h → IsDigit low l → Spells raw bytes →
        Spells (ascii '%' :: high :: low :: raw) (UInt8.ofNat (h * 16 + l) :: bytes)
  | stray {raw bytes : Bytes} :
      ¬BeginsWithDigits raw → Spells raw bytes → Spells (ascii '%' :: raw) (ascii '%' :: bytes)
  | plain {raw bytes : Bytes} {b : UInt8} :
      b ≠ ascii '+' → b ≠ ascii '%' → Spells raw bytes → Spells (b :: raw) (b :: bytes)

theorem exists_spells (raw : Bytes) : ∃ bytes, Spells raw bytes := by
  match raw with
  | [] => exact ⟨[], .nil⟩
  | b :: raw =>
    by_cases plus : b = ascii '+'
    · subst plus
      obtain ⟨bytes, spelled⟩ := exists_spells raw
      exact ⟨_, .plus spelled⟩
    by_cases percent : b = ascii '%'
    · subst percent
      by_cases digits : BeginsWithDigits raw
      · obtain ⟨high, low, rest, h, l, rfl, first, second⟩ := digits
        obtain ⟨bytes, spelled⟩ := exists_spells rest
        exact ⟨_, .escape first second spelled⟩
      · obtain ⟨bytes, spelled⟩ := exists_spells raw
        exact ⟨_, .stray digits spelled⟩
    · obtain ⟨bytes, spelled⟩ := exists_spells raw
      exact ⟨_, .plain plus percent spelled⟩
termination_by raw.length

theorem percentDecode_cons_of_ne {b : UInt8} (plain : b ≠ ascii '%') (rest : Bytes) :
    percentDecode (b :: rest) = b :: percentDecode rest := by
  match rest with
  | [] => rfl
  | [_] => rfl
  | _ :: _ :: _ => rw [percentDecode, if_neg plain]

theorem percentDecode_escape {high low byte : UInt8} (digits : hexByte? high low = some byte)
    (rest : Bytes) :
    percentDecode (ascii '%' :: high :: low :: rest) = byte :: percentDecode rest := by
  rw [percentDecode, if_pos rfl, digits]

theorem percentDecode_stray {rest : Bytes}
    (stray : ∀ high low others, rest = high :: low :: others → hexByte? high low = none) :
    percentDecode (ascii '%' :: rest) = ascii '%' :: percentDecode rest := by
  match rest with
  | [] => rfl
  | [_] => rfl
  | high :: low :: others => rw [percentDecode, if_pos rfl, stray high low others rfl]

@[simp]
theorem plusToSpace_cons (b : UInt8) (raw : Bytes) :
    plusToSpace (b :: raw) = (if b = ascii '+' then ascii ' ' else b) :: plusToSpace raw := rfl

theorem beginsWithDigits_plusToSpace {raw : Bytes} (digits : BeginsWithDigits (plusToSpace raw)) :
    BeginsWithDigits raw := by
  have kept : ∀ {b n}, IsDigit (if b = ascii '+' then ascii ' ' else b) n → IsDigit b n := by
    intro b n digit
    split at digit
    -- a space is no digit, so no plus sign has become one
    next => exact absurd digit (not_isDigit_space n)
    next => exact digit
  obtain ⟨high, low, rest, h, l, spelled, first, second⟩ := digits
  match raw with
  | [] => cases spelled
  | [_] => cases spelled
  | _ :: _ :: others =>
    cases spelled
    exact ⟨_, _, others, h, l, rfl, kept first, kept second⟩

theorem Spells.decoded {raw bytes : Bytes} (spelled : Spells raw bytes) :
    percentDecode (plusToSpace raw) = bytes := by
  induction spelled with
  | nil => rfl
  | plus _ inductionHypothesis =>
    rw [plusToSpace_cons, if_pos rfl, percentDecode_cons_of_ne (by decide), inductionHypothesis]
  | escape first second _ inductionHypothesis =>
    rw [plusToSpace_cons, plusToSpace_cons, plusToSpace_cons, if_neg (by decide),
      if_neg first.ne_plus, if_neg second.ne_plus,
      percentDecode_escape (hexByte?_eq_some_iff.mpr ⟨_, _, first, second, rfl⟩),
      inductionHypothesis]
  | @stray raw _ stray _ inductionHypothesis =>
    rw [plusToSpace_cons, if_neg (by decide), percentDecode_stray, inductionHypothesis]
    intro high low others spelled
    cases digits : hexByte? high low with
    | none => rfl
    | some byte =>
      obtain ⟨h, l, first, second, -⟩ := hexByte?_eq_some_iff.mp digits
      exact absurd (beginsWithDigits_plusToSpace ⟨_, _, _, h, l, spelled, first, second⟩) stray
  | plain notPlus notPercent _ inductionHypothesis =>
    rw [plusToSpace_cons, if_neg notPlus, percentDecode_cons_of_ne notPercent,
      inductionHypothesis]

/-- Decoding finds what is spelled, and there is only one such thing. -/
theorem spells_iff {raw bytes : Bytes} :
    Spells raw bytes ↔ percentDecode (plusToSpace raw) = bytes := by
  constructor
  · exact Spells.decoded
  · rintro rfl
    obtain ⟨bytes, spelled⟩ := exists_spells raw
    rwa [spelled.decoded]

def Reads (raw : Bytes) (text : String) : Prop :=
  ∃ bytes, Spells raw bytes ∧ Wire.Utf8.decodeLossy bytes = text

theorem reads_iff {raw : Bytes} {text : String} : Reads raw text ↔ decodeText raw = text := by
  simp only [Reads, spells_iff, exists_eq_left', decodeText]

/-! ## Parameters -/

theorem takeWhile_ne_append {α : Type} [DecidableEq α] {head : List α} {a : α}
    (absent : a ∉ head) (rest : List α) :
    (head ++ rest).takeWhile (· ≠ a) = head ++ rest.takeWhile (· ≠ a) := by
  apply List.takeWhile_append_of_pos
  intro other found
  exact decide_eq_true (ne_of_mem_of_not_mem found absent)

theorem dropWhile_ne_append {α : Type} [DecidableEq α] {head : List α} {a : α}
    (absent : a ∉ head) (rest : List α) :
    (head ++ rest).dropWhile (· ≠ a) = rest.dropWhile (· ≠ a) := by
  apply List.dropWhile_append_of_pos
  intro other found
  exact decide_eq_true (ne_of_mem_of_not_mem found absent)

/-- A piece of a query with its name and its value: the name ends at the first equals
    sign, or with the piece. -/
inductive IsParameter : Bytes → Bytes → Bytes → Prop
  | assigned {name value : Bytes} :
      ascii '=' ∉ name → IsParameter (name ++ ascii '=' :: value) name value
  | bare {name : Bytes} : ascii '=' ∉ name → IsParameter name name []

theorem exists_isParameter (piece : Bytes) : ∃ name value, IsParameter piece name value := by
  by_cases equals : ascii '=' ∈ piece
  · obtain ⟨name, value, rfl, absent⟩ := List.eq_append_cons_of_mem equals
    exact ⟨name, value, .assigned absent⟩
  · exact ⟨piece, [], .bare equals⟩

theorem IsParameter.parameter_eq {piece name value : Bytes}
    (divided : IsParameter piece name value) :
    parameter piece = (decodeText name, decodeText value) := by
  rw [parameter]
  cases divided with
  | assigned absent =>
    rw [takeWhile_ne_append absent, dropWhile_ne_append absent]
    simp
  | bare absent =>
    rw [← List.append_nil piece, takeWhile_ne_append absent, dropWhile_ne_append absent]
    simp

def Assigns (piece : Bytes) (name : String) (value : Bytes) : Prop :=
  ∃ raw, IsParameter piece raw value ∧ Reads raw name

theorem Assigns.parameter_eq {piece value : Bytes} {name : String}
    (assigned : Assigns piece name value) : parameter piece = (name, decodeText value) := by
  obtain ⟨raw, divided, read⟩ := assigned
  rw [divided.parameter_eq, reads_iff.mp read]

theorem exists_assigns (piece : Bytes) : ∃ value, Assigns piece (parameter piece).1 value := by
  obtain ⟨raw, value, divided⟩ := exists_isParameter piece
  rw [divided.parameter_eq]
  exact ⟨value, raw, divided, reads_iff.mpr rfl⟩

/-- Whether some parameter of a query has this name, and the first of them this value.
    The pieces of a query stand between its ampersands. -/
def IsFirst (query : Bytes) (name : String) (value : Bytes) : Prop :=
  ∃ before piece after, query = [ascii '&'].intercalate (before ++ piece :: after) ∧
    (∀ other ∈ before ++ piece :: after, ascii '&' ∉ other) ∧
      Assigns piece name value ∧ ∀ earlier ∈ before, ∀ other, ¬Assigns earlier name other

theorem not_mem_of_mem_splitOn {query piece : Bytes} {b : UInt8}
    (found : piece ∈ query.splitOn b) : b ∉ piece := by
  rw [List.splitOn_eq_splitOnP] at found
  induction query generalizing piece with
  | nil =>
    rw [List.splitOnP_nil, List.mem_singleton] at found
    rw [found]
    exact List.not_mem_nil
  | cons first query inductionHypothesis =>
    rw [List.splitOnP_cons_eq_if_modifyHead] at found
    split at found
    next =>
      obtain rfl | found := List.mem_cons.mp found
      · exact List.not_mem_nil
      · exact inductionHypothesis found
    next other =>
      cases pieces : query.splitOnP (· == b) with
      | nil => exact absurd pieces (List.splitOnP_ne_nil _ _)
      | cons head pieces' =>
        rw [pieces] at found inductionHypothesis
        obtain rfl | found := List.mem_cons.mp found
        · rw [List.mem_cons, not_or]
          exact ⟨fun same => other (beq_iff_eq.mpr same.symm),
            inductionHypothesis List.mem_cons_self⟩
        · exact inductionHypothesis (List.mem_cons_of_mem _ found)

theorem parameter_nil : parameter [] = ("", "") := by
  simp [parameter, decodeText, plusToSpace, percentDecode, Wire.Utf8.decodeLossy, Wire.Utf8.scan]

theorem find?_parse (query : Bytes) {name : String} (named : name ≠ "") :
    (parse query).find? (fun parameter => parameter.1 = name) =
      ((query.splitOn (ascii '&')).find? fun piece => (parameter piece).1 = name).map
        parameter := by
  rw [parse, List.find?_map, List.find?_filter, List.splitOn_eq_splitOnP]
  congr 2
  funext piece
  cases piece with
  -- empty pieces are dropped, but they have no name anyway
  | nil => simp [parameter_nil, named.symm]
  | cons => simp

theorem find?_parse_iff {query : Bytes} {name value : String} (named : name ≠ "") :
    (parse query).find? (fun parameter => parameter.1 = name) = some (name, value) ↔
      ∃ raw, IsFirst query name raw ∧ Reads raw value := by
  rw [find?_parse query named, Option.map_eq_some_iff]
  simp only [List.find?_eq_some_iff_append, decide_eq_true_eq, Bool.not_eq_true',
    decide_eq_false_iff_not]
  constructor
  · rintro ⟨piece, ⟨-, before, after, pieces, earlier⟩, found⟩
    obtain ⟨raw, assigned⟩ := exists_assigns piece
    have read := assigned.parameter_eq.symm.trans found
    rw [found] at assigned
    refine ⟨raw, ⟨before, piece, after, ?_, ?_, assigned, ?_⟩, ?_⟩
    · rw [← pieces, List.intercalate_splitOn]
    · intro other listed
      exact not_mem_of_mem_splitOn (pieces ▸ listed)
    · intro other listed value assigned
      exact earlier other listed (congrArg Prod.fst assigned.parameter_eq)
    · exact reads_iff.mpr (congrArg Prod.snd read)
  · rintro ⟨raw, ⟨before, piece, after, rfl, whole, assigned, earlier⟩, read⟩
    have found : parameter piece = (name, value) := by
      rw [assigned.parameter_eq, reads_iff.mp read]
    refine ⟨piece, ⟨congrArg Prod.fst found, before, after, ?_, ?_⟩, found⟩
    · exact List.splitOn_intercalate _ whole (by simp)
    · intro other listed same
      obtain ⟨value, assigned⟩ := exists_assigns other
      exact earlier other listed value (same ▸ assigned)

/-! ## Writing -/

/-- The bytes that may stand for themselves: letters, digits, and four marks. -/
def unreserved : Bytes :=
  "ABCDEFGHIJKLMNOPQRSTUVWXYZabcdefghijklmnopqrstuvwxyz0123456789-._~".toList.map ascii

/-- What a sender may write for the bytes of a text. -/
inductive Writes : Bytes → Bytes → Prop
  | nil : Writes [] []
  | escape {raw bytes : Bytes} {high low byte : UInt8} :
      IsDigit high (byte.toNat / 16) → IsDigit low (byte.toNat % 16) → Writes raw bytes →
        Writes (ascii '%' :: high :: low :: raw) (byte :: bytes)
  | itself {raw bytes : Bytes} {b : UInt8} :
      b ∈ unreserved → Writes raw bytes → Writes (b :: raw) (b :: bytes)
  | plus {raw bytes : Bytes} : Writes raw bytes → Writes (ascii '+' :: raw) (ascii ' ' :: bytes)

theorem unreserved_plain : ∀ b ∈ unreserved, b ≠ ascii '+' ∧ b ≠ ascii '%' := by
  decide +kernel

theorem Writes.spells {raw bytes : Bytes} (written : Writes raw bytes) : Spells raw bytes := by
  induction written with
  | nil => exact .nil
  | @escape _ _ _ _ byte first second _ inductionHypothesis =>
    have spelled := Spells.escape first second inductionHypothesis
    rwa [Nat.div_add_mod', UInt8.ofNat_toNat] at spelled
  | itself kept _ inductionHypothesis =>
    obtain ⟨notPlus, notPercent⟩ := unreserved_plain _ kept
    exact .plain notPlus notPercent inductionHypothesis
  | plus _ inductionHypothesis => exact .plus inductionHypothesis

theorem exists_isDigit {n : Nat} (small : n < 16) : ∃ b, IsDigit b n :=
  ⟨_, .inl (List.getElem?_eq_getElem small)⟩

theorem exists_writes (bytes : Bytes) : ∃ raw, Writes raw bytes := by
  induction bytes with
  | nil => exact ⟨[], .nil⟩
  | cons byte bytes inductionHypothesis =>
    obtain ⟨raw, written⟩ := inductionHypothesis
    have small := byte.toNat_lt
    obtain ⟨high, first⟩ : ∃ b, IsDigit b (byte.toNat / 16) := exists_isDigit (by omega)
    obtain ⟨low, second⟩ : ∃ b, IsDigit b (byte.toNat % 16) := exists_isDigit (by omega)
    exact ⟨_, .escape first second written⟩

theorem IsDigit.mem_unreserved {b : UInt8} {n : Nat} (digit : IsDigit b n) : b ∈ unreserved := by
  have lower : ∀ b ∈ "0123456789abcdef".toList.map ascii, b ∈ unreserved := by decide +kernel
  have upper : ∀ b ∈ "0123456789ABCDEF".toList.map ascii, b ∈ unreserved := by decide +kernel
  obtain digit | digit := digit
  · exact lower b (List.mem_of_getElem? digit)
  · exact upper b (List.mem_of_getElem? digit)

/-- No byte of a writing means anything to a query, let alone to a target. -/
theorem Writes.forall_mem {raw bytes : Bytes} (written : Writes raw bytes) :
    ∀ b ∈ raw, b ∈ unreserved ++ [ascii '%', ascii '+'] := by
  induction written with
  | nil => exact List.forall_mem_nil _
  | escape first second _ inductionHypothesis =>
    simp only [List.forall_mem_cons]
    exact ⟨by simp, List.mem_append_left _ first.mem_unreserved,
      List.mem_append_left _ second.mem_unreserved, inductionHypothesis⟩
  | itself kept _ inductionHypothesis =>
    exact List.forall_mem_cons.mpr ⟨List.mem_append_left _ kept, inductionHypothesis⟩
  | plus _ inductionHypothesis =>
    exact List.forall_mem_cons.mpr ⟨by simp, inductionHypothesis⟩

end Rendezvous.Admission.FormData

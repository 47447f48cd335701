import Rendezvous.Admission.Key
import Rendezvous.Proofs.Admission.FormData

/-! # Who is admitted

A server admits those who present its key and nobody else (`admission_discerns`).  What
a request presents is said from the request alone: `InHeader` is about its first
header that presents a key, `InQuery` about what is written for its first parameter
that does.

The comparison is of bytes, but bytes that are ill formed in a query are read as
U+FFFD before it.  So a key with this character is presented by other bytes too, and
a key without it by its own alone.
-/

namespace Rendezvous.Admission

open Rendezvous.Wire (Bytes)
open FormData (Assigns IsFirst Reads Spells Writes)

/-! ## Comparing -/

/-- Nothing differs where all differences put together are zero. -/
theorem foldl_difference_eq_zero_iff (pairs : List (UInt8 × UInt8)) (start : UInt8) :
    pairs.foldl (fun difference (a, b) => difference ||| (a ^^^ b)) start = 0 ↔
      start = 0 ∧ ∀ pair ∈ pairs, pair.1 = pair.2 := by
  induction pairs generalizing start with
  | nil => simp
  | cons pair pairs inductionHypothesis =>
    rw [List.foldl_cons, inductionHypothesis, UInt8.or_eq_zero_iff, UInt8.xor_eq_zero_iff,
      List.forall_mem_cons, and_assoc]

theorem eq_iff_forall_mem_zip {as bs : Bytes} (lengths : as.length = bs.length) :
    (∀ pair ∈ as.zip bs, pair.1 = pair.2) ↔ as = bs := by
  induction as generalizing bs with
  | nil =>
    cases bs with
    | nil => simp
    | cons b bs => cases lengths
  | cons a as inductionHypothesis =>
    cases bs with
    | nil => cases lengths
    | cons b bs =>
      rw [List.zip_cons_cons, List.forall_mem_cons, List.cons.injEq,
        inductionHypothesis (Nat.succ.inj lengths)]

theorem sameBytes_iff {presented expected : Bytes} :
    sameBytes presented expected = true ↔ presented = expected := by
  rw [sameBytes, Bool.and_eq_true, beq_iff_eq, beq_iff_eq, foldl_difference_eq_zero_iff]
  constructor
  · rintro ⟨lengths, -, same⟩
    exact (eq_iff_forall_mem_zip lengths).mp same
  · rintro rfl
    exact ⟨rfl, rfl, (eq_iff_forall_mem_zip rfl).mpr rfl⟩

theorem admits_of_key? {key : String} {request : UpgradeRequest} {presented : Bytes}
    (found : request.key? = some presented) :
    admits key request = true ↔ presented = Wire.Utf8.encode key := by
  rw [admits, found, Option.any_some, sameBytes_iff]

/-! ## In the header -/

/-- Whether some header has this name, in any case, and the first of them this value. -/
def IsFirstHeader (headers : List (String × Bytes)) (name : String) (value : Bytes) : Prop :=
  ∃ before spelled after, headers = before ++ (spelled, value) :: after ∧
    spelled.toLower = name ∧ ∀ header ∈ before, header.1.toLower ≠ name

/-- Whether the first header that presents a key has exactly these bytes, blanks and all,
    and they can be read as text. -/
def InHeader (request : UpgradeRequest) (bytes : Bytes) : Prop :=
  IsFirstHeader request.headers headerName bytes ∧ ∀ b ∈ bytes, isReadable b = true

theorem header?_eq_some_iff {request : UpgradeRequest} {name : String} {bytes : Bytes} :
    request.header? name = some bytes ↔ IsFirstHeader request.headers name bytes := by
  simp only [UpgradeRequest.header?, Option.map_eq_some_iff, List.find?_eq_some_iff_append,
    decide_eq_true_eq, Bool.not_eq_true', decide_eq_false_iff_not]
  constructor
  · rintro ⟨⟨spelled, value⟩, ⟨named, before, after, listed, earlier⟩, rfl⟩
    exact ⟨before, spelled, after, listed, named, earlier⟩
  · rintro ⟨before, spelled, after, listed, named, earlier⟩
    exact ⟨(spelled, bytes), ⟨named, before, after, listed, earlier⟩, rfl⟩

theorem headerKey?_eq_some_iff {request : UpgradeRequest} {bytes : Bytes} :
    request.headerKey? = some bytes ↔ InHeader request bytes := by
  rw [UpgradeRequest.headerKey?, Option.filter_eq_some_iff, header?_eq_some_iff,
    List.all_eq_true, InHeader]

/-! ## In the query -/

/-- Whether this is the query of a target: what stands between its first question mark
    and its fragment. -/
def IsQuery (target : String) (query : Bytes) : Prop :=
  ∃ path text rest, target.toList = path ++ '?' :: text ++ rest ∧ '?' ∉ path ∧ '#' ∉ path ∧
    '#' ∉ text ∧ (rest = [] ∨ ∃ fragment, rest = '#' :: fragment) ∧
      query = Wire.Utf8.encode (String.ofList text)

def InQuery (request : UpgradeRequest) (raw : Bytes) : Prop :=
  ∃ query, IsQuery request.target query ∧ IsFirst query parameterName raw

theorem exists_fragment (target : List Char) :
    ∃ rest, target = target.takeWhile (· ≠ '#') ++ rest ∧ '#' ∉ target.takeWhile (· ≠ '#') ∧
      (rest = [] ∨ ∃ fragment, rest = '#' :: fragment) := by
  by_cases marked : '#' ∈ target
  · obtain ⟨before, fragment, rfl, absent⟩ := List.eq_append_cons_of_mem marked
    rw [FormData.takeWhile_ne_append absent]
    exact ⟨'#' :: fragment, by simp, by simpa using absent, .inr ⟨fragment, rfl⟩⟩
  · have whole := FormData.takeWhile_ne_append marked []
    rw [List.append_nil, List.takeWhile_nil, List.append_nil] at whole
    rw [whole]
    exact ⟨[], by simp, marked, .inl rfl⟩

theorem query?_eq_some_iff {request : UpgradeRequest} {query : Bytes} :
    request.query? = some query ↔ IsQuery request.target query := by
  rw [UpgradeRequest.query?]
  constructor
  · intro found
    obtain ⟨rest, whole, noFragment, fragment⟩ := exists_fragment request.target.toList
    generalize request.target.toList.takeWhile (· ≠ '#') = before at found whole noFragment
    have marked : '?' ∈ before := by
      by_contra unmarked
      have nothing := FormData.dropWhile_ne_append unmarked []
      rw [List.append_nil, List.dropWhile_nil] at nothing
      rw [nothing] at found
      cases found
    obtain ⟨path, text, rfl, noMark⟩ := List.eq_append_cons_of_mem marked
    rw [FormData.dropWhile_ne_append noMark, List.dropWhile_cons_of_neg (by simp)] at found
    simp only [List.mem_append, List.mem_cons, not_or] at noFragment
    exact ⟨path, text, rest, whole, noMark, noFragment.1, noFragment.2.2, fragment,
      (Option.some.inj found).symm⟩
  · rintro ⟨path, text, rest, whole, noMark, noFragment, noFragmentLater, fragment, rfl⟩
    have noFragmentBefore : '#' ∉ path ++ '?' :: text := by simp [noFragment, noFragmentLater]
    have cut : rest.takeWhile (· ≠ '#') = [] := by
      obtain rfl | ⟨fragment, rfl⟩ := fragment <;> simp
    rw [whole, FormData.takeWhile_ne_append noFragmentBefore, cut, List.append_nil,
      FormData.dropWhile_ne_append noMark, List.dropWhile_cons_of_neg (by simp)]

theorem queryKey?_eq_some_iff {request : UpgradeRequest} {bytes : Bytes} :
    request.queryKey? = some bytes ↔
      ∃ raw text, InQuery request raw ∧ Reads raw text ∧ Wire.Utf8.encode text = bytes := by
  simp only [UpgradeRequest.queryKey?, Option.bind_eq_bind, Option.bind_eq_some_iff,
    query?_eq_some_iff, Option.some.injEq]
  have named : parameterName ≠ "" := by decide
  constructor
  · rintro ⟨query, isQuery, ⟨name, text⟩, found, rfl⟩
    have same := List.find?_some found
    rw [decide_eq_true_eq] at same
    subst same
    obtain ⟨raw, first, read⟩ := (FormData.find?_parse_iff named).mp found
    exact ⟨raw, text, ⟨query, isQuery, first⟩, read, rfl⟩
  · rintro ⟨raw, text, ⟨query, isQuery, first⟩, read, rfl⟩
    exact ⟨query, isQuery, _, (FormData.find?_parse_iff named).mpr ⟨raw, first, read⟩, rfl⟩

/-! ## Presenting a key -/

def UpgradeRequest.asking (query : Bytes) : UpgradeRequest :=
  { target := String.ofList ('/' :: '?' :: query.map fun b => Char.ofNat b.toNat) }

theorem not_inHeader_asking (query : Bytes) : ¬∃ bytes, InHeader (.asking query) bytes := by
  rintro ⟨bytes, ⟨before, spelled, after, listed, -⟩, -⟩
  exact List.append_ne_nil_of_right_ne_nil before (List.cons_ne_nil _ after) listed.symm

theorem isQuery_asking {query : Bytes}
    (harmless : ∀ b ∈ query, b < 0x80 ∧ Char.ofNat b.toNat ≠ '#') :
    IsQuery (UpgradeRequest.asking query).target query := by
  have target : (UpgradeRequest.asking query).target.toList =
      ['/'] ++ '?' :: query.map (fun b => Char.ofNat b.toNat) ++ [] := by
    rw [UpgradeRequest.asking, String.toList_ofList, List.append_nil, List.singleton_append]
  have noFragment : '#' ∉ query.map fun b => Char.ofNat b.toNat := by
    rw [List.mem_map]
    rintro ⟨b, found, same⟩
    exact (harmless b found).2 same
  have text := Wire.Utf8.encode_ascii fun b found => (harmless b found).1
  exact ⟨_, _, _, target, by decide, by decide, noFragment, .inl rfl, text.symm⟩

def assignment (raw : Bytes) : Bytes :=
  Wire.Utf8.encode parameterName ++ FormData.ascii '=' :: raw

theorem assigns_assignment (raw : Bytes) : Assigns (assignment raw) parameterName raw := by
  have plain : FormData.percentDecode (FormData.plusToSpace (Wire.Utf8.encode parameterName)) =
      Wire.Utf8.encode parameterName := by decide
  refine ⟨_, .assigned (by decide), _, FormData.spells_iff.mpr plain, ?_⟩
  exact Wire.Utf8.decodeLossy_encode _

theorem inQuery_asking {raw bytes : Bytes} (written : Writes raw bytes) :
    InQuery (.asking (assignment raw)) raw := by
  have harmless : ∀ b ∈ assignment (FormData.unreserved ++
        [FormData.ascii '%', FormData.ascii '+']),
      b < 0x80 ∧ b ≠ FormData.ascii '&' ∧ Char.ofNat b.toNat ≠ '#' := by decide +kernel
  have safe : ∀ b ∈ assignment raw,
      b < 0x80 ∧ b ≠ FormData.ascii '&' ∧ Char.ofNat b.toNat ≠ '#' := by
    intro b found
    apply harmless b
    rw [assignment, List.mem_append, List.mem_cons] at found ⊢
    exact found.imp_right (Or.imp_right (written.forall_mem b))
  refine ⟨_, isQuery_asking fun b found => ⟨(safe b found).1, (safe b found).2.2⟩, [], _, [],
    (List.intercalate_singleton ..).symm, ?_, assigns_assignment raw, List.forall_mem_nil _⟩
  intro other listed found
  obtain rfl := List.mem_singleton.mp listed
  exact (safe _ found).2.1 rfl

/-! ## Admission -/

section Admission

variable {key : String} {request : UpgradeRequest} {bytes raw : Bytes}

theorem admits_iff_of_inHeader (presented : InHeader request bytes) :
    admits key request = true ↔ bytes = Wire.Utf8.encode key := by
  apply admits_of_key?
  rw [UpgradeRequest.key?, headerKey?_eq_some_iff.mpr presented, Option.some_or]

theorem key?_of_not_inHeader (silent : ¬∃ bytes, InHeader request bytes) :
    request.key? = request.queryKey? := by
  rw [UpgradeRequest.key?]
  cases found : request.headerKey? with
  | none => exact Option.none_or
  | some bytes => exact absurd ⟨bytes, headerKey?_eq_some_iff.mp found⟩ silent

theorem admits_iff_of_not_inHeader (silent : ¬∃ bytes, InHeader request bytes) :
    admits key request = true ↔
      ∃ raw text, InQuery request raw ∧ Reads raw text ∧
        Wire.Utf8.encode text = Wire.Utf8.encode key := by
  rw [admits, key?_of_not_inHeader silent, Option.any_eq_true, ← queryKey?_eq_some_iff]
  simp only [sameBytes_iff, exists_eq_right]

theorem admits_iff_of_inQuery (silent : ¬∃ bytes, InHeader request bytes)
    (presented : InQuery request raw) (spelled : Spells raw bytes) :
    admits key request = true ↔ Wire.Utf8.decodeLossy bytes = key := by
  have found : request.key? = some (Wire.Utf8.encode (Wire.Utf8.decodeLossy bytes)) := by
    rw [key?_of_not_inHeader silent]
    exact queryKey?_eq_some_iff.mpr ⟨raw, _, presented, ⟨bytes, spelled, rfl⟩, rfl⟩
  rw [admits_of_key? found]
  exact ⟨Wire.Utf8.encode_injective, congrArg _⟩

end Admission

/-- How a server tells those who present its key from those who do not. -/
structure Discerns (key : String) : Prop where
  /-- A header that can be read decides, whatever the query says. -/
  byHeader : ∀ request bytes, InHeader request bytes →
    (admits key request = true ↔ bytes = Wire.Utf8.encode key)
  /-- Otherwise the first parameter that presents a key decides. -/
  byQuery : ∀ request, (¬∃ bytes, InHeader request bytes) →
    (admits key request = true ↔ ∃ raw text, InQuery request raw ∧ Reads raw text ∧
      Wire.Utf8.encode text = Wire.Utf8.encode key)
  /-- However the key is written there, and whatever stands around it, it is known. -/
  written : ∀ request raw, (¬∃ bytes, InHeader request bytes) → InQuery request raw →
    Writes raw (Wire.Utf8.encode key) → admits key request = true
  /-- Every key can be written, and every writing can be presented. -/
  writable : (∃ raw, Writes raw (Wire.Utf8.encode key)) ∧
    ∀ raw, Writes raw (Wire.Utf8.encode key) →
      ∃ request, (¬∃ bytes, InHeader request bytes) ∧ InQuery request raw
  /-- A key that cannot be read in a header is not known from one. -/
  unreadable : ∀ b ∈ Wire.Utf8.encode key, isReadable b = false →
    ∀ request bytes, InHeader request bytes → admits key request = false
  /-- A key without U+FFFD is known by its own bytes alone. -/
  faithful : '\uFFFD' ∉ key.toList → ∀ request raw bytes, (¬∃ bytes, InHeader request bytes) →
    InQuery request raw → Spells raw bytes →
      (admits key request = true ↔ bytes = Wire.Utf8.encode key)
  /-- A key with U+FFFD is known by other bytes too. -/
  lossy : '\uFFFD' ∈ key.toList → ∃ request raw bytes, (¬∃ bytes, InHeader request bytes) ∧
    InQuery request raw ∧ Spells raw bytes ∧ bytes ≠ Wire.Utf8.encode key ∧
      admits key request = true

theorem admission_discerns (key : String) : Discerns key where
  byHeader _ _ presented := admits_iff_of_inHeader presented
  byQuery _ silent := admits_iff_of_not_inHeader silent
  written := by
    intro request raw silent presented written
    exact (admits_iff_of_inQuery silent presented written.spells).mpr
      (Wire.Utf8.decodeLossy_encode key)
  writable := by
    refine ⟨FormData.exists_writes _, fun raw written => ?_⟩
    exact ⟨.asking _, not_inHeader_asking _, inQuery_asking written⟩
  unreadable := by
    intro b found unreadable request bytes presented
    rw [Bool.eq_false_iff, Ne, admits_iff_of_inHeader presented]
    rintro rfl
    rw [presented.2 b found] at unreadable
    cases unreadable
  faithful := by
    intro absent request raw bytes silent presented spelled
    rw [admits_iff_of_inQuery silent presented spelled]
    constructor
    · intro read
      exact Wire.Utf8.encode_of_decodeLossy read absent
    · rintro rfl
      exact Wire.Utf8.decodeLossy_encode key
  lossy := by
    intro present
    obtain ⟨bytes, other, read⟩ := Wire.Utf8.exists_decodeLossy_eq present
    obtain ⟨raw, written⟩ := FormData.exists_writes bytes
    have presented := inQuery_asking written
    exact ⟨_, raw, bytes, not_inHeader_asking _, presented, written.spells, other,
      (admits_iff_of_inQuery (not_inHeader_asking _) presented written.spells).mpr read⟩

end Rendezvous.Admission

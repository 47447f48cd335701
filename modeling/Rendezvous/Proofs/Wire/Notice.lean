import Rendezvous.Proofs.Wire.Field
import Rendezvous.Wire.Notice

/-! # Reading a notice back

`Notice.decode_encode` says that a notice is read back from its packet, whatever
bytes follow, with each of its texts cut to what a text field carries.  The one
condition is that a list of members is no longer than its length field can say.

A notice whose texts need no cutting is `WireSized`.  Only such notices are read,
and only from packets that begin as they are written
(`Notice.decode_iff_encode_prefix`): the packet of a notice tells where it ends,
and no packet begins with two notices.
-/

namespace Rendezvous.Wire

/-! ## Members -/

def Member.cut (member : Member) : Member :=
  { member with name := Utf8.longestPrefix maxTextLength member.name }

namespace Reader

theorem read_clientId (id : ClientId) (rest : Bytes) :
    clientId.read (Field.encode (.word64 id.val) ++ rest) = (.ok id, rest) := by
  rw [clientId, read_map _ (read_word64 id.val rest)]

theorem read_member (m : Member) (rest : Bytes) :
    member.read (m.fields.flatMap Field.encode ++ rest) = (.ok m.cut, rest) := by
  simp only [Member.fields, List.flatMap_cons, List.flatMap_nil, List.append_nil,
    List.append_assoc]
  rw [member, read_bind _ (read_clientId m.id _), read_bind _ (read_text m.name rest), read_pure]
  rfl

theorem read_members (list : List Member) (rest : Bytes) :
    (members list.length).read ((list.flatMap Member.fields).flatMap Field.encode ++ rest) =
      (.ok (list.map Member.cut), rest) := by
  induction list with
  | nil => rfl
  | cons m list inductionHypothesis =>
    rw [List.length_cons, members, List.flatMap_cons, List.flatMap_append, List.append_assoc,
      read_bind _ (read_member m _), read_bind _ inductionHypothesis, read_pure, List.map_cons]

section Written

variable {bytes rest : Bytes}

theorem of_read_clientId {id : ClientId} (done : clientId.read bytes = (.ok id, rest)) :
    bytes = Field.encode (.word64 id.val) ++ rest := by
  obtain ⟨value, taken, rfl⟩ := of_read_map done
  exact of_read_word64 taken

theorem of_read_member {m : Member} (done : member.read bytes = (.ok m, rest)) :
    m.name.utf8ByteSize ≤ maxTextLength ∧
      bytes = m.fields.flatMap Field.encode ++ rest := by
  obtain ⟨id, afterId, takenId, onward⟩ := of_read_bind done
  obtain ⟨name, afterName, takenName, last⟩ := of_read_bind onward
  cases last
  obtain ⟨fits, rfl⟩ := of_read_text takenName
  refine ⟨fits, ?_⟩
  rw [of_read_clientId takenId]
  simp only [Member.fields, List.flatMap_cons, List.flatMap_nil, List.append_nil,
    List.append_assoc]

theorem of_read_members {count : Nat} {list : List Member}
    (done : (members count).read bytes = (.ok list, rest)) :
    list.length = count ∧ (∀ m ∈ list, m.name.utf8ByteSize ≤ maxTextLength) ∧
      bytes = (list.flatMap Member.fields).flatMap Field.encode ++ rest := by
  -- each member takes its own bytes and leaves the others to the rest of the count
  induction count generalizing bytes list with
  | zero =>
    cases done
    simp
  | succ count inductionHypothesis =>
    obtain ⟨first, afterFirst, takenFirst, onward⟩ := of_read_bind done
    obtain ⟨others, afterOthers, takenOthers, last⟩ := of_read_bind onward
    cases last
    obtain ⟨fits, rfl⟩ := of_read_member takenFirst
    obtain ⟨length, othersFit, rfl⟩ := inductionHypothesis takenOthers
    refine ⟨by rw [List.length_cons, length], ?_, ?_⟩
    · simpa using ⟨fits, othersFit⟩
    · rw [List.flatMap_cons, List.flatMap_append, List.append_assoc]

end Written

end Reader

/-! ## Notices -/

namespace Notice

def cut : Notice → Notice
  | .roomMembers members => .roomMembers (members.map Member.cut)
  | .memberJoined member => .memberJoined member.cut
  | .invalid reason => .invalid (Utf8.longestPrefix maxTextLength reason)
  | notice => notice

/-- Whether a list of members is no longer than its length field can say. -/
def Fits : Notice → Prop
  | .roomMembers members => members.length < 2 ^ 32
  | _ => True

theorem ofByte_toByte (code : NoticeCode) : NoticeCode.ofByte code.toByte = .ok code := by
  cases code <;> rfl

theorem read_fields (notice : Notice) (fits : notice.Fits) (rest : Bytes) :
    notice.code.notice.read (notice.fields.flatMap Field.encode ++ rest) =
      (.ok notice.cut, rest) := by
  cases notice with
  | clientId id | memberLeft id =>
    simp only [fields, List.flatMap_cons, List.flatMap_nil, List.append_nil]
    exact Reader.read_map _ (Reader.read_clientId id rest)
  | roomCode code =>
    simp only [fields, List.flatMap_cons, List.flatMap_nil, List.append_nil]
    exact Reader.read_map _ (Reader.read_word32 code.val rest)
  | roomMembers members =>
    have count : (UInt32.ofNat members.length).toNat = members.length := by
      rw [UInt32.toNat_ofNat']
      exact Nat.mod_eq_of_lt fits
    rw [fields, List.flatMap_cons, List.append_assoc, code, NoticeCode.notice,
      Reader.read_bind _ (Reader.read_word32 _ _), count,
      Reader.read_map _ (Reader.read_members members rest)]
    rfl
  | memberJoined member => exact Reader.read_map _ (Reader.read_member member rest)
  | roomStart | roomClosed => rfl
  | invalid reason =>
    simp only [fields, List.flatMap_cons, List.flatMap_nil, List.append_nil]
    exact Reader.read_map _ (Reader.read_text reason rest)

/-- A notice is read back from its packet, whatever bytes follow. -/
theorem decode_encode (notice : Notice) (fits : notice.Fits) (rest : Bytes) :
    decode (notice.encode ++ rest) = .ok notice.cut := by
  have isControl : Packet.split (notice.encode ++ rest) =
      .ok (.control notice.code.toByte (notice.fields.flatMap Field.encode ++ rest)) := rfl
  have read := read_fields notice fits rest
  simp only [decode, isControl, ofByte_toByte, bind, Except.bind, read]

theorem encode_cut (notice : Notice) : notice.cut.encode = notice.encode := by
  have text : ∀ s : String, Field.encode (.text (Utf8.longestPrefix maxTextLength s)) =
      Field.encode (.text s) := by
    intro s
    rw [Field.encode, Field.encode, encodeText, encodeText,
      Utf8.longestPrefix_eq_self (Utf8.longestPrefix_le maxTextLength s)]
  have member : ∀ m : Member, m.cut.fields.flatMap Field.encode = m.fields.flatMap Field.encode := by
    intro m
    simp only [Member.fields, Member.cut, List.flatMap_cons, text]
  cases notice with
  | roomMembers members =>
    simp only [encode, code, cut, fields, List.length_map, List.flatMap_cons, List.flatMap_assoc,
      List.flatMap_map, member]
  | memberJoined m => simp only [encode, code, cut, fields, member]
  | invalid reason => simp only [encode, code, cut, fields, List.flatMap_cons, text]
  | _ => rfl

/-! ## Notices that need no cutting -/

/-- Whether a notice is written whole: no text is too long for a text field, and no
    list of members for its length field. -/
def WireSized : Notice → Prop
  | .roomMembers members =>
    members.length < 2 ^ 32 ∧ ∀ member ∈ members, member.name.utf8ByteSize ≤ maxTextLength
  | .memberJoined member => member.name.utf8ByteSize ≤ maxTextLength
  | .invalid reason => reason.utf8ByteSize ≤ maxTextLength
  | .clientId _ | .roomCode _ | .memberLeft _ | .roomStart | .roomClosed => True

def texts : Notice → List String
  | .roomMembers members => members.map Member.name
  | .memberJoined member => [member.name]
  | .invalid reason => [reason]
  | .clientId _ | .roomCode _ | .memberLeft _ | .roomStart | .roomClosed => []

theorem wireSized_iff {notice : Notice} :
    notice.WireSized ↔
      notice.Fits ∧ ∀ text ∈ notice.texts, text.utf8ByteSize ≤ maxTextLength := by
  cases notice <;> simp [WireSized, Fits, texts]

theorem WireSized.fits {notice : Notice} (sized : notice.WireSized) : notice.Fits := by
  cases notice with
  | roomMembers members => exact sized.1
  | _ => trivial

theorem WireSized.cut_eq {notice : Notice} (sized : notice.WireSized) : notice.cut = notice := by
  have uncut : ∀ member : Member, member.name.utf8ByteSize ≤ maxTextLength →
      member.cut = member := by
    intro member fits
    rw [Member.cut, Utf8.longestPrefix_eq_self fits]
  cases notice with
  | roomMembers members =>
    rw [cut, List.map_congr_left fun member listed => uncut member (sized.2 member listed),
      List.map_id']
  | memberJoined member => rw [cut, uncut member sized]
  | invalid reason => rw [cut, Utf8.longestPrefix_eq_self sized]
  | _ => rfl

theorem toByte_of_ofByte {byte : UInt8} {code : NoticeCode}
    (known : NoticeCode.ofByte byte = .ok code) : code.toByte = byte := by
  simp only [NoticeCode.ofByte] at known
  split at known <;> cases known <;> rfl

/-- Only fields that a notice of this kind is written with are read as one. -/
theorem of_read_fields {code : NoticeCode} {notice : Notice} {bytes rest : Bytes}
    (done : code.notice.read bytes = (.ok notice, rest)) :
    notice.code = code ∧ notice.WireSized ∧
      bytes = notice.fields.flatMap Field.encode ++ rest := by
  cases code with
  | clientId | memberLeft =>
    obtain ⟨id, taken, rfl⟩ := Reader.of_read_map done
    exact ⟨rfl, trivial, by simpa [fields] using Reader.of_read_clientId taken⟩
  | roomCode =>
    obtain ⟨code, taken, rfl⟩ := Reader.of_read_map done
    exact ⟨rfl, trivial, by simpa [fields] using Reader.of_read_word32 taken⟩
  | roomMembers =>
    obtain ⟨count, afterCount, counted, onward⟩ := Reader.of_read_bind done
    obtain ⟨members, taken, rfl⟩ := Reader.of_read_map onward
    obtain ⟨length, fit, rfl⟩ := Reader.of_read_members taken
    have written : UInt32.ofNat members.length = count := by rw [length, UInt32.ofNat_toNat]
    refine ⟨rfl, ⟨length ▸ count.toNat_lt, fit⟩, ?_⟩
    rw [fields, List.flatMap_cons, written, List.append_assoc]
    exact Reader.of_read_word32 counted
  | memberJoined =>
    obtain ⟨member, taken, rfl⟩ := Reader.of_read_map done
    obtain ⟨fits, rfl⟩ := Reader.of_read_member taken
    exact ⟨rfl, fits, rfl⟩
  | roomStart | roomClosed =>
    cases done
    exact ⟨rfl, trivial, rfl⟩
  | invalid =>
    obtain ⟨reason, taken, rfl⟩ := Reader.of_read_map done
    obtain ⟨fits, rfl⟩ := Reader.of_read_text taken
    exact ⟨rfl, fits, by simp [fields]⟩

/-- A packet that carries a notice is a control packet with its code and fields. -/
theorem of_decode {packet : Bytes} {notice : Notice} (decoded : decode packet = .ok notice) :
    ∃ code fields rest, Packet.split packet = .ok (.control (NoticeCode.toByte code) fields) ∧
      code.notice.read fields = (.ok notice, rest) := by
  cases sorted : Packet.split packet with
  | error error => simp [decode, sorted, bind, Except.bind] at decoded
  | ok kind =>
    cases kind with
    | relayed data => simp [decode, sorted, bind, Except.bind, throw, throwThe] at decoded
    | control byte fields =>
      cases known : NoticeCode.ofByte byte with
      | error error => simp [decode, sorted, known, bind, Except.bind] at decoded
      | ok code =>
        simp only [decode, sorted, known, bind, Except.bind] at decoded
        refine ⟨code, fields, (code.notice.read fields).2, ?_, Prod.ext decoded rfl⟩
        rw [toByte_of_ofByte known]

/-- A packet that carries a notice begins as the notice is written. -/
theorem sized_of_decode {packet : Bytes} {notice : Notice} (decoded : decode packet = .ok notice) :
    notice.WireSized ∧ notice.encode <+: packet := by
  obtain ⟨code, fields, rest, sorted, done⟩ := of_decode decoded
  obtain ⟨rfl, sized, rfl⟩ := of_read_fields done
  exact ⟨sized, rest, Packet.encode_of_split sorted⟩

/-- A notice that needs no cutting is read back from its packet as it is. -/
theorem WireSized.decode_encode {notice : Notice} (sized : notice.WireSized) (rest : Bytes) :
    decode (notice.encode ++ rest) = .ok notice := by
  rw [Notice.decode_encode notice sized.fits rest, sized.cut_eq]

/-- A packet carries a notice exactly when the notice needs no cutting and the packet
    begins as it is written. -/
theorem decode_iff_encode_prefix (packet : Bytes) (notice : Notice) :
    decode packet = .ok notice ↔ notice.WireSized ∧ notice.encode <+: packet := by
  constructor
  · exact sized_of_decode
  · rintro ⟨sized, rest, rfl⟩
    exact sized.decode_encode rest

end Notice

end Rendezvous.Wire

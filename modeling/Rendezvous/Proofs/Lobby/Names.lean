import Rendezvous.Proofs.Lobby.Step
import Rendezvous.Proofs.Wire.Notice

/-! # Names

Where texts come from.  A client has the empty name, the name that it had, or the
one that it takes (`Step.name_origin`), and all that a step ever spells out to
anybody are names of clients (`Step.text_origin`).

So whatever is known of every name that is taken is known of every name that is
stored or told, whether or not the limit on names asks for it.
-/

namespace Rendezvous.Lobby

open Rendezvous.Wire (Member Notice)

variable {lobby : Lobby} {c d : ConnectionId} {client : Client} {room : Room}
  {operation : Operation} {outcome : Outcome (Answer Reply)} {message : Message}
  {notice : Notice}

/-! ## Stored names -/

theorem Step.name_origin (step : Step lobby c operation outcome)
    (record : outcome.lobby.directory.get? d = some client) :
    client.name = "" ∨
      (∃ before, lobby.directory.get? d = some before ∧ client.name = before.name) ∨
        operation = .setName client.name := by
  have kept : ∀ {found : Client}, (∃ before, lobby.directory.get? d = some before ∧
      found = { before with room := found.room }) →
      ∃ before, lobby.directory.get? d = some before ∧ found.name = before.name :=
    fun ⟨before, recordBefore, same⟩ =>
      ⟨before, recordBefore, by simpa using congrArg Client.name same⟩
  cases step with
  | declined | reconnect | absent | start | relayToGuests | relayToHost =>
    exact .inr (.inl ⟨client, record, rfl⟩)
  | enroll fresh =>
    rw [get?_enroll _ _ _ fresh] at record
    split at record
    next => cases record; exact .inl rfl
    next => exact .inr (.inl ⟨client, record, rfl⟩)
  | depart => exact .inr (.inl ⟨client, before_forget record, rfl⟩)
  | departHost => exact .inr (.inl (kept (before_release (before_forget record))))
  | departGuest => exact .inr (.inl (kept (before_seat (before_forget record))))
  | rename =>
    rw [get?_rename] at record
    split at record
    next =>
      -- the client itself has just the name that it takes
      obtain ⟨before, -, rfl⟩ := Option.map_eq_some_iff.mp record
      exact .inr (.inr rfl)
    next => exact .inr (.inl ⟨client, record, rfl⟩)
  | @create _ code =>
    have seated : (lobby.seat c code { code, host := c } (some code)).directory.get? d =
        some client := record
    exact .inr (.inl (kept (before_seat seated)))
  | join | leave => exact .inr (.inl (kept (before_seat record)))
  | close => exact .inr (.inl (kept (before_release record)))

def NamesFit (lobby : Lobby) : Prop :=
  ∀ (d : ConnectionId) (client : Client),
    lobby.directory.get? d = some client → client.name.utf8ByteSize ≤ Wire.maxTextLength

theorem Step.namesFit (step : Step lobby c operation outcome) (fit : lobby.NamesFit)
    (taken : ∀ name, operation = .setName name → name.utf8ByteSize ≤ Wire.maxTextLength) :
    outcome.lobby.NamesFit := by
  intro d client record
  cases step.name_origin record with
  | inl nameless => simp [nameless]
  | inr named =>
    cases named with
    | inl kept =>
      obtain ⟨before, recordBefore, same⟩ := kept
      rw [same]
      exact fit d before recordBefore
    | inr takes => exact taken client.name takes

/-! ## Told names -/

theorem name_of_mem_roster {member : Member} (listed : member ∈ lobby.roster room) :
    ∃ d client, lobby.directory.get? d = some client ∧ member.name = client.name := by
  simp only [roster, List.mem_filterMap, Option.map_eq_some_iff] at listed
  obtain ⟨d, -, client, record, rfl⟩ := listed
  exact ⟨d, client, record, rfl⟩

/-- All that a step spells out to anybody are names of clients. -/
theorem Step.text_origin (step : Step lobby c operation outcome)
    (told : message ∈ outcome.messages) (spelled : message.content = .notice notice) :
    ∀ text ∈ notice.texts,
      ∃ d client, lobby.directory.get? d = some client ∧ text = client.name := by
  have broadcast : ∀ {recipients : List ConnectionId} {sent : Notice},
      message ∈ Message.broadcast recipients sent → sent = notice := by
    intro recipients sent told
    obtain ⟨recipient, -, rfl⟩ := List.mem_map.mp told
    exact Content.notice.inj spelled
  cases step with
  | declined | reconnect | absent | depart | rename => cases told
  | enroll | create =>
    rw [List.mem_singleton.mp told] at spelled
    cases spelled
    simp [Notice.texts]
  | departHost | departGuest | leave | start | close =>
    rw [← broadcast told]
    simp [Notice.texts]
  | @join client code room outside =>
    cases List.mem_append.mp told with
    | inl toMember =>
      rw [← broadcast toMember]
      intro text listed
      exact ⟨c, client, outside.record, List.mem_singleton.mp listed⟩
    | inr toJoiner =>
      rw [List.mem_singleton.mp toJoiner] at spelled
      cases spelled
      intro text listed
      obtain ⟨member, inRoster, rfl⟩ := List.mem_map.mp listed
      exact name_of_mem_roster inRoster
  | relayToGuests =>
    obtain ⟨guest, -, rfl⟩ := List.mem_map.mp told
    cases spelled
  | relayToHost =>
    rw [List.mem_singleton.mp told] at spelled
    cases spelled

end Rendezvous.Lobby
